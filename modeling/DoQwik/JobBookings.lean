import DoQwik.JobLifecycle

/-! Bookings: what a job that `assignJob` creates owes to the catalogue, and the key by which
it takes a booking for a duplicate of an open one. -/
namespace DoQwik
open JsValues DocStore Interleave

section NewJob

theorem required_eq_ok {α : Type} {cast : Json → Except Thrown (Option α)} {v : Option Json} {a : α}
    (h : required cast v = .ok a) : ∃ w, v = some w ∧ cast w = .ok (some a) := by
  rcases v with _ | w
  · cases h
  · simp only [required, castSet] at h
    cases hc : cast w with
    | error e =>
      rw [hc] at h
      cases h
    | ok x =>
      rw [hc] at h
      cases x with
      | none => cases h
      | some b =>
        cases h
        exact ⟨w, rfl, hc⟩

theorem nonempty_eq_ok {s t : String} (h : nonempty s = .ok t) : s = t := by
  unfold nonempty at h
  split at h
  · cases h
  · exact Except.ok.inj h

/-- What a new job takes over from the lookups and from the request. -/
structure NewJob (env : Env) (b : JobBody) (user : User) (provider : Provider)
    (offer : ProviderSubService) (j : Job) : Prop where
  id : j.id = env.newId
  userId : j.userId = user.id
  providerData : j.providerData = provider.id
  serviceType : required castObjectId b.serviceType = .ok j.serviceType
  amount : offer.price = some j.amount
  serviceDate : ∃ d, j.serviceDate = some d ∧ required castTrimmed b.serviceDate = .ok d
  serviceTime : ∃ t, j.serviceTime = some t ∧ required castTrimmed b.serviceTime = .ok t

theorem newJob_spec {env : Env} {b : JobBody} {image : Option String} {seqId : ℕ} {user : User}
    {provider : Provider} {offer : ProviderSubService} {service : Service} {sub : SubService}
    {j : Job}
    (h : newJob env b image seqId user provider offer service sub = .ok j) :
    NewJob env b user provider offer j := by
  unfold newJob at h
  obtain ⟨serviceType, htype, h⟩ := bind_eq_ok h
  obtain ⟨_, -, h⟩ := bind_eq_ok h
  obtain ⟨_, -, h⟩ := bind_eq_ok h
  obtain ⟨amount, hamount, h⟩ := bind_eq_ok h
  obtain ⟨_, -, h⟩ := bind_eq_ok h
  obtain ⟨date, hdate, h⟩ := bind_eq_ok h
  obtain ⟨time, htime, h⟩ := bind_eq_ok h
  iterate 5 obtain ⟨_, -, h⟩ := bind_eq_ok h
  cases h
  obtain ⟨date', hdate', hne⟩ := bind_eq_ok hdate
  obtain ⟨time', htime', hne'⟩ := bind_eq_ok htime
  have hprice : offer.price = some amount := by
    cases hp : offer.price with
    | none =>
      rw [hp] at hamount
      cases hamount
    | some a =>
      rw [hp] at hamount
      cases hamount
      rfl
  exact ⟨rfl, rfl, rfl, htype, hprice, ⟨date, rfl, nonempty_eq_ok hne ▸ hdate'⟩,
    ⟨time, rfl, nonempty_eq_ok hne' ▸ htime'⟩⟩

/-- The id in the request is the one that the query for it selects. -/
theorem serviceType_of_query {v : Option Json} {p : Option ObjectId → Bool} {i : ObjectId}
    (hv : ObjectId.isValid v = true) (hp : castForQuery objectIdType v = .ok p)
    (hi : required castObjectId v = .ok i) : p = fun x => decide (x = some i) := by
  obtain ⟨w, a, rfl, ha, rfl⟩ := castForQuery_of_isValid hv hp
  obtain ⟨w', hw', hi'⟩ := required_eq_ok hi
  cases hw'
  rw [ha] at hi'
  cases hi'
  rfl

end NewJob

section Prices

def ProviderSubService.ownedBy (o : ProviderSubService) (p : ObjectId) : Bool :=
  o.company = some p || o.individual = some p

/-- The offer that the job was booked by is one of its provider, at the price of the job. -/
def PricedByProvider (s : Db) (j : Job) : Prop :=
  ∃ o, s.providerSubServices.get? j.serviceType = some o ∧ o.ownedBy j.providerData = true ∧
    o.price = some j.amount

/-- The offer that `service_type` selects belongs to the provider that `provider_id` selects. -/
def offerOwned (s : Db) (r : JobRequest) : Bool :=
  (selected s.providerSubServices (offerById r.body.serviceType)).all fun o =>
    (selected s.providers (activeProvider r.body.providerId)).all fun p => o.ownedBy p.id

/-- The job is priced by the offer that the request names. -/
theorem offer_of_creates {s : Db} {r : JobRequest} {k : Booking} {j : Job} (h : k.Creates s r j) :
    s.providerSubServices.get? j.serviceType = some k.offer ∧ k.offer.price = some j.amount := by
  have hnew := newJob_spec h.new
  have hoffer := h.offer
  refine ⟨?_, hnew.amount⟩
  have hget := get?_of_selected hoffer
  unfold offerById at hoffer
  cases hq : castForQuery objectIdType r.body.serviceType with
  | error e =>
    rw [hq] at hoffer
    cases hoffer
  | ok q =>
    rw [hq] at hoffer
    have hm := (Collection.mem_of_findOne hoffer).2
    rw [serviceType_of_query h.validType hq hnew.serviceType] at hm
    have hid : k.offer.id = j.serviceType := by simpa using hm
    rw [← hid]
    exact hget

/-- A job that `assignJob` creates is priced by its provider exactly when the offer and the
provider that the request names belong together. -/
theorem pricedByProvider_iff (s : Db) (r : JobRequest) (j : Job) (hbefore : s.jobs.get? j.id = none)
    (hafter : (serve s r).jobs.get? j.id = some j) :
    PricedByProvider s j ↔ offerOwned s r = true := by
  rcases get?_serve_cases hafter with ⟨w, j₀, -, hfind, hid, -⟩ | ⟨hold, -⟩ | ⟨k, hk, -⟩
  · rw [← hid, Collection.get?_of_findOne hfind] at hbefore
    cases hbefore
  · rw [hold] at hbefore
    cases hbefore
  · obtain ⟨hoffer, hprice⟩ := offer_of_creates hk
    have howned : offerOwned s r = k.offer.ownedBy j.providerData := by
      rw [(newJob_spec hk.new).providerData]
      simp only [offerOwned, hk.offer, hk.provider, Option.all_some]
    rw [howned]
    constructor
    · rintro ⟨o, ho, hown, -⟩
      rw [hoffer, Option.some.injEq] at ho
      rw [ho]
      exact hown
    · exact fun hown => ⟨k.offer, hoffer, hown, hprice⟩

def bookedJob (r : JobRequest) : Option Job := (serve sampleDb r).jobs.get? (idOf "job-------01")

theorem pricedByProvider_sample :
    ∃ j, sampleDb.jobs.get? j.id = none ∧ (serve sampleDb sampleBooking).jobs.get? j.id = some j ∧
      PricedByProvider sampleDb j := by
  have hsome : (bookedJob sampleBooking).map Job.id = some (idOf "job-------01") := by
    decide +kernel
  obtain ⟨j, hj, hid⟩ := Option.map_eq_some_iff.mp hsome
  have hbefore : sampleDb.jobs.get? j.id = none := rfl
  have hafter : (serve sampleDb sampleBooking).jobs.get? j.id = some j := by
    rw [hid]
    exact hj
  exact ⟨j, hbefore, hafter,
    (pricedByProvider_iff sampleDb sampleBooking j hbefore hafter).mpr (by decide +kernel)⟩

def strayBooking : JobRequest :=
  { sampleBooking with body :=
      { sampleBooking.body with providerId := some (.str "worker----01") } }

/-- A booking pairs the offer of one provider with another provider. -/
theorem offer_of_another_provider :
    ∃ j, sampleDb.jobs.get? j.id = none ∧ (serve sampleDb strayBooking).jobs.get? j.id = some j ∧
      ¬ PricedByProvider sampleDb j := by
  have hsome : (bookedJob strayBooking).map (fun j => (j.id, j.serviceType, j.providerData)) =
      some (idOf "job-------01", idOf "offer-----01", idOf "worker----01") := by
    decide +kernel
  obtain ⟨j, hj, hpair⟩ := Option.map_eq_some_iff.mp hsome
  obtain ⟨hid, htype, hprovider⟩ : j.id = idOf "job-------01" ∧ j.serviceType = idOf "offer-----01" ∧
      j.providerData = idOf "worker----01" := by simpa using hpair
  refine ⟨j, rfl, by rw [hid]; exact hj, ?_⟩
  rintro ⟨o, ho, hown, -⟩
  rw [htype] at ho
  have hoffer : sampleDb.providerSubServices.get? (idOf "offer-----01") = some sampleOffer :=
    (Collection.get?_eq_some_iff _ _ _).mpr ⟨List.mem_singleton_self sampleOffer, rfl⟩
  rw [hoffer, Option.some.injEq] at ho
  rw [← ho, hprovider] at hown
  exact absurd hown (by decide +kernel)

end Prices

section Duplicates

/-- What `assignJob` compares to find a duplicate among the open bookings. -/
structure BookingKey where
  userId : ObjectId
  providerData : ObjectId
  serviceType : ObjectId
  serviceDate : Option String
  serviceTime : Option String
deriving DecidableEq

def Job.key (j : Job) : BookingKey :=
  ⟨j.userId, j.providerData, j.serviceType, j.serviceDate, j.serviceTime⟩

/-- No two open bookings have the same key. -/
def NoDuplicate (s : Db) : Prop :=
  ∀ j ∈ s.jobs.docs, ∀ j' ∈ s.jobs.docs, j.jobStatus = .processing → j'.jobStatus = .processing →
    j.key = j'.key → j.id = j'.id

instance (s : Db) : Decidable (NoDuplicate s) :=
  inferInstanceAs (Decidable (∀ j ∈ s.jobs.docs, ∀ j' ∈ s.jobs.docs, _))

/-- No state of the run has a duplicate. -/
def NoDuplicateThroughout (s : Db) (rs : List JobRequest) : Prop :=
  ∀ pre post, rs = pre ++ post → NoDuplicate (runFrom serve s pre)

/-- The string that the update stores for a value of the request, or what was there. -/
def storedText (v : Option Json) (old : Option String) : Option String :=
  match castSet castTrimmed v with
  | .ok x => x.getD old
  | .error _ => old

def rescheduledKey (r : JobRequest) (j : Job) : BookingKey :=
  { j.key with
    serviceDate := storedText r.body.serviceDate j.serviceDate
    serviceTime := storedText r.body.serviceTime j.serviceTime }

/-- The request moves an open booking onto the date and time of another one. -/
def reschedulesOnto (s : Db) (r : JobRequest) : Bool :=
  r.handler = .userJobReschedule && (r.written s).any fun j =>
    j.jobStatus = .processing && s.jobs.docs.any fun j' =>
      j'.id ≠ j.id && j'.jobStatus = .processing && j'.key = rescheduledKey r j

/-- The duplicate that `assignJob` looks for is an open booking with the key of the new one. -/
theorem duplicateOf_iff {s : Db} {r : JobRequest} {k : Booking} {new : Job} {q : Job → Bool}
    (h : k.Creates s r new) (hq : duplicateOf r.env r.body k.user.id k.provider.id = .ok q)
    (j : Job) :
    q j = true ↔ j.jobStatus = .processing ∧ j.key = new.key := by
  have hnew := newJob_spec h.new
  unfold duplicateOf at hq
  obtain ⟨p₁, h₁, hq⟩ := bind_eq_ok hq
  obtain ⟨p₂, h₂, hq⟩ := bind_eq_ok hq
  obtain ⟨p₃, h₃, hq⟩ := bind_eq_ok hq
  cases hq
  obtain ⟨date, hdate, hrd⟩ := hnew.serviceDate
  obtain ⟨time, htime, hrt⟩ := hnew.serviceTime
  obtain ⟨v₂, hv₂, hc₂⟩ := required_eq_ok hrd
  obtain ⟨v₃, hv₃, hc₃⟩ := required_eq_ok hrt
  rw [hv₂] at h₂
  rw [hv₃] at h₃
  rw [serviceType_of_query h.validType h₁ hnew.serviceType, castForQuery_of_castTrimmed h₂ hc₂,
    castForQuery_of_castTrimmed h₃ hc₃]
  simp only [Job.key, BookingKey.mk.injEq, hnew.userId, hnew.providerData, hdate, htime,
    Bool.and_eq_true, decide_eq_true_eq, Option.some.injEq]
  tauto

/-- Only a reschedule changes the date and the time. -/
theorem plan_serviceDate {r : JobRequest} {j : Job} {d : JobSet} (h : r.plan j = .ok (.update d))
    (hr : r.handler ≠ .userJobReschedule) : d.serviceDate = none ∧ d.serviceTime = none := by
  cases plan_change h with
  | userJobReschedule hh => exact absurd hh hr
  | _ => exact ⟨rfl, rfl⟩

/-- The key of a job after an update. -/
theorem key_apply {r : JobRequest} {j : Job} {d : JobSet} (h : r.plan j = .ok (.update d)) (now : ℤ)
    (j' : Job) :
    (d.apply now j').key =
      if r.handler = .userJobReschedule then rescheduledKey r j' else j'.key := by
  have hterms := (plan_keepsTerms h).apply_terms now j'
  simp only [Job.terms, JobTerms.mk.injEq] at hterms
  obtain ⟨-, huser, hprovider, -, htype, -⟩ := hterms
  have hkey : (d.apply now j').key =
      { j'.key with
        serviceDate := d.serviceDate.getD j'.serviceDate
        serviceTime := d.serviceTime.getD j'.serviceTime } := by
    simp only [Job.key, huser, hprovider, htype]
    rfl
  rw [hkey]
  split
  · rename_i hr
    unfold JobRequest.plan at h
    rw [hr] at h
    obtain ⟨-, _, _, _, -, hdate, htime, rfl⟩ := userJobRescheduleParam_eq h
    simp only [rescheduledKey, storedText, hdate, htime]
  · rename_i hr
    obtain ⟨hdate, htime⟩ := plan_serviceDate h hr
    rw [hdate, htime]
    rfl

/-- No handler opens a booking again: one that is open after an update was open before. -/
theorem processing_of_apply {r : JobRequest} {j : Job} {d : JobSet} (h : r.plan j = .ok (.update d))
    {now : ℤ} {j' : Job} (hp : (d.apply now j').jobStatus = .processing) :
    j'.jobStatus = .processing := by
  rw [JobSet.apply_jobStatus, (plan_follows_machine h).2] at hp
  cases hh : r.handler <;> rw [hh] at hp <;> first | exact hp | cases hp

/-- The updated booking and another one that was left alone. -/
theorem id_eq_of_written {s : Db} {r : JobRequest} (hs : NoDuplicate s)
    (hr : reschedulesOnto s r = false) {w : JobWrite} {j j' : Job} (hw : r.write s = some w)
    (hfind : s.jobs.findOne w.sel = some j) (hj' : j' ∈ s.jobs.docs)
    (hp : (w.data.apply r.env.now j).jobStatus = .processing) (hp' : j'.jobStatus = .processing)
    (hkey : (w.data.apply r.env.now j).key = j'.key) : j.id = j'.id := by
  obtain ⟨-, p, j₁, -, -, hplan, -⟩ := write_eq_some hw
  have hopen := processing_of_apply hplan hp
  rw [key_apply hplan] at hkey
  split at hkey
  · rename_i hh
    by_contra hne
    have hwritten : r.written s = some j := by
      simp only [JobRequest.written, hw, Option.bind_some, hfind]
    have hcollides : reschedulesOnto s r = true := by
      simp only [reschedulesOnto, hh, hwritten, Option.any_some, hopen, decide_true, Bool.true_and,
        List.any_eq_true, Bool.and_eq_true, decide_eq_true_eq]
      exact ⟨j', hj', ⟨fun h => hne h.symm, hp'⟩, hkey.symm⟩
    rw [hcollides] at hr
    cases hr
  · exact hs j (Collection.mem_of_findOne hfind).1 j' hj' hopen hp' hkey

/-- A new booking is no duplicate of an open one. -/
theorem key_ne_of_creates {s : Db} {r : JobRequest} {k : Booking} {new j : Job}
    (h : k.Creates s r new) (hj : j ∈ s.jobs.docs) (hp : j.jobStatus = .processing) :
    j.key ≠ new.key := by
  intro hkey
  obtain ⟨q, hq, hnone⟩ := h.single
  have hfound := (duplicateOf_iff h hq j).mpr ⟨hp, hkey⟩
  exact List.find?_eq_none.mp hnone j hj hfound

/-- One request keeps the bookings without duplicates, unless it moves one onto another. -/
theorem noDuplicate_serve {s : Db} {r : JobRequest} (hs : NoDuplicate s)
    (hr : reschedulesOnto s r = false) : NoDuplicate (serve s r) := by
  intro j hj j' hj' hp hp' hkey
  rcases get?_serve_cases (Collection.get?_key hj) with
    ⟨w, j₀, hw, hfind, hid, rfl⟩ | ⟨hold, -⟩ | ⟨k, hk, -⟩
  · rcases get?_serve_cases (Collection.get?_key hj') with
      ⟨w', j₀', hw', hfind', hid', rfl⟩ | ⟨hold', -⟩ | ⟨k', hk', -⟩
    · rw [hw, Option.some.injEq] at hw'
      subst hw'
      rw [hfind, Option.some.injEq] at hfind'
      rw [hfind']
    · change j₀.id = j'.id
      exact id_eq_of_written hs hr hw hfind (Collection.mem_of_findOne hold').1 hp hp' hkey
    · have hwritten : r.written s = some j₀ := by
        simp only [JobRequest.written, hw, Option.bind_some, hfind]
      exact absurd hk'.handler (written_assignJob hwritten)
  · have hmem := (Collection.mem_of_findOne hold).1
    rcases get?_serve_cases (Collection.get?_key hj') with
      ⟨w', j₀', hw', hfind', hid', rfl⟩ | ⟨hold', -⟩ | ⟨k', hk', -⟩
    · exact (id_eq_of_written hs hr hw' hfind' hmem hp' hp hkey.symm).symm
    · exact hs j hmem j' (Collection.mem_of_findOne hold').1 hp hp' hkey
    · exact absurd hkey (key_ne_of_creates hk' hmem hp)
  · rcases get?_serve_cases (Collection.get?_key hj') with
      ⟨w', j₀', hw', hfind', hid', rfl⟩ | ⟨hold', -⟩ | ⟨k', hk', -⟩
    · have hwritten : r.written s = some j₀' := by
        simp only [JobRequest.written, hw', Option.bind_some, hfind']
      exact absurd hk.handler (written_assignJob hwritten)
    · exact absurd hkey.symm (key_ne_of_creates hk (Collection.mem_of_findOne hold').1 hp')
    · rw [(newJob_spec hk.new).id, (newJob_spec hk'.new).id]

/-- A reschedule onto another open booking makes a duplicate. -/
theorem not_noDuplicate_of_reschedulesOnto {s : Db} {r : JobRequest}
    (h : reschedulesOnto s r = true) : ¬ NoDuplicate (serve s r) := by
  simp only [reschedulesOnto, Bool.and_eq_true, decide_eq_true_eq, Option.any_eq_true,
    List.any_eq_true] at h
  obtain ⟨hh, j, hj, hp, j', hj', ⟨hne, hp'⟩, hkey⟩ := h
  obtain ⟨w, hw, hfind⟩ := Option.bind_eq_some_iff.mp hj
  obtain ⟨-, p, j₁, -, -, hplan, -⟩ := write_eq_some hw
  have hmoved := get?_serve_written (written_assignJob hj) hw hfind
  have hother : (serve s r).jobs.get? j'.id = some j' := by
    apply get?_serve_of_not_written (Collection.get?_key hj')
    intro hj₂
    rw [hj, Option.some.injEq] at hj₂
    exact hne (congrArg Job.id hj₂).symm
  intro hdup
  have hid := hdup _ (Collection.mem_of_findOne hmoved).1 j' (Collection.mem_of_findOne hother).1
    (by
      rw [JobSet.apply_jobStatus, (plan_follows_machine hplan).2, hh]
      exact hp)
    hp' (by rw [key_apply hplan, if_pos hh, hkey])
  exact hne hid.symm

/-- Over a run from a database without jobs, no two open bookings have the same key exactly
when no request moves an open booking onto the date and time of another one. -/
theorem noDuplicateThroughout_iff (s : Db) (rs : List JobRequest) :
    NoDuplicateThroughout { s with jobs := .empty _ } rs ↔
      Along serve (fun t r => reschedulesOnto t r = false) { s with jobs := .empty _ } rs := by
  refine throughout_iff (I := NoDuplicate) (J := fun _ => True) (fun _ _ _ => trivial) ?_
    (fun j hj => (List.not_mem_nil hj).elim) trivial rs
  intro t r _ ht
  constructor
  · intro hafter
    by_contra hr
    exact not_noDuplicate_of_reschedulesOnto (Bool.eq_true_of_not_eq_false hr) hafter
  · exact noDuplicate_serve ht

def twoBookings : List JobRequest :=
  [sampleBooking,
    { sampleBooking with
      body := { sampleBooking.body with
        serviceDate := some (.str "2024-01-03"), serviceTime := some (.str "11:00") }
      env := { sampleEnv 2 with newId := idOf "job-------02" } }]

/-- The customer moves the first booking onto the date and time of the second. -/
theorem reschedule_makes_duplicate :
    ¬ NoDuplicateThroughout { sampleDb with jobs := .empty _ }
      (twoBookings ++ [onSampleJob .userJobReschedule customer 3]) := by
  intro h
  have hdup : ¬ NoDuplicate (runFrom serve { sampleDb with jobs := .empty _ }
      (twoBookings ++ [onSampleJob .userJobReschedule customer 3])) := by
    decide +kernel
  exact hdup (h _ [] (List.append_nil _).symm)

end Duplicates

end DoQwik
