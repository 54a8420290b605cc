import DoQwik.JobParties
import DoQwik.JobLists

/-! Whether a response tells the start code of a job to somebody else than its customer. Two
runs of the same calls are compared, from states that differ in the code of one job only. -/
namespace DoQwik
open JsValues DocStore Interleave

/-- One job, its customer, the code that it has, and the code that it has in the other run. -/
structure Secret where
  job : ObjectId
  customer : ObjectId
  code : Option JsNum
  otherCode : Option JsNum

section States

variable (x : Secret)

def setCode (j : Job) : Job :=
  if j.id = x.job then { j with verificationCode := x.otherCode } else j

theorem setCode_of_ne {j : Job} (h : j.id ≠ x.job) : setCode x j = j := if_neg h

/-- What does not look at the code does not see the difference. -/
theorem blind_setCode {β : Type} {f : Job → β}
    (h : ∀ j code, f { j with verificationCode := code } = f j) (j : Job) :
    f (setCode x j) = f j := by
  unfold setCode
  split
  · exact h j _
  · rfl

@[simp] theorem setCode_id (j : Job) : (setCode x j).id = j.id := blind_setCode x (fun _ _ => rfl) j

/-- An update that keeps the terms does not touch the code. -/
theorem setCode_apply {d : JobSet} (hd : d.KeepsTerms) (now : ℤ) (j : Job) :
    d.apply now (setCode x j) = setCode x (d.apply now j) := by
  unfold setCode
  rw [JobSet.apply_id]
  split
  · simp only [JobSet.apply, hd.verificationCode, Option.getD_none]
  · rfl

def withCode (s : Db) : Db := { s with jobs := s.jobs.map (setCode x) (setCode_id x) }

/-- The second state has the other code for the job, and is else the same. -/
structure CodeDiffers (s s' : Db) : Prop where
  other : s' = withCode x s
  job : ∃ j, s.jobs.get? x.job = some j ∧ j.verificationCode = x.code ∧ j.userId = x.customer

variable {x}

/-- A job of somebody else is the same in both states. -/
theorem CodeDiffers.setCode_eq {s s' : Db} (h : CodeDiffers x s s') {j : Job} (hj : j ∈ s.jobs.docs)
    (hu : j.userId ≠ x.customer) : setCode x j = j := by
  apply setCode_of_ne
  intro hid
  obtain ⟨j₀, hj₀, -, hu₀⟩ := h.job
  rw [← hid, Collection.get?_key hj, Option.some.injEq] at hj₀
  exact hu (hj₀ ▸ hu₀)

theorem CodeDiffers.findOne {s s' : Db} (h : CodeDiffers x s s') {p : Job → Bool}
    (hp : ∀ j, p (setCode x j) = p j) :
    s'.jobs.findOne p = (s.jobs.findOne p).map (setCode x) := by
  rw [h.other]
  exact Collection.findOne_map s.jobs (setCode_id x) hp

end States

/-- Run from two such states, the programs have the same outcome up to `V`. -/
abbrev AgreeButCode (x : Secret) {α β : Type} (V : α → β → Prop) (p : Action α) (q : Action β) :
    Prop :=
  Prog.Related exec (CodeDiffers x) V p q

section Operations

variable {x : Secret}

/-- An update by paths other than the code. -/
theorem agree_updateJob {sel : Job → Bool} (hsel : ∀ j, sel (setCode x j) = sel j) {d : JobSet}
    (hd : d.KeepsTerms) (now : ℤ) :
    AgreeButCode x (fun y z : Option Job => z = y.map (setCode x))
      (Prog.perform (DbOp.updateJob sel d now)) (Prog.perform (DbOp.updateJob sel d now)) := by
  apply related_perform
  intro s s' hs
  refine ⟨⟨?_, ?_⟩, ?_⟩
  · rw [hs.other]
    exact congrArg (fun c => { withCode x s with jobs := c })
      (Collection.updateOne_map s.jobs (setCode_id x) hsel _ fun j => setCode_apply x hd now j)
  · obtain ⟨j, hj, hcode, huser⟩ := hs.job
    rw [exec_updateJob_jobs, Collection.get?_updateOne]
    split
    · refine ⟨d.apply now j, by rw [hj, Option.map_some], ?_, ?_⟩
      · simpa only [JobSet.apply, hd.verificationCode, Option.getD_none] using hcode
      · simpa only [JobSet.apply, hd.userId, Option.getD_none] using huser
    · exact ⟨j, hj, hcode, huser⟩
  · change (s'.jobs.findOne sel).map (d.apply now) =
      ((s.jobs.findOne sel).map (d.apply now)).map (setCode x)
    rw [hs.findOne hsel, Option.map_map, Option.map_map]
    congr 1
    funext j
    exact setCode_apply x hd now j

/-- The creation of a job succeeds in both states or in none, and under another id. -/
theorem agree_insertJob (new : Job) :
    AgreeButCode x (fun b b' : Bool => b = b' ∧ (b = true → new.id ≠ x.job)) (insertJob new)
      (insertJob new) := by
  apply related_perform
  intro s s' hs
  obtain ⟨j, hj, hcode, huser⟩ := hs.job
  by_cases hid : new.id = x.job
  · -- The id is taken by the job itself.
    have hnone : ∀ t : Db, (t.jobs.get? x.job).isSome = true → t.jobs.insert new = none := by
      intro t ht
      cases hi : t.jobs.insert new with
      | none => rfl
      | some c =>
        have hfree := Collection.get?_of_insert hi
        rw [hid] at hfree
        rw [hfree] at ht
        cases ht
    have hs₁ : s.jobs.insert new = none := hnone s (by rw [hj]; rfl)
    have hs₂ : s'.jobs.insert new = none := by
      apply hnone
      rw [hs.other, withCode, Collection.get?_map, hj]
      rfl
    rw [exec_createJob_none hs₁, exec_createJob_none hs₂]
    exact ⟨hs, rfl, fun h => by cases h⟩
  · have hmap := Collection.insert_map s.jobs (setCode_id x) (setCode_of_ne x hid)
    have hs' : s'.jobs = s.jobs.map (setCode x) (setCode_id x) := by rw [hs.other]; rfl
    rw [← hs'] at hmap
    cases hi : s.jobs.insert new with
    | none =>
      rw [hi] at hmap
      rw [exec_createJob_none hi, exec_createJob_none hmap]
      exact ⟨hs, rfl, fun h => by cases h⟩
    | some c =>
      rw [hi] at hmap
      rw [exec_createJob_some hi, exec_createJob_some hmap]
      refine ⟨⟨by rw [hs.other]; rfl, j, ?_, hcode, huser⟩, rfl, fun _ => hid⟩
      exact (Collection.get?_insert hi x.job).trans ((if_neg hid).trans hj)

/-- An operation on something else than the jobs. -/
theorem agree_perform (op : DbOp) (hw : op.writesJobs = false)
    (hop : ∀ s, exec op (withCode x s) = (withCode x (exec op s).1, (exec op s).2)) :
    AgreeButCode x Eq (Prog.perform op : Action (Ret op)) (Prog.perform op) := by
  apply related_perform
  intro s s' hs
  rw [hs.other, hop s]
  refine ⟨⟨rfl, ?_⟩, rfl⟩
  rw [exec_jobs_of_not_writesJobs hw]
  exact hs.job

theorem agree_getSequence (table : String) :
    AgreeButCode x Eq (getSequence table) (getSequence table) := by
  rw [getSequence_eq]
  refine Prog.Related.bind (V := Eq) (related_query fun s s' hs => by rw [hs.other]; rfl) ?_
  rintro found _ rfl
  cases found with
  | some c =>
    refine Prog.Related.bind (V := Eq)
      (agree_perform (.updateCounter table (c.seq+1) (c.seq+1)) rfl fun s => rfl) ?_
    exact fun _ _ _ => Prog.Related.done rfl
  | none =>
    let c : Counter := ⟨table, firstSequence, firstSequence⟩
    refine Prog.Related.bind (V := Eq) (agree_perform (.createCounter c) rfl fun s => ?_) ?_
    · cases hi : s.counters.insert c with
      | none =>
        have hi' : (withCode x s).counters.insert c = none := hi
        rw [exec_createCounter_none hi, exec_createCounter_none hi']
        rfl
      | some cs =>
        have hi' : (withCode x s).counters.insert c = some cs := hi
        rw [exec_createCounter_some hi, exec_createCounter_some hi']
        rfl
    · rintro created _ rfl
      cases created with
      | true => exact Prog.Related.done rfl
      | false => exact Prog.Related.fail _ _

end Operations

section Guesses

def JobRequest.selects (r : JobRequest) (job : ObjectId) : Bool :=
  match castForQuery objectIdType r.target with
  | .ok p => p (some job)
  | .error _ => false

/-- The code of the request passes for `code`. -/
def JobRequest.submits (r : JobRequest) (code : Option JsNum) : Bool :=
  match parseIntOf r.body.code with
  | .ok n => code.any (·.strictEq n)
  | .error _ => false

def JobRequest.guesses (r : JobRequest) (job : ObjectId) (code : Option JsNum) : Bool :=
  r.handler = .jobStart && r.selects job && r.submits code

def JobCall.guesses (job : ObjectId) (code : Option JsNum) : JobCall → Bool
  | .change r => r.guesses job code
  | .list _ => false

theorem selects_of_jobById {r : JobRequest} {p : Job → Bool} (hp : jobById r.target = .ok p)
    {j : Job} (hj : p j = true) : r.selects j.id = true := by
  obtain ⟨q, hq, rfl⟩ := map_eq_ok hp
  unfold JobRequest.selects
  rw [hq]
  exact hj

/-- Unless it guesses one of the codes, a request plans the same for both. -/
theorem plan_setCode {x : Secret} {r : JobRequest} (hg : r.guesses x.job x.code = false)
    (hg' : r.guesses x.job x.otherCode = false) {j : Job} (hsel : r.selects j.id = true)
    (hcode : j.id = x.job → j.verificationCode = x.code) : r.plan (setCode x j) = r.plan j := by
  by_cases hid : j.id = x.job
  · unfold setCode
    rw [if_pos hid]
    rw [hid] at hsel
    unfold JobRequest.guesses at hg hg'
    rw [hsel] at hg hg'
    obtain ⟨handler, c, b, files, env⟩ := r
    cases handler with
    | jobStart =>
      simp only [JobRequest.submits, decide_true, Bool.true_and] at hg hg'
      simp only [JobRequest.plan, jobStartParam, hcode hid]
      cases hn : parseIntOf b.code with
      | error e => rfl
      | ok n =>
        rw [hn] at hg hg'
        simp only [bind, Except.bind, hg, hg', Bool.false_eq_true, if_false]
    | _ => rfl
  · rw [setCode_of_ne x hid]

theorem filter_setCode (x : Secret) (r : JobRequest) (j : Job) :
    r.filter (setCode x j) = r.filter j := by
  apply blind_setCode
  intro j code
  unfold JobRequest.filter
  cases r.handler <;> rfl

theorem jobById_setCode (x : Secret) {v : Option Json} {p : Job → Bool} (hp : jobById v = .ok p)
    (j : Job) : p (setCode x j) = p j := by
  obtain ⟨q, -, rfl⟩ := map_eq_ok hp
  simp only [setCode_id]

end Guesses

section Updates

variable {x : Secret}

def recodeResult (x : Secret) : JobResult → JobResult
  | .job j => .job (j.map (setCode x))
  | a => a

def recode (x : Secret) (a : JobResponse) : JobResponse :=
  { a with result := a.result.map (recodeResult x) }

theorem agree_sendResult (y : Option Job) :
    AgreeButCode x (fun a b => b = recode x a) (sendResult y) (sendResult (y.map (setCode x))) :=
  Prog.Related.done rfl

theorem agree_notifyAndSend (kinds : List NoticeKind) (y : Option Job) :
    AgreeButCode x (fun a b => b = recode x a) (notifyAndSend kinds y)
      (notifyAndSend kinds (y.map (setCode x))) := by
  cases y with
  | none => exact Prog.Related.fail _ _
  | some j =>
    simp only [Option.map_some, notifyAndSend, setCode_id]
    have hnotify : AgreeButCode x Eq (notifyAll j.id kinds) (notifyAll j.id kinds) := by
      induction kinds with
      | nil => exact Prog.Related.done rfl
      | cons kind kinds ih =>
        refine Prog.Related.bind (V := Eq)
          (agree_perform (.notify ⟨kind, j.id⟩) rfl fun s => rfl) ?_
        exact fun _ _ _ => ih
    refine Prog.Related.bind hnotify ?_
    exact fun _ _ _ => agree_sendResult (some j)

theorem agree_sendOrNotFound (y : Option Job) :
    AgreeButCode x (fun a b => b = recode x a) (sendOrNotFound y)
      (sendOrNotFound (y.map (setCode x))) := by
  cases y with
  | none => exact Prog.Related.done rfl
  | some j => exact agree_sendResult (some j)

theorem agree_finish (r : JobRequest) (y : Option Job) :
    AgreeButCode x (fun a b => b = recode x a) (r.finish y) (r.finish (y.map (setCode x))) := by
  unfold JobRequest.finish
  cases r.handler with
  | proceedToPay | jobAccept | jobStart | jobFinish | paymentUpdate =>
    exact agree_notifyAndSend _ y
  | submitFeedback | replyFeedback => exact agree_sendOrNotFound y
  | _ => exact agree_sendResult y

/-- The job that a handler reads, in both states. -/
theorem agree_getOnlyOneData {p : Job → Bool} (hp : ∀ j, p (setCode x j) = p j) :
    AgreeButCode x (fun y z => (y = none ∧ z = none) ∨ ∃ q q', y = some q ∧ z = some q' ∧
        q'.job = setCode x q.job ∧ p q.job = true ∧
        (q.job.id = x.job → q.job.verificationCode = x.code ∧ q.job.userId = x.customer) ∧
        (q.job.id ≠ x.job → q' = q))
      (getOnlyOneData (.ok p)) (getOnlyOneData (.ok p)) := by
  refine related_query fun s s' hs => ?_
  rw [hs.findOne hp]
  cases hj : s.jobs.findOne p with
  | none => exact Or.inl ⟨rfl, rfl⟩
  | some j =>
    have hm := Collection.mem_of_findOne hj
    refine Or.inr ⟨populate s j, populate s' (setCode x j), rfl, rfl, rfl, hm.2, ?_, ?_⟩
    · intro hid
      obtain ⟨j₀, hj₀, hcode, huser⟩ := hs.job
      change j.id = x.job at hid
      rw [← hid, Collection.get?_of_findOne hj, Option.some.injEq] at hj₀
      rw [← hj₀] at hcode huser
      exact ⟨hcode, huser⟩
    · intro hid
      change j.id ≠ x.job at hid
      rw [setCode_of_ne x hid, hs.other]
      rfl

theorem agree_changeJob {r : JobRequest} (hg : r.guesses x.job x.code = false)
    (hg' : r.guesses x.job x.otherCode = false) :
    AgreeButCode x (fun a b => b = recode x a)
      (changeJob r.env r.target r.filter r.plan r.finish)
      (changeJob r.env r.target r.filter r.plan r.finish) := by
  unfold changeJob
  cases hp : jobById r.target with
  | error e => exact Prog.Related.fail _ _
  | ok p =>
    refine Prog.Related.bind (agree_getOnlyOneData (jobById_setCode x hp)) ?_
    rintro y z (⟨rfl, rfl⟩ | ⟨q, q', rfl, rfl, hq, hpq, hcode, -⟩)
    · exact Prog.Related.done rfl
    · dsimp only
      rw [hq, plan_setCode hg hg' (selects_of_jobById hp hpq) fun hid => (hcode hid).1]
      refine Prog.Related.bind (related_cast _) ?_
      rintro decision _ ⟨hplan, rfl⟩
      cases decision with
      | refuse key => exact Prog.Related.done rfl
      | update d =>
        refine Prog.Related.bind (agree_updateJob (fun j => ?_) (plan_keepsTerms hplan) _) ?_
        · simp only [jobById_setCode x hp, filter_setCode]
        · rintro y z rfl
          exact agree_finish r y

theorem refused_result {r : JobRequest} {a : JobResponse} (h : r.refused = .ok a) :
    a.result = none := by
  unfold JobRequest.refused at h
  split at h
  · cases h
    rfl
  · split at h
    · cases hw : workersOf r.body.workerID r.caller.userId with
      | error e =>
        rw [hw] at h
        cases h
      | ok p =>
        rw [hw] at h
        cases h
        rfl
    · cases ha : addressOf r.body.locationID r.caller.userId with
      | error e =>
        rw [ha] at h
        cases h
      | ok p =>
        rw [ha] at h
        cases h
        rfl
    · split at h
      · cases h
      · cases h
        rfl
    · cases h

/-- The updating handlers give the same answers, up to the code of the job. -/
theorem agree_update {r : JobRequest} (hr : r.handler ≠ .assignJob)
    (hg : r.guesses x.job x.code = false) (hg' : r.guesses x.job x.otherCode = false) :
    AgreeButCode x (fun a b => b = recode x a) r.program r.program := by
  refine Prog.Related.catchAll (fun _ => rfl) ?_
  by_cases hpay : r.handler = .paymentSuccess
  · simp only [JobRequest.handle, hpay]
    refine related_checked (fun _ => rfl) ?_
    unfold updateData
    cases hp : jobById r.body.jobID with
    | error e => exact Prog.Related.fail _ _
    | ok p =>
      refine Prog.Related.bind
        (agree_updateJob (jobById_setCode x hp) (by constructor <;> rfl) r.env.now) ?_
      rintro y z rfl
      exact agree_sendResult y
  · intro s s' hs
    have hlook : r.lookups s' = r.lookups s := by rw [hs.other]; rfl
    rw [run_handle s r hr hpay, run_handle s' r hr hpay, hlook]
    split
    · exact agree_changeJob hg hg' s s' hs
    · refine ⟨hs, ?_⟩
      cases ha : r.refused with
      | error e => rfl
      | ok a =>
        have hnone := refused_result ha
        obtain ⟨key, result, header⟩ := a
        cases hnone
        rfl

end Updates

section Bookings

variable {x : Secret}

/-- The duplicates of a booking are bookings of the same customer, whatever their code. -/
theorem duplicateOf_spec {env : Env} {b : JobBody} {userId providerId : ObjectId} {q : Job → Bool}
    (h : duplicateOf env b userId providerId = .ok q) :
    (∀ j, q (setCode x j) = q j) ∧ ∀ j, q j = true → j.userId = userId := by
  unfold duplicateOf at h
  obtain ⟨_, -, h⟩ := bind_eq_ok h
  obtain ⟨_, -, h⟩ := bind_eq_ok h
  obtain ⟨_, -, h⟩ := bind_eq_ok h
  have hq := Except.ok.inj h
  refine ⟨blind_setCode x fun j code => by rw [← hq], fun j hj => ?_⟩
  rw [← hq] at hj
  simp only [Bool.and_eq_true, decide_eq_true_eq] at hj
  exact hj.1.1.1.1.1

/-- A new job is the same in both runs: its id is another one. -/
theorem agree_createData (data : Except Thrown Job) :
    AgreeButCode x Eq (createData data) (createData data) := by
  refine Prog.Related.bind (related_cast data) ?_
  rintro new _ ⟨-, rfl⟩
  refine Prog.Related.bind (agree_insertJob new) ?_
  rintro created _ ⟨rfl, hid⟩
  cases created with
  | false => exact Prog.Related.fail _ _
  | true =>
    refine related_query fun s s' hs => ?_
    have hget : s'.jobs.get? new.id = s.jobs.get? new.id := by
      rw [hs.other, withCode, Collection.get?_map]
      cases hj : s.jobs.get? new.id with
      | none => rfl
      | some j =>
        have hjid : j.id = new.id := ((s.jobs.get?_eq_some_iff _ _).mp hj).2
        rw [Option.map_some, setCode_of_ne x (hjid ▸ hid rfl)]
    rw [hget, hs.other]
    rfl

theorem agree_createOrder (env : Env) (b : JobBody) (files : Option JobFiles) (user : User)
    (provider : Provider) (offer : ProviderSubService) (serviceData : Option Service)
    (sub : SubService) (seqId : ℕ) :
    AgreeButCode x Eq (createOrder env b files user provider offer serviceData sub seqId)
      (createOrder env b files user provider offer serviceData sub seqId) := by
  rcases serviceData with _ | service
  · exact Prog.Related.fail _ _
  rcases files with _ | f
  · exact Prog.Related.fail _ _
  · refine Prog.Related.bind (agree_createData _) ?_
    rintro data _ rfl
    exact Prog.Related.done rfl

theorem agree_placeOrder (env : Env) (b : JobBody) (files : Option JobFiles) (user : User)
    (provider : Provider) (offer : ProviderSubService) (serviceData : Option Service)
    (sub : SubService) :
    AgreeButCode x (fun a a' => user.id ≠ x.customer → a = a')
      (placeOrder env b files user provider offer serviceData sub)
      (placeOrder env b files user provider offer serviceData sub) := by
  unfold placeOrder
  cases hq : duplicateOf env b user.id provider.id with
  | error e => exact Prog.Related.fail _ _
  | ok q =>
    obtain ⟨hblind, hown⟩ := duplicateOf_spec (x := x) hq
    refine Prog.Related.bind (agree_getOnlyOneData hblind) ?_
    rintro y z (⟨rfl, rfl⟩ | ⟨q₁, q₂, rfl, rfl, -, hq₁, hjob, hsame⟩)
    · refine Prog.Related.bind (agree_getSequence _) ?_
      rintro n _ rfl
      exact (agree_createOrder env b files user provider offer serviceData sub n).mono
        fun _ _ he _ => he
    · refine Prog.Related.done fun hcustomer => ?_
      rw [hsame]
      intro hid
      exact hcustomer ((hown _ hq₁).symm.trans (hjob hid).2)

theorem agree_orderFrom (env : Env) (b : JobBody) (files : Option JobFiles) (caller : ObjectId)
    (userData : Option User) (huser : ∀ u, userData = some u → u.id = caller)
    (found : Option PopulatedOffer) :
    AgreeButCode x (fun a a' => caller ≠ x.customer → a = a') (orderFrom env b files userData found)
      (orderFrom env b files userData found) := by
  rcases found with _ | ⟨offer, serviceData, _ | sub⟩
  · exact Prog.Related.fail _ _
  · exact Prog.Related.fail _ _
  · refine Prog.Related.bind (related_cast _) ?_
    rintro p _ ⟨-, rfl⟩
    refine Prog.Related.bind (V := Eq) (related_query fun s s' hs => by rw [hs.other]; rfl) ?_
    rintro provider _ rfl
    rcases provider with _ | provider
    · exact Prog.Related.done fun _ => rfl
    rcases userData with _ | user
    · exact Prog.Related.fail _ _
    · rw [← huser user rfl]
      exact agree_placeOrder env b files user provider offer serviceData sub

/-- A booking by somebody else than the customer is answered alike. -/
theorem agree_assignJob (env : Env) (c : Caller) (b : JobBody) (files : Option JobFiles) :
    AgreeButCode x (fun a a' => c.userId ≠ x.customer → a = a') (assignJob env c b files)
      (assignJob env c b files) := by
  refine related_checked (fun _ _ => rfl) ?_
  unfold getAddressDataById
  cases addressOf b.serviceLocation c.userId with
  | error e => exact Prog.Related.fail _ _
  | ok p =>
    refine Prog.Related.bind (V := Eq)
      (related_query (f := fun s => s.addresses.find p) fun s s' hs => by rw [hs.other]; rfl) ?_
    rintro addresses _ rfl
    split
    · exact Prog.Related.done fun _ => rfl
    · have huser : AgreeButCode x (fun u u' => u = u' ∧ ∀ v : User, u = some v → v.id = c.userId)
          (query fun s => s.users.get? c.userId) (query fun s => s.users.get? c.userId) :=
        related_query fun s s' hs => ⟨by rw [hs.other]; rfl,
          fun v hv => ((s.users.get?_eq_some_iff _ _).mp hv).2⟩
      refine Prog.Related.bind huser ?_
      rintro user _ ⟨rfl, hid⟩
      refine related_checked (fun _ _ => rfl) ?_
      unfold getOnlyOneIndividualServices
      cases offerById b.serviceType with
      | error e => exact Prog.Related.fail _ _
      | ok q =>
        refine Prog.Related.bind (V := Eq) (related_query
          (f := fun s => (s.providerSubServices.findOne q).map (populateOffer s))
          fun s s' hs => by rw [hs.other]; rfl) ?_
        rintro offer _ rfl
        exact agree_orderFrom env b files c.userId user hid offer

end Bookings

section Lists

variable {x : Secret}

theorem page_map {α β : Type} (w : ℕ × Option ℕ) (f : α → β) (xs : List α) :
    page w (xs.map f) = (page w xs).map f := by
  obtain ⟨skip, limit⟩ := w
  cases limit with
  | none => exact List.map_drop.symm
  | some n => simp only [page, List.map_take, List.map_drop]

theorem mem_of_mem_page {α : Type} {w : ℕ × Option ℕ} {xs : List α} {a : α} (h : a ∈ page w xs) :
    a ∈ xs := by
  obtain ⟨skip, limit⟩ := w
  cases limit with
  | none => exact List.mem_of_mem_drop h
  | some n => exact List.mem_of_mem_drop (List.mem_of_mem_take h)

/-- A list by paths other than the code. -/
theorem CodeDiffers.listJobs {s s' : Db} (h : CodeDiffers x s s') {p : Job → Bool}
    (hp : ∀ j, p (setCode x j) = p j) : listJobs s' p = (listJobs s p).map (setCode x) := by
  have hfind : s'.jobs.find p = (s.jobs.find p).map (setCode x) := by
    rw [h.other]
    exact Collection.find_map s.jobs (setCode_id x) hp
  have hrank : ∀ j, (setCode x j).jobId = j.jobId := blind_setCode x fun _ _ => rfl
  unfold DoQwik.listJobs sortDescending
  rw [hfind]
  symm
  apply List.map_insertionSort
  intro a _ b _
  simp only [hrank]

/-- Jobs of the list are jobs of the collection that meet the condition. -/
theorem mem_listJobs {s : Db} {p : Job → Bool} {j : Job} (h : j ∈ listJobs s p) :
    j ∈ s.jobs.docs ∧ p j = true := by
  unfold listJobs sortDescending at h
  rw [List.mem_insertionSort] at h
  exact List.mem_filter.mp h

theorem agree_getData {condition : JobCondition} {c : Caller}
    (hp : ∀ p, condition = .ok p → ∀ j, p (setCode x j) = p j)
    (window : Except Thrown (ℕ × Option ℕ)) (withCode : Bool)
    (hcode : withCode = true → ∀ p, condition = .ok p → ∀ j, p j = true → j.userId = c.userId) :
    AgreeButCode x (fun a a' => c.userId ≠ x.customer → a = a') (getData condition window withCode)
      (getData condition window withCode) := by
  refine Prog.Related.bind (related_cast _) ?_
  rintro p _ ⟨hcond, rfl⟩
  refine Prog.Related.bind (related_cast _) ?_
  rintro w _ ⟨-, rfl⟩
  refine Prog.Related.bind (V := fun es es' => c.userId ≠ x.customer → es = es')
    (related_query fun s s' hs hc => ?_) ?_
  · rw [hs.listJobs (hp p hcond), page_map, List.map_map]
    apply List.map_congr_left
    intro j hj
    have hm := mem_listJobs (mem_of_mem_page hj)
    cases withCode with
    | false =>
      rw [hs.other, Function.comp_apply]
      exact (blind_setCode x (f := entryOf (DoQwik.withCode x s) false) (fun _ _ => rfl) j).symm
    | true =>
      have hu : j.userId ≠ x.customer := by rw [hcode rfl p hcond j hm.2]; exact hc
      rw [Function.comp_apply, hs.setCode_eq hm.1 hu, hs.other]
      rfl
  · intro es es' hes
    exact Prog.Related.done fun hc => by rw [hes hc]

theorem agree_revenues (dateOf : Job → ℤ) (isOwn : Job → Bool)
    (hdate : ∀ j, dateOf (setCode x j) = dateOf j) (hown : ∀ j, isOwn (setCode x j) = isOwn j)
    (periods : List Period) :
    AgreeButCode x Eq (revenues dateOf isOwn periods) (revenues dateOf isOwn periods) := by
  have hpaid : ∀ j, (setCode x j).paymentStatus = j.paymentStatus := blind_setCode x fun _ _ => rfl
  have hamount : ∀ j, (setCode x j).amount = j.amount := blind_setCode x fun _ _ => rfl
  induction periods with
  | nil => exact Prog.Related.done rfl
  | cons period periods ih =>
    refine Prog.Related.bind (V := Eq) (related_query fun s s' hs => ?_) ?_
    · rw [hs.other, DoQwik.withCode, Collection.find_map]
      · rw [List.map_map]
        congr 1
        apply List.map_congr_left
        intro j _
        exact (hamount j).symm
      · intro j
        rw [hdate, hown, hpaid]
    · rintro sum _ rfl
      refine Prog.Related.bind ih ?_
      rintro rest _ rfl
      exact Prog.Related.done rfl

/-- The lists tell nobody but the customer the code. -/
theorem agree_list (r : JobListRequest) :
    AgreeButCode x (fun a a' => r.caller.userId ≠ x.customer → a = a') (JobCall.list r).program
      (JobCall.list r).program := by
  refine Prog.Related.catchAll (fun _ _ => rfl) ?_
  have hown : ∀ j, ownJobs r (setCode x j) = ownJobs r j := blind_setCode x fun _ _ => rfl
  unfold JobListRequest.handle
  cases r.handler with
  | assignJobListByProviderID | jobListByWorkerID =>
    refine agree_getData (fun p hp => ?_) _ _ fun h => by cases h
    obtain ⟨q, -, hq⟩ := map_eq_ok hp
    exact blind_setCode x fun j code => by rw [← hq]
  | jobListByUserID =>
    refine agree_getData (fun p hp => ?_) _ _ fun _ p hp j hj => ?_
    · have hq := Except.ok.inj hp
      exact blind_setCode x fun j code => by rw [← hq]
    · rw [← Except.ok.inj hp, decide_eq_true_eq] at hj
      exact hj
  | jobDetailsByID =>
    refine related_checked (fun _ _ => rfl) ?_
    refine Prog.Related.bind (related_cast _) ?_
    rintro p _ ⟨hp, rfl⟩
    refine Prog.Related.bind (V := Eq) (related_query fun s s' hs => ?_) ?_
    · rw [hs.findOne (jobById_setCode x hp), hs.other, Option.map_map]
      congr 1
      funext j
      exact (blind_setCode x (f := detailsOf (DoQwik.withCode x s)) (fun _ _ => rfl) j).symm
    · rintro data _ rfl
      exact Prog.Related.done fun _ => rfl
  | jobTransactionHistory =>
    refine Prog.Related.bind (related_cast _) ?_
    rintro w _ ⟨-, rfl⟩
    refine Prog.Related.bind (V := Eq) (related_query fun s s' hs => ?_) ?_
    · have hblind : ∀ j, (ownJobs r (setCode x j) && decide ((setCode x j).jobStatus = .complete)) =
          (ownJobs r j && decide (j.jobStatus = .complete)) :=
        blind_setCode x (f := fun j => ownJobs r j && decide (j.jobStatus = .complete))
          fun _ _ => rfl
      rw [hs.listJobs hblind, page_map, List.map_map]
      apply List.map_congr_left
      intro j _
      exact (blind_setCode x (f := transactionOf) (fun _ _ => rfl) j).symm
    · rintro data _ rfl
      exact Prog.Related.done fun _ => rfl
  | getDailyRevenue | getMonthlyRevenue =>
    refine Prog.Related.bind
      (agree_revenues _ _ (blind_setCode x fun _ _ => rfl) hown r.periods) ?_
    rintro data _ rfl
    exact Prog.Related.done fun _ => rfl

end Lists

section Answers

variable {x : Secret}

/-- The call changes the job, and so is answered with the whole document. -/
def JobCall.returnsJob (s : Db) (job : ObjectId) : JobCall → Bool
  | .change r => (r.written s).any fun j => j.id = job
  | .list _ => false

theorem outcome_notifyAll_bind {α : Type} (job : ObjectId) (kinds : List NoticeKind)
    (k : Unit → Action α) {y : Except Thrown α} (hk : ∀ s, ((k ()).run exec s).2 = y) (s : Db) :
    ((notifyAll job kinds >>= k).run exec s).2 = y := by
  induction kinds generalizing s with
  | nil => exact hk s
  | cons kind kinds ih => exact ih { s with notices := s.notices ++ [⟨kind, job⟩] }

/-- Once a job was updated, it is the answer. -/
theorem outcome_finish_some (r : JobRequest) (j : Job) (s : Db) :
    ((r.finish (some j)).run exec s).2 =
      .ok { key := .success, result := some (.job (some j)) } := by
  unfold JobRequest.finish
  cases r.handler with
  | proceedToPay | jobAccept | jobStart | jobFinish | paymentUpdate =>
    exact outcome_notifyAll_bind j.id _ _ (fun _ => rfl) s
  | _ => rfl

def Jobless (y : Except Thrown JobResponse) : Prop := ∀ a, y = .ok a → ∀ x, recode x a = a

theorem jobless_error (e : Thrown) : Jobless (.error e) := by
  intro a h
  cases h

theorem jobless_key (key : MessageKey) : Jobless (.ok { key := key }) := by
  intro a h x
  cases h
  rfl

theorem jobless_finish_none (r : JobRequest) (s : Db) : Jobless ((r.finish none).run exec s).2 := by
  unfold JobRequest.finish
  cases r.handler with
  | proceedToPay | jobAccept | jobStart | jobFinish | paymentUpdate => exact jobless_error _
  | _ =>
    intro a ha x
    rw [← Except.ok.inj ha]
    rfl

/-- The shared part of the updating handlers answers with the job that it changed. -/
theorem outcome_changeJob (s : Db) (r : JobRequest) :
    let y := ((changeJob r.env r.target r.filter r.plan r.finish).run exec s).2
    let written := (planned s r.target r.filter r.plan).bind fun w => s.jobs.findOne w.sel
    (∃ j d, written = some j ∧ JobSet.KeepsTerms d ∧
        y = .ok { key := .success, result := some (.job (some (d.apply r.env.now j))) }) ∨
      (written = none ∧ Jobless y) := by
  dsimp only
  rcases run_changeJob r.env r.target r.filter r.plan r.finish s with
    ⟨hnone, ⟨e, hrun⟩ | ⟨key, hrun, -⟩⟩ | ⟨w, j, hw, hplan, hrun⟩
  · rw [hrun, hnone]
    exact Or.inr ⟨rfl, jobless_error _⟩
  · rw [hrun, hnone]
    exact Or.inr ⟨rfl, jobless_key _⟩
  · rw [hrun, hw, Option.bind_some]
    cases hj : s.jobs.findOne w.sel with
    | none => exact Or.inr ⟨rfl, jobless_finish_none r _⟩
    | some j' => exact Or.inl ⟨j', w.data, rfl, plan_keepsTerms hplan, outcome_finish_some r _ _⟩

/-- The outcome of the updating handlers: the changed job, or no job at all. -/
theorem outcome_handle (s : Db) {r : JobRequest} (hr : r.handler ≠ .assignJob) :
    (∃ j d, r.written s = some j ∧ JobSet.KeepsTerms d ∧ (r.handle.run exec s).2 =
        .ok { key := .success, result := some (.job (some (d.apply r.env.now j))) }) ∨
      (r.written s = none ∧ Jobless (r.handle.run exec s).2) := by
  by_cases hpay : r.handler = .paymentSuccess
  · simp only [JobRequest.written, JobRequest.write, JobRequest.handle, JobRequest.checks,
      JobRequest.lookups, JobRequest.target, JobRequest.filter, JobRequest.plan, hpay,
      paymentSuccess, checked, Bool.and_true]
    cases hc : refusal (paymentSuccessChecks r.body) with
    | some key => exact Or.inr ⟨rfl, jobless_key _⟩
    | none =>
      simp only [Option.isNone_none, if_true]
      -- The update through the id alone changes the first job that the id selects.
      unfold planned
      cases hid : jobById r.body.jobID with
      | error e => exact Or.inr ⟨rfl, jobless_error _⟩
      | ok p =>
        have hrun :
            ((updateData r.env (.ok p) (.ok paymentSuccessParam) >>= sendResult).run exec s).2 =
            .ok { key := .success, result := some (.job ((s.jobs.findOne p).map
              (paymentSuccessParam.apply r.env.now))) } := rfl
        rw [hrun]
        dsimp only
        cases hj : s.jobs.findOne p with
        | none =>
          refine Or.inr ⟨rfl, ?_⟩
          intro a ha x
          cases ha
          rfl
        | some j =>
          simp only [Option.map_some, Option.bind_some, Bool.and_true, hj]
          exact Or.inl ⟨j, _, rfl, by constructor <;> rfl, rfl⟩
  · unfold JobRequest.written JobRequest.write
    rw [run_handle s r hr hpay]
    split
    · exact outcome_changeJob s r
    · refine Or.inr ⟨rfl, ?_⟩
      intro a ha x
      have hnone := refused_result ha
      obtain ⟨key, result, header⟩ := a
      cases hnone
      rfl

end Answers

section Secrecy

variable {x : Secret}

/-- The call tries neither code on the job. -/
def JobCall.quiet (x : Secret) (r : JobCall) : Prop :=
  r.guesses x.job x.code = false ∧ r.guesses x.job x.otherCode = false

/-- What relates the outcomes relates the answers. -/
theorem answerCall_of_same {V : JobResponse → JobResponse → Prop}
    (hV : ∀ e, V (serverError e) (serverError e)) {s s' : Db} {r : JobCall}
    (h : Prog.SameOutcome V (r.program.run exec s).2 (r.program.run exec s').2) :
    V (answerCall s r) (answerCall s' r) := by
  unfold answerCall
  rcases ha : (r.program.run exec s).2 with e | a
  · rcases hb : (r.program.run exec s').2 with e' | b
    · rw [ha, hb] at h
      cases h
      exact hV e
    · rw [ha, hb] at h
      cases h
  · rcases hb : (r.program.run exec s').2 with e' | b
    · rw [ha, hb] at h
      cases h
    · rw [ha, hb] at h
      exact h

/-- The answer of an updating handler: the changed job, or no job at all. -/
theorem answerCall_change (s : Db) {r : JobRequest} (hr : r.handler ≠ .assignJob) :
    (∃ j d, r.written s = some j ∧ JobSet.KeepsTerms d ∧ answerCall s (.change r) =
        { key := .success, result := some (.job (some (d.apply r.env.now j))) }) ∨
      (r.written s = none ∧
        ∀ x, recode x (answerCall s (.change r)) = answerCall s (.change r)) := by
  have hrun : (JobCall.change r).program.run exec s = _ :=
    Prog.run_catchAll exec serverError r.handle s
  unfold answerCall
  rw [hrun]
  rcases outcome_handle s hr with ⟨j, d, hw, hd, ho⟩ | ⟨hw, ho⟩
  · rw [ho]
    exact Or.inl ⟨j, d, hw, hd, rfl⟩
  · refine Or.inr ⟨hw, fun x => ?_⟩
    cases hy : (r.handle.run exec s).2 with
    | error e => rfl
    | ok a => exact ho a hy x

/-- A booking changes no job, and is answered alike. -/
theorem agree_booking {r : JobRequest} (hr : r.handler = .assignJob) :
    AgreeButCode x (fun a a' => r.caller.userId ≠ x.customer → a = a') r.program r.program := by
  refine Prog.Related.catchAll (fun _ _ => rfl) ?_
  simp only [JobRequest.handle, hr]
  exact agree_assignJob r.env r.caller r.body r.files

/-- A call that tries neither code leaves the states different in the code only. -/
theorem CodeDiffers.serveCall {s s' : Db} (h : CodeDiffers x s s') {r : JobCall} (hq : r.quiet x) :
    CodeDiffers x (serveCall s r) (serveCall s' r) := by
  cases r with
  | list r => exact (agree_list r s s' h).1
  | change r =>
    by_cases hr : r.handler = .assignJob
    · exact (agree_booking hr s s' h).1
    · exact (agree_update hr hq.1 hq.2 s s' h).1

theorem CodeDiffers.run {s s' : Db} (h : CodeDiffers x s s') {calls : List JobCall}
    (hq : ∀ r ∈ calls, r.quiet x) :
    CodeDiffers x (runFrom DoQwik.serveCall s calls) (runFrom DoQwik.serveCall s' calls) := by
  induction calls generalizing s s' with
  | nil => exact h
  | cons r calls ih =>
    exact ih (h.serveCall (hq r List.mem_cons_self)) fun q hm => hq q (List.mem_cons_of_mem r hm)

/-- The document with the other code is another document. -/
theorem CodeDiffers.setCode_ne {s s' : Db} (h : CodeDiffers x s s') (hx : x.otherCode ≠ x.code)
    {j : Job} (hj : s.jobs.get? j.id = some j) (hid : j.id = x.job) {d : JobSet}
    (hd : d.KeepsTerms) (now : ℤ) : setCode x (d.apply now j) ≠ d.apply now j := by
  intro heq
  obtain ⟨j₀, hj₀, hcode, -⟩ := h.job
  rw [← hid, hj, Option.some.injEq] at hj₀
  have hsame := congrArg Job.verificationCode heq
  rw [← setCode_apply x hd] at hsame
  simp only [JobSet.apply, hd.verificationCode, Option.getD_none, setCode, if_pos hid] at hsame
  rw [hj₀, hcode] at hsame
  exact hx hsame

/-- Unless it tries a code, a call is answered alike to anybody but the customer exactly when
it does not change the job. -/
theorem CodeDiffers.answerCall_iff {s s' : Db} (h : CodeDiffers x s s') (hx : x.otherCode ≠ x.code)
    {r : JobCall} (hq : r.quiet x) (hp : r.caller.userId ≠ x.customer) :
    answerCall s r = answerCall s' r ↔ r.returnsJob s x.job = false := by
  cases r with
  | list r =>
    have hsame := answerCall_of_same (fun _ _ => rfl) (agree_list r s s' h).2
    exact iff_of_true (hsame hp) rfl
  | change r =>
    by_cases hr : r.handler = .assignJob
    · have hsame := answerCall_of_same (r := .change r) (fun _ _ => rfl) (agree_booking hr s s' h).2
      refine iff_of_true (hsame hp) ?_
      simp only [JobCall.returnsJob, JobRequest.written, JobRequest.write, JobRequest.lookups, hr,
        Bool.and_false, Bool.false_eq_true, if_false, Option.bind_none, Option.any_none]
    · have hrecode := answerCall_of_same (V := fun a b => b = recode x a) (r := .change r)
        (fun _ => rfl) (agree_update hr hq.1 hq.2 s s' h).2
      rw [hrecode]
      simp only [JobCall.returnsJob]
      rcases answerCall_change s hr with ⟨j, d, hw, hd, ha⟩ | ⟨hw, ha⟩
      · rw [hw, ha, Option.any_some, decide_eq_false_iff_not]
        simp only [recode, recodeResult, Option.map_some, Response.mk.injEq, Option.some.injEq,
          JobResult.job.injEq, true_and, and_true]
        constructor
        · intro heq hid
          exact h.setCode_ne hx (get?_of_written hw) hid hd r.env.now heq.symm
        · intro hid
          rw [setCode_of_ne x]
          rwa [JobSet.apply_id]
      · rw [hw, ha]
        exact iff_of_true rfl rfl

/-- As long as nobody tries the codes of the two runs on the job, an account other than its
customer gets the same answer in both runs exactly when its request does not change the job. -/
theorem code_secret_iff (hx : x.otherCode ≠ x.code) {s s' : Db} (hs : CodeDiffers x s s')
    (calls : List JobCall) (hcalls : ∀ q ∈ calls, q.quiet x) (r : JobCall) (hr : r.quiet x)
    (hp : r.caller.userId ≠ x.customer) :
    answerCall (runFrom serveCall s calls) r = answerCall (runFrom serveCall s' calls) r ↔
      r.returnsJob (runFrom serveCall s calls) x.job = false :=
  (hs.run hcalls).answerCall_iff hx hr hp

def sampleSecret : Secret :=
  ⟨idOf "job-------01", customer.userId, some (.fin 123456), some (.fin 654321)⟩

def strangeDetails : JobCall :=
  .list { handler := .jobDetailsByID, caller := stranger, jobId := some (.str "job-------01"),
          regex := fun _ _ => none }

/-- The details tell a stranger nothing about the code. -/
theorem code_secret_details :
    let s := serve sampleDb sampleBooking
    answerCall s strangeDetails = answerCall (withCode sampleSecret s) strangeDetails := by
  have hjob : ((serve sampleDb sampleBooking).jobs.get? (idOf "job-------01")).map
      (fun j => (j.verificationCode, j.userId)) = some (some (.fin 123456), customer.userId) := by
    decide +kernel
  obtain ⟨j, hj, hboth⟩ := Option.map_eq_some_iff.mp hjob
  have hs : CodeDiffers sampleSecret (serve sampleDb sampleBooking)
      (withCode sampleSecret (serve sampleDb sampleBooking)) :=
    ⟨rfl, j, hj, congrArg Prod.fst hboth, congrArg Prod.snd hboth⟩
  have hquiet : strangeDetails.quiet sampleSecret := ⟨rfl, rfl⟩
  exact (code_secret_iff (by decide) hs [] (List.forall_mem_nil _) strangeDetails hquiet
    (by decide)).mpr rfl

def codeIn (a : JobResponse) : Option JsNum :=
  match a.result with
  | some (.job (some j)) => j.verificationCode
  | _ => none

/-- The company that accepts the booked job is told its code. -/
theorem accept_tells_code :
    (JobCall.change (onSampleJob .jobAccept company 2)).quiet sampleSecret ∧
      company.userId ≠ customer.userId ∧
      answerCall (serve sampleDb sampleBooking) (.change (onSampleJob .jobAccept company 2)) ≠
        answerCall (withCode sampleSecret (serve sampleDb sampleBooking))
          (.change (onSampleJob .jobAccept company 2)) := by
  refine ⟨⟨by decide +kernel, by decide +kernel⟩, by decide, ?_⟩
  intro h
  have hcode : codeIn (answerCall (serve sampleDb sampleBooking)
      (.change (onSampleJob .jobAccept company 2))) = some (.fin 123456) := by decide +kernel
  have hother : codeIn (answerCall (withCode sampleSecret (serve sampleDb sampleBooking))
      (.change (onSampleJob .jobAccept company 2))) = some (.fin 654321) := by decide +kernel
  rw [h, hother] at hcode
  exact absurd hcode (by decide)

end Secrecy

end DoQwik
