import DoQwik.JobPayments
import DoQwik.JobRecords
import DoQwik.JobBookings

/-! The amounts of a job in every interleaving of calls to the routed job handlers: the price to
pay against the booked amount, and the commission against what was paid in the end. The amounts
are computed from the terms of the job that was read, and these never change. -/
namespace DoQwik
open JsValues DocStore Interleave

section Sums

def commission (paid : JsNum) : Option JsNum → JsNum
  | some percentage => if percentage.positive then (paid.mul percentage).divBy 100 else .fin 0
  | none => .fin 0

/-- A job whose final amount is recorded has the commission on it recorded. -/
def CommissionCoherent (j : Job) : Prop :=
  ∀ paid, j.finalPaidAmount = some paid →
    j.revenueAmount = some (commission paid j.revenuePercentage)

structure Job.Sums (j : Job) : Prop where
  priced : Priced j
  coherent : CommissionCoherent j

theorem FreshJob.sums {j : Job} (h : FreshJob j) : j.Sums where
  priced := h.priced
  coherent paid hpaid := by
    rw [h.finalPaidAmount] at hpaid
    cases hpaid

/-- The update keeps the sums of every job on these terms. -/
def JobSet.KeepsSums (d : JobSet) (t : JobTerms) : Prop :=
  ∀ now j, j.terms = t → j.Sums → (d.apply now j).Sums

/-- An update that writes no amount keeps all sums. -/
theorem JobSet.keepsSums_of_none {d : JobSet} (hd : d.KeepsTerms) (hpaid : d.paidAmount = none)
    (hdiscount : d.discount = none) (hfinal : d.finalPaidAmount = none)
    (hrevenue : d.revenueAmount = none) (t : JobTerms) : d.KeepsSums t := by
  intro now j _ hj
  constructor
  · simpa only [Priced, JobSet.apply, hd.amount, hpaid, hdiscount, Option.getD_none] using hj.priced
  · simpa only [CommissionCoherent, JobSet.apply, hd.revenuePercentage, hfinal, hrevenue,
      Option.getD_none] using hj.coherent

/-- A value that casts to a number is this number in computations too. -/
theorem toNumber_of_castNumber {v : Json} {n : JsNum} (h : castNumber v = .ok (some n)) :
    toNumber (some v) = .ok n := by
  cases v with
  | null => cases h
  | bool b =>
    cases h
    rfl
  | num m e =>
    cases h
    rfl
  | str s =>
    simp only [castNumber] at h
    split at h
    · cases h
    · cases hs : number s with
      | nan =>
        rw [hs] at h
        cases h
      | inf neg =>
        rw [hs] at h
        cases h
        exact congrArg Except.ok hs
      | fin q =>
        rw [hs] at h
        cases h
        exact congrArg Except.ok hs
  | arr vs => cases h
  | obj kvs => cases h

/-- What `paymentUpdate` computes is the commission on the amount that it stores. -/
theorem revenueOf_eq {v : Json} {paid : JsNum} (hpaid : castNumber v = .ok (some paid))
    {percentage : Option JsNum} {x : JsNum} (h : revenueOf (some v) percentage = .ok x) :
    x = commission paid percentage := by
  cases percentage with
  | none =>
    cases h
    rfl
  | some p =>
    simp only [revenueOf, commission] at h ⊢
    split at h
    · rename_i hp
      rw [toNumber_of_castNumber hpaid] at h
      cases h
      rw [if_pos hp]
    · rename_i hp
      cases h
      rw [if_neg hp]

/-- Without an amount nothing but a commission of zero can be stored. -/
theorem revenueOf_none {percentage : Option JsNum} {x : JsNum} {y : Option JsNum}
    (h : revenueOf none percentage = .ok x) (hy : castNum x = .ok y) (paid : JsNum) :
    y = some (commission paid percentage) := by
  rw [castNum_eq_ok hy]
  cases percentage with
  | none =>
    cases h
    rfl
  | some p =>
    simp only [revenueOf, commission] at h ⊢
    split at h
    · -- The commission on `undefined` is `NaN`, which the schema refuses.
      cases h
      cases p <;> cases hy
    · rename_i hp
      cases h
      rw [if_neg hp]

/-- Every update keeps the sums of jobs on the terms of the job that it was planned for. All but
those of `proceedToPay` and `paymentUpdate`, which select by the id alone, keep all sums. -/
theorem JobChange.keepsSums {r : JobRequest} {j : Job} {d : JobSet} (h : JobChange r j d) :
    (∀ t, d.KeepsSums t) ∨ d.KeepsSums j.terms ∧ r.filter = fun _ => true := by
  cases h with
  | proceedToPay hr hpaid =>
    -- The price was computed from the amount that was read, which is a term of the job.
    refine Or.inr ⟨fun now j' hterms hj' => ⟨⟨_, rfl, ?_⟩, hj'.coherent⟩, ?_⟩
    · have hamount : j'.amount = j.amount := congrArg JobTerms.amount hterms
      rw [← hamount] at hpaid
      exact paidAmount_eq hpaid
    · simp only [JobRequest.filter, hr]
  | paymentUpdate hr hs hrevenue hfinal hstatus hamount =>
    refine Or.inr ⟨fun now j' hterms hj' => ⟨hj'.priced, ?_⟩, ?_⟩
    · have hpercentage : j'.revenuePercentage = j.revenuePercentage :=
        congrArg JobTerms.revenuePercentage hterms
      rw [← hpercentage] at hrevenue
      intro paid hpaid
      cases hv : r.body.finalPaidAmount with
      | none =>
        -- The amount stays as it was, but the commission is written all the same.
        rw [hv] at hrevenue
        exact revenueOf_none hrevenue hamount paid
      | some v =>
        rw [hv] at hrevenue hfinal
        obtain ⟨y, hy, rfl⟩ := map_eq_ok hfinal
        have hy' : y = some paid := hpaid
        rw [hy'] at hy
        exact (castNum_eq_ok hamount).trans (congrArg some (revenueOf_eq hy hrevenue))
    · simp only [JobRequest.filter, hr]
  | _ => exact Or.inl (JobSet.keepsSums_of_none (by constructor <;> rfl) rfl rfl rfl rfl)

end Sums

section Rule

variable (K : ProviderSubService → Prop)

def OffersMeet (s : Db) : Prop := ∀ o ∈ s.providerSubServices.docs, K o

def BookedFrom (j : Job) : Prop := ∃ o, K o ∧ o.price = some j.amount

/-- A waiting update keeps all sums, or it keeps those of the job that it is bound to find. A job
that is created is new, and priced by an offer. The offers stay as they are. -/
def SumsRule (s : Db) : DbOp → Prop
  | .updateJob sel d _ => d.KeepsTerms ∧ ((∀ t, d.KeepsSums t) ∨
      (∀ (d : JobSet) now j, sel (d.apply now j) = sel j) ∧
        ∃ j, s.jobs.findOne sel = some j ∧ d.KeepsSums j.terms)
  | .createJob j => FreshJob j ∧ BookedFrom K j
  | op => op.writesOffers = false

variable {K}

theorem SumsRule.keepsOffers {s : Db} {op : DbOp} (h : SumsRule K s op) : op.writesOffers = false := by
  cases op with
  | updateJob sel d now | createJob j => rfl
  | _ => exact h

theorem sumsRule_change {r : JobRequest} {s : Db} {p : Job → Bool} {j : Job} {d : JobSet}
    (hp : jobById r.target = .ok p) (hj : s.jobs.findOne p = some j)
    (hplan : r.plan j = .ok (.update d)) :
    SumsRule K s (.updateJob (fun j => p j && r.filter j) d r.env.now) := by
  refine ⟨plan_keepsTerms hplan, ?_⟩
  rcases (plan_change hplan).keepsSums with hall | ⟨hsums, hfilter⟩
  · exact Or.inl hall
  · -- Without a filter the update is bound to the job that was read.
    have hsel : (fun j => p j && r.filter j) = p := by
      rw [hfilter]
      funext x
      exact Bool.and_true (p x)
    rw [hsel]
    exact Or.inr ⟨fun d now j => jobById_apply hp d now j, j, hj, hsums⟩

theorem sumsRule_pay (s : Db) (p : Job → Bool) (now : ℤ) :
    SumsRule K s (.updateJob p paymentSuccessParam now) := by
  have hterms : paymentSuccessParam.KeepsTerms := by constructor <;> rfl
  exact ⟨hterms, Or.inl (JobSet.keepsSums_of_none hterms rfl rfl rfl rfl)⟩

/-- The updating handlers obey the rule, whatever they come to see. -/
theorem sumsRule {r : JobRequest} (hr : r.handler ≠ .assignJob) : OpRule (SumsRule K) r where
  read _ _ _ := rfl
  notify _ _ := rfl
  createCounter _ _ := rfl
  updateCounter _ _ _ _ := rfl
  createJob h := absurd h hr
  pay _ := fun s p _ => sumsRule_pay s p r.env.now
  updateJob := fun _ _ _ _ _ _ hp hj hplan => sumsRule_change hp hj hplan

theorem sumsRule_booking (r : JobRequest) : BookingRule K (SumsRule K) r where
  read _ _ _ := rfl
  createCounter _ _ := rfl
  updateCounter _ _ _ _ := rfl
  createJob _ _ _ _ _ offer _ _ _ hoffer hnew :=
    ⟨newJob_fresh hnew, offer, hoffer, (newJob_spec hnew).amount⟩

/-- A call obeys the rule as long as all offers meet `K`. -/
theorem follows_sumsRule (call : JobCall) (s : Db) :
    Prog.Follows exec (fun _ t => OffersMeet K t) (SumsRule K) (fun _ _ => True) s
      call.program := by
  cases call with
  | list r => exact (obeys_list (fun _ _ _ => rfl) r s).restrict fun _ _ _ => trivial
  | change r =>
    by_cases hr : r.handler = .assignJob
    · apply Prog.Follows.catchAll (fun _ _ => trivial)
      unfold JobRequest.handle
      rw [hr]
      exact follows_assignJob (sumsRule_booking r) (fun _ _ ht => ht) s
    · exact (obeys_program (sumsRule hr) s).restrict fun _ _ _ => trivial

def SoundBooks (K : ProviderSubService → Prop) (s : Db) : Prop :=
  AllJobs (fun j => j.Sums ∧ BookedFrom K j) s

/-- An operation that obeys the rule keeps the books sound. -/
theorem soundBooks_exec {s : Db} {op : DbOp} (hs : SoundBooks K s) (hop : SumsRule K s op) :
    SoundBooks K (exec op s).1 := by
  refine allJobs_exec hs ?_ ?_
  · rintro j rfl
    exact ⟨hop.1.sums, hop.2⟩
  · rintro sel d now j rfl hfind ⟨hsums, o, ho, hprice⟩
    have hterms := hop.1.apply_terms now j
    refine ⟨?_, o, ho, ?_⟩
    · -- The job that the update finds is the one that the rule speaks of.
      rcases hop.2 with hall | ⟨-, j', hj', hkeep⟩
      · exact hall j.terms now j rfl hsums
      · rw [hfind, Option.some.injEq] at hj'
        exact hkeep now j (congrArg Job.terms hj') hsums
    · rw [hprice]
      exact congrArg some (congrArg JobTerms.amount hterms).symm

/-- The rule for a waiting operation outlives the operations of others: an update finds the same
job, on the same terms. -/
theorem sumsRule_exec {s : Db} {op op' : DbOp} (hop : SumsRule K s op) (hop' : SumsRule K s op') :
    SumsRule K (exec op s).1 op' := by
  cases op' with
  | updateJob sel' d' now' =>
    refine ⟨hop'.1, ?_⟩
    rcases hop'.2 with hall | ⟨hsel, j, hj, hkeep⟩
    · exact Or.inl hall
    · refine Or.inr ⟨hsel, ?_⟩
      rcases exec_jobs_cases op s with hsame | ⟨new, -, hi⟩ | ⟨sel, d, now, rfl⟩
      · rw [hsame]
        exact ⟨j, hj, hkeep⟩
      · exact ⟨j, Collection.findOne_insert hi hj, hkeep⟩
      · -- Another update may have changed the job, but neither its id nor its terms.
        obtain ⟨j', hj', hcases⟩ :=
          Collection.findOne_updateOne sel (d.apply_id now) (hsel d now) hj
        have hterms : j'.terms = j.terms := by
          rcases hcases with rfl | rfl
          · rfl
          · exact hop.1.apply_terms now j
        refine ⟨j', hj', ?_⟩
        rw [hterms]
        exact hkeep
  | _ => exact hop'

/-- The invariant of the pool: sound books, an honest catalogue, and threads that obey the rule. -/
structure Balanced (K : ProviderSubService → Prop) (c : JobPool) : Prop where
  books : SoundBooks K c.state
  offers : OffersMeet K c.state
  rule : c.Following exec (fun _ t => OffersMeet K t) (SumsRule K) (fun _ _ => True)

theorem balanced_ofCalls {s : Db} (hs : OffersMeet K s) (calls : List JobCall) :
    Balanced K (.ofCalls { s with jobs := .empty _ } calls) where
  books := allJobs_empty _ s
  offers := hs
  rule := by
    intro p hp
    obtain ⟨call, -, rfl⟩ := List.mem_map.mp hp
    exact follows_sumsRule call _

theorem Balanced.step {c : JobPool} (h : Balanced K c) (i : ℕ) : Balanced K (c.step i) := by
  have hoffers : OffersMeet K (c.step i).state := by
    unfold OffersMeet
    rw [JobPool.state_step]
    cases hop : c.nextOp i with
    | none => exact h.offers
    | some op =>
      rw [Option.elim_some,
        exec_offers_of_not_writesOffers (Pool.Following.next h.rule hop).keepsOffers]
      exact h.offers
  refine ⟨?_, hoffers, ?_⟩
  · rw [JobPool.state_step]
    cases hop : c.nextOp i with
    | none => exact h.books
    | some op => exact soundBooks_exec h.books (Pool.Following.next h.rule hop)
  · refine Pool.Following.stepAt h.rule h.offers (fun k op' _ hop' => ?_) (fun _ _ => trivial)
      (fun _ ht => ht)
    have hrule' := Pool.Following.next h.rule hop'
    rw [Pool.state_stepAt]
    cases hop : c.nextOp i with
    | none => exact hrule'
    | some op => exact sumsRule_exec (Pool.Following.next h.rule hop) hrule'

end Rule

section Commission

/-- In every interleaving of calls to the routed job handlers, over any database without jobs,
every job with a final amount has the commission on it, in every state. -/
theorem commission_coherent (s : Db) (calls : List JobCall) (schedule : List ℕ) :
    AllJobs CommissionCoherent (runFrom JobPool.step
      (.ofCalls { s with jobs := .empty _ } calls) schedule).state := by
  have hstart : Balanced (fun _ => True) (.ofCalls { s with jobs := .empty _ } calls) :=
    balanced_ofCalls (fun _ _ => trivial) calls
  have hend :=
    invariant_of_step (I := Balanced fun _ => True) (fun _ i hc => hc.step i) hstart schedule
  exact fun j hj => (hend.books j hj).1.coherent

/-- A job is booked at 100, with a commission of ten percent. While its payment report is under
way, a coupon is applied to it. -/
theorem commission_coherent_reported :
    ∃ j ∈ (runFrom JobPool.step (.ofCalls { sampleDb with jobs := .empty _ }
      [.change sampleBooking, .change (onSampleJob .jobAccept company 2),
        .change (onSampleJob .jobStart company 3), .change (onSampleJob .paymentUpdate company 4),
        .change (payingWith (some (.str "FIRST30")) 5)])
      (startedSchedule ++ [3, 4, 4, 3])).state.jobs.docs,
      j.finalPaidAmount = some (.fin 100) ∧
        j.revenueAmount = some (commission (.fin 100) (some (.fin 10))) := by
  have hany : ((runFrom JobPool.step (.ofCalls { sampleDb with jobs := .empty _ }
      [.change sampleBooking, .change (onSampleJob .jobAccept company 2),
        .change (onSampleJob .jobStart company 3), .change (onSampleJob .paymentUpdate company 4),
        .change (payingWith (some (.str "FIRST30")) 5)])
      (startedSchedule ++ [3, 4, 4, 3])).state.jobs.docs.any fun j =>
        j.finalPaidAmount = some (.fin 100) && j.revenuePercentage = some (.fin 10)) = true := by
    decide +kernel
  obtain ⟨j, hj, hamounts⟩ := List.any_eq_true.mp hany
  rw [Bool.and_eq_true, decide_eq_true_eq, decide_eq_true_eq] at hamounts
  have hcoherent := commission_coherent sampleDb _ _ j hj (.fin 100) hamounts.1
  rw [hamounts.2] at hcoherent
  exact ⟨j, hj, hamounts.1, hcoherent⟩

end Commission

section Conservation

/-- The offer has no price, or a positive one. -/
def PositivePrice (o : ProviderSubService) : Prop := o.price.all JsNum.positive = true

/-- The price to pay is the booked amount without the discount, and lies between zero and it. -/
def PriceConserved (j : Job) : Prop :=
  ∃ paid discount, j.paidAmount = some paid ∧ j.discount = some discount ∧
    paid = j.amount.sub discount ∧ JsNum.le (.fin 0) paid = true ∧ JsNum.le paid j.amount = true

/-- The operation takes the value of the coupon off a booked amount that is smaller. -/
def undercuts (s : Db) : DbOp → Bool
  | .updateJob sel d _ => d.discount = some (some (couponValue true)) &&
      (s.jobs.findOne sel).any fun j => !JsNum.le (couponValue true) j.amount
  | _ => false

theorem BookedFrom.positive {j : Job} (h : BookedFrom PositivePrice j) :
    j.amount.positive = true := by
  obtain ⟨o, ho, hprice⟩ := h
  rw [PositivePrice, hprice, Option.all_some] at ho
  exact ho

/-- A price that adds up is conserved if the coupon was not used, or if the amount covers it. -/
theorem priceConserved_iff_covered {j : Job} (hj : Priced j) (hpos : j.amount.positive = true) :
    PriceConserved j ↔
      (j.discount = some (couponValue true) → JsNum.le (couponValue true) j.amount = true) := by
  obtain ⟨used, hdiscount, hpaid⟩ := hj
  have hbounds : PriceConserved j ↔ JsNum.le (couponValue used) j.amount = true := by
    have hvalue : (0 : ℚ) ≤ if used then 30 else 0 := by split <;> norm_num
    refine Iff.trans ?_ (JsNum.le_sub_iff hpos hvalue)
    constructor
    · rintro ⟨paid, discount, hp, hd, hsum, hle⟩
      rw [hdiscount, Option.some.injEq] at hd
      rw [hsum, ← hd] at hle
      exact hle
    · exact fun hle => ⟨_, _, hpaid, hdiscount, rfl, hle⟩
  rw [hbounds, hdiscount]
  cases used with
  | true => simp
  | false =>
    have hzero : JsNum.le (couponValue false) j.amount = true := JsNum.zero_le_of_positive hpos
    have hne : couponValue false ≠ couponValue true := by decide
    simp [hzero, hne]

theorem priceConserved_updateJob_iff {s : Db} {sel : Job → Bool} {d : JobSet} {now : ℤ}
    (hs : SoundBooks PositivePrice s) (hop : SumsRule PositivePrice s (.updateJob sel d now))
    (hall : AllJobs PriceConserved s) :
    AllJobs PriceConserved (exec (.updateJob sel d now) s).1 ↔
      undercuts s (.updateJob sel d now) = false := by
  have hamount : ∀ j, (d.apply now j).amount = j.amount :=
    fun j => congrArg JobTerms.amount (hop.1.apply_terms now j)
  -- After the update the sums still add up, so that only the coupon can break the bounds.
  have hcovered : ∀ j, s.jobs.findOne sel = some j → (PriceConserved (d.apply now j) ↔
      (d.discount.getD j.discount = some (couponValue true) →
        JsNum.le (couponValue true) j.amount = true)) := by
    intro j hfind
    have hafter := soundBooks_exec hs hop _ (mem_exec_updateJob hfind d now)
    have hiff := priceConserved_iff_covered hafter.1.priced hafter.2.positive
    rw [hamount] at hiff
    exact hiff
  constructor
  · intro h
    cases hu : undercuts s (.updateJob sel d now) with
    | false => rfl
    | true =>
      simp only [undercuts, Bool.and_eq_true, decide_eq_true_eq, Option.any_eq_true,
        Bool.not_eq_true'] at hu
      obtain ⟨hdiscount, j, hfind, hle⟩ := hu
      have hcover := (hcovered j hfind).mp (h _ (mem_exec_updateJob hfind d now))
        (by rw [hdiscount, Option.getD_some])
      rw [hle] at hcover
      cases hcover
  · intro hu
    refine allJobs_exec hall (fun j h => by cases h) ?_
    intro sel' d' now' j hop' hfind hj
    cases hop'
    rw [hcovered j hfind]
    intro hdiscount
    cases hd : d.discount with
    | none =>
      -- The discount is the old one.
      rw [hd, Option.getD_none] at hdiscount
      have hbefore := hs j (Collection.mem_of_findOne hfind).1
      exact (priceConserved_iff_covered hbefore.1.priced hbefore.2.positive).mp hj hdiscount
    | some x =>
      rw [hd, Option.getD_some] at hdiscount
      simpa [undercuts, hd, hdiscount, hfind] using hu

/-- One operation keeps all prices conserved exactly when it does not undercut one. -/
theorem priceConserved_exec_iff {s : Db} {op : DbOp} (hs : SoundBooks PositivePrice s)
    (hop : SumsRule PositivePrice s op) (hall : AllJobs PriceConserved s) :
    AllJobs PriceConserved (exec op s).1 ↔ undercuts s op = false := by
  cases op with
  | updateJob sel d now => exact priceConserved_updateJob_iff hs hop hall
  | createJob new =>
    refine ⟨fun _ => rfl, fun _ => allJobs_exec hall ?_ (fun _ _ _ _ h => by cases h)⟩
    intro j h
    cases h
    -- A new job has no discount.
    rw [priceConserved_iff_covered hop.1.priced hop.2.positive, hop.1.discount]
    exact fun hzero => absurd hzero (by decide)
  | _ =>
    exact ⟨fun _ => rfl, fun _ =>
      allJobs_exec hall (fun _ h => by cases h) (fun _ _ _ _ h => by cases h)⟩

/-- In every interleaving of calls to the routed job handlers, over any database without jobs and
with positive prices, all prices are conserved throughout exactly when no step takes the coupon
off a smaller amount. -/
theorem priceConserved_iff (s : Db) (calls : List JobCall) (schedule : List ℕ)
    (hs : ∀ o ∈ s.providerSubServices.docs, PositivePrice o) :
    Throughout JobPool.step (fun c => AllJobs PriceConserved c.state)
        (.ofCalls { s with jobs := .empty _ } calls) schedule ↔
      Along JobPool.step (fun c i => (c.nextOp i).all (fun op => !undercuts c.state op) = true)
        (.ofCalls { s with jobs := .empty _ } calls) schedule := by
  refine throughout_iff (J := Balanced PositivePrice) (fun _ i hc => hc.step i) ?_
    (allJobs_empty _ s) (balanced_ofCalls hs calls) schedule
  intro c i hc hall
  rw [JobPool.state_step]
  cases hop : c.nextOp i with
  | none => exact ⟨fun _ => rfl, fun _ => hall⟩
  | some op =>
    rw [Option.elim_some, Option.all_some, Bool.not_eq_true']
    exact priceConserved_exec_iff hc.books (Pool.Following.next hc.rule hop) hall

/-- The offer at 100: booked, and paid with the coupon by two requests at a time. -/
theorem priceConserved_sample :
    (∀ o ∈ sampleDb.providerSubServices.docs, PositivePrice o) ∧
      Throughout JobPool.step (fun c => AllJobs PriceConserved c.state)
        (.ofCalls { sampleDb with jobs := .empty _ }
          [.change sampleBooking, .change (payingWith (some (.str "FIRST30")) 2),
            .change (payingWith none 3)])
        (List.replicate 9 0 ++ [1, 2, 2, 1]) := by
  have hprices : ∀ o ∈ sampleDb.providerSubServices.docs, PositivePrice o := by
    intro o ho
    rw [List.mem_singleton.mp ho, PositivePrice]
    decide
  exact ⟨hprices, (priceConserved_iff sampleDb _ _ hprices).mpr (by decide +kernel)⟩

def cheapDb : Db :=
  { sampleDb with
    providerSubServices :=
      ⟨[{ sampleOffer with price := some (.fin 20) }], List.nodup_singleton _⟩ }

/-- A job at 20 is paid with the coupon: the price to pay is ten below zero. -/
theorem coupon_undercuts_price :
    ¬ Throughout JobPool.step (fun c => AllJobs PriceConserved c.state)
      (.ofCalls { cheapDb with jobs := .empty _ }
        [.change sampleBooking, .change (payingWith (some (.str "FIRST30")) 2)])
      (List.replicate 9 0 ++ [1, 1]) := by
  intro h
  have hlast := h _ [] (List.append_nil _).symm
  have hany : ((runFrom JobPool.step (.ofCalls { cheapDb with jobs := .empty _ }
      [.change sampleBooking, .change (payingWith (some (.str "FIRST30")) 2)])
      (List.replicate 9 0 ++ [1, 1])).state.jobs.docs.any fun j =>
        j.paidAmount = some (.fin (-10))) = true := by decide +kernel
  obtain ⟨j, hj, hamount⟩ := List.any_eq_true.mp hany
  obtain ⟨paid, discount, hpaid, -, -, hzero, -⟩ := hlast j hj
  rw [of_decide_eq_true hamount, Option.some.injEq] at hpaid
  rw [← hpaid] at hzero
  exact absurd hzero (by decide)

end Conservation

end DoQwik
