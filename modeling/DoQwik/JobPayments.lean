import DoQwik.JobLifecycle
import DoQwik.JobLists
import DoQwik.NumberStrings

/-! Money laws on single jobs, over sequential runs of the job handlers: rejected jobs are not
paid, completed jobs have their commission, the coupon fields agree, and a paid price is final.
Every law is settled on what one update makes of one job. -/
namespace DoQwik
open JsValues DocStore Interleave

section Laws

variable {Q : Job → Prop}

/-- A request keeps a law that new jobs meet, if it keeps it on the job that it writes to. -/
theorem allJobs_serve {s : Db} {r : JobRequest} (hs : AllJobs Q s)
    (hnew : ∀ j, FreshJob j → Q j)
    (hwrite : ∀ w j, r.write s = some w → s.jobs.findOne w.sel = some j → Q j →
      Q (w.data.apply r.env.now j)) : AllJobs Q (serve s r) := by
  intro j hj
  -- A job is the one that was written to, an old one, or the new one of a booking.
  rcases get?_serve_cases (Collection.get?_key hj) with
    ⟨w, j₀, hw, hfind, -, rfl⟩ | ⟨hold, -⟩ | ⟨k, hk, -⟩
  · exact hwrite w j₀ hw hfind (hs j₀ (Collection.mem_of_findOne hfind).1)
  · exact hs j (Collection.mem_of_findOne hold).1
  · exact hnew j (newJob_fresh hk.new)

/-- A law that new jobs meet holds throughout a run exactly when no request that gets through to
a job breaks it there. -/
theorem law_throughout_iff {breaks : JobRequest → Job → Bool} (hnew : ∀ j, FreshJob j → Q j)
    (hiff : ∀ r j d now, JobChange r j d → Q j → (Q (d.apply now j) ↔ breaks r j = false))
    (s : Db) (rs : List JobRequest) :
    Throughout serve (AllJobs Q) { s with jobs := .empty _ } rs ↔
      Along serve (fun t r => (r.written t).any (breaks r) = false)
        { s with jobs := .empty _ } rs := by
  refine throughout_iff (J := fun _ => True) (fun _ _ _ => trivial) ?_ (allJobs_empty Q s)
    trivial rs
  intro t r _ ht
  constructor
  · intro h
    cases hw : r.written t with
    | none => rfl
    | some j =>
      obtain ⟨w, hwrite, hfind⟩ := Option.bind_eq_some_iff.mp hw
      have hafter := get?_serve_written (written_assignJob hw) hwrite hfind
      rw [Option.any_some]
      exact (hiff r j _ _ (change_written hwrite hfind) (ht j (Collection.mem_of_findOne hfind).1)).mp
        (h _ (Collection.mem_of_findOne hafter).1)
  · intro h
    refine allJobs_serve ht hnew fun w j hwrite hfind hj => ?_
    have hw : r.written t = some j := by rw [JobRequest.written, hwrite, Option.bind_some, hfind]
    rw [hw, Option.any_some] at h
    exact (hiff r j _ _ (change_written hwrite hfind) hj).mpr h

end Laws

section Rejected

/-- A rejected job is not paid: the revenue reports count the jobs with this payment status. -/
def RejectedUnpaid (j : Job) : Prop :=
  j.jobStatus = .reject → j.paymentStatus ≠ some paymentSuccessful

instance : DecidablePred RejectedUnpaid :=
  fun j => inferInstanceAs (Decidable (j.jobStatus = .reject → _))

/-- While the law holds, the reports are those over the jobs that were not rejected. -/
theorem run_revenues_of_rejectedUnpaid {s : Db} (hs : AllJobs RejectedUnpaid s)
    (dateOf : Job → ℤ) (isOwn : Job → Bool) (periods : List Period) :
    (revenues dateOf isOwn periods).run exec s =
      (revenues dateOf (fun j => isOwn j && j.jobStatus ≠ .reject) periods).run exec s := by
  have hsum : ∀ period, revenueIn dateOf isOwn s period =
      revenueIn dateOf (fun j => isOwn j && j.jobStatus ≠ .reject) s period := by
    intro period
    unfold revenueIn
    congr 2
    apply List.filter_congr
    intro j hj
    -- An unpaid job counts in neither sum, and a paid one is not rejected.
    by_cases hpaid : j.paymentStatus = some paymentSuccessful
    · have hkept : j.jobStatus ≠ .reject := fun hreject => hs j hj hreject hpaid
      simp [hkept]
    · simp [hpaid]
  rw [run_revenues, run_revenues]
  simp only [hsum]

/-- The request marks a rejected job as paid, or rejects a paid one. -/
def paysRejected (r : JobRequest) (j : Job) : Bool :=
  match r.handler with
  | .paymentSuccess => j.jobStatus = .reject
  | .jobReject => j.paymentStatus = some paymentSuccessful
  | .userCancelJob => j.paymentStatus = some paymentSuccessful
  | _ => false

theorem rejectedUnpaid_change {r : JobRequest} {j : Job} {d : JobSet} (now : ℤ)
    (h : JobChange r j d) (hj : RejectedUnpaid j) :
    RejectedUnpaid (d.apply now j) ↔ paysRejected r j = false := by
  unfold RejectedUnpaid at hj ⊢
  cases h with
  | paymentSuccess hr => simp [paysRejected, hr, JobSet.apply]
  | reject hr => rcases hr with hr | hr <;> simp [paysRejected, hr, JobSet.apply]
  | paymentUpdate hr hs => simp [paysRejected, hr, JobSet.apply, hs]
  | assignJobToWorker hr | jobAccept hr | jobStart hr | jobFinish hr =>
    simp [paysRejected, hr, JobSet.apply]
  | proceedToPay hr | userJobReschedule hr | submitFeedback hr | replyFeedback hr =>
    simpa [paysRejected, hr, JobSet.apply] using hj

/-- Over any run from a database without jobs, no rejected job is ever paid exactly when no
request marks a rejected job as paid and none rejects a paid one. -/
theorem rejectedUnpaid_iff (s : Db) (rs : List JobRequest) :
    Throughout serve (AllJobs RejectedUnpaid) { s with jobs := .empty _ } rs ↔
      Along serve (fun t r => (r.written t).any (paysRejected r) = false)
        { s with jobs := .empty _ } rs :=
  law_throughout_iff
    (fun j hj hs => by rw [hj.jobStatus] at hs; cases hs)
    (fun _ _ _ now h hj => rejectedUnpaid_change now h hj) s rs

/-- The customer pays the booked job, and the company then rejects it. -/
theorem paid_job_rejected :
    ¬ Throughout serve (AllJobs RejectedUnpaid) sampleDb
      [sampleBooking, onSampleJob .paymentSuccess customer 2, onSampleJob .jobReject company 3] := by
  intro h
  have hlast : ¬ AllJobs RejectedUnpaid (runFrom serve sampleDb
      [sampleBooking, onSampleJob .paymentSuccess customer 2,
        onSampleJob .jobReject company 3]) := by decide +kernel
  exact hlast (h _ [] (List.append_nil _).symm)

end Rejected

section Commission

/-- A completed job that owes a commission has its final amount and its commission recorded. -/
def CommissionRecorded (j : Job) : Prop :=
  j.jobStatus = .complete → j.revenuePercentage.any JsNum.positive = true →
    j.finalPaidAmount.isSome = true ∧ j.revenueAmount.isSome = true

instance : DecidablePred CommissionRecorded :=
  fun j => inferInstanceAs (Decidable (j.jobStatus = .complete → _ → _))

/-- The request completes a job that owes a commission before its amounts were recorded. -/
def finishesUnrecorded (r : JobRequest) (j : Job) : Bool :=
  r.handler = .jobFinish && j.revenuePercentage.any JsNum.positive &&
    (j.finalPaidAmount.isNone || j.revenueAmount.isNone)

theorem commissionRecorded_change {r : JobRequest} {j : Job} {d : JobSet} (now : ℤ)
    (h : JobChange r j d) (hj : CommissionRecorded j) :
    CommissionRecorded (d.apply now j) ↔ finishesUnrecorded r j = false := by
  unfold CommissionRecorded at hj ⊢
  cases h with
  | jobFinish hr =>
    -- It sets the status, and leaves the amounts as they are.
    simp only [finishesUnrecorded, hr, JobSet.apply, Option.getD_some, Option.getD_none]
    cases j.revenuePercentage.any JsNum.positive <;> cases j.finalPaidAmount <;>
      cases j.revenueAmount <;> simp
  | paymentUpdate hr hs => simp [finishesUnrecorded, hr, JobSet.apply, hs]
  | assignJobToWorker hr | jobAccept hr | jobStart hr => simp [finishesUnrecorded, hr, JobSet.apply]
  | reject hr => rcases hr with hr | hr <;> simp [finishesUnrecorded, hr, JobSet.apply]
  | proceedToPay hr | paymentSuccess hr | userJobReschedule hr | submitFeedback hr
  | replyFeedback hr =>
    simpa [finishesUnrecorded, hr, JobSet.apply] using hj

/-- Over any run from a database without jobs, completed jobs have their commission recorded
exactly when no job that owes one is completed before its amounts were recorded. -/
theorem commissionRecorded_iff (s : Db) (rs : List JobRequest) :
    Throughout serve (AllJobs CommissionRecorded) { s with jobs := .empty _ } rs ↔
      Along serve (fun t r => (r.written t).any (finishesUnrecorded r) = false)
        { s with jobs := .empty _ } rs :=
  law_throughout_iff
    (fun j hj hs => by rw [hj.jobStatus] at hs; cases hs)
    (fun _ _ _ now h hj => commissionRecorded_change now h hj) s rs

/-- A started job is completed although nobody reported what was paid. -/
theorem finished_without_commission :
    ¬ Throughout serve (AllJobs CommissionRecorded) sampleDb
      [sampleBooking, onSampleJob .jobAccept company 2, onSampleJob .jobStart company 3,
        onSampleJob .jobFinish company 4] := by
  intro h
  have hlast : ¬ AllJobs CommissionRecorded (runFrom serve sampleDb
      [sampleBooking, onSampleJob .jobAccept company 2, onSampleJob .jobStart company 3,
        onSampleJob .jobFinish company 4]) := by decide +kernel
  exact hlast (h _ [] (List.append_nil _).symm)

end Commission

section Coupons

/-- Three fields tell whether the coupon was used, and they tell the same. -/
def CouponAgrees (j : Job) : Prop :=
  (j.isCouponUse = some "1" ↔ j.discount = some (.fin 30)) ∧
    (j.isCouponUse = some "1" ↔ j.couponCode = some "FIRST30")

instance : DecidablePred CouponAgrees :=
  fun j => inferInstanceAs (Decidable ((j.isCouponUse = some "1" ↔ _) ∧ (_ ↔ _)))

/-- An object that the schema casts to `'FIRST30'`, by its `_id`. -/
def namesFirst30 : Option Json → Bool
  | some (.obj kvs) =>
    match kvs.lookup "_id" with
    | some (.str s) => s = "FIRST30"
    | _ => false
  | _ => false

/-- The request pays without the coupon but the job keeps its code, or it stores the code in
another way than as the string that gives the discount. -/
def missesCoupon (r : JobRequest) (j : Job) : Bool :=
  r.handler = .proceedToPay &&
    ((!truthy r.body.couponCode && j.couponCode = some "FIRST30") || namesFirst30 r.body.couponCode)

/-- No number is rendered as `FIRST30`. -/
theorem numToString_ne_first30 (m e : ℤ) : numToString m e ≠ "FIRST30" := by
  intro h
  -- The letter F is in no numeral.
  have hF : 'F' ∈ (numToString m e).toList := by
    rw [h]
    decide
  exact absurd (isNumeralChar_numToString hF) (by decide)

/-- A value that casts to `FIRST30` is the string or an object with this `_id`. -/
theorem castString_first30_iff (v : Json) :
    castString v = .ok (some "FIRST30") ↔
      isFirst30 (some v) = true ∨ namesFirst30 (some v) = true := by
  cases v with
  | null => simp [castString, isFirst30, namesFirst30]
  | bool b => cases b <;> simp [castString, isFirst30, namesFirst30, Json.toStr]
  | num m e => simp [castString, isFirst30, namesFirst30, Json.toStr, numToString_ne_first30]
  | str s => simp [castString, isFirst30, namesFirst30, Json.toStr]
  | arr vs => simp [castString, isFirst30, namesFirst30]
  | obj kvs =>
    simp only [castString, isFirst30, namesFirst30, Bool.false_eq_true, false_or]
    cases kvs.lookup "_id" with
    | none => simp
    | some w =>
      cases w with
      | str s =>
        simp only [decide_eq_true_eq]
        split
        · rename_i hs
          simp [hs]
        · simp
      | _ => simp

/-- The code that a job has after the update. -/
theorem couponCode_first30_iff {v : Option Json} {x : Option (Option String)}
    (hx : castSet castString (ifTruthy v) = .ok x) (old : Option String) :
    x.getD old = some "FIRST30" ↔
      isFirst30 v = true ∨ (truthy v = false ∧ old = some "FIRST30") ∨ namesFirst30 v = true := by
  cases ht : truthy v with
  | false =>
    -- The path is left out of the update.
    have hnone : x = none := by
      simp only [ifTruthy, ht, Bool.false_eq_true, if_false, castSet, Except.ok.injEq] at hx
      exact hx.symm
    have hfirst : isFirst30 v = false ∧ namesFirst30 v = false := by
      rcases v with _ | w
      · exact ⟨rfl, rfl⟩
      · cases w with
        | str s =>
          refine ⟨?_, rfl⟩
          have hs : s = "" := by simpa [truthy] using ht
          rw [hs]
          decide
        | obj kvs => cases ht
        | _ => exact ⟨rfl, rfl⟩
    simp [hnone, hfirst.1, hfirst.2]
  | true =>
    rcases v with _ | w
    · cases ht
    · rw [ifTruthy, if_pos ht] at hx
      obtain ⟨y, hy, rfl⟩ := map_eq_ok hx
      rw [Option.getD_some]
      have hcast := castString_first30_iff w
      rw [hy, Except.ok.injEq] at hcast
      simp [hcast]

theorem couponAgrees_change {r : JobRequest} {j : Job} {d : JobSet} (now : ℤ)
    (h : JobChange r j d) (hj : CouponAgrees j) :
    CouponAgrees (d.apply now j) ↔ missesCoupon r j = false := by
  unfold CouponAgrees at hj ⊢
  cases h with
  | proceedToPay hr _ hcode =>
    simp only [JobSet.apply, Option.getD_some, couponCode_first30_iff hcode]
    cases hf : isFirst30 r.body.couponCode with
    | true =>
      have hv : r.body.couponCode = some (.str "FIRST30") := by
        rcases hc : r.body.couponCode with _ | w
        · rw [hc] at hf
          cases hf
        · rw [hc] at hf
          cases w with
          | str s => rw [of_decide_eq_true hf]
          | _ => cases hf
      simp [missesCoupon, hr, hv, truthy, namesFirst30]
    | false =>
      cases ht : truthy r.body.couponCode <;> simp [missesCoupon, hr, ht]
  | paymentSuccess hr | assignJobToWorker hr | jobAccept hr | jobStart hr | jobFinish hr
  | paymentUpdate hr | userJobReschedule hr | submitFeedback hr | replyFeedback hr =>
    simpa [missesCoupon, hr, JobSet.apply] using hj
  | reject hr =>
    rcases hr with hr | hr <;> simpa [missesCoupon, hr, JobSet.apply] using hj

/-- Over any run from a database without jobs, the coupon fields of every job agree exactly when
every request that pays without the coupon finds a job without the code, and none stores the
code by an object. -/
theorem couponAgrees_iff (s : Db) (rs : List JobRequest) :
    Throughout serve (AllJobs CouponAgrees) { s with jobs := .empty _ } rs ↔
      Along serve (fun t r => (r.written t).any (missesCoupon r) = false)
        { s with jobs := .empty _ } rs := by
  refine law_throughout_iff (fun j hj => ?_)
    (fun _ _ _ now h hj => couponAgrees_change now h hj) s rs
  simp [CouponAgrees, hj.isCouponUse, hj.discount, hj.couponCode]

def payingWith (couponCode : Option Json) (now : ℤ) : JobRequest :=
  let r := onSampleJob .proceedToPay customer now
  { r with body := { r.body with couponCode := couponCode } }

/-- The customer tries the coupon and then pays without it: the job keeps the code. -/
theorem coupon_code_left_behind :
    ¬ Throughout serve (AllJobs CouponAgrees) sampleDb
      [sampleBooking, payingWith (some (.str "FIRST30")) 2, payingWith none 3] := by
  intro h
  have hlast : ¬ AllJobs CouponAgrees (runFrom serve sampleDb
      [sampleBooking, payingWith (some (.str "FIRST30")) 2, payingWith none 3]) := by
    decide +kernel
  exact hlast (h _ [] (List.append_nil _).symm)

end Coupons

section Prices

def couponValue (used : Bool) : JsNum := .fin (if used then 30 else 0)

/-- The price to pay is the amount of the booking without the discount, and the discount is
what the coupon takes off. -/
def Priced (j : Job) : Prop :=
  ∃ used, j.discount = some (couponValue used) ∧
    j.paidAmount = some (j.amount.sub (couponValue used))

theorem FreshJob.priced {j : Job} (h : FreshJob j) : Priced j := by
  refine ⟨false, h.discount, ?_⟩
  rw [h.paidAmount]
  exact congrArg some (JsNum.sub_fin_zero j.amount).symm

theorem castNum_eq_ok {n : JsNum} {x : Option JsNum} (h : castNum n = .ok x) : x = some n := by
  cases n with
  | nan => cases h
  | inf neg => cases h; rfl
  | fin q => cases h; rfl

/-- The amounts that `proceedToPay` computes. -/
theorem paidAmount_eq {used : Bool} {amount : JsNum} {x : Option JsNum}
    (h : castNum (if used then amount.sub (.fin 30) else amount) = .ok x) :
    x = some (amount.sub (couponValue used)) := by
  rw [castNum_eq_ok h]
  cases used with
  | true => rfl
  | false => exact congrArg some (JsNum.sub_fin_zero amount).symm

theorem Priced.change {r : JobRequest} {j : Job} {d : JobSet} (hj : Priced j) (h : JobChange r j d)
    (now : ℤ) : Priced (d.apply now j) := by
  cases h with
  | proceedToPay hr hpaid => exact ⟨_, rfl, paidAmount_eq hpaid⟩
  | _ => exact hj

structure JobPrice where
  paidAmount : Option JsNum
  discount : Option JsNum
  finalPaidAmount : Option JsNum
  couponCode : Option String

def Job.price (j : Job) : JobPrice where
  paidAmount := j.paidAmount
  discount := j.discount
  finalPaidAmount := j.finalPaidAmount
  couponCode := j.couponCode

/-- No request of the run changes the price of a job that is paid before it and after it. -/
def PaidPriceFinal (s : Db) (rs : List JobRequest) : Prop :=
  ∀ pre r post, rs = pre ++ r :: post → ∀ id j j',
    (runFrom serve s pre).jobs.get? id = some j → j.paymentStatus = some paymentSuccessful →
    (serve (runFrom serve s pre) r).jobs.get? id = some j' →
    j'.paymentStatus = some paymentSuccessful → j'.price = j.price

def storedValue {α : Type} (cast : Json → Except Thrown (Option α)) (v : Option Json)
    (old : Option α) : Option α :=
  match castSet cast v with
  | .ok x => x.getD old
  | .error _ => old

/-- The request gives a paid job another price: `proceedToPay` with the coupon where it was not
used, without it where it was used, or with another code; `paymentUpdate` with another amount,
unless it also takes the payment back. -/
def reprices (r : JobRequest) (j : Job) : Bool :=
  j.paymentStatus = some paymentSuccessful &&
    match r.handler with
    | .proceedToPay =>
      j.discount ≠ some (couponValue (isFirst30 r.body.couponCode)) ||
        storedValue castString (ifTruthy r.body.couponCode) j.couponCode ≠ j.couponCode
    | .paymentUpdate =>
      storedValue castTrimmed r.body.paymentStatus j.paymentStatus = some paymentSuccessful &&
        storedValue castNumber r.body.finalPaidAmount j.finalPaidAmount ≠ j.finalPaidAmount
    | _ => false

/-- On a paid job whose price adds up, an update that leaves it paid keeps the price exactly when
it does not reprice it. -/
theorem price_change_iff {r : JobRequest} {j : Job} {d : JobSet} (now : ℤ) (h : JobChange r j d)
    (hj : Priced j) (hpaid : j.paymentStatus = some paymentSuccessful) :
    ((d.apply now j).paymentStatus = some paymentSuccessful → (d.apply now j).price = j.price) ↔
      reprices r j = false := by
  obtain ⟨used, hdiscount, hamount⟩ := hj
  cases h with
  | proceedToPay hr hnew hcode =>
    simp only [reprices, hr, hpaid, storedValue, hcode, Job.price, JobSet.apply, Option.getD_some,
      Option.getD_none, JobPrice.mk.injEq, paidAmount_eq hnew, hamount, hdiscount]
    -- The price to pay differs only where the discount does.
    change (True → _ ∧ some (couponValue (isFirst30 r.body.couponCode)) = _ ∧ _) ↔ _
    by_cases hsame : couponValue used = couponValue (isFirst30 r.body.couponCode)
    · simp [hsame]
    · simp [hsame, Ne.symm hsame]
  | paymentUpdate hr hs _ hfinal hstatus =>
    simp only [reprices, hr, hpaid, storedValue, hfinal, hstatus, Job.price, JobSet.apply,
      Option.getD_none, JobPrice.mk.injEq]
    simp
  | paymentSuccess hr | assignJobToWorker hr | jobAccept hr | jobStart hr | jobFinish hr
  | userJobReschedule hr | submitFeedback hr | replyFeedback hr =>
    simp [reprices, hr, Job.price, JobSet.apply]
  | reject hr => rcases hr with hr | hr <;> simp [reprices, hr, Job.price, JobSet.apply]

/-- Over any run from a database without jobs, the price of a paid job is final exactly when no
request gets through to a paid job with another price. -/
theorem paidPriceFinal_iff (s : Db) (rs : List JobRequest) :
    PaidPriceFinal { s with jobs := .empty _ } rs ↔
      Along serve (fun t r => (r.written t).any (reprices r) = false)
        { s with jobs := .empty _ } rs := by
  have hpriced : ∀ t r, AllJobs Priced t → AllJobs Priced (serve t r) := fun t r ht =>
    allJobs_serve ht (fun _ => FreshJob.priced) fun w j hwrite hfind hj =>
      hj.change (change_written hwrite hfind) r.env.now
  -- Whether a price stays final is a matter of single requests, in a state with priced jobs.
  unfold PaidPriceFinal
  rw [← along_iff_split serve fun t r => ∀ id j j', t.jobs.get? id = some j →
    j.paymentStatus = some paymentSuccessful → (serve t r).jobs.get? id = some j' →
    j'.paymentStatus = some paymentSuccessful → j'.price = j.price]
  refine along_congr hpriced ?_ (allJobs_empty Priced s) rs
  intro t r ht
  constructor
  · intro h
    cases hw : r.written t with
    | none => rfl
    | some j =>
      obtain ⟨w, hwrite, hfind⟩ := Option.bind_eq_some_iff.mp hw
      have hafter := get?_serve_written (written_assignJob hw) hwrite hfind
      rw [Option.any_some]
      by_cases hpaid : j.paymentStatus = some paymentSuccessful
      · exact (price_change_iff _ (change_written hwrite hfind)
          (ht j (Collection.mem_of_findOne hfind).1) hpaid).mp
          fun hstill => h j.id j _ (Collection.get?_of_findOne hfind) hpaid hafter hstill
      · simp [reprices, hpaid]
  · intro h id j j' hj hpaid hj' hstill
    by_cases hw : r.written t = some j
    · obtain ⟨w, hwrite, hfind⟩ := Option.bind_eq_some_iff.mp hw
      have hafter := get?_serve_written (written_assignJob hw) hwrite hfind
      rw [((t.jobs.get?_eq_some_iff id j).mp hj).2, hj', Option.some.injEq] at hafter
      rw [hw, Option.any_some] at h
      subst hafter
      exact (price_change_iff _ (change_written hwrite hfind)
        (ht j (Collection.mem_of_findOne hfind).1) hpaid).mpr h hstill
    · rw [get?_serve_of_not_written hj hw, Option.some.injEq] at hj'
      rw [hj']

/-- The customer pays the booked job in full, and then takes the coupon's discount. -/
theorem paid_job_discounted :
    ¬ PaidPriceFinal sampleDb
      [sampleBooking, onSampleJob .paymentSuccess customer 2,
        payingWith (some (.str "FIRST30")) 3] := by
  intro h
  have hbefore : ((runFrom serve sampleDb
      [sampleBooking, onSampleJob .paymentSuccess customer 2]).jobs.get? (idOf "job-------01")).map
        (fun j => (j.paymentStatus, j.discount)) =
      some (some paymentSuccessful, some (.fin 0)) := by decide +kernel
  have hafter : ((serve (runFrom serve sampleDb
      [sampleBooking, onSampleJob .paymentSuccess customer 2])
        (payingWith (some (.str "FIRST30")) 3)).jobs.get? (idOf "job-------01")).map
        (fun j => (j.paymentStatus, j.discount)) =
      some (some paymentSuccessful, some (.fin 30)) := by decide +kernel
  obtain ⟨j, hj, hold⟩ := Option.map_eq_some_iff.mp hbefore
  obtain ⟨j', hj', hnew⟩ := Option.map_eq_some_iff.mp hafter
  simp only [Prod.mk.injEq] at hold hnew
  have hprice := h [sampleBooking, onSampleJob .paymentSuccess customer 2]
    (payingWith (some (.str "FIRST30")) 3) [] rfl _ j j' hj hold.1 hj' hnew.1
  have hdiscount : j'.discount = j.discount := congrArg JobPrice.discount hprice
  rw [hold.2, hnew.2] at hdiscount
  exact absurd hdiscount (by decide)

end Prices

end DoQwik
