import DoQwik.Amounts
import DoQwik.JobReads

/-! The reports on earnings: the revenues by day and by month and the history of transactions, as
functions of the jobs that they select. -/
namespace DoQwik
open JsValues DocStore Interleave

section Reports

def JobListHandler.reportsEarnings : JobListHandler → Bool
  | .jobTransactionHistory => true
  | .getDailyRevenue => true
  | .getMonthlyRevenue => true
  | _ => false

def paidIn (dateOf : Job → ℤ) (period : Period) (j : Job) : Bool :=
  decide (period.first ≤ dateOf j) && decide (dateOf j ≤ period.last) &&
    j.paymentStatus = some paymentSuccessful

variable (r : JobListRequest)

/-- The jobs behind each entry of a revenue, or behind the history. -/
def JobListRequest.jobsOver (isOwn : Job → Bool) (s : Db) : List (List Job) :=
  match r.handler with
  | .jobTransactionHistory => [listJobs s fun j => isOwn j && j.jobStatus = .complete]
  | .getDailyRevenue =>
    r.periods.map fun period => s.jobs.find fun j => paidIn Job.creationDate period j && isOwn j
  | .getMonthlyRevenue =>
    r.periods.map fun period => s.jobs.find fun j => paidIn Job.createdAt period j && isOwn j
  | _ => []

def JobListRequest.report (jobs : List (List Job)) : JobResponse :=
  match r.handler with
  | .jobTransactionHistory =>
    match r.window with
    | .ok w =>
      { key := .success
        result := some (.transactions ((page w jobs.flatten).map transactionOf)) }
    | .error e => serverError e
  | _ =>
    { key := .success
      result := some (.revenue (List.zipWith (fun period js =>
        (period.date, (js.map Job.amount).foldl JsNum.add (.fin 0))) r.periods jobs)) }

/-- A job that the report is about, if it is the caller's. -/
def JobListRequest.reports (j : Job) : Bool :=
  match r.handler with
  | .jobTransactionHistory => j.jobStatus = .complete
  | .getDailyRevenue => r.periods.any fun period => paidIn Job.creationDate period j
  | .getMonthlyRevenue => r.periods.any fun period => paidIn Job.createdAt period j
  | _ => false

/-- The report is made of the jobs that meet `isOwn`. -/
structure ComputedOver (isOwn : Job → Bool) (s : Db) : Prop where
  answer : answerCall s (.list r) = r.report (r.jobsOver isOwn s)
  jobs : r.jobsOver (ownJobs r) s = r.jobsOver isOwn s

variable {r}

theorem answer_revenues (dateOf : Job → ℤ) (s : Db)
    (h : r.handle = revenues dateOf (ownJobs r) r.periods >>= fun data =>
      reply .success (some (.revenue data))) :
    answerCall s (.list r) =
      { key := .success
        result := some (.revenue (List.zipWith (fun period js =>
          (period.date, (js.map Job.amount).foldl JsNum.add (.fin 0))) r.periods
          (r.periods.map fun period =>
            s.jobs.find fun j => paidIn dateOf period j && ownJobs r j))) } := by
  have hrun : (r.handle.run exec s).2 =
      .ok { key := .success, result := some (.revenue
        (r.periods.map fun period => (period.date, revenueIn dateOf (ownJobs r) s period))) } := by
    rw [h, Prog.run_bind, run_revenues]
    rfl
  simp only [answerCall, JobCall.program, Prog.run_catchAll, hrun, List.zipWith_map_right,
    List.zipWith_self]
  rfl

theorem answer_earnings (hr : r.handler.reportsEarnings = true) (s : Db) :
    answerCall s (.list r) = r.report (r.jobsOver (ownJobs r) s) := by
  obtain ⟨handler, c, jobId, search, window, periods, regex⟩ := r
  cases handler with
  | jobTransactionHistory =>
    cases window with
    | error e => rfl
    | ok w =>
      simp only [JobListRequest.report, JobListRequest.jobsOver, List.flatten_singleton]
      rfl
  | getDailyRevenue => exact answer_revenues Job.creationDate s rfl
  | getMonthlyRevenue => exact answer_revenues Job.createdAt s rfl
  | _ => cases hr

theorem find_eq_find_iff {c : Collection Job.id} {p q : Job → Bool} :
    c.find p = c.find q ↔ ∀ j ∈ c.docs, p j = q j := by
  constructor
  · intro h j hj
    rw [Bool.eq_iff_iff]
    have hmem : j ∈ c.find p ↔ j ∈ c.find q := by rw [h]
    simpa [Collection.find, hj] using hmem
  · exact List.filter_congr

/-- Sorting leaves the same jobs in the list. -/
theorem listJobs_eq_iff {s : Db} {p q : Job → Bool} :
    listJobs s p = listJobs s q ↔ ∀ j ∈ s.jobs.docs, p j = q j := by
  constructor
  · intro h j hj
    rw [Bool.eq_iff_iff]
    have hmem : j ∈ listJobs s p ↔ j ∈ listJobs s q := by rw [h]
    simpa [listJobs, sortDescending, Collection.find, hj] using hmem
  · intro h
    unfold listJobs
    rw [find_eq_find_iff.mpr h]

/-- Two conditions give the same jobs exactly when they agree on the jobs that the report is
about. -/
theorem jobsOver_eq_iff (hr : r.handler.reportsEarnings = true) {p q : Job → Bool} {s : Db} :
    r.jobsOver p s = r.jobsOver q s ↔ ∀ j ∈ s.jobs.docs, r.reports j = true → p j = q j := by
  have hperiods : ∀ dateOf : Job → ℤ,
      ((r.periods.map fun period => s.jobs.find fun j => paidIn dateOf period j && p j) =
        r.periods.map fun period => s.jobs.find fun j => paidIn dateOf period j && q j) ↔
      ∀ j ∈ s.jobs.docs, (r.periods.any fun period => paidIn dateOf period j) = true →
        p j = q j := by
    intro dateOf
    simp only [List.map_inj_left, find_eq_find_iff, List.any_eq_true]
    constructor
    · rintro h j hj ⟨period, hperiod, hpaid⟩
      simpa [hpaid] using h period hperiod j hj
    · intro h period hperiod j hj
      cases hpaid : paidIn dateOf period j with
      | false => rfl
      | true => simpa using h j hj ⟨period, hperiod, hpaid⟩
  obtain ⟨handler, c, jobId, search, window, periods, regex⟩ := r
  cases handler with
  | jobTransactionHistory =>
    simp only [JobListRequest.jobsOver, JobListRequest.reports, List.cons.injEq, and_true,
      listJobs_eq_iff, decide_eq_true_eq]
    refine forall₂_congr fun j hj => ?_
    by_cases hstatus : j.jobStatus = .complete
    · simp [hstatus]
    · simp [hstatus]
  | getDailyRevenue => exact hperiods Job.creationDate
  | getMonthlyRevenue => exact hperiods Job.createdAt
  | _ => cases hr

theorem computedOver_iff (hr : r.handler.reportsEarnings = true) {isOwn : Job → Bool} {s : Db} :
    ComputedOver r isOwn s ↔
      ∀ j ∈ s.jobs.docs, r.reports j = true → ownJobs r j = isOwn j := by
  rw [← jobsOver_eq_iff hr]
  constructor
  · exact ComputedOver.jobs
  · intro h
    exact ⟨by rw [answer_earnings hr, h], h⟩

def revenuesOf (a : JobResponse) : List JsNum :=
  match a.result with
  | some (.revenue data) => data.map Prod.snd
  | _ => []

end Reports

end DoQwik
