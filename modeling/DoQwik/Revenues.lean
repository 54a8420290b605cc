import DoQwik.Calendar
import DoQwik.JobReports

/-! The revenues of the days of the current month and of the last twelve months: whether each paid
job is counted once, in the entry of its day or month. -/
namespace DoQwik
open JsValues DocStore Interleave Calendar

section Periods

variable (z : Zone) (now : ℕ)

/-- The days of `getDailyRevenue`, from the first of the month to the current one. -/
def dailyPeriods : List Period :=
  (List.range (z.getDate now).toNat).map fun (i : ℕ) =>
    { date := toString (z.getFullYear now) ++ "-" ++ toString (z.getMonth now+1) ++ "-" ++
        toString (i+1)
      first := z.date (z.getFullYear now) (z.getMonth now) (i+1) 0 0 0
      last := z.date (z.getFullYear now) (z.getMonth now) (i+1) 23 59 59 }

/-- The last day is the one before the first of the next month. -/
def getFirstAndLastDateOfMonth (year month : ℤ) : ℤ × ℤ :=
  (z.date year month 1 0 0 0, z.date year (month+1) 0 0 0 0)

/-- The months of `getMonthlyRevenue`, the current one first. -/
def monthlyPeriods : List Period :=
  (List.range 12).map fun (i : ℕ) =>
    let month := z.getMonth now-i
    let adjustedYear := if month < 0 then z.getFullYear now-1 else z.getFullYear now
    let adjustedMonth := if month < 0 then month+12 else month
    let dates := getFirstAndLastDateOfMonth z adjustedYear adjustedMonth
    { date := toISOString dates.2, first := dates.1, last := dates.2 }

end Periods

section Entries

/-- Each of the jobs is counted in its entry and in no other, and the entries add up to the sum of
all of them. -/
structure CountsOnce (r : JobListRequest) (s : Db) (counted : Job → Bool) (entry : Job → ℕ) :
    Prop where
  once : ∀ j ∈ s.jobs.docs, counted j = true → ∀ i,
    (∃ js, (r.jobsOver (ownJobs r) s)[i]? = some js ∧ j ∈ js) ↔ i = entry j
  total : (revenuesOf (answerCall s (.list r))).sum = ((s.jobs.find counted).map Job.amount).sum

def ownPaid (r : JobListRequest) (j : Job) : Bool :=
  j.paymentStatus = some paymentSuccessful && ownJobs r j

/-- A handler that reports the sums of periods. -/
def ReportsSums (r : JobListRequest) (dateOf : Job → ℤ) : Prop :=
  r.handler = .getDailyRevenue ∧ dateOf = Job.creationDate ∨
    r.handler = .getMonthlyRevenue ∧ dateOf = Job.createdAt

variable {r : JobListRequest} {s : Db} {dateOf : Job → ℤ}

theorem jobsOver_of_sums (hr : ReportsSums r dateOf) (isOwn : Job → Bool) (s : Db) :
    r.jobsOver isOwn s = r.periods.map fun period =>
      s.jobs.find fun j => paidIn dateOf period j && isOwn j := by
  rcases hr with ⟨hr, rfl⟩ | ⟨hr, rfl⟩
  · rw [JobListRequest.jobsOver, hr]
  · rw [JobListRequest.jobsOver, hr]

theorem revenuesOf_answer (hr : ReportsSums r dateOf) (s : Db) :
    revenuesOf (answerCall s (.list r)) =
      r.periods.map fun period =>
        ((s.jobs.find fun j => paidIn dateOf period j && ownJobs r j).map Job.amount).sum := by
  have hearnings : r.handler.reportsEarnings = true := by
    rcases hr with ⟨hr, -⟩ | ⟨hr, -⟩
    · rw [hr]
      rfl
    · rw [hr]
      rfl
  have hreport : ∀ jobs, r.report jobs =
      { key := .success
        result := some (.revenue (List.zipWith (fun period js =>
          (period.date, (js.map Job.amount).foldl JsNum.add (.fin 0))) r.periods jobs)) } := by
    intro jobs
    rcases hr with ⟨hr, -⟩ | ⟨hr, -⟩
    · rw [JobListRequest.report, hr]
    · rw [JobListRequest.report, hr]
  rw [answer_earnings hearnings, hreport, jobsOver_of_sums hr, List.zipWith_map_right,
    List.zipWith_self]
  simp only [revenuesOf, List.map_map, JsNum.foldl_add]
  rfl

/-- A paid job is counted in a period exactly if it lies in it. -/
theorem counted_iff {j : Job} (hpaid : ownPaid r j = true) (period : Period) :
    (paidIn dateOf period j && ownJobs r j) = true ↔
      period.first ≤ dateOf j ∧ dateOf j ≤ period.last := by
  simp only [ownPaid, Bool.and_eq_true, decide_eq_true_eq] at hpaid
  simp [paidIn, hpaid]

/-- The entries in which a paid job is counted. -/
theorem mem_jobsOver_iff (hr : ReportsSums r dateOf) {n : ℕ} {P : ℕ → Period}
    (hperiods : r.periods = (List.range n).map P) {j : Job} (hj : j ∈ s.jobs.docs)
    (hpaid : ownPaid r j = true) (i : ℕ) :
    (∃ js, (r.jobsOver (ownJobs r) s)[i]? = some js ∧ j ∈ js) ↔
      i < n ∧ (P i).first ≤ dateOf j ∧ dateOf j ≤ (P i).last := by
  rw [jobsOver_of_sums hr, hperiods, List.map_map]
  by_cases hi : i < n
  · rw [List.getElem?_map, List.getElem?_range hi, Option.map_some, ← counted_iff hpaid]
    simp [Collection.find, hj, hi]
  · rw [List.getElem?_eq_none (by simpa using hi)]
    simp [hi]

/-- If every paid job lies in the period of its entry and in no other one, the entries add up. -/
theorem sum_revenues (hr : ReportsSums r dateOf) {n : ℕ} {P : ℕ → Period}
    (hperiods : r.periods = (List.range n).map P) {entry : Job → ℕ}
    (hentry : ∀ j ∈ s.jobs.docs, ownPaid r j = true → entry j < n)
    (hin : ∀ j ∈ s.jobs.docs, ownPaid r j = true → ∀ i < n,
      (P i).first ≤ dateOf j ∧ dateOf j ≤ (P i).last ↔ i = entry j) :
    (revenuesOf (answerCall s (.list r))).sum =
      ((s.jobs.find (ownPaid r)).map Job.amount).sum := by
  let windows : List (Job → Bool) :=
    (List.range n).map fun i j => paidIn dateOf (P i) j && ownJobs r j
  have honce : ∀ j ∈ s.jobs.docs,
      (windows.countP fun w => w j) = if ownPaid r j then 1 else 0 := by
    intro j hj
    rw [List.countP_map]
    cases hpaid : ownPaid r j with
    | true =>
      refine Windows.countP_range_eq (k := entry j) (fun i hi => ?_) (hentry j hj hpaid)
      exact (counted_iff hpaid (P i)).trans (hin j hj hpaid i hi)
    | false =>
      rw [if_neg Bool.false_ne_true, List.countP_eq_zero]
      intro i hi hcounted
      simp only [Function.comp_apply, paidIn, Bool.and_eq_true, decide_eq_true_eq] at hcounted
      simp [ownPaid, hcounted] at hpaid
  have hsum := Windows.sum_windows_of_once windows (ownPaid r) s.jobs.docs honce Job.amount
  rw [List.map_map] at hsum
  rw [revenuesOf_answer hr, hperiods, List.map_map]
  exact hsum

/-- If the paid jobs belong to entries, and lie in the period of their entry exactly when they are
`good` and in no other one, then nothing is lost exactly when all of them are good. -/
theorem countsOnce_iff (hr : ReportsSums r dateOf) {n : ℕ} {P : ℕ → Period}
    (hperiods : r.periods = (List.range n).map P) {entry : Job → ℕ} {good : Job → Prop}
    (hentry : ∀ j ∈ s.jobs.docs, ownPaid r j = true → entry j < n)
    (hin : ∀ j ∈ s.jobs.docs, ownPaid r j = true → ∀ i < n,
      (P i).first ≤ dateOf j ∧ dateOf j ≤ (P i).last ↔ i = entry j ∧ good j) :
    CountsOnce r s (ownPaid r) entry ↔ ∀ j ∈ s.jobs.docs, ownPaid r j = true → good j := by
  constructor
  · intro h j hj hpaid
    have hcounted := (h.once j hj hpaid (entry j)).mpr rfl
    rw [mem_jobsOver_iff hr hperiods hj hpaid] at hcounted
    exact ((hin j hj hpaid _ hcounted.1).mp hcounted.2).2
  · intro hgood
    have honly : ∀ j ∈ s.jobs.docs, ownPaid r j = true → ∀ i < n,
        (P i).first ≤ dateOf j ∧ dateOf j ≤ (P i).last ↔ i = entry j := by
      intro j hj hpaid i hi
      rw [hin j hj hpaid i hi]
      exact and_iff_left (hgood j hj hpaid)
    refine ⟨?_, sum_revenues hr hperiods hentry honly⟩
    intro j hj hpaid i
    rw [mem_jobsOver_iff hr hperiods hj hpaid]
    constructor
    · rintro ⟨hi, hdates⟩
      exact (honly j hj hpaid i hi).mp hdates
    · rintro rfl
      have hi := hentry j hj hpaid
      exact ⟨hi, (honly j hj hpaid _ hi).mpr rfl⟩

end Entries

section Days

/-- The revenues of the days lose no job of the current month exactly if none was created in the
last second of a day, after its beginning. -/
theorem dailyRevenue_iff (z : Zone) (now : ℕ) (s : Db) (r : JobListRequest)
    (hr : r.handler = .getDailyRevenue) (hperiods : r.periods = dailyPeriods z now)
    (hjobs : ∀ j ∈ s.jobs.docs, ownPaid r j = true →
      z.month j.creationDate = z.month now ∧ j.creationDate ≤ now) :
    CountsOnce r s (ownPaid r) (fun j => (z.getDate j.creationDate-1).toNat) ↔
      ∀ j ∈ s.jobs.docs, ownPaid r j = true → z.timeInDay j.creationDate ≤ 86399000 := by
  have hyear : 100 ≤ z.getFullYear now := by
    have := year_of_clock (z := z) now
    omega
  unfold dailyPeriods at hperiods
  refine countsOnce_iff (Or.inl ⟨hr, rfl⟩) hperiods ?_ ?_
  · intro j hj hpaid
    obtain ⟨hmonth, hnow⟩ := hjobs j hj hpaid
    have hday := day_mono (z := z) hnow
    have hfirst := (dayFromMonth_le_day (z := z) j.creationDate).1
    unfold Zone.getDate
    rw [hmonth] at hfirst ⊢
    omega
  · intro j hj hpaid i hi
    obtain ⟨hmonth, -⟩ := hjobs j hj hpaid
    have hfirst := (dayFromMonth_le_day (z := z) j.creationDate).1
    dsimp only
    rw [date_midnight hyear, date_lastSecond hyear, month_eq, day_le_iff, le_lastSecond_iff]
    unfold Zone.getDate
    rw [hmonth] at hfirst ⊢
    omega

def paidJobDb (t : ℤ) : Db :=
  runFrom serve sampleDb [{ sampleBooking with env := sampleEnv t },
    onSampleJob .jobAccept company t, onSampleJob .jobStart company t,
    onSampleJob .jobFinish company t]

def sampleNow : ℕ := 1700000000000

def companyReport (handler : JobListHandler) (periods : List Period) : JobListRequest where
  handler := handler
  caller := company
  periods := periods
  regex := fun _ _ => none

/-- A job of 13 November at noon. -/
theorem dailyRevenue_of_noon :
    CountsOnce (companyReport .getDailyRevenue (dailyPeriods utc sampleNow))
      (paidJobDb 1699876800000)
      (ownPaid (companyReport .getDailyRevenue (dailyPeriods utc sampleNow)))
      (fun j => (utc.getDate j.creationDate-1).toNat) := by
  refine (dailyRevenue_iff utc sampleNow (paidJobDb 1699876800000)
    (companyReport .getDailyRevenue (dailyPeriods utc sampleNow)) rfl rfl ?_).mpr ?_
  · decide +kernel
  · decide +kernel

/-- A job of the same day, half a second before midnight, is in no entry. -/
theorem dailyRevenue_loses_last_second :
    (∀ j ∈ (paidJobDb 1699919999500).jobs.docs,
      ownPaid (companyReport .getDailyRevenue (dailyPeriods utc sampleNow)) j = true ∧
        utc.month j.creationDate = utc.month sampleNow ∧ j.creationDate ≤ sampleNow ∧
        j.amount = .fin 100) ∧
      (paidJobDb 1699919999500).jobs.docs.length = 1 ∧
      (revenuesOf (answerCall (paidJobDb 1699919999500)
        (.list (companyReport .getDailyRevenue (dailyPeriods utc sampleNow))))).sum = .fin 0 ∧
      ¬ CountsOnce (companyReport .getDailyRevenue (dailyPeriods utc sampleNow))
        (paidJobDb 1699919999500)
        (ownPaid (companyReport .getDailyRevenue (dailyPeriods utc sampleNow)))
        (fun j => (utc.getDate j.creationDate-1).toNat) := by
  have hsum : (revenuesOf (answerCall (paidJobDb 1699919999500)
      (.list (companyReport .getDailyRevenue (dailyPeriods utc sampleNow))))).sum = .fin 0 := by
    decide +kernel
  refine ⟨by decide +kernel, by decide +kernel, hsum, fun h => ?_⟩
  have htotal := h.total
  rw [hsum] at htotal
  exact absurd htotal (by decide +kernel)

end Days

section Months

/-- Before the last day of its month, or at its very beginning. -/
def beforeLastDay (z : Zone) (t : ℤ) : Prop :=
  z.day t+1 < dayFromMonth (z.month t+1) ∨ z.timeInDay t = 0

/-- The first and the last day of a month, both at midnight. -/
theorem firstAndLastDate_eq {z : Zone} {year : ℤ} (h : 100 ≤ year) (month : ℤ) :
    getFirstAndLastDateOfMonth z year month =
      (dayFromMonth (12*year+month)*msPerDay-z.offset,
        (dayFromMonth (12*year+month+1)-1)*msPerDay-z.offset) := by
  rw [getFirstAndLastDateOfMonth, date_midnight h, date_midnight h, ← add_assoc,
    add_sub_cancel_right, add_zero]

/-- The year and the month are adjusted to the month `i` months ago. -/
theorem adjusted_eq (z : Zone) (now i : ℕ) :
    100 ≤ (if z.getMonth now-i < 0 then z.getFullYear now-1 else z.getFullYear now) ∧
      12*(if z.getMonth now-i < 0 then z.getFullYear now-1 else z.getFullYear now)+
        (if z.getMonth now-i < 0 then z.getMonth now-i+12 else z.getMonth now-i) =
      z.month now-i := by
  have hyear := year_of_clock (z := z) now
  have hmonth := month_eq (z := z) now
  split
  · omega
  · omega

/-- The revenues of the months lose no job exactly if none was created in the course of the last
day of a month. -/
theorem monthlyRevenue_iff (z : Zone) (now : ℕ) (s : Db) (r : JobListRequest)
    (hr : r.handler = .getMonthlyRevenue) (hperiods : r.periods = monthlyPeriods z now)
    (hjobs : ∀ j ∈ s.jobs.docs, ownPaid r j = true →
      z.month now-11 ≤ z.month j.createdAt ∧ j.createdAt ≤ now) :
    CountsOnce r s (ownPaid r) (fun j => (z.month now-z.month j.createdAt).toNat) ↔
      ∀ j ∈ s.jobs.docs, ownPaid r j = true → beforeLastDay z j.createdAt := by
  unfold monthlyPeriods at hperiods
  refine countsOnce_iff (Or.inr ⟨hr, rfl⟩) hperiods ?_ ?_
  · intro j hj hpaid
    have := hjobs j hj hpaid
    omega
  · intro j hj hpaid i hi
    obtain ⟨hmonth, hnow⟩ := hjobs j hj hpaid
    have hlast := month_mono (z := z) hnow
    obtain ⟨hyear, hadjusted⟩ := adjusted_eq z now i
    dsimp only
    rw [firstAndLastDate_eq hyear, hadjusted, day_le_iff, le_midnight_iff]
    constructor
    · rintro ⟨hfirst, hend⟩
      have hin : z.month j.createdAt = z.month now-i :=
        monthFromDay_eq_iff.mpr ⟨hfirst, by omega⟩
      refine ⟨by omega, ?_⟩
      rw [beforeLastDay, hin]
      omega
    · rintro ⟨rfl, hgood⟩
      obtain ⟨hlow, hhigh⟩ := dayFromMonth_le_day (z := z) j.createdAt
      have hin : z.month now-((z.month now-z.month j.createdAt).toNat : ℤ) =
          z.month j.createdAt := by omega
      rw [hin]
      unfold beforeLastDay at hgood
      omega

/-- A job of 30 October. -/
theorem monthlyRevenue_before_last_day :
    CountsOnce (companyReport .getMonthlyRevenue (monthlyPeriods utc sampleNow))
      (paidJobDb 1698667200000)
      (ownPaid (companyReport .getMonthlyRevenue (monthlyPeriods utc sampleNow)))
      (fun j => (utc.month sampleNow-utc.month j.createdAt).toNat) := by
  refine (monthlyRevenue_iff utc sampleNow (paidJobDb 1698667200000)
    (companyReport .getMonthlyRevenue (monthlyPeriods utc sampleNow)) rfl rfl ?_).mpr ?_
  · decide +kernel
  · unfold beforeLastDay
    decide +kernel

/-- A job of 31 October is in no entry. -/
theorem monthlyRevenue_loses_last_day :
    (∀ j ∈ (paidJobDb 1698753600000).jobs.docs,
      ownPaid (companyReport .getMonthlyRevenue (monthlyPeriods utc sampleNow)) j = true ∧
        utc.month j.createdAt = utc.month sampleNow-1 ∧ j.createdAt ≤ sampleNow ∧
        j.amount = .fin 100) ∧
      (paidJobDb 1698753600000).jobs.docs.length = 1 ∧
      (revenuesOf (answerCall (paidJobDb 1698753600000)
        (.list (companyReport .getMonthlyRevenue (monthlyPeriods utc sampleNow))))).sum = .fin 0 ∧
      ¬ CountsOnce (companyReport .getMonthlyRevenue (monthlyPeriods utc sampleNow))
        (paidJobDb 1698753600000)
        (ownPaid (companyReport .getMonthlyRevenue (monthlyPeriods utc sampleNow)))
        (fun j => (utc.month sampleNow-utc.month j.createdAt).toNat) := by
  have hsum : (revenuesOf (answerCall (paidJobDb 1698753600000)
      (.list (companyReport .getMonthlyRevenue (monthlyPeriods utc sampleNow))))).sum =
        .fin 0 := by
    decide +kernel
  refine ⟨by decide +kernel, by decide +kernel, hsum, fun h => ?_⟩
  have htotal := h.total
  rw [hsum] at htotal
  exact absurd htotal (by decide +kernel)

end Months

end DoQwik
