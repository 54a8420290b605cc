import DoQwik.Calendar
import DoQwik.Groups
import DoQwik.Revenues

/-! The dashboard of the administration: the earnings of today, of this month, of the last one, of
the year and of all time, and the most active accounts. -/
namespace DoQwik
open JsValues DocStore Interleave Calendar Groups

section Handler

def paid (j : Job) : Bool := j.paymentStatus = some paymentSuccessful

/-- The sum that `revenueData` gives for a `$match` of paid jobs and a `$group` of all of them;
without a job there is no group, and the earning is `0`. -/
def earning (p : Job → Bool) (s : Db) : JsNum :=
  ((s.jobs.find fun j => paid j && p j).map Job.amount).foldl JsNum.add (.fin 0)

def createdIn (window : ℤ × ℤ) (j : Job) : Bool :=
  decide (window.1 ≤ j.creationDate) && decide (j.creationDate ≤ window.2)

variable (z : Zone) (now : ℕ)

def todayWindow : ℤ × ℤ :=
  (z.date (z.getFullYear now) (z.getMonth now) (z.getDate now) 0 0 0,
    z.date (z.getFullYear now) (z.getMonth now) (z.getDate now) 23 59 59)

def daysInCurrentMonth : ℤ := z.getDate (z.date (z.getFullYear now) (z.getMonth now+1) 0 0 0 0)

-- The month of the end is counted from one, so the window reaches into the next month.
def monthWindow : ℤ × ℤ :=
  (z.date (z.getFullYear now) (z.getMonth now) 1 0 0 0,
    z.date (z.getFullYear now) (z.getMonth now+1) (daysInCurrentMonth z now) 23 59 59)

def lastMonthWindow : ℤ × ℤ :=
  let currentMonth1 := z.getMonth now+1
  -- day 0 of the last month belongs to the month before it
  let daysInCurrentMonth1 := z.getDate (z.date (z.getFullYear now) (currentMonth1-2) 0 0 0 0)
  (z.date (z.getFullYear now) (currentMonth1-2) 1 0 0 0,
    z.date (z.getFullYear now) (currentMonth1-2) daysInCurrentMonth1 23 59 59)

-- Both months are counted from one: from 1 February to 31 January of the year after the next.
def yearWindow : ℤ × ℤ :=
  (z.date (z.getFullYear now) 1 1 0 0 0, z.date (z.getFullYear now+1) 12 31 0 0 0)

/-- The newest job of an account, with the account as populated. -/
structure ActiveEntry where
  id : ObjectId
  account : Option (ObjectId × String)
  deriving DecidableEq

/-- The orders in which the database hands over the groups. Only those of the users are sorted by
a path that they have; the others are sorted by `job_id`, which no group has. -/
structure GroupOrders where
  users : Arrangement (Option ObjectId × ℕ)
  workers : Arrangement (Option ObjectId × ℕ)
  individuals : Arrangement (Option ObjectId × ℕ)
  companies : Arrangement (Option ObjectId × ℕ)
  android : Arrangement (Option ObjectId × ℕ)
  web : Arrangement (Option ObjectId × ℕ)

def groupsOf (ref : Job → Option ObjectId) (p : Job → Bool) (s : Db) :
    List (Option ObjectId × ℕ) :=
  counts ref (s.jobs.find p)

/-- `$sort` by `orderCount`, then `$limit`. -/
def largestGroup (order : Arrangement (Option ObjectId × ℕ)) (gs : List (Option ObjectId × ℕ)) :
    Option (Option ObjectId × ℕ) :=
  (sortDescending (fun g => g.2) (order.arrange gs)).head?

def userOf (j : Job) : Option ObjectId := some j.userId

def providerOf (j : Job) : Option ObjectId := some j.providerData

def userAccount (s : Db) (id : ObjectId) : Option (ObjectId × String) :=
  (s.users.get? id).map fun u => (u.id, u.fullName)

def providerAccount (s : Db) (id : ObjectId) : Option (ObjectId × String) :=
  (s.providers.get? id).map fun p => (p.id, p.fullName)

/-- `getData` for the account of a group, by `job_id` and limited to one. -/
def newestOf (ref : Job → Option ObjectId) (account : Db → ObjectId → Option (ObjectId × String))
    (id : Option ObjectId) (s : Db) : Option ActiveEntry :=
  (listJobs s fun j => ref j = id).head?.map fun j =>
    { id := j.id, account := (ref j).bind (account s) }

def lookUp (ref : Job → Option ObjectId) (account : Db → ObjectId → Option (ObjectId × String)) :
    Option (Option ObjectId × ℕ) → Action (Option ActiveEntry)
  | some g => query (newestOf ref account g.1)
  | none => pure none

def paidAs (userType : String) (j : Job) : Bool := paid j && j.providerUserType = userType

def paidOn (platform : String) (j : Job) : Bool := paid j && j.platform = some platform

structure DashboardData where
  todayEarning : JsNum
  monthEarning : JsNum
  lastMonthEarning : JsNum
  yearEarning : JsNum
  totalEarning : JsNum
  activeUser : Option ActiveEntry
  activeWorker : Option ActiveEntry
  activeIndividual : Option ActiveEntry
  activeCompany : Option ActiveEntry
  androidRatio : ℕ
  webRatio : ℕ

inductive DashboardResult where
  | data (d : DashboardData)
  | error (e : Thrown)

def adminDashboardData (order : GroupOrders) : Action (Response DashboardResult) :=
  Prog.catchAll (fun e => { key := .errorServerError, result := some (.error e) }) do
    let todayEarning ← query (earning (createdIn (todayWindow z now)))
    let monthEarning ← query (earning (createdIn (monthWindow z now)))
    let lastMonthEarning ← query (earning (createdIn (lastMonthWindow z now)))
    let yearEarning ← query (earning (createdIn (yearWindow z now)))
    let totalEarning ← query (earning fun _ => true)
    let user ← query fun s => largestGroup order.users (groupsOf userOf (fun _ => true) s)
    let activeUser ← lookUp userOf userAccount user
    let worker ← query fun s => order.workers.first (groupsOf Job.workerData paid s)
    let activeWorker ← lookUp Job.workerData providerAccount worker
    let individual ← query fun s =>
      order.individuals.first (groupsOf providerOf (paidAs individualType) s)
    let activeIndividual ← lookUp providerOf providerAccount individual
    let company ← query fun s => order.companies.first (groupsOf providerOf (paidAs companyType) s)
    let activeCompany ← lookUp providerOf providerAccount company
    let android ← query fun s => order.android.first (groupsOf providerOf (paidOn "android") s)
    let web ← query fun s => order.web.first (groupsOf providerOf (paidOn "Web") s)
    reply .success (some (.data
      { todayEarning, monthEarning, lastMonthEarning, yearEarning, totalEarning, activeUser,
        activeWorker, activeIndividual, activeCompany
        androidRatio := android.elim 0 Prod.snd
        webRatio := web.elim 0 Prod.snd }))

def dashboardOf (order : GroupOrders) (s : Db) : DashboardData where
  todayEarning := earning (createdIn (todayWindow z now)) s
  monthEarning := earning (createdIn (monthWindow z now)) s
  lastMonthEarning := earning (createdIn (lastMonthWindow z now)) s
  yearEarning := earning (createdIn (yearWindow z now)) s
  totalEarning := earning (fun _ => true) s
  activeUser := (largestGroup order.users (groupsOf userOf (fun _ => true) s)).bind fun g =>
    newestOf userOf userAccount g.1 s
  activeWorker := (order.workers.first (groupsOf Job.workerData paid s)).bind fun g =>
    newestOf Job.workerData providerAccount g.1 s
  activeIndividual :=
    (order.individuals.first (groupsOf providerOf (paidAs individualType) s)).bind fun g =>
      newestOf providerOf providerAccount g.1 s
  activeCompany :=
    (order.companies.first (groupsOf providerOf (paidAs companyType) s)).bind fun g =>
      newestOf providerOf providerAccount g.1 s
  androidRatio := (order.android.first (groupsOf providerOf (paidOn "android") s)).elim 0 Prod.snd
  webRatio := (order.web.first (groupsOf providerOf (paidOn "Web") s)).elim 0 Prod.snd

theorem run_lookUp_bind {γ : Type} (ref : Job → Option ObjectId)
    (account : Db → ObjectId → Option (ObjectId × String)) (g : Option (Option ObjectId × ℕ))
    (k : Option ActiveEntry → Action γ) (s : Db) :
    (lookUp ref account g >>= k).run exec s =
      (k (g.bind fun g => newestOf ref account g.1 s)).run exec s := by
  cases g with
  | none => rfl
  | some g => rfl

/-- Uninterrupted, the handler answers with the dashboard of the state that it finds. -/
theorem run_adminDashboardData (order : GroupOrders) (s : Db) :
    (adminDashboardData z now order).run exec s =
      (s, .ok { key := .success, result := some (.data (dashboardOf z now order s)) }) := by
  rw [adminDashboardData, Prog.run_catchAll]
  simp only [run_query_bind, run_lookUp_bind]
  rfl

end Handler

section Windows

variable {z : Zone} {now : ℕ}

theorem createdIn_iff {window : ℤ × ℤ} {j : Job} :
    createdIn window j = true ↔ window.1 ≤ j.creationDate ∧ j.creationDate ≤ window.2 := by
  rw [createdIn, Bool.and_eq_true, decide_eq_true_eq, decide_eq_true_eq]

theorem hundred_le_year : 100 ≤ z.getFullYear now :=
  le_trans (by norm_num) (year_of_clock now)

theorem todayWindow_eq :
    todayWindow z now =
      (z.day now*msPerDay-z.offset, z.day now*msPerDay+86399000-z.offset) := by
  have hday : dayFromMonth (z.month now)+z.getDate now-1 = z.day now := by
    unfold Zone.getDate
    ring
  rw [todayWindow, date_midnight hundred_le_year, date_lastSecond hundred_le_year, month_eq, hday]

theorem monthWindow_eq :
    monthWindow z now = (dayFromMonth (z.month now)*msPerDay-z.offset,
      (dayFromMonth (z.month now+1)+monthLength (z.month now)-1)*msPerDay+86399000-z.offset) := by
  rw [monthWindow, daysInCurrentMonth, getDate_dayZero hundred_le_year,
    date_midnight hundred_le_year, date_lastSecond hundred_le_year, ← add_assoc, month_eq,
    add_sub_cancel_right, add_sub_cancel_right]

/-- The window begins with the last month and is as long as the month before it. -/
theorem lastMonthWindow_eq :
    lastMonthWindow z now = (dayFromMonth (z.month now-1)*msPerDay-z.offset,
      (dayFromMonth (z.month now-1)+monthLength (z.month now-2)-1)*msPerDay+86399000-
        z.offset) := by
  have hmonth : 12*z.getFullYear now+(z.getMonth now+1-2) = z.month now-1 := by
    have := month_eq (z := z) now
    omega
  have hbefore : z.month now-1-1 = z.month now-2 := by ring
  rw [lastMonthWindow, getDate_dayZero hundred_le_year, date_midnight hundred_le_year,
    date_lastSecond hundred_le_year, hmonth, hbefore, add_sub_cancel_right]

theorem yearWindow_eq :
    yearWindow z now = (dayFromMonth (12*z.getFullYear now+1)*msPerDay-z.offset,
      (dayFromMonth (12*z.getFullYear now+24)+30)*msPerDay-z.offset) := by
  have hnext : 100 ≤ z.getFullYear now+1 := by
    have hyear : 100 ≤ z.getFullYear now := hundred_le_year
    omega
  have hmonth : 12*(z.getFullYear now+1)+12 = 12*z.getFullYear now+24 := by ring
  rw [yearWindow, date_midnight hundred_le_year, date_midnight hnext, hmonth,
    add_sub_cancel_right]
  norm_num [add_sub_assoc]

end Windows

section Earnings

variable {s : Db} {p q : Job → Bool}

theorem earning_eq (p : Job → Bool) (s : Db) :
    earning p s = ((s.jobs.docs.filter fun j => paid j && p j).map Job.amount).sum :=
  JsNum.foldl_add _

theorem earning_congr (h : ∀ j ∈ s.jobs.docs, p j = q j) : earning p s = earning q s := by
  rw [earning_eq, earning_eq]
  congr 2
  apply List.filter_congr
  intro j hj
  rw [h j hj]

theorem earning_le (hamount : ∀ j ∈ s.jobs.docs, JsNum.le 0 j.amount = true)
    (h : ∀ j ∈ s.jobs.docs, p j = true → q j = true) :
    JsNum.le (earning p s) (earning q s) = true := by
  rw [earning_eq, earning_eq]
  apply JsNum.sum_filter_le hamount
  intro j hj hp
  rw [Bool.and_eq_true] at hp ⊢
  exact ⟨hp.1, h j hj hp.2⟩

/-- What lies in one of two windows is earned in one of them. -/
theorem earning_add {e : Job → Bool}
    (h : ∀ j ∈ s.jobs.docs, e j = (p j || q j) ∧ (p j && q j) = false) :
    earning p s+earning q s = earning e s := by
  let windows : List (Job → Bool) := [fun j => paid j && p j, fun j => paid j && q j]
  have honce : ∀ j ∈ s.jobs.docs,
      (windows.countP fun w => w j) = if (paid j && e j) = true then 1 else 0 := by
    intro j hj
    obtain ⟨he, hpq⟩ := h j hj
    rw [he]
    cases hp : p j with
    | true =>
      have hq : q j = false := by simpa [hp] using hpq
      simp [windows, List.countP_cons, hp, hq]
    | false => simp [windows, List.countP_cons, hp]
  have hsum := Windows.sum_windows_of_once windows (fun j => paid j && e j) s.jobs.docs honce
    Job.amount
  rw [earning_eq, earning_eq, earning_eq, ← hsum]
  simp [windows]

end Earnings

section LastMonth

variable (z : Zone) (now : ℕ)

/-- From the day `first` of the last month, counted from zero, to before the day `last`. -/
def daysOfLastMonth (first last : ℤ) (j : Job) : Bool :=
  decide (dayFromMonth (z.month now-1)+first ≤ z.day j.creationDate) &&
    decide (z.day j.creationDate < dayFromMonth (z.month now-1)+last)

def inLastMonth (j : Job) : Bool := z.month j.creationDate = z.month now-1

variable {z now}

theorem inLastMonth_eq (j : Job) :
    inLastMonth z now j = daysOfLastMonth z now 0 (monthLength (z.month now-1)) j := by
  rw [Bool.eq_iff_iff]
  simp only [inLastMonth, daysOfLastMonth, Bool.and_eq_true, decide_eq_true_eq]
  refine monthFromDay_eq_iff.trans ?_
  unfold monthLength
  rw [sub_add_cancel]
  omega

theorem createdIn_lastMonthWindow {j : Job} (hwhole : j.creationDate%1000 = 0) :
    createdIn (lastMonthWindow z now) j =
      daysOfLastMonth z now 0 (monthLength (z.month now-2)) j := by
  have htime := timeInDay_le_of_whole (z := z) hwhole
  rw [Bool.eq_iff_iff, createdIn_iff, lastMonthWindow_eq, day_le_iff, le_lastSecond_iff]
  simp only [daysOfLastMonth, Bool.and_eq_true, decide_eq_true_eq]
  omega

theorem lastMonthEarning_eq {order : GroupOrders} {s : Db}
    (hwhole : ∀ j ∈ s.jobs.docs, j.creationDate%1000 = 0) :
    (dashboardOf z now order s).lastMonthEarning =
      earning (daysOfLastMonth z now 0 (monthLength (z.month now-2))) s :=
  earning_congr fun j hj => createdIn_lastMonthWindow (hwhole j hj)

theorem earning_inLastMonth {s : Db} :
    earning (inLastMonth z now) s =
      earning (daysOfLastMonth z now 0 (monthLength (z.month now-1))) s :=
  earning_congr fun j _ => inLastMonth_eq j

/-- In February and in September the two preceding months are equally long, and whatever the jobs
are the earning of the last month is right. -/
theorem lastMonthEarning_of_equal_months (h : z.getMonth now = 1 ∨ z.getMonth now = 8)
    {order : GroupOrders} {s : Db} (hwhole : ∀ j ∈ s.jobs.docs, j.creationDate%1000 = 0) :
    (dashboardOf z now order s).lastMonthEarning = earning (inLastMonth z now) s := by
  have hlength : monthLength (z.month now-2) = monthLength (z.month now-2+1) := by
    rw [monthLength_eq_next_iff]
    unfold Zone.getMonth at h
    omega
  have hnext : z.month now-2+1 = z.month now-1 := by ring
  rw [lastMonthEarning_eq hwhole, earning_inLastMonth, hlength, hnext]

/-- The earning of the last month is right exactly if what was earned between the ends of the
shorter and of the longer one of the two preceding months adds nothing to the days before. -/
theorem lastMonthEarning_iff (z : Zone) (now : ℕ) (order : GroupOrders) (s : Db)
    (hwhole : ∀ j ∈ s.jobs.docs, j.creationDate%1000 = 0) :
    (dashboardOf z now order s).lastMonthEarning = earning (inLastMonth z now) s ↔
      earning (daysOfLastMonth z now 0
          (min (monthLength (z.month now-2)) (monthLength (z.month now-1)))) s+
        earning (daysOfLastMonth z now
          (min (monthLength (z.month now-2)) (monthLength (z.month now-1)))
          (max (monthLength (z.month now-2)) (monthLength (z.month now-1)))) s =
      earning (daysOfLastMonth z now 0
        (min (monthLength (z.month now-2)) (monthLength (z.month now-1)))) s := by
  -- the longer one of the two stretches of days is the shorter one and the days that follow it
  have hsplit : ∀ a b : ℤ, 0 ≤ a → a ≤ b →
      earning (daysOfLastMonth z now 0 a) s+earning (daysOfLastMonth z now a b) s =
        earning (daysOfLastMonth z now 0 b) s := by
    intro a b ha hab
    apply earning_add
    intro j hj
    unfold daysOfLastMonth
    constructor
    · rw [Bool.eq_iff_iff]
      simp only [Bool.and_eq_true, Bool.or_eq_true, decide_eq_true_eq]
      omega
    · rw [← Bool.not_eq_true]
      simp only [Bool.and_eq_true, decide_eq_true_eq]
      omega
  have hpositive := fun k => (monthLength_bounds k).1
  rw [lastMonthEarning_eq hwhole, earning_inLastMonth]
  rcases le_total (monthLength (z.month now-2)) (monthLength (z.month now-1)) with h | h
  · rw [min_eq_left h, max_eq_right h, hsplit _ _ (by have := hpositive (z.month now-2); omega) h]
    exact eq_comm
  · rw [min_eq_right h, max_eq_left h, hsplit _ _ (by have := hpositive (z.month now-1); omega) h]

def someOrders : GroupOrders := ⟨.asFound, .asFound, .asFound, .asFound, .asFound, .asFound⟩

/-- On 14 November, with a job of 30 October. -/
theorem lastMonthEarning_before_last_day :
    (dashboardOf utc sampleNow someOrders (paidJobDb 1698667200000)).lastMonthEarning =
      earning (inLastMonth utc sampleNow) (paidJobDb 1698667200000) := by
  refine (lastMonthEarning_iff utc sampleNow someOrders (paidJobDb 1698667200000) ?_).mpr ?_
  · decide +kernel
  · decide +kernel

/-- September has 30 days, so a job of 31 October is left out. -/
theorem lastMonthEarning_loses_last_day :
    (∀ j ∈ (paidJobDb 1698753600000).jobs.docs, j.creationDate%1000 = 0) ∧
      (dashboardOf utc sampleNow someOrders (paidJobDb 1698753600000)).lastMonthEarning =
        .fin 0 ∧
      earning (inLastMonth utc sampleNow) (paidJobDb 1698753600000) = .fin 100 ∧
      (dashboardOf utc sampleNow someOrders (paidJobDb 1698753600000)).lastMonthEarning ≠
        earning (inLastMonth utc sampleNow) (paidJobDb 1698753600000) := by
  decide +kernel

end LastMonth

section Nested

/-- Each earning is part of the next one. -/
structure Nested (d : DashboardData) : Prop where
  today_le_month : JsNum.le d.todayEarning d.monthEarning = true
  month_le_year : JsNum.le d.monthEarning d.yearEarning = true
  year_le_total : JsNum.le d.yearEarning d.totalEarning = true

variable {z : Zone} {now : ℕ} {j : Job}

theorem createdIn_month_of_today (h : createdIn (todayWindow z now) j = true) :
    createdIn (monthWindow z now) j = true := by
  rw [createdIn_iff, todayWindow_eq, day_le_iff, le_lastSecond_iff] at h
  rw [createdIn_iff, monthWindow_eq, day_le_iff, le_lastSecond_iff]
  obtain ⟨hfirst, hlast⟩ := dayFromMonth_le_day (z := z) now
  have hlength := (monthLength_bounds (z.month now)).1
  omega

/-- No job of the future is there to be counted in the next month. -/
theorem createdIn_monthWindow_iff (hnow : j.creationDate ≤ now) :
    createdIn (monthWindow z now) j = true ↔ z.month j.creationDate = z.month now := by
  rw [createdIn_iff, monthWindow_eq, day_le_iff, le_lastSecond_iff]
  refine Iff.trans ?_ monthFromDay_eq_iff.symm
  have hlast := (dayFromMonth_le_day (z := z) now).2
  have hlength := (monthLength_bounds (z.month now)).1
  have hday := day_mono (z := z) hnow
  omega

/-- The year begins in February. -/
theorem createdIn_yearWindow_iff (hnow : j.creationDate ≤ now) :
    createdIn (yearWindow z now) j = true ↔ 12*z.getFullYear now+1 ≤ z.month j.creationDate := by
  rw [createdIn_iff, yearWindow_eq, day_le_iff, le_midnight_iff]
  refine Iff.trans ?_ le_monthFromDay_iff.symm
  have hlast := (dayFromMonth_le_day (z := z) now).2
  have hday := day_mono (z := z) hnow
  have hend : dayFromMonth (z.month now+1) ≤ dayFromMonth (12*z.getFullYear now+24) := by
    apply dayFromMonth_strictMono.monotone
    unfold Zone.getFullYear
    omega
  omega

variable {order : GroupOrders} {s : Db}

theorem monthEarning_le_yearEarning (hamount : ∀ j ∈ s.jobs.docs, JsNum.le 0 j.amount = true)
    (hnow : ∀ j ∈ s.jobs.docs, j.creationDate ≤ now) (h : z.getMonth now ≠ 0) :
    JsNum.le (dashboardOf z now order s).monthEarning (dashboardOf z now order s).yearEarning =
      true := by
  apply earning_le hamount
  intro j hj hin
  rw [createdIn_monthWindow_iff (hnow j hj)] at hin
  rw [createdIn_yearWindow_iff (hnow j hj), hin]
  have hrange : 0 ≤ z.getMonth now := Int.emod_nonneg _ (by norm_num)
  have hmonth := month_eq (z := z) now
  omega

/-- In January the year has not begun. -/
theorem yearEarning_of_january (order : GroupOrders) (hnow : ∀ j ∈ s.jobs.docs, j.creationDate ≤ now)
    (h : z.getMonth now = 0) : (dashboardOf z now order s).yearEarning = 0 := by
  have hnone : (dashboardOf z now order s).yearEarning = earning (fun _ => false) s := by
    apply earning_congr
    intro j hj
    rw [← Bool.not_eq_true, createdIn_yearWindow_iff (hnow j hj)]
    have hmonth := month_eq (z := z) now
    have hlast := month_mono (z := z) (hnow j hj)
    omega
  rw [hnone, earning_eq]
  simp

theorem monthEarning_le_zero_iff (z : Zone) (order : GroupOrders)
    (hamount : ∀ j ∈ s.jobs.docs, JsNum.le 0 j.amount = true)
    (hnow : ∀ j ∈ s.jobs.docs, j.creationDate ≤ now) :
    JsNum.le (dashboardOf z now order s).monthEarning 0 = true ↔
      ∀ j ∈ s.jobs.docs, paid j = true → z.month j.creationDate = z.month now →
        j.amount = .fin 0 := by
  change JsNum.le (earning (createdIn (monthWindow z now)) s) 0 = true ↔ _
  rw [earning_eq, JsNum.sum_le_zero_iff]
  · simp only [List.forall_mem_map, List.mem_filter, Bool.and_eq_true, and_imp]
    refine forall₂_congr fun j hj => ?_
    rw [createdIn_monthWindow_iff (hnow j hj)]
    rfl
  · intro a ha
    obtain ⟨j, hj, rfl⟩ := List.mem_map.mp ha
    exact hamount j (List.mem_of_mem_filter hj)

/-- The earnings are nested exactly outside of January, or if nothing was earned in it yet. -/
theorem nested_iff (z : Zone) (now : ℕ) (order : GroupOrders) (s : Db)
    (hamount : ∀ j ∈ s.jobs.docs, JsNum.le 0 j.amount = true)
    (hnow : ∀ j ∈ s.jobs.docs, j.creationDate ≤ now) :
    Nested (dashboardOf z now order s) ↔
      z.getMonth now ≠ 0 ∨ ∀ j ∈ s.jobs.docs, paid j = true →
        z.month j.creationDate = z.month now → j.amount = .fin 0 := by
  have htoday : JsNum.le (dashboardOf z now order s).todayEarning
      (dashboardOf z now order s).monthEarning = true :=
    earning_le hamount fun j _ => createdIn_month_of_today
  have htotal : JsNum.le (dashboardOf z now order s).yearEarning
      (dashboardOf z now order s).totalEarning = true :=
    earning_le hamount fun j _ _ => rfl
  by_cases hjanuary : z.getMonth now = 0
  · have hmonth := monthEarning_le_zero_iff z order hamount hnow
    rw [← yearEarning_of_january order hnow hjanuary] at hmonth
    constructor
    · intro h
      exact Or.inr (hmonth.mp h.month_le_year)
    · rintro (h | h)
      · exact absurd hjanuary h
      · exact ⟨htoday, hmonth.mpr h, htotal⟩
  · refine iff_of_true ⟨htoday, ?_, htotal⟩ (Or.inl hjanuary)
    exact monthEarning_le_yearEarning hamount hnow hjanuary

/-- On 14 November, with a job of the day before. -/
theorem nested_in_november :
    Nested (dashboardOf utc sampleNow someOrders (paidJobDb 1699876800000)) := by
  refine (nested_iff utc sampleNow someOrders (paidJobDb 1699876800000) ?_ ?_).mpr
    (Or.inl ?_)
  · decide +kernel
  · decide +kernel
  · decide +kernel

/-- On 15 January, with a job of 10 January, the year has earned less than the month. -/
theorem january_not_nested :
    (∀ j ∈ (paidJobDb 1704888000000).jobs.docs, JsNum.le 0 j.amount = true) ∧
      (∀ j ∈ (paidJobDb 1704888000000).jobs.docs, j.creationDate ≤ (1705320000000 : ℕ)) ∧
      (dashboardOf utc 1705320000000 someOrders (paidJobDb 1704888000000)).monthEarning =
        .fin 100 ∧
      (dashboardOf utc 1705320000000 someOrders (paidJobDb 1704888000000)).yearEarning =
        .fin 0 ∧
      ¬ Nested (dashboardOf utc 1705320000000 someOrders (paidJobDb 1704888000000)) := by
  refine ⟨by decide +kernel, by decide +kernel, by decide +kernel, by decide +kernel, ?_⟩
  intro h
  exact absurd h.month_le_year (by decide +kernel)

end Nested

end DoQwik
