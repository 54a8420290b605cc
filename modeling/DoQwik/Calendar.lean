import Mathlib

/-! The proleptic Gregorian calendar as `Date` objects reckon it. Days are counted from 1 January
1970, months through all years: month `k` is month `k%12` of the year `k/12`, January being `0`. A
local time is an instant shifted by the offset of its zone. -/
namespace Calendar

section Years

def isLeap (y : ℤ) : Bool := y%4 = 0 && (y%100 ≠ 0 || y%400 = 0)

/-- `DayFromYear`: the first day of the year. -/
def dayFromYear (y : ℤ) : ℤ := 365*(y-1970)+(y-1969)/4-(y-1901)/100+(y-1601)/400

theorem dayFromYear_succ (y : ℤ) :
    dayFromYear (y+1) = dayFromYear y+if isLeap y then 366 else 365 := by
  unfold dayFromYear isLeap
  split
  · rename_i h
    simp only [Bool.and_eq_true, Bool.or_eq_true, decide_eq_true_eq] at h
    omega
  · rename_i h
    simp only [Bool.and_eq_true, Bool.or_eq_true, decide_eq_true_eq] at h
    omega

/-- The year of a day. The mean length of a year gives it up to one. -/
def yearFromDay (d : ℤ) : ℤ :=
  let y := 1970+400*d/146097
  if d < dayFromYear y then y-1 else if d < dayFromYear (y+1) then y else y+1

theorem dayFromYear_yearFromDay (d : ℤ) :
    dayFromYear (yearFromDay d) ≤ d ∧ d < dayFromYear (yearFromDay d+1) := by
  have hlow : dayFromYear (1970+400*d/146097-1) ≤ d := by
    unfold dayFromYear
    omega
  have hhigh : d < dayFromYear (1970+400*d/146097+1+1) := by
    unfold dayFromYear
    omega
  unfold yearFromDay
  dsimp only
  split
  · rename_i h
    rw [sub_add_cancel]
    exact ⟨hlow, h⟩
  · rename_i h
    split
    · rename_i h'
      exact ⟨not_lt.mp h, h'⟩
    · rename_i h'
      exact ⟨not_lt.mp h', hhigh⟩

end Years

section Months

def daysBefore (leap : Bool) (m : ℕ) : ℤ :=
  let days : ℤ :=
    match m with
    | 0 => 0
    | 1 => 31
    | 2 => 59
    | 3 => 90
    | 4 => 120
    | 5 => 151
    | 6 => 181
    | 7 => 212
    | 8 => 243
    | 9 => 273
    | 10 => 304
    | 11 => 334
    | _ => 365
  if leap ∧ 2 ≤ m then days+1 else days

def dayFromMonth (k : ℤ) : ℤ := dayFromYear (k/12)+daysBefore (isLeap (k/12)) (k%12).toNat

def monthLength (k : ℤ) : ℤ := dayFromMonth (k+1)-dayFromMonth k

/-- The last month up to `m` that begins by the day `n` of the year. -/
def monthUpTo (leap : Bool) (n : ℤ) : ℕ → ℕ
  | 0 => 0
  | m+1 => if daysBefore leap (m+1) ≤ n then m+1 else monthUpTo leap n m

def monthFromDay (d : ℤ) : ℤ :=
  12*yearFromDay d+monthUpTo (isLeap (yearFromDay d)) (d-dayFromYear (yearFromDay d)) 11

/-- The month `m` of a year, `m = 12` being the first one of the next year. -/
theorem dayFromMonth_eq (y : ℤ) {m : ℕ} (hm : m ≤ 12) :
    dayFromMonth (12*y+m) = dayFromYear y+daysBefore (isLeap y) m := by
  unfold dayFromMonth
  rcases Nat.lt_or_eq_of_le hm with h | rfl
  · have hyear : (12*y+m)/12 = y := by omega
    have hmonth : ((12*y+m)%12).toNat = m := by omega
    rw [hyear, hmonth]
  · have hyear : (12*y+(12 : ℕ))/12 = y+1 := by omega
    have hmonth : ((12*y+(12 : ℕ))%12).toNat = 0 := by omega
    have hfirst : ∀ leap, daysBefore leap 0 = 0 := by decide
    have hlast : ∀ leap : Bool, (if leap then 366 else 365) = daysBefore leap 12 := by decide
    rw [hyear, hmonth, dayFromYear_succ, hfirst, add_zero, hlast]

theorem exists_month (k : ℤ) : ∃ (y : ℤ) (m : ℕ), m < 12 ∧ k = 12*y+m :=
  ⟨k/12, (k%12).toNat, by omega, by omega⟩

theorem monthLength_eq (y : ℤ) {m : ℕ} (hm : m < 12) :
    monthLength (12*y+m) = daysBefore (isLeap y) (m+1)-daysBefore (isLeap y) m := by
  have hnext : 12*y+(m : ℤ)+1 = 12*y+((m+1 : ℕ) : ℤ) := by omega
  rw [monthLength, hnext, dayFromMonth_eq y hm, dayFromMonth_eq y hm.le]
  ring

/-- A month has 28 to 31 days. -/
theorem monthLength_bounds (k : ℤ) : 28 ≤ monthLength k ∧ monthLength k ≤ 31 := by
  obtain ⟨y, m, hm, rfl⟩ := exists_month k
  have hall : ∀ (leap : Bool) (m : Fin 12), 28 ≤ daysBefore leap (m+1)-daysBefore leap m ∧
      daysBefore leap (m+1)-daysBefore leap m ≤ 31 := by decide
  rw [monthLength_eq y hm]
  exact hall (isLeap y) ⟨m, hm⟩

/-- Neighbouring months of the same length: July and August, December and January. -/
theorem monthLength_eq_next_iff (k : ℤ) :
    monthLength k = monthLength (k+1) ↔ k%12 = 6 ∨ k%12 = 11 := by
  have hjanuary : ∀ leap, daysBefore leap 1-daysBefore leap 0 = 31 := by decide
  have hdecember : ∀ leap, daysBefore leap 12-daysBefore leap 11 = 31 := by decide
  have hinner : ∀ (leap : Bool) (m : Fin 11), daysBefore leap (m+1)-daysBefore leap m =
      daysBefore leap (m+1+1)-daysBefore leap (m+1) ↔ m.val = 6 := by decide
  obtain ⟨y, m, hm, rfl⟩ := exists_month k
  rcases Nat.lt_or_eq_of_le (Nat.le_of_lt_succ hm) with h | rfl
  · have hnext : 12*y+(m : ℤ)+1 = 12*y+((m+1 : ℕ) : ℤ) := by omega
    rw [hnext, monthLength_eq y hm, monthLength_eq y (by omega)]
    refine (hinner (isLeap y) ⟨m, h⟩).trans ?_
    dsimp only
    omega
  · have hnext : 12*y+((11 : ℕ) : ℤ)+1 = 12*(y+1)+((0 : ℕ) : ℤ) := by omega
    rw [hnext, monthLength_eq y (by omega), monthLength_eq (y+1) (by omega), hdecember, hjanuary]
    exact iff_of_true rfl (Or.inr (by omega))

theorem dayFromMonth_strictMono : StrictMono dayFromMonth := by
  apply strictMono_int_of_lt_succ
  intro k
  have h := (monthLength_bounds k).1
  unfold monthLength at h
  omega

theorem daysBefore_monthUpTo (leap : Bool) {n : ℤ} (hn : 0 ≤ n) (m : ℕ)
    (h : n < daysBefore leap (m+1)) :
    monthUpTo leap n m ≤ m ∧ daysBefore leap (monthUpTo leap n m) ≤ n ∧
      n < daysBefore leap (monthUpTo leap n m+1) := by
  induction m with
  | zero =>
    have hfirst : ∀ leap, daysBefore leap 0 = 0 := by decide
    exact ⟨le_rfl, by rw [monthUpTo, hfirst]; exact hn, h⟩
  | succ m ih =>
    unfold monthUpTo
    split
    · rename_i hbegun
      exact ⟨le_rfl, hbegun, h⟩
    · rename_i hbegun
      obtain ⟨hle, hfound⟩ := ih (not_le.mp hbegun)
      exact ⟨hle.trans (Nat.le_succ m), hfound⟩

theorem dayFromMonth_monthFromDay (d : ℤ) :
    dayFromMonth (monthFromDay d) ≤ d ∧ d < dayFromMonth (monthFromDay d+1) := by
  obtain ⟨hlow, hhigh⟩ := dayFromYear_yearFromDay d
  have hlast : ∀ leap : Bool, (if leap then 366 else 365) = daysBefore leap 12 := by decide
  rw [dayFromYear_succ, hlast] at hhigh
  have hyear : d-dayFromYear (yearFromDay d) < daysBefore (isLeap (yearFromDay d)) (11+1) := by
    change _ < daysBefore _ 12
    omega
  obtain ⟨hm, hbegun, hend⟩ := daysBefore_monthUpTo _ (by omega) 11 hyear
  have hnext : monthFromDay d+1 = 12*yearFromDay d+((monthUpTo (isLeap (yearFromDay d))
      (d-dayFromYear (yearFromDay d)) 11+1 : ℕ) : ℤ) := by
    unfold monthFromDay
    omega
  constructor
  · rw [monthFromDay, dayFromMonth_eq _ (by omega)]
    omega
  · rw [hnext, dayFromMonth_eq _ (by omega)]
    omega

/-- The months follow each other without a gap. -/
theorem monthFromDay_eq_iff {d k : ℤ} :
    monthFromDay d = k ↔ dayFromMonth k ≤ d ∧ d < dayFromMonth (k+1) := by
  obtain ⟨hlow, hhigh⟩ := dayFromMonth_monthFromDay d
  constructor
  · rintro rfl
    exact ⟨hlow, hhigh⟩
  · rintro ⟨hlow', hhigh'⟩
    have hle := dayFromMonth_strictMono.lt_iff_lt.mp (hlow.trans_lt hhigh')
    have hge := dayFromMonth_strictMono.lt_iff_lt.mp (hlow'.trans_lt hhigh)
    omega

theorem le_monthFromDay_iff {d k : ℤ} : k ≤ monthFromDay d ↔ dayFromMonth k ≤ d := by
  obtain ⟨hlow, hhigh⟩ := dayFromMonth_monthFromDay d
  constructor
  · intro h
    exact (dayFromMonth_strictMono.monotone h).trans hlow
  · intro h
    have hlt := dayFromMonth_strictMono.lt_iff_lt.mp (h.trans_lt hhigh)
    omega

end Months

section Instants

def msPerDay : ℤ := 86400000

/-- A zone with a fixed offset to universal time, in minutes, of less than a day. -/
structure Zone where
  minutes : ℤ
  lower : -1440 < minutes
  upper : minutes < 1440

variable (z : Zone)

namespace Zone

def offset : ℤ := z.minutes*60000

def day (t : ℤ) : ℤ := (t+z.offset)/msPerDay

def timeInDay (t : ℤ) : ℤ := (t+z.offset)%msPerDay

/-- The month, counted through all years. -/
def month (t : ℤ) : ℤ := monthFromDay (z.day t)

def getFullYear (t : ℤ) : ℤ := z.month t/12

def getMonth (t : ℤ) : ℤ := z.month t%12

def getDate (t : ℤ) : ℤ := z.day t-dayFromMonth (z.month t)+1

end Zone

/-- `MakeDay`: months beyond the year count on into other years, and days into other months. -/
def makeDay (year month date : ℤ) : ℤ :=
  dayFromYear (year+month/12)+daysBefore (isLeap (year+month/12)) (month%12).toNat+date-1

/-- The constructor takes a year below 100 for one of the twentieth century. -/
def makeFullYear (year : ℤ) : ℤ := if 0 ≤ year ∧ year ≤ 99 then 1900+year else year

/-- `new Date(year, month, date, hours, minutes, seconds).getTime()`. -/
def Zone.date (year month date hours minutes seconds : ℤ) : ℤ :=
  makeDay (makeFullYear year) month date*msPerDay+hours*3600000+minutes*60000+seconds*1000-z.offset

theorem makeDay_eq (year month date : ℤ) :
    makeDay year month date = dayFromMonth (12*year+month)+date-1 := by
  have hyear : (12*year+month)/12 = year+month/12 := by omega
  have hmonth : (12*year+month)%12 = month%12 := by omega
  rw [makeDay, dayFromMonth, hyear, hmonth]

variable {z} {t d : ℤ}

theorem day_le_iff : d*msPerDay-z.offset ≤ t ↔ d ≤ z.day t := by
  unfold Zone.day msPerDay
  omega

/-- The end of a day that the clock shows as 23:59:59. -/
theorem le_lastSecond_iff :
    t ≤ d*msPerDay+86399000-z.offset ↔ z.day t < d ∨ z.day t = d ∧ z.timeInDay t ≤ 86399000 := by
  unfold Zone.day Zone.timeInDay msPerDay
  omega

theorem le_midnight_iff :
    t ≤ d*msPerDay-z.offset ↔ z.day t < d ∨ z.day t = d ∧ z.timeInDay t = 0 := by
  unfold Zone.day Zone.timeInDay msPerDay
  omega

theorem day_mono {t' : ℤ} (h : t ≤ t') : z.day t ≤ z.day t' := by
  unfold Zone.day msPerDay
  omega

theorem dayFromMonth_le_day (t : ℤ) :
    dayFromMonth (z.month t) ≤ z.day t ∧ z.day t < dayFromMonth (z.month t+1) :=
  dayFromMonth_monthFromDay (z.day t)

/-- Year and month make up the counted month. -/
theorem month_eq (t : ℤ) : 12*z.getFullYear t+z.getMonth t = z.month t := by
  unfold Zone.getFullYear Zone.getMonth
  omega

/-- The clock counts from the epoch. -/
theorem year_of_clock (now : ℕ) : 1969 ≤ z.getFullYear now := by
  have hday : -1 ≤ z.day now := by
    have := z.lower
    unfold Zone.day Zone.offset msPerDay
    omega
  have hmonth : 12*1969 ≤ z.month now := by
    apply le_monthFromDay_iff.mpr
    have hfirst : dayFromMonth (12*1969) = -365 := by decide
    omega
  unfold Zone.getFullYear
  omega

theorem makeFullYear_of_late {year : ℤ} (h : 100 ≤ year) : makeFullYear year = year := by
  unfold makeFullYear
  exact if_neg (by omega)

/-- The constructor, for a year of four digits. -/
theorem date_eq {year : ℤ} (h : 100 ≤ year) (month date hours minutes seconds : ℤ) :
    z.date year month date hours minutes seconds =
      (dayFromMonth (12*year+month)+date-1)*msPerDay+
        (hours*3600000+minutes*60000+seconds*1000)-z.offset := by
  rw [Zone.date, makeFullYear_of_late h, makeDay_eq]
  ring

theorem date_midnight {year : ℤ} (h : 100 ≤ year) (month date : ℤ) :
    z.date year month date 0 0 0 = (dayFromMonth (12*year+month)+date-1)*msPerDay-z.offset := by
  rw [date_eq h]
  ring

theorem date_lastSecond {year : ℤ} (h : 100 ≤ year) (month date : ℤ) :
    z.date year month date 23 59 59 =
      (dayFromMonth (12*year+month)+date-1)*msPerDay+86399000-z.offset := by
  rw [date_eq h]
  ring

/-- A whole second in the zone is one in universal time. -/
theorem timeInDay_le_of_whole (h : t%1000 = 0) : z.timeInDay t ≤ 86399000 := by
  unfold Zone.timeInDay Zone.offset msPerDay
  omega

theorem day_of_midnight (d : ℤ) : z.day (d*msPerDay-z.offset) = d := by
  unfold Zone.day msPerDay
  omega

/-- Day `0` of a month is the last day of the month before. -/
theorem getDate_dayZero {year : ℤ} (h : 100 ≤ year) (month : ℤ) :
    z.getDate (z.date year month 0 0 0 0) = monthLength (12*year+month-1) := by
  have hday : z.day (z.date year month 0 0 0 0) = dayFromMonth (12*year+month)-1 := by
    rw [date_midnight h, day_of_midnight]
    ring
  have hlength := (monthLength_bounds (12*year+month-1)).1
  unfold monthLength at hlength ⊢
  rw [sub_add_cancel] at hlength ⊢
  have hmonth : z.month (z.date year month 0 0 0 0) = 12*year+month-1 := by
    apply monthFromDay_eq_iff.mpr
    rw [hday, sub_add_cancel]
    omega
  rw [Zone.getDate, hmonth, hday]
  ring

theorem month_mono {t' : ℤ} (h : t ≤ t') : z.month t ≤ z.month t' :=
  le_monthFromDay_iff.mpr ((dayFromMonth_le_day t).1.trans (day_mono h))

end Instants

section Texts

def utc : Zone := ⟨0, by decide, by decide⟩

def padded (width : ℕ) (n : ℤ) : String :=
  let digits := toString n.natAbs
  "".pushn '0' (width-digits.length) ++ digits

def toISOString (t : ℤ) : String :=
  let year := utc.getFullYear t
  let time := utc.timeInDay t
  let yearText :=
    if 0 ≤ year ∧ year ≤ 9999 then padded 4 year
    else (if year < 0 then "-" else "+") ++ padded 6 year
  yearText ++ "-" ++ padded 2 (utc.getMonth t+1) ++ "-" ++ padded 2 (utc.getDate t) ++ "T" ++
    padded 2 (time/3600000) ++ ":" ++ padded 2 (time/60000%60) ++ ":" ++
    padded 2 (time/1000%60) ++ "." ++ padded 3 (time%1000) ++ "Z"

example : toISOString 1709164800000 = "2024-02-29T00:00:00.000Z" := by decide +kernel

end Texts

end Calendar
