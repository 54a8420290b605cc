import Mathlib

/-! Rounding of rationals to binary64 numbers: to the nearest one, and to the even one at a tie.
Two rationals round alike exactly when no midpoint of two neighbouring numbers separates them. -/
namespace Binary64

section HalfEven

def halfEven (x : ℚ) : ℕ :=
  let n := ⌊x⌋₊
  if x-n < 1/2 ∨ (x-n = 1/2 ∧ n%2 = 0) then n else n+1

theorem floor_le_halfEven (x : ℚ) : ⌊x⌋₊ ≤ halfEven x := by
  simp only [halfEven]
  split
  · exact le_rfl
  · exact Nat.le_succ _

theorem halfEven_le_floor_succ (x : ℚ) : halfEven x ≤ ⌊x⌋₊+1 := by
  simp only [halfEven]
  split
  · exact Nat.le_succ _
  · exact le_rfl

/-- A tie goes to the upper integer if the lower one is odd. -/
theorem lt_halfEven_iff {x : ℚ} (hx : 0 ≤ x) (n : ℕ) :
    n < halfEven x ↔ (n : ℚ)+1/2 < x ∨ (x = n+1/2 ∧ n%2 = 1) := by
  have hlo : (⌊x⌋₊ : ℚ) ≤ x := Nat.floor_le hx
  have hhi : x < ⌊x⌋₊+1 := Nat.lt_floor_add_one x
  rcases lt_trichotomy n ⌊x⌋₊ with hn | rfl | hn
  · have hcast : (n : ℚ)+1 ≤ ⌊x⌋₊ := by exact_mod_cast hn
    exact iff_of_true (hn.trans_le (floor_le_halfEven x)) (Or.inl (by linarith))
  · -- The integer below: the three parts of the interval above it.
    have hsucc : ⌊x⌋₊ < halfEven x ↔ ¬(x-⌊x⌋₊ < 1/2 ∨ (x-⌊x⌋₊ = 1/2 ∧ ⌊x⌋₊%2 = 0)) := by
      simp only [halfEven]
      split <;> rename_i h
      · exact iff_of_false (lt_irrefl _) (not_not.mpr h)
      · exact iff_of_true (Nat.lt_succ_self _) h
    rw [hsucc, not_or, not_lt]
    rcases lt_trichotomy (x-⌊x⌋₊) (1/2) with h | h | h
    · refine iff_of_false (fun hh => absurd hh.1 (not_le.mpr h)) ?_
      rintro (hh | hh)
      · linarith
      · linarith [hh.1]
    · have heq : x = ⌊x⌋₊+1/2 := by linarith
      constructor
      · rintro ⟨-, hodd⟩
        have hne : ⌊x⌋₊%2 ≠ 0 := fun hh => hodd ⟨h, hh⟩
        exact Or.inr ⟨heq, by omega⟩
      · rintro (hh | ⟨-, hodd⟩)
        · linarith
        · exact ⟨h.ge, fun hh => by omega⟩
    · refine iff_of_true ⟨h.le, fun hh => absurd hh.1 h.ne'⟩ (Or.inl (by linarith))
  · have hcast : (⌊x⌋₊ : ℚ)+1 ≤ n := by exact_mod_cast hn
    refine iff_of_false (not_lt.mpr ((halfEven_le_floor_succ x).trans hn)) ?_
    rintro (hh | hh)
    · linarith
    · linarith [hh.1]

end HalfEven

section Rounding

/-- The exponent of the last place of the numbers around `q`. -/
def lastPlace (q : ℚ) : ℤ := max (-1074) (Int.log 2 q-52)

/-- The rounding without a bound on the exponent. -/
def rounded (q : ℚ) : ℚ := halfEven (q/2^lastPlace q)*2^lastPlace q

/-- The number nearest to a nonnegative rational; `none` is infinity. -/
def nearest (q : ℚ) : Option ℚ := if rounded q < 2^1024 then some (rounded q) else none

/-- `n*2^k` is a finite number in its normal form: its neighbour above is `(n+1)*2^k`. -/
structure IsNumber (n : ℕ) (k : ℤ) : Prop where
  significand : n < 2^53
  least : -1074 ≤ k
  greatest : k ≤ 971
  normal : k = -1074 ∨ 2^52 ≤ n

/-- `q` is beyond the midpoint of `n*2^k` and its neighbour above; the midpoint itself belongs to
the even one of the two. -/
def Beyond (n : ℕ) (k : ℤ) (q : ℚ) : Prop :=
  ((n : ℚ)+1/2)*2^k < q ∨ (q = ((n : ℚ)+1/2)*2^k ∧ n%2 = 1)

/-- No midpoint separates the two rationals. -/
def Alike (a b : ℚ) : Prop := ∀ n k, IsNumber n k → (Beyond n k a ↔ Beyond n k b)

theorem rounded_zero : rounded 0 = 0 := by
  have hzero : halfEven 0 = 0 := by simp [halfEven]
  simp [rounded, hzero]

variable {q : ℚ} {n : ℕ} {k : ℤ}

theorem lt_pow_lastPlace (q : ℚ) : q < 2^53*2^lastPlace q := by
  have hlog : q < ((2 : ℕ) : ℚ)^(Int.log 2 q+1) := Int.lt_zpow_succ_log_self (by decide) q
  have hle : (2 : ℚ)^(Int.log 2 q+1) ≤ 2^((53 : ℤ)+lastPlace q) := by
    apply zpow_le_zpow_right₀ (by norm_num)
    have hmax : Int.log 2 q-52 ≤ lastPlace q := le_max_right _ _
    omega
  rw [zpow_add₀ (by norm_num : (2 : ℚ) ≠ 0) 53] at hle
  exact hlog.trans_le hle

theorem pow_lastPlace_le (hq : 0 < q) (h : -1074 < lastPlace q) : 2^52*2^lastPlace q ≤ q := by
  have hlog : ((2 : ℕ) : ℚ)^Int.log 2 q ≤ q := Int.zpow_log_le_self (by decide) hq
  have hplace : (52 : ℤ)+lastPlace q = Int.log 2 q := by
    unfold lastPlace at h ⊢
    omega
  have heq : (2 : ℚ)^52*2^lastPlace q = 2^Int.log 2 q := by
    rw [← hplace, zpow_add₀ (by norm_num)]
    rfl
  rw [heq]
  exact_mod_cast hlog

theorem halfEven_le_of_lt {x : ℚ} (hx : 0 ≤ x) (h : x < n) : halfEven x ≤ n := by
  have hfloor : ⌊x⌋₊ < n := (Nat.floor_lt hx).mpr h
  exact (halfEven_le_floor_succ x).trans hfloor

theorem le_halfEven_of_le {x : ℚ} (h : (n : ℚ) ≤ x) : n ≤ halfEven x :=
  (Nat.le_floor h).trans (floor_le_halfEven x)

theorem significand_le (hq : 0 ≤ q) : halfEven (q/2^lastPlace q) ≤ 2^53 := by
  apply halfEven_le_of_lt (by positivity)
  rw [div_lt_iff₀ (by positivity)]
  exact_mod_cast lt_pow_lastPlace q

theorem le_significand (hq : 0 < q) (h : -1074 < lastPlace q) :
    2^52 ≤ halfEven (q/2^lastPlace q) := by
  apply le_halfEven_of_le
  rw [le_div_iff₀ (by positivity)]
  exact_mod_cast pow_lastPlace_le hq h

/-- The significands of a greater exponent are beyond those of a smaller one. -/
theorem pow_le_pow_of_lt {i j : ℤ} (h : i < j) : (2 : ℚ)^53*2^i ≤ 2^52*2^j := by
  have hle : (2 : ℚ)^(i+1) ≤ 2^j := zpow_le_zpow_right₀ (by norm_num) h
  rw [zpow_add_one₀ (by norm_num)] at hle
  linarith

theorem lt_rounded_iff_of_pos (hq : 0 < q) (hn : n < 2^53) (hk : -1074 ≤ k)
    (hnormal : k = -1074 ∨ 2^52 ≤ n) : (n : ℚ)*2^k < rounded q ↔ Beyond n k q := by
  have hplace : -1074 ≤ lastPlace q := le_max_left _ _
  have hupper : (n : ℚ)+1 ≤ 2^53 := by exact_mod_cast hn
  have hpos : (0 : ℚ) < 2^k := by positivity
  rcases lt_trichotomy k (lastPlace q) with hlt | rfl | hlt
  · -- The number is below every number of the magnitude of `q`.
    have hle := pow_le_pow_of_lt hlt
    have hlow := pow_lastPlace_le hq (by omega)
    have hhalf : ((n : ℚ)+1/2)*2^k < 2^53*2^k := mul_lt_mul_of_pos_right (by linarith) hpos
    have hround : (2 : ℚ)^52*2^lastPlace q ≤ rounded q := by
      apply mul_le_mul_of_nonneg_right _ (by positivity)
      exact_mod_cast le_significand hq (by omega)
    refine iff_of_true ?_ (Or.inl (by linarith))
    linarith
  · rw [rounded, mul_lt_mul_iff_left₀ hpos, Nat.cast_lt,
      lt_halfEven_iff (by positivity), lt_div_iff₀ hpos, div_eq_iff hpos.ne']
    rfl
  · have hle := pow_le_pow_of_lt hlt
    have hhigh := lt_pow_lastPlace q
    have hn' : (2 : ℚ)^52*2^k ≤ n*2^k := by
      apply mul_le_mul_of_nonneg_right _ hpos.le
      exact_mod_cast hnormal.resolve_left (by omega)
    have hround : rounded q ≤ 2^53*2^lastPlace q := by
      apply mul_le_mul_of_nonneg_right _ (by positivity)
      exact_mod_cast significand_le hq.le
    refine iff_of_false (by linarith) ?_
    rintro (hh | ⟨hh, -⟩) <;> linarith

theorem not_beyond_zero (n : ℕ) (k : ℤ) : ¬ Beyond n k 0 := by
  have hhalf : (0 : ℚ) < (n+1/2)*2^k := by positivity
  rintro (h | ⟨h, -⟩) <;> linarith

theorem lt_rounded_iff (hq : 0 ≤ q) (h : IsNumber n k) :
    (n : ℚ)*2^k < rounded q ↔ Beyond n k q := by
  rcases hq.eq_or_lt with rfl | hpos
  · rw [rounded_zero]
    have hn : (0 : ℚ) ≤ n*2^k := by positivity
    exact iff_of_false (not_lt.mpr hn) (not_beyond_zero n k)
  · exact lt_rounded_iff_of_pos hpos h.significand h.least h.normal

theorem IsNumber.lt_limit (h : IsNumber n k) : (n : ℚ)*2^k < 2^1024 := by
  have hn : (n : ℚ) < 2^53 := by exact_mod_cast h.significand
  have hk : (2 : ℚ)^k ≤ 2^(971 : ℤ) := zpow_le_zpow_right₀ (by norm_num) h.greatest
  calc (n : ℚ)*2^k < 2^53*2^k := mul_lt_mul_of_pos_right hn (by positivity)
    _ ≤ 2^53*2^(971 : ℤ) := by gcongr
    _ = 2^1024 := by rw [← zpow_natCast, ← zpow_natCast, ← zpow_add₀ (by norm_num)]; rfl

theorem exponent_lt_of_mul_lt {m : ℕ} (h : (2 : ℚ)^m*2^k < 2^1024) : m+k < 1024 := by
  have hpow : (2 : ℚ)^((m : ℤ)+k) < 2^(1024 : ℤ) := by
    rw [zpow_add₀ (by norm_num)]
    exact_mod_cast h
  exact (zpow_lt_zpow_iff_right₀ (by norm_num)).mp hpow

/-- The rounding is a number, if it is below the limit of the finite ones. -/
theorem exists_isNumber (hq : 0 ≤ q) (hlimit : rounded q < 2^1024) :
    ∃ n k, IsNumber n k ∧ rounded q = n*2^k := by
  rcases hq.eq_or_lt with rfl | hpos
  · refine ⟨0, -1074, ⟨by norm_num, le_rfl, by norm_num, Or.inl rfl⟩, ?_⟩
    simp [rounded_zero]
  · have hplace : -1074 ≤ lastPlace q := le_max_left _ _
    rcases (significand_le hq).lt_or_eq with hlt | hcarry
    · refine ⟨_, _, ⟨hlt, hplace, ?_, ?_⟩, rfl⟩
      · by_contra hk
        have hle : (2 : ℚ)^52*2^lastPlace q ≤ rounded q := by
          apply mul_le_mul_of_nonneg_right _ (by positivity)
          exact_mod_cast le_significand hpos (by omega)
        have := exponent_lt_of_mul_lt (hle.trans_lt hlimit)
        omega
      · rcases hplace.eq_or_lt with heq | hlt'
        · exact Or.inl heq.symm
        · exact Or.inr (le_significand hpos hlt')
    · -- The significand carries into the next exponent.
      have hround : rounded q = 2^53*2^lastPlace q := by
        rw [rounded, hcarry]
        norm_cast
      have hexp := exponent_lt_of_mul_lt (hround ▸ hlimit)
      refine ⟨2^52, lastPlace q+1, ⟨by norm_num, by omega, by omega, Or.inr le_rfl⟩, ?_⟩
      rw [hround, zpow_add_one₀ (by norm_num)]
      push_cast
      ring

variable {a b : ℚ}

theorem Alike.symm (h : Alike a b) : Alike b a := fun n k hnum => (h n k hnum).symm

theorem Alike.rounded_le (h : Alike a b) (ha : 0 ≤ a) (hb : 0 ≤ b) (hlimit : rounded a < 2^1024) :
    rounded b ≤ rounded a := by
  obtain ⟨n, k, hnum, heq⟩ := exists_isNumber ha hlimit
  have hiff := h n k hnum
  rw [← lt_rounded_iff ha hnum, ← lt_rounded_iff hb hnum, ← heq] at hiff
  exact not_lt.mp (fun hlt => lt_irrefl _ (hiff.mpr hlt))

theorem nearest_eq_iff (ha : 0 ≤ a) (hb : 0 ≤ b) : nearest a = nearest b ↔ Alike a b := by
  constructor
  · intro heq n k hnum
    rw [← lt_rounded_iff ha hnum, ← lt_rounded_iff hb hnum]
    have hlimit := hnum.lt_limit
    unfold nearest at heq
    split at heq <;> split at heq
    · rw [Option.some.inj heq]
    · cases heq
    · cases heq
    · rename_i h₁ h₂
      exact iff_of_true (hlimit.trans_le (not_lt.mp h₁)) (hlimit.trans_le (not_lt.mp h₂))
  · intro h
    by_cases hla : rounded a < 2^1024
    · have hba := h.rounded_le ha hb hla
      have hab := h.symm.rounded_le hb ha (hba.trans_lt hla)
      rw [nearest, nearest, le_antisymm hab hba]
    · by_cases hlb : rounded b < 2^1024
      · exact absurd ((h.symm.rounded_le hb ha hlb).trans_lt hlb) hla
      · rw [nearest, nearest, if_neg hla, if_neg hlb]

theorem beyond_of_one_le (hk : k ≤ 0) (hq : 1 ≤ q) : Beyond 0 k q := by
  have hpow : (2 : ℚ)^k ≤ 1 := zpow_le_one_of_nonpos₀ (by norm_num) hk
  refine Or.inl ?_
  rw [Nat.cast_zero, zero_add]
  linarith

theorem nearest_natCast_eq_zero_iff (n : ℕ) : nearest n = nearest 0 ↔ n = 0 := by
  constructor
  · intro heq
    by_contra hn
    have hone : (1 : ℚ) ≤ n := by exact_mod_cast Nat.pos_of_ne_zero hn
    have hzero : IsNumber 0 (-1074) := ⟨by norm_num, le_rfl, by norm_num, Or.inl rfl⟩
    have halike := (nearest_eq_iff (Nat.cast_nonneg n) le_rfl).mp heq 0 (-1074) hzero
    exact not_beyond_zero 0 (-1074) (halike.mp (beyond_of_one_le (by norm_num) hone))
  · rintro rfl
    rw [Nat.cast_zero]

end Rounding

end Binary64
