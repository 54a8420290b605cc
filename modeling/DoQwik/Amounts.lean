import Mathlib
import DoQwik.JsValues

/-! Sums. Numbers form a commutative monoid, and non-negative ones have an order that sums respect;
sums over windows add up to the sum over what lies in them. -/
namespace JsValues

namespace JsNum

section Monoid

instance : Zero JsNum := ⟨.fin 0⟩

instance : Add JsNum := ⟨JsNum.add⟩

theorem add_comm_numbers (a b : JsNum) : a+b = b+a := by
  change a.add b = b.add a
  cases a with
  | nan => cases b <;> rfl
  | inf x =>
    cases b with
    | nan => rfl
    | inf y => cases x <;> cases y <;> rfl
    | fin q => rfl
  | fin p =>
    cases b with
    | nan => rfl
    | inf y => rfl
    | fin q => simp only [add, add_comm]

/-- Opposite infinities make `NaN` in whatever order they come. -/
theorem add_assoc_numbers (a b c : JsNum) : a+b+c = a+(b+c) := by
  change (a.add b).add c = a.add (b.add c)
  rcases a with _ | _ | p <;> rcases b with _ | _ | q <;> rcases c with _ | _ | r <;>
    simp [add, add_assoc] <;> grind [add]

theorem zero_add_number (a : JsNum) : 0+a = a := by
  change (JsNum.fin 0).add a = a
  cases a with
  | nan => rfl
  | inf x => rfl
  | fin q => simp only [add, zero_add]

instance : AddCommMonoid JsNum where
  add_assoc := add_assoc_numbers
  zero_add := zero_add_number
  add_zero a := (add_comm_numbers a 0).trans (zero_add_number a)
  add_comm := add_comm_numbers
  nsmul := nsmulRec

theorem foldl_add (as : List JsNum) : as.foldl JsNum.add (.fin 0) = as.sum :=
  List.sum_eq_foldl.symm

end Monoid

section Order

variable {a b c : JsNum}

theorem nonneg_cases (h : le 0 a = true) : a = inf false ∨ ∃ q, 0 ≤ q ∧ a = fin q := by
  cases a with
  | nan => cases h
  | inf x =>
    cases x with
    | false => exact Or.inl rfl
    | true => cases h
  | fin q => exact Or.inr ⟨q, of_decide_eq_true h, rfl⟩

theorem le_refl_of_nonneg (h : le 0 a = true) : le a a = true := by
  rcases nonneg_cases h with rfl | ⟨q, -, rfl⟩
  · rfl
  · exact decide_eq_true le_rfl

theorem nonneg_of_le (ha : le 0 a = true) (h : le a b = true) : le 0 b = true := by
  rcases nonneg_cases ha with rfl | ⟨p, hp, rfl⟩
  · cases b with
    | nan => cases h
    | inf y => exact h
    | fin q => cases h
  · cases b with
    | nan => cases h
    | inf y => exact h
    | fin q => exact decide_eq_true (hp.trans (of_decide_eq_true h))

/-- A non-negative summand keeps the order, also on one side alone. -/
theorem le_add_of_nonneg (hc : le 0 c = true) (ha : le 0 a = true) (h : le a b = true) :
    le (c+a) (c+b) = true ∧ le a (c+b) = true := by
  have hb := nonneg_of_le ha h
  rcases nonneg_cases hc with rfl | ⟨r, hr, rfl⟩
  · rcases nonneg_cases ha with rfl | ⟨p, -, rfl⟩
    · rcases nonneg_cases hb with rfl | ⟨q, -, rfl⟩
      · exact ⟨rfl, rfl⟩
      · exact ⟨rfl, rfl⟩
    · rcases nonneg_cases hb with rfl | ⟨q, -, rfl⟩
      · exact ⟨rfl, rfl⟩
      · exact ⟨rfl, rfl⟩
  · rcases nonneg_cases ha with rfl | ⟨p, -, rfl⟩
    · rcases nonneg_cases hb with rfl | ⟨q, -, rfl⟩
      · exact ⟨rfl, rfl⟩
      · cases h
    · rcases nonneg_cases hb with rfl | ⟨q, -, rfl⟩
      · exact ⟨rfl, rfl⟩
      · have hpq : p ≤ q := of_decide_eq_true h
        constructor
        · exact decide_eq_true (by linarith)
        · exact decide_eq_true (by linarith)

theorem nonneg_add (hc : le 0 c = true) (ha : le 0 a = true) : le 0 (c+a) = true :=
  nonneg_of_le ha (le_add_of_nonneg hc ha (le_refl_of_nonneg ha)).2

theorem nonneg_sum {as : List JsNum} (h : ∀ a ∈ as, le 0 a = true) : le 0 as.sum = true := by
  induction as with
  | nil => rfl
  | cons a as ih =>
    rw [List.sum_cons]
    exact nonneg_add (h a List.mem_cons_self) (ih fun b hb => h b (List.mem_cons_of_mem a hb))

/-- More of the non-negative amounts make no smaller sum. -/
theorem sum_filter_le {α : Type} {f : α → JsNum} {xs : List α} (hf : ∀ x ∈ xs, le 0 (f x) = true)
    {p q : α → Bool} (hpq : ∀ x ∈ xs, p x = true → q x = true) :
    le ((xs.filter p).map f).sum ((xs.filter q).map f).sum = true := by
  induction xs with
  | nil => rfl
  | cons x xs ih =>
    have hx := hf x List.mem_cons_self
    have hrest : ∀ y ∈ xs, le 0 (f y) = true := fun y hy => hf y (List.mem_cons_of_mem x hy)
    have hle := ih hrest fun y hy => hpq y (List.mem_cons_of_mem x hy)
    have hnonneg : le 0 ((xs.filter p).map f).sum = true := by
      apply nonneg_sum
      intro a ha
      obtain ⟨y, hy, rfl⟩ := List.mem_map.mp ha
      exact hrest y (List.mem_of_mem_filter hy)
    obtain ⟨hboth, hone⟩ := le_add_of_nonneg hx hnonneg hle
    cases hp : p x with
    | true =>
      rw [List.filter_cons_of_pos hp, List.filter_cons_of_pos (hpq x List.mem_cons_self hp)]
      exact hboth
    | false =>
      rw [List.filter_cons_of_neg (by simp [hp])]
      cases hq : q x with
      | true =>
        rw [List.filter_cons_of_pos hq]
        exact hone
      | false =>
        rw [List.filter_cons_of_neg (by simp [hq])]
        exact hle

/-- A sum of non-negative amounts is nothing only if each of them is. -/
theorem sum_le_zero_iff {as : List JsNum} (h : ∀ a ∈ as, le 0 a = true) :
    le as.sum 0 = true ↔ ∀ a ∈ as, a = 0 := by
  induction as with
  | nil => exact iff_of_true rfl fun a ha => by cases ha
  | cons a as ih =>
    have ha := h a List.mem_cons_self
    have hrest : ∀ b ∈ as, le 0 b = true := fun b hb => h b (List.mem_cons_of_mem a hb)
    rw [List.sum_cons, List.forall_mem_cons, ← ih hrest]
    have hsum := nonneg_sum hrest
    constructor
    · intro hle
      rcases nonneg_cases ha with rfl | ⟨p, hp, rfl⟩
      · rcases nonneg_cases hsum with hs | ⟨q, -, hs⟩
        · rw [hs] at hle
          cases hle
        · rw [hs] at hle
          cases hle
      · rcases nonneg_cases hsum with hs | ⟨q, hq, hs⟩
        · rw [hs] at hle
          cases hle
        · rw [hs] at hle ⊢
          have hpq : p+q ≤ 0 := of_decide_eq_true hle
          have hzero : p = 0 := by linarith
          rw [hzero]
          exact ⟨rfl, decide_eq_true (by linarith)⟩
    · rintro ⟨rfl, hle⟩
      rw [zero_add]
      exact hle

end Order

end JsNum

end JsValues

/-! Lists cut into windows. -/
namespace Windows

variable {α M : Type} [AddCommMonoid M]

theorem sum_ite (ps : List (α → Bool)) (x : α) (m : M) :
    (ps.map fun p => if p x then m else 0).sum = (ps.countP fun p => p x) • m := by
  induction ps with
  | nil => rw [List.countP_nil, zero_nsmul]; rfl
  | cons p ps ih =>
    rw [List.map_cons, List.sum_cons, ih, List.countP_cons]
    cases p x with
    | true => rw [if_pos rfl, if_pos rfl, add_nsmul, one_nsmul, add_comm]
    | false => rw [if_neg Bool.false_ne_true, if_neg Bool.false_ne_true, zero_add, add_zero]

/-- Each element is counted once for each window that it lies in. -/
theorem sum_windows (ps : List (α → Bool)) (f : α → M) (xs : List α) :
    (ps.map fun p => ((xs.filter p).map f).sum).sum =
      (xs.map fun x => (ps.countP fun p => p x) • f x).sum := by
  induction xs with
  | nil => simp
  | cons x xs ih =>
    have hsplit : ∀ p : α → Bool, (((x :: xs).filter p).map f).sum =
        (if p x then f x else 0)+((xs.filter p).map f).sum := by
      intro p
      cases hp : p x with
      | true => rw [List.filter_cons_of_pos hp, List.map_cons, List.sum_cons, if_pos rfl]
      | false => rw [List.filter_cons_of_neg (by simp [hp]), if_neg Bool.false_ne_true, zero_add]
    simp only [hsplit, List.sum_map_add, ih, sum_ite, List.map_cons, List.sum_cons]

/-- If what is to be counted lies in one window each and the rest in none, nothing is lost. -/
theorem sum_windows_of_once (ps : List (α → Bool)) (e : α → Bool) (xs : List α)
    (h : ∀ x ∈ xs, (ps.countP fun p => p x) = if e x then 1 else 0) (f : α → M) :
    (ps.map fun p => ((xs.filter p).map f).sum).sum = ((xs.filter e).map f).sum := by
  rw [sum_windows]
  induction xs with
  | nil => rfl
  | cons x xs ih =>
    rw [List.map_cons, List.sum_cons, ih fun y hy => h y (List.mem_cons_of_mem x hy),
      h x List.mem_cons_self]
    cases he : e x with
    | true => rw [List.filter_cons_of_pos he, if_pos rfl, one_nsmul, List.map_cons, List.sum_cons]
    | false =>
      rw [List.filter_cons_of_neg (by simp [he]), if_neg Bool.false_ne_true, zero_nsmul, zero_add]

/-- A condition that one position alone meets is met once. -/
theorem countP_range_eq {n k : ℕ} {q : ℕ → Bool} (h : ∀ i < n, q i = true ↔ i = k) (hk : k < n) :
    (List.range n).countP q = 1 := by
  have hcongr : (List.range n).countP q = (List.range n).countP fun i => i == k := by
    apply List.countP_congr
    intro i hi
    rw [h i (List.mem_range.mp hi), beq_iff_eq]
  rw [hcongr]
  exact List.count_eq_one_of_mem List.nodup_range (List.mem_range.mpr hk)

end Windows
