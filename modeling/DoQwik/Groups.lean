import Mathlib

/-! The groups of a list by a key, with their sizes, in an order that nothing fixes. -/
namespace Groups

section Counts

variable {α κ : Type} [DecidableEq κ] {key : α → κ} {xs : List α}

def counts (key : α → κ) (xs : List α) : List (κ × ℕ) :=
  (xs.map key).dedup.map fun k => (k, xs.countP fun x => key x = k)

theorem mem_counts {g : κ × ℕ} :
    g ∈ counts key xs ↔ (∃ x ∈ xs, key x = g.1) ∧ (xs.countP fun x => key x = g.1) = g.2 := by
  obtain ⟨k, n⟩ := g
  simp only [counts, List.mem_map, List.mem_dedup, Prod.mk.injEq]
  constructor
  · rintro ⟨k', hk, rfl, rfl⟩
    exact ⟨hk, rfl⟩
  · rintro ⟨hk, hn⟩
    exact ⟨k, hk, rfl, hn⟩

theorem mem_counts_of_mem {x : α} (hx : x ∈ xs) :
    (key x, xs.countP fun y => key y = key x) ∈ counts key xs :=
  mem_counts.mpr ⟨⟨x, hx, rfl⟩, rfl⟩

end Counts

section Arrangements

/-- One of the orders in which a list can be handed over. -/
structure Arrangement (γ : Type) where
  arrange : List γ → List γ
  perm : ∀ gs, (arrange gs).Perm gs

namespace Arrangement

variable {γ : Type} {a : Arrangement γ} {gs : List γ} {g : γ}

def asFound : Arrangement γ := ⟨id, List.Perm.refl⟩

def first (a : Arrangement γ) (gs : List γ) : Option γ := (a.arrange gs).head?

theorem mem_of_first (h : a.first gs = some g) : g ∈ gs :=
  (a.perm gs).mem_iff.mp (List.mem_of_mem_head? h)

theorem exists_first (h : g ∈ gs) : ∃ g', a.first gs = some g' := by
  have hne : a.arrange gs ≠ [] := List.ne_nil_of_mem ((a.perm gs).mem_iff.mpr h)
  exact ⟨_, List.head?_eq_some_head hne⟩

/-- Every element is the first one in some order. -/
theorem exists_arrangement [DecidableEq γ] (h : g ∈ gs) :
    ∃ a : Arrangement γ, a.first gs = some g := by
  refine ⟨⟨fun l => if g ∈ l then g :: l.erase g else l, fun l => ?_⟩, ?_⟩
  · split
    · next hl => exact (List.perm_cons_erase hl).symm
    · exact List.Perm.refl l
  · simp only [first, if_pos h, List.head?_cons]

end Arrangement

end Arrangements

end Groups
