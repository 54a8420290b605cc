import Mathlib

/-! A list without its repetitions, as a filter that keeps an element where a search for it from
the front ends: each value stays at its first occurrence. -/
namespace FirstOccurrences

variable {α : Type} [DecidableEq α]

/-- `self.filter((value, index) => self.findIndex(x => x.equals(value)) === index)`. -/
def uniques (self : List α) : List α :=
  (self.zipIdx.filter fun x => self.findIdx (· == x.1) == x.2).map Prod.fst

/-- One more element stays exactly when it is new, and does not affect the others. -/
theorem uniques_append_singleton (l : List α) (a : α) :
    uniques (l ++ [a]) = uniques l ++ if a ∈ l then [] else [a] := by
  have hold : ∀ x ∈ l.zipIdx, ((l ++ [a]).findIdx (· == x.1) == x.2) =
      (l.findIdx (· == x.1) == x.2) := by
    intro x hx
    have hmem : x.1 ∈ l := List.mem_of_getElem? (List.mem_zipIdx_iff_getElem?.mp hx)
    change ((l ++ [a]).idxOf x.1 == x.2) = (l.idxOf x.1 == x.2)
    rw [List.idxOf_append_of_mem hmem]
  have hnew : ((l ++ [a]).findIdx (· == a) == l.length) = !decide (a ∈ l) := by
    change ((l ++ [a]).idxOf a == l.length) = _
    by_cases ha : a ∈ l
    · have hlt : l.idxOf a < l.length := List.idxOf_lt_length_of_mem ha
      rw [List.idxOf_append_of_mem ha]
      simp [ha, hlt.ne]
    · rw [List.idxOf_append_of_notMem ha]
      simp [ha]
  unfold uniques
  rw [List.zipIdx_append, List.filter_append, List.map_append, List.filter_congr hold]
  congr 1
  simp only [List.zipIdx_cons, List.zipIdx_nil, List.filter_cons, List.filter_nil, Nat.zero_add,
    hnew]
  by_cases ha : a ∈ l
  · simp [ha]
  · simp [ha]

theorem uniques_eq_eraseDups (l : List α) : uniques l = l.eraseDups := by
  induction l using List.reverseRecOn with
  | nil => rfl
  | append_singleton l a ih =>
    rw [uniques_append_singleton, List.eraseDups_append, ih]
    congr 1
    by_cases ha : a ∈ l
    · simp [ha, List.removeAll]
    · simp [ha, List.removeAll, List.eraseDups_cons]

theorem mem_uniques {l : List α} {x : α} : x ∈ uniques l ↔ x ∈ l := by
  rw [uniques_eq_eraseDups, List.mem_eraseDups]

/-- The values stand in the order of their first occurrences. -/
theorem pairwise_uniques (l : List α) : (uniques l).Pairwise fun x y => l.idxOf x < l.idxOf y := by
  induction l using List.reverseRecOn with
  | nil => exact List.Pairwise.nil
  | append_singleton l a ih =>
    have hkept : ∀ x ∈ uniques l, (l ++ [a]).idxOf x = l.idxOf x := fun x hx =>
      List.idxOf_append_of_mem (mem_uniques.mp hx)
    have hfirst : (uniques l).Pairwise fun x y => (l ++ [a]).idxOf x < (l ++ [a]).idxOf y := by
      refine ih.imp_of_mem fun hx hy hxy => ?_
      rw [hkept _ hx, hkept _ hy]
      exact hxy
    rw [uniques_append_singleton]
    by_cases ha : a ∈ l
    · simpa [ha] using hfirst
    · rw [if_neg ha, List.pairwise_append]
      refine ⟨hfirst, List.pairwise_singleton _ _, fun x hx y hy => ?_⟩
      obtain rfl := List.mem_singleton.mp hy
      have hlt : l.idxOf x < l.length := List.idxOf_lt_length_of_mem (mem_uniques.mp hx)
      rw [hkept x hx, List.idxOf_append_of_notMem ha]
      omega

example : uniques [3, 1, 3, 2, 1] = [3, 1, 2] := by decide

theorem nodup_uniques (l : List α) : (uniques l).Nodup := by
  refine (pairwise_uniques l).imp fun {x y} hlt => ?_
  rintro rfl
  exact lt_irrefl _ hlt

/-- A list without repetitions stays as it is. -/
theorem uniques_of_nodup {l : List α} (h : l.Nodup) : uniques l = l := by
  induction l using List.reverseRecOn with
  | nil => rfl
  | append_singleton l a ih =>
    obtain ⟨hl, -, hdisjoint⟩ := List.nodup_append.mp h
    have ha : a ∉ l := fun ha => hdisjoint a ha a List.mem_cons_self rfl
    rw [uniques_append_singleton, ih hl, if_neg ha]

end FirstOccurrences
