import DoQwik.Collections

/-! Reading a list page by page while it grows. Between two pages elements may be added anywhere,
but none is removed and those that are there keep their order: an element that was not on the
pages so far can then only move back, to a page that is still to come. -/
namespace Paging
open DocStore

variable {α : Type} {size k : ℕ} {a : α}

section Windows

/-- The page of number `k`, counted from zero. -/
def window (size k : ℕ) (xs : List α) : List α := (xs.drop (k*size)).take size

/-- The pages from number `k` on, each read off the list as it is at that time. -/
def windows (size : ℕ) : ℕ → List (List α) → List (List α)
  | _, [] => []
  | k, xs :: later => window size k xs :: windows size (k+1) later

/-- The rest of the list is on the page, or begins behind it. -/
theorem drop_eq_window_append (size k : ℕ) (xs : List α) :
    xs.drop (k*size) = window size k xs ++ xs.drop ((k+1)*size) := by
  have hnext : (k+1)*size = k*size+size := by ring
  rw [hnext, ← List.drop_drop]
  exact (List.take_append_drop size _).symm

/-- A page that is not full is the last one. -/
theorem drop_of_short {xs : List α} (h : (window size k xs).length < size) :
    xs.drop ((k+1)*size) = [] := by
  apply List.drop_eq_nil_of_le
  unfold window at h
  rw [List.length_take, List.length_drop] at h
  have hnext : (k+1)*size = k*size+size := by ring
  omega

/-- The last page of a reader that went on until a page was not full. -/
def EndsShort (size : ℕ) (pages : List (List α)) : Prop :=
  ∃ page, pages.getLast? = some page ∧ page.length < size

theorem EndsShort.tail {p q : List α} {pages : List (List α)}
    (h : EndsShort size (p :: q :: pages)) : EndsShort size (q :: pages) := by
  obtain ⟨page, hlast, hshort⟩ := h
  rw [List.getLast?_cons_cons] at hlast
  exact ⟨page, hlast, hshort⟩

theorem EndsShort.single {xs : List α} (h : EndsShort size (windows size k [xs])) :
    xs.drop ((k+1)*size) = [] := by
  obtain ⟨page, hlast, hshort⟩ := h
  cases hlast
  exact drop_of_short hshort

/-- A reader of a growing list sees all that was behind its first page when it began. -/
theorem mem_windows {xs : List α} {later : List (List α)}
    (hgrow : (xs :: later).IsChain List.Sublist) (ha : a ∈ xs.drop (k*size))
    (hend : EndsShort size (windows size k (xs :: later))) :
    ∃ page ∈ windows size k (xs :: later), a ∈ page := by
  induction later generalizing xs k with
  | nil =>
    rw [drop_eq_window_append, hend.single, List.append_nil] at ha
    exact ⟨_, List.mem_cons_self, ha⟩
  | cons ys later ih =>
    rw [drop_eq_window_append] at ha
    rcases List.mem_append.mp ha with hhere | hbehind
    · exact ⟨_, List.mem_cons_self, hhere⟩
    · -- What is behind this page is behind it in the longer list, too.
      obtain ⟨hxy, hlater⟩ := List.isChain_cons_cons.mp hgrow
      have hnext : a ∈ ys.drop ((k+1)*size) := (hxy.drop _).subset hbehind
      obtain ⟨page, hpage, hmem⟩ := ih hlater hnext hend.tail
      exact ⟨page, List.mem_cons_of_mem _ hpage, hmem⟩

/-- While the list stays the same, the pages make it up. -/
theorem flatten_windows {xs : List α} {later : List (List α)} (hsame : ∀ ys ∈ later, ys = xs)
    (hend : EndsShort size (windows size k (xs :: later))) :
    (windows size k (xs :: later)).flatten = xs.drop (k*size) := by
  induction later generalizing k with
  | nil =>
    rw [drop_eq_window_append, hend.single]
    rfl
  | cons ys later ih =>
    obtain rfl : ys = xs := hsame ys List.mem_cons_self
    have hrest := ih (fun zs hzs => hsame zs (List.mem_cons_of_mem _ hzs)) hend.tail
    rw [drop_eq_window_append, ← hrest]
    rfl

end Windows

section Sorting

variable {r : α → α → Prop} [DecidableRel r] [IsTrans α r]

/-- A new element takes its place in a sorted list and in any part of it alike. -/
theorem orderedInsert_sublist {xs ys : List α} (h : xs.Sublist ys) (hs : ys.Pairwise r) (a : α) :
    (xs.orderedInsert r a).Sublist (ys.orderedInsert r a) := by
  induction h with
  | slnil => exact List.Sublist.refl _
  | @cons xs ys b h ih =>
    obtain ⟨hb, hs⟩ := List.pairwise_cons.mp hs
    by_cases hab : r a b
    · rw [List.orderedInsert_cons_of_le r ys hab]
      have hfirst : xs.orderedInsert r a = a :: xs := by
        cases xs with
        | nil => rfl
        | cons x xs =>
          exact List.orderedInsert_cons_of_le r xs
            (IsTrans.trans a b x hab (hb x (h.subset List.mem_cons_self)))
      rw [hfirst]
      exact (h.cons b).cons_cons a
    · rw [List.orderedInsert_of_not_le r ys hab]
      exact (ih hs).cons b
  | @cons_cons xs ys b h ih =>
    obtain ⟨-, hs⟩ := List.pairwise_cons.mp hs
    by_cases hab : r a b
    · rw [List.orderedInsert_cons_of_le r ys hab, List.orderedInsert_cons_of_le r xs hab]
      exact (h.cons_cons b).cons_cons a
    · rw [List.orderedInsert_of_not_le r ys hab, List.orderedInsert_of_not_le r xs hab]
      exact (ih hs).cons_cons b

end Sorting

/-- Elements that are added do not change the order of the others, not even where ranks are
equal. -/
theorem sortDescending_sublist (rank : α → ℤ) {xs ys : List α} (h : xs.Sublist ys) :
    (sortDescending rank xs).Sublist (sortDescending rank ys) := by
  let r : α → α → Prop := fun a b => rank b ≤ rank a
  have htrans : IsTrans α r := ⟨fun a b c hab hbc => le_trans hbc hab⟩
  have htotal : Std.Total r := ⟨fun a b => le_total (rank b) (rank a)⟩
  induction h with
  | slnil => exact List.Sublist.refl _
  | @cons xs ys a h ih => exact ih.trans (List.sublist_orderedInsert a _)
  | @cons_cons xs ys a h ih => exact orderedInsert_sublist ih (List.pairwise_insertionSort r ys) a

/-- An order that the database may give: by rank, and in any order where ranks are equal. -/
def SortsTo (rank : α → ℤ) (xs ys : List α) : Prop :=
  ys.Perm xs ∧ ys.Pairwise fun a b => rank b ≤ rank a

theorem sortsTo_sortDescending (rank : α → ℤ) (xs : List α) :
    SortsTo rank xs (sortDescending rank xs) := by
  let r : α → α → Prop := fun a b => rank b ≤ rank a
  have htrans : IsTrans α r := ⟨fun a b c hab hbc => le_trans hbc hab⟩
  have htotal : Std.Total r := ⟨fun a b => le_total (rank b) (rank a)⟩
  exact ⟨List.perm_insertionSort r xs, List.pairwise_insertionSort r xs⟩

/-- There is only one such order if the ranks are different. -/
theorem SortsTo.eq_sortDescending {rank : α → ℤ} {xs ys : List α} (h : SortsTo rank xs ys)
    (hnodup : (xs.map rank).Nodup) : ys = sortDescending rank xs := by
  obtain ⟨hperm, hsorted⟩ := sortsTo_sortDescending rank xs
  refine List.Perm.eq_of_pairwise (fun a b ha hb hab hba => ?_) h.2 hsorted
    (h.1.trans hperm.symm)
  exact List.inj_on_of_nodup_map hnodup (h.1.subset ha) (hperm.subset hb) (le_antisymm hba hab)

theorem map_sortDescending {β : Type} (f : α → β) (rank : β → ℤ) (xs : List α) :
    (sortDescending (fun a => rank (f a)) xs).map f = sortDescending rank (xs.map f) :=
  List.map_insertionSort _ _ f xs fun _ _ _ _ => Iff.rfl

end Paging
