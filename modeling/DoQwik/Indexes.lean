import DoQwik.Collections

/-! Looking documents up by something other than their key. As long as an index tells the
documents of a collection apart, it is as good as a key: what holds of lookups by the key holds of
lookups by the index. -/
namespace DocStore.Collection

variable {α κ ι : Type} {key : α → κ} {index : α → ι}

/-- What the key can be worked out from tells the documents apart as well. -/
theorem nodup_map_of_determines {as : List α} (f : ι → κ) (h : (as.map key).Nodup)
    (hf : ∀ a ∈ as, key a = f (index a)) : (as.map index).Nodup := by
  have hkeys : as.map key = (as.map index).map f := by
    rw [List.map_map]
    exact List.map_congr_left hf
  rw [hkeys] at h
  exact List.Nodup.of_map f h

/-- The same documents, keyed by an index that tells them apart. -/
def rekey (c : Collection key) (h : (c.docs.map index).Nodup) : Collection index := ⟨c.docs, h⟩

variable [DecidableEq ι]

def lookup (c : Collection key) (index : α → ι) (i : ι) : Option α :=
  c.findOne fun a => index a = i

variable {c d : Collection key} {a : α} {p : α → Bool}

theorem lookup_eq_some_iff (h : (c.docs.map index).Nodup) (i : ι) (a : α) :
    c.lookup index i = some a ↔ a ∈ c.docs ∧ index a = i :=
  (c.rekey h).get?_eq_some_iff i a

theorem lookup_eq_none (h : (c.docs.map index).Nodup) {i : ι} (hi : i ∉ c.docs.map index) :
    c.lookup index i = none := by
  cases hget : c.lookup index i with
  | none => rfl
  | some a =>
    obtain ⟨ha, hai⟩ := (lookup_eq_some_iff h i a).mp hget
    exact absurd (List.mem_map.mpr ⟨a, ha, hai⟩) hi

theorem lookup_insert [DecidableEq κ] (h : (c.docs.map index).Nodup)
    (hins : c.insert a = some d) (hfree : index a ∉ c.docs.map index) (i : ι) :
    d.lookup index i = if index a = i then some a else c.lookup index i := by
  have hd := (insert_eq_some hins).2
  have hnodup : (d.docs.map index).Nodup := by
    rw [hd, List.map_append]
    exact List.Nodup.append h (List.nodup_singleton _) (List.disjoint_singleton.mpr hfree)
  have hrekeyed : (c.rekey h).insert a = some (d.rekey hnodup) := by
    have hfree' : index a ∉ (c.rekey h).docs.map index := hfree
    unfold insert
    rw [dif_neg hfree', Option.some.injEq]
    exact ext hd.symm
  exact get?_insert hrekeyed i

theorem lookup_updateOne (h : (c.docs.map index).Nodup) {f : α → α} (hf : ∀ a, key (f a) = key a)
    (hindex : ∀ a, index (f a) = index a) (i : ι) :
    (c.updateOne p f hf).lookup index i =
      if (c.findOne p).map index = some i then (c.lookup index i).map f else c.lookup index i :=
  (c.rekey h).get?_updateOne p f hindex i

/-- The removal of a key, as the index sees it. -/
theorem lookup_deleteOne_key [DecidableEq κ] (h : (c.docs.map index).Nodup) {k : κ}
    (hp : ∀ a, p a = true ↔ key a = k) (i : ι) :
    (c.deleteOne p).lookup index i = (c.lookup index i).filter fun a => key a ≠ k := by
  have hdelete : (c.deleteOne p).lookup index i =
      if (c.findOne p).map index = some i then none else c.lookup index i :=
    (c.rekey h).get?_deleteOne p i
  rw [hdelete, c.findOne_key hp]
  cases hi : c.lookup index i with
  | none =>
    split
    · rfl
    · rfl
  | some a =>
    obtain ⟨ha, rfl⟩ := (lookup_eq_some_iff h i a).mp hi
    by_cases hk : key a = k
    · subst hk
      rw [get?_key ha, Option.map_some, if_pos rfl, Option.filter_some, if_neg (by simp)]
    · -- The document with the key has another index.
      have hother : (c.get? k).map index ≠ some (index a) := by
        intro hsome
        obtain ⟨b, hb, hba⟩ := Option.map_eq_some_iff.mp hsome
        obtain ⟨hmem, rfl⟩ := (c.get?_eq_some_iff k b).mp hb
        exact hk (congrArg key (List.inj_on_of_nodup_map h ha hmem hba.symm))
      rw [if_neg hother, Option.filter_some, if_pos (decide_eq_true hk)]

end DocStore.Collection
