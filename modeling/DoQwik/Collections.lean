import Mathlib

/-! Collections of keyed documents, in the natural order of insertion, with the
single-document operations of a document store. -/
namespace DocStore

variable {α κ : Type}

def updateFirst (p : α → Bool) (f : α → α) : List α → List α
  | [] => []
  | a :: as => if p a then f a :: as else a :: updateFirst p f as

theorem map_key_updateFirst (key : α → κ) (p : α → Bool) (f : α → α)
    (hf : ∀ a, key (f a) = key a) (as : List α) :
    (updateFirst p f as).map key = as.map key := by
  induction as with
  | nil => rfl
  | cons a as ih =>
    by_cases ha : p a = true
    · simp only [updateFirst, ha, if_true, List.map_cons, hf]
    · simp only [updateFirst, ha, if_false, List.map_cons, ih, Bool.false_eq_true]

theorem updateFirst_of_find_none (p : α → Bool) (f : α → α) (as : List α)
    (h : as.find? p = none) : updateFirst p f as = as := by
  induction as with
  | nil => rfl
  | cons a as ih =>
    rw [List.find?_cons] at h
    cases ha : p a with
    | true => simp [ha] at h
    | false => simp only [updateFirst, ha, Bool.false_eq_true, if_false, ih (by simpa [ha] using h)]

/-- What the change keeps can be read off the old documents. -/
theorem filterMap_updateFirst {β : Type} {g : α → Option β} (p : α → Bool) {f : α → α}
    (hf : ∀ a, g (f a) = g a) (as : List α) :
    (updateFirst p f as).filterMap g = as.filterMap g := by
  induction as with
  | nil => rfl
  | cons a as ih =>
    by_cases ha : p a = true
    · simp only [updateFirst, ha, if_true, List.filterMap_cons, hf]
    · simp only [updateFirst, ha, Bool.false_eq_true, if_false, List.filterMap_cons, ih]

/-- A change that is complete at once, and that its condition does not see, is not made twice. -/
theorem updateFirst_updateFirst {p : α → Bool} {f : α → α} (hp : ∀ a, p (f a) = p a)
    (hf : ∀ a, f (f a) = f a) (as : List α) :
    updateFirst p f (updateFirst p f as) = updateFirst p f as := by
  induction as with
  | nil => rfl
  | cons a as ih =>
    cases ha : p a with
    | true => simp only [updateFirst, ha, if_true, hp, hf]
    | false => simp only [updateFirst, ha, Bool.false_eq_true, if_false, ih]

/-- To change one document and then all of them, or first all of them and then the one. -/
theorem map_updateFirst {p : α → Bool} {f g g' : α → α} (hp : ∀ a, p (f a) = p a)
    (hg : ∀ a, f (g a) = g' (f a)) (as : List α) :
    (updateFirst p g as).map f = updateFirst p g' (as.map f) := by
  induction as with
  | nil => rfl
  | cons a as ih =>
    cases ha : p a with
    | true => simp only [updateFirst, List.map_cons, hp, ha, if_true, hg]
    | false => simp only [updateFirst, List.map_cons, hp, ha, Bool.false_eq_true, if_false, ih]

/-- A change that a condition does not see keeps its first match, changed or not. -/
theorem find_updateFirst {p : α → Bool} (q : α → Bool) {f : α → α} (hp : ∀ a, p (f a) = p a)
    {as : List α} {a : α} (h : as.find? p = some a) :
    ∃ b, (updateFirst q f as).find? p = some b ∧ (b = a ∨ b = f a) := by
  induction as with
  | nil => cases h
  | cons c as ih =>
    rw [List.find?_cons] at h
    cases hq : q c with
    | true =>
      simp only [updateFirst, hq, if_true, List.find?_cons, hp]
      cases hc : p c with
      | true =>
        rw [hc] at h
        cases h
        exact ⟨f a, rfl, Or.inr rfl⟩
      | false =>
        rw [hc] at h
        exact ⟨a, h, Or.inl rfl⟩
    | false =>
      simp only [updateFirst, hq, Bool.false_eq_true, if_false, List.find?_cons]
      cases hc : p c with
      | true =>
        rw [hc] at h
        cases h
        exact ⟨a, rfl, Or.inl rfl⟩
      | false =>
        rw [hc] at h
        exact ih h

theorem updateFirst_eq_map {p : α → Bool} {f g : α → α} {as : List α} (hnodup : as.Nodup) {b : α}
    (hfind : as.find? p = some b) (hb : f b = g b) (hother : ∀ a ∈ as, a ≠ b → g a = a) :
    updateFirst p f as = as.map g := by
  induction as with
  | nil => cases hfind
  | cons a as ih =>
    rw [List.nodup_cons] at hnodup
    rw [List.find?_cons] at hfind
    cases ha : p a with
    | true =>
      rw [ha] at hfind
      cases hfind
      have hrest : as.map g = as := by
        refine (List.map_congr_left fun c hc => ?_).trans (List.map_id as)
        exact hother c (List.mem_cons_of_mem _ hc) fun heq => hnodup.1 (heq ▸ hc)
      rw [updateFirst, if_pos ha, List.map_cons, hrest, hb]
    | false =>
      rw [ha] at hfind
      have hne : a ≠ b := by
        rintro rfl
        exact Bool.false_ne_true (ha.symm.trans (List.find?_some hfind))
      rw [updateFirst, ha, if_neg Bool.false_ne_true, List.map_cons,
        hother a List.mem_cons_self hne,
        ih hnodup.2 hfind fun c hc => hother c (List.mem_cons_of_mem _ hc)]

/-- A sort by a number, largest first. The database may return equal numbers in any order; here they
stay as they are. -/
def sortDescending (rank : α → ℤ) (xs : List α) : List α :=
  xs.insertionSort fun a b => rank b ≤ rank a

/-- A collection: documents in insertion order, no two with the same key. -/
structure Collection (key : α → κ) where
  docs : List α
  nodup : (docs.map key).Nodup

namespace Collection

variable {key : α → κ}

@[ext] theorem ext {c d : Collection key} (h : c.docs = d.docs) : c = d := by
  cases c
  cases d
  cases h
  rfl

def empty (key : α → κ) : Collection key := ⟨[], List.nodup_nil⟩

/-- The first match in natural order. -/
def findOne (c : Collection key) (p : α → Bool) : Option α := c.docs.find? p

def find (c : Collection key) (p : α → Bool) : List α := c.docs.filter p

def count (c : Collection key) (p : α → Bool) : ℕ := (c.find p).length

/-- Update the first match; an update never changes the key. -/
def updateOne (c : Collection key) (p : α → Bool) (f : α → α) (hf : ∀ a, key (f a) = key a) :
    Collection key :=
  ⟨updateFirst p f c.docs, by rw [map_key_updateFirst key p f hf]; exact c.nodup⟩

def deleteOne (c : Collection key) (p : α → Bool) : Collection key :=
  ⟨c.docs.eraseP p, c.nodup.sublist (List.eraseP_sublist.map key)⟩

def map (c : Collection key) (f : α → α) (hf : ∀ a, key (f a) = key a) : Collection key :=
  ⟨c.docs.map f, by
    have hkeys : (c.docs.map f).map key = c.docs.map key := by simp [hf]
    rw [hkeys]
    exact c.nodup⟩

theorem mem_of_findOne {c : Collection key} {p : α → Bool} {a : α} (h : c.findOne p = some a) :
    a ∈ c.docs ∧ p a = true :=
  ⟨List.mem_of_find?_eq_some h, List.find?_some h⟩

theorem count_ne_zero_iff {c : Collection key} {p : α → Bool} :
    c.count p ≠ 0 ↔ ∃ a ∈ c.docs, p a = true := by
  rw [count, ← Nat.pos_iff_ne_zero, List.length_pos_iff_exists_mem]
  simp only [find, List.mem_filter]

theorem exists_findOne {c : Collection key} {p : α → Bool} {a : α} (ha : a ∈ c.docs)
    (hp : p a = true) : ∃ b, c.findOne p = some b :=
  Option.isSome_iff_exists.mp (List.find?_isSome.mpr ⟨a, ha, hp⟩)

theorem updateOne_of_findOne_none {c : Collection key} {p : α → Bool} (f : α → α)
    (hf : ∀ a, key (f a) = key a) (h : c.findOne p = none) : c.updateOne p f hf = c :=
  Collection.ext (updateFirst_of_find_none p f c.docs h)

/-- An update of one document, as a change that leaves the others alone. -/
theorem updateOne_eq_map {c : Collection key} {p : α → Bool} {f g : α → α}
    (hf : ∀ a, key (f a) = key a) (hg : ∀ a, key (g a) = key a) {b : α}
    (hfind : c.findOne p = some b) (hb : f b = g b) (hother : ∀ a ∈ c.docs, a ≠ b → g a = a) :
    c.updateOne p f hf = c.map g hg := by
  apply Collection.ext
  exact updateFirst_eq_map (List.Nodup.of_map key c.nodup) hfind hb hother

theorem findOne_updateOne {c : Collection key} {p : α → Bool} (q : α → Bool) {f : α → α}
    (hf : ∀ a, key (f a) = key a) (hp : ∀ a, p (f a) = p a) {a : α} (h : c.findOne p = some a) :
    ∃ b, (c.updateOne q f hf).findOne p = some b ∧ (b = a ∨ b = f a) :=
  find_updateFirst q hp h

/-- The first match is also the first match of a stronger condition that it meets. -/
theorem findOne_of_imp {c : Collection key} {p q : α → Bool} {a : α} (h : c.findOne p = some a)
    (hq : q a = true) (himp : ∀ b, q b = true → p b = true) : c.findOne q = some a := by
  obtain ⟨-, as, bs, hdocs, has⟩ := List.find?_eq_some_iff_append.mp h
  refine List.find?_eq_some_iff_append.mpr ⟨hq, as, bs, hdocs, ?_⟩
  intro b hb
  have hp := has b hb
  cases hqb : q b with
  | false => rfl
  | true =>
    rw [himp b hqb] at hp
    cases hp

section Map

variable (c : Collection key) {f : α → α} (hf : ∀ a, key (f a) = key a)
variable {p : α → Bool} (hp : ∀ a, p (f a) = p a)

include hp

/-- A query that does not see the change selects the changed documents. -/
theorem findOne_map : (c.map f hf).findOne p = (c.findOne p).map f := by
  have hcomp : p ∘ f = p := funext hp
  simp only [findOne, map, List.find?_map, hcomp]

theorem find_map : (c.map f hf).find p = (c.find p).map f := by
  have hcomp : p ∘ f = p := funext hp
  simp only [find, map, List.filter_map, hcomp]

theorem count_map : (c.map f hf).count p = c.count p := by
  simp only [count, find_map c hf hp, List.length_map]

/-- An update that commutes with the change. -/
theorem updateOne_map {g : α → α} (hg : ∀ a, key (g a) = key a) (hfg : ∀ a, g (f a) = f (g a)) :
    (c.map f hf).updateOne p g hg = (c.updateOne p g hg).map f hf := by
  apply Collection.ext
  exact (map_updateFirst hp (fun a => (hfg a).symm) c.docs).symm

end Map

variable [DecidableEq κ]

def get? (c : Collection key) (k : κ) : Option α := c.findOne (fun a => key a = k)

/-- Insert at the end; a key that exists already is refused. -/
def insert (c : Collection key) (a : α) : Option (Collection key) :=
  if h : key a ∈ c.docs.map key then none
  else some ⟨c.docs ++ [a], by
    rw [List.map_append, List.nodup_append]
    refine ⟨c.nodup, List.nodup_singleton _, ?_⟩
    intro x hx y hy he
    rw [List.map_singleton, List.mem_singleton] at hy
    exact h (hy ▸ he ▸ hx)⟩

theorem get?_eq_some_iff (c : Collection key) (k : κ) (a : α) :
    c.get? k = some a ↔ a ∈ c.docs ∧ key a = k := by
  constructor
  · intro h
    have hm := mem_of_findOne h
    exact ⟨hm.1, by simpa using hm.2⟩
  · rintro ⟨hm, rfl⟩
    cases h : c.get? (key a) with
    | none =>
      have hn := List.find?_eq_none.mp h a hm
      simp at hn
    | some b =>
      have hb := mem_of_findOne h
      have hk : key b = key a := by simpa using hb.2
      rw [List.inj_on_of_nodup_map c.nodup hb.1 hm hk]

theorem get?_map (c : Collection key) {f : α → α} (hf : ∀ a, key (f a) = key a) (k : κ) :
    (c.map f hf).get? k = (c.get? k).map f :=
  findOne_map c hf fun a => by rw [hf]

theorem get?_key {c : Collection key} {a : α} (h : a ∈ c.docs) : c.get? (key a) = some a :=
  (c.get?_eq_some_iff _ _).mpr ⟨h, rfl⟩

theorem get?_of_findOne {c : Collection key} {p : α → Bool} {a : α} (h : c.findOne p = some a) :
    c.get? (key a) = some a :=
  get?_key (mem_of_findOne h).1

/-- Looking up a key after an update of the first match: only the key of that
match is touched. -/
theorem get?_updateOne (c : Collection key) (p : α → Bool) (f : α → α)
    (hf : ∀ a, key (f a) = key a) (k : κ) :
    (c.updateOne p f hf).get? k =
      if (c.findOne p).map key = some k then (c.get? k).map f else c.get? k := by
  obtain ⟨as, hn⟩ := c
  simp only [get?, findOne, updateOne]
  induction as with
  | nil => simp [updateFirst]
  | cons a as ih =>
    have hn' : key a ∉ as.map key ∧ (as.map key).Nodup := List.nodup_cons.mp hn
    cases ha : p a with
    | true =>
      by_cases hk : key a = k
      · simp [updateFirst, ha, hf, hk]
      · simp [updateFirst, ha, hf, hk]
    | false =>
      by_cases hk : key a = k
      · -- `a` is the only document of this key, and it is not the first match.
        have hno : (as.find? p).map key ≠ some k := by
          intro h
          obtain ⟨b, hb, hbk⟩ := Option.map_eq_some_iff.mp h
          apply hn'.1
          rw [hk, ← hbk]
          exact List.mem_map_of_mem (List.mem_of_find?_eq_some hb)
        simp [updateFirst, ha, hk, hno]
      · simpa [updateFirst, ha, hk] using ih hn'.2

/-- An update removes no document. -/
theorem isSome_get?_updateOne (c : Collection key) (p : α → Bool) (f : α → α)
    (hf : ∀ a, key (f a) = key a) (k : κ) :
    ((c.updateOne p f hf).get? k).isSome = (c.get? k).isSome := by
  rw [get?_updateOne]
  split
  · exact Option.isSome_map
  · rfl

theorem get?_updateOne_eq_none (c : Collection key) (p : α → Bool) (f : α → α)
    (hf : ∀ a, key (f a) = key a) (k : κ) :
    (c.updateOne p f hf).get? k = none ↔ c.get? k = none := by
  rw [get?_updateOne]
  split
  · exact Option.map_eq_none_iff
  · exact Iff.rfl

theorem mem_updateOne_of_findOne {c : Collection key} {p : α → Bool} {f : α → α}
    {hf : ∀ a, key (f a) = key a} {a : α} (h : c.findOne p = some a) :
    f a ∈ (c.updateOne p f hf).docs := by
  have hg : (c.updateOne p f hf).get? (key a) = some (f a) := by
    rw [get?_updateOne, h, Option.map_some, if_pos rfl, get?_of_findOne h, Option.map_some]
  exact ((get?_eq_some_iff _ _ _).mp hg).1

/-- A document after an update is an old document, changed only if it was the first match. -/
theorem mem_updateOne {c : Collection key} {p : α → Bool} {f : α → α}
    {hf : ∀ a, key (f a) = key a} {a : α} (h : a ∈ (c.updateOne p f hf).docs) :
    (∃ b, c.findOne p = some b ∧ a = f b) ∨ (a ∈ c.docs ∧ (c.findOne p).map key ≠ some (key a)) := by
  have hg := get?_updateOne c p f hf (key a)
  rw [get?_key h] at hg
  split at hg
  · rename_i hk
    obtain ⟨b, hb, hbk⟩ := Option.map_eq_some_iff.mp hk
    refine Or.inl ⟨b, hb, ?_⟩
    rw [← hbk, get?_of_findOne hb, Option.map_some, Option.some.injEq] at hg
    exact hg
  · rename_i hk
    exact Or.inr ⟨((c.get?_eq_some_iff _ _).mp hg.symm).1, hk⟩

/-- A condition that singles out a key finds the document of the key. -/
theorem findOne_key (c : Collection key) {p : α → Bool} {k : κ} (hp : ∀ a, p a = true ↔ key a = k) :
    c.findOne p = c.get? k := by
  have hsame : p = fun a => decide (key a = k) := by
    funext a
    rw [Bool.eq_iff_iff, hp, decide_eq_true_eq]
  rw [hsame]
  rfl

/-- The keys in their order and the document of each key determine the collection. -/
theorem ext_get? {c d : Collection key} (hkeys : c.docs.map key = d.docs.map key)
    (hget : ∀ k, c.get? k = d.get? k) : c = d := by
  have hdocs (e : Collection key) : (e.docs.map key).map e.get? = e.docs.map some := by
    rw [List.map_map]
    exact List.map_congr_left fun a ha => get?_key ha
  have hsame : c.docs.map some = d.docs.map some := by
    rw [← hdocs c, ← hdocs d, hkeys, funext hget]
  exact ext (List.map_injective_iff.mpr (Option.some_injective α) hsame)

/-- A condition that selects documents of one key only looks at the document of the key. -/
theorem findOne_of_key (c : Collection key) {p : α → Bool} {k : κ}
    (hp : ∀ a, p a = true → key a = k) : c.findOne p = (c.get? k).filter p := by
  cases hfind : c.findOne p with
  | some a =>
    have hselected : p a = true := (mem_of_findOne hfind).2
    have hget : c.get? k = some a := by
      rw [← hp a hselected]
      exact get?_of_findOne hfind
    rw [hget, Option.filter_some, if_pos hselected]
  | none =>
    cases hget : c.get? k with
    | none => rfl
    | some a =>
      have hnot : ¬ p a = true := List.find?_eq_none.mp hfind a (mem_of_findOne hget).1
      rw [Option.filter_some, if_neg hnot]

/-- Looking up a key after the removal of the first match. -/
theorem get?_deleteOne (c : Collection key) (p : α → Bool) (k : κ) :
    (c.deleteOne p).get? k = if (c.findOne p).map key = some k then none else c.get? k := by
  obtain ⟨as, hn⟩ := c
  simp only [get?, findOne, deleteOne]
  induction as with
  | nil => simp
  | cons a as ih =>
    have hn' : key a ∉ as.map key ∧ (as.map key).Nodup := List.nodup_cons.mp hn
    cases ha : p a with
    | true =>
      by_cases hk : key a = k
      · -- No document behind `a` has its key.
        have hno : as.find? (fun b => decide (key b = k)) = none := by
          rw [List.find?_eq_none]
          intro b hb hbk
          exact hn'.1 (hk ▸ (by simpa using hbk) ▸ List.mem_map_of_mem hb)
        simp [ha, hk, hno]
      · simp [ha, hk]
    | false =>
      by_cases hk : key a = k
      · have hno : (as.find? p).map key ≠ some k := by
          intro h
          obtain ⟨b, hb, hbk⟩ := Option.map_eq_some_iff.mp h
          apply hn'.1
          rw [hk, ← hbk]
          exact List.mem_map_of_mem (List.mem_of_find?_eq_some hb)
        simp [ha, hk, hno]
      · simpa [List.eraseP_cons, ha, hk] using ih hn'.2

/-- The removal of a key. -/
theorem get?_deleteOne_key (c : Collection key) {p : α → Bool} {k : κ}
    (hp : ∀ a, p a = true ↔ key a = k) (x : κ) :
    (c.deleteOne p).get? x = if x = k then none else c.get? x := by
  rw [get?_deleteOne, c.findOne_key hp]
  cases hg : c.get? k with
  | none =>
    rw [Option.map_none, if_neg (by simp)]
    split
    · rename_i hx
      rw [hx]
      exact hg
    · rfl
  | some a =>
    rw [Option.map_some, ((c.get?_eq_some_iff _ _).mp hg).2]
    simp only [Option.some.injEq, eq_comm]

theorem insert_eq_some {c d : Collection key} {a : α} (h : c.insert a = some d) :
    key a ∉ c.docs.map key ∧ d.docs = c.docs ++ [a] := by
  unfold insert at h
  split at h
  · simp at h
  · rename_i hk
    rw [Option.some.injEq] at h
    exact ⟨hk, h ▸ rfl⟩

/-- New documents come last. -/
theorem findOne_insert {c d : Collection key} {a b : α} {p : α → Bool} (h : c.insert a = some d)
    (hb : c.findOne p = some b) : d.findOne p = some b := by
  unfold findOne at hb ⊢
  rw [(insert_eq_some h).2, List.find?_append, hb, Option.some_or]

/-- What the documents hold after an insertion. -/
theorem filterMap_insert {β : Type} {c c' : Collection key} {a : α} (h : c.insert a = some c')
    (g : α → Option β) : c'.docs.filterMap g = c.docs.filterMap g ++ (g a).toList := by
  rw [(insert_eq_some h).2, List.filterMap_append]
  cases hg : g a with
  | none => simp [hg]
  | some b => simp [hg]

/-- The insertion of a document that the change leaves alone. -/
theorem insert_map (c : Collection key) {f : α → α} (hf : ∀ a, key (f a) = key a) {a : α}
    (ha : f a = a) : (c.map f hf).insert a = (c.insert a).map fun d => d.map f hf := by
  have hkeys : (c.map f hf).docs.map key = c.docs.map key := by simp [map, hf]
  unfold insert
  by_cases hk : key a ∈ c.docs.map key
  · rw [dif_pos (hkeys ▸ hk), dif_pos hk, Option.map_none]
  · rw [dif_neg (hkeys ▸ hk), dif_neg hk, Option.map_some]
    congr 1
    apply Collection.ext
    simp only [map, List.map_append, List.map_singleton, ha]

theorem get?_of_insert {c d : Collection key} {a : α} (h : c.insert a = some d) :
    c.get? (key a) = none := by
  cases hg : c.get? (key a) with
  | none => rfl
  | some b =>
    obtain ⟨hb, hk⟩ := (c.get?_eq_some_iff _ _).mp hg
    exact absurd (hk ▸ List.mem_map_of_mem hb) (insert_eq_some h).1

theorem exists_insert {c : Collection key} {a : α} (h : c.get? (key a) = none) :
    ∃ d, c.insert a = some d := by
  unfold insert
  split
  · rename_i hk
    obtain ⟨b, hb, hkb⟩ := List.mem_map.mp hk
    rw [← hkb, get?_key hb] at h
    cases h
  · exact ⟨_, rfl⟩

/-- Only a key that is taken is refused. -/
theorem exists_get?_of_insert_none {c : Collection key} {a : α} (h : c.insert a = none) :
    ∃ x, c.get? (key a) = some x := by
  cases hg : c.get? (key a) with
  | some x => exact ⟨x, rfl⟩
  | none =>
    obtain ⟨d, hd⟩ := exists_insert (a := a) hg
    rw [h] at hd
    cases hd

theorem ne_of_insert {c d : Collection key} {a : α} (h : c.insert a = some d) : d ≠ c := by
  rintro rfl
  have hlength := congrArg List.length (insert_eq_some h).2
  simp at hlength

theorem get?_insert {c d : Collection key} {a : α} (h : c.insert a = some d) (k : κ) :
    d.get? k = if key a = k then some a else c.get? k := by
  obtain ⟨hk, hd⟩ := insert_eq_some h
  simp only [get?, findOne, hd, List.find?_append]
  by_cases he : key a = k
  · have hno : c.docs.find? (fun b => key b = k) = none := by
      rw [List.find?_eq_none]
      intro b hb hbk
      exact hk (he ▸ (by simpa using hbk) ▸ List.mem_map_of_mem hb)
    simp [hno, he]
  · simp [he]

section Differences

/-- The documents in which the two collections differ all meet `own`, before and after. -/
def DiffersIn (own : α → Prop) (c d : Collection key) : Prop :=
  ∀ k, c.get? k ≠ d.get? k → ∀ a, c.get? k = some a ∨ d.get? k = some a → own a

variable {own : α → Prop} {c d : Collection key}

theorem DiffersIn.refl (own : α → Prop) (c : Collection key) : DiffersIn own c c :=
  fun _ h => absurd rfl h

theorem DiffersIn.trans {e : Collection key} (hcd : DiffersIn own c d) (hde : DiffersIn own d e) :
    DiffersIn own c e := by
  intro k hne a ha
  by_cases hsame : c.get? k = d.get? k
  · rw [hsame] at hne ha
    exact hde k hne a ha
  · rcases ha with ha | ha
    · exact hcd k hsame a (Or.inl ha)
    · by_cases hkept : d.get? k = e.get? k
      · rw [← hkept] at ha
        exact hcd k hsame a (Or.inr ha)
      · exact hde k hkept a (Or.inr ha)

/-- An insertion adds its document and nothing else. -/
theorem differsIn_insert {a : α} (ha : own a) (h : c.insert a = some d) : DiffersIn own c d := by
  intro k hne b hb
  rw [get?_insert h] at hne hb
  by_cases hk : key a = k
  · have hold : c.get? k = none := by
      rw [← hk]
      exact get?_of_insert h
    rw [hold, if_pos hk] at hb
    rcases hb with hb | hb
    · cases hb
    · exact Option.some.inj hb ▸ ha
  · rw [if_neg hk] at hne
    exact absurd rfl hne

theorem differsIn_updateOne {p : α → Bool} {f : α → α} (hf : ∀ a, key (f a) = key a)
    (hp : ∀ a, p a = true → own a) (hown : ∀ a, own a → own (f a)) :
    DiffersIn own c (c.updateOne p f hf) := by
  intro k hne b hb
  rw [get?_updateOne] at hne hb
  by_cases hk : (c.findOne p).map key = some k
  · obtain ⟨a, ha, rfl⟩ := Option.map_eq_some_iff.mp hk
    have hfirst := hp a (mem_of_findOne ha).2
    rw [if_pos hk, get?_of_findOne ha, Option.map_some] at hb
    rcases hb with hb | hb
    · exact Option.some.inj hb ▸ hfirst
    · exact Option.some.inj hb ▸ hown a hfirst
  · rw [if_neg hk] at hne
    exact absurd rfl hne

/-- A removal takes away the first match, whatever it is. -/
theorem differsIn_deleteOne_iff {p : α → Bool} :
    DiffersIn own c (c.deleteOne p) ↔ ∀ a, c.findOne p = some a → own a := by
  constructor
  · intro h a ha
    have hthere := get?_of_findOne ha
    refine h (key a) ?_ a (Or.inl hthere)
    rw [hthere, get?_deleteOne, ha, Option.map_some, if_pos rfl]
    exact Option.some_ne_none a
  · intro h k hne b hb
    rw [get?_deleteOne] at hne hb
    by_cases hk : (c.findOne p).map key = some k
    · obtain ⟨a, ha, rfl⟩ := Option.map_eq_some_iff.mp hk
      rw [if_pos hk, get?_of_findOne ha] at hb
      rcases hb with hb | hb
      · exact Option.some.inj hb ▸ h a ha
      · cases hb
    · rw [if_neg hk] at hne
      exact absurd rfl hne

end Differences

end Collection

end DocStore
