import DoQwik.Parallel

/-! Branches whose results are taken up in the order in which they end. While the branches only
read, every order of their results can come about, and no other list. -/
namespace Interleave

universe u

def Uniform {β : Type*} (xs : List β) : Prop := ∀ x ∈ xs, ∀ y ∈ xs, x = y

section Uniform

variable {β : Type*}

theorem Uniform.eq_of_perm {xs ys : List β} (h : Uniform xs) (hperm : ys.Perm xs) : ys = xs := by
  cases xs with
  | nil => exact hperm.eq_nil
  | cons x xs =>
    have hrep : x :: xs = List.replicate (x :: xs).length x :=
      List.eq_replicate_of_mem fun y hy => h y hy x List.mem_cons_self
    rw [hrep] at hperm ⊢
    exact List.perm_replicate.mp hperm

/-- A list is the only one with its members exactly when they are all the same. -/
theorem uniform_iff {xs : List β} : Uniform xs ↔ ∀ ys, ys.Perm xs → ys = xs := by
  refine ⟨fun h ys => h.eq_of_perm, fun h x hx y hy => ?_⟩
  -- Either member can come first.
  have hhead {z : β} (hz : z ∈ xs) : xs.head? = some z := by
    obtain ⟨pre, post, hsplit⟩ := List.append_of_mem hz
    have hperm : (z :: (pre ++ post)).Perm xs := by
      rw [hsplit]
      exact List.perm_middle.symm
    rw [← h _ hperm, List.head?_cons]
  have hsame := (hhead hx).symm.trans (hhead hy)
  rwa [Option.some.injEq] at hsame

theorem perm_reduceOption_append (xs : List (Option β)) :
    (xs.reduceOption.map some ++ xs.filter Option.isNone).Perm xs := by
  induction xs with
  | nil => exact .rfl
  | cons x xs ih =>
    cases x with
    | none => exact List.perm_middle.trans (ih.cons none)
    | some x => exact ih.cons (some x)

/-- The same for the members that are there, among others that are not. -/
theorem uniform_reduceOption_iff {xs : List (Option β)} :
    Uniform xs.reduceOption ↔
      ∀ ys : List (Option β), ys.Perm xs → ys.reduceOption = xs.reduceOption := by
  refine ⟨fun h ys hperm => h.eq_of_perm (hperm.filterMap id), fun h => ?_⟩
  refine uniform_iff.mpr fun ys hperm => ?_
  have hall : (ys.map some ++ xs.filter Option.isNone).Perm xs :=
    ((hperm.map some).append_right _).trans (perm_reduceOption_append xs)
  have hnone : (xs.filter Option.isNone).reduceOption = [] := by
    refine List.filterMap_eq_nil_iff.mpr fun x hx => ?_
    exact Option.isNone_iff_eq_none.mp (List.mem_filter.mp hx).2
  have hsome : (ys.map some).reduceOption = ys := by simp [List.reduceOption]
  rw [← h _ hall, List.reduceOption_append, hnone, hsome, List.append_nil]

theorem uniform_of_length_le_one {xs : List β} (h : xs.length ≤ 1) : Uniform xs := by
  intro x hx y hy
  obtain ⟨i, hi, rfl⟩ := List.mem_iff_getElem.mp hx
  obtain ⟨j, hj, rfl⟩ := List.mem_iff_getElem.mp hy
  have hij : i = j := by omega
  subst hij
  rfl

/-- Members that can be told apart are not the same. -/
theorem Uniform.length_le_one {γ : Type*} {f : β → γ} {xs : List β} (h : Uniform xs)
    (hnodup : (xs.map f).Nodup) : xs.length ≤ 1 := by
  cases xs with
  | nil => exact Nat.zero_le 1
  | cons x xs =>
    cases xs with
    | nil => exact le_rfl
    | cons y ys =>
      have hsame : x = y := h x List.mem_cons_self y (by simp)
      simp [hsame] at hnodup

end Uniform

namespace Prog

variable {Op : Type u} {Ret : Op → Type} {ε α β : Type}

/-- Each turn goes to one of the branches that are still there: it takes a step, or, if it has
ended, hands over its result. What is left after the schedule ends one after the other. -/
def inTurn : List ℕ → List (Prog Op Ret ε α) → Prog Op Ret ε (List (Except ε α))
  | [], ps => settleAll ps
  | i :: sched, ps =>
    match ps[i]? with
    | none => inTurn sched ps
    | some (done a) => inTurn sched (ps.eraseIdx i) >>= fun xs => done (.ok a :: xs)
    | some (fail e) => inTurn sched (ps.eraseIdx i) >>= fun xs => done (.error e :: xs)
    | some (call op k) => call op fun r => inTurn sched (ps.set i (k r))

/-- The results in the order in which they come, or the first exception. -/
def collect (sched : List ℕ) (ps : List (Prog Op Ret ε α)) : Prog Op Ret ε (List α) :=
  inTurn sched ps >>= fun xs => ofExcept (xs.mapM id)

section Reading

variable {σ : Type*} (exec : (op : Op) → σ → σ × Ret op) (s : σ)

/-- The program changes nothing in this state, and ends with this result. -/
def Reads : Prog Op Ret ε α → Except ε α → Prop
  | done a, x => x = .ok a
  | fail e, x => x = .error e
  | call op k, x => (exec op s).1 = s ∧ Reads (k (exec op s).2) x

variable {exec s}

theorem Reads.run {p : Prog Op Ret ε α} {x : Except ε α} (h : Reads exec s p x) :
    p.run exec s = (s, x) := by
  induction p with
  | done a => exact congrArg (Prod.mk s) h.symm
  | fail e => exact congrArg (Prod.mk s) h.symm
  | call op k ih =>
    change (k (exec op s).2).run exec (exec op s).1 = (s, x)
    rw [h.1]
    exact ih _ h.2

theorem Reads.unique {p : Prog Op Ret ε α} {x y : Except ε α} (h : Reads exec s p x)
    (h' : Reads exec s p y) : x = y :=
  congrArg Prod.snd (h.run.symm.trans h'.run)

theorem Reads.bind {p : Prog Op Ret ε α} {a : α} {f : α → Prog Op Ret ε β} {y : Except ε β}
    (hp : Reads exec s p (.ok a)) (hf : Reads exec s (f a) y) : Reads exec s (p >>= f) y := by
  induction p with
  | done b =>
    cases hp
    exact hf
  | fail e => cases hp
  | call op k ih => exact ⟨hp.1, ih _ hp.2⟩

theorem Reads.bind_error {p : Prog Op Ret ε α} {e : ε} {f : α → Prog Op Ret ε β}
    (hp : Reads exec s p (.error e)) : Reads exec s (p >>= f) (.error e) := by
  induction p with
  | done b => cases hp
  | fail e' =>
    cases hp
    rfl
  | call op k ih => exact ⟨hp.1, ih _ hp.2⟩

theorem Reads.catchAll {p : Prog Op Ret ε α} {a : α} (hp : Reads exec s p (.ok a))
    (handler : ε → α) : Reads exec s (p.catchAll handler) (.ok a) := by
  induction p with
  | done b => exact hp
  | fail e => cases hp
  | call op k ih => exact ⟨hp.1, ih _ hp.2⟩

theorem Reads.catchAll_error {p : Prog Op Ret ε α} {e : ε} (hp : Reads exec s p (.error e))
    (handler : ε → α) : Reads exec s (p.catchAll handler) (.ok (handler e)) := by
  induction p with
  | done b => cases hp
  | fail e' =>
    cases hp
    rfl
  | call op k ih => exact ⟨hp.1, ih _ hp.2⟩

theorem Reads.settle {p : Prog Op Ret ε α} {x : Except ε α} (h : Reads exec s p x) :
    Reads exec s p.settle (.ok x) := by
  induction p with
  | done a =>
    cases h
    rfl
  | fail e =>
    cases h
    rfl
  | call op k ih => exact ⟨h.1, ih _ h.2⟩

variable {ps : List (Prog Op Ret ε α)} {xs : List (Except ε α)}

theorem Reads.settleAll (h : List.Forall₂ (fun x p => Reads exec s p x) xs ps) :
    Reads exec s (settleAll ps) (.ok xs) := by
  induction h with
  | nil => rfl
  | cons hp _ ih => exact hp.settle.bind (ih.bind rfl)

/-- Whatever the schedule, the results come in some order. -/
theorem Reads.inTurn (h : List.Forall₂ (fun x p => Reads exec s p x) xs ps) (sched : List ℕ) :
    ∃ ys, ys.Perm xs ∧ Reads exec s (inTurn sched ps) (.ok ys) := by
  induction sched generalizing ps xs with
  | nil => exact ⟨xs, .rfl, Reads.settleAll h⟩
  | cons i sched ih =>
    unfold Prog.inTurn
    cases hi : ps[i]? with
    | none => exact ih h
    | some p =>
      obtain ⟨pre, x, post, rfl, hp, hset, herase⟩ := forall₂_at h hi
      cases p with
      | done a =>
        obtain ⟨ys, hperm, hreads⟩ := ih herase
        cases hp
        exact ⟨_, (hperm.cons _).trans List.perm_middle.symm, hreads.bind rfl⟩
      | fail e =>
        obtain ⟨ys, hperm, hreads⟩ := ih herase
        cases hp
        exact ⟨_, (hperm.cons _).trans List.perm_middle.symm, hreads.bind rfl⟩
      | call op k =>
        obtain ⟨ys, hperm, hreads⟩ := ih (hset x _ hp.2)
        exact ⟨ys, hperm, hp.1, hreads⟩

/-- A branch can be led to its end before the others. -/
theorem Reads.lead {p : Prog Op Ret ε α} {y : Except ε α} {ys : List (Except ε α)} {i : ℕ}
    {sched : List ℕ} (hp : Reads exec s p y) (hi : ps[i]? = some p)
    (hrest : Reads exec s (Prog.inTurn sched (ps.eraseIdx i)) (.ok ys)) :
    ∃ sched', Reads exec s (Prog.inTurn sched' ps) (.ok (y :: ys)) := by
  induction p generalizing ps with
  | done a =>
    cases hp
    refine ⟨i :: sched, ?_⟩
    rw [Prog.inTurn, hi]
    exact hrest.bind rfl
  | fail e =>
    cases hp
    refine ⟨i :: sched, ?_⟩
    rw [Prog.inTurn, hi]
    exact hrest.bind rfl
  | call op k ih =>
    have hlt : i < ps.length := (List.getElem?_eq_some_iff.mp hi).1
    have hset : (ps.set i (k (exec op s).2))[i]? = some (k (exec op s).2) :=
      List.getElem?_set_self hlt
    obtain ⟨sched', hreads⟩ := ih (exec op s).2 hp.2 hset (by rwa [List.eraseIdx_set_eq])
    refine ⟨i :: sched', ?_⟩
    rw [Prog.inTurn, hi]
    exact ⟨hp.1, hreads⟩

theorem forall₂_middle {γ δ : Type*} {R : γ → δ → Prop} {pre post : List γ} {y : γ} {qs : List δ}
    (h : List.Forall₂ R (pre ++ y :: post) qs) :
    ∃ q, qs[pre.length]? = some q ∧ R y q ∧
      List.Forall₂ R (pre ++ post) (qs.eraseIdx pre.length) := by
  induction pre generalizing qs with
  | nil =>
    cases h with
    | cons hq hqs => exact ⟨_, rfl, hq, hqs⟩
  | cons z pre ih =>
    cases h with
    | cons hz hqs =>
      obtain ⟨q, hget, hq, hrest⟩ := ih hqs
      exact ⟨q, hget, hq, .cons hz hrest⟩

/-- Whatever the order of the results, some schedule leads to it. -/
theorem Reads.exists_inTurn (h : List.Forall₂ (fun x p => Reads exec s p x) xs ps)
    {ys : List (Except ε α)} (hperm : ys.Perm xs) :
    ∃ sched, Reads exec s (Prog.inTurn sched ps) (.ok ys) := by
  induction ys generalizing xs ps with
  | nil =>
    cases hperm.symm.eq_nil
    exact ⟨[], Reads.settleAll h⟩
  | cons y ys ih =>
    obtain ⟨pre, post, rfl⟩ := List.append_of_mem (hperm.subset List.mem_cons_self)
    obtain ⟨p, hi, hp, hrest⟩ := forall₂_middle h
    obtain ⟨sched, hreads⟩ := ih hrest (hperm.trans List.perm_middle).cons_inv
    exact hp.lead hi hreads

section Collected

variable {as : List α}

theorem mapM_map_ok (as : List α) : (as.map (.ok : α → Except ε α)).mapM id = .ok as := by
  induction as with
  | nil => rfl
  | cons a as ih =>
    rw [List.map_cons, List.mapM_cons, ih]
    rfl

theorem mapM_eq_error {ys : List (Except ε α)} {e : ε} (hmem : .error e ∈ ys)
    (honly : ∀ e', .error e' ∈ ys → e' = e) : ys.mapM id = .error e := by
  induction ys with
  | nil => cases hmem
  | cons y ys ih =>
    rw [List.mapM_cons]
    cases y with
    | error e' =>
      rw [honly e' List.mem_cons_self]
      rfl
    | ok a =>
      have hrest : .error e ∈ ys := (List.mem_cons.mp hmem).resolve_left (by simp)
      rw [ih hrest fun e' he' => honly e' (List.mem_cons_of_mem _ he')]
      rfl

/-- Without a schedule, the results are collected as the branches stand. -/
theorem Reads.collect_nil (h : List.Forall₂ (fun a p => Reads exec s p (.ok a)) as ps) :
    Reads exec s (Prog.collect [] ps) (.ok as) := by
  refine (Reads.settleAll (List.forall₂_map_left_iff.mpr h)).bind ?_
  rw [mapM_map_ok]
  rfl

/-- Without exceptions, the results are collected in some order. -/
theorem Reads.collect (h : List.Forall₂ (fun a p => Reads exec s p (.ok a)) as ps)
    (sched : List ℕ) : ∃ bs, bs.Perm as ∧ Reads exec s (Prog.collect sched ps) (.ok bs) := by
  obtain ⟨ys, hperm, hreads⟩ := Reads.inTurn (List.forall₂_map_left_iff.mpr h) sched
  have hok : List.Forall₂ (fun y a => y = Except.ok a) (as.map (.ok : α → Except ε α)) as :=
    List.forall₂_map_left_iff.mpr (List.forall₂_same.mpr fun _ _ => rfl)
  obtain ⟨bs, hys, hbs⟩ := List.perm_comp_forall₂ hperm hok
  have hmap : ys = bs.map .ok := by
    rw [← List.forall₂_eq_eq_eq, List.forall₂_map_right_iff]
    exact hys
  refine ⟨bs, hbs, hreads.bind ?_⟩
  rw [hmap, mapM_map_ok]
  rfl

/-- Every order of the results comes about by some schedule. -/
theorem Reads.exists_collect (h : List.Forall₂ (fun a p => Reads exec s p (.ok a)) as ps)
    {bs : List α} (hperm : bs.Perm as) :
    ∃ sched, Reads exec s (Prog.collect sched ps) (.ok bs) := by
  obtain ⟨sched, hreads⟩ := Reads.exists_inTurn (List.forall₂_map_left_iff.mpr h) (hperm.map _)
  refine ⟨sched, hreads.bind ?_⟩
  rw [mapM_map_ok]
  rfl

/-- If the branches that throw all throw the same, then so does the whole, whatever the order. -/
theorem Reads.collect_error (h : List.Forall₂ (fun x p => Reads exec s p x) xs ps) {e : ε}
    (hmem : .error e ∈ xs) (honly : ∀ e', .error e' ∈ xs → e' = e) (sched : List ℕ) :
    Reads exec s (Prog.collect sched ps) (.error e) := by
  obtain ⟨ys, hperm, hreads⟩ := Reads.inTurn h sched
  refine hreads.bind ?_
  rw [mapM_eq_error (hperm.mem_iff.mpr hmem) fun e' he' => honly e' (hperm.mem_iff.mp he')]
  rfl

end Collected

end Reading

end Prog

end Interleave
