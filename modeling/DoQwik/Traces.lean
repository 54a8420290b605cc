import DoQwik.Parallel

/-! The order in which concurrent branches take their steps. An invariant may speak of the trace so
far, and of two steps it says which one came first. -/
namespace Interleave

universe u

namespace Prog

variable {Op : Type u} {Ret : Op → Type} {ε α : Type}

section Traces

variable {σ γ : Type*} {exec : (op : Op) → σ → σ × Ret op} {Step : γ → Op → σ → γ → Prop}
  {Q : γ → α → Prop} {E : γ → Prop}

/-- A program that is led through stages is led through what they stand for. -/
theorem Tracks.lift {δ : Type*} {Step' : δ → Op → σ → δ → Prop} {Q' : δ → α → Prop} {E' : δ → Prop}
    (f : γ → δ) (hstep : ∀ g op s g', Step g op s g' → Step' (f g) op s (f g'))
    (hQ : ∀ g a, Q g a → Q' (f g) a) (hE : ∀ g, E g → E' (f g)) {p : Prog Op Ret ε α} {g : γ}
    (h : Tracks exec Step Q E g p) : Tracks exec Step' Q' E' (f g) p := by
  induction p generalizing g with
  | done a => exact hQ g a h
  | fail e => exact hE g h
  | call op k ih =>
    intro t
    obtain ⟨g', hg, hrest⟩ := h t
    exact ⟨f g', hstep g op t g' hg, ih _ hrest⟩

/-- An invariant of the branches and of the order of the steps so far. A branch that is over may
be given further turns, which it lets pass. -/
structure TraceInvariant (exec : (op : Op) → σ → σ × Ret op) (Step : γ → Op → σ → γ → Prop)
    (ended : γ → Prop) (I : List ℕ → σ → List γ → Prop) : Prop where
  step : ∀ {pre s gs i g op g'}, I pre s gs → gs[i]? = some g → Step g op s g' →
    I (pre ++ [i]) (exec op s).1 (gs.set i g')
  skip : ∀ {pre s gs i}, I pre s gs → (∀ g, gs[i]? = some g → ended g) → I (pre ++ [i]) s gs

variable {I : List ℕ → σ → List γ → Prop} (hI : TraceInvariant exec Step (Over Q E) I)

include hI

omit hI in
theorem forall₂_get {β : Type*} {R : γ → β → Prop} {gs : List γ} {ps : List β}
    (h : List.Forall₂ R gs ps) {i : ℕ} {p : β} (hi : ps[i]? = some p) :
    ∃ g, gs[i]? = some g ∧ R g p ∧
      ∀ g' p', R g' p' → List.Forall₂ R (gs.set i g') (ps.set i p') := by
  induction h generalizing i with
  | nil => cases hi
  | @cons g q gs ps hq hps ih =>
    cases i with
    | zero =>
      cases hi
      exact ⟨g, rfl, hq, fun g' p' h' => .cons h' hps⟩
    | succ i =>
      obtain ⟨g₁, hg, hR, hset⟩ := ih (i := i) hi
      exact ⟨g₁, hg, hR, fun g' p' h' => .cons hq (hset g' p' h')⟩

theorem TraceInvariant.skip_many {pre : List ℕ} {s : σ} {gs : List γ} {i : ℕ} (h : I pre s gs)
    (hover : ∀ g, gs[i]? = some g → Over Q E g) (n : ℕ) : I (pre ++ List.replicate n i) s gs := by
  induction n with
  | zero => rwa [List.replicate_zero, List.append_nil]
  | succ n ih =>
    rw [List.replicate_succ', ← List.append_assoc]
    exact hI.skip ih hover

/-- One branch runs to its end. -/
theorem TraceInvariant.run_settle {p : Prog Op Ret ε α} {g : γ} (hp : Tracks exec Step Q E g p)
    {pre : List ℕ} {s : σ} {before after : List γ} (h : I pre s (before ++ g :: after)) :
    ∃ n g', I (pre ++ List.replicate n before.length) (p.run exec s).1 (before ++ g' :: after) ∧
      Over Q E g' := by
  induction p generalizing g pre s with
  | done a => exact ⟨0, g, by rwa [List.replicate_zero, List.append_nil], Or.inl ⟨a, hp⟩⟩
  | fail e => exact ⟨0, g, by rwa [List.replicate_zero, List.append_nil], Or.inr hp⟩
  | call op k ih =>
    obtain ⟨g₁, hstep, hrest⟩ := hp s
    have hat : (before ++ g :: after)[before.length]? = some g := by
      rw [List.getElem?_append_right le_rfl, Nat.sub_self, List.getElem?_cons_zero]
    have hnext := hI.step h hat hstep
    rw [List.set_append_right _ _ le_rfl, Nat.sub_self, List.set_cons_zero] at hnext
    obtain ⟨n, g', hend, hover⟩ := ih _ hrest hnext
    refine ⟨n+1, g', ?_, hover⟩
    rw [List.replicate_succ, List.append_cons]
    exact hend

/-- The branches that are left run one after the other. -/
theorem TraceInvariant.run_settleAll (N : ℕ) {gs : List γ} {ps : List (Prog Op Ret ε α)}
    (hps : List.Forall₂ (Tracks exec Step Q E) gs ps) {pre : List ℕ} {s : σ} {before : List γ}
    (h : I pre s (before ++ gs)) :
    ∃ rest gs', rest.Pairwise (· ≤ ·) ∧ (∀ i ∈ rest, before.length ≤ i) ∧
      (∀ i < ps.length, N ≤ rest.count (before.length+i)) ∧
      I (pre ++ rest) ((settleAll ps).run exec s).1 (before ++ gs') ∧
      ∀ g ∈ gs', Over Q E g := by
  induction hps generalizing pre s before with
  | nil =>
    refine ⟨[], [], .nil, by simp, by simp, ?_, by simp⟩
    rwa [List.append_nil]
  | @cons g p gs ps hp hps ih =>
    obtain ⟨n, g', hfirst, hover⟩ := hI.run_settle hp h
    have hpadded := hI.skip_many hfirst (i := before.length) (fun g₁ hg₁ => by
      rw [List.getElem?_append_right le_rfl, Nat.sub_self, List.getElem?_cons_zero] at hg₁
      exact Option.some.inj hg₁ ▸ hover) N
    rw [List.append_assoc, ← List.replicate_add, List.append_cons] at hpadded
    obtain ⟨rest, gs', hsorted, hfrom, hcount, hend, hovers⟩ := ih hpadded
    rw [List.length_append, List.length_singleton] at hfrom hcount
    refine ⟨List.replicate (n+N) before.length ++ rest, g' :: gs', ?_, ?_, ?_, ?_, ?_⟩
    · refine List.pairwise_append.mpr ⟨List.pairwise_replicate.mpr (Or.inr le_rfl), hsorted, ?_⟩
      intro i hi j hj
      rw [List.eq_of_mem_replicate hi]
      exact (Nat.le_succ _).trans (hfrom j hj)
    · intro i hi
      rcases List.mem_append.mp hi with hi | hi
      · exact (List.eq_of_mem_replicate hi).ge
      · exact (Nat.le_succ _).trans (hfrom i hi)
    · intro i hi
      rw [List.count_append]
      cases i with
      | zero =>
        rw [Nat.add_zero, List.count_replicate_self]
        omega
      | succ i =>
        have hle := hcount i (Nat.lt_of_succ_lt_succ hi)
        rw [Nat.add_right_comm, Nat.add_assoc] at hle
        omega
    · obtain ⟨x, hx⟩ := exists_run_settle exec p s
      rw [settleAll, run_bind, hx]
      dsimp only
      rw [run_bind_fst exec (fun _ _ => rfl), ← List.append_assoc, List.append_cons]
      exact hend
    · intro g₁ hg₁
      rcases List.mem_cons.mp hg₁ with rfl | hg₁
      · exact hover
      · exact hovers g₁ hg₁

/-- The invariant at the end of all branches: the steps of the schedule, and after them each
branch in turn, with as many turns as one likes. -/
theorem TraceInvariant.run_inParallel (N : ℕ) (sched : List ℕ) {gs : List γ}
    {ps : List (Prog Op Ret ε α)} (hps : List.Forall₂ (Tracks exec Step Q E) gs ps)
    {pre : List ℕ} {s : σ} (h : I pre s gs) :
    ∃ rest gs', rest.Pairwise (· ≤ ·) ∧ (∀ i < ps.length, N ≤ rest.count i) ∧
      I (pre ++ (sched ++ rest)) ((inParallel sched ps).run exec s).1 gs' ∧
      ∀ g ∈ gs', Over Q E g := by
  induction sched generalizing gs ps pre s with
  | nil =>
    have hstart : I pre s ([] ++ gs) := h
    obtain ⟨rest, gs', hsorted, -, hcount, hend, hovers⟩ := hI.run_settleAll N hps hstart
    refine ⟨rest, gs', hsorted, fun i hi => ?_, hend, hovers⟩
    have hle := hcount i hi
    rwa [List.length_nil, Nat.zero_add] at hle
  | cons i sched ih =>
    -- A turn of a branch that is over, or of none, is let pass.
    have hpass (hover : ∀ g, gs[i]? = some g → Over Q E g)
        (heq : inParallel (i :: sched) ps = inParallel sched ps) :
        ∃ rest gs', rest.Pairwise (· ≤ ·) ∧ (∀ i < ps.length, N ≤ rest.count i) ∧
          I (pre ++ (i :: sched ++ rest)) ((inParallel (i :: sched) ps).run exec s).1 gs' ∧
          ∀ g ∈ gs', Over Q E g := by
      obtain ⟨rest, gs', hsorted, hcount, hend, hovers⟩ := ih hps (hI.skip h hover)
      rw [List.append_assoc, List.singleton_append, ← heq] at hend
      exact ⟨rest, gs', hsorted, hcount, hend, hovers⟩
    cases hi : ps[i]? with
    | none =>
      refine hpass (fun g hg => ?_) (by rw [inParallel, hi])
      have hlt := (List.getElem?_eq_some_iff.mp hg).1
      rw [hps.length_eq] at hlt
      rw [List.getElem?_eq_getElem hlt] at hi
      cases hi
    | some p =>
      obtain ⟨g, hg, hp, hset⟩ := forall₂_get hps hi
      cases p with
      | done a =>
        refine hpass (fun g' hg' => ?_) (by rw [inParallel, hi])
        cases hg.symm.trans hg'
        exact Or.inl ⟨a, hp⟩
      | fail e =>
        refine hpass (fun g' hg' => ?_) (by rw [inParallel, hi])
        cases hg.symm.trans hg'
        exact Or.inr hp
      | call op k =>
        obtain ⟨g', hstep, hrest⟩ := hp s
        obtain ⟨rest, gs', hsorted, hcount, hend, hovers⟩ :=
          ih (hset g' _ hrest) (hI.step h hg hstep)
        rw [List.append_assoc, List.singleton_append] at hend
        rw [List.length_set] at hcount
        refine ⟨rest, gs', hsorted, hcount, ?_, hovers⟩
        have hrun : (inParallel (i :: sched) ps).run exec s =
            (inParallel sched (ps.set i (k (exec op s).2))).run exec (exec op s).1 := by
          rw [inParallel, hi]
          rfl
        rwa [hrun]

end Traces

section Precedence

/-- At some point of the trace, branch `j` has taken `a` steps and branch `i` less than `b`. -/
def Precedes (trace : List ℕ) (j a i b : ℕ) : Prop :=
  ∃ pre, pre <+: trace ∧ a ≤ pre.count j ∧ pre.count i < b

instance (trace : List ℕ) (j a i b : ℕ) : Decidable (Precedes trace j a i b) :=
  decidable_of_iff (∃ pre ∈ trace.inits, a ≤ pre.count j ∧ pre.count i < b) <| by
    simp only [List.mem_inits, Precedes]

variable {pre trace : List ℕ} {j a i b c d : ℕ}

theorem Precedes.mono (h : Precedes pre j a i b) (hpre : pre <+: trace) :
    Precedes trace j a i b := by
  obtain ⟨q, hq, hj, hi⟩ := h
  exact ⟨q, hq.trans hpre, hj, hi⟩

/-- A further step decides nothing about a step that was taken. -/
theorem Precedes.of_snoc {x : ℕ} (h : Precedes (pre ++ [x]) j a i b) (hi : b ≤ pre.count i) :
    Precedes pre j a i b := by
  obtain ⟨q, hq, hj, hlt⟩ := h
  refine ⟨q, ?_, hj, hlt⟩
  rcases List.prefix_concat_iff.mp hq with rfl | hq
  · rw [List.count_append] at hlt
    omega
  · exact hq

theorem Precedes.asymm (h : Precedes trace j a i b) (hbc : b ≤ c) (hda : d ≤ a) :
    ¬ Precedes trace i c j d := by
  rintro ⟨q', hq', hi', hj'⟩
  obtain ⟨q, hq, hj, hi⟩ := h
  rcases List.prefix_or_prefix_of_prefix hq hq' with hle | hle
  · have := hle.sublist.count_le j
    omega
  · have := hle.sublist.count_le i
    omega

theorem count_prefix_of_sorted {rest r : List ℕ} (hsorted : rest.Pairwise (· ≤ ·)) (hr : r <+: rest)
    (hj : 0 < r.count j) (hij : i < j) : r.count i = rest.count i := by
  obtain ⟨r', rfl⟩ := hr
  have hnone : r'.count i = 0 := by
    refine List.count_eq_zero.mpr fun hi => ?_
    have hle := (List.pairwise_append.mp hsorted).2.2 j (List.count_pos_iff.mp hj) i hi
    omega
  rw [List.count_append, hnone, Nat.add_zero]

/-- A sorted list has all turns of a branch before those of the later ones. -/
theorem exists_prefix_of_sorted {rest : List ℕ} (hsorted : rest.Pairwise (· ≤ ·)) (hji : j < i) :
    ∃ r, r <+: rest ∧ r.count j = rest.count j ∧ r.count i = 0 := by
  refine ⟨rest.takeWhile (· ≤ j), List.takeWhile_prefix _, ?_, ?_⟩
  · induction hsorted with
    | nil => rfl
    | @cons x xs hx _ ih =>
      by_cases hxj : x ≤ j
      · rw [List.takeWhile_cons_of_pos (by simpa using hxj), List.count_cons, List.count_cons, ih]
      · rw [List.takeWhile_cons_of_neg (by simpa using hxj), List.count_nil, eq_comm,
          List.count_eq_zero]
        intro hmem
        rcases List.mem_cons.mp hmem with rfl | hmem
        · exact hxj le_rfl
        · exact hxj (hx j hmem)
  · refine List.count_eq_zero.mpr fun hi => ?_
    have hle : i ≤ j := by simpa using List.mem_takeWhile_imp hi
    omega

/-- The order of two steps, when the branches take their turns one after the other after the
trace. -/
theorem precedes_append_iff {rest : List ℕ} (hsorted : rest.Pairwise (· ≤ ·)) (hji : j ≠ i)
    (hj : a ≤ rest.count j) (hi : b ≤ rest.count i) :
    Precedes (trace ++ rest) j a i b ↔
      Precedes trace j a i b ∨ (j < i ∧ trace.count i < b) := by
  constructor
  · rintro ⟨q, hq, hqj, hqi⟩
    rcases List.prefix_or_prefix_of_prefix hq (List.prefix_append trace rest) with hle | ⟨r, rfl⟩
    · exact Or.inl ⟨q, hle, hqj, hqi⟩
    · have hr : r <+: rest := (List.prefix_append_right_inj trace).mp hq
      rw [List.count_append] at hqj hqi
      by_cases htrace : a ≤ trace.count j
      · exact Or.inl ⟨trace, List.prefix_rfl, htrace, by omega⟩
      · refine Or.inr ⟨?_, by omega⟩
        by_contra hlt
        have hcount := count_prefix_of_sorted hsorted hr (j := j) (i := i) (by omega) (by omega)
        omega
  · rintro (h | ⟨hlt, hcount⟩)
    · exact h.mono (List.prefix_append trace rest)
    · obtain ⟨r, hr, hrj, hri⟩ := exists_prefix_of_sorted hsorted hlt
      refine ⟨trace ++ r, (List.prefix_append_right_inj trace).mpr hr, ?_, ?_⟩
      · rw [List.count_append]
        omega
      · rw [List.count_append]
        omega

end Precedence

end Prog

end Interleave
