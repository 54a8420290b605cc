import DoQwik.Parallel

/-! Programs that act on what they saw. Right after each of its steps a program knows every fact
that is true; later on it may rest on such a fact without looking again. A fact that a step rests
on is then still true, or it was lost since the program began: by a step of another one, or by one
of its own. -/
namespace Interleave

universe u

variable {σ : Type*} {Op : Type u} {Ret : Op → Type} {ε α : Type}
variable (exec : (op : Op) → σ → σ × Ret op)
variable {φ : Type*} (holds : φ → σ → Prop) (good : σ → Prop) (needs : Op → Set φ)

/-- With the facts `g` at hand the operation `op` may be issued, and it leaves the program with
facts that it had before or that are true right after it. What it sees in a state that is not
good does not count. -/
def Learns (g : Set φ) (op : Op) (s : σ) (g' : Set φ) : Prop :=
  needs op ⊆ g ∧ ∀ f ∈ g', f ∈ g ∨ (good s → holds f (exec op s).1)

/-- Every operation of the program rests on facts that were true after an earlier one. -/
abbrev Grounded (p : Prog Op Ret ε α) : Prop :=
  Prog.Tracks exec (Learns exec holds good needs) (fun _ _ => True) (fun _ => True) ∅ p

variable (c : Pool σ Op Ret ε α)

/-- In the steps `pre`, the fact was lost after thread `i` had begun, or by a step of its own. -/
def LostSince (pre : List ℕ) (i : ℕ) (f : φ) : Prop :=
  ∃ fst j snd op, pre = fst ++ j :: snd ∧ (i ∈ fst ∨ j = i) ∧
    (runFrom (Pool.stepAt exec) c fst).nextOp j = some op ∧
    holds f (runFrom (Pool.stepAt exec) c fst).state ∧
    ¬ holds f (exec op (runFrom (Pool.stepAt exec) c fst).state).1

variable {exec holds good needs} {c}

/-- What is known already is no obstacle to learning more. -/
theorem learns_climbs : Prog.Climbs (Learns exec holds good needs) := by
  rintro g h op s g' hgh ⟨hneeds, hlearn⟩
  refine ⟨h ∪ g', Set.subset_union_right, Set.subset_union_left, hneeds.trans hgh, ?_⟩
  rintro f (hf | hf)
  · exact Or.inl hf
  · exact (hlearn f hf).imp_left fun hg => hgh hg

/-- To a program that knows everything, everything is allowed. -/
theorem tracks_univ (p : Prog Op Ret ε α) :
    Prog.Branch exec (Learns exec holds good needs) Set.univ p := by
  induction p with
  | done a => trivial
  | fail e => trivial
  | call op k ih =>
    exact fun t => ⟨Set.univ, ⟨Set.subset_univ _, fun f hf => Or.inl hf⟩, ih _⟩

theorem LostSince.append {pre : List ℕ} {i : ℕ} {f : φ} (h : LostSince exec holds c pre i f)
    (l : ℕ) : LostSince exec holds c (pre ++ [l]) i f := by
  obtain ⟨fst, j, snd, op, rfl, hrest⟩ := h
  exact ⟨fst, j, snd ++ [l], op, by rw [List.append_assoc, List.cons_append], hrest⟩

/-- A fact that was true before a step is true after it, or lost by it. -/
theorem holds_or_lostSince {pre : List ℕ} {i l : ℕ} {op : Op} {f : φ}
    (hop : (runFrom (Pool.stepAt exec) c pre).nextOp l = some op) (hi : i ∈ pre ∨ l = i)
    (h : holds f (runFrom (Pool.stepAt exec) c pre).state ∨ LostSince exec holds c pre i f) :
    holds f (exec op (runFrom (Pool.stepAt exec) c pre).state).1 ∨
      LostSince exec holds c (pre ++ [l]) i f := by
  rcases h with hbefore | hlost
  · by_cases hafter : holds f (exec op (runFrom (Pool.stepAt exec) c pre).state).1
    · exact Or.inl hafter
    · exact Or.inr ⟨pre, l, [], op, rfl, hi, hop, hbefore, hafter⟩
  · exact Or.inr (hlost.append l)

/-- Along a run through good states, what a thread knows is true or was lost since it began. -/
theorem known_run (hground : ∀ p ∈ c.threads, Grounded exec holds good needs p) (sched : List ℕ)
    (hgood : ∀ pre, pre <+: sched → good (runFrom (Pool.stepAt exec) c pre).state) :
    ∃ gs, (runFrom (Pool.stepAt exec) c sched).Tracking exec (Learns exec holds good needs)
        (fun _ _ => True) (fun _ => True) gs ∧
      (∀ i, i ∉ sched → gs i = ∅) ∧
      ∀ i, ∀ f ∈ gs i, holds f (runFrom (Pool.stepAt exec) c sched).state ∨
        LostSince exec holds c sched i f := by
  induction sched using List.reverseRecOn with
  | nil =>
    refine ⟨fun _ => ∅, fun i p hp => hground p (List.mem_of_getElem? hp), fun _ _ => rfl, ?_⟩
    intro i f hf
    exact absurd hf (Set.notMem_empty f)
  | append_singleton pre l ih =>
    obtain ⟨gs, htrack, hfirst, hknown⟩ :=
      ih fun pre' h => hgood pre' (h.trans (List.prefix_append pre [l]))
    have hgoodpre := hgood pre (List.prefix_append pre [l])
    rw [runFrom_append, runFrom_cons, runFrom_nil]
    cases hop : (runFrom (Pool.stepAt exec) c pre).nextOp l with
    | none =>
      rw [Pool.stepAt_of_nextOp_none exec hop]
      refine ⟨gs, htrack, fun i hi => hfirst i fun hm => hi (List.mem_append_left [l] hm), ?_⟩
      exact fun i f hf => (hknown i f hf).imp_right fun hlost => hlost.append l
    | some op =>
      obtain ⟨g, ⟨-, hlearn⟩, htrack'⟩ := htrack.stepAt hop
      refine ⟨Function.update gs l g, htrack', ?_, ?_⟩
      · intro i hi
        have hil : i ≠ l := by
          rintro rfl
          exact hi (List.mem_append_right pre List.mem_cons_self)
        rw [Function.update_of_ne hil]
        exact hfirst i fun hm => hi (List.mem_append_left [l] hm)
      · intro i f hf
        rw [Pool.state_stepAt, hop, Option.elim_some]
        by_cases hil : i = l
        · subst hil
          rw [Function.update_self] at hf
          rcases hlearn f hf with hold | hnew
          · exact holds_or_lostSince hop (Or.inr rfl) (hknown i f hold)
          · exact Or.inl (hnew hgoodpre)
        · rw [Function.update_of_ne hil] at hf
          -- A thread that knows something has begun.
          have hbegun : i ∈ pre := by
            by_contra hi
            rw [hfirst i hi] at hf
            exact Set.notMem_empty f hf
          exact holds_or_lostSince hop (Or.inl hbegun) (hknown i f hf)

/-- The facts that a step rests on are true, or were lost since its thread began. -/
theorem holds_or_lost_of_needs (hground : ∀ p ∈ c.threads, Grounded exec holds good needs p)
    {pre : List ℕ} (hgood : ∀ pre', pre' <+: pre → good (runFrom (Pool.stepAt exec) c pre').state)
    {i : ℕ} {op : Op} (hop : (runFrom (Pool.stepAt exec) c pre).nextOp i = some op) {f : φ}
    (hf : f ∈ needs op) :
    holds f (runFrom (Pool.stepAt exec) c pre).state ∨ LostSince exec holds c pre i f := by
  obtain ⟨gs, htrack, -, hknown⟩ := known_run hground pre hgood
  obtain ⟨-, ⟨hneeds, -⟩, -⟩ := htrack.stepAt hop
  exact hknown i f (hneeds hf)

/-- The invariant rule: a step from a good state leads to a good one, if the facts that it rests
on and that no operation destroys are true. -/
theorem good_run (hground : ∀ p ∈ c.threads, Grounded exec holds good needs p)
    (hstart : good c.state)
    (hstep : ∀ s op, good s →
      (∀ f ∈ needs op, (∀ t op', holds f t → holds f (exec op' t).1) → holds f s) →
      good (exec op s).1) (sched : List ℕ) :
    ∀ pre, pre <+: sched → good (runFrom (Pool.stepAt exec) c pre).state := by
  induction sched using List.reverseRecOn with
  | nil =>
    intro pre hpre
    rw [List.prefix_nil.mp hpre]
    exact hstart
  | append_singleton sched l ih =>
    intro pre hpre
    rcases List.prefix_concat_iff.mp hpre with rfl | hbefore
    · rw [runFrom_append, runFrom_cons, runFrom_nil, Pool.state_stepAt]
      have hlast := ih sched List.prefix_rfl
      cases hop : (runFrom (Pool.stepAt exec) c sched).nextOp l with
      | none => exact hlast
      | some op =>
        refine hstep _ op hlast fun f hf hstable => ?_
        rcases holds_or_lost_of_needs hground ih hop hf with
          hstill | ⟨fst, j, snd, op', -, -, -, hheld, hlost⟩
        · exact hstill
        · exact absurd (hstable _ op' hheld) hlost
    · exact ih pre hbefore

section Keys

variable {κ : Type*} (keys : σ → List κ) (adds : σ → Op → Option κ)

variable (exec c)

/-- In the steps `pre`, the key was added after thread `i` had begun, or by `i` itself. -/
def TakenSince (pre : List ℕ) (i : ℕ) (k : κ) : Prop :=
  ∃ fst j snd op, pre = fst ++ j :: snd ∧ (i ∈ fst ∨ j = i) ∧
    (runFrom (Pool.stepAt exec) c fst).nextOp j = some op ∧
    adds (runFrom (Pool.stepAt exec) c fst).state op = some k

/-- After the steps `pre`, thread `i` is about to add a key that is taken, and that was added
since `i` began. -/
def Retakes (pre : List ℕ) (i : ℕ) : Prop :=
  ∃ op k, (runFrom (Pool.stepAt exec) c pre).nextOp i = some op ∧
    adds (runFrom (Pool.stepAt exec) c pre).state op = some k ∧
    k ∈ keys (runFrom (Pool.stepAt exec) c pre).state ∧ TakenSince exec c adds pre i k

variable {exec c keys adds}

/-- When every addition rests on the key being free, the keys stay distinct exactly as long as
none is added that was added since the thread began. -/
theorem nodup_keys_iff_of_grounded (hk : AddsKeys exec keys adds) (free : κ → φ)
    (hfree : ∀ k s, holds (free k) s ↔ k ∉ keys s)
    (hneeds : ∀ s op k, adds s op = some k → free k ∈ needs op)
    (hground : ∀ p ∈ c.threads, Grounded exec holds good needs p) {sched : List ℕ}
    (hgood : ∀ pre, pre <+: sched → good (runFrom (Pool.stepAt exec) c pre).state) :
    (∀ pre, pre <+: sched → (keys (runFrom (Pool.stepAt exec) c pre).state).Nodup) ↔
      (keys c.state).Nodup ∧
        ∀ pre i post, sched = pre ++ i :: post → ¬ Retakes exec c keys adds pre i := by
  rw [nodup_keys_iff_free hk]
  refine and_congr_right fun _ => ?_
  constructor
  · rintro hfree' pre i post hsplit ⟨op, k, hop, hadd, hmem, -⟩
    exact hfree' pre i post hsplit op k hop hadd hmem
  · intro hnone pre i post hsplit op k hop hadd hmem
    have hpre : pre <+: sched := ⟨i :: post, hsplit.symm⟩
    have hseen := holds_or_lost_of_needs hground (fun pre' h => hgood pre' (h.trans hpre)) hop
      (hneeds _ op k hadd)
    rcases hseen with hstill | ⟨fst, j, snd, op', hfst, hi, hop', hbefore, hafter⟩
    · exact (hfree k _).mp hstill hmem
    · -- The step at which the key ceased to be free is the one that added it.
      rw [hfree] at hbefore hafter
      have hadd' : adds (runFrom (Pool.stepAt exec) c fst).state op' = some k := by
        by_contra hne
        exact hafter fun hm => hbefore (hk.spares hne hm)
      exact hnone pre i post hsplit
        ⟨op, k, hop, hadd, hmem, fst, j, snd, op', hfst, hi, hop', hadd'⟩

end Keys

end Interleave
