import DoQwik.Footprints
import DoQwik.Interference

/-! Programs that start others without waiting for them. An operation may add a program to the
pool; the threads are led through their stages, and an invariant of the shared state and of all
stages is carried from step to step. -/
namespace Interleave

universe u

variable {σ : Type*} {γ : Type*} {Op : Type u} {Ret : Op → Type} {ε α : Type}
variable (exec : (op : Op) → σ → σ × Ret op) (spawns : Op → Option (Prog Op Ret ε α))

/-- Thread `i` takes its next step, and the program that its operation starts joins the pool. -/
def Pool.growAt (c : Pool σ Op Ret ε α) (i : ℕ) : Pool σ Op Ret ε α where
  state := (c.stepAt exec i).state
  threads := (c.stepAt exec i).threads ++ ((c.nextOp i).bind spawns).toList

variable {exec spawns} {c : Pool σ Op Ret ε α}

theorem Pool.growAt_of_call {i : ℕ} {op : Op} {k : Ret op → Prog Op Ret ε α}
    (h : c.threads[i]? = some (.call op k)) :
    c.growAt exec spawns i =
      ⟨(exec op c.state).1, c.threads.set i (k (exec op c.state).2) ++ (spawns op).toList⟩ := by
  have hop : c.nextOp i = some op := by simp [Pool.nextOp, h, Prog.next]
  simp only [Pool.growAt, Pool.stepAt_of_call exec h, hop, Option.bind_some]

theorem Pool.growAt_of_nextOp_none {i : ℕ} (h : c.nextOp i = none) :
    c.growAt exec spawns i = c := by
  simp [Pool.growAt, Pool.stepAt_of_nextOp_none exec h, h]

section Stages

variable {Step : γ → Op → σ → γ → Prop} {Q : γ → α → Prop} {E : γ → Prop}

def Staged (exec : (op : Op) → σ → σ × Ret op) (Step : γ → Op → σ → γ → Prop) (Q : γ → α → Prop)
    (E : γ → Prop) (gs : List γ) (c : Pool σ Op Ret ε α) : Prop :=
  List.Forall₂ (Prog.Tracks exec Step Q E) gs c.threads

/-- The program that an operation starts is at the stage that `first` names. -/
def StartsAt (exec : (op : Op) → σ → σ × Ret op) (Step : γ → Op → σ → γ → Prop)
    (Q : γ → α → Prop) (E : γ → Prop) (spawns : Op → Option (Prog Op Ret ε α))
    (first : Op → Option γ) : Prop :=
  ∀ op, List.Forall₂ (Prog.Tracks exec Step Q E) (first op).toList (spawns op).toList

variable {first : Op → Option γ} {gs : List γ}

/-- A step of the pool is a step of the stage of one thread, and adds the stage of the program
that it starts. -/
theorem Staged.growAt (hfirst : StartsAt exec Step Q E spawns first)
    (h : Staged exec Step Q E gs c) {i : ℕ} {op : Op} (hop : c.nextOp i = some op) :
    ∃ l g r g', gs = l ++ g :: r ∧ Step g op c.state g' ∧
      Staged exec Step Q E (l ++ g' :: r ++ (first op).toList) (c.growAt exec spawns i) := by
  obtain ⟨k, hk⟩ := Pool.call_of_nextOp hop
  obtain ⟨hi, hget⟩ := List.getElem?_eq_some_iff.mp hk
  -- The stages split where the threads do.
  have hbefore := List.forall₂_take i h
  have hfrom := List.forall₂_drop i h
  rw [← List.cons_getElem_drop_succ (h := hi), hget, List.forall₂_cons_right_iff] at hfrom
  obtain ⟨g, r, hg, hafter, hr⟩ := hfrom
  obtain ⟨g', hstep, hrest⟩ := hg c.state
  refine ⟨gs.take i, g, r, g', ?_, hstep, ?_⟩
  · rw [← hr, List.take_append_drop]
  · have hthread : List.Forall₂ (Prog.Tracks exec Step Q E) (gs.take i ++ g' :: r)
        (c.threads.take i ++ k (exec op c.state).2 :: c.threads.drop (i + 1)) :=
      List.rel_append hbefore (.cons hrest hafter)
    unfold Staged
    rw [Pool.growAt_of_call hk, List.set_eq_take_append_cons_drop, if_pos hi]
    exact List.rel_append hthread (hfirst op)

/-- The invariant rule for the state and the stages together. -/
theorem Staged.run {I : σ → List γ → Prop} (hfirst : StartsAt exec Step Q E spawns first)
    (hstep : ∀ s l g r op g', I s (l ++ g :: r) → Step g op s g' →
      I (exec op s).1 (l ++ g' :: r ++ (first op).toList))
    (h : Staged exec Step Q E gs c) (hI : I c.state gs) (sched : List ℕ) :
    ∃ gs', Staged exec Step Q E gs' (runFrom (Pool.growAt exec spawns) c sched) ∧
      I (runFrom (Pool.growAt exec spawns) c sched).state gs' := by
  induction sched generalizing c gs with
  | nil => exact ⟨gs, h, hI⟩
  | cons i sched ih =>
    rw [runFrom_cons]
    cases hop : c.nextOp i with
    | none =>
      rw [Pool.growAt_of_nextOp_none hop]
      exact ih h hI
    | some op =>
      obtain ⟨l, g, r, g', rfl, hg, hnext⟩ := h.growAt hfirst hop
      have hstate : (c.growAt exec spawns i).state = (exec op c.state).1 := by
        obtain ⟨k, hk⟩ := Pool.call_of_nextOp hop
        rw [Pool.growAt_of_call hk]
      refine ih hnext ?_
      rw [hstate]
      exact hstep c.state l g r op g' hI hg

/-- In a finished pool every thread is at a stage in which it may end. -/
theorem Staged.ended (h : Staged exec Step Q E gs c) (hdone : c.finished = true) :
    ∀ g ∈ gs, (∃ a, Q g a) ∨ E g := by
  intro g hg
  obtain ⟨i, hi, rfl⟩ := List.getElem_of_mem hg
  have hi' : i < c.threads.length := h.length_eq ▸ hi
  have htracks : Prog.Tracks exec Step Q E gs[i] c.threads[i] := h.get hi hi'
  have hend : (c.threads[i]).next = none := by
    have hnext := Pool.finished_iff.mp hdone i
    simpa [Pool.nextOp, hi'] using hnext
  cases hp : c.threads[i] with
  | done a =>
    rw [hp] at htracks
    exact Or.inl ⟨a, htracks⟩
  | fail e =>
    rw [hp] at htracks
    exact Or.inr htracks
  | call op k =>
    rw [hp] at hend
    cases hend

end Stages

end Interleave
