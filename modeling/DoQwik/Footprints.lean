import DoQwik.Interference

/-! Programs that keep to a part of the shared state. A part is given by a view of the state:
a program confined to the view computes from it alone, and a program clear of the view leaves it
alone. If one thread of a pool is confined to a view and all others are clear of it, then no
schedule can tell the thread that it is not alone. -/
namespace Interleave

universe u

variable {σ : Type*} {γ : Type*} {Op : Type u} {Ret : Op → Type} {ε α : Type}
variable (exec : (op : Op) → σ → σ × Ret op) (v : σ → γ)

/-- The result of the operation, and what it makes of the view, depend on the view alone. -/
def ActsWithin (op : Op) : Prop :=
  ∀ s t, v s = v t → (exec op s).2 = (exec op t).2 ∧ v (exec op s).1 = v (exec op t).1

def LeavesView (op : Op) : Prop := ∀ s, v (exec op s).1 = v s

namespace Prog

/-- Every operation that the program can come to issue meets `Φ`. -/
abbrev Issues (Φ : Op → Prop) (p : Prog Op Ret ε α) : Prop :=
  Tracks exec (fun (_ : Unit) op _ _ => Φ op) (fun _ _ => True) (fun _ => True) () p

variable {exec v}

theorem Issues.imp {Φ Ψ : Op → Prop} (hΦ : ∀ op, Φ op → Ψ op) {p : Prog Op Ret ε α}
    (h : p.Issues exec Φ) : p.Issues exec Ψ := by
  induction p with
  | done a => trivial
  | fail e => trivial
  | call op k ih =>
    intro t
    obtain ⟨_, hop, hrest⟩ := h t
    exact ⟨(), hΦ op hop, ih _ hrest⟩

/-- A program that is clear of the view leaves it alone. -/
theorem Issues.keeps {p : Prog Op Ret ε α} (h : p.Issues exec (LeavesView exec v)) :
    Keeps exec v p := by
  intro t
  induction p generalizing t with
  | done a => rfl
  | fail e => rfl
  | call op k ih =>
    obtain ⟨_, hop, hrest⟩ := h t
    exact (ih _ hrest _).trans (hop t)

/-- Run from states that look the same through the view, a confined program has the same outcome
and leaves states that look the same. -/
theorem Issues.run_congr {s t : σ} {p : Prog Op Ret ε α} (h : p.Issues exec (ActsWithin exec v))
    (hst : v s = v t) :
    (p.run exec s).2 = (p.run exec t).2 ∧ v (p.run exec s).1 = v (p.run exec t).1 := by
  induction p generalizing s t with
  | done a => exact ⟨rfl, hst⟩
  | fail e => exact ⟨rfl, hst⟩
  | call op k ih =>
    obtain ⟨_, hop, hrest⟩ := h t
    obtain ⟨hret, hview⟩ := hop s t hst
    have hafter := ih (exec op t).2 hrest hview
    simp only [run]
    rw [hret]
    exact hafter

end Prog

namespace Pool

def finished (c : Pool σ Op Ret ε α) : Bool := c.threads.all fun p => p.next.isNone

theorem finished_iff {c : Pool σ Op Ret ε α} : c.finished = true ↔ ∀ i, c.nextOp i = none := by
  simp only [finished, List.all_eq_true, Option.isNone_iff_eq_none]
  constructor
  · intro h i
    cases hp : c.threads[i]? with
    | none => simp [nextOp, hp]
    | some p => simpa [nextOp, hp] using h p (List.mem_of_getElem? hp)
  · intro h p hp
    obtain ⟨i, hi⟩ := List.mem_iff_getElem?.mp hp
    simpa [nextOp, hi] using h i

end Pool

section Pools

variable {exec v} {c : Pool σ Op Ret ε α} {i : ℕ} {p : Prog Op Ret ε α}

def Pool.Issuing (exec : (op : Op) → σ → σ × Ret op) (Φ : ℕ → Op → Prop) (c : Pool σ Op Ret ε α) :
    Prop :=
  ∀ (j : ℕ) (p : Prog Op Ret ε α), c.threads[j]? = some p → p.Issues exec (Φ j)

theorem Pool.Issuing.next {Φ : ℕ → Op → Prop} (h : c.Issuing exec Φ) {j : ℕ} {op : Op}
    (hop : c.nextOp j = some op) : Φ j op := by
  obtain ⟨k, hk⟩ := Pool.call_of_nextOp hop
  obtain ⟨-, hown, -⟩ := h j _ hk c.state
  exact hown

theorem Pool.Issuing.stepAt {Φ : ℕ → Op → Prop} (h : c.Issuing exec Φ) (j : ℕ) :
    (c.stepAt exec j).Issuing exec Φ := by
  intro l q hq
  by_cases hl : l = j
  · subst hl
    cases hop : c.nextOp l with
    | none =>
      rw [Pool.stepAt_of_nextOp_none exec hop] at hq
      exact h l q hq
    | some op =>
      obtain ⟨k, hk⟩ := Pool.call_of_nextOp hop
      rw [Pool.threads_stepAt_self exec hk, Option.some.injEq] at hq
      obtain ⟨_, -, hrest⟩ := h l _ hk c.state
      exact hq ▸ hrest
  · rw [Pool.threads_stepAt_ne exec c hl] at hq
    exact h l q hq

/-- Thread `i` is confined to the view, and the other threads are clear of it. -/
abbrev Secluded (exec : (op : Op) → σ → σ × Ret op) (v : σ → γ) (i : ℕ) (c : Pool σ Op Ret ε α) :
    Prop :=
  c.Issuing exec fun j op => if j = i then ActsWithin exec v op else LeavesView exec v op

/-- A step of another thread leaves the view alone. -/
theorem Secluded.view_stepAt_ne (h : Secluded exec v i c) {j : ℕ} (hj : j ≠ i) :
    v (c.stepAt exec j).state = v c.state := by
  rw [Pool.state_stepAt]
  cases hop : c.nextOp j with
  | none => rfl
  | some op =>
    have hleaves := h.next hop
    rw [if_neg hj] at hleaves
    exact hleaves c.state

/-- Whatever the schedule, what is left of the secluded thread has the outcome that the thread
has alone, and makes of the view what the thread makes of it alone. -/
theorem Secluded.run (h : Secluded exec v i c) (hp : c.threads[i]? = some p) (sched : List ℕ) :
    ∃ q, (runFrom (Pool.stepAt exec) c sched).threads[i]? = some q ∧
      (q.run exec (runFrom (Pool.stepAt exec) c sched).state).2 = (p.run exec c.state).2 ∧
      v (q.run exec (runFrom (Pool.stepAt exec) c sched).state).1 = v (p.run exec c.state).1 := by
  induction sched generalizing c p with
  | nil => exact ⟨p, hp, rfl, rfl⟩
  | cons j sched ih =>
    rw [runFrom_cons]
    by_cases hj : j = i
    · subst hj
      cases p with
      | call op k =>
        have hq := ih (h.stepAt j) (Pool.threads_stepAt_self exec hp)
        rwa [show (c.stepAt exec j).state = (exec op c.state).1 by
          rw [Pool.stepAt_of_call exec hp]] at hq
      | _ =>
        have hstay : c.stepAt exec j = c :=
          Pool.stepAt_of_nextOp_none exec (by simp [Pool.nextOp, hp, Prog.next])
        rw [hstay]
        exact ih h hp
    · -- Another thread moves: the outcome of this one depends on the view, which is the same.
      have hsame : (c.stepAt exec j).threads[i]? = some p := by
        rw [Pool.threads_stepAt_ne exec c (Ne.symm hj)]
        exact hp
      obtain ⟨q, hq, hout, hview⟩ := ih (h.stepAt j) hsame
      have hown : p.Issues exec (ActsWithin exec v) := by
        have hi := h i p hp
        simp only [if_true] at hi
        exact hi
      have hrun := hown.run_congr (h.view_stepAt_ne hj)
      exact ⟨q, hq, hout.trans hrun.1, hview.trans hrun.2⟩

/-- A secluded thread that has ended has the outcome that it has alone, and has left the view as
it leaves it alone. -/
theorem Secluded.ended (h : Secluded exec v i c) (hp : c.threads[i]? = some p) {sched : List ℕ}
    (hend : (runFrom (Pool.stepAt exec) c sched).nextOp i = none) :
    (runFrom (Pool.stepAt exec) c sched).threads[i]? = some (.ofExcept (p.run exec c.state).2) ∧
      v (runFrom (Pool.stepAt exec) c sched).state = v (p.run exec c.state).1 := by
  obtain ⟨q, hq, hout, hview⟩ := h.run hp sched
  cases q with
  | done a =>
    rw [← hout]
    exact ⟨hq, hview⟩
  | fail e =>
    rw [← hout]
    exact ⟨hq, hview⟩
  | call op k => simp [Pool.nextOp, hq, Prog.next] at hend

/-- A view that all threads are clear of stays as it is. -/
theorem view_run_of_leaves (h : ∀ p ∈ c.threads, p.Issues exec (LeavesView exec v))
    (sched : List ℕ) : v (runFrom (Pool.stepAt exec) c sched).state = v c.state := by
  have hissuing : c.Issuing exec fun _ => LeavesView exec v :=
    fun j p hp => h p (List.mem_of_getElem? hp)
  clear h
  induction sched generalizing c with
  | nil => rfl
  | cons j sched ih =>
    rw [runFrom_cons, ih (hissuing.stepAt j), Pool.state_stepAt]
    cases hop : c.nextOp j with
    | none => rfl
    | some op => exact hissuing.next hop c.state

/-- Left to itself, a thread comes to its end, and no other thread is touched. -/
theorem exists_finish_thread (exec : (op : Op) → σ → σ × Ret op) (hp : c.threads[i]? = some p) :
    ∃ n, (runFrom (Pool.stepAt exec) c (List.replicate n i)).nextOp i = none ∧
      ∀ j, j ≠ i → (runFrom (Pool.stepAt exec) c (List.replicate n i)).nextOp j = c.nextOp j := by
  induction p generalizing c with
  | done a => exact ⟨0, by simp [Pool.nextOp, hp, Prog.next], fun _ _ => rfl⟩
  | fail e => exact ⟨0, by simp [Pool.nextOp, hp, Prog.next], fun _ _ => rfl⟩
  | call op k ih =>
    obtain ⟨n, hend, hothers⟩ := ih _ (Pool.threads_stepAt_self exec hp)
    refine ⟨n + 1, hend, fun j hj => ?_⟩
    rw [List.replicate_succ, runFrom_cons, hothers j hj]
    simp only [Pool.nextOp, Pool.threads_stepAt_ne exec c hj]

/-- Every pool can be run to its end. -/
theorem exists_finish (exec : (op : Op) → σ → σ × Ret op) (c : Pool σ Op Ret ε α) :
    ∃ sched, (runFrom (Pool.stepAt exec) c sched).finished = true := by
  -- The threads before `n` are brought to their ends one after the other.
  have hfirst : ∀ n, ∃ sched, ∀ i < n, (runFrom (Pool.stepAt exec) c sched).nextOp i = none := by
    intro n
    induction n with
    | zero => exact ⟨[], fun i hi => absurd hi (Nat.not_lt_zero i)⟩
    | succ n ih =>
      obtain ⟨sched, hsched⟩ := ih
      cases hp : (runFrom (Pool.stepAt exec) c sched).threads[n]? with
      | none =>
        refine ⟨sched, fun i hi => ?_⟩
        rcases Nat.lt_succ_iff_lt_or_eq.mp hi with hi | rfl
        · exact hsched i hi
        · simp [Pool.nextOp, hp]
      | some p =>
        obtain ⟨m, hend, hothers⟩ := exists_finish_thread exec hp
        refine ⟨sched ++ List.replicate m n, fun i hi => ?_⟩
        rw [runFrom_append]
        rcases Nat.lt_succ_iff_lt_or_eq.mp hi with hi | rfl
        · rw [hothers i (Nat.ne_of_lt hi)]
          exact hsched i hi
        · exact hend
  obtain ⟨sched, hsched⟩ := hfirst c.threads.length
  refine ⟨sched, Pool.finished_iff.mpr fun i => ?_⟩
  by_cases hi : i < c.threads.length
  · exact hsched i hi
  · have hnone : (runFrom (Pool.stepAt exec) c sched).threads[i]? = none := by
      rw [Pool.threads_run_eq_none]
      exact List.getElem?_eq_none (Nat.le_of_not_lt hi)
    simp [Pool.nextOp, hnone]

end Pools

section InTurn

variable {exec v}

def runInTurn (exec : (op : Op) → σ → σ × Ret op) (s : σ) (ps : List (Prog Op Ret ε α)) : σ :=
  runFrom (fun s p => (p.run exec s).1) s ps

theorem runInTurn_append (s : σ) (ps qs : List (Prog Op Ret ε α)) :
    runInTurn exec s (ps ++ qs) = runInTurn exec (runInTurn exec s ps) qs :=
  runFrom_append _ s ps qs

theorem view_runInTurn {ps : List (Prog Op Ret ε α)}
    (h : ∀ p ∈ ps, p.Issues exec (LeavesView exec v)) (s : σ) : v (runInTurn exec s ps) = v s :=
  invariant_of_mem (I := fun t => v t = v s) (fun p hp t ht => ((h p hp).keeps t).trans ht) rfl

/-- Run among programs that are clear of its view, a confined program makes of the view what it
makes of it alone. -/
theorem view_runInTurn_of_mem {ps qs : List (Prog Op Ret ε α)} {p : Prog Op Ret ε α}
    (hp : p.Issues exec (ActsWithin exec v))
    (h : ∀ q ∈ ps ++ qs, q.Issues exec (LeavesView exec v)) (s : σ) :
    v (runInTurn exec s (ps ++ p :: qs)) = v (p.run exec s).1 := by
  have hbefore : v (runInTurn exec s ps) = v s :=
    view_runInTurn (fun q hq => h q (List.mem_append_left qs hq)) s
  have hafter := view_runInTurn (fun q hq => h q (List.mem_append_right ps hq))
    (p.run exec (runInTurn exec s ps)).1
  rw [runInTurn_append]
  exact hafter.trans (hp.run_congr hbefore).2

end InTurn

end Interleave
