import Mathlib

/-! Programs over atomic operations, their uninterrupted runs, and the interleavings of
a pool of them. -/
namespace Interleave

universe u

section Runs

variable {σ : Type*} {ι : Type*} (step : σ → ι → σ)

/-- The state after a list of inputs. -/
def runFrom (s : σ) (is : List ι) : σ := is.foldl step s

/-- `P` holds at every step of the run from `s`, of the state before it and the input. -/
def Along (P : σ → ι → Prop) : σ → List ι → Prop
  | _, [] => True
  | s, i :: is => P s i ∧ Along P (step s i) is

/-- `I` holds in every state of the run from `s`. -/
def Throughout (I : σ → Prop) (s : σ) (is : List ι) : Prop :=
  ∀ pre post, is = pre ++ post → I (runFrom step s pre)

instance decidableAlong (P : σ → ι → Prop) [∀ s i, Decidable (P s i)] :
    ∀ (s : σ) (is : List ι), Decidable (Along step P s is)
  | _, [] => .isTrue trivial
  | s, i :: is =>
    have := decidableAlong P (step s i) is
    inferInstanceAs (Decidable (P s i ∧ Along step P (step s i) is))

@[simp] theorem runFrom_nil (s : σ) : runFrom step s [] = s := rfl

@[simp] theorem runFrom_cons (s : σ) (i : ι) (is : List ι) :
    runFrom step s (i :: is) = runFrom step (step s i) is := rfl

theorem runFrom_append (s : σ) (is js : List ι) :
    runFrom step s (is ++ js) = runFrom step (runFrom step s is) js :=
  List.foldl_append

theorem along_append (P : σ → ι → Prop) (s : σ) (is js : List ι) :
    Along step P s (is ++ js) ↔ Along step P s is ∧ Along step P (runFrom step s is) js := by
  induction is generalizing s with
  | nil => simp [Along]
  | cons i is ih => simp only [List.cons_append, Along, ih, runFrom_cons, and_assoc]

/-- A property of the steps of every run, read off at one step of it. -/
theorem along_iff_split (P : σ → ι → Prop) (s : σ) (is : List ι) :
    Along step P s is ↔
      ∀ pre i post, is = pre ++ i :: post → P (runFrom step s pre) i := by
  constructor
  · rintro h pre i post rfl
    exact ((along_append step P s pre (i :: post)).mp h).2.1
  · intro h
    induction is generalizing s with
    | nil => trivial
    | cons i is ih =>
      refine ⟨h [] i is rfl, ih _ ?_⟩
      rintro pre j post rfl
      exact h (i :: pre) j post rfl

variable {step}

/-- The invariant rule: `I` holds at the start, and every step that meets `P` keeps it. -/
theorem invariant_runFrom {I : σ → Prop} {P : σ → ι → Prop}
    (hstep : ∀ s i, I s → P s i → I (step s i)) {s : σ} {is : List ι} (hs : I s)
    (h : Along step P s is) : I (runFrom step s is) := by
  induction is generalizing s with
  | nil => exact hs
  | cons i is ih => exact ih (hstep s i hs h.1) h.2

/-- An invariant that every step keeps. -/
theorem invariant_of_step {I : σ → Prop} (hstep : ∀ s i, I s → I (step s i)) {s : σ} (hs : I s)
    (is : List ι) : I (runFrom step s is) := by
  induction is generalizing s with
  | nil => exact hs
  | cons i is ih => exact ih (hstep s i hs)

/-- An invariant that the steps of the run keep. -/
theorem invariant_of_mem {I : σ → Prop} {is : List ι} (hstep : ∀ i ∈ is, ∀ s, I s → I (step s i))
    {s : σ} (hs : I s) : I (runFrom step s is) := by
  induction is generalizing s with
  | nil => exact hs
  | cons i is ih =>
    have hfirst : I (step s i) := hstep i List.mem_cons_self s hs
    exact ih (fun j hj => hstep j (List.mem_cons_of_mem i hj)) hfirst

/-- Under an invariant that the steps meeting `P` keep, what `P` gives at one step holds
along the run. -/
theorem along_of_invariant {I : σ → Prop} {P Q : σ → ι → Prop}
    (hstep : ∀ s i, I s → P s i → Q s i ∧ I (step s i)) {s : σ} {is : List ι} (hs : I s)
    (h : Along step P s is) : Along step Q s is := by
  induction is generalizing s with
  | nil => trivial
  | cons i is ih => exact ⟨(hstep s i hs h.1).1, ih (hstep s i hs h.1).2 h.2⟩

/-- Under an invariant, conditions on steps that come to the same hold along the same runs. -/
theorem along_congr {I : σ → Prop} {P Q : σ → ι → Prop} (hI : ∀ s i, I s → I (step s i))
    (hiff : ∀ s i, I s → (P s i ↔ Q s i)) {s : σ} (hs : I s) (is : List ι) :
    Along step P s is ↔ Along step Q s is := by
  constructor
  · exact along_of_invariant (fun t i ht hp => ⟨(hiff t i ht).mp hp, hI t i ht⟩) hs
  · exact along_of_invariant (fun t i ht hq => ⟨(hiff t i ht).mpr hq, hI t i ht⟩) hs

/-- Beside an invariant `J`, a property `I` of states holds throughout a run exactly when every
step meets `P`: such a step keeps `I`, and any other one breaks it. -/
theorem throughout_iff {I J : σ → Prop} {P : σ → ι → Prop} (hJ : ∀ s i, J s → J (step s i))
    (hiff : ∀ s i, J s → I s → (I (step s i) ↔ P s i)) {s : σ} (hs : I s) (hs' : J s)
    (is : List ι) : Throughout step I s is ↔ Along step P s is := by
  constructor
  · intro h
    rw [along_iff_split]
    intro pre i post his
    have hbefore : I (runFrom step s pre) := h pre (i :: post) his
    have hafter : I (runFrom step s (pre ++ [i])) := h (pre ++ [i]) post (by simpa using his)
    rw [runFrom_append, runFrom_cons, runFrom_nil] at hafter
    exact (hiff _ i (invariant_of_step hJ hs' pre) hbefore).mp hafter
  · rintro h pre post rfl
    have hpre := ((along_append step P s pre post).mp h).1
    refine (invariant_runFrom (I := fun t => I t ∧ J t) ?_ ⟨hs, hs'⟩ hpre).1
    rintro t i ⟨ht, ht'⟩ hi
    exact ⟨(hiff t i ht' ht).mpr hi, hJ t i ht'⟩

end Runs

/-- A program that issues atomic operations and continues with their results, and that
returns a value or throws. -/
inductive Prog (Op : Type u) (Ret : Op → Type) (ε α : Type) : Type u where
  | done (a : α)
  | fail (e : ε)
  | call (op : Op) (k : Ret op → Prog Op Ret ε α)

namespace Prog

variable {Op : Type u} {Ret : Op → Type} {ε α β : Type}

protected def bind : Prog Op Ret ε α → (α → Prog Op Ret ε β) → Prog Op Ret ε β
  | done a, f => f a
  | fail e, _ => fail e
  | call op k, f => call op fun r => (k r).bind f

instance : Monad (Prog Op Ret ε) where
  pure := done
  bind := Prog.bind

def perform (op : Op) : Prog Op Ret ε (Ret op) := call op done

def ofExcept : Except ε α → Prog Op Ret ε α
  | .ok a => done a
  | .error e => fail e

/-- Run to the end, turning an exception into a value. -/
def catchAll (h : ε → α) : Prog Op Ret ε α → Prog Op Ret ε α
  | done a => done a
  | fail e => done (h e)
  | call op k => call op fun r => (k r).catchAll h

section Execution

variable {σ : Type*} (exec : (op : Op) → σ → σ × Ret op)

/-- The uninterrupted run: the state it leaves, and its value or exception. -/
def run : Prog Op Ret ε α → σ → σ × Except ε α
  | done a, s => (s, .ok a)
  | fail e, s => (s, .error e)
  | call op k, s => (k (exec op s).2).run (exec op s).1

@[simp] theorem run_pure (a : α) (s : σ) :
    (pure a : Prog Op Ret ε α).run exec s = (s, .ok a) := rfl

theorem run_bind (p : Prog Op Ret ε α) (f : α → Prog Op Ret ε β) (s : σ) :
    (p >>= f).run exec s =
      match p.run exec s with
      | (s', .ok a) => (f a).run exec s'
      | (s', .error e) => (s', .error e) := by
  induction p generalizing s with
  | done a => rfl
  | fail e => rfl
  | call op k ih => exact ih _ _

/-- A second part that only returns leaves the state of the first one. -/
theorem run_bind_fst {f : α → Prog Op Ret ε β} (hf : ∀ a t, ((f a).run exec t).1 = t)
    (p : Prog Op Ret ε α) (s : σ) : ((p >>= f).run exec s).1 = (p.run exec s).1 := by
  rw [run_bind]
  rcases p.run exec s with ⟨t, e | a⟩
  · rfl
  · exact hf a t

theorem run_catchAll (h : ε → α) (p : Prog Op Ret ε α) (s : σ) :
    (p.catchAll h).run exec s =
      ((p.run exec s).1, .ok (match (p.run exec s).2 with | .ok a => a | .error e => h e)) := by
  induction p generalizing s with
  | done a => rfl
  | fail e => rfl
  | call op k ih => exact ih _ _

/-- Run from `s`, the program ends in a state and with a value that `Q` admits, unless it
throws. -/
def Ends (Q : σ → α → Prop) (p : Prog Op Ret ε α) (s : σ) : Prop :=
  ∀ t a, p.run exec s = (t, .ok a) → Q t a

/-- Run from any state, the program leaves the view `v` of the state as it was, also when it
throws. -/
def Keeps {γ : Type*} (v : σ → γ) (p : Prog Op Ret ε α) : Prop := ∀ s, v (p.run exec s).1 = v s

/-- Both runs throw the same exception, or both return and `V` relates the values. -/
def SameOutcome (V : α → β → Prop) : Except ε α → Except ε β → Prop
  | .ok a, .ok b => V a b
  | .error e, .error e' => e = e'
  | _, _ => False

/-- Run from two states that `R` relates, the programs have the same outcome up to `V` and
leave states that `R` relates. -/
def Related (R : σ → σ → Prop) (V : α → β → Prop) (p : Prog Op Ret ε α) (q : Prog Op Ret ε β) :
    Prop :=
  ∀ s s', R s s' → R (p.run exec s).1 (q.run exec s').1 ∧
    SameOutcome V (p.run exec s).2 (q.run exec s').2

def step (s : σ) : Prog Op Ret ε α → σ × Prog Op Ret ε α
  | call op k => ((exec op s).1, k (exec op s).2)
  | p => (s, p)

def next : Prog Op Ret ε α → Option Op
  | call op _ => some op
  | _ => none

/-- `p`, last continued in state `s`, issues only operations `op` with `Φ t op`, where `t`
is the state the program last saw, whatever other programs do in between within `R`. -/
def Follows (R : σ → σ → Prop) (Φ : σ → Op → Prop) (Q : σ → α → Prop) :
    σ → Prog Op Ret ε α → Prop
  | s, done a => Q s a
  | _, fail _ => True
  | s, call op k => Φ s op ∧ ∀ t, R s t → Follows R Φ Q (exec op t).1 (k (exec op t).2)

variable {exec}

theorem Ends.done {Q : σ → α → Prop} {s : σ} {a : α} (h : Q s a) :
    Ends exec Q (.done a : Prog Op Ret ε α) s := by
  intro t b hrun
  cases hrun
  exact h

theorem Ends.fail (Q : σ → α → Prop) (s : σ) (e : ε) :
    Ends exec Q (.fail e : Prog Op Ret ε α) s := by
  intro t a hrun
  cases hrun

/-- Sequencing: what the first part ends with is what the second part starts from. -/
theorem Ends.bind {Q : σ → β → Prop} {p : Prog Op Ret ε α} {f : α → Prog Op Ret ε β} {s : σ}
    (h : Ends exec (fun t a => Ends exec Q (f a) t) p s) : Ends exec Q (p >>= f) s := by
  intro t b hrun
  rw [run_bind] at hrun
  rcases hp : p.run exec s with ⟨t', r⟩
  rw [hp] at hrun
  cases r with
  | error e => cases hrun
  | ok a => exact h t' a hp t b hrun

theorem Ends.catchAll {Q : σ → α → Prop} {g : ε → α} (hg : ∀ t e, Q t (g e))
    {p : Prog Op Ret ε α} {s : σ} (h : Ends exec Q p s) : Ends exec Q (p.catchAll g) s := by
  intro t a hrun
  rw [run_catchAll] at hrun
  rcases hp : p.run exec s with ⟨t', r⟩
  rw [hp] at hrun
  cases r with
  | error e =>
    cases hrun
    exact hg t' e
  | ok b =>
    cases hrun
    exact h t' b hp

section Views

variable {γ : Type*} {v : σ → γ}

theorem Keeps.bind {p : Prog Op Ret ε α} {f : α → Prog Op Ret ε β} (hp : Keeps exec v p)
    (hf : ∀ a, Keeps exec v (f a)) : Keeps exec v (p >>= f) := by
  intro s
  have hfirst := hp s
  rw [run_bind]
  rcases hrun : p.run exec s with ⟨t, e | a⟩
  · rw [hrun] at hfirst
    exact hfirst
  · rw [hrun] at hfirst
    exact (hf a t).trans hfirst

theorem Keeps.catchAll {p : Prog Op Ret ε α} (hp : Keeps exec v p) (g : ε → α) :
    Keeps exec v (p.catchAll g) := by
  intro s
  rw [run_catchAll]
  exact hp s

end Views

section Pairs

variable {γ δ : Type} {R : σ → σ → Prop} {V : α → β → Prop} {W : γ → δ → Prop}

theorem SameOutcome.mono {V' : α → β → Prop} (hV : ∀ a b, V a b → V' a b) {x : Except ε α}
    {y : Except ε β} (h : SameOutcome V x y) : SameOutcome V' x y := by
  cases x with
  | error e =>
    cases y with
    | error e' => exact h
    | ok b => cases h
  | ok a =>
    cases y with
    | error e' => cases h
    | ok b => exact hV a b h

theorem Related.mono {V' : α → β → Prop} (hV : ∀ a b, V a b → V' a b) {p : Prog Op Ret ε α}
    {q : Prog Op Ret ε β} (h : Related exec R V p q) : Related exec R V' p q :=
  fun s s' hs => ⟨(h s s' hs).1, (h s s' hs).2.mono hV⟩

theorem Related.done {a : α} {b : β} (h : V a b) :
    Related exec R V (.done a : Prog Op Ret ε α) (.done b) :=
  fun _ _ hs => ⟨hs, h⟩

theorem Related.fail (V : α → β → Prop) (e : ε) :
    Related exec R V (.fail e : Prog Op Ret ε α) (.fail e) :=
  fun _ _ hs => ⟨hs, rfl⟩

theorem Related.bind {p : Prog Op Ret ε α} {q : Prog Op Ret ε β} {f : α → Prog Op Ret ε γ}
    {g : β → Prog Op Ret ε δ} (h : Related exec R V p q)
    (hk : ∀ a b, V a b → Related exec R W (f a) (g b)) :
    Related exec R W (p >>= f) (q >>= g) := by
  intro s s' hs
  obtain ⟨hstate, hvalue⟩ := h s s' hs
  rw [run_bind, run_bind]
  rcases hp : p.run exec s with ⟨t, x⟩
  rcases hq : q.run exec s' with ⟨t', y⟩
  rw [hp, hq] at hstate hvalue
  cases x with
  | error e =>
    cases y with
    | error e' => exact ⟨hstate, hvalue⟩
    | ok b => cases hvalue
  | ok a =>
    cases y with
    | error e' => cases hvalue
    | ok b => exact hk a b hvalue t t' hstate

theorem Related.catchAll {p : Prog Op Ret ε α} {q : Prog Op Ret ε β} {g : ε → α} {g' : ε → β}
    (hg : ∀ e, V (g e) (g' e)) (h : Related exec R V p q) :
    Related exec R V (p.catchAll g) (q.catchAll g') := by
  intro s s' hs
  obtain ⟨hstate, hvalue⟩ := h s s' hs
  rw [run_catchAll, run_catchAll]
  refine ⟨hstate, ?_⟩
  rcases hp : (p.run exec s).2 with e | a
  · rcases hq : (q.run exec s').2 with e' | b
    · rw [hp, hq] at hvalue
      cases hvalue
      exact hg e
    · rw [hp, hq] at hvalue
      cases hvalue
  · rcases hq : (q.run exec s').2 with e' | b
    · rw [hp, hq] at hvalue
      cases hvalue
    · rw [hp, hq] at hvalue
      exact hvalue

end Pairs

variable {R : σ → σ → Prop} {Φ : σ → Op → Prop}

/-- The program may look on from another state. -/
theorem Follows.of_state {Q : σ → α → Prop} {p : Prog Op Ret ε α} {s s' : σ}
    (h : Follows exec R Φ Q s p) (hΦ : ∀ op, Φ s op → Φ s' op) (hQ : ∀ a, Q s a → Q s' a)
    (hR : ∀ t, R s' t → R s t) : Follows exec R Φ Q s' p := by
  cases p with
  | done a => exact hQ a h
  | fail e => trivial
  | call op k => exact ⟨hΦ op h.1, fun t ht => h.2 t (hR t ht)⟩

theorem Follows.mono {Q Q' : σ → α → Prop} (hQ : ∀ t a, Q t a → Q' t a) {p : Prog Op Ret ε α}
    {s : σ} (h : Follows exec R Φ Q s p) : Follows exec R Φ Q' s p := by
  induction p generalizing s with
  | done a => exact hQ s a h
  | fail e => trivial
  | call op k ih => exact ⟨h.1, fun t ht => ih _ (h.2 t ht)⟩

/-- Fewer interferences leave less to follow. -/
theorem Follows.restrict {R' : σ → σ → Prop} {Q : σ → α → Prop} (hR : ∀ s t, R' s t → R s t)
    {p : Prog Op Ret ε α} {s : σ} (h : Follows exec R Φ Q s p) : Follows exec R' Φ Q s p := by
  induction p generalizing s with
  | done a => exact h
  | fail e => trivial
  | call op k ih => exact ⟨h.1, fun t ht => ih _ (h.2 t (hR s t ht))⟩

/-- Sequencing: the second part starts from the state that the first one last saw. -/
theorem Follows.bind {Q : σ → β → Prop} {p : Prog Op Ret ε α} {f : α → Prog Op Ret ε β} {s : σ}
    (h : Follows exec R Φ (fun t a => Follows exec R Φ Q t (f a)) s p) :
    Follows exec R Φ Q s (p >>= f) := by
  induction p generalizing s with
  | done a => exact h
  | fail e => trivial
  | call op k ih => exact ⟨h.1, fun t ht => ih _ (h.2 t ht)⟩

theorem Follows.catchAll {Q : σ → α → Prop} {g : ε → α} (hg : ∀ s e, Q s (g e)) {s : σ}
    {p : Prog Op Ret ε α} (h : Follows exec R Φ Q s p) : Follows exec R Φ Q s (p.catchAll g) := by
  induction p generalizing s with
  | done a => exact h
  | fail e => exact hg s e
  | call op k ih => exact ⟨h.1, fun t ht => ih _ (h.2 t ht)⟩

end Execution

end Prog

/-- A shared state and the programs that run on it. -/
structure Pool (σ : Type*) (Op : Type u) (Ret : Op → Type) (ε α : Type) where
  state : σ
  threads : List (Prog Op Ret ε α)

namespace Pool

variable {σ : Type*} {Op : Type u} {Ret : Op → Type} {ε α : Type}
variable (exec : (op : Op) → σ → σ × Ret op)

/-- Thread `i` takes its next step; a finished or absent thread does nothing. -/
def stepAt (c : Pool σ Op Ret ε α) (i : ℕ) : Pool σ Op Ret ε α :=
  match c.threads[i]? with
  | none => c
  | some p => ⟨(p.step exec c.state).1, c.threads.set i (p.step exec c.state).2⟩

def nextOp (c : Pool σ Op Ret ε α) (i : ℕ) : Option Op := (c.threads[i]?).bind Prog.next

theorem stepAt_of_call {c : Pool σ Op Ret ε α} {i : ℕ} {op : Op} {k : Ret op → Prog Op Ret ε α}
    (h : c.threads[i]? = some (.call op k)) :
    c.stepAt exec i = ⟨(exec op c.state).1, c.threads.set i (k (exec op c.state).2)⟩ := by
  simp only [stepAt, h, Prog.step]

/-- A step of a thread that waits for no operation changes nothing. -/
theorem stepAt_of_nextOp_none {c : Pool σ Op Ret ε α} {i : ℕ} (h : c.nextOp i = none) :
    c.stepAt exec i = c := by
  cases hp : c.threads[i]? with
  | none => simp only [stepAt, hp]
  | some p =>
    have hs : c.threads.set i p = c.threads := by
      obtain ⟨hi, hg⟩ := List.getElem?_eq_some_iff.mp hp
      rw [← hg, List.set_getElem_self]
    cases p with
    | done a => simp only [stepAt, hp, Prog.step, hs]
    | fail e => simp only [stepAt, hp, Prog.step, hs]
    | call op k => simp [nextOp, hp, Prog.next] at h

theorem call_of_nextOp {c : Pool σ Op Ret ε α} {i : ℕ} {op : Op} (h : c.nextOp i = some op) :
    ∃ k, c.threads[i]? = some (.call op k) := by
  obtain ⟨p, hp, hn⟩ := Option.bind_eq_some_iff.mp h
  cases p with
  | done a => simp [Prog.next] at hn
  | fail e => simp [Prog.next] at hn
  | call op' k =>
    simp only [Prog.next, Option.some.injEq] at hn
    subst hn
    exact ⟨k, hp⟩

/-- A step touches no other thread. -/
theorem threads_stepAt_ne (c : Pool σ Op Ret ε α) {i j : ℕ} (h : j ≠ i) :
    (c.stepAt exec i).threads[j]? = c.threads[j]? := by
  unfold stepAt
  cases c.threads[i]? with
  | none => rfl
  | some p => exact List.getElem?_set_ne (Ne.symm h)

/-- No thread comes or goes. -/
theorem isSome_threads_run (c : Pool σ Op Ret ε α) (is : List ℕ) (i : ℕ) :
    ((runFrom (stepAt exec) c is).threads[i]?).isSome = (c.threads[i]?).isSome := by
  have hlen : (runFrom (stepAt exec) c is).threads.length = c.threads.length := by
    refine invariant_of_step
      (I := fun c' : Pool σ Op Ret ε α => c'.threads.length = c.threads.length) ?_ rfl is
    intro c' j hc'
    rw [← hc']
    unfold stepAt
    cases c'.threads[j]? with
    | none => rfl
    | some q => exact List.length_set
  rw [Bool.eq_iff_iff]
  simp [hlen]

theorem threads_run_eq_none (c : Pool σ Op Ret ε α) (is : List ℕ) (i : ℕ) :
    (runFrom (stepAt exec) c is).threads[i]? = none ↔ c.threads[i]? = none := by
  rw [← Option.not_isSome_iff_eq_none, ← Option.not_isSome_iff_eq_none, isSome_threads_run]

/-- The thread that takes a step goes on with the result of its operation. -/
theorem threads_stepAt_self {c : Pool σ Op Ret ε α} {i : ℕ} {op : Op}
    {k : Ret op → Prog Op Ret ε α} (h : c.threads[i]? = some (.call op k)) :
    (c.stepAt exec i).threads[i]? = some (k (exec op c.state).2) := by
  rw [stepAt_of_call exec h]
  exact List.getElem?_set_self (List.getElem?_eq_some_iff.mp h).1

/-- A finished thread stays finished. -/
theorem done_stepAt {c : Pool σ Op Ret ε α} {j : ℕ} {a : α} (h : c.threads[j]? = some (.done a))
    (i : ℕ) : (c.stepAt exec i).threads[j]? = some (.done a) := by
  by_cases hji : j = i
  · subst hji
    rw [stepAt_of_nextOp_none exec (by simp [nextOp, h, Prog.next])]
    exact h
  · rw [threads_stepAt_ne exec c hji]
    exact h

/-- The state after a step is the state after the operation, if there is one. -/
theorem state_stepAt (c : Pool σ Op Ret ε α) (i : ℕ) :
    (c.stepAt exec i).state = (c.nextOp i).elim c.state fun op => (exec op c.state).1 := by
  cases h : c.nextOp i with
  | none => rw [stepAt_of_nextOp_none exec h, Option.elim_none]
  | some op =>
    obtain ⟨k, hk⟩ := call_of_nextOp h
    rw [stepAt_of_call exec hk, Option.elim_some]

variable {exec} {R : σ → σ → Prop} {Φ : σ → Op → Prop} {Q : σ → α → Prop}

/-- Every thread follows a rule of its own from the current state. -/
def FollowingEach (exec : (op : Op) → σ → σ × Ret op) (R : σ → σ → Prop) (Φ : ℕ → σ → Op → Prop)
    (Q : σ → α → Prop) (c : Pool σ Op Ret ε α) : Prop :=
  ∀ i p, c.threads[i]? = some p → Prog.Follows exec R (Φ i) Q c.state p

theorem FollowingEach.next {Φ : ℕ → σ → Op → Prop} {c : Pool σ Op Ret ε α}
    (h : c.FollowingEach exec R Φ Q) {i : ℕ} {op : Op} (ho : c.nextOp i = some op) :
    Φ i c.state op := by
  obtain ⟨k, hk⟩ := call_of_nextOp ho
  exact (h i _ hk).1

/-- A step keeps the rules when the waiting threads may look on from the new state. -/
theorem FollowingEach.stepAt {Φ : ℕ → σ → Op → Prop} {c : Pool σ Op Ret ε α}
    (h : c.FollowingEach exec R Φ Q) (hr : R c.state c.state) {i : ℕ}
    (hother : ∀ j op, j ≠ i → c.nextOp j = some op → Φ j (c.stepAt exec i).state op)
    (hdone : ∀ a, Q c.state a → Q (c.stepAt exec i).state a)
    (htrans : ∀ t, R (c.stepAt exec i).state t → R c.state t) :
    (c.stepAt exec i).FollowingEach exec R Φ Q := by
  cases hi : c.nextOp i with
  | none => rw [stepAt_of_nextOp_none exec hi]; exact h
  | some op =>
    obtain ⟨k, hk⟩ := call_of_nextOp hi
    intro j p hj
    rw [stepAt_of_call exec hk] at hj hother hdone htrans ⊢
    by_cases hji : j = i
    · subst hji
      have hl : j < c.threads.length := (List.getElem?_eq_some_iff.mp hk).1
      simp only [List.getElem?_set_self hl, Option.some.injEq] at hj
      subst hj
      exact (h j _ hk).2 c.state hr
    · simp only [List.getElem?_set_ne (Ne.symm hji)] at hj
      have hf := h j p hj
      cases p with
      | done a => exact hdone a hf
      | fail e => trivial
      | call op' k' =>
        refine ⟨hother j op' hji (by simp [nextOp, hj, Prog.next]), fun t ht => ?_⟩
        exact hf.2 t (htrans t ht)

/-- Every thread follows `Φ` from the current state. -/
def Following (exec : (op : Op) → σ → σ × Ret op) (R : σ → σ → Prop) (Φ : σ → Op → Prop)
    (Q : σ → α → Prop) (c : Pool σ Op Ret ε α) : Prop :=
  ∀ p ∈ c.threads, Prog.Follows exec R Φ Q c.state p

theorem following_iff_each {c : Pool σ Op Ret ε α} :
    c.Following exec R Φ Q ↔ c.FollowingEach exec R (fun _ => Φ) Q := by
  constructor
  · exact fun h i p hp => h p (List.mem_of_getElem? hp)
  · intro h p hp
    obtain ⟨i, hi⟩ := List.mem_iff_getElem?.mp hp
    exact h i p hi

theorem Following.next {c : Pool σ Op Ret ε α} (h : c.Following exec R Φ Q) {i : ℕ} {op : Op}
    (ho : c.nextOp i = some op) : Φ c.state op :=
  (following_iff_each.mp h).next ho

theorem Following.stepAt {c : Pool σ Op Ret ε α} (h : c.Following exec R Φ Q)
    (hr : R c.state c.state) {i : ℕ}
    (hother : ∀ j op, j ≠ i → c.nextOp j = some op → Φ (c.stepAt exec i).state op)
    (hdone : ∀ a, Q c.state a → Q (c.stepAt exec i).state a)
    (htrans : ∀ t, R (c.stepAt exec i).state t → R c.state t) :
    (c.stepAt exec i).Following exec R Φ Q :=
  following_iff_each.mpr ((following_iff_each.mp h).stepAt hr hother hdone htrans)

end Pool

end Interleave
