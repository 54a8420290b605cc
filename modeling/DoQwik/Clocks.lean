import DoQwik.Interleave

/-! Programs that read a clock. The clock never goes back, it is moved by a thread of its own, and
a log keeps what operations left behind even if the state forgets it. -/
namespace Interleave

universe u

section Operations

/-- An operation on the state, a look at the clock, or the clock moving on. -/
inductive TimedOp (Op : Type u) : Type u where
  | act (op : Op)
  | clock
  | tick (d : ℕ)

variable {Op : Type u} {σ : Type*}

def TimedOp.Ret (Ret : Op → Type) : TimedOp Op → Type
  | .act op => Ret op
  | .clock => ℤ
  | .tick _ => Unit

/-- The state with the clock and the log, the last entry first. -/
structure World (σ : Type*) (η : Type) where
  state : σ
  now : ℤ
  log : List η

variable {Ret : Op → Type} {η ε α β : Type}
variable (exec : (op : Op) → σ → σ × Ret op) (logs : Op → List η)

def execTimed : (op : TimedOp Op) → World σ η → World σ η × TimedOp.Ret Ret op
  | .act op, w => (⟨(exec op w.state).1, w.now, logs op ++ w.log⟩, (exec op w.state).2)
  | .clock, w => (w, w.now)
  | .tick d, w => (⟨w.state, w.now+d, w.log⟩, ())

/-- A program that does not look at the clock. -/
def Prog.timed : Prog Op Ret ε α → Prog (TimedOp Op) (TimedOp.Ret Ret) ε α
  | .done a => .done a
  | .fail e => .fail e
  | .call op k => .call (.act op) fun r => (k r).timed

def readClock : Prog (TimedOp Op) (TimedOp.Ret Ret) ε ℤ := Prog.perform (.clock : TimedOp Op)

def ticking (a : α) : List ℕ → Prog (TimedOp Op) (TimedOp.Ret Ret) ε α
  | [] => .done a
  | d :: ds => .call (.tick d) fun _ => ticking a ds

variable {exec logs}

theorem now_le_execTimed (op : TimedOp Op) (w : World σ η) :
    w.now ≤ (execTimed exec logs op w).1.now := by
  cases op with
  | act op => exact le_rfl
  | clock => exact le_rfl
  | tick d => exact le_add_of_nonneg_right (Int.natCast_nonneg d)

/-- What is new in the log was left by the operation. -/
theorem mem_log_execTimed {op : TimedOp Op} {w : World σ η} {e : η}
    (h : e ∈ (execTimed exec logs op w).1.log) :
    e ∈ w.log ∨ ∃ o, op = .act o ∧ e ∈ logs o := by
  cases op with
  | act o =>
    rcases List.mem_append.mp h with hnew | hold
    · exact Or.inr ⟨o, rfl, hnew⟩
    · exact Or.inl hold
  | clock => exact Or.inl h
  | tick d => exact Or.inl h

end Operations

section StillClock

variable {Op : Type u} {σ : Type*} {Ret : Op → Type} {η ε α β : Type}
variable (exec : (op : Op) → σ → σ × Ret op) (logs : Op → List η)

/-- As long as the clock stands still at `now`, the program does what `q` does. -/
def StandsFor (now : ℤ) (p : Prog (TimedOp Op) (TimedOp.Ret Ret) ε α) (q : Prog Op Ret ε α) :
    Prop :=
  ∀ w : World σ η, w.now = now →
    (p.run (execTimed exec logs) w).2 = (q.run exec w.state).2 ∧
      (p.run (execTimed exec logs) w).1.state = (q.run exec w.state).1 ∧
      (p.run (execTimed exec logs) w).1.now = now

variable {exec logs} {now : ℤ}

theorem StandsFor.timed (q : Prog Op Ret ε α) : StandsFor exec logs now q.timed q := by
  induction q with
  | done a => exact fun w hw => ⟨rfl, rfl, hw⟩
  | fail e => exact fun w hw => ⟨rfl, rfl, hw⟩
  | call op k ih => exact fun w hw => ih _ ⟨(exec op w.state).1, w.now, logs op ++ w.log⟩ hw

theorem StandsFor.bind {p : Prog (TimedOp Op) (TimedOp.Ret Ret) ε α} {q : Prog Op Ret ε α}
    {f : α → Prog (TimedOp Op) (TimedOp.Ret Ret) ε β} {g : α → Prog Op Ret ε β}
    (hp : StandsFor exec logs now p q) (hf : ∀ a, StandsFor exec logs now (f a) (g a)) :
    StandsFor exec logs now (p >>= f) (q >>= g) := by
  intro w hw
  obtain ⟨hanswer, hstate, hnow⟩ := hp w hw
  rw [Prog.run_bind, Prog.run_bind]
  rcases hrun : p.run (execTimed exec logs) w with ⟨w', r⟩
  rcases hrun' : q.run exec w.state with ⟨s', r'⟩
  rw [hrun, hrun'] at hanswer hstate
  rw [hrun] at hnow
  dsimp only at hanswer hstate hnow
  subst hanswer hstate
  cases r with
  | error e => exact ⟨rfl, rfl, hnow⟩
  | ok a => exact hf a w' hnow

theorem StandsFor.catchAll {p : Prog (TimedOp Op) (TimedOp.Ret Ret) ε α} {q : Prog Op Ret ε α}
    (hp : StandsFor exec logs now p q) (handler : ε → α) :
    StandsFor exec logs now (p.catchAll handler) (q.catchAll handler) := by
  intro w hw
  obtain ⟨hanswer, hstate, hnow⟩ := hp w hw
  rw [Prog.run_catchAll, Prog.run_catchAll, hanswer]
  exact ⟨rfl, hstate, hnow⟩

/-- A look at the clock gives the time at which it stands. -/
theorem StandsFor.readClock {f : ℤ → Prog (TimedOp Op) (TimedOp.Ret Ret) ε α}
    {q : Prog Op Ret ε α} (h : StandsFor exec logs now (f now) q) :
    StandsFor exec logs now (Interleave.readClock >>= f) q := by
  intro w hw
  have hrun : (Interleave.readClock >>= f).run (execTimed exec logs) w =
      (f w.now).run (execTimed exec logs) w := rfl
  rw [hrun, hw]
  exact h w hw

end StillClock

end Interleave
