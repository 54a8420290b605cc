import DoQwik.Footprints

/-! Threads that take turns. Every thread has a key; it is confined to the view of its key and
clear of the views of all other keys. As long as no two threads of one key are under way at the
same time, the threads might as well run one after the other, in the order in which they end. -/
namespace Interleave

universe u

variable {σ : Type*} {γ κ : Type*} {Op : Type u} {Ret : Op → Type} {ε α : Type}

section Traces

/-- A pool, with the threads that have begun, and with those that have ended in the order of their
ends. -/
structure Trace (σ : Type*) (Op : Type u) (Ret : Op → Type) (ε α : Type) where
  pool : Pool σ Op Ret ε α
  begun : List ℕ
  ended : List ℕ

/-- At the start, threads without any operation have ended. -/
def Trace.start (c : Pool σ Op Ret ε α) : Trace σ Op Ret ε α where
  pool := c
  begun := []
  ended := (List.range c.threads.length).filter fun i => (c.nextOp i).isNone

variable (exec : (op : Op) → σ → σ × Ret op)

def Trace.stepAt (t : Trace σ Op Ret ε α) (i : ℕ) : Trace σ Op Ret ε α where
  pool := t.pool.stepAt exec i
  begun := i :: t.begun
  ended :=
    if (t.pool.nextOp i).isSome && ((t.pool.stepAt exec i).nextOp i).isNone
    then t.ended ++ [i] else t.ended

/-- No other thread of the same key is under way. -/
def Trace.Vacant (key : ℕ → κ) (t : Trace σ Op Ret ε α) (i : ℕ) : Prop :=
  ∀ j ∈ t.begun, j ≠ i → key j = key i → (t.pool.nextOp j).isNone = true

instance (key : ℕ → κ) [DecidableEq κ] (t : Trace σ Op Ret ε α) (i : ℕ) :
    Decidable (t.Vacant key i) :=
  inferInstanceAs (Decidable (∀ j ∈ t.begun, j ≠ i → key j = key i → _))

/-- In the schedule, a thread takes a step only if no other thread of its key is under way. -/
abbrev TakeTurns (key : ℕ → κ) (c : Pool σ Op Ret ε α) (sched : List ℕ) : Prop :=
  Along (Trace.stepAt exec) (Trace.Vacant key) (Trace.start c) sched

theorem pool_runFrom (t : Trace σ Op Ret ε α) (sched : List ℕ) :
    (runFrom (Trace.stepAt exec) t sched).pool = runFrom (Pool.stepAt exec) t.pool sched := by
  induction sched generalizing t with
  | nil => rfl
  | cons i sched ih => exact ih (t.stepAt exec i)

end Traces

section Serial

variable (exec : (op : Op) → σ → σ × Ret op)

/-- The threads of the list run one after the other. -/
def serial (s : σ) (ps : List (Prog Op Ret ε α)) (order : List ℕ) : σ :=
  runInTurn exec s (order.filterMap fun i => ps[i]?)

variable {exec} {s : σ} {ps : List (Prog Op Ret ε α)}

theorem serial_concat {i : ℕ} {p : Prog Op Ret ε α} (hp : ps[i]? = some p) (order : List ℕ) :
    serial exec s ps (order ++ [i]) = (p.run exec (serial exec s ps order)).1 := by
  unfold serial
  rw [List.filterMap_append, runInTurn_append]
  simp only [List.filterMap_cons, hp, List.filterMap_nil]
  rfl

end Serial

section Turns

variable (exec : (op : Op) → σ → σ × Ret op) (v : κ → σ → γ)

/-- The operation acts within the view of the key, and leaves the other views alone. -/
structure Confined (k : κ) (op : Op) : Prop where
  acts : ActsWithin exec (v k) op
  leaves : ∀ l, l ≠ k → LeavesView exec (v l) op

/-- What is left of a thread ends as the whole program would from another state: with the same
outcome, and with the same view of its key. -/
structure EndsLike (k : κ) (q : Prog Op Ret ε α) (s : σ) (p : Prog Op Ret ε α) (t : σ) : Prop where
  outcome : (q.run exec s).2 = (p.run exec t).2
  view : v k (q.run exec s).1 = v k (p.run exec t).1

/-- The trace agrees with its ended threads run one after the other. -/
structure InTurn (key : ℕ → κ) (s : σ) (ps : List (Prog Op Ret ε α)) (t : Trace σ Op Ret ε α) :
    Prop where
  confined : t.pool.Issuing exec fun i => Confined exec v (key i)
  threads : ∀ i : ℕ, (t.pool.threads[i]?).isSome = (ps[i]?).isSome
  nodup : t.ended.Nodup
  ended : ∀ i, i ∈ t.ended ↔ (ps[i]?).isSome = true ∧ t.pool.nextOp i = none
  waiting : ∀ i, i ∉ t.begun → t.pool.threads[i]? = ps[i]?
  underway : ∀ i p q, i ∈ t.begun → ps[i]? = some p → t.pool.threads[i]? = some q →
    t.pool.nextOp i ≠ none → EndsLike exec v (key i) q t.pool.state p (serial exec s ps t.ended)
  idle : ∀ k, (∀ j ∈ t.begun, key j = k → t.pool.nextOp j = none) →
    v k t.pool.state = v k (serial exec s ps t.ended)
  answers : ∀ pre i post p, t.ended = pre ++ i :: post → ps[i]? = some p →
    t.pool.threads[i]? = some (.ofExcept (p.run exec (serial exec s ps pre)).2)

variable {exec v} {key : ℕ → κ} {s : σ} {ps : List (Prog Op Ret ε α)} {t : Trace σ Op Ret ε α}
  {i : ℕ}

/-- The programs of the threads are confined to the views of their keys. -/
abbrev AllConfined (exec : (op : Op) → σ → σ × Ret op) (v : κ → σ → γ) (key : ℕ → κ)
    (ps : List (Prog Op Ret ε α)) : Prop :=
  ∀ (i : ℕ) (p : Prog Op Ret ε α), ps[i]? = some p → p.Issues exec (Confined exec v (key i))

theorem issues_acts {k : κ} {p : Prog Op Ret ε α} (h : p.Issues exec (Confined exec v k)) :
    p.Issues exec (ActsWithin exec (v k)) := h.imp fun _ hop => hop.acts

/-- Another key's view survives the whole program. -/
theorem view_run_of_ne {k l : κ} {p : Prog Op Ret ε α} (h : p.Issues exec (Confined exec v k))
    (hl : l ≠ k) (s : σ) : v l (p.run exec s).1 = v l s :=
  (h.imp fun _ hop => hop.leaves l hl).keeps s

theorem EndsLike.congr {k : κ} {q p : Prog Op Ret ε α} {s s' t t' : σ}
    (h : EndsLike exec v k q s p t) (hq : q.Issues exec (Confined exec v k))
    (hp : p.Issues exec (Confined exec v k)) (hs : v k s' = v k s) (ht : v k t' = v k t) :
    EndsLike exec v k q s' p t' := by
  have hq' := (issues_acts hq).run_congr hs
  have hp' := (issues_acts hp).run_congr ht
  constructor
  · rw [hq'.1, hp'.1]
    exact h.outcome
  · rw [hq'.2, hp'.2]
    exact h.view

/-- A thread that may take a step ends as it would if the ended threads had run before it. -/
theorem InTurn.own (h : InTurn exec v key s ps t) (hps : AllConfined exec v key ps)
    (hi : t.Vacant key i) {p q : Prog Op Ret ε α} (hp : ps[i]? = some p)
    (hq : t.pool.threads[i]? = some q) (hop : t.pool.nextOp i ≠ none) :
    EndsLike exec v (key i) q t.pool.state p (serial exec s ps t.ended) := by
  by_cases hb : i ∈ t.begun
  · exact h.underway i p q hb hp hq hop
  · -- It has not begun, and so nobody is under way with its key.
    have hqp : q = p := by
      rw [h.waiting i hb, hp, Option.some.injEq] at hq
      exact hq.symm
    subst hqp
    have hview := h.idle (key i) fun j hj hkey => by
      have hne : j ≠ i := fun hji => hb (hji ▸ hj)
      exact Option.isNone_iff_eq_none.mp (hi j hj hne hkey)
    have hrun := (issues_acts (hps i q hp)).run_congr hview
    exact ⟨hrun.1, hrun.2⟩

variable (exec) in
theorem nextOp_stepAt_ne (c : Pool σ Op Ret ε α) {j : ℕ} (h : j ≠ i) :
    (c.stepAt exec i).nextOp j = c.nextOp j := by
  unfold Pool.nextOp
  rw [Pool.threads_stepAt_ne exec c h]

section Step

variable {op : Op} {order : List ℕ} (h : InTurn exec v key s ps t) (hi : t.Vacant key i)
  (hop : t.pool.nextOp i = some op)
  (horder : ∀ l, l ≠ key i → v l (serial exec s ps order) = v l (serial exec s ps t.ended))
include h hop

/-- A step leaves the views of other keys alone. -/
theorem InTurn.view_stepAt {l : κ} (hl : l ≠ key i) :
    v l (t.pool.stepAt exec i).state = v l t.pool.state := by
  rw [Pool.state_stepAt, hop]
  exact (h.confined.next hop).leaves l hl t.pool.state

include horder

theorem InTurn.idle_ne {l : κ} (hl : l ≠ key i)
    (hidle : ∀ j ∈ i :: t.begun, key j = l → (t.pool.stepAt exec i).nextOp j = none) :
    v l (t.pool.stepAt exec i).state = v l (serial exec s ps order) := by
  rw [h.view_stepAt hop hl, horder l hl]
  apply h.idle
  intro j hj hkey
  have hne : j ≠ i := fun hji => hl (hkey.symm.trans (congrArg key hji))
  rw [← nextOp_stepAt_ne exec t.pool hne]
  exact hidle j (List.mem_cons_of_mem i hj) hkey

include hi

/-- The other threads that are under way have other keys, and do not notice the step. -/
theorem InTurn.underway_ne (hps : AllConfined exec v key ps) {j : ℕ} {p q : Prog Op Ret ε α}
    (hne : j ≠ i) (hj : j ∈ i :: t.begun) (hp : ps[j]? = some p)
    (hq : (t.pool.stepAt exec i).threads[j]? = some q)
    (hnext : (t.pool.stepAt exec i).nextOp j ≠ none) :
    EndsLike exec v (key j) q (t.pool.stepAt exec i).state p (serial exec s ps order) := by
  rw [nextOp_stepAt_ne exec t.pool hne] at hnext
  rw [Pool.threads_stepAt_ne exec t.pool hne] at hq
  have hbegun : j ∈ t.begun := List.mem_of_ne_of_mem hne hj
  have hkey : key j ≠ key i := fun hkey =>
    hnext (Option.isNone_iff_eq_none.mp (hi j hbegun hne hkey))
  exact (h.underway j p q hbegun hp hq hnext).congr (h.confined j q hq) (hps j p hp)
    (h.view_stepAt hop hkey) (horder _ hkey)

end Step

/-- A step of a thread that waits for nothing. -/
theorem InTurn.stepAt_none (h : InTurn exec v key s ps t) (hop : t.pool.nextOp i = none) :
    InTurn exec v key s ps (t.stepAt exec i) := by
  have hstep : t.stepAt exec i = { t with begun := i :: t.begun } := by
    simp only [Trace.stepAt, hop, Pool.stepAt_of_nextOp_none exec hop, Option.isSome_none,
      Bool.false_and, Bool.false_eq_true, if_false]
  rw [hstep]
  refine ⟨h.confined, h.threads, h.nodup, h.ended, ?_, ?_, ?_, h.answers⟩
  · exact fun j hj => h.waiting j fun hj' => hj (List.mem_cons_of_mem i hj')
  · intro j p q hj hp hq hnext
    have hne : j ≠ i := fun hji => hnext (hji ▸ hop)
    exact h.underway j p q (List.mem_of_ne_of_mem hne hj) hp hq hnext
  · exact fun k hk => h.idle k fun j hj => hk j (List.mem_cons_of_mem i hj)

variable (exec) in
theorem ended_stepAt {op : Op} (hop : t.pool.nextOp i = some op) :
    ((t.pool.stepAt exec i).nextOp i ≠ none ∧ (t.stepAt exec i).ended = t.ended) ∨
      ((t.pool.stepAt exec i).nextOp i = none ∧ (t.stepAt exec i).ended = t.ended ++ [i]) := by
  simp only [Trace.stepAt, hop, Option.isSome_some, Bool.true_and]
  cases hnext : (t.pool.stepAt exec i).nextOp i with
  | none => exact Or.inr ⟨rfl, rfl⟩
  | some op' => exact Or.inl ⟨Option.some_ne_none op', rfl⟩

/-- What the step leaves of the thread ends as before. -/
theorem InTurn.own_stepAt (h : InTurn exec v key s ps t) (hps : AllConfined exec v key ps)
    (hi : t.Vacant key i) {op : Op} (hop : t.pool.nextOp i = some op) :
    ∃ p q, ps[i]? = some p ∧ (t.pool.stepAt exec i).threads[i]? = some q ∧
      EndsLike exec v (key i) q (t.pool.stepAt exec i).state p (serial exec s ps t.ended) := by
  obtain ⟨k, hk⟩ := Pool.call_of_nextOp hop
  have hthere := h.threads i
  rw [hk, Option.isSome_some] at hthere
  obtain ⟨p, hp⟩ := Option.isSome_iff_exists.mp hthere.symm
  have hown := h.own hps hi hp hk (by rw [hop]; exact Option.some_ne_none op)
  refine ⟨p, _, hp, Pool.threads_stepAt_self exec hk, ?_⟩
  rw [Pool.stepAt_of_call exec hk]
  exact ⟨hown.outcome, hown.view⟩

theorem eq_ofExcept_of_next {q : Prog Op Ret ε α} (h : q.next = none) (s : σ) :
    q = .ofExcept (q.run exec s).2 ∧ (q.run exec s).1 = s := by
  cases q with
  | done a => exact ⟨rfl, rfl⟩
  | fail e => exact ⟨rfl, rfl⟩
  | call op k => cases h

/-- A step of a thread that issues an operation. -/
theorem InTurn.stepAt_some (h : InTurn exec v key s ps t) (hps : AllConfined exec v key ps)
    (hi : t.Vacant key i) {op : Op} (hop : t.pool.nextOp i = some op) :
    InTurn exec v key s ps (t.stepAt exec i) := by
  obtain ⟨p, q, hp, hq, hlike⟩ := h.own_stepAt hps hi hop
  have hnextOp : (t.pool.stepAt exec i).nextOp i = q.next := by rw [Pool.nextOp, hq]; rfl
  have hcases := ended_stepAt exec hop
  have hnew : i ∉ t.ended := fun hmem => by
    rw [((h.ended i).mp hmem).2] at hop
    cases hop
  have horder : ∀ l, l ≠ key i →
      v l (serial exec s ps (t.stepAt exec i).ended) = v l (serial exec s ps t.ended) := by
    intro l hl
    rcases hcases with ⟨-, hended⟩ | ⟨-, hended⟩
    · rw [hended]
    · rw [hended, serial_concat hp]
      exact view_run_of_ne (hps i p hp) hl _
  constructor
  case confined => exact h.confined.stepAt i
  case threads =>
    intro j
    rw [← h.threads j]
    exact Pool.isSome_threads_run exec t.pool [i] j
  case nodup =>
    rcases hcases with ⟨-, hended⟩ | ⟨-, hended⟩
    · rw [hended]
      exact h.nodup
    · rw [hended, ← List.concat_eq_append]
      exact h.nodup.concat hnew
  case ended =>
    intro j
    change _ ↔ _ ∧ (t.pool.stepAt exec i).nextOp j = none
    by_cases hj : j = i
    · subst hj
      rcases hcases with ⟨hnext, hended⟩ | ⟨hnext, hended⟩
      · rw [hended]
        exact iff_of_false hnew fun hend => hnext hend.2
      · rw [hended, hp]
        exact iff_of_true (List.mem_append_right _ List.mem_cons_self) ⟨rfl, hnext⟩
    · rw [nextOp_stepAt_ne exec t.pool hj, ← h.ended]
      rcases hcases with ⟨-, hended⟩ | ⟨-, hended⟩
      · rw [hended]
      · rw [hended, List.mem_append, List.mem_singleton, or_iff_left hj]
  case waiting =>
    intro j hj
    have hne : j ≠ i := fun hji => hj (hji ▸ List.mem_cons_self)
    exact (Pool.threads_stepAt_ne exec t.pool hne).trans
      (h.waiting j fun hj' => hj (List.mem_cons_of_mem i hj'))
  case underway =>
    intro j p' q' hj hp' hq' hnext'
    by_cases hji : j = i
    · subst hji
      rcases hcases with ⟨-, hended⟩ | ⟨hnext, -⟩
      · rw [hended]
        cases hp.symm.trans hp'
        cases hq.symm.trans hq'
        exact hlike
      · exact absurd hnext hnext'
    · exact h.underway_ne hi hop horder hps hji hj hp' hq' hnext'
  case idle =>
    intro k hk
    by_cases hki : k = key i
    · -- The thread has just ended, and left the view as it leaves it in turn.
      rcases hcases with ⟨hnext, -⟩ | ⟨hnext, hended⟩
      · exact absurd (hk i List.mem_cons_self hki.symm) hnext
      · rw [hended, serial_concat hp, hki, ← hlike.view,
          (eq_ofExcept_of_next (hnextOp.symm.trans hnext) _).2]
        rfl
    · exact h.idle_ne hop horder hki hk
  case answers =>
    intro pre j post p' hsplit hp'
    have hold : ∀ post', t.ended = pre ++ j :: post' → (t.stepAt exec i).pool.threads[j]? =
        some (.ofExcept (p'.run exec (serial exec s ps pre)).2) := by
      intro post' hpost'
      have hne : j ≠ i := fun hji =>
        hnew (hji ▸ hpost' ▸ List.mem_append_right _ List.mem_cons_self)
      exact (Pool.threads_stepAt_ne exec t.pool hne).trans (h.answers pre j post' p' hpost' hp')
    rcases hcases with ⟨-, hended⟩ | ⟨hnext, hended⟩
    · exact hold post (hended.symm.trans hsplit)
    · rw [hended] at hsplit
      rcases List.eq_nil_or_concat post with rfl | ⟨post', x, rfl⟩
      · obtain ⟨rfl, hji⟩ := List.append_inj' hsplit rfl
        cases hji
        cases hp.symm.trans hp'
        rw [← hlike.outcome, ← (eq_ofExcept_of_next (hnextOp.symm.trans hnext) _).1]
        exact hq
      · rw [List.concat_eq_append, ← List.cons_append, ← List.append_assoc] at hsplit
        exact hold post' (List.append_inj' hsplit rfl).1

theorem InTurn.stepAt (h : InTurn exec v key s ps t) (hps : AllConfined exec v key ps)
    (hi : t.Vacant key i) : InTurn exec v key s ps (t.stepAt exec i) := by
  cases hop : t.pool.nextOp i with
  | none => exact h.stepAt_none hop
  | some op => exact h.stepAt_some hps hi hop

/-- Threads without operations change nothing. -/
theorem serial_of_next {order : List ℕ}
    (h : ∀ i ∈ order, ∀ p, ps[i]? = some p → p.next = none) : serial exec s ps order = s := by
  refine invariant_of_mem (I := fun t => t = s) ?_ rfl
  rintro p hp t rfl
  obtain ⟨i, hi, hpi⟩ := List.mem_filterMap.mp hp
  exact (eq_ofExcept_of_next (h i hi p hpi) t).2

theorem inTurn_start {c : Pool σ Op Ret ε α} (hc : AllConfined exec v key c.threads) :
    InTurn exec v key c.state c.threads (Trace.start c) := by
  have hended : ∀ i, i ∈ (Trace.start c).ended ↔
      (c.threads[i]?).isSome = true ∧ c.nextOp i = none := by
    intro i
    simp [Trace.start]
  have hnext : ∀ i ∈ (Trace.start c).ended, ∀ p, c.threads[i]? = some p → p.next = none := by
    intro i hi p hp
    have hop := ((hended i).mp hi).2
    rwa [Pool.nextOp, hp, Option.bind_some] at hop
  constructor
  case confined => exact hc
  case threads => exact fun _ => rfl
  case nodup => exact List.nodup_range.filter _
  case ended => exact hended
  case waiting => exact fun _ _ => rfl
  case underway => exact fun i _ _ hi => absurd hi List.not_mem_nil
  case idle =>
    intro k _
    rw [serial_of_next hnext]
    rfl
  case answers =>
    intro pre i post p hsplit hp
    have hi : i ∈ (Trace.start c).ended :=
      hsplit ▸ List.mem_append_right _ List.mem_cons_self
    rw [← (eq_ofExcept_of_next (hnext i hi p hp) _).1]
    exact hp

/-- Threads that take turns agree with their ended ones run one after the other. -/
theorem inTurn_run {c : Pool σ Op Ret ε α} (hc : AllConfined exec v key c.threads)
    {sched : List ℕ} (hturns : TakeTurns exec key c sched) :
    InTurn exec v key c.state c.threads (runFrom (Trace.stepAt exec) (Trace.start c) sched) :=
  invariant_runFrom (fun _ _ h hi => h.stepAt hc hi) (inTurn_start hc) hturns

/-- When all threads have ended, each of them is in the order once. -/
theorem InTurn.perm_ended (h : InTurn exec v key s ps t) (hdone : t.pool.finished = true) :
    t.ended.Perm (List.range ps.length) := by
  refine (List.perm_ext_iff_of_nodup h.nodup List.nodup_range).mpr fun i => ?_
  rw [h.ended, List.mem_range]
  have hop := Pool.finished_iff.mp hdone i
  simp [hop]

/-- When all threads have ended, all views are as the threads leave them in turn. -/
theorem InTurn.view_finished (h : InTurn exec v key s ps t) (hdone : t.pool.finished = true)
    (k : κ) : v k t.pool.state = v k (serial exec s ps t.ended) :=
  h.idle k fun j _ _ => Pool.finished_iff.mp hdone j

end Turns

end Interleave
