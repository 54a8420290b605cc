import DoQwik.Operations

/-! The sequence numbers that `getSequence` hands out. The counter is read in one step and
written back in another, so that other calls can come in between. -/
namespace DoQwik
open JsValues DocStore Interleave

/-- Calls of `getSequence` in progress. -/
abbrev SeqPool := Pool Db DbOp Ret Thrown ℕ

def SeqPool.start (s : Db) (tables : List String) : SeqPool := ⟨s, tables.map getSequence⟩

def SeqPool.step (c : SeqPool) (i : ℕ) : SeqPool := Pool.stepAt exec c i

def SeqPool.returned (c : SeqPool) (i : ℕ) : Option ℕ :=
  match c.threads[i]? with
  | some (.done v) => some v
  | _ => none

/-- No two calls for the same table have returned the same number. -/
def DistinctValues (tables : List String) (c : SeqPool) : Prop :=
  ∀ i j t v, i ≠ j → tables[i]? = some t → tables[j]? = some t →
    c.returned i = some v → c.returned j ≠ some v

def seqOf (s : Db) (table : String) : Option ℕ := (s.counters.get? table).map Counter.seq

/-- Call `i` is about to write back the successor of a number that the counter no longer
holds. -/
def staleUpdate (c : SeqPool) (i : ℕ) : Bool :=
  match c.nextOp i with
  | some (.updateCounter table n _) => (seqOf c.state table).map (·+1) ≠ some n
  | _ => false

section Calls

inductive SeqThread (table : String) : Action ℕ → Prop where
  | initial : SeqThread table (getSequence table)
  | updating (n : ℕ) : SeqThread table (updating table n)
  | creating : SeqThread table (creating table)
  | done (v : ℕ) : SeqThread table (.done v)
  | fail (e : Thrown) : SeqThread table (.fail e)

/-- The first step of a call is its read. -/
theorem getSequence_eq_call (table : String) :
    getSequence table = .call (.read fun s => s.counters.get? table) (nextNumber table) :=
  getSequence_eq table

theorem returned_eq_some {c : SeqPool} {i v : ℕ} :
    c.returned i = some v ↔ c.threads[i]? = some (.done v) := by
  unfold SeqPool.returned
  cases h : c.threads[i]? with
  | none => simp
  | some p =>
    cases p with
    | done w => simp
    | fail e => simp
    | call op k => simp

theorem seqOf_updateCounter (s : Db) (table k : String) (n : ℕ) :
    seqOf (exec (.updateCounter table n n) s).1 k =
      if k = table then (seqOf s k).map fun _ => n else seqOf s k := by
  have hget : (exec (.updateCounter table n n) s).1.counters.get? k = _ :=
    Collection.get?_updateOne s.counters (fun c => c.table = table)
      (fun c => { c with seq := n, encrypted := n }) (fun _ => rfl) k
  unfold seqOf
  rw [hget]
  by_cases hk : k = table
  · subst hk
    cases hc : s.counters.get? k with
    | none => simp
    | some c =>
      have hkey : c.table = k := ((s.counters.get?_eq_some_iff k c).mp hc).2
      have hfind : s.counters.findOne (fun c => c.table = k) = some c := hc
      simp [hfind, hkey]
  · have hne : (s.counters.findOne fun c => c.table = table).map Counter.table ≠ some k := by
      intro h
      obtain ⟨c, hc, hck⟩ := Option.map_eq_some_iff.mp h
      have hct : c.table = table := by simpa using (Collection.mem_of_findOne hc).2
      exact hk (hck.symm.trans hct)
    rw [if_neg hne, if_neg hk]

theorem seqOf_insert {s : Db} {c : Counter} {cs : Collection Counter.table}
    (h : s.counters.insert c = some cs) (k : String) :
    seqOf { s with counters := cs } k = if c.table = k then some c.seq else seqOf s k := by
  unfold seqOf
  rw [Collection.get?_insert h]
  by_cases hk : c.table = k
  · rw [if_pos hk, if_pos hk, Option.map_some]
  · rw [if_neg hk, if_neg hk]

theorem seqOf_of_insert {s : Db} {c : Counter} {cs : Collection Counter.table}
    (h : s.counters.insert c = some cs) : seqOf s c.table = none := by
  unfold seqOf
  cases hg : s.counters.get? c.table with
  | none => rfl
  | some d =>
    have hd := (s.counters.get?_eq_some_iff _ _).mp hg
    apply absurd _ (Collection.insert_eq_some h).1
    rw [← hd.2]
    exact List.mem_map_of_mem hd.1

end Calls

section Pools

variable {tables : List String} {c : SeqPool}

/-- What holds while no stale number is written back. -/
structure SeqInv (tables : List String) (c : SeqPool) : Prop where
  /-- Each call is in one of the stages of its own table. -/
  stage : ∀ (i : ℕ) p, c.threads[i]? = some p → ∃ t, tables[i]? = some t ∧ SeqThread t p
  /-- The counter has reached every number returned. -/
  reached : ∀ (i : ℕ) t v, tables[i]? = some t → c.threads[i]? = some (.done v) →
    ∃ m, seqOf c.state t = some m ∧ v ≤ m
  /-- A number waiting to be written is the successor of the current one, or it was
  returned by another call. -/
  waiting : ∀ (i : ℕ) t n, tables[i]? = some t → c.threads[i]? = some (updating t n) →
    ∃ m, seqOf c.state t = some m ∧
      (m+1 = n ∨ ∃ j : ℕ, tables[j]? = some t ∧ c.threads[j]? = some (.done n))
  distinct : DistinctValues tables c

theorem seqInv_start (s : Db) (tables : List String) : SeqInv tables (SeqPool.start s tables) := by
  have hinitial : ∀ (i : ℕ) p, (SeqPool.start s tables).threads[i]? = some p →
      ∃ t, tables[i]? = some t ∧ p = getSequence t := by
    intro i p hp
    simp only [SeqPool.start, List.getElem?_map, Option.map_eq_some_iff] at hp
    obtain ⟨t, ht, rfl⟩ := hp
    exact ⟨t, ht, rfl⟩
  refine ⟨?_, ?_, ?_, ?_⟩
  · intro i p hp
    obtain ⟨t, ht, rfl⟩ := hinitial i p hp
    exact ⟨t, ht, .initial⟩
  · intro i t v _ hv
    obtain ⟨t', -, he⟩ := hinitial i _ hv
    rw [getSequence_eq_call] at he
    cases he
  · intro i t n _ hn
    obtain ⟨t', -, he⟩ := hinitial i _ hn
    rw [getSequence_eq_call] at he
    cases he
  · intro i j t v _ _ _ hv
    obtain ⟨t', -, he⟩ := hinitial i _ (returned_eq_some.mp hv)
    rw [getSequence_eq_call] at he
    cases he

/-- What one step of call `i` for table `t` changes: the call comes to stage `p`, the counters
do not go back, and the other calls look on. -/
structure SeqChange (c c' : SeqPool) (i : ℕ) (t : String) (p : Action ℕ) : Prop where
  other : ∀ j : ℕ, j ≠ i → c'.threads[j]? = c.threads[j]?
  self : c'.threads[i]? = some p
  stage : SeqThread t p
  /-- The call had not returned before. -/
  running : ∀ v, c.threads[i]? ≠ some (.done v)
  /-- A counter that moves is moved by one, to the number that the call returns. -/
  seq : ∀ k m, seqOf c.state k = some m → ∃ m', seqOf c'.state k = some m' ∧ m ≤ m' ∧
    (m' = m ∨ (k = t ∧ p = .done m' ∧ m' = m+1))
  done : ∀ v, p = .done v → seqOf c'.state t = some v ∧ ∀ m, seqOf c.state t = some m → m < v
  waiting : ∀ n, p = updating t n → ∃ m, seqOf c'.state t = some m ∧ m+1 = n

section Change

variable {c' : SeqPool} {i : ℕ} {t : String} {p : Action ℕ}

/-- A returned number stays returned. -/
theorem SeqChange.keeps (hc : SeqChange c c' i t p) {j v : ℕ}
    (hj : c.threads[j]? = some (.done v)) : c'.threads[j]? = some (.done v) := by
  have hji : j ≠ i := fun he => hc.running v (he ▸ hj)
  rw [hc.other j hji]
  exact hj

theorem SeqChange.stages (hc : SeqChange c c' i t p) (h : SeqInv tables c)
    (hi : tables[i]? = some t) (j : ℕ) (q : Action ℕ) (hq : c'.threads[j]? = some q) :
    ∃ k, tables[j]? = some k ∧ SeqThread k q := by
  by_cases hj : j = i
  · subst hj
    rw [hc.self, Option.some.injEq] at hq
    exact ⟨t, hi, hq ▸ hc.stage⟩
  · rw [hc.other j hj] at hq
    exact h.stage j q hq

theorem SeqChange.reaches (hc : SeqChange c c' i t p) (h : SeqInv tables c)
    (hi : tables[i]? = some t) (j : ℕ) (k : String) (v : ℕ) (hk : tables[j]? = some k)
    (hv : c'.threads[j]? = some (.done v)) : ∃ m, seqOf c'.state k = some m ∧ v ≤ m := by
  by_cases hj : j = i
  · subst hj
    rw [hc.self, Option.some.injEq] at hv
    rw [hi, Option.some.injEq] at hk
    exact ⟨v, hk ▸ (hc.done v hv).1, le_rfl⟩
  · rw [hc.other j hj] at hv
    obtain ⟨m, hm, hle⟩ := h.reached j k v hk hv
    obtain ⟨m', hm', hmm, -⟩ := hc.seq k m hm
    exact ⟨m', hm', hle.trans hmm⟩

theorem SeqChange.waits (hc : SeqChange c c' i t p) (h : SeqInv tables c)
    (hi : tables[i]? = some t) (j : ℕ) (k : String) (n : ℕ) (hk : tables[j]? = some k)
    (hn : c'.threads[j]? = some (updating k n)) :
    ∃ m, seqOf c'.state k = some m ∧
      (m+1 = n ∨ ∃ l : ℕ, tables[l]? = some k ∧ c'.threads[l]? = some (.done n)) := by
  by_cases hj : j = i
  · subst hj
    rw [hc.self, Option.some.injEq] at hn
    rw [hi, Option.some.injEq] at hk
    subst hk
    obtain ⟨m, hm, hmn⟩ := hc.waiting n hn
    exact ⟨m, hm, Or.inl hmn⟩
  · rw [hc.other j hj] at hn
    obtain ⟨m, hm, hor⟩ := h.waiting j k n hk hn
    obtain ⟨m', hm', -, hnew⟩ := hc.seq k m hm
    refine ⟨m', hm', ?_⟩
    rcases hor with hmn | ⟨l, hl, hld⟩
    · rcases hnew with rfl | ⟨rfl, hp, hm1⟩
      · exact Or.inl hmn
      · -- The number that call `j` waits to write was just returned by call `i`.
        refine Or.inr ⟨i, hi, ?_⟩
        rw [hc.self, hp, hm1, hmn]
    · exact Or.inr ⟨l, hl, hc.keeps hld⟩

/-- A number returned now is above all numbers returned before. -/
theorem SeqChange.above (hc : SeqChange c c' i t p) (h : SeqInv tables c) {j v : ℕ} (hj : j ≠ i)
    (hjt : tables[j]? = some t) (hv : c'.threads[i]? = some (.done v)) :
    c'.threads[j]? ≠ some (.done v) := by
  intro hv'
  rw [hc.self, Option.some.injEq] at hv
  rw [hc.other j hj] at hv'
  obtain ⟨m, hm, hle⟩ := h.reached j t v hjt hv'
  have hlt := (hc.done v hv).2 m hm
  omega

theorem SeqChange.distinct (hc : SeqChange c c' i t p) (h : SeqInv tables c)
    (hi : tables[i]? = some t) : DistinctValues tables c' := by
  intro j k u v hjk hj hk hv hv'
  rw [returned_eq_some] at hv hv'
  by_cases hji : j = i
  · subst hji
    rw [hi, Option.some.injEq] at hj
    subst hj
    exact hc.above h (Ne.symm hjk) hk hv hv'
  · by_cases hki : k = i
    · subst hki
      rw [hi, Option.some.injEq] at hk
      subst hk
      exact hc.above h hji hj hv' hv
    · rw [hc.other j hji] at hv
      rw [hc.other k hki] at hv'
      exact h.distinct j k u v hjk hj hk (returned_eq_some.mpr hv) (returned_eq_some.mpr hv')

theorem SeqChange.inv (hc : SeqChange c c' i t p) (h : SeqInv tables c)
    (hi : tables[i]? = some t) : SeqInv tables c' where
  stage := hc.stages h hi
  reached := hc.reaches h hi
  waiting := hc.waits h hi
  distinct := hc.distinct h hi

end Change

theorem state_step_of_call {i : ℕ} {op : DbOp} {k : Ret op → Action ℕ}
    (h : c.threads[i]? = some (.call op k)) : (c.step i).state = (exec op c.state).1 := by
  unfold SeqPool.step
  rw [Pool.stepAt_of_call exec h]

theorem running_of_call {i : ℕ} {op : DbOp} {k : Ret op → Action ℕ}
    (h : c.threads[i]? = some (.call op k)) (v : ℕ) : c.threads[i]? ≠ some (.done v) := by
  intro hv
  rw [h] at hv
  cases hv

/-- The other calls look on. -/
theorem threads_step_of_ne {i : ℕ} (j : ℕ) (hj : j ≠ i) :
    (c.step i).threads[j]? = c.threads[j]? :=
  Pool.threads_stepAt_ne exec c hj

/-- Reading the counter. -/
theorem seqInv_read (h : SeqInv tables c) {i : ℕ} {t : String} (ht : tables[i]? = some t)
    (hp : c.threads[i]? = some (getSequence t)) : SeqInv tables (c.step i) := by
  rw [getSequence_eq_call] at hp
  have hstate : (c.step i).state = c.state := state_step_of_call hp
  have hself := Pool.threads_stepAt_self exec hp
  have hold := running_of_call hp
  have hseq : ∀ (q : Action ℕ) k m, seqOf c.state k = some m → ∃ m',
      seqOf (c.step i).state k = some m' ∧ m ≤ m' ∧
      (m' = m ∨ (k = t ∧ q = .done m' ∧ m' = m+1)) := by
    intro q k m hm
    exact ⟨m, hstate ▸ hm, le_rfl, Or.inl rfl⟩
  cases hc : c.state.counters.get? t with
  | some ctr =>
    simp only [exec_read, hc] at hself
    refine SeqChange.inv ⟨threads_step_of_ne, hself, .updating _, hold, hseq _,
      (fun _ h => by cases h), ?_⟩ h ht
    intro n hn
    refine ⟨ctr.seq, ?_, ?_⟩
    · rw [hstate, seqOf, hc, Option.map_some]
    · cases hn
      rfl
  | none =>
    simp only [exec_read, hc] at hself
    exact SeqChange.inv ⟨threads_step_of_ne, hself, .creating, hold, hseq _,
      (fun _ h => by cases h), fun _ h => by cases h⟩ h ht

/-- Writing the successor of the number that the counter holds. -/
theorem seqInv_update (h : SeqInv tables c) {i : ℕ} {t : String} {n m : ℕ}
    (ht : tables[i]? = some t) (hp : c.threads[i]? = some (updating t n))
    (hm : seqOf c.state t = some m) (hn : m+1 = n) : SeqInv tables (c.step i) := by
  have hstate : (c.step i).state = (exec (.updateCounter t n n) c.state).1 :=
    state_step_of_call hp
  refine SeqChange.inv ⟨threads_step_of_ne,
    Pool.threads_stepAt_self exec hp, .done n, ?_, ?_, ?_, fun _ h => by cases h⟩ h ht
  · exact running_of_call hp
  · intro k l hl
    rw [hstate, seqOf_updateCounter]
    by_cases hk : k = t
    · subst hk
      rw [hm, Option.some.injEq] at hl
      rw [if_pos rfl, hm, Option.map_some]
      exact ⟨n, rfl, by omega, Or.inr ⟨rfl, rfl, by omega⟩⟩
    · rw [if_neg hk]
      exact ⟨l, hl, le_rfl, Or.inl rfl⟩
  · intro v hv
    cases hv
    rw [hstate, seqOf_updateCounter, if_pos rfl, hm, Option.map_some]
    refine ⟨rfl, fun l hl => ?_⟩
    rw [Option.some.injEq] at hl
    omega

/-- Creating the counter: it fails if another call was faster. -/
theorem seqInv_create (h : SeqInv tables c) {i : ℕ} {t : String} (ht : tables[i]? = some t)
    (hp : c.threads[i]? = some (creating t)) : SeqInv tables (c.step i) := by
  have hold := running_of_call hp
  have hstate := state_step_of_call hp
  have hself := Pool.threads_stepAt_self exec hp
  cases hi : c.state.counters.insert ⟨t, firstSequence, firstSequence⟩ with
  | none =>
    rw [exec_createCounter_none hi] at hstate hself
    refine SeqChange.inv ⟨threads_step_of_ne, hself, .fail _, hold, ?_,
      (fun _ h => by cases h), fun _ h => by cases h⟩ h ht
    intro k m hm
    exact ⟨m, hstate ▸ hm, le_rfl, Or.inl rfl⟩
  | some cs =>
    rw [exec_createCounter_some hi] at hstate hself
    have hnone : seqOf c.state t = none := seqOf_of_insert hi
    refine SeqChange.inv ⟨threads_step_of_ne, hself, .done firstSequence, hold, ?_, ?_,
      fun _ h => by cases h⟩ h ht
    · intro k m hm
      have hk : t ≠ k := by
        rintro rfl
        rw [hnone] at hm
        cases hm
      refine ⟨m, ?_, le_rfl, Or.inl rfl⟩
      rw [hstate, seqOf_insert hi, if_neg hk]
      exact hm
    · intro v hv
      cases hv
      refine ⟨?_, fun m hm => ?_⟩
      · rw [hstate, seqOf_insert hi, if_pos rfl]
      · rw [hnone] at hm
        cases hm

/-- One step keeps the invariant, unless it writes a stale number. -/
theorem seqInv_step (h : SeqInv tables c) {i : ℕ} (hs : staleUpdate c i = false) :
    SeqInv tables (c.step i) := by
  cases hp : c.threads[i]? with
  | none =>
    have hstep : c.step i = c := Pool.stepAt_of_nextOp_none exec (by simp [Pool.nextOp, hp])
    rw [hstep]
    exact h
  | some p =>
    obtain ⟨t, ht, hstage⟩ := h.stage i p hp
    cases hstage with
    | initial => exact seqInv_read h ht hp
    | updating n =>
      obtain ⟨m, hm, -⟩ := h.waiting i t n ht hp
      have hn : m+1 = n := by
        simpa [staleUpdate, Pool.nextOp, hp, updating, Prog.next, hm] using hs
      exact seqInv_update h ht hp hm hn
    | creating => exact seqInv_create h ht hp
    | done v | fail v =>
      have hstep : c.step i = c :=
        Pool.stepAt_of_nextOp_none exec (by simp [Pool.nextOp, hp, Prog.next])
      rw [hstep]
      exact h

/-- A number once returned stays returned. -/
theorem returned_run {i v : ℕ} (h : c.returned i = some v) (schedule : List ℕ) :
    (runFrom SeqPool.step c schedule).returned i = some v := by
  induction schedule generalizing c with
  | nil => exact h
  | cons k schedule ih =>
    exact ih (returned_eq_some.mpr (Pool.done_stepAt exec (returned_eq_some.mp h) k))

/-- The first stale number that is written back was returned by another call already. -/
theorem duplicate_of_stale (h : SeqInv tables c) {i : ℕ} (hs : staleUpdate c i = true) :
    ∃ j t v, j ≠ i ∧ tables[j]? = some t ∧ tables[i]? = some t ∧
      (c.step i).returned j = some v ∧ (c.step i).returned i = some v := by
  cases hp : c.threads[i]? with
  | none => simp [staleUpdate, Pool.nextOp, hp] at hs
  | some p =>
    obtain ⟨t, ht, hstage⟩ := h.stage i p hp
    cases hstage with
    | updating n =>
      obtain ⟨m, hm, hor⟩ := h.waiting i t n ht hp
      have hmn : m+1 ≠ n := by
        simpa [staleUpdate, Pool.nextOp, hp, updating, Prog.next, hm] using hs
      rcases hor with he | ⟨j, hj, hd⟩
      · exact absurd he hmn
      · have hji : j ≠ i := by
          rintro rfl
          rw [hp] at hd
          cases hd
        refine ⟨j, t, n, hji, hj, ht, ?_, ?_⟩
        · exact returned_eq_some.mpr (Pool.done_stepAt exec hd i)
        · exact returned_eq_some.mpr (Pool.threads_stepAt_self exec hp)
    | initial => simp [staleUpdate, Pool.nextOp, hp, getSequence_eq_call, Prog.next] at hs
    | creating => simp [staleUpdate, Pool.nextOp, hp, creating, Prog.next] at hs
    | done v | fail v => simp [staleUpdate, Pool.nextOp, hp, Prog.next] at hs

/-- In every interleaving, the numbers returned for one table are distinct exactly when no
call writes back the successor of a number that the counter no longer holds. -/
theorem distinctValues_iff (s : Db) (tables : List String) (schedule : List ℕ) :
    DistinctValues tables (runFrom SeqPool.step (SeqPool.start s tables) schedule) ↔
      Along SeqPool.step (fun c i => staleUpdate c i = false) (SeqPool.start s tables)
        schedule := by
  constructor
  · intro h
    have hrun : ∀ (c : SeqPool), SeqInv tables c →
        DistinctValues tables (runFrom SeqPool.step c schedule) →
        Along SeqPool.step (fun c i => staleUpdate c i = false) c schedule := by
      clear h
      induction schedule with
      | nil => intro c _ _; trivial
      | cons i schedule ih =>
        intro c hc h
        cases hs : staleUpdate c i with
        | false => exact ⟨hs, ih _ (seqInv_step hc hs) h⟩
        | true =>
          obtain ⟨j, t, v, hji, hj, hi, hvj, hvi⟩ := duplicate_of_stale hc hs
          exact absurd (returned_run hvi schedule)
            (h j i t v hji hj hi (returned_run hvj schedule))
    exact hrun _ (seqInv_start s tables) h
  · intro h
    exact (invariant_runFrom (I := SeqInv tables) (fun c i hc hi => seqInv_step hc hi)
      (seqInv_start s tables) h).distinct

/-- Two bookings take their number at the same time: both read the counter before either
writes it back, and both get the same number. -/
theorem two_bookings_one_number :
    ¬ DistinctValues ["dqw_users", "dqw_users"]
      (runFrom SeqPool.step
        (SeqPool.start { Db.empty with
          counters := ⟨[⟨"dqw_users", 100000000000007, 100000000000007⟩],
            List.nodup_singleton _⟩ } ["dqw_users", "dqw_users"]) [0, 1, 0, 1]) := by
  intro h
  refine h 0 1 "dqw_users" 100000000000008 (by decide) rfl rfl ?_ ?_
  · decide +kernel
  · decide +kernel

end Pools

end DoQwik
