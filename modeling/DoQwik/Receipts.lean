import DoQwik.Footprints

/-! Programs that add at most one key to the shared state and tell so in what they return. In
every interleaving of such programs, the keys that are there at the end are those that were there
and those that the programs tell of, each once. -/
namespace Interleave

universe u

variable {σ : Type*} {κ : Type*} {Op : Type u} {Ret : Op → Type} {ε α : Type}
variable (exec : (op : Op) → σ → σ × Ret op) (keys : σ → List κ)

/-- What a program has added so far. A program that looks for its key and does not find it has
lost it. -/
inductive Receipt (κ : Type*) where
  | nothing
  | added (k : κ)
  | lost

def Receipt.key? : Receipt κ → Option κ
  | .added k => some k
  | _ => none

/-- An operation leaves the keys alone, or adds the one key of the program, or misses it. -/
inductive ReceiptStep : Receipt κ → Op → σ → Receipt κ → Prop where
  | keep {g op t} (h : (keys (exec op t).1).Perm (keys t)) : ReceiptStep g op t g
  | add {k op t} (h : (keys (exec op t).1).Perm (k :: keys t)) :
      ReceiptStep .nothing op t (.added k)
  | miss {k op t} (h : k ∉ keys t) : ReceiptStep (.added k) op t .lost

/-- From the stage `g` on, the program returns what tells of the key that it added, and throws
only if it added none. -/
def Accounts (told : α → Option κ) (g : Receipt κ) (p : Prog Op Ret ε α) : Prop :=
  Prog.Tracks exec (ReceiptStep exec keys) (fun g a => g = .lost ∨ told a = g.key?)
    (fun g => g = .lost ∨ g.key? = none) g p

/-- What a thread that has ended tells of. -/
def toldBy (told : α → Option κ) : Prog Op Ret ε α → Option κ
  | .done a => told a
  | _ => none

section Pools

variable {exec keys} {told : α → Option κ} {c : Pool σ Op Ret ε α}

/-- The keys that the first `n` threads have added. -/
def addedBy (n : ℕ) (gs : ℕ → Receipt κ) : List κ := (List.range n).filterMap fun i => (gs i).key?

/-- A thread that had added nothing adds a key. -/
theorem addedBy_update {n i : ℕ} (hi : i < n) {gs : ℕ → Receipt κ} (hgs : gs i = .nothing) (k : κ) :
    (addedBy n (Function.update gs i (.added k))).Perm (k :: addedBy n gs) := by
  obtain ⟨before, after, hsplit⟩ := List.append_of_mem (List.mem_range.mpr hi)
  have hnodup : (before ++ i :: after).Nodup := hsplit ▸ List.nodup_range
  rw [List.nodup_middle, List.nodup_cons, List.mem_append, not_or] at hnodup
  have hothers (js : List ℕ) (hjs : i ∉ js) :
      (js.filterMap fun j => (Function.update gs i (.added k) j).key?) =
        js.filterMap fun j => (gs j).key? := by
    refine List.filterMap_congr fun j hj => ?_
    rw [Function.update_of_ne]
    rintro rfl
    exact hjs hj
  unfold addedBy
  rw [hsplit, List.filterMap_append, List.filterMap_append, List.filterMap_cons,
    List.filterMap_cons, hothers before hnodup.1.1, hothers after hnodup.1.2,
    Function.update_self, hgs]
  exact List.perm_middle

/-- The stored keys are the first ones and those of the threads, and no thread has lost its key. -/
structure Accounted (keys : σ → List κ) (first : List κ) (n : ℕ) (s : σ) (gs : ℕ → Receipt κ) :
    Prop where
  stored : (keys s).Perm (first ++ addedBy n gs)
  none_lost : ∀ i, gs i ≠ .lost

theorem Accounted.step {first : List κ} {n i : ℕ} {s : σ} {gs : ℕ → Receipt κ} {op : Op}
    {g : Receipt κ} (h : Accounted keys first n s gs) (hi : i < n)
    (hstep : ReceiptStep exec keys (gs i) op s g) :
    Accounted keys first n (exec op s).1 (Function.update gs i g) := by
  generalize hg : gs i = g₀ at hstep
  cases hstep with
  | keep hkeep =>
    rw [← hg, Function.update_eq_self]
    exact ⟨hkeep.trans h.stored, h.none_lost⟩
  | @add k _ _ hadd =>
    constructor
    · have hcons := hadd.trans (h.stored.cons k)
      have hmiddle := hcons.trans List.perm_middle.symm
      exact hmiddle.trans ((addedBy_update hi hg k).symm.append_left first)
    · intro j
      by_cases hj : j = i
      · subst hj
        rw [Function.update_self]
        intro hlost
        cases hlost
      · rw [Function.update_of_ne hj]
        exact h.none_lost j
  | @miss k _ _ hmiss =>
    -- The key that the thread added is still there.
    have hmem : k ∈ addedBy n gs :=
      List.mem_filterMap.mpr ⟨i, List.mem_range.mpr hi, by rw [hg]; rfl⟩
    exact absurd (h.stored.mem_iff.mpr (List.mem_append_right first hmem)) hmiss

theorem filterMap_eq_range {β : Type*} (f : β → Option κ) (l : List β) :
    l.filterMap f = (List.range l.length).filterMap fun i => (l[i]?).bind f := by
  induction l with
  | nil => rfl
  | cons b l ih =>
    rw [List.length_cons, List.range_succ_eq_map, List.filterMap_cons, List.filterMap_cons,
      List.filterMap_map, ih]
    rfl

/-- Once all threads have ended, the keys are those that were there and those that the threads
tell of. -/
theorem keys_finished (h : ∀ p ∈ c.threads, Accounts exec keys told .nothing p) {sched : List ℕ}
    (hdone : (runFrom (Pool.stepAt exec) c sched).finished = true) :
    (keys (runFrom (Pool.stepAt exec) c sched).state).Perm
      (keys c.state ++ (runFrom (Pool.stepAt exec) c sched).threads.filterMap (toldBy told)) := by
  have hthreads : Along (Pool.stepAt exec)
      (fun c' i => (c'.threads[i]?).isSome = (c.threads[i]?).isSome) c sched := by
    rw [along_iff_split]
    intro pre i _ _
    exact Pool.isSome_threads_run exec c pre i
  have htracking : c.Tracking exec (ReceiptStep exec keys) (fun g a => g = .lost ∨ told a = g.key?)
      (fun g => g = .lost ∨ g.key? = none) (fun _ => .nothing) :=
    fun i p hp => h p (List.mem_of_getElem? hp)
  have hstart : Accounted keys (keys c.state) c.threads.length c.state (fun _ => .nothing) := by
    refine ⟨?_, fun _ hlost => by cases hlost⟩
    simp [addedBy, Receipt.key?]
  obtain ⟨gs, hend, haccounted, -⟩ := htracking.run
    (I := Accounted keys (keys c.state) c.threads.length)
    (fun c' gs i op g hI hthere hop hstep => by
      obtain ⟨k, hk⟩ := Pool.call_of_nextOp hop
      rw [hk, Option.isSome_some] at hthere
      exact hI.step (by simpa using hthere.symm) hstep) hstart hthreads
  -- At the end, each thread tells of the key on its receipt.
  have htold (i : ℕ) (hi : i < c.threads.length) :
      ((runFrom (Pool.stepAt exec) c sched).threads[i]?).bind (toldBy told) = (gs i).key? := by
    have hthere := Pool.isSome_threads_run exec c sched i
    rw [List.getElem?_eq_getElem hi, Option.isSome_some] at hthere
    obtain ⟨p, hp⟩ := Option.isSome_iff_exists.mp hthere
    rw [hp, Option.bind_some]
    rcases hend.ended hp (Pool.finished_iff.mp hdone i) with
      ⟨a, rfl, hlost | ha⟩ | ⟨⟨e, rfl⟩, hlost | hnone⟩
    · exact absurd hlost (haccounted.none_lost i)
    · exact ha
    · exact absurd hlost (haccounted.none_lost i)
    · exact hnone.symm
  have hlength : (runFrom (Pool.stepAt exec) c sched).threads.length = c.threads.length := by
    have hnone := Pool.threads_run_eq_none exec c sched
    simp only [List.getElem?_eq_none_iff] at hnone
    exact le_antisymm ((hnone _).mpr le_rfl) ((hnone _).mp le_rfl)
  rw [filterMap_eq_range, hlength]
  refine haccounted.stored.trans (List.Perm.of_eq ?_)
  unfold addedBy
  congr 1
  refine List.filterMap_congr fun i hi => ?_
  rw [htold i (List.mem_range.mp hi)]

end Pools

end Interleave
