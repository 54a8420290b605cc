import DoQwik.Interleave

/-! Two ways to reason about a pool of programs step by step. A program that makes sure of a
key before it adds it is only wrong if another program adds the key in between; and programs
whose stages are known are led through an invariant of the shared state and all stages. -/
namespace Interleave

universe u

variable {σ : Type*} {Op : Type u} {Ret : Op → Type} {ε α β : Type}
variable (exec : (op : Op) → σ → σ × Ret op)

section Rules

variable (R : σ → σ → Prop) (c : Pool σ Op Ret ε α)

/-- In the steps `pre`, another thread did not keep to `R` after thread `i` had begun. -/
def DisturbedSince (pre : List ℕ) (i : ℕ) : Prop :=
  ∃ fst j snd op, pre = fst ++ j :: snd ∧ i ∈ fst ∧ j ≠ i ∧
    (runFrom (Pool.stepAt exec) c fst).nextOp j = some op ∧
    ¬ R (runFrom (Pool.stepAt exec) c fst).state
      (exec op (runFrom (Pool.stepAt exec) c fst).state).1

variable {exec R c} {Φ : σ → Op → Prop}

theorem DisturbedSince.append {pre : List ℕ} {i : ℕ} (h : DisturbedSince exec R c pre i) (l : ℕ) :
    DisturbedSince exec R c (pre ++ [l]) i := by
  obtain ⟨fst, j, snd, op, rfl, hrest⟩ := h
  exact ⟨fst, j, snd ++ [l], op, by rw [List.append_assoc, List.cons_append], hrest⟩

/-- The thread itself takes a step. -/
theorem follows_stepAt_self {i : ℕ} {p : Prog Op Ret ε α} (hp : c.threads[i]? = some p)
    (h : Prog.Follows exec R Φ (fun _ _ => True) c.state p) (hr : R c.state c.state) :
    ∃ p', (c.stepAt exec i).threads[i]? = some p' ∧
      Prog.Follows exec R Φ (fun _ _ => True) (c.stepAt exec i).state p' := by
  cases p with
  | done a =>
    rw [Pool.stepAt_of_nextOp_none exec (by simp [Pool.nextOp, hp, Prog.next])]
    exact ⟨.done a, hp, trivial⟩
  | fail e =>
    rw [Pool.stepAt_of_nextOp_none exec (by simp [Pool.nextOp, hp, Prog.next])]
    exact ⟨.fail e, hp, trivial⟩
  | call op next =>
    refine ⟨_, Pool.threads_stepAt_self exec hp, ?_⟩
    rw [Pool.stepAt_of_call exec hp]
    exact h.2 c.state hr

/-- A thread that follows a rule from wherever it begins still does, unless another one disturbed
it since it began. -/
theorem follows_run (htrans : ∀ s t u, R s t → R t u → R s u)
    (hΦ : ∀ s t op, R s t → Φ s op → Φ t op) {i : ℕ} {p₀ : Prog Op Ret ε α}
    (hp₀ : c.threads[i]? = some p₀)
    (hfollow : ∀ s, R s s → Prog.Follows exec R Φ (fun _ _ => True) s p₀) (pre : List ℕ)
    (hrefl : ∀ pre', pre' <+: pre → R (runFrom (Pool.stepAt exec) c pre').state
      (runFrom (Pool.stepAt exec) c pre').state) :
    DisturbedSince exec R c pre i ∨
      ∃ p, (runFrom (Pool.stepAt exec) c pre).threads[i]? = some p ∧ (i ∉ pre → p = p₀) ∧
        Prog.Follows exec R Φ (fun _ _ => True) (runFrom (Pool.stepAt exec) c pre).state p := by
  induction pre using List.reverseRecOn with
  | nil => exact Or.inr ⟨p₀, hp₀, fun _ => rfl, hfollow _ (hrefl [] List.prefix_rfl)⟩
  | append_singleton pre l ih =>
    have hlast := hrefl (pre ++ [l]) List.prefix_rfl
    have hbefore := hrefl pre (List.prefix_append pre [l])
    rw [runFrom_append, runFrom_cons, runFrom_nil] at hlast ⊢
    rcases ih fun pre' h => hrefl pre' (h.trans (List.prefix_append pre [l])) with
      hdisturbed | ⟨p, hp, hnew, hf⟩
    · exact Or.inl (hdisturbed.append l)
    generalize hc : runFrom (Pool.stepAt exec) c pre = c' at hp hf hbefore hlast ⊢
    by_cases hl : l = i
    · subst hl
      obtain ⟨p', hp', hf'⟩ := follows_stepAt_self hp hf hbefore
      exact Or.inr ⟨p', hp', fun hmem => absurd (by simp) hmem, hf'⟩
    · have hnew' : i ∉ pre ++ [l] → p = p₀ := fun hi => hnew (by simpa [Ne.symm hl] using hi)
      rw [Pool.state_stepAt] at hlast
      rw [Pool.threads_stepAt_ne exec c' (Ne.symm hl), Pool.state_stepAt]
      cases hop : c'.nextOp l with
      | none => exact Or.inr ⟨p, hp, hnew', hf⟩
      | some op =>
        rw [hop, Option.elim_some] at hlast
        rw [Option.elim_some]
        by_cases hkept : R c'.state (exec op c'.state).1
        · refine Or.inr ⟨p, hp, hnew', hf.of_state ?_ (fun _ _ => trivial) ?_⟩
          · exact fun op' hop' => hΦ _ _ op' hkept hop'
          · exact fun t ht => htrans _ _ t hkept ht
        · by_cases hi : i ∈ pre
          · rw [← hc] at hop hkept
            exact Or.inl ⟨pre, l, [], op, rfl, hi, hl, hop, hkept⟩
          · -- The thread has not begun: it will look for itself.
            have hpp := hnew hi
            subst hpp
            exact Or.inr ⟨p, hp, hnew', hfollow _ hlast⟩

end Rules

section Keys

variable {κ : Type*} (keys : σ → List κ) (adds : σ → Op → Option κ)

/-- An operation adds the one key that `adds` names, and else no key. -/
structure AddsKeys : Prop where
  added : ∀ {s op k}, adds s op = some k → (keys (exec op s).1).Perm (k :: keys s)
  kept : ∀ {s op}, adds s op = none → (keys (exec op s).1).Sublist (keys s)

/-- Nobody adds the key. -/
def Spares (k : κ) (s t : σ) : Prop := k ∈ keys t → k ∈ keys s

/-- If the operation adds the key `k`, then `k` was free when the program last looked. -/
def AddsFree (k : κ) (s : σ) (op : Op) : Prop := ∀ t, adds t op = some k → k ∉ keys s

/-- As long as nobody else adds a key, the program adds it only once it knows that the key is
free. -/
def ChecksFirst (p : Prog Op Ret ε α) : Prop :=
  ∀ k s, Prog.Follows exec (Spares keys k) (AddsFree keys adds k) (fun _ _ => True) s p

variable (c : Pool σ Op Ret ε α)

/-- In the steps `pre`, another thread added the key after thread `i` had begun. -/
def AddedSince (pre : List ℕ) (i : ℕ) (k : κ) : Prop :=
  ∃ fst j snd op, pre = fst ++ j :: snd ∧ i ∈ fst ∧ j ≠ i ∧
    (runFrom (Pool.stepAt exec) c fst).nextOp j = some op ∧
    adds (runFrom (Pool.stepAt exec) c fst).state op = some k

/-- After the steps `pre`, thread `i` is about to add a key that is taken, and that another
thread added after `i` had begun. -/
def Overtaken (pre : List ℕ) (i : ℕ) : Prop :=
  ∃ op k, (runFrom (Pool.stepAt exec) c pre).nextOp i = some op ∧
    adds (runFrom (Pool.stepAt exec) c pre).state op = some k ∧
    k ∈ keys (runFrom (Pool.stepAt exec) c pre).state ∧ AddedSince exec adds c pre i k

variable {exec keys adds} {c}

/-- An operation that adds no key may always be issued. -/
theorem addsFree_of_none {k : κ} {s : σ} {op : Op} (h : ∀ t, adds t op = none) :
    AddsFree keys adds k s op := by
  intro t hadd
  rw [h t] at hadd
  cases hadd

/-- An operation that does not add the key spares it. -/
theorem AddsKeys.spares (hk : AddsKeys exec keys adds) {s : σ} {op : Op} {k : κ}
    (h : adds s op ≠ some k) : Spares keys k s (exec op s).1 := by
  intro hmem
  cases ha : adds s op with
  | none => exact (hk.kept ha).subset hmem
  | some k' =>
    have hcons := (hk.added ha).subset hmem
    rw [List.mem_cons] at hcons
    rcases hcons with heq | hold
    · rw [ha, heq] at h
      exact absurd rfl h
    · exact hold

/-- A thread that checks first still does, unless another one added its key since it began. -/
theorem checksFirst_run (hk : AddsKeys exec keys adds) {i : ℕ} {p₀ : Prog Op Ret ε α}
    (hp₀ : c.threads[i]? = some p₀) (hcheck : ChecksFirst exec keys adds p₀) (k : κ)
    (pre : List ℕ) :
    AddedSince exec adds c pre i k ∨
      ∃ p, (runFrom (Pool.stepAt exec) c pre).threads[i]? = some p ∧ (i ∉ pre → p = p₀) ∧
        Prog.Follows exec (Spares keys k) (AddsFree keys adds k) (fun _ _ => True)
          (runFrom (Pool.stepAt exec) c pre).state p := by
  have htrans : ∀ s t u, Spares keys k s t → Spares keys k t u → Spares keys k s u :=
    fun s t u hst htu hmem => hst (htu hmem)
  have hstable : ∀ s t op, Spares keys k s t → AddsFree keys adds k s op →
      AddsFree keys adds k t op :=
    fun s t op hst hfree t' hadd hmem => hfree t' hadd (hst hmem)
  rcases follows_run htrans hstable hp₀ (fun s _ => hcheck k s) pre (fun _ _ hmem => hmem) with
    ⟨fst, j, snd, op, hpre, hi, hj, hop, hdisturbed⟩ | hfollows
  · refine Or.inl ⟨fst, j, snd, op, hpre, hi, hj, hop, ?_⟩
    by_contra hadd
    exact hdisturbed (hk.spares hadd)
  · exact Or.inr hfollows

/-- The keys stay distinct exactly as long as no step adds a key that is taken. -/
theorem nodup_keys_iff_free (hk : AddsKeys exec keys adds) (sched : List ℕ) :
    (∀ pre, pre <+: sched → (keys (runFrom (Pool.stepAt exec) c pre).state).Nodup) ↔
      (keys c.state).Nodup ∧
        ∀ pre i post, sched = pre ++ i :: post → ∀ op k,
          (runFrom (Pool.stepAt exec) c pre).nextOp i = some op →
          adds (runFrom (Pool.stepAt exec) c pre).state op = some k →
          k ∉ keys (runFrom (Pool.stepAt exec) c pre).state := by
  constructor
  · intro h
    refine ⟨h [] List.nil_prefix, ?_⟩
    rintro pre i post rfl op k hop hadd
    have hnext := h (pre ++ [i]) ⟨post, by simp⟩
    rw [runFrom_append, runFrom_cons, runFrom_nil, Pool.state_stepAt, hop, Option.elim_some,
      (hk.added hadd).nodup_iff, List.nodup_cons] at hnext
    exact hnext.1
  · rintro ⟨hstart, hfree⟩ pre hpre
    induction pre using List.reverseRecOn with
    | nil => exact hstart
    | append_singleton pre i ih =>
      have hbefore := ih ((List.prefix_append pre [i]).trans hpre)
      obtain ⟨post, hpost⟩ := hpre
      have hsplit : sched = pre ++ i :: post := by
        rw [← hpost, List.append_assoc, List.singleton_append]
      rw [runFrom_append, runFrom_cons, runFrom_nil, Pool.state_stepAt]
      cases hop : (runFrom (Pool.stepAt exec) c pre).nextOp i with
      | none => exact hbefore
      | some op =>
        rw [Option.elim_some]
        cases hadd : adds (runFrom (Pool.stepAt exec) c pre).state op with
        | none => exact hbefore.sublist (hk.kept hadd)
        | some k =>
          rw [(hk.added hadd).nodup_iff, List.nodup_cons]
          exact ⟨hfree pre i post hsplit op k hop hadd, hbefore⟩

/-- When all threads check first, the keys stay distinct exactly as long as no thread is
overtaken by another one. -/
theorem nodup_keys_iff (hk : AddsKeys exec keys adds)
    (hcheck : ∀ p ∈ c.threads, ChecksFirst exec keys adds p) (sched : List ℕ) :
    (∀ pre, pre <+: sched → (keys (runFrom (Pool.stepAt exec) c pre).state).Nodup) ↔
      (keys c.state).Nodup ∧
        ∀ pre i post, sched = pre ++ i :: post → ¬ Overtaken exec keys adds c pre i := by
  rw [nodup_keys_iff_free hk]
  refine and_congr_right fun _ => ?_
  constructor
  · rintro hfree pre i post hsplit ⟨op, k, hop, hadd, hmem, -⟩
    exact hfree pre i post hsplit op k hop hadd hmem
  · intro hnone pre i post hsplit op k hop hadd hmem
    obtain ⟨next, hnext⟩ := Pool.call_of_nextOp hop
    have hthere := Pool.isSome_threads_run exec c pre i
    rw [hnext, Option.isSome_some] at hthere
    obtain ⟨p₀, hp₀⟩ := Option.isSome_iff_exists.mp hthere.symm
    rcases checksFirst_run hk hp₀ (hcheck p₀ (List.mem_of_getElem? hp₀)) k pre
      with hadded | ⟨p, hp, -, hf⟩
    · -- Another thread added the key since the check.
      exact hnone pre i post hsplit ⟨op, k, hop, hadd, hmem, hadded⟩
    · -- Nobody did, and the check still tells that the key is free.
      rw [hnext, Option.some.injEq] at hp
      subst hp
      exact hf.1 _ hadd hmem

end Keys

section Stages

variable {γ : Type*}

/-- From stage `g` on, every operation that the program issues, in whatever state, is a step of
the stages; it returns in a stage that `Q` admits, or throws in one that `E` admits. -/
def Prog.Tracks (Step : γ → Op → σ → γ → Prop) (Q : γ → α → Prop) (E : γ → Prop) :
    γ → Prog Op Ret ε α → Prop
  | g, .done a => Q g a
  | g, .fail _ => E g
  | g, .call op k => ∀ t, ∃ g', Step g op t g' ∧ Tracks Step Q E g' (k (exec op t).2)

variable {exec} {Step : γ → Op → σ → γ → Prop} {E : γ → Prop}

theorem Prog.Tracks.bind {Q : γ → β → Prop} {p : Prog Op Ret ε α} {f : α → Prog Op Ret ε β} {g : γ}
    (h : Prog.Tracks exec Step (fun g a => Prog.Tracks exec Step Q E g (f a)) E g p) :
    Prog.Tracks exec Step Q E g (p >>= f) := by
  induction p generalizing g with
  | done a => exact h
  | fail e => exact h
  | call op k ih =>
    intro t
    obtain ⟨g', hstep, hrest⟩ := h t
    exact ⟨g', hstep, ih _ hrest⟩

theorem Prog.Tracks.catchAll {Q : γ → α → Prop} {handler : ε → α}
    (hE : ∀ g e, E g → Q g (handler e))
    {p : Prog Op Ret ε α} {g : γ} (h : Prog.Tracks exec Step Q E g p) :
    Prog.Tracks exec Step Q E g (p.catchAll handler) := by
  induction p generalizing g with
  | done a => exact h
  | fail e => exact hE g e h
  | call op k ih =>
    intro t
    obtain ⟨g', hstep, hrest⟩ := h t
    exact ⟨g', hstep, ih _ hrest⟩

theorem Prog.Tracks.mono {Q Q' : γ → α → Prop} (hQ : ∀ g a, Q g a → Q' g a)
    {p : Prog Op Ret ε α} {g : γ} (h : Prog.Tracks exec Step Q E g p) :
    Prog.Tracks exec Step Q' E g p := by
  induction p generalizing g with
  | done a => exact hQ g a h
  | fail e => exact h
  | call op k ih =>
    intro t
    obtain ⟨g', hstep, hrest⟩ := h t
    exact ⟨g', hstep, ih _ hrest⟩

/-- A program all of whose operations leave the stage alone stays where it is. -/
theorem Prog.Tracks.of_follows {Φ : Op → Prop} {g : γ} (hΦ : ∀ op t, Φ op → Step g op t g)
    {p : Prog Op Ret ε α} {s : σ}
    (h : Prog.Follows exec (fun _ _ => True) (fun _ op => Φ op) (fun _ _ => True) s p) :
    Prog.Tracks exec Step (fun _ _ => True) (fun _ => True) g p := by
  induction p generalizing s with
  | done a => trivial
  | fail e => trivial
  | call op k ih => exact fun t => ⟨g, hΦ op t h.1, ih _ (h.2 t trivial)⟩

/-- A program ends among stages that no step leaves. -/
theorem Prog.Tracks.within {S : γ → Prop} (hS : ∀ g op t g', S g → Step g op t g' → S g')
    {Q : γ → α → Prop} (hQ : ∀ g a, S g → Q g a) (hE : ∀ g, S g → E g) {p : Prog Op Ret ε α} {g : γ}
    (hg : S g) (h : Prog.Tracks exec Step (fun _ _ => True) (fun _ => True) g p) :
    Prog.Tracks exec Step Q E g p := by
  induction p generalizing g with
  | done a => exact hQ g a hg
  | fail e => exact hE g hg
  | call op k ih =>
    intro t
    obtain ⟨g', hstep, hrest⟩ := h t
    exact ⟨g', hstep, ih _ (hS g op t g' hg hstep) hrest⟩

variable {Q : γ → α → Prop}

/-- The invariant rule for a program that runs alone. -/
theorem Prog.Tracks.run {I : σ → γ → Prop}
    (hstep : ∀ s g op g', I s g → Step g op s g' → I (exec op s).1 g') {p : Prog Op Ret ε α}
    {g : γ} {s : σ} (h : Prog.Tracks exec Step Q E g p) (hI : I s g) :
    ∃ g', I (p.run exec s).1 g' := by
  induction p generalizing g s with
  | done a => exact ⟨g, hI⟩
  | fail e => exact ⟨g, hI⟩
  | call op k ih =>
    obtain ⟨g', hg, hrest⟩ := h s
    exact ih _ hrest (hstep s g op g' hI hg)

/-- A property that all operations of the program keep survives its run. -/
theorem Prog.Follows.run {Φ : Op → Prop} {I : σ → Prop}
    (hI : ∀ s op, Φ op → I s → I (exec op s).1) {p : Prog Op Ret ε α} {s₀ s : σ}
    (h : Prog.Follows exec (fun _ _ => True) (fun _ op => Φ op) (fun _ _ => True) s₀ p)
    (hs : I s) : I (p.run exec s).1 := by
  have htracks : Prog.Tracks exec (fun (_ : Unit) op _ _ => Φ op) (fun _ _ => True) (fun _ => True)
      () p := Prog.Tracks.of_follows (fun _ _ hop => hop) h
  obtain ⟨-, hend⟩ := htracks.run (I := fun t _ => I t) (fun t _ op _ ht hop => hI t op hop ht) hs
  exact hend

variable {c : Pool σ Op Ret ε α}

def Pool.Tracking (exec : (op : Op) → σ → σ × Ret op) (Step : γ → Op → σ → γ → Prop)
    (Q : γ → α → Prop) (E : γ → Prop) (gs : ℕ → γ) (c : Pool σ Op Ret ε α) : Prop :=
  ∀ i p, c.threads[i]? = some p → Prog.Tracks exec Step Q E (gs i) p

/-- A step of the pool is a step of the stage of one thread. -/
theorem Pool.Tracking.stepAt {gs : ℕ → γ} (h : c.Tracking exec Step Q E gs) {i : ℕ} {op : Op}
    (hop : c.nextOp i = some op) :
    ∃ g, Step (gs i) op c.state g ∧
      (c.stepAt exec i).Tracking exec Step Q E (Function.update gs i g) := by
  obtain ⟨k, hk⟩ := Pool.call_of_nextOp hop
  obtain ⟨g, hstep, hrest⟩ := h i _ hk c.state
  refine ⟨g, hstep, ?_⟩
  intro j p hp
  by_cases hj : j = i
  · subst hj
    rw [Pool.threads_stepAt_self exec hk, Option.some.injEq] at hp
    rw [← hp, Function.update_self]
    exact hrest
  · rw [Pool.threads_stepAt_ne exec c hj] at hp
    rw [Function.update_of_ne hj]
    exact h j p hp

/-- A thread that waits for no operation is at a stage in which it may end. -/
theorem Pool.Tracking.ended {gs : ℕ → γ} (h : c.Tracking exec Step Q E gs) {i : ℕ}
    {p : Prog Op Ret ε α} (hp : c.threads[i]? = some p) (hop : c.nextOp i = none) :
    (∃ a, p = .done a ∧ Q (gs i) a) ∨ (∃ e, p = .fail e) ∧ E (gs i) := by
  have ht := h i p hp
  cases p with
  | done a => exact Or.inl ⟨a, rfl, ht⟩
  | fail e => exact Or.inr ⟨⟨e, rfl⟩, ht⟩
  | call op k => simp [Pool.nextOp, hp, Prog.next] at hop

/-- The invariant rule for the state and the stages together, in a run whose steps meet `P`. A
thread that took no step is still at its first stage. -/
theorem Pool.Tracking.run {I : σ → (ℕ → γ) → Prop} {P : Pool σ Op Ret ε α → ℕ → Prop}
    (hstep : ∀ c gs i op g, I c.state gs → P c i → c.nextOp i = some op →
      Step (gs i) op c.state g → I (exec op c.state).1 (Function.update gs i g))
    {gs : ℕ → γ} {sched : List ℕ} (h : c.Tracking exec Step Q E gs) (hI : I c.state gs)
    (hrun : Along (Pool.stepAt exec) P c sched) :
    ∃ gs', (runFrom (Pool.stepAt exec) c sched).Tracking exec Step Q E gs' ∧
      I (runFrom (Pool.stepAt exec) c sched).state gs' ∧
      ∀ i, i ∉ sched ∨ c.threads[i]? = none → gs' i = gs i := by
  induction sched generalizing c gs with
  | nil => exact ⟨gs, h, hI, fun _ _ => rfl⟩
  | cons i sched ih =>
    obtain ⟨hi, hrest⟩ := hrun
    rw [runFrom_cons]
    cases hop : c.nextOp i with
    | none =>
      rw [Pool.stepAt_of_nextOp_none exec hop] at hrest ⊢
      obtain ⟨gs', ht, hI', hsame⟩ := ih h hI hrest
      refine ⟨gs', ht, hI', fun j hj => hsame j (hj.imp_left ?_)⟩
      exact fun hm hj' => hm (List.mem_cons_of_mem i hj')
    | some op =>
      obtain ⟨g, hg, ht⟩ := h.stepAt hop
      have hnext : I (c.stepAt exec i).state (Function.update gs i g) := by
        rw [Pool.state_stepAt, hop, Option.elim_some]
        exact hstep c gs i op g hI hi hop hg
      obtain ⟨gs', ht', hI', hsame⟩ := ih ht hnext hrest
      refine ⟨gs', ht', hI', ?_⟩
      intro j hj
      have hji : j ≠ i := by
        rintro rfl
        obtain ⟨k, hk⟩ := Pool.call_of_nextOp hop
        rw [hk] at hj
        rcases hj with hj | hj
        · exact hj List.mem_cons_self
        · cases hj
      rw [hsame j ?_, Function.update_of_ne hji]
      rw [Pool.threads_stepAt_ne exec c hji]
      exact hj.imp_left fun hm hj' => hm (List.mem_cons_of_mem i hj')

end Stages

end Interleave
