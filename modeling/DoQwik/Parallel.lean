import DoQwik.Interference

/-! Programs with concurrent branches. The branches of a program take their steps in the order of
a schedule, also after one of them threw. A program that only ever learns keeps what it knows
while its branches alternate. -/
namespace Interleave

universe u

namespace Prog

variable {Op : Type u} {Ret : Op → Type} {ε α : Type}

/-- Run to the end, with an exception as a value of its own. -/
def settle : Prog Op Ret ε α → Prog Op Ret ε (Except ε α)
  | done a => done (.ok a)
  | fail e => done (.error e)
  | call op k => call op fun r => (k r).settle

def settleAll : List (Prog Op Ret ε α) → Prog Op Ret ε (List (Except ε α))
  | [] => done []
  | p :: ps => p.settle >>= fun x => settleAll ps >>= fun xs => done (x :: xs)

/-- The branches take their steps in the order of the schedule, and what is left of them after it
one after the other. -/
def inParallel : List ℕ → List (Prog Op Ret ε α) → Prog Op Ret ε (List (Except ε α))
  | [], ps => settleAll ps
  | i :: sched, ps =>
    match ps[i]? with
    | some (call op k) => call op fun r => inParallel sched (ps.set i (k r))
    | _ => inParallel sched ps

/-- All branches go on to their end, and if one of them threw, so does the whole. -/
def joinAll (sched : List ℕ) (ps : List (Prog Op Ret ε α)) : Prog Op Ret ε (List α) :=
  inParallel sched ps >>= fun xs => ofExcept (xs.mapM id)

section Stages

variable {σ γ : Type*} [Preorder γ] {exec : (op : Op) → σ → σ × Ret op}
  {Step : γ → Op → σ → γ → Prop}

/-- What can be done at a stage can be done at a higher one, and nothing is forgotten by it. -/
def Climbs (Step : γ → Op → σ → γ → Prop) : Prop :=
  ∀ g h op s g', g ≤ h → Step g op s g' → ∃ h', g' ≤ h' ∧ h ≤ h' ∧ Step h op s h'

theorem Tracks.of_le (hup : Climbs Step) {Q : γ → α → Prop} {E : γ → Prop}
    (hQ : ∀ g h a, g ≤ h → Q g a → Q h a) (hE : ∀ g h, g ≤ h → E g → E h)
    {p : Prog Op Ret ε α} {g h : γ} (hp : Tracks exec Step Q E g p) (hgh : g ≤ h) :
    Tracks exec Step Q E h p := by
  induction p generalizing g h with
  | done a => exact hQ g h a hgh hp
  | fail e => exact hE g h hgh hp
  | call op k ih =>
    intro t
    obtain ⟨g', hstep, hrest⟩ := hp t
    obtain ⟨h', hg', -, hstep'⟩ := hup _ _ _ _ _ hgh hstep
    exact ⟨h', hstep', ih _ hrest hg'⟩

/-- A branch of a program, led from a stage on with no regard to where it ends. -/
abbrev Branch (exec : (op : Op) → σ → σ × Ret op) (Step : γ → Op → σ → γ → Prop) (g : γ)
    (p : Prog Op Ret ε α) : Prop :=
  Tracks exec Step (fun _ _ => True) (fun _ => True) g p

theorem Branch.of_le (hup : Climbs Step) {p : Prog Op Ret ε α} {g h : γ}
    (hp : Branch exec Step g p) (hgh : g ≤ h) : Branch exec Step h p :=
  Tracks.of_le hup (fun _ _ _ _ _ => trivial) (fun _ _ _ _ => trivial) hp hgh

/-- A branch that has ended is at no lower stage than where it began. -/
theorem Branch.settle (hup : Climbs Step) {p : Prog Op Ret ε α} {g₀ g : γ} (hle : g₀ ≤ g)
    (hp : Branch exec Step g p) :
    Tracks exec Step (fun h _ => g₀ ≤ h) (fun _ => True) g p.settle := by
  induction p generalizing g with
  | done a => exact hle
  | fail e => exact hle
  | call op k ih =>
    intro t
    obtain ⟨g', hstep, hrest⟩ := hp t
    obtain ⟨h', hg', hgh', hstep'⟩ := hup _ _ _ _ _ le_rfl hstep
    exact ⟨h', hstep', ih _ (hle.trans hgh') (Branch.of_le hup hrest hg')⟩

theorem Branch.settleAll (hup : Climbs Step) {ps : List (Prog Op Ret ε α)} {g : γ}
    (hps : ∀ p ∈ ps, Branch exec Step g p) : Branch exec Step g (settleAll ps) := by
  induction ps generalizing g with
  | nil => trivial
  | cons p ps ih =>
    have hfirst := Branch.settle hup (le_refl g) (hps p List.mem_cons_self)
    apply Tracks.bind
    refine Tracks.mono ?_ hfirst
    intro h x hgh
    apply Tracks.bind
    refine Tracks.mono (fun _ _ _ => trivial) (ih fun q hq => ?_)
    exact Branch.of_le hup (hps q (List.mem_cons_of_mem p hq)) hgh

/-- Whatever the order of their steps, the branches do together what each one does alone. -/
theorem Branch.inParallel (hup : Climbs Step) (sched : List ℕ) {ps : List (Prog Op Ret ε α)}
    {g : γ} (hps : ∀ p ∈ ps, Branch exec Step g p) :
    Branch exec Step g (inParallel sched ps) := by
  induction sched generalizing ps g with
  | nil => exact Branch.settleAll hup hps
  | cons i sched ih =>
    unfold Prog.inParallel
    cases hi : ps[i]? with
    | none => exact ih hps
    | some p =>
      cases p with
      | done a => exact ih hps
      | fail e => exact ih hps
      | call op k =>
        intro t
        obtain ⟨g', hstep, hrest⟩ := hps _ (List.mem_of_getElem? hi) t
        -- The others are led on from the higher stage as well.
        obtain ⟨h', hg', hgh', hstep'⟩ := hup _ _ _ _ _ le_rfl hstep
        refine ⟨h', hstep', ih ?_⟩
        intro q hq
        rcases List.mem_or_eq_of_mem_set hq with hold | rfl
        · exact Branch.of_le hup (hps q hold) hgh'
        · exact Branch.of_le hup hrest hg'

theorem Branch.joinAll (hup : Climbs Step) (sched : List ℕ) {ps : List (Prog Op Ret ε α)} {g : γ}
    (hps : ∀ p ∈ ps, Branch exec Step g p) : Branch exec Step g (joinAll sched ps) := by
  apply Tracks.bind
  refine Tracks.mono ?_ (Branch.inParallel hup sched hps)
  intro h xs _
  cases xs.mapM id with
  | error e => trivial
  | ok as => trivial

end Stages

section Threads

variable {σ γ : Type*} {exec : (op : Op) → σ → σ × Ret op} {Step : γ → Op → σ → γ → Prop}
  {Q : γ → α → Prop} {E : γ → Prop} {F : List γ → Prop}

/-- One of the branches takes a step, and the others stay at their stages. -/
def OneOf (Step : γ → Op → σ → γ → Prop) (gs : List γ) (op : Op) (s : σ) (gs' : List γ) : Prop :=
  ∃ pre g g' post, gs = pre ++ g :: post ∧ gs' = pre ++ g' :: post ∧ Step g op s g'

/-- A branch that stays at this stage is over. -/
def Over (Q : γ → α → Prop) (E : γ → Prop) (g : γ) : Prop := (∃ a, Q g a) ∨ E g

theorem forall₂_at {β : Type*} {R : γ → β → Prop} {gs : List γ} {ps : List β}
    (h : List.Forall₂ R gs ps) {i : ℕ} {p : β} (hi : ps[i]? = some p) :
    ∃ pre g post, gs = pre ++ g :: post ∧ R g p ∧
      (∀ g' p', R g' p' → List.Forall₂ R (pre ++ g' :: post) (ps.set i p')) ∧
      List.Forall₂ R (pre ++ post) (ps.eraseIdx i) := by
  induction h generalizing i with
  | nil => cases hi
  | @cons g q gs ps hq hps ih =>
    cases i with
    | zero =>
      cases hi
      exact ⟨[], g, gs, rfl, hq, fun g' p' h' => .cons h' hps, hps⟩
    | succ i =>
      obtain ⟨pre, g₁, post, rfl, hg, hset, herase⟩ := ih (i := i) hi
      exact ⟨g :: pre, g₁, post, rfl, hg, fun g' p' h' => .cons hq (hset g' p' h'),
        .cons hq herase⟩

theorem Tracks.frame {p : Prog Op Ret ε α} {g : γ} (h : Tracks exec Step Q E g p)
    (pre post : List γ) :
    Tracks exec (OneOf Step) (fun gs _ => ∃ g', gs = pre ++ g' :: post ∧ Over Q E g')
      F (pre ++ g :: post) p.settle := by
  induction p generalizing g with
  | done a => exact ⟨g, rfl, Or.inl ⟨a, h⟩⟩
  | fail e => exact ⟨g, rfl, Or.inr h⟩
  | call op k ih =>
    intro t
    obtain ⟨g', hstep, hrest⟩ := h t
    exact ⟨pre ++ g' :: post, ⟨pre, g, g', post, rfl, rfl, hstep⟩, ih _ hrest⟩

theorem Tracks.settleAll {gs : List γ} {ps : List (Prog Op Ret ε α)}
    (h : List.Forall₂ (Tracks exec Step Q E) gs ps) (pre : List γ) :
    Tracks exec (OneOf Step) (fun gs' _ => ∃ hs, gs' = pre ++ hs ∧ ∀ g ∈ hs, Over Q E g)
      F (pre ++ gs) (settleAll ps) := by
  induction h generalizing pre with
  | nil => exact ⟨[], rfl, by simp⟩
  | @cons g p gs ps hp hps ih =>
    apply Tracks.bind
    refine Tracks.mono ?_ (hp.frame pre gs)
    rintro _ x ⟨g', rfl, hover⟩
    apply Tracks.bind
    have hrest := ih (pre ++ [g'])
    rw [List.append_assoc, List.singleton_append] at hrest
    refine Tracks.mono ?_ hrest
    rintro _ xs ⟨hs, rfl, hovers⟩
    refine ⟨g' :: hs, by rw [List.append_assoc, List.singleton_append], fun y hy => ?_⟩
    rcases List.mem_cons.mp hy with rfl | hy
    · exact hover
    · exact hovers y hy

/-- The branches are led through their stages side by side, and in the end all are over. -/
theorem Tracks.inParallel (sched : List ℕ) {gs : List γ} {ps : List (Prog Op Ret ε α)}
    (h : List.Forall₂ (Tracks exec Step Q E) gs ps) :
    Tracks exec (OneOf Step) (fun gs' _ => ∀ g ∈ gs', Over Q E g) F gs (inParallel sched ps) := by
  induction sched generalizing gs ps with
  | nil =>
    refine Tracks.mono ?_ (Tracks.settleAll h [])
    rintro _ xs ⟨hs, rfl, hovers⟩
    exact hovers
  | cons i sched ih =>
    unfold Prog.inParallel
    cases hi : ps[i]? with
    | none => exact ih h
    | some p =>
      cases p with
      | done a => exact ih h
      | fail e => exact ih h
      | call op k =>
        intro t
        obtain ⟨pre, g, post, rfl, hp, hset, -⟩ := forall₂_at h hi
        obtain ⟨g', hstep, hrest⟩ := hp t
        exact ⟨pre ++ g' :: post, ⟨pre, g, g', post, rfl, rfl, hstep⟩, ih (hset g' _ hrest)⟩

theorem Tracks.joinAll (sched : List ℕ) {gs : List γ} {ps : List (Prog Op Ret ε α)}
    (h : List.Forall₂ (Tracks exec Step Q E) gs ps) :
    Tracks exec (OneOf Step) (fun gs' _ => ∀ g ∈ gs', Over Q E g) (fun gs' => ∀ g ∈ gs', Over Q E g)
      gs (joinAll sched ps) := by
  apply Tracks.bind
  refine Tracks.mono ?_ (Tracks.inParallel sched h)
  intro gs' xs hover
  cases xs.mapM id with
  | error e => exact hover
  | ok as => exact hover

end Threads

section Sequential

variable {σ : Type*} {exec : (op : Op) → σ → σ × Ret op}

variable (exec) in
theorem exists_run_settle (p : Prog Op Ret ε α) (s : σ) :
    ∃ x, p.settle.run exec s = ((p.run exec s).1, .ok x) := by
  induction p generalizing s with
  | done a => exact ⟨_, rfl⟩
  | fail e => exact ⟨_, rfl⟩
  | call op k ih => exact ih _ _

theorem run_inParallel_nil (sched : List ℕ) (s : σ) :
    ((inParallel sched ([] : List (Prog Op Ret ε α))).run exec s).1 = s := by
  induction sched with
  | nil => rfl
  | cons i sched ih => exact ih

theorem run_joinAll_fst (sched : List ℕ) (ps : List (Prog Op Ret ε α)) (s : σ) :
    ((joinAll sched ps).run exec s).1 = ((inParallel sched ps).run exec s).1 := by
  refine run_bind_fst exec (fun xs t => ?_) _ s
  cases xs.mapM id with
  | error e => rfl
  | ok as => rfl

end Sequential

end Prog

end Interleave
