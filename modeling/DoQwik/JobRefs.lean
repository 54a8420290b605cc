import DoQwik.FreshKeys
import DoQwik.Stages

/-! What jobs refer to. A handler looks a record up, and later writes its id into a job; meanwhile
records of its kind come and go. That the record belongs to the owner of the job is then a law of
every interleaving, if no record changes hands and the ids of new ones are fresh. -/
namespace DoQwik
open JsValues DocStore Interleave

/-- One kind of reference from jobs to records, with what makes it lasting: the owner of a job is
part of its terms, and that of a record never changes. -/
structure JobRef (δ : Type) where
  look : Db → ObjectId → Option δ
  /-- The id of the record that an operation creates. -/
  creates : DbOp → Option ObjectId
  ref : Job → Option ObjectId
  sets : JobSet → Option (Option ObjectId)
  owner : Job → ObjectId
  /-- What a job with a reference fulfils besides. -/
  due : Job → Prop
  owns : ObjectId → δ → Prop
  Same : δ → δ → Prop
  creates_aside : ∀ op, op.aside = true → creates op = none
  creates_jobs : ∀ op, op.writesJobs = true → creates op = none
  ref_apply : ∀ d now j, ref (d.apply now j) = (sets d).getD (ref j)
  owner_apply : ∀ {d : JobSet}, d.KeepsTerms → ∀ now j, owner (d.apply now j) = owner j
  due_apply : ∀ {d : JobSet}, d.KeepsTerms → ∀ now j, due j → due (d.apply now j)
  evolves : Evolves exec look Same creates
  owns_same : ∀ o d d', Same d d' → owns o d → owns o d'

/-- What a request still does: it may create the record `k`, it has found the record `k` of the
owner `o`, or neither. -/
inductive RefStage where
  | adding (k : ObjectId)
  | found (k o : ObjectId)
  | idle

def RefStage.pending : RefStage → Option ObjectId
  | .adding k => some k
  | _ => none

def RefStage.first (new : Option ObjectId) : RefStage := new.elim .idle .adding

theorem RefStage.pending_first (new : Option ObjectId) : (first new).pending = new := by
  cases new with
  | none => rfl
  | some k => rfl

theorem RefStage.first_ne_found (new : Option ObjectId) (k o : ObjectId) : first new ≠ .found k o := by
  cases new with
  | none => exact fun h => by cases h
  | some k => exact fun h => by cases h

section Steps

variable {δ : Type} (R : JobRef δ)

inductive RefStep : RefStage → DbOp → Db → RefStage → Prop where
  | other {g : RefStage} {op : DbOp} {s : Db} (hnew : R.creates op = none)
      (hjobs : op.writesJobs = false) : RefStep g op s g
  | created {k : ObjectId} {op : DbOp} {s : Db} (hnew : R.creates op = some k) :
      RefStep (.adding k) op s .idle
  | found {k o : ObjectId} {d : δ} {β : Type} {f : Db → β} {s : Db} (hd : R.look s k = some d)
      (ho : R.owns o d) : RefStep .idle (.read f) s (.found k o)
  | booked {g : RefStage} {j : Job} {s : Db}
      (hj : ∀ k, R.ref j = some k → g = .found k (R.owner j) ∧ R.due j) :
      RefStep g (.createJob j) s g
  | changed {g : RefStage} {sel : Job → Bool} {d : JobSet} {now : ℤ} {s : Db}
      (hterms : d.KeepsTerms) (hd : ∀ k, R.sets d = some (some k) → ∀ j, sel j = true →
        g = .found k (R.owner j) ∧ R.due j) :
      RefStep g (.updateJob sel d now) s g

abbrev Belongs (s : Db) (gs : ℕ → RefStage) (k o : ObjectId) : Prop :=
  Known R.look RefStage.pending (R.owns o) s gs k

structure Referring (s : Db) (gs : ℕ → RefStage) : Prop where
  jobs : AllJobs (fun j => ∀ k, R.ref j = some k → Belongs R s gs k (R.owner j) ∧ R.due j) s
  found : ∀ i k o, gs i = .found k o → Belongs R s gs k o
  fresh : Fresh R.look RefStage.pending s gs

/-- The record of a reference, if it is still there, belongs to the owner of the job. -/
def RefersOwn (s : Db) (j : Job) : Prop :=
  ∀ k d, R.ref j = some k → R.look s k = some d → R.owns (R.owner j) d ∧ R.due j

variable {R}

/-- A request creates a record only under its own id, and never comes back to a creation. -/
theorem refStep_setsAside : SetsAside R.creates RefStage.pending (RefStep R) where
  kept h hk := by
    cases h with
    | other | booked | changed => exact hk
    | created | found => cases hk
  used h hk := by
    cases h with
    | created hnew =>
      rw [hnew, Option.some.injEq] at hk
      exact ⟨congrArg some hk, rfl⟩
    | other hnew =>
      rw [hnew] at hk
      cases hk
    | found =>
      rw [R.creates_aside _ rfl] at hk
      cases hk
    | booked | changed =>
      rw [R.creates_jobs _ rfl] at hk
      cases hk

theorem refStep_aside (g : RefStage) (op : DbOp) (s : Db) (h : op.aside = true) :
    RefStep R g op s g := by
  refine .other (R.creates_aside op h) ?_
  cases op with
  | createJob | updateJob => cases h
  | _ => rfl

theorem refStep_counts (g : RefStage) (op : DbOp) (s : Db) (h : op.counts = true) :
    RefStep R g op s g :=
  refStep_aside g op s (DbOp.aside_of_counts h)

variable {s : Db} {gs : ℕ → RefStage} {i : ℕ} {op : DbOp} {g : RefStage}

/-- What is known of a record outlives every step. -/
theorem belongs_step {k o : ObjectId} (h : Belongs R s gs k o) (hstep : RefStep R (gs i) op s g) :
    Belongs R (exec op s).1 (Function.update gs i g) k o :=
  h.step R.evolves refStep_setsAside (R.owns_same o) hstep

/-- The law of the jobs after a step. -/
theorem Referring.jobs_step (h : Referring R s gs) (hstep : RefStep R (gs i) op s g) :
    AllJobs (fun j => ∀ k, R.ref j = some k →
      Belongs R (exec op s).1 (Function.update gs i g) k (R.owner j) ∧ R.due j) (exec op s).1 := by
  have hbefore : AllJobs (fun j => ∀ k, R.ref j = some k →
      Belongs R (exec op s).1 (Function.update gs i g) k (R.owner j) ∧ R.due j) s :=
    fun j hj k hk => (h.jobs j hj k hk).imp_left fun hb => belongs_step hb hstep
  refine allJobs_exec hbefore ?_ ?_
  · rintro j rfl k hk
    have hfound : gs i = .found k (R.owner j) ∧ R.due j := by
      generalize gs i = g₀ at hstep
      cases hstep with
      | other _ hjobs => cases hjobs
      | created hnew => cases (R.creates_jobs _ rfl).symm.trans hnew
      | booked hj => exact hj k hk
    exact ⟨belongs_step (h.found i _ _ hfound.1) hstep, hfound.2⟩
  · rintro sel d now j rfl hfind hj k hk
    obtain ⟨hterms, hd⟩ : d.KeepsTerms ∧ ∀ k, R.sets d = some (some k) → ∀ j, sel j = true →
        gs i = .found k (R.owner j) ∧ R.due j := by
      generalize gs i = g₀ at hstep
      cases hstep with
      | other _ hjobs => cases hjobs
      | created hnew => cases (R.creates_jobs _ rfl).symm.trans hnew
      | changed hterms hd => exact ⟨hterms, hd⟩
    rw [R.ref_apply] at hk
    rw [R.owner_apply hterms]
    cases hset : R.sets d with
    | none =>
      -- The job keeps its reference.
      rw [hset] at hk
      exact (hj k hk).imp_right (R.due_apply hterms now j)
    | some x =>
      rw [hset, Option.getD_some] at hk
      rw [hk] at hset
      obtain ⟨hfound, hdue⟩ := hd k hset j (Collection.mem_of_findOne hfind).2
      exact ⟨belongs_step (h.found i _ _ hfound) hstep, R.due_apply hterms now j hdue⟩

/-- Every step keeps the law. -/
theorem Referring.step (h : Referring R s gs) (hstep : RefStep R (gs i) op s g) :
    Referring R (exec op s).1 (Function.update gs i g) where
  jobs := h.jobs_step hstep
  found := by
    intro n k o hn
    refine belongs_step ?_ hstep
    by_cases hni : n = i
    · subst hni
      rw [Function.update_self] at hn
      subst hn
      generalize hg : gs n = g₀ at hstep
      cases hstep with
      | other | booked | changed => exact h.found n k o hg
      | found hd ho => exact h.fresh.known hd ho
    · rw [Function.update_of_ne hni] at hn
      exact h.found n k o hn
  fresh := h.fresh.step R.evolves refStep_setsAside hstep

def RefStage.foundBy (v : Option Json) (o : ObjectId) : RefStage :=
  match v.map castObjectId with
  | some (.ok (some k)) => .found k o
  | _ => .idle

theorem RefStage.foundBy_eq {v : Json} {k : ObjectId} (h : castObjectId v = .ok (some k))
    (o : ObjectId) : foundBy (some v) o = .found k o := by
  simp only [foundBy, Option.map_some, h]

/-- A lookup by the id `v` finds the record that `v` casts to. -/
theorem refStep_foundBy {v : Option Json} {o : ObjectId} {p : Option ObjectId → Bool}
    (hp : castForQuery objectIdType v = .ok p) {k : ObjectId} {d : δ} (hk : p (some k) = true)
    (hd : R.look s k = some d) (ho : R.owns o d) {β : Type} (f : Db → β) :
    RefStep R .idle (.read f) s (.foundBy v o) := by
  cases v with
  | none => exact refStep_aside _ _ s rfl
  | some v =>
    cases hv : castObjectId v with
    | error e =>
      simp only [RefStage.foundBy, Option.map_some, hv]
      exact refStep_aside _ _ s rfl
    | ok x =>
      cases x with
      | none =>
        simp only [RefStage.foundBy, Option.map_some, hv]
        exact refStep_aside _ _ s rfl
      | some i =>
        rw [RefStage.foundBy_eq hv]
        rw [castForQuery_of_castObjectId hp hv hk] at hd
        exact .found hd ho

/-- A program all of whose operations create no record and write no job stays at its stage. -/
theorem refStaged_of_obeys {α : Type} {p : Action α} {s : Db}
    (h : Obeys (fun _ op => R.creates op = none ∧ op.writesJobs = false) s p) (g : RefStage) :
    JobStaged (RefStep R) g p :=
  Prog.Tracks.of_follows (fun _ _ hop => .other hop.1 hop.2) h

end Steps

section Runs

variable {δ ι α : Type} {R : JobRef δ} {program : ι → Action α} {new : ι → Option ObjectId}

/-- In every interleaving over a database without jobs, the jobs refer to records of their
owners. The ids of new records are fresh. -/
theorem refersOwn_run (hstaged : ∀ r, JobStaged (RefStep R) (.first (new r)) (program r)) (s : Db)
    {calls : List ι} (hnew : (calls.filterMap new).Nodup)
    (hfree : ∀ r ∈ calls, ∀ k, new r = some k → R.look { s with jobs := .empty _ } k = none)
    (schedule : List ℕ) :
    let t := (runFrom (Pool.stepAt exec)
      (⟨{ s with jobs := .empty _ }, calls.map program⟩ : Pool Db DbOp Ret Thrown α)
      schedule).state
    AllJobs (RefersOwn R t) t := by
  let gs := stagesOf (fun r => RefStage.first (new r)) .idle calls
  have htracking : (⟨{ s with jobs := .empty _ }, calls.map program⟩ :
      Pool Db DbOp Ret Thrown α).Tracking exec (RefStep R) (fun _ _ => True) (fun _ => True) gs := by
    intro i p hp
    obtain ⟨r, hr, rfl⟩ := List.getElem?_map .. ▸ hp |> Option.map_eq_some_iff.mp
    change JobStaged (RefStep R) (stagesOf _ _ calls i) (program r)
    unfold stagesOf
    rw [hr, Option.elim_some]
    exact hstaged r
  have hstart : Referring R { s with jobs := .empty _ } gs := by
    refine ⟨allJobs_empty _ s, ?_, fresh_stagesOf rfl ?_ ?_⟩
    · intro i k o hi
      rcases stagesOf_cases (fun r => RefStage.first (new r)) .idle calls i
        with h | ⟨r, -, -, h⟩
      · cases h.symm.trans hi
      · exact absurd (h.symm.trans hi) (RefStage.first_ne_found _ k o)
    · simpa only [RefStage.pending_first] using hnew
    · simpa only [RefStage.pending_first] using hfree
  obtain ⟨gs', -, hend, -⟩ := htracking.run (I := Referring R) (P := fun _ _ => True)
    (fun _ _ _ _ _ hI _ _ hstep => hI.step hstep) hstart
    ((along_iff_split _ _ _ _).mpr fun _ _ _ _ => trivial)
  intro t j hj k d hk hd
  obtain ⟨hbelongs, hdue⟩ := hend.jobs j hj k hk
  exact ⟨hbelongs.holds d hd, hdue⟩

end Runs

end DoQwik
