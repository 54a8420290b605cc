import DoQwik.Footprints
import DoQwik.WorkerRemovals

/-! The archive of removed accounts. `delateWorker` makes its entry before it removes the account,
and other requests may come in between: a second removal of the same worker, a change of its
record, or a new account. -/
namespace DoQwik
open JsValues DocStore Interleave

section Operations

def DbOp.archives : DbOp → Bool
  | .createDeleteRecord _ => true
  | .deleteProvider _ => true
  | _ => false

variable {op : DbOp}

theorem exec_deleteRecords (hop : op.archives = false) (s : Db) :
    (exec op s).1.deleteRecords = s.deleteRecords := by
  cases op with
  | createDeleteRecord | deleteProvider => cases hop
  | createJob j => exact exec_createJob_view (v := Db.deleteRecords) j fun _ => rfl
  | createCounter c => exact exec_createCounter_view (v := Db.deleteRecords) c fun _ => rfl
  | createUser u => exact exec_createUser_view (v := Db.deleteRecords) u fun _ => rfl
  | createProvider p => exact exec_createProvider_view (v := Db.deleteRecords) p fun _ => rfl
  | _ => rfl

/-- Any other operation removes no account. -/
theorem account_of_exec_none (hop : op.archives = false) {s : Db} {w : ObjectId}
    (h : (exec op s).1.providers.get? w = none) : s.providers.get? w = none := by
  cases hwrites : op.writesProviders with
  | false => rwa [exec_providers_of_not_writesProviders hwrites] at h
  | true =>
    have hkeeps : op.keepsAccounts = true := by
      cases op with
      | createJob | updateJob => cases hwrites
      | deleteProvider => cases hop
      | _ => rfl
    have hstays : Stays s s := ⟨rfl, fun _ hw => hw⟩
    exact (hstays.exec hkeeps).accounts w h

/-- An account that is gone stays so, unless it is created again. -/
theorem exec_account_none {s : Db} {w : ObjectId} (hop : op.createsAccount ≠ some w)
    (h : s.providers.get? w = none) : (exec op s).1.providers.get? w = none := by
  cases hq : (exec op s).1.providers.get? w with
  | none => rfl
  | some q =>
    rcases accounts_evolve op s w q hq with ⟨p, hp, -⟩ | ⟨-, hcreates⟩
    · exact absurd (hp.symm.trans h) (by simp)
    · exact absurd hcreates hop

end Operations

section Stages

/-- Where a request is with the removal of a worker: it does not remove anybody (any more), it
may still make an entry, or it has made the entry for this account and is about to remove it. -/
inductive RemovalStage where
  | idle
  | asking
  | archived (w : ObjectId)

def RemovalStage.settled (g : RemovalStage) : Prop := ∀ w, g ≠ archived w

def DeleteRecord.ofOwnWorker (r : DeleteRecord) : Prop :=
  ∃ company, r.creationBy = some company ∧ isWorkerOf company r.params = true

/-- The steps of a request. The accounts of `base` are not created again. -/
inductive RemovalStep (base : Db) : RemovalStage → DbOp → Db → RemovalStage → Prop where
  | other {g : RemovalStage} {op : DbOp} {s : Db} (hop : op.archives = false)
      (hnew : ∀ w, op.createsAccount = some w → base.providers.get? w = none) :
      RemovalStep base g op s g
  | archived {r : DeleteRecord} {s : Db} (hown : r.ofOwnWorker) :
      RemovalStep base .asking (.createDeleteRecord r) s (.archived r.params.id)
  | removed {w : ObjectId} {sel : Provider → Bool} {s : Db} (hsel : ∀ q, sel q = true ↔ q.id = w) :
      RemovalStep base (.archived w) (.deleteProvider sel) s .idle

/-- The request goes through these steps, and does not end before it removed whom it archived. -/
abbrev Removing (base : Db) (g : RemovalStage) {α : Type} (p : Action α) : Prop :=
  Prog.Tracks exec (RemovalStep base) (fun g _ => g.settled) RemovalStage.settled g p

theorem settled_idle : RemovalStage.idle.settled := fun w hw => by cases hw

theorem settled_asking : RemovalStage.asking.settled := fun w hw => by cases hw

variable {base : Db}

theorem RemovalStep.of_counts {g : RemovalStage} {op : DbOp} {s : Db} (hop : op.counts = true) :
    RemovalStep base g op s g := by
  cases op with
  | read f | createCounter c | updateCounter table m n => exact .other rfl fun w hw => by cases hw
  | _ => cases hop

/-- A request that never asks for a removal has nothing to settle. -/
theorem removing_of_staged {α : Type} {p : Action α} (h : JobStaged (RemovalStep base) .idle p) :
    Removing base .idle p := by
  have hidle : ∀ g op (t : Db) g', g = .idle → RemovalStep base g op t g' → g' = .idle := by
    intro g op t g' hg hstep
    cases hstep with
    | other => exact hg
    | archived => cases hg
    | removed => rfl
  refine Prog.Tracks.within hidle ?_ ?_ rfl h
  · rintro g - rfl
    exact settled_idle
  · rintro g rfl
    exact settled_idle

end Stages

section Programs

variable {base : Db}

def DbOp.keepsRolls (op : DbOp) : Prop := op.archives = false ∧ op.createsAccount = none

theorem removing_of_obeys {α : Type} {p : Action α} {s : Db}
    (h : Obeys (fun _ op => op.keepsRolls) s p) : Removing base .idle p := by
  refine removing_of_staged (Prog.Tracks.of_follows (fun op t hop => ?_) h)
  exact .other hop.1 fun w hw => absurd (hop.2.symm.trans hw) (by simp)

theorem accountRule_keepsRolls : AccountRule fun _ op => op.keepsRolls where
  counts _ op hop := by
    cases op with
    | read f | createCounter c | updateCounter table m n => exact ⟨rfl, rfl⟩
    | _ => cases hop
  updateProvider _ _ _ _ := ⟨rfl, rfl⟩

theorem opRule_keepsRolls (r : JobRequest) : OpRule (fun _ op => op.keepsRolls) r := by
  constructor <;> intros <;> exact ⟨rfl, rfl⟩

theorem accountStages_removal {w : ObjectId} (hw : base.providers.get? w = none) :
    AccountStages (RemovalStep base) w .idle .idle where
  counts _ _ _ hop := .of_counts hop
  create s p hp := by
    refine .other rfl fun v hv => ?_
    cases hv
    rw [hp]
    exact hw
  updates op s hop := by
    cases op with
    | updateProvider | saveProviderToken | setProviderToken | delProviderToken =>
      exact .other rfl fun v hv => by cases hv
    | _ => cases hop

/-- The entry comes first, and then the removal of the account that it is about. -/
theorem removing_removeWorker (env : Env) (c : Caller) (b : AccountBody) {worker : Provider}
    (hf : castForQuery objectIdType b.workerId = .ok fun x => decide (x = some worker.id))
    (hown : isWorkerOf c.userId worker = true) :
    Removing base .asking (Providers.removeWorker env c b worker) := by
  apply tracks_getSequence_bind (fun _ _ hop => .of_counts hop) _ settled_asking
  intro n
  apply tracks_cast_bind settled_asking
  intro r hr t
  have hr' : r.params = worker ∧ r.creationBy = some c.userId := by
    obtain ⟨_, -, hr⟩ := bind_eq_ok hr
    obtain ⟨_, -, hr⟩ := bind_eq_ok hr
    cases hr
    exact ⟨rfl, rfl⟩
  refine ⟨.archived r.params.id, .archived ⟨c.userId, hr'.2, by rw [hr'.1]; exact hown⟩, ?_⟩
  unfold deleteData updateWorkerList
  rw [providerById_eq hf, hf, hr'.1]
  intro t'
  refine ⟨.idle, .removed (fun q => by simp), ?_⟩
  intro t''
  exact ⟨.idle, .other rfl (fun w hw => by cases hw), settled_idle⟩

/-- `delateWorker` archives and removes the one worker that it found. -/
theorem removing_delateWorker (env : Env) (c : Caller) (b : AccountBody)
    (hv : namesOneId b.workerId = true) :
    Removing base .asking (Providers.delateWorker env c b) := by
  refine tracks_checked (fun _ => settled_asking) fun _ => ?_
  cases hf : castForQuery objectIdType b.workerId with
  | error e =>
    apply tracks_cast_bind settled_asking
    intro p hp
    simp only [workersOf, hf, Except.map] at hp
    cases hp
  | ok f =>
    obtain ⟨a, rfl⟩ := castForQuery_of_namesOneId hv hf
    rw [workersOf_eq hf]
    apply tracks_query_bind fun _ _ hop => .of_counts hop
    intro t
    cases hlist : t.providers.find fun q => decide (some q.id = a) && isWorkerOf c.userId q with
    | nil => exact settled_asking
    | cons worker rest =>
      have hmem : worker ∈ t.providers.find fun q =>
          decide (some q.id = a) && isWorkerOf c.userId q := by
        rw [hlist]
        exact List.mem_cons_self
      have hsel := (List.mem_filter.mp hmem).2
      rw [Bool.and_eq_true, decide_eq_true_eq] at hsel
      obtain ⟨rfl, hown⟩ := hsel
      exact removing_removeWorker env c b hf hown

/-- The request names at most one worker to remove. -/
def StaffCall.plain : StaffCall → Bool
  | .account r =>
    match r.handler with
    | .delateWorker => namesOneId r.body.workerId
    | _ => true
  | _ => true

def StaffCall.firstStage : StaffCall → RemovalStage
  | .account r =>
    match r.handler with
    | .delateWorker => .asking
    | _ => .idle
  | _ => .idle

theorem StaffCall.settled_firstStage (call : StaffCall) : call.firstStage.settled := by
  cases call with
  | job r => exact settled_idle
  | account r =>
    obtain ⟨handler, c, b, env⟩ := r
    cases handler with
    | register | addWorker => exact settled_idle
    | delateWorker => exact settled_asking
  | provider r => exact settled_idle

theorem StaffCall.removing {call : StaffCall} (hplain : call.plain = true)
    (hnew : ∀ w, call.newAccount = some w → base.providers.get? w = none) :
    Removing base call.firstStage call.program := by
  have hdone {β : Type} {g : RemovalStage} {p : Action β} (hp : Removing base g p) :
      Removing base g (p >>= fun _ => pure ()) :=
    Prog.Tracks.bind (hp.mono fun _ _ hg => hg)
  cases call with
  | job r =>
    cases r with
    | change r => exact hdone (removing_of_obeys (obeys_program (opRule_keepsRolls r) .empty))
    | list r => exact hdone (removing_of_obeys (obeys_list (fun _ _ _ => ⟨rfl, rfl⟩) r .empty))
  | account r =>
    apply hdone
    refine Prog.Tracks.catchAll (E := RemovalStage.settled) (fun _ _ hg => hg) ?_
    obtain ⟨handler, c, b, env⟩ := r
    cases handler with
    | register files =>
      exact removing_of_staged (createsOnce_register (accountStages_removal (hnew _ rfl)) b files)
    | addWorker profilePic =>
      exact removing_of_staged
        (createsOnce_addWorker (accountStages_removal (hnew _ rfl)) c b profilePic)
    | delateWorker => exact removing_delateWorker env c b hplain
  | provider r => exact hdone (removing_of_obeys (obeys_provider accountRule_keepsRolls r .empty))

end Programs

section Runs

def archivedSince (s t : Db) : List DeleteRecord := t.deleteRecords.drop s.deleteRecords.length

def IsArchived (s t : Db) (w : ObjectId) : Prop := ∃ r ∈ archivedSince s t, r.params.id = w

/-- What holds of the archive in every state of a run that began in `base`: an account that is gone
has its entry, and one that has an entry is gone, or a request is about to remove it. -/
structure Archiving (base t : Db) (gs : ℕ → RemovalStage) : Prop where
  entries : base.deleteRecords <+: t.deleteRecords
  own : ∀ r ∈ archivedSince base t, r.ofOwnWorker
  warranted : ∀ i w, gs i = .archived w → IsArchived base t w
  gone : ∀ w, (base.providers.get? w).isSome = true → t.providers.get? w = none →
    IsArchived base t w
  pending : ∀ w, (base.providers.get? w).isSome = true → IsArchived base t w →
    t.providers.get? w = none ∨ ∃ i, gs i = .archived w

variable {base t : Db} {gs : ℕ → RemovalStage}

theorem archivedSince_append (h : base.deleteRecords <+: t.deleteRecords) (r : DeleteRecord) :
    archivedSince base (exec (.createDeleteRecord r) t).1 = archivedSince base t ++ [r] :=
  List.drop_append_of_le_length h.length_le

theorem Archiving.other (h : Archiving base t gs) {op : DbOp} (hop : op.archives = false)
    (hnew : ∀ w, op.createsAccount = some w → base.providers.get? w = none) :
    Archiving base (exec op t).1 gs := by
  have hsame := exec_deleteRecords hop t
  have hsince : archivedSince base (exec op t).1 = archivedSince base t := by
    rw [archivedSince, hsame, archivedSince]
  have hold : ∀ w, IsArchived base (exec op t).1 w ↔ IsArchived base t w := by
    intro w
    rw [IsArchived, hsince, IsArchived]
  constructor
  · rw [hsame]
    exact h.entries
  · rw [hsince]
    exact h.own
  · intro i w hi
    exact (hold w).mpr (h.warranted i w hi)
  · intro w hw hgone
    exact (hold w).mpr (h.gone w hw (account_of_exec_none hop hgone))
  · intro w hw hrec
    refine (h.pending w hw ((hold w).mp hrec)).imp_left (exec_account_none fun hcreates => ?_)
    rw [hnew w hcreates] at hw
    cases hw

theorem Archiving.archived (h : Archiving base t gs) {i : ℕ} {r : DeleteRecord}
    (hi : gs i = .asking) (hown : r.ofOwnWorker) :
    Archiving base (exec (.createDeleteRecord r) t).1
      (Function.update gs i (.archived r.params.id)) := by
  have hsince := archivedSince_append h.entries r
  have hmono : ∀ w, IsArchived base t w → IsArchived base (exec (.createDeleteRecord r) t).1 w := by
    rintro w ⟨r', hr', hw⟩
    exact ⟨r', by rw [hsince]; exact List.mem_append_left _ hr', hw⟩
  have hnew : IsArchived base (exec (.createDeleteRecord r) t).1 r.params.id :=
    ⟨r, by rw [hsince]; exact List.mem_append_right _ (List.mem_singleton_self r), rfl⟩
  constructor
  · exact h.entries.trans (List.prefix_append _ _)
  · intro r' hr'
    rw [hsince] at hr'
    rcases List.mem_append.mp hr' with hr' | hr'
    · exact h.own r' hr'
    · rw [List.mem_singleton.mp hr']
      exact hown
  · intro j w hj
    by_cases hji : j = i
    · rw [hji, Function.update_self] at hj
      cases hj
      exact hnew
    · rw [Function.update_of_ne hji] at hj
      exact hmono w (h.warranted j w hj)
  · intro w hw hgone
    exact hmono w (h.gone w hw hgone)
  · rintro w hw ⟨r', hr', rfl⟩
    rw [hsince] at hr'
    rcases List.mem_append.mp hr' with hr' | hr'
    · refine (h.pending _ hw ⟨r', hr', rfl⟩).imp_right fun ⟨j, hj⟩ => ⟨j, ?_⟩
      rw [Function.update_of_ne ?_, hj]
      rintro rfl
      rw [hi] at hj
      cases hj
    · rw [List.mem_singleton.mp hr']
      exact Or.inr ⟨i, Function.update_self _ _ _⟩

theorem Archiving.removed (h : Archiving base t gs) {i : ℕ} {w : ObjectId} {sel : Provider → Bool}
    (hi : gs i = .archived w) (hsel : ∀ q, sel q = true ↔ q.id = w) :
    Archiving base (exec (.deleteProvider sel) t).1 (Function.update gs i .idle) := by
  have hget : ∀ v, (exec (.deleteProvider sel) t).1.providers.get? v =
      if v = w then none else t.providers.get? v := Collection.get?_deleteOne_key t.providers hsel
  constructor
  · exact h.entries
  · exact h.own
  · intro j v hj
    by_cases hji : j = i
    · rw [hji, Function.update_self] at hj
      cases hj
    · rw [Function.update_of_ne hji] at hj
      exact h.warranted j v hj
  · intro v hv hgone
    rw [hget] at hgone
    split at hgone
    · rename_i hvw
      rw [hvw]
      exact h.warranted i w hi
    · exact h.gone v hv hgone
  · intro v hv hrec
    rw [hget]
    by_cases hvw : v = w
    · exact Or.inl (if_pos hvw)
    · rw [if_neg hvw]
      rcases h.pending v hv hrec with hgone | ⟨j, hj⟩
      · exact Or.inl hgone
      · have hji : j ≠ i := by
          intro hji
          rw [hji, hi] at hj
          cases hj
          exact hvw rfl
        exact Or.inr ⟨j, by rw [Function.update_of_ne hji, hj]⟩

theorem Archiving.step (h : Archiving base t gs) {i : ℕ} {op : DbOp} {g : RemovalStage}
    (hstep : RemovalStep base (gs i) op t g) :
    Archiving base (exec op t).1 (Function.update gs i g) := by
  generalize hg : gs i = old at hstep
  cases hstep with
  | other hop hnew =>
    rw [← hg, Function.update_eq_self]
    exact h.other hop hnew
  | archived hown => exact h.archived hg hown
  | removed hsel => exact h.removed hg hsel

def siteStaff (s : Db) (calls : List StaffCall) : Pool Db DbOp Ret Thrown Unit :=
  ⟨s, calls.map StaffCall.program⟩

def firstStages (calls : List StaffCall) (i : ℕ) : RemovalStage :=
  (calls[i]?).elim .idle StaffCall.firstStage

theorem settled_firstStages (calls : List StaffCall) (i : ℕ) : (firstStages calls i).settled := by
  unfold firstStages
  cases calls[i]? with
  | none => exact settled_idle
  | some call => exact call.settled_firstStage

theorem archiving_start (s : Db) (calls : List StaffCall) :
    Archiving s (siteStaff s calls).state (firstStages calls) := by
  have hempty : archivedSince s (siteStaff s calls).state = [] := List.drop_length
  constructor
  · exact List.prefix_refl _
  · rw [hempty]
    exact fun r hr => by cases hr
  · exact fun i w hi => absurd hi (settled_firstStages calls i w)
  · intro w hw hgone
    have hgone' : s.providers.get? w = none := hgone
    rw [hgone'] at hw
    cases hw
  · rintro w - ⟨r, hr, -⟩
    rw [hempty] at hr
    cases hr

/-- In every interleaving of requests that add, edit and remove workers (each removal naming one id)
with job requests, in every state: an account that is gone has an entry in the archive, made since,
and every new entry is about a worker of the company that made it. Once all requests are through, an
account with a new entry is gone. -/
theorem accounts_removed_iff_archived (s : Db) (calls : List StaffCall)
    (hplain : ∀ call ∈ calls, call.plain = true)
    (hnew : ∀ call ∈ calls, ∀ w, call.newAccount = some w → s.providers.get? w = none)
    (sched : List ℕ) :
    let c := runFrom (Pool.stepAt exec) (siteStaff s calls) sched
    (∀ r ∈ archivedSince s c.state, r.ofOwnWorker) ∧
    ∀ w, (s.providers.get? w).isSome = true →
      (c.state.providers.get? w = none → IsArchived s c.state w) ∧
      (c.finished = true → IsArchived s c.state w → c.state.providers.get? w = none) := by
  have htracking : (siteStaff s calls).Tracking exec (RemovalStep s) (fun g _ => g.settled)
      RemovalStage.settled (firstStages calls) := by
    intro i p hp
    rw [siteStaff, List.getElem?_map] at hp
    obtain ⟨call, hcall, rfl⟩ := Option.map_eq_some_iff.mp hp
    rw [firstStages, hcall, Option.elim_some]
    have hmem := List.mem_of_getElem? hcall
    exact call.removing (hplain call hmem) (hnew call hmem)
  have hfree : Along (Pool.stepAt exec) (fun _ _ => True) (siteStaff s calls) sched :=
    (along_iff_split _ _ _ _).mpr fun _ _ _ _ => trivial
  obtain ⟨gs, hend, harchiving, hfirst⟩ := htracking.run (I := Archiving s)
    (fun _ _ _ _ _ h _ _ hstep => h.step hstep) (archiving_start s calls) hfree
  refine ⟨harchiving.own, fun w hw => ⟨harchiving.gone w hw, fun hdone hrec => ?_⟩⟩
  -- Nobody is about to remove the account any more.
  refine (harchiving.pending w hw hrec).resolve_right fun ⟨i, hi⟩ => ?_
  have hsettled : (gs i).settled := by
    cases hp : (runFrom (Pool.stepAt exec) (siteStaff s calls) sched).threads[i]? with
    | none =>
      rw [hfirst i (Or.inr ((Pool.threads_run_eq_none exec _ _ _).mp hp))]
      exact settled_firstStages calls i
    | some p =>
      rcases hend.ended hp (Pool.finished_iff.mp hdone i) with ⟨a, -, hg⟩ | ⟨-, hg⟩
      · exact hg
      · exact hg
  exact hsettled w hi

def twoRemovals : List StaffCall :=
  [.account ((sampleDelete "worker----01" "delete----01").request company),
    .account ((sampleDelete "worker----01" "delete----02").request company),
    .account ((sampleAdd "901" "worker----02").request company)]

/-- The first removal takes its number, and from there on the requests take turns. -/
theorem accounts_removed_twice :
    let c := runFrom (Pool.stepAt exec) (siteStaff sampleDb twoRemovals)
      ([0, 0, 0] ++ (List.range 40).map fun n => n % 3)
    ((archivedSince sampleDb c.state).map fun r => r.params.id) =
        [idOf "worker----01", idOf "worker----01"] ∧
      c.state.providers.get? (idOf "worker----01") = none := by
  intro c
  have hentries : ((archivedSince sampleDb c.state).map fun r => r.params.id) =
      [idOf "worker----01", idOf "worker----01"] := by decide +kernel
  have hnew : ∀ call ∈ twoRemovals,
      call.newAccount.all (fun w => (sampleDb.providers.get? w).isNone) = true := by decide +kernel
  have hremoved := (accounts_removed_iff_archived sampleDb twoRemovals (by decide +kernel)
    (fun call hcall w hw => by
      have hfree := hnew call hcall
      rw [hw, Option.all_some] at hfree
      exact Option.isNone_iff_eq_none.mp hfree)
    ([0, 0, 0] ++ (List.range 40).map fun n => n % 3)).2 (idOf "worker----01") (by decide +kernel)
  refine ⟨hentries, hremoved.2 (by decide +kernel) ?_⟩
  have hmem : idOf "worker----01" ∈ (archivedSince sampleDb c.state).map fun r => r.params.id := by
    rw [hentries]
    exact List.mem_cons_self
  obtain ⟨r, hr, hid⟩ := List.mem_map.mp hmem
  exact ⟨r, hr, hid⟩

end Runs

end DoQwik
