import DoQwik.JobRefs
import DoQwik.JobRecords
import DoQwik.CompanyWorkers

/-! The workers of jobs. `assignJobToWorker` looks the worker up among those of the caller, and
later writes its id into a job of the caller; meanwhile workers come and go. An account that is
gone is never replaced by another one of the same id. -/
namespace DoQwik
open JsValues DocStore Interleave

section Accounts

def DbOp.createsAccount : DbOp → Option ObjectId
  | .createProvider p => some p.id
  | _ => none

/-- The type and the company of an account are given to it for ever. -/
def SameEmployment (p q : Provider) : Prop :=
  q.userType = p.userType ∧ q.companyData = p.companyData

theorem employment_updateOne {c : Collection Provider.id} {sel : Provider → Bool}
    (f : Provider → Provider) (hf : ∀ p, (f p).id = p.id) (hsame : ∀ p, SameEmployment p (f p))
    {w : ObjectId} {q : Provider} (hq : (c.updateOne sel f hf).get? w = some q) :
    ∃ p, c.get? w = some p ∧ SameEmployment p q := by
  rw [Collection.get?_updateOne] at hq
  split at hq
  · obtain ⟨p, hp, rfl⟩ := Option.map_eq_some_iff.mp hq
    exact ⟨p, hp, hsame p⟩
  · exact ⟨q, hq, rfl, rfl⟩

theorem accounts_evolve :
    Evolves exec (fun s : Db => s.providers.get?) SameEmployment DbOp.createsAccount := by
  intro op s w q hq
  dsimp only at hq ⊢
  cases hop : op.writesProviders with
  | false =>
    rw [exec_providers_of_not_writesProviders hop] at hq
    exact Or.inl ⟨q, hq, rfl, rfl⟩
  | true =>
    cases op with
    | createProvider p =>
      cases hi : s.providers.insert p with
      | none =>
        rw [exec_createProvider_none hi] at hq
        exact Or.inl ⟨q, hq, rfl, rfl⟩
      | some ps =>
        rw [exec_createProvider_some hi] at hq
        dsimp only at hq
        rw [Collection.get?_insert hi] at hq
        split at hq
        · rename_i hid
          refine Or.inr ⟨?_, congrArg some hid⟩
          rw [← hid]
          exact Collection.get?_of_insert hi
        · exact Or.inl ⟨q, hq, rfl, rfl⟩
    | updateProvider sel d now =>
      exact Or.inl (employment_updateOne _ (d.apply_id now) (fun _ => ⟨rfl, rfl⟩) hq)
    | saveProviderToken id t now =>
      exact Or.inl (employment_updateOne (fun p => { p with token := some t, updatedAt := now })
        (fun _ => rfl) (fun _ => ⟨rfl, rfl⟩) hq)
    | loginProvider id t d now =>
      exact Or.inl (employment_updateOne (saveLogin t d now) (fun _ => rfl)
        (fun _ => ⟨rfl, rfl⟩) hq)
    | pullWorkers c sel now =>
      exact Or.inl (employment_updateOne (pullFrom sel now) (fun _ => rfl)
        (fun _ => ⟨rfl, rfl⟩) hq)
    | deleteProvider sel =>
      change (s.providers.deleteOne sel).get? w = some q at hq
      rw [Collection.get?_deleteOne] at hq
      split at hq
      · cases hq
      · exact Or.inl ⟨q, hq, rfl, rfl⟩
    | _ => cases hop

/-- The reference of a job to its worker, who is one of the company of the job. -/
def workerRef : JobRef Provider where
  look s := s.providers.get?
  creates := DbOp.createsAccount
  ref := Job.workerData
  sets := JobSet.workerData
  owner := Job.providerData
  due j := j.providerUserType = companyType
  owns company p := isWorkerOf company p = true
  Same := SameEmployment
  creates_aside op h := by
    cases op with
    | createProvider => cases h
    | _ => rfl
  creates_jobs op h := by
    cases op with
    | createProvider => cases h
    | _ => rfl
  ref_apply _ _ _ := rfl
  owner_apply h now j := congrArg JobTerms.providerData (h.apply_terms now j)
  due_apply h now j hj := (congrArg JobTerms.providerUserType (h.apply_terms now j)).trans hj
  evolves := accounts_evolve
  owns_same company p q hsame hp := by
    simpa only [isWorkerOf, hsame.1, hsame.2] using hp

abbrev StaffStep := RefStep workerRef

end Accounts

section Programs

/-- A rule on operations that holds of the reads, of the numbers, and of the updates of
accounts. -/
structure AccountRule (Φ : Db → DbOp → Prop) : Prop where
  counts : ∀ s op, op.counts = true → Φ s op
  updateProvider : ∀ s sel d now, Φ s (.updateProvider sel d now)

section Providers

variable {Φ : Db → DbOp → Prop} (h : AccountRule Φ)

include h

theorem AccountRule.read (s : Db) {β : Type} (f : Db → β) : Φ s (.read f) := h.counts s _ rfl

theorem obeys_numbered {α : Type} (table : String) {k : ℕ → Action α}
    (hk : ∀ s n, Obeys Φ s (k n)) (s : Db) : Obeys Φ s (getSequence table >>= k) :=
  follows_getSequence_bind (K := fun _ => True) (fun _ _ _ _ => trivial) (fun _ _ _ => trivial)
    (fun t op hop _ => h.counts t op hop) table (fun t n _ => hk t n) trivial

theorem obeys_updateProviderData {α : Type} (env : Env)
    (condition : Except Thrown (Provider → Bool)) (data : Except Thrown ProviderSet)
    {k : Option Provider → Action α} (hk : ∀ s x, Obeys Φ s (k x)) (s : Db) :
    Obeys Φ s (updateProviderData env condition data >>= k) := by
  unfold updateProviderData
  cases condition with
  | error e => trivial
  | ok p =>
    cases data with
    | error e => trivial
    | ok d => exact ⟨h.updateProvider s p d env.now, fun t _ => hk _ _⟩

theorem obeys_editWorker (env : Env) (c : Caller) (b : ProviderBody) (profilePic : Option String)
    (s : Db) : Obeys Φ s (editWorker env c b profilePic) := by
  refine follows_checked (fun _ => trivial) fun _ => follows_query_bind (h.read _ _) fun t _ => ?_
  cases t.providers.get? c.userId with
  | none => trivial
  | some company =>
    refine follows_cast_bind fun p _ => follows_query_bind (h.read _ _) fun t' _ => ?_
    split
    · refine obeys_updateProviderData h env _ _ (fun t'' x => ?_) t'
      cases x with
      | none => trivial
      | some w => exact ⟨h.read _ _, fun _ _ => trivial⟩
    · trivial

theorem obeys_workerDetail (b : ProviderBody) (s : Db) : Obeys Φ s (workerDetail b) := by
  refine follows_checked (fun _ => trivial) fun _ => ?_
  unfold getProviderById serviceList subServiceList
  cases providerById b.workerId with
  | error e => trivial
  | ok p =>
    refine ⟨h.read _ _, fun t _ => ?_⟩
    cases offeredBy b.workerId with
    | error e => trivial
    | ok q => exact ⟨h.read _ _, fun _ _ => ⟨h.read _ _, fun _ _ => trivial⟩⟩

theorem obeys_providerDetails (b : ProviderBody) (card : ProviderCard) (s : Db) :
    Obeys Φ s (providerDetails b card) := by
  refine follows_cast_bind fun p _ => ?_
  refine follows_query_bind (h.read _ _) fun _ _ => follows_query_bind (h.read _ _) fun _ _ => ?_
  refine follows_cast_bind fun g _ => follows_query_bind (h.read _ _) fun _ _ => ?_
  exact follows_cast_bind fun f _ => follows_query_bind (h.read _ _) fun _ _ => trivial

/-- The handlers of the provider controller only read, number and update accounts. -/
theorem obeys_provider (r : ProviderRequest) (s : Db) : Obeys Φ s r.program := by
  obtain ⟨handler, apiKey, caller, b, env⟩ := r
  have hkey : ∀ {p : Action ProviderResponse}, Obeys Φ s p → Obeys Φ s (withKey apiKey p) := by
    intro p hp
    unfold withKey
    split
    · exact hp.catchAll fun _ _ => trivial
    · trivial
  have hauth : ∀ {p : Caller → Action ProviderResponse}, (∀ c, Obeys Φ s (p c)) →
      Obeys Φ s (authenticated caller p) := by
    intro p hp
    unfold authenticated
    cases caller with
    | none => trivial
    | some c => exact (hp c).catchAll fun _ _ => trivial
  cases handler with
  | workerDetail => exact hkey (obeys_workerDetail h b s)
  | getServiceProviderByID =>
    refine hkey (follows_checked (fun _ => trivial) fun _ => follows_cast_bind fun p _ => ?_)
    refine follows_query_bind (h.read _ _) fun t _ => ?_
    cases (t.providers.findOne p).map Provider.card with
    | none => trivial
    | some card =>
      dsimp only
      split
      · trivial
      · exact obeys_providerDetails h b card t
  | companyWorkerList =>
    refine hauth fun c => follows_query_bind (h.read _ _) fun t _ => ?_
    cases t.providers.get? c.userId with
    | none => trivial
    | some company =>
      refine follows_query_bind (h.read _ _) fun t' _ => ?_
      unfold sendWorkers
      split
      · trivial
      · trivial
  | editWorker profilePic => exact hauth fun c => obeys_editWorker h env c b profilePic s

end Providers

section Registration

variable {Φ : Db → DbOp → Prop}

theorem obeys_createDataWithoutToken {α : Type} {data : Except Thrown Provider}
    (hcreate : ∀ s p, data = .ok p → Φ s (.createProvider p)) {k : Provider → Action α}
    (hk : ∀ s p, Obeys Φ s (k p)) (s : Db) : Obeys Φ s (createDataWithoutToken data >>= k) := by
  refine Prog.Follows.bind (follows_cast_bind fun p hp => ⟨hcreate s p hp, fun t _ => ?_⟩)
  cases hi : t.providers.insert p with
  | none =>
    rw [exec_createProvider_none hi]
    trivial
  | some ps =>
    rw [exec_createProvider_some hi]
    exact hk _ p

theorem obeys_alreadyRegister (b : AccountBody) (result : String → AccountResult) (s : Db) :
    Obeys Φ s (Providers.alreadyRegister b result) := by
  unfold Providers.alreadyRegister
  rcases b.phone with _ | v
  · trivial
  · dsimp only
    split
    · trivial
    · trivial

/-- A rule on operations that holds of all that the registration of a provider does. -/
structure RegisterRule (Φ : Db → DbOp → Prop) (env : Env) (b : AccountBody) : Prop
    extends AccountRule Φ where
  create : ∀ s profilePic certificate seqId p, refusal (Providers.ownerChecks b) = none →
    Providers.newProvider env b profilePic certificate seqId = .ok p → Φ s (.createProvider p)
  clear : ∀ s id, Φ s (.delProviderToken id)
  cache : ∀ s id, Φ s (.setProviderToken id (generateProviderToken env id))
  record : ∀ s id t now, Φ s (.saveProviderToken id t now)

theorem obeys_register {env : Env} {b : AccountBody} (h : RegisterRule Φ env b)
    (files : Option AccountFiles) (s : Db) : Obeys Φ s (Providers.register env b files) := by
  refine follows_checked (fun _ => trivial) fun _ => ?_
  rcases files with _ | files
  · trivial
  refine follows_checked (fun _ => trivial) fun _ => ?_
  split
  · trivial
  refine follows_checked (fun _ => trivial) fun howner => follows_cast_bind fun p _ => ?_
  refine follows_query_bind (h.read s _) fun t _ => ?_
  split
  · refine obeys_numbered h.toAccountRule _ (fun t' n => ?_) t
    rcases files.profilePic with _ | profilePic
    · trivial
    have hsend (t : Db) (x : Option Provider) : Obeys Φ t (Providers.sendAccount x) := by
      cases x with
      | none => trivial
      | some p => trivial
    refine Prog.Follows.bind (obeys_createDataWithoutToken
      (fun t p hp => h.create t profilePic _ n p howner hp) (fun t p => ?_) t' |>.mono ?_)
    · exact ⟨h.clear t p.id, fun t _ => ⟨h.cache _ p.id, fun _ _ => ⟨h.record _ p.id _ _,
        fun _ _ => ⟨h.read _ _, fun _ _ => trivial⟩⟩⟩⟩
    · exact fun t x _ => hsend t x
  · exact obeys_alreadyRegister b _ t

end Registration

abbrev Bystanding {α : Type} (s : Db) (p : Action α) : Prop :=
  Obeys (fun _ op => op.createsAccount = none ∧ op.writesJobs = false) s p

theorem accountRule_bystanding :
    AccountRule fun _ op => op.createsAccount = none ∧ op.writesJobs = false where
  counts _ op hop := by
    cases op with
    | read f | createCounter c | updateCounter table m n => exact ⟨rfl, rfl⟩
    | _ => cases hop
  updateProvider _ _ _ _ := ⟨rfl, rfl⟩

theorem bystanding_delateWorker (env : Env) (c : Caller) (b : AccountBody) (s : Db) :
    Bystanding s (Providers.delateWorker env c b) := by
  refine follows_checked (fun _ => trivial) fun _ => follows_cast_bind fun p _ => ?_
  refine follows_query_bind ⟨rfl, rfl⟩ fun t _ => ?_
  cases t.providers.find p with
  | nil => trivial
  | cons worker rest =>
    refine obeys_numbered accountRule_bystanding _ (fun t' n => ?_) t
    refine follows_cast_bind fun r _ => ⟨⟨rfl, rfl⟩, fun t'' _ => ?_⟩
    unfold deleteData updateWorkerList providerById
    cases castForQuery objectIdType b.workerId with
    | error e => trivial
    | ok f => exact ⟨⟨rfl, rfl⟩, fun _ _ => ⟨⟨rfl, rfl⟩, fun _ _ => trivial⟩⟩

section Creations

/-- The operations that bring an account up to date: its token and its list of workers. -/
def DbOp.updatesAccount : DbOp → Bool
  | .updateProvider _ _ _ => true
  | .saveProviderToken _ _ _ => true
  | .setProviderToken _ _ => true
  | .delProviderToken _ => true
  | _ => false

/-- The stages `before` and `after` the creation of the one account of a request. -/
structure AccountStages {γ : Type} (Step : γ → DbOp → Db → γ → Prop) (newId : ObjectId)
    (before after : γ) : Prop where
  counts : ∀ g op s, op.counts = true → Step g op s g
  create : ∀ s p, p.id = newId → Step before (.createProvider p) s after
  updates : ∀ op s, op.updatesAccount = true → Step after op s after

variable {γ : Type} {Step : γ → DbOp → Db → γ → Prop} {before after : γ}

/-- The account is created under the id of the request. -/
theorem staged_createDataWithoutToken {newId : ObjectId}
    (h : AccountStages Step newId before after) {α : Type} {data : Except Thrown Provider}
    (hid : ∀ p, data = .ok p → p.id = newId) {Q : γ → α → Prop} {k : Provider → Action α}
    (hk : ∀ p, Prog.Tracks exec Step Q (fun _ => True) after (k p)) :
    Prog.Tracks exec Step Q (fun _ => True) before (createDataWithoutToken data >>= k) := by
  apply Prog.Tracks.bind
  refine tracks_cast_bind trivial fun p hp t => ⟨after, h.create t p (hid p hp), ?_⟩
  cases hi : t.providers.insert p with
  | none =>
    rw [exec_createProvider_none hi]
    trivial
  | some ps =>
    rw [exec_createProvider_some hi]
    exact hk p

theorem newProvider_id {env : Env} {b : AccountBody} {profilePic certificate : String} {seqId : ℕ}
    {p : Provider} (h : Providers.newProvider env b profilePic certificate seqId = .ok p) :
    p.id = env.newId := by
  unfold Providers.newProvider at h
  repeat obtain ⟨_, -, h⟩ := bind_eq_ok h
  rw [← Except.ok.inj h]

theorem staged_alreadyRegister (b : AccountBody) (result : String → AccountResult) (g : γ) :
    JobStaged Step g (Providers.alreadyRegister b result) := by
  unfold Providers.alreadyRegister
  rcases b.phone with _ | v
  · trivial
  · dsimp only
    split
    · trivial
    · trivial

/-- `register` creates at most one account. -/
theorem createsOnce_register {env : Env} (h : AccountStages Step env.newId before after)
    (b : AccountBody) (files : Option AccountFiles) :
    JobStaged Step before (Providers.register env b files) := by
  refine tracks_checked (fun _ => trivial) fun _ => ?_
  rcases files with _ | files
  · trivial
  refine tracks_checked (fun _ => trivial) fun _ => ?_
  split
  · trivial
  refine tracks_checked (fun _ => trivial) fun _ => tracks_cast_bind trivial fun p _ => ?_
  refine tracks_query_bind (h.counts _) fun t => ?_
  split
  · refine tracks_getSequence_bind (h.counts _) _ trivial fun n => ?_
    rcases files.profilePic with _ | pic
    · trivial
    · apply Prog.Tracks.bind
      refine staged_createDataWithoutToken h (fun p hp => newProvider_id hp) fun p => ?_
      -- The token goes into the cache and the record, which is read for the answer.
      intro t₁
      refine ⟨after, h.updates _ t₁ rfl, fun t₂ => ⟨after, h.updates _ t₂ rfl, fun t₃ => ?_⟩⟩
      refine ⟨after, h.updates _ t₃ rfl, fun t₄ => ⟨after, h.counts _ _ t₄ rfl, ?_⟩⟩
      change JobStaged Step after (Providers.sendAccount (t₄.providers.get? p.id))
      cases t₄.providers.get? p.id with
      | none => trivial
      | some q => trivial
  · exact staged_alreadyRegister b _ _

/-- `addWorker` creates at most one account, and then writes the list of the company. -/
theorem createsOnce_addWorker {env : Env} (h : AccountStages Step env.newId before after)
    (c : Caller) (b : AccountBody) (profilePic : Option String) :
    JobStaged Step before (Providers.addWorker env c b profilePic) := by
  refine tracks_checked (fun _ => trivial) fun _ => ?_
  refine tracks_query_bind (h.counts _) fun t => ?_
  cases t.providers.get? c.userId with
  | none => trivial
  | some company =>
    refine tracks_cast_bind trivial fun p _ => tracks_query_bind (h.counts _) fun t' => ?_
    split
    · refine tracks_getSequence_bind (h.counts _) _ trivial fun n => ?_
      refine staged_createDataWithoutToken h (fun p hp => (newWorker_spec hp).1) fun worker => ?_
      exact fun t'' => ⟨after, h.updates _ t'' rfl, trivial⟩
    · exact staged_alreadyRegister b _ _

end Creations

def AccountRequest.newAccount (r : AccountRequest) : Option ObjectId :=
  match r.handler with
  | .register _ => some r.env.newId
  | .addWorker _ => some r.env.newId
  | .delateWorker => none

theorem accountStages_staff (w : ObjectId) : AccountStages StaffStep w (.adding w) .idle where
  counts := refStep_counts
  create s p hp := .created (congrArg some hp)
  updates op s hop := by
    cases op with
    | updateProvider | saveProviderToken | setProviderToken | delProviderToken =>
      exact .other rfl rfl
    | _ => cases hop

theorem staffed_account (r : AccountRequest) :
    JobStaged StaffStep (.first r.newAccount) r.program := by
  apply Prog.Tracks.catchAll (fun _ _ _ => trivial)
  obtain ⟨handler, c, b, env⟩ := r
  cases handler with
  | register files => exact createsOnce_register (accountStages_staff _) b files
  | addWorker profilePic => exact createsOnce_addWorker (accountStages_staff _) c b profilePic
  | delateWorker => exact refStaged_of_obeys (bystanding_delateWorker env c b .empty) .idle

def JobRequest.staffStage (r : JobRequest) : RefStage :=
  match r.handler with
  | .assignJobToWorker => .foundBy r.body.workerID r.caller.userId
  | _ => .idle

theorem newJob_workerData {env : Env} {b : JobBody} {image : Option String} {seqId : ℕ}
    {user : User} {provider : Provider} {offer : ProviderSubService} {service : Service}
    {sub : SubService} {j : Job}
    (h : newJob env b image seqId user provider offer service sub = .ok j) :
    j.workerData = none := by
  unfold newJob at h
  iterate 12 obtain ⟨_, -, h⟩ := bind_eq_ok h
  cases h
  rfl

/-- What a job request relies on: the worker it found is the one that it then assigns. -/
theorem jobStages_staff (r : JobRequest) : JobStages StaffStep r .idle r.staffStage where
  aside := refStep_aside
  found := by
    intro _ β f s hfinds
    unfold JobRequest.staffStage
    split
    · rename_i hr
      simp only [JobRequest.finds, JobRequest.lookups, hr] at hfinds
      obtain ⟨sel, p, hsel, hmem, hp⟩ := exists_of_someMatch hfinds
      obtain ⟨q, hq, rfl⟩ := map_eq_ok hsel
      simp only [Bool.and_eq_true, decide_eq_true_eq] at hp
      have hown : isWorkerOf r.caller.userId p = true := by simp [isWorkerOf, hp.1.2, hp.2]
      exact refStep_foundBy hq hp.1.1 (Collection.get?_key hmem) hown f
    · exact .other rfl rfl
  straight := by
    intro hr
    unfold JobRequest.staffStage
    split
    · rename_i hh
      rw [hh] at hr
      cases hr
    · rfl
  createJob := by
    intro _ s image seqId user provider offer service sub j _ hnew
    refine .booked fun w hw => ?_
    cases (newJob_workerData hnew).symm.trans hw
  updateJob := by
    intro s p j d hchecks hp hplan
    refine .changed (plan_keepsTerms hplan) fun w hw j' hj' => ?_
    cases plan_change hplan with
    | assignJobToWorker hr hworker =>
      have hfilter : r.filter j' = true := ((Bool.and_eq_true _ _).mp hj').2
      simp only [JobRequest.filter, hr, Bool.and_eq_true, decide_eq_true_eq] at hfilter
      refine ⟨?_, hfilter.2⟩
      simp only [JobRequest.staffStage, hr]
      change RefStage.foundBy r.body.workerID r.caller.userId = .found w j'.providerData
      cases hv : r.body.workerID with
      | none =>
        rw [hv] at hworker
        cases hworker
        cases hw
      | some v =>
        rw [hv] at hworker
        obtain ⟨a, ha, rfl⟩ := map_eq_ok hworker
        obtain rfl : a = some w := Option.some.inj hw
        rw [RefStage.foundBy_eq ha, hfilter.1]
    | reject | proceedToPay | paymentSuccess | jobAccept | jobStart | jobFinish | paymentUpdate
    | userJobReschedule | submitFeedback | replyFeedback => cases hw
  pay := by
    intro _ s p _
    exact .changed (by constructor <;> rfl) fun w hw => by cases hw

end Programs

section Runs

/-- A request that has to do with jobs or with the accounts of workers. -/
inductive StaffCall where
  | job (r : JobCall)
  | account (r : AccountRequest)
  | provider (r : ProviderRequest)

namespace StaffCall

def program : StaffCall → Action Unit
  | .job r => r.program >>= fun _ => pure ()
  | .account r => r.program >>= fun _ => pure ()
  | .provider r => r.program >>= fun _ => pure ()

def newAccount : StaffCall → Option ObjectId
  | .account r => r.newAccount
  | _ => none

theorem staged (r : StaffCall) : JobStaged StaffStep (.first r.newAccount) r.program := by
  cases r with
  | job r =>
    cases r with
    | change r => exact Prog.Tracks.bind (staged_program (jobStages_staff r))
    | list r =>
      have hreads := obeys_list (Φ := fun _ op => op.createsAccount = none ∧ op.writesJobs = false)
        (fun _ _ _ => ⟨rfl, rfl⟩) r .empty
      exact Prog.Tracks.bind (refStaged_of_obeys hreads .idle)
  | account r => exact Prog.Tracks.bind (staffed_account r)
  | provider r =>
    have hupdates := obeys_provider accountRule_bystanding r .empty
    exact Prog.Tracks.bind (refStaged_of_obeys hupdates .idle)

end StaffCall

def staffPool (s : Db) (calls : List StaffCall) : Pool Db DbOp Ret Thrown Unit :=
  ⟨{ s with jobs := .empty _ }, calls.map StaffCall.program⟩

/-- The worker of a job, if its account is still there, is a worker of the job's company. -/
def OwnWorker (s : Db) (j : Job) : Prop :=
  ∀ w p, j.workerData = some w → s.providers.get? w = some p →
    p.userType = workerType ∧ p.companyData = some j.providerData ∧
      j.providerUserType = companyType

/-- In every interleaving of job requests with requests that add, edit and remove workers, over
any database without jobs, the worker of a job is a worker of its company, in every state. The
ids of new accounts are fresh. -/
theorem workers_of_jobs_own (s : Db) (calls : List StaffCall)
    (hnew : (calls.filterMap StaffCall.newAccount).Nodup)
    (hfree : ∀ r ∈ calls, ∀ w, r.newAccount = some w → s.providers.get? w = none)
    (schedule : List ℕ) :
    let t := (runFrom (Pool.stepAt exec) (staffPool s calls) schedule).state
    AllJobs (OwnWorker t) t := by
  intro t j hj w p hw hp
  obtain ⟨hown, htype⟩ := refersOwn_run (R := workerRef) StaffCall.staged s hnew hfree schedule
    j hj w p hw hp
  have hown' : isWorkerOf j.providerData p = true := hown
  simp only [isWorkerOf, Bool.and_eq_true, decide_eq_true_eq] at hown'
  exact ⟨hown'.1, hown'.2, htype⟩

def sampleStaffCalls : List StaffCall :=
  [.job (.change sampleBooking), .account ((sampleAdd "901" "worker----02").request company),
    .job (.change (onSampleJob .assignJobToWorker company 2))]

/-- The job is assigned while the company adds another worker. -/
theorem workers_of_jobs_own_assigned :
    let t := (runFrom (Pool.stepAt exec) (staffPool sampleDb sampleStaffCalls)
      (List.replicate 8 0 ++ [1, 1, 2, 1, 2, 2, 1, 1, 1])).state
    ((t.jobs.get? (idOf "job-------01")).bind Job.workerData = some (idOf "worker----01") ∧
      (t.providers.get? (idOf "worker----02")).isSome = true) ∧ AllJobs (OwnWorker t) t := by
  refine ⟨by decide +kernel, workers_of_jobs_own sampleDb sampleStaffCalls (by decide +kernel) ?_ _⟩
  have hfree : ∀ r ∈ sampleStaffCalls,
      r.newAccount.all (fun w => (sampleDb.providers.get? w).isNone) = true := by decide +kernel
  intro r hr w hw
  have hw' := hfree r hr
  rw [hw, Option.all_some] at hw'
  exact Option.isNone_iff_eq_none.mp hw'

end Runs

end DoQwik
