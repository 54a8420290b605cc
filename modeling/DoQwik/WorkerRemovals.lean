import DoQwik.JobHistory
import DoQwik.JobWorkers

/-! The workers of open jobs. `delateWorker` removes an account without a look at the jobs, and a
job keeps the id of its worker: so an open job may be left with a worker that is gone, or be
opened again with one. -/
namespace DoQwik
open JsValues DocStore Interleave

/-- The statuses of a job that its worker has yet to complete. -/
def JobStatus.isOpen : JobStatus → Bool
  | .assign => true
  | .accept => true
  | .start => true
  | _ => false

def hasWorker (s : Db) (j : Job) : Bool := j.workerData.all fun w => (s.providers.get? w).isSome

/-- The worker of every open job has an account. -/
def NoneStranded (s : Db) : Prop :=
  AllJobs (fun j => j.jobStatus.isOpen = true → hasWorker s j = true) s

/-- The account is that of the worker of an open job. -/
def isNeeded (s : Db) (q : Provider) : Bool :=
  s.jobs.docs.any fun j => j.jobStatus.isOpen && j.workerData = some q.id

/-- The request removes the worker of an open job, or opens a job whose worker is gone. -/
def strands (s : Db) : StaffCall → Bool
  | .job (.change r) =>
    (r.handler = .jobAccept || r.handler = .jobStart) && (r.written s).any (!hasWorker s ·)
  | .account r =>
    match r.handler with
    | .delateWorker =>
      removes s r.caller r.body &&
        (selected s.providers (providerById r.body.workerId)).any (isNeeded s)
    | _ => false
  | _ => false

def serveStaff (s : Db) : StaffCall → Db
  | .job r => serveCall s r
  | .account r => serveAccount s r
  | .provider r => serveProvider s r

section Others

/-- The operations that write no job and remove no account. -/
def DbOp.keepsAccounts : DbOp → Bool
  | .createJob _ => false
  | .updateJob _ _ _ => false
  | .deleteProvider _ => false
  | _ => true

/-- The jobs of `t` are those of `s`, and so are the accounts, with others perhaps. -/
structure Stays (s t : Db) : Prop where
  jobs : t.jobs = s.jobs
  accounts : ∀ w, t.providers.get? w = none → s.providers.get? w = none

variable {s t : Db}

theorem Stays.exec (h : Stays s t) {op : DbOp} (hop : op.keepsAccounts = true) :
    Stays s (exec op t).1 where
  jobs := by
    rw [exec_jobs_of_not_writesJobs, h.jobs]
    cases op with
    | createJob | updateJob => cases hop
    | _ => rfl
  accounts := by
    intro w hw
    apply h.accounts
    cases hwrites : op.writesProviders with
    | false => rwa [exec_providers_of_not_writesProviders hwrites] at hw
    | true =>
      cases op with
      | createProvider p =>
        cases hi : t.providers.insert p with
        | none => rwa [exec_createProvider_none hi] at hw
        | some ps =>
          rw [exec_createProvider_some hi, Collection.get?_insert hi] at hw
          split at hw
          · cases hw
          · exact hw
      | updateProvider sel d now =>
        exact (Collection.get?_updateOne_eq_none t.providers sel _ (d.apply_id now) w).mp hw
      | saveProviderToken id token now =>
        exact (Collection.get?_updateOne_eq_none t.providers _
          (fun p => { p with token := some token, updatedAt := now }) (fun _ => rfl) w).mp hw
      | loginProvider id token d now =>
        exact (Collection.get?_updateOne_eq_none t.providers _ (saveLogin token d now)
          (fun _ => rfl) w).mp hw
      | pullWorkers c sel now =>
        exact (Collection.get?_updateOne_eq_none t.providers _ (pullFrom sel now)
          (fun _ => rfl) w).mp hw
      | deleteProvider sel => cases hop
      | _ => cases hwrites

/-- A rule of one stage: the operations write no job and remove no account. -/
def StaysStep (_ : Unit) (op : DbOp) (_ : Db) (_ : Unit) : Prop := op.keepsAccounts = true

theorem stays_run {α : Type} {p : Action α} (h : JobStaged StaysStep () p) (s : Db) :
    Stays s (p.run DoQwik.exec s).1 := by
  have hkeeps : ∀ t (g : Unit) op g', Stays s t → StaysStep g op t g' →
      Stays s (DoQwik.exec op t).1 := fun t _ op _ ht hop => ht.exec hop
  obtain ⟨-, hstays⟩ := h.run (I := fun t _ => Stays s t) hkeeps ⟨rfl, fun _ hw => hw⟩
  exact hstays

theorem keepsAccounts_of_counts {op : DbOp} (h : op.counts = true) : op.keepsAccounts = true := by
  cases op with
  | read f | createCounter c | updateCounter table m n => rfl
  | _ => cases h

theorem accountStages_stays (w : ObjectId) : AccountStages StaysStep w () () where
  counts _ _ _ hop := keepsAccounts_of_counts hop
  create _ _ _ := rfl
  updates op s hop := by
    cases op with
    | updateProvider | saveProviderToken | setProviderToken | delProviderToken => rfl
    | _ => cases hop

theorem accountRule_stays : AccountRule fun _ op => op.keepsAccounts = true where
  counts _ _ hop := keepsAccounts_of_counts hop
  updateProvider _ _ _ _ := rfl

/-- A job keeps its worker if the account of that worker is gone only where it was before. -/
theorem hasWorker_of_accounts {j : Job} (hhas : hasWorker s j = true)
    (h : ∀ w, j.workerData = some w → t.providers.get? w = none → s.providers.get? w = none) :
    hasWorker t j = true := by
  unfold hasWorker at hhas ⊢
  cases hw : j.workerData with
  | none => rfl
  | some w =>
    rw [hw, Option.all_some, Option.isSome_iff_ne_none] at hhas
    rw [Option.all_some, Option.isSome_iff_ne_none]
    exact fun hgone => hhas (h w hw hgone)

/-- As long as no account goes, no job is stranded. -/
theorem Stays.noneStranded (h : Stays s t) (hs : NoneStranded s) : NoneStranded t := by
  intro j hj hopen
  rw [h.jobs] at hj
  exact hasWorker_of_accounts (hs j hj hopen) fun w _ => h.accounts w

end Others

section Removals

variable {s : Db}

/-- A removal strands a job exactly when the account is needed. -/
theorem noneStranded_delateWorker (hs : NoneStranded s) (env : Env) (c : Caller) (b : AccountBody) :
    NoneStranded (serveAccount s (delateRequest env c b)) ↔
      (removes s c b && (selected s.providers (providerById b.workerId)).any (isNeeded s)) =
        false := by
  have hjobs : (serveAccount s (delateRequest env c b)).jobs = s.jobs := by
    rw [serveAccount_eq]
    refine (bystanding_delateWorker env c b s).run (I := fun t => t.jobs = s.jobs) ?_ rfl
    intro t op hop ht
    rw [exec_jobs_of_not_writesJobs hop.2, ht]
  cases hr : removes s c b with
  | false =>
    obtain ⟨cs, hserve⟩ := serve_delateWorker_refused s env c b hr
    refine iff_of_true (Stays.noneStranded ⟨hjobs, fun w hw => ?_⟩ hs) rfl
    rwa [hserve] at hw
  | true =>
    obtain ⟨f, worker, cs, seqId, d, hf, hworker, -, hserve⟩ := serve_delateWorker s env c b hr
    have hm := Collection.mem_of_findOne hworker
    obtain ⟨q, hq⟩ := Collection.exists_findOne (p := fun q => f (some q.id)) hm.1
      ((Bool.and_eq_true _ _).mp hm.2).1
    have hgone : ∀ w, (serveAccount s (delateRequest env c b)).providers.get? w = none ↔
        s.providers.get? w = none ∨ w = q.id := by
      intro w
      rw [hserve, get?_afterRemoval_eq_none, hq, Option.map_some, Option.some.injEq,
        eq_comm (a := q.id)]
    simp only [providerById_eq hf, selected, hq, Option.any_some, Bool.true_and, isNeeded]
    rw [List.any_eq_false]
    constructor
    · intro h j hj hneeded
      simp only [Bool.and_eq_true, decide_eq_true_eq] at hneeded
      have hhas := h j (hjobs ▸ hj) hneeded.1
      rw [hasWorker, hneeded.2, Option.all_some, Option.isSome_iff_ne_none] at hhas
      exact hhas ((hgone q.id).mpr (Or.inr rfl))
    · intro h j hj hopen
      rw [hjobs] at hj
      refine hasWorker_of_accounts (hs j hj hopen) fun w hw hnone => ?_
      rcases (hgone w).mp hnone with hbefore | rfl
      · exact hbefore
      · exact absurd (by simp [hopen, hw]) (h j hj)

end Removals

section Jobs

variable {s : Db} {r : JobRequest}

/-- A job request leaves the accounts alone. -/
theorem providers_serve (s : Db) (r : JobRequest) : (serve s r).providers = s.providers := by
  have hrule : OpRule (fun _ op => op.writesProviders = false) r := by
    constructor <;> intros <;> rfl
  refine (obeys_program hrule s).run (I := fun t => t.providers = s.providers) ?_ rfl
  intro t op hop ht
  rw [exec_providers_of_not_writesProviders hop, ht]

theorem hasWorker_serve (s : Db) (r : JobRequest) (j : Job) :
    hasWorker (serve s r) j = hasWorker s j := by
  rw [hasWorker, providers_serve, hasWorker]

theorem lookups_of_write {w : JobWrite} (hw : r.write s = some w) : r.lookups s = true := by
  unfold JobRequest.write at hw
  split at hw
  · rename_i hc
    exact ((Bool.and_eq_true _ _).mp hc).2
  · cases hw

/-- The worker that a job is given was looked up before. -/
theorem hasWorker_of_assign {j : Job} {w : JobWrite} (hr : r.handler = .assignJobToWorker)
    (hw : r.write s = some w) (hj : s.jobs.findOne w.sel = some j) :
    hasWorker s (w.data.apply r.env.now j) = true := by
  have hfound := lookups_of_write hw
  simp only [JobRequest.lookups, hr] at hfound
  obtain ⟨sel, p, hsel, hmem, hp⟩ := exists_of_someMatch hfound
  obtain ⟨f, hf, rfl⟩ := map_eq_ok hsel
  simp only [Bool.and_eq_true, decide_eq_true_eq] at hp
  generalize hd : w.data = d
  have hchange := change_written hw hj
  rw [hd] at hchange
  cases hchange with
  | assignJobToWorker _ hworker =>
    cases hv : r.body.workerID with
    | none =>
      -- An id that is not given selects no account.
      rw [hv] at hf
      cases hf
      cases hp.1.1
    | some v =>
      rw [hv] at hworker hf
      obtain ⟨a, ha, rfl⟩ := map_eq_ok hworker
      cases a with
      | none => rfl
      | some x =>
        have hid := castForQuery_of_castObjectId hf ha hp.1.1
        change (s.providers.get? x).isSome = true
        rw [← hid, Collection.get?_key hmem]
        rfl
  | reject h => rcases h with h | h <;> rw [h] at hr <;> cases hr
  | proceedToPay h | paymentSuccess h | jobAccept h | jobStart h | jobFinish h
  | paymentUpdate h | userJobReschedule h | submitFeedback h | replyFeedback h =>
    rw [h] at hr
    cases hr

/-- All other requests leave the worker of a job as it is. -/
theorem hasWorker_of_change {j : Job} {d : JobSet} (h : JobChange r j d)
    (hr : r.handler ≠ .assignJobToWorker) : hasWorker s (d.apply r.env.now j) = hasWorker s j := by
  cases h with
  | assignJobToWorker h => exact absurd h hr
  | proceedToPay | paymentSuccess | jobAccept | jobStart | reject | jobFinish | paymentUpdate
  | userJobReschedule | submitFeedback | replyFeedback => rfl

/-- What is open after a request was opened by it, or was open before. -/
theorem isOpen_of_sets {h : JobHandler} {st : JobStatus} (hopen : (h.sets.getD st).isOpen = true) :
    h = .assignJobToWorker ∨ (h = .jobAccept ∨ h = .jobStart) ∨ st.isOpen = true := by
  cases h with
  | assignJobToWorker => exact Or.inl rfl
  | jobAccept => exact Or.inr (Or.inl (Or.inl rfl))
  | jobStart => exact Or.inr (Or.inl (Or.inr rfl))
  | jobReject | userCancelJob | jobFinish => cases hopen
  | _ => exact Or.inr (Or.inr hopen)

/-- A job request strands a job exactly when it opens one without its worker. -/
theorem noneStranded_serve (hs : NoneStranded s) :
    NoneStranded (serve s r) ↔ strands s (.job (.change r)) = false := by
  constructor
  · intro h
    by_contra hstrands
    simp only [strands, Bool.not_eq_false, Bool.and_eq_true, Bool.or_eq_true, decide_eq_true_eq,
      Option.any_eq_true, Bool.not_eq_true'] at hstrands
    obtain ⟨hr, j, hj, hlost⟩ := hstrands
    obtain ⟨w, hw, hfind⟩ := Option.bind_eq_some_iff.mp hj
    obtain ⟨j', hj', hstatus⟩ := get?_serve_status hj
    rw [get?_serve_written (written_assignJob hj) hw hfind, Option.some.injEq] at hj'
    have hopen : j'.jobStatus.isOpen = true := by
      rw [hstatus]
      rcases hr with hr | hr <;> rw [hr] <;> rfl
    have hmem : j' ∈ (serve s r).jobs.docs := by
      have hget := get?_serve_written (written_assignJob hj) hw hfind
      rw [hj'] at hget
      exact (Collection.mem_of_findOne hget).1
    have hhas := h j' hmem hopen
    rw [hasWorker_serve, ← hj', hasWorker_of_change (change_written hw hfind), hlost] at hhas
    · cases hhas
    · rcases hr with hr | hr <;> rw [hr] <;> decide
  · intro hnot j' hj' hopen
    rw [hasWorker_serve]
    rcases get?_serve_cases (Collection.get?_key hj') with
      ⟨w, j, hw, hfind, -, rfl⟩ | ⟨hold, -⟩ | ⟨k, hk, -⟩
    · obtain ⟨-, p, j₁, -, -, hplan, -⟩ := write_eq_some hw
      rw [JobSet.apply_jobStatus, (plan_follows_machine hplan).2] at hopen
      rcases isOpen_of_sets hopen with hr | hrest
      · exact hasWorker_of_assign hr hw hfind
      · by_cases hr : r.handler = .assignJobToWorker
        · exact hasWorker_of_assign hr hw hfind
        rw [hasWorker_of_change (change_written hw hfind) hr]
        rcases hrest with hr | hbefore
        · -- The request opens the job, and the condition is about it.
          have hwritten : r.written s = some j := by
            simp only [JobRequest.written, hw, Option.bind_some, hfind]
          have hr' : (r.handler = .jobAccept || r.handler = .jobStart : Bool) = true := by
            simpa using hr
          simpa [strands, hr', hwritten] using hnot
        · exact hs j (Collection.mem_of_findOne hfind).1 hbefore
    · exact hs j' (Collection.mem_of_findOne hold).1 hopen
    · -- A new job has no worker.
      rw [hasWorker, newJob_workerData hk.new]
      rfl

end Jobs

section Runs

/-- Every request strands a job exactly in the case that `strands` tells. -/
theorem noneStranded_serveStaff {s : Db} (hs : NoneStranded s) (call : StaffCall) :
    NoneStranded (serveStaff s call) ↔ strands s call = false := by
  -- Most requests write no job and remove no account.
  have hstays : ∀ {α : Type} {p : Action α}, JobStaged StaysStep () p →
      NoneStranded (p.run exec s).1 := fun hp => (stays_run hp s).noneStranded hs
  have hobeys : ∀ {α : Type} {p : Action α}, Obeys (fun _ op => op.keepsAccounts = true) s p →
      NoneStranded (p.run exec s).1 :=
    fun hp => hstays (Prog.Tracks.of_follows (fun _ _ hop => hop) hp)
  cases call with
  | job call =>
    cases call with
    | change r => exact noneStranded_serve hs
    | list r => exact iff_of_true (hobeys (obeys_list (fun _ _ _ => rfl) r s)) rfl
  | account r =>
    obtain ⟨handler, c, b, env⟩ := r
    cases handler with
    | register files =>
      refine iff_of_true (hstays ?_) rfl
      exact Prog.Tracks.catchAll (fun _ _ _ => trivial)
        (createsOnce_register (accountStages_stays _) b files)
    | addWorker profilePic =>
      refine iff_of_true (hstays ?_) rfl
      exact Prog.Tracks.catchAll (fun _ _ _ => trivial)
        (createsOnce_addWorker (accountStages_stays _) c b profilePic)
    | delateWorker => exact noneStranded_delateWorker hs env c b
  | provider r => exact iff_of_true (hobeys (obeys_provider accountRule_stays r s)) rfl

/-- In a sequential run over a database without jobs, the worker of every open job has an account
in every state, exactly when no request removes the worker of an open job or opens a job whose
worker is gone. -/
theorem noneStranded_throughout_iff (s : Db) (calls : List StaffCall) :
    Throughout serveStaff NoneStranded { s with jobs := .empty _ } calls ↔
      Along serveStaff (fun t r => strands t r = false) { s with jobs := .empty _ } calls := by
  refine throughout_iff (J := fun _ => True) (fun _ _ _ => trivial) ?_ ?_ trivial calls
  · exact fun t call _ ht => noneStranded_serveStaff ht call
  · intro j hj
    cases hj

def sampleStrandingRun : List StaffCall :=
  [.job (.change sampleBooking), .job (.change (onSampleJob .assignJobToWorker company 2)),
    .account ((sampleDelete "worker----01" "record----01").request company)]

/-- The company removes a worker that has an assigned job: the job keeps the id. -/
theorem removal_strands_job :
    ¬ Throughout serveStaff NoneStranded { sampleDb with jobs := .empty _ } sampleStrandingRun := by
  intro h
  have hlast := h sampleStrandingRun [] (List.append_nil _).symm
  have hbroken : (let t := runFrom serveStaff { sampleDb with jobs := .empty _ } sampleStrandingRun
      t.jobs.docs.all fun j => !j.jobStatus.isOpen || hasWorker t j) = false := by decide +kernel
  obtain ⟨j, hj, hlost⟩ := List.all_eq_false.mp hbroken
  have hhas := hlast j hj
  cases hopen : j.jobStatus.isOpen with
  | false => simp [hopen] at hlost
  | true => simp [hhas hopen] at hlost

end Runs

end DoQwik
