import DoQwik.Footprints
import DoQwik.JobPrograms
import DoQwik.JobParties

/-! Requests that are sent again. An app that got no answer repeats its request, and the copies may
run side by side. But for `assignJob`, any number of copies makes of the jobs what one copy makes of
them; only the times, and the path of the picture that `jobStart` keeps, are those of one of the
copies. -/
namespace DoQwik
open JsValues DocStore Interleave

section Timeless

def UserFeedback.timeless (x : UserFeedback) : UserFeedback :=
  { x with
    feedbackAt := x.feedbackAt.map fun _ => 0
    replayAt := x.replayAt.map fun _ => 0 }

/-- The job without the times that updates set, and without the path of its picture, which is made
up for every upload: only which of them are set is kept. -/
def Job.timeless (j : Job) : Job :=
  { j with
    userFeedback := j.userFeedback.timeless
    jobAcceptAt := j.jobAcceptAt.map fun _ => 0
    jobRejectAt := j.jobRejectAt.map fun _ => 0
    jobStartAt := j.jobStartAt.map fun _ => 0
    jobFinishAt := j.jobFinishAt.map fun _ => 0
    jobRescheduleAt := j.jobRescheduleAt.map fun _ => 0
    jobStartImage1 := j.jobStartImage1.map fun _ => ""
    updateDate := j.updateDate.map fun _ => 0
    updatedAt := 0 }

def JobSet.timeless (d : JobSet) : JobSet :=
  { d with
    userFeedback := d.userFeedback.map UserFeedback.timeless
    jobAcceptAt := d.jobAcceptAt.map (Option.map fun _ => 0)
    jobRejectAt := d.jobRejectAt.map (Option.map fun _ => 0)
    jobStartAt := d.jobStartAt.map (Option.map fun _ => 0)
    jobFinishAt := d.jobFinishAt.map (Option.map fun _ => 0)
    jobRescheduleAt := d.jobRescheduleAt.map (Option.map fun _ => 0)
    jobStartImage1 := d.jobStartImage1.map (Option.map fun _ => "")
    updateDate := d.updateDate.map (Option.map fun _ => 0) }

def Plan.timeless : Plan → Plan
  | .refuse key => .refuse key
  | .update d => .update d.timeless

@[simp] theorem Job.timeless_jobStatus (j : Job) : j.timeless.jobStatus = j.jobStatus := rfl

@[simp] theorem Job.timeless_verificationCode (j : Job) :
    j.timeless.verificationCode = j.verificationCode := rfl

@[simp] theorem Job.timeless_revenuePercentage (j : Job) :
    j.timeless.revenuePercentage = j.revenuePercentage := rfl

theorem getD_getD {α : Type} (x : Option α) (a : α) : x.getD (x.getD a) = x.getD a := by
  cases x with
  | none => rfl
  | some b => rfl

theorem timeless_apply (d : JobSet) (now : ℤ) (j : Job) :
    (d.apply now j).timeless = d.timeless.apply 0 j.timeless := by
  simp only [Job.timeless, JobSet.apply, JobSet.timeless, ← Option.getD_map]

/-- To update twice is to update once. -/
theorem JobSet.apply_apply (d : JobSet) (now : ℤ) (j : Job) :
    d.apply now (d.apply now j) = d.apply now j := by
  simp only [JobSet.apply, getD_getD]

end Timeless

section Plans

/-- What a copy has of its own: its time, and the paths under which its uploads are stored. Every
upload is named anew, so that the copies of one picture have different paths. -/
structure Sending where
  env : Env
  stored : String → String

def JobFiles.storedBy (f : JobFiles) (stored : String → String) : JobFiles :=
  ⟨f.jobImage.map stored, f.firstPic.map stored, f.secondPic.map stored⟩

def JobRequest.sentAs (r : JobRequest) (x : Sending) : JobRequest :=
  { r with
    files := r.files.map fun f => f.storedBy x.stored
    env := x.env }

def epoch : Sending := ⟨⟨0, ⟨0⟩, fun _ _ => none⟩, fun _ => ""⟩

theorem sentAs_self (r : JobRequest) : r.sentAs ⟨r.env, id⟩ = r := by
  obtain ⟨handler, c, b, files, env⟩ := r
  cases files with
  | none => rfl
  | some f =>
    obtain ⟨x, y, z⟩ := f
    simp only [JobRequest.sentAs, JobFiles.storedBy, Option.map_some, Option.map_id, id_eq]

theorem sentAs_sentAs (r : JobRequest) (x y : Sending) :
    (r.sentAs x).sentAs y = r.sentAs ⟨y.env, y.stored ∘ x.stored⟩ := by
  obtain ⟨handler, c, b, files, env⟩ := r
  cases files with
  | none => rfl
  | some f => simp only [JobRequest.sentAs, JobFiles.storedBy, Option.map_some, Option.map_map]

theorem sentAs_epoch (r : JobRequest) (x : Sending) : (r.sentAs x).sentAs epoch = r.sentAs epoch :=
  sentAs_sentAs r x epoch

theorem map_bind_congr {α : Type} {x : Except Thrown α} {f g : α → Except Thrown Plan}
    (h : ∀ a, (f a).map Plan.timeless = g a) : (x >>= f).map Plan.timeless = x >>= g := by
  cases x with
  | error e => rfl
  | ok a => exact h a

/-- The plan of a request does not depend on any time, or on where its uploads are stored. -/
theorem plan_timeless (r : JobRequest) (j : Job) :
    (r.plan j).map Plan.timeless = (r.sentAs epoch).plan j.timeless := by
  obtain ⟨handler, c, b, files, env⟩ := r
  cases handler with
  | assignJob | paymentSuccess | jobAccept => rfl
  | proceedToPay =>
    exact map_bind_congr fun _ => map_bind_congr fun _ => map_bind_congr fun _ => rfl
  | assignJobToWorker => exact map_bind_congr fun _ => map_bind_congr fun _ => rfl
  | jobStart =>
    have hpic : (((files.map fun f => f.storedBy epoch.stored).bind JobFiles.secondPic).getD "") =
        "" := by
      rcases files with _ | ⟨x, y, _ | z⟩ <;> rfl
    simp only [JobRequest.plan, JobRequest.sentAs, hpic, jobStartParam]
    by_cases hp : j.jobStatus = .processing
    · rw [if_pos hp, if_pos (j.timeless_jobStatus.trans hp)]
      rfl
    · rw [if_neg hp, if_neg (j.timeless_jobStatus ▸ hp)]
      refine map_bind_congr fun code => ?_
      rw [Job.timeless_verificationCode]
      split
      · exact map_bind_congr fun _ => rfl
      · rfl
  | jobReject | userCancelJob =>
    simp only [JobRequest.plan, JobRequest.sentAs, jobRejectParam, Job.timeless_jobStatus]
    cases j.jobStatus with
    | complete | start | reject => rfl
    | _ => exact map_bind_congr fun _ => rfl
  | jobFinish =>
    simp only [JobRequest.plan, JobRequest.sentAs, jobFinishParam, Job.timeless_jobStatus]
    cases j.jobStatus with
    | start => exact map_bind_congr fun _ => rfl
    | _ => rfl
  | paymentUpdate =>
    simp only [JobRequest.plan, JobRequest.sentAs, paymentUpdateParam, Job.timeless_jobStatus,
      Job.timeless_revenuePercentage]
    cases j.jobStatus with
    | start =>
      iterate 6 refine map_bind_congr fun _ => ?_
      rfl
    | _ => rfl
  | userJobReschedule =>
    simp only [JobRequest.plan, JobRequest.sentAs, userJobRescheduleParam, Job.timeless_jobStatus]
    cases j.jobStatus with
    | complete | start | reject => rfl
    | _ =>
      iterate 3 refine map_bind_congr fun _ => ?_
      rfl
  | submitFeedback =>
    simp only [JobRequest.plan, JobRequest.sentAs, submitFeedbackParam]
    by_cases hc : j.jobStatus = .complete
    · rw [if_pos hc, if_pos (j.timeless_jobStatus.trans hc)]
      exact map_bind_congr fun _ => map_bind_congr fun _ => rfl
    · rw [if_neg hc, if_neg (j.timeless_jobStatus ▸ hc)]
      rfl
  | replyFeedback =>
    simp only [JobRequest.plan, JobRequest.sentAs, replyFeedbackParam]
    by_cases hc : j.jobStatus = .complete
    · rw [if_pos hc, if_pos (j.timeless_jobStatus.trans hc)]
      exact map_bind_congr fun _ => rfl
    · rw [if_neg hc, if_neg (j.timeless_jobStatus ▸ hc)]
      rfl

/-- On the job that it made, a handler either refuses to go on, or plans the same update. -/
theorem plan_again {r : JobRequest} {j : Job} {d : JobSet} (h : r.plan j = .ok (.update d))
    (now : ℤ) : (∃ key, r.plan (d.apply now j) = .ok (.refuse key)) ∨
      r.plan (d.apply now j) = .ok (.update d) := by
  have hterms := (plan_keepsTerms h).apply_terms now j
  have hstatus := (plan_follows_machine h).2
  have hstatus' : (d.apply now j).jobStatus = (r.handler.sets).getD j.jobStatus := by
    rw [JobSet.apply_jobStatus, hstatus]
  obtain ⟨handler, c, b, files, env⟩ := r
  cases handler with
  | assignJob => cases h
  | paymentSuccess | jobAccept | assignJobToWorker => exact Or.inr h
  | proceedToPay =>
    right
    have hamount : (d.apply now j).amount = j.amount := congrArg JobTerms.amount hterms
    simp only [JobRequest.plan, proceedToPayParam, hamount] at h ⊢
    exact h
  | jobStart =>
    right
    have hcode : (d.apply now j).verificationCode = j.verificationCode :=
      congrArg JobTerms.verificationCode hterms
    have hnot := (jobStartParam_eq h).1
    simp only [JobRequest.plan, jobStartParam, hcode, hstatus', JobHandler.sets, if_neg hnot] at h ⊢
    exact h
  | jobReject | userCancelJob =>
    left
    refine ⟨.jobAlreadyReject, ?_⟩
    simp only [JobRequest.plan, jobRejectParam, hstatus', JobHandler.sets, Option.getD_some]
  | jobFinish =>
    left
    refine ⟨.rejectReasonForSuccess, ?_⟩
    simp only [JobRequest.plan, jobFinishParam, hstatus', JobHandler.sets, Option.getD_some]
  | paymentUpdate =>
    right
    have hpercentage : (d.apply now j).revenuePercentage = j.revenuePercentage :=
      congrArg JobTerms.revenuePercentage hterms
    simp only [JobRequest.plan, paymentUpdateParam, hstatus', hpercentage, JobHandler.sets,
      Option.getD_none] at h ⊢
    exact h
  | userJobReschedule =>
    right
    simp only [JobRequest.plan, userJobRescheduleParam, hstatus', JobHandler.sets,
      Option.getD_none] at h ⊢
    exact h
  | submitFeedback =>
    right
    simp only [JobRequest.plan, submitFeedbackParam, hstatus', JobHandler.sets,
      Option.getD_none] at h ⊢
    exact h
  | replyFeedback =>
    right
    obtain ⟨hc, reply, hreply, rfl⟩ := replyFeedbackParam_eq h
    simp only [JobRequest.plan, replyFeedbackParam, hstatus', JobHandler.sets, Option.getD_none,
      hc, if_true, hreply]
    -- What was left out of the message stays out.
    simp [JobSet.apply, Option.filter_filter]

end Plans

section Jobs

/-- The jobs without their times and the path of their picture. -/
def Db.timelessJobs (s : Db) : Collection Job.id := s.jobs.map Job.timeless fun _ => rfl

def setJobs (sel : Job → Bool) (d : JobSet) (jobs : Collection Job.id) : Collection Job.id :=
  jobs.updateOne sel (d.apply 0) (d.apply_id 0)

variable {r : JobRequest} {p : Job → Bool} {d : JobSet} {jobs : Collection Job.id}

abbrev JobRequest.hits (r : JobRequest) (p : Job → Bool) (j : Job) : Bool := p j && r.filter j

theorem filter_timeless (r : JobRequest) (j : Job) : r.filter j.timeless = r.filter j := by
  obtain ⟨handler, c, b, files, env⟩ := r
  cases handler with
  | _ => rfl

theorem filter_apply (hd : d.KeepsTerms) (now : ℤ) (j : Job) :
    r.filter (d.apply now j) = r.filter j := by
  have huser : (d.apply now j).userId = j.userId :=
    congrArg JobTerms.userId (hd.apply_terms now j)
  have hprovider : (d.apply now j).providerData = j.providerData :=
    congrArg JobTerms.providerData (hd.apply_terms now j)
  have htype : (d.apply now j).providerUserType = j.providerUserType :=
    congrArg JobTerms.providerUserType (hd.apply_terms now j)
  obtain ⟨handler, c, b, files, env⟩ := r
  cases handler with
  | _ => simp only [JobRequest.filter, huser, hprovider, htype]

def OnId (p : Job → Bool) : Prop := ∀ j j', j.id = j'.id → p j = p j'

theorem onId_jobById {v : Option Json} (h : jobById v = .ok p) : OnId p := by
  obtain ⟨q, -, rfl⟩ := map_eq_ok h
  intro j j' hid
  dsimp only
  rw [hid]

theorem keepsTerms_timeless (hd : d.KeepsTerms) : d.timeless.KeepsTerms := by
  obtain ⟨h₁, h₂, h₃, h₄, h₅, h₆, h₇, h₈, h₉, h₁₀, h₁₁⟩ := hd
  exact ⟨h₁, h₂, h₃, h₄, h₅, h₆, h₇, h₈, h₉, h₁₀, h₁₁⟩

theorem setJobs_setJobs (hp : OnId p) (hd : d.KeepsTerms) (jobs : Collection Job.id) :
    setJobs (r.hits p) d (setJobs (r.hits p) d jobs) = setJobs (r.hits p) d jobs := by
  apply Collection.ext
  refine updateFirst_updateFirst (fun j => ?_) (fun j => d.apply_apply 0 j) jobs.docs
  rw [JobRequest.hits, hp _ j (d.apply_id 0 j), filter_apply hd]

theorem timelessJobs_update (hp : OnId p) (d : JobSet) (now : ℤ) (s : Db) :
    (exec (.updateJob (r.hits p) d now) s).1.timelessJobs =
      setJobs (r.hits p) d.timeless s.timelessJobs := by
  apply Collection.ext
  refine map_updateFirst (fun j => ?_) (fun j => timeless_apply d now j) s.jobs.docs
  rw [JobRequest.hits, hp j.timeless j rfl, filter_timeless]

def JobRequest.afterCopy (r : JobRequest) (p : Job → Bool) (jobs : Collection Job.id) :
    Collection Job.id :=
  match (jobs.findOne p).map (r.sentAs epoch).plan with
  | some (.ok (.update d)) => setJobs (r.hits p) d jobs
  | _ => jobs

/-- A second copy has nothing left to do. -/
theorem afterCopy_afterCopy (hp : OnId p) (jobs : Collection Job.id) :
    r.afterCopy p (r.afterCopy p jobs) = r.afterCopy p jobs := by
  unfold JobRequest.afterCopy
  cases hfind : jobs.findOne p with
  | none => simp only [Option.map_none, hfind]
  | some j =>
    cases hplan : (r.sentAs epoch).plan j with
    | error e => simp only [Option.map_some, hfind, hplan]
    | ok decision =>
      cases decision with
      | refuse key => simp only [Option.map_some, hfind, hplan]
      | update d =>
        have hd := plan_keepsTerms hplan
        obtain ⟨j', hfind', hj'⟩ := Collection.findOne_updateOne (c := jobs) (r.hits p)
          (d.apply_id 0) (fun a => hp _ a (d.apply_id 0 a)) hfind
        have hagain : (∃ key, (r.sentAs epoch).plan j' = .ok (.refuse key)) ∨
            (r.sentAs epoch).plan j' = .ok (.update d) := by
          rcases hj' with rfl | rfl
          · exact Or.inr hplan
          · exact plan_again hplan 0
        simp only [Option.map_some, hplan]
        rw [show (setJobs (r.hits p) d jobs).findOne p = some j' from hfind', Option.map_some]
        rcases hagain with ⟨key, hkey⟩ | hsame
        · rw [hkey]
        · rw [hsame]
          exact setJobs_setJobs hp hd jobs

/-- Every copy reads off the jobs what it would read off them without times and paths. -/
theorem afterCopy_timelessJobs (hp : OnId p) (x : Sending) (t : Db) :
    r.afterCopy p t.timelessJobs =
      match (t.jobs.findOne p).map (r.sentAs x).plan with
      | some (.ok (.update d)) => setJobs (r.hits p) d.timeless t.timelessJobs
      | _ => t.timelessJobs := by
  have hfind : t.timelessJobs.findOne p = (t.jobs.findOne p).map Job.timeless :=
    Collection.findOne_map t.jobs (f := Job.timeless) (fun _ => rfl) fun j => hp j.timeless j rfl
  unfold JobRequest.afterCopy
  rw [hfind]
  cases t.jobs.findOne p with
  | none => rfl
  | some j =>
    have hplan := plan_timeless (r.sentAs x) j
    rw [sentAs_epoch] at hplan
    simp only [Option.map_some]
    rw [← hplan]
    cases (r.sentAs x).plan j with
    | error e => rfl
    | ok decision =>
      cases decision with
      | refuse key => rfl
      | update d => rfl

/-- The update of `paymentSuccess` is made without a look at the job. -/
theorem timelessJobs_pay (hr : r.handler = .paymentSuccess) (hp : OnId p) (now : ℤ) (t : Db) :
    (exec (.updateJob p paymentSuccessParam now) t).1.timelessJobs =
      r.afterCopy p t.timelessJobs := by
  have hsel : p = r.hits p := by
    funext j
    simp only [JobRequest.hits, JobRequest.filter, hr, Bool.and_true]
  have hplan : (r.sentAs epoch).plan = fun _ => .ok (.update paymentSuccessParam) := by
    simp only [JobRequest.plan, JobRequest.sentAs, hr]
  have hupdate := timelessJobs_update (r := r) hp paymentSuccessParam now t
  rw [← hsel] at hupdate
  rw [hupdate]
  unfold JobRequest.afterCopy
  rw [hplan, ← hsel]
  cases hfind : t.timelessJobs.findOne p with
  | none => exact Collection.updateOne_of_findOne_none _ _ hfind
  | some j => rfl

def JobRequest.ready (r : JobRequest) (s : Db) : Bool := (refusal r.checks).isNone && r.lookups s

theorem timelessJobs_serve (hr : r.handler ≠ .assignJob) (hid : jobById r.target = .ok p) (s : Db) :
    (serve s r).timelessJobs =
      if r.ready s then r.afterCopy p s.timelessJobs else s.timelessJobs := by
  have hjobs := serve_jobs s r hr
  unfold JobRequest.write at hjobs
  rw [show ((refusal r.checks).isNone && r.lookups s) = r.ready s from rfl] at hjobs
  have hserve : (serve s r).timelessJobs =
      (applyWrite r.env.now s.jobs (if r.ready s then planned s r.target r.filter r.plan
        else none)).map Job.timeless fun _ => rfl := by
    rw [← hjobs]
    rfl
  rw [hserve]
  cases r.ready s with
  | false => rfl
  | true =>
    simp only [if_true]
    have hp := onId_jobById hid
    rw [afterCopy_timelessJobs hp ⟨r.env, id⟩, sentAs_self, planned, hid]
    dsimp only
    cases s.jobs.findOne p with
    | none => rfl
    | some j =>
      rw [Option.map_some]
      cases r.plan j with
      | error e => rfl
      | ok decision =>
        cases decision with
        | refuse key => rfl
        | update d => exact timelessJobs_update hp d r.env.now s

end Jobs

section Copies

variable (s : Db) (r : JobRequest)

/-- All but the jobs and the notices. -/
def Db.others (s : Db) : Db := { s with jobs := .empty _, notices := [] }

structure Midway (t : Db) : Prop where
  jobs : t.timelessJobs = s.timelessJobs ∨ t.timelessJobs = (serve s r).timelessJobs
  others : t.others = s.others

/-- A copy looks for what it needs, is cleared to come to the job, plans an update, and has
nothing left to do. -/
inductive RetryStage where
  | looking
  | cleared
  | planned (d : JobSet)
  | settled

/-- What is known of the jobs, and of the start, when a copy is at the stage. -/
def RetryClaim (jobs : Collection Job.id) : RetryStage → Prop
  | .looking => True
  | .cleared => r.ready s = true
  | .planned d => d.timeless.KeepsTerms ∧ ∃ p, jobById r.target = .ok p ∧
      setJobs (r.hits p) d.timeless jobs = (serve s r).timelessJobs
  | .settled => jobs = (serve s r).timelessJobs

/-- The operations that leave everything but the notices alone. -/
def DbOp.quiet : DbOp → Bool
  | .read _ => true
  | .notify _ => true
  | _ => false

inductive RetryStep : RetryStage → DbOp → Db → RetryStage → Prop where
  | look {g g' : RetryStage} {op : DbOp} {t : Db} (hop : op.quiet = true)
      (h : Midway s r t → RetryClaim s r t.timelessJobs g → RetryClaim s r t.timelessJobs g') :
      RetryStep g op t g'
  | write {d : JobSet} {p : Job → Bool} {now : ℤ} {t : Db} (hid : jobById r.target = .ok p) :
      RetryStep (.planned d) (.updateJob (r.hits p) d now) t .settled
  | pay {p : Job → Bool} {now : ℤ} {t : Db} (hr : r.handler = .paymentSuccess)
      (hchecks : refusal r.checks = none) (hid : jobById r.target = .ok p) :
      RetryStep .looking (.updateJob p paymentSuccessParam now) t .settled

variable {s r} {p : Job → Bool}

theorem quiet_keeps {op : DbOp} (h : op.quiet = true) (t : Db) :
    (exec op t).1.timelessJobs = t.timelessJobs ∧ (exec op t).1.others = t.others := by
  cases op with
  | read f => exact ⟨rfl, rfl⟩
  | notify n => exact ⟨rfl, rfl⟩
  | _ => cases h

theorem serve_unwritten (hr : r.handler ≠ .assignJob) (h : r.write s = none) :
    (serve s r).timelessJobs = s.timelessJobs := by
  have hjobs := serve_jobs s r hr
  rw [h] at hjobs
  unfold Db.timelessJobs
  rw [hjobs]
  rfl

/-- A request that is not ready changes nothing. -/
theorem serve_not_ready (hr : r.handler ≠ .assignJob) (h : r.ready s = false) :
    (serve s r).timelessJobs = s.timelessJobs := by
  apply serve_unwritten hr
  rw [JobRequest.write, show ((refusal r.checks).isNone && r.lookups s) = false from h]
  rfl

theorem serve_bad_id (hr : r.handler ≠ .assignJob) {e : Thrown} (h : jobById r.target = .error e) :
    (serve s r).timelessJobs = s.timelessJobs := by
  have hplanned : planned s r.target r.filter r.plan = none := by
    unfold planned
    rw [h]
  apply serve_unwritten hr
  rw [JobRequest.write, hplanned, ite_self]

theorem Midway.of_same {t : Db} (h : Midway s r t)
    (hsame : (serve s r).timelessJobs = s.timelessJobs) :
    t.timelessJobs = (serve s r).timelessJobs := by
  rcases h.jobs with h | h
  · exact h.trans hsame.symm
  · exact h

/-- Wherever a copy comes to the job, it makes what one copy makes of the start. -/
theorem Midway.afterCopy {t : Db} (h : Midway s r t) (hr : r.handler ≠ .assignJob)
    (hready : r.ready s = true) (hid : jobById r.target = .ok p) :
    r.afterCopy p t.timelessJobs = (serve s r).timelessJobs := by
  have hserve := timelessJobs_serve hr hid s
  rw [hready, if_pos rfl] at hserve
  rcases h.jobs with h | h
  · rw [h, hserve]
  · rw [h, hserve]
    exact afterCopy_afterCopy (onId_jobById hid) _

theorem Midway.lookups {t : Db} (h : Midway s r t) : r.lookups t = r.lookups s := by
  have hproviders : t.providers = s.providers := congrArg (fun u => u.providers) h.others
  have haddresses : t.addresses = s.addresses := congrArg (fun u => u.addresses) h.others
  unfold JobRequest.lookups
  rw [hproviders, haddresses]

/-- Once the jobs are as one copy leaves them, all that was known stays true. -/
theorem claim_after {jobs : Collection Job.id} {g : RetryStage} (h : RetryClaim s r jobs g) :
    RetryClaim s r (serve s r).timelessJobs g := by
  cases g with
  | looking => trivial
  | cleared => exact h
  | settled => rfl
  | planned d =>
    obtain ⟨hd, p, hid, hset⟩ := h
    refine ⟨hd, p, hid, ?_⟩
    rw [← hset]
    exact setJobs_setJobs (onId_jobById hid) hd jobs

structure RetryInv (s : Db) (r : JobRequest) (t : Db) (gs : ℕ → RetryStage) : Prop where
  midway : Midway s r t
  claims : ∀ i, RetryClaim s r t.timelessJobs (gs i)

theorem RetryInv.step {t : Db} {gs : ℕ → RetryStage} (h : RetryInv s r t gs)
    (hr : r.handler ≠ .assignJob) {i : ℕ} {op : DbOp} {g : RetryStage}
    (hstep : RetryStep s r (gs i) op t g) :
    RetryInv s r (exec op t).1 (Function.update gs i g) := by
  -- A write leaves the jobs as one copy leaves them.
  have hwritten : ∀ {sel : Job → Bool} {d : JobSet} {now : ℤ},
      (exec (.updateJob sel d now) t).1.timelessJobs = (serve s r).timelessJobs →
      RetryInv s r (exec (.updateJob sel d now) t).1 (Function.update gs i .settled) := by
    intro sel d now hjobs
    refine ⟨⟨Or.inr hjobs, h.midway.others⟩, fun j => ?_⟩
    rw [hjobs]
    by_cases hj : j = i
    · subst hj
      rw [Function.update_self]
      rfl
    · rw [Function.update_of_ne hj]
      exact claim_after (h.claims j)
  have hclaim := h.claims i
  generalize hgi : gs i = gi at hstep hclaim
  cases hstep with
  | look hop hlook =>
    obtain ⟨hjobs, hothers⟩ := quiet_keeps hop t
    refine ⟨⟨hjobs ▸ h.midway.jobs, hothers.trans h.midway.others⟩, fun j => ?_⟩
    rw [hjobs]
    by_cases hj : j = i
    · subst hj
      rw [Function.update_self]
      exact hlook h.midway hclaim
    · rw [Function.update_of_ne hj]
      exact h.claims j
  | write hid =>
    obtain ⟨-, p', hid', hset⟩ := hclaim
    apply hwritten
    rw [timelessJobs_update (onId_jobById hid), ← hset]
    cases hid.symm.trans hid'
    rfl
  | @pay p now _ hhandler hchecks hid =>
    have hready : r.ready s = true := by
      simp only [JobRequest.ready, hchecks, JobRequest.lookups, hhandler, Option.isNone_none,
        Bool.and_self]
    apply hwritten
    rw [timelessJobs_pay hhandler (onId_jobById hid)]
    exact h.midway.afterCopy hr hready hid

/-- A copy that ends has left the jobs as one copy leaves them, or there was nothing to change. -/
def RetryEnd (s : Db) (r : JobRequest) (g : RetryStage) : Prop :=
  g = .settled ∨ (serve s r).timelessJobs = s.timelessJobs

def Retrying (s : Db) (r : JobRequest) (g : RetryStage) (p : Action JobResponse) : Prop :=
  Prog.Tracks exec (RetryStep s r) (fun g _ => RetryEnd s r g) (RetryEnd s r) g p

theorem retrying_cast_ok {β : Type} {g : RetryStage} {x : Except Thrown β} {a : β}
    {k : β → Action JobResponse} (hx : x = .ok a) (hk : Retrying s r g (k a)) :
    Retrying s r g (cast x >>= k) := by
  subst hx
  exact hk

theorem retrying_checked (hr : r.handler ≠ .assignJob) {g : RetryStage} {k : Action JobResponse}
    (hk : refusal r.checks = none → Retrying s r g k) : Retrying s r g (checked r.checks k) := by
  unfold checked
  cases hc : refusal r.checks with
  | none => exact hk hc
  | some key =>
    refine Or.inr (serve_not_ready hr ?_)
    simp only [JobRequest.ready, hc, Option.isNone_some, Bool.false_and]

/-- The copy comes to the job. -/
theorem retrying_changeJob (hr : r.handler ≠ .assignJob) (x : Sending) {g : RetryStage}
    (hg : ∀ jobs, RetryClaim s r jobs g → r.ready s = true) :
    Retrying s r g
      (changeJob x.env r.target r.filter (r.sentAs x).plan (r.sentAs x).finish) := by
  unfold changeJob
  cases hid : jobById r.target with
  | error e => exact Or.inr (serve_bad_id hr hid)
  | ok p =>
    intro t
    have hp := onId_jobById hid
    -- What the copy makes of the jobs that it sees.
    have hcopy := afterCopy_timelessJobs (r := r) hp x t
    have hmade (hmid : Midway s r t) (hclaim : RetryClaim s r t.timelessJobs g) :=
      hmid.afterCopy hr (hg _ hclaim) hid
    have hsettled (hsame : r.afterCopy p t.timelessJobs = t.timelessJobs) :
        RetryStep s r g (.read fun s => (s.jobs.findOne p).map (populate s)) t .settled :=
      .look rfl fun hmid hclaim => hsame.symm.trans (hmade hmid hclaim)
    rw [exec_read]
    cases hfind : t.jobs.findOne p with
    | none =>
      rw [hfind] at hcopy
      exact ⟨.settled, hsettled hcopy, Or.inl rfl⟩
    | some j =>
      rw [hfind, Option.map_some] at hcopy
      cases hplan : (r.sentAs x).plan j with
      | error e =>
        rw [hplan] at hcopy
        refine ⟨.settled, hsettled hcopy, tracks_cast_bind (Or.inl rfl) fun decision hok => ?_⟩
        cases hplan.symm.trans hok
      | ok decision =>
        rw [hplan] at hcopy
        cases decision with
        | refuse key => exact ⟨.settled, hsettled hcopy, retrying_cast_ok hplan (Or.inl rfl)⟩
        | update d =>
          have hterms := keepsTerms_timeless (plan_keepsTerms hplan)
          have hclaims : RetryStep s r g (.read fun s => (s.jobs.findOne p).map (populate s)) t
              (.planned d) :=
            .look rfl fun hmid hclaim => ⟨hterms, p, hid, hcopy.symm.trans (hmade hmid hclaim)⟩
          refine ⟨.planned d, hclaims, retrying_cast_ok hplan fun t' => ⟨.settled, .write hid, ?_⟩⟩
          exact tracks_finish (fun _ _ _ _ => .look rfl fun _ hdone => hdone) (Or.inl rfl)
            fun _ _ => Or.inl rfl

/-- A copy that finds what it looked for is cleared to come to the job. -/
theorem RetryStep.found (hc : refusal r.checks = none) {op : DbOp} (hop : op.quiet = true) {t : Db}
    (h : r.lookups t = true) : RetryStep s r .looking op t .cleared := by
  refine .look hop fun hmid _ => ?_
  rw [hmid.lookups] at h
  simp only [RetryClaim, JobRequest.ready, hc, h, Option.isNone_none, Bool.and_self]

/-- A copy that does not find it leaves the jobs as one copy would, for that one does not either. -/
theorem RetryStep.missed (hr : r.handler ≠ .assignJob) {op : DbOp} (hop : op.quiet = true) {t : Db}
    (h : r.lookups t = false) : RetryStep s r .looking op t .settled := by
  refine .look hop fun hmid _ => hmid.of_same (serve_not_ready hr ?_)
  rw [hmid.lookups] at h
  rw [JobRequest.ready, h, Bool.and_false]

/-- A lookup by whose answer the copy goes on to the job, or ends. -/
theorem retrying_lookup (hr : r.handler ≠ .assignJob) (hc : refusal r.checks = none) {β : Type}
    {f : Db → β} {k : β → Action JobResponse}
    (hmissed : ∀ t, r.lookups t = false → Retrying s r .settled (k (f t)))
    (hfound : ∀ t, r.lookups t = true → Retrying s r .cleared (k (f t))) :
    Retrying s r .looking (query f >>= k) := by
  intro t
  cases hl : r.lookups t with
  | false => exact ⟨.settled, .missed hr rfl hl, hmissed t hl⟩
  | true => exact ⟨.cleared, .found hc rfl hl, hfound t hl⟩

/-- Every copy of the request. -/
theorem retrying_handle (hr : r.handler ≠ .assignJob) (x : Sending) :
    Retrying s r .looking (r.sentAs x).handle := by
  have hready (hc : refusal r.checks = none) (hl : r.lookups s = true) : r.ready s = true := by
    simp only [JobRequest.ready, hc, hl, Option.isNone_none, Bool.and_self]
  have hunready (hl : r.lookups s = false) : (serve s r).timelessJobs = s.timelessJobs :=
    serve_not_ready hr (by simp only [JobRequest.ready, hl, Bool.and_false])
  have hcleared := retrying_changeJob (s := s) (g := .cleared) hr x fun _ hclaim => hclaim
  have hplain (hc : refusal r.checks = none) (hl : r.lookups s = true) :=
    retrying_changeJob (s := s) (g := .looking) hr x fun _ _ => hready hc hl
  have hchecked {k : Action JobResponse} := retrying_checked (s := s) (g := .looking) (k := k) hr
  obtain ⟨handler, c, b, files, env⟩ := r
  cases handler with
  | assignJob => exact absurd rfl hr
  | paymentSuccess =>
    refine hchecked fun hc => ?_
    simp only [updateData, JobRequest.sentAs]
    cases hid : jobById b.jobID with
    | error e => exact Or.inr (serve_bad_id hr hid)
    | ok p => exact fun t => ⟨.settled, .pay rfl hc hid, Or.inl rfl⟩
  | assignJobToWorker =>
    refine hchecked fun hc => ?_
    simp only [JobRequest.sentAs]
    cases hw : workersOf b.workerID c.userId with
    | error e =>
      refine Or.inr (hunready ?_)
      simp only [JobRequest.lookups, hw, someMatch]
    | ok p =>
      have hlookups (t : Db) : JobRequest.lookups ⟨.assignJobToWorker, c, b, files, env⟩ t =
          decide (t.providers.count p ≠ 0) := by
        simp only [JobRequest.lookups, hw, someMatch]
      refine retrying_lookup hr hc (f := fun s => s.providers.count p) (fun t hl => ?_)
        fun t hl => ?_
      · rw [hlookups, decide_eq_false_iff_not, not_not] at hl
        rw [if_pos hl]
        exact Or.inl rfl
      · rw [hlookups, decide_eq_true_eq] at hl
        rw [if_neg hl]
        exact hcleared
  | jobStart =>
    refine hchecked fun hc => ?_
    rcases files with _ | ⟨i, _ | x, _ | y⟩
    · exact Or.inr (hunready rfl)
    · exact Or.inr (hunready rfl)
    · exact Or.inr (hunready rfl)
    · exact Or.inr (hunready rfl)
    · exact hplain hc rfl
  | userJobReschedule =>
    refine hchecked fun hc => ?_
    simp only [JobRequest.sentAs, getAddressDataById]
    cases ha : addressOf b.locationID c.userId with
    | error e =>
      refine Or.inr (hunready ?_)
      simp only [JobRequest.lookups, ha, someMatch]
    | ok p =>
      have hlookups (t : Db) : JobRequest.lookups ⟨.userJobReschedule, c, b, files, env⟩ t =
          !(t.addresses.find p).isEmpty := by
        rw [Bool.eq_iff_iff]
        simp [JobRequest.lookups, ha, someMatch, Collection.count]
      refine retrying_lookup hr hc (f := fun s => s.addresses.find p) (fun t hl => ?_)
        fun t hl => ?_
      · rw [hlookups, Bool.not_eq_false'] at hl
        rw [if_pos hl]
        exact Or.inl rfl
      · rw [hlookups, Bool.not_eq_true'] at hl
        rw [if_neg (by rw [hl]; exact Bool.false_ne_true)]
        exact hcleared
  | _ => exact hchecked fun hc => hplain hc rfl

theorem retrying_program (hr : r.handler ≠ .assignJob) (x : Sending) :
    Retrying s r .looking (r.sentAs x).program := by
  unfold JobRequest.program
  exact Prog.Tracks.catchAll (Q := fun g _ => RetryEnd s r g) (fun _ _ hend => hend)
    (retrying_handle hr x)

theorem retryInv_start (s : Db) (r : JobRequest) : RetryInv s r s fun _ => .looking :=
  ⟨⟨Or.inl rfl, rfl⟩, fun _ => trivial⟩

/-- Copies of a request may run side by side, be sent at any times and store their uploads anywhere:
once all are through, the jobs are those that one copy leaves, but for the times and the path of the
picture, and nothing else has changed but the notices. -/
theorem retries_idempotent (s : Db) (r : JobRequest) (hr : r.handler ≠ .assignJob)
    (copies : List Sending) (hne : copies ≠ []) (sched : List ℕ)
    (hdone : (runFrom JobPool.step (JobPool.start s (copies.map r.sentAs)) sched).finished = true) :
    let c := runFrom JobPool.step (JobPool.start s (copies.map r.sentAs)) sched
    c.state.timelessJobs = (serve s r).timelessJobs ∧
      { c.state with jobs := s.jobs, notices := s.notices } = s := by
  intro c
  have htracking : (JobPool.start s (copies.map r.sentAs)).Tracking exec (RetryStep s r)
      (fun g _ => RetryEnd s r g) (RetryEnd s r) fun _ => .looking := by
    intro i p hp
    rw [JobPool.start, List.map_map, List.getElem?_map] at hp
    obtain ⟨x, -, rfl⟩ := Option.map_eq_some_iff.mp hp
    exact retrying_program hr x
  have hfree : Along (Pool.stepAt exec) (fun _ _ => True) (JobPool.start s (copies.map r.sentAs))
      sched := (along_iff_split _ _ _ _).mpr fun _ _ _ _ => trivial
  obtain ⟨gs, hend, hinv, -⟩ := htracking.run (I := RetryInv s r)
    (fun _ _ _ _ _ h _ _ hstep => h.step hr hstep) (retryInv_start s r) hfree
  have hothers : c.state.others = s.others := hinv.midway.others
  refine ⟨?_, congrArg (fun u : Db => { u with jobs := s.jobs, notices := s.notices }) hothers⟩
  -- There is a first copy, and it has come to its end.
  have hfirst : RetryEnd s r (gs 0) := by
    cases hp : c.threads[0]? with
    | none =>
      have hnone := (Pool.threads_run_eq_none exec _ sched 0).mp hp
      rw [JobPool.start, List.map_map, List.getElem?_map, Option.map_eq_none_iff] at hnone
      exact absurd (List.getElem?_eq_none_iff.mp hnone) (by simpa using hne)
    | some p =>
      rcases hend.ended hp (Pool.finished_iff.mp hdone 0) with ⟨a, -, hfirst⟩ | ⟨-, hfirst⟩
      · exact hfirst
      · exact hfirst
  rcases hfirst with hsettled | hsame
  · have hclaim := hinv.claims 0
    rw [hsettled] at hclaim
    exact hclaim
  · exact hinv.midway.of_same hsame

/-- The company accepts the booked job, and sends the request again before it is answered. -/
theorem accept_sent_twice :
    let c := runFrom JobPool.step (JobPool.start (serve sampleDb sampleBooking)
      ([⟨sampleEnv 2, id⟩, ⟨sampleEnv 5, id⟩].map (onSampleJob .jobAccept company 2).sentAs))
        [0, 1, 1, 0, 0, 1]
    c.state.jobs.docs.map (fun j => (j.jobStatus, j.jobAcceptAt)) = [(.accept, some 2)] ∧
      c.state.timelessJobs = (serve (serve sampleDb sampleBooking)
        (onSampleJob .jobAccept company 2)).timelessJobs := by
  intro c
  have hjobs : c.state.jobs.docs.map (fun j => (j.jobStatus, j.jobAcceptAt)) =
      [(.accept, some 2)] := by decide +kernel
  have hdone : c.finished = true := by decide +kernel
  exact ⟨hjobs, (retries_idempotent _ _ (by decide) _ (by simp) _ hdone).1⟩

end Copies

end DoQwik
