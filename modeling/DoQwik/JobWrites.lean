import DoQwik.JobsController

/-! What a job request does to the jobs collection when it is served without
interruption: `assignJob` inserts at most one job, every other handler updates at most
one, with a selector and data that the request and the state determine. -/
namespace DoQwik
open JsValues DocStore Interleave

/-- A `findOneAndUpdate` on jobs. -/
structure JobWrite where
  sel : Job → Bool
  data : JobSet

def applyWrite (now : ℤ) (c : Collection Job.id) : Option JobWrite → Collection Job.id
  | none => c
  | some w => c.updateOne w.sel (w.data.apply now) (w.data.apply_id now)

/-- The write that a read of the job and the plan for it lead to. -/
def planned (s : Db) (id : Option Json) (filter : Job → Bool) (plan : Job → Except Thrown Plan) :
    Option JobWrite :=
  match jobById id with
  | .error _ => none
  | .ok p =>
    match (s.jobs.findOne p).map plan with
    | some (.ok (.update data)) => some ⟨fun j => p j && filter j, data⟩
    | _ => none

namespace JobRequest

/-- The value that names the job. -/
def target (r : JobRequest) : Option Json :=
  match r.handler with
  | .proceedToPay => r.body.jobID
  | .paymentSuccess => r.body.jobID
  | _ => r.body.jobId

/-- What the update asks of a job besides its id. -/
def filter (r : JobRequest) : Job → Bool :=
  match r.handler with
  | .assignJobToWorker =>
    fun j => j.providerData = r.caller.userId && j.providerUserType = companyType
  | .userCancelJob => fun j => j.userId = r.caller.userId
  | .userJobReschedule => fun j => j.userId = r.caller.userId
  | .submitFeedback => fun j => j.userId = r.caller.userId
  | .replyFeedback => fun j => j.providerData = r.caller.userId
  | _ => fun _ => true

def checks (r : JobRequest) : List (Bool × MessageKey) :=
  match r.handler with
  | .assignJob => []
  | .proceedToPay => proceedToPayChecks r.body
  | .paymentSuccess => paymentSuccessChecks r.body
  | .assignJobToWorker => assignJobToWorkerChecks r.body
  | .jobAccept => jobIdChecks r.body
  | .jobStart => jobIdChecks r.body
  | .jobReject => jobRejectChecks r.body
  | .jobFinish => jobFinishChecks r.body
  | .paymentUpdate => jobFinishChecks r.body
  | .userCancelJob => jobRejectChecks r.body
  | .userJobReschedule => userJobRescheduleChecks r.body
  | .submitFeedback => submitFeedbackChecks r.body
  | .replyFeedback => jobIdChecks r.body

/-- What a handler asks for before it reads the job: the files of `jobStart`, the worker of
`assignJobToWorker`, the address of `user_job_reschedule`. -/
def lookups (r : JobRequest) (s : Db) : Bool :=
  match r.handler with
  | .assignJob => false
  | .assignJobToWorker => someMatch s.providers (workersOf r.body.workerID r.caller.userId)
  | .userJobReschedule => someMatch s.addresses (addressOf r.body.locationID r.caller.userId)
  | .jobStart => (r.files.bind (·.firstPic)).isSome && (r.files.bind (·.secondPic)).isSome
  | _ => true

def plan (r : JobRequest) : Job → Except Thrown Plan :=
  match r.handler with
  | .assignJob => fun _ => .error .typeError
  | .proceedToPay => proceedToPayParam r.body
  | .paymentSuccess => fun _ => .ok (.update paymentSuccessParam)
  | .assignJobToWorker => assignJobToWorkerParam r.env r.body
  | .jobAccept => jobAcceptParam r.env
  | .jobStart => jobStartParam r.env r.body ((r.files.bind (·.secondPic)).getD "")
  | .jobReject => jobRejectParam r.env r.caller r.body
  | .jobFinish => jobFinishParam r.env r.body
  | .paymentUpdate => paymentUpdateParam r.env r.body
  | .userCancelJob => jobRejectParam r.env r.caller r.body
  | .userJobReschedule => userJobRescheduleParam r.env r.caller r.body
  | .submitFeedback => submitFeedbackParam r.env r.body
  | .replyFeedback => replyFeedbackParam r.env r.body

def finish (r : JobRequest) : Option Job → Action JobResponse :=
  match r.handler with
  | .proceedToPay => notifyAndSend [.newJobNotificationtouser, .newJobNotificationtoprovider]
  | .jobAccept => notifyAndSend [.jobAcceptNotyfy]
  | .jobStart => notifyAndSend [.jobStartNotyfy]
  | .jobFinish => notifyAndSend [.jobFinishNotyfy]
  | .paymentUpdate => notifyAndSend [.jobFinishNotyfy]
  | .submitFeedback => sendOrNotFound
  | .replyFeedback => sendOrNotFound
  | _ => sendResult

def refused (r : JobRequest) : Except Thrown JobResponse :=
  match refusal r.checks with
  | some key => .ok { key := key }
  | none =>
    match r.handler with
    | .assignJobToWorker =>
      (workersOf r.body.workerID r.caller.userId).map fun _ => { key := .errorWorkerNotFound }
    | .userJobReschedule =>
      (addressOf r.body.locationID r.caller.userId).map fun _ => { key := .serviceLocationNotFound }
    | .jobStart => if r.files.isNone then .error .typeError else .ok { key := .jobPicEmpty }
    | _ => .error .typeError

def write (r : JobRequest) (s : Db) : Option JobWrite :=
  if (refusal r.checks).isNone && r.lookups s then planned s r.target r.filter r.plan else none

def written (r : JobRequest) (s : Db) : Option Job :=
  (r.write s).bind fun w => s.jobs.findOne w.sel

end JobRequest

section Runs

variable {α β : Type} {ρ : Type}

def jobsAfter (p : Action α) (s : Db) : Collection Job.id := (p.run exec s).1.jobs

@[simp] theorem jobsAfter_reply (key : MessageKey) (x : Option ρ) (s : Db) :
    jobsAfter (reply key x) s = s.jobs := rfl

@[simp] theorem jobsAfter_query_bind (f : Db → β) (k : β → Action α) (s : Db) :
    jobsAfter (query f >>= k) s = jobsAfter (k (f s)) s := rfl

@[simp] theorem jobsAfter_cast_ok_bind (a : β) (k : β → Action α) (s : Db) :
    jobsAfter (cast (.ok a) >>= k) s = jobsAfter (k a) s := rfl

@[simp] theorem jobsAfter_getOnlyOneData_bind (p : Job → Bool)
    (k : Option PopulatedJob → Action α) (s : Db) :
    jobsAfter (getOnlyOneData (.ok p) >>= k) s =
      jobsAfter (k ((s.jobs.findOne p).map (populate s))) s := rfl

@[simp] theorem jobsAfter_getAddressDataById_bind (p : Address → Bool)
    (k : List Address → Action α) (s : Db) :
    jobsAfter (getAddressDataById (.ok p) >>= k) s = jobsAfter (k (s.addresses.find p)) s := rfl

@[simp] theorem jobsAfter_getOnlyOneIndividualServices_bind (p : ProviderSubService → Bool)
    (k : Option PopulatedOffer → Action α) (s : Db) :
    jobsAfter (getOnlyOneIndividualServices (.ok p) >>= k) s =
      jobsAfter (k ((s.providerSubServices.findOne p).map (populateOffer s))) s := rfl

theorem jobsAfter_insertJob_bind (j : Job) (k : Bool → Action α) (s : Db) :
    jobsAfter (insertJob j >>= k) s =
      match s.jobs.insert j with
      | some c => jobsAfter (k true) { s with jobs := c }
      | none => jobsAfter (k false) s := by
  change jobsAfter (k (exec (.createJob j) s).2) (exec (.createJob j) s).1 = _
  cases h : s.jobs.insert j with
  | none => rw [exec_createJob_none h]
  | some c => rw [exec_createJob_some h]

theorem jobsAfter_checked (checks : List (Bool × MessageKey)) (k : Action (Response ρ)) (s : Db) :
    jobsAfter (checked checks k) s =
      if (refusal checks).isNone then jobsAfter k s else s.jobs := by
  unfold checked
  cases refusal checks with
  | none => rfl
  | some key => rfl

theorem jobsAfter_notifyAll_bind (job : ObjectId) (kinds : List NoticeKind) (k : Unit → Action α)
    (hk : ∀ s, jobsAfter (k ()) s = s.jobs) (s : Db) :
    jobsAfter (notifyAll job kinds >>= k) s = s.jobs := by
  induction kinds generalizing s with
  | nil => exact hk s
  | cons kind kinds ih => exact ih { s with notices := s.notices ++ [⟨kind, job⟩] }

/-- The endings of the handlers leave the jobs alone. -/
@[simp] theorem jobsAfter_sendResult (x : Option Job) (s : Db) :
    jobsAfter (sendResult x) s = s.jobs := rfl

@[simp] theorem jobsAfter_notifyAndSend (kinds : List NoticeKind) (x : Option Job) (s : Db) :
    jobsAfter (notifyAndSend kinds x) s = s.jobs := by
  cases x with
  | none => rfl
  | some j => exact jobsAfter_notifyAll_bind j.id kinds _ (fun _ => rfl) s

@[simp] theorem jobsAfter_sendOrNotFound (x : Option Job) (s : Db) :
    jobsAfter (sendOrNotFound x) s = s.jobs := by
  cases x with
  | none => rfl
  | some j => rfl

theorem jobsAfter_updateData_bind (env : Env) (p : Job → Bool) (d : JobSet)
    (k : Option Job → Action α) (hk : ∀ x s, jobsAfter (k x) s = s.jobs) (s : Db) :
    jobsAfter (updateData env (.ok p) (.ok d) >>= k) s = applyWrite env.now s.jobs (some ⟨p, d⟩) :=
  hk _ _

/-- What the shared part of the handlers does. It stops without a write, with an error, without
the job or refused by the plan; or it makes the planned write and ends as its handler does. -/
theorem run_changeJob (env : Env) (id : Option Json) (filter : Job → Bool)
    (plan : Job → Except Thrown Plan) (finish : Option Job → Action JobResponse) (s : Db) :
    (planned s id filter plan = none ∧
      ((∃ e, (changeJob env id filter plan finish).run exec s = (s, .error e)) ∨
        ∃ key, (changeJob env id filter plan finish).run exec s = (s, .ok { key := key }) ∧
          (key = .jobNotFound ∨ ∃ j, plan j = .ok (.refuse key)))) ∨
    ∃ w j, planned s id filter plan = some w ∧ plan j = .ok (.update w.data) ∧
      (changeJob env id filter plan finish).run exec s =
        (finish ((s.jobs.findOne w.sel).map (w.data.apply env.now))).run exec
          (exec (.updateJob w.sel w.data env.now) s).1 := by
  unfold changeJob planned
  cases hid : jobById id with
  | error e => exact Or.inl ⟨rfl, Or.inl ⟨_, rfl⟩⟩
  | ok p =>
    have hread : ∀ k : Option PopulatedJob → Action JobResponse,
        (getOnlyOneData (.ok p) >>= k).run exec s =
          (k ((s.jobs.findOne p).map (populate s))).run exec s := fun _ => rfl
    rw [hread]
    dsimp only
    cases s.jobs.findOne p with
    | none => exact Or.inl ⟨rfl, Or.inr ⟨_, rfl, Or.inl rfl⟩⟩
    | some j =>
      simp only [Option.map_some, populate]
      cases hplan : plan j with
      | error e => exact Or.inl ⟨rfl, Or.inl ⟨e, rfl⟩⟩
      | ok decision =>
        cases decision with
        | refuse key => exact Or.inl ⟨rfl, Or.inr ⟨key, rfl, Or.inr ⟨j, hplan⟩⟩⟩
        | update d => exact Or.inr ⟨⟨fun j => p j && filter j, d⟩, j, rfl, hplan, rfl⟩

/-- The shared part of the handlers makes the planned write. -/
theorem jobsAfter_changeJob (env : Env) (id : Option Json) (filter : Job → Bool)
    (plan : Job → Except Thrown Plan) (finish : Option Job → Action JobResponse)
    (hfinish : ∀ x s, jobsAfter (finish x) s = s.jobs) (s : Db) :
    jobsAfter (changeJob env id filter plan finish) s =
      applyWrite env.now s.jobs (planned s id filter plan) := by
  unfold jobsAfter
  rcases run_changeJob env id filter plan finish s with
    ⟨hnone, ⟨e, hrun⟩ | ⟨key, hrun, -⟩⟩ | ⟨w, j, hw, -, hrun⟩
  · rw [hrun, hnone]
    rfl
  · rw [hrun, hnone]
    rfl
  · rw [hrun, hw]
    exact hfinish _ _

theorem serve_jobs_eq (s : Db) (r : JobRequest) : (serve s r).jobs = jobsAfter r.handle s := by
  unfold serve JobRequest.program jobsAfter
  rw [Prog.run_catchAll]

/-- An update through the id alone makes the planned write: if no job has the id, neither
changes anything. -/
theorem applyWrite_jobById (now : ℤ) (s : Db) (id : Option Json) (p : Job → Bool) (d : JobSet)
    (hid : jobById id = .ok p) :
    applyWrite now s.jobs (some ⟨p, d⟩) =
      applyWrite now s.jobs (planned s id (fun _ => true) (fun _ => .ok (.update d))) := by
  unfold planned
  simp only [hid]
  cases hj : s.jobs.findOne p with
  | none => exact Collection.updateOne_of_findOne_none _ (d.apply_id now) hj
  | some j => simp only [Option.map_some, Bool.and_true]

/-- A checked program that goes on only if a lookup succeeds. -/
theorem run_checked_eq (ready : Bool) {checks : List (Bool × MessageKey)}
    {k : Action (Response ρ)} {s : Db} {x : Db × Except Thrown (Response ρ)}
    {y : Except Thrown (Response ρ)} (hkey : ∀ key, refusal checks = some key → y = .ok { key := key })
    (hk : refusal checks = none → k.run exec s = if ready then x else (s, y)) :
    (checked checks k).run exec s =
      if (refusal checks).isNone && ready then x else (s, y) := by
  unfold checked
  cases hc : refusal checks with
  | none => simpa using hk hc
  | some key =>
    rw [hkey key hc]
    rfl

/-- The updating handlers but `paymentSuccess` are `changeJob` behind their checks and lookups. -/
theorem run_handle (s : Db) (r : JobRequest) (h : r.handler ≠ .assignJob)
    (h' : r.handler ≠ .paymentSuccess) :
    r.handle.run exec s =
      if (refusal r.checks).isNone && r.lookups s then
        (changeJob r.env r.target r.filter r.plan r.finish).run exec s
      else (s, r.refused) := by
  have hkey : ∀ key, refusal r.checks = some key → r.refused = .ok { key := key } := by
    intro key hk
    simp only [JobRequest.refused, hk]
  obtain ⟨handler, c, b, files, env⟩ := r
  cases handler with
  | assignJob => exact absurd rfl h
  | paymentSuccess => exact absurd rfl h'
  -- Three handlers look something up before they come to the job.
  | assignJobToWorker =>
    refine run_checked_eq _ hkey fun hc => ?_
    have hrefused : (JobRequest.mk .assignJobToWorker c b files env).refused =
        (workersOf b.workerID c.userId).map fun _ => { key := .errorWorkerNotFound } := by
      unfold JobRequest.refused
      rw [show refusal (JobRequest.mk .assignJobToWorker c b files env).checks = none from hc]
    rw [hrefused]
    cases hw : workersOf b.workerID c.userId with
    | error e =>
      simp only [JobRequest.lookups, hw, someMatch]
      rfl
    | ok p =>
      simp only [run_cast_ok_bind, run_query_bind, JobRequest.lookups, hw, someMatch,
        decide_eq_true_eq]
      by_cases hz : s.providers.count p = 0
      · simp only [hz, if_true, ne_eq, not_true_eq_false, if_false]
        rfl
      · simp only [hz, if_false, ne_eq, not_false_eq_true, if_true]
        rfl
  | jobStart =>
    refine run_checked_eq _ hkey fun hc => ?_
    have hrefused : (JobRequest.mk .jobStart c b files env).refused =
        if files.isNone then .error .typeError else .ok { key := .jobPicEmpty } := by
      unfold JobRequest.refused
      rw [show refusal (JobRequest.mk .jobStart c b files env).checks = none from hc]
    rw [hrefused]
    rcases files with _ | ⟨i, _ | x, _ | y⟩
    · rfl
    · rfl
    · rfl
    · rfl
    · rfl
  | userJobReschedule =>
    refine run_checked_eq _ hkey fun hc => ?_
    have hrefused : (JobRequest.mk .userJobReschedule c b files env).refused =
        (addressOf b.locationID c.userId).map fun _ => { key := .serviceLocationNotFound } := by
      unfold JobRequest.refused
      rw [show refusal (JobRequest.mk .userJobReschedule c b files env).checks = none from hc]
    rw [hrefused]
    cases ha : addressOf b.locationID c.userId with
    | error e =>
      simp only [JobRequest.lookups, ha, someMatch]
      rfl
    | ok p =>
      have hrun : ∀ k : List Address → Action JobResponse,
          (getAddressDataById (.ok p) >>= k).run exec s = (k (s.addresses.find p)).run exec s :=
        fun _ => rfl
      simp only [hrun, JobRequest.lookups, ha, someMatch, Collection.count, decide_eq_true_eq,
        ne_eq, List.length_eq_zero_iff, List.isEmpty_iff]
      by_cases hz : s.addresses.find p = []
      · simp only [hz, if_true, not_true_eq_false, if_false]
        rfl
      · simp only [hz, if_false, not_false_eq_true, if_true]
        rfl
  | _ => exact run_checked_eq true hkey fun _ => rfl

theorem jobsAfter_finish (r : JobRequest) (x : Option Job) (s : Db) :
    jobsAfter (r.finish x) s = s.jobs := by
  unfold JobRequest.finish
  cases r.handler <;> simp only [jobsAfter_notifyAndSend, jobsAfter_sendOrNotFound,
    jobsAfter_sendResult]

/-- Handlers other than `assignJob` make the one write that `JobRequest.write` names. -/
theorem serve_jobs (s : Db) (r : JobRequest) (h : r.handler ≠ .assignJob) :
    (serve s r).jobs = applyWrite r.env.now s.jobs (r.write s) := by
  rw [serve_jobs_eq]
  by_cases h' : r.handler = .paymentSuccess
  · simp only [JobRequest.handle, h', paymentSuccess, jobsAfter_checked, JobRequest.write,
      JobRequest.checks, JobRequest.lookups, Bool.and_true]
    split
    · simp only [JobRequest.target, JobRequest.filter, JobRequest.plan, h']
      cases hid : jobById r.body.jobID with
      | error e =>
        simp only [planned, hid]
        rfl
      | ok p =>
        exact (jobsAfter_updateData_bind r.env p _ sendResult jobsAfter_sendResult s).trans
          (applyWrite_jobById r.env.now s _ p _ hid)
    · rfl
  · unfold jobsAfter JobRequest.write
    rw [run_handle s r h h']
    split
    · exact jobsAfter_changeJob r.env _ _ _ _ (jobsAfter_finish r) s
    · rfl

/-- Reading and advancing a counter leaves the jobs alone. -/
theorem jobsAfter_getSequence_bind (table : String) (k : ℕ → Action α) (s : Db) :
    ∃ t n, t.jobs = s.jobs ∧ jobsAfter (getSequence table >>= k) s = jobsAfter (k n) t := by
  obtain ⟨cs, n, hrun⟩ := run_getSequence table s
  refine ⟨{ s with counters := cs }, n, rfl, ?_⟩
  unfold jobsAfter
  rw [Prog.run_bind, hrun]

/-- Creating a job inserts it or throws. -/
theorem jobsAfter_createData_bind (data : Except Thrown Job)
    (k : Option PopulatedJob → Action α) (hk : ∀ x s, jobsAfter (k x) s = s.jobs) (s : Db) :
    (∃ j, data = .ok j ∧ s.jobs.insert j = some (jobsAfter (createData data >>= k) s)) ∨
      jobsAfter (createData data >>= k) s = s.jobs := by
  cases data with
  | error e => exact Or.inr rfl
  | ok j =>
    have hrun : jobsAfter (createData (.ok j) >>= k) s =
        jobsAfter (insertJob j >>= fun created =>
          (if created then query fun s => (s.jobs.get? j.id).map (populate s)
          else throwing .duplicateKey) >>= k) s := rfl
    rw [hrun, jobsAfter_insertJob_bind]
    cases hi : s.jobs.insert j with
    | none => exact Or.inr rfl
    | some c =>
      simp only [if_true, jobsAfter_query_bind, hk]
      exact Or.inl ⟨j, rfl, hi⟩

/-- The order is created, or the jobs stay as they are. -/
theorem jobsAfter_createOrder (env : Env) (b : JobBody) (files : Option JobFiles) (user : User)
    (provider : Provider) (offer : ProviderSubService) (serviceData : Option Service)
    (sub : SubService) (seqId : ℕ) (s : Db) :
    (∃ image service j, newJob env b image seqId user provider offer service sub = .ok j ∧
        s.jobs.insert j =
          some (jobsAfter (createOrder env b files user provider offer serviceData sub seqId) s)) ∨
      jobsAfter (createOrder env b files user provider offer serviceData sub seqId) s = s.jobs := by
  rcases serviceData with _ | service
  · exact Or.inr rfl
  rcases files with _ | f
  · exact Or.inr rfl
  · rcases jobsAfter_createData_bind
        (newJob env b f.jobImage seqId user provider offer service sub)
        (fun data => reply .success (some (JobResult.populated data))) (fun _ _ => rfl) s
      with ⟨j, hnew, hins⟩ | hsame
    · exact Or.inl ⟨f.jobImage, service, j, hnew, hins⟩
    · exact Or.inr hsame

/-- `placeOrder` inserts the new job, which is no duplicate, or leaves the jobs alone. -/
theorem jobsAfter_placeOrder (env : Env) (b : JobBody) (files : Option JobFiles) (user : User)
    (provider : Provider) (offer : ProviderSubService) (serviceData : Option Service)
    (sub : SubService) (s : Db) :
    (∃ image seqId service j q, duplicateOf env b user.id provider.id = .ok q ∧
        s.jobs.findOne q = none ∧
        newJob env b image seqId user provider offer service sub = .ok j ∧
        s.jobs.insert j =
          some (jobsAfter (placeOrder env b files user provider offer serviceData sub) s)) ∨
      jobsAfter (placeOrder env b files user provider offer serviceData sub) s = s.jobs := by
  unfold placeOrder
  cases hd : duplicateOf env b user.id provider.id with
  | error e => exact Or.inr rfl
  | ok p =>
    simp only [jobsAfter_getOnlyOneData_bind]
    cases hj : s.jobs.findOne p with
    | some j => exact Or.inr rfl
    | none =>
      simp only [Option.map_none]
      obtain ⟨t, n, ht, hrun⟩ := jobsAfter_getSequence_bind "dqw_users"
        (createOrder env b files user provider offer serviceData sub) s
      rw [hrun]
      rcases jobsAfter_createOrder env b files user provider offer serviceData sub n t
        with ⟨image, service, j, hnew, hins⟩ | hsame
      · exact Or.inl ⟨image, n, service, j, p, rfl, hj, hnew, ht ▸ hins⟩
      · exact Or.inr (hsame.trans ht)

/-- All that `assignJob` looks up for a job that it creates. -/
structure Booking where
  user : User
  provider : Provider
  offer : ProviderSubService
  service : Service
  sub : SubService
  seqId : ℕ
  image : Option String

/-- The lookups of the request in state `s`, and the job `j` that it creates from them. -/
structure Booking.Creates (k : Booking) (s : Db) (r : JobRequest) (j : Job) : Prop where
  handler : r.handler = .assignJob
  user : s.users.get? r.caller.userId = some k.user
  validType : ObjectId.isValid r.body.serviceType = true
  offer : selected s.providerSubServices (offerById r.body.serviceType) = some k.offer
  provider : selected s.providers (activeProvider r.body.providerId) = some k.provider
  single : ∃ q, duplicateOf r.env r.body k.user.id k.provider.id = .ok q ∧ s.jobs.findOne q = none
  new : newJob r.env r.body k.image k.seqId k.user k.provider k.offer k.service k.sub = .ok j

/-- What is left once the offer was read inserts a new job or leaves the jobs alone. -/
theorem jobsAfter_orderFrom (s : Db) (r : JobRequest) (hr : r.handler = .assignJob)
    (hvalid : ObjectId.isValid r.body.serviceType = true) :
    (∃ (k : Booking) (j : Job), k.Creates s r j ∧
        s.jobs.insert j = some (jobsAfter (orderFrom r.env r.body r.files
          (s.users.get? r.caller.userId)
          ((selected s.providerSubServices (offerById r.body.serviceType)).map
            (populateOffer s))) s)) ∨
      jobsAfter (orderFrom r.env r.body r.files (s.users.get? r.caller.userId)
        ((selected s.providerSubServices (offerById r.body.serviceType)).map
          (populateOffer s))) s = s.jobs := by
  cases hoffer : selected s.providerSubServices (offerById r.body.serviceType) with
  | none => exact Or.inr rfl
  | some offer =>
    rw [Option.map_some]
    rcases hpop : populateOffer s offer with ⟨o, serviceData, _ | sub⟩
    · exact Or.inr rfl
    · have ho : o = offer := (congrArg PopulatedOffer.offer hpop).symm
      subst ho
      simp only [orderFrom]
      cases hp : activeProvider r.body.providerId with
      | error e => exact Or.inr rfl
      | ok p =>
        simp only [jobsAfter_cast_ok_bind, jobsAfter_query_bind]
        cases hprovider : s.providers.findOne p with
        | none => exact Or.inr rfl
        | some provider =>
          cases huser : s.users.get? r.caller.userId with
          | none => exact Or.inr rfl
          | some user =>
            rcases jobsAfter_placeOrder r.env r.body r.files user provider o serviceData sub s
              with ⟨image, seqId, service, j, q, hq, hsingle, hnew, hins⟩ | hsame
            · refine Or.inl ⟨⟨user, provider, o, service, sub, seqId, image⟩, j, ?_, hins⟩
              exact ⟨hr, huser, hvalid, hoffer, by rw [hp]; exact hprovider, ⟨q, hq, hsingle⟩, hnew⟩
            · exact Or.inr hsame

/-- `assignJob` inserts a new job of the caller or leaves the jobs alone. -/
theorem serve_assignJob_jobs (s : Db) (r : JobRequest) (h : r.handler = .assignJob) :
    (∃ (k : Booking) (j : Job), k.Creates s r j ∧ s.jobs.insert j = some (serve s r).jobs) ∨
      (serve s r).jobs = s.jobs := by
  have hend := jobsAfter_orderFrom s r h
  rw [serve_jobs_eq]
  simp only [JobRequest.handle, h, assignJob, jobsAfter_checked]
  -- The reads before the offer: the address of the customer, and the customer.
  split
  · cases addressOf r.body.serviceLocation r.caller.userId with
    | error e => exact Or.inr rfl
    | ok p =>
      simp only [jobsAfter_getAddressDataById_bind]
      split
      · exact Or.inr rfl
      · simp only [jobsAfter_query_bind, jobsAfter_checked]
        split
        · rename_i hvalid
          have hv : ObjectId.isValid r.body.serviceType = true := by
            cases hb : ObjectId.isValid r.body.serviceType with
            | true => rfl
            | false => simp [refusal, hb] at hvalid
          have hend' := hend hv
          cases ho : offerById r.body.serviceType with
          | error e => exact Or.inr rfl
          | ok q =>
            simp only [jobsAfter_getOnlyOneIndividualServices_bind]
            rw [ho] at hend'
            exact hend'
        · exact Or.inr rfl
  · exact Or.inr rfl

end Runs

end DoQwik
