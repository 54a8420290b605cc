import DoQwik.JobWrites

/-! The status of a job as a state machine: which status each handler writes, on which
status of the job it read it goes on, and what becomes of closed jobs over whole runs. -/
namespace DoQwik
open JsValues DocStore Interleave

/-- `Complete` and `Reject` are meant to be final. -/
def JobStatus.closed : JobStatus → Bool
  | .complete => true
  | .reject => true
  | _ => false

/-- The statuses in which no work has started. -/
def JobStatus.pending : JobStatus → Bool
  | .processing => true
  | .assign => true
  | .accept => true
  | _ => false

namespace JobHandler

def sets : JobHandler → Option JobStatus
  | .assignJobToWorker => some .assign
  | .jobAccept => some .accept
  | .jobStart => some .start
  | .jobReject => some .reject
  | .userCancelJob => some .reject
  | .jobFinish => some .complete
  | _ => none

/-- The guard of the handler on the status of the job that it read. -/
def admits : JobHandler → JobStatus → Bool
  | .jobStart => fun st => st ≠ .processing
  | .jobReject => JobStatus.pending
  | .userCancelJob => JobStatus.pending
  | .userJobReschedule => JobStatus.pending
  | .jobFinish => fun st => st = .start
  | .paymentUpdate => fun st => st = .start
  | .submitFeedback => fun st => st = .complete
  | .replyFeedback => fun st => st = .complete
  | _ => fun _ => true

/-- The handlers that check `isValidObjectId(jobId)`. -/
def checksId : JobHandler → Bool
  | .assignJob => false
  | .proceedToPay => false
  | .paymentSuccess => false
  | .assignJobToWorker => false
  | _ => true

end JobHandler

section Plans

variable {env : Env} {c : Caller} {b : JobBody} {j : Job} {d : JobSet}

/-- The data of each handler, and on which jobs it goes on. -/
theorem proceedToPayParam_eq (h : proceedToPayParam b j = .ok (.update d)) :
    ∃ paymentType paidAmount couponCode,
      castNum (if isFirst30 b.couponCode then j.amount.sub (.fin 30) else j.amount) =
        .ok paidAmount ∧
      castSet castString (ifTruthy b.couponCode) = .ok couponCode ∧
      d = { paymentType
            paidAmount := some paidAmount
            discount := some (some (.fin (if isFirst30 b.couponCode then 30 else 0)))
            isCouponUse := some (some (if isFirst30 b.couponCode then "1" else "0"))
            couponCode } := by
  obtain ⟨x, -, h⟩ := bind_eq_ok h
  obtain ⟨y, hpaid, h⟩ := bind_eq_ok h
  obtain ⟨z, hcode, h⟩ := bind_eq_ok h
  cases h
  exact ⟨_, _, _, hpaid, hcode, rfl⟩

theorem assignJobToWorkerParam_eq (h : assignJobToWorkerParam env b j = .ok (.update d)) :
    ∃ workerData updateIp, castSet castObjectId b.workerID = .ok workerData ∧
      d = { workerData, jobStatus := some .assign, updateDate := some (some env.now), updateIp } := by
  obtain ⟨x, hx, h⟩ := bind_eq_ok h
  obtain ⟨y, -, h⟩ := bind_eq_ok h
  cases h
  exact ⟨_, _, hx, rfl⟩

theorem jobStartParam_eq {pic : String} (h : jobStartParam env b pic j = .ok (.update d)) :
    j.jobStatus ≠ .processing ∧
      (∃ code, parseIntOf b.code = .ok code ∧ j.verificationCode.any (·.strictEq code) = true) ∧
      ∃ jobStartLatitude, d =
        { jobStatus := some .start, jobStartAt := some (some env.now), jobStartLatitude,
          jobStartImage1 := some (some (trim pic)) } := by
  unfold jobStartParam at h
  split at h
  · cases h
  · rename_i hp
    obtain ⟨code, hcode, h⟩ := bind_eq_ok h
    split at h
    · rename_i hmatch
      obtain ⟨lat, -, h⟩ := bind_eq_ok h
      cases h
      exact ⟨hp, ⟨code, hcode, hmatch⟩, _, rfl⟩
    · cases h

theorem jobRejectParam_eq (h : jobRejectParam env c b j = .ok (.update d)) :
    j.jobStatus.pending = true ∧ ∃ jobRejectReason,
      castSet castString b.rejectReason = .ok jobRejectReason ∧
      d = { jobStatus := some .reject, jobRejectReason, jobRejectAt := some (some env.now),
            jobRejectBy := some (some c.userType) } := by
  unfold jobRejectParam at h
  cases hs : j.jobStatus <;> rw [hs] at h
  case complete => cases h
  case start => cases h
  case reject => cases h
  all_goals
    obtain ⟨x, hreason, h⟩ := bind_eq_ok h
    cases h
    exact ⟨rfl, _, hreason, rfl⟩

theorem jobFinishParam_eq (h : jobFinishParam env b j = .ok (.update d)) :
    j.jobStatus = .start ∧ ∃ updateIp, d =
      { jobStatus := some .complete, paymentStatus := some (some paymentSuccessful),
        jobFinishAt := some (some env.now), updateDate := some (some env.now), updateIp } := by
  unfold jobFinishParam at h
  cases hs : j.jobStatus <;> rw [hs] at h
  case start =>
    obtain ⟨x, -, h⟩ := bind_eq_ok h
    cases h
    exact ⟨rfl, _, rfl⟩
  all_goals cases h

theorem paymentUpdateParam_eq (h : paymentUpdateParam env b j = .ok (.update d)) :
    j.jobStatus = .start ∧
      ∃ rAmount finalPaidAmount paymentMode paymentStatus updateIp revenueAmount,
        revenueOf b.finalPaidAmount j.revenuePercentage = .ok rAmount ∧
        castSet castNumber b.finalPaidAmount = .ok finalPaidAmount ∧
        castSet castTrimmed b.paymentStatus = .ok paymentStatus ∧
        castNum rAmount = .ok revenueAmount ∧
        d = { finalPaidAmount, paymentMode, paymentStatus, updateDate := some (some env.now),
              updateIp, revenueAmount := some revenueAmount } := by
  unfold paymentUpdateParam at h
  cases hs : j.jobStatus <;> rw [hs] at h
  case start =>
    obtain ⟨x₁, hrevenue, h⟩ := bind_eq_ok h
    obtain ⟨x₂, hfinal, h⟩ := bind_eq_ok h
    obtain ⟨x₃, -, h⟩ := bind_eq_ok h
    obtain ⟨x₄, hstatus, h⟩ := bind_eq_ok h
    obtain ⟨x₅, -, h⟩ := bind_eq_ok h
    obtain ⟨x₆, hamount, h⟩ := bind_eq_ok h
    cases h
    exact ⟨rfl, _, _, _, _, _, _, hrevenue, hfinal, hstatus, hamount, rfl⟩
  all_goals cases h

theorem userJobRescheduleParam_eq (h : userJobRescheduleParam env c b j = .ok (.update d)) :
    j.jobStatus.pending = true ∧ ∃ serviceLocation serviceDate serviceTime,
      castSet castObjectId b.locationID = .ok serviceLocation ∧
      castSet castTrimmed b.serviceDate = .ok serviceDate ∧
      castSet castTrimmed b.serviceTime = .ok serviceTime ∧
      d = { serviceLocation, serviceDate, serviceTime, jobRescheduleAt := some (some env.now),
            jobRescheduleby := some (some c.userType) } := by
  unfold userJobRescheduleParam at h
  cases hs : j.jobStatus <;> rw [hs] at h
  case complete => cases h
  case start => cases h
  case reject => cases h
  all_goals
    obtain ⟨x₁, hlocation, h⟩ := bind_eq_ok h
    obtain ⟨x₂, hdate, h⟩ := bind_eq_ok h
    obtain ⟨x₃, htime, h⟩ := bind_eq_ok h
    cases h
    exact ⟨rfl, _, _, _, hlocation, hdate, htime, rfl⟩

theorem submitFeedbackParam_eq (h : submitFeedbackParam env b j = .ok (.update d)) :
    j.jobStatus = .complete ∧ ∃ star message, castSet castNumber b.star = .ok star ∧
      castSet castString (ifTruthy b.message) = .ok message ∧
      d = { userFeedback := some
              { star := star.join, message := message.join, feedbackAt := some env.now } } := by
  unfold submitFeedbackParam at h
  split at h
  · rename_i hc
    obtain ⟨x, hstar, h⟩ := bind_eq_ok h
    obtain ⟨y, hmessage, h⟩ := bind_eq_ok h
    cases h
    exact ⟨hc, _, _, hstar, hmessage, rfl⟩
  · cases h

theorem replyFeedbackParam_eq (h : replyFeedbackParam env b j = .ok (.update d)) :
    j.jobStatus = .complete ∧ ∃ reply, castSet castString b.message = .ok reply ∧
      d = { userFeedback := some
              { star := j.userFeedback.star
                message := j.userFeedback.message.filter (· ≠ "")
                feedbackAt := j.userFeedback.feedbackAt
                reply := reply.join
                replayAt := some env.now } } := by
  unfold replyFeedbackParam at h
  split at h
  · rename_i hc
    obtain ⟨x, hreply, h⟩ := bind_eq_ok h
    cases h
    exact ⟨hc, _, hreply, rfl⟩
  · cases h

/-- The update that a request plans for the job `j` that it read: one case for each handler,
with the guard of the handler and the casts that went well. -/
inductive JobChange (r : JobRequest) (j : Job) : JobSet → Prop where
  | proceedToPay {paymentType paidAmount couponCode} (hr : r.handler = .proceedToPay)
      (paid : castNum (if isFirst30 r.body.couponCode then j.amount.sub (.fin 30) else j.amount) =
        .ok paidAmount)
      (code : castSet castString (ifTruthy r.body.couponCode) = .ok couponCode) :
      JobChange r j
        { paymentType
          paidAmount := some paidAmount
          discount := some (some (.fin (if isFirst30 r.body.couponCode then 30 else 0)))
          isCouponUse := some (some (if isFirst30 r.body.couponCode then "1" else "0"))
          couponCode }
  | paymentSuccess (hr : r.handler = .paymentSuccess) :
      JobChange r j { paymentStatus := some (some paymentSuccessful) }
  | assignJobToWorker {workerData updateIp} (hr : r.handler = .assignJobToWorker)
      (worker : castSet castObjectId r.body.workerID = .ok workerData) :
      JobChange r j
        { workerData, jobStatus := some .assign, updateDate := some (some r.env.now), updateIp }
  | jobAccept (hr : r.handler = .jobAccept) :
      JobChange r j { jobStatus := some .accept, jobAcceptAt := some (some r.env.now) }
  | jobStart {code jobStartLatitude pic} (hr : r.handler = .jobStart)
      (status : j.jobStatus ≠ .processing) (parsed : parseIntOf r.body.code = .ok code)
      (same : j.verificationCode.any (·.strictEq code) = true) :
      JobChange r j
        { jobStatus := some .start, jobStartAt := some (some r.env.now), jobStartLatitude,
          jobStartImage1 := some (some (trim pic)) }
  | reject {jobRejectReason} (hr : r.handler = .jobReject ∨ r.handler = .userCancelJob)
      (status : j.jobStatus.pending = true) :
      JobChange r j
        { jobStatus := some .reject, jobRejectReason, jobRejectAt := some (some r.env.now),
          jobRejectBy := some (some r.caller.userType) }
  | jobFinish {updateIp} (hr : r.handler = .jobFinish) (status : j.jobStatus = .start) :
      JobChange r j
        { jobStatus := some .complete, paymentStatus := some (some paymentSuccessful),
          jobFinishAt := some (some r.env.now), updateDate := some (some r.env.now), updateIp }
  | paymentUpdate {rAmount finalPaidAmount paymentMode paymentStatus updateIp revenueAmount}
      (hr : r.handler = .paymentUpdate) (status : j.jobStatus = .start)
      (revenue : revenueOf r.body.finalPaidAmount j.revenuePercentage = .ok rAmount)
      (final : castSet castNumber r.body.finalPaidAmount = .ok finalPaidAmount)
      (payment : castSet castTrimmed r.body.paymentStatus = .ok paymentStatus)
      (amount : castNum rAmount = .ok revenueAmount) :
      JobChange r j
        { finalPaidAmount, paymentMode, paymentStatus, updateDate := some (some r.env.now),
          updateIp, revenueAmount := some revenueAmount }
  | userJobReschedule {serviceLocation serviceDate serviceTime}
      (hr : r.handler = .userJobReschedule) (status : j.jobStatus.pending = true)
      (date : castSet castTrimmed r.body.serviceDate = .ok serviceDate)
      (time : castSet castTrimmed r.body.serviceTime = .ok serviceTime) :
      JobChange r j
        { serviceLocation, serviceDate, serviceTime, jobRescheduleAt := some (some r.env.now),
          jobRescheduleby := some (some r.caller.userType) }
  | submitFeedback {star message} (hr : r.handler = .submitFeedback)
      (status : j.jobStatus = .complete) (stars : castSet castNumber r.body.star = .ok star)
      (text : castSet castString (ifTruthy r.body.message) = .ok message) :
      JobChange r j
        { userFeedback := some
            { star := star.join, message := message.join, feedbackAt := some r.env.now } }
  | replyFeedback {reply} (hr : r.handler = .replyFeedback) (status : j.jobStatus = .complete)
      (text : castSet castString r.body.message = .ok reply) :
      JobChange r j
        { userFeedback := some
            { star := j.userFeedback.star
              message := j.userFeedback.message.filter (· ≠ "")
              feedbackAt := j.userFeedback.feedbackAt
              reply := reply.join
              replayAt := some r.env.now } }

theorem plan_change {r : JobRequest} (h : r.plan j = .ok (.update d)) : JobChange r j d := by
  obtain ⟨handler, c, b, files, env⟩ := r
  cases handler with
  | assignJob => cases h
  | proceedToPay =>
    obtain ⟨_, _, _, hpaid, hcode, rfl⟩ := proceedToPayParam_eq h
    exact .proceedToPay rfl hpaid hcode
  | paymentSuccess =>
    cases h
    exact .paymentSuccess rfl
  | assignJobToWorker =>
    obtain ⟨_, _, hworker, rfl⟩ := assignJobToWorkerParam_eq (j := j) h
    exact .assignJobToWorker rfl hworker
  | jobAccept =>
    cases h
    exact .jobAccept rfl
  | jobStart =>
    obtain ⟨hs, ⟨_, hcode, hsame⟩, _, rfl⟩ := jobStartParam_eq h
    exact .jobStart rfl hs hcode hsame
  | jobReject =>
    obtain ⟨hs, _, -, rfl⟩ := jobRejectParam_eq h
    exact .reject (Or.inl rfl) hs
  | userCancelJob =>
    obtain ⟨hs, _, -, rfl⟩ := jobRejectParam_eq h
    exact .reject (Or.inr rfl) hs
  | jobFinish =>
    obtain ⟨hs, _, rfl⟩ := jobFinishParam_eq h
    exact .jobFinish rfl hs
  | paymentUpdate =>
    obtain ⟨hs, _, _, _, _, _, _, hrevenue, hfinal, hstatus, hamount, rfl⟩ :=
      paymentUpdateParam_eq h
    exact .paymentUpdate rfl hs hrevenue hfinal hstatus hamount
  | userJobReschedule =>
    obtain ⟨hs, _, _, _, -, hdate, htime, rfl⟩ := userJobRescheduleParam_eq h
    exact .userJobReschedule rfl hs hdate htime
  | submitFeedback =>
    obtain ⟨hs, _, _, hstar, hmessage, rfl⟩ := submitFeedbackParam_eq h
    exact .submitFeedback rfl hs hstar hmessage
  | replyFeedback =>
    obtain ⟨hs, _, hreply, rfl⟩ := replyFeedbackParam_eq h
    exact .replyFeedback rfl hs hreply

/-- What every new job looks like, whatever was booked. -/
structure FreshJob (j : Job) : Prop where
  jobStatus : j.jobStatus = .processing
  paymentStatus : j.paymentStatus = some paymentInitialize
  paidAmount : j.paidAmount = some j.amount
  discount : j.discount = some (.fin 0)
  finalPaidAmount : j.finalPaidAmount = none
  isCouponUse : j.isCouponUse = none
  couponCode : j.couponCode = none
  jobStartAt : j.jobStartAt = none
  jobFinishAt : j.jobFinishAt = none
  userFeedback : j.userFeedback = {}

theorem newJob_fresh {env : Env} {b : JobBody} {image : Option String} {seqId : ℕ}
    {user : User} {provider : Provider} {offer : ProviderSubService} {service : Service}
    {sub : SubService} {j : Job}
    (h : newJob env b image seqId user provider offer service sub = .ok j) : FreshJob j := by
  unfold newJob at h
  iterate 12 obtain ⟨_, -, h⟩ := bind_eq_ok h
  cases h
  constructor <;> rfl

/-- Every change follows the state machine: the guard held on the job, and the status that the
update writes is the one of the handler. -/
theorem JobChange.follows_machine {r : JobRequest} (h : JobChange r j d) :
    r.handler.admits j.jobStatus = true ∧ d.jobStatus = r.handler.sets := by
  cases h with
  | proceedToPay hr | paymentSuccess hr | assignJobToWorker hr | jobAccept hr =>
    rw [hr]
    exact ⟨rfl, rfl⟩
  | reject hr hs =>
    rcases hr with hr | hr <;> rw [hr] <;> exact ⟨hs, rfl⟩
  | userJobReschedule hr hs =>
    rw [hr]
    exact ⟨hs, rfl⟩
  | jobStart hr hs | jobFinish hr hs | paymentUpdate hr hs | submitFeedback hr hs
  | replyFeedback hr hs =>
    rw [hr]
    exact ⟨by simpa [JobHandler.admits] using hs, rfl⟩

theorem plan_follows_machine {r : JobRequest} (h : r.plan j = .ok (.update d)) :
    r.handler.admits j.jobStatus = true ∧ d.jobStatus = r.handler.sets :=
  (plan_change h).follows_machine

/-- No plan touches the terms of the booking. -/
theorem plan_keepsTerms {r : JobRequest} (h : r.plan j = .ok (.update d)) : d.KeepsTerms := by
  cases plan_change h <;> constructor <;> rfl

end Plans

section Writes

/-- What a write of a request says about the state it was made in. -/
theorem write_eq_some {r : JobRequest} {s : Db} {w : JobWrite} (h : r.write s = some w) :
    refusal r.checks = none ∧ ∃ p j, jobById r.target = .ok p ∧ s.jobs.findOne p = some j ∧
      r.plan j = .ok (.update w.data) ∧ w.sel = fun j => p j && r.filter j := by
  unfold JobRequest.write at h
  split at h
  · rename_i hready
    rw [Bool.and_eq_true, Option.isNone_iff_eq_none] at hready
    refine ⟨hready.1, ?_⟩
    unfold planned at h
    cases hid : jobById r.target with
    | error e => rw [hid] at h; cases h
    | ok p =>
      rw [hid] at h
      cases hj : s.jobs.findOne p with
      | none => simp [hj] at h
      | some j =>
        simp only [hj, Option.map_some] at h
        cases hplan : r.plan j with
        | error e => simp [hplan] at h
        | ok decision =>
          cases decision with
          | refuse key => simp [hplan] at h
          | update d =>
            simp only [hplan, Option.some.injEq] at h
            subst h
            exact ⟨p, j, rfl, hj, hplan, rfl⟩
  · cases h

/-- A handler that checks the id lets only valid ids through. -/
theorem badId_of_checks {r : JobRequest} (hc : r.handler.checksId = true)
    (h : refusal r.checks = none) : badId r.target = false := by
  have hfirst : ∃ rest, r.checks = (badId r.target, .jobidEmpty) :: rest := by
    obtain ⟨handler, c, b, files, env⟩ := r
    cases handler
    case assignJob | proceedToPay | paymentSuccess | assignJobToWorker => cases hc
    all_goals exact ⟨_, rfl⟩
  obtain ⟨rest, hrest⟩ := hfirst
  rw [hrest, refusal] at h
  cases hb : badId r.target with
  | false => rfl
  | true =>
    rw [hb] at h
    cases h

/-- A valid id selects at most one job. -/
theorem jobById_injective {v : Option Json} {p : Job → Bool} (hv : badId v = false)
    (hp : jobById v = .ok p) {j j' : Job} (hj : p j = true) (hj' : p j' = true) :
    j.id = j'.id := by
  have hvalid : ObjectId.isValid v = true := by
    simp only [badId, Bool.or_eq_false_iff, Bool.not_eq_false'] at hv
    exact hv.2
  obtain ⟨q, hq, rfl⟩ := map_eq_ok hp
  obtain ⟨-, a, -, -, rfl⟩ := castForQuery_of_isValid hvalid hq
  have hja : some j.id = a := by simpa using hj
  have hja' : some j'.id = a := by simpa using hj'
  exact Option.some.inj (hja.trans hja'.symm)

/-- What a request writes is planned for the job that it writes to. `assignJobToWorker` can read
another job, but it does not look at it. -/
theorem change_written {r : JobRequest} {s : Db} {w : JobWrite} {j : Job}
    (hw : r.write s = some w) (hj : s.jobs.findOne w.sel = some j) : JobChange r j w.data := by
  obtain ⟨hchecks, p, j', hp, hj', hplan, hsel⟩ := write_eq_some hw
  obtain ⟨sel, d⟩ := w
  simp only at hj hplan hsel ⊢
  have hm := Collection.mem_of_findOne hj
  have hm' := Collection.mem_of_findOne hj'
  have hpj : p j = true := by
    have h2 := hm.2
    rw [hsel, Bool.and_eq_true] at h2
    exact h2.1
  have hread : j' = j → JobChange r j d := by
    rintro rfl
    exact plan_change hplan
  cases hc : r.handler.checksId with
  | true =>
    have hid := jobById_injective (badId_of_checks hc hchecks) hp hm'.2 hpj
    exact hread (List.inj_on_of_nodup_map s.jobs.nodup hm'.1 hm.1 hid)
  | false =>
    cases plan_change hplan with
    | assignJobToWorker hr hworker => exact .assignJobToWorker hr hworker
    | proceedToPay hr | paymentSuccess hr =>
      -- The filter lets all jobs through, so that the same job is found again.
      have hsame : sel = p := by
        rw [hsel]
        funext x
        simp only [JobRequest.filter, hr, Bool.and_true]
      rw [hsame, hj', Option.some.injEq] at hj
      exact hread hj
    | reject hr =>
      rcases hr with hr | hr <;> rw [hr] at hc <;> cases hc
    | jobAccept hr | jobStart hr | jobFinish hr | paymentUpdate hr | userJobReschedule hr
    | submitFeedback hr | replyFeedback hr =>
      rw [hr] at hc
      cases hc

/-- The jobs after a request, one by one. -/
theorem get?_serve (s : Db) (r : JobRequest) (h : r.handler ≠ .assignJob) (id : ObjectId) :
    (serve s r).jobs.get? id =
      match r.write s with
      | none => s.jobs.get? id
      | some w =>
        if (s.jobs.findOne w.sel).map Job.id = some id then
          (s.jobs.get? id).map (w.data.apply r.env.now)
        else s.jobs.get? id := by
  rw [serve_jobs s r h]
  cases r.write s with
  | none => rfl
  | some w => exact Collection.get?_updateOne _ _ _ (w.data.apply_id r.env.now) id

/-- `assignJob` leaves every existing job as it is. -/
theorem get?_serve_assignJob {s : Db} {r : JobRequest} (h : r.handler = .assignJob)
    {id : ObjectId} {j : Job} (hj : s.jobs.get? id = some j) :
    (serve s r).jobs.get? id = some j := by
  rcases serve_assignJob_jobs s r h with ⟨-, new, -, hins⟩ | hsame
  · rw [Collection.get?_insert hins, if_neg]
    · exact hj
    · intro hid
      have hmem := (s.jobs.get?_eq_some_iff id j).mp hj
      apply (Collection.insert_eq_some hins).1
      rw [hid, ← hmem.2]
      exact List.mem_map_of_mem hmem.1
  · rw [hsame]
    exact hj

/-- A write changes the one job that it finds. -/
theorem get?_serve_written {s : Db} {r : JobRequest} {w : JobWrite} {j : Job}
    (hr : r.handler ≠ .assignJob) (hw : r.write s = some w)
    (hj : s.jobs.findOne w.sel = some j) :
    (serve s r).jobs.get? j.id = some (w.data.apply r.env.now j) := by
  rw [get?_serve s r hr, hw]
  simp only [hj, Option.map_some, if_true, Collection.get?_of_findOne hj]

/-- A job that the request does not write to stays as it is. -/
theorem get?_serve_of_not_written {s : Db} {r : JobRequest} {id : ObjectId} {j : Job}
    (hj : s.jobs.get? id = some j) (hn : r.written s ≠ some j) :
    (serve s r).jobs.get? id = some j := by
  by_cases hr : r.handler = .assignJob
  · exact get?_serve_assignJob hr hj
  · rw [get?_serve s r hr]
    cases hw : r.write s with
    | none => exact hj
    | some w =>
      simp only
      rw [if_neg]
      · exact hj
      · intro hid
        obtain ⟨j', hj', hid'⟩ := Option.map_eq_some_iff.mp hid
        have hget := Collection.get?_of_findOne hj'
        rw [hid', hj, Option.some.injEq] at hget
        exact hn (by simp only [JobRequest.written, hw, Option.bind_some, hj', hget])

/-- `assignJob` writes to no existing job. -/
theorem written_assignJob {s : Db} {r : JobRequest} {j : Job} (h : r.written s = some j) :
    r.handler ≠ .assignJob := by
  intro hr
  obtain ⟨w, hw, -⟩ := Option.bind_eq_some_iff.mp h
  unfold JobRequest.write JobRequest.lookups at hw
  simp [hr] at hw

/-- Where a job after a request comes from: the request wrote to it, or left it as it was, or
created it. -/
theorem get?_serve_cases {s : Db} {r : JobRequest} {id : ObjectId} {j' : Job}
    (h : (serve s r).jobs.get? id = some j') :
    (∃ w j, r.write s = some w ∧ s.jobs.findOne w.sel = some j ∧ j.id = id ∧
        j' = w.data.apply r.env.now j) ∨
      (s.jobs.get? id = some j' ∧ ∀ j, r.written s = some j → j.id ≠ id) ∨
      ∃ k : Booking, k.Creates s r j' ∧ s.jobs.get? id = none := by
  by_cases hr : r.handler = .assignJob
  · have hnone : ∀ j, r.written s = some j → j.id ≠ id := fun j hj =>
      absurd hr (written_assignJob hj)
    rcases serve_assignJob_jobs s r hr with ⟨k, new, hk, hins⟩ | hsame
    · rw [Collection.get?_insert hins] at h
      split at h
      · rename_i hid
        cases h
        exact Or.inr (Or.inr ⟨k, hk, hid ▸ Collection.get?_of_insert hins⟩)
      · exact Or.inr (Or.inl ⟨h, hnone⟩)
    · rw [hsame] at h
      exact Or.inr (Or.inl ⟨h, hnone⟩)
  · rw [get?_serve s r hr] at h
    cases hw : r.write s with
    | none =>
      rw [hw] at h
      exact Or.inr (Or.inl ⟨h, by simp [JobRequest.written, hw]⟩)
    | some w =>
      simp only [hw] at h
      split at h
      · rename_i hid
        obtain ⟨j, hj, hjid⟩ := Option.map_eq_some_iff.mp hid
        rw [← hjid, Collection.get?_of_findOne hj, Option.map_some, Option.some.injEq] at h
        exact Or.inl ⟨w, j, rfl, hj, hjid, h.symm⟩
      · rename_i hid
        refine Or.inr (Or.inl ⟨h, fun j hj hjid => hid ?_⟩)
        obtain ⟨w', hw', hfind⟩ := Option.bind_eq_some_iff.mp hj
        rw [hw, Option.some.injEq] at hw'
        rw [hw', hfind, Option.map_some, hjid]

end Writes

section Laws

def AllJobs (Q : Job → Prop) (s : Db) : Prop := ∀ j ∈ s.jobs.docs, Q j

instance (Q : Job → Prop) [DecidablePred Q] (s : Db) : Decidable (AllJobs Q s) :=
  inferInstanceAs (Decidable (∀ j ∈ s.jobs.docs, Q j))

theorem allJobs_empty (Q : Job → Prop) (s : Db) : AllJobs Q { s with jobs := .empty _ } :=
  fun _ hj => (List.not_mem_nil hj).elim

end Laws

section Closed

/-- A request that takes a closed job up again: the guards of these three handlers let
closed jobs through. -/
def reopens (s : Db) (r : JobRequest) : Bool :=
  r.handler ∈ [JobHandler.jobAccept, .jobStart, .assignJobToWorker] &&
    (r.written s).any (·.jobStatus.closed)

/-- Between any two points of the run, a job that was closed at the first has the same
status at the second. -/
def StaysClosed (s : Db) (rs : List JobRequest) : Prop :=
  ∀ pre mid post, rs = pre ++ mid ++ post → ∀ id j,
    (runFrom serve s pre).jobs.get? id = some j → j.jobStatus.closed = true →
    ∃ j', (runFrom serve s (pre ++ mid)).jobs.get? id = some j' ∧ j'.jobStatus = j.jobStatus

/-- A closed job keeps its status, unless the request takes it up again. -/
theorem serve_keeps_closed_job {s : Db} {r : JobRequest} {id : ObjectId} {j : Job}
    (hj : s.jobs.get? id = some j) (hc : j.jobStatus.closed = true)
    (hr : r.written s = some j →
      r.handler ∉ [JobHandler.jobAccept, .jobStart, .assignJobToWorker]) :
    ∃ j', (serve s r).jobs.get? id = some j' ∧ j'.jobStatus = j.jobStatus := by
  by_cases hw : r.written s = some j
  · have hid : j.id = id := ((s.jobs.get?_eq_some_iff id j).mp hj).2
    have hne := written_assignJob hw
    obtain ⟨w, hwrite, hfind⟩ := Option.bind_eq_some_iff.mp hw
    refine ⟨_, hid ▸ get?_serve_written hne hwrite hfind, ?_⟩
    -- The handlers that write a status, those that reopen apart, go on only from an open one.
    obtain ⟨hadmits, hsets⟩ := (change_written hwrite hfind).follows_machine
    rw [JobSet.apply_jobStatus, hsets]
    have hother := hr hw
    cases hh : r.handler <;> rw [hh] at hother hadmits
    case jobAccept | jobStart | assignJobToWorker => exact absurd (by decide) hother
    case jobReject | userCancelJob | jobFinish =>
      cases hs : j.jobStatus <;> rw [hs] at hadmits hc <;>
        first | exact absurd hc (by decide) | exact absurd hadmits (by decide)
    all_goals rfl
  · exact ⟨j, get?_serve_of_not_written hj hw, rfl⟩

/-- One request keeps a closed job closed, unless it reopens one. -/
theorem serve_keeps_closed {s : Db} {r : JobRequest} (hr : reopens s r = false)
    {id : ObjectId} {j : Job} (hj : s.jobs.get? id = some j) (hc : j.jobStatus.closed = true) :
    ∃ j', (serve s r).jobs.get? id = some j' ∧ j'.jobStatus = j.jobStatus := by
  refine serve_keeps_closed_job hj hc fun hw => ?_
  simpa only [reopens, hw, Option.any_some, hc, Bool.and_true, decide_eq_false_iff_not] using hr

/-- A request that reopens gives a closed job another status. -/
theorem serve_reopens {s : Db} {r : JobRequest} (hr : reopens s r = true) :
    ∃ j j', j.jobStatus.closed = true ∧ s.jobs.get? j.id = some j ∧
      (serve s r).jobs.get? j.id = some j' ∧ j'.jobStatus ≠ j.jobStatus := by
  simp only [reopens, Bool.and_eq_true, decide_eq_true_eq, Option.any_eq_true] at hr
  obtain ⟨hh, j, hw, hc⟩ := hr
  obtain ⟨w, hwrite, hfind⟩ := Option.bind_eq_some_iff.mp hw
  refine ⟨j, _, hc, Collection.get?_of_findOne hfind,
    get?_serve_written (written_assignJob hw) hwrite hfind, ?_⟩
  rw [JobSet.apply_jobStatus, (change_written hwrite hfind).follows_machine.2]
  intro he
  rw [← he] at hc
  simp only [List.mem_cons, List.not_mem_nil, or_false] at hh
  rcases hh with hh | hh | hh <;> rw [hh] at hc <;> cases hc

/-- Closed jobs stay closed over a run exactly when no request of the run reopens one. -/
theorem staysClosed_iff (s : Db) (rs : List JobRequest) :
    StaysClosed s rs ↔ Along serve (fun t r => reopens t r = false) s rs := by
  constructor
  · intro h
    rw [along_iff_split]
    intro pre r post hrs
    by_contra hr
    obtain ⟨j, j', hc, hj, hj', hne⟩ := serve_reopens (Bool.eq_true_of_not_eq_false hr)
    obtain ⟨j'', hj'', hsame⟩ := h pre [r] post (by simpa using hrs) j.id j hj hc
    rw [runFrom_append, runFrom_cons, runFrom_nil, hj', Option.some.injEq] at hj''
    exact hne (hj'' ▸ hsame)
  · intro h pre mid post hrs id j hj hc
    rw [hrs, along_append, along_append] at h
    have hmid := h.1.2
    rw [runFrom_append]
    -- Along the middle part the job keeps the status it had at its start.
    apply invariant_runFrom (I := fun t => ∃ j', t.jobs.get? id = some j' ∧
      j'.jobStatus = j.jobStatus) _ ⟨j, hj, rfl⟩ hmid
    rintro t r ⟨j', hj', hs⟩ hr
    obtain ⟨j'', hj'', hs'⟩ := serve_keeps_closed hr hj' (hs ▸ hc)
    exact ⟨j'', hj'', hs'.trans hs⟩

end Closed

section Sample

def idOf (s : String) : ObjectId := (ObjectId.ofString s).getD ⟨0⟩

def sampleUser : User where
  id := idOf "customer--01"
  usersId := some 7
  fullName := "Ada"
  email := "ada@example"
  phone := some (.fin 800)
  country := "NG"
  state := "Lagos"
  city := "Ikeja"
  address1 := none
  address2 := none
  landMark := "Mall"
  postalCode := "100"
  addressData := [idOf "address---01"]
  token := none
  profilePic := none
  document := none
  documentNo := none
  documentType := none
  isVerified := none
  creationDate := none
  defaultAddress := none
  status := "A"
  latitude := none
  longitude := none
  deviceId := none
  platform := none
  createdAt := 0
  updatedAt := 0

def sampleProvider (id userType : String) (companyData : Option ObjectId) : Provider where
  id := idOf id
  seqId := 9
  fullName := "Fix It"
  email := "fix@example"
  phone := some (.fin 900)
  country := "NG"
  state := "Lagos"
  city := "Ikeja"
  landMark := "Mall"
  postalCode := "100"
  userType := userType
  companyData := companyData
  address1 := none
  address2 := none
  profilePic := none
  updateDate := none
  status := "A"
  token := none
  latitude := none
  longitude := none
  deviceId := none
  platform := none
  workers := []
  createdAt := 0
  updatedAt := 0

def sampleAddress : Address where
  id := idOf "address---01"
  userId := some (idOf "customer--01")
  userSeqId := some 7
  country := "NG"
  state := "Lagos"
  city := "Ikeja"
  address1 := none
  address2 := none
  landMark := "Mall"
  postalCode := "100"
  latitude := none
  longitude := none

def sampleOffer : ProviderSubService where
  id := idOf "offer-----01"
  seqId := 1
  company := some (idOf "company---01")
  worker := none
  individual := none
  userType := some companyType
  serviceData := some (idOf "service---01")
  subServices := some (idOf "subservice01")
  price := some (.fin 100)
  category := none
  creationDate := none
  status := "A"
  createdAt := 0
  updatedAt := 0

def sampleDb : Db :=
  { Db.empty with
    users := ⟨[sampleUser], List.nodup_singleton _⟩
    providers := ⟨[sampleProvider "company---01" companyType none,
      sampleProvider "worker----01" workerType (some (idOf "company---01"))], by decide +kernel⟩
    addresses := ⟨[sampleAddress], List.nodup_singleton _⟩
    services := ⟨[⟨idOf "service---01", "Plumbing", none, none⟩], List.nodup_singleton _⟩
    subServices := ⟨[⟨idOf "subservice01", "Plumbing", "Leak", none, some (.fin 10), none⟩],
      List.nodup_singleton _⟩
    providerSubServices := ⟨[sampleOffer], List.nodup_singleton _⟩ }

def sampleEnv (now : ℤ) : Env := ⟨now, idOf "job-------01", fun _ _ => none⟩

def customer : Caller := ⟨idOf "customer--01", "USER"⟩

def company : Caller := ⟨idOf "company---01", "PROVIDER"⟩

def stranger : Caller := ⟨idOf "stranger--01", "USER"⟩

def sampleBooking : JobRequest where
  handler := .assignJob
  caller := customer
  body :=
    { serviceLocation := some (.str "address---01")
      serviceDate := some (.str "2024-01-02")
      serviceTime := some (.str "10:00")
      serviceType := some (.str "offer-----01")
      jobDesc := some (.str "leaking tap")
      providerId := some (.str "company---01")
      platform := some (.str "Android")
      ipAddress := some (.str "10.0.0.1") }
  files := some {}
  env := sampleEnv 1

def onSampleJob (handler : JobHandler) (caller : Caller) (now : ℤ) : JobRequest where
  handler := handler
  caller := caller
  body :=
    { jobId := some (.str "job-------01")
      jobID := some (.str "job-------01")
      workerID := some (.str "worker----01")
      code := some (.str "123456")
      rejectReason := some (.str "no time")
      updateIp := some (.str "10.0.0.1")
      paymentType := some (.str "Postpaid")
      paymentMode := some (.str "Cash")
      paymentStatus := some (.str "Fail")
      finalPaidAmount := some (.num 100 0)
      txnNo := some (.str "txn")
      star := some (.num 5 0)
      message := some (.str "ok")
      locationID := some (.str "address---01")
      serviceDate := some (.str "2024-01-03")
      serviceTime := some (.str "11:00") }
  files := some ⟨none, some "a.png", some "b.png"⟩
  env := sampleEnv now

/-- The booked job is rejected by its company, which then accepts it: the rejected job is
open again. -/
theorem rejected_job_reopened :
    ¬ StaysClosed sampleDb
      [sampleBooking, onSampleJob .jobReject company 2, onSampleJob .jobAccept company 3] := by
  intro h
  have hbefore : ((runFrom serve sampleDb
      [sampleBooking, onSampleJob .jobReject company 2]).jobs.get? (idOf "job-------01")).map
        Job.jobStatus = some .reject := by decide +kernel
  have hafter : ((runFrom serve sampleDb
      [sampleBooking, onSampleJob .jobReject company 2,
        onSampleJob .jobAccept company 3]).jobs.get? (idOf "job-------01")).map
        Job.jobStatus = some .accept := by decide +kernel
  obtain ⟨j, hj, hs⟩ := Option.map_eq_some_iff.mp hbefore
  obtain ⟨j', hj', hs'⟩ := h [sampleBooking, onSampleJob .jobReject company 2]
    [onSampleJob .jobAccept company 3] [] rfl _ j hj (by rw [hs]; rfl)
  change (runFrom serve sampleDb [sampleBooking, onSampleJob .jobReject company 2,
    onSampleJob .jobAccept company 3]).jobs.get? _ = some j' at hj'
  rw [hj', Option.map_some, Option.some.injEq, hs', hs] at hafter
  cases hafter

end Sample

end DoQwik
