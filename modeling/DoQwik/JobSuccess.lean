import DoQwik.JobFeedback
import DoQwik.JobParties

/-! What `SUCCESS` says about a change. Five handlers look the job up by its id alone and then
update it through a filter that also names the caller, and `paymentSuccess` does not look it up
at all; an update that found no job is answered with `SUCCESS` like any other. -/
namespace DoQwik
open JsValues DocStore Interleave

/-- The handlers that answer with whatever the update returned. -/
def JobHandler.answersAnyway : JobHandler → Bool
  | .assignJobToWorker => true
  | .userCancelJob => true
  | .userJobReschedule => true
  | .paymentSuccess => true
  | .submitFeedback => true
  | .replyFeedback => true
  | _ => false

namespace JobRequest

def castId (r : JobRequest) : Option ObjectId :=
  r.target.bind fun v => (castObjectId v).toOption.join

/-- The job holds what the request asks for. -/
def Asked (r : JobRequest) (j : Job) : Prop :=
  match r.handler with
  | .assignJobToWorker =>
    j.jobStatus = .assign ∧ castSet castObjectId r.body.workerID = .ok (some j.workerData)
  | .userCancelJob =>
    j.jobStatus = .reject ∧ castSet castString r.body.rejectReason = .ok (some j.jobRejectReason)
  | .userJobReschedule =>
    castSet castObjectId r.body.locationID = .ok (some j.serviceLocation) ∧
      castSet castTrimmed r.body.serviceDate = .ok (some j.serviceDate) ∧
      castSet castTrimmed r.body.serviceTime = .ok (some j.serviceTime)
  | .paymentSuccess => j.paymentStatus = some paymentSuccessful
  | .submitFeedback => j.userFeedback.rating = r.rating
  | .replyFeedback => j.userFeedback.reply = r.replyText
  | _ => True

/-- The request gets through to its update; `paymentSuccess` reads no job before. -/
def updates (r : JobRequest) (s : Db) : Bool :=
  match r.handler with
  | .paymentSuccess => (refusal r.checks).isNone && (jobById r.target).toOption.isSome
  | _ => (r.write s).isSome

end JobRequest

/-- A request that is answered with `SUCCESS` leaves the job that it names as it asks. -/
def SuccessMeansDone (s : Db) (r : JobRequest) : Prop :=
  (answer s r).key = .success →
    ∃ id j, r.castId = some id ∧ (serve s r).jobs.get? id = some j ∧ r.Asked j

/-- The request gets through to its update, the update misses the job that the request names,
and the job is not as asked anyway. -/
def MissesItsJob (s : Db) (r : JobRequest) : Prop :=
  r.updates s = true ∧
    ¬ ∃ j, r.castId = some j.id ∧ s.jobs.get? j.id = some j ∧ (r.written s = some j ∨ r.Asked j)

section Answers

def Succeeds (y : Except Thrown JobResponse) : Prop := ∃ a, y = .ok a ∧ a.key = .success

theorem succeeds_reply_iff (key : MessageKey) (x : Option JobResult) :
    Succeeds (.ok { key := key, result := x }) ↔ key = .success := by
  constructor
  · rintro ⟨a, ha, hkey⟩
    cases ha
    exact hkey
  · exact fun h => ⟨_, rfl, h⟩

theorem not_succeeds_error (e : Thrown) : ¬ Succeeds (.error e) := by
  rintro ⟨a, ha, -⟩
  cases ha

/-- An exception is not answered with `SUCCESS`. -/
theorem answer_success_iff (s : Db) (r : JobRequest) :
    (answer s r).key = .success ↔ Succeeds (r.handle.run exec s).2 := by
  unfold answer JobRequest.program
  rw [Prog.run_catchAll]
  cases hrun : (r.handle.run exec s).2 with
  | ok a => exact ⟨fun h => ⟨a, rfl, h⟩, fun ⟨b, hb, hkey⟩ => by cases hb; exact hkey⟩
  | error e => exact iff_of_false (by simp [serverError]) (not_succeeds_error e)

end Answers

section Keys

/-- No check refuses with `SUCCESS`. -/
theorem refusal_ne_success {r : JobRequest} {key : MessageKey} (h : refusal r.checks = some key) :
    key ≠ .success := by
  have hkeys : .success ∉ r.checks.map Prod.snd := by
    obtain ⟨handler, c, b, files, env⟩ := r
    cases handler <;> simp [JobRequest.checks, proceedToPayChecks, paymentSuccessChecks,
      assignJobToWorkerChecks, jobIdChecks, jobRejectChecks, jobFinishChecks,
      userJobRescheduleChecks, submitFeedbackChecks]
  rintro rfl
  exact hkeys (mem_of_refusal h)

/-- No plan refuses the job with `SUCCESS`. -/
theorem plan_refuse_ne_success {r : JobRequest} {j : Job} {key : MessageKey}
    (hr : r.handler.answersAnyway = true) (h : r.plan j = .ok (.refuse key)) : key ≠ .success := by
  obtain ⟨handler, c, b, files, env⟩ := r
  cases handler with
  | assignJobToWorker =>
    obtain ⟨_, -, h⟩ := bind_eq_ok h
    obtain ⟨_, -, h⟩ := bind_eq_ok h
    cases h
  | paymentSuccess => cases h
  | userCancelJob =>
    simp only [JobRequest.plan, jobRejectParam] at h
    cases hs : j.jobStatus <;> rw [hs] at h
    case complete | start | reject =>
      cases h
      decide
    all_goals
      obtain ⟨_, -, h⟩ := bind_eq_ok h
      cases h
  | userJobReschedule =>
    simp only [JobRequest.plan, userJobRescheduleParam] at h
    cases hs : j.jobStatus <;> rw [hs] at h
    case complete | start | reject =>
      cases h
      decide
    all_goals
      iterate 3 obtain ⟨_, -, h⟩ := bind_eq_ok h
      cases h
  | submitFeedback =>
    simp only [JobRequest.plan, submitFeedbackParam] at h
    split at h
    · iterate 2 obtain ⟨_, -, h⟩ := bind_eq_ok h
      cases h
    · cases h
      decide
  | replyFeedback =>
    simp only [JobRequest.plan, replyFeedbackParam] at h
    split at h
    · obtain ⟨_, -, h⟩ := bind_eq_ok h
      cases h
    · cases h
      decide
  | _ => cases hr

theorem not_succeeds_refused {r : JobRequest} : ¬ Succeeds r.refused := by
  unfold JobRequest.refused
  cases hc : refusal r.checks with
  | some key => exact mt (succeeds_reply_iff key none).mp (refusal_ne_success hc)
  | none =>
    have hmap : ∀ {β : Type} (x : Except Thrown β) {key : MessageKey}, key ≠ .success →
        ¬ Succeeds (x.map fun _ => { key := key }) := by
      intro β x key hkey
      cases x with
      | error e => exact not_succeeds_error e
      | ok a => exact mt (succeeds_reply_iff key none).mp hkey
    dsimp only
    split
    · exact hmap _ (by decide)
    · exact hmap _ (by decide)
    · split
      · exact not_succeeds_error _
      · exact mt (succeeds_reply_iff _ none).mp (by decide)
    · exact not_succeeds_error _

/-- These handlers end with `SUCCESS`, whatever the update returned. -/
theorem succeeds_finish {r : JobRequest} (hr : r.handler.answersAnyway = true) (x : Option Job)
    (s : Db) : Succeeds ((r.finish x).run exec s).2 := by
  unfold JobRequest.finish
  cases hh : r.handler with
  | assignJobToWorker | userCancelJob | userJobReschedule | paymentSuccess =>
    exact ⟨_, rfl, rfl⟩
  | submitFeedback | replyFeedback =>
    cases x with
    | none => exact ⟨_, rfl, rfl⟩
    | some j => exact ⟨_, rfl, rfl⟩
  | _ =>
    rw [hh] at hr
    cases hr

end Keys

section Outcome

/-- The shared part of the handlers succeeds exactly when it comes to its update. -/
theorem succeeds_changeJob_iff {r : JobRequest} (hr : r.handler.answersAnyway = true) (s : Db) :
    Succeeds ((changeJob r.env r.target r.filter r.plan r.finish).run exec s).2 ↔
      (planned s r.target r.filter r.plan).isSome = true := by
  rcases run_changeJob r.env r.target r.filter r.plan r.finish s with
    ⟨hnone, ⟨e, hrun⟩ | ⟨key, hrun, hkey⟩⟩ | ⟨w, j, hw, -, hrun⟩
  · rw [hrun, hnone]
    exact iff_of_false (not_succeeds_error e) (by simp)
  · have hne : key ≠ .success := by
      rcases hkey with rfl | ⟨j, hplan⟩
      · decide
      · exact plan_refuse_ne_success hr hplan
    rw [hrun, hnone]
    exact iff_of_false (mt (succeeds_reply_iff key none).mp hne) (by simp)
  · rw [hrun, hw]
    exact iff_of_true (succeeds_finish hr _ _) rfl

/-- The answer is `SUCCESS` exactly when the request gets through to its update. -/
theorem answer_success_iff_updates {r : JobRequest} (hr : r.handler.answersAnyway = true)
    (s : Db) : (answer s r).key = .success ↔ r.updates s = true := by
  rw [answer_success_iff]
  by_cases hpay : r.handler = .paymentSuccess
  · simp only [JobRequest.updates, JobRequest.handle, JobRequest.checks, JobRequest.target, hpay,
      paymentSuccess, checked]
    cases hc : refusal (paymentSuccessChecks r.body) with
    | some key =>
      have hkey : key ≠ .success := by
        refine refusal_ne_success (r := r) ?_
        simpa only [JobRequest.checks, hpay] using hc
      exact iff_of_false (mt (succeeds_reply_iff key none).mp hkey) (by simp)
    | none =>
      cases jobById r.body.jobID with
      | error e => exact iff_of_false (not_succeeds_error e) (by simp [Except.toOption])
      | ok p => exact iff_of_true ⟨_, rfl, rfl⟩ (by simp [Except.toOption])
  · have hassign : r.handler ≠ .assignJob := by
      intro hh
      rw [hh] at hr
      cases hr
    have hupdates : r.updates s = (r.write s).isSome := by
      unfold JobRequest.updates
      split
      · exact absurd ‹_› hpay
      · rfl
    rw [run_handle s r hassign hpay, hupdates]
    unfold JobRequest.write
    split
    · exact succeeds_changeJob_iff hr s
    · exact iff_of_false not_succeeds_refused (by simp)

end Outcome

section Done

/-- A value that is there sets the field. -/
theorem castSet_of_truthy {α : Type} {cast : Json → Except Thrown (Option α)} {v : Option Json}
    {x : Option (Option α)} (hv : truthy v = true) (h : castSet cast v = .ok x) :
    ∃ a, x = some a := by
  cases v with
  | none => cases hv
  | some v =>
    obtain ⟨a, -, rfl⟩ := map_eq_ok h
    exact ⟨a, rfl⟩

/-- A worker that was found is named by a value. -/
theorem castSet_of_workersOf {s : Db} {v : Option Json} {company : ObjectId}
    {x : Option (Option ObjectId)} (hw : someMatch s.providers (workersOf v company) = true)
    (h : castSet castObjectId v = .ok x) : ∃ a, x = some a := by
  cases v with
  | none => simp [workersOf, castForQuery, Except.map, someMatch, Collection.count,
      Collection.find] at hw
  | some v =>
    obtain ⟨a, -, rfl⟩ := map_eq_ok h
    exact ⟨a, rfl⟩

/-- The update writes what the request asks for, whatever the job was before. -/
theorem asked_of_write {r : JobRequest} {s : Db} {w : JobWrite} (hw : r.write s = some w)
    (j : Job) : r.Asked (w.data.apply r.env.now j) := by
  have hlook : r.lookups s = true := by
    unfold JobRequest.write at hw
    split at hw
    · rename_i hready
      exact (Bool.and_eq_true _ _ ▸ hready).2
    · cases hw
  obtain ⟨hchecks, p, j', -, -, hplan, -⟩ := write_eq_some hw
  obtain ⟨handler, c, b, files, env⟩ := r
  obtain ⟨sel, d⟩ := w
  cases handler with
  | assignJobToWorker =>
    obtain ⟨x, _, hx, rfl⟩ := assignJobToWorkerParam_eq (j := j') hplan
    obtain ⟨a, rfl⟩ := castSet_of_workersOf hlook hx
    exact ⟨rfl, hx⟩
  | userCancelJob =>
    obtain ⟨-, x, hx, rfl⟩ := jobRejectParam_eq hplan
    have hv := check_of_refusal hchecks (x := (!truthy b.rejectReason, .rejectReasonEmpty))
      (by simp [JobRequest.checks, jobRejectChecks])
    obtain ⟨a, rfl⟩ := castSet_of_truthy (by simpa using hv) hx
    exact ⟨rfl, hx⟩
  | userJobReschedule =>
    obtain ⟨-, x, y, z, hx, hy, hz, rfl⟩ := userJobRescheduleParam_eq hplan
    have hlocation := check_of_refusal hchecks
      (x := (!truthy b.locationID, .serviceLocationNotFound))
      (by simp [JobRequest.checks, userJobRescheduleChecks])
    have hdate := check_of_refusal hchecks (x := (!truthy b.serviceDate, .serviceDateEmpty))
      (by simp [JobRequest.checks, userJobRescheduleChecks])
    have htime := check_of_refusal hchecks (x := (!truthy b.serviceTime, .serviceTimeEmpty))
      (by simp [JobRequest.checks, userJobRescheduleChecks])
    obtain ⟨_, rfl⟩ := castSet_of_truthy (by simpa using hlocation) hx
    obtain ⟨_, rfl⟩ := castSet_of_truthy (by simpa using hdate) hy
    obtain ⟨_, rfl⟩ := castSet_of_truthy (by simpa using htime) hz
    exact ⟨hx, hy, hz⟩
  | paymentSuccess =>
    cases hplan
    rfl
  | submitFeedback =>
    obtain ⟨f, hf, hrating, -⟩ := (plan_change hplan).writesFeedback.submit rfl
    dsimp only at hf
    simp only [JobRequest.Asked, JobSet.apply, hf, Option.getD_some, hrating]
  | replyFeedback =>
    obtain ⟨f, hf, hreply, -⟩ := (plan_change hplan).writesFeedback.reply rfl
    dsimp only at hf
    simp only [JobRequest.Asked, JobSet.apply, hf, Option.getD_some, hreply]
  | _ => trivial

/-- The named job after the request: it was written to, or it is as it was. -/
theorem asked_serve_iff {r : JobRequest} {s : Db} (hr : r.handler ≠ .assignJob) (id : ObjectId) :
    (∃ j, (serve s r).jobs.get? id = some j ∧ r.Asked j) ↔
      ∃ j, s.jobs.get? id = some j ∧ (r.written s = some j ∨ r.Asked j) := by
  constructor
  · rintro ⟨j', hj', hasked⟩
    rcases get?_serve_cases hj' with ⟨w, j, hw, hfind, rfl, -⟩ | ⟨hsame, -⟩ | ⟨k, hk, -⟩
    · refine ⟨j, Collection.get?_of_findOne hfind, Or.inl ?_⟩
      rw [JobRequest.written, hw]
      exact hfind
    · exact ⟨j', hsame, Or.inr hasked⟩
    · exact absurd hk.handler hr
  · rintro ⟨j, hj, hcase⟩
    by_cases hw : r.written s = some j
    · obtain ⟨w, hwrite, hfind⟩ := Option.bind_eq_some_iff.mp hw
      have hid : j.id = id := ((s.jobs.get?_eq_some_iff id j).mp hj).2
      rw [← hid]
      exact ⟨_, get?_serve_written hr hwrite hfind, asked_of_write hwrite j⟩
    · exact ⟨j, get?_serve_of_not_written hj hw, hcase.resolve_left hw⟩

/-- `SUCCESS` means done exactly when the request does not get through to an update that misses
the job it names. -/
theorem successMeansDone_iff (s : Db) (r : JobRequest) (hr : r.handler.answersAnyway = true) :
    SuccessMeansDone s r ↔ ¬ MissesItsJob s r := by
  have hassign : r.handler ≠ .assignJob := by
    intro hh
    rw [hh] at hr
    cases hr
  unfold SuccessMeansDone MissesItsJob
  rw [answer_success_iff_updates hr, not_and, not_not]
  refine forall_congr' fun _ => ⟨?_, ?_⟩
  · rintro ⟨id, j, hid, hdone⟩
    obtain ⟨j', hj', hcase⟩ := (asked_serve_iff hassign id).mp ⟨j, hdone⟩
    obtain rfl : j'.id = id := ((s.jobs.get?_eq_some_iff id j').mp hj').2
    exact ⟨j', hid, hj', hcase⟩
  · rintro ⟨j, hid, hj, hcase⟩
    obtain ⟨j', hdone⟩ := (asked_serve_iff hassign j.id).mpr ⟨j, hj, hcase⟩
    exact ⟨j.id, j', hid, hdone⟩

/-- The customer cancels the booked job, and it is cancelled. -/
theorem successMeansDone_customer :
    SuccessMeansDone (runFrom serve sampleDb [sampleBooking])
      (onSampleJob .userCancelJob customer 2) := by
  refine (successMeansDone_iff _ _ rfl).mpr ?_
  rintro ⟨-, hmiss⟩
  have hw : ((onSampleJob .userCancelJob customer 2).written
      (runFrom serve sampleDb [sampleBooking])).map Job.id = some (idOf "job-------01") := by
    decide +kernel
  have hid : (onSampleJob .userCancelJob customer 2).castId = some (idOf "job-------01") := by
    decide +kernel
  obtain ⟨j, hj, hjid⟩ := Option.map_eq_some_iff.mp hw
  exact hmiss ⟨j, by rw [hid, hjid], get?_of_written hj, Or.inl hj⟩

/-- An account that has nothing to do with the booked job cancels it: the answer is `SUCCESS`,
and the job is as before. -/
theorem stranger_cancels_nothing :
    ¬ SuccessMeansDone (runFrom serve sampleDb [sampleBooking])
      (onSampleJob .userCancelJob stranger 2) := by
  intro h
  have hkey : (answer (runFrom serve sampleDb [sampleBooking])
      (onSampleJob .userCancelJob stranger 2)).key = .success := by decide +kernel
  have hid : (onSampleJob .userCancelJob stranger 2).castId = some (idOf "job-------01") := by
    decide +kernel
  have hafter : ((serve (runFrom serve sampleDb [sampleBooking])
      (onSampleJob .userCancelJob stranger 2)).jobs.get? (idOf "job-------01")).map
        Job.jobStatus = some .processing := by decide +kernel
  obtain ⟨id, j, hcast, hj, hasked⟩ := h hkey
  rw [hid, Option.some.injEq] at hcast
  rw [← hcast] at hj
  rw [hj, Option.map_some, Option.some.injEq] at hafter
  have hrejected : j.jobStatus = .reject := hasked.1
  rw [hafter] at hrejected
  cases hrejected

end Done

end DoQwik
