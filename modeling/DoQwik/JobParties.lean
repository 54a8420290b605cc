import DoQwik.JobLifecycle

/-! Who may change which job. Five handlers put the caller into the filter of the update; the
other seven updating handlers let any authenticated account through. Three handlers put the
id into the query as the request has it, so that it need not name a job. -/
namespace DoQwik
open JsValues DocStore Interleave

/-- The customer, the provider or the assigned worker of a job. -/
def isParty (c : Caller) (j : Job) : Bool :=
  j.userId = c.userId || j.providerData = c.userId || j.workerData = some c.userId

def Plan.proceeds : Except Thrown Plan → Bool
  | .ok (.update _) => true
  | _ => false

/-- The handlers whose update filter names the job alone. -/
def JobHandler.unfiltered : JobHandler → Bool
  | .proceedToPay => true
  | .paymentSuccess => true
  | .jobAccept => true
  | .jobStart => true
  | .jobReject => true
  | .jobFinish => true
  | .paymentUpdate => true
  | _ => false

/-- The request of an account that is no party reaches the update of a job. -/
def outsiderWrite (s : Db) (r : JobRequest) : Bool :=
  r.handler.unfiltered && (r.written s).any fun j => !isParty r.caller j

/-- Whatever the clock shows when the request is served, a job that it changes is a job of
the caller. -/
def OnlyPartiesChange (s : Db) (r : JobRequest) : Prop :=
  ∀ env id j, s.jobs.get? id = some j →
    (serve s { r with env := env }).jobs.get? id ≠ some j → isParty r.caller j = true

section Clock

theorem proceeds_bind_congr {β : Type} {x : Except Thrown β} {f g : β → Except Thrown Plan}
    (h : ∀ a, Plan.proceeds (f a) = Plan.proceeds (g a)) :
    Plan.proceeds (x >>= f) = Plan.proceeds (x >>= g) := by
  cases x with
  | error e => rfl
  | ok a => exact h a

/-- Whether an update is made does not depend on the clock. -/
theorem plan_proceeds_env (r : JobRequest) (env : Env) (j : Job) :
    Plan.proceeds (({ r with env := env } : JobRequest).plan j) = Plan.proceeds (r.plan j) := by
  obtain ⟨handler, c, b, files, env'⟩ := r
  cases handler with
  | assignJob | proceedToPay | paymentSuccess | jobAccept => rfl
  | assignJobToWorker =>
    exact proceeds_bind_congr fun _ => proceeds_bind_congr fun _ => rfl
  | jobStart =>
    simp only [JobRequest.plan, jobStartParam]
    split
    · rfl
    · apply proceeds_bind_congr
      intro code
      split
      · exact proceeds_bind_congr fun _ => rfl
      · rfl
  | jobReject | userCancelJob =>
    simp only [JobRequest.plan, jobRejectParam]
    cases j.jobStatus with
    | complete | start | reject => rfl
    | _ => exact proceeds_bind_congr fun _ => rfl
  | jobFinish =>
    simp only [JobRequest.plan, jobFinishParam]
    cases j.jobStatus with
    | start => exact proceeds_bind_congr fun _ => rfl
    | _ => rfl
  | paymentUpdate =>
    simp only [JobRequest.plan, paymentUpdateParam]
    cases j.jobStatus with
    | start =>
      iterate 6 refine proceeds_bind_congr fun _ => ?_
      rfl
    | _ => rfl
  | userJobReschedule =>
    simp only [JobRequest.plan, userJobRescheduleParam]
    cases j.jobStatus with
    | complete | start | reject => rfl
    | _ =>
      iterate 3 refine proceeds_bind_congr fun _ => ?_
      rfl
  | submitFeedback =>
    simp only [JobRequest.plan, submitFeedbackParam]
    split
    · exact proceeds_bind_congr fun _ => proceeds_bind_congr fun _ => rfl
    · rfl
  | replyFeedback =>
    simp only [JobRequest.plan, replyFeedbackParam]
    split
    · exact proceeds_bind_congr fun _ => rfl
    · rfl

/-- The selector of a planned write, if the plan goes on. -/
theorem planned_map_sel (s : Db) (id : Option Json) (filter : Job → Bool)
    (plan : Job → Except Thrown Plan) :
    (planned s id filter plan).map JobWrite.sel =
      (jobById id).toOption.bind fun p =>
        (s.jobs.findOne p).bind fun j =>
          bif Plan.proceeds (plan j) then some fun j => p j && filter j else none := by
  unfold planned
  cases jobById id with
  | error e => rfl
  | ok p =>
    simp only [Except.toOption, Option.bind_some]
    cases s.jobs.findOne p with
    | none => rfl
    | some j =>
      simp only [Option.map_some, Option.bind_some]
      cases plan j with
      | error e => rfl
      | ok decision =>
        cases decision with
        | refuse key => rfl
        | update d => rfl

/-- The job that a request changes does not depend on the clock. -/
theorem written_env (r : JobRequest) (env : Env) (s : Db) :
    ({ r with env := env } : JobRequest).written s = r.written s := by
  have hbind : ∀ r : JobRequest, r.written s =
      ((r.write s).map JobWrite.sel).bind fun sel => s.jobs.findOne sel := by
    intro r
    unfold JobRequest.written
    cases r.write s with
    | none => rfl
    | some w => rfl
  rw [hbind, hbind]
  congr 1
  unfold JobRequest.write
  change (if (refusal r.checks).isNone && r.lookups s then
    planned s r.target r.filter _ else none).map _ = _
  split
  · rw [planned_map_sel, planned_map_sel]
    simp only [plan_proceeds_env]
  · rfl

theorem get?_of_written {r : JobRequest} {s : Db} {j : Job} (h : r.written s = some j) :
    s.jobs.get? j.id = some j := by
  obtain ⟨w, -, hfind⟩ := Option.bind_eq_some_iff.mp h
  exact Collection.get?_of_findOne hfind

/-- A job that a request changes, at any time, is the one that it writes to. -/
theorem written_of_changed {r : JobRequest} {env : Env} {s : Db} {id : ObjectId} {j : Job}
    (hj : s.jobs.get? id = some j)
    (hchange : (serve s { r with env := env }).jobs.get? id ≠ some j) : r.written s = some j := by
  rw [← written_env r env]
  by_contra hn
  exact hchange (get?_serve_of_not_written hj hn)

/-- Served at another time than the last update, a request changes at least the `updatedAt` of
the job that it writes to. -/
theorem get?_serve_later (r : JobRequest) {s : Db} {j : Job} (h : r.written s = some j) :
    (serve s { r with env := { r.env with now := j.updatedAt+1 } }).jobs.get? j.id ≠ some j := by
  have h' : ({ r with env := { r.env with now := j.updatedAt+1 } } : JobRequest).written s =
      some j := by
    rw [written_env, h]
  obtain ⟨w, hw, hfind⟩ := Option.bind_eq_some_iff.mp h'
  rw [get?_serve_written (written_assignJob h') hw hfind]
  intro he
  have hu := congrArg Job.updatedAt (Option.some.inj he)
  simp only [JobSet.apply_updatedAt] at hu
  omega

end Clock

section Parties

/-- The filters of the five other handlers let only parties through. -/
theorem isParty_of_filter {r : JobRequest} {s : Db} {j : Job} (hf : r.handler.unfiltered = false)
    (h : r.written s = some j) : isParty r.caller j = true := by
  have hne := written_assignJob h
  obtain ⟨w, hw, hj⟩ := Option.bind_eq_some_iff.mp h
  obtain ⟨-, p, -, -, -, -, hsel⟩ := write_eq_some hw
  have hfilter : r.filter j = true := by
    have h2 := (Collection.mem_of_findOne hj).2
    rw [hsel, Bool.and_eq_true] at h2
    exact h2.2
  obtain ⟨handler, c, b, files, env⟩ := r
  cases handler with
  | assignJob => exact absurd rfl hne
  | assignJobToWorker | userCancelJob | userJobReschedule | submitFeedback | replyFeedback =>
    simp only [JobRequest.filter, Bool.and_eq_true, decide_eq_true_eq] at hfilter
    simp [isParty, hfilter]
  | _ => cases hf

/-- Only parties change a job exactly when no account that is no party gets through to the
update of one of the seven unfiltered handlers. -/
theorem onlyPartiesChange_iff (s : Db) (r : JobRequest) :
    OnlyPartiesChange s r ↔ outsiderWrite s r = false := by
  constructor
  · intro h
    by_contra hout
    have hout' := Bool.eq_true_of_not_eq_false hout
    simp only [outsiderWrite, Bool.and_eq_true, Option.any_eq_true, Bool.not_eq_true'] at hout'
    obtain ⟨-, j, hj, hparty⟩ := hout'
    have hp := h _ j.id j (get?_of_written hj) (get?_serve_later r hj)
    rw [hp] at hparty
    cases hparty
  · intro h env id j hj hchange
    have hw : r.written s = some j := written_of_changed hj hchange
    cases hu : r.handler.unfiltered with
    | false => exact isParty_of_filter hu hw
    | true => simpa [outsiderWrite, hu, hw] using h

/-- An account that has nothing to do with the booked job rejects it. -/
theorem stranger_rejects_job :
    ¬ OnlyPartiesChange (runFrom serve sampleDb [sampleBooking])
      (onSampleJob .jobReject stranger 2) := by
  intro h
  have hafter : ((serve (runFrom serve sampleDb [sampleBooking])
      (onSampleJob .jobReject stranger 2)).jobs.get? (idOf "job-------01")).map
        Job.jobStatus = some .reject := by decide +kernel
  have hbefore : ((runFrom serve sampleDb [sampleBooking]).jobs.get? (idOf "job-------01")).map
      (fun j => (j.jobStatus, isParty stranger j)) = some (.processing, false) := by
    decide +kernel
  obtain ⟨j, hj, hs⟩ := Option.map_eq_some_iff.mp hbefore
  have hp := h (sampleEnv 2) _ j hj (by
    intro he
    change (serve _ (onSampleJob .jobReject stranger 2)).jobs.get? _ = some j at he
    rw [he, Option.map_some, (Prod.mk.inj hs).1] at hafter
    cases hafter)
  exact Bool.false_ne_true ((Prod.mk.inj hs).2.symm.trans hp)

end Parties

section Named

def JobRequest.named (r : JobRequest) : Option ObjectId :=
  match r.target with
  | some (.str v) => ObjectId.ofString v
  | _ => none

/-- Whatever the clock shows, a job that the request changes is the one that it names. -/
def TouchesOnlyNamed (s : Db) (r : JobRequest) : Prop :=
  ∀ env id j, s.jobs.get? id = some j →
    (serve s { r with env := env }).jobs.get? id ≠ some j → r.named = some id

/-- The job id is no string, and the request still gets through to the update of a job. -/
def strayWrite (s : Db) (r : JobRequest) : Bool :=
  (match r.target with
  | some (.str _) => false
  | _ => true) && (r.written s).isSome

/-- A string selects the job that it is the id of. -/
theorem jobById_string {v : String} {p : Job → Bool} (hp : jobById (some (.str v)) = .ok p) {j : Job}
    (hj : p j = true) : ObjectId.ofString v = some j.id := by
  obtain ⟨q, hq, rfl⟩ := map_eq_ok hp
  obtain ⟨i, hi, rfl⟩ := castForQuery_idString hq
  have hid : j.id = i := by simpa using hj
  rw [hi, hid]

def strayPayment : JobRequest where
  handler := .paymentSuccess
  caller := stranger
  body := { txnNo := some (.str "txn"), jobID := some (.obj [("$ne", .null)]) }
  env := sampleEnv 2

end Named

end DoQwik
