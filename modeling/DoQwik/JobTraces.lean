import DoQwik.WorkerRemovals
import DoQwik.CatalogueUpserts

/-! The lifecycle of a job as a machine of its own, and that the handlers implement it exactly:
what has been done to a job is always a word of the machine, and every word of the machine can be
done to every job whose parties are there. -/
namespace DoQwik
open JsValues DocStore Interleave

section Machine

/-- The machine: a handler goes on where it is admitted, and sets its status. -/
def lifecycle : JobStatus → List JobHandler → Option JobStatus
  | st, [] => some st
  | st, h :: hs =>
    if h ≠ .assignJob ∧ h.admits st = true then lifecycle (h.sets.getD st) hs else none

/-- Whatever has happened to a job, it can be accepted, started and finished: no status is a dead
end. -/
theorem lifecycle_completes (st : JobStatus) :
    lifecycle st [.jobAccept, .jobStart, .jobFinish] = some .complete := by
  cases st <;> rfl

def history (id : ObjectId) : Db → List JobRequest → List JobHandler
  | _, [] => []
  | s, r :: rs =>
    if ((r.written s).map Job.id) = some id then r.handler :: history id (serve s r) rs
    else history id (serve s r) rs

end Machine

section Soundness

variable {s : Db} {r : JobRequest} {id : ObjectId} {j : Job}

/-- A request that writes to the job takes the machine on. -/
theorem step_of_written (hj : s.jobs.get? id = some j)
    (hw : (r.written s).map Job.id = some id) :
    r.handler ≠ .assignJob ∧ r.handler.admits j.jobStatus = true ∧
      ∃ j', (serve s r).jobs.get? id = some j' ∧ j'.jobStatus = r.handler.sets.getD j.jobStatus := by
  obtain ⟨i, hi, hid⟩ := Option.map_eq_some_iff.mp hw
  obtain ⟨w, hwrite, hfind⟩ := Option.bind_eq_some_iff.mp hi
  have hsame : i = j := by
    have hget := Collection.get?_of_findOne hfind
    rw [hid, hj] at hget
    exact (Option.some.inj hget).symm
  subst hsame
  have hne := written_assignJob hi
  obtain ⟨hadmits, hsets⟩ := (change_written hwrite hfind).follows_machine
  refine ⟨hne, hadmits, _, hid ▸ get?_serve_written hne hwrite hfind, ?_⟩
  rw [JobSet.apply_jobStatus, hsets]

/-- What has been done to the job leads the machine to its status. -/
theorem lifecycle_history (hj : s.jobs.get? id = some j) (rs : List JobRequest) :
    ∃ j', (runFrom serve s rs).jobs.get? id = some j' ∧
      lifecycle j.jobStatus (history id s rs) = some j'.jobStatus := by
  induction rs generalizing s j with
  | nil => exact ⟨j, hj, rfl⟩
  | cons r rs ih =>
    rw [runFrom_cons, history]
    by_cases hw : (r.written s).map Job.id = some id
    · obtain ⟨hne, hadmits, j₁, hj₁, hstatus⟩ := step_of_written hj hw
      obtain ⟨j', hj', hrest⟩ := ih hj₁
      rw [if_pos hw, lifecycle, if_pos ⟨hne, hadmits⟩, ← hstatus]
      exact ⟨j', hj', hrest⟩
    · have hkept : (serve s r).jobs.get? id = some j := by
        refine get?_serve_of_not_written hj fun hsame => hw ?_
        rw [hsame, Option.map_some, ((s.jobs.get?_eq_some_iff id j).mp hj).2]
      obtain ⟨j', hj', hrest⟩ := ih hkept
      rw [if_neg hw]
      exact ⟨j', hj', hrest⟩

end Soundness

section Completeness

/-- The texts that the parties of a job have for its id, a worker, an address and the code. -/
structure Particulars where
  job : String
  worker : String
  address : String
  code : String

/-- The parties of the job can go on with it: the company has a worker, the customer an address
and the code, and the amounts are numbers. -/
structure Serviceable (x : Particulars) (s : Db) (j : Job) : Prop where
  job : ObjectId.ofString x.job = some j.id
  company : j.providerUserType = companyType
  worker : someMatch s.providers (workersOf (some (.str x.worker)) j.providerData) = true
  address : someMatch s.addresses (addressOf (some (.str x.address)) j.userId) = true
  code : j.verificationCode.any (·.strictEq (parseInt x.code)) = true
  amount : ∃ q, j.amount = .fin q
  percentage : ∃ q, j.revenuePercentage = some (.fin q)

def JobHandler.ofCustomer : JobHandler → Bool
  | .userCancelJob => true
  | .userJobReschedule => true
  | .submitFeedback => true
  | _ => false

def Particulars.request (x : Particulars) (j : Job) (h : JobHandler) : JobRequest where
  handler := h
  caller := if h.ofCustomer then ⟨j.userId, "USER"⟩ else ⟨j.providerData, "PROVIDER"⟩
  body :=
    { jobId := some (.str x.job)
      jobID := some (.str x.job)
      workerID := some (.str x.worker)
      code := some (.str x.code)
      rejectReason := some (.str "no time")
      updateIp := some (.str "10.0.0.1")
      paymentType := some (.str "Postpaid")
      paymentMode := some (.str "Cash")
      paymentStatus := some (.str "Fail")
      finalPaidAmount := some (.num 100 0)
      txnNo := some (.str "txn")
      star := some (.num 5 0)
      message := some (.str "ok")
      locationID := some (.str x.address)
      serviceDate := some (.str "2024-01-03")
      serviceTime := some (.str "11:00") }
  files := some ⟨none, some "a.png", some "b.png"⟩
  env := ⟨0, j.id, fun _ _ => none⟩

variable {x : Particulars} {s t : Db} {j j' : Job} {h : JobHandler}

/-- A text that selects something is an id. -/
theorem exists_id_of_someMatch {α κ : Type} {key : α → κ} {c : Collection key} {text : String}
    {f : (Option ObjectId → Bool) → α → Bool}
    (h : someMatch c ((castForQuery objectIdType (some (.str text))).map f) = true) :
    ∃ i, ObjectId.ofString text = some i := by
  cases hi : ObjectId.ofString text with
  | some i => exact ⟨i, rfl⟩
  | none =>
    have hcast : castForQuery objectIdType (some (.str text)) = .error .castError := by
      change (castObjectIdString text).map _ = _
      rw [castObjectIdString, hi]
      rfl
    rw [hcast] at h
    cases h

theorem Serviceable.of_same (hx : Serviceable x s j) (hproviders : t.providers = s.providers)
    (haddresses : t.addresses = s.addresses) (hid : j'.id = j.id) (hterms : j'.terms = j.terms) :
    Serviceable x t j' := by
  have huser : j'.userId = j.userId := congrArg JobTerms.userId hterms
  have hprovider : j'.providerData = j.providerData := congrArg JobTerms.providerData hterms
  have htype : j'.providerUserType = j.providerUserType :=
    congrArg JobTerms.providerUserType hterms
  have hcode : j'.verificationCode = j.verificationCode :=
    congrArg JobTerms.verificationCode hterms
  have hamount : j'.amount = j.amount := congrArg JobTerms.amount hterms
  have hpercentage : j'.revenuePercentage = j.revenuePercentage :=
    congrArg JobTerms.revenuePercentage hterms
  constructor
  · rw [hid]
    exact hx.job
  · rw [htype]
    exact hx.company
  · rw [hproviders, hprovider]
    exact hx.worker
  · rw [haddresses, huser]
    exact hx.address
  · rw [hcode]
    exact hx.code
  · rw [hamount]
    exact hx.amount
  · rw [hpercentage]
    exact hx.percentage

/-- The plan of the handler for the job, where the machine admits it. -/
theorem exists_plan (hx : Serviceable x s j) (hne : h ≠ .assignJob)
    (hadmits : h.admits j.jobStatus = true) :
    ∃ d, (x.request j h).plan j = .ok (.update d) := by
  obtain ⟨q, hq⟩ := hx.amount
  obtain ⟨q', hq'⟩ := hx.percentage
  obtain ⟨a, ha⟩ := exists_id_of_someMatch hx.worker
  obtain ⟨a', ha'⟩ := exists_id_of_someMatch hx.address
  cases h with
  | assignJob => exact absurd rfl hne
  | proceedToPay =>
    change ∃ d, proceedToPayParam _ j = .ok (.update d)
    rw [proceedToPayParam, hq]
    exact ⟨_, rfl⟩
  | paymentSuccess => exact ⟨_, rfl⟩
  | assignJobToWorker =>
    change ∃ d, assignJobToWorkerParam _ _ j = .ok (.update d)
    have hcast : castSet castObjectId (some (.str x.worker)) = .ok (some (some a)) := by
      change (castObjectIdString x.worker).map some = _
      rw [castObjectIdString, ha]
      rfl
    rw [assignJobToWorkerParam, show (x.request j .assignJobToWorker).body.workerID =
      some (.str x.worker) from rfl, hcast]
    exact ⟨_, rfl⟩
  | jobAccept => exact ⟨_, rfl⟩
  | jobStart =>
    change ∃ d, jobStartParam _ _ _ j = .ok (.update d)
    have hparsed : parseIntOf (x.request j .jobStart).body.code = .ok (parseInt x.code) := rfl
    rw [jobStartParam, if_neg (of_decide_eq_true hadmits), hparsed]
    change ∃ d, (if j.verificationCode.any (·.strictEq (parseInt x.code)) then _ else _) = _
    rw [if_pos hx.code]
    exact ⟨_, rfl⟩
  | jobReject =>
    change ∃ d, jobRejectParam _ _ _ j = .ok (.update d)
    unfold jobRejectParam
    cases hs : j.jobStatus with
    | processing | assign | accept => exact ⟨_, rfl⟩
    | start | complete | reject =>
      rw [hs] at hadmits
      cases hadmits
  | jobFinish =>
    change ∃ d, jobFinishParam _ _ j = .ok (.update d)
    rw [jobFinishParam, show j.jobStatus = .start from of_decide_eq_true hadmits]
    exact ⟨_, rfl⟩
  | paymentUpdate =>
    change ∃ d, paymentUpdateParam _ _ j = .ok (.update d)
    rw [paymentUpdateParam, show j.jobStatus = .start from of_decide_eq_true hadmits, hq']
    have hrevenue : ∃ y, revenueOf (some (.num 100 0)) (some (.fin q')) = .ok (.fin y) := by
      have hpaid : literal 100 0 = .fin 100 := by decide +kernel
      simp only [revenueOf, toNumber, hpaid]
      split
      · exact ⟨_, rfl⟩
      · exact ⟨_, rfl⟩
    obtain ⟨y, hy⟩ := hrevenue
    change ∃ d, (revenueOf (some (.num 100 0)) (some (.fin q')) >>= _) = _
    rw [hy]
    exact ⟨_, rfl⟩
  | userCancelJob =>
    change ∃ d, jobRejectParam _ _ _ j = .ok (.update d)
    unfold jobRejectParam
    cases hs : j.jobStatus with
    | processing | assign | accept => exact ⟨_, rfl⟩
    | start | complete | reject =>
      rw [hs] at hadmits
      cases hadmits
  | userJobReschedule =>
    change ∃ d, userJobRescheduleParam _ _ _ j = .ok (.update d)
    have hcast : castSet castObjectId (some (.str x.address)) = .ok (some (some a')) := by
      change (castObjectIdString x.address).map some = _
      rw [castObjectIdString, ha']
      rfl
    unfold userJobRescheduleParam
    rw [show (x.request j .userJobReschedule).body.locationID = some (.str x.address) from rfl,
      hcast]
    cases hs : j.jobStatus with
    | processing | assign | accept => exact ⟨_, rfl⟩
    | start | complete | reject =>
      rw [hs] at hadmits
      cases hadmits
  | submitFeedback =>
    change ∃ d, submitFeedbackParam _ _ j = .ok (.update d)
    rw [submitFeedbackParam, if_pos (of_decide_eq_true hadmits)]
    exact ⟨_, rfl⟩
  | replyFeedback =>
    change ∃ d, replyFeedbackParam _ _ j = .ok (.update d)
    rw [replyFeedbackParam, if_pos (of_decide_eq_true hadmits)]
    exact ⟨_, rfl⟩

theorem providers_addresses_serve (s : Db) (r : JobRequest) :
    (serve s r).providers = s.providers ∧ (serve s r).addresses = s.addresses := by
  refine ⟨providers_serve s r, ?_⟩
  have hrule : OpRule (fun _ op => op.writesAddresses = false) r := by
    constructor <;> intros <;> rfl
  refine (obeys_program hrule s).run (I := fun t => t.addresses = s.addresses) ?_ rfl
  intro t op hop ht
  rw [exec_addresses_of_not_writesAddresses hop, ht]

/-- The request passes the checks and lookups of its handler. -/
theorem ready_request (hx : Serviceable x s j) (hne : h ≠ .assignJob) :
    refusal (x.request j h).checks = none ∧ (x.request j h).lookups s = true := by
  obtain ⟨a', ha'⟩ := exists_id_of_someMatch hx.address
  have hjob : truthy (some (.str x.job)) = true := truthy_of_ofString hx.job
  have hvalid : ObjectId.isValid (some (.str x.job)) = true := by
    rw [ObjectId.isValid, hx.job]
    rfl
  have hbad : badId (some (.str x.job)) = false := by
    rw [badId, hjob, hvalid]
    rfl
  have haddress : truthy (some (.str x.address)) = true := truthy_of_ofString ha'
  have hvalid' : ObjectId.isValid (some (.str x.address)) = true := by
    rw [ObjectId.isValid, ha']
    rfl
  have htext : ∀ text : String, text ≠ "" → truthy (some (.str text)) = true :=
    fun _ hne => decide_eq_true hne
  have hstar : truthy (some (.num 5 0)) = true := rfl
  constructor
  · cases h <;> simp [JobRequest.checks, Particulars.request, proceedToPayChecks,
      paymentSuccessChecks, assignJobToWorkerChecks, jobIdChecks, jobRejectChecks, jobFinishChecks,
      userJobRescheduleChecks, submitFeedbackChecks, refusal, hjob, hbad, haddress, hvalid', htext,
      hstar]
  · cases h with
    | assignJob => exact absurd rfl hne
    | assignJobToWorker => exact hx.worker
    | userJobReschedule => exact hx.address
    | _ => rfl

/-- The request is through to the job. -/
theorem written_request (hx : Serviceable x s j) (hj : s.jobs.get? j.id = some j)
    (hne : h ≠ .assignJob) (hadmits : h.admits j.jobStatus = true) :
    (x.request j h).written s = some j := by
  obtain ⟨hchecks, hlookups⟩ := ready_request hx hne
  obtain ⟨d, hd⟩ := exists_plan hx hne hadmits
  have htarget : (x.request j h).target = some (.str x.job) := by
    cases h <;> rfl
  have hcond : jobById (some (.str x.job)) = .ok fun i => decide (some i.id = some j.id) := by
    rw [jobById, castForQuery_str hx.job]
    rfl
  have hfind : s.jobs.findOne (fun i => decide (some i.id = some j.id)) = some j := by
    rw [s.jobs.findOne_key (k := j.id) fun i => by simp]
    exact hj
  have hfilter : (x.request j h).filter j = true := by
    cases h with
    | assignJobToWorker => simp [JobRequest.filter, Particulars.request, JobHandler.ofCustomer,
        hx.company]
    | userCancelJob | userJobReschedule | submitFeedback | replyFeedback =>
      simp [JobRequest.filter, Particulars.request, JobHandler.ofCustomer]
    | _ => rfl
  have hwrite : (x.request j h).write s = some
      ⟨fun i => decide (some i.id = some j.id) && (x.request j h).filter i, d⟩ := by
    rw [JobRequest.write, hchecks, hlookups, htarget]
    simp only [Option.isNone_none, Bool.and_true, if_true, planned, hcond, hfind, Option.map_some,
      hd]
  rw [JobRequest.written, hwrite, Option.bind_some]
  rw [s.jobs.findOne_of_key (k := j.id) fun i hi => by simpa using (Bool.and_eq_true_iff.mp hi).1]
  rw [hj, Option.filter_some, if_pos]
  simp [hfilter]

/-- The job that the request leaves behind is as serviceable as before. -/
theorem serviceable_serve (hx : Serviceable x s j) {r : JobRequest} (hw : r.written s = some j) :
    ∃ j', (serve s r).jobs.get? j.id = some j' ∧
      j'.jobStatus = r.handler.sets.getD j.jobStatus ∧ j'.id = j.id ∧ Serviceable x (serve s r) j' := by
  obtain ⟨w, hwrite, hfind⟩ := Option.bind_eq_some_iff.mp hw
  have hchange := change_written hwrite hfind
  obtain ⟨-, p, i, -, -, hplan, -⟩ := write_eq_some hwrite
  obtain ⟨hproviders, haddresses⟩ := providers_addresses_serve s r
  refine ⟨_, get?_serve_written (written_assignJob hw) hwrite hfind, ?_, w.data.apply_id _ _,
    hx.of_same hproviders haddresses (w.data.apply_id _ _)
      ((plan_keepsTerms hplan).apply_terms _ _)⟩
  rw [JobSet.apply_jobStatus, hchange.follows_machine.2]

/-- Every word of the machine can be done to the job. -/
theorem exists_run {st : JobStatus} {hs : List JobHandler} (hx : Serviceable x s j)
    (hj : s.jobs.get? j.id = some j) (hst : lifecycle j.jobStatus hs = some st) :
    ∃ rs j', history j.id s rs = hs ∧ (runFrom serve s rs).jobs.get? j.id = some j' ∧
      j'.jobStatus = st := by
  induction hs generalizing s j with
  | nil => exact ⟨[], j, rfl, hj, Option.some.inj hst⟩
  | cons h hs ih =>
    rw [lifecycle] at hst
    split at hst
    · rename_i hstep
      have hw := written_request hx hj hstep.1 hstep.2
      obtain ⟨j₁, hj₁, hstatus, hid, hx₁⟩ := serviceable_serve hx hw
      have hhandler : (x.request j h).handler = h := rfl
      rw [hhandler] at hstatus
      rw [← hstatus] at hst
      rw [← hid] at hj₁ ⊢
      obtain ⟨rs, j', hhistory, hj', hend⟩ := ih hx₁ hj₁ hst
      refine ⟨x.request j h :: rs, j', ?_, hj', hend⟩
      rw [history, hw, Option.map_some, if_pos (by rw [hid]), hhistory, hhandler]
    · cases hst

/-- The handlers implement the machine exactly. In every state, for every job whose parties can
go on with it: the sequences of handlers that runs of any requests can make write to the job, with
the status that they leave it in, are those of the machine from the status of the job. -/
theorem lifecycle_exact (x : Particulars) (s : Db) (j : Job) (hj : s.jobs.get? j.id = some j)
    (hx : Serviceable x s j) (hs : List JobHandler) (st : JobStatus) :
    lifecycle j.jobStatus hs = some st ↔
      ∃ rs j', history j.id s rs = hs ∧ (runFrom serve s rs).jobs.get? j.id = some j' ∧
        j'.jobStatus = st := by
  constructor
  · exact exists_run hx hj
  · rintro ⟨rs, j', rfl, hj', rfl⟩
    obtain ⟨i, hi, hlifecycle⟩ := lifecycle_history hj rs
    rw [hi] at hj'
    cases hj'
    exact hlifecycle

def sampleParticulars : Particulars := ⟨"job-------01", "worker----01", "address---01", "123456"⟩

/-- The job of the sample booking can be rejected and completed all the same. -/
theorem lifecycle_exact_sample :
    ∃ j, (serve sampleDb sampleBooking).jobs.get? j.id = some j ∧ j.jobStatus = .processing ∧
      ∃ rs j', history j.id (serve sampleDb sampleBooking) rs =
          [.jobReject, .jobAccept, .jobStart, .jobFinish] ∧
        (runFrom serve (serve sampleDb sampleBooking) rs).jobs.get? j.id = some j' ∧
        j'.jobStatus = .complete := by
  have hsome : ((serve sampleDb sampleBooking).jobs.get? (idOf "job-------01")).isSome = true := by
    decide +kernel
  obtain ⟨j, hj⟩ := Option.isSome_iff_exists.mp hsome
  obtain ⟨-, hid⟩ := ((serve sampleDb sampleBooking).jobs.get?_eq_some_iff _ j).mp hj
  have hall : AllJobs (fun j => j.jobStatus = .processing ∧ j.id = idOf "job-------01" ∧
      j.providerUserType = companyType ∧ j.providerData = company.userId ∧
      j.userId = customer.userId ∧ j.verificationCode = some (.fin 123456) ∧
      j.amount = .fin 100 ∧ j.revenuePercentage = some (.fin 10))
      (serve sampleDb sampleBooking) := by decide +kernel
  obtain ⟨hstatus, -, hcompany, hprovider, huser, hcode, hamount, hpercentage⟩ :=
    hall j (Collection.mem_of_findOne hj).1
  have hx : Serviceable sampleParticulars (serve sampleDb sampleBooking) j := by
    refine ⟨?_, hcompany, ?_, ?_, ?_, ⟨_, hamount⟩, ⟨_, hpercentage⟩⟩
    · rw [hid]
      decide +kernel
    · rw [hprovider]
      decide +kernel
    · rw [huser]
      decide +kernel
    · rw [hcode]
      decide +kernel
  rw [← hid] at hj
  refine ⟨j, hj, hstatus, (lifecycle_exact sampleParticulars _ j hj hx _ _).mp ?_⟩
  rw [hstatus]
  rfl

end Completeness

end DoQwik
