import DoQwik.Operations

/-! The routed handlers of the jobs controller, as programs over the atomic operations.
Request values are arbitrary JSON; the caller was authenticated before, so that its id
is valid and the checks of the id cannot fail. -/
namespace DoQwik
open JsValues DocStore Interleave

/-- `req.user`, as the authorization sets it. -/
structure Caller where
  userId : ObjectId
  userType : String

structure JobBody where
  jobId : Option Json := none
  jobID : Option Json := none
  locationID : Option Json := none
  workerID : Option Json := none
  serviceLocation : Option Json := none
  serviceDate : Option Json := none
  serviceTime : Option Json := none
  serviceType : Option Json := none
  jobDesc : Option Json := none
  latitude : Option Json := none
  longitude : Option Json := none
  langitude : Option Json := none
  providerId : Option Json := none
  platform : Option Json := none
  ipAddress : Option Json := none
  updateIp : Option Json := none
  paymentType : Option Json := none
  paymentMode : Option Json := none
  paymentStatus : Option Json := none
  couponCode : Option Json := none
  txnNo : Option Json := none
  code : Option Json := none
  rejectReason : Option Json := none
  finalPaidAmount : Option Json := none
  message : Option Json := none
  star : Option Json := none

/-- `req.files`: the paths of the uploaded files. -/
structure JobFiles where
  jobImage : Option String := none
  firstPic : Option String := none
  secondPic : Option String := none

/-- The paths of a provider or an address that `populate` selects. -/
structure ContactView where
  id : ObjectId
  fullName : Option String := none
  profilePic : Option String := none
  address1 : Option String
  address2 : Option String
  landMark : String
  postalCode : String
  city : Option String
  state : String
  country : String
  latitude : Option JsNum
  longitude : Option JsNum

def Provider.contact (p : Provider) : ContactView where
  id := p.id
  fullName := some p.fullName
  profilePic := p.profilePic
  address1 := p.address1
  address2 := p.address2
  landMark := p.landMark
  postalCode := p.postalCode
  city := p.city
  state := p.state
  country := p.country
  latitude := p.latitude
  longitude := p.longitude

def Address.contact (a : Address) : ContactView where
  id := a.id
  address1 := a.address1
  address2 := a.address2
  landMark := a.landMark
  postalCode := a.postalCode
  city := a.city
  state := a.state
  country := a.country
  latitude := a.latitude
  longitude := a.longitude

def User.contact (u : User) : ContactView where
  id := u.id
  fullName := some u.fullName
  profilePic := u.profilePic
  address1 := u.address1
  address2 := u.address2
  landMark := u.landMark
  postalCode := u.postalCode
  city := u.city
  state := u.state
  country := u.country
  latitude := u.latitude
  longitude := u.longitude

/-- A job with its provider and its location looked up. -/
structure PopulatedJob where
  job : Job
  providerData : Option ContactView
  serviceLocation : Option ContactView

def populate (s : Db) (j : Job) : PopulatedJob where
  job := j
  providerData := (s.providers.get? j.providerData).map Provider.contact
  serviceLocation := (j.serviceLocation.bind s.addresses.get?).map Address.contact

/-- A job as the lists show it: the selected paths, with what is populated. Only the list of
the customer selects the code. -/
structure JobEntry where
  id : ObjectId
  userId : Option ContactView
  providerData : Option ContactView
  serviceName : String
  subServiceName : String
  amount : JsNum
  serviceLocation : Option ContactView
  serviceDate : Option String
  serviceTime : Option String
  jobDesc : String
  paymentStatus : Option String
  jobStatus : JobStatus
  jobImage : Option String
  creationDate : ℤ
  /-- The id of the offer and of its service. -/
  serviceType : Option (ObjectId × Option ObjectId)
  otherCharges : Option JsNum
  discount : Option JsNum
  paidAmount : Option JsNum
  verificationCode : Option JsNum := none

/-- A job as `JobDetailsByID` shows it. -/
structure JobDetails where
  id : ObjectId
  userId : ObjectId
  providerData : Option ContactView
  serviceName : String
  subServiceName : String
  amount : JsNum
  serviceLocation : Option ContactView
  serviceDate : Option String
  serviceTime : Option String
  jobDesc : String
  paymentStatus : Option String
  jobStatus : JobStatus
  jobImage : Option String
  creationDate : ℤ
  paidAmount : Option JsNum
  discount : Option JsNum
  paymentMode : Option String
  finalPaidAmount : Option JsNum

/-- A completed job as `jobTransactionHistory` shows it. -/
structure TransactionEntry where
  id : ObjectId
  jobFinishAt : Option ℤ
  otherCharges : Option JsNum
  discount : Option JsNum
  paidAmount : Option JsNum
  finalPaidAmount : Option JsNum
  paymentMode : Option String
  paymentStatus : Option String
  paymentType : Option String

inductive JobResult where
  | job (j : Option Job)
  | populated (j : Option PopulatedJob)
  | duplicateOrder (j : PopulatedJob)
  | entries (jobs : List JobEntry)
  | details (j : Option JobDetails)
  | transactions (jobs : List TransactionEntry)
  | revenue (sums : List (String × JsNum))
  | message (s : String)
  | error (e : Thrown)

abbrev JobResponse := Response JobResult

def serverError (e : Thrown) : JobResponse := { key := .errorServerError, result := some (.error e) }

section Services

/-- A condition on jobs, cast or refused by the query layer. -/
abbrev JobCondition := Except Thrown (Job → Bool)

/-- The condition `{ _id : v }`. -/
def jobById (v : Option Json) : JobCondition :=
  (castForQuery objectIdType v).map fun p j => p (some j.id)

def getOnlyOneData (condition : JobCondition) : Action (Option PopulatedJob) := do
  let p ← cast condition
  query fun s => (s.jobs.findOne p).map (populate s)

def updateData (env : Env) (condition : JobCondition) (data : Except Thrown JobSet) :
    Action (Option Job) := do
  let p ← cast condition
  let d ← cast data
  Prog.perform (DbOp.updateJob p d env.now)

def insertJob (j : Job) : Action Bool := Prog.perform (DbOp.createJob j)

/-- `createData`: validation, the insertion, and the populated document. -/
def createData (data : Except Thrown Job) : Action (Option PopulatedJob) := do
  let j ← cast data
  let created ← insertJob j
  if created then query fun s => (s.jobs.get? j.id).map (populate s)
  else throwing .duplicateKey

/-- Addresses of this id that belong to the user. -/
def addressOf (v : Option Json) (userId : ObjectId) : Except Thrown (Address → Bool) :=
  (castForQuery objectIdType v).map fun p a => p (some a.id) && a.userId = some userId

def getAddressDataById (condition : Except Thrown (Address → Bool)) : Action (List Address) := do
  let p ← cast condition
  query fun s => s.addresses.find p

end Services

section Shape

/-- What a handler does with the job it read: refuse it, or update it. -/
inductive Plan where
  | refuse (key : MessageKey)
  | update (data : JobSet)

/-- The part that eleven handlers share: read the job, look at it, write the update
through a filter of its own, and answer. -/
def changeJob (env : Env) (id : Option Json) (filter : Job → Bool)
    (plan : Job → Except Thrown Plan) (finish : Option Job → Action JobResponse) :
    Action JobResponse := do
  let jobDetails ← getOnlyOneData (jobById id)
  match jobDetails with
  | none => reply .jobNotFound
  | some j => do
    let decision ← cast (plan j.job)
    match decision with
    | .refuse key => reply key
    | .update data => do
      let result ← updateData env ((jobById id).map fun p j => p j && filter j) (.ok data)
      finish result

def sendResult (data : Option Job) : Action JobResponse := reply .success (some (.job data))

def notifyAll (job : ObjectId) : List NoticeKind → Action Unit
  | [] => pure ()
  | kind :: kinds => do
    Prog.perform (DbOp.notify ⟨kind, job⟩)
    notifyAll job kinds

/-- `data.job_id` and the rest are read for the notifications before they are started. -/
def notifyAndSend (kinds : List NoticeKind) : Option Job → Action JobResponse
  | none => throwing .typeError
  | some j => do
    notifyAll j.id kinds
    sendResult (some j)

def sendOrNotFound : Option Job → Action JobResponse
  | some j => sendResult (some j)
  | none => reply .success (some (.message "Job not found in your record "))

/-- `!id || !isValidObjectId(id)`. -/
def badId (v : Option Json) : Bool := !truthy v || !ObjectId.isValid v

def jobIdChecks (b : JobBody) : List (Bool × MessageKey) := [(badId b.jobId, .jobidEmpty)]

end Shape

section Handlers

variable (env : Env) (c : Caller) (b : JobBody) (files : Option JobFiles)

/-- `'FIRST30'`, the only coupon. -/
def isFirst30 : Option Json → Bool
  | some (.str s) => s = "FIRST30"
  | _ => false

def proceedToPayParam (j : Job) : Except Thrown Plan := do
  let paymentType ← castSet castTrimmed b.paymentType
  let couponUse := isFirst30 b.couponCode
  let paidAmount ← castNum (if couponUse then j.amount.sub (.fin 30) else j.amount)
  let couponCode ← castSet castString (ifTruthy b.couponCode)
  pure (.update
    { paymentType
      paidAmount := some paidAmount
      discount := some (some (.fin (if couponUse then 30 else 0)))
      isCouponUse := some (some (if couponUse then "1" else "0"))
      couponCode })

def proceedToPayChecks : List (Bool × MessageKey) :=
  [(!truthy b.paymentType, .paymentTypeEmpty),
    (!truthy b.jobID, .jobidEmpty),
    (truthy b.locationID && !ObjectId.isValid b.locationID, .serviceLocationNotFound)]

def proceedToPay : Action JobResponse :=
  checked (proceedToPayChecks b)
    (changeJob env b.jobID (fun _ => true) (proceedToPayParam b)
      (notifyAndSend [.newJobNotificationtouser, .newJobNotificationtoprovider]))

def paymentSuccessChecks : List (Bool × MessageKey) :=
  [(!truthy b.txnNo, .txnNoEmpty), (!truthy b.jobID, .jobidEmpty)]

def paymentSuccessParam : JobSet := { paymentStatus := some (some paymentSuccessful) }

/-- No job is read here, and `txn_no` is only checked. -/
def paymentSuccess : Action JobResponse :=
  checked (paymentSuccessChecks b) do
    let data ← updateData env (jobById b.jobID) (.ok paymentSuccessParam)
    sendResult data

def assignJobToWorkerParam (_ : Job) : Except Thrown Plan := do
  let workerData ← castSet castObjectId b.workerID
  let updateIp ← castSet castString b.updateIp
  pure (.update
    { workerData
      jobStatus := some .assign
      updateDate := some (some env.now)
      updateIp })

/-- Workers of this id that belong to the caller's company. -/
def workersOf (v : Option Json) (company : ObjectId) : Except Thrown (Provider → Bool) :=
  (castForQuery objectIdType v).map fun p w =>
    p (some w.id) && w.userType = workerType && w.companyData = some company

def assignJobToWorkerChecks : List (Bool × MessageKey) := [(!truthy b.jobId, .jobidEmpty)]

def assignJobToWorker : Action JobResponse :=
  checked (assignJobToWorkerChecks b) do
    let isOwn ← cast (workersOf b.workerID c.userId)
    let isWorker ← query fun s => s.providers.count isOwn
    if isWorker = 0 then reply .errorWorkerNotFound
    else
      changeJob env b.jobId
        (fun j => j.providerData = c.userId && j.providerUserType = companyType)
        (assignJobToWorkerParam env b) sendResult

def jobStartParam (secondPic : String) (j : Job) : Except Thrown Plan :=
  if j.jobStatus = .processing then .ok (.refuse .jobAcceptError) else do
    let code ← parseIntOf b.code
    if j.verificationCode.any (·.strictEq code) then do
      let jobStartLatitude ← castSet castNumber b.latitude
      -- The entry `langitude` goes to `jobStartLangitude`, which is no path of the schema. The key
      -- `jobStartImage1` stands twice in the literal, so that only the second picture is kept.
      pure (.update
        { jobStatus := some .start
          jobStartAt := some (some env.now)
          jobStartLatitude
          jobStartImage1 := some (some (trim secondPic)) })
    else pure (.refuse .invalidJobCode)

def jobStart : Action JobResponse :=
  checked (jobIdChecks b)
    (match files with
    | none => throwing .typeError
    | some ⟨_, some _, some secondPic⟩ =>
      changeJob env b.jobId (fun _ => true) (jobStartParam env b secondPic)
        (notifyAndSend [.jobStartNotyfy])
    | some _ => reply .jobPicEmpty)

def jobAcceptParam (_ : Job) : Except Thrown Plan :=
  .ok (.update { jobStatus := some .accept, jobAcceptAt := some (some env.now) })

def jobAccept : Action JobResponse :=
  checked (jobIdChecks b)
    (changeJob env b.jobId (fun _ => true) (jobAcceptParam env) (notifyAndSend [.jobAcceptNotyfy]))

/-- The rejection, shared by provider and customer. -/
def jobRejectParam (j : Job) : Except Thrown Plan :=
  match j.jobStatus with
  | .complete => .ok (.refuse .rejectReasonForSuccess)
  | .start => .ok (.refuse .rejectReasonForStart)
  | .reject => .ok (.refuse .jobAlreadyReject)
  | _ => do
    let jobRejectReason ← castSet castString b.rejectReason
    pure (.update
      { jobStatus := some .reject
        jobRejectReason
        jobRejectAt := some (some env.now)
        jobRejectBy := some (some c.userType) })

def jobRejectChecks : List (Bool × MessageKey) :=
  [(badId b.jobId, .jobidEmpty), (!truthy b.rejectReason, .rejectReasonEmpty)]

def jobReject : Action JobResponse :=
  checked (jobRejectChecks b)
    (changeJob env b.jobId (fun _ => true) (jobRejectParam env c b) sendResult)

def userCancelJob : Action JobResponse :=
  checked (jobRejectChecks b)
    (changeJob env b.jobId (fun j => j.userId = c.userId) (jobRejectParam env c b) sendResult)

def jobFinishParam (j : Job) : Except Thrown Plan :=
  match j.jobStatus with
  | .complete => .ok (.refuse .rejectReasonForSuccess)
  | .start => do
    let updateIp ← castSet castString b.updateIp
    pure (.update
      { jobStatus := some .complete
        paymentStatus := some (some paymentSuccessful)
        jobFinishAt := some (some env.now)
        updateDate := some (some env.now)
        updateIp })
  | _ => .ok (.refuse .jobNotStartError)

def jobFinishChecks : List (Bool × MessageKey) :=
  [(badId b.jobId, .jobidEmpty), (!truthy b.updateIp, .ipaddressEmpty)]

def jobFinish : Action JobResponse :=
  checked (jobFinishChecks b)
    (changeJob env b.jobId (fun _ => true) (jobFinishParam env b) (notifyAndSend [.jobFinishNotyfy]))

/-- The commission on the amount that the request names. -/
def revenueOf (finalPaidAmount : Option Json) : Option JsNum → Except Thrown JsNum
  | some percentage =>
    if percentage.positive then do
      let paid ← toNumber finalPaidAmount
      pure ((paid.mul percentage).divBy 100)
    else .ok (.fin 0)
  | none => .ok (.fin 0)

def paymentUpdateParam (j : Job) : Except Thrown Plan :=
  match j.jobStatus with
  | .complete => .ok (.refuse .rejectReasonForSuccess)
  | .start => do
    let rAmount ← revenueOf b.finalPaidAmount j.revenuePercentage
    let finalPaidAmount ← castSet castNumber b.finalPaidAmount
    let paymentMode ← castSet castTrimmed b.paymentMode
    let paymentStatus ← castSet castTrimmed b.paymentStatus
    let updateIp ← castSet castString b.updateIp
    let revenueAmount ← castNum rAmount
    pure (.update
      { finalPaidAmount
        paymentMode
        paymentStatus
        updateDate := some (some env.now)
        updateIp
        revenueAmount := some revenueAmount })
  | _ => .ok (.refuse .jobNotStartError)

def paymentUpdate : Action JobResponse :=
  checked (jobFinishChecks b)
    (changeJob env b.jobId (fun _ => true) (paymentUpdateParam env b)
      (notifyAndSend [.jobFinishNotyfy]))

def userJobRescheduleParam (j : Job) : Except Thrown Plan :=
  match j.jobStatus with
  | .complete => .ok (.refuse .reschduleReasonForSuccess)
  | .start => .ok (.refuse .reschduleReasonForStart)
  | .reject => .ok (.refuse .jobRejected)
  | _ => do
    let serviceLocation ← castSet castObjectId b.locationID
    let serviceDate ← castSet castTrimmed b.serviceDate
    let serviceTime ← castSet castTrimmed b.serviceTime
    pure (.update
      { serviceLocation
        serviceDate
        serviceTime
        jobRescheduleAt := some (some env.now)
        jobRescheduleby := some (some c.userType) })

def userJobRescheduleChecks : List (Bool × MessageKey) :=
  [(badId b.jobId, .jobidEmpty),
    (!truthy b.locationID, .serviceLocationNotFound),
    (!truthy b.serviceDate, .serviceDateEmpty),
    (!truthy b.serviceTime, .serviceTimeEmpty),
    (!ObjectId.isValid b.locationID, .serviceLocationNotFound)]

def userJobReschedule : Action JobResponse :=
  checked (userJobRescheduleChecks b) do
    let checkLocation ← getAddressDataById (addressOf b.locationID c.userId)
    if checkLocation.isEmpty then reply .serviceLocationNotFound
    else
      changeJob env b.jobId (fun j => j.userId = c.userId) (userJobRescheduleParam env c b)
        sendResult

/-- The whole feedback object is replaced: a reply that was there is gone. -/
def submitFeedbackParam (j : Job) : Except Thrown Plan :=
  if j.jobStatus = .complete then do
    let star ← castSet castNumber b.star
    let message ← castSet castString (ifTruthy b.message)
    let userFeedback : UserFeedback :=
      { star := star.join, message := message.join, feedbackAt := some env.now }
    pure (.update { userFeedback := some userFeedback })
  else .ok (.refuse .jobNotCompleteEoor)

def submitFeedbackChecks : List (Bool × MessageKey) :=
  [(badId b.jobId, .jobidEmpty), (!truthy b.star, .starEmpty)]

def submitFeedback : Action JobResponse :=
  checked (submitFeedbackChecks b)
    (changeJob env b.jobId (fun j => j.userId = c.userId) (submitFeedbackParam env b)
      sendOrNotFound)

/-- The star, message and time of the feedback are copied from the document read. -/
def replyFeedbackParam (j : Job) : Except Thrown Plan :=
  if j.jobStatus = .complete then do
    let reply ← castSet castString b.message
    let userFeedback : UserFeedback :=
      { star := j.userFeedback.star
        message := j.userFeedback.message.filter (· ≠ "")
        feedbackAt := j.userFeedback.feedbackAt
        reply := reply.join
        replayAt := some env.now }
    pure (.update { userFeedback := some userFeedback })
  else .ok (.refuse .jobNotCompleteEoor)

def replyFeedback : Action JobResponse :=
  checked (jobIdChecks b)
    (changeJob env b.jobId (fun j => j.providerData = c.userId) (replyFeedbackParam env b)
      sendOrNotFound)

/-- An offer with its service and sub-service looked up. -/
structure PopulatedOffer where
  offer : ProviderSubService
  serviceData : Option Service
  subServices : Option SubService

def populateOffer (s : Db) (o : ProviderSubService) : PopulatedOffer where
  offer := o
  serviceData := o.serviceData.bind s.services.get?
  subServices := o.subServices.bind s.subServices.get?

def offerById (v : Option Json) : Except Thrown (ProviderSubService → Bool) :=
  (castForQuery objectIdType v).map fun p o => p (some o.id)

def getOnlyOneIndividualServices (condition : Except Thrown (ProviderSubService → Bool)) :
    Action (Option PopulatedOffer) := do
  let p ← cast condition
  query fun s => (s.providerSubServices.findOne p).map (populateOffer s)

/-- The condition `{ _id : v, status : "A" }` on providers. -/
def activeProvider (v : Option Json) : Except Thrown (Provider → Bool) :=
  (castForQuery objectIdType v).map fun p q => p (some q.id) && q.status = "A"

/-- The open booking that `assignJob` takes for a duplicate. -/
def duplicateOf (userId providerId : ObjectId) : JobCondition := do
  let serviceType ← castForQuery objectIdType b.serviceType
  let serviceDate ← castForQuery (trimmedType env.regex) b.serviceDate
  let serviceTime ← castForQuery (trimmedType env.regex) b.serviceTime
  pure fun j => j.userId = userId && j.providerData = providerId && j.jobStatus = .processing &&
    serviceType (some j.serviceType) && serviceDate j.serviceDate && serviceTime j.serviceTime

/-- A price that is missing fails validation. -/
def presentNum : Option JsNum → Except Thrown JsNum
  | some a => .ok a
  | none => .error .validationError

def newJob (jobImage : Option String) (seqId : ℕ) (user : User) (provider : Provider)
    (offer : ProviderSubService) (service : Service) (sub : SubService) : Except Thrown Job := do
  let serviceType ← required castObjectId b.serviceType
  let serviceName ← nonempty (trim service.serviceName)
  let subServiceName ← nonempty (trim sub.subServiceName)
  let amount ← presentNum offer.price
  let serviceLocation ← required castObjectId b.serviceLocation
  let serviceDate ← required castTrimmed b.serviceDate >>= nonempty
  let serviceTime ← required castTrimmed b.serviceTime >>= nonempty
  let jobDesc ← required castTrimmed b.jobDesc >>= nonempty
  let creationIp ← optional castString b.ipAddress
  let latitude ← optional castNumber (ifTruthy b.latitude)
  let longitude ← optional castNumber (ifTruthy b.longitude)
  let platform ← optional castString b.platform
  pure
    { id := env.newId
      jobId := seqId
      userId := user.id
      userSeqId := user.usersId.filter (· ≠ 0)
      providerData := provider.id
      providerUserType := provider.userType
      workerData := none
      providerSeqId := (some provider.seqId).filter (· ≠ 0)
      serviceType
      serviceName
      subServiceName
      amount
      paidAmount := some amount
      discount := some (.fin 0)
      otherCharges := some (.fin 0)
      finalPaidAmount := none
      serviceLocation := some serviceLocation
      serviceDate := some serviceDate
      serviceTime := some serviceTime
      jobDesc
      paymentType := none
      paymentMode := none
      paymentStatus := some paymentInitialize
      revenuePercentage := some (sub.revenue.getD (.fin 0))
      revenueAmount := none
      txnNo := none
      isCouponUse := none
      couponCode := none
      jobStatus := .processing
      jobImage
      verificationCode := some (.fin 123456)
      jobAcceptAt := none
      jobRejectAt := none
      jobRejectReason := none
      jobRejectBy := none
      jobStartAt := none
      jobStartImage1 := none
      jobStartImage2 := none
      jobStartLatitude := none
      jobStartLongitude := none
      jobFinishAt := none
      jobRescheduleby := none
      jobRescheduleAt := none
      userFeedback := {}
      createdBy := user.id
      creationDate := env.now
      creationIp
      updateDate := none
      updateIp := none
      latitude
      longitude
      platform
      createdAt := env.now
      updatedAt := env.now }

/-- The last step of `assignJob`: `addData` is built after the number was taken. -/
def createOrder (user : User) (provider : Provider) (offer : ProviderSubService)
    (serviceData : Option Service) (sub : SubService) (seqId : ℕ) : Action JobResponse :=
  match serviceData, files with
  | some service, some f => do
    let data ← createData (newJob env b f.jobImage seqId user provider offer service sub)
    reply .success (some (.populated data))
  | _, _ => throwing .typeError

/-- The second half of `assignJob`, once all that it looks up was found. -/
def placeOrder (user : User) (provider : Provider) (offer : ProviderSubService)
    (serviceData : Option Service) (sub : SubService) : Action JobResponse := do
  let orderDetails ← getOnlyOneData (duplicateOf env b user.id provider.id)
  match orderDetails with
  | some j => reply .success (some (.duplicateOrder j))
  | none => do
    let seqId ← getSequence "dqw_users"
    createOrder env b files user provider offer serviceData sub seqId

/-- The middle of `assignJob`: `serviceData.subServices.revenue` is logged before
`serviceData` is checked, so that a missing offer throws. -/
def orderFrom (userData : Option User) : Option PopulatedOffer → Action JobResponse
  | some ⟨offer, serviceData, some sub⟩ => do
    let p ← cast (activeProvider b.providerId)
    let providerData ← query fun s => s.providers.findOne p
    match providerData, userData with
    | none, _ => reply .wrongProviderId
    | some _, none => throwing .typeError
    | some provider, some user => placeOrder env b files user provider offer serviceData sub
  | _ => throwing .typeError

def assignJob : Action JobResponse :=
  checked
    [(!truthy b.serviceLocation, .serviceLocationEmpty),
      (!truthy b.serviceDate, .serviceDateEmpty),
      (!truthy b.serviceTime, .serviceTimeEmpty),
      (!truthy b.serviceType, .serviceTypeEmpty),
      (!truthy b.jobDesc, .jobDescEmpty),
      (!truthy b.providerId, .providerEmpty),
      (!truthy b.platform, .platformEmpty),
      (!truthy b.ipAddress, .ipaddressEmpty),
      (!ObjectId.isValid b.serviceLocation, .serviceLocationNotFound)] do
    let checkLocation ← getAddressDataById (addressOf b.serviceLocation c.userId)
    if checkLocation.isEmpty then reply .serviceLocationNotFound
    else do
      let userData ← query fun s => s.users.get? c.userId
      checked [(!ObjectId.isValid b.serviceType, .wrongServiceType)] do
        let serviceData ← getOnlyOneIndividualServices (offerById b.serviceType)
        orderFrom env b files userData serviceData

end Handlers

section Requests

/-- The routed handlers that write jobs. -/
inductive JobHandler where
  | assignJob
  | proceedToPay
  | paymentSuccess
  | assignJobToWorker
  | jobAccept
  | jobStart
  | jobReject
  | jobFinish
  | paymentUpdate
  | userCancelJob
  | userJobReschedule
  | submitFeedback
  | replyFeedback
deriving DecidableEq

/-- A request that passed the authorization. -/
structure JobRequest where
  handler : JobHandler
  caller : Caller
  body : JobBody
  files : Option JobFiles := none
  env : Env

def JobRequest.handle (r : JobRequest) : Action JobResponse :=
  match r.handler with
  | .assignJob => DoQwik.assignJob r.env r.caller r.body r.files
  | .proceedToPay => DoQwik.proceedToPay r.env r.body
  | .paymentSuccess => DoQwik.paymentSuccess r.env r.body
  | .assignJobToWorker => DoQwik.assignJobToWorker r.env r.caller r.body
  | .jobAccept => DoQwik.jobAccept r.env r.body
  | .jobStart => DoQwik.jobStart r.env r.body r.files
  | .jobReject => DoQwik.jobReject r.env r.caller r.body
  | .jobFinish => DoQwik.jobFinish r.env r.body
  | .paymentUpdate => DoQwik.paymentUpdate r.env r.body
  | .userCancelJob => DoQwik.userCancelJob r.env r.caller r.body
  | .userJobReschedule => DoQwik.userJobReschedule r.env r.caller r.body
  | .submitFeedback => DoQwik.submitFeedback r.env r.caller r.body
  | .replyFeedback => DoQwik.replyFeedback r.env r.caller r.body

/-- The handler in its `try`: an exception becomes a server error. -/
def JobRequest.program (r : JobRequest) : Action JobResponse := r.handle.catchAll serverError

def serve (s : Db) (r : JobRequest) : Db := (r.program.run exec s).1

def answer (s : Db) (r : JobRequest) : JobResponse :=
  match (r.program.run exec s).2 with
  | .ok a => a
  | .error e => serverError e

end Requests

end DoQwik
