import DoQwik.Queries
import DoQwik.Collections

/-! The documents of the Mongoose models and the state that the handlers share: the
collections, the counters and the two token caches. Dates are milliseconds. -/
namespace DoQwik
open JsValues DocStore

/-- `JOBSTATUS` of the constants. -/
inductive JobStatus where
  | processing
  | assign
  | accept
  | reject
  | start
  | complete
deriving DecidableEq

def JobStatus.text : JobStatus → String
  | .processing => "Processing"
  | .assign => "Assign"
  | .accept => "Accept"
  | .reject => "Reject"
  | .start => "Start"
  | .complete => "Complete"

/-- `PAYMENTSTATUS` of the constants; a job stores whatever string it was given. -/
def paymentInitialize : String := "Initialize"

def paymentSuccessful : String := "Success"

/-- `USERTYPE` of the constants. -/
def companyType : String := "Company"

def workerType : String := "Worker"

def individualType : String := "Individual"

/-- The nested `userFeedback` path of a job. -/
structure UserFeedback where
  star : Option JsNum := none
  message : Option String := none
  feedbackAt : Option ℤ := none
  reply : Option String := none
  replayAt : Option ℤ := none

/-- A document of `dqw_jobs`. An optional field is absent or `null` when it is `none`. -/
structure Job where
  id : ObjectId
  jobId : ℕ
  userId : ObjectId
  userSeqId : Option ℕ
  providerData : ObjectId
  providerUserType : String
  workerData : Option ObjectId
  providerSeqId : Option ℕ
  serviceType : ObjectId
  serviceName : String
  subServiceName : String
  amount : JsNum
  paidAmount : Option JsNum
  discount : Option JsNum
  otherCharges : Option JsNum
  finalPaidAmount : Option JsNum
  serviceLocation : Option ObjectId
  serviceDate : Option String
  serviceTime : Option String
  jobDesc : String
  paymentType : Option String
  paymentMode : Option String
  paymentStatus : Option String
  revenuePercentage : Option JsNum
  revenueAmount : Option JsNum
  txnNo : Option String
  isCouponUse : Option String
  couponCode : Option String
  jobStatus : JobStatus
  jobImage : Option String
  verificationCode : Option JsNum
  jobAcceptAt : Option ℤ
  jobRejectAt : Option ℤ
  jobRejectReason : Option String
  jobRejectBy : Option String
  jobStartAt : Option ℤ
  jobStartImage1 : Option String
  jobStartImage2 : Option String
  jobStartLatitude : Option JsNum
  jobStartLongitude : Option JsNum
  jobFinishAt : Option ℤ
  jobRescheduleby : Option String
  jobRescheduleAt : Option ℤ
  userFeedback : UserFeedback
  createdBy : ObjectId
  creationDate : ℤ
  creationIp : Option String
  updateDate : Option ℤ
  updateIp : Option String
  latitude : Option JsNum
  longitude : Option JsNum
  platform : Option String
  createdAt : ℤ
  updatedAt : ℤ

/-- A cast update of a job: any path of the schema but the id. A path that the update does not
name is `none`; a path set to `null` is `some none`. -/
structure JobSet where
  jobId : Option ℕ := none
  userId : Option ObjectId := none
  userSeqId : Option (Option ℕ) := none
  providerData : Option ObjectId := none
  providerUserType : Option String := none
  providerSeqId : Option (Option ℕ) := none
  serviceType : Option ObjectId := none
  serviceName : Option String := none
  subServiceName : Option String := none
  amount : Option JsNum := none
  otherCharges : Option (Option JsNum) := none
  jobDesc : Option String := none
  revenuePercentage : Option (Option JsNum) := none
  txnNo : Option (Option String) := none
  jobImage : Option (Option String) := none
  verificationCode : Option (Option JsNum) := none
  jobStartImage2 : Option (Option String) := none
  jobStartLongitude : Option (Option JsNum) := none
  createdBy : Option ObjectId := none
  creationDate : Option ℤ := none
  creationIp : Option (Option String) := none
  latitude : Option (Option JsNum) := none
  longitude : Option (Option JsNum) := none
  platform : Option (Option String) := none
  jobStatus : Option JobStatus := none
  userFeedback : Option UserFeedback := none
  paidAmount : Option (Option JsNum) := none
  discount : Option (Option JsNum) := none
  finalPaidAmount : Option (Option JsNum) := none
  serviceLocation : Option (Option ObjectId) := none
  serviceDate : Option (Option String) := none
  serviceTime : Option (Option String) := none
  paymentType : Option (Option String) := none
  paymentMode : Option (Option String) := none
  paymentStatus : Option (Option String) := none
  revenueAmount : Option (Option JsNum) := none
  isCouponUse : Option (Option String) := none
  couponCode : Option (Option String) := none
  workerData : Option (Option ObjectId) := none
  jobAcceptAt : Option (Option ℤ) := none
  jobRejectAt : Option (Option ℤ) := none
  jobRejectReason : Option (Option String) := none
  jobRejectBy : Option (Option String) := none
  jobStartAt : Option (Option ℤ) := none
  jobStartImage1 : Option (Option String) := none
  jobStartLatitude : Option (Option JsNum) := none
  jobFinishAt : Option (Option ℤ) := none
  jobRescheduleby : Option (Option String) := none
  jobRescheduleAt : Option (Option ℤ) := none
  updateDate : Option (Option ℤ) := none
  updateIp : Option (Option String) := none

/-- The document after an update at time `now`; the `timestamps` option sets `updatedAt`. -/
def JobSet.apply (d : JobSet) (now : ℤ) (j : Job) : Job :=
  { j with
    jobId := d.jobId.getD j.jobId
    userId := d.userId.getD j.userId
    userSeqId := d.userSeqId.getD j.userSeqId
    providerData := d.providerData.getD j.providerData
    providerUserType := d.providerUserType.getD j.providerUserType
    providerSeqId := d.providerSeqId.getD j.providerSeqId
    serviceType := d.serviceType.getD j.serviceType
    serviceName := d.serviceName.getD j.serviceName
    subServiceName := d.subServiceName.getD j.subServiceName
    amount := d.amount.getD j.amount
    otherCharges := d.otherCharges.getD j.otherCharges
    jobDesc := d.jobDesc.getD j.jobDesc
    revenuePercentage := d.revenuePercentage.getD j.revenuePercentage
    txnNo := d.txnNo.getD j.txnNo
    jobImage := d.jobImage.getD j.jobImage
    verificationCode := d.verificationCode.getD j.verificationCode
    jobStartImage2 := d.jobStartImage2.getD j.jobStartImage2
    jobStartLongitude := d.jobStartLongitude.getD j.jobStartLongitude
    createdBy := d.createdBy.getD j.createdBy
    creationDate := d.creationDate.getD j.creationDate
    creationIp := d.creationIp.getD j.creationIp
    latitude := d.latitude.getD j.latitude
    longitude := d.longitude.getD j.longitude
    platform := d.platform.getD j.platform
    jobStatus := d.jobStatus.getD j.jobStatus
    userFeedback := d.userFeedback.getD j.userFeedback
    paidAmount := d.paidAmount.getD j.paidAmount
    discount := d.discount.getD j.discount
    finalPaidAmount := d.finalPaidAmount.getD j.finalPaidAmount
    serviceLocation := d.serviceLocation.getD j.serviceLocation
    serviceDate := d.serviceDate.getD j.serviceDate
    serviceTime := d.serviceTime.getD j.serviceTime
    paymentType := d.paymentType.getD j.paymentType
    paymentMode := d.paymentMode.getD j.paymentMode
    paymentStatus := d.paymentStatus.getD j.paymentStatus
    revenueAmount := d.revenueAmount.getD j.revenueAmount
    isCouponUse := d.isCouponUse.getD j.isCouponUse
    couponCode := d.couponCode.getD j.couponCode
    workerData := d.workerData.getD j.workerData
    jobAcceptAt := d.jobAcceptAt.getD j.jobAcceptAt
    jobRejectAt := d.jobRejectAt.getD j.jobRejectAt
    jobRejectReason := d.jobRejectReason.getD j.jobRejectReason
    jobRejectBy := d.jobRejectBy.getD j.jobRejectBy
    jobStartAt := d.jobStartAt.getD j.jobStartAt
    jobStartImage1 := d.jobStartImage1.getD j.jobStartImage1
    jobStartLatitude := d.jobStartLatitude.getD j.jobStartLatitude
    jobFinishAt := d.jobFinishAt.getD j.jobFinishAt
    jobRescheduleby := d.jobRescheduleby.getD j.jobRescheduleby
    jobRescheduleAt := d.jobRescheduleAt.getD j.jobRescheduleAt
    updateDate := d.updateDate.getD j.updateDate
    updateIp := d.updateIp.getD j.updateIp
    updatedAt := now }

@[simp] theorem JobSet.apply_id (d : JobSet) (now : ℤ) (j : Job) : (d.apply now j).id = j.id := rfl

@[simp] theorem JobSet.apply_updatedAt (d : JobSet) (now : ℤ) (j : Job) :
    (d.apply now j).updatedAt = now := rfl

@[simp] theorem JobSet.apply_jobStatus (d : JobSet) (now : ℤ) (j : Job) :
    (d.apply now j).jobStatus = d.jobStatus.getD j.jobStatus := rfl

@[simp] theorem JobSet.apply_paymentStatus (d : JobSet) (now : ℤ) (j : Job) :
    (d.apply now j).paymentStatus = d.paymentStatus.getD j.paymentStatus := rfl

/-- The terms of a booking: who booked what from whom, at which price and commission. -/
structure JobTerms where
  jobId : ℕ
  userId : ObjectId
  providerData : ObjectId
  providerUserType : String
  serviceType : ObjectId
  serviceName : String
  subServiceName : String
  amount : JsNum
  revenuePercentage : Option JsNum
  verificationCode : Option JsNum
  creationDate : ℤ

def Job.terms (j : Job) : JobTerms where
  jobId := j.jobId
  userId := j.userId
  providerData := j.providerData
  providerUserType := j.providerUserType
  serviceType := j.serviceType
  serviceName := j.serviceName
  subServiceName := j.subServiceName
  amount := j.amount
  revenuePercentage := j.revenuePercentage
  verificationCode := j.verificationCode
  creationDate := j.creationDate

/-- The update sets none of the terms. -/
structure JobSet.KeepsTerms (d : JobSet) : Prop where
  jobId : d.jobId = none
  userId : d.userId = none
  providerData : d.providerData = none
  providerUserType : d.providerUserType = none
  serviceType : d.serviceType = none
  serviceName : d.serviceName = none
  subServiceName : d.subServiceName = none
  amount : d.amount = none
  revenuePercentage : d.revenuePercentage = none
  verificationCode : d.verificationCode = none
  creationDate : d.creationDate = none

theorem JobSet.KeepsTerms.apply_terms {d : JobSet} (h : d.KeepsTerms) (now : ℤ) (j : Job) :
    (d.apply now j).terms = j.terms := by
  simp only [Job.terms, JobSet.apply, h.jobId, h.userId, h.providerData, h.providerUserType,
    h.serviceType, h.serviceName, h.subServiceName, h.amount, h.revenuePercentage,
    h.verificationCode, h.creationDate, Option.getD_none]

/-- The claims of a signed token: `data`, `iss`, and the expiry. -/
structure AuthToken where
  userId : ObjectId
  userType : String
  issuer : String
  createdAt : ℤ
  expiresAt : ℤ
deriving DecidableEq

/-- A token string: signed by this server, or any other text. Signing is injective and
only `signed` strings verify. -/
inductive TokenText where
  | plain (s : String)
  | signed (t : AuthToken)
deriving DecidableEq

/-- A document of `dqw_users`. -/
structure User where
  id : ObjectId
  usersId : Option ℕ
  fullName : String
  email : String
  phone : Option JsNum
  country : String
  state : String
  city : String
  address1 : Option String
  address2 : Option String
  landMark : String
  postalCode : String
  addressData : List ObjectId
  token : Option TokenText
  profilePic : Option String
  document : Option String
  documentNo : Option String
  documentType : Option String
  isVerified : Option ℕ
  creationDate : Option ℤ
  defaultAddress : Option ObjectId
  status : String
  latitude : Option JsNum
  longitude : Option JsNum
  deviceId : Option String
  platform : Option String
  createdAt : ℤ
  updatedAt : ℤ

/-- A document of `dqw_providers`: a company, an individual or a worker. -/
structure Provider where
  id : ObjectId
  seqId : ℕ
  fullName : String
  email : String
  phone : Option JsNum
  country : String
  state : String
  city : String
  landMark : String
  postalCode : String
  bankAcountNumber : Option JsNum := none
  tinNumber : Option String := none
  companyRegNo : Option String := none
  identificationType : Option String := none
  identificationNumber : Option String := none
  userType : String
  companyData : Option ObjectId
  companyName : Option String := none
  companyPhone : Option JsNum := none
  documentType : Option String := none
  documentNo : Option String := none
  ownerBVN : Option String := none
  gender : Option String := none
  certificate : Option String := none
  address1 : Option String
  address2 : Option String
  profilePic : Option String
  isVerified : Option ℕ := none
  profileComplete : Option ℕ := none
  creationDate : Option ℤ := none
  creationIp : Option String := none
  updateDate : Option ℤ
  updateIp : Option String := none
  status : String
  token : Option TokenText
  latitude : Option JsNum
  longitude : Option JsNum
  deviceId : Option String
  platform : Option String
  workers : List ObjectId
  createdAt : ℤ
  updatedAt : ℤ

/-- A document of `dqw_addresses`. -/
structure Address where
  id : ObjectId
  userId : Option ObjectId
  userSeqId : Option ℕ
  country : String
  state : String
  /-- An edit can set the city to `null`. -/
  city : Option String
  address1 : Option String
  address2 : Option String
  landMark : String
  postalCode : String
  creationDate : Option ℤ := none
  status : String := "A"
  latitude : Option JsNum
  longitude : Option JsNum
  deviceId : Option String := none
  platform : Option String := none

/-- A document of `dqw_services`. -/
structure Service where
  id : ObjectId
  serviceName : String
  serviceImage : Option String
  icon : Option String

/-- The rest of such a document, which only the lists of providers read. -/
structure ServiceDetails where
  subServices : List ObjectId := []
  popular : Option String := none
  orderSeq : Option JsNum := none
  status : String := "A"

/-- A document of `dqw_sub_services`. -/
structure SubService where
  id : ObjectId
  serviceName : String
  subServiceName : String
  subServiceImage : Option String
  revenue : Option JsNum
  serviceOid : Option ObjectId := none

/-- A document of `dqw_provider_services`. -/
structure ProviderService where
  id : ObjectId
  seqId : ℕ
  company : Option ObjectId
  worker : Option ObjectId
  workerCompany : Option ObjectId
  individual : Option ObjectId
  userId : Option ObjectId
  price : Option JsNum
  userType : Option String
  serviceData : Option ObjectId
  creationDate : Option ℤ
  status : String
  createdAt : ℤ
  updatedAt : ℤ

/-- A document of `dqw_provider_sub_services`, the offers that jobs are priced by. -/
structure ProviderSubService where
  id : ObjectId
  seqId : ℕ
  company : Option ObjectId
  worker : Option ObjectId
  individual : Option ObjectId
  userType : Option String
  serviceData : Option ObjectId
  subServices : Option ObjectId
  price : Option JsNum
  category : Option String
  creationDate : Option ℤ
  status : String
  createdAt : ℤ
  updatedAt : ℤ

/-- A document of `dqw_work_gallaries`. -/
structure WorkGallery where
  id : ObjectId
  serviceId : Option ObjectId
  cId : Option ObjectId
  beforeWorkPic : List String
  afterWorkPic : List String
  creationDate : Option ℤ

/-- A document of `dqw_feedbacks`. -/
structure Feedback where
  id : ObjectId
  userId : Option ObjectId
  userSeqId : Option ℕ
  workerId : Option ObjectId
  review : Option String
  reply : Option String
  star : Option String
  replyStar : Option String
  creationDate : Option ℤ
  status : String

/-- A document of `dqw_verifyOtps`. -/
structure OtpRecord where
  phone : Option JsNum
  email : Option String
  code : Option String
  createdOn : Option ℤ

/-- A document of `dqw_counters`. -/
structure Counter where
  table : String
  seq : ℕ
  encrypted : ℕ

/-- A document of `dqw_deleteRecords`; the removed document stands for its serialisation. -/
structure DeleteRecord where
  seqId : ℕ
  table : String
  params : Provider
  creationDate : Option ℤ
  creationBy : Option ObjectId
  creationIp : Option String := none
  platform : Option String := none
  latitude : Option String
  longitude : Option String

/-- The notifications a job handler starts without awaiting them. -/
inductive NoticeKind where
  | newJobNotificationtouser
  | newJobNotificationtoprovider
  | jobAcceptNotyfy
  | jobStartNotyfy
  | jobFinishNotyfy
deriving DecidableEq

structure Notice where
  kind : NoticeKind
  job : ObjectId
deriving DecidableEq

/-- Everything the handlers share. -/
structure Db where
  jobs : Collection Job.id
  users : Collection User.id
  providers : Collection Provider.id
  addresses : Collection Address.id
  services : Collection Service.id
  serviceDetails : ObjectId → ServiceDetails
  subServices : Collection SubService.id
  providerServices : Collection ProviderService.id
  providerSubServices : Collection ProviderSubService.id
  galleries : Collection WorkGallery.id
  feedbacks : Collection Feedback.id
  verifyOtps : List OtpRecord
  counters : Collection Counter.table
  deleteRecords : List DeleteRecord
  userCache : ObjectId → Option TokenText
  providerCache : ObjectId → Option TokenText
  notices : List Notice

def Db.empty : Db where
  jobs := .empty _
  users := .empty _
  providers := .empty _
  addresses := .empty _
  services := .empty _
  serviceDetails _ := {}
  subServices := .empty _
  providerServices := .empty _
  providerSubServices := .empty _
  galleries := .empty _
  feedbacks := .empty _
  verifyOtps := []
  counters := .empty _
  deleteRecords := []
  userCache _ := none
  providerCache _ := none
  notices := []

end DoQwik
