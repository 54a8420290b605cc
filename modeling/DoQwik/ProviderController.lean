import DoQwik.JobsController

/-! The routed handlers that show provider accounts: the worker's details, the workers of a
company, the edit of a worker, and the details that the web page shows. A caller was
authenticated before, so that the checks of its id cannot fail. -/
namespace DoQwik
open JsValues DocStore Interleave

/-- The entries of the request bodies; `workerId` stands for `worker_id` as well. -/
structure ProviderBody where
  workerId : Option Json := none
  providerId : Option Json := none
  serviceId : Option Json := none
  fullName : Option Json := none
  country : Option Json := none
  state : Option Json := none
  city : Option Json := none
  address1 : Option Json := none
  address2 : Option Json := none
  landMark : Option Json := none
  postalCode : Option Json := none
  platform : Option Json := none

section Views

structure SubServiceView where
  id : ObjectId
  serviceName : String
  subServiceName : String
  subServiceImage : Option String

def SubService.view (x : SubService) : SubServiceView :=
  ⟨x.id, x.serviceName, x.subServiceName, x.subServiceImage⟩

/-- The selection of `getIndividualServicesList` names `sub_service_image,` with a comma, which
is no path: the image is not selected. -/
def SubService.viewWithoutImage (x : SubService) : SubServiceView :=
  ⟨x.id, x.serviceName, x.subServiceName, none⟩

structure ServiceEntry where
  id : ObjectId
  individual : Option ObjectId
  userType : Option String
  company : Option ObjectId
  serviceData : Option Service
  status : String

structure SubServiceEntry where
  id : ObjectId
  individual : Option ObjectId
  userType : Option String
  company : Option ObjectId
  serviceData : Option Service
  subServices : Option SubServiceView
  price : Option JsNum
  category : Option String
  status : String

structure PopulatedService where
  service : ProviderService
  serviceData : Option Service

structure PopulatedSubService where
  subService : ProviderSubService
  serviceData : Option Service
  subServices : Option SubServiceView

structure GalleryView where
  id : ObjectId
  beforeWorkPic : List String
  afterWorkPic : List String

/-- The paths of a provider that `getServiceProviderByID` selects. -/
structure ProviderCard where
  id : ObjectId
  fullName : String
  phone : Option JsNum
  landMark : String
  profilePic : Option String
  userType : String

def Provider.card (p : Provider) : ProviderCard :=
  ⟨p.id, p.fullName, p.phone, p.landMark, p.profilePic, p.userType⟩

end Views

inductive ProviderResult where
  | workerDetail (workerDetailsData : Option Provider) (workerServiceData : List ServiceEntry)
      (subServiceData : List SubServiceEntry)
  | workerList (workers : List Provider)
  | worker (workerData : Option Provider)
  | providerDetails (providerData : ProviderCard) (serviceData : List PopulatedService)
      (subServiceData : List PopulatedSubService) (workGallery : List GalleryView)
      (feedbackData : List Feedback)
  | error (e : Thrown)

abbrev ProviderResponse := Response ProviderResult

def providerError (e : Thrown) : ProviderResponse :=
  { key := .errorServerError, result := some (.error e) }

section Services

/-- The condition `{ _id : v }`. -/
def providerById (v : Option Json) : Except Thrown (Provider → Bool) :=
  (castForQuery objectIdType v).map fun p q => p (some q.id)

/-- `getDataById` without a selection: the whole document. -/
def getProviderById (condition : Except Thrown (Provider → Bool)) : Action (Option Provider) := do
  let p ← cast condition
  query fun s => s.providers.findOne p

/-- `$or` of an individual's and a company's offers. -/
def offeredBy (v : Option Json) :
    Except Thrown (Option ObjectId → Option ObjectId → Option String → Bool) :=
  (castForQuery objectIdType v).map fun p individual company userType =>
    (p individual && userType = some individualType) || (p company && userType = some companyType)

def serviceList (v : Option Json) : Action (List ServiceEntry) := do
  let p ← cast (offeredBy v)
  query fun s =>
    let found := s.providerServices.find fun x => p x.individual x.company x.userType
    (sortDescending (fun x => x.seqId) found).map fun x =>
      ⟨x.id, x.individual, x.userType, x.company, x.serviceData.bind s.services.get?, x.status⟩

/-- The order is passed as `sort` and read as `short`: the list is not sorted. -/
def subServiceList (v : Option Json) : Action (List SubServiceEntry) := do
  let p ← cast (offeredBy v)
  query fun s =>
    (s.providerSubServices.find fun x => p x.individual x.company x.userType).map fun x =>
      ⟨x.id, x.individual, x.userType, x.company, x.serviceData.bind s.services.get?,
        (x.subServices.bind s.subServices.get?).map SubService.view, x.price, x.category, x.status⟩

end Services

section Handlers

variable (env : Env) (c : Caller) (b : ProviderBody)

def workerDetail : Action ProviderResponse :=
  checked [(!truthy b.workerId, .workerIdEmpty)] do
    let workerDetailsData ← getProviderById (providerById b.workerId)
    let serviceData ← serviceList b.workerId
    let subServiceData ← subServiceList b.workerId
    reply .success (some (.workerDetail workerDetailsData serviceData subServiceData))

def sendWorkers (workers : List Provider) : Action ProviderResponse :=
  if workers.isEmpty then reply .errorDataNotFound
  else reply .success (some (.workerList workers))

def companyWorkerList : Action ProviderResponse := do
  let isUserAvailable ← query fun s => s.providers.get? c.userId
  match isUserAvailable with
  | none => throwing .typeError
  | some company => do
    let workers ← query fun s => s.providers.find fun w => w.id ∈ company.workers
    sendWorkers workers

def editWorkerChecks (profilePic : Option String) : List (Bool × MessageKey) :=
  [(!truthy b.fullName, .fullnameEmpty),
    (!truthy b.country, .countryEmpty),
    (!truthy b.state, .stateEmpty),
    (!truthy b.city, .cityEmpty),
    (!truthy b.landMark, .landmarkEmpty),
    (!truthy b.postalCode, .postalcodeEmpty),
    (!truthy b.workerId, .workeridEmpty),
    (!truthy b.platform, .platformEmpty),
    (profilePic.isNone, .profilePicEmpty)]

def editWorkerData (profilePic : Option String) : Except Thrown ProviderSet := do
  let fullName ← castSet castTrimmed b.fullName
  let country ← castSet castTrimmed b.country
  let state ← castSet castTrimmed b.state
  let city ← castSet castTrimmed b.city
  let address1 ← castSet castString b.address1
  let address2 ← castSet castString b.address2
  let landMark ← castSet castTrimmed b.landMark
  let postalCode ← castSet castTrimmed b.postalCode
  let platform ← castSet castString (ifTruthy b.platform)
  -- The required paths were checked, so that none of them is set to `null`.
  pure
    { fullName := fullName.join
      country := country.join
      state := state.join
      city := city.join
      address1
      address2
      landMark := landMark.join
      postalCode := postalCode.join
      profilePic := profilePic.map some
      platform
      updateDate := some (some env.now) }

/-- `updateData` of the provider service. -/
def updateProviderData (condition : Except Thrown (Provider → Bool))
    (data : Except Thrown ProviderSet) : Action (Option Provider) := do
  let p ← cast condition
  let d ← cast data
  Prog.perform (DbOp.updateProvider p d env.now)

/-- The end of `editWorker`: `data._id` is read without a check. -/
def sendWorker : Option Provider → Action ProviderResponse
  | none => throwing .typeError
  | some w => do
    let workerData ← query fun s => s.providers.get? w.id
    reply .success (some (.worker workerData))

/-- The count asks for a worker of the company, the update only for the id. -/
def editWorker (profilePic : Option String) : Action ProviderResponse :=
  checked (editWorkerChecks b profilePic) do
    let companyData ← query fun s => s.providers.get? c.userId
    match companyData with
    | none => throwing .typeError
    | some company => do
      let isOwn ← cast (workersOf b.workerId company.id)
      let isUserAvailable ← query fun s => s.providers.count isOwn
      if isUserAvailable > 0 then do
        let data ← updateProviderData env (providerById b.workerId) (editWorkerData env b profilePic)
        sendWorker data
      -- The message of this branch uses `phone`, which is not declared.
      else throwing .referenceError

/-- The condition `{ status : "A", individual : v }`, or the same for a company. -/
def activeOfferOf (userType : String) (v : Option Json) :
    Except Thrown (Option ObjectId → Option ObjectId → String → Bool) :=
  (castForQuery objectIdType v).map fun p individual company status =>
    status = "A" && (if userType = individualType then p individual else p company)

/-- The galleries of the provider, of one service if the request names one. -/
def galleryOf (v serviceId : Option Json) : Except Thrown (WorkGallery → Bool) := do
  let p ← castForQuery objectIdType v
  match ifTruthy serviceId with
  | none => pure fun g => p g.cId
  | some sid => do
    let q ← castForQuery objectIdType (some sid)
    pure fun g => p g.cId && q g.serviceId

def feedbackOf (v : Option Json) : Except Thrown (Feedback → Bool) :=
  (castForQuery objectIdType v).map fun p f => p f.workerId

/-- The second half of `getServiceProviderByID`, once the provider was found. -/
def providerDetails (card : ProviderCard) : Action ProviderResponse := do
  let p ← cast (activeOfferOf card.userType b.providerId)
  let serviceData ← query fun s =>
    (s.providerServices.find fun x => p x.individual x.company x.status).map fun x =>
      PopulatedService.mk x (x.serviceData.bind s.services.get?)
  let subServiceData ← query fun s =>
    (s.providerSubServices.find fun x => p x.individual x.company x.status).map fun x =>
      PopulatedSubService.mk x (x.serviceData.bind s.services.get?)
        ((x.subServices.bind s.subServices.get?).map SubService.viewWithoutImage)
  let g ← cast (galleryOf b.providerId b.serviceId)
  let workGallery ← query fun s =>
    -- A gallery without a date comes last.
    (sortDescending (fun x => x.creationDate.getD 0) (s.galleries.find g)).map fun x =>
      GalleryView.mk x.id x.beforeWorkPic x.afterWorkPic
  let f ← cast (feedbackOf b.providerId)
  let feedback ← query fun s => s.feedbacks.find f
  reply .success (some (.providerDetails card serviceData subServiceData workGallery feedback))

def getServiceProviderByID : Action ProviderResponse :=
  checked [(badId b.providerId, .providerEmpty)] do
    let p ← cast (providerById b.providerId)
    let providerData ← query fun s => (s.providers.findOne p).map Provider.card
    match providerData with
    | none => reply .wrongProviderId
    | some card =>
      if card.userType = workerType then reply .wrongProviderId else providerDetails b card

end Handlers

section Requests

/-- The first two handlers are for whoever has the key of the application. -/
inductive ProviderHandler where
  | workerDetail
  | getServiceProviderByID
  | companyWorkerList
  | editWorker (profilePic : Option String)

structure ProviderRequest where
  handler : ProviderHandler
  apiKey : Bool := true
  caller : Option Caller := none
  body : ProviderBody := {}
  env : Env

/-- `checkAPIKey`. -/
def withKey (apiKey : Bool) (handler : Action ProviderResponse) : Action ProviderResponse :=
  if apiKey then handler.catchAll providerError else reply .errorTokenRequired

/-- `authCheck`, with the account it found. -/
def authenticated (caller : Option Caller) (handler : Caller → Action ProviderResponse) :
    Action ProviderResponse :=
  match caller with
  | none => reply .unauthorized
  | some c => (handler c).catchAll providerError

def ProviderRequest.program (r : ProviderRequest) : Action ProviderResponse :=
  match r.handler with
  | .workerDetail => withKey r.apiKey (DoQwik.workerDetail r.body)
  | .getServiceProviderByID => withKey r.apiKey (DoQwik.getServiceProviderByID r.body)
  | .companyWorkerList => authenticated r.caller DoQwik.companyWorkerList
  | .editWorker profilePic => authenticated r.caller fun c => DoQwik.editWorker r.env c r.body profilePic

def serveProvider (s : Db) (r : ProviderRequest) : Db := (r.program.run exec s).1

def answerProvider (s : Db) (r : ProviderRequest) : ProviderResponse :=
  match (r.program.run exec s).2 with
  | .ok a => a
  | .error e => providerError e

end Requests

end DoQwik
