import DoQwik.JobsController
import DoQwik.Parallel

/-! The routed handlers of the provider and individual controllers for the catalogue. A provider
offers services (`dqw_provider_services`) and, for each of them, priced sub-services
(`dqw_provider_sub_services`). -/
namespace DoQwik
open JsValues DocStore Interleave

structure CatalogueBody where
  services : Option Json := none
  subServices : Option Json := none
  price : Option Json := none
  category : Option Json := none
  workerData : Option Json := none
  id : Option Json := none

/-- What a request reads off its surroundings: the clock, the ids of the rows that it creates and
the ids that the constructor generates. They are given by branch of the request, and in order. -/
structure CatalogueEnv where
  now : ℤ
  newId : ℕ → ℕ → ObjectId
  generated : ℕ → ℕ → ObjectId

inductive CatalogueResult where
  | offer (o : ProviderSubService)
  | updated (o : Option ProviderSubService)
  | services (os : List (ProviderService × Option Service))
  | message (s : String)
  | error (e : Thrown)

abbrev CatalogueResponse := Response CatalogueResult

def catalogueError (e : Thrown) : CatalogueResponse :=
  { key := .errorServerError, result := some (.error e) }

/-- `mongoose.Types.ObjectId(x)`: a number seeds a new id, and nothing is needed for one. -/
def objectIdOf (generated : ObjectId) : Option Json → Except Thrown ObjectId
  | none => .ok generated
  | some .null => .ok generated
  | some (.num _ _) => .ok generated
  | some (.str s) => (ObjectId.ofString s).elim (.error .typeError) .ok
  | some (.obj kvs) => (ObjectId.ofObject kvs).elim (.error .typeError) .ok
  | some _ => .error .typeError

section Services

def getProvider (userId : ObjectId) : Action (Option Provider) :=
  query fun s => s.providers.get? userId

/-- `getServicesFromProvider` of type `count`. -/
def getServicesFromProvider (condition : Except Thrown (ProviderService → Bool)) : Action ℕ := do
  let p ← cast condition
  query fun s => s.providerServices.count p

def insertProviderService (o : ProviderService) : Action Bool :=
  Prog.perform (DbOp.createProviderService o)

def insertProviderSubService (o : ProviderSubService) : Action Bool :=
  Prog.perform (DbOp.createProviderSubService o)

def addServices (data : Except Thrown ProviderService) : Action Unit := do
  let o ← cast data
  let created ← insertProviderService o
  if created then pure () else throwing .duplicateKey

def addSubservices (data : Except Thrown ProviderSubService) : Action ProviderSubService := do
  let o ← cast data
  let created ← insertProviderSubService o
  if created then pure o else throwing .duplicateKey

def findOneSubservices (condition : Except Thrown (ProviderSubService → Bool)) :
    Action (Option ProviderSubService) := do
  let p ← cast condition
  query fun s => s.providerSubServices.findOne p

def updateSubSrvices (condition : Except Thrown (ProviderSubService → Bool))
    (data : Except Thrown OfferSet) (now : ℤ) : Action (Option ProviderSubService) := do
  let p ← cast condition
  let d ← cast data
  Prog.perform (DbOp.updateProviderSubService p d now)

def getIndividualServicesList (condition : ProviderSubService → Bool) :
    Action (List PopulatedOffer) :=
  query fun s => (s.providerSubServices.find condition).map (populateOffer s)

def deleteIndividualServices (condition : Except Thrown (ProviderSubService → Bool)) :
    Action Unit := do
  let p ← cast condition
  Prog.perform (DbOp.deleteProviderSubService p)

/-- `serviceList`, with the services populated. -/
def listServices (condition : Except Thrown (ProviderService → Bool)) :
    Action (List (ProviderService × Option Service)) := do
  let p ← cast condition
  query fun s =>
    (s.providerServices.find p).map fun o => (o, o.serviceData.bind s.services.get?)

end Services

inductive Vendor where
  | company
  | individual
deriving DecidableEq

def Vendor.userType : Vendor → String
  | company => companyType
  | individual => individualType

def Vendor.field (company individual : Option ObjectId) : Vendor → Option ObjectId
  | .company => company
  | .individual => individual

section Handlers

variable (env : CatalogueEnv) (c : Caller) (b : CatalogueBody)

section Vendors

variable (vendor : Vendor) (owner : ObjectId)

def ownServices : Except Thrown (ProviderService → Bool) :=
  (castForQuery objectIdType b.services).map fun p o =>
    vendor.field o.company o.individual = some owner &&
      o.userType = some vendor.userType && p o.serviceData

def ownOffers : Except Thrown (ProviderSubService → Bool) := do
  let p ← castForQuery objectIdType b.services
  let q ← castForQuery objectIdType b.subServices
  pure fun o =>
    vendor.field o.company o.individual = some owner &&
      o.userType = some vendor.userType && p o.serviceData && q o.subServices

/-- The row for a service. The category is no path of its schema. -/
def newService (seqId : ℕ) : Except Thrown ProviderService := do
  let serviceData ← objectIdOf (env.generated 0 0) b.services
  pure
    { id := env.newId 0 0
      seqId
      company := if vendor = .company then some owner else none
      worker := none
      workerCompany := none
      individual := if vendor = .individual then some owner else none
      userId := none
      price := none
      userType := some vendor.userType
      serviceData := some serviceData
      creationDate := some env.now
      status := "A"
      createdAt := env.now
      updatedAt := env.now }

def newOffer (seqId : ℕ) : Except Thrown ProviderSubService := do
  let serviceData ← objectIdOf (env.generated 0 1) b.services
  let subServices ← objectIdOf (env.generated 0 2) b.subServices
  let price ← optional castNumber b.price
  let category ← optional castString (ifTruthy b.category)
  pure
    { id := env.newId 0 1
      seqId
      company := if vendor = .company then some owner else none
      worker := none
      individual := if vendor = .individual then some owner else none
      userType := some vendor.userType
      serviceData := some serviceData
      subServices := some subServices
      price
      category
      creationDate := some env.now
      status := "A"
      createdAt := env.now
      updatedAt := env.now }

def offerData : Except Thrown OfferSet := do
  let price ← castSet castNumber b.price
  let category ← castSet castString (ifTruthy b.category)
  pure { price, category }

def addOffer : Action CatalogueResponse := do
  let subSeqId ← getSequence "dqw_provider_sub_services"
  let data ← addSubservices (newOffer env b vendor owner subSeqId)
  reply .success (some (.offer data))

/-- The first offer of a service: its row is added without a look at the offers. -/
def addNewService : Action CatalogueResponse := do
  let seqId ← getSequence "dqw_provider_services"
  addServices (newService env b vendor owner seqId)
  addOffer env b vendor owner

/-- An offer of a service that is there: added, or updated. -/
def addOrUpdateOffer : Action CatalogueResponse := do
  let isSubServiesAvilable ← findOneSubservices (ownOffers b vendor owner)
  match isSubServiesAvilable with
  | none => addOffer env b vendor owner
  | some _ => do
    let updatedData ← updateSubSrvices (ownOffers b vendor owner) (offerData b) env.now
    reply .success (some (.updated updatedData))

def addServicesChecks : List (Bool × MessageKey) :=
  [(!truthy b.services, .servicesEmpty),
    (!truthy b.subServices, .subserviceidEmpty),
    (!truthy b.price, .priceEmpty)]

def asVendor (k : Provider → Action CatalogueResponse) : Action CatalogueResponse := do
  let userData ← getProvider c.userId
  match userData with
  | none => reply .invalidUserType
  | some p => if p.userType = vendor.userType then k p else reply .invalidUserType

def addServicesBy : Action CatalogueResponse :=
  checked (addServicesChecks b) <| asVendor c vendor fun userData => do
    let serviceList ← getServicesFromProvider (ownServices b vendor userData.id)
    if serviceList = 0 then addNewService env b vendor userData.id
    else addOrUpdateOffer env b vendor userData.id

/-- The row is named by its id alone, whoever owns it. -/
def deleteServicesBy : Action CatalogueResponse :=
  asVendor c vendor fun _ => do
    deleteIndividualServices (offerById b.id)
    reply .success (some (.message "Service Delete Successfully."))

end Vendors

def addServicesbyCompany : Action CatalogueResponse := addServicesBy env c b .company

def addServicesbyIndividual : Action CatalogueResponse := addServicesBy env c b .individual

def deteleCompanyServicesByID : Action CatalogueResponse := deleteServicesBy c b .company

def deteleIndividualServicesByID : Action CatalogueResponse := deleteServicesBy c b .individual

section Workers

/-- The order of the steps inside a request: of the two reads and of the offers of each branch,
and of the branches. -/
structure BranchOrder where
  countFirst : Bool
  offers : List ℕ

structure WorkerOrder where
  branches : List ℕ
  branch : ℕ → BranchOrder

-- The branch of the request, and the service of the row that it read.
variable (i : ℕ) (serviceData : Option ObjectId)

def workerServices : Except Thrown (ProviderService → Bool) :=
  (castForQuery objectIdType b.workerData).map fun p o =>
    p o.worker && o.userType = some workerType && o.serviceData = serviceData

def companyOffers (o : ProviderSubService) : Bool :=
  o.userType = some companyType && o.serviceData = serviceData

def newWorkerService (seqId : ℕ) : Except Thrown ProviderService := do
  let worker ← optional castObjectId b.workerData
  pure
    { id := env.newId i 0
      seqId
      company := none
      worker
      workerCompany := some c.userId
      individual := none
      userId := none
      price := none
      userType := some workerType
      serviceData := some (serviceData.getD (env.generated i 0))
      creationDate := some env.now
      status := "A"
      createdAt := env.now
      updatedAt := env.now }

/-- The copy of the `k`-th offer found. The company of the worker is no path of its schema. -/
def newWorkerOffer (k : ℕ) (value : PopulatedOffer) (seqId : ℕ) :
    Except Thrown ProviderSubService :=
  match value.subServices with
  | none => .error .typeError
  | some sub => do
    let worker ← optional castObjectId b.workerData
    pure
      { id := env.newId i (k+1)
        seqId
        company := none
        worker
        individual := none
        userType := some workerType
        serviceData := some (serviceData.getD (env.generated i (k+1)))
        subServices := some sub.id
        price := value.offer.price
        category := value.offer.category.filter (· ≠ "")
        creationDate := some env.now
        status := "A"
        createdAt := env.now
        updatedAt := env.now }

def addOfferToWorker (k : ℕ) (value : PopulatedOffer) : Action Unit := do
  let subSeqId ← getSequence "dqw_provider_sub_services"
  let _ ← addSubservices (newWorkerOffer env b i serviceData k value subSeqId)
  pure ()

def readOffersAndCount (countFirst : Bool) : Action (List PopulatedOffer × ℕ) :=
  if countFirst then do
    let serviceCount ← getServicesFromProvider (workerServices b serviceData)
    let servicesData ← getIndividualServicesList (companyOffers serviceData)
    pure (servicesData, serviceCount)
  else do
    let servicesData ← getIndividualServicesList (companyOffers serviceData)
    let serviceCount ← getServicesFromProvider (workerServices b serviceData)
    pure (servicesData, serviceCount)

def addServiceToWorker (servicesData : List PopulatedOffer) (order : List ℕ) : Action Unit := do
  let seqId ← getSequence "dqw_provider_services"
  addServices (newWorkerService env c b i serviceData seqId)
  let _ ← Prog.joinAll order (servicesData.mapIdx (addOfferToWorker env b i serviceData))
  pure ()

def serviceBranchFrom (order : BranchOrder) : Action (Option ObjectId) := do
  let found ← readOffersAndCount b serviceData order.countFirst
  if found.2 = 0 then do
    addServiceToWorker env c b i serviceData found.1 order.offers
    pure serviceData
  else pure serviceData

end Workers

/-- One branch. The lookup of the item is passed as `{ _id : item }` where a `condition` is
expected: it finds the first row of all. -/
def serviceBranch (i : ℕ) (order : BranchOrder) : Action (Option ObjectId) := do
  let currServiceData ← findOneSubservices (.ok fun _ => true)
  match currServiceData with
  | none => throwing .typeError
  | some curr => serviceBranchFrom env c b i curr.serviceData order

def servicesOfWorker (opptServiceID : List (Option ObjectId)) :
    Except Thrown (ProviderService → Bool) :=
  (castForQuery objectIdType b.workerData).map fun p o =>
    decide (o.serviceData ∈ opptServiceID) && p o.worker

def addToWorkerChecks : List (Bool × MessageKey) :=
  [(!truthy b.services, .servicesEmpty),
    (!truthy b.workerData, .workerIdEmpty)]

def addServicesbyCompanyToWorker (order : WorkerOrder) : Action CatalogueResponse :=
  checked (addToWorkerChecks b) <| asVendor c .company fun _ =>
    match b.services with
    | some (.arr items) => do
      let opptServiceID ← Prog.joinAll order.branches
        ((List.range items.length).map fun i => serviceBranch env c b i (order.branch i))
      let list ← listServices (servicesOfWorker b opptServiceID)
      reply .success (some (.services list))
    -- No other value has a `map`.
    | _ => throwing .typeError

end Handlers

section Requests

inductive CatalogueHandler where
  | addServicesbyCompany
  | addServicesbyIndividual
  | addServicesbyCompanyToWorker (order : WorkerOrder)
  | deteleCompanyServicesByID
  | deteleIndividualServicesByID

structure CatalogueRequest where
  handler : CatalogueHandler
  caller : Caller
  body : CatalogueBody := {}
  env : CatalogueEnv

def CatalogueRequest.handle (r : CatalogueRequest) : Action CatalogueResponse :=
  match r.handler with
  | .addServicesbyCompany => DoQwik.addServicesbyCompany r.env r.caller r.body
  | .addServicesbyIndividual => DoQwik.addServicesbyIndividual r.env r.caller r.body
  | .addServicesbyCompanyToWorker order =>
    DoQwik.addServicesbyCompanyToWorker r.env r.caller r.body order
  | .deteleCompanyServicesByID => DoQwik.deteleCompanyServicesByID r.caller r.body
  | .deteleIndividualServicesByID => DoQwik.deteleIndividualServicesByID r.caller r.body

def CatalogueRequest.program (r : CatalogueRequest) : Action CatalogueResponse :=
  r.handle.catchAll catalogueError

def serveCatalogue (s : Db) (r : CatalogueRequest) : Db := (r.program.run exec s).1

def answerCatalogue (s : Db) (r : CatalogueRequest) : CatalogueResponse :=
  match (r.program.run exec s).2 with
  | .ok a => a
  | .error e => catalogueError e

end Requests

end DoQwik
