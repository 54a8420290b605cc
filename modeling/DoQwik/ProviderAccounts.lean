import DoQwik.ProviderController
import DoQwik.UserController

/-! The routed handlers that create and remove provider accounts: the registration of a
provider, and the workers that a company adds and deletes. -/
namespace DoQwik
open JsValues DocStore Interleave

structure AccountBody where
  fullName : Option Json := none
  email : Option Json := none
  phone : Option Json := none
  country : Option Json := none
  state : Option Json := none
  city : Option Json := none
  address1 : Option Json := none
  address2 : Option Json := none
  landMark : Option Json := none
  postalCode : Option Json := none
  userType : Option Json := none
  companyRegNo : Option Json := none
  tinNumber : Option Json := none
  bankAcountNumber : Option Json := none
  latitude : Option Json := none
  longitude : Option Json := none
  deviceId : Option Json := none
  platform : Option Json := none
  companyName : Option Json := none
  companyPhone : Option Json := none
  documentType : Option Json := none
  documentNo : Option Json := none
  ownerBVN : Option Json := none
  gender : Option Json := none
  identificationType : Option Json := none
  identificationNumber : Option Json := none
  workerId : Option Json := none
  ipAddress : Option Json := none

/-- `req.files` of the registration: the paths of the uploaded files. -/
structure AccountFiles where
  profilePic : Option String := none
  certificate : Option String := none

inductive AccountResult where
  | account (p : Provider)
  | message (s : String)
  | refused (status : ℕ) (s : String)
  | error (e : Thrown)

abbrev AccountResponse := Response AccountResult

def accountError (e : Thrown) : AccountResponse :=
  { key := .errorServerError, result := some (.error e) }

section Services

/-- The condition `{ phone : v }`. -/
def providerByPhone (v : Option Json) : Except Thrown (Provider → Bool) :=
  (castForQuery numberType v).map fun p q => p q.phone

def generateProviderToken (env : Env) (userId : ObjectId) : TokenText :=
  .signed
    { userId := userId
      userType := "PROVIDER"
      issuer := "PROVIDER"
      createdAt := env.now
      expiresAt := env.now/1000+tokenLifetime }

def insertProvider (p : Provider) : Action Bool := Prog.perform (DbOp.createProvider p)

def createDataWithoutToken (data : Except Thrown Provider) : Action Provider := do
  let p ← cast data
  let created ← insertProvider p
  if created then pure p else throwing .duplicateKey

/-- `createData` of the provider service: the new account, with a token in the cache and in
the record. -/
def createProviderData (env : Env) (data : Except Thrown Provider) : Action (Option Provider) := do
  let p ← createDataWithoutToken data
  let token := generateProviderToken env p.id
  Prog.perform (DbOp.delProviderToken p.id)
  Prog.perform (DbOp.setProviderToken p.id token)
  Prog.perform (DbOp.saveProviderToken p.id token env.now)
  query fun s => s.providers.get? p.id

/-- `updateWorkerList`: `$pull` casts the value as a condition on the elements of the list. -/
def updateWorkerList (env : Env) (company : ObjectId) (v : Option Json) : Action Unit := do
  let p ← cast (castForQuery objectIdType v)
  Prog.perform (DbOp.pullWorkers company (fun w => p (some w)) env.now)

def deleteData (condition : Except Thrown (Provider → Bool)) : Action Unit := do
  let p ← cast condition
  Prog.perform (DbOp.deleteProvider p)

end Services

namespace Providers

section Handlers

variable (env : Env) (c : Caller) (b : AccountBody)

/-- `v === s`. -/
def isText (s : String) : Option Json → Bool
  | some (.str t) => t = s
  | _ => false

/-- `v == s` with a string that is no number: an array or an object is compared by its text. -/
def isLooselyText (s : String) : Option Json → Bool
  | some (.str t) => t = s
  | some (.arr xs) => (Json.arr xs).toStr = s
  | some (.obj kvs) => (Json.obj kvs).toStr = s
  | _ => false

/-- `phone+" is already register ..."`. -/
def alreadyRegister (result : String → AccountResult) : Action AccountResponse :=
  match b.phone with
  | none => throwing .typeError
  | some v =>
    if v.unprintable then throwing .typeError
    else reply .success (some (result (v.toStr ++ " is already register with another users.")))

def registerChecks : List (Bool × MessageKey) :=
  [(!truthy b.fullName, .fullnameEmpty),
    (!truthy b.email, .emailEmpty),
    (!truthy b.phone, .phoneEmpty),
    (!truthy b.country, .countryEmpty),
    (!truthy b.state, .stateEmpty),
    (!truthy b.city, .cityEmpty),
    (!truthy b.landMark, .landmarkEmpty),
    (!truthy b.postalCode, .postalcodeEmpty)]

/-- The checks up to the one that compares with `==`. -/
def companyChecks (files : AccountFiles) : List (Bool × MessageKey) :=
  let isCompany := isText companyType b.userType
  [(files.certificate.isNone, .documentEmpty),
    (!truthy b.companyRegNo, .companyregnoEmpty),
    (!truthy b.tinNumber, .tinnumberEmpty),
    (!truthy b.bankAcountNumber, .bankaccountEmpty),
    (!truthy b.userType, .usertypeEmpty),
    (isCompany && !truthy b.companyName, .companynameEmpty),
    (isCompany && !truthy b.companyPhone, .companyphoneEmpty),
    (isCompany && !truthy b.documentType, .documenttypeEmpty)]

def ownerChecks : List (Bool × MessageKey) :=
  [(isLooselyText companyType b.userType && !truthy b.documentNo, .documentnoEmpty),
    (isText companyType b.userType && !truthy b.ownerBVN, .bvnEmpty),
    (!truthy b.gender, .genderEmpty)]

/-- The document that `register` creates. The gender is checked, but not stored. -/
def newProvider (profilePic certificate : String) (seqId : ℕ) : Except Thrown Provider := do
  let fullName ← required castTrimmed b.fullName >>= nonempty
  let email ← required castTrimmed b.email >>= nonempty
  let phone ← optional castNumber b.phone
  let country ← required castTrimmed b.country >>= nonempty
  let state ← required castTrimmed b.state >>= nonempty
  let city ← required castTrimmed b.city >>= nonempty
  let address1 ← optional castString b.address1
  let address2 ← optional castString b.address2
  let landMark ← required castTrimmed b.landMark >>= nonempty
  let postalCode ← required castTrimmed b.postalCode >>= nonempty
  let userType ← required castTrimmed b.userType >>= nonempty
  let companyName ← optional castTrimmed b.companyName
  let companyPhone ← optional castNumber b.companyPhone
  let companyRegNo ← optional castTrimmed b.companyRegNo
  let tinNumber ← optional castTrimmed b.tinNumber
  let bankAcountNumber ← optional castNumber b.bankAcountNumber
  let documentType ← optional castTrimmed b.documentType
  let documentNo ← optional castTrimmed b.documentNo
  let ownerBVN ← optional castTrimmed b.ownerBVN
  let latitude ← optional castNumber (ifTruthy b.latitude)
  let longitude ← optional castNumber (ifTruthy b.longitude)
  let deviceId ← optional castString (ifTruthy b.deviceId)
  let platform ← optional castString (ifTruthy b.platform)
  pure
    { id := env.newId
      seqId
      fullName
      email
      phone
      country
      state
      city
      landMark
      postalCode
      bankAcountNumber
      tinNumber
      companyRegNo
      userType
      companyData := none
      companyName
      companyPhone
      documentType
      documentNo
      ownerBVN
      certificate := some certificate
      address1
      address2
      profilePic := some profilePic
      isVerified := some 1
      profileComplete := some 70
      creationDate := some env.now
      updateDate := none
      status := "A"
      token := none
      latitude
      longitude
      deviceId
      platform
      workers := []
      createdAt := env.now
      updatedAt := env.now }

/-- The end of `register`: the new account, which is read for the mails. -/
def sendAccount : Option Provider → Action AccountResponse
  | none => throwing .typeError
  | some p => reply .success (some (.account p))

def registerWith (profilePic : Option String) (certificate : String) : Action AccountResponse := do
  let p ← cast (providerByPhone b.phone)
  let isUserAvailable ← query fun s => s.providers.count p
  if isUserAvailable = 0 then do
    let seqId ← getSequence "dqw_providers"
    match profilePic with
    | none => throwing .typeError
    | some profilePic => do
      let data ← createProviderData env (newProvider env b profilePic certificate seqId)
      sendAccount data
  else alreadyRegister b (.refused 400)

def register (files : Option AccountFiles) : Action AccountResponse :=
  checked (registerChecks b)
    (match files with
    | none => throwing .typeError
    | some files =>
      checked (companyChecks b files)
        (if b.userType.any Json.unprintable then throwing .typeError
        else checked (ownerChecks b) (registerWith env b files.profilePic (files.certificate.getD ""))))

def addWorkerChecks (profilePic : Option String) : List (Bool × MessageKey) :=
  [(!truthy b.fullName, .fullnameEmpty),
    (!truthy b.email, .emailEmpty),
    (!truthy b.phone, .phoneEmpty),
    (!truthy b.country, .countryEmpty),
    (!truthy b.state, .stateEmpty),
    (!truthy b.city, .cityEmpty),
    (!truthy b.landMark, .landmarkEmpty),
    (!truthy b.postalCode, .postalcodeEmpty),
    (!truthy b.identificationType, .identificationtypeEmpty),
    (!truthy b.identificationNumber, .identificationnumberEmpty),
    (!truthy b.platform, .platformEmpty),
    (profilePic.isNone, .profilePicEmpty)]

def newWorker (profilePic : Option String) (seqId : ℕ) (company : ObjectId) :
    Except Thrown Provider := do
  let fullName ← required castTrimmed b.fullName >>= nonempty
  let email ← required castTrimmed b.email >>= nonempty
  let phone ← optional castNumber b.phone
  let country ← required castTrimmed b.country >>= nonempty
  let state ← required castTrimmed b.state >>= nonempty
  let city ← required castTrimmed b.city >>= nonempty
  let address1 ← optional castString b.address1
  let address2 ← optional castString b.address2
  let landMark ← required castTrimmed b.landMark >>= nonempty
  let postalCode ← required castTrimmed b.postalCode >>= nonempty
  let identificationType ← optional castTrimmed b.identificationType
  let identificationNumber ← optional castTrimmed b.identificationNumber
  let platform ← optional castString b.platform
  pure
    { id := env.newId
      seqId
      fullName
      email
      phone
      country
      state
      city
      landMark
      postalCode
      identificationType
      identificationNumber
      userType := workerType
      companyData := some company
      address1
      address2
      profilePic
      isVerified := some 1
      creationDate := some env.now
      updateDate := none
      status := "A"
      token := none
      latitude := none
      longitude := none
      deviceId := none
      platform
      workers := []
      createdAt := env.now
      updatedAt := env.now }

/-- The list that was read with the company goes back with the new worker at its end. -/
def linkWorker (company worker : Provider) : Action AccountResponse := do
  let _ ← updateProviderData env (.ok fun p => p.id = company.id)
    (.ok { workers := some (company.workers ++ [worker.id]) })
  reply .success (some (.account worker))

def addWorkerTo (profilePic : Option String) (company : Provider) : Action AccountResponse := do
  let p ← cast (providerByPhone b.phone)
  let isUserAvailable ← query fun s => s.providers.count p
  if isUserAvailable = 0 then do
    let seqId ← getSequence "dqw_providers"
    let worker ← createDataWithoutToken (newWorker env b profilePic seqId company.id)
    linkWorker env company worker
  else alreadyRegister b .message

def addWorker (profilePic : Option String) : Action AccountResponse :=
  checked (addWorkerChecks b profilePic) do
    let companyData ← query fun s => s.providers.get? c.userId
    match companyData with
    | none => throwing .typeError
    | some company => addWorkerTo env b profilePic company

def delateWorkerChecks : List (Bool × MessageKey) :=
  [(!truthy b.workerId, .workeridEmpty),
    (!truthy b.platform, .platformEmpty),
    (!truthy b.ipAddress, .ipaddressEmpty)]

/-- The entry of the removed worker. `ipAddress` is no path of its schema, and the platform is
only checked. -/
def newDeleteRecord (seqId : ℕ) (worker : Provider) : Except Thrown DeleteRecord := do
  let latitude ← optional castString (ifTruthy b.latitude)
  let longitude ← optional castString (ifTruthy b.longitude)
  pure
    { seqId
      table := "dqw_providers"
      params := worker
      creationDate := some env.now
      creationBy := some c.userId
      latitude
      longitude }

/-- The part of `delateWorker` for the worker that was found: the record of the removal, the
removal by the id alone, and the list of the company. -/
def removeWorker (worker : Provider) : Action AccountResponse := do
  let seqId ← getSequence "dqw_provider_services"
  let r ← cast (newDeleteRecord env c b seqId worker)
  Prog.perform (DbOp.createDeleteRecord r)
  deleteData (providerById b.workerId)
  updateWorkerList env c.userId b.workerId
  reply .success (some (.message "Worker account terminated successfully."))

def delateWorker : Action AccountResponse :=
  checked (delateWorkerChecks b) do
    let p ← cast (workersOf b.workerId c.userId)
    let workerData ← query fun s => s.providers.find p
    match workerData with
    | [] => reply .success (some (.message " Worker not found."))
    | worker :: _ => removeWorker env c b worker

end Handlers

end Providers

section Requests

inductive AccountHandler where
  | register (files : Option AccountFiles)
  | addWorker (profilePic : Option String)
  | delateWorker

/-- A request that passed the check of the key or the authorization. -/
structure AccountRequest where
  handler : AccountHandler
  caller : Caller
  body : AccountBody := {}
  env : Env

def AccountRequest.handle (r : AccountRequest) : Action AccountResponse :=
  match r.handler with
  | .register files => Providers.register r.env r.body files
  | .addWorker profilePic => Providers.addWorker r.env r.caller r.body profilePic
  | .delateWorker => Providers.delateWorker r.env r.caller r.body

def AccountRequest.program (r : AccountRequest) : Action AccountResponse :=
  r.handle.catchAll accountError

def serveAccount (s : Db) (r : AccountRequest) : Db := (r.program.run exec s).1

abbrev AccountPool := Pool Db DbOp Ret Thrown AccountResponse

def AccountPool.of (s : Db) (rs : List AccountRequest) : AccountPool :=
  ⟨s, rs.map AccountRequest.program⟩

end Requests

end DoQwik
