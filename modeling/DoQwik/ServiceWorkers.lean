import DoQwik.CatalogueRaces

/-! The list of a company's workers for a service. It joins two queries: the first asks for the
rows of the service, the second for the accounts that they name. -/
namespace DoQwik
open JsValues DocStore Interleave

section Model

/-- The paths of a provider that the list selects. -/
structure WorkerView where
  id : ObjectId
  fullName : String
  phone : Option JsNum
  profilePic : Option String
  country : String
  state : String
  city : String
  landMark : String
  postalCode : String
  status : String
deriving DecidableEq

def Provider.workerView (p : Provider) : WorkerView :=
  ⟨p.id, p.fullName, p.phone, p.profilePic, p.country, p.state, p.city, p.landMark, p.postalCode,
    p.status⟩

def providerServicePaths : List String :=
  ["_id", "seq_id", "company", "worker", "workerCompany", "individual", "user_id", "price",
    "user_type", "serviceData", "creationDate", "status", "createdAt", "updatedAt"]

def providerPaths : List String :=
  ["_id", "seq_id", "fullName", "email", "phone", "country", "state", "city", "land_mark",
    "postal_code", "bankAcountNumber", "tinNumber", "companyRegNo", "identificationType",
    "identificationNumber", "userType", "companyData", "companyName", "companyPhone",
    "documentType", "documentNo", "ownerBVN", "gender", "certificate", "profile_pic", "address1",
    "address2", "isVerified", "profileComplete", "creationDate", "creationIp", "updateDate",
    "updateIp", "status", "token", "latitude", "longitude", "device_id", "platform", "workers",
    "createdAt", "updatedAt"]

inductive ServiceWorkersResult where
  | workers (list : List WorkerView)
  | error (e : Thrown)

abbrev ServiceWorkersResponse := Response ServiceWorkersResult

def serviceWorkersError (e : Thrown) : ServiceWorkersResponse :=
  { key := .errorServerError, result := some (.error e) }

variable (c : Caller) (serviceId : Option Json)

/-- The options of the first query. They are the conditions themselves, without the `condition`
that the service takes them from. -/
def serviceRowsOptions : FindOptions ProviderService where
  others :=
    [("serviceData", (castForQuery objectIdType serviceId).map fun p o => p o.serviceData),
      ("workerCompany", .ok fun o => o.workerCompany = some c.userId)]

/-- The options of the second query. A provider has neither of the last two paths; its company
and its type are stored under other names. -/
def workerListOptions (idList : List (Option ObjectId)) : FindOptions Provider where
  condition :=
    [("_id", .ok fun p => idList.contains (some p.id)),
      ("workerCompany", .ok fun _ => false),
      ("user_type", .ok fun _ => false)]

/-- `getData` of the provider service. -/
def getProviders (options : FindOptions Provider) : Action (List WorkerView) := do
  let p ← cast (options.selection providerPaths)
  query fun s => (s.providers.find p).map Provider.workerView

/-- `getServiceWorkerList`. A list of rows is never falsy. -/
def getServiceWorkerList : Action ServiceWorkersResponse :=
  Prog.catchAll serviceWorkersError do
    let workerID ← listServices ((serviceRowsOptions c serviceId).selection providerServicePaths)
    let idList := workerID.map fun item => item.1.worker
    let workerList ← getProviders (workerListOptions idList)
    reply .success (some (.workers workerList))

end Model

section Lists

variable (s : Db) (c : Caller)

/-- The account is the worker of some row. -/
def isListed (p : Provider) : Bool :=
  s.providerServices.docs.any fun o => o.worker = some p.id

/-- The account is the worker of a row of the company for the service. -/
def worksFor (service : ObjectId) (p : Provider) : Bool :=
  s.providerServices.docs.any fun o =>
    o.worker = some p.id && o.workerCompany = some c.userId && o.serviceData = some service

/-- The conditions of the first query are not looked at. -/
theorem selection_serviceRowsOptions (serviceId : Option Json) :
    (serviceRowsOptions c serviceId).selection providerServicePaths = .ok fun _ => true := rfl

/-- Of the second query, only the ids are left. -/
theorem selection_workerListOptions (idList : List (Option ObjectId)) :
    ∃ p, (workerListOptions idList).selection providerPaths = .ok p ∧
      ∀ q : Provider, p q = idList.contains (some q.id) := by
  have hstrict : (workerListOptions idList).condition.strict providerPaths =
      [("_id", .ok fun p => idList.contains (some p.id))] := by
    have hid : "_id" ∈ providerPaths := by decide
    have hcompany : "workerCompany" ∉ providerPaths := by decide
    have htype : "user_type" ∉ providerPaths := by decide
    simp [Conditions.strict, workerListOptions, hid, hcompany, htype]
  refine ⟨fun p => idList.contains (some p.id) && true, ?_, fun q => Bool.and_true _⟩
  rw [FindOptions.selection, hstrict]
  rfl

/-- The answer lists every account that is the worker of any row, whoever asks and for whatever
service. -/
theorem run_getServiceWorkerList (serviceId : Option Json) :
    (getServiceWorkerList c serviceId).run exec s =
      (s, .ok { key := .success
                result := some (.workers ((s.providers.find (isListed s)).map
                  Provider.workerView)) }) := by
  let idList := s.providerServices.docs.map ProviderService.worker
  obtain ⟨p, hp, hselects⟩ := selection_workerListOptions idList
  have hlisted : p = isListed s := by
    funext q
    rw [hselects, Bool.eq_iff_iff]
    simp [idList, isListed]
  have hrows : (listServices (.ok fun _ => true)).run exec s =
      (s, .ok (s.providerServices.docs.map fun o => (o, o.serviceData.bind s.services.get?))) := by
    rw [← List.filter_true s.providerServices.docs]
    rfl
  have hids : (s.providerServices.docs.map fun o : ProviderService =>
      (o, o.serviceData.bind s.services.get?)).map (fun item => item.1.worker) = idList := by
    rw [List.map_map]
    rfl
  have hworkers : (getProviders (workerListOptions idList)).run exec s =
      (s, .ok ((s.providers.find (isListed s)).map Provider.workerView)) := by
    rw [getProviders, hp, hlisted]
    rfl
  unfold getServiceWorkerList
  rw [Prog.run_catchAll, selection_serviceRowsOptions, Prog.run_bind, hrows]
  dsimp only
  rw [hids, Prog.run_bind, hworkers]
  rfl

/-- The request, which names a service, is answered with the accounts that work for the company in
that service, each once. -/
def ListsOwnWorkers (text : String) : Prop :=
  ∃ service list, ObjectId.ofString text = some service ∧
    ((getServiceWorkerList c (some (.str text))).run exec s).2 =
      .ok { key := .success, result := some (.workers list) } ∧
    list.Perm ((s.providers.find (worksFor s c service)).map Provider.workerView)

theorem isListed_of_worksFor {service : ObjectId} {p : Provider}
    (h : worksFor s c service p = true) : isListed s p = true := by
  obtain ⟨o, ho, hrow⟩ := List.any_eq_true.mp h
  rw [Bool.and_eq_true, Bool.and_eq_true] at hrow
  exact List.any_eq_true.mpr ⟨o, ho, hrow.1.1⟩

/-- The list is right exactly when every account that is the worker of some row is the worker of a
row of the company for the service. -/
theorem lists_own_workers_iff {text : String} {service : ObjectId}
    (hservice : ObjectId.ofString text = some service) :
    ListsOwnWorkers s c text ↔
      ∀ p ∈ s.providers.docs, isListed s p = true → worksFor s c service p = true := by
  unfold ListsOwnWorkers
  rw [run_getServiceWorkerList]
  constructor
  · rintro ⟨service', list, hservice', hrun, hperm⟩ p hp hlisted
    rw [hservice, Option.some.injEq] at hservice'
    subst hservice'
    cases hrun
    -- The ids of the accounts are in the list once more.
    have hmem : p.workerView ∈ (s.providers.find (worksFor s c service)).map Provider.workerView :=
      hperm.subset (List.mem_map_of_mem (List.mem_filter.mpr ⟨hp, hlisted⟩))
    obtain ⟨q, hq, hview⟩ := List.mem_map.mp hmem
    obtain ⟨hqmem, hworks⟩ := List.mem_filter.mp hq
    have hid : q.id = p.id := congrArg WorkerView.id hview
    unfold worksFor at hworks ⊢
    rwa [hid] at hworks
  · intro h
    have hsame : s.providers.find (isListed s) = s.providers.find (worksFor s c service) := by
      refine List.filter_congr fun p hp => ?_
      rw [Bool.eq_iff_iff]
      exact ⟨h p hp, isListed_of_worksFor s c⟩
    exact ⟨service, _, hservice, rfl, by rw [hsame]⟩

def sampleWorkerRow (id worker company service : String) : ProviderService :=
  { sampleService with
    id := idOf id
    company := none
    worker := some (idOf worker)
    workerCompany := some (idOf company)
    userType := some workerType
    serviceData := some (idOf service) }

def staffedDb (rows : List ProviderService) (h : (rows.map ProviderService.id).Nodup) : Db :=
  { sampleDb with
    providers := ⟨[sampleProvider "company---01" companyType none,
      sampleProvider "worker----01" workerType (some (idOf "company---01")),
      sampleProvider "company---02" companyType none,
      sampleProvider "worker----02" workerType (some (idOf "company---02"))], by decide +kernel⟩
    providerServices := ⟨rows, h⟩ }

/-- While only the company's worker has a row, the list is right. -/
theorem lists_own_workers_alone :
    ListsOwnWorkers
      (staffedDb [sampleWorkerRow "shelf-----01" "worker----01" "company---01" "service---01"]
        (List.nodup_singleton _)) company "service---01" := by
  have hservice : ObjectId.ofString "service---01" = some (idOf "service---01") := by decide +kernel
  refine (lists_own_workers_iff _ company hservice).mpr ?_
  decide +kernel

/-- The other company's worker is in the list, too. -/
theorem other_worker_listed :
    ¬ ListsOwnWorkers
      (staffedDb [sampleWorkerRow "shelf-----01" "worker----01" "company---01" "service---01",
        sampleWorkerRow "shelf-----02" "worker----02" "company---02" "service---02"]
        (by decide +kernel)) company "service---01" := by
  rintro ⟨service, list, hservice, hrun, hperm⟩
  have hid : service = idOf "service---01" := by
    have htext : ObjectId.ofString "service---01" = some (idOf "service---01") := by decide +kernel
    rw [htext, Option.some.injEq] at hservice
    exact hservice.symm
  rw [run_getServiceWorkerList] at hrun
  cases hrun
  rw [hid] at hperm
  exact absurd hperm.length_eq (by decide +kernel)

end Lists

end DoQwik
