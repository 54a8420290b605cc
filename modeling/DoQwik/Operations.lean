import DoQwik.Documents
import DoQwik.Interleave

/-! The atomic operations the handlers issue, and programs over them. Every operation is
one call of the database, of a cache or of the notification service. -/
namespace DoQwik
open JsValues DocStore Interleave

/-- The update `getUserLogin`, `logout` and the address handlers make to a user. -/
structure UserSet where
  token : Option (Option TokenText) := none
  deviceId : Option (Option String) := none
  addressData : Option (List ObjectId) := none
  defaultAddress : Option (Option ObjectId) := none

def UserSet.apply (d : UserSet) (now : ℤ) (u : User) : User :=
  { u with
    token := d.token.getD u.token
    deviceId := d.deviceId.getD u.deviceId
    addressData := d.addressData.getD u.addressData
    defaultAddress := d.defaultAddress.getD u.defaultAddress
    updatedAt := now }

theorem UserSet.apply_id (d : UserSet) (now : ℤ) (u : User) : (d.apply now u).id = u.id := rfl

/-- The update `editWorker` makes to a worker, or `addWorker` to the company. -/
structure ProviderSet where
  fullName : Option String := none
  country : Option String := none
  state : Option String := none
  city : Option String := none
  address1 : Option (Option String) := none
  address2 : Option (Option String) := none
  landMark : Option String := none
  postalCode : Option String := none
  profilePic : Option (Option String) := none
  platform : Option (Option String) := none
  updateDate : Option (Option ℤ) := none
  workers : Option (List ObjectId) := none

def ProviderSet.apply (d : ProviderSet) (now : ℤ) (p : Provider) : Provider :=
  { p with
    fullName := d.fullName.getD p.fullName
    country := d.country.getD p.country
    state := d.state.getD p.state
    city := d.city.getD p.city
    address1 := d.address1.getD p.address1
    address2 := d.address2.getD p.address2
    landMark := d.landMark.getD p.landMark
    postalCode := d.postalCode.getD p.postalCode
    profilePic := d.profilePic.getD p.profilePic
    platform := d.platform.getD p.platform
    updateDate := d.updateDate.getD p.updateDate
    workers := d.workers.getD p.workers
    updatedAt := now }

theorem ProviderSet.apply_id (d : ProviderSet) (now : ℤ) (p : Provider) :
    (d.apply now p).id = p.id := rfl

/-- `$pull` from the list of workers. -/
def pullFrom (sel : ObjectId → Bool) (now : ℤ) (p : Provider) : Provider :=
  { p with workers := p.workers.filter (fun w => !sel w), updatedAt := now }

/-- The update `getUserLogin` makes to a provider. -/
def saveLogin (t : TokenText) (deviceId : Option (Option String)) (now : ℤ) (p : Provider) :
    Provider :=
  { p with token := some t, deviceId := deviceId.getD p.deviceId, updatedAt := now }

/-- The update `edit_address` makes to an address. -/
structure AddressSet where
  country : Option String := none
  state : Option String := none
  city : Option (Option String) := none
  address1 : Option (Option String) := none
  address2 : Option (Option String) := none
  landMark : Option String := none
  postalCode : Option String := none
  creationDate : Option (Option ℤ) := none
  status : Option String := none
  latitude : Option (Option JsNum) := none
  longitude : Option (Option JsNum) := none
  deviceId : Option (Option String) := none
  platform : Option (Option String) := none

def AddressSet.apply (d : AddressSet) (a : Address) : Address :=
  { a with
    country := d.country.getD a.country
    state := d.state.getD a.state
    city := d.city.getD a.city
    address1 := d.address1.getD a.address1
    address2 := d.address2.getD a.address2
    landMark := d.landMark.getD a.landMark
    postalCode := d.postalCode.getD a.postalCode
    creationDate := d.creationDate.getD a.creationDate
    status := d.status.getD a.status
    latitude := d.latitude.getD a.latitude
    longitude := d.longitude.getD a.longitude
    deviceId := d.deviceId.getD a.deviceId
    platform := d.platform.getD a.platform }

theorem AddressSet.apply_id (d : AddressSet) (a : Address) : (d.apply a).id = a.id := rfl

/-- The update that an offer gets which is there already. -/
structure OfferSet where
  price : Option (Option JsNum) := none
  category : Option (Option String) := none

def OfferSet.apply (d : OfferSet) (now : ℤ) (o : ProviderSubService) : ProviderSubService :=
  { o with
    price := d.price.getD o.price
    category := d.category.getD o.category
    updatedAt := now }

theorem OfferSet.apply_id (d : OfferSet) (now : ℤ) (o : ProviderSubService) :
    (d.apply now o).id = o.id := rfl

/-- An atomic operation. A query of any shape is a `read`. -/
inductive DbOp : Type 1 where
  | read {β : Type} (f : Db → β)
  | createJob (j : Job)
  | updateJob (sel : Job → Bool) (data : JobSet) (now : ℤ)
  | createCounter (c : Counter)
  | updateCounter (table : String) (seq encrypted : ℕ)
  | createUser (u : User)
  | updateUser (sel : User → Bool) (data : UserSet) (now : ℤ)
  | createProvider (p : Provider)
  | updateProvider (sel : Provider → Bool) (data : ProviderSet) (now : ℤ)
  | saveProviderToken (id : ObjectId) (t : TokenText) (now : ℤ)
  | loginProvider (id : ObjectId) (t : TokenText) (deviceId : Option (Option String)) (now : ℤ)
  | deleteProvider (sel : Provider → Bool)
  | pullWorkers (company : ObjectId) (sel : ObjectId → Bool) (now : ℤ)
  | createDeleteRecord (r : DeleteRecord)
  | createOtp (r : OtpRecord)
  | removeOtps (sel : OtpRecord → Bool)
  | setUserToken (id : ObjectId) (t : TokenText)
  | delUserToken (id : ObjectId)
  | setProviderToken (id : ObjectId) (t : TokenText)
  | delProviderToken (id : ObjectId)
  | notify (n : Notice)
  | createAddress (a : Address)
  | updateAddress (sel : Address → Bool) (data : AddressSet)
  | deleteAddress (sel : Address → Bool)
  | createProviderService (o : ProviderService)
  | createProviderSubService (o : ProviderSubService)
  | updateProviderSubService (sel : ProviderSubService → Bool) (data : OfferSet) (now : ℤ)
  | deleteProviderSubService (sel : ProviderSubService → Bool)

/-- What an operation returns: a creation whether the key was free, an update the updated
document, if one was found. -/
def Ret : DbOp → Type
  | @DbOp.read β _ => β
  | .createJob _ => Bool
  | .updateJob _ _ _ => Option Job
  | .createCounter _ => Bool
  | .updateCounter _ _ _ => Unit
  | .createUser _ => Bool
  | .updateUser _ _ _ => Option User
  | .createProvider _ => Bool
  | .updateProvider _ _ _ => Option Provider
  | .saveProviderToken _ _ _ => Unit
  | .loginProvider _ _ _ _ => Unit
  | .deleteProvider _ => Unit
  | .pullWorkers _ _ _ => Unit
  | .createDeleteRecord _ => Unit
  | .createOtp _ => Unit
  | .removeOtps _ => Unit
  | .setUserToken _ _ => Unit
  | .delUserToken _ => Unit
  | .setProviderToken _ _ => Unit
  | .delProviderToken _ => Unit
  | .notify _ => Unit
  | .createAddress _ => Bool
  | .updateAddress _ _ => Option Address
  | .deleteAddress _ => Unit
  | .createProviderService _ => Bool
  | .createProviderSubService _ => Bool
  | .updateProviderSubService _ _ _ => Option ProviderSubService
  | .deleteProviderSubService _ => Unit

def exec : (op : DbOp) → Db → Db × Ret op
  | .read f, s => (s, f s)
  | .createJob j, s =>
    match s.jobs.insert j with
    | some c => ({ s with jobs := c }, true)
    | none => (s, false)
  | .updateJob sel d now, s =>
    ({ s with jobs := s.jobs.updateOne sel (d.apply now) (d.apply_id now) },
      (s.jobs.findOne sel).map (d.apply now))
  | .createCounter c, s =>
    match s.counters.insert c with
    | some cs => ({ s with counters := cs }, true)
    | none => (s, false)
  | .updateCounter table seq encrypted, s =>
    let set (c : Counter) : Counter := { c with seq := seq, encrypted := encrypted }
    ({ s with counters := s.counters.updateOne (fun c => c.table = table) set (fun _ => rfl) }, ())
  | .createUser u, s =>
    match s.users.insert u with
    | some us => ({ s with users := us }, true)
    | none => (s, false)
  | .updateUser sel d now, s =>
    ({ s with users := s.users.updateOne sel (d.apply now) (d.apply_id now) },
      (s.users.findOne sel).map (d.apply now))
  | .createProvider p, s =>
    match s.providers.insert p with
    | some ps => ({ s with providers := ps }, true)
    | none => (s, false)
  | .updateProvider sel d now, s =>
    ({ s with providers := s.providers.updateOne sel (d.apply now) (d.apply_id now) },
      (s.providers.findOne sel).map (d.apply now))
  | .saveProviderToken id t now, s =>
    let save (p : Provider) : Provider := { p with token := some t, updatedAt := now }
    ({ s with providers := s.providers.updateOne (fun p => p.id = id) save (fun _ => rfl) }, ())
  | .loginProvider id t deviceId now, s =>
    ({ s with
        providers := s.providers.updateOne (fun p => p.id = id) (saveLogin t deviceId now)
          (fun _ => rfl) }, ())
  | .deleteProvider sel, s => ({ s with providers := s.providers.deleteOne sel }, ())
  | .pullWorkers company sel now, s =>
    ({ s with
        providers := s.providers.updateOne (fun p => p.id = company) (pullFrom sel now)
          (fun _ => rfl) }, ())
  | .createDeleteRecord r, s => ({ s with deleteRecords := s.deleteRecords ++ [r] }, ())
  | .createOtp r, s => ({ s with verifyOtps := s.verifyOtps ++ [r] }, ())
  | .removeOtps sel, s => ({ s with verifyOtps := s.verifyOtps.filter (fun r => !sel r) }, ())
  | .setUserToken id t, s => ({ s with userCache := Function.update s.userCache id (some t) }, ())
  | .delUserToken id, s => ({ s with userCache := Function.update s.userCache id none }, ())
  | .setProviderToken id t, s =>
    ({ s with providerCache := Function.update s.providerCache id (some t) }, ())
  | .delProviderToken id, s =>
    ({ s with providerCache := Function.update s.providerCache id none }, ())
  | .notify n, s => ({ s with notices := s.notices ++ [n] }, ())
  | .createAddress a, s =>
    ({ s with addresses := (s.addresses.insert a).getD s.addresses },
      (s.addresses.insert a).isSome)
  | .updateAddress sel d, s =>
    ({ s with addresses := s.addresses.updateOne sel d.apply d.apply_id },
      (s.addresses.findOne sel).map d.apply)
  | .deleteAddress sel, s => ({ s with addresses := s.addresses.deleteOne sel }, ())
  | .createProviderService o, s =>
    ({ s with providerServices := (s.providerServices.insert o).getD s.providerServices },
      (s.providerServices.insert o).isSome)
  | .createProviderSubService o, s =>
    ({ s with providerSubServices := (s.providerSubServices.insert o).getD s.providerSubServices },
      (s.providerSubServices.insert o).isSome)
  | .updateProviderSubService sel d now, s =>
    ({ s with
        providerSubServices :=
          s.providerSubServices.updateOne sel (d.apply now) (d.apply_id now) },
      (s.providerSubServices.findOne sel).map (d.apply now))
  | .deleteProviderSubService sel, s =>
    ({ s with providerSubServices := s.providerSubServices.deleteOne sel }, ())

/-- A program of the server: a handler or a service function. -/
abbrev Action (α : Type) := Prog DbOp Ret Thrown α

/-- The keys of the response messages. -/
inductive MessageKey where
  | success
  | errorServerError
  | serviceLocationEmpty
  | serviceDateEmpty
  | serviceTimeEmpty
  | serviceTypeEmpty
  | jobDescEmpty
  | providerEmpty
  | platformEmpty
  | ipaddressEmpty
  | serviceLocationNotFound
  | wrongServiceType
  | wrongProviderId
  | paymentTypeEmpty
  | jobidEmpty
  | txnNoEmpty
  | jobNotFound
  | errorWorkerNotFound
  | jobPicEmpty
  | jobAcceptError
  | invalidJobCode
  | rejectReasonEmpty
  | rejectReasonForSuccess
  | rejectReasonForStart
  | jobAlreadyReject
  | jobNotStartError
  | reschduleReasonForSuccess
  | reschduleReasonForStart
  | jobRejected
  | starEmpty
  | jobNotCompleteEoor
  | phoneEmpty
  | otpEmpty
  | errorInvalidCredential
  | requestAlreadySent
  | fullnameEmpty
  | emailEmpty
  | countryEmpty
  | cityEmpty
  | landmarkEmpty
  | postalcodeEmpty
  | documentEmpty
  | errorInvalidEmailaddress
  | unauthorized
  | errorTokenRequired
  | errorDataNotFound
  | workerIdEmpty
  | stateEmpty
  | workeridEmpty
  | profilePicEmpty
  | companyregnoEmpty
  | tinnumberEmpty
  | bankaccountEmpty
  | usertypeEmpty
  | companynameEmpty
  | companyphoneEmpty
  | documenttypeEmpty
  | documentnoEmpty
  | bvnEmpty
  | genderEmpty
  | identificationtypeEmpty
  | identificationnumberEmpty
  | usernotFound
  | addressIdEmpty
  | addressNotFound
  | servicesEmpty
  | subserviceidEmpty
  | priceEmpty
  | invalidUserType
  | errorInvalidMobilenumber
deriving DecidableEq

/-- A response: its message key, its result or error, and the `Authorization` header. -/
structure Response (ρ : Type) where
  key : MessageKey
  result : Option ρ := none
  header : Option TokenText := none

/-- What one request reads off its surroundings: the clock, the id that the next created
document gets, and the regular expression engine of the database. -/
structure Env where
  now : ℤ
  newId : ObjectId
  regex : RegexEngine

def query {β : Type} (f : Db → β) : Action β := Prog.perform (DbOp.read f)

def cast {β : Type} (r : Except Thrown β) : Action β := Prog.ofExcept r

def throwing {β : Type} (e : Thrown) : Action β := Prog.fail e

/-- The key of the first check that fails, in an `if ... else if ...` chain of refusals. -/
def refusal : List (Bool × MessageKey) → Option MessageKey
  | [] => none
  | (bad, key) :: rest => if bad then some key else refusal rest

/-- A refusal is one of the checks. -/
theorem mem_of_refusal {checks : List (Bool × MessageKey)} {key : MessageKey}
    (h : refusal checks = some key) : key ∈ checks.map Prod.snd := by
  induction checks with
  | nil => cases h
  | cons check rest ih =>
    obtain ⟨bad, k⟩ := check
    simp only [refusal] at h
    split at h
    · cases h
      exact List.mem_cons_self
    · exact List.mem_cons_of_mem _ (ih h)

/-- If nothing is refused, no check fails. -/
theorem check_of_refusal {checks : List (Bool × MessageKey)} (h : refusal checks = none)
    {x : Bool × MessageKey} (hmem : x ∈ checks) : x.1 = false := by
  induction checks with
  | nil => cases hmem
  | cons first rest ih =>
    obtain ⟨bad, k⟩ := first
    simp only [refusal] at h
    split at h
    · cases h
    · rename_i hbad
      rcases List.mem_cons.mp hmem with rfl | hmem
      · exact Bool.eq_false_of_not_eq_true hbad
      · exact ih h hmem

def reply {ρ : Type} (key : MessageKey) (result : Option ρ := none) : Action (Response ρ) :=
  pure { key := key, result := result }

/-- Refuse with the first failing check, or go on. -/
def checked {ρ : Type} (checks : List (Bool × MessageKey)) (k : Action (Response ρ)) :
    Action (Response ρ) :=
  match refusal checks with
  | some key => reply key
  | none => k

def firstSequence : ℕ := 100000000000001

def insertCounter (c : Counter) : Action Bool := Prog.perform (DbOp.createCounter c)

/-- `getSequence`: read the counter, then write its successor back. -/
def getSequence (tableName : String) : Action ℕ := do
  let result ← query fun s => s.counters.get? tableName
  match result with
  | some c => do
    let newId := c.seq+1
    Prog.perform (DbOp.updateCounter tableName newId newId)
    pure newId
  | none => do
    let created ← insertCounter ⟨tableName, firstSequence, firstSequence⟩
    if created then pure firstSequence else throwing .duplicateKey

/-- A call that read a number and is about to write its successor `n`. -/
def updating (table : String) (n : ℕ) : Action ℕ :=
  .call (.updateCounter table n n) fun _ => .done n

/-- A call that found no counter and is about to create it. -/
def creating (table : String) : Action ℕ :=
  .call (.createCounter ⟨table, firstSequence, firstSequence⟩) fun created : Bool =>
    if created then .done firstSequence else .fail .duplicateKey

/-- The rest of a call, after its read. -/
def nextNumber (table : String) : Option Counter → Action ℕ
  | some c => updating table (c.seq+1)
  | none => creating table

theorem getSequence_eq (table : String) :
    getSequence table = query (fun s => s.counters.get? table) >>= nextNumber table := rfl

/-- Some document of the collection meets a condition that could be cast. -/
def someMatch {α κ : Type} {key : α → κ} (c : Collection key) : Except Thrown (α → Bool) → Bool
  | .ok p => decide (c.count p ≠ 0)
  | .error _ => false

/-- The first document that a condition selects; a condition that is refused selects none. -/
def selected {α κ : Type} {key : α → κ} (c : Collection key) :
    Except Thrown (α → Bool) → Option α
  | .ok p => c.findOne p
  | .error _ => none

theorem get?_of_selected {α κ : Type} [DecidableEq κ] {key : α → κ} {c : Collection key}
    {condition : Except Thrown (α → Bool)} {a : α} (h : selected c condition = some a) :
    c.get? (key a) = some a := by
  cases condition with
  | error e => cases h
  | ok p => exact Collection.get?_of_findOne h

/-- The entry `...(v ? { key : v } : null)`. -/
def ifTruthy (v : Option Json) : Option Json := if truthy v then v else none

/-- A required path: `undefined` and `null` fail validation. -/
def required {α : Type} (cast : Json → Except Thrown (Option α)) (v : Option Json) :
    Except Thrown α :=
  match castSet cast v with
  | .ok (some (some a)) => .ok a
  | .ok _ => .error .validationError
  | .error _ => .error .validationError

/-- An optional path of a new document. -/
def optional {α : Type} (cast : Json → Except Thrown (Option α)) (v : Option Json) :
    Except Thrown (Option α) :=
  match castSet cast v with
  | .ok a => .ok a.join
  | .error _ => .error .validationError

/-- A required string must not be empty. -/
def nonempty (s : String) : Except Thrown String :=
  if s = "" then .error .validationError else .ok s

@[simp] theorem exec_read {β : Type} (f : Db → β) (s : Db) : exec (.read f) s = (s, f s) := rfl

@[simp] theorem run_query_bind {β γ : Type} (f : Db → β) (k : β → Action γ) (s : Db) :
    (query f >>= k).run exec s = (k (f s)).run exec s := rfl

@[simp] theorem run_cast_ok_bind {β γ : Type} (a : β) (k : β → Action γ) (s : Db) :
    (cast (.ok a) >>= k).run exec s = (k a).run exec s := rfl

@[simp] theorem exec_updateJob_jobs (sel : Job → Bool) (d : JobSet) (now : ℤ) (s : Db) :
    (exec (.updateJob sel d now) s).1.jobs = s.jobs.updateOne sel (d.apply now) (d.apply_id now) :=
  rfl

theorem exec_createJob_some {s : Db} {j : Job} {c : Collection Job.id}
    (h : s.jobs.insert j = some c) : exec (.createJob j) s = ({ s with jobs := c }, true) := by
  simp only [exec, h]
  rfl

theorem exec_createJob_none {s : Db} {j : Job} (h : s.jobs.insert j = none) :
    exec (.createJob j) s = (s, false) := by
  simp only [exec, h]
  rfl

theorem exec_createCounter_some {s : Db} {c : Counter} {cs : Collection Counter.table}
    (h : s.counters.insert c = some cs) :
    exec (.createCounter c) s = ({ s with counters := cs }, true) := by
  simp only [exec, h]
  rfl

theorem exec_createCounter_none {s : Db} {c : Counter} (h : s.counters.insert c = none) :
    exec (.createCounter c) s = (s, false) := by
  simp only [exec, h]
  rfl

/-- Without interruption a number is handed out, and only the counters change. -/
theorem run_getSequence (table : String) (s : Db) :
    ∃ cs n, (getSequence table).run exec s = ({ s with counters := cs }, .ok n) := by
  have hrun : (getSequence table).run exec s =
      (nextNumber table (s.counters.get? table)).run exec s := rfl
  rw [hrun]
  cases hc : s.counters.get? table with
  | some c => exact ⟨_, _, rfl⟩
  | none =>
    let c : Counter := ⟨table, firstSequence, firstSequence⟩
    obtain ⟨cs, hcs⟩ := Collection.exists_insert (a := c) hc
    let rest (created : Bool) : Action ℕ :=
      if created then .done firstSequence else .fail .duplicateKey
    have hcreate : (nextNumber table none).run exec s =
        (rest (exec (.createCounter c) s).2).run exec (exec (.createCounter c) s).1 := rfl
    rw [hcreate, exec_createCounter_some hcs]
    exact ⟨cs, firstSequence, rfl⟩

theorem exec_createUser_some {s : Db} {u : User} {us : Collection User.id}
    (h : s.users.insert u = some us) : exec (.createUser u) s = ({ s with users := us }, true) := by
  simp only [exec, h]
  rfl

theorem exec_createUser_none {s : Db} {u : User} (h : s.users.insert u = none) :
    exec (.createUser u) s = (s, false) := by
  simp only [exec, h]
  rfl

theorem exec_createProvider_some {s : Db} {p : Provider} {ps : Collection Provider.id}
    (h : s.providers.insert p = some ps) :
    exec (.createProvider p) s = ({ s with providers := ps }, true) := by
  simp only [exec, h]
  rfl

theorem exec_createProvider_none {s : Db} {p : Provider} (h : s.providers.insert p = none) :
    exec (.createProvider p) s = (s, false) := by
  simp only [exec, h]
  rfl

section Views

/-! A creation changes at most its own collection. -/

variable {β : Type} {v : Db → β} {s : Db}

theorem exec_createJob_view (j : Job) (h : ∀ js, v { s with jobs := js } = v s) :
    v (exec (.createJob j) s).1 = v s := by
  cases hj : s.jobs.insert j with
  | none => rw [exec_createJob_none hj]
  | some js => rw [exec_createJob_some hj, h]

theorem exec_createCounter_view (c : Counter) (h : ∀ cs, v { s with counters := cs } = v s) :
    v (exec (.createCounter c) s).1 = v s := by
  cases hc : s.counters.insert c with
  | none => rw [exec_createCounter_none hc]
  | some cs => rw [exec_createCounter_some hc, h]

theorem exec_createUser_view (u : User) (h : ∀ us, v { s with users := us } = v s) :
    v (exec (.createUser u) s).1 = v s := by
  cases hu : s.users.insert u with
  | none => rw [exec_createUser_none hu]
  | some us => rw [exec_createUser_some hu, h]

theorem exec_createProvider_view (p : Provider) (h : ∀ ps, v { s with providers := ps } = v s) :
    v (exec (.createProvider p) s).1 = v s := by
  cases hp : s.providers.insert p with
  | none => rw [exec_createProvider_none hp]
  | some ps => rw [exec_createProvider_some hp, h]

end Views

section Keeping

variable {β γ ρ : Type} {v : Db → γ}

theorem keeps_query (f : Db → β) : Prog.Keeps exec v (query f) := fun _ => rfl

theorem keeps_cast (x : Except Thrown β) : Prog.Keeps exec v (cast x) := by
  intro s
  cases x with
  | error e => rfl
  | ok a => rfl

theorem keeps_checked (checks : List (Bool × MessageKey)) {k : Action (Response ρ)}
    (hk : Prog.Keeps exec v k) : Prog.Keeps exec v (checked checks k) := by
  unfold checked
  cases refusal checks with
  | none => exact hk
  | some key => exact fun _ => rfl

/-- A number is taken without touching anything but the counters. -/
theorem keeps_getSequence (hv : ∀ s cs, v { s with counters := cs } = v s) (table : String) :
    Prog.Keeps exec v (getSequence table) := by
  intro s
  obtain ⟨cs, n, hrun⟩ := run_getSequence table s
  rw [hrun]
  exact hv s cs

end Keeping

section TwoRuns

variable {R : Db → Db → Prop} {α β ρ : Type} {V : α → β → Prop}

/-- The same query in two related states. -/
theorem related_query {f : Db → α} {g : Db → β} (h : ∀ s s', R s s' → V (f s) (g s')) :
    Prog.Related exec R V (query f) (query g) :=
  fun s s' hs => ⟨hs, h s s' hs⟩

theorem related_cast (r : Except Thrown α) :
    Prog.Related exec R (fun x y => r = .ok x ∧ x = y) (cast r) (cast r) := by
  intro s s' hs
  cases r with
  | error e => exact ⟨hs, rfl⟩
  | ok x => exact ⟨hs, rfl, rfl⟩

theorem related_perform {op : DbOp} {W : Ret op → Ret op → Prop}
    (h : ∀ s s', R s s' → R (exec op s).1 (exec op s').1 ∧ W (exec op s).2 (exec op s').2) :
    Prog.Related exec R W (Prog.perform op : Action (Ret op)) (Prog.perform op) :=
  h

theorem related_checked {checks : List (Bool × MessageKey)} {W : Response ρ → Response ρ → Prop}
    {p q : Action (Response ρ)} (hkey : ∀ key, W { key := key } { key := key })
    (h : Prog.Related exec R W p q) :
    Prog.Related exec R W (checked checks p) (checked checks q) := by
  unfold checked
  cases refusal checks with
  | none => exact h
  | some key => exact Prog.Related.done (hkey key)

end TwoRuns

section Following

variable {R : Db → Db → Prop} {Φ : Db → DbOp → Prop} {α β ρ : Type} {Q : Db → α → Prop} {s : Db}

/-- A read, then the rest from whatever state it is answered in. -/
theorem follows_query_bind {f : Db → β} {k : β → Action α} (hop : Φ s (.read f))
    (hk : ∀ t, R s t → Prog.Follows exec R Φ Q t (k (f t))) :
    Prog.Follows exec R Φ Q s (query f >>= k) :=
  ⟨hop, hk⟩

theorem follows_cast_bind {x : Except Thrown β} {k : β → Action α}
    (hk : ∀ a, x = .ok a → Prog.Follows exec R Φ Q s (k a)) :
    Prog.Follows exec R Φ Q s (cast x >>= k) := by
  cases x with
  | error e => trivial
  | ok a => exact hk a rfl

theorem follows_checked {W : Db → Response ρ → Prop} {checks : List (Bool × MessageKey)}
    {k : Action (Response ρ)} (hkey : ∀ key, W s { key := key })
    (hk : refusal checks = none → Prog.Follows exec R Φ W s k) :
    Prog.Follows exec R Φ W s (checked checks k) := by
  unfold checked
  cases h : refusal checks with
  | some key => exact hkey key
  | none => exact hk h

def DbOp.counts : DbOp → Bool
  | .read _ => true
  | .createCounter _ => true
  | .updateCounter _ _ _ => true
  | _ => false

/-- A number is handed out: what holds in spite of the others and does not depend on the
counters still holds. -/
theorem follows_getSequence_bind {K : Db → Prop} (hR : ∀ s t, R s t → K s → K t)
    (hcounters : ∀ s cs, K s → K { s with counters := cs })
    (hop : ∀ s op, op.counts = true → K s → Φ s op) (table : String) {k : ℕ → Action α}
    (hk : ∀ t n, K t → Prog.Follows exec R Φ Q t (k n)) (hs : K s) :
    Prog.Follows exec R Φ Q s (getSequence table >>= k) := by
  rw [getSequence_eq]
  change Prog.Follows exec R Φ Q s (query _ >>= fun result => nextNumber table result >>= k)
  refine follows_query_bind (hop s _ rfl hs) fun t ht => ?_
  have hKt := hR s t ht hs
  cases t.counters.get? table with
  | some c => exact ⟨hop t _ rfl hKt, fun t' ht' => hk _ _ (hcounters _ _ (hR t t' ht' hKt))⟩
  | none =>
    refine ⟨hop t _ rfl hKt, fun t' ht' => ?_⟩
    have hKt' := hR t t' ht' hKt
    let c : Counter := ⟨table, firstSequence, firstSequence⟩
    cases hi : t'.counters.insert c with
    | none =>
      rw [exec_createCounter_none hi]
      trivial
    | some cs =>
      rw [exec_createCounter_some hi]
      exact hk _ _ (hcounters _ _ hKt')

end Following

def DbOp.writesUsers : DbOp → Bool
  | .createUser _ => true
  | .updateUser _ _ _ => true
  | _ => false

theorem exec_users_of_not_writesUsers {op : DbOp} (h : op.writesUsers = false) (s : Db) :
    (exec op s).1.users = s.users := by
  cases op with
  | createUser u | updateUser sel d now => cases h
  | createJob j => exact exec_createJob_view j fun _ => rfl
  | createCounter c => exact exec_createCounter_view c fun _ => rfl
  | createProvider p => exact exec_createProvider_view p fun _ => rfl
  | _ => rfl

def DbOp.writesProviders : DbOp → Bool
  | .createProvider _ => true
  | .updateProvider _ _ _ => true
  | .saveProviderToken _ _ _ => true
  | .loginProvider _ _ _ _ => true
  | .deleteProvider _ => true
  | .pullWorkers _ _ _ => true
  | _ => false

theorem exec_providers_of_not_writesProviders {op : DbOp} (h : op.writesProviders = false) (s : Db) :
    (exec op s).1.providers = s.providers := by
  cases op with
  | createProvider p | updateProvider sel d now | saveProviderToken id t now
  | loginProvider id t d now | deleteProvider sel | pullWorkers c sel now => cases h
  | createJob j => exact exec_createJob_view j fun _ => rfl
  | createCounter c => exact exec_createCounter_view c fun _ => rfl
  | createUser u => exact exec_createUser_view u fun _ => rfl
  | _ => rfl

def DbOp.writesOffers : DbOp → Bool
  | .createProviderSubService _ => true
  | .updateProviderSubService _ _ _ => true
  | .deleteProviderSubService _ => true
  | _ => false

theorem exec_offers_of_not_writesOffers {op : DbOp} (h : op.writesOffers = false) (s : Db) :
    (exec op s).1.providerSubServices = s.providerSubServices := by
  cases op with
  | createProviderSubService o | updateProviderSubService sel d now
  | deleteProviderSubService sel => cases h
  | createJob j => exact exec_createJob_view j fun _ => rfl
  | createCounter c => exact exec_createCounter_view c fun _ => rfl
  | createUser u => exact exec_createUser_view u fun _ => rfl
  | createProvider p => exact exec_createProvider_view p fun _ => rfl
  | _ => rfl

def DbOp.addsService : DbOp → Bool
  | .createProviderService _ => true
  | _ => false

theorem exec_services_of_not_addsService {op : DbOp} (h : op.addsService = false) (s : Db) :
    (exec op s).1.providerServices = s.providerServices := by
  cases op with
  | createProviderService o => cases h
  | createJob j => exact exec_createJob_view j fun _ => rfl
  | createCounter c => exact exec_createCounter_view c fun _ => rfl
  | createUser u => exact exec_createUser_view u fun _ => rfl
  | createProvider p => exact exec_createProvider_view p fun _ => rfl
  | _ => rfl

def DbOp.writesAddresses : DbOp → Bool
  | .createAddress _ => true
  | .updateAddress _ _ => true
  | .deleteAddress _ => true
  | _ => false

theorem exec_addresses_of_not_writesAddresses {op : DbOp} (h : op.writesAddresses = false)
    (s : Db) : (exec op s).1.addresses = s.addresses := by
  cases op with
  | createAddress a | updateAddress sel d | deleteAddress sel => cases h
  | createJob j => exact exec_createJob_view j fun _ => rfl
  | createCounter c => exact exec_createCounter_view c fun _ => rfl
  | createUser u => exact exec_createUser_view u fun _ => rfl
  | createProvider p => exact exec_createProvider_view p fun _ => rfl
  | _ => rfl

def DbOp.writesJobs : DbOp → Bool
  | .createJob _ => true
  | .updateJob _ _ _ => true
  | _ => false

/-- All other operations leave the jobs alone. -/
theorem exec_jobs_of_not_writesJobs {op : DbOp} (h : op.writesJobs = false) (s : Db) :
    (exec op s).1.jobs = s.jobs := by
  cases op with
  | createJob j => cases h
  | updateJob sel d now => cases h
  | createCounter c => exact exec_createCounter_view c fun _ => rfl
  | createUser u => exact exec_createUser_view u fun _ => rfl
  | createProvider p => exact exec_createProvider_view p fun _ => rfl
  | _ => rfl

/-- What an operation does to the jobs: nothing, the creation of one, or the update of one. -/
theorem exec_jobs_cases (op : DbOp) (s : Db) :
    (exec op s).1.jobs = s.jobs ∨
      (∃ j, op = .createJob j ∧ s.jobs.insert j = some (exec op s).1.jobs) ∨
      ∃ sel d now, op = .updateJob sel d now := by
  cases hw : op.writesJobs with
  | false => exact Or.inl (exec_jobs_of_not_writesJobs hw s)
  | true =>
    cases op with
    | createJob j =>
      cases hi : s.jobs.insert j with
      | none =>
        rw [exec_createJob_none hi]
        exact Or.inl rfl
      | some c =>
        refine Or.inr (Or.inl ⟨j, rfl, ?_⟩)
        rw [exec_createJob_some hi]
        exact hi
    | updateJob sel d now => exact Or.inr (Or.inr ⟨sel, d, now, rfl⟩)
    | _ => cases hw

end DoQwik
