import DoQwik.JobsController
import DoQwik.UserController
import DoQwik.FirstOccurrences

/-! The routed handlers of the users controller for the addresses of a user. An address names its
user, and the user lists its addresses, with a default one among them. -/
namespace DoQwik
open JsValues DocStore Interleave

structure AddressBody where
  country : Option Json := none
  state : Option Json := none
  city : Option Json := none
  address1 : Option Json := none
  address2 : Option Json := none
  landMark : Option Json := none
  postalCode : Option Json := none
  latitude : Option Json := none
  longitude : Option Json := none
  deviceId : Option Json := none
  platform : Option Json := none
  addressId : Option Json := none

inductive AddressResult where
  | address (a : Address)
  | edited (a : Option Address)
  | list (as : List Address)
  | user (u : Option User)
  | message (s : String)
  | error (e : Thrown)

abbrev AddressResponse := Response AddressResult

def addressError (e : Thrown) : AddressResponse :=
  { key := .errorServerError, result := some (.error e) }

section Services

theorem exec_createAddress_none {a : Address} {s : Db} (h : s.addresses.insert a = none) :
    exec (.createAddress a) s = (s, false) := by
  simp only [exec, h]
  rfl

theorem exec_createAddress_some {a : Address} {s : Db} {c : Collection Address.id}
    (h : s.addresses.insert a = some c) :
    exec (.createAddress a) s = ({ s with addresses := c }, true) := by
  simp only [exec, h]
  rfl

def insertAddress (a : Address) : Action Bool := Prog.perform (DbOp.createAddress a)

/-- `UserAddress.create`. -/
def createDataAddress (data : Except Thrown Address) : Action Address := do
  let a ← cast data
  let created ← insertAddress a
  if created then pure a else throwing .duplicateKey

def updateAddressData (condition : Except Thrown (Address → Bool))
    (data : Except Thrown AddressSet) : Action (Option Address) := do
  let p ← cast condition
  let d ← cast data
  Prog.perform (DbOp.updateAddress p d)

def removeAddressById (condition : Except Thrown (Address → Bool)) : Action Unit := do
  let p ← cast condition
  Prog.perform (DbOp.deleteAddress p)

/-- `updateData` of the user service, for one user. -/
def updateUserData (env : Env) (userId : ObjectId) (data : Except Thrown UserSet) :
    Action (Option User) := do
  let d ← cast data
  Prog.perform (DbOp.updateUser (fun u => u.id = userId) d env.now)

/-- `addAddressIDtoUserProfile`: the list is read, extended and written back whole; of equal ids
the first one stays. For a user that is gone the second branch uses `uniqueNewSubId`, which it
does not declare. -/
def addAddressIDtoUserProfile (env : Env) (addressID userID : ObjectId) : Action Unit :=
  Prog.catchAll (fun _ => ()) do
    let userAddress ← query fun s => (s.users.get? userID).map User.addressData
    match userAddress with
    | none => throwing .referenceError
    | some addressList => do
      let _ ← updateUserData env userID
        (.ok { addressData := some (FirstOccurrences.uniques (addressList ++ [addressID])) })
      pure ()

end Services

section Handlers

variable (env : Env) (c : Caller) (b : AddressBody)

/-- An empty city is reported as an empty state. -/
def addressChecks : List (Bool × MessageKey) :=
  [(!truthy b.country, .countryEmpty),
    (!truthy b.state, .stateEmpty),
    (!truthy b.city, .stateEmpty),
    (!truthy b.landMark, .landmarkEmpty),
    (!truthy b.postalCode, .postalcodeEmpty)]

def newAddress (userSeqId : Option ℕ) : Except Thrown Address := do
  let country ← required castTrimmed b.country >>= nonempty
  let state ← required castTrimmed b.state >>= nonempty
  let city ← required castTrimmed b.city >>= nonempty
  let address1 ← optional castTrimmed b.address1
  let address2 ← optional castTrimmed b.address2
  let landMark ← required castTrimmed b.landMark >>= nonempty
  let postalCode ← required castTrimmed b.postalCode >>= nonempty
  let latitude ← optional castNumber (ifTruthy b.latitude)
  let longitude ← optional castNumber (ifTruthy b.longitude)
  let platform ← optional castString (ifTruthy b.platform)
  pure
    { id := env.newId
      userId := some c.userId
      userSeqId
      country
      state
      city := some city
      address1
      address2
      landMark
      postalCode
      creationDate := some env.now
      status := "A"
      latitude
      longitude
      platform }

/-- `address`. The update of the list is not awaited: the answer goes out before its first step,
and does not depend on it. -/
def address : Action AddressResponse :=
  checked (addressChecks b) do
    let userData ← query fun s => s.users.get? c.userId
    match userData with
    | none => reply .usernotFound
    | some u => do
      let data ← createDataAddress (newAddress env c b u.usersId)
      addAddressIDtoUserProfile env data.id u.id
      reply .success (some (.address data))

def addressList : Action AddressResponse := do
  let data ← query fun s => s.addresses.find fun a => a.userId = some c.userId
  reply .success (some (.list data))

/-- An empty state is reported as an empty city, and the city is not checked. -/
def editAddressChecks (addressId : Option String) : List (Bool × MessageKey) :=
  [(!truthy (addressId.map .str), .addressIdEmpty),
    (!truthy b.country, .countryEmpty),
    (!truthy b.state, .cityEmpty),
    (!truthy b.landMark, .landmarkEmpty),
    (!truthy b.postalCode, .postalcodeEmpty)]

def editAddressData : Except Thrown AddressSet := do
  let country ← castSet castTrimmed b.country
  let state ← castSet castTrimmed b.state
  let city ← castSet castTrimmed b.city
  let address1 ← castSet castTrimmed b.address1
  let address2 ← castSet castTrimmed b.address2
  let landMark ← castSet castTrimmed b.landMark
  let postalCode ← castSet castTrimmed b.postalCode
  let latitude ← castSet castNumber (ifTruthy b.latitude)
  let longitude ← castSet castNumber (ifTruthy b.longitude)
  let deviceId ← castSet castString (ifTruthy b.deviceId)
  let platform ← castSet castString (ifTruthy b.platform)
  -- The checked paths are not set to `null`; the city may be.
  pure
    { country := country.join
      state := state.join
      city
      address1
      address2
      landMark := landMark.join
      postalCode := postalCode.join
      creationDate := some (some env.now)
      status := some "A"
      latitude
      longitude
      deviceId
      platform }

/-- `edit_address`. The list that the first query returns is never falsy. -/
def editAddress (addressId : Option String) : Action AddressResponse :=
  checked (editAddressChecks b addressId) do
    let _ ← getAddressDataById (addressOf (addressId.map .str) c.userId)
    let data ← updateAddressData (addressOf (addressId.map .str) c.userId) (editAddressData env b)
    reply .success (some (.edited data))

def removeAddressChecks : List (Bool × MessageKey) := [(!truthy b.addressId, .addressIdEmpty)]

/-- `removeAddress`: the user keeps the id on its list, and as its default. -/
def removeAddress : Action AddressResponse :=
  checked (removeAddressChecks b) do
    removeAddressById (addressOf b.addressId c.userId)
    reply .success (some (.message "Address deleted successfully."))

def addressIdChecks : List (Bool × MessageKey) :=
  [(!truthy b.addressId || !ObjectId.isValid b.addressId, .addressIdEmpty)]

/-- `setDefaultAddress`. The addresses found are a list, which is never falsy: that none was
found is not noticed. -/
def setDefaultAddress : Action AddressResponse :=
  checked (addressIdChecks b) do
    let _ ← getAddressDataById (addressOf b.addressId c.userId)
    let data ← updateUserData env c.userId
      ((castSet castObjectId b.addressId).map fun x => { defaultAddress := x })
    reply .success (some (.user data))

def addressDetailByID : Action AddressResponse :=
  checked (addressIdChecks b) do
    let data ← getAddressDataById (addressOf b.addressId c.userId)
    reply .success (some (.list data))

end Handlers

section Requests

/-- A request to one of the routed handlers. The id of the address to edit is a header. -/
inductive AddressHandler where
  | address
  | addressList
  | editAddress (addressId : Option String)
  | removeAddress
  | setDefaultAddress
  | addressDetailByID

structure AddressRequest where
  handler : AddressHandler
  caller : Caller
  body : AddressBody := {}
  env : Env

def AddressRequest.handle (r : AddressRequest) : Action AddressResponse :=
  match r.handler with
  | .address => DoQwik.address r.env r.caller r.body
  | .addressList => DoQwik.addressList r.caller
  | .editAddress addressId => DoQwik.editAddress r.env r.caller r.body addressId
  | .removeAddress => DoQwik.removeAddress r.caller r.body
  | .setDefaultAddress => DoQwik.setDefaultAddress r.env r.caller r.body
  | .addressDetailByID => DoQwik.addressDetailByID r.caller r.body

def AddressRequest.program (r : AddressRequest) : Action AddressResponse :=
  r.handle.catchAll addressError

def serveAddress (s : Db) (r : AddressRequest) : Db := (r.program.run exec s).1

end Requests

end DoQwik
