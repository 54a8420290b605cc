import DoQwik.Otp

/-! The routed authentication handlers of the users controller, with the tokens they hand
out, and the authorization of later requests. -/
namespace DoQwik
open JsValues DocStore Interleave

structure UserBody where
  mobile : Option Json := none
  otp : Option Json := none
  deviceId : Option Json := none
  fullName : Option Json := none
  email : Option Json := none
  phone : Option Json := none
  country : Option Json := none
  state : Option Json := none
  city : Option Json := none
  address1 : Option Json := none
  address2 : Option Json := none
  landMark : Option Json := none
  postalCode : Option Json := none
  latitude : Option Json := none
  longitude : Option Json := none
  platform : Option Json := none
  documentNo : Option Json := none
  documentType : Option Json := none

/-- `req.files`: the paths of the uploaded files. -/
structure UserFiles where
  profilePic : Option String := none
  document : Option String := none

/-- A user with its addresses looked up. -/
structure PopulatedUser where
  user : User
  addressData : List Address
  defaultAddress : Option Address

def populateUser (s : Db) (u : User) : PopulatedUser where
  user := u
  addressData := u.addressData.filterMap s.addresses.get?
  defaultAddress := u.defaultAddress.bind s.addresses.get?

inductive UserResult where
  | user (u : PopulatedUser)
  | newUser (phone : Option Json)
  | otpSent (mobile : Option Json) (message : String)
  | emailOtpSent (id : ObjectId) (email message : String)
  | message (s : String)
  | error (e : Thrown)

abbrev UserResponse := Response UserResult

/-- `expiresIn : "365 days"`, in seconds. -/
def tokenLifetime : ℤ := 31536000

/-- `generateToken` for a user; times of issue and expiry are whole seconds. -/
def generateToken (env : Env) (userId : ObjectId) : TokenText :=
  .signed
    { userId := userId
      userType := "USER"
      issuer := "USER"
      createdAt := env.now
      expiresAt := env.now/1000+tokenLifetime }

/-- `authorize`: the account of a token that verifies and is the one cached for it. Every
exception of the source ends in the same refusal as `none`. -/
def authorize (now : ℤ) : TokenText → Action (Option (ObjectId × String))
  | .plain _ => pure none
  | .signed t =>
    if t.expiresAt ≤ now/1000 then pure none else do
      let userToken ← query fun s =>
        if t.issuer = "PROVIDER" then s.providerCache t.userId else s.userCache t.userId
      if userToken ≠ some (.signed t) then pure none
      -- The administration service is not imported: the lookup throws.
      else if t.userType = "ADMIN" then pure none
      else if t.userType = "USER" then do
        let userData ← query fun s => s.users.get? t.userId
        pure (userData.map fun _ => (t.userId, t.userType))
      else if t.userType = "PROVIDER" then do
        let userData ← query fun s => s.providers.get? t.userId
        pure (userData.map fun _ => (t.userId, t.userType))
      else pure (some (t.userId, t.userType))

section Services

/-- The condition `{ phone : v }`. -/
def userByPhone (v : Option Json) : Except Thrown (User → Bool) :=
  (castForQuery numberType v).map fun p u => p u.phone

/-- The condition `{ email : v }`. -/
def userByEmail (regex : RegexEngine) (v : Option Json) : Except Thrown (User → Bool) :=
  (castForQuery (trimmedType regex) v).map fun p u => p (some u.email)

/-- `getUserLogin`: mint a token, put it into the cache, then into the record. -/
def getUserLogin (env : Env) (condition : Except Thrown (User → Bool)) (deviceId : Option Json) :
    Action (Option PopulatedUser) := do
  let p ← cast condition
  let userData ← query fun s => s.users.findOne p
  match userData with
  | none => pure none
  | some u => do
    let token := generateToken env u.id
    Prog.perform (DbOp.delUserToken u.id)
    Prog.perform (DbOp.setUserToken u.id token)
    let deviceId ← cast (castSet castString (ifTruthy deviceId))
    let _ ← Prog.perform (DbOp.updateUser (fun v => v.id = u.id)
      { token := some (some token), deviceId := deviceId } env.now)
    query fun s => (s.users.get? u.id).map (populateUser s)

def insertUser (u : User) : Action Bool := Prog.perform (DbOp.createUser u)

/-- `createData`: the new user, with a cleared cache entry. -/
def createUserData (env : Env) (data : Except Thrown User) : Action ObjectId := do
  let u ← cast data
  let created ← insertUser u
  if created then do
    Prog.perform (DbOp.delUserToken u.id)
    let _ ← Prog.perform (DbOp.updateUser (fun v => v.id = u.id) {} env.now)
    pure u.id
  else throwing .duplicateKey

/-- `OtpRetry`, one minute. -/
def otpRetry : ℤ := 60000

/-- A descending sort puts a missing date last. -/
def laterThan : Option ℤ → Option ℤ → Bool
  | some a, some b => b < a
  | some _, none => true
  | none, _ => false

/-- `findOne(...).sort({ createdOn : -1 })` on the records that match. -/
def latestOtp (records : List OtpRecord) : Option OtpRecord :=
  records.foldl (fun best r =>
    match best with
    | none => some r
    | some b => if laterThan r.createdOn b.createdOn then some r else some b) none

/-- A record younger than the retry time throws; `moment(undefined)` is the present. -/
def checkRetry (now : ℤ) : Option OtpRecord → Action Unit
  | none => pure ()
  | some r => if r.createdOn.all fun t => now < t+otpRetry then throwing .tooEarly else pure ()

def canOtpGenerated (env : Env) (phone : Option Json) : Action Unit := do
  let p ← cast (castForQuery numberType phone)
  let record ← query fun s => latestOtp (s.verifyOtps.filter fun r => p r.phone)
  checkRetry env.now record

def canUserOtpGenerated (env : Env) (email : String) : Action Unit := do
  let record ← query fun s => latestOtp (s.verifyOtps.filter fun r => r.email = some email)
  checkRetry env.now record

end Services

section Handlers

variable (env : Env) (b : UserBody)

def userError (e : Thrown) : UserResponse :=
  { key := .errorServerError, result := some (.error e) }

def otpMessage (code : String) : String := "Your One Time Password is: " ++ code

/-- `login`. The random code for country 234 is bound to an inner variable, so that the code
is always the same. A text message that fails leaves the promise of `sentLoginOTP` open: the
request is never answered. -/
def login (smsSent : Bool) : Action UserResponse :=
  checked [(!truthy b.mobile, .phoneEmpty)] do
    let saved ← Prog.catchAll (fun _ => false) do
      canOtpGenerated env b.mobile
      saveOtp env b.mobile none "123456"
      pure true
    if saved then
      if smsSent then reply .success (some (.otpSent b.mobile (otpMessage "123456")))
      else throwing .unsettled
    else reply .requestAlreadySent

/-- The answer to a caller that passed the password check. -/
def sendLogin : Option PopulatedUser → Action UserResponse
  | some u => pure { key := .success, result := some (.user u), header := u.user.token }
  | none => reply .success (some (.newUser b.mobile))

def verifyLoginOtpChecks : List (Bool × MessageKey) :=
  [(!truthy b.mobile, .phoneEmpty), (!truthy b.otp, .otpEmpty)]

def verifyLoginOtp : Action UserResponse :=
  Prog.catchAll userError
    (checked (verifyLoginOtpChecks b) do
      let isverify ← isValidUserOtp env b.otp b.mobile
      if isverify then do
        let userData ← getUserLogin env (userByPhone b.mobile) b.deviceId
        sendLogin b userData
      else reply .errorInvalidCredential)

def newUser (profilePic document : String) (seqId : ℕ) : Except Thrown User := do
  let fullName ← required castTrimmed b.fullName >>= nonempty
  let email ← required castTrimmed b.email >>= nonempty
  let phone ← optional castNumber b.phone
  let country ← required castTrimmed b.country >>= nonempty
  let state ← required castTrimmed b.state >>= nonempty
  let city ← required castTrimmed b.city >>= nonempty
  let address1 ← optional castTrimmed b.address1
  let address2 ← optional castTrimmed b.address2
  let landMark ← required castTrimmed b.landMark >>= nonempty
  let postalCode ← required castTrimmed b.postalCode >>= nonempty
  let documentNo ← optional castString b.documentNo
  let documentType ← optional castString b.documentType
  let latitude ← optional castNumber (ifTruthy b.latitude)
  let longitude ← optional castNumber (ifTruthy b.longitude)
  let deviceId ← optional castString (ifTruthy b.deviceId)
  let platform ← optional castString (ifTruthy b.platform)
  pure
    { id := env.newId
      usersId := some seqId
      fullName
      email
      phone
      country
      state
      city
      address1
      address2
      landMark
      postalCode
      addressData := []
      token := none
      profilePic := some profilePic
      document := some document
      documentNo
      documentType
      isVerified := some 1
      creationDate := some env.now
      defaultAddress := none
      status := "A"
      latitude
      longitude
      deviceId
      platform
      createdAt := env.now
      updatedAt := env.now }

/-- The condition `{ _id : id }` with an id read from a document. -/
def userById (id : ObjectId) : Except Thrown (User → Bool) := .ok fun u => u.id = id

/-- The last step of `register`: create the account and log it in. -/
def registerUser (profilePic document : String) (seqId : ℕ) : Action UserResponse := do
  let id ← createUserData env (newUser env b profilePic document seqId)
  let data ← getUserLogin env (userById id) none
  match data with
  | none => throwing .typeError
  | some u => reply .success (some (.user u))

def registerChecks : List (Bool × MessageKey) :=
  [(!truthy b.fullName, .fullnameEmpty),
    (!truthy b.email, .emailEmpty),
    (!truthy b.phone, .phoneEmpty),
    (!truthy b.country, .countryEmpty),
    (!truthy b.state, .cityEmpty),
    (!truthy b.landMark, .landmarkEmpty),
    (!truthy b.postalCode, .postalcodeEmpty)]

/-- `phone+" is already register ..."`. -/
def alreadyRegister : Action UserResponse :=
  match b.phone with
  | none => throwing .typeError
  | some v =>
    if v.unprintable then throwing .typeError
    else reply .success (some (.message (v.toStr ++ " is already register with another users.")))

def register (files : Option UserFiles) : Action UserResponse :=
  Prog.catchAll userError
    (checked (registerChecks b)
      (match files with
      | none => throwing .typeError
      | some ⟨_, none⟩ => reply .documentEmpty
      | some ⟨profilePic, some document⟩ => do
        let p ← cast (userByPhone b.phone)
        let isUserAvailable ← query fun s => s.users.count p
        if isUserAvailable = 0 then do
          let seqId ← getSequence "dqw_users"
          match profilePic with
          | none => throwing .typeError
          | some profilePic => registerUser env b profilePic document seqId
        else alreadyRegister b))

/-- The rest of `forgotPassword`, after the token was set as the header. -/
def sendEmailOtp (u : User) : Action UserResponse := do
  canUserOtpGenerated env u.email
  saveOtp env none (some (.str u.email)) "1111"
  reply .success (some (.emailOtpSent u.id u.email (otpMessage "1111")))

/-- The token comes first. The header that was set stays on the response of the `catch`. -/
def sendForgotToken (u : User) : Action UserResponse := do
  let token := generateToken env u.id
  Prog.perform (DbOp.delUserToken u.id)
  Prog.perform (DbOp.setUserToken u.id token)
  let response ← Prog.catchAll userError (sendEmailOtp env u)
  pure { response with header := some token }

def forgotPassword : Action UserResponse :=
  Prog.catchAll userError do
    let p ← cast (userByEmail env.regex b.email)
    let userData ← query fun s => s.users.findOne p
    match userData with
    | none => reply .errorInvalidEmailaddress
    | some u => sendForgotToken env u

/-- `logout`, behind the authorization. -/
def logout (token : TokenText) : Action UserResponse := do
  let user ← authorize env.now token
  match user with
  | none => reply .unauthorized
  | some (userId, _) => Prog.catchAll userError do
    Prog.perform (DbOp.delUserToken userId)
    let _ ← Prog.perform (DbOp.updateUser (fun u => u.id = userId)
      { token := some (some (.plain "")) } env.now)
    reply .success (some (.message "User logged out successfully"))

end Handlers

section Requests

/-- A request to one of the routed authentication handlers. -/
inductive UserHandler where
  | login (smsSent : Bool)
  | verifyLoginOtp
  | register (files : Option UserFiles)
  | forgotPassword
  | logout (token : TokenText)

structure UserRequest where
  handler : UserHandler
  body : UserBody := {}
  env : Env

def UserRequest.program (r : UserRequest) : Action UserResponse :=
  match r.handler with
  | .login smsSent => DoQwik.login r.env r.body smsSent
  | .verifyLoginOtp => DoQwik.verifyLoginOtp r.env r.body
  | .register files => DoQwik.register r.env r.body files
  | .forgotPassword => DoQwik.forgotPassword r.env r.body
  | .logout token => DoQwik.logout r.env token

def serveUser (s : Db) (r : UserRequest) : Db := (r.program.run exec s).1

def answerUser (s : Db) (r : UserRequest) : Option UserResponse :=
  match (r.program.run exec s).2 with
  | .ok a => some a
  | .error _ => none

end Requests

end DoQwik
