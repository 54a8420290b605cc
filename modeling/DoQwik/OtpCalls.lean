import DoQwik.Clocks
import DoQwik.ProviderLogins

/-! The calls that save passwords and check them, with a clock that is read where the source reads
it. While the clock stands still they are the handlers that take the time once. -/
namespace DoQwik
open JsValues DocStore Interleave

section Handlers

abbrev TimedAction (α : Type) := Prog (TimedOp DbOp) (TimedOp.Ret Ret) Thrown α

/-- The phone and the time of a password that the operation saves. -/
def savedBy : DbOp → List (Option JsNum × ℤ)
  | .createOtp r => r.createdOn.toList.map fun t => (r.phone, t)
  | _ => []

/-- The database, the clock, and all passwords that were ever saved. -/
abbrev OtpWorld := World Db (Option JsNum × ℤ)

def execOtp : (op : TimedOp DbOp) → OtpWorld → OtpWorld × TimedOp.Ret Ret op :=
  execTimed exec savedBy

/-- What a provider gets to know of the password. -/
structure OtpSent where
  mobile : Option Json
  message : String

namespace Timed

def canOtpGenerated (phone : Option Json) : TimedAction Unit := do
  let p ← (cast (castForQuery numberType phone)).timed
  let record ← (query fun s => latestOtp (s.verifyOtps.filter fun r => p r.phone)).timed
  let now ← readClock
  (checkRetry now record).timed

def saveOtp (phone : Option Json) (code : String) : TimedAction Unit := do
  let now ← readClock
  (DoQwik.saveOtp (clockAt now) phone none code).timed

/-- The part of `isValidUserOtp` behind the lookup. -/
def acceptRecord (condition : OtpRecord → Bool) : Option OtpRecord → TimedAction Bool
  | none => pure false
  | some r => do
    let now ← readClock
    if r.expired now then do
      (Prog.perform (DbOp.removeOtps condition)).timed
      pure true
    else pure true

def isValidUserOtp (regex : RegexEngine) (code phone : Option Json) : TimedAction Bool := do
  let condition ← (cast (otpCondition regex code phone)).timed
  let record ← (query fun s => s.verifyOtps.find? condition).timed
  acceptRecord condition record

def answerLogin (b : UserBody) (smsSent saved : Bool) : Action UserResponse :=
  if saved then
    if smsSent then reply .success (some (.otpSent b.mobile (otpMessage "123456")))
    else throwing .unsettled
  else reply .requestAlreadySent

def login (b : UserBody) (smsSent : Bool) : TimedAction UserResponse :=
  if truthy b.mobile then do
    let saved ← Prog.catchAll (fun _ => false) do
      canOtpGenerated b.mobile
      saveOtp b.mobile "123456"
      pure true
    (answerLogin b smsSent saved).timed
  else (reply .phoneEmpty).timed

/-- The number of a worker belongs to an account that is no worker's. -/
def otherAccount (mobile userType : Option Json) : Action Bool :=
  if Providers.isText workerType userType then do
    let p ← cast (providerByPhone mobile)
    query fun s => (s.providers.find p).head?.any fun q => q.userType ≠ workerType
  else pure false

/-- `login` of a provider, which sends no text message. -/
def providerLogin (mobile userType : Option Json) : TimedAction (Response OtpSent) :=
  if truthy mobile then
    Prog.catchAll (fun _ => { key := .requestAlreadySent }) do
      let refused ← (otherAccount mobile userType).timed
      if refused then (reply .errorInvalidMobilenumber).timed
      else do
        canOtpGenerated mobile
        saveOtp mobile "123456"
        (reply .success (some ⟨mobile, otpMessage "123456"⟩)).timed
  else (reply .phoneEmpty).timed

end Timed

/-- A call, or the clock that moves on in between. -/
inductive OtpCall where
  | login (b : UserBody) (smsSent : Bool)
  | providerLogin (mobile userType : Option Json)
  | isValidUserOtp (regex : RegexEngine) (code phone : Option Json)
  | clock (ticks : List ℕ)

inductive OtpAnswer where
  | login (r : UserResponse)
  | providerLogin (r : Response OtpSent)
  | isValidUserOtp (valid : Bool)
  | clock

def OtpCall.program : OtpCall → TimedAction OtpAnswer
  | .login b smsSent => do
    let r ← Timed.login b smsSent
    pure (.login r)
  | .providerLogin mobile userType => do
    let r ← Timed.providerLogin mobile userType
    pure (.providerLogin r)
  | .isValidUserOtp regex code phone => do
    let valid ← Timed.isValidUserOtp regex code phone
    pure (.isValidUserOtp valid)
  | .clock ticks => ticking .clock ticks

abbrev OtpPool := Pool OtpWorld (TimedOp DbOp) (TimedOp.Ret Ret) Thrown OtpAnswer

def OtpPool.start (s : Db) (now : ℤ) (calls : List OtpCall) : OtpPool :=
  ⟨⟨s, now, []⟩, calls.map OtpCall.program⟩

end Handlers

section StillClock

variable (env : Env)

theorem canOtpGenerated_standsFor (phone : Option Json) :
    StandsFor exec savedBy env.now (Timed.canOtpGenerated phone) (canOtpGenerated env phone) := by
  refine (StandsFor.timed _).bind fun p => (StandsFor.timed _).bind fun record => ?_
  exact StandsFor.readClock (StandsFor.timed _)

theorem saveOtp_standsFor (phone : Option Json) (code : String) :
    StandsFor exec savedBy env.now (Timed.saveOtp phone code) (saveOtp env phone none code) :=
  StandsFor.readClock (StandsFor.timed (saveOtp env phone none code))

theorem isValidUserOtp_standsFor (code phone : Option Json) :
    StandsFor exec savedBy env.now (Timed.isValidUserOtp env.regex code phone)
      (isValidUserOtp env code phone) := by
  refine (StandsFor.timed _).bind fun p => (StandsFor.timed _).bind fun record => ?_
  cases record with
  | none => exact StandsFor.timed (pure false)
  | some r =>
    refine StandsFor.readClock ?_
    dsimp only
    split
    · exact (StandsFor.timed _).bind fun _ => StandsFor.timed (pure true)
    · exact StandsFor.timed (pure true)

/-- While the clock stands still, the login is the one that takes the time once. -/
theorem login_standsFor (b : UserBody) (smsSent : Bool) :
    StandsFor exec savedBy env.now (Timed.login b smsSent) (login env b smsSent) := by
  unfold Timed.login login
  cases ht : truthy b.mobile with
  | false => exact StandsFor.timed (reply .phoneEmpty)
  | true =>
    refine StandsFor.bind (StandsFor.catchAll ?_ _) fun saved => StandsFor.timed _
    refine (canOtpGenerated_standsFor env b.mobile).bind fun _ => ?_
    exact (saveOtp_standsFor env b.mobile "123456").bind fun _ => StandsFor.timed (pure true)

end StillClock

end DoQwik
