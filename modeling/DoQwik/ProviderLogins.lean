import DoQwik.ProviderAccounts

/-! The routed handlers that log providers in and out, and the requests that open and close the
sessions of users and providers. -/
namespace DoQwik
open JsValues DocStore Interleave

inductive ProviderLoginResult where
  | provider (p : Provider)
  | newUser (phone : Option Json)
  | message (s : String)
  | error (e : Thrown)

abbrev ProviderLoginResponse := Response ProviderLoginResult

def providerLoginError (e : Thrown) : ProviderLoginResponse :=
  { key := .errorServerError, result := some (.error e) }

/-- The condition `{ phone : parseInt(mobile) }`. -/
def providerByParsedPhone (mobile : Option Json) : Except Thrown (Provider → Bool) := do
  let n ← parseIntOf mobile
  let phone ← castNum n
  pure fun p => p.phone = phone

namespace Providers

/-- `getUserLogin` of the provider service: mint a token, put it into the cache, then into the
record. -/
def getUserLogin (env : Env) (condition : Except Thrown (Provider → Bool))
    (deviceId : Option Json) : Action (Option Provider) := do
  let p ← cast condition
  let userData ← query fun s => s.providers.findOne p
  match userData with
  | none => pure none
  | some u => do
    let token := generateProviderToken env u.id
    Prog.perform (DbOp.delProviderToken u.id)
    Prog.perform (DbOp.setProviderToken u.id token)
    let deviceId ← cast (castSet castString (ifTruthy deviceId))
    Prog.perform (DbOp.loginProvider u.id token deviceId env.now)
    query fun s => s.providers.get? u.id

section Handlers

variable (env : Env) (b : UserBody)

/-- The answer to a caller that passed the password check. -/
def sendLogin : Option Provider → Action ProviderLoginResponse
  | some p => pure { key := .success, result := some (.provider p), header := p.token }
  | none => reply .success (some (.newUser b.mobile))

/-- `verify_login_otp` of a provider. Unlike that of a user, the account is looked up by the
number that `parseInt` reads. -/
def verifyLoginOtp : Action ProviderLoginResponse :=
  Prog.catchAll providerLoginError
    (checked (verifyLoginOtpChecks b) do
      let isverify ← isValidUserOtp env b.otp b.mobile
      if isverify then do
        let providerData ← getUserLogin env (providerByParsedPhone b.mobile) b.deviceId
        sendLogin b providerData
      else reply .errorInvalidCredential)

/-- `logout` of a provider, behind the authorization. The cache is that of the providers, but the
service is that of the users. -/
def logout (token : TokenText) : Action ProviderLoginResponse := do
  let user ← authorize env.now token
  match user with
  | none => reply .unauthorized
  | some (userId, _) => Prog.catchAll providerLoginError do
    Prog.perform (DbOp.delProviderToken userId)
    let _ ← Prog.perform (DbOp.updateUser (fun u => u.id = userId)
      { token := some (some (.plain "")) } env.now)
    reply .success (some (.message "User logged out successfully"))

end Handlers

end Providers

section Requests

/-- A request that opens or closes a session. -/
inductive SessionRequest where
  | user (r : UserRequest)
  | registerProvider (files : Option AccountFiles) (body : AccountBody) (env : Env)
  | verifyProviderOtp (body : UserBody) (env : Env)
  | logoutProvider (token : TokenText) (env : Env)

def serveSession (s : Db) : SessionRequest → Db
  | .user r => serveUser s r
  | .registerProvider files b env =>
    (((Providers.register env b files).catchAll accountError).run exec s).1
  | .verifyProviderOtp b env => ((Providers.verifyLoginOtp env b).run exec s).1
  | .logoutProvider token env => ((Providers.logout env token).run exec s).1

end Requests

end DoQwik
