import DoQwik.LoginRaces
import DoQwik.WorkerRemovals

/-! The authorization of a request, with all that it does to the request and its response. Some
of its refusals are exceptions that the `catch` answers: a token that does not verify has no
`data`, and an account that is gone has no `email`. -/
namespace DoQwik
open JsValues DocStore Interleave TokenStore

section Model

/-- A parameter of the query: a text, or the array or object that the parser makes of a repeated
or bracketed one. `short` tells whether its `length` is below one. -/
inductive QueryValue where
  | text (t : TokenText)
  | other (short : Bool)
deriving DecidableEq

structure AuthRequest where
  authorization : Option TokenText := none
  authToken : Option QueryValue := none

def TokenText.isEmpty : TokenText → Bool
  | .plain s => s = ""
  | .signed _ => false

def QueryValue.short : QueryValue → Bool
  | .text t => t.isEmpty
  | .other short => short

/-- `req.get("Authorization") || req.query["authToken"]`. -/
def AuthRequest.token (r : AuthRequest) : Option QueryValue :=
  match r.authorization with
  | some t => if t.isEmpty then r.authToken else some (.text t)
  | none => r.authToken

/-- `verifyAuthToken`, with `none` for `false`: only a text can verify. -/
def verifyAuthToken (now : ℤ) : QueryValue → Option AuthToken
  | .text (.signed t) => if t.expiresAt ≤ now/1000 then none else some t
  | _ => none

/-- `req.user`: the `data` of the token, with an entry of the account. -/
structure SessionUser where
  userId : ObjectId
  userType : String
  createdAt : ℤ
  email : Option String := none
  phone : Option JsNum := none

def AuthToken.data (t : AuthToken) : SessionUser := ⟨t.userId, t.userType, t.createdAt, none, none⟩

/-- What the middleware has done when it is through: the responses that it sent, the user that it
set, and how often it called `next`, which hands over to the router and does not throw. -/
structure Passage where
  responses : List (Response String) := []
  user : Option SessionUser := none
  nextCalls : ℕ := 0

def Passage.unauthorized (error : String) : Passage :=
  { responses := [{ key := .unauthorized, result := some error }] }

def Passage.passed (user : SessionUser) : Passage := { user := some user, nextCalls := 1 }

/-- The part behind the comparison with the cache. -/
def loadUser (t : AuthToken) : Action Passage :=
  -- The administration service is not imported.
  if t.userType = "ADMIN" then throwing .referenceError
  else if t.userType = "USER" then do
    let userData ← query fun s => s.users.get? t.userId
    match userData with
    | none => throwing .typeError
    | some u => pure (.passed { t.data with email := some u.email })
  else if t.userType = "PROVIDER" then do
    let userData ← query fun s => s.providers.get? t.userId
    match userData with
    | none => throwing .typeError
    | some p => pure (.passed { t.data with phone := p.phone })
  else pure (.passed t.data)

/-- The middleware `authorize`. -/
def authCheck (now : ℤ) (r : AuthRequest) : Action Passage :=
  Prog.catchAll (fun _ => .unauthorized "Invalid or Expired Token")
    (match r.token with
    | none => pure (.unauthorized "Auth Token is required")
    | some token =>
      if token.short then pure (.unauthorized "Auth Token is required") else
      match verifyAuthToken now token with
      | none => throwing .typeError
      | some decodedToken => do
        let userToken ← query fun s =>
          if decodedToken.issuer = "PROVIDER" then s.providerCache decodedToken.userId
          else s.userCache decodedToken.userId
        if userToken.map .text ≠ some token then pure (.unauthorized "Invalid or Expired Token")
        else loadUser decodedToken)

def passage (now : ℤ) (r : AuthRequest) (s : Db) : Passage :=
  match ((authCheck now r).run exec s).2 with
  | .ok p => p
  | .error _ => {}

end Model

section Outcome

variable {now : ℤ} {r : AuthRequest} {s : Db} {t : AuthToken}

/-- A response that refuses the request, and nothing else. -/
def Passage.Refuses (p : Passage) : Prop :=
  p.nextCalls = 0 ∧ p.user = none ∧
    ∃ error, p.responses = [{ key := .unauthorized, result := some error }]

theorem refuses_unauthorized (error : String) : (Passage.unauthorized error).Refuses :=
  ⟨rfl, rfl, error, rfl⟩

def cachedFor (t : AuthToken) (s : Db) : Option TokenText :=
  if t.issuer = "PROVIDER" then s.providerCache t.userId else s.userCache t.userId

/-- The outcome for a token that got as far as the accounts. -/
def admission (t : AuthToken) (s : Db) : Option SessionUser :=
  if t.userType = "ADMIN" then none
  else if t.userType = "USER" then
    (s.users.get? t.userId).map fun u => { t.data with email := some u.email }
  else if t.userType = "PROVIDER" then
    (s.providers.get? t.userId).map fun p => { t.data with phone := p.phone }
  else some t.data

/-- The accounts let the token through, or an exception ends it. -/
theorem run_loadUser (t : AuthToken) (s : Db) :
    (∃ user, admission t s = some user ∧ (loadUser t).run exec s = (s, .ok (.passed user))) ∨
      (admission t s = none ∧ ∃ e, (loadUser t).run exec s = (s, .error e)) := by
  unfold loadUser admission
  split
  · exact Or.inr ⟨rfl, _, rfl⟩
  split
  · rw [run_query_bind]
    cases s.users.get? t.userId with
    | none => exact Or.inr ⟨rfl, _, rfl⟩
    | some u => exact Or.inl ⟨_, rfl, rfl⟩
  split
  · rw [run_query_bind]
    cases s.providers.get? t.userId with
    | none => exact Or.inr ⟨rfl, _, rfl⟩
    | some p => exact Or.inl ⟨_, rfl, rfl⟩
  · exact Or.inl ⟨_, rfl, rfl⟩

def admitted (now : ℤ) (r : AuthRequest) (s : Db) : Option SessionUser :=
  match r.token.bind (verifyAuthToken now) with
  | none => none
  | some t => if cachedFor t s = some (.signed t) then admission t s else none

theorem verifyAuthToken_eq_some {v : QueryValue} :
    verifyAuthToken now v = some t ↔ v = .text (.signed t) ∧ now/1000 < t.expiresAt := by
  cases v with
  | other short => simp [verifyAuthToken]
  | text token =>
    cases token with
    | plain text => simp [verifyAuthToken]
    | signed t' =>
      simp only [verifyAuthToken]
      split
      · rename_i hexp
        refine iff_of_false (by simp) ?_
        rintro ⟨h, hlive⟩
        cases h
        omega
      · rename_i hlive
        simp only [Option.some.injEq, QueryValue.text.injEq, TokenText.signed.injEq]
        constructor
        · rintro rfl
          exact ⟨rfl, by omega⟩
        · exact fun h => h.1

theorem verifyAuthToken_of_short {v : QueryValue} (h : v.short = true) :
    verifyAuthToken now v = none := by
  cases v with
  | other short => rfl
  | text token =>
    cases token with
    | plain text => rfl
    | signed t => cases h

/-- A token that verifies is compared with the cache, and then looked up. -/
theorem run_authCheck_verified {v : QueryValue} (htoken : r.token = some v)
    (hv : verifyAuthToken now v = some t) :
    (authCheck now r).run exec s =
      (Prog.catchAll (fun _ => Passage.unauthorized "Invalid or Expired Token")
        (if cachedFor t s ≠ some (.signed t)
          then pure (.unauthorized "Invalid or Expired Token") else loadUser t)).run exec s := by
  have hshort : v.short = false := by
    cases hs : v.short with
    | false => rfl
    | true =>
      rw [verifyAuthToken_of_short hs] at hv
      cases hv
  have hcompare : ((cachedFor t s).map QueryValue.text ≠ some v) ↔
      cachedFor t s ≠ some (.signed t) := by
    rw [(verifyAuthToken_eq_some.mp hv).1]
    cases cachedFor t s with
    | none => simp
    | some x => simp
  simp only [← hcompare, authCheck, htoken, hshort, hv, Bool.false_eq_true, if_false]
  rfl

/-- The middleware passes the request on with the user that was admitted, or it refuses it. It
writes nothing. -/
theorem run_authCheck (now : ℤ) (r : AuthRequest) (s : Db) :
    (∃ user, admitted now r s = some user ∧
        (authCheck now r).run exec s = (s, .ok (.passed user))) ∨
      (admitted now r s = none ∧
        ∃ error, (authCheck now r).run exec s = (s, .ok (.unauthorized error))) := by
  cases htoken : r.token with
  | none =>
    refine Or.inr ⟨by simp [admitted, htoken], "Auth Token is required", ?_⟩
    simp only [authCheck, htoken]
    rfl
  | some v =>
    cases hv : verifyAuthToken now v with
    | none =>
      refine Or.inr ⟨by simp [admitted, htoken, hv], ?_⟩
      cases hshort : v.short with
      | true =>
        refine ⟨"Auth Token is required", ?_⟩
        simp only [authCheck, htoken, hshort, if_true]
        rfl
      | false =>
        refine ⟨"Invalid or Expired Token", ?_⟩
        simp only [authCheck, htoken, hshort, hv, Bool.false_eq_true, if_false]
        rfl
    | some t =>
      rw [run_authCheck_verified htoken hv]
      by_cases hcache : cachedFor t s = some (.signed t)
      · rw [if_neg (not_not.mpr hcache), Prog.run_catchAll]
        rcases run_loadUser t s with ⟨user, huser, hrun⟩ | ⟨hnone, e, hrun⟩
        · rw [hrun]
          exact Or.inl ⟨user, by simp [admitted, htoken, hv, hcache, huser], rfl⟩
        · rw [hrun]
          exact Or.inr ⟨by simp [admitted, htoken, hv, hcache, hnone], _, rfl⟩
      · rw [if_pos hcache]
        exact Or.inr ⟨by simp [admitted, htoken, hv, hcache], _, rfl⟩

theorem passage_cases (now : ℤ) (r : AuthRequest) (s : Db) :
    (∃ user, admitted now r s = some user ∧ passage now r s = .passed user) ∨
      (admitted now r s = none ∧ (passage now r s).Refuses) := by
  unfold passage
  rcases run_authCheck now r s with ⟨user, huser, hrun⟩ | ⟨hnone, error, hrun⟩
  · rw [hrun]
    exact Or.inl ⟨user, huser, rfl⟩
  · rw [hrun]
    exact Or.inr ⟨hnone, refuses_unauthorized error⟩

/-- `authorize` returns the account of the user that is admitted. -/
theorem authorized_eq_admitted (now : ℤ) (token : TokenText) (s : Db) :
    authorized now token s =
      (admitted now { authorization := some token } s).map fun user =>
        (user.userId, user.userType) := by
  cases token with
  | plain text =>
    have htoken : (AuthRequest.token { authorization := some (.plain text) }).bind
        (verifyAuthToken now) = none := by
      simp only [AuthRequest.token]
      split
      · rfl
      · rfl
    simp only [admitted, htoken]
    rfl
  | signed t =>
    have htoken : AuthRequest.token { authorization := some (.signed t) } =
        some (.text (.signed t)) := rfl
    simp only [admitted, htoken, Option.bind_some, verifyAuthToken, authorized, authorize]
    by_cases hexp : t.expiresAt ≤ now/1000
    · simp only [hexp, if_true]
      rfl
    simp only [hexp, if_false, run_query_bind]
    rw [← cachedFor]
    by_cases hcached : cachedFor t s = some (.signed t)
    · rw [if_pos hcached, if_neg (not_not.mpr hcached)]
      unfold admission
      by_cases hadmin : t.userType = "ADMIN"
      · rw [if_pos hadmin, if_pos hadmin]
        rfl
      rw [if_neg hadmin, if_neg hadmin]
      by_cases huser : t.userType = "USER"
      · rw [if_pos huser, if_pos huser, run_query_bind, Option.map_map]
        rfl
      rw [if_neg huser, if_neg huser]
      by_cases hprovider : t.userType = "PROVIDER"
      · rw [if_pos hprovider, if_pos hprovider, run_query_bind, Option.map_map]
        rfl
      · rw [if_neg hprovider, if_neg hprovider]
        rfl
    · rw [if_neg hcached, if_pos hcached]
      rfl

end Outcome

section Minting

/-- A token that the operation puts into a cache was minted for the account. -/
def DbOp.mints : DbOp → Prop
  | .setUserToken id t => Minted (.user id) t
  | .setProviderToken id t => Minted (.provider id) t
  | _ => True

/-- And with the clock of this request. -/
def DbOp.mintsAt (env : Env) : DbOp → Prop
  | .setUserToken id t => t = generateToken env id
  | .setProviderToken id t => t = generateProviderToken env id
  | _ => True

theorem mints_of_mintsAt {env : Env} {op : DbOp} (h : op.mintsAt env) : op.mints := by
  cases op with
  | setUserToken id t => exact ⟨env, h⟩
  | setProviderToken id t => exact ⟨env, h⟩
  | _ => trivial

/-- The states that operations lead to from empty caches, if the caches only ever get tokens that
were minted for the account. Accounts come and go in any way. -/
inductive Reachable : Db → Prop where
  | start {s : Db} (h : ∀ k, (tokenStores s).cache k = none) : Reachable s
  | step {s : Db} {op : DbOp} (hs : Reachable s) (hop : op.mints) : Reachable (exec op s).1

def DbOp.writesCaches : DbOp → Bool
  | .setUserToken _ _ => true
  | .delUserToken _ => true
  | .setProviderToken _ _ => true
  | .delProviderToken _ => true
  | _ => false

theorem exec_caches_of_not_writesCaches {op : DbOp} (h : op.writesCaches = false) (s : Db) :
    (tokenStores (exec op s).1).cache = (tokenStores s).cache := by
  cases op with
  | setUserToken id t | delUserToken id | setProviderToken id t | delProviderToken id => cases h
  | createJob j => exact exec_createJob_view (v := fun s => (tokenStores s).cache) j fun _ => rfl
  | createCounter c =>
    exact exec_createCounter_view (v := fun s => (tokenStores s).cache) c fun _ => rfl
  | createUser u => exact exec_createUser_view (v := fun s => (tokenStores s).cache) u fun _ => rfl
  | createProvider p =>
    exact exec_createProvider_view (v := fun s => (tokenStores s).cache) p fun _ => rfl
  | _ => rfl

def CachesMinted (s : Db) : Prop := ∀ k t, (tokenStores s).cache k = some t → Minted k t

theorem minted_of_cacheAs {s : Stores AccountKey TokenText} {k : AccountKey}
    {tok : Option TokenText} (hs : ∀ k t, s.cache k = some t → Minted k t)
    (htok : ∀ t, tok = some t → Minted k t) :
    ∀ j t, (s.cacheAs k tok).cache j = some t → Minted j t := by
  intro j t ht
  by_cases hj : j = k
  · subst hj
    rw [Stores.cache_cacheAs_self] at ht
    exact htok t ht
  · rw [Stores.cache_cacheAs_of_ne hj] at ht
    exact hs j t ht

theorem CachesMinted.exec {s : Db} (hs : CachesMinted s) {op : DbOp} (hop : op.mints) :
    CachesMinted (exec op s).1 := by
  unfold CachesMinted
  cases hw : op.writesCaches with
  | false =>
    rw [exec_caches_of_not_writesCaches hw]
    exact hs
  | true =>
    cases op with
    | setUserToken id t =>
      rw [stores_setUserToken]
      exact minted_of_cacheAs hs fun t' ht => Option.some.inj ht ▸ hop
    | delUserToken id =>
      rw [stores_delUserToken]
      exact minted_of_cacheAs hs fun t' ht => by cases ht
    | setProviderToken id t =>
      rw [stores_setProviderToken]
      exact minted_of_cacheAs hs fun t' ht => Option.some.inj ht ▸ hop
    | delProviderToken id =>
      rw [stores_delProviderToken]
      exact minted_of_cacheAs hs fun t' ht => by cases ht
    | _ => cases hw

theorem Reachable.minted {s : Db} (h : Reachable s) : CachesMinted s := by
  induction h with
  | start h =>
    intro k t ht
    rw [h k] at ht
    cases ht
  | step hs hop ih => exact ih.exec hop

end Minting

section Programs

variable {α β : Type}

/-- The program puts only tokens into the caches that were minted for the account. -/
abbrev Minting (s : Db) (p : Action α) : Prop := Obeys (fun _ op => op.mints) s p

abbrev MintingAt (env : Env) (s : Db) (p : Action α) : Prop :=
  Obeys (fun _ op => op.mintsAt env) s p

section Binds

variable {env : Env}

theorem MintingAt.minting {s : Db} {p : Action α} (h : MintingAt env s p) : Minting s p := by
  induction p generalizing s with
  | done a => trivial
  | fail e => trivial
  | call op k ih => exact ⟨mints_of_mintsAt h.1, fun t ht => ih _ (h.2 t ht)⟩

theorem MintingAt.bind {s : Db} {p : Action β} {f : β → Action α} (hp : MintingAt env s p)
    (hf : ∀ t a, MintingAt env t (f a)) : MintingAt env s (p >>= f) :=
  Prog.Follows.bind (hp.mono fun t a _ => hf t a)

theorem minting_query_bind {f : Db → β} {k : β → Action α} (hk : ∀ t a, MintingAt env t (k a))
    (s : Db) : MintingAt env s (query f >>= k) :=
  follows_query_bind trivial fun t _ => hk t (f t)

end Binds

variable (env : Env)

theorem accountRule_mints : AccountRule fun _ op => op.mintsAt env where
  counts _ op hop := by
    cases op with
    | read f | createCounter c | updateCounter table m n => trivial
    | _ => cases hop
  updateProvider _ _ _ _ := trivial

theorem opRule_mints (r : JobRequest) : OpRule (fun _ op => op.mintsAt env) r := by
  constructor <;> intros <;> trivial

section Users

theorem minting_getUserLogin (condition : Except Thrown (User → Bool)) (deviceId : Option Json)
    (s : Db) : MintingAt env s (getUserLogin env condition deviceId) := by
  refine follows_cast_bind fun p _ => follows_query_bind trivial fun t _ => ?_
  cases t.users.findOne p with
  | none => trivial
  | some u =>
    refine ⟨trivial, fun _ _ => ⟨rfl, fun _ _ => ?_⟩⟩
    exact follows_cast_bind fun _ _ => ⟨trivial, fun _ _ => ⟨trivial, fun _ _ => trivial⟩⟩

theorem minting_createUserData (data : Except Thrown User) (s : Db) :
    MintingAt env s (createUserData env data) := by
  refine follows_cast_bind fun u _ => ⟨trivial, fun t _ => ?_⟩
  cases hi : t.users.insert u with
  | none =>
    rw [exec_createUser_none hi]
    trivial
  | some us =>
    rw [exec_createUser_some hi]
    exact ⟨trivial, fun _ _ => ⟨trivial, fun _ _ => trivial⟩⟩

theorem minting_saveOtp (phone email : Option Json) (code : String) (s : Db) :
    MintingAt env s (saveOtp env phone email code) :=
  follows_cast_bind fun _ _ => follows_cast_bind fun _ _ => ⟨trivial, fun _ _ => trivial⟩

theorem minting_checkRetry (now : ℤ) (record : Option OtpRecord) (s : Db) :
    MintingAt env s (checkRetry now record) := by
  unfold checkRetry
  cases record with
  | none => trivial
  | some r =>
    dsimp only
    split
    · trivial
    · trivial

theorem minting_isValidUserOtp (code phone : Option Json) (s : Db) :
    MintingAt env s (isValidUserOtp env code phone) := by
  refine follows_cast_bind fun p _ => follows_query_bind trivial fun t _ => ?_
  cases t.verifyOtps.find? p with
  | none => trivial
  | some r =>
    dsimp only
    split
    · exact ⟨trivial, fun _ _ => trivial⟩
    · trivial

theorem minting_authorize (now : ℤ) (token : TokenText) (s : Db) :
    MintingAt env s (authorize now token) := by
  unfold authorize
  cases token with
  | plain text => trivial
  | signed t =>
    dsimp only
    split
    · trivial
    refine minting_query_bind (fun s' userToken => ?_) s
    split
    · trivial
    split
    · trivial
    split
    · refine minting_query_bind (fun _ _ => ?_) s'
      trivial
    split
    · refine minting_query_bind (fun _ _ => ?_) s'
      trivial
    · trivial

variable (b : UserBody)

/-- The part of `login` that saves the password. -/
theorem minting_saveLoginOtp (code : String) (s : Db) :
    MintingAt env s (Prog.catchAll (fun _ => false) do
      canOtpGenerated env b.mobile
      saveOtp env b.mobile none code
      pure true) := by
  refine Prog.Follows.catchAll (fun _ _ => trivial) (MintingAt.bind ?_ fun t _ => ?_)
  · exact follows_cast_bind fun p _ => follows_query_bind trivial fun t _ =>
      minting_checkRetry env env.now _ t
  · exact MintingAt.bind (minting_saveOtp env _ _ _ t) fun _ _ => trivial

theorem minting_login (smsSent : Bool) (s : Db) : MintingAt env s (login env b smsSent) := by
  refine follows_checked (fun _ => trivial) fun _ => ?_
  refine MintingAt.bind (minting_saveLoginOtp env b _ s) fun t saved => ?_
  split
  · split
    · trivial
    · trivial
  · trivial

theorem minting_verifyLoginOtp (s : Db) : MintingAt env s (verifyLoginOtp env b) := by
  refine Prog.Follows.catchAll (fun _ _ => trivial) (follows_checked (fun _ => trivial) fun _ => ?_)
  refine MintingAt.bind (minting_isValidUserOtp env _ _ s) fun t isverify => ?_
  split
  · refine MintingAt.bind (minting_getUserLogin env _ _ t) fun t' data => ?_
    cases data with
    | none => trivial
    | some u => trivial
  · trivial

theorem minting_register (files : Option UserFiles) (s : Db) :
    MintingAt env s (register env b files) := by
  refine Prog.Follows.catchAll (fun _ _ => trivial) (follows_checked (fun _ => trivial) fun _ => ?_)
  rcases files with _ | ⟨profilePic, _ | document⟩
  · trivial
  · trivial
  refine follows_cast_bind fun p _ => follows_query_bind trivial fun t _ => ?_
  split
  · refine obeys_numbered (accountRule_mints env) _ (fun t' n => ?_) t
    rcases profilePic with _ | profilePic
    · trivial
    · refine MintingAt.bind (minting_createUserData env _ t') fun t'' id => ?_
      refine MintingAt.bind (minting_getUserLogin env _ _ t'') fun _ data => ?_
      cases data with
      | none => trivial
      | some u => trivial
  · unfold alreadyRegister
    rcases b.phone with _ | v
    · trivial
    · dsimp only
      split
      · trivial
      · trivial

theorem minting_forgotPassword (s : Db) : MintingAt env s (forgotPassword env b) := by
  refine Prog.Follows.catchAll (fun _ _ => trivial) (follows_cast_bind fun p _ => ?_)
  refine follows_query_bind trivial fun t _ => ?_
  cases t.users.findOne p with
  | none => trivial
  | some u =>
    have hsend (t : Db) : MintingAt env t (Prog.catchAll userError (sendEmailOtp env u)) := by
      refine Prog.Follows.catchAll (fun _ _ => trivial) (MintingAt.bind ?_ fun t' _ => ?_)
      · exact minting_query_bind (fun t' record => minting_checkRetry env env.now record t') t
      · exact MintingAt.bind (minting_saveOtp env _ _ _ t') fun _ _ => trivial
    exact ⟨trivial, fun _ _ => ⟨rfl, fun _ _ => (hsend _).bind fun _ _ => trivial⟩⟩

theorem minting_user (r : UserRequest) (s : Db) : MintingAt r.env s r.program := by
  obtain ⟨handler, b, env⟩ := r
  cases handler with
  | login smsSent => exact minting_login env b smsSent s
  | verifyLoginOtp => exact minting_verifyLoginOtp env b s
  | register files => exact minting_register env b files s
  | forgotPassword => exact minting_forgotPassword env b s
  | logout token =>
    refine MintingAt.bind (minting_authorize env env.now token s) fun t user => ?_
    cases user with
    | none => trivial
    | some user => exact ⟨trivial, fun _ _ => ⟨trivial, fun _ _ => trivial⟩⟩

end Users

section Accounts

theorem minting_registerProvider (b : AccountBody) (files : Option AccountFiles) (s : Db) :
    MintingAt env s (Providers.register env b files) :=
  obeys_register
    { toAccountRule := (accountRule_mints env)
      create := fun _ _ _ _ _ _ _ => trivial
      clear := fun _ _ => trivial
      cache := fun _ _ => rfl
      record := fun _ _ _ _ => trivial } files s

theorem minting_addWorker (c : Caller) (b : AccountBody) (profilePic : Option String) (s : Db) :
    MintingAt env s (Providers.addWorker env c b profilePic) := by
  refine follows_checked (fun _ => trivial) fun _ => follows_query_bind trivial fun t _ => ?_
  cases t.providers.get? c.userId with
  | none => trivial
  | some company =>
    refine follows_cast_bind fun p _ => follows_query_bind trivial fun t' _ => ?_
    split
    · refine obeys_numbered (accountRule_mints env) _ (fun t'' n => ?_) t'
      refine obeys_createDataWithoutToken (fun _ _ _ => trivial) (fun _ worker => ?_) t''
      refine obeys_updateProviderData (accountRule_mints env) env _ _ (fun _ _ => ?_) _
      trivial
    · exact obeys_alreadyRegister b _ t'

theorem minting_delateWorker (c : Caller) (b : AccountBody) (s : Db) :
    MintingAt env s (Providers.delateWorker env c b) := by
  refine follows_checked (fun _ => trivial) fun _ => follows_cast_bind fun p _ => ?_
  refine follows_query_bind trivial fun t _ => ?_
  have hdelete (t : Db) : MintingAt env t (deleteData (providerById b.workerId)) :=
    follows_cast_bind fun _ _ => ⟨trivial, fun _ _ => trivial⟩
  have hlist (t : Db) : MintingAt env t (updateWorkerList env c.userId b.workerId) :=
    follows_cast_bind fun _ _ => ⟨trivial, fun _ _ => trivial⟩
  cases t.providers.find p with
  | nil => trivial
  | cons worker rest =>
    refine obeys_numbered (accountRule_mints env) _ (fun t' n => ?_) t
    refine follows_cast_bind fun r _ => ⟨trivial, fun t'' _ => ?_⟩
    exact (hdelete _).bind fun _ _ => (hlist _).bind fun _ _ => trivial

theorem minting_verifyProviderOtp (b : UserBody) (s : Db) :
    MintingAt env s (Providers.verifyLoginOtp env b) := by
  refine Prog.Follows.catchAll (fun _ _ => trivial) (follows_checked (fun _ => trivial) fun _ => ?_)
  refine MintingAt.bind (minting_isValidUserOtp env _ _ s) fun t isverify => ?_
  split
  · refine MintingAt.bind ?_ fun _ data => ?_
    · refine follows_cast_bind fun p _ => follows_query_bind trivial fun t' _ => ?_
      cases t'.providers.findOne p with
      | none => trivial
      | some u =>
        refine ⟨trivial, fun _ _ => ⟨rfl, fun _ _ => ?_⟩⟩
        exact follows_cast_bind fun _ _ => ⟨trivial, fun _ _ => ⟨trivial, fun _ _ => trivial⟩⟩
    · cases data with
      | none => trivial
      | some p => trivial
  · trivial

end Accounts

end Programs

section Runs

/-- A request that has to do with sessions, accounts or jobs. -/
inductive SiteCall where
  | session (r : SessionRequest)
  | staff (call : StaffCall)

def SiteCall.program : SiteCall → Action Unit
  | .session (.user r) => r.program >>= fun _ => pure ()
  | .session (.registerProvider files b env) =>
    (Providers.register env b files).catchAll accountError >>= fun _ => pure ()
  | .session (.verifyProviderOtp b env) => Providers.verifyLoginOtp env b >>= fun _ => pure ()
  | .session (.logoutProvider token env) => Providers.logout env token >>= fun _ => pure ()
  | .staff call => call.program

def SiteCall.env : SiteCall → Option Env
  | .session (.user r) => some r.env
  | .session (.registerProvider _ _ env) => some env
  | .session (.verifyProviderOtp _ env) => some env
  | .session (.logoutProvider _ env) => some env
  | .staff (.account r) => some r.env
  | .staff _ => none

/-- A request mints with its own clock, and one without a clock mints nothing. -/
theorem SiteCall.mintingAt (call : SiteCall) {env : Env} (h : ∀ e, call.env = some e → e = env)
    (s : Db) : MintingAt env s call.program := by
  have hdone {β : Type} {p : Action β} (hp : MintingAt env s p) :
      MintingAt env s (p >>= fun _ => pure ()) := hp.bind fun _ _ => trivial
  cases call with
  | session r =>
    cases r with
    | user r =>
      cases h _ rfl
      exact hdone (minting_user r s)
    | registerProvider files b env' =>
      cases h _ rfl
      exact hdone ((minting_registerProvider env b files s).catchAll fun _ _ => trivial)
    | verifyProviderOtp b env' =>
      cases h _ rfl
      exact hdone (minting_verifyProviderOtp env b s)
    | logoutProvider token env' =>
      cases h _ rfl
      refine hdone (MintingAt.bind (minting_authorize env env.now token s) fun t user => ?_)
      cases user with
      | none => trivial
      | some user => exact ⟨trivial, fun _ _ => ⟨trivial, fun _ _ => trivial⟩⟩
  | staff call =>
    cases call with
    | job r =>
      cases r with
      | change r => exact hdone (obeys_program (opRule_mints env r) s)
      | list r => exact hdone (obeys_list (fun _ _ _ => trivial) r s)
    | account r =>
      obtain ⟨handler, c, b, env'⟩ := r
      cases h _ rfl
      refine hdone (Prog.Follows.catchAll (fun _ _ => trivial) ?_)
      cases handler with
      | register files => exact minting_registerProvider env' b files s
      | addWorker profilePic => exact minting_addWorker env' c b profilePic s
      | delateWorker => exact minting_delateWorker env' c b s
    | provider r => exact hdone (obeys_provider (accountRule_mints env) r s)

theorem SiteCall.minting (call : SiteCall) (s : Db) : Minting s call.program := by
  have henv : ∃ env, ∀ e, call.env = some e → e = env := by
    cases call.env with
    | none => exact ⟨⟨0, ⟨0⟩, fun _ _ => none⟩, fun _ h => by cases h⟩
    | some env => exact ⟨env, fun _ h => (Option.some.inj h).symm⟩
  obtain ⟨env, h⟩ := henv
  exact (call.mintingAt h s).minting

/-- Requests that run side by side reach only reachable states. -/
theorem reachable_run {s : Db} (hs : Reachable s) (calls : List SiteCall) (sched : List ℕ) :
    Reachable (runFrom (Pool.stepAt exec)
      (⟨s, calls.map SiteCall.program⟩ : Pool Db DbOp Ret Thrown Unit) sched).state := by
  have htracking : Pool.Tracking exec (fun (_ : Unit) op _ _ => op.mints) (fun _ _ => True)
      (fun _ => True) (fun _ => ())
      (⟨s, calls.map SiteCall.program⟩ : Pool Db DbOp Ret Thrown Unit) := by
    intro i p hp
    obtain ⟨call, -, rfl⟩ := List.mem_map.mp (List.mem_of_getElem? hp)
    exact Prog.Tracks.of_follows (fun _ _ hop => hop) (call.minting s)
  have hfree : Along (Pool.stepAt exec) (fun _ _ => True)
      (⟨s, calls.map SiteCall.program⟩ : Pool Db DbOp Ret Thrown Unit) sched :=
    (along_iff_split _ _ _ _).mpr fun _ _ _ _ => trivial
  obtain ⟨-, -, hreach, -⟩ := htracking.run (I := fun t _ => Reachable t)
    (fun _ _ _ _ _ ht _ _ hop => ht.step hop) hs hfree
  exact hreach

end Runs

section Admission

variable {s : Db} {t : AuthToken}

def issuerCache (s : Db) (issuer : String) (id : ObjectId) : Option TokenText :=
  if issuer = "USER" then s.userCache id
  else if issuer = "PROVIDER" then s.providerCache id
  else none

def accountExists (s : Db) (userType : String) (id : ObjectId) : Bool :=
  if userType = "USER" then (s.users.get? id).isSome
  else if userType = "PROVIDER" then (s.providers.get? id).isSome
  else false

/-- The token of the request verifies and has not expired, it is the one in the cache of its
issuer, and its account is still there. -/
def Admissible (now : ℤ) (r : AuthRequest) (s : Db) : Prop :=
  ∃ t, r.token = some (.text (.signed t)) ∧ now/1000 < t.expiresAt ∧
    issuerCache s t.issuer t.userId = some (.signed t) ∧
    accountExists s t.userType t.userId = true

/-- A token in the cache that it is looked up in has the issuer and the type of that cache. -/
theorem issuer_of_cached (hs : CachesMinted s) (h : cachedFor t s = some (.signed t)) :
    (t.issuer = "USER" ∧ t.userType = "USER") ∨
      (t.issuer = "PROVIDER" ∧ t.userType = "PROVIDER") := by
  unfold cachedFor at h
  split at h
  · rename_i hissuer
    obtain ⟨env, henv⟩ := hs (.provider t.userId) _ h
    rw [TokenText.signed.inj henv]
    exact Or.inr ⟨rfl, rfl⟩
  · obtain ⟨env, henv⟩ := hs (.user t.userId) _ h
    rw [TokenText.signed.inj henv]
    exact Or.inl ⟨rfl, rfl⟩

theorem cachedFor_eq_issuerCache (h : t.issuer = "USER" ∨ t.issuer = "PROVIDER") :
    cachedFor t s = issuerCache s t.issuer t.userId := by
  unfold cachedFor issuerCache
  rcases h with h | h
  · simp [h]
  · simp [h]

theorem isSome_admission (h : t.userType = "USER" ∨ t.userType = "PROVIDER") :
    (admission t s).isSome = accountExists s t.userType t.userId := by
  unfold admission accountExists
  rcases h with h | h
  · simp [h]
  · simp [h]

/-- In a state whose cache entries were minted for their accounts, exactly the admissible requests
are admitted. -/
theorem isSome_admitted_iff (hs : CachesMinted s) (now : ℤ) (r : AuthRequest) :
    (admitted now r s).isSome = true ↔ Admissible now r s := by
  constructor
  · intro h
    unfold admitted at h
    cases ht : r.token.bind (verifyAuthToken now) with
    | none =>
      rw [ht] at h
      cases h
    | some t =>
      rw [ht] at h
      dsimp only at h
      obtain ⟨v, hv, hverify⟩ := Option.bind_eq_some_iff.mp ht
      obtain ⟨rfl, hlive⟩ := verifyAuthToken_eq_some.mp hverify
      split at h
      · rename_i hcached
        have hkind := issuer_of_cached hs hcached
        rw [isSome_admission (hkind.imp And.right And.right)] at h
        rw [cachedFor_eq_issuerCache (hkind.imp And.left And.left)] at hcached
        exact ⟨t, hv, hlive, hcached, h⟩
      · cases h
  · rintro ⟨t, hv, hlive, hcached, haccount⟩
    have hverify : r.token.bind (verifyAuthToken now) = some t := by
      rw [hv]
      exact verifyAuthToken_eq_some.mpr ⟨rfl, hlive⟩
    have hissuer : t.issuer = "USER" ∨ t.issuer = "PROVIDER" := by
      by_contra hno
      rw [not_or] at hno
      simp [issuerCache, hno.1, hno.2] at hcached
    rw [← cachedFor_eq_issuerCache hissuer] at hcached
    have hkind := issuer_of_cached hs hcached
    simp only [admitted, hverify, hcached, if_true]
    rw [isSome_admission (hkind.imp And.right And.right)]
    exact haccount

/-- The request is passed on, once, exactly when its token verifies and has not expired, is the
one cached for its issuer, and has its account still. Otherwise it gets one response, which
refuses it, and no user. -/
theorem admission_exact (hs : Reachable s) (now : ℤ) (r : AuthRequest) :
    ((passage now r s).nextCalls = 1 ↔ Admissible now r s) ∧
      (¬ Admissible now r s → (passage now r s).Refuses) := by
  rw [← isSome_admitted_iff hs.minted]
  rcases passage_cases now r s with ⟨user, huser, hpassed⟩ | ⟨hnone, hrefuses⟩
  · rw [huser, hpassed]
    exact ⟨iff_of_true rfl rfl, fun h => absurd rfl h⟩
  · rw [hnone]
    refine ⟨iff_of_false ?_ (by simp), fun _ => hrefuses⟩
    rw [hrefuses.1]
    exact Nat.zero_ne_one

def freshLoginDb : Db :=
  (exec (.setUserToken ⟨1⟩ (generateToken (clockAt 0) ⟨1⟩)) oneAccountDb).1

/-- The token of the login is let through, and a request without a token is refused. -/
theorem admission_exact_login :
    (passage 1000 { authorization := some (generateToken (clockAt 0) ⟨1⟩) }
        freshLoginDb).nextCalls = 1 ∧
      (passage 1000 {} freshLoginDb).Refuses := by
  have hreach : Reachable freshLoginDb := by
    refine .step (.start fun k => ?_) ⟨clockAt 0, rfl⟩
    cases k with
    | user id => rfl
    | provider id => rfl
  constructor
  · refine (admission_exact hreach 1000 _).1.mpr ⟨_, rfl, ?_, ?_, ?_⟩
    · decide +kernel
    · decide +kernel
    · decide +kernel
  · refine (admission_exact hreach 1000 {}).2 ?_
    rintro ⟨t, ht, -⟩
    cases ht

end Admission

end DoQwik
