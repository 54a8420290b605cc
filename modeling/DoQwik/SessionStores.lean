import DoQwik.TokenStores
import DoQwik.ProviderLogins
import DoQwik.Sessions

/-! The two places that hold the token of a session, the record of the account and the cache,
and the requests that write only one of them. -/
namespace DoQwik
open JsValues DocStore Interleave TokenStore

section Stores

inductive AccountKey where
  | user (id : ObjectId)
  | provider (id : ObjectId)
deriving DecidableEq

/-- A token that `logout` emptied is none. -/
def liveToken (t : Option TokenText) : Option TokenText :=
  if t = some (.plain "") then none else t

def recordOf {α : Type} {key : α → ObjectId} (token : α → Option TokenText) (c : Collection key)
    (id : ObjectId) : Option (Option TokenText) :=
  (c.get? id).map fun a => liveToken (token a)

/-- A function of users and one of providers. -/
def byKey {β : Type} (f g : ObjectId → β) : AccountKey → β
  | .user id => f id
  | .provider id => g id

def tokenStores (s : Db) : Stores AccountKey TokenText where
  record := byKey (recordOf User.token s.users) (recordOf Provider.token s.providers)
  cache := byKey s.userCache s.providerCache

/-- For every account the token of its record is the token of its cache entry. -/
def StoresAgree (s : Db) : Prop := (tokenStores s).Agree

section Collections

variable {α : Type} {key : α → ObjectId} {token : α → Option TokenText} {c : Collection key}

theorem recordOf_updateOne {id : ObjectId} {f : α → α} (hf : ∀ a, key (f a) = key a)
    {tok : Option TokenText} (htok : ∀ a, liveToken (token (f a)) = tok) :
    recordOf token (c.updateOne (fun a => key a = id) f hf) =
      Function.update (recordOf token c) id ((recordOf token c id).map fun _ => tok) := by
  funext j
  have hfind : c.findOne (fun a => key a = id) = c.get? id := rfl
  unfold recordOf
  rw [Collection.get?_updateOne, hfind]
  by_cases hj : j = id
  · subst hj
    rw [Function.update_self]
    cases hget : c.get? j with
    | none => rfl
    | some a =>
      have hkey : key a = j := ((c.get?_eq_some_iff _ _).mp hget).2
      rw [Option.map_some, if_pos (congrArg some hkey)]
      exact congrArg some (htok a)
  · rw [Function.update_of_ne hj]
    cases hget : c.get? id with
    | none => rfl
    | some a =>
      have hkey : key a = id := ((c.get?_eq_some_iff _ _).mp hget).2
      rw [Option.map_some, hkey, if_neg (fun h => hj (Option.some.inj h).symm)]

/-- An update that keeps the tokens. -/
theorem recordOf_updateOne_keep {p : α → Bool} {f : α → α} (hf : ∀ a, key (f a) = key a)
    (htok : ∀ a, token (f a) = token a) :
    recordOf token (c.updateOne p f hf) = recordOf token c := by
  funext j
  unfold recordOf
  rw [Collection.get?_updateOne]
  split
  · rw [Option.map_map]
    congr 1
    funext a
    exact congrArg liveToken (htok a)
  · rfl

theorem recordOf_insert {d : Collection key} {a : α} (h : c.insert a = some d) :
    recordOf token d =
      Function.update (recordOf token c) (key a) (some (liveToken (token a))) := by
  funext j
  unfold recordOf
  rw [Collection.get?_insert h]
  by_cases hj : key a = j
  · rw [if_pos hj, ← hj, Function.update_self]
    rfl
  · rw [if_neg hj, Function.update_of_ne (Ne.symm hj)]

end Collections

theorem byKey_update_user {β : Type} (f g : ObjectId → β) (id : ObjectId) (x : β) :
    byKey (Function.update f id x) g = Function.update (byKey f g) (.user id) x := by
  funext k
  cases k with
  | user j =>
    by_cases hj : j = id
    · subst hj
      rw [byKey, Function.update_self, Function.update_self]
    · rw [byKey, Function.update_of_ne hj, Function.update_of_ne (by simpa using hj), byKey]
  | provider j => rw [Function.update_of_ne (by simp), byKey, byKey]

theorem byKey_update_provider {β : Type} (f g : ObjectId → β) (id : ObjectId) (x : β) :
    byKey f (Function.update g id x) = Function.update (byKey f g) (.provider id) x := by
  funext k
  cases k with
  | user j => rw [Function.update_of_ne (by simp), byKey, byKey]
  | provider j =>
    by_cases hj : j = id
    · subst hj
      rw [byKey, Function.update_self, Function.update_self]
    · rw [byKey, Function.update_of_ne hj, Function.update_of_ne (by simpa using hj), byKey]

variable {s : Db} (id : ObjectId)

theorem stores_setUserToken (t : TokenText) :
    tokenStores (exec (.setUserToken id t) s).1 = (tokenStores s).cacheAs (.user id) (some t) :=
  Stores.ext rfl (byKey_update_user _ _ id _)

theorem stores_delUserToken :
    tokenStores (exec (.delUserToken id) s).1 = (tokenStores s).cacheAs (.user id) none :=
  Stores.ext rfl (byKey_update_user _ _ id _)

theorem stores_setProviderToken (t : TokenText) :
    tokenStores (exec (.setProviderToken id t) s).1 =
      (tokenStores s).cacheAs (.provider id) (some t) :=
  Stores.ext rfl (byKey_update_provider _ _ id _)

theorem stores_delProviderToken :
    tokenStores (exec (.delProviderToken id) s).1 = (tokenStores s).cacheAs (.provider id) none :=
  Stores.ext rfl (byKey_update_provider _ _ id _)

/-- An update of a user that sets the token. -/
theorem stores_updateUser {d : UserSet} {tok : Option TokenText} (hd : d.token = some tok)
    (now : ℤ) :
    tokenStores (exec (.updateUser (fun u => u.id = id) d now) s).1 =
      (tokenStores s).recordAs (.user id) (liveToken tok) := by
  have htok : ∀ u, liveToken (d.apply now u).token = liveToken tok := by
    intro u
    rw [UserSet.apply, hd]
    rfl
  refine Stores.ext ?_ rfl
  change byKey (recordOf User.token (s.users.updateOne _ (d.apply now) (d.apply_id now))) _ = _
  rw [recordOf_updateOne (d.apply_id now) htok, byKey_update_user]
  rfl

/-- An update of a user that leaves the token alone. -/
theorem stores_updateUser_keep {d : UserSet} (hd : d.token = none) (sel : User → Bool) (now : ℤ) :
    tokenStores (exec (.updateUser sel d now) s).1 = tokenStores s := by
  have htok : ∀ u, (d.apply now u).token = u.token := by
    intro u
    rw [UserSet.apply, hd]
    rfl
  refine Stores.ext ?_ rfl
  change byKey (recordOf User.token (s.users.updateOne _ (d.apply now) (d.apply_id now))) _ = _
  rw [recordOf_updateOne_keep (d.apply_id now) htok]
  rfl

/-- An update of a provider that sets the token. -/
theorem stores_updateProvider {f : Provider → Provider} (hf : ∀ p, (f p).id = p.id)
    {tok : Option TokenText} (htok : ∀ p, liveToken (f p).token = tok) :
    tokenStores { s with providers := s.providers.updateOne (fun p => p.id = id) f hf } =
      (tokenStores s).recordAs (.provider id) tok := by
  refine Stores.ext ?_ rfl
  change byKey _ (recordOf Provider.token (s.providers.updateOne _ f hf)) = _
  rw [recordOf_updateOne hf htok, byKey_update_provider]
  rfl

theorem stores_loginProvider (t : TokenText) (deviceId : Option (Option String)) (now : ℤ) :
    tokenStores (exec (.loginProvider id t deviceId now) s).1 =
      (tokenStores s).recordAs (.provider id) (liveToken (some t)) :=
  stores_updateProvider id _ fun _ => rfl

theorem stores_saveProviderToken (t : TokenText) (now : ℤ) :
    tokenStores (exec (.saveProviderToken id t now) s).1 =
      (tokenStores s).recordAs (.provider id) (liveToken (some t)) :=
  stores_updateProvider id _ fun _ => rfl

theorem stores_insertUser {u : User} {us : Collection User.id} (h : s.users.insert u = some us) :
    tokenStores { s with users := us } =
      (tokenStores s).create (.user u.id) (liveToken u.token) := by
  refine Stores.ext ?_ rfl
  change byKey (recordOf User.token us) _ = _
  rw [recordOf_insert h, byKey_update_user]
  rfl

theorem stores_insertProvider {p : Provider} {ps : Collection Provider.id}
    (h : s.providers.insert p = some ps) :
    tokenStores { s with providers := ps } =
      (tokenStores s).create (.provider p.id) (liveToken p.token) := by
  refine Stores.ext ?_ rfl
  change byKey _ (recordOf Provider.token ps) = _
  rw [recordOf_insert h, byKey_update_provider]
  rfl

end Stores

section Logins

def storable (deviceId : Option Json) : Bool := (castSet castString (ifTruthy deviceId)).isOk

/-- The stores after `getUserLogin` found an account: the cache comes first, and the record is
not reached with a device that cannot be cast. -/
def afterMint (s : Stores AccountKey TokenText) (k : AccountKey) (t : TokenText)
    (deviceId : Option Json) : Stores AccountKey TokenText :=
  if storable deviceId then s.put k (some t) else s.cacheAs k (some t)

variable {env : Env} {deviceId : Option Json} {s : Db}

theorem liveToken_signed (t : AuthToken) : liveToken (some (.signed t)) = some (.signed t) := by
  simp [liveToken]

theorem stores_cacheToken (id : ObjectId) :
    tokenStores (cacheToken env id s) =
      (tokenStores s).cacheAs (.user id) (some (generateToken env id)) := by
  change tokenStores (exec (.setUserToken id (generateToken env id))
    (exec (.delUserToken id) s).1).1 = _
  rw [stores_setUserToken, stores_delUserToken, Stores.cacheAs_cacheAs]

theorem stores_getUserLogin (condition : Except Thrown (User → Bool)) :
    tokenStores ((getUserLogin env condition deviceId).run exec s).1 =
      match selected s.users condition with
      | none => tokenStores s
      | some u => afterMint (tokenStores s) (.user u.id) (generateToken env u.id) deviceId := by
  rw [run_getUserLogin]
  cases condition with
  | error e => rfl
  | ok p =>
    dsimp only [selected]
    cases s.users.findOne p with
    | none => rfl
    | some u =>
      dsimp only
      unfold afterMint storable
      cases castSet castString (ifTruthy deviceId) with
      -- The cast fails inside `findOneAndUpdate`, after the cache was written.
      | error e => exact stores_cacheToken u.id
      | ok d =>
        change tokenStores (exec (.updateUser (fun v => v.id = u.id) (loginSet env d u.id) env.now)
          (cacheToken env u.id s)).1 = _
        rw [stores_updateUser u.id rfl, stores_cacheToken]
        exact congrArg _ (liveToken_signed _)

theorem stores_getProviderLogin (condition : Except Thrown (Provider → Bool)) :
    tokenStores ((Providers.getUserLogin env condition deviceId).run exec s).1 =
      match selected s.providers condition with
      | none => tokenStores s
      | some p =>
        afterMint (tokenStores s) (.provider p.id) (generateProviderToken env p.id) deviceId := by
  unfold Providers.getUserLogin
  cases condition with
  | error e => rfl
  | ok q =>
    rw [run_cast_ok_bind, run_query_bind]
    dsimp only [selected]
    cases s.providers.findOne q with
    | none => rfl
    | some p =>
      dsimp only
      let token := generateProviderToken env p.id
      have hcache : tokenStores (exec (.setProviderToken p.id token)
          (exec (.delProviderToken p.id) s).1).1 =
          (tokenStores s).cacheAs (.provider p.id) (some token) := by
        rw [stores_setProviderToken, stores_delProviderToken, Stores.cacheAs_cacheAs]
      unfold afterMint storable
      cases castSet castString (ifTruthy deviceId) with
      | error e => exact hcache
      | ok d =>
        refine (stores_loginProvider p.id token d env.now).trans ?_
        rw [hcache]
        exact congrArg _ (liveToken_signed _)

/-- The caller passed the checks and knows a password that was stored for the phone. -/
def passesOtp (env : Env) (b : UserBody) (s : Db) : Bool :=
  (refusal (verifyLoginOtpChecks b)).isNone && (matchedOtp env s b.otp b.mobile).isSome

/-- A handler that goes on with `k` after the password check. -/
theorem stores_verified {ρ : Type} (env : Env) (b : UserBody) (k : Action (Response ρ))
    (handler : Thrown → Response ρ) (s : Db) :
    ∃ otps, tokenStores (((checked (verifyLoginOtpChecks b) do
        let isverify ← isValidUserOtp env b.otp b.mobile
        if isverify then k else reply .errorInvalidCredential).catchAll handler).run exec s).1 =
      if passesOtp env b s then tokenStores (k.run exec { s with verifyOtps := otps }).1
      else tokenStores s := by
  obtain ⟨otps, hstate⟩ := state_isValidUserOtp env b.otp b.mobile s
  refine ⟨otps, ?_⟩
  rw [Prog.run_catchAll]
  unfold checked passesOtp
  cases refusal (verifyLoginOtpChecks b) with
  | some key => rfl
  | none =>
    dsimp only
    rw [Prog.run_bind]
    rcases hrun : (isValidUserOtp env b.otp b.mobile).run exec s with ⟨t, r⟩
    rw [hrun] at hstate
    have ht : t = { s with verifyOtps := otps } := hstate
    have hiff : ((isValidUserOtp env b.otp b.mobile).run exec s).2 = .ok true ↔
        ∃ r, matchedOtp env s b.otp b.mobile = some r := isValidUserOtp_eq_matched
    rw [hrun, ← Option.isSome_iff_exists] at hiff
    rw [ht]
    -- A check that throws and one that says no both end without a login.
    rcases r with e | verified
    · have hno : (matchedOtp env s b.otp b.mobile).isSome = false := by simpa using hiff
      rw [hno]
      rfl
    · cases verified with
      | false =>
        have hno : (matchedOtp env s b.otp b.mobile).isSome = false := by simpa using hiff
        rw [hno]
        rfl
      | true =>
        have hyes : (matchedOtp env s b.otp b.mobile).isSome = true := by simpa using hiff
        rw [hyes]
        rfl

/-- The account that `verify_login_otp` finds. -/
def loggingInUser (env : Env) (b : UserBody) (s : Db) : Option User :=
  if passesOtp env b s then selected s.users (userByPhone b.mobile) else none

def loggingInProvider (env : Env) (b : UserBody) (s : Db) : Option Provider :=
  if passesOtp env b s then selected s.providers (providerByParsedPhone b.mobile) else none

theorem stores_verifyLoginOtp (b : UserBody) :
    tokenStores ((verifyLoginOtp env b).run exec s).1 =
      match loggingInUser env b s with
      | none => tokenStores s
      | some u => afterMint (tokenStores s) (.user u.id) (generateToken env u.id) b.deviceId := by
  have hsend : ∀ a t, ((sendLogin b a).run exec t).1 = t := by
    intro a t
    cases a with
    | none => rfl
    | some u => rfl
  obtain ⟨otps, hstores⟩ := stores_verified env b
    (getUserLogin env (userByPhone b.mobile) b.deviceId >>= sendLogin b) userError s
  refine hstores.trans ?_
  rw [Prog.run_bind_fst exec hsend, stores_getUserLogin]
  unfold loggingInUser
  cases passesOtp env b s with
  | false => rfl
  | true => rfl

theorem stores_verifyProviderOtp (b : UserBody) :
    tokenStores ((Providers.verifyLoginOtp env b).run exec s).1 =
      match loggingInProvider env b s with
      | none => tokenStores s
      | some p =>
        afterMint (tokenStores s) (.provider p.id) (generateProviderToken env p.id) b.deviceId := by
  have hsend : ∀ a t, ((Providers.sendLogin b a).run exec t).1 = t := by
    intro a t
    cases a with
    | none => rfl
    | some p => rfl
  obtain ⟨otps, hstores⟩ := stores_verified env b
    (Providers.getUserLogin env (providerByParsedPhone b.mobile) b.deviceId >>=
      Providers.sendLogin b) providerLoginError s
  refine hstores.trans ?_
  rw [Prog.run_bind_fst exec hsend, stores_getProviderLogin]
  unfold loggingInProvider
  cases passesOtp env b s with
  | false => rfl
  | true => rfl

end Logins

section Registrations

/-- The stores are left as they are, or a new account gets a token in both. -/
def Opened (s t : Stores AccountKey TokenText) : Prop :=
  t = s ∨ ∃ k new tok, t = (s.create k new).put k tok

/-- Run from any state, the program opens at most one account. -/
def Opens {β : Type} (p : Action β) : Prop :=
  ∀ s, Opened (tokenStores s) (tokenStores (p.run exec s).1)

theorem Opened.agree {s t : Stores AccountKey TokenText} (h : Opened s t) (hs : s.Agree) :
    t.Agree := by
  rcases h with rfl | ⟨k, new, tok, rfl⟩
  · exact hs
  · exact hs.create_put k tok new

variable {β γ : Type} {ρ : Type}

theorem opens_of_keeps {p : Action β} (h : Prog.Keeps exec tokenStores p) : Opens p :=
  fun s => Or.inl (h s)

/-- What leaves the stores alone may come first. -/
theorem opens_bind {p : Action β} (hp : Prog.Keeps exec tokenStores p) {k : β → Action γ}
    (hk : ∀ x, Opens (k x)) : Opens (p >>= k) := by
  intro s
  have hstores := hp s
  rw [Prog.run_bind]
  rcases hrun : p.run exec s with ⟨t, e | x⟩
  · rw [hrun] at hstores
    exact Or.inl hstores
  · rw [hrun] at hstores
    dsimp only at hstores ⊢
    rw [← hstores]
    exact hk x t

theorem opens_checked (checks : List (Bool × MessageKey)) {k : Action (Response ρ)}
    (hk : Opens k) : Opens (checked checks k) := by
  unfold checked
  cases refusal checks with
  | none => exact hk
  | some key => exact opens_of_keeps fun _ => rfl

theorem opens_catchAll {p : Action β} (handler : Thrown → β) (hp : Opens p) :
    Opens (p.catchAll handler) := by
  intro s
  rw [Prog.run_catchAll]
  exact hp s

/-- The run of `createData`: refused, or a new account with a cleared cache entry. -/
theorem run_createUserData (env : Env) (data : Except Thrown User) (s : Db) :
    (∃ e, (createUserData env data).run exec s = (s, .error e)) ∨
      ∃ (u : User) (t : Db), (createUserData env data).run exec s = (t, .ok u.id) ∧
        (t.users.get? u.id).isSome = true ∧
        tokenStores t =
          ((tokenStores s).create (.user u.id) (liveToken u.token)).cacheAs (.user u.id) none := by
  cases data with
  | error e => exact Or.inl ⟨e, rfl⟩
  | ok u =>
    let rest (created : Bool) : Action ObjectId :=
      if created then do
        Prog.perform (DbOp.delUserToken u.id)
        let _ ← Prog.perform (DbOp.updateUser (fun v => v.id = u.id) {} env.now)
        pure u.id
      else throwing .duplicateKey
    have hrun : (createUserData env (.ok u)).run exec s =
        (rest (exec (.createUser u) s).2).run exec (exec (.createUser u) s).1 := rfl
    rw [hrun]
    cases hi : s.users.insert u with
    | none =>
      rw [exec_createUser_none hi]
      exact Or.inl ⟨_, rfl⟩
    | some us =>
      rw [exec_createUser_some hi]
      refine Or.inr ⟨u, _, rfl, ?_, ?_⟩
      · refine (Collection.isSome_get?_updateOne _ _ _ (UserSet.apply_id _ _) u.id).trans ?_
        change (us.get? u.id).isSome = true
        rw [Collection.get?_insert hi, if_pos rfl, Option.isSome_some]
      · refine (stores_updateUser_keep rfl _ env.now).trans ?_
        rw [stores_delUserToken, stores_insertUser hi]

theorem opens_registerUser (env : Env) (b : UserBody) (profilePic document : String) (seqId : ℕ) :
    Opens (registerUser env b profilePic document seqId) := by
  intro s
  unfold registerUser
  rw [Prog.run_bind]
  rcases run_createUserData env (newUser env b profilePic document seqId) s with
    ⟨e, hrun⟩ | ⟨u, t, hrun, hsome, hstores⟩
  · rw [hrun]
    exact Or.inl rfl
  · rw [hrun]
    dsimp only
    rw [Prog.run_bind_fst]
    · -- The login that follows finds the new account and writes both stores.
      obtain ⟨v, hv⟩ := Option.isSome_iff_exists.mp hsome
      have hfound : selected t.users (userById u.id) = some v := hv
      have hid : v.id = u.id := ((t.users.get?_eq_some_iff _ _).mp hv).2
      rw [stores_getUserLogin, hfound]
      dsimp only
      refine Or.inr ⟨.user u.id, liveToken u.token, some (generateToken env u.id), ?_⟩
      rw [hid, hstores]
      exact Stores.put_cacheAs
    · intro data t
      cases data with
      | none => rfl
      | some u => rfl

theorem opens_register (env : Env) (b : UserBody) (files : Option UserFiles) :
    Opens (register env b files) := by
  refine opens_catchAll _ (opens_checked _ ?_)
  rcases files with _ | ⟨profilePic, _ | document⟩
  · exact opens_of_keeps fun _ => rfl
  · exact opens_of_keeps fun _ => rfl
  refine opens_bind (keeps_cast _) fun p => opens_bind (fun _ => rfl) fun count => ?_
  by_cases hcount : count = 0
  · rw [if_pos hcount]
    refine opens_bind (keeps_getSequence (fun _ _ => rfl) _) fun seqId => ?_
    cases profilePic with
    | none => exact opens_of_keeps fun _ => rfl
    | some profilePic => exact opens_registerUser env b profilePic document seqId
  · rw [if_neg hcount]
    refine opens_of_keeps fun s => ?_
    unfold alreadyRegister
    cases b.phone with
    | none => rfl
    | some v =>
      cases hv : v.unprintable with
      | true => simp only [hv, if_true]; rfl
      | false => simp only [hv, if_false, Bool.false_eq_true]; rfl

/-- The run of `createDataWithoutToken`: refused, or a new account. -/
theorem run_createDataWithoutToken (data : Except Thrown Provider) (s : Db) :
    (∃ e, (createDataWithoutToken data).run exec s = (s, .error e)) ∨
      ∃ p ps, s.providers.insert p = some ps ∧
        (createDataWithoutToken data).run exec s = ({ s with providers := ps }, .ok p) := by
  cases data with
  | error e => exact Or.inl ⟨e, rfl⟩
  | ok p =>
    let rest (created : Bool) : Action Provider :=
      if created then pure p else throwing .duplicateKey
    have hrun : (createDataWithoutToken (.ok p)).run exec s =
        (rest (exec (.createProvider p) s).2).run exec (exec (.createProvider p) s).1 := rfl
    rw [hrun]
    cases hi : s.providers.insert p with
    | none =>
      rw [exec_createProvider_none hi]
      exact Or.inl ⟨_, rfl⟩
    | some ps =>
      rw [exec_createProvider_some hi]
      exact Or.inr ⟨p, ps, hi, rfl⟩

theorem opens_createProviderData (env : Env) (data : Except Thrown Provider) :
    Opens (createProviderData env data) := by
  intro s
  unfold createProviderData
  rw [Prog.run_bind]
  rcases run_createDataWithoutToken data s with ⟨e, hrun⟩ | ⟨p, ps, hi, hrun⟩
  · rw [hrun]
    exact Or.inl rfl
  · rw [hrun]
    -- Here the service writes both stores itself, without a login.
    refine Or.inr ⟨.provider p.id, liveToken p.token, some (generateProviderToken env p.id), ?_⟩
    refine (stores_saveProviderToken p.id _ env.now).trans ?_
    rw [stores_setProviderToken, stores_delProviderToken, stores_insertProvider hi,
      Stores.cacheAs_cacheAs]
    exact congrArg _ (liveToken_signed _)

theorem opens_registerProvider (env : Env) (b : AccountBody) (files : Option AccountFiles) :
    Opens (Providers.register env b files) := by
  refine opens_checked _ ?_
  cases files with
  | none => exact opens_of_keeps fun _ => rfl
  | some files =>
    refine opens_checked _ ?_
    cases b.userType.any Json.unprintable with
    | true => exact opens_of_keeps fun _ => rfl
    | false =>
      refine opens_checked _ (opens_bind (keeps_cast _) fun p => ?_)
      refine opens_bind (fun _ => rfl) fun count => ?_
      by_cases hcount : count = 0
      · rw [if_pos hcount]
        refine opens_bind (keeps_getSequence (fun _ _ => rfl) _) fun seqId => ?_
        cases files.profilePic with
        | none => exact opens_of_keeps fun _ => rfl
        | some profilePic =>
          intro s
          rw [Prog.run_bind_fst]
          · exact opens_createProviderData env _ s
          · intro data t
            cases data with
            | none => rfl
            | some p => rfl
      · rw [if_neg hcount]
        refine opens_of_keeps fun s => ?_
        unfold Providers.alreadyRegister
        cases b.phone with
        | none => rfl
        | some v =>
          cases hv : v.unprintable with
          | true => simp only [hv, if_true]; rfl
          | false => simp only [hv, if_false, Bool.false_eq_true]; rfl

end Registrations

section Agreement

variable (env : Env)

theorem keeps_login (b : UserBody) (smsSent : Bool) :
    Prog.Keeps exec tokenStores (login env b smsSent) := by
  refine keeps_checked _ (Prog.Keeps.bind (Prog.Keeps.catchAll ?_ _) fun saved => ?_)
  · refine Prog.Keeps.bind (Prog.Keeps.bind (keeps_cast _) fun p => ?_) fun _ => ?_
    · refine Prog.Keeps.bind (keeps_query _) fun record t => ?_
      obtain ⟨r, hrun⟩ := run_checkRetry env.now record t
      rw [hrun]
    · refine Prog.Keeps.bind (fun t => ?_) fun _ _ => rfl
      rw [run_saveOtp]
      cases optional castNumber b.mobile with
      | error e => rfl
      | ok n => rfl
  · cases saved with
    | false => exact fun _ => rfl
    | true =>
      cases smsSent with
      | false => exact fun _ => rfl
      | true => exact fun _ => rfl

theorem stores_forgotPassword (b : UserBody) (s : Db) :
    tokenStores ((forgotPassword env b).run exec s).1 =
      match selected s.users (userByEmail env.regex b.email) with
      | none => tokenStores s
      | some u => (tokenStores s).cacheAs (.user u.id) (some (generateToken env u.id)) := by
  cases hacc : selected s.users (userByEmail env.regex b.email) with
  | some u =>
    obtain ⟨otps, a, hrun, -⟩ := run_forgotPassword hacc
    rw [hrun]
    -- The passwords, which were saved after the token, are in neither store.
    change tokenStores (cacheToken env u.id s) = _
    rw [stores_cacheToken]
  | none =>
    unfold forgotPassword
    rw [Prog.run_catchAll]
    unfold selected at hacc
    cases hp : userByEmail env.regex b.email with
    | error e => rfl
    | ok p =>
      rw [hp] at hacc
      dsimp only at hacc
      rw [run_cast_ok_bind, run_query_bind, hacc]
      rfl

def authorized (now : ℤ) (token : TokenText) (s : Db) : Option (ObjectId × String) :=
  match ((authorize now token).run exec s).2 with
  | .ok user => user
  | .error _ => none

/-- The authorization only reads. -/
theorem run_authorize (now : ℤ) (token : TokenText) (s : Db) :
    (authorize now token).run exec s = (s, .ok (authorized now token s)) := by
  have hrun : ∃ user, (authorize now token).run exec s = (s, .ok user) := by
    cases token with
    | plain text => exact ⟨_, rfl⟩
    | signed t =>
      simp only [authorize]
      -- Every branch ends in a refusal or in the account, and none writes.
      split
      · exact ⟨_, rfl⟩
      · rw [run_query_bind]
        generalize (if t.issuer = "PROVIDER" then s.providerCache t.userId
          else s.userCache t.userId) = userToken
        split
        · exact ⟨_, rfl⟩
        split
        · exact ⟨_, rfl⟩
        split
        · exact ⟨_, rfl⟩
        split
        · exact ⟨_, rfl⟩
        · exact ⟨_, rfl⟩
  obtain ⟨user, hrun⟩ := hrun
  unfold authorized
  rw [hrun]

theorem stores_logout (token : TokenText) (s : Db) :
    tokenStores ((logout env token).run exec s).1 =
      match authorized env.now token s with
      | none => tokenStores s
      | some (id, _) => (tokenStores s).put (.user id) none := by
  unfold logout
  rw [Prog.run_bind, run_authorize]
  cases authorized env.now token s with
  | none => rfl
  | some user =>
    obtain ⟨id, userType⟩ := user
    dsimp only
    rw [Prog.run_catchAll]
    refine (stores_updateUser id rfl env.now).trans ?_
    rw [stores_delUserToken]
    rfl

/-- The logout of a provider writes the cache entry of the provider, but the record of a user. -/
theorem stores_logoutProvider (token : TokenText) (s : Db) :
    tokenStores ((Providers.logout env token).run exec s).1 =
      match authorized env.now token s with
      | none => tokenStores s
      | some (id, _) => ((tokenStores s).cacheAs (.provider id) none).recordAs (.user id) none := by
  unfold Providers.logout
  rw [Prog.run_bind, run_authorize]
  cases authorized env.now token s with
  | none => rfl
  | some user =>
    obtain ⟨id, userType⟩ := user
    dsimp only
    rw [Prog.run_catchAll]
    refine (stores_updateUser id rfl env.now).trans ?_
    rw [stores_delProviderToken]
    rfl

theorem holds_user_iff {s : Db} {id : ObjectId} {tok : Option TokenText} :
    (tokenStores s).Holds (.user id) tok ↔
      (s.users.get? id).all (fun u => liveToken u.token = tok) = true := by
  change (∀ old, recordOf User.token s.users id = some old → old = tok) ↔ _
  unfold recordOf
  cases s.users.get? id with
  | none => simp
  | some u => simp

theorem holds_provider_iff {s : Db} {id : ObjectId} {tok : Option TokenText} :
    (tokenStores s).Holds (.provider id) tok ↔
      (s.providers.get? id).all (fun p => liveToken p.token = tok) = true := by
  change (∀ old, recordOf Provider.token s.providers id = some old → old = tok) ↔ _
  unfold recordOf
  cases s.providers.get? id with
  | none => simp
  | some p => simp

theorem agree_afterMint_iff {s : Stores AccountKey TokenText} (hs : s.Agree) {k : AccountKey}
    {t : TokenText} {deviceId : Option Json} :
    (afterMint s k t deviceId).Agree ↔ storable deviceId = true ∨ s.Holds k (some t) := by
  unfold afterMint
  cases storable deviceId with
  | true => exact iff_of_true (hs.put k (some t)) (Or.inl rfl)
  | false =>
    rw [if_neg Bool.false_ne_true, hs.cacheAs_iff]
    simp

/-- Nobody gets a token that does not reach the record, by `forgotPassword` or with a device that
cannot be stored, unless the same token is there already; and no provider logs out that has a
token on record. -/
def keepsTokens (s : Db) : SessionRequest → Bool
  | .user ⟨.forgotPassword, b, env⟩ =>
    (selected s.users (userByEmail env.regex b.email)).all fun u =>
      liveToken u.token = some (generateToken env u.id)
  | .user ⟨.verifyLoginOtp, b, env⟩ =>
    storable b.deviceId || (loggingInUser env b s).all fun u =>
      liveToken u.token = some (generateToken env u.id)
  | .user _ => true
  | .registerProvider _ _ _ => true
  | .verifyProviderOtp b env =>
    storable b.deviceId || (loggingInProvider env b s).all fun p =>
      liveToken p.token = some (generateProviderToken env p.id)
  | .logoutProvider token env =>
    (authorized env.now token s).all fun user =>
      ((s.providers.get? user.1).all fun p => liveToken p.token = none) &&
        (s.users.get? user.1).all fun u => liveToken u.token = none

theorem get?_of_loggingInUser {env : Env} {b : UserBody} {s : Db} {u : User}
    (h : loggingInUser env b s = some u) : s.users.get? u.id = some u := by
  unfold loggingInUser at h
  split at h
  · exact get?_of_selected h
  · cases h

theorem get?_of_loggingInProvider {env : Env} {b : UserBody} {s : Db} {p : Provider}
    (h : loggingInProvider env b s = some p) : s.providers.get? p.id = some p := by
  unfold loggingInProvider at h
  split at h
  · exact get?_of_selected h
  · cases h

theorem storesAgree_serveUser_iff {s : Db} (hs : StoresAgree s) (r : UserRequest) :
    StoresAgree (serveUser s r) ↔ keepsTokens s (.user r) = true := by
  obtain ⟨handler, b, env⟩ := r
  cases handler with
  | login smsSent =>
    refine iff_of_true ?_ rfl
    change (tokenStores ((login env b smsSent).run exec s).1).Agree
    rw [keeps_login]
    exact hs
  | register files => exact iff_of_true ((opens_register env b files s).agree hs) rfl
  | logout token =>
    refine iff_of_true ?_ rfl
    change (tokenStores ((logout env token).run exec s).1).Agree
    rw [stores_logout]
    cases authorized env.now token s with
    | none => exact hs
    | some user => exact hs.put _ _
  | forgotPassword =>
    change (tokenStores ((forgotPassword env b).run exec s).1).Agree ↔ Option.all _ _ = true
    rw [stores_forgotPassword]
    cases hacc : selected s.users (userByEmail env.regex b.email) with
    | none => exact iff_of_true hs rfl
    | some u =>
      dsimp only
      rw [hs.cacheAs_iff, holds_user_iff, get?_of_selected hacc]
      rfl
  | verifyLoginOtp =>
    change (tokenStores ((verifyLoginOtp env b).run exec s).1).Agree ↔ (_ || Option.all _ _) = true
    rw [stores_verifyLoginOtp, Bool.or_eq_true]
    cases hacc : loggingInUser env b s with
    | none => exact iff_of_true hs (Or.inr rfl)
    | some u =>
      dsimp only
      rw [agree_afterMint_iff hs, holds_user_iff, get?_of_loggingInUser hacc]
      rfl

/-- What the request does to the agreement of the stores. -/
theorem storesAgree_serveSession_iff {s : Db} (hs : StoresAgree s) (r : SessionRequest) :
    StoresAgree (serveSession s r) ↔ keepsTokens s r = true := by
  cases r with
  | user r => exact storesAgree_serveUser_iff hs r
  | registerProvider files b env =>
    exact iff_of_true ((opens_catchAll _ (opens_registerProvider env b files) s).agree hs) rfl
  | verifyProviderOtp b env =>
    change (tokenStores ((Providers.verifyLoginOtp env b).run exec s).1).Agree ↔
      (_ || Option.all _ _) = true
    rw [stores_verifyProviderOtp, Bool.or_eq_true]
    cases hacc : loggingInProvider env b s with
    | none => exact iff_of_true hs (Or.inr rfl)
    | some p =>
      dsimp only
      rw [agree_afterMint_iff hs, holds_provider_iff, get?_of_loggingInProvider hacc]
      rfl
  | logoutProvider token env =>
    change (tokenStores ((Providers.logout env token).run exec s).1).Agree ↔ Option.all _ _ = true
    rw [stores_logoutProvider]
    cases authorized env.now token s with
    | none => exact iff_of_true hs rfl
    | some user =>
      obtain ⟨id, userType⟩ := user
      dsimp only
      -- The two keys differ whatever the id is, so that the writes never meet.
      rw [Option.all_some, Bool.and_eq_true, ← holds_user_iff, ← holds_provider_iff]
      exact hs.cross_iff (by simp)

/-- The stores agree throughout a run that starts so exactly when no request hands out a token
that does not reach the record, and no provider logs out. -/
theorem storesAgreeThroughout_iff (s : Db) (rs : List SessionRequest) :
    Throughout serveSession StoresAgree s rs ↔
      StoresAgree s ∧ Along serveSession (fun t r => keepsTokens t r = true) s rs := by
  have hiff : ∀ hs : StoresAgree s, Throughout serveSession StoresAgree s rs ↔
      Along serveSession (fun t r => keepsTokens t r = true) s rs := fun hs =>
    throughout_iff (I := StoresAgree) (J := fun _ => True) (fun _ _ h => h)
      (fun t r _ ht => storesAgree_serveSession_iff ht r) hs trivial rs
  constructor
  · intro h
    have hs : StoresAgree s := h [] rs rfl
    exact ⟨hs, (hiff hs).mp h⟩
  · rintro ⟨hs, h⟩
    exact (hiff hs).mpr h

def sampleProviderRegistration : SessionRequest :=
  .registerProvider (some ⟨some "pic.png", some "card.pdf"⟩)
    { fullName := some (.str "Provider")
      email := some (.str "p@b.c")
      phone := some (.str "800")
      country := some (.str "Nigeria")
      state := some (.str "Lagos")
      city := some (.str "Lagos")
      landMark := some (.str "Market")
      postalCode := some (.str "100001")
      userType := some (.str "Individual")
      companyRegNo := some (.str "1")
      tinNumber := some (.str "1")
      bankAcountNumber := some (.str "1")
      gender := some (.str "F") }
    ⟨0, ⟨1⟩, fun _ _ => none⟩

/-- A provider that registered and logs out keeps its token on record. -/
theorem provider_logout_keeps_record :
    ¬ Throughout serveSession StoresAgree Db.empty
      [sampleProviderRegistration,
        .logoutProvider (generateProviderToken (clockAt 0) ⟨1⟩) (clockAt 1000)] := by
  intro h
  -- After both requests the record has the token, and the cache entry is gone.
  have hrecord := h [_, _] [] rfl (.provider ⟨1⟩) (some (generateProviderToken (clockAt 0) ⟨1⟩))
    (by decide +kernel)
  exact absurd hrecord (by decide +kernel)

end Agreement

end DoQwik
