import DoQwik.Admission
import DoQwik.OtpLimits
import DoQwik.Stages

/-! The end of a session. A login, a forgotten password and a logout clear the cache entry of the
account or put another token there; and a token that has left the cache comes back only if it is
issued once more. -/
namespace DoQwik
open JsValues DocStore Interleave TokenStore

section Model

/-- The account in whose cache entry the token is looked up. -/
def AuthToken.account (t : AuthToken) : AccountKey :=
  if t.issuer = "PROVIDER" then .provider t.userId else .user t.userId

/-- The id that a token carries, if it verifies at all. -/
def TokenText.holder : TokenText → Option ObjectId
  | .plain _ => none
  | .signed t => some t.userId

/-- The user whose session the answer is about. -/
def UserResult.subject : UserResult → Option ObjectId
  | .user u => some u.user.id
  | .emailOtpSent id _ _ => some id
  | _ => none

def ProviderLoginResult.subject : ProviderLoginResult → Option ObjectId
  | .provider p => some p.id
  | _ => none

/-- The holder of the token, if the logout went through. -/
def loggedOut {ρ : Type} (token : TokenText) (a : Response ρ) : Option ObjectId :=
  if a.key = .success then token.holder else none

/-- The user of whom a request has ended all earlier sessions, by its answer. -/
def UserRequest.ended (r : UserRequest) (a : UserResponse) : Option ObjectId :=
  match r.handler with
  | .logout token => loggedOut token a
  | _ => a.result.bind UserResult.subject

/-- The request as it runs, with the account whose earlier sessions it has ended. The logout of
the users ends the session of a user even if the token is one of a provider with the same id, and
the other way round. -/
def SiteCall.ending : SiteCall → Action (Option AccountKey)
  | .session (.user r) => do
    let a ← r.program
    pure ((r.ended a).map .user)
  | .session (.verifyProviderOtp b env) => do
    let a ← Providers.verifyLoginOtp env b
    pure ((a.result.bind ProviderLoginResult.subject).map .provider)
  | .session (.logoutProvider token env) => do
    let a ← Providers.logout env token
    pure ((loggedOut token a).map .provider)
  | .session (.registerProvider files b env) => do
    let _ ← (Providers.register env b files).catchAll accountError
    pure none
  | .staff call => do
    call.program
    pure none

abbrev EndingPool := Pool Db DbOp Ret Thrown (Option AccountKey)

def EndingPool.of (s : Db) (calls : List SiteCall) : EndingPool := ⟨s, calls.map SiteCall.ending⟩

/-- The account whose earlier sessions the request has ended, once it is answered. -/
def EndingPool.ended (c : EndingPool) (i : ℕ) : Option AccountKey :=
  match c.threads[i]? with
  | some (.done a) => a
  | _ => none

/-- If the request issues a token to the account of `t`, then it is `t`: the clock is the same. -/
def SiteCall.issues (t : AuthToken) (call : SiteCall) : Bool :=
  call.env.any fun env => tokenFor env t.account = .signed t

/-- The cache entry that the operation writes, and what it puts there. -/
def DbOp.caching : DbOp → Option (AccountKey × Option TokenText)
  | .setUserToken id t => some (.user id, some t)
  | .delUserToken id => some (.user id, none)
  | .setProviderToken id t => some (.provider id, some t)
  | .delProviderToken id => some (.provider id, none)
  | _ => none

end Model

section Caches

variable {s : Db} {t : AuthToken} {op : DbOp}

theorem cachedFor_eq_cache (t : AuthToken) (s : Db) :
    cachedFor t s = (tokenStores s).cache t.account := by
  unfold cachedFor AuthToken.account
  split
  · rfl
  · rfl

theorem cache_exec_of_caching {k : AccountKey} {x : Option TokenText}
    (h : op.caching = some (k, x)) (s : Db) :
    (tokenStores (exec op s).1).cache = Function.update (tokenStores s).cache k x := by
  cases op with
  | setUserToken id t =>
    cases h
    rw [stores_setUserToken]
    rfl
  | delUserToken id =>
    cases h
    rw [stores_delUserToken]
    rfl
  | setProviderToken id t =>
    cases h
    rw [stores_setProviderToken]
    rfl
  | delProviderToken id =>
    cases h
    rw [stores_delProviderToken]
    rfl
  | _ => cases h

theorem cache_exec_of_not_caching (h : op.caching = none) (s : Db) :
    (tokenStores (exec op s).1).cache = (tokenStores s).cache := by
  apply exec_caches_of_not_writesCaches
  cases op with
  | setUserToken id t | delUserToken id | setProviderToken id t | delProviderToken id => cases h
  | _ => rfl

/-- A request with another clock does not put the token into any cache. -/
theorem caching_ne_of_mintsAt {env : Env} (h : op.mintsAt env)
    (henv : tokenFor env t.account ≠ .signed t) (k : AccountKey) :
    op.caching ≠ some (k, some (.signed t)) := by
  intro hc
  cases op with
  | setUserToken id tok =>
    cases hc
    have ht := TokenText.signed.inj h
    apply henv
    rw [ht]
    rfl
  | setProviderToken id tok =>
    cases hc
    have ht := TokenText.signed.inj h
    apply henv
    rw [ht]
    rfl
  | _ => cases hc

/-- A token that is not in its cache is refused. -/
theorem refuses_of_not_cached {now : ℤ} {r : AuthRequest}
    (hr : r.token = some (.text (.signed t))) (h : cachedFor t s ≠ some (.signed t)) :
    (passage now r s).Refuses := by
  rcases passage_cases now r s with ⟨user, huser, -⟩ | ⟨-, hrefuses⟩
  · unfold admitted at huser
    cases hv : r.token.bind (verifyAuthToken now) with
    | none =>
      rw [hv] at huser
      cases huser
    | some t' =>
      rw [hv] at huser
      rw [hr, Option.bind_some] at hv
      cases (verifyAuthToken_eq_some.mp hv).1
      dsimp only at huser
      rw [if_neg h] at huser
      cases huser
  · exact hrefuses

end Caches

section Stages

/-- How far a request is: whether it may issue the token at hand, and the account whose cache entry
it was the last to write. -/
structure Ending where
  issuing : Bool
  account : Option AccountKey := none

/-- A request that may not issue the token does not cache it; and a request that comes to an
account writes the cache entry of the account. -/
structure EndingStep (t : AuthToken) (g : Ending) (op : DbOp) (_ : Db) (g' : Ending) : Prop where
  issuing : g'.issuing = g.issuing
  caching : g.issuing = false → ∀ k, op.caching ≠ some (k, some (.signed t))
  account : g'.account = g.account ∨ ∃ k x, op.caching = some (k, x) ∧ g'.account = some k

variable {t : AuthToken} {g g' : Ending} {op : DbOp} {s : Db} {env : Env}

theorem endingStep_of_not_caching (h : op.caching = none) (s : Db) : EndingStep t g op s g where
  issuing := rfl
  caching _ k := by
    rw [h]
    exact Option.some_ne_none _ ∘ Eq.symm
  account := Or.inl rfl

theorem endingStep_of_counts (op : DbOp) (s : Db) (h : op.counts = true) :
    EndingStep t g op s g := by
  apply endingStep_of_not_caching
  cases op with
  | read f | createCounter c | updateCounter table m n => rfl
  | _ => cases h

/-- The clock cannot issue the token, unless the request may. -/
def Ending.Fits (t : AuthToken) (env : Env) (g : Ending) : Prop :=
  g.issuing = false → tokenFor env t.account ≠ .signed t

theorem Ending.Fits.come (hg : g.Fits t env) (k : AccountKey) :
    Ending.Fits t env { g with account := some k } := hg

theorem endingStep_of_mintsAt (op : DbOp) (hg : g.Fits t env) (h : op.mintsAt env) (s : Db) :
    EndingStep t g op s g where
  issuing := rfl
  caching hi := caching_ne_of_mintsAt h (hg hi)
  account := Or.inl rfl

theorem endingStep_of_caching (op : DbOp) (hg : g.Fits t env) (h : op.mintsAt env)
    {k : AccountKey} {x : Option TokenText} (hk : op.caching = some (k, x)) (s : Db) :
    EndingStep t g op s { g with account := some k } where
  issuing := rfl
  caching hi := caching_ne_of_mintsAt h (hg hi)
  account := Or.inr ⟨k, x, hk, rfl⟩

/-- After a step of a request that does not issue it, a token is in its cache only if it was there
before and the step left the entry alone. -/
theorem EndingStep.cached_before (h : EndingStep t g op s g') (hg : g.issuing = false)
    (hs : cachedFor t (exec op s).1 = some (.signed t)) :
    cachedFor t s = some (.signed t) ∧ ∀ x, op.caching ≠ some (t.account, x) := by
  rw [cachedFor_eq_cache] at hs ⊢
  cases hc : op.caching with
  | none =>
    rw [cache_exec_of_not_caching hc] at hs
    exact ⟨hs, fun x => Option.some_ne_none _ ∘ Eq.symm⟩
  | some w =>
    obtain ⟨k, x⟩ := w
    rw [cache_exec_of_caching hc] at hs
    by_cases hk : t.account = k
    · rw [hk, Function.update_self] at hs
      rw [hs] at hc
      exact absurd hc (h.caching hg k)
    · rw [Function.update_of_ne hk] at hs
      refine ⟨hs, ?_⟩
      rintro x' hx'
      cases hx'
      exact hk rfl

/-- Once a request has come to the account of the token, the token is out of the cache. -/
theorem EndingStep.not_cached (h : EndingStep t g op s g') (hg : g.issuing = false)
    (hs : g.account = some t.account → cachedFor t s ≠ some (.signed t))
    (hg' : g'.account = some t.account) : cachedFor t (exec op s).1 ≠ some (.signed t) := by
  intro hafter
  obtain ⟨hbefore, hnone⟩ := h.cached_before hg hafter
  rcases h.account with hold | ⟨k, x, hk, hcome⟩
  · exact hs (hold.symm.trans hg') hbefore
  · rw [hg', Option.some.injEq] at hcome
    subst hcome
    exact hnone x hk

end Stages

section Programs

variable {t : AuthToken} {g : Ending} {env : Env} {α β ρ : Type}

/-- When the program returns an account, it has come to this account. -/
def EndsAs (t : AuthToken) (f : α → Option AccountKey) (g : Ending) (p : Action α) : Prop :=
  Prog.Tracks exec (EndingStep t) (fun g a => ∀ k, f a = some k → g.account = some k)
    (fun _ => True) g p

/-- What comes first may be anything that mints with the clock of the request. -/
theorem endsAs_bind {f : α → Option AccountKey} {p : Action β} {k : β → Action α} {s : Db}
    (hg : g.Fits t env) (hp : MintingAt env s p)
    (hk : ∀ g' : Ending, g'.Fits t env → ∀ a, EndsAs t f g' (k a)) :
    EndsAs t f g (p >>= k) := by
  have htracks : Prog.Tracks exec (EndingStep t) (fun _ _ => True) (fun _ => True) g p :=
    Prog.Tracks.of_follows (fun op s hop => endingStep_of_mintsAt op hg hop s) hp
  refine Prog.Tracks.bind (htracks.within (S := fun g' => g'.Fits t env) ?_ ?_ ?_ hg)
  · intro g₁ op s' g₂ h₁ hstep h₂
    exact h₁ (hstep.issuing.symm.trans h₂)
  · exact fun g' a hg' => hk g' hg' a
  · exact fun _ _ => trivial

theorem endsAs_catchAll {f : α → Option AccountKey} {p : Action α} {handler : Thrown → α}
    (hf : ∀ e, f (handler e) = none) (hp : EndsAs t f g p) : EndsAs t f g (p.catchAll handler) := by
  refine Prog.Tracks.catchAll (fun g' e _ k hk => ?_) hp
  rw [hf e] at hk
  cases hk

theorem endsAs_done {f : α → Option AccountKey} {a : α} (h : f a = none) :
    EndsAs t f g (.done a) := by
  intro k hk
  rw [h] at hk
  cases hk

theorem endsAs_checked {f : Response ρ → Option AccountKey} {checks : List (Bool × MessageKey)}
    {k : Action (Response ρ)} (hf : ∀ key, f { key := key } = none) (hk : EndsAs t f g k) :
    EndsAs t f g (checked checks k) := by
  refine tracks_checked (fun key => ?_) fun _ => hk
  intro k' hk'
  rw [hf key] at hk'
  cases hk'

section Users

/-- The user of an answer, as an account. -/
abbrev userEnded (a : UserResponse) : Option AccountKey :=
  (a.result.bind UserResult.subject).map .user

variable (b : UserBody)

theorem endsAs_getUserLogin (hg : g.Fits t env) (condition : Except Thrown (User → Bool))
    (deviceId : Option Json) :
    EndsAs t (fun a => a.map fun u => .user u.user.id) g (getUserLogin env condition deviceId) := by
  refine tracks_cast_bind trivial fun p _ => tracks_query_bind endingStep_of_counts fun s => ?_
  cases s.users.findOne p with
  | none => exact endsAs_done rfl
  | some u =>
    intro s₁
    refine ⟨_, endingStep_of_caching (.delUserToken u.id) hg trivial rfl s₁, fun s₂ => ?_⟩
    refine ⟨_, endingStep_of_mintsAt (.setUserToken u.id (generateToken env u.id))
      (hg.come _) rfl s₂, ?_⟩
    refine tracks_cast_bind trivial fun d _ s₃ => ?_
    refine ⟨_, endingStep_of_not_caching rfl s₃, fun s₄ => ?_⟩
    refine ⟨_, endingStep_of_not_caching rfl s₄, ?_⟩
    -- What is read at the end is the record of the user that was logged in.
    intro k hk
    obtain ⟨v, hv, rfl⟩ := Option.map_eq_some_iff.mp hk
    obtain ⟨u', hu', rfl⟩ := Option.map_eq_some_iff.mp hv
    exact congrArg (fun id => some (AccountKey.user id))
      ((Collection.get?_eq_some_iff _ _ _).mp hu').2.symm

theorem endsAs_login (hg : g.Fits t env) (smsSent : Bool) :
    EndsAs t userEnded g (login env b smsSent) := by
  refine endsAs_checked (fun _ => rfl) ?_
  refine endsAs_bind hg (minting_saveLoginOtp env b _ .empty) fun g' _ saved => ?_
  split
  · split
    · exact endsAs_done rfl
    · trivial
  · exact endsAs_done rfl

theorem endsAs_verifyLoginOtp (hg : g.Fits t env) :
    EndsAs t userEnded g (verifyLoginOtp env b) := by
  refine endsAs_catchAll (fun _ => rfl) (endsAs_checked (fun _ => rfl) ?_)
  refine endsAs_bind hg (minting_isValidUserOtp env _ _ .empty) fun g' hg' isverify => ?_
  split
  · refine Prog.Tracks.bind ((endsAs_getUserLogin hg' _ _).mono fun g'' data hdata => ?_)
    cases data with
    | none => exact endsAs_done rfl
    | some u => exact hdata
  · exact endsAs_done rfl

theorem endsAs_registerUser (hg : g.Fits t env) (profilePic document : String) (seqId : ℕ) :
    EndsAs t userEnded g (registerUser env b profilePic document seqId) := by
  refine endsAs_bind hg (minting_createUserData env _ .empty) fun g' hg' id => ?_
  refine Prog.Tracks.bind ((endsAs_getUserLogin hg' _ _).mono fun g'' data hdata => ?_)
  cases data with
  | none => trivial
  | some u => exact hdata

theorem endsAs_register (hg : g.Fits t env) (files : Option UserFiles) :
    EndsAs t userEnded g (register env b files) := by
  refine endsAs_catchAll (fun _ => rfl) (endsAs_checked (fun _ => rfl) ?_)
  rcases files with _ | ⟨profilePic, _ | document⟩
  · trivial
  · exact endsAs_done rfl
  refine tracks_cast_bind trivial fun p _ => tracks_query_bind endingStep_of_counts fun s => ?_
  split
  · refine tracks_getSequence_bind endingStep_of_counts _ trivial fun n => ?_
    cases profilePic with
    | none => trivial
    | some profilePic => exact endsAs_registerUser b hg profilePic document n
  · unfold alreadyRegister
    cases b.phone with
    | none => trivial
    | some v =>
      dsimp only
      split
      · trivial
      · exact endsAs_done rfl

/-- The mail comes after the token, and writes to no cache. -/
theorem endsAs_sendEmailOtp {u : User} (hg : g.account = some (.user u.id)) :
    EndsAs t userEnded g (sendEmailOtp env u) := by
  intro s₁
  refine ⟨g, endingStep_of_not_caching rfl s₁, ?_⟩
  change EndsAs t userEnded g (checkRetry env.now _ >>= fun _ =>
    saveOtp env none (some (.str u.email)) "1111" >>= fun _ => _)
  generalize (exec (DbOp.read _) s₁).2 = record
  rcases checkRetry_cases env.now record with h | ⟨h, -⟩
  · rw [h]
    trivial
  · rw [h]
    change EndsAs t userEnded g (saveOtp env none (some (.str u.email)) "1111" >>= fun _ => _)
    refine Prog.Tracks.bind (tracks_cast_bind trivial fun _ _ => ?_)
    refine tracks_cast_bind trivial fun _ _ s₂ => ?_
    refine ⟨g, endingStep_of_not_caching rfl s₂, fun k hk => ?_⟩
    exact hg.trans hk

theorem endsAs_forgotPassword (hg : g.Fits t env) :
    EndsAs t userEnded g (forgotPassword env b) := by
  refine endsAs_catchAll (fun _ => rfl) (tracks_cast_bind trivial fun p _ => ?_)
  refine tracks_query_bind endingStep_of_counts fun s => ?_
  cases s.users.findOne p with
  | none => exact endsAs_done rfl
  | some u =>
    intro s₁
    refine ⟨_, endingStep_of_caching (.delUserToken u.id) hg trivial rfl s₁, fun s₂ => ?_⟩
    refine ⟨_, endingStep_of_mintsAt (.setUserToken u.id (generateToken env u.id))
      (hg.come _) rfl s₂, ?_⟩
    change EndsAs t userEnded _ (Prog.catchAll userError (sendEmailOtp env u) >>= fun _ => _)
    refine Prog.Tracks.bind ((endsAs_catchAll (fun _ => rfl) (endsAs_sendEmailOtp rfl)).mono ?_)
    exact fun _ _ h => h

/-- The authorization only reads, and lets through the holder of the token. -/
theorem tracks_authorize (now : ℤ) (token : TokenText) :
    Prog.Tracks exec (EndingStep t)
      (fun g' user => g' = g ∧ ∀ id type, user = some (id, type) → token.holder = some id)
      (fun _ => True) g (authorize now token) := by
  unfold authorize
  cases token with
  | plain text => exact ⟨rfl, fun _ _ h => by cases h⟩
  | signed tok =>
    have hnone : ∀ id type, (none : Option (ObjectId × String)) = some (id, type) →
        TokenText.holder (.signed tok) = some id := fun _ _ h => by cases h
    have hfound {γ : Type} (found : Option γ) : ∀ id type,
        (found.map fun _ => (tok.userId, tok.userType)) = some (id, type) →
          TokenText.holder (.signed tok) = some id := by
      intro id type h
      obtain ⟨-, -, heq⟩ := Option.map_eq_some_iff.mp h
      cases heq
      rfl
    dsimp only
    split
    · exact ⟨rfl, hnone⟩
    refine tracks_query_bind endingStep_of_counts fun s => ?_
    generalize (if tok.issuer = "PROVIDER" then s.providerCache tok.userId
      else s.userCache tok.userId) = userToken
    split
    · exact ⟨rfl, hnone⟩
    split
    · exact ⟨rfl, hnone⟩
    split
    · refine tracks_query_bind endingStep_of_counts fun s' => ?_
      exact ⟨rfl, hfound _⟩
    split
    · refine tracks_query_bind endingStep_of_counts fun s' => ?_
      exact ⟨rfl, hfound _⟩
    · exact ⟨rfl, hfound (some ())⟩

theorem endsAs_logout (hg : g.Fits t env) (token : TokenText) :
    EndsAs t (fun a => (loggedOut token a).map .user) g (logout env token) := by
  refine Prog.Tracks.bind ((tracks_authorize env.now token).mono ?_)
  rintro g' user ⟨rfl, huser⟩
  cases user with
  | none => exact endsAs_done rfl
  | some user =>
    obtain ⟨id, type⟩ := user
    refine endsAs_catchAll (fun _ => rfl) fun s₁ => ?_
    refine ⟨_, endingStep_of_caching (.delUserToken id) hg trivial rfl s₁, fun s₂ => ?_⟩
    refine ⟨_, endingStep_of_not_caching rfl s₂, fun k hk => ?_⟩
    change (TokenText.holder token).map _ = some k at hk
    rw [huser id type rfl] at hk
    exact hk

theorem endsAs_user (r : UserRequest) (hg : g.Fits t r.env) :
    EndsAs t (fun a => (r.ended a).map .user) g r.program := by
  obtain ⟨handler, b, env⟩ := r
  cases handler with
  | login smsSent => exact endsAs_login b hg smsSent
  | verifyLoginOtp => exact endsAs_verifyLoginOtp b hg
  | register files => exact endsAs_register b hg files
  | forgotPassword => exact endsAs_forgotPassword b hg
  | logout token => exact endsAs_logout hg token

end Users

section Accounts

theorem endsAs_getProviderLogin (hg : g.Fits t env) (condition : Except Thrown (Provider → Bool))
    (deviceId : Option Json) :
    EndsAs t (fun a => a.map fun p => .provider p.id) g
      (Providers.getUserLogin env condition deviceId) := by
  refine tracks_cast_bind trivial fun p _ => tracks_query_bind endingStep_of_counts fun s => ?_
  cases s.providers.findOne p with
  | none => exact endsAs_done rfl
  | some u =>
    intro s₁
    refine ⟨_, endingStep_of_caching (.delProviderToken u.id) hg trivial rfl s₁, fun s₂ => ?_⟩
    refine ⟨_, endingStep_of_mintsAt (.setProviderToken u.id (generateProviderToken env u.id))
      (hg.come _) rfl s₂, ?_⟩
    refine tracks_cast_bind trivial fun d _ s₃ => ?_
    refine ⟨_, endingStep_of_not_caching rfl s₃, fun s₄ => ?_⟩
    refine ⟨_, endingStep_of_not_caching rfl s₄, fun k hk => ?_⟩
    obtain ⟨p', hp', rfl⟩ := Option.map_eq_some_iff.mp hk
    exact congrArg (fun id => some (AccountKey.provider id))
      ((Collection.get?_eq_some_iff _ _ _).mp hp').2.symm

theorem endsAs_verifyProviderOtp (hg : g.Fits t env) (b : UserBody) :
    EndsAs t (fun a => (a.result.bind ProviderLoginResult.subject).map .provider) g
      (Providers.verifyLoginOtp env b) := by
  refine endsAs_catchAll (fun _ => rfl) (endsAs_checked (fun _ => rfl) ?_)
  refine endsAs_bind hg (minting_isValidUserOtp env _ _ .empty) fun g' hg' isverify => ?_
  split
  · refine Prog.Tracks.bind ((endsAs_getProviderLogin hg' _ _).mono fun g'' data hdata => ?_)
    cases data with
    | none => exact endsAs_done rfl
    | some p => exact hdata
  · exact endsAs_done rfl

theorem endsAs_logoutProvider (hg : g.Fits t env) (token : TokenText) :
    EndsAs t (fun a => (loggedOut token a).map .provider) g (Providers.logout env token) := by
  refine Prog.Tracks.bind ((tracks_authorize env.now token).mono ?_)
  rintro g' user ⟨rfl, huser⟩
  cases user with
  | none => exact endsAs_done rfl
  | some user =>
    obtain ⟨id, type⟩ := user
    refine endsAs_catchAll (fun _ => rfl) fun s₁ => ?_
    refine ⟨_, endingStep_of_caching (.delProviderToken id) hg trivial rfl s₁, fun s₂ => ?_⟩
    refine ⟨_, endingStep_of_not_caching rfl s₂, fun k hk => ?_⟩
    change (TokenText.holder token).map _ = some k at hk
    rw [huser id type rfl] at hk
    exact hk

end Accounts

def SiteCall.start (t : AuthToken) (call : SiteCall) : Ending := { issuing := call.issues t }

theorem SiteCall.fits_start {call : SiteCall} (h : call.env = some env) :
    (call.start t).Fits t env := by
  intro hissues henv
  unfold start issues at hissues
  rw [h, Option.any_some, decide_eq_false_iff_not] at hissues
  exact hissues henv

/-- A request without a clock issues nothing, and so it fits any other clock. -/
theorem SiteCall.exists_fits (t : AuthToken) (call : SiteCall) :
    ∃ env, (∀ e, call.env = some e → e = env) ∧ (call.start t).Fits t env := by
  cases henv : call.env with
  | some env => exact ⟨env, fun _ h => (Option.some.inj h).symm, fits_start henv⟩
  | none =>
    refine ⟨clockAt (t.createdAt+1), fun _ h => (by cases h), fun _ htoken => ?_⟩
    have hcreated : t.createdAt+1 = t.createdAt := by
      cases hk : t.account with
      | user id =>
        rw [hk] at htoken
        exact congrArg AuthToken.createdAt (TokenText.signed.inj htoken)
      | provider id =>
        rw [hk] at htoken
        exact congrArg AuthToken.createdAt (TokenText.signed.inj htoken)
    omega

theorem SiteCall.endsAs (t : AuthToken) (call : SiteCall) :
    EndsAs t id (call.start t) call.ending := by
  cases call with
  | session r =>
    cases r with
    | user r => exact Prog.Tracks.bind (endsAs_user r (SiteCall.fits_start rfl))
    | verifyProviderOtp b env =>
      exact Prog.Tracks.bind (endsAs_verifyProviderOtp (SiteCall.fits_start rfl) b)
    | logoutProvider token env =>
      exact Prog.Tracks.bind (endsAs_logoutProvider (SiteCall.fits_start rfl) token)
    | registerProvider files b env =>
      have hfits : (SiteCall.start t (.session (.registerProvider files b env))).Fits t env :=
        SiteCall.fits_start rfl
      refine endsAs_bind (s := .empty) hfits ?_ fun _ _ _ => endsAs_done rfl
      exact (minting_registerProvider env b files _).catchAll fun _ _ => trivial
  | staff call =>
    obtain ⟨env, henv, hfits⟩ := SiteCall.exists_fits t (.staff call)
    exact endsAs_bind hfits (SiteCall.mintingAt (.staff call) henv .empty)
      fun _ _ _ => endsAs_done rfl

end Programs

section Runs

variable {t : AuthToken}

theorem EndingPool.ended_eq_some {c : EndingPool} {i : ℕ} {k : AccountKey}
    (h : c.ended i = some k) : c.threads[i]? = some (.done (some k)) := by
  unfold EndingPool.ended at h
  split at h
  · rename_i a ha
    rw [ha, h]
  · cases h

def startStages (t : AuthToken) (calls : List SiteCall) (i : ℕ) : Ending :=
  (calls[i]?.map (SiteCall.start t)).getD { issuing := false }

theorem account_startStages (calls : List SiteCall) (i : ℕ) :
    (startStages t calls i).account = none := by
  unfold startStages
  cases calls[i]? with
  | none => rfl
  | some call => rfl

theorem issuing_startStages {calls : List SiteCall} {i : ℕ}
    (h : calls[i]?.any (SiteCall.issues t) = false) : (startStages t calls i).issuing = false := by
  unfold startStages
  cases hi : calls[i]? with
  | none => rfl
  | some call =>
    rw [hi, Option.any_some] at h
    exact h

theorem tracking_endingPool (s : Db) (calls : List SiteCall) :
    (EndingPool.of s calls).Tracking exec (EndingStep t)
      (fun g a => ∀ k, id a = some k → g.account = some k) (fun _ => True)
      (startStages t calls) := by
  intro i p hp
  obtain ⟨call, hcall, rfl⟩ := Option.map_eq_some_iff.mp (List.getElem?_map.symm.trans hp)
  have hstart : startStages t calls i = call.start t := by
    unfold startStages
    rw [hcall]
    rfl
  rw [hstart]
  exact call.endsAs t

theorem issuing_update {g₀ gs : ℕ → Ending} {j : ℕ} {g : Ending} {op : DbOp} {s : Db}
    (h : ∀ k, (gs k).issuing = (g₀ k).issuing) (hg : EndingStep t (gs j) op s g) (k : ℕ) :
    (Function.update gs j g k).issuing = (g₀ k).issuing := by
  by_cases hk : k = j
  · subst hk
    rw [Function.update_self]
    exact hg.issuing.trans (h k)
  · rw [Function.update_of_ne hk]
    exact h k

/-- Once a request that began after the token was issued has ended the sessions of its account,
the token is refused, whatever runs beside it and after it. -/
theorem ended_sessions_refused (s : Db) (calls : List SiteCall) (pre post : List ℕ) {i : ℕ}
    (hbegun : i ∉ pre)
    (hissued : ∀ j ∈ post, calls[j]?.any (SiteCall.issues t) = false)
    (hended : EndingPool.ended
      (runFrom (Pool.stepAt exec) (EndingPool.of s calls) (pre ++ post)) i = some t.account)
    (now : ℤ) {r : AuthRequest} (hr : r.token = some (.text (.signed t))) :
    (passage now r
      (runFrom (Pool.stepAt exec) (EndingPool.of s calls) (pre ++ post)).state).Refuses := by
  rw [runFrom_append] at hended ⊢
  -- Until the request begins, all that matters is which requests may issue the token.
  obtain ⟨gs, htrack, hissuing, hsame⟩ := (tracking_endingPool (t := t) s calls).run
    (I := fun _ gs => ∀ j, (gs j).issuing = (startStages t calls j).issuing)
    (fun _ _ _ _ _ hI _ _ hg => issuing_update hI hg) (fun _ => rfl)
    ((along_iff_split _ (fun _ _ => True) _ pre).mpr fun _ _ _ _ => trivial)
  have hfirst : (gs i).account = none := by
    rw [hsame i (Or.inl hbegun)]
    exact account_startStages calls i
  -- From then on no request issues it, and the request takes it out of the cache.
  obtain ⟨gs', htrack', ⟨-, hout⟩, -⟩ := htrack.run (P := fun _ j => j ∈ post)
    (I := fun s gs => (∀ j, (gs j).issuing = (startStages t calls j).issuing) ∧
      ((gs i).account = some t.account → cachedFor t s ≠ some (.signed t)))
    (fun c gs j op g hI hj _ hg => by
      have hquiet : (gs j).issuing = false :=
        (hI.1 j).trans (issuing_startStages (hissued j hj))
      refine ⟨issuing_update hI.1 hg, ?_⟩
      by_cases hij : i = j
      · subst hij
        rw [Function.update_self]
        exact hg.not_cached hquiet hI.2
      · rw [Function.update_of_ne hij]
        exact fun hi hafter => hI.2 hi (hg.cached_before hquiet hafter).1)
    ⟨hissuing, fun hi => by
      rw [hfirst] at hi
      cases hi⟩
    ((along_iff_split _ _ _ post).mpr fun _ _ _ hsplit => by
      rw [hsplit]
      exact List.mem_append_right _ List.mem_cons_self)
  have hcome := htrack' i _ (EndingPool.ended_eq_some hended) t.account rfl
  exact refuses_of_not_cached hr (hout hcome)

def sentOtpDb : Db :=
  { oneAccountDb with verifyOtps := [⟨some (.fin 800), none, some "123456", some 0⟩] }

def loginAndOut : List SiteCall :=
  [.session (.user ⟨.verifyLoginOtp,
      { mobile := some (.num 800 0), otp := some (.str "123456") }, clockAt 1000⟩),
    .session (.user ⟨.logout (generateToken (clockAt 1000) ⟨1⟩), {}, clockAt 2000⟩),
    .session (.user ⟨.login true, { mobile := some (.num 800 0) }, clockAt 90000⟩)]

def loginToken : AuthToken := ⟨⟨1⟩, "USER", "USER", 1000, 31536001⟩

/-- After the login the token is let through, and after the logout it is refused. -/
theorem ended_sessions_refused_logout :
    (passage 2000 { authorization := some (.signed loginToken) }
      (runFrom (Pool.stepAt exec) (EndingPool.of sentOtpDb loginAndOut)
        [0, 0, 2, 0, 0, 0, 0, 0]).state).nextCalls = 1 ∧
    (passage 2000 { authorization := some (.signed loginToken) }
      (runFrom (Pool.stepAt exec) (EndingPool.of sentOtpDb loginAndOut)
        ([0, 0, 2, 0, 0, 0, 0, 0] ++ [1, 2, 1, 1, 2, 1])).state).Refuses :=
  ⟨by decide +kernel, ended_sessions_refused sentOtpDb loginAndOut _ _ (i := 1) (by decide)
    (by decide +kernel) (by decide +kernel) 2000 rfl⟩

end Runs

end DoQwik
