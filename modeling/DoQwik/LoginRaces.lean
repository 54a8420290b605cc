import DoQwik.Interference
import DoQwik.SessionStores

/-! Logins side by side: whether the token on the record of an account is the one in the cache
when all of them are over. -/
namespace DoQwik
open JsValues DocStore Interleave TokenStore

section Calls

/-- A call of `getUserLogin`, of the user service or of the provider service. -/
inductive LoginCall where
  | user (env : Env) (condition : Except Thrown (User → Bool)) (deviceId : Option Json)
  | provider (env : Env) (condition : Except Thrown (Provider → Bool)) (deviceId : Option Json)

inductive LoggedIn where
  | user (u : PopulatedUser)
  | provider (p : Provider)

def LoggedIn.key : LoggedIn → AccountKey
  | user u => .user u.user.id
  | provider p => .provider p.id

def LoggedIn.token : LoggedIn → Option TokenText
  | user u => u.user.token
  | provider p => p.token

def LoginCall.program : LoginCall → Action (Option LoggedIn)
  | user env condition deviceId => do
    let data ← getUserLogin env condition deviceId
    pure (data.map .user)
  | provider env condition deviceId => do
    let data ← Providers.getUserLogin env condition deviceId
    pure (data.map .provider)

def LoginCall.storable : LoginCall → Bool
  | user _ _ deviceId => DoQwik.storable deviceId
  | provider _ _ deviceId => DoQwik.storable deviceId

abbrev LoginPool := Pool Db DbOp Ret Thrown (Option LoggedIn)

def LoginPool.of (s : Db) (calls : List LoginCall) : LoginPool := ⟨s, calls.map LoginCall.program⟩

/-- What the login returned, if it is over and found its account. -/
def LoginPool.answer (c : LoginPool) (i : ℕ) : Option LoggedIn :=
  match c.threads[i]? with
  | some (.done a) => a
  | _ => none

def LoginPool.finished (c : LoginPool) : Bool := c.threads.all fun p => p.next.isNone

def DbOp.recordsToken : DbOp → Option (AccountKey × TokenText)
  | .updateUser _ d _ =>
    match d.token with
    | some (some (.signed t)) => some (.user t.userId, .signed t)
    | _ => none
  | .loginProvider id t _ _ => some (.provider id, t)
  | _ => none

/-- The login is about to put a token on record that is no longer in the cache: another login
cleared or replaced it. -/
def overtaken (c : LoginPool) (i : ℕ) : Bool :=
  match (c.nextOp i).bind DbOp.recordsToken with
  | some (k, t) => decide ((tokenStores c.state).cache k ≠ some t)
  | none => false

end Calls

section Tokens

def AccountKey.id : AccountKey → ObjectId
  | user id => id
  | provider id => id

def AccountKey.userType : AccountKey → String
  | user _ => "USER"
  | provider _ => "PROVIDER"

def tokenFor (env : Env) : AccountKey → TokenText
  | .user id => generateToken env id
  | .provider id => generateProviderToken env id

def Minted (k : AccountKey) (t : TokenText) : Prop := ∃ env, t = tokenFor env k

def TokenText.expired (now : ℤ) : TokenText → Bool
  | .plain _ => false
  | .signed t => decide (t.expiresAt ≤ now/1000)

/-- The authorization accepts the token for the account until it expires. -/
def Honoured (s : Db) (k : AccountKey) (t : TokenText) : Prop :=
  ∀ now, t.expired now = false → authorized now t s = some (k.id, k.userType)

theorem honoured_of_fixed {s : Db} {k : AccountKey} {t : TokenText} (hm : Minted k t)
    (hrecord : (tokenStores s).record k = some (some t))
    (hcache : (tokenStores s).cache k = some t) : Honoured s k t := by
  obtain ⟨env, rfl⟩ := hm
  intro now hnow
  cases k with
  | user id =>
    have hlive : ¬ env.now/1000+tokenLifetime ≤ now/1000 := by
      simpa [TokenText.expired, tokenFor, generateToken] using hnow
    have huser : (s.users.get? id).isSome = true := by
      obtain ⟨u, hu, -⟩ := Option.map_eq_some_iff.mp hrecord
      rw [hu]
      rfl
    obtain ⟨u, hu⟩ := Option.isSome_iff_exists.mp huser
    have hcache' : s.userCache id = some (generateToken env id) := hcache
    -- The user that the authorization populates is the one on record.
    unfold authorized
    simp only [tokenFor]
    rw [run_authorize_generateToken, if_neg (by simp [hlive, hcache']), hu]
    rfl
  | provider id =>
    have hlive : ¬ env.now/1000+tokenLifetime ≤ now/1000 := by
      simpa [TokenText.expired, tokenFor, generateProviderToken] using hnow
    obtain ⟨p, hp, -⟩ := Option.map_eq_some_iff.mp hrecord
    have hcache' : s.providerCache id = some (generateProviderToken env id) := hcache
    unfold generateProviderToken at hcache'
    unfold authorized
    simp [tokenFor, generateProviderToken, authorize, hlive, hcache', hp, AccountKey.id,
      AccountKey.userType]

end Tokens

section Tracking

def LoginOp (g : LoginStage AccountKey TokenText) (op : DbOp) (s : Db)
    (g' : LoginStage AccountKey TokenText) : Prop :=
  LoginStep Minted g (tokenStores s) (tokenStores (exec op s).1) g' ∧
    ∀ k t, g = .cached k t → op.recordsToken = some (k, t)

def Concludes (g : LoginStage AccountKey TokenText) : Option LoggedIn → Prop
  | none => ∀ k, ¬ g.Pending k
  | some a => g = .answered a.key (liveToken a.token)

def LoginStaged (g : LoginStage AccountKey TokenText) (p : Action (Option LoggedIn)) : Prop :=
  Prog.Tracks exec LoginOp Concludes (fun g => ∀ k, ¬ g.Pending k) g p

theorem exists_of_storable {deviceId : Option Json} (h : storable deviceId = true) :
    ∃ d, castSet castString (ifTruthy deviceId) = .ok d := by
  unfold storable at h
  cases hd : castSet castString (ifTruthy deviceId) with
  | error e =>
    rw [hd] at h
    cases h
  | ok d => exact ⟨d, rfl⟩

/-- The writes of a login that found its account, by the operations for the two stores. -/
theorem staged_writes {β : Type} {k : AccountKey} {t : TokenText} {clear cache record : DbOp}
    {find : Db → Option β} {wrap : β → LoggedIn}
    (hclear : ∀ s, tokenStores (exec clear s).1 = (tokenStores s).cacheAs k none)
    (hcache : ∀ s, tokenStores (exec cache s).1 = (tokenStores s).cacheAs k (some t))
    (hrecord : ∀ s, tokenStores (exec record s).1 = (tokenStores s).recordAs k (some t))
    (hop : record.recordsToken = some (k, t))
    (hfind : ∀ s a, find s = some a →
      (wrap a).key = k ∧ (tokenStores s).record k = some (liveToken (wrap a).token)) :
    LoginStaged (.found k t) (.call clear fun _ => .call cache fun _ => .call record fun _ =>
      .call (.read find) fun a => .done (a.map wrap)) := by
  -- Each operation is answered in a state of its own: other logins run in between.
  intro s₁
  refine ⟨.cleared k t, ⟨?_, fun _ _ hg => by cases hg⟩, ?_⟩
  · rw [hclear]
    exact .clear
  intro s₂
  refine ⟨.cached k t, ⟨?_, fun _ _ hg => by cases hg⟩, ?_⟩
  · rw [hcache]
    exact .cache
  intro s₃
  refine ⟨.recorded k, ⟨?_, ?_⟩, ?_⟩
  · rw [hrecord]
    exact .record
  · intro k' t' hg
    cases hg
    exact hop
  intro s₄
  cases ha : find s₄ with
  | none =>
    -- The account is gone: the login returns nothing, and it has nothing left to write.
    refine ⟨.recorded k, ⟨.wait (by simp), fun _ _ hg => by cases hg⟩, ?_⟩
    simp only [exec_read, ha]
    exact fun _ => id
  | some a =>
    obtain ⟨hkey, htok⟩ := hfind s₄ a ha
    refine ⟨.answered k (liveToken (wrap a).token),
      ⟨.answer htok, fun _ _ hg => by cases hg⟩, ?_⟩
    simp only [exec_read, ha]
    change LoginStage.answered k _ = .answered (wrap a).key _
    rw [hkey]

theorem staged_user (env : Env) (condition : Except Thrown (User → Bool)) {deviceId : Option Json}
    (h : storable deviceId = true) :
    LoginStaged .idle (LoginCall.user env condition deviceId).program := by
  obtain ⟨d, hd⟩ := exists_of_storable h
  cases condition with
  | error e => exact fun _ => id
  | ok p =>
    intro s
    cases hu : s.users.findOne p with
    | none =>
      refine ⟨.idle, ⟨.wait (by simp), fun _ _ hg => by cases hg⟩, ?_⟩
      simp only [exec_read, hu]
      exact fun _ => id
    | some u =>
      have hrecord : ((tokenStores s).record (.user u.id)).isSome = true := by
        change (recordOf User.token s.users u.id).isSome = true
        rw [recordOf, Collection.get?_of_findOne hu]
        rfl
      refine ⟨.found (.user u.id) (generateToken env u.id),
        ⟨.find ⟨env, rfl⟩ hrecord, fun _ _ hg => by cases hg⟩, ?_⟩
      simp only [exec_read, hu, hd]
      refine staged_writes (fun _ => stores_delUserToken u.id) (fun _ => stores_setUserToken u.id _)
        (fun _ => ?_) rfl fun t a ha => ?_
      · rw [stores_updateUser u.id rfl, generateToken, liveToken_signed]
      · obtain ⟨v, hv, rfl⟩ := Option.map_eq_some_iff.mp ha
        refine ⟨congrArg AccountKey.user ((t.users.get?_eq_some_iff _ _).mp hv).2, ?_⟩
        change recordOf User.token t.users u.id = _
        rw [recordOf, hv]
        rfl

theorem staged_provider (env : Env) (condition : Except Thrown (Provider → Bool))
    {deviceId : Option Json} (h : storable deviceId = true) :
    LoginStaged .idle (LoginCall.provider env condition deviceId).program := by
  obtain ⟨d, hd⟩ := exists_of_storable h
  cases condition with
  | error e => exact fun _ => id
  | ok q =>
    intro s
    cases hp : s.providers.findOne q with
    | none =>
      refine ⟨.idle, ⟨.wait (by simp), fun _ _ hg => by cases hg⟩, ?_⟩
      simp only [exec_read, hp]
      exact fun _ => id
    | some p =>
      have hrecord : ((tokenStores s).record (.provider p.id)).isSome = true := by
        change (recordOf Provider.token s.providers p.id).isSome = true
        rw [recordOf, Collection.get?_of_findOne hp]
        rfl
      refine ⟨.found (.provider p.id) (generateProviderToken env p.id),
        ⟨.find ⟨env, rfl⟩ hrecord, fun _ _ hg => by cases hg⟩, ?_⟩
      simp only [exec_read, hp, hd]
      refine staged_writes (fun _ => stores_delProviderToken p.id)
        (fun _ => stores_setProviderToken p.id _) (fun _ => ?_) rfl fun t v hv => ?_
      · rw [stores_loginProvider, generateProviderToken, liveToken_signed]
      · refine ⟨congrArg AccountKey.provider ((t.providers.get?_eq_some_iff _ _).mp hv).2, ?_⟩
        change recordOf Provider.token t.providers p.id = _
        rw [recordOf, hv]
        rfl

end Tracking

section Usability

/-- When the last of the logins is over, every account that was logged in has one token in both
stores, and the last login returned a token that the authorization accepts. -/
def LeavesUsableSessions (s : Db) (calls : List LoginCall) (sched : List ℕ) : Prop :=
  ∀ pre last post, sched = pre ++ last :: post →
    let before := runFrom (Pool.stepAt exec) (LoginPool.of s calls) pre
    let after := before.stepAt exec last
    LoginPool.finished before = false → LoginPool.finished after = true →
      (∀ i a, LoginPool.answer after i = some a → ∃ t,
        (tokenStores after.state).record a.key = some (some t) ∧
          (tokenStores after.state).cache a.key = some t) ∧
      ∀ a, LoginPool.answer after last = some a → ∃ t,
        a.token = some t ∧ Honoured after.state a.key t

/-- One step of a run. -/
theorem settling_step {c : LoginPool} {gs : ℕ → LoginStage AccountKey TokenText} {i : ℕ}
    {op : DbOp} {g : LoginStage AccountKey TokenText}
    (h : Settling Minted (tokenStores c.state) gs) (hover : overtaken c i = false)
    (hop : c.nextOp i = some op) (hg : LoginOp (gs i) op c.state g) :
    Settling Minted (tokenStores (exec op c.state).1) (Function.update gs i g) := by
  refine h.step hg.1 fun k t hcached => ?_
  unfold overtaken at hover
  rw [hop, Option.bind_some, hg.2 k t hcached] at hover
  simpa using hover

theorem LoginPool.answer_eq_some {c : LoginPool} {i : ℕ} {a : LoggedIn}
    (h : c.answer i = some a) : c.threads[i]? = some (.done (some a)) := by
  unfold LoginPool.answer at h
  split at h
  · rename_i b hb
    rw [hb, h]
  · cases h

theorem LoginPool.nextOp_of_finished {c : LoginPool} (h : c.finished = true) (i : ℕ) :
    c.nextOp i = none := by
  unfold Pool.nextOp
  cases hp : c.threads[i]? with
  | none => rfl
  | some p =>
    have hnone := List.all_eq_true.mp h p (List.mem_of_getElem? hp)
    exact Option.isNone_iff_eq_none.mp hnone

theorem eq_of_liveToken {tok : Option TokenText} {t : TokenText} (h : liveToken tok = some t) :
    tok = some t := by
  unfold liveToken at h
  split at h
  · cases h
  · exact h

/-- A login whose device can be stored is at the first of its stages. -/
theorem LoginCall.staged {call : LoginCall} (h : call.storable = true) :
    LoginStaged .idle call.program := by
  cases call with
  | user env condition deviceId => exact staged_user env condition h
  | provider env condition deviceId => exact staged_provider env condition h

/-- The stages of the logins after a run without an overtaken login. -/
theorem exists_stages_of_timely {s : Db} {calls : List LoginCall}
    (hdevices : ∀ call ∈ calls, call.storable = true) {sched : List ℕ}
    (htimely : Along (Pool.stepAt exec) (fun c i => overtaken c i = false) (LoginPool.of s calls)
      sched) :
    let c := runFrom (Pool.stepAt exec) (LoginPool.of s calls) sched
    ∃ gs : ℕ → LoginStage AccountKey TokenText,
      c.Tracking exec LoginOp Concludes (fun g => ∀ k, ¬ g.Pending k) gs ∧
      Settling Minted (tokenStores c.state) gs ∧ ∀ i, c.threads[i]? = none → gs i = .idle := by
  -- At the start every login is idle, and nothing is claimed of the stores.
  have hstart : (LoginPool.of s calls).Tracking exec LoginOp Concludes (fun g => ∀ k, ¬ g.Pending k)
      fun _ => .idle := by
    intro i p hp
    obtain ⟨call, hcall, rfl⟩ := Option.map_eq_some_iff.mp ((List.getElem?_map ..).symm.trans hp)
    exact LoginCall.staged (hdevices call (List.mem_of_getElem? hcall))
  have hsettling : Settling Minted (tokenStores s) fun _ => .idle :=
    ⟨fun _ _ _ => False.elim, fun _ _ => False.elim⟩
  obtain ⟨gs, htrack, hinv, hsame⟩ := Pool.Tracking.run
    (I := fun t gs => Settling Minted (tokenStores t) gs)
    (fun _ _ _ _ _ h hover hop hg => settling_step h hover hop hg) hstart hsettling htimely
  refine ⟨gs, htrack, hinv, fun i hi => hsame i (Or.inr ?_)⟩
  exact (Pool.threads_run_eq_none exec _ sched i).mp hi

/-- When all logins are over, none is about to write. -/
theorem not_pending_of_finished {c : LoginPool} {gs : ℕ → LoginStage AccountKey TokenText}
    (htrack : c.Tracking exec LoginOp Concludes (fun g => ∀ k, ¬ g.Pending k) gs)
    (habsent : ∀ i, c.threads[i]? = none → gs i = .idle) (hfinished : c.finished = true) (i : ℕ)
    (k : AccountKey) : ¬ (gs i).Pending k := by
  cases hp : c.threads[i]? with
  | none =>
    rw [habsent i hp]
    exact id
  | some p =>
    rcases htrack.ended hp (LoginPool.nextOp_of_finished hfinished i) with ⟨a, -, hq⟩ | ⟨-, he⟩
    · cases a with
      | none => exact hq k
      | some a =>
        have hanswered : gs i = .answered a.key (liveToken a.token) := hq
        rw [hanswered]
        exact id
    · exact he k

/-- Whatever logins run side by side, if their devices can be stored and none puts a token on
record that is no longer in the cache, they leave usable sessions. -/
theorem logins_leave_usable_sessions (s : Db) (calls : List LoginCall)
    (hdevices : ∀ call ∈ calls, call.storable = true) (sched : List ℕ)
    (htimely : Along (Pool.stepAt exec) (fun c i => overtaken c i = false) (LoginPool.of s calls)
      sched) : LeavesUsableSessions s calls sched := by
  rintro pre last post rfl before after hbefore hafter
  obtain ⟨hpre, hlast, -⟩ := (along_append _ _ _ pre (last :: post)).mp htimely
  obtain ⟨gs, htrack, hinv, habsent⟩ := exists_stages_of_timely hdevices hpre
  -- The last step is a real one, since a login was still running before it.
  obtain ⟨op, hop⟩ : ∃ op, before.nextOp last = some op := by
    cases hop : before.nextOp last with
    | some op => exact ⟨op, rfl⟩
    | none =>
      have hsame : after = before := Pool.stepAt_of_nextOp_none exec hop
      rw [hsame, hbefore] at hafter
      cases hafter
  obtain ⟨g, hg, htrack'⟩ := htrack.stepAt hop
  have hstate : after.state = (exec op before.state).1 := by
    change (before.stepAt exec last).state = _
    rw [Pool.state_stepAt, hop, Option.elim_some]
  have hinv' : Settling Minted (tokenStores after.state) (Function.update gs last g) := by
    rw [hstate]
    exact settling_step hinv hlast hop hg
  have habsent' : ∀ i, after.threads[i]? = none → Function.update gs last g i = .idle := by
    intro i hi
    obtain ⟨rest, hrest⟩ := Pool.call_of_nextOp hop
    have hne : i ≠ last := by
      rintro rfl
      change (before.stepAt exec i).threads[i]? = none at hi
      rw [Pool.threads_stepAt_self exec hrest] at hi
      cases hi
    change (before.stepAt exec last).threads[i]? = none at hi
    rw [Pool.threads_stepAt_ne exec _ hne] at hi
    rw [Function.update_of_ne hne]
    exact habsent i hi
  -- No login is pending any more, so that the invariant says that the stores agree.
  have hdone := not_pending_of_finished htrack' habsent' hafter
  have hanswered : ∀ i a, LoginPool.answer after i = some a →
      Function.update gs last g i = .answered a.key (liveToken a.token) := fun i a ha =>
    htrack' i _ (LoginPool.answer_eq_some ha)
  have hfixed : ∀ i a, LoginPool.answer after i = some a →
      (tokenStores after.state).Fixed Minted a.key := by
    intro i a ha
    refine hinv'.fixed (i := i) ?_ fun j => hdone j a.key
    rw [hanswered i a ha]
    rfl
  refine ⟨fun i a ha => ?_, fun a ha => ?_⟩
  · obtain ⟨t, -, hrecord, hcache⟩ := hfixed i a ha
    exact ⟨t, hrecord, hcache⟩
  · obtain ⟨t, hm, hrecord, hcache⟩ := hfixed last a ha
    -- The last login read what was still on record at the end.
    have hread : (tokenStores after.state).record a.key = some (liveToken a.token) := by
      have hg' := hanswered last a ha
      rw [Function.update_self] at hg'
      rw [hstate]
      rw [hg'] at hg
      exact hg.1.record_of_answered
    have htok : liveToken a.token = some t := Option.some.inj (hread.symm.trans hrecord)
    exact ⟨t, eq_of_liveToken htok, honoured_of_fixed hm hrecord hcache⟩

def oneAccountDb : Db := { Db.empty with users := oneUser (plainUser ⟨1⟩ "a@b.c" (.fin 800)) }

def twoLogins : List LoginCall :=
  [.user (clockAt 0) (userById ⟨1⟩) none, .user (clockAt 1000) (userById ⟨1⟩) none]

/-- The second login begins before the first one is over, but finds both its writes done. -/
theorem logins_usable_in_turn :
    LoginPool.finished (runFrom (Pool.stepAt exec) (LoginPool.of oneAccountDb twoLogins)
      [0, 1, 0, 0, 0, 1, 1, 1, 0, 1]) = true ∧
    LeavesUsableSessions oneAccountDb twoLogins [0, 1, 0, 0, 0, 1, 1, 1, 0, 1] :=
  ⟨by decide +kernel, logins_leave_usable_sessions oneAccountDb twoLogins (by decide +kernel) _
    (by decide +kernel)⟩

/-- The second login runs between the two writes of the first one: the cache has the token of the
second, the record that of the first, and the last response carries the one that is refused. -/
theorem login_between_writes :
    ¬ LeavesUsableSessions oneAccountDb twoLogins [0, 0, 0, 1, 1, 1, 1, 1, 0, 0] := by
  intro h
  obtain ⟨-, hlast⟩ :=
    h [0, 0, 0, 1, 1, 1, 1, 1, 0] 0 [] rfl (by decide +kernel) (by decide +kernel)
  generalize hafter : Pool.stepAt exec (runFrom (Pool.stepAt exec)
    (LoginPool.of oneAccountDb twoLogins) [0, 0, 0, 1, 1, 1, 1, 1, 0]) 0 = after at hlast
  have hanswer : (LoginPool.answer after 0).map LoggedIn.token =
      some (some (generateToken (clockAt 0) ⟨1⟩)) := by
    rw [← hafter]
    decide +kernel
  have hrefused : authorized 2000 (generateToken (clockAt 0) ⟨1⟩) after.state = none := by
    rw [← hafter]
    decide +kernel
  obtain ⟨a, ha, htoken⟩ := Option.map_eq_some_iff.mp hanswer
  obtain ⟨t, ht, hhonoured⟩ := hlast a ha
  rw [htoken, Option.some.injEq] at ht
  have haccepted := hhonoured 2000 (by rw [← ht]; decide)
  rw [← ht, hrefused] at haccepted
  cases haccepted

end Usability

end DoQwik
