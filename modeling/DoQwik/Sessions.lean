import DoQwik.UserController
import DoQwik.NumberStrings

/-! Logins and the tokens they hand out: whose phone a login verified, and which requests
hand out the tokens that the authorization accepts. -/
namespace DoQwik
open JsValues DocStore Interleave

section Responses

/-- A response without an account and without a token. -/
def Discreet (a : UserResponse) : Prop := a.header = none ∧ ∀ u, a.result ≠ some (.user u)

theorem discreet_userError (e : Thrown) : Discreet (userError e) := ⟨rfl, fun _ h => by cases h⟩

theorem discreet_refusal (key : MessageKey) : Discreet { key := key } :=
  ⟨rfl, fun _ h => by cases h⟩

theorem ends_reply {Q : Db → UserResponse → Prop} {s : Db} {key : MessageKey}
    {result : Option UserResult} (h : Q s { key := key, result := result }) :
    Prog.Ends exec Q (reply key result) s :=
  Prog.Ends.done h

theorem ends_cast {α : Type} {Q : Db → α → Prop} {s : Db} {r : Except Thrown α}
    (h : ∀ a, r = .ok a → Q s a) : Prog.Ends exec Q (cast r) s := by
  cases r with
  | error e => exact Prog.Ends.fail _ _ _
  | ok a => exact Prog.Ends.done (h a rfl)

theorem ends_query {α : Type} {Q : Db → α → Prop} {s : Db} {f : Db → α} (h : Q s (f s)) :
    Prog.Ends exec Q (query f) s := by
  intro t a hrun
  cases hrun
  exact h

theorem ends_checked {Q : Db → UserResponse → Prop} {s : Db} {checks : List (Bool × MessageKey)}
    {k : Action UserResponse} (hrefuse : ∀ key, Q s { key := key })
    (h : refusal checks = none → Prog.Ends exec Q k s) : Prog.Ends exec Q (checked checks k) s := by
  unfold checked
  cases hc : refusal checks with
  | none => exact h hc
  | some key => exact ends_reply (hrefuse key)

end Responses

section Logins

def matchedOtp (env : Env) (s : Db) (code phone : Option Json) : Option OtpRecord :=
  match otpCondition env.regex code phone with
  | .ok p => s.verifyOtps.find? p
  | .error _ => none

/-- The update that stores a new token for `id`. -/
def loginSet (env : Env) (deviceId : Option (Option String)) (id : ObjectId) : UserSet :=
  { token := some (some (generateToken env id)), deviceId := deviceId }

def loggedIn (env : Env) (deviceId : Option (Option String)) (u : User) : User :=
  (loginSet env deviceId u.id).apply env.now u

def cacheToken (env : Env) (id : ObjectId) (s : Db) : Db :=
  { s with
    userCache := Function.update (Function.update s.userCache id none) id
      (some (generateToken env id)) }

def afterLogin (env : Env) (deviceId : Option (Option String)) (u : User) (s : Db) : Db :=
  let d := loginSet env deviceId u.id
  { cacheToken env u.id s with
    users := s.users.updateOne (fun v => v.id = u.id) (d.apply env.now) (d.apply_id env.now) }

theorem get?_afterLogin (env : Env) (deviceId : Option (Option String)) {u : User} {s : Db}
    (hu : s.users.get? u.id = some u) :
    (afterLogin env deviceId u s).users.get? u.id = some (loggedIn env deviceId u) := by
  have hfind : s.users.findOne (fun v => v.id = u.id) = some u := hu
  rw [afterLogin, Collection.get?_updateOne, hfind, Option.map_some, if_pos rfl, hu]
  rfl

/-- The uninterrupted run of `getUserLogin`. -/
theorem run_getUserLogin (env : Env) (condition : Except Thrown (User → Bool))
    (deviceId : Option Json) (s : Db) :
    (getUserLogin env condition deviceId).run exec s =
      match condition with
      | .error e => (s, .error e)
      | .ok p =>
        match s.users.findOne p with
        | none => (s, .ok none)
        | some u =>
          match castSet castString (ifTruthy deviceId) with
          | .error e => (cacheToken env u.id s, .error e)
          | .ok d =>
            (afterLogin env d u s,
              .ok (some (populateUser (afterLogin env d u s) (loggedIn env d u)))) := by
  unfold getUserLogin
  cases condition with
  | error e => rfl
  | ok p =>
    rw [run_cast_ok_bind, run_query_bind]
    dsimp only
    cases hu : s.users.findOne p with
    | none => rfl
    | some u =>
      dsimp only
      cases castSet castString (ifTruthy deviceId) with
      | error e => rfl
      | ok d =>
        have hget := get?_afterLogin env d (Collection.get?_of_findOne hu)
        change (afterLogin env d u s,
          Except.ok (((afterLogin env d u s).users.get? u.id).map
            (populateUser (afterLogin env d u s)))) = _
        rw [hget, Option.map_some]

theorem isValidUserOtp_eq_matched {env : Env} {code phone : Option Json} {s : Db} :
    ((isValidUserOtp env code phone).run exec s).2 = .ok true ↔
      ∃ r, matchedOtp env s code phone = some r := by
  rw [isValidUserOtp_eq_true]
  unfold matchedOtp
  cases otpCondition env.regex code phone with
  | error e => simp
  | ok p => simp

/-- A check of a password touches the passwords only. -/
theorem state_isValidUserOtp (env : Env) (code phone : Option Json) (s : Db) :
    ∃ otps, ((isValidUserOtp env code phone).run exec s).1 = { s with verifyOtps := otps } := by
  rw [run_isValidUserOtp]
  cases otpCondition env.regex code phone with
  | error e => exact ⟨s.verifyOtps, rfl⟩
  | ok p =>
    dsimp only
    cases s.verifyOtps.find? p with
    | none => exact ⟨s.verifyOtps, rfl⟩
    | some r =>
      dsimp only
      split
      · exact ⟨_, rfl⟩
      · exact ⟨s.verifyOtps, rfl⟩

/-- What a successful `verify_login_otp` rests on: the record matched, the account found and
the device stored with it. -/
structure Login where
  record : OtpRecord
  account : User
  deviceId : Option (Option String)

def loginOf (env : Env) (b : UserBody) (s : Db) : Option Login :=
  match refusal (verifyLoginOtpChecks b), matchedOtp env s b.otp b.mobile,
    selected s.users (userByPhone b.mobile), castSet castString (ifTruthy b.deviceId) with
  | none, some r, some u, .ok d => some ⟨r, u, d⟩
  | _, _, _, _ => none

/-- The response to a login, in the state it leaves. -/
def loginResponse (env : Env) (l : Login) (s : Db) : UserResponse where
  key := .success
  result := some (.user (populateUser s (loggedIn env l.deviceId l.account)))
  header := some (generateToken env l.account.id)

theorem run_verifyLoginOtp_of_login {env : Env} {b : UserBody} {s : Db} {l : Login}
    (h : loginOf env b s = some l) :
    ∃ t, (∃ otps, t = { s with verifyOtps := otps }) ∧
      (verifyLoginOtp env b).run exec s =
        (afterLogin env l.deviceId l.account t,
          .ok (loginResponse env l (afterLogin env l.deviceId l.account t))) := by
  unfold loginOf at h
  split at h
  · rename_i r u d hchecks hr hu hd
    cases h
    obtain ⟨otps, hstate⟩ := state_isValidUserOtp env b.otp b.mobile s
    have htrue := isValidUserOtp_eq_matched.mpr ⟨r, hr⟩
    have hrun : (isValidUserOtp env b.otp b.mobile).run exec s =
        ({ s with verifyOtps := otps }, .ok true) := Prod.ext hstate htrue
    refine ⟨{ s with verifyOtps := otps }, ⟨otps, rfl⟩, ?_⟩
    unfold selected at hu
    cases hp : userByPhone b.mobile with
    | error e => simp [hp] at hu
    | ok p =>
      rw [hp] at hu
      have hlogin := run_getUserLogin env (.ok p) b.deviceId { s with verifyOtps := otps }
      simp only [hu, hd] at hlogin
      unfold verifyLoginOtp checked
      rw [Prog.run_catchAll]
      simp only [hchecks, Prog.run_bind, hrun, if_true, hp, hlogin]
      rfl
  · cases h

theorem discreet_verifyLoginOtp {env : Env} {b : UserBody} {s : Db}
    (h : loginOf env b s = none) :
    Prog.Ends exec (fun _ => Discreet) (verifyLoginOtp env b) s := by
  refine Prog.Ends.catchAll (fun _ => discreet_userError) ?_
  refine ends_checked discreet_refusal fun hchecks => ?_
  refine Prog.Ends.bind fun t isverify hrun => ?_
  cases isverify with
  | false => exact ends_reply (discreet_refusal _)
  | true =>
    obtain ⟨r, hr⟩ := isValidUserOtp_eq_matched.mp (congrArg Prod.snd hrun)
    obtain ⟨otps, hstate⟩ := state_isValidUserOtp env b.otp b.mobile s
    have ht : t = { s with verifyOtps := otps } := (congrArg Prod.fst hrun).symm.trans hstate
    refine Prog.Ends.bind fun t' userData hlogin => ?_
    cases userData with
    | none => exact ends_reply ⟨rfl, fun _ h => by cases h⟩
    | some u =>
      -- The account lookup succeeded after the check: a login after all.
      rw [run_getUserLogin] at hlogin
      exfalso
      unfold loginOf selected at h
      cases hp : userByPhone b.mobile with
      | error e => simp [hp] at hlogin
      | ok p =>
        simp only [hp] at hlogin h
        cases hu : s.users.findOne p with
        | none => simp [ht, hu] at hlogin
        | some v =>
          simp only [ht, hu] at hlogin
          cases hd : castSet castString (ifTruthy b.deviceId) with
          | error e => simp [hd] at hlogin
          | ok d => simp [hchecks, hr, hu, hd] at h

/-- A response that shows an account is that of a login. -/
theorem answer_verifyLoginOtp_user {env : Env} {b : UserBody} {s : Db} {a : UserResponse}
    {u : PopulatedUser} (ha : answerUser s ⟨.verifyLoginOtp, b, env⟩ = some a)
    (hu : a.result = some (.user u)) :
    ∃ l t, loginOf env b s = some l ∧ a = loginResponse env l t := by
  simp only [answerUser, UserRequest.program] at ha
  cases hlogin : loginOf env b s with
  | none =>
    exfalso
    rcases hrun : (verifyLoginOtp env b).run exec s with ⟨t, a' | a'⟩
    · simp [hrun] at ha
    · rw [hrun] at ha
      cases ha
      exact (discreet_verifyLoginOtp hlogin t a hrun).2 u hu
  | some l =>
    obtain ⟨t, -, hrun⟩ := run_verifyLoginOtp_of_login hlogin
    rw [hrun] at ha
    exact ⟨l, _, rfl, (Option.some.inj ha).symm⟩

end Logins

section Phones

/-- Whenever a request with this `mobile` logs an account in, the password that it matched
was stored for the phone of the account. -/
def VerifiesLoggedInPhone (mobile : String) : Prop :=
  ∀ env b s, b.mobile = some (.str mobile) →
    ∀ a u, answerUser s ⟨.verifyLoginOtp, b, env⟩ = some a → a.result = some (.user u) →
      ∃ r, matchedOtp env s b.otp b.mobile = some r ∧ r.phone = u.user.phone

theorem loginOf_eq_some {env : Env} {b : UserBody} {s : Db} {l : Login}
    (h : loginOf env b s = some l) :
    truthy b.mobile = true ∧ matchedOtp env s b.otp b.mobile = some l.record ∧
      selected s.users (userByPhone b.mobile) = some l.account := by
  unfold loginOf at h
  split at h
  · rename_i r u d hchecks hr hu hd
    cases h
    refine ⟨?_, hr, hu⟩
    cases hm : truthy b.mobile with
    | true => rfl
    | false => simp [verifyLoginOtpChecks, refusal, hm] at hchecks
  · cases h

/-- The record matched has the number that `parseInt` reads. -/
theorem matchedOtp_phone {env : Env} {s : Db} {code phone : Option Json} {r : OtpRecord}
    (h : matchedOtp env s code phone = some r) :
    ∃ n, parseIntOf phone = .ok n ∧ n ≠ .nan ∧ r.phone = some n := by
  unfold matchedOtp at h
  cases hc : otpCondition env.regex code phone with
  | error e => simp [hc] at h
  | ok p =>
    obtain ⟨n, q, hn, hnan, -, hpq⟩ := otpCondition_eq_ok hc
    rw [hc] at h
    have hmatch : p r = true := List.find?_some h
    rw [hpq, Bool.and_eq_true, decide_eq_true_eq] at hmatch
    exact ⟨n, hn, hnan, hmatch.2⟩

/-- The account lookup of a string compares with the number that `Number` reads. -/
theorem userByPhone_str {mobile : String} (hm : mobile ≠ "") :
    userByPhone (some (.str mobile)) =
      if number mobile = .nan then .error .castError
      else .ok fun u => u.phone = some (number mobile) := by
  unfold userByPhone
  rw [castForQuery_scalar _ _ (by simp) (by simp) (by simp)]
  simp only [numberType, castNumber, hm, if_false]
  cases number mobile with
  | nan => rfl
  | inf neg => rfl
  | fin q => rfl

theorem account_phone {mobile : String} (hm : mobile ≠ "") {s : Db} {u : User}
    (h : selected s.users (userByPhone (some (.str mobile))) = some u) :
    number mobile ≠ .nan ∧ u.phone = some (number mobile) := by
  rw [userByPhone_str hm] at h
  unfold selected at h
  by_cases hn : number mobile = .nan
  · simp [hn] at h
  · rw [if_neg hn] at h
    have hu := (Collection.mem_of_findOne h).2
    exact ⟨hn, by simpa using hu⟩

def plainUser (id : ObjectId) (email : String) (phone : JsNum) : User where
  id := id
  usersId := none
  fullName := "User"
  email := email
  phone := some phone
  country := "Nigeria"
  state := "Lagos"
  city := "Lagos"
  address1 := none
  address2 := none
  landMark := "Market"
  postalCode := "100001"
  addressData := []
  token := none
  profilePic := none
  document := none
  documentNo := none
  documentType := none
  isVerified := some 1
  creationDate := none
  defaultAddress := none
  status := "A"
  latitude := none
  longitude := none
  deviceId := none
  platform := none
  createdAt := 0
  updatedAt := 0

def oneUser (u : User) : Collection User.id := ⟨[u], List.nodup_singleton _⟩

def splitPhoneDb (mobile : String) : Db :=
  { Db.empty with
    verifyOtps := [⟨some (parseInt mobile), none, some "1", none⟩]
    users := oneUser (plainUser ⟨1⟩ "a" (number mobile)) }

theorem loginOf_splitPhoneDb {mobile : String} (hm : mobile ≠ "") (hi : parseInt mobile ≠ .nan)
    (hn : number mobile ≠ .nan) (env : Env) :
    loginOf env { mobile := some (.str mobile), otp := some (.str "1") } (splitPhoneDb mobile) =
      some ⟨⟨some (parseInt mobile), none, some "1", none⟩,
        plainUser ⟨1⟩ "a" (number mobile), none⟩ := by
  have hread : parseIntOf (some (.str mobile)) = .ok (parseInt mobile) := rfl
  have hnum : castNum (parseInt mobile) = .ok (some (parseInt mobile)) := by
    cases hp : parseInt mobile with
    | nan => exact absurd hp hi
    | inf neg => rfl
    | fin q => rfl
  have hcond : otpCondition env.regex (some (.str "1")) (some (.str mobile)) =
      .ok fun r => decide (r.code = some "1") && decide (r.phone = some (parseInt mobile)) := by
    unfold otpCondition
    rw [hread]
    change (castNum (parseInt mobile) >>= fun phone => _) = _
    rw [hnum]
    rfl
  simp [loginOf, verifyLoginOtpChecks, refusal, truthy, hm, matchedOtp, hcond, selected,
    userByPhone_str hm, hn, splitPhoneDb, oneUser, Collection.findOne, plainUser, ifTruthy, castSet]

/-- A login with the password of another phone. -/
theorem not_verifiesLoggedInPhone_of_login {mobile : String} (env : Env) (b : UserBody) (s : Db)
    (hmobile : b.mobile = some (.str mobile))
    (h : (loginOf env b s).any (fun l => decide (l.record.phone ≠ l.account.phone)) = true) :
    ¬ VerifiesLoggedInPhone mobile := by
  intro hv
  obtain ⟨l, hlogin, hne⟩ := (Option.any_eq_true _ _).mp h
  obtain ⟨t, -, hrun⟩ := run_verifyLoginOtp_of_login hlogin
  have hanswer : answerUser s ⟨.verifyLoginOtp, b, env⟩ =
      some (loginResponse env l (afterLogin env l.deviceId l.account t)) := by
    simp only [answerUser, UserRequest.program, hrun]
  obtain ⟨r, hr, hphone⟩ := hv env b s hmobile _ _ hanswer rfl
  rw [(loginOf_eq_some hlogin).2.1, Option.some.injEq] at hr
  subst hr
  exact of_decide_eq_true hne hphone

/-- The phone that is logged in is the phone that was verified for exactly those strings off
which the two conversions do not read different numbers. -/
theorem verifiesLoggedInPhone_iff (mobile : String) :
    VerifiesLoggedInPhone mobile ↔ plainNumeral mobile = true := by
  rw [← conversionsAgree_iff_plainNumeral]
  constructor
  · intro h
    by_contra hagree
    simp only [conversionsAgree, not_or] at hagree
    obtain ⟨hi, hn, hne⟩ := hagree
    have hm : mobile ≠ "" := by
      rintro rfl
      exact hi rfl
    have hlogin := loginOf_splitPhoneDb hm hi hn (clockAt 0)
    refine not_verifiesLoggedInPhone_of_login (clockAt 0)
      { mobile := some (.str mobile), otp := some (.str "1") } (splitPhoneDb mobile) rfl ?_ h
    rw [hlogin]
    simpa [plainUser] using hne
  · intro hagree env b s hmobile a u ha hu
    obtain ⟨l, t, hlogin, rfl⟩ := answer_verifyLoginOtp_user ha hu
    cases hu
    obtain ⟨htruthy, hr, hacc⟩ := loginOf_eq_some hlogin
    refine ⟨l.record, hr, ?_⟩
    rw [hmobile] at htruthy hr hacc
    have hm : mobile ≠ "" := by simpa [truthy] using htruthy
    obtain ⟨n, hread, hnan, hrecord⟩ := matchedOtp_phone hr
    have hi : parseInt mobile = n := Except.ok.inj hread
    obtain ⟨hnum, hphone⟩ := account_phone hm hacc
    change l.record.phone = l.account.phone
    rw [hrecord, hphone, ← hi]
    rcases hagree with hbad | hbad | heq
    · exact absurd (hi.symm.trans hbad) hnan
    · exact absurd hbad hnum
    · rw [heq]

/-- A password stored for phone 1 opens the account of phone 100000. -/
theorem exponent_opens_other_account : ¬ VerifiesLoggedInPhone "1e5" :=
  not_verifiesLoggedInPhone_of_login (clockAt 1000)
    { mobile := some (.str "1e5"), otp := some (.str "123456") }
    { Db.empty with
      verifyOtps := [⟨some (.fin 1), none, some "123456", some 0⟩]
      users := oneUser (plainUser ⟨1⟩ "a@b.c" (.fin 100000)) }
    rfl (by decide +kernel)

end Phones

section Tokens

/-- The tokens in a response: the header, and the token path of an account. -/
def tokensOf (a : UserResponse) : List TokenText :=
  a.header.toList ++
    match a.result with
    | some (.user u) => u.user.token.toList
    | _ => []

def handedOut (s : Db) (r : UserRequest) : List TokenText :=
  ((answerUser s r).map tokensOf).getD []

theorem tokensOf_discreet {a : UserResponse} (h : Discreet a) : tokensOf a = [] := by
  unfold tokensOf
  rw [h.1]
  split
  · rename_i u hu
    exact absurd hu (h.2 u)
  · rfl

theorem mem_handedOut_run {s : Db} {r : UserRequest} {t : TokenText} (h : t ∈ handedOut s r) :
    ∃ s' a, r.program.run exec s = (s', .ok a) ∧ t ∈ tokensOf a := by
  unfold handedOut answerUser at h
  rcases hrun : r.program.run exec s with ⟨s', e | a⟩
  · simp [hrun] at h
  · exact ⟨s', a, rfl, by simpa [hrun] using h⟩

theorem discreet_login (env : Env) (b : UserBody) (smsSent : Bool) (s : Db) :
    Prog.Ends exec (fun _ => Discreet) (login env b smsSent) s := by
  refine ends_checked discreet_refusal fun _ => Prog.Ends.bind fun t saved _ => ?_
  cases saved with
  | false => exact ends_reply (discreet_refusal _)
  | true =>
    cases smsSent with
    | false => exact Prog.Ends.fail _ _ _
    | true => exact ends_reply ⟨rfl, fun _ h => by cases h⟩

theorem discreet_logout (env : Env) (token : TokenText) (s : Db) :
    Prog.Ends exec (fun _ => Discreet) (logout env token) s := by
  refine Prog.Ends.bind fun t user _ => ?_
  cases user with
  | none => exact ends_reply (discreet_refusal _)
  | some u =>
    refine Prog.Ends.catchAll (fun _ => discreet_userError) ?_
    refine Prog.Ends.bind fun t₁ _ _ => Prog.Ends.bind fun t₂ _ _ => ?_
    exact ends_reply ⟨rfl, fun _ h => by cases h⟩

theorem discreet_forgotPassword {env : Env} {b : UserBody} {s : Db}
    (h : selected s.users (userByEmail env.regex b.email) = none) :
    Prog.Ends exec (fun _ => Discreet) (forgotPassword env b) s := by
  refine Prog.Ends.catchAll (fun _ => discreet_userError) ?_
  refine Prog.Ends.bind (ends_cast fun p hp => Prog.Ends.bind (ends_query ?_))
  unfold selected at h
  rw [hp] at h
  dsimp only at h
  rw [h]
  exact ends_reply (discreet_refusal _)

theorem run_checkRetry (now : ℤ) (record : Option OtpRecord) (s : Db) :
    ∃ r, (checkRetry now record).run exec s = (s, r) := by
  cases record with
  | none => exact ⟨_, rfl⟩
  | some r =>
    by_cases hearly : (r.createdOn.all fun t => now < t+otpRetry) = true
    · exact ⟨.error .tooEarly, by rw [checkRetry, if_pos hearly]; rfl⟩
    · exact ⟨.ok (), by rw [checkRetry, if_neg hearly]; rfl⟩

/-- Sending the code touches the passwords only, and never shows the account. -/
theorem run_sendEmailOtp (env : Env) (u : User) (s : Db) :
    ∃ otps a, ((sendEmailOtp env u).catchAll userError).run exec s =
      ({ s with verifyOtps := otps }, .ok a) ∧ Discreet a := by
  obtain ⟨r, hr⟩ : ∃ r, (canUserOtpGenerated env u.email).run exec s = (s, r) :=
    run_checkRetry env.now _ s
  unfold sendEmailOtp
  rw [Prog.run_catchAll, Prog.run_bind, hr]
  cases r with
  | error e => exact ⟨s.verifyOtps, _, rfl, discreet_userError e⟩
  | ok _ => exact ⟨_, _, rfl, rfl, fun _ h => by cases h⟩

theorem run_sendForgotToken (env : Env) (u : User) (s : Db) :
    ∃ otps a, (sendForgotToken env u).run exec s =
      ({ cacheToken env u.id s with verifyOtps := otps }, .ok a) ∧
      tokensOf a = [generateToken env u.id] := by
  obtain ⟨otps, a, hrun, hdiscreet⟩ := run_sendEmailOtp env u (cacheToken env u.id s)
  refine ⟨otps, { a with header := some (generateToken env u.id) }, ?_, ?_⟩
  · change Prog.run exec ((sendEmailOtp env u).catchAll userError >>= fun response =>
      pure { response with header := some (generateToken env u.id) }) (cacheToken env u.id s) = _
    rw [Prog.run_bind, hrun]
    rfl
  · have hbody : Discreet { a with header := none } := ⟨rfl, hdiscreet.2⟩
    exact congrArg (generateToken env u.id :: ·) (tokensOf_discreet hbody)

/-- `forgotPassword` hands out a token to anyone who names the address of an account. -/
theorem run_forgotPassword {env : Env} {b : UserBody} {s : Db} {u : User}
    (h : selected s.users (userByEmail env.regex b.email) = some u) :
    ∃ otps a, (forgotPassword env b).run exec s =
      ({ cacheToken env u.id s with verifyOtps := otps }, .ok a) ∧
      tokensOf a = [generateToken env u.id] := by
  unfold selected at h
  cases hp : userByEmail env.regex b.email with
  | error e => simp [hp] at h
  | ok p =>
    rw [hp] at h
    obtain ⟨otps, a, hrun, htokens⟩ := run_sendForgotToken env u s
    refine ⟨otps, a, ?_, htokens⟩
    unfold forgotPassword
    rw [hp]
    dsimp only at h
    rw [Prog.run_catchAll, run_cast_ok_bind, run_query_bind, h]
    dsimp only
    rw [hrun]

/-- A number is taken without touching the accounts. -/
theorem users_getSequence (table : String) (s : Db) :
    Prog.Ends exec (fun t _ => t.users = s.users) (getSequence table) s := by
  intro t n hrun
  obtain ⟨cs, n', hseq⟩ := run_getSequence table s
  rw [hseq] at hrun
  cases hrun
  rfl

theorem newUser_id {env : Env} {b : UserBody} {pic document : String} {seqId : ℕ} {u : User}
    (h : newUser env b pic document seqId = .ok u) : u.id = env.newId := by
  unfold newUser at h
  iterate 16 obtain ⟨_, -, h⟩ := bind_eq_ok h
  cases h
  rfl

def creates (id : ObjectId) (s t : Db) : Prop :=
  s.users.get? id = none ∧ (t.users.get? id).isSome = true

theorem insertUser_true {u : User} {s t : Db} (h : (insertUser u).run exec s = (t, .ok true)) :
    s.users.get? u.id = none ∧ t.users.get? u.id = some u := by
  change ((exec (.createUser u) s).1, Except.ok (exec (.createUser u) s).2) = _ at h
  cases hi : s.users.insert u with
  | none =>
    rw [exec_createUser_none hi] at h
    cases h
  | some us =>
    rw [exec_createUser_some hi] at h
    cases h
    refine ⟨Collection.get?_of_insert hi, ?_⟩
    rw [Collection.get?_insert hi, if_pos rfl]

theorem creates_createUserData {env : Env} {data : Except Thrown User} {s : Db} {id : ObjectId}
    (hid : ∀ u, data = .ok u → u.id = id) :
    Prog.Ends exec (fun t a => a = id ∧ creates id s t) (createUserData env data) s := by
  refine Prog.Ends.bind (ends_cast fun u hdata => Prog.Ends.bind fun t created hinsert => ?_)
  cases created with
  | false => exact Prog.Ends.fail _ _ _
  | true =>
    obtain ⟨hnone, hsome⟩ := insertUser_true hinsert
    refine Prog.Ends.bind fun t₁ _ hdel => ?_
    refine Prog.Ends.bind fun t₂ _ hupdate => ?_
    cases hdel
    cases hupdate
    rw [hid u hdata] at hnone hsome
    refine Prog.Ends.done ⟨hid u hdata, hnone, ?_⟩
    exact (Collection.isSome_get?_updateOne _ _ _ (UserSet.apply_id _ _) id).trans
      (Option.isSome_of_eq_some hsome)

/-- What the tokens of a registration are for. -/
def registers (env : Env) (s t : Db) (a : UserResponse) : Prop :=
  Discreet a ∨
    (∀ x ∈ tokensOf a, x = generateToken env env.newId) ∧ creates env.newId s t

theorem registers_registerUser (env : Env) (b : UserBody) (pic document : String) (seqId : ℕ)
    (s : Db) :
    Prog.Ends exec (registers env s) (registerUser env b pic document seqId) s := by
  refine Prog.Ends.bind fun t id hcreate => ?_
  obtain ⟨rfl, hnone, hsome⟩ := creates_createUserData (fun u hu => newUser_id hu) t id hcreate
  refine Prog.Ends.bind fun t' data hlogin => ?_
  rw [run_getUserLogin] at hlogin
  simp only [userById, ifTruthy, truthy, castSet] at hlogin
  cases hu : t.users.findOne fun u => u.id = env.newId with
  | none =>
    simp only [hu] at hlogin
    cases hlogin
    exact Prog.Ends.fail _ _ _
  | some u =>
    simp only [hu] at hlogin
    have hid : u.id = env.newId := by simpa using (Collection.mem_of_findOne hu).2
    cases hlogin
    refine ends_reply (Or.inr ⟨?_, hnone, ?_⟩)
    · intro x hx
      have hx' : x = generateToken env u.id := by
        simpa [tokensOf, loggedIn, loginSet, populateUser, UserSet.apply] using hx
      rw [hx', hid]
    · exact (Collection.isSome_get?_updateOne _ _ _ (UserSet.apply_id _ _) _).trans hsome

theorem registers_register (env : Env) (b : UserBody) (files : Option UserFiles) (s : Db) :
    Prog.Ends exec (registers env s) (register env b files) s := by
  have hdiscreet {t : Db} {a : UserResponse} (h : Discreet a) : registers env s t a := Or.inl h
  refine Prog.Ends.catchAll (fun _ e => hdiscreet (discreet_userError e)) ?_
  refine ends_checked (fun key => hdiscreet (discreet_refusal key)) fun _ => ?_
  rcases files with _ | ⟨profilePic, _ | document⟩
  · exact Prog.Ends.fail _ _ _
  · exact ends_reply (hdiscreet (discreet_refusal _))
  · refine Prog.Ends.bind (ends_cast fun p _ => Prog.Ends.bind (ends_query ?_))
    by_cases hn : s.users.count p = 0
    · rw [if_pos hn]
      refine Prog.Ends.bind fun t₃ seqId hseq => ?_
      -- The account is created in a state with the accounts of `s`.
      have husers : t₃.users = s.users := users_getSequence _ s t₃ seqId hseq
      cases profilePic with
      | none => exact Prog.Ends.fail _ _ _
      | some profilePic =>
        intro t a hrun
        have hreg := registers_registerUser env b profilePic document seqId t₃ t a hrun
        unfold registers creates at hreg ⊢
        rw [← husers]
        exact hreg
    · rw [if_neg hn]
      unfold alreadyRegister
      cases b.phone with
      | none => exact Prog.Ends.fail _ _ _
      | some v =>
        by_cases hv : v.unprintable = true
        · simp only [hv, if_true]
          exact Prog.Ends.fail _ _ _
        · simp only [hv, if_false, Bool.false_eq_true]
          exact ends_reply (hdiscreet ⟨rfl, fun _ h => by cases h⟩)

end Tokens

section Provenance

/-- The authorization accepts the token for this user, at some time. -/
def Accepted (s : Db) (t : TokenText) (u : ObjectId) : Prop :=
  ∃ now, ((authorize now t).run exec s).2 = .ok (some (u, "USER"))

def CreatedBy (s : Db) (r : UserRequest) (u : ObjectId) : Prop :=
  (∃ files, r.handler = .register files) ∧ creates u s (serveUser s r)

/-- The request passed the verification of a password stored for the phone of the account. -/
def VerifiedPhone (s : Db) (r : UserRequest) (u : ObjectId) : Prop :=
  r.handler = .verifyLoginOtp ∧ ∃ record user,
    matchedOtp r.env s r.body.otp r.body.mobile = some record ∧
    s.users.get? u = some user ∧ record.phone = user.phone

/-- In every state of the run, a token that is accepted for a user was handed out only by
requests that created the user or verified its phone. -/
def Provenance (s : Db) (rs : List UserRequest) : Prop :=
  ∀ pre post, rs = pre ++ post → ∀ t u, Accepted (runFrom serveUser s pre) t u →
    ∀ before r after, pre = before ++ r :: after → t ∈ handedOut (runFrom serveUser s before) r →
      CreatedBy (runFrom serveUser s before) r u ∨ VerifiedPhone (runFrom serveUser s before) r u

/-- No account is named to `forgotPassword`, and whoever logs in does so with a password
stored for the phone of the account. -/
def provesIdentity (s : Db) (r : UserRequest) : Bool :=
  match r.handler with
  | .forgotPassword => (selected s.users (userByEmail r.env.regex r.body.email)).isNone
  | .verifyLoginOtp => (loginOf r.env r.body s).all fun l => l.record.phone = l.account.phone
  | _ => true

/-- The authorization of a token that was signed for a user. -/
theorem run_authorize_generateToken (now : ℤ) (env : Env) (u : ObjectId) (s : Db) :
    ((authorize now (generateToken env u)).run exec s).2 = .ok
      (if env.now/1000+tokenLifetime ≤ now/1000 ∨ s.userCache u ≠ some (generateToken env u)
        then none else (s.users.get? u).map fun _ => (u, "USER")) := by
  by_cases hexp : env.now/1000+tokenLifetime ≤ now/1000
  · simp only [generateToken, authorize, hexp, if_true, true_or]
    rfl
  · by_cases hcache : s.userCache u = some (generateToken env u)
    · rw [if_neg (by simp [hexp, hcache])]
      unfold generateToken at hcache ⊢
      simp [authorize, hexp, hcache]
    · rw [if_pos (Or.inr hcache)]
      unfold generateToken at hcache ⊢
      simp [authorize, hexp, hcache]

/-- A token is accepted only for the user it was signed for. -/
theorem userId_of_accepted {s : Db} {env : Env} {v u : ObjectId}
    (h : Accepted s (generateToken env v) u) : u = v := by
  obtain ⟨now, h⟩ := h
  rw [run_authorize_generateToken, Except.ok.injEq] at h
  split at h
  · cases h
  · obtain ⟨x, -, hx⟩ := Option.map_eq_some_iff.mp h
    exact (congrArg Prod.fst hx).symm

/-- A cached token of an existing account is accepted when it is issued. -/
theorem accepted_of_cached {s : Db} {env : Env} {u : ObjectId}
    (hcache : s.userCache u = some (generateToken env u)) (huser : (s.users.get? u).isSome = true) :
    Accepted s (generateToken env u) u := by
  obtain ⟨x, hx⟩ := Option.isSome_iff_exists.mp huser
  have hlive : ¬ env.now/1000+tokenLifetime ≤ env.now/1000 := by
    unfold tokenLifetime
    omega
  refine ⟨env.now, ?_⟩
  rw [run_authorize_generateToken, if_neg (by simp [hlive, hcache]), hx]
  rfl

/-- Every token handed out is one of a registration, of a login or of `forgotPassword`. -/
theorem mem_handedOut {s : Db} {r : UserRequest} {t : TokenText} (h : t ∈ handedOut s r) :
    (t = generateToken r.env r.env.newId ∧ CreatedBy s r r.env.newId) ∨
    (r.handler = .verifyLoginOtp ∧
      ∃ l, loginOf r.env r.body s = some l ∧ t = generateToken r.env l.account.id) ∨
    (r.handler = .forgotPassword ∧
      ∃ u, selected s.users (userByEmail r.env.regex r.body.email) = some u) := by
  obtain ⟨s', a, hrun, hmem⟩ := mem_handedOut_run h
  obtain ⟨handler, b, env⟩ := r
  cases handler with
  | login smsSent =>
    rw [tokensOf_discreet (discreet_login env b smsSent s s' a hrun)] at hmem
    cases hmem
  | logout token =>
    rw [tokensOf_discreet (discreet_logout env token s s' a hrun)] at hmem
    cases hmem
  | register files =>
    rcases registers_register env b files s s' a hrun with hdiscreet | ⟨htokens, hcreates⟩
    · rw [tokensOf_discreet hdiscreet] at hmem
      cases hmem
    · have hserve : serveUser s ⟨.register files, b, env⟩ = s' := congrArg Prod.fst hrun
      refine Or.inl ⟨htokens t hmem, ⟨files, rfl⟩, ?_⟩
      rw [hserve]
      exact hcreates
  | verifyLoginOtp =>
    cases hlogin : loginOf env b s with
    | none =>
      rw [tokensOf_discreet (discreet_verifyLoginOtp hlogin s' a hrun)] at hmem
      cases hmem
    | some l =>
      obtain ⟨x, -, hrun'⟩ := run_verifyLoginOtp_of_login hlogin
      cases hrun.symm.trans hrun'
      refine Or.inr (Or.inl ⟨rfl, l, rfl, ?_⟩)
      simpa [tokensOf, loginResponse, loggedIn, loginSet, populateUser, UserSet.apply] using hmem
  | forgotPassword =>
    cases hacc : selected s.users (userByEmail env.regex b.email) with
    | none =>
      rw [tokensOf_discreet (discreet_forgotPassword hacc s' a hrun)] at hmem
      cases hmem
    | some u => exact Or.inr (Or.inr ⟨rfl, u, rfl⟩)

theorem handedOut_of_run {s s' : Db} {r : UserRequest} {a : UserResponse}
    (h : r.program.run exec s = (s', .ok a)) : handedOut s r = tokensOf a ∧ serveUser s r = s' := by
  simp [handedOut, answerUser, serveUser, h]

/-- A login hands out a token that is accepted for the account. -/
theorem accepted_of_login {env : Env} {b : UserBody} {s : Db} {l : Login}
    (h : loginOf env b s = some l) :
    generateToken env l.account.id ∈ handedOut s ⟨.verifyLoginOtp, b, env⟩ ∧
      Accepted (serveUser s ⟨.verifyLoginOtp, b, env⟩) (generateToken env l.account.id)
        l.account.id := by
  obtain ⟨t, ⟨otps, rfl⟩, hrun⟩ := run_verifyLoginOtp_of_login h
  obtain ⟨hout, hserve⟩ := handedOut_of_run (r := ⟨.verifyLoginOtp, b, env⟩) hrun
  have hget : s.users.get? l.account.id = some l.account :=
    get?_of_selected (loginOf_eq_some h).2.2
  rw [hout, hserve]
  refine ⟨by simp [tokensOf, loginResponse], accepted_of_cached (Function.update_self _ _ _) ?_⟩
  exact Option.isSome_of_eq_some (get?_afterLogin env l.deviceId hget)

/-- So does `forgotPassword`, without any proof of identity. -/
theorem accepted_of_forgotPassword {env : Env} {b : UserBody} {s : Db} {u : User}
    (h : selected s.users (userByEmail env.regex b.email) = some u) :
    generateToken env u.id ∈ handedOut s ⟨.forgotPassword, b, env⟩ ∧
      Accepted (serveUser s ⟨.forgotPassword, b, env⟩) (generateToken env u.id) u.id := by
  obtain ⟨otps, a, hrun, htokens⟩ := run_forgotPassword h
  obtain ⟨hout, hserve⟩ := handedOut_of_run (r := ⟨.forgotPassword, b, env⟩) hrun
  rw [hout, hserve, htokens]
  refine ⟨List.mem_singleton_self _, accepted_of_cached (Function.update_self _ _ _) ?_⟩
  exact Option.isSome_of_eq_some (get?_of_selected h)

/-- A step that does not prove the identity hands out an accepted token all the same. -/
theorem exists_unproved_token {s : Db} {r : UserRequest} (h : provesIdentity s r = false) :
    ∃ t u, t ∈ handedOut s r ∧ Accepted (serveUser s r) t u ∧
      ¬ (CreatedBy s r u ∨ VerifiedPhone s r u) := by
  obtain ⟨handler, b, env⟩ := r
  cases handler with
  | login smsSent => cases h
  | logout token => cases h
  | register files => cases h
  | forgotPassword =>
    cases hacc : selected s.users (userByEmail env.regex b.email) with
    | none => simp [provesIdentity, hacc] at h
    | some u =>
      obtain ⟨hmem, haccepted⟩ := accepted_of_forgotPassword hacc
      refine ⟨_, u.id, hmem, haccepted, ?_⟩
      rintro (⟨⟨files, hf⟩, -⟩ | ⟨hv, -⟩)
      · cases hf
      · cases hv
  | verifyLoginOtp =>
    cases hlogin : loginOf env b s with
    | none => simp [provesIdentity, hlogin] at h
    | some l =>
      have hphone : l.record.phone ≠ l.account.phone := by simpa [provesIdentity, hlogin] using h
      obtain ⟨hmem, haccepted⟩ := accepted_of_login hlogin
      refine ⟨_, l.account.id, hmem, haccepted, ?_⟩
      rintro (⟨⟨files, hf⟩, -⟩ | ⟨-, record, user, hrecord, huser, heq⟩)
      · cases hf
      · -- The record and the account of the login are the only candidates.
        obtain ⟨-, hr, hacc⟩ := loginOf_eq_some hlogin
        cases hrecord.symm.trans hr
        cases huser.symm.trans (get?_of_selected hacc)
        exact hphone heq

/-- Tokens are handed out for a proof of identity only in exactly the runs in which no account
is named to `forgotPassword` and every login verifies the phone of its account. -/
theorem provenance_iff (s : Db) (rs : List UserRequest) :
    Provenance s rs ↔ Along serveUser (fun t r => provesIdentity t r = true) s rs := by
  rw [along_iff_split]
  constructor
  · intro h before r after hrs
    by_contra hnot
    obtain ⟨t, u, hmem, haccepted, hno⟩ := exists_unproved_token (Bool.eq_false_of_not_eq_true hnot)
    refine hno (h (before ++ [r]) after (by simp [hrs]) t u ?_ before r [] rfl hmem)
    rw [runFrom_append]
    exact haccepted
  · rintro h pre post rfl t u haccepted before r after rfl hmem
    have hproved := h before r (after ++ post) (by simp)
    rcases mem_handedOut hmem with ⟨rfl, hcreated⟩ | ⟨hr, l, hlogin, rfl⟩ | ⟨hr, v, hacc⟩
    · rw [userId_of_accepted haccepted]
      exact Or.inl hcreated
    · rw [userId_of_accepted haccepted]
      obtain ⟨-, hrecord, hacc⟩ := loginOf_eq_some hlogin
      have hphone : l.record.phone = l.account.phone := by
        simpa [provesIdentity, hr, hlogin] using hproved
      exact Or.inr ⟨hr, l.record, l.account, hrecord, get?_of_selected hacc, hphone⟩
    · simp [provesIdentity, hr, hacc] at hproved

def sampleRegistration : UserRequest where
  handler := .register (some ⟨some "pic.png", some "card.pdf"⟩)
  body :=
    { fullName := some (.str "User")
      email := some (.str "a@b.c")
      phone := some (.str "800")
      country := some (.str "Nigeria")
      state := some (.str "Lagos")
      city := some (.str "Lagos")
      landMark := some (.str "Market")
      postalCode := some (.str "100001") }
  env := ⟨0, ⟨1⟩, fun _ _ => none⟩

/-- Whoever names the address of an account is handed a token for it. -/
theorem forgot_password_hands_out_session :
    ¬ Provenance Db.empty
      [sampleRegistration, ⟨.forgotPassword, { email := some (.str "a@b.c") }, clockAt 1000⟩] := by
  intro h
  obtain ⟨u, hu⟩ := Option.isSome_iff_exists.mp (show
    (selected (serveUser Db.empty sampleRegistration).users
      (userByEmail (clockAt 1000).regex (some (.str "a@b.c")))).isSome = true by decide +kernel)
  obtain ⟨hmem, haccepted⟩ := accepted_of_forgotPassword
    (b := { email := some (.str "a@b.c") }) hu
  rcases h [_, _] [] rfl _ u.id haccepted [_] _ [] rfl hmem with ⟨⟨files, hf⟩, -⟩ | ⟨hv, -⟩
  · cases hf
  · cases hv

end Provenance

end DoQwik
