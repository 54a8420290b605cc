import DoQwik.OperatorConditions
import DoQwik.Operations

/-! One-time passwords: saving them, checking them, and what a check that succeeds says
about the passwords saved before. -/
namespace DoQwik
open JsValues DocStore Interleave

/-- `OtpExpiry`, one minute. -/
def otpExpiry : ℤ := 60000

/-- `moment().isAfter(moment(createdOn).add(1, "minutes"))`. -/
def OtpRecord.expired (r : OtpRecord) (now : ℤ) : Bool :=
  r.createdOn.any fun t => t+otpExpiry < now

def saveOtp (env : Env) (phone email : Option Json) (code : String) : Action Unit := do
  let phone ← cast (optional castNumber phone)
  let email ← cast (optional castString email)
  Prog.perform (DbOp.createOtp
    { phone := phone, email := email, code := some code, createdOn := some env.now })

/-- The condition `{ code : data.code, phone : parseInt(data.phone) }`. -/
def otpCondition (regex : RegexEngine) (code phone : Option Json) :
    Except Thrown (OtpRecord → Bool) := do
  let n ← parseIntOf phone
  let p ← castForQuery (stringType regex) code
  let phone ← castNum n
  pure fun r => p r.code && r.phone = phone

/-- The `return false` for an expired record is commented out in the source, so that the
removal became the body of the `if`. -/
def isValidUserOtp (env : Env) (code phone : Option Json) : Action Bool := do
  let condition ← cast (otpCondition env.regex code phone)
  let record ← query fun s => s.verifyOtps.find? condition
  match record with
  | none => pure false
  | some r =>
    if r.expired env.now then do
      Prog.perform (DbOp.removeOtps condition)
      pure true
    else pure true

section Checks

/-- The uninterrupted run of a check. -/
theorem run_isValidUserOtp (env : Env) (code phone : Option Json) (s : Db) :
    (isValidUserOtp env code phone).run exec s =
      match otpCondition env.regex code phone with
      | .error e => (s, .error e)
      | .ok p =>
        match s.verifyOtps.find? p with
        | none => (s, .ok false)
        | some r =>
          if r.expired env.now then
            ({ s with verifyOtps := s.verifyOtps.filter fun r => !p r }, .ok true)
          else (s, .ok true) := by
  unfold isValidUserOtp
  cases otpCondition env.regex code phone with
  | error e => rfl
  | ok p =>
    rw [run_cast_ok_bind, run_query_bind]
    dsimp only
    cases s.verifyOtps.find? p with
    | none => rfl
    | some r =>
      simp only
      split
      · rfl
      · rfl

/-- A check succeeds exactly when its condition finds a record. -/
theorem isValidUserOtp_eq_true {env : Env} {code phone : Option Json} {s : Db} :
    ((isValidUserOtp env code phone).run exec s).2 = .ok true ↔
      ∃ p r, otpCondition env.regex code phone = .ok p ∧ s.verifyOtps.find? p = some r := by
  rw [run_isValidUserOtp]
  cases hc : otpCondition env.regex code phone with
  | error e => simp
  | ok p =>
    cases hr : s.verifyOtps.find? p with
    | none => simp [hr]
    | some r => by_cases he : r.expired env.now <;> simp [he, hr]

/-- The number that a condition asks for, and the test it puts on the code. -/
theorem otpCondition_eq_ok {regex : RegexEngine} {code phone : Option Json}
    {p : OtpRecord → Bool} (h : otpCondition regex code phone = .ok p) :
    ∃ n q, parseIntOf phone = .ok n ∧ n ≠ .nan ∧ castForQuery (stringType regex) code = .ok q ∧
      ∀ r, p r = (q r.code && decide (r.phone = some n)) := by
  obtain ⟨n, hn, h⟩ := bind_eq_ok h
  obtain ⟨q, hq, h⟩ := bind_eq_ok h
  obtain ⟨x, hx, h⟩ := bind_eq_ok h
  have hxn : n ≠ .nan ∧ x = some n := by
    cases n with
    | nan => cases hx
    | inf neg => exact ⟨by simp, (Except.ok.inj hx).symm⟩
    | fin v => exact ⟨by simp, (Except.ok.inj hx).symm⟩
  obtain ⟨hnan, rfl⟩ := hxn
  exact ⟨n, q, hn, hnan, hq, fun r => (congrFun (Except.ok.inj h) r).symm⟩

/-- A successful check of this value means that a record of the phone holds this code. -/
def ComparesValues (regex : RegexEngine) (otp : Json) : Prop :=
  ∀ env s mobile, env.regex = regex →
    ((isValidUserOtp env (some otp) mobile).run exec s).2 = .ok true →
    ∃ r ∈ s.verifyOtps, (∃ n, parseIntOf mobile = .ok n ∧ r.phone = some n) ∧
      r.code = some otp.toStr

/-- The condition that the value casts to admits no stored code but its own rendering. -/
def AdmitsOnlyItself (regex : RegexEngine) (otp : Json) : Prop :=
  ∀ p, castForQuery (stringType regex) (some otp) = .ok p →
    ∀ code, p code = true → code = some otp.toStr

variable (regex : RegexEngine)

theorem comparesValues_iff_admits (otp : Json) :
    ComparesValues regex otp ↔ AdmitsOnlyItself regex otp := by
  constructor
  · intro h p hp code hcode
    -- A database with one record that the condition admits.
    let r : OtpRecord := ⟨some (.fin 1), none, code, none⟩
    let env : Env := ⟨0, ⟨0⟩, regex⟩
    have hone : parseIntOf (some (.str "1")) = .ok (.fin 1) := by decide +kernel
    have hcond : otpCondition regex (some otp) (some (.str "1")) =
        .ok fun r => p r.code && r.phone = some (.fin 1) := by
      unfold otpCondition
      rw [hone, hp]
      rfl
    have htrue : ((isValidUserOtp env (some otp) (some (.str "1"))).run exec
        { Db.empty with verifyOtps := [r] }).2 = .ok true := by
      refine isValidUserOtp_eq_true.mpr ⟨_, r, hcond, ?_⟩
      simp [r, hcode]
    obtain ⟨r', hr', -, hcode'⟩ := h env _ _ rfl htrue
    have heq : r' = r := by simpa using hr'
    rw [heq] at hcode'
    exact hcode'
  · rintro h env s mobile rfl htrue
    obtain ⟨p, r, hp, hr⟩ := isValidUserOtp_eq_true.mp htrue
    obtain ⟨n, q, hn, -, hq, hpq⟩ := otpCondition_eq_ok hp
    have hmatch : p r = true := List.find?_some hr
    rw [hpq, Bool.and_eq_true, decide_eq_true_eq] at hmatch
    exact ⟨r, List.mem_of_find?_eq_some hr, ⟨n, hn, hmatch.2⟩, h q hq _ hmatch.1⟩

/-- Strings, numbers and booleans admit only themselves. -/
theorem admitsOnlyItself_of_scalar {otp : Json} (hn : otp ≠ .null) (ha : ∀ vs, otp ≠ .arr vs)
    (ho : ∀ kvs, otp ≠ .obj kvs) : AdmitsOnlyItself regex otp := by
  intro p hp code hcode
  rw [castForQuery_scalar _ otp ha ho hn] at hp
  have hcast : castString otp = .ok (some otp.toStr) := by
    cases otp with
    | null => exact absurd rfl hn
    | arr vs => exact absurd rfl (ha vs)
    | obj kvs => exact absurd rfl (ho kvs)
    | _ => rfl
  change (castString otp).map _ = _ at hp
  rw [hcast] at hp
  cases hp
  simpa using hcode

/-- Which values are compared as values. A string, a number or a boolean is, `null` is not. An
array is a list of alternatives: either one of them is refused, or all of them are the text of
the whole array. An object renders as `[object Object]`, so that the `_id` it casts to must be
that text, and its operators must leave no other code open. -/
def comparedAsValue (regex : RegexEngine) : Json → Prop
  | .null => False
  | .bool _ => True
  | .num _ _ => True
  | .str _ => True
  | .arr vs =>
    (∃ v ∈ vs, ∃ e, castString v = .error e) ∨
      ∀ v ∈ vs, castString v = .ok (some (Json.arr vs).toStr)
  | .obj kvs =>
    if (kvs.any fun kv => isOperator kv.1) = true then
      ∀ cs, castClauses (stringType regex) kvs kvs = .ok cs →
        admitsOnly regex "[object Object]" cs
    else ∀ code, castString (.obj kvs) = .ok code → code = some "[object Object]"

/-- The alternatives of an array are the casts of its elements. -/
theorem castForQuery_arr {vs : List Json} {p : Option String → Bool}
    (h : castForQuery (stringType regex) (some (.arr vs)) = .ok p) :
    ∃ as : List (Option String), vs.map castString = as.map Except.ok ∧
      ∀ code, p code = true ↔ code ∈ as := by
  cases hall : castAll (stringType regex) vs with
  | error e => simp [castForQuery, hall, Except.map] at h
  | ok as =>
    simp only [castForQuery, hall, Except.map, Except.ok.injEq] at h
    refine ⟨as, (castAll_eq_ok_iff _ _ _).mp hall, fun code => ?_⟩
    rw [← h, decide_eq_true_eq]

theorem admitsOnlyItself_arr_iff (vs : List Json) :
    AdmitsOnlyItself regex (.arr vs) ↔ comparedAsValue regex (.arr vs) := by
  constructor
  · intro h
    by_cases herr : ∃ v ∈ vs, ∃ e, castString v = .error e
    · exact Or.inl herr
    · -- Every element casts, and each cast is an alternative.
      have hcasts : ∃ as : List (Option String), vs.map castString = as.map Except.ok := by
        refine ⟨vs.map fun v => (castString v).toOption.join, ?_⟩
        rw [List.map_map]
        refine List.map_congr_left fun v hv => ?_
        cases hc : castString v with
        | error e => exact absurd ⟨v, hv, e, hc⟩ herr
        | ok a => simp [hc, Except.toOption]
      obtain ⟨as, has⟩ := hcasts
      have hall : castAll (stringType regex) vs = .ok as := (castAll_eq_ok_iff _ _ _).mpr has
      have hquery : castForQuery (stringType regex) (some (.arr vs)) =
          .ok fun x => decide (x ∈ as) := by
        simp [castForQuery, hall, Except.map]
      right
      intro v hv
      have hmem : castString v ∈ as.map Except.ok := has ▸ List.mem_map_of_mem hv
      obtain ⟨a, ha, heq⟩ := List.mem_map.mp hmem
      rw [← heq, h _ hquery a (decide_eq_true ha)]
  · intro h p hp code hcode
    obtain ⟨as, has, hpas⟩ := castForQuery_arr regex hp
    rcases h with ⟨v, hv, e, he⟩ | hall
    · have hmem : castString v ∈ as.map Except.ok := has ▸ List.mem_map_of_mem hv
      obtain ⟨a, -, heq⟩ := List.mem_map.mp hmem
      rw [he] at heq
      cases heq
    · have hmem : Except.ok code ∈ vs.map castString :=
        has ▸ List.mem_map_of_mem ((hpas code).mp hcode)
      obtain ⟨v, hv, heq⟩ := List.mem_map.mp hmem
      rw [hall v hv] at heq
      exact (Except.ok.inj heq).symm

theorem objectObject_ne_following (a : String) : "[object Object]" ≠ following a := by
  intro h
  have hlast := congrArg (fun s => s.toList.getLast?) h
  rw [toList_following, List.getLast?_concat] at hlast
  exact absurd hlast (by decide)

theorem admitsOnlyItself_obj_iff (kvs : List (String × Json)) :
    AdmitsOnlyItself regex (.obj kvs) ↔ comparedAsValue regex (.obj kvs) := by
  have htext : (Json.obj kvs).toStr = "[object Object]" := by rw [Json.toStr]
  unfold AdmitsOnlyItself comparedAsValue
  rw [htext]
  by_cases hop : (kvs.any fun kv => isOperator kv.1) = true
  · simp only [castForQuery, hop, if_true, admitsOnly_iff (by decide) objectObject_ne_following]
    constructor
    · intro h cs hcs
      exact h _ (by rw [hcs]; rfl)
    · intro h p hp
      obtain ⟨cs, hcs, rfl⟩ := map_eq_ok hp
      exact h cs hcs
  · simp only [castForQuery, hop, if_false, Bool.false_eq_true]
    constructor
    · intro h code hcode
      have hquery : (castString (.obj kvs)).map (fun a x => decide (x = a)) =
          .ok fun x => decide (x = code) := by rw [hcode]; rfl
      exact h _ hquery code (decide_eq_true rfl)
    · intro h p hp code hcode
      obtain ⟨a, ha, rfl⟩ := map_eq_ok hp
      rw [of_decide_eq_true hcode]
      exact h a ha

end Checks

section Histories

/-- A call of `saveOtp` for a phone, or of `isValidUserOtp`. -/
inductive OtpEvent where
  | save (env : Env) (phone : Option Json) (code : String)
  | check (env : Env) (code : String) (phone : Option Json)

/-- What happened so far: a password saved, or a check that returned `true`. -/
inductive OtpLog where
  | saved (phone : Option JsNum) (code : String) (time : ℤ)
  | accepted (phone : JsNum) (code : String) (time : ℤ)
deriving DecidableEq

/-- The database and the log, with the last entry first. -/
structure OtpHistory where
  db : Db
  log : List OtpLog

def OtpHistory.initial : OtpHistory := ⟨Db.empty, []⟩

def OtpHistory.step (h : OtpHistory) : OtpEvent → OtpHistory
  | .save env phone code =>
    let db := ((saveOtp env phone none code).run exec h.db).1
    match optional castNumber phone with
    | .ok n => ⟨db, .saved n code env.now :: h.log⟩
    | .error _ => ⟨db, h.log⟩
  | .check env code phone =>
    let (db, result) := (isValidUserOtp env (some (.str code)) phone).run exec h.db
    match result, parseIntOf phone with
    | .ok true, .ok n => ⟨db, .accepted n code env.now :: h.log⟩
    | _, _ => ⟨db, h.log⟩

def savedCount (log : List OtpLog) (phone : JsNum) (code : String) : ℕ :=
  log.countP fun e => match e with
    | .saved n c _ => n = some phone ∧ c = code
    | .accepted _ _ _ => false

def acceptedCount (log : List OtpLog) (phone : JsNum) (code : String) : ℕ :=
  log.countP fun e => match e with
    | .saved _ _ _ => false
    | .accepted n c _ => n = phone ∧ c = code

/-- Every check that succeeded came at most a minute after some save of its code for its
phone, and no code was accepted more often for a phone than it was saved. -/
structure FreshAndSingleUse (log : List OtpLog) : Prop where
  fresh : ∀ later phone code time earlier, log = later ++ .accepted phone code time :: earlier →
    ∃ t, OtpLog.saved (some phone) code t ∈ earlier ∧ time ≤ t+otpExpiry
  single : ∀ phone code, acceptedCount log phone code ≤ savedCount log phone code

/-- The code was saved for the phone after it was last accepted. -/
def savedSince (phone : JsNum) (code : String) : List OtpLog → Bool
  | [] => false
  | .saved n c _ :: log => (n = some phone ∧ c = code) || savedSince phone code log
  | .accepted n c _ :: log => !(n = phone ∧ c = code) && savedSince phone code log

/-- A check that finds a record finds one that has not expired, and its code was saved since
it was last accepted. -/
def soundCheck (h : OtpHistory) : OtpEvent → Bool
  | .save _ _ _ => true
  | .check env code phone =>
    match otpCondition env.regex (some (.str code)) phone, parseIntOf phone with
    | .ok p, .ok n =>
      !h.db.verifyOtps.any p ||
        (h.db.verifyOtps.any (fun r => p r && !r.expired env.now) && savedSince n code h.log)
    | _, _ => true

/-- The passwords stored were saved, and the log is as it should be. -/
structure OtpInv (h : OtpHistory) : Prop where
  stored : ∀ r ∈ h.db.verifyOtps, ∀ phone code, r.phone = some phone → r.code = some code →
    ∃ t, r.createdOn = some t ∧ OtpLog.saved (some phone) code t ∈ h.log
  log : FreshAndSingleUse h.log
  since : ∀ phone code, savedSince phone code h.log = true →
    acceptedCount h.log phone code < savedCount h.log phone code

theorem otpInv_initial : OtpInv OtpHistory.initial where
  stored := by
    intro r hr
    cases hr
  log :=
    { fresh := by
        intro later phone code time earlier h
        cases later with
        | nil => cases h
        | cons e later => cases h
      single := fun _ _ => le_rfl }
  since := by
    intro phone code h
    cases h

/-- Logging a save. -/
theorem freshAndSingleUse_saved {log : List OtpLog} (h : FreshAndSingleUse log)
    (n : Option JsNum) (c : String) (t : ℤ) : FreshAndSingleUse (.saved n c t :: log) where
  fresh := by
    intro later phone code time earlier he
    cases later with
    | nil => cases he
    | cons e later =>
      rw [List.cons_append, List.cons.injEq] at he
      exact h.fresh later phone code time earlier he.2
  single := by
    intro phone code
    have hle := h.single phone code
    simp only [acceptedCount, savedCount, List.countP_cons] at hle ⊢
    simp only [Bool.false_eq_true, if_false]
    omega

/-- Logging a check that came in time, of a code that has a save to spare. -/
theorem freshAndSingleUse_accepted {log : List OtpLog} (h : FreshAndSingleUse log)
    {n : JsNum} {c : String} {t t' : ℤ} (hsaved : OtpLog.saved (some n) c t' ∈ log)
    (htime : t ≤ t'+otpExpiry) (hlt : acceptedCount log n c < savedCount log n c) :
    FreshAndSingleUse (.accepted n c t :: log) where
  fresh := by
    intro later phone code time earlier he
    cases later with
    | nil =>
      rw [List.nil_append, List.cons.injEq, OtpLog.accepted.injEq] at he
      obtain ⟨⟨rfl, rfl, rfl⟩, rfl⟩ := he
      exact ⟨t', hsaved, htime⟩
    | cons e later =>
      rw [List.cons_append, List.cons.injEq] at he
      exact h.fresh later phone code time earlier he.2
  single := by
    intro phone code
    have hle := h.single phone code
    simp only [acceptedCount, savedCount, List.countP_cons] at hle hlt ⊢
    simp only [Bool.false_eq_true, if_false, decide_eq_true_eq]
    split
    · rename_i hsame
      obtain ⟨rfl, rfl⟩ := hsame
      omega
    · omega

theorem run_saveOtp (env : Env) (phone : Option Json) (code : String) (s : Db) :
    ((saveOtp env phone none code).run exec s).1 =
      match optional castNumber phone with
      | .ok n => { s with verifyOtps := s.verifyOtps ++ [⟨n, none, some code, some env.now⟩] }
      | .error _ => s := by
  unfold saveOtp
  cases optional castNumber phone with
  | error e => rfl
  | ok n => rfl

/-- A save keeps the invariant. -/
theorem otpInv_save {h : OtpHistory} (hi : OtpInv h) (env : Env) (phone : Option Json)
    (code : String) : OtpInv (h.step (.save env phone code)) := by
  simp only [OtpHistory.step, run_saveOtp]
  cases optional castNumber phone with
  | error e => exact hi
  | ok n =>
    refine ⟨?_, freshAndSingleUse_saved hi.log n code env.now, ?_⟩
    · intro r hr p c hp hc
      rcases List.mem_append.mp hr with hr | hr
      · obtain ⟨t, ht, hmem⟩ := hi.stored r hr p c hp hc
        exact ⟨t, ht, List.mem_cons_of_mem _ hmem⟩
      · rw [List.mem_singleton] at hr
        subst hr
        cases hp
        cases hc
        exact ⟨env.now, rfl, List.mem_cons_self⟩
    · intro p c hs
      have hle := hi.log.single p c
      have hlt := hi.since p c
      simp only [savedSince, Bool.or_eq_true, decide_eq_true_eq] at hs
      simp only [acceptedCount, savedCount, List.countP_cons] at hle hlt ⊢
      simp only [Bool.false_eq_true, if_false, decide_eq_true_eq]
      split
      · omega
      · rename_i hne
        have hold := hlt (hs.resolve_left hne)
        omega

/-- The condition of a string selects the records of this code and number. -/
theorem otpCondition_str {regex : RegexEngine} {code : String} {phone : Option Json}
    {p : OtpRecord → Bool} (h : otpCondition regex (some (.str code)) phone = .ok p) :
    ∃ n, parseIntOf phone = .ok n ∧
      ∀ r, p r = true ↔ r.code = some code ∧ r.phone = some n := by
  obtain ⟨n, q, hn, -, hq, hpq⟩ := otpCondition_eq_ok h
  cases hq
  refine ⟨n, hn, fun r => ?_⟩
  rw [hpq, Bool.and_eq_true, decide_eq_true_eq, decide_eq_true_eq]
  rfl

/-- A check removes records and adds none. -/
theorem stored_of_check (env : Env) (code phone : Option Json) (s : Db) {r : OtpRecord}
    (hr : r ∈ ((isValidUserOtp env code phone).run exec s).1.verifyOtps) : r ∈ s.verifyOtps := by
  rw [run_isValidUserOtp] at hr
  cases hc : otpCondition env.regex code phone with
  | error e =>
    rw [hc] at hr
    exact hr
  | ok p =>
    rw [hc] at hr
    dsimp only at hr
    cases hf : s.verifyOtps.find? p with
    | none =>
      rw [hf] at hr
      exact hr
    | some x =>
      rw [hf] at hr
      dsimp only at hr
      split at hr
      · exact (List.mem_filter.mp hr).1
      · exact hr

/-- A check that meets the condition keeps the invariant. -/
theorem otpInv_check {h : OtpHistory} (hi : OtpInv h) (env : Env) (code : String)
    (phone : Option Json) (hs : soundCheck h (.check env code phone) = true) :
    OtpInv (h.step (.check env code phone)) := by
  have hstored : ∀ log : List OtpLog, (∀ e ∈ h.log, e ∈ log) →
      ∀ r ∈ ((isValidUserOtp env (some (.str code)) phone).run exec h.db).1.verifyOtps,
      ∀ p c, r.phone = some p → r.code = some c →
      ∃ t, r.createdOn = some t ∧ OtpLog.saved (some p) c t ∈ log := by
    intro log hlog r hr p c hp hc
    obtain ⟨t, ht, hmem⟩ := hi.stored r (stored_of_check env _ phone h.db hr) p c hp hc
    exact ⟨t, ht, hlog _ hmem⟩
  by_cases htrue : ((isValidUserOtp env (some (.str code)) phone).run exec h.db).2 = .ok true
  · obtain ⟨p, r, hp, hr⟩ := isValidUserOtp_eq_true.mp htrue
    obtain ⟨n, hn, hpr⟩ := otpCondition_str hp
    have hany : h.db.verifyOtps.any p = true :=
      List.any_eq_true.mpr ⟨r, List.mem_of_find?_eq_some hr, List.find?_some hr⟩
    simp only [soundCheck, hp, hn, hany, Bool.not_true, Bool.false_or, Bool.and_eq_true,
      List.any_eq_true, Bool.not_eq_true'] at hs
    obtain ⟨⟨x, hx, hpx, hfresh⟩, hsince⟩ := hs
    -- The record that has not expired was saved at most a minute ago.
    obtain ⟨hxc, hxp⟩ := (hpr x).mp hpx
    obtain ⟨t, ht, hsaved⟩ := hi.stored x hx n code hxp hxc
    have htime : env.now ≤ t+otpExpiry := by
      simpa [OtpRecord.expired, ht] using hfresh
    have hlt := hi.since n code hsince
    simp only [OtpHistory.step, htrue, hn]
    refine ⟨hstored _ fun e he => List.mem_cons_of_mem _ he,
      freshAndSingleUse_accepted hi.log hsaved htime hlt, ?_⟩
    intro p' c' hs'
    have hlt' := hi.since p' c'
    simp only [savedSince, Bool.and_eq_true, Bool.not_eq_true', decide_eq_false_iff_not] at hs'
    have hold := hlt' hs'.2
    simp only [acceptedCount, savedCount, List.countP_cons] at hold ⊢
    simp only [Bool.false_eq_true, if_false, decide_eq_true_eq, hs'.1]
    omega
  · have hstep : h.step (.check env code phone) =
        ⟨((isValidUserOtp env (some (.str code)) phone).run exec h.db).1, h.log⟩ := by
      simp only [OtpHistory.step]
      split
      · rename_i heq _
        exact absurd heq htrue
      · rfl
    rw [hstep]
    exact ⟨hstored _ fun e he => he, hi.log, hi.since⟩

/-- In every run of saves and checks in which each successful check finds a record that has
not expired, of a code saved since it was last accepted, passwords are fresh and single-use. -/
theorem freshAndSingleUse_of_soundChecks (events : List OtpEvent)
    (h : Along OtpHistory.step (fun t e => soundCheck t e = true) .initial events) :
    FreshAndSingleUse (runFrom OtpHistory.step .initial events).log := by
  refine (invariant_runFrom (I := OtpInv) ?_ otpInv_initial h).log
  intro t e ht he
  cases e with
  | save env phone code => exact otpInv_save ht env phone code
  | check env code phone => exact otpInv_check ht env code phone he

def clockAt (now : ℤ) : Env := ⟨now, ⟨0⟩, fun _ _ => none⟩

/-- A password is saved and checked once, half a minute later. -/
theorem freshAndSingleUse_once :
    FreshAndSingleUse (runFrom OtpHistory.step .initial
      [.save (clockAt 0) (some (.num 800 0)) "123456",
        .check (clockAt 30000) "123456" (some (.str "800"))]).log :=
  freshAndSingleUse_of_soundChecks _ (by decide +kernel)

/-- An expired password is accepted, and a password is accepted twice. -/
theorem otp_accepted_late_and_twice :
    ¬ FreshAndSingleUse (runFrom OtpHistory.step .initial
      [.save (clockAt 0) (some (.num 800 0)) "123456",
        .check (clockAt 120000) "123456" (some (.str "800"))]).log ∧
    ¬ FreshAndSingleUse (runFrom OtpHistory.step .initial
      [.save (clockAt 0) (some (.num 800 0)) "123456",
        .check (clockAt 10000) "123456" (some (.str "800")),
        .check (clockAt 20000) "123456" (some (.str "800"))]).log := by
  constructor
  · intro h
    have hlog : (runFrom OtpHistory.step .initial
        [.save (clockAt 0) (some (.num 800 0)) "123456",
          .check (clockAt 120000) "123456" (some (.str "800"))]).log =
        [.accepted (.fin 800) "123456" 120000, .saved (some (.fin 800)) "123456" 0] := by
      decide +kernel
    obtain ⟨t, ht, hle⟩ := h.fresh [] (.fin 800) "123456" 120000 _ hlog
    have ht0 : t = 0 := by simpa using ht
    rw [ht0] at hle
    exact absurd hle (by decide)
  · intro h
    have hcount := h.single (.fin 800) "123456"
    revert hcount
    decide +kernel

end Histories

end DoQwik
