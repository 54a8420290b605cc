import DoQwik.Interference
import DoQwik.OtpCalls

/-! How far apart the passwords of one phone are saved, when logins and checks of passwords
interleave and time passes in between. -/
namespace DoQwik
open JsValues DocStore Interleave

section Rules

/-- All passwords saved for the phone are at least a minute older than `t`. -/
def Clear (phone : Option JsNum) (t : ℤ) (log : List (Option JsNum × ℤ)) : Prop :=
  ∀ e ∈ log, e.1 = phone → e.2+otpRetry ≤ t

/-- Passwords younger than a minute are still on record. -/
def OnRecord (w : OtpWorld) : Prop :=
  ∀ e ∈ w.log, w.now < e.2+otpRetry →
    ∃ r ∈ w.state.verifyOtps, r.phone = e.1 ∧ r.createdOn = some e.2

/-- What the others may do meanwhile: save no password for the phone. -/
structure Undisturbed (phone : Option JsNum) (w w' : OtpWorld) : Prop where
  later : w.now ≤ w'.now
  spared : ∀ e ∈ w'.log, e.1 = phone → e ∈ w.log
  recorded : OnRecord w'

/-- A password for the phone is saved only if those before are old enough. -/
def SavesClear (phone : Option JsNum) (w : OtpWorld) (op : TimedOp DbOp) : Prop :=
  ∀ r, op = .act (.createOtp r) → r.phone = phone →
    ∃ t, r.createdOn = some t ∧ Clear phone t w.log

variable {phone : Option JsNum} {w w' : OtpWorld}

theorem Undisturbed.trans {w'' : OtpWorld} (h : Undisturbed phone w w')
    (h' : Undisturbed phone w' w'') : Undisturbed phone w w'' where
  later := h.later.trans h'.later
  spared := fun e he hphone => h.spared e (h'.spared e he hphone) hphone
  recorded := h'.recorded

/-- What was clear stays so. -/
theorem Clear.later {t : ℤ} (h : Clear phone w.now w.log) (hw : Undisturbed phone w w')
    (ht : w'.now ≤ t) : Clear phone t w'.log := by
  intro e he hphone
  have hold := h e (hw.spared e he hphone) hphone
  have hlater := hw.later
  omega

theorem SavesClear.of_undisturbed {op : TimedOp DbOp} (h : SavesClear phone w op)
    (hw : Undisturbed phone w w') : SavesClear phone w' op := by
  intro r hop hphone
  obtain ⟨t, ht, hclear⟩ := h r hop hphone
  exact ⟨t, ht, fun e he hphone' => hclear e (hw.spared e he hphone') hphone'⟩

theorem savesClear_read {β : Type} (f : Db → β) : SavesClear phone w (.act (.read f)) := by
  intro r hr
  cases hr

theorem savesClear_remove (sel : OtpRecord → Bool) :
    SavesClear phone w (.act (.removeOtps sel)) := by
  intro r hr
  cases hr

theorem savesClear_clock : SavesClear phone w .clock := by
  intro r hr
  cases hr

theorem savesClear_tick (d : ℕ) : SavesClear phone w (.tick d) := by
  intro r hr
  cases hr

/-- The record is dated, and not before `t`. -/
def DatedFrom (t : ℤ) (record : Option OtpRecord) : Prop :=
  ∃ r t', record = some r ∧ r.createdOn = some t' ∧ t ≤ t'

theorem latestOtp_append (records : List OtpRecord) (r : OtpRecord) :
    latestOtp (records ++ [r]) = (latestOtp records).elim (some r) fun b =>
      if laterThan r.createdOn b.createdOn then some r else some b := by
  unfold latestOtp
  rw [List.foldl_append, List.foldl_cons, List.foldl_nil]
  cases records.foldl _ none with
  | none => rfl
  | some b => rfl

theorem datedFrom_append {t : ℤ} {records : List OtpRecord} (h : DatedFrom t (latestOtp records))
    (x : OtpRecord) : DatedFrom t (latestOtp (records ++ [x])) := by
  obtain ⟨b, tb, hbest, hb, hle⟩ := h
  rw [latestOtp_append, hbest, Option.elim_some]
  split
  · next hlater =>
    -- only a dated record is later than a dated one
    cases hx : x.createdOn with
    | none =>
      rw [hx] at hlater
      cases hlater
    | some tx =>
      rw [hx, hb] at hlater
      exact ⟨x, tx, rfl, hx, hle.trans (of_decide_eq_true hlater).le⟩
  · exact ⟨b, tb, rfl, hb, hle⟩

theorem datedFrom_last {t : ℤ} {x : OtpRecord} (hx : x.createdOn = some t)
    (records : List OtpRecord) : DatedFrom t (latestOtp (records ++ [x])) := by
  rw [latestOtp_append, hx]
  cases latestOtp records with
  | none => exact ⟨x, t, rfl, hx, le_rfl⟩
  | some b =>
    rw [Option.elim_some]
    split
    · exact ⟨x, t, rfl, hx, le_rfl⟩
    · next hlater =>
      cases hb : b.createdOn with
      | none =>
        rw [hb] at hlater
        exact absurd rfl hlater
      | some tb =>
        rw [hb] at hlater
        exact ⟨b, tb, rfl, hb, not_lt.mp fun hlt => hlater (decide_eq_true hlt)⟩

/-- No record is later than the latest one. -/
theorem datedFrom_latestOtp {records : List OtpRecord} {r : OtpRecord} {t : ℤ}
    (hr : r ∈ records) (ht : r.createdOn = some t) : DatedFrom t (latestOtp records) := by
  induction records using List.reverseRecOn with
  | nil => cases hr
  | append_singleton records x ih =>
    rcases List.mem_append.mp hr with hold | hlast
    · exact datedFrom_append (ih hold) x
    · rw [List.mem_singleton] at hlast
      exact datedFrom_last (hlast ▸ ht) records

/-- A look at the latest record of the phone tells how old all of its passwords are. -/
theorem clear_of_latest {p : Option JsNum → Bool} (hp : p phone = true) (hw : OnRecord w) {t : ℤ}
    (hnow : w.now ≤ t)
    (h : ∀ r, latestOtp (w.state.verifyOtps.filter fun r => p r.phone) = some r →
      ∃ t', r.createdOn = some t' ∧ t'+otpRetry ≤ t) : Clear phone t w.log := by
  rintro e he rfl
  by_cases hyoung : w.now < e.2+otpRetry
  · obtain ⟨r, hr, hphone, hcreated⟩ := hw e he hyoung
    have hmem : r ∈ w.state.verifyOtps.filter fun r => p r.phone := by
      rw [List.mem_filter, hphone]
      exact ⟨hr, hp⟩
    obtain ⟨r', t', hlatest, ht', hle⟩ := datedFrom_latestOtp hmem hcreated
    obtain ⟨t'', ht'', hold⟩ := h r' hlatest
    obtain rfl : t' = t'' := Option.some.inj (ht'.symm.trans ht'')
    omega
  · omega

theorem checkRetry_cases (now : ℤ) (record : Option OtpRecord) :
    checkRetry now record = .fail .tooEarly ∨ checkRetry now record = .done () ∧
      ∀ r, record = some r → ∃ t, r.createdOn = some t ∧ t+otpRetry ≤ now := by
  cases record with
  | none => exact Or.inr ⟨rfl, fun r hr => by cases hr⟩
  | some r =>
    cases hcreated : r.createdOn with
    | none =>
      left
      rw [checkRetry, hcreated]
      rfl
    | some t =>
      by_cases hearly : now < t+otpRetry
      · left
        rw [checkRetry, hcreated, Option.all_some, if_pos (decide_eq_true hearly)]
        rfl
      · right
        rw [checkRetry, hcreated, Option.all_some, if_neg (by simpa using hearly)]
        refine ⟨rfl, ?_⟩
        rintro _ ⟨⟩
        exact ⟨t, hcreated, by omega⟩

end Rules

section Programs

variable {phone : Option JsNum}

/-- The number of a login that is not refused at once. -/
theorem exists_castNumber {v : Option Json} (ht : truthy v = true)
    (hv : optional castNumber v = .ok phone) :
    ∃ x n, v = some x ∧ castNumber x = .ok (some n) ∧ phone = some n := by
  cases v with
  | none => cases ht
  | some x =>
    cases hx : castNumber x with
    | error e =>
      simp only [optional, castSet, hx, Except.map] at hv
      cases hv
    | ok a =>
      cases a with
      | none =>
        cases x with
        | null => cases ht
        | str s =>
          have hs : s ≠ "" := of_decide_eq_true ht
          rw [castNumber, if_neg hs] at hx
          split at hx
          · cases hx
          · cases hx
        | _ => cases hx
      | some n =>
        simp only [optional, castSet, hx, Except.map] at hv
        exact ⟨x, n, rfl, hx, (Except.ok.inj hv).symm⟩

/-- Once the check has passed, all passwords of the phone are old enough. -/
theorem follows_canOtpGenerated {v : Option Json} (ht : truthy v = true) (w : OtpWorld) :
    Prog.Follows execOtp (Undisturbed phone) (SavesClear phone)
      (fun w' _ => optional castNumber v = .ok phone → Clear phone w'.now w'.log) w
      (Timed.canOtpGenerated v) := by
  unfold Timed.canOtpGenerated
  cases hp : castForQuery numberType v with
  | error e => exact trivial
  | ok p =>
    refine ⟨savesClear_read _, fun t hread => ⟨savesClear_clock, fun t' hclock => ?_⟩⟩
    change Undisturbed phone t t' at hclock
    change Prog.Follows _ _ _ _ t' (Prog.timed (checkRetry t'.now
      (latestOtp (t.state.verifyOtps.filter fun r => p r.phone))))
    rcases checkRetry_cases t'.now
        (latestOtp (t.state.verifyOtps.filter fun r => p r.phone)) with hfail | ⟨hdone, hold⟩
    · rw [hfail]
      exact trivial
    · rw [hdone]
      intro hv
      obtain ⟨x, n, rfl, hx, rfl⟩ := exists_castNumber ht hv
      have hphone : p (some n) = true := by
        rw [castForQuery_of_castNumber hp hx]
        exact decide_eq_true rfl
      have hclear := clear_of_latest hphone hread.recorded hclock.later hold
      exact fun e he hphone' => hclear e (hclock.spared e he hphone') hphone'

/-- The password is saved with the time that the clock showed after the check. -/
theorem follows_saveOtp {v : Option Json} {w : OtpWorld}
    (h : optional castNumber v = .ok phone → Clear phone w.now w.log) (code : String) :
    Prog.Follows execOtp (Undisturbed phone) (SavesClear phone) (fun _ _ => True) w
      (Timed.saveOtp v code) := by
  refine ⟨savesClear_clock, fun t hclock => ?_⟩
  change Prog.Follows _ _ _ _ t (Prog.timed (saveOtp (clockAt t.now) v none code))
  unfold saveOtp
  cases hv : optional castNumber v with
  | error e => exact trivial
  | ok n =>
    refine ⟨?_, fun _ _ => trivial⟩
    intro r hr hphone
    cases hr
    rw [hv, show n = phone from hphone] at h
    exact ⟨t.now, rfl, (h rfl).later hclock le_rfl⟩

/-- What was checked may be saved. -/
theorem follows_checkAndSave {v : Option Json} (ht : truthy v = true) (w : OtpWorld) {α : Type}
    (k : TimedAction α)
    (hk : ∀ t, Prog.Follows execOtp (Undisturbed phone) (SavesClear phone) (fun _ _ => True) t k) :
    Prog.Follows execOtp (Undisturbed phone) (SavesClear phone) (fun _ _ => True) w
      (Timed.canOtpGenerated v >>= fun _ => Timed.saveOtp v "123456" >>= fun _ => k) := by
  refine Prog.Follows.bind ((follows_canOtpGenerated ht w).mono fun t _ hclear => ?_)
  exact Prog.Follows.bind ((follows_saveOtp hclear "123456").mono fun t' _ _ => hk t')

theorem follows_answerLogin (b : UserBody) (smsSent saved : Bool) (w : OtpWorld) :
    Prog.Follows execOtp (Undisturbed phone) (SavesClear phone) (fun _ _ => True) w
      (Timed.answerLogin b smsSent saved).timed := by
  cases saved with
  | false => exact trivial
  | true =>
    cases smsSent with
    | false => exact trivial
    | true => exact trivial

theorem follows_login (b : UserBody) (smsSent : Bool) (w : OtpWorld) :
    Prog.Follows execOtp (Undisturbed phone) (SavesClear phone) (fun _ _ => True) w
      (Timed.login b smsSent) := by
  unfold Timed.login
  by_cases ht : truthy b.mobile = true
  · rw [if_pos ht]
    refine Prog.Follows.bind (Prog.Follows.mono ?_ (Prog.Follows.catchAll (fun _ _ => trivial)
      (follows_checkAndSave ht w (pure true) fun t => trivial)))
    exact fun t saved _ => follows_answerLogin b smsSent saved t
  · rw [if_neg ht]
    exact trivial

theorem follows_otherAccount (mobile userType : Option Json) (w : OtpWorld) :
    Prog.Follows execOtp (Undisturbed phone) (SavesClear phone) (fun _ _ => True) w
      (Timed.otherAccount mobile userType).timed := by
  unfold Timed.otherAccount
  split
  · cases providerByPhone mobile with
    | error e => exact trivial
    | ok p => exact ⟨savesClear_read _, fun _ _ => trivial⟩
  · exact trivial

theorem follows_providerLogin (mobile userType : Option Json) (w : OtpWorld) :
    Prog.Follows execOtp (Undisturbed phone) (SavesClear phone) (fun _ _ => True) w
      (Timed.providerLogin mobile userType) := by
  unfold Timed.providerLogin
  by_cases ht : truthy mobile = true
  · rw [if_pos ht]
    refine Prog.Follows.catchAll (fun _ _ => trivial) (Prog.Follows.bind
      ((follows_otherAccount mobile userType w).mono fun t refused _ => ?_))
    cases refused with
    | true => exact trivial
    | false => exact follows_checkAndSave ht t _ fun _ => trivial
  · rw [if_neg ht]
    exact trivial

theorem follows_acceptRecord (p : OtpRecord → Bool) (record : Option OtpRecord) (w : OtpWorld) :
    Prog.Follows execOtp (Undisturbed phone) (SavesClear phone) (fun _ _ => True) w
      (Timed.acceptRecord p record) := by
  cases record with
  | none => exact trivial
  | some r =>
    refine ⟨savesClear_clock, fun t _ => ?_⟩
    change Prog.Follows _ _ _ _ t (if r.expired t.now then _ else _)
    split
    · exact ⟨savesClear_remove _, fun _ _ => trivial⟩
    · exact trivial

/-- A check of a password saves none. -/
theorem follows_isValidUserOtp (regex : RegexEngine) (code number : Option Json) (w : OtpWorld) :
    Prog.Follows execOtp (Undisturbed phone) (SavesClear phone) (fun _ _ => True) w
      (Timed.isValidUserOtp regex code number) := by
  unfold Timed.isValidUserOtp
  cases otpCondition regex code number with
  | error e => exact trivial
  | ok p =>
    exact ⟨savesClear_read _, fun t _ => follows_acceptRecord p (t.state.verifyOtps.find? p) t⟩

theorem follows_ticking (ticks : List ℕ) (w : OtpWorld) :
    Prog.Follows execOtp (Undisturbed phone) (SavesClear phone) (fun _ _ => True) w
      (ticking OtpAnswer.clock ticks : TimedAction OtpAnswer) := by
  induction ticks generalizing w with
  | nil => exact trivial
  | cons d ticks ih => exact ⟨savesClear_tick d, fun t _ => ih _⟩

theorem follows_program (call : OtpCall) (w : OtpWorld) :
    Prog.Follows execOtp (Undisturbed phone) (SavesClear phone) (fun _ _ => True) w
      call.program := by
  cases call with
  | login b smsSent => exact Prog.Follows.bind (follows_login b smsSent w)
  | providerLogin mobile userType =>
    exact Prog.Follows.bind (follows_providerLogin mobile userType w)
  | isValidUserOtp regex code number =>
    exact Prog.Follows.bind (follows_isValidUserOtp regex code number w)
  | clock ticks => exact follows_ticking ticks w

end Programs

section Operations

variable {w : OtpWorld}

theorem mem_savedBy {op : DbOp} {e : Option JsNum × ℤ} (h : e ∈ savedBy op) :
    ∃ r, op = .createOtp r ∧ r.phone = e.1 ∧ r.createdOn = some e.2 := by
  cases op with
  | createOtp r =>
    obtain ⟨t, ht, rfl⟩ := List.mem_map.mp h
    exact ⟨r, rfl, rfl, Option.mem_toList.mp ht⟩
  | _ => cases h

/-- Only the two operations on passwords touch them. -/
theorem verifyOtps_exec {op : DbOp} (hcreate : ∀ r, op ≠ .createOtp r)
    (hremove : ∀ sel, op ≠ .removeOtps sel) (s : Db) :
    (exec op s).1.verifyOtps = s.verifyOtps := by
  cases op with
  | createOtp r => exact absurd rfl (hcreate r)
  | removeOtps sel => exact absurd rfl (hremove sel)
  | createJob j =>
    simp only [exec]
    cases s.jobs.insert j with
    | none => rfl
    | some _ => rfl
  | createCounter c =>
    simp only [exec]
    cases s.counters.insert c with
    | none => rfl
    | some _ => rfl
  | createUser u =>
    simp only [exec]
    cases s.users.insert u with
    | none => rfl
    | some _ => rfl
  | createProvider p =>
    simp only [exec]
    cases s.providers.insert p with
    | none => rfl
    | some _ => rfl
  | _ => rfl

/-- A removal spares the passwords younger than a minute. -/
def sparesYoung (w : OtpWorld) : TimedOp DbOp → Bool
  | .act (.removeOtps sel) =>
    w.state.verifyOtps.all fun r => !sel r || r.createdOn.all fun t => t+otpRetry ≤ w.now
  | _ => true

theorem onRecord_exec (hw : OnRecord w) {op : TimedOp DbOp} (hop : sparesYoung w op = true) :
    OnRecord (execOtp op w).1 := by
  intro e he hyoung
  rcases mem_log_execTimed he with hold | ⟨o, rfl, hnew⟩
  · have hnow : w.now < e.2+otpRetry := lt_of_le_of_lt (now_le_execTimed op w) hyoung
    obtain ⟨r, hr, hphone, hcreated⟩ := hw e hold hnow
    refine ⟨r, ?_, hphone, hcreated⟩
    cases op with
    | clock => exact hr
    | tick d => exact hr
    | act o =>
      change r ∈ (exec o w.state).1.verifyOtps
      by_cases hcreate : ∃ r', o = .createOtp r'
      · obtain ⟨r', rfl⟩ := hcreate
        exact List.mem_append_left [r'] hr
      · by_cases hremove : ∃ sel, o = .removeOtps sel
        · obtain ⟨sel, rfl⟩ := hremove
          refine List.mem_filter.mpr ⟨hr, ?_⟩
          have hspared := List.all_eq_true.mp hop r hr
          rw [hcreated, Option.all_some] at hspared
          have hlate : decide (e.2+otpRetry ≤ w.now) = false := by simpa using hnow
          simpa [hlate] using hspared
        · rw [verifyOtps_exec (fun r' h => hcreate ⟨r', h⟩) fun sel h => hremove ⟨sel, h⟩]
          exact hr
  · obtain ⟨r, rfl, hphone, hcreated⟩ := mem_savedBy hnew
    exact ⟨r, List.mem_append_right _ (List.mem_singleton_self r), hphone, hcreated⟩

/-- Any two passwords for one phone are at least a minute apart. -/
def Spaced (log : List (Option JsNum × ℤ)) : Prop :=
  log.Pairwise fun a b => a.1 = b.1 → otpRetry ≤ |a.2-b.2|

theorem spaced_exec (hw : Spaced w.log) {op : TimedOp DbOp}
    (hop : ∀ phone, SavesClear phone w op) : Spaced (execOtp op w).1.log := by
  cases op with
  | clock => exact hw
  | tick d => exact hw
  | act o =>
    refine List.pairwise_append.mpr ⟨?_, hw, ?_⟩
    · cases o with
      | createOtp r =>
        cases hcreated : r.createdOn with
        | none => simp [savedBy, hcreated]
        | some t => simp [savedBy, hcreated]
      | _ => exact List.Pairwise.nil
    · intro a ha b hb hphone
      obtain ⟨r, rfl, hr, hcreated⟩ := mem_savedBy ha
      obtain ⟨t, ht, hclear⟩ := hop r.phone r rfl rfl
      obtain rfl : a.2 = t := Option.some.inj (hcreated.symm.trans ht)
      have hold := hclear b hb (hphone.symm.trans hr.symm)
      exact le_trans (by omega) (le_abs_self (a.2-b.2))

end Operations

section Runs

def savedPhone : TimedOp DbOp → Option (Option JsNum)
  | .act (.createOtp r) => some r.phone
  | _ => none

/-- In the steps `pre`, another call saved a password for the phone after `i` had begun. -/
def savedMeanwhile (c : OtpPool) (pre : List ℕ) (i : ℕ) (phone : Option JsNum) : Bool :=
  (List.range pre.length).any fun m =>
    decide (i ∈ pre.take m) && (pre[m]?).any fun j =>
      decide (j ≠ i) &&
        decide (((runFrom (Pool.stepAt execOtp) c (pre.take m)).nextOp j).bind savedPhone = some phone)

/-- After the steps `pre`, the next one of `i` removes no password younger than a minute, and saves
none for a phone that another call saved one for since `i` began. -/
def orderly (c : OtpPool) (pre : List ℕ) (i : ℕ) : Bool :=
  ((runFrom (Pool.stepAt execOtp) c pre).nextOp i).all fun op =>
    sparesYoung (runFrom (Pool.stepAt execOtp) c pre).state op &&
      (savedPhone op).all fun phone => !savedMeanwhile c pre i phone

variable {c : OtpPool} {sched : List ℕ}

/-- A condition on the steps of a schedule and what came before them. -/
theorem forall_split {P : List ℕ → ℕ → Prop}
    (h : ∀ m < sched.length, P (sched.take m) (sched.getD m 0)) :
    ∀ pre i post, sched = pre ++ i :: post → P pre i := by
  rintro pre i post rfl
  have hlast := h pre.length (by simp)
  rwa [List.take_left, List.getD_append_right _ _ _ _ le_rfl, Nat.sub_self,
    List.getD_cons_zero] at hlast

theorem savedMeanwhile_of_split {pre fst snd : List ℕ} {i j : ℕ} {op : TimedOp DbOp}
    {phone : Option JsNum} (hpre : pre = fst ++ j :: snd) (hi : i ∈ fst) (hj : j ≠ i)
    (hop : (runFrom (Pool.stepAt execOtp) c fst).nextOp j = some op) (hphone : savedPhone op = some phone) :
    savedMeanwhile c pre i phone = true := by
  subst hpre
  refine List.any_eq_true.mpr ⟨fst.length, by simp, ?_⟩
  rw [List.take_left, List.getElem?_append_right le_rfl, Nat.sub_self, List.getElem?_cons_zero,
    Option.any_some, hop, Option.bind_some, hphone]
  simp [hi, hj]

/-- Whoever disturbs a call saves a password for its phone. -/
theorem savedPhone_of_disturbed {w : OtpWorld} {op : TimedOp DbOp} {phone : Option JsNum}
    (hw : OnRecord (execOtp op w).1) (h : ¬ Undisturbed phone w (execOtp op w).1) :
    savedPhone op = some phone := by
  by_contra hnone
  refine h ⟨now_le_execTimed op w, fun e he hphone => ?_, hw⟩
  rcases mem_log_execTimed he with hold | ⟨o, rfl, hnew⟩
  · exact hold
  · obtain ⟨r, rfl, hr, -⟩ := mem_savedBy hnew
    exact absurd (congrArg some (hr.trans hphone)) hnone

theorem onRecord_run (hstart : OnRecord c.state)
    (h : ∀ pre i post, sched = pre ++ i :: post → orderly c pre i = true) (pre : List ℕ)
    (hpre : pre <+: sched) : OnRecord (runFrom (Pool.stepAt execOtp) c pre).state := by
  induction pre using List.reverseRecOn with
  | nil => exact hstart
  | append_singleton pre i ih =>
    have hbefore := ih ((List.prefix_append pre [i]).trans hpre)
    obtain ⟨post, rfl⟩ := hpre
    have horderly := h pre i post (by simp)
    rw [runFrom_append, runFrom_cons, runFrom_nil, Pool.state_stepAt]
    unfold orderly at horderly
    cases hop : (runFrom (Pool.stepAt execOtp) c pre).nextOp i with
    | none => exact hbefore
    | some op =>
      rw [hop, Option.all_some, Bool.and_eq_true] at horderly
      exact onRecord_exec hbefore horderly.1

/-- A call that is orderly saves a password only if those before are old enough: it looked, and
nobody saved one for the phone since. -/
theorem savesClear_run {calls : List OtpCall} (hcalls : c.threads = calls.map OtpCall.program)
    {pre : List ℕ} (hrecorded : ∀ pre', pre' <+: pre →
      OnRecord (runFrom (Pool.stepAt execOtp) c pre').state) {i : ℕ}
    (horderly : orderly c pre i = true) {op : TimedOp DbOp}
    (hop : (runFrom (Pool.stepAt execOtp) c pre).nextOp i = some op) (phone : Option JsNum) :
    SavesClear phone (runFrom (Pool.stepAt execOtp) c pre).state op := by
  obtain ⟨next, hnext⟩ := Pool.call_of_nextOp hop
  have hthere := Pool.isSome_threads_run execOtp c pre i
  rw [hnext, Option.isSome_some] at hthere
  obtain ⟨p₀, hp₀⟩ := Option.isSome_iff_exists.mp hthere.symm
  have hprogram : ∃ call : OtpCall, call.program = p₀ := by
    have hmem := List.mem_of_getElem? hp₀
    rw [hcalls] at hmem
    obtain ⟨call, -, hcall⟩ := List.mem_map.mp hmem
    exact ⟨call, hcall⟩
  obtain ⟨call, rfl⟩ := hprogram
  have htrans : ∀ w w' w'', Undisturbed phone w w' → Undisturbed phone w' w'' →
      Undisturbed phone w w'' := fun _ _ _ h h' => h.trans h'
  have hstable : ∀ w w' op, Undisturbed phone w w' → SavesClear phone w op →
      SavesClear phone w' op := fun _ _ _ h hop => hop.of_undisturbed h
  rcases follows_run htrans hstable hp₀ (fun w _ => follows_program call w) pre
      (fun pre' h => ⟨le_rfl, fun _ he _ => he, hrecorded pre' h⟩) with
    ⟨fst, j, snd, op', hpre, hi, hj, hop', hdisturbed⟩ | ⟨p, hp, -, hfollows⟩
  · -- Another call saved a password for the phone since this one began.
    have hafter := hrecorded (fst ++ [j]) ⟨snd, by simp [hpre]⟩
    rw [runFrom_append, runFrom_cons, runFrom_nil, Pool.state_stepAt, hop', Option.elim_some]
      at hafter
    have hsaved := savedPhone_of_disturbed hafter hdisturbed
    intro r hr hphone
    rw [orderly, hop, hr, Option.all_some, Bool.and_eq_true] at horderly
    have hmeanwhile : savedMeanwhile c pre i r.phone = false := by
      simpa [savedPhone] using horderly.2
    rw [hphone, savedMeanwhile_of_split hpre hi hj hop' hsaved] at hmeanwhile
    cases hmeanwhile
  · rw [hnext, Option.some.injEq] at hp
    subst hp
    exact hfollows.1

/-- In every run of logins and checks in which no call saves a password for a phone that another
one saved a password for since it began, and no check removes a password younger than a minute, the
passwords saved for one phone are at least a minute apart. -/
theorem spaced_of_orderly (s : Db) (now : ℤ) (calls : List OtpCall) (sched : List ℕ)
    (h : ∀ pre i post, sched = pre ++ i :: post →
      orderly (OtpPool.start s now calls) pre i = true) (pre : List ℕ) (hpre : pre <+: sched) :
    Spaced (runFrom (Pool.stepAt execOtp) (OtpPool.start s now calls) pre).state.log := by
  have hstart : OnRecord (OtpPool.start s now calls).state := by
    intro e he
    cases he
  have hrecorded := onRecord_run hstart h
  induction pre using List.reverseRecOn with
  | nil => exact List.Pairwise.nil
  | append_singleton pre i ih =>
    have hbefore := ih ((List.prefix_append pre [i]).trans hpre)
    obtain ⟨post, hpost⟩ := hpre
    have horderly := h pre i post (by rw [← hpost, List.append_assoc, List.singleton_append])
    rw [runFrom_append, runFrom_cons, runFrom_nil, Pool.state_stepAt]
    cases hop : (runFrom (Pool.stepAt execOtp) (OtpPool.start s now calls) pre).nextOp i with
    | none => exact hbefore
    | some op =>
      refine spaced_exec hbefore fun phone => savesClear_run rfl ?_ horderly hop phone
      intro pre' hpre'
      refine hrecorded pre' (hpre'.trans ?_)
      rw [← hpost, List.append_assoc]
      exact List.prefix_append pre _

def calmCalls : List OtpCall :=
  [.login { mobile := some (.num 800 0) } true, .providerLogin (some (.str "800")) none,
    .isValidUserOtp (fun _ _ => none) (some (.str "123456")) (some (.str "800")),
    .clock [60000]]

def calmSchedule : List ℕ := [0, 0, 0, 0, 2, 2, 3, 1, 1, 1, 1]

theorem spaced_calmSchedule :
    Spaced (runFrom (Pool.stepAt execOtp) (OtpPool.start Db.empty 0 calmCalls)
      calmSchedule).state.log := by
  refine spaced_of_orderly Db.empty 0 calmCalls calmSchedule (forall_split ?_) calmSchedule
    List.prefix_rfl
  decide +kernel

def racingCalls : List OtpCall :=
  [.login { mobile := some (.num 800 0) } true, .login { mobile := some (.num 800 0) } true]

def forgettingCalls : List OtpCall :=
  [.login { mobile := some (.num 800 0) } true, .login { mobile := some (.num 800 0) } true,
    .isValidUserOtp (fun _ _ => none) (some (.str "123456")) (some (.num 800 0)),
    .login { mobile := some (.num 800 0) } true, .clock [60000, 1]]

/-- Two passwords are saved at the same time, by a race of two logins; and two within a
millisecond, by one request after the other. -/
theorem passwords_within_a_minute :
    (runFrom (Pool.stepAt execOtp) (OtpPool.start Db.empty 0 racingCalls)
        [0, 1, 0, 0, 0, 1, 1, 1]).state.log = [(some (.fin 800), 0), (some (.fin 800), 0)] ∧
      (runFrom (Pool.stepAt execOtp) (OtpPool.start Db.empty 0 forgettingCalls)
        [0, 0, 0, 0, 4, 1, 1, 1, 1, 4, 2, 2, 2, 3, 3, 3, 3]).state.log =
        [(some (.fin 800), 60001), (some (.fin 800), 60000), (some (.fin 800), 0)] ∧
      ¬ Spaced (runFrom (Pool.stepAt execOtp) (OtpPool.start Db.empty 0 racingCalls)
        [0, 1, 0, 0, 0, 1, 1, 1]).state.log ∧
      ¬ Spaced (runFrom (Pool.stepAt execOtp) (OtpPool.start Db.empty 0 forgettingCalls)
        [0, 0, 0, 0, 4, 1, 1, 1, 1, 4, 2, 2, 2, 3, 3, 3, 3]).state.log := by
  unfold Spaced
  decide +kernel

end Runs

end DoQwik
