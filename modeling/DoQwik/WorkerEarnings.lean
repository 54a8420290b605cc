import DoQwik.JobReports
import DoQwik.SessionStores

/-! Whose earnings a worker is shown. The reports filter by the label that the session carries, and
every session of a provider carries the same one. -/
namespace DoQwik
open JsValues DocStore Interleave

section Sessions

variable {env : Env} {b : UserBody} {s : Db}

/-- A login returns the record with the token that it minted. -/
theorem token_of_getUserLogin {condition : Except Thrown (Provider → Bool)}
    {deviceId : Option Json} {p : Provider}
    (h : ((Providers.getUserLogin env condition deviceId).run exec s).2 = .ok (some p)) :
    p.token = some (generateProviderToken env p.id) := by
  unfold Providers.getUserLogin at h
  cases condition with
  | error e => cases h
  | ok q =>
    rw [run_cast_ok_bind, run_query_bind] at h
    cases hfind : s.providers.findOne q with
    | none =>
      rw [hfind] at h
      cases h
    | some u =>
      rw [hfind] at h
      dsimp only at h
      cases hd : castSet castString (ifTruthy deviceId) with
      | error e =>
        rw [hd] at h
        cases h
      | ok d =>
        rw [hd] at h
        have hget : (s.providers.updateOne (fun p => p.id = u.id)
            (saveLogin (generateProviderToken env u.id) d env.now) fun _ => rfl).get? u.id =
            some p := Except.ok.inj h
        obtain ⟨hmem, hid⟩ := (Collection.get?_eq_some_iff _ _ _).mp hget
        rcases Collection.mem_updateOne hmem with ⟨v, -, rfl⟩ | ⟨hold, hother⟩
        · rw [hid]
          rfl
        · -- The record with the id is the one that the update changes.
          obtain ⟨v, hv⟩ := Collection.exists_findOne hold
            (p := fun p => p.id = u.id) (decide_eq_true hid)
          refine absurd ?_ hother
          rw [hv, Option.map_some, hid]
          exact congrArg some (of_decide_eq_true (Collection.mem_of_findOne hv).2)

def loginOutcome (env : Env) (b : UserBody) (s : Db) : Option (Provider × TokenText) :=
  match ((Providers.verifyLoginOtp env b).run exec s).2 with
  | .ok ⟨_, some (.provider p), some t⟩ => some (p, t)
  | _ => none

theorem answer_of_loginOutcome {p : Provider} {t : TokenText}
    (h : loginOutcome env b s = some (p, t)) :
    ∃ key, ((Providers.verifyLoginOtp env b).run exec s).2 =
      .ok ⟨key, some (.provider p), some t⟩ := by
  unfold loginOutcome at h
  split at h
  · rename_i key p' t' hrun
    cases h
    exact ⟨key, hrun⟩
  · cases h

/-- The token in the answer is the one minted for the account. -/
theorem token_of_login {a : ProviderLoginResponse} {p : Provider} {t : TokenText}
    (h : ((Providers.verifyLoginOtp env b).run exec s).2 = .ok a)
    (hp : a.result = some (.provider p)) (ht : a.header = some t) :
    t = generateProviderToken env p.id := by
  unfold Providers.verifyLoginOtp at h
  rw [Prog.run_catchAll] at h
  unfold checked at h
  cases hc : refusal (verifyLoginOtpChecks b) with
  | some key =>
    rw [hc] at h
    cases h
    cases hp
  | none =>
    rw [hc] at h
    dsimp only at h
    rw [Prog.run_bind] at h
    rcases hotp : (isValidUserOtp env b.otp b.mobile).run exec s with ⟨u, e | valid⟩
    · rw [hotp] at h
      cases h
      cases hp
    · rw [hotp] at h
      cases valid with
      | false =>
        cases h
        cases hp
      | true =>
        dsimp only at h
        rw [if_pos rfl, Prog.run_bind] at h
        rcases hlogin : (Providers.getUserLogin env (providerByParsedPhone b.mobile)
          b.deviceId).run exec u with ⟨u', e | _ | q⟩
        · rw [hlogin] at h
          cases h
          cases hp
        · rw [hlogin] at h
          cases h
          cases hp
        · rw [hlogin] at h
          cases h
          cases hp
          have hq : ((Providers.getUserLogin env (providerByParsedPhone b.mobile)
              b.deviceId).run exec u).2 = .ok (some p) := by rw [hlogin]
          change p.token = some t at ht
          rw [token_of_getUserLogin hq] at ht
          exact (Option.some.inj ht).symm

/-- The authorization of a token that was signed for a provider. -/
theorem run_authorize_generateProviderToken (now : ℤ) (env : Env) (p : ObjectId) (s : Db) :
    ((authorize now (generateProviderToken env p)).run exec s).2 = .ok
      (if env.now/1000+tokenLifetime ≤ now/1000 ∨
          s.providerCache p ≠ some (generateProviderToken env p)
        then none else (s.providers.get? p).map fun _ => (p, "PROVIDER")) := by
  by_cases hexp : env.now/1000+tokenLifetime ≤ now/1000
  · simp only [generateProviderToken, authorize, hexp, if_true, true_or]
    rfl
  · by_cases hcache : s.providerCache p = some (generateProviderToken env p)
    · rw [if_neg (by simp [hexp, hcache])]
      unfold generateProviderToken at hcache ⊢
      simp [authorize, hexp, hcache]
    · rw [if_pos (Or.inr hcache)]
      unfold generateProviderToken at hcache ⊢
      simp [authorize, hexp, hcache]

/-- Every session of a provider has the same label. -/
theorem authorized_provider {now : ℤ} {id : ObjectId} {user : ObjectId × String}
    (h : authorized now (generateProviderToken env id) s = some user) :
    user = (id, "PROVIDER") := by
  unfold authorized at h
  rw [run_authorize_generateProviderToken] at h
  dsimp only at h
  split at h
  · cases h
  · obtain ⟨p, -, hp⟩ := Option.map_eq_some_iff.mp h
    exact hp.symm

/-- The worker logged in, and `c` is what the authorization makes of the token. -/
def WorkerSession (w : Provider) (s : Db) (c : Caller) : Prop :=
  w.userType = workerType ∧ ∃ env b s₀ t now,
    loginOutcome env b s₀ = some (w, t) ∧ authorized now t s = some (c.userId, c.userType)

theorem caller_of_workerSession {w : Provider} {c : Caller} (h : WorkerSession w s c) :
    c = ⟨w.id, "PROVIDER"⟩ := by
  obtain ⟨-, env, b, s₀, t, now, hlogin, hauth⟩ := h
  obtain ⟨key, hanswer⟩ := answer_of_loginOutcome hlogin
  rw [token_of_login hanswer rfl rfl] at hauth
  obtain ⟨id, label⟩ := c
  cases authorized_provider hauth
  rfl

/-- A worker's reports are made of the worker's own jobs exactly when these are the jobs in which
the worker is named as the provider. -/
theorem worker_earnings_iff (w : Provider) (s : Db) (c : Caller) (hc : WorkerSession w s c)
    (r : JobListRequest) (hr : r.handler.reportsEarnings = true) (hcaller : r.caller = c) :
    ComputedOver r (fun j => j.workerData = some w.id) s ↔
      ∀ j ∈ s.jobs.docs, r.reports j = true →
        (j.providerData = w.id ↔ j.workerData = some w.id) := by
  rw [computedOver_iff hr]
  refine forall₃_congr fun j _ _ => ?_
  have hown : ownJobs r j = decide (j.providerData = w.id) := by
    unfold ownJobs
    rw [hcaller, caller_of_workerSession hc]
    have hlabel : "PROVIDER" ≠ workerType := by decide
    exact if_neg hlabel
  rw [hown, decide_eq_decide]

def enrolledDb (jobs : Collection Job.id) : Db :=
  { sampleDb with
    jobs
    providers := ⟨[sampleProvider "company---01" companyType none,
      { sampleProvider "worker----01" workerType (some (idOf "company---01")) with
        phone := some (.fin 901) }], by decide +kernel⟩
    verifyOtps := [⟨some (.fin 901), none, some "123456", some 0⟩] }

def workerLogin : UserBody := { mobile := some (.num 901 0), otp := some (.str "123456") }

def loggedInDb (jobs : Collection Job.id) : Db :=
  ((Providers.verifyLoginOtp (sampleEnv 1) workerLogin).run exec (enrolledDb jobs)).1

def jobDoneByWorker : List JobRequest :=
  [sampleBooking, onSampleJob .assignJobToWorker company 2, onSampleJob .jobStart company 3,
    onSampleJob .jobFinish company 4]

def workerCaller : Caller := ⟨idOf "worker----01", "PROVIDER"⟩

def workerReport (handler : JobListHandler) : JobListRequest where
  handler := handler
  caller := workerCaller
  periods := [⟨"1970-1-1", 0, 86399000⟩]
  regex := fun _ _ => none

theorem exists_workerSession (jobs : Collection Job.id)
    (h : (loginOutcome (sampleEnv 1) workerLogin (enrolledDb jobs)).any (fun x =>
      x.1.id = workerCaller.userId && x.1.userType = workerType &&
        authorized 2 x.2 (loggedInDb jobs) =
          some (workerCaller.userId, workerCaller.userType)) = true) :
    ∃ w, w.id = workerCaller.userId ∧ WorkerSession w (loggedInDb jobs) workerCaller := by
  obtain ⟨⟨w, t⟩, hlogin, hx⟩ := (Option.any_eq_true _ _).mp h
  simp only [Bool.and_eq_true, decide_eq_true_eq] at hx
  exact ⟨w, hx.1.1, hx.1.2, _, _, _, t, 2, hlogin, hx.2⟩

/-- As long as no job is complete, there is nothing to be missed. -/
theorem history_before_completion :
    ∃ w, WorkerSession w (loggedInDb (runFrom serve sampleDb (jobDoneByWorker.take 3)).jobs)
        workerCaller ∧
      ComputedOver (workerReport .jobTransactionHistory) (fun j => j.workerData = some w.id)
        (loggedInDb (runFrom serve sampleDb (jobDoneByWorker.take 3)).jobs) := by
  obtain ⟨w, -, hw⟩ := exists_workerSession (runFrom serve sampleDb (jobDoneByWorker.take 3)).jobs
    (by decide +kernel)
  refine ⟨w, hw, (worker_earnings_iff w _ workerCaller hw (workerReport .jobTransactionHistory)
    rfl rfl).mpr fun j hj hreports => ?_⟩
  have hnone : ∀ j ∈ (loggedInDb (runFrom serve sampleDb (jobDoneByWorker.take 3)).jobs).jobs.docs,
      (workerReport .jobTransactionHistory).reports j = false := by decide +kernel
  rw [hnone j hj] at hreports
  cases hreports

/-- A worker who did a paid job is shown a revenue of nothing, and an empty history. -/
theorem worker_sees_no_earnings :
    ∃ w, WorkerSession w (loggedInDb (runFrom serve sampleDb jobDoneByWorker).jobs) workerCaller ∧
      (∃ j ∈ (runFrom serve sampleDb jobDoneByWorker).jobs.docs, j.workerData = some w.id ∧
        j.amount = .fin 100 ∧ (workerReport .getDailyRevenue).reports j = true) ∧
      revenuesOf (answerCall (loggedInDb (runFrom serve sampleDb jobDoneByWorker).jobs)
        (.list (workerReport .getDailyRevenue))) = [.fin 0] ∧
      ∀ handler, handler.reportsEarnings = true → ¬ ComputedOver (workerReport handler)
        (fun j => j.workerData = some w.id)
        (loggedInDb (runFrom serve sampleDb jobDoneByWorker).jobs) := by
  obtain ⟨w, hid, hw⟩ := exists_workerSession (runFrom serve sampleDb jobDoneByWorker).jobs
    (by decide +kernel)
  refine ⟨w, hw, ?_, by decide +kernel, fun handler hr h => ?_⟩
  · rw [hid]
    decide +kernel
  · have hjobs := (computedOver_iff hr).mp h
    rw [hid] at hjobs
    cases handler with
    | jobTransactionHistory => exact absurd hjobs (by decide +kernel)
    | getDailyRevenue => exact absurd hjobs (by decide +kernel)
    | getMonthlyRevenue => exact absurd hjobs (by decide +kernel)
    | _ => cases hr

end Sessions

end DoQwik
