import DoQwik.CodeSecrecy

/-! Failed requests: a call to a routed job handler that is not answered with `SUCCESS` leaves
the jobs as they were. Every exceptional exit comes before the write, or after one that found
nothing. -/
namespace DoQwik
open JsValues DocStore Interleave

/-- Run from any state, the program leaves the jobs alone or ends in a success. -/
def FailsClean (p : Action JobResponse) : Prop :=
  ∀ s, (p.run exec s).1.jobs = s.jobs ∨ ∃ a, (p.run exec s).2 = .ok a ∧ a.key = .success

section Programs

variable {β : Type}

theorem failsClean_reply (key : MessageKey) (x : Option JobResult) : FailsClean (reply key x) :=
  fun _ => Or.inl rfl

theorem failsClean_throwing (e : Thrown) : FailsClean (throwing e) := fun _ => Or.inl rfl

/-- What leaves the state alone may come first. -/
theorem failsClean_bind_of_state {p : Action β} (hp : Prog.Keeps exec Db.jobs p)
    {k : β → Action JobResponse} (hk : ∀ x, FailsClean (k x)) : FailsClean (p >>= k) := by
  intro s
  have hjobs := hp s
  rw [Prog.run_bind]
  rcases hrun : p.run exec s with ⟨t, r⟩
  rw [hrun] at hjobs
  cases r with
  | error e => exact Or.inl hjobs
  | ok x => exact (hk x t).imp_left fun h => h.trans hjobs

theorem failsClean_query_bind (f : Db → β) {k : β → Action JobResponse}
    (hk : ∀ x, FailsClean (k x)) : FailsClean (query f >>= k) :=
  failsClean_bind_of_state (keeps_query f) hk

theorem failsClean_cast_bind (x : Except Thrown β) {k : β → Action JobResponse}
    (hk : ∀ a, FailsClean (k a)) : FailsClean (cast x >>= k) :=
  failsClean_bind_of_state (keeps_cast x) hk

theorem failsClean_checked (checks : List (Bool × MessageKey)) {k : Action JobResponse}
    (hk : FailsClean k) : FailsClean (checked checks k) := by
  unfold checked
  cases refusal checks with
  | none => exact hk
  | some key => exact failsClean_reply key none

end Programs

section Booking

theorem failsClean_createOrder (env : Env) (b : JobBody) (files : Option JobFiles) (user : User)
    (provider : Provider) (offer : ProviderSubService) (serviceData : Option Service)
    (sub : SubService) (seqId : ℕ) :
    FailsClean (createOrder env b files user provider offer serviceData sub seqId) := by
  rcases serviceData with _ | service
  · exact failsClean_throwing _
  rcases files with _ | f
  · exact failsClean_throwing _
  intro s
  simp only [createOrder, createData]
  cases newJob env b f.jobImage seqId user provider offer service sub with
  | error e => exact Or.inl rfl
  | ok j =>
    -- What follows the insertion depends on its result only.
    let answered (created : Bool) : Action JobResponse :=
      (if created then query fun s => (s.jobs.get? j.id).map (populate s)
        else throwing .duplicateKey) >>= fun data => reply .success (some (.populated data))
    change ((answered (exec (.createJob j) s).2).run exec (exec (.createJob j) s).1).1.jobs = _ ∨
      ∃ a, ((answered (exec (.createJob j) s).2).run exec (exec (.createJob j) s).1).2 = .ok a ∧ _
    cases hi : s.jobs.insert j with
    | none =>
      rw [exec_createJob_none hi]
      exact Or.inl rfl
    | some c =>
      rw [exec_createJob_some hi]
      exact Or.inr ⟨_, rfl, rfl⟩

theorem failsClean_placeOrder (env : Env) (b : JobBody) (files : Option JobFiles) (user : User)
    (provider : Provider) (offer : ProviderSubService) (serviceData : Option Service)
    (sub : SubService) :
    FailsClean (placeOrder env b files user provider offer serviceData sub) := by
  refine failsClean_bind_of_state (fun s => ?_) fun orderDetails => ?_
  · cases duplicateOf env b user.id provider.id with
    | error e => rfl
    | ok q => rfl
  · cases orderDetails with
    -- The duplicate is refused before a sequence number is drawn.
    | some j => exact failsClean_reply _ _
    | none =>
      exact failsClean_bind_of_state (keeps_getSequence (fun _ _ => rfl) _) fun seqId =>
        failsClean_createOrder env b files user provider offer serviceData sub seqId

theorem failsClean_orderFrom (env : Env) (b : JobBody) (files : Option JobFiles)
    (userData : Option User) (found : Option PopulatedOffer) :
    FailsClean (orderFrom env b files userData found) := by
  rcases found with _ | ⟨offer, serviceData, _ | sub⟩
  · exact failsClean_throwing _
  · exact failsClean_throwing _
  · refine failsClean_cast_bind _ fun p => failsClean_query_bind _ fun providerData => ?_
    rcases providerData with _ | provider
    · exact failsClean_reply _ _
    rcases userData with _ | user
    · exact failsClean_throwing _
    · exact failsClean_placeOrder env b files user provider offer serviceData sub

theorem failsClean_assignJob (env : Env) (c : Caller) (b : JobBody) (files : Option JobFiles) :
    FailsClean (assignJob env c b files) := by
  refine failsClean_checked _ (failsClean_bind_of_state (fun s => ?_) fun checkLocation => ?_)
  · cases addressOf b.serviceLocation c.userId with
    | error e => rfl
    | ok p => rfl
  · split
    · exact failsClean_reply _ _
    · refine failsClean_query_bind _ fun userData => failsClean_checked _ ?_
      refine failsClean_bind_of_state (fun s => ?_) fun serviceData =>
        failsClean_orderFrom env b files userData serviceData
      cases offerById b.serviceType with
      | error e => rfl
      | ok q => rfl

end Booking

section Lists

theorem failsClean_list (r : JobListRequest) : FailsClean r.handle := by
  have hgetData : ∀ condition window withCode, FailsClean (getData condition window withCode) :=
    fun _ _ _ => failsClean_cast_bind _ fun _ => failsClean_cast_bind _ fun _ =>
      failsClean_query_bind _ fun _ => failsClean_reply _ _
  unfold JobListRequest.handle
  cases r.handler with
  | assignJobListByProviderID | jobListByWorkerID | jobListByUserID => exact hgetData _ _ _
  | jobDetailsByID =>
    exact failsClean_checked _ (failsClean_cast_bind _ fun _ =>
      failsClean_query_bind _ fun _ => failsClean_reply _ _)
  | jobTransactionHistory =>
    exact failsClean_cast_bind _ fun _ => failsClean_query_bind _ fun _ => failsClean_reply _ _
  | getDailyRevenue | getMonthlyRevenue =>
    refine failsClean_bind_of_state (fun s => ?_) fun _ => failsClean_reply _ _
    rw [run_revenues]

end Lists

section Calls

/-- The updating handlers succeed if they change a job. -/
theorem failsClean_handle (r : JobRequest) : FailsClean r.handle := by
  by_cases hr : r.handler = .assignJob
  · unfold JobRequest.handle
    rw [hr]
    exact failsClean_assignJob r.env r.caller r.body r.files
  · intro s
    rcases outcome_handle s hr with ⟨j, d, -, -, ho⟩ | ⟨hw, -⟩
    · exact Or.inr ⟨_, ho, rfl⟩
    · refine Or.inl ((serve_jobs_eq s r).symm.trans ((serve_jobs s r hr).trans ?_))
      -- The handler stopped before its update, or the update selected no job.
      unfold JobRequest.written at hw
      cases hwrite : r.write s with
      | none => rfl
      | some w =>
        rw [hwrite, Option.bind_some] at hw
        exact Collection.updateOne_of_findOne_none _ (w.data.apply_id r.env.now) hw

/-- A call to a routed job handler that is not answered with `SUCCESS` leaves the jobs as they
were, from any state, for any caller and body. -/
theorem failed_call_keeps_jobs (s : Db) (call : JobCall) (h : (answerCall s call).key ≠ .success) :
    (serveCall s call).jobs = s.jobs := by
  have hclean : ∃ p, call.program = p.catchAll serverError ∧ FailsClean p := by
    cases call with
    | change r => exact ⟨r.handle, rfl, failsClean_handle r⟩
    | list r => exact ⟨r.handle, rfl, failsClean_list r⟩
  obtain ⟨p, hp, hclean⟩ := hclean
  unfold answerCall at h
  unfold serveCall
  rw [hp, Prog.run_catchAll] at h ⊢
  rcases hclean s with hjobs | ⟨a, ha, hkey⟩
  · exact hjobs
  · rw [ha] at h
    exact absurd hkey h

/-- A job that its company rejected is not rejected again. -/
theorem failed_call_keeps_jobs_rejected :
    (answerCall (runFrom serve sampleDb [sampleBooking, onSampleJob .jobReject company 2])
      (.change (onSampleJob .jobReject company 3))).key ≠ .success ∧
    (serveCall (runFrom serve sampleDb [sampleBooking, onSampleJob .jobReject company 2])
      (.change (onSampleJob .jobReject company 3))).jobs =
      (runFrom serve sampleDb [sampleBooking, onSampleJob .jobReject company 2]).jobs :=
  ⟨by decide +kernel, failed_call_keeps_jobs _ _ (by decide +kernel)⟩

end Calls

end DoQwik
