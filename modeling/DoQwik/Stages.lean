import DoQwik.Interference
import DoQwik.JobRaces

/-! Requests led through their stages. What a request still has to do, and what it relies on, is
its stage; a read or a sequence number leaves it there. A job request looks up at most one thing
before it writes, and so has a stage before and one after it. -/
namespace DoQwik
open JsValues DocStore Interleave

section Programs

variable {γ : Type} {Step : γ → DbOp → Db → γ → Prop} {α β ρ : Type} {Q : γ → α → Prop}
  {E : γ → Prop} {g : γ}

theorem tracks_query_bind (hg : ∀ op s, op.counts = true → Step g op s g) {f : Db → β}
    {k : β → Action α} (hk : ∀ t, Prog.Tracks exec Step Q E g (k (f t))) :
    Prog.Tracks exec Step Q E g (query f >>= k) :=
  fun t => ⟨g, hg _ t rfl, hk t⟩

theorem tracks_cast_bind {x : Except Thrown β} {k : β → Action α} (hE : E g)
    (hk : ∀ a, x = .ok a → Prog.Tracks exec Step Q E g (k a)) :
    Prog.Tracks exec Step Q E g (cast x >>= k) := by
  cases x with
  | error e => exact hE
  | ok a => exact hk a rfl

theorem tracks_checked {W : γ → Response ρ → Prop} {checks : List (Bool × MessageKey)}
    {k : Action (Response ρ)} (hkey : ∀ key, W g { key := key })
    (hk : refusal checks = none → Prog.Tracks exec Step W E g k) :
    Prog.Tracks exec Step W E g (checked checks k) := by
  unfold checked
  cases hc : refusal checks with
  | some key => exact hkey key
  | none => exact hk hc

/-- A number is handed out, and the request is where it was. -/
theorem tracks_getSequence_bind (hg : ∀ op s, op.counts = true → Step g op s g) (table : String)
    {k : ℕ → Action α} (hE : E g) (hk : ∀ n, Prog.Tracks exec Step Q E g (k n)) :
    Prog.Tracks exec Step Q E g (getSequence table >>= k) := by
  rw [getSequence_eq]
  change Prog.Tracks exec Step Q E g (query _ >>= fun result => nextNumber table result >>= k)
  apply tracks_query_bind hg
  intro t
  cases t.counters.get? table with
  | some c => exact fun t' => ⟨g, hg _ t' rfl, hk _⟩
  | none =>
    intro t'
    refine ⟨g, hg _ t' rfl, ?_⟩
    let c : Counter := ⟨table, firstSequence, firstSequence⟩
    cases hi : t'.counters.insert c with
    | none =>
      rw [exec_createCounter_none hi]
      exact hE
    | some cs =>
      rw [exec_createCounter_some hi]
      exact hk _

end Programs

section Jobs

/-- The operations of a job request besides its write: reads, numbers and notifications. -/
def DbOp.aside : DbOp → Bool
  | .notify _ => true
  | op => op.counts

theorem DbOp.aside_of_counts {op : DbOp} (h : op.counts = true) : op.aside = true := by
  cases op with
  | read f | createCounter c | updateCounter table m n => rfl
  | _ => cases h

/-- A lookup that succeeds has found a document. -/
theorem exists_of_someMatch {α κ : Type} {key : α → κ} {c : Collection key}
    {condition : Except Thrown (α → Bool)} (h : someMatch c condition = true) :
    ∃ p a, condition = .ok p ∧ a ∈ c.docs ∧ p a = true := by
  cases condition with
  | error e => cases h
  | ok p =>
    obtain ⟨a, ha, hp⟩ := Collection.count_ne_zero_iff.mp (of_decide_eq_true h)
    exact ⟨p, a, rfl, ha, hp⟩

/-- What the request looks up before it comes to a job. -/
def JobRequest.finds (r : JobRequest) (s : Db) : Bool :=
  match r.handler with
  | .assignJob => someMatch s.addresses (addressOf r.body.serviceLocation r.caller.userId)
  | _ => r.lookups s

/-- The handlers that look something up in another collection. -/
def JobHandler.looksUp : JobHandler → Bool
  | .assignJob => true
  | .assignJobToWorker => true
  | .userJobReschedule => true
  | _ => false

/-- The stages `before` and `after` the lookup: the write comes after it. -/
structure JobStages {γ : Type} (Step : γ → DbOp → Db → γ → Prop) (r : JobRequest)
    (before after : γ) : Prop where
  aside : ∀ g op s, op.aside = true → Step g op s g
  found : r.handler.looksUp = true → ∀ {β : Type} (f : Db → β) s, r.finds s = true →
    Step before (.read f) s after
  straight : r.handler.looksUp = false → after = before
  createJob : r.handler = .assignJob → ∀ s image seqId user provider offer service sub j,
    user.id = r.caller.userId →
    newJob r.env r.body image seqId user provider offer service sub = .ok j →
    Step after (.createJob j) s after
  updateJob : ∀ s p j d, refusal r.checks = none → jobById r.target = .ok p →
    r.plan j = .ok (.update d) →
    Step after (.updateJob (fun j => p j && r.filter j) d r.env.now) s after
  pay : r.handler = .paymentSuccess → ∀ s p, jobById r.target = .ok p →
    Step after (.updateJob p paymentSuccessParam r.env.now) s after

variable {γ : Type} {Step : γ → DbOp → Db → γ → Prop} {r : JobRequest} {before after : γ}

abbrev JobStaged (Step : γ → DbOp → Db → γ → Prop) (g : γ) {α : Type} (p : Action α) : Prop :=
  Prog.Tracks exec Step (fun _ _ => True) (fun _ => True) g p

theorem staged_notifyAndSend (h : ∀ op s, op.aside = true → Step after op s after)
    (kinds : List NoticeKind) (x : Option Job) : JobStaged Step after (notifyAndSend kinds x) := by
  cases x with
  | none => trivial
  | some j =>
    change JobStaged Step after (notifyAll j.id kinds >>= fun _ => sendResult (some j))
    induction kinds with
    | nil => trivial
    | cons kind kinds ih => exact fun t => ⟨after, h _ t rfl, ih⟩

theorem staged_sendOrNotFound (x : Option Job) : JobStaged Step after (sendOrNotFound x) := by
  cases x with
  | none => trivial
  | some j => trivial

/-- The shared part of the handlers: the write is the planned one. -/
theorem staged_changeJob (h : JobStages Step r before after) (hchecks : refusal r.checks = none)
    (finish : Option Job → Action JobResponse) (hfinish : ∀ x, JobStaged Step after (finish x)) :
    JobStaged Step after (changeJob r.env r.target r.filter r.plan finish) := by
  unfold changeJob
  cases hid : jobById r.target with
  | error e => trivial
  | ok p =>
    intro t
    refine ⟨after, h.aside _ _ t rfl, ?_⟩
    rw [exec_read]
    cases t.jobs.findOne p with
    | none => trivial
    | some j =>
      apply tracks_cast_bind trivial
      intro decision hplan
      cases decision with
      | refuse key => trivial
      | update d => exact fun t' => ⟨after, h.updateJob t' p j d hchecks hid hplan, hfinish _⟩

theorem staged_createOrder (h : JobStages Step r before after) (hr : r.handler = .assignJob)
    {user : User} (huser : user.id = r.caller.userId) (provider : Provider)
    (offer : ProviderSubService) (serviceData : Option Service) (sub : SubService) (seqId : ℕ) :
    JobStaged Step after
      (createOrder r.env r.body r.files user provider offer serviceData sub seqId) := by
  rcases serviceData with _ | service
  · trivial
  rcases r.files with _ | f
  · trivial
  · simp only [createOrder, createData]
    cases hnew : newJob r.env r.body f.jobImage seqId user provider offer service sub with
    | error e => trivial
    | ok j =>
      intro t
      refine ⟨after, h.createJob hr t _ _ _ _ _ _ _ j huser hnew, ?_⟩
      cases hi : t.jobs.insert j with
      | none =>
        rw [exec_createJob_none hi]
        trivial
      | some c =>
        rw [exec_createJob_some hi]
        exact fun t' => ⟨after, h.aside _ _ t' rfl, trivial⟩

theorem staged_orderFrom (h : JobStages Step r before after) (hr : r.handler = .assignJob)
    {userData : Option User} (huser : ∀ user ∈ userData, user.id = r.caller.userId)
    (found : Option PopulatedOffer) :
    JobStaged Step after (orderFrom r.env r.body r.files userData found) := by
  have hcounts : ∀ op s, op.counts = true → Step after op s after :=
    fun op s hop => h.aside after op s (DbOp.aside_of_counts hop)
  rcases found with _ | ⟨offer, serviceData, _ | sub⟩
  · trivial
  · trivial
  · refine tracks_cast_bind trivial fun p _ => tracks_query_bind hcounts fun t => ?_
    rcases t.providers.findOne p with _ | provider
    · trivial
    rcases userData with _ | user
    · trivial
    · simp only [placeOrder]
      cases duplicateOf r.env r.body user.id provider.id with
      | error e => trivial
      | ok q =>
        intro t'
        refine ⟨after, h.aside _ _ t' rfl, ?_⟩
        rw [exec_read]
        cases t'.jobs.findOne q with
        | some j => trivial
        | none =>
          exact tracks_getSequence_bind hcounts _ trivial fun n =>
            staged_createOrder h hr (huser user rfl) provider offer serviceData sub n

/-- A booking finds its location before it creates the job. -/
theorem staged_assignJob (h : JobStages Step r before after) (hr : r.handler = .assignJob) :
    JobStaged Step before (assignJob r.env r.caller r.body r.files) := by
  refine tracks_checked (fun _ => trivial) fun _ => ?_
  simp only [getAddressDataById]
  cases ha : addressOf r.body.serviceLocation r.caller.userId with
  | error e => trivial
  | ok p =>
    intro t
    by_cases hfind : t.addresses.find p = []
    · refine ⟨before, h.aside _ _ t rfl, ?_⟩
      simp only [exec_read, hfind]
      trivial
    · have hfinds : r.finds t = true := by
        simpa only [JobRequest.finds, hr, ha, someMatch, Collection.count, decide_eq_true_eq, ne_eq,
          List.length_eq_zero_iff] using hfind
      refine ⟨after, h.found (by rw [hr]; rfl) _ t hfinds, ?_⟩
      have hempty : (t.addresses.find p).isEmpty = false := by
        simpa using hfind
      change JobStaged Step after (if (t.addresses.find p).isEmpty then _ else _)
      rw [hempty]
      intro t'
      refine ⟨after, h.aside _ _ t' rfl, tracks_checked (fun _ => trivial) fun _ => ?_⟩
      simp only [getOnlyOneIndividualServices]
      cases offerById r.body.serviceType with
      | error e => trivial
      | ok q =>
        intro t''
        refine ⟨after, h.aside _ _ t'' rfl, staged_orderFrom h hr (fun user huser => ?_) _⟩
        exact ((t'.users.get?_eq_some_iff _ _).mp huser).2

/-- Whatever the other requests do, the request goes through its stages. -/
theorem staged_program (h : JobStages Step r before after) : JobStaged Step before r.program := by
  apply Prog.Tracks.catchAll (fun _ _ _ => trivial)
  change JobStaged Step before r.handle
  have hnotify : ∀ kinds x, JobStaged Step after (notifyAndSend kinds x) :=
    staged_notifyAndSend (h.aside after)
  -- Ten handlers come straight to the job.
  have hstraight : r.handler.looksUp = false → ∀ finish, (∀ x, JobStaged Step after (finish x)) →
      refusal r.checks = none →
      JobStaged Step before (changeJob r.env r.target r.filter r.plan finish) := by
    intro hr finish hfinish hchecks
    rw [← h.straight hr]
    exact staged_changeJob h hchecks finish hfinish
  obtain ⟨handler, c, b, files, env⟩ := r
  cases handler with
  | assignJob => exact staged_assignJob h rfl
  | proceedToPay | jobAccept | jobFinish | paymentUpdate =>
    exact tracks_checked (fun _ => trivial) fun hc => hstraight rfl _ (hnotify _) hc
  | jobReject | userCancelJob =>
    exact tracks_checked (fun _ => trivial) fun hc => hstraight rfl _ (fun _ => trivial) hc
  | submitFeedback | replyFeedback =>
    exact tracks_checked (fun _ => trivial) fun hc => hstraight rfl _ staged_sendOrNotFound hc
  | jobStart =>
    refine tracks_checked (fun _ => trivial) fun hc => ?_
    rcases files with _ | ⟨i, _ | x, _ | y⟩
    · trivial
    · trivial
    · trivial
    · trivial
    · exact hstraight rfl _ (hnotify _) hc
  | paymentSuccess =>
    refine tracks_checked (fun _ => trivial) fun hc => ?_
    simp only [updateData]
    cases hid : jobById b.jobID with
    | error e => trivial
    | ok p =>
      intro t
      refine ⟨after, ?_, trivial⟩
      have hpay := h.pay rfl t p hid
      rw [h.straight rfl] at hpay ⊢
      exact hpay
  | assignJobToWorker =>
    refine tracks_checked (fun _ => trivial) fun hc => tracks_cast_bind trivial fun p hp => ?_
    intro t
    by_cases hcount : t.providers.count p = 0
    · refine ⟨before, h.aside _ _ t rfl, ?_⟩
      change JobStaged Step before (if t.providers.count p = 0 then _ else _)
      rw [if_pos hcount]
      trivial
    · have hfinds : (JobRequest.mk .assignJobToWorker c b files env).finds t = true := by
        simpa only [JobRequest.finds, JobRequest.lookups, hp, someMatch, decide_eq_true_eq] using
          hcount
      refine ⟨after, h.found rfl _ t hfinds, ?_⟩
      change JobStaged Step after (if t.providers.count p = 0 then _ else _)
      rw [if_neg hcount]
      exact staged_changeJob h hc sendResult fun _ => trivial
  | userJobReschedule =>
    refine tracks_checked (fun _ => trivial) fun hc => ?_
    simp only [getAddressDataById]
    cases ha : addressOf b.locationID c.userId with
    | error e => trivial
    | ok p =>
      intro t
      by_cases hfind : t.addresses.find p = []
      · refine ⟨before, h.aside _ _ t rfl, ?_⟩
        simp only [exec_read, hfind]
        trivial
      · have hfinds : (JobRequest.mk .userJobReschedule c b files env).finds t = true := by
          simpa only [JobRequest.finds, JobRequest.lookups, ha, someMatch, Collection.count,
            decide_eq_true_eq, ne_eq, List.length_eq_zero_iff] using hfind
        refine ⟨after, h.found rfl _ t hfinds, ?_⟩
        have hempty : (t.addresses.find p).isEmpty = false := by simpa using hfind
        change JobStaged Step after (if (t.addresses.find p).isEmpty then _ else _)
        rw [hempty]
        exact staged_changeJob h hc sendResult fun _ => trivial

end Jobs

end DoQwik
