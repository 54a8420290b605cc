import DoQwik.JobLifecycle

/-! Interleavings of job requests. Each read and each write of a handler is one step, and
any other request may step in between. -/
namespace DoQwik
open JsValues DocStore Interleave

abbrev JobPool := Pool Db DbOp Ret Thrown JobResponse

def JobPool.start (s : Db) (rs : List JobRequest) : JobPool := ⟨s, rs.map JobRequest.program⟩

def JobPool.step (c : JobPool) (i : ℕ) : JobPool := Pool.stepAt exec c i

/-- The program issues only operations that `Φ` allows in the state that it last saw,
whatever the other requests do between its steps. -/
def Obeys {α : Type} (Φ : Db → DbOp → Prop) (s : Db) (p : Action α) : Prop :=
  Prog.Follows exec (fun _ _ => True) Φ (fun _ _ => True) s p

section Operations

/-- A rule on operations that holds of every operation the request can issue. An update is
issued right after the read of the job that its plan is made for. -/
structure OpRule (Φ : Db → DbOp → Prop) (r : JobRequest) : Prop where
  read : ∀ (s : Db) {β : Type} (f : Db → β), Φ s (.read f)
  notify : ∀ s n, Φ s (.notify n)
  createCounter : ∀ s c, Φ s (.createCounter c)
  updateCounter : ∀ s table m n, Φ s (.updateCounter table m n)
  createJob : r.handler = .assignJob → ∀ s image seqId user provider offer service sub j,
    newJob r.env r.body image seqId user provider offer service sub = .ok j → Φ s (.createJob j)
  updateJob : ∀ s p j d, refusal r.checks = none → (∃ t, r.lookups t = true) →
    jobById r.target = .ok p → s.jobs.findOne p = some j → r.plan j = .ok (.update d) →
    Φ s (.updateJob (fun j => p j && r.filter j) d r.env.now)
  pay : r.handler = .paymentSuccess → ∀ s p, jobById r.target = .ok p →
    Φ s (.updateJob p paymentSuccessParam r.env.now)

variable {α β : Type} {ρ : Type} {Φ : Db → DbOp → Prop} {r : JobRequest}

/-- A read, then the rest from whatever state it is answered in. -/
theorem obeys_query_bind {s : Db} {f : Db → β} {k : β → Action α} (hop : Φ s (.read f))
    (hk : ∀ t, Obeys Φ t (k (f t))) : Obeys Φ s (query f >>= k) :=
  follows_query_bind hop fun t _ => hk t

theorem follows_getOnlyOneData_bind {R : Db → Db → Prop} {Q : Db → α → Prop} {s : Db}
    {p : Job → Bool} {k : Option PopulatedJob → Action α}
    (hop : Φ s (.read fun s => (s.jobs.findOne p).map (populate s)))
    (hk : ∀ t, R s t → Prog.Follows exec R Φ Q t (k ((t.jobs.findOne p).map (populate t)))) :
    Prog.Follows exec R Φ Q s (getOnlyOneData (.ok p) >>= k) :=
  ⟨hop, hk⟩

theorem obeys_cast_bind {s : Db} {x : Except Thrown β} {k : β → Action α}
    (hk : ∀ a, x = .ok a → Obeys Φ s (k a)) : Obeys Φ s (cast x >>= k) :=
  follows_cast_bind hk

theorem obeys_checked {s : Db} {checks : List (Bool × MessageKey)} {k : Action (Response ρ)}
    (hk : refusal checks = none → Obeys Φ s k) : Obeys Φ s (checked checks k) :=
  follows_checked (fun _ => trivial) hk

theorem obeys_sendResult (s : Db) (x : Option Job) : Obeys Φ s (sendResult x) := trivial

theorem obeys_sendOrNotFound (s : Db) (x : Option Job) : Obeys Φ s (sendOrNotFound x) := by
  cases x with
  | none => trivial
  | some j => trivial

theorem obeys_notifyAndSend (h : OpRule Φ r) (kinds : List NoticeKind) (s : Db) (x : Option Job) :
    Obeys Φ s (notifyAndSend kinds x) := by
  cases x with
  | none => trivial
  | some j =>
    change Obeys Φ s (notifyAll j.id kinds >>= fun _ => sendResult (some j))
    induction kinds generalizing s with
    | nil => trivial
    | cons kind kinds ih => exact ⟨h.notify s _, fun t _ => ih _⟩

/-- The shared part of the handlers: the update is the planned one. -/
theorem obeys_changeJob (h : OpRule Φ r) (hchecks : refusal r.checks = none)
    (hlook : ∃ t, r.lookups t = true) (finish : Option Job → Action JobResponse)
    (hfinish : ∀ s x, Obeys Φ s (finish x)) (s : Db) :
    Obeys Φ s (changeJob r.env r.target r.filter r.plan finish) := by
  unfold changeJob
  cases hid : jobById r.target with
  | error e => trivial
  | ok p =>
    refine follows_getOnlyOneData_bind (h.read s _) fun t _ => ?_
    cases hj : t.jobs.findOne p with
    | none => trivial
    | some j =>
      simp only [Option.map_some, populate]
      apply obeys_cast_bind
      intro decision hplan
      cases decision with
      | refuse key => trivial
      | update d =>
        exact ⟨h.updateJob t p j d hchecks hlook hid hj hplan, fun t' _ => hfinish _ _⟩

/-- A rule on operations that holds of every operation of a booking whose offer meets `K`. -/
structure BookingRule (K : ProviderSubService → Prop) (Φ : Db → DbOp → Prop) (r : JobRequest) :
    Prop where
  read : ∀ (s : Db) {β : Type} (f : Db → β), Φ s (.read f)
  createCounter : ∀ s c, Φ s (.createCounter c)
  updateCounter : ∀ s table m n, Φ s (.updateCounter table m n)
  createJob : ∀ s image seqId user provider offer service sub j, K offer →
    newJob r.env r.body image seqId user provider offer service sub = .ok j → Φ s (.createJob j)

theorem OpRule.booking (h : OpRule Φ r) (hr : r.handler = .assignJob) :
    BookingRule (fun _ => True) Φ r where
  read := h.read
  createCounter := h.createCounter
  updateCounter := h.updateCounter
  createJob s image seqId user provider offer service sub j _ :=
    h.createJob hr s image seqId user provider offer service sub j

section Booking

variable {R : Db → Db → Prop} {K : ProviderSubService → Prop}

theorem follows_numbered (h : BookingRule K Φ r) (table : String) (k : ℕ → Action α)
    (hk : ∀ s n, Prog.Follows exec R Φ (fun _ _ => True) s (k n)) (s : Db) :
    Prog.Follows exec R Φ (fun _ _ => True) s (getSequence table >>= k) := by
  refine follows_getSequence_bind (K := fun _ => True) (fun _ _ _ _ => trivial)
    (fun _ _ _ => trivial) ?_ table (fun t n _ => hk t n) trivial
  intro t op hop _
  cases op with
  | read f => exact h.read t f
  | createCounter c => exact h.createCounter t c
  | updateCounter table m n => exact h.updateCounter t table m n
  | _ => cases hop

theorem follows_createOrder (h : BookingRule K Φ r) (files : Option JobFiles) (user : User)
    (provider : Provider) {offer : ProviderSubService} (hoffer : K offer)
    (serviceData : Option Service) (sub : SubService) (s : Db) (seqId : ℕ) :
    Prog.Follows exec R Φ (fun _ _ => True) s
      (createOrder r.env r.body files user provider offer serviceData sub seqId) := by
  rcases serviceData with _ | service
  · trivial
  rcases files with _ | f
  · trivial
  · simp only [createOrder, createData]
    cases hnew : newJob r.env r.body f.jobImage seqId user provider offer service sub with
    | error e => trivial
    | ok j =>
      refine ⟨h.createJob s _ _ _ _ _ _ _ j hoffer hnew, fun t _ => ?_⟩
      cases hi : t.jobs.insert j with
      | none =>
        rw [exec_createJob_none hi]
        trivial
      | some c =>
        rw [exec_createJob_some hi]
        exact ⟨h.read _ _, fun _ _ => trivial⟩

theorem follows_orderFrom (h : BookingRule K Φ r) (files : Option JobFiles)
    (userData : Option User) {offer : Option PopulatedOffer} (hoffer : ∀ o ∈ offer, K o.offer)
    (s : Db) :
    Prog.Follows exec R Φ (fun _ _ => True) s (orderFrom r.env r.body files userData offer) := by
  rcases offer with _ | ⟨offer, serviceData, _ | sub⟩
  · trivial
  · trivial
  · simp only [orderFrom]
    refine follows_cast_bind fun p _ => follows_query_bind (h.read s _) fun t _ => ?_
    rcases t.providers.findOne p with _ | provider
    · trivial
    rcases userData with _ | user
    · trivial
    · simp only [placeOrder]
      cases duplicateOf r.env r.body user.id provider.id with
      | error e => trivial
      | ok q =>
        refine follows_getOnlyOneData_bind (h.read t _) fun t' _ => ?_
        cases t'.jobs.findOne q with
        | some j => trivial
        | none =>
          exact follows_numbered h _ _
            (follows_createOrder h files user provider (hoffer _ rfl) serviceData sub) t'

/-- A booking obeys the rule if all offers that it can come to see meet `K`. -/
theorem follows_assignJob (h : BookingRule K Φ r)
    (hK : ∀ s t, R s t → ∀ o ∈ t.providerSubServices.docs, K o) (s : Db) :
    Prog.Follows exec R Φ (fun _ _ => True) s (assignJob r.env r.caller r.body r.files) := by
  refine follows_checked (fun _ => trivial) fun _ => ?_
  simp only [getAddressDataById]
  cases addressOf r.body.serviceLocation r.caller.userId with
  | error e => trivial
  | ok p =>
    refine ⟨h.read s _, fun t _ => ?_⟩
    change Prog.Follows exec R Φ _ t (if (t.addresses.find p).isEmpty then _ else _)
    split
    · trivial
    · refine follows_query_bind (h.read t _) fun t' _ => follows_checked (fun _ => trivial) fun _ => ?_
      simp only [getOnlyOneIndividualServices]
      cases offerById r.body.serviceType with
      | error e => trivial
      | ok q =>
        refine ⟨h.read t' _, fun t'' ht'' => follows_orderFrom h _ _ ?_ t''⟩
        intro o ho
        obtain ⟨offer, hfind, rfl⟩ := Option.map_eq_some_iff.mp ho
        exact hK t' t'' ht'' offer (Collection.mem_of_findOne hfind).1

end Booking

/-- Whatever the other requests do, every operation of the request obeys the rule. -/
theorem obeys_program (h : OpRule Φ r) (s : Db) : Obeys Φ s r.program := by
  apply Prog.Follows.catchAll (fun _ _ => trivial)
  change Obeys Φ s r.handle
  -- All handlers but the booking and `paymentSuccess` end in the same read and update.
  have hchange : ∀ finish, (∀ s x, Obeys Φ s (finish x)) → refusal r.checks = none →
      (∃ t, r.lookups t = true) → ∀ s,
      Obeys Φ s (changeJob r.env r.target r.filter r.plan finish) :=
    fun finish hfinish hchecks hlook => obeys_changeJob h hchecks hlook finish hfinish
  obtain ⟨handler, c, b, files, env⟩ := r
  cases handler with
  | assignJob => exact follows_assignJob (h.booking rfl) (fun _ _ _ _ _ => trivial) s
  | proceedToPay =>
    exact obeys_checked fun hc => hchange _ (fun s x => obeys_notifyAndSend h _ s x) hc ⟨s, rfl⟩ s
  | paymentSuccess =>
    refine obeys_checked fun hc => ?_
    simp only [updateData]
    cases hid : jobById b.jobID with
    | error e => trivial
    | ok p => exact ⟨h.pay rfl s p hid, fun _ _ => trivial⟩
  | assignJobToWorker =>
    -- The workers are counted in some other state than the one the request began in.
    refine obeys_checked fun hc => obeys_cast_bind fun p hp =>
      obeys_query_bind (h.read s _) fun t => ?_
    split
    · trivial
    · rename_i hcount
      refine hchange _ obeys_sendResult hc ⟨t, ?_⟩ t
      simpa only [JobRequest.lookups, hp, someMatch, decide_eq_true_eq] using hcount
  | jobAccept =>
    exact obeys_checked fun hc => hchange _ (fun s x => obeys_notifyAndSend h _ s x) hc ⟨s, rfl⟩ s
  | jobStart =>
    refine obeys_checked fun hc => ?_
    rcases files with _ | ⟨i, _ | x, _ | y⟩
    · trivial
    · trivial
    · trivial
    · trivial
    · exact hchange _ (fun s x => obeys_notifyAndSend h _ s x) hc ⟨s, rfl⟩ s
  | jobReject => exact obeys_checked fun hc => hchange _ obeys_sendResult hc ⟨s, rfl⟩ s
  | jobFinish =>
    exact obeys_checked fun hc => hchange _ (fun s x => obeys_notifyAndSend h _ s x) hc ⟨s, rfl⟩ s
  | paymentUpdate =>
    exact obeys_checked fun hc => hchange _ (fun s x => obeys_notifyAndSend h _ s x) hc ⟨s, rfl⟩ s
  | userCancelJob => exact obeys_checked fun hc => hchange _ obeys_sendResult hc ⟨s, rfl⟩ s
  | userJobReschedule =>
    refine obeys_checked fun hc => ?_
    simp only [getAddressDataById]
    cases ha : addressOf b.locationID c.userId with
    | error e => trivial
    | ok p =>
      refine ⟨h.read s _, fun t _ => ?_⟩
      change Obeys Φ t (if (t.addresses.find p).isEmpty then _ else _)
      split
      · trivial
      · rename_i hfound
        refine hchange _ obeys_sendResult hc ⟨t, ?_⟩ t
        simpa only [JobRequest.lookups, ha, someMatch, Collection.count, decide_eq_true_eq, ne_eq,
          List.length_eq_zero_iff, List.isEmpty_iff] using hfound
  | submitFeedback => exact obeys_checked fun hc => hchange _ obeys_sendOrNotFound hc ⟨s, rfl⟩ s
  | replyFeedback => exact obeys_checked fun hc => hchange _ obeys_sendOrNotFound hc ⟨s, rfl⟩ s

end Operations

section Pools

variable {Φ : Db → DbOp → Prop}

def JobPool.Obeying (Φ : Db → DbOp → Prop) (c : JobPool) : Prop :=
  c.Following exec (fun _ _ => True) Φ (fun _ _ => True)

theorem obeying_start {rs : List JobRequest} (h : ∀ r ∈ rs, OpRule Φ r) (s : Db) :
    (JobPool.start s rs).Obeying Φ := by
  intro p hp
  obtain ⟨r, hr, rfl⟩ := List.mem_map.mp hp
  exact obeys_program (h r hr) s

theorem JobPool.state_step (c : JobPool) (i : ℕ) :
    (c.step i).state = (c.nextOp i).elim c.state fun op => (exec op c.state).1 :=
  Pool.state_stepAt exec c i

/-- A step keeps the rule if the operations that the other threads wait to issue stay allowed. -/
theorem obeying_step {c : JobPool} (h : c.Obeying Φ) (i : ℕ)
    (hother : ∀ k op, k ≠ i → c.nextOp k = some op → Φ (c.step i).state op) :
    (c.step i).Obeying Φ :=
  Pool.Following.stepAt h trivial hother (fun _ _ => trivial) (fun _ _ => trivial)

/-- What an operation makes of all jobs, if it keeps a law on those that it writes. -/
theorem allJobs_exec {Q : Job → Prop} {s : Db} {op : DbOp} (hs : AllJobs Q s)
    (hnew : ∀ j, op = .createJob j → Q j)
    (hwrite : ∀ sel d now j, op = .updateJob sel d now → s.jobs.findOne sel = some j → Q j →
      Q (d.apply now j)) : AllJobs Q (exec op s).1 := by
  intro j hj
  rcases exec_jobs_cases op s with hsame | ⟨new, hop, hi⟩ | ⟨sel, d, now, rfl⟩
  · rw [hsame] at hj
    exact hs j hj
  · rw [(Collection.insert_eq_some hi).2, List.mem_append, List.mem_singleton] at hj
    rcases hj with hj | rfl
    · exact hs j hj
    · exact hnew j hop
  · rw [exec_updateJob_jobs] at hj
    rcases Collection.mem_updateOne hj with ⟨j₀, hfind, rfl⟩ | ⟨hold, -⟩
    · exact hwrite sel d now j₀ rfl hfind (hs j₀ (Collection.mem_of_findOne hfind).1)
    · exact hs j hold

/-- The job that an update finds is there afterwards, updated. -/
theorem mem_exec_updateJob {s : Db} {sel : Job → Bool} {j : Job} (h : s.jobs.findOne sel = some j)
    (d : JobSet) (now : ℤ) : d.apply now j ∈ (exec (.updateJob sel d now) s).1.jobs.docs := by
  have hget := Collection.get?_updateOne s.jobs sel (d.apply now) (d.apply_id now) j.id
  simp only [h, Option.map_some, if_true, Collection.get?_of_findOne h] at hget
  exact (Collection.mem_of_findOne hget).1

end Pools

section Guards

/-- What a status may be written onto: `Reject` onto a job on which no work has started,
`Complete` onto a started one. -/
def writeGuard : JobStatus → JobStatus → Bool
  | .reject => JobStatus.pending
  | .complete => fun st => st = .start
  | _ => fun _ => true

/-- The status that the operation writes fits the job that it would update now. -/
def guardHolds (s : Db) : DbOp → Bool
  | .updateJob sel d _ => d.jobStatus.all fun st => (s.jobs.findOne sel).all fun j =>
      writeGuard st j.jobStatus
  | _ => true

def guarded (c : JobPool) (i : ℕ) : Bool := (c.nextOp i).all (guardHolds c.state)

/-- The first operation gives a job that the second one is waiting to update a status that
the second one must not be written onto. -/
def disturbs (s : Db) : DbOp → DbOp → Bool
  | .updateJob sel d _, .updateJob sel' d' _ =>
    d.jobStatus.any fun st => d'.jobStatus.any fun st' => (s.jobs.findOne sel).any fun j =>
      sel' j && !writeGuard st' st
  | _, _ => false

def undisturbing (c : JobPool) (i : ℕ) : Bool :=
  (c.nextOp i).all fun op => (List.range c.threads.length).all fun k =>
    k = i || (c.nextOp k).all fun op' => !disturbs c.state op op'

/-- The rule behind the guards: a waiting status write selects jobs by their id and terms,
keeps the terms, and fits all jobs that it selects. No job is created. -/
def GuardRule (s : Db) : DbOp → Prop
  | .updateJob sel d _ => d.KeepsTerms ∧
      (∀ d : JobSet, d.KeepsTerms → ∀ now j, sel (d.apply now j) = sel j) ∧
      ∀ st, d.jobStatus = some st → ∀ j ∈ s.jobs.docs, sel j = true →
        writeGuard st j.jobStatus = true
  | .createJob _ => False
  | _ => True

theorem jobById_apply {v : Option Json} {p : Job → Bool} (hp : jobById v = .ok p) (d : JobSet)
    (now : ℤ) (j : Job) : p (d.apply now j) = p j := by
  obtain ⟨q, -, rfl⟩ := map_eq_ok hp
  rfl

/-- The filters look only at the terms. -/
theorem filter_of_terms (r : JobRequest) {j j' : Job} (h : j.terms = j'.terms) :
    r.filter j = r.filter j' := by
  simp only [Job.terms, JobTerms.mk.injEq] at h
  obtain ⟨-, huser, hprovider, htype, -⟩ := h
  unfold JobRequest.filter
  cases r.handler <;> simp only [huser, hprovider, htype]

/-- A status write fits the job that its plan was made for. -/
theorem writeGuard_of_admits {h : JobHandler} {st : JobStatus} (hs : h.sets = some st)
    {old : JobStatus} (ha : h.admits old = true) : writeGuard st old = true := by
  cases h <;> cases hs <;> first | rfl | exact ha

/-- The handlers that write a status of their own obey the rule. -/
theorem guardRule_of_sets {r : JobRequest} (hr : r.handler.sets.isSome = true) :
    OpRule GuardRule r where
  read _ _ _ := trivial
  notify _ _ := trivial
  createCounter _ _ := trivial
  updateCounter _ _ _ _ := trivial
  createJob h := by rw [h] at hr; cases hr
  pay h := by rw [h] at hr; cases hr
  updateJob := by
    intro s p j d hchecks _ hp hj hplan
    refine ⟨plan_keepsTerms hplan, fun d hd now j => ?_, ?_⟩
    · simp only [jobById_apply hp, filter_of_terms r (hd.apply_terms now j)]
    · intro st hst j' hmem hsel
      obtain ⟨hadmits, hsets⟩ := plan_follows_machine hplan
      rw [Bool.and_eq_true] at hsel
      rw [hst] at hsets
      by_cases hid : r.handler.checksId = true
      · -- The selected job is the one that was read.
        have hj' := Collection.mem_of_findOne hj
        have heq : j' = j := List.inj_on_of_nodup_map s.jobs.nodup hmem hj'.1
          (jobById_injective (badId_of_checks hid hchecks) hp hsel.1 hj'.2)
        rw [heq]
        exact writeGuard_of_admits hsets.symm hadmits
      · -- `assignJobToWorker` writes a status that has no guard.
        cases hh : r.handler <;> rw [hh] at hsets hid hr <;>
          first | exact absurd rfl hid | (cases hsets; rfl) | cases hr

/-- The job that an operation finds is one of those that it selects. -/
theorem guardHolds_of_rule {s : Db} {op : DbOp} (h : GuardRule s op) : guardHolds s op = true := by
  cases op with
  | updateJob sel d now =>
    simp only [guardHolds]
    cases hst : d.jobStatus with
    | none => rfl
    | some st =>
      cases hj : s.jobs.findOne sel with
      | none => rfl
      | some j =>
        have hm := Collection.mem_of_findOne hj
        exact h.2.2 st hst j hm.1 hm.2
  | _ => rfl

/-- A step that disturbs nobody keeps the rule for the waiting operations. -/
theorem guardRule_step {s : Db} {op op' : DbOp} (h : GuardRule s op) (h' : GuardRule s op')
    (hd : disturbs s op op' = false) : GuardRule (exec op s).1 op' := by
  cases op' with
  | updateJob sel' d' now' =>
    refine ⟨h'.1, h'.2.1, fun st' hst' j hmem hsel => ?_⟩
    rcases exec_jobs_cases op s with hsame | ⟨new, rfl, -⟩ | ⟨sel, d, now, rfl⟩
    · rw [hsame] at hmem
      exact h'.2.2 st' hst' j hmem hsel
    · exact absurd h id
    · rw [exec_updateJob_jobs] at hmem
      rcases Collection.mem_updateOne hmem with ⟨j₀, hj₀, rfl⟩ | ⟨hold, -⟩
      · -- The job was just updated: its status is the written one or the old one.
        rw [h'.2.1 d h.1] at hsel
        rw [JobSet.apply_jobStatus]
        cases hst : d.jobStatus with
        | none => exact h'.2.2 st' hst' j₀ (Collection.mem_of_findOne hj₀).1 hsel
        | some st => simpa [disturbs, hst, hst', hj₀, hsel] using hd
      · exact h'.2.2 st' hst' j hold hsel
  | createJob j => exact absurd h' id
  | _ => trivial

/-- In every interleaving of requests that write a status, if no step takes a job out of the
guard of a write that another request is about to make, then every `Reject` is written onto a
job on which no work has started and every `Complete` onto a started job. -/
theorem guarded_of_undisturbing (s : Db) (rs : List JobRequest) (schedule : List ℕ)
    (hrs : ∀ r ∈ rs, r.handler.sets.isSome = true)
    (h : Along JobPool.step (fun c i => undisturbing c i = true) (JobPool.start s rs) schedule) :
    Along JobPool.step (fun c i => guarded c i = true) (JobPool.start s rs) schedule := by
  refine along_of_invariant (I := JobPool.Obeying GuardRule) ?_
    (obeying_start (fun r hr => guardRule_of_sets (hrs r hr)) s) h
  intro c i hc hi
  constructor
  · unfold guarded
    cases hop : c.nextOp i with
    | none => rfl
    | some op => exact guardHolds_of_rule (Pool.Following.next hc hop)
  · apply obeying_step hc
    intro k op' hk hop'
    have hrule' := Pool.Following.next hc hop'
    rw [JobPool.state_step]
    cases hop : c.nextOp i with
    | none => exact hrule'
    | some op =>
      refine guardRule_step (Pool.Following.next hc hop) hrule' ?_
      unfold undisturbing at hi
      rw [hop, Option.all_some, List.all_eq_true] at hi
      have hlt : k < c.threads.length := by
        obtain ⟨prog, hprog⟩ := Pool.call_of_nextOp hop'
        exact (List.getElem?_eq_some_iff.mp hprog).1
      have hki := hi k (List.mem_range.mpr hlt)
      simpa [hk, hop'] using hki

/-- An accepted job, and two requests on it: each is served alone, one after the other. -/
theorem guarded_of_undisturbing_serial :
    (∀ r ∈ [onSampleJob .userCancelJob customer 3, onSampleJob .jobStart company 4],
      r.handler.sets.isSome = true) ∧
    Along JobPool.step (fun c i => guarded c i = true)
      (JobPool.start (runFrom serve sampleDb [sampleBooking, onSampleJob .jobAccept company 2])
        [onSampleJob .userCancelJob customer 3, onSampleJob .jobStart company 4])
      [0, 0, 1, 1] :=
  ⟨by decide, guarded_of_undisturbing _ _ _ (by decide) (by decide +kernel)⟩

/-- The customer cancels an accepted job while its company starts it: the cancellation read
`Accept` and is written onto `Start`. -/
theorem cancel_races_start :
    ¬ Along JobPool.step (fun c i => guarded c i = true)
      (JobPool.start (runFrom serve sampleDb [sampleBooking, onSampleJob .jobAccept company 2])
        [onSampleJob .userCancelJob customer 3, onSampleJob .jobStart company 4])
      [0, 1, 1, 0] := by
  decide +kernel

end Guards

section Payment

/-- A completed job is paid. -/
def PaidIfComplete (s : Db) : Prop :=
  ∀ j ∈ s.jobs.docs, j.jobStatus = .complete → j.paymentStatus = some paymentSuccessful

instance (s : Db) : Decidable (PaidIfComplete s) :=
  inferInstanceAs (Decidable (∀ j ∈ s.jobs.docs, _))

def PaidThroughout (c : JobPool) (schedule : List ℕ) : Prop :=
  ∀ pre post, schedule = pre ++ post → PaidIfComplete (runFrom JobPool.step c pre).state

/-- The operation gives a completed job a payment status other than `Success`. -/
def unpays (s : Db) : DbOp → Bool
  | .updateJob sel d _ =>
    d.jobStatus = none && (d.paymentStatus.any fun ps => ps ≠ some paymentSuccessful) &&
      (s.jobs.findOne sel).any fun j => j.jobStatus = .complete
  | _ => false

/-- Completion and payment are written together, and a new job is not complete. -/
def PaymentRule (_ : Db) : DbOp → Prop
  | .updateJob _ d _ =>
    d.jobStatus = some .complete → d.paymentStatus = some (some paymentSuccessful)
  | .createJob j => j.jobStatus = .processing
  | _ => True

theorem paymentRule (r : JobRequest) : OpRule PaymentRule r where
  read _ _ _ := trivial
  notify _ _ := trivial
  createCounter _ _ := trivial
  updateCounter _ _ _ _ := trivial
  createJob _ := fun _ _ _ _ _ _ _ _ _ h => (newJob_fresh h).jobStatus
  pay _ := fun _ _ _ h => by cases h
  updateJob := by
    intro s p j d _ _ _ _ hplan hst
    -- Only `jobFinish` writes `Complete`.
    cases plan_change hplan with
    | jobFinish => rfl
    | _ => cases hst

/-- One operation keeps the law, unless it takes the payment of a completed job back. -/
theorem paidIfComplete_exec {s : Db} {op : DbOp} (hs : PaidIfComplete s) (hop : PaymentRule s op)
    (hu : unpays s op = false) : PaidIfComplete (exec op s).1 := by
  refine allJobs_exec (Q := fun j => j.jobStatus = .complete →
    j.paymentStatus = some paymentSuccessful) hs ?_ ?_
  · rintro j rfl hc
    rw [show j.jobStatus = .processing from hop] at hc
    cases hc
  · rintro sel d now j rfl hj hpaid hc
    rw [JobSet.apply_jobStatus] at hc
    rw [JobSet.apply_paymentStatus]
    cases hst : d.jobStatus with
    | some st =>
      -- The update completes the job itself, and then it also pays it.
      rw [hst, Option.getD_some] at hc
      rw [hop (hst.trans (congrArg some hc)), Option.getD_some]
    | none =>
      -- The job was complete before, and the update does not touch its payment.
      rw [hst, Option.getD_none] at hc
      cases hps : d.paymentStatus with
      | none => exact hpaid hc
      | some ps => simpa [unpays, hst, hps, hj, hc] using hu

/-- An operation that takes the payment of a completed job back breaks the law. -/
theorem not_paidIfComplete_of_unpays {s : Db} {op : DbOp} (h : unpays s op = true) :
    ¬ PaidIfComplete (exec op s).1 := by
  cases op with
  | updateJob sel d now =>
    simp only [unpays, Bool.and_eq_true, decide_eq_true_eq, Option.any_eq_true] at h
    obtain ⟨⟨hst, ps, hps, hne⟩, j, hj, hc⟩ := h
    intro hpaid
    have hp := hpaid _ (mem_exec_updateJob hj d now) (by
      rw [JobSet.apply_jobStatus, hst]
      exact hc)
    rw [JobSet.apply_paymentStatus, hps] at hp
    exact hne hp
  | _ => cases h

/-- In every interleaving of job requests, completed jobs are paid throughout exactly when no
step writes another payment status onto a completed job. -/
theorem paidThroughout_iff (s : Db) (rs : List JobRequest) (schedule : List ℕ)
    (hs : PaidIfComplete s) :
    PaidThroughout (JobPool.start s rs) schedule ↔
      Along JobPool.step (fun c i => (c.nextOp i).all (fun op => !unpays c.state op) = true)
        (JobPool.start s rs) schedule := by
  refine throughout_iff (I := fun c => PaidIfComplete c.state) (J := JobPool.Obeying PaymentRule)
    (fun c i hc => obeying_step hc i fun _ _ _ hop => Pool.Following.next hc hop) ?_ hs
    (obeying_start (fun r _ => paymentRule r) s) schedule
  intro c i hrule hpaid
  rw [JobPool.state_step]
  cases hop : c.nextOp i with
  | none => exact ⟨fun _ => rfl, fun _ => hpaid⟩
  | some op =>
    rw [Option.elim_some, Option.all_some, Bool.not_eq_true']
    constructor
    · intro hafter
      by_contra hu
      exact not_paidIfComplete_of_unpays (Bool.eq_true_of_not_eq_false hu) hafter
    · exact paidIfComplete_exec hpaid (Pool.Following.next hrule hop)

def paymentSample : JobPool :=
  .start sampleDb [sampleBooking, onSampleJob .jobAccept company 2, onSampleJob .jobStart company 3,
    onSampleJob .paymentUpdate company 4, onSampleJob .jobFinish company 5]

def startedSchedule : List ℕ := List.replicate 9 0 ++ List.replicate 3 1 ++ List.replicate 3 2

/-- Served one after the other, the completion and the late payment report keep the law. -/
theorem paidThroughout_serial :
    PaidIfComplete sampleDb ∧ PaidThroughout paymentSample (startedSchedule ++ [4, 4, 4, 3, 3]) :=
  ⟨by decide +kernel, (paidThroughout_iff sampleDb _ _ (by decide +kernel)).mpr (by decide +kernel)⟩

/-- A payment report that read `Start` is written after the completion: the completed job is
marked `Fail`. -/
theorem payment_report_races_finish :
    ¬ PaidThroughout paymentSample (startedSchedule ++ [3, 4, 4, 3]) := by
  intro h
  have hlast : ¬ PaidIfComplete
      (runFrom JobPool.step paymentSample (startedSchedule ++ [3, 4, 4, 3])).state := by
    decide +kernel
  exact hlast (h _ [] (List.append_nil _).symm)

end Payment

end DoQwik
