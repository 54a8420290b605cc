import DoQwik.JobBookings
import DoQwik.JobPrograms
import DoQwik.Receipts

/-! The bookings that are told to the customers and the jobs that there are. Whatever the job
requests in progress do between each other's steps, a job appears exactly for each booking that is
answered with a job, under the id in the answer, and no job disappears. -/
namespace DoQwik
open JsValues DocStore Interleave

def jobIds (s : Db) : List ObjectId := s.jobs.docs.map Job.id

/-- The id of the job that the answer to a booking shows. -/
def bookedIn (a : JobResponse) : Option ObjectId :=
  match a.result with
  | some (.populated j) => j.map fun p => p.job.id
  | _ => none

section Operations

theorem jobIds_exec {op : DbOp} (h : ∀ j, op ≠ .createJob j) (t : Db) :
    jobIds (exec op t).1 = jobIds t := by
  rcases exec_jobs_cases op t with hsame | ⟨j, hop, -⟩ | ⟨sel, d, now, rfl⟩
  · unfold jobIds
    rw [hsame]
  · exact absurd hop (h j)
  · exact map_key_updateFirst Job.id sel (d.apply now) (d.apply_id now) t.jobs.docs

/-- An operation that creates no job leaves the request with what it has. -/
theorem receipt_keep {op : DbOp} (h : ∀ j, op ≠ .createJob j) (t : Db) (g : Receipt ObjectId) :
    ReceiptStep exec jobIds g op t g :=
  .keep (List.Perm.of_eq (jobIds_exec h t))

theorem receipt_of_counts {op : DbOp} (h : op.counts = true) (t : Db) (g : Receipt ObjectId) :
    ReceiptStep exec jobIds g op t g := by
  apply receipt_keep
  rintro j rfl
  cases h

end Operations

section Bookings

variable {env : Env} {b : JobBody} {files : Option JobFiles}

abbrev AccountsForJob (p : Action JobResponse) : Prop := Accounts exec jobIds bookedIn .nothing p

theorem accounts_createOrder (user : User) (provider : Provider) (offer : ProviderSubService)
    (serviceData : Option Service) (sub : SubService) (seqId : ℕ) :
    AccountsForJob (createOrder env b files user provider offer serviceData sub seqId) := by
  rcases serviceData with _ | service
  · exact Or.inr rfl
  rcases files with _ | f
  · exact Or.inr rfl
  · simp only [createOrder, createData]
    cases newJob env b f.jobImage seqId user provider offer service sub with
    | error e => exact Or.inr rfl
    | ok j =>
      intro t
      cases hi : t.jobs.insert j with
      | none =>
        refine ⟨.nothing, .keep ?_, ?_⟩
        · rw [exec_createJob_none hi]
        · rw [exec_createJob_none hi]
          exact Or.inr rfl
      | some c =>
        refine ⟨.added j.id, .add ?_, ?_⟩
        · rw [exec_createJob_some hi]
          unfold jobIds
          rw [(Collection.insert_eq_some hi).2, List.map_append]
          exact List.perm_append_singleton _ _
        · rw [exec_createJob_some hi]
          -- The job is read back, with all that was done to it in between.
          intro t'
          cases hget : t'.jobs.get? j.id with
          | none =>
            refine ⟨.lost, .miss ?_, Or.inl rfl⟩
            intro hmem
            obtain ⟨j', hj', hid⟩ := List.mem_map.mp hmem
            rw [← hid, Collection.get?_key hj'] at hget
            cases hget
          | some j' =>
            refine ⟨.added j.id, receipt_of_counts rfl t' _, Or.inr ?_⟩
            change ((t'.jobs.get? j.id).map (populate t')).map _ = _
            rw [hget]
            exact congrArg some ((t'.jobs.get?_eq_some_iff _ _).mp hget).2

theorem accounts_orderFrom (userData : Option User) (found : Option PopulatedOffer) :
    AccountsForJob (orderFrom env b files userData found) := by
  have hcounts : ∀ op s, op.counts = true → ReceiptStep exec jobIds .nothing op s .nothing :=
    fun op s hop => receipt_of_counts hop s _
  rcases found with _ | ⟨offer, serviceData, _ | sub⟩
  · exact Or.inr rfl
  · exact Or.inr rfl
  · refine tracks_cast_bind (Or.inr rfl) fun p _ => tracks_query_bind hcounts fun t => ?_
    rcases t.providers.findOne p with _ | provider
    · exact Or.inr rfl
    rcases userData with _ | user
    · exact Or.inr rfl
    · simp only [placeOrder]
      cases duplicateOf env b user.id provider.id with
      | error e => exact Or.inr rfl
      | ok q =>
        refine tracks_query_bind hcounts fun t' => ?_
        cases t'.jobs.findOne q with
        | some j => exact Or.inr rfl
        | none =>
          exact tracks_getSequence_bind hcounts _ (Or.inr rfl) fun n =>
            accounts_createOrder user provider offer serviceData sub n

theorem accounts_assignJob (c : Caller) : AccountsForJob (assignJob env c b files) := by
  have hcounts : ∀ op s, op.counts = true → ReceiptStep exec jobIds .nothing op s .nothing :=
    fun op s hop => receipt_of_counts hop s _
  refine tracks_checked (fun _ => Or.inr rfl) fun _ => ?_
  simp only [getAddressDataById]
  cases addressOf b.serviceLocation c.userId with
  | error e => exact Or.inr rfl
  | ok p =>
    refine tracks_query_bind hcounts fun t => ?_
    split
    · exact Or.inr rfl
    · refine tracks_query_bind hcounts fun t' => tracks_checked (fun _ => Or.inr rfl) fun _ => ?_
      simp only [getOnlyOneIndividualServices]
      cases offerById b.serviceType with
      | error e => exact Or.inr rfl
      | ok q => exact tracks_query_bind hcounts fun t'' => accounts_orderFrom _ _

/-- Handlers other than `assignJob` book nothing, and do not answer with a new job. -/
theorem accounts_change {r : JobRequest} (hr : r.handler ≠ .assignJob) :
    AccountsForJob r.handle := by
  have hother {op : DbOp} (h : ∀ j, op ≠ .createJob j) (t : Db) :
      ReceiptStep exec jobIds .nothing op t .nothing := receipt_keep h t _
  have hanswer (x : Option Job) : ∀ a, endsWith x a →
      (Receipt.nothing : Receipt ObjectId) = .lost ∨ bookedIn a = Receipt.nothing.key? := by
    rintro a (ha | ⟨text, ha⟩)
    · exact Or.inr (by rw [bookedIn, ha]; rfl)
    · exact Or.inr (by rw [bookedIn, ha]; rfl)
  refine tracks_handle hr ⟨?_, ?_, ?_, ?_, ?_, ?_, ?_⟩
  · exact fun p _ => hother fun _ h => by cases h
  · exact fun p => hother fun _ h => by cases h
  · exact fun p => hother fun _ h => by cases h
  · exact fun _ => Or.inr rfl
  · exact Or.inr rfl
  · intro p j d _ _ t
    refine ⟨.nothing, hother (fun _ h => by cases h) t, tracks_finish ?_ (Or.inr rfl) (hanswer _)⟩
    exact fun j _ kind => hother fun _ h => by cases h
  · exact fun _ p _ t => ⟨.nothing, hother (fun _ h => by cases h) t, Or.inr rfl⟩

theorem accounts_program (r : JobRequest) : AccountsForJob r.program := by
  -- A request that throws is answered with an error, which shows no job.
  refine Prog.Tracks.catchAll (fun g e hg => hg.imp_right Eq.symm) ?_
  by_cases hr : r.handler = .assignJob
  · simp only [JobRequest.handle, hr]
    exact accounts_assignJob r.caller
  · exact accounts_change hr

end Bookings

section Pools

def JobPool.booked (c : JobPool) : List ObjectId := c.threads.filterMap (toldBy bookedIn)

/-- In every interleaving of job requests, once all are answered: the jobs are those that were
there before and one for each booking that was answered with a job, under the id in the answer. No
two answers show the same job, and none shows one that was there before. -/
theorem bookings_conserved (s : Db) (rs : List JobRequest) (sched : List ℕ)
    (hdone : (runFrom JobPool.step (JobPool.start s rs) sched).finished = true) :
    (jobIds (runFrom JobPool.step (JobPool.start s rs) sched).state).Perm
        (jobIds s ++ (runFrom JobPool.step (JobPool.start s rs) sched).booked) ∧
      (runFrom JobPool.step (JobPool.start s rs) sched).booked.Nodup ∧
      ∀ i ∈ (runFrom JobPool.step (JobPool.start s rs) sched).booked, i ∉ jobIds s := by
  have haccounts : ∀ p ∈ (JobPool.start s rs).threads, AccountsForJob p := by
    intro p hp
    obtain ⟨r, -, rfl⟩ := List.mem_map.mp hp
    exact accounts_program r
  have hconserved := keys_finished haccounts hdone
  have hnodup := hconserved.nodup_iff.mp
    (runFrom JobPool.step (JobPool.start s rs) sched).state.jobs.nodup
  obtain ⟨-, hbooked, hdisjoint⟩ := List.nodup_append.mp hnodup
  exact ⟨hconserved, hbooked, fun i hi hold => hdisjoint i hold i hi rfl⟩

def bookAndAccept : List JobRequest := twoBookings ++ [onSampleJob .jobAccept company 3]

/-- The first booking takes its number, and from there on the three requests take turns. -/
theorem bookings_conserved_in_turns :
    let c := runFrom JobPool.step (JobPool.start sampleDb bookAndAccept)
      ([0, 0, 0, 0, 0, 0, 0] ++ (List.range 30).map fun n => n % 3)
    c.booked = [idOf "job-------01", idOf "job-------02"] ∧
      (jobIds c.state).Perm (jobIds sampleDb ++ c.booked) :=
  ⟨by decide +kernel, (bookings_conserved sampleDb bookAndAccept _ (by decide +kernel)).1⟩

end Pools

end DoQwik
