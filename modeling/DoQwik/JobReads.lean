import DoQwik.JobLists
import DoQwik.JobParties

/-! What an account can learn about jobs. The lists, the transaction history and the revenues
filter by the caller; `JobDetailsByID` looks up any job by its id. -/
namespace DoQwik
open JsValues DocStore Interleave

/-- The jobs of two collections to which the caller is a party are the same, in the same
natural order. -/
def AgreeOnOwn (c : Caller) (jobs jobs' : Collection Job.id) : Prop :=
  jobs.find (isParty c) = jobs'.find (isParty c)

/-- The answer depends on the caller's own jobs only. -/
def ReadsOwnJobsOnly (s : Db) (r : JobListRequest) : Prop :=
  ∀ jobs, AgreeOnOwn r.caller s.jobs jobs →
    answerCall { s with jobs := jobs } (.list r) = answerCall s (.list r)

/-- The request asks for the details of a job by an id that none of the caller's own jobs has. -/
def asksBeyondOwn (s : Db) (r : JobListRequest) : Bool :=
  r.handler = .jobDetailsByID && !badId r.jobId &&
    match jobById r.jobId with
    | .ok p => s.jobs.docs.all fun j => !(p j && isParty r.caller j)
    | .error _ => false

section Own

variable {c : Caller} {jobs jobs' : Collection Job.id} {p : Job → Bool}

/-- A condition that only own jobs meet selects the same jobs. -/
theorem find_of_agreeOnOwn (h : AgreeOnOwn c jobs jobs')
    (hp : ∀ j, p j = true → isParty c j = true) :
    jobs'.find p = jobs.find p := by
  have hfilter : ∀ js : Collection Job.id, js.find p = (js.find (isParty c)).filter p := by
    intro js
    unfold Collection.find
    rw [List.filter_filter]
    refine List.filter_congr fun j _ => ?_
    cases hj : p j with
    | false => rfl
    | true => rw [hp j hj]; rfl
  rw [hfilter, hfilter, h]

/-- An own job is found by its id in both collections. -/
theorem findOne_of_agreeOnOwn (h : AgreeOnOwn c jobs jobs')
    (hp : ∀ j j', p j = true → p j' = true → j.id = j'.id) {j : Job} (hj : j ∈ jobs.docs)
    (hpj : p j = true) (hown : isParty c j = true) : jobs'.findOne p = jobs.findOne p := by
  have hfind : ∀ js : Collection Job.id, j ∈ js.docs → js.findOne p = some j := by
    intro js hmem
    obtain ⟨j', hj'⟩ := Collection.exists_findOne hmem hpj
    obtain ⟨hmem', hpj'⟩ := Collection.mem_of_findOne hj'
    rw [hj', List.inj_on_of_nodup_map js.nodup hmem' hmem (hp _ _ hpj' hpj)]
  have hmem : j ∈ jobs.find (isParty c) := List.mem_filter.mpr ⟨hj, hown⟩
  rw [h] at hmem
  rw [hfind jobs hj, hfind jobs' (List.mem_filter.mp hmem).1]

/-- The own jobs of the provider or of the worker are jobs of the caller. -/
theorem isParty_of_ownJobs {r : JobListRequest} {j : Job} (h : ownJobs r j = true) :
    isParty r.caller j = true := by
  unfold ownJobs at h
  split at h
  · simp only [isParty, h, Bool.or_true]
  · simp only [isParty, h, Bool.or_true, Bool.true_or]

end Own

section Lists

variable {s : Db} {jobs : Collection Job.id} {c : Caller}

/-- The lists are made of the jobs that the condition selects. -/
theorem run_getData_congr (h : AgreeOnOwn c s.jobs jobs) {condition : JobCondition}
    (hp : ∀ p, condition = .ok p → ∀ j, p j = true → isParty c j = true)
    (window : Except Thrown (ℕ × Option ℕ)) (withCode : Bool) :
    ((getData condition window withCode).run exec { s with jobs := jobs }).2 =
      ((getData condition window withCode).run exec s).2 := by
  cases condition with
  | error e => rfl
  | ok p =>
    cases window with
    | error e => rfl
    | ok w =>
      have hrun : ∀ t : Db, ((getData (.ok p) (.ok w) withCode).run exec t).2 =
          .ok { key := .success, result := some (.entries
            ((page w (listJobs t p)).map (entryOf t withCode))) } := fun _ => rfl
      have hlist : listJobs { s with jobs := jobs } p = listJobs s p := by
        unfold listJobs
        rw [find_of_agreeOnOwn h (hp p rfl)]
      rw [hrun, hrun, hlist]
      rfl

theorem run_getList_congr (h : AgreeOnOwn c s.jobs jobs) {p : Job → Bool}
    (hp : ∀ j, p j = true → isParty c j = true) (window : Except Thrown (ℕ × Option ℕ)) :
    ((getList p window).run exec { s with jobs := jobs }).2 =
      ((getList p window).run exec s).2 := by
  cases window with
  | error e => rfl
  | ok w =>
    have hrun : ∀ t : Db, ((getList p (.ok w)).run exec t).2 =
        .ok { key := .success, result := some (.transactions
          ((page w (listJobs t p)).map transactionOf)) } := fun _ => rfl
    have hlist : listJobs { s with jobs := jobs } p = listJobs s p := by
      unfold listJobs
      rw [find_of_agreeOnOwn h hp]
    rw [hrun, hrun, hlist]

theorem run_revenues_congr (h : AgreeOnOwn c s.jobs jobs) (dateOf : Job → ℤ) {isOwn : Job → Bool}
    (hp : ∀ j, isOwn j = true → isParty c j = true) (periods : List Period)
    (k : List (String × JsNum) → Action JobResponse)
    (hk : ∀ sums t t', ((k sums).run exec t).2 = ((k sums).run exec t').2) :
    ((revenues dateOf isOwn periods >>= k).run exec { s with jobs := jobs }).2 =
      ((revenues dateOf isOwn periods >>= k).run exec s).2 := by
  have hsum : ∀ period, revenueIn dateOf isOwn { s with jobs := jobs } period =
      revenueIn dateOf isOwn s period := by
    intro period
    unfold revenueIn
    rw [find_of_agreeOnOwn h]
    intro j hj
    rw [Bool.and_eq_true] at hj
    exact hp j hj.2
  rw [Prog.run_bind, Prog.run_bind, run_revenues, run_revenues]
  simp only [hsum]
  exact hk _ _ _

end Lists

section Details

/-- The outcome of `JobDetailsByID`. -/
theorem run_jobDetailsByID (r : JobListRequest) (s : Db) :
    ((jobDetailsByID r).run exec s).2 =
      if badId r.jobId then .ok { key := .jobidEmpty }
      else (jobById r.jobId).map fun p =>
        { key := .success, result := some (.details ((s.jobs.findOne p).map (detailsOf s))) } := by
  unfold jobDetailsByID checked
  simp only [refusal]
  cases badId r.jobId with
  | true => rfl
  | false =>
    cases jobById r.jobId with
    | error e => rfl
    | ok p => rfl

/-- Only `null` casts to no id. -/
theorem castObjectId_isSome {v : Json} {a : Option ObjectId} (hv : v ≠ .null)
    (h : castObjectId v = .ok a) : ∃ i, a = some i := by
  have hstring : ∀ {t : String}, castObjectIdString t = .ok a → ∃ i, a = some i := by
    intro t ht
    obtain ⟨i, -, ha⟩ := castObjectIdString_eq_ok ht
    exact ⟨i, ha⟩
  have hplain : ∀ {kvs : List (String × Json)}, castObjectIdPlain kvs = .ok a →
      ∃ i, a = some i := by
    intro kvs ht
    unfold castObjectIdPlain at ht
    split at ht
    · split at ht
      · exact ⟨_, (Except.ok.inj ht).symm⟩
      · cases ht
    · exact hstring ht
  cases v with
  | null => exact absurd rfl hv
  | bool b | num m e | str t | arr vs => exact hstring h
  | obj kvs =>
    simp only [castObjectId] at h
    split at h
    · split at h
      · exact hstring h
      · exact hplain h
    · exact hplain h

/-- A valid job id selects the jobs of one id. -/
theorem jobById_valid {v : Option Json} {p : Job → Bool} (hv : badId v = false)
    (hp : jobById v = .ok p) : ∃ i, ∀ j, p j = decide (j.id = i) := by
  have hvalid : ObjectId.isValid v = true := by
    simp only [badId, Bool.or_eq_false_iff, Bool.not_eq_false'] at hv
    exact hv.2
  obtain ⟨q, hq, rfl⟩ := map_eq_ok hp
  obtain ⟨w, a, rfl, ha, rfl⟩ := castForQuery_of_isValid hvalid hq
  have hnull : w ≠ .null := by
    rintro rfl
    cases hvalid
  obtain ⟨i, rfl⟩ := castObjectId_isSome hnull ha
  exact ⟨i, fun j => by simp⟩

/-- There are jobs of any id to which the caller is no party. -/
theorem exists_foreign_job (c : Caller) (i : ObjectId) :
    ∃ j : Job, j.id = i ∧ isParty c j = false := by
  have hsome : ((runFrom serve sampleDb [sampleBooking]).jobs.get? (idOf "job-------01")).isSome =
      true := by decide +kernel
  obtain ⟨j, -⟩ := Option.isSome_iff_exists.mp hsome
  let other : ObjectId := ⟨c.userId.bits+1⟩
  have hother : other ≠ c.userId := by
    intro h
    have hbits : c.userId.bits+1 = c.userId.bits := congrArg ObjectId.bits h
    exact absurd hbits (by bv_omega)
  exact ⟨{ j with id := i, userId := other, providerData := other, workerData := none }, rfl,
    by simp [isParty, hother]⟩

def ownOnly (c : Caller) (jobs : Collection Job.id) : Collection Job.id :=
  ⟨jobs.find (isParty c), jobs.nodup.sublist (List.filter_sublist.map _)⟩

theorem agreeOnOwn_ownOnly (c : Caller) (jobs : Collection Job.id) :
    AgreeOnOwn c jobs (ownOnly c jobs) := by
  simp [AgreeOnOwn, Collection.find, ownOnly]

/-- A foreign job of a free id can be there as well. -/
theorem exists_with_foreign (c : Caller) (jobs : Collection Job.id) (i : ObjectId)
    (hfree : ∀ j ∈ jobs.docs, isParty c j = true → j.id ≠ i) :
    ∃ jobs', AgreeOnOwn c jobs jobs' ∧ ∃ j ∈ jobs'.docs, j.id = i := by
  obtain ⟨j, hid, hforeign⟩ := exists_foreign_job c i
  have hnew : j.id ∉ (ownOnly c jobs).docs.map Job.id := by
    rw [hid]
    intro hmem
    obtain ⟨j', hj', hid'⟩ := List.mem_map.mp hmem
    obtain ⟨hmem', hown⟩ := List.mem_filter.mp hj'
    exact hfree j' hmem' hown hid'
  refine ⟨⟨j :: (ownOnly c jobs).docs, ?_⟩, ?_, j, List.mem_cons_self, hid⟩
  · rw [List.map_cons]
    exact List.nodup_cons.mpr ⟨hnew, (ownOnly c jobs).nodup⟩
  · unfold AgreeOnOwn Collection.find
    rw [List.filter_cons_of_neg (by rw [hforeign]; exact Bool.false_ne_true)]
    exact agreeOnOwn_ownOnly c jobs

end Details

section Scoped

/-- What the answers to a list request are read off. -/
theorem answerCall_list_congr {r : JobListRequest} {s t : Db}
    (h : (r.handle.run exec t).2 = (r.handle.run exec s).2) :
    answerCall t (.list r) = answerCall s (.list r) := by
  unfold answerCall JobCall.program
  simp only [Prog.run_catchAll, h]

/-- The answer to a request for the details of a job. -/
theorem answerCall_details {r : JobListRequest} {p : Job → Bool}
    (hr : r.handler = .jobDetailsByID) (hv : badId r.jobId = false) (hp : jobById r.jobId = .ok p)
    (s : Db) : answerCall s (.list r) =
      { key := .success, result := some (.details ((s.jobs.findOne p).map (detailsOf s))) } := by
  have hhandle : r.handle = jobDetailsByID r := by
    unfold JobListRequest.handle
    rw [hr]
  have hrun := run_jobDetailsByID r s
  rw [hv, hp] at hrun
  simp only [answerCall, JobCall.program, Prog.run_catchAll, hhandle, hrun]
  rfl

/-- A request that does not ask for the details of a foreign job is answered from the own jobs. -/
theorem run_handle_of_agreeOnOwn {r : JobListRequest} {s : Db} {jobs : Collection Job.id}
    (hr : asksBeyondOwn s r = false) (h : AgreeOnOwn r.caller s.jobs jobs) :
    (r.handle.run exec { s with jobs := jobs }).2 = (r.handle.run exec s).2 := by
  have hstatus : ∀ {own : Job → Bool}, (∀ j, own j = true → isParty r.caller j = true) →
      ∀ p, ((statusSearch r).map fun q j => own j && q j.jobStatus) = .ok p →
        ∀ j, p j = true → isParty r.caller j = true := by
    intro own hown p hp j hj
    obtain ⟨q, -, rfl⟩ := map_eq_ok hp
    exact hown j (Bool.and_eq_true _ _ ▸ hj).1
  unfold JobListRequest.handle
  cases hh : r.handler with
  | assignJobListByProviderID =>
    exact run_getData_congr h (hstatus fun j hj => by simp [isParty, of_decide_eq_true hj]) _ _
  | jobListByWorkerID =>
    exact run_getData_congr h (hstatus fun j hj => by simp [isParty, of_decide_eq_true hj]) _ _
  | jobListByUserID =>
    refine run_getData_congr h (fun p hp j hj => ?_) _ _
    rw [← Except.ok.inj hp] at hj
    simp [isParty, of_decide_eq_true hj]
  | jobTransactionHistory =>
    refine run_getList_congr h (fun j hj => ?_) _
    rw [Bool.and_eq_true] at hj
    exact isParty_of_ownJobs hj.1
  | getDailyRevenue | getMonthlyRevenue =>
    exact run_revenues_congr h _ (fun j hj => isParty_of_ownJobs hj) r.periods _ fun _ _ _ => rfl
  | jobDetailsByID =>
    dsimp only
    rw [run_jobDetailsByID, run_jobDetailsByID]
    cases hv : badId r.jobId with
    | true => rfl
    | false =>
      cases hp : jobById r.jobId with
      | error e => rfl
      | ok p =>
        -- The id is the id of an own job, which both collections hold.
        simp only [asksBeyondOwn, hh, hv, hp, decide_true, Bool.not_false, Bool.true_and,
          List.all_eq_false, Bool.not_eq_true', Bool.not_eq_false, Bool.and_eq_true] at hr
        obtain ⟨j, hj, hpj, hown⟩ := hr
        have hone : jobs.findOne p = s.jobs.findOne p :=
          findOne_of_agreeOnOwn h (fun _ _ => jobById_injective hv hp) hj hpj hown
        simp only [Bool.false_eq_true, if_false, Except.map, hone]
        rfl

/-- The answer depends on the caller's own jobs only, exactly when the request does not ask for
the details of a job by an id that none of them has. -/
theorem readsOwnJobsOnly_iff (s : Db) (r : JobListRequest) :
    ReadsOwnJobsOnly s r ↔ asksBeyondOwn s r = false := by
  constructor
  · intro h
    by_contra hasks
    have hasks' := Bool.eq_true_of_not_eq_false hasks
    simp only [asksBeyondOwn, Bool.and_eq_true, decide_eq_true_eq, Bool.not_eq_true'] at hasks'
    obtain ⟨⟨hr, hv⟩, hfree⟩ := hasks'
    cases hp : jobById r.jobId with
    | error e =>
      rw [hp] at hfree
      cases hfree
    | ok p =>
      rw [hp] at hfree
      have hfree' := List.all_eq_true.mp hfree
      obtain ⟨i, hi⟩ := jobById_valid hv hp
      have hnone : ∀ j ∈ s.jobs.docs, isParty r.caller j = true → j.id ≠ i := by
        intro j hj hown hid
        have hfj := hfree' j hj
        rw [hown, hi j, hid] at hfj
        simp at hfj
      -- With the own jobs alone nothing is found, with a foreign job it is.
      obtain ⟨jobs', hagree, j, hj, hid⟩ := exists_with_foreign r.caller s.jobs i hnone
      have hsame := (h _ (agreeOnOwn_ownOnly r.caller s.jobs)).trans (h _ hagree).symm
      rw [answerCall_details hr hv hp, answerCall_details hr hv hp] at hsame
      obtain ⟨j', hj'⟩ := Collection.exists_findOne hj (p := p) (by rw [hi, hid]; simp)
      have hmiss : (ownOnly r.caller s.jobs).findOne p = none := by
        refine List.find?_eq_none.mpr fun j hj => ?_
        obtain ⟨hmem, hown⟩ := List.mem_filter.mp hj
        simp [hi, hnone j hmem hown]
      simp [hmiss, hj'] at hsame
  · intro hr jobs h
    exact answerCall_list_congr (run_handle_of_agreeOnOwn hr h)

def sampleDetails (c : Caller) : JobListRequest where
  handler := .jobDetailsByID
  caller := c
  jobId := some (.str "job-------01")
  regex := fun _ _ => none

def showsDetails (a : JobResponse) : Bool :=
  match a.result with
  | some (.details (some _)) => true
  | _ => false

/-- An account that has nothing to do with the booked job reads its details. -/
theorem stranger_reads_details :
    ¬ ReadsOwnJobsOnly (runFrom serve sampleDb [sampleBooking]) (sampleDetails stranger) := by
  intro h
  have hempty : AgreeOnOwn stranger (runFrom serve sampleDb [sampleBooking]).jobs (.empty _) :=
    List.eq_nil_of_length_eq_zero (by decide +kernel)
  have hshown : showsDetails (answerCall (runFrom serve sampleDb [sampleBooking])
      (.list (sampleDetails stranger))) = true := by decide +kernel
  have hhidden : showsDetails (answerCall
      { runFrom serve sampleDb [sampleBooking] with jobs := .empty _ }
      (.list (sampleDetails stranger))) = false := by decide +kernel
  rw [h _ hempty, hshown] at hhidden
  cases hhidden

end Scoped

end DoQwik
