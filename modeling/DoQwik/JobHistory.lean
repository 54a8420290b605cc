import DoQwik.JobLifecycle

/-! What happened to a job before its work starts. `jobStart` refuses a job that is still
`Processing`; all other statuses pass for an accepted one. -/
namespace DoQwik
open JsValues DocStore Interleave

/-- The request gets through to the update of the job. -/
def succeedsOn (s : Db) (r : JobRequest) (id : ObjectId) : Bool := (r.written s).any (·.id = id)

/-- The handlers that end what an acceptance began. -/
def JobHandler.withdraws : JobHandler → Bool
  | .jobReject => true
  | .userCancelJob => true
  | .jobFinish => true
  | .assignJobToWorker => true
  | _ => false

/-- The request is neither an acceptance of the job nor the end of one. -/
def keepsAcceptance (id : ObjectId) (s : Db) (r : JobRequest) : Prop :=
  r.handler = .jobAccept ∨ r.handler.withdraws = true → succeedsOn s r id = false

/-- In the run `rs` from `s`, `jobAccept` succeeded on the job, and since its last success none
of `jobReject`, `user_cancel_job`, `jobFinish` and `assignJobToWorker` did. -/
def AcceptedLast (s : Db) (rs : List JobRequest) (id : ObjectId) : Prop :=
  ∃ pre a since, rs = pre ++ a :: since ∧ a.handler = .jobAccept ∧
    succeedsOn (runFrom serve s pre) a id = true ∧
    Along serve (keepsAcceptance id) (runFrom serve s (pre ++ [a])) since

/-- Every `jobStart` of the run that succeeds on a job finds it accepted. -/
def StartsAccepted (s : Db) (rs : List JobRequest) : Prop :=
  ∀ pre r post, rs = pre ++ r :: post → r.handler = .jobStart → ∀ id,
    succeedsOn (runFrom serve s pre) r id = true → AcceptedLast s pre id

/-- The statuses that an acceptance leads to as long as nothing ends it. -/
def JobStatus.underWay : JobStatus → Bool
  | .accept => true
  | .start => true
  | _ => false

/-- A `jobStart` that gets through to a job that is assigned, rejected or completed. -/
def startsUnaccepted (s : Db) (r : JobRequest) : Bool :=
  r.handler = .jobStart && (r.written s).any fun j => !j.jobStatus.underWay

def UnderWay (id : ObjectId) (s : Db) : Prop :=
  ∃ j, s.jobs.get? id = some j ∧ j.jobStatus.underWay = true

section Status

/-- The job after a request that got through to it has the status that the handler writes. -/
theorem get?_serve_status {s : Db} {r : JobRequest} {j : Job} (h : r.written s = some j) :
    ∃ j', (serve s r).jobs.get? j.id = some j' ∧
      j'.jobStatus = r.handler.sets.getD j.jobStatus := by
  obtain ⟨w, hw, hfind⟩ := Option.bind_eq_some_iff.mp h
  obtain ⟨-, p, j₁, -, -, hplan, -⟩ := write_eq_some hw
  refine ⟨_, get?_serve_written (written_assignJob h) hw hfind, ?_⟩
  rw [JobSet.apply_jobStatus, (plan_follows_machine hplan).2]

theorem succeedsOn_iff {s : Db} {r : JobRequest} {id : ObjectId} :
    succeedsOn s r id = true ↔ ∃ j, r.written s = some j ∧ j.id = id := by
  simp [succeedsOn, Option.any_eq_true]

/-- A successful acceptance sets the job under way. -/
theorem underWay_of_accept {s : Db} {r : JobRequest} {id : ObjectId} (hr : r.handler = .jobAccept)
    (h : succeedsOn s r id = true) : UnderWay id (serve s r) := by
  obtain ⟨j, hj, rfl⟩ := succeedsOn_iff.mp h
  obtain ⟨j', hj', hs⟩ := get?_serve_status hj
  refine ⟨j', hj', ?_⟩
  rw [hs, hr]
  rfl

/-- What is no end of the acceptance leaves the job under way. -/
theorem underWay_serve {s : Db} {r : JobRequest} {id : ObjectId} (h : UnderWay id s)
    (hr : keepsAcceptance id s r) : UnderWay id (serve s r) := by
  obtain ⟨j, hj, hs⟩ := h
  have hid : j.id = id := ((s.jobs.get?_eq_some_iff id j).mp hj).2
  by_cases hw : r.written s = some j
  · obtain ⟨j', hj', hs'⟩ := get?_serve_status hw
    refine ⟨j', hid ▸ hj', ?_⟩
    have hsucc : succeedsOn s r id = true := succeedsOn_iff.mpr ⟨j, hw, hid⟩
    have hkeep : ¬ (r.handler = .jobAccept ∨ r.handler.withdraws = true) := by
      intro hc
      rw [hr hc] at hsucc
      cases hsucc
    rw [hs']
    cases hh : r.handler <;> rw [hh] at hkeep <;>
      first | exact hs | rfl | exact absurd (by decide) hkeep
  · exact ⟨j, get?_serve_of_not_written hj hw, hs⟩

/-- An acceptance that nothing ended leaves the job under way. -/
theorem underWay_of_acceptedLast {s : Db} {rs : List JobRequest} {id : ObjectId}
    (h : AcceptedLast s rs id) : UnderWay id (runFrom serve s rs) := by
  obtain ⟨pre, a, since, rfl, ha, hsucc, hsince⟩ := h
  have happend : pre ++ a :: since = (pre ++ [a]) ++ since := by simp
  rw [happend, runFrom_append]
  refine invariant_runFrom (fun t r ht hr => underWay_serve ht hr) ?_ hsince
  rw [runFrom_append, runFrom_cons, runFrom_nil]
  exact underWay_of_accept ha hsucc

end Status

section History

/-- Another request that does not touch the acceptance prolongs the history. -/
theorem AcceptedLast.append {s : Db} {rs : List JobRequest} {r : JobRequest} {id : ObjectId}
    (h : AcceptedLast s rs id) (hr : keepsAcceptance id (runFrom serve s rs) r) :
    AcceptedLast s (rs ++ [r]) id := by
  obtain ⟨pre, a, since, rfl, ha, hsucc, hsince⟩ := h
  refine ⟨pre, a, since ++ [r], by simp, ha, hsucc, ?_⟩
  rw [along_append]
  refine ⟨hsince, ?_, trivial⟩
  rw [← runFrom_append]
  simpa using hr

/-- Without an unaccepted start, a job that is under way was accepted last. -/
theorem acceptedLast_of_underWay {s : Db} {rs : List JobRequest} (hs : s.jobs.docs = [])
    (h : Along serve (fun t r => startsUnaccepted t r = false) s rs) {id : ObjectId} {j : Job}
    (hj : (runFrom serve s rs).jobs.get? id = some j) (hway : j.jobStatus.underWay = true) :
    AcceptedLast s rs id := by
  induction rs using List.reverseRecOn generalizing j with
  | nil =>
    have hmem := (Collection.mem_of_findOne hj).1
    rw [runFrom_nil, hs] at hmem
    cases hmem
  | append_singleton rs r ih =>
    rw [along_append] at h
    obtain ⟨hrs, hr, -⟩ := h
    rw [runFrom_append, runFrom_cons, runFrom_nil] at hj
    rcases get?_serve_cases hj with ⟨w, j₀, hw, hfind, hid, rfl⟩ | ⟨hold, hnot⟩ | ⟨k, hk, -⟩
    · -- The request wrote to the job: the status tells which handler it was.
      have hwritten : r.written (runFrom serve s rs) = some j₀ := by
        simp only [JobRequest.written, hw, Option.bind_some, hfind]
      have hold : (runFrom serve s rs).jobs.get? id = some j₀ :=
        hid ▸ Collection.get?_of_findOne hfind
      obtain ⟨-, p, j₁, -, -, hplan, -⟩ := write_eq_some hw
      rw [JobSet.apply_jobStatus, (plan_follows_machine hplan).2] at hway
      have hprolong : j₀.jobStatus.underWay = true →
          ¬ (r.handler = .jobAccept ∨ r.handler.withdraws = true) → AcceptedLast s (rs ++ [r]) id :=
        fun hway₀ hkeep => (ih hrs hold hway₀).append fun hc => absurd hc hkeep
      cases hh : r.handler with
      | jobAccept =>
        exact ⟨rs, r, [], rfl, hh, succeedsOn_iff.mpr ⟨j₀, hwritten, hid⟩, trivial⟩
      | jobStart =>
        apply hprolong
        · simpa [startsUnaccepted, hh, hwritten] using hr
        · rw [hh]
          decide
      | assignJobToWorker | jobReject | userCancelJob | jobFinish =>
        rw [hh] at hway
        cases hway
      | assignJob => exact absurd hh (written_assignJob hwritten)
      | _ =>
        rw [hh] at hway
        exact hprolong hway (by rw [hh]; decide)
    · -- The request left the job alone, so that it neither accepted nor withdrew it.
      refine (ih hrs hold hway).append fun _ => ?_
      rw [Bool.eq_false_iff, ne_eq, succeedsOn_iff]
      rintro ⟨j₁, hj₁, hid⟩
      exact hnot j₁ hj₁ hid
    · -- A new job is not under way.
      rw [(newJob_fresh hk.new).jobStatus] at hway
      cases hway

/-- Over a run from a database without jobs, work starts only on accepted jobs exactly when no
`jobStart` gets through to a job that is assigned, rejected or completed. -/
theorem startsAccepted_iff (s : Db) (rs : List JobRequest) :
    StartsAccepted { s with jobs := .empty _ } rs ↔
      Along serve (fun t r => startsUnaccepted t r = false) { s with jobs := .empty _ } rs := by
  constructor
  · intro h
    rw [along_iff_split]
    intro pre r post hrs
    by_contra hr
    have hr' := Bool.eq_true_of_not_eq_false hr
    simp only [startsUnaccepted, Bool.and_eq_true, decide_eq_true_eq, Option.any_eq_true,
      Bool.not_eq_true'] at hr'
    obtain ⟨hh, j, hj, hway⟩ := hr'
    obtain ⟨j', hj', hway'⟩ := underWay_of_acceptedLast
      (h pre r post hrs hh j.id (succeedsOn_iff.mpr ⟨j, hj, rfl⟩))
    obtain ⟨w, -, hfind⟩ := Option.bind_eq_some_iff.mp hj
    rw [Collection.get?_of_findOne hfind, Option.some.injEq] at hj'
    rw [hj', hway'] at hway
    cases hway
  · intro h pre r post hrs hh id hsucc
    obtain ⟨j, hj, rfl⟩ := succeedsOn_iff.mp hsucc
    rw [hrs, along_append] at h
    obtain ⟨w, -, hfind⟩ := Option.bind_eq_some_iff.mp hj
    refine acceptedLast_of_underWay rfl h.1 (Collection.get?_of_findOne hfind) ?_
    simpa [startsUnaccepted, hh, hj] using h.2.1

/-- The booked job is assigned to a worker and started: nobody accepted it. -/
theorem assigned_job_started :
    ¬ StartsAccepted { sampleDb with jobs := .empty _ }
      [sampleBooking, onSampleJob .assignJobToWorker company 2,
        onSampleJob .jobStart company 3] := by
  intro h
  obtain ⟨pre, a, since, hrs, ha, -, -⟩ := h
    [sampleBooking, onSampleJob .assignJobToWorker company 2] (onSampleJob .jobStart company 3) []
    rfl rfl (idOf "job-------01") (by decide +kernel)
  have hmem : a ∈ [sampleBooking, onSampleJob .assignJobToWorker company 2] := by
    rw [hrs]
    simp
  simp only [List.mem_cons, List.not_mem_nil, or_false] at hmem
  rcases hmem with rfl | rfl
  · cases ha
  · cases ha

end History

end DoQwik
