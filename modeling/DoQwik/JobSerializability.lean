import DoQwik.Exclusion
import DoQwik.JobIndependence

/-! Requests on the same job. The handlers read a job and write it back in two steps, so requests
on one job can get in each other's way; but that is the only way. If requests on the same job wait
for each other, then all requests together are served as though one at a time. -/
namespace DoQwik
open JsValues DocStore Interleave

section Orders

variable {s : Db} {calls : List (JobRequest × ObjectId)}

def jobOf (calls : List (JobRequest × ObjectId)) (i : ℕ) : ObjectId :=
  ((calls[i]?).map Prod.snd).getD ⟨0⟩

def servedInOrder (s : Db) (calls : List (JobRequest × ObjectId)) (order : List ℕ) : Db :=
  runFrom serve s ((order.filterMap fun i => calls[i]?).map Prod.fst)

/-- The run of a schedule compared with the requests served one at a time, in one order: each
answer is the one that the request gets after those before it, and the database is the one that
all of them leave, up to the order of the notices. -/
structure SerializedBy (s : Db) (calls : List (JobRequest × ObjectId)) (c : JobPool)
    (order : List ℕ) : Prop where
  perm : order.Perm (List.range calls.length)
  answers : ∀ pre i post x, order = pre ++ i :: post → calls[i]? = some x →
    c.threads[i]? = some (.done (answer (servedInOrder s calls pre) x.1))
  state : SameUpToNoticeOrder c.state (servedInOrder s calls order)

theorem serial_start (s : Db) (calls : List (JobRequest × ObjectId)) (order : List ℕ) :
    serial exec s (JobPool.start s (calls.map Prod.fst)).threads order =
      servedInOrder s calls order := by
  unfold serial servedInOrder
  rw [runFrom_serve, List.map_map, List.map_filterMap]
  congr 1
  refine List.filterMap_congr fun i _ => ?_
  rw [getElem?_start]
  rfl

/-- Each request is confined to the job that it names. -/
theorem allConfined_start
    (hnames : ∀ x ∈ calls, x.1.handler ≠ .assignJob ∧ x.1.NamesOnly x.2) :
    AllConfined exec jobView (jobOf calls) (JobPool.start s (calls.map Prod.fst)).threads := by
  intro i p hp
  rw [getElem?_start] at hp
  obtain ⟨x, hx, rfl⟩ := Option.map_eq_some_iff.mp hp
  have hjob : jobOf calls i = x.2 := by
    unfold jobOf
    rw [hx]
    rfl
  obtain ⟨hhandler, hnamed⟩ := hnames x (List.mem_of_getElem? hx)
  rw [hjob]
  exact (issues_program hhandler hnamed).imp fun op hop =>
    ⟨onJob_acts hop, fun l hl => onJob_leaves (Ne.symm hl) hop⟩

/-- If requests on the same job wait for each other, every interleaving in which all requests are
answered is one of the requests served one at a time, in the order in which they end. -/
theorem job_requests_serializable (s : Db) (calls : List (JobRequest × ObjectId))
    (hnames : ∀ x ∈ calls, x.1.handler ≠ .assignJob ∧ x.1.NamesOnly x.2) (sched : List ℕ)
    (hturns : TakeTurns exec (jobOf calls) (JobPool.start s (calls.map Prod.fst)) sched)
    (hdone : (runFrom JobPool.step (JobPool.start s (calls.map Prod.fst)) sched).finished = true) :
    SerializedBy s calls (runFrom JobPool.step (JobPool.start s (calls.map Prod.fst)) sched)
      (runFrom (Trace.stepAt exec) (Trace.start (JobPool.start s (calls.map Prod.fst)))
        sched).ended := by
  have hinTurn := inTurn_run (allConfined_start (s := s) hnames) hturns
  have hpool : (runFrom (Trace.stepAt exec) (Trace.start (JobPool.start s (calls.map Prod.fst)))
      sched).pool = runFrom JobPool.step (JobPool.start s (calls.map Prod.fst)) sched :=
    pool_runFrom exec _ sched
  generalize runFrom (Trace.stepAt exec) (Trace.start (JobPool.start s (calls.map Prod.fst)))
    sched = t at hinTurn hpool ⊢
  rw [← hpool] at hdone
  have hframe : jobFrame t.pool.state = jobFrame (servedInOrder s calls t.ended) := by
    have hleaves : ∀ x ∈ calls, x.1.program.Issues exec (LeavesView exec jobFrame) := fun x hx =>
      (issues_program (hnames x hx).1 (hnames x hx).2).imp fun _ => onJob_frame
    rw [hpool, keeps_pool hleaves]
    refine (keeps_inTurn fun x hx => ?_).symm
    obtain ⟨i, -, hi⟩ := List.mem_filterMap.mp hx
    exact hleaves x (List.mem_of_getElem? hi)
  rw [← hpool]
  constructor
  · have hperm := hinTurn.perm_ended hdone
    rwa [show (JobPool.start s (calls.map Prod.fst)).threads.length = calls.length by
      simp [JobPool.start]] at hperm
  · intro pre i post x hsplit hx
    have hthread : (JobPool.start s (calls.map Prod.fst)).threads[i]? = some x.1.program := by
      rw [getElem?_start, hx, Option.map_some]
    have hanswer := hinTurn.answers pre i post _ hsplit hthread
    rwa [show (JobPool.start s (calls.map Prod.fst)).state = s from rfl, serial_start,
      run_program] at hanswer
  · refine sameUpToNoticeOrder_of_views (fun k => ?_) hframe
    have hview := hinTurn.view_finished hdone k
    rwa [show (JobPool.start s (calls.map Prod.fst)).state = s from rfl, serial_start] at hview

def acceptThenReject : List (JobRequest × ObjectId) :=
  acceptAndReject ++
    [({ onSampleJob .jobReject company 5 with
        body := { jobId := some (.str "job-------01"), rejectReason := some (.str "ill") } },
      idOf "job-------01")]

/-- The third request begins when the first one has ended; the second one is under way all the
time. -/
theorem accept_then_reject_serialized :
    SerializedBy twoJobsDb acceptThenReject
      (runFrom JobPool.step (JobPool.start twoJobsDb (acceptThenReject.map Prod.fst))
        [1, 0, 0, 0, 0, 2, 2, 2, 1, 1])
      [0, 2, 1] := by
  have hnames : ∀ x ∈ acceptThenReject, x.1.handler ≠ .assignJob ∧ x.1.NamesOnly x.2 := by
    intro x hx
    simp only [acceptThenReject, acceptAndReject, List.cons_append, List.nil_append,
      List.mem_cons, List.not_mem_nil, or_false] at hx
    rcases hx with rfl | rfl | rfl
    · exact ⟨by decide,
        JobRequest.namesOnly_of_string (v := "job-------01") rfl (by decide +kernel)⟩
    · exact ⟨by decide,
        JobRequest.namesOnly_of_string (v := "job-------02") rfl (by decide +kernel)⟩
    · exact ⟨by decide,
        JobRequest.namesOnly_of_string (v := "job-------01") rfl (by decide +kernel)⟩
  have horder : (runFrom (Trace.stepAt exec)
      (Trace.start (JobPool.start twoJobsDb (acceptThenReject.map Prod.fst)))
      [1, 0, 0, 0, 0, 2, 2, 2, 1, 1]).ended = [0, 2, 1] := by decide +kernel
  rw [← horder]
  exact job_requests_serializable twoJobsDb acceptThenReject hnames _ (by decide +kernel)
    (by decide +kernel)

end Orders

end DoQwik
