import DoQwik.Footprints
import DoQwik.JobBookings
import DoQwik.JobParties
import DoQwik.JobPrograms

/-! Requests on different jobs do not get in each other's way. A request that names one job
reads that job, the providers and the addresses, and writes that job and its notices; so the
requests of a pool that name different jobs are answered as though each were alone, and leave
what any order of them leaves. -/
namespace DoQwik
open JsValues DocStore Interleave

/-- The condition that the request puts on the id selects no job but `k`. -/
def JobRequest.NamesOnly (r : JobRequest) (k : ObjectId) : Prop :=
  ∀ p j, jobById r.target = .ok p → p j = true → j.id = k

/-- A string names the job that it is the id of. -/
theorem JobRequest.namesOnly_of_string {r : JobRequest} {v : String} {k : ObjectId}
    (hr : r.target = some (.str v)) (hv : ObjectId.ofString v = some k) : r.NamesOnly k := by
  intro p j hp hj
  rw [hr] at hp
  have hid := jobById_string hp hj
  rw [hv] at hid
  exact (Option.some.inj hid).symm

section Views

/-- What a request on the job `k` can see, and the notices about the job. -/
def jobView (k : ObjectId) (s : Db) :
    Option Job × List Notice × Collection Provider.id × Collection Address.id :=
  (s.jobs.get? k, s.notices.filter fun n => n.job = k, s.providers, s.addresses)

/-- What no request on a job changes: which jobs there are, and all other collections. -/
def jobFrame (s : Db) : List ObjectId × Db :=
  (s.jobs.docs.map Job.id, { s with jobs := .empty _, notices := [] })

def OnJob (k : ObjectId) : DbOp → Prop
  | .read f => ∀ s t, jobView k s = jobView k t → f s = f t
  | .updateJob sel _ _ => ∀ j, sel j = true → j.id = k
  | .notify n => n.job = k
  | _ => False

/-- The databases differ in the order of the notices at most. -/
structure SameUpToNoticeOrder (s t : Db) : Prop where
  rest : { s with notices := [] } = { t with notices := [] }
  notices : s.notices.Perm t.notices

variable {k l : ObjectId} {s t : Db}

theorem jobView_eq_iff : jobView k s = jobView k t ↔
    s.jobs.get? k = t.jobs.get? k ∧
      (s.notices.filter fun n => n.job = k) = (t.notices.filter fun n => n.job = k) ∧
      s.providers = t.providers ∧ s.addresses = t.addresses := by
  simp only [jobView, Prod.mk.injEq]

theorem onJob_acts {op : DbOp} (h : OnJob k op) : ActsWithin exec (jobView k) op := by
  intro s t hst
  obtain ⟨hjob, hnotices, hproviders, haddresses⟩ := jobView_eq_iff.mp hst
  cases op with
  | read f => exact ⟨h s t hst, hst⟩
  | notify n =>
    refine ⟨rfl, jobView_eq_iff.mpr ⟨hjob, ?_, hproviders, haddresses⟩⟩
    change (s.notices ++ [n]).filter _ = (t.notices ++ [n]).filter _
    rw [List.filter_append, List.filter_append, hnotices]
  | updateJob sel d now =>
    have hfind : s.jobs.findOne sel = t.jobs.findOne sel := by
      rw [s.jobs.findOne_of_key h, t.jobs.findOne_of_key h, hjob]
    refine ⟨congrArg (Option.map (d.apply now)) hfind,
      jobView_eq_iff.mpr ⟨?_, hnotices, hproviders, haddresses⟩⟩
    rw [exec_updateJob_jobs, exec_updateJob_jobs, Collection.get?_updateOne,
      Collection.get?_updateOne, hfind, hjob]
  | _ => cases h

theorem onJob_leaves (hkl : k ≠ l) {op : DbOp} (h : OnJob k op) :
    LeavesView exec (jobView l) op := by
  intro s
  cases op with
  | read f => rfl
  | notify n =>
    refine jobView_eq_iff.mpr ⟨rfl, ?_, rfl, rfl⟩
    have hn : n.job ≠ l := fun hl => hkl (h.symm.trans hl)
    change (s.notices ++ [n]).filter _ = _
    simp [List.filter_append, hn]
  | updateJob sel d now =>
    refine jobView_eq_iff.mpr ⟨?_, rfl, rfl, rfl⟩
    rw [exec_updateJob_jobs, Collection.get?_updateOne]
    cases hfind : s.jobs.findOne sel with
    | none => simp
    | some j =>
      have hj : j.id = k := h j (Collection.mem_of_findOne hfind).2
      simp [hj, hkl]
  | _ => cases h

theorem onJob_frame {op : DbOp} (h : OnJob k op) : LeavesView exec jobFrame op := by
  intro s
  cases op with
  | read f => rfl
  | notify n => rfl
  | updateJob sel d now =>
    have hids := map_key_updateFirst Job.id sel (d.apply now) (d.apply_id now) s.jobs.docs
    exact Prod.ext hids rfl
  | _ => cases h

/-- The views of all jobs and the frame determine the database up to the order of notices. -/
theorem sameUpToNoticeOrder_of_views (hviews : ∀ k, jobView k s = jobView k t)
    (hframe : jobFrame s = jobFrame t) : SameUpToNoticeOrder s t := by
  obtain ⟨hids, hrest⟩ := Prod.ext_iff.mp hframe
  have hjobs : s.jobs = t.jobs :=
    Collection.ext_get? hids fun k => (jobView_eq_iff.mp (hviews k)).1
  constructor
  · have hs : { s with notices := [] } = { (jobFrame s).2 with jobs := s.jobs } := rfl
    have ht : { t with notices := [] } = { (jobFrame t).2 with jobs := t.jobs } := rfl
    rw [hs, ht, hrest, hjobs]
  · rw [List.perm_iff_count]
    intro n
    have hsame := (jobView_eq_iff.mp (hviews n.job)).2.1
    have hcount (ns : List Notice) :
        (ns.filter fun m => m.job = n.job).count n = ns.count n :=
      List.count_filter (decide_eq_true rfl)
    rw [← hcount s.notices, ← hcount t.notices, hsame]

end Views

section Requests

variable {k : ObjectId} {r : JobRequest}

theorem onJob_read_job {p : Job → Bool} (hp : ∀ j, p j = true → j.id = k) :
    OnJob k (.read fun s => (s.jobs.findOne p).map (populate s)) := by
  intro s t hst
  obtain ⟨hjob, -, hproviders, haddresses⟩ := jobView_eq_iff.mp hst
  have hpopulate : populate s = populate t := by
    funext j
    simp only [populate, hproviders, haddresses]
  dsimp only
  rw [s.jobs.findOne_of_key hp, t.jobs.findOne_of_key hp, hjob, hpopulate]

/-- A request on the job `k` issues operations on the job `k` only. -/
theorem issues_program (hr : r.handler ≠ .assignJob) (hk : r.NamesOnly k) :
    r.program.Issues exec (OnJob k) := by
  refine Prog.Tracks.catchAll (fun _ _ _ => trivial) (tracks_handle hr ?_)
  -- What an update of the job `k` returns is the job `k`, and the notices are about it.
  have hupdate : ∀ sel : Job → Bool, (∀ j, sel j = true → j.id = k) → ∀ (d : JobSet) (t : Db),
      ∀ j ∈ (t.jobs.findOne sel).map (d.apply r.env.now), j.id = k := by
    intro sel hsel d t j hj
    obtain ⟨j₀, hfind, rfl⟩ := Option.map_eq_some_iff.mp hj
    rw [d.apply_id]
    exact hsel j₀ (Collection.mem_of_findOne hfind).2
  constructor
  · exact fun p hp _ => onJob_read_job fun j => hk p j hp
  · exact fun p _ s t hst => congrArg (fun c => Collection.count c p) (jobView_eq_iff.mp hst).2.2.1
  · exact fun p _ s t hst => congrArg (fun c => Collection.find c p) (jobView_eq_iff.mp hst).2.2.2
  · exact fun _ => trivial
  · trivial
  · intro p j d hp _ t
    have hsel : ∀ j, (p j && r.filter j) = true → j.id = k :=
      fun j hj => hk p j hp (Bool.and_elim_left hj)
    refine ⟨(), hsel, tracks_finish ?_ trivial fun _ _ => trivial⟩
    exact fun j hj _ _ => hupdate _ hsel d t j hj
  · exact fun _ p hp t => ⟨(), fun j => hk p j hp, trivial⟩

end Requests

section Pools

variable {s : Db} {calls : List (JobRequest × ObjectId)}

structure OnDistinctJobs (calls : List (JobRequest × ObjectId)) : Prop where
  names : ∀ x ∈ calls, x.1.handler ≠ .assignJob ∧ x.1.NamesOnly x.2
  distinct : (calls.map Prod.snd).Nodup

/-- The run of a schedule compared with the requests served one at a time. -/
structure AsThoughAlone (s : Db) (calls : List (JobRequest × ObjectId)) (c : JobPool) : Prop where
  answers : ∀ i x, calls[i]? = some x → c.nextOp i = none →
    c.threads[i]? = some (.done (answer s x.1))
  state : c.finished = true → ∀ order : List (JobRequest × ObjectId), order.Perm calls →
    SameUpToNoticeOrder c.state (runFrom serve s (order.map Prod.fst))

theorem OnDistinctJobs.perm {order : List (JobRequest × ObjectId)} (h : OnDistinctJobs calls)
    (hperm : order.Perm calls) : OnDistinctJobs order where
  names x hx := h.names x (hperm.mem_iff.mp hx)
  distinct := (hperm.map Prod.snd).nodup_iff.mpr h.distinct

/-- Each request acts within the view of its job. -/
theorem OnDistinctJobs.acts (h : OnDistinctJobs calls) {x : JobRequest × ObjectId}
    (hx : x ∈ calls) : x.1.program.Issues exec (ActsWithin exec (jobView x.2)) :=
  (issues_program (h.names x hx).1 (h.names x hx).2).imp fun _ => onJob_acts

/-- Each request leaves the views of the other jobs alone. -/
theorem OnDistinctJobs.leaves (h : OnDistinctJobs calls) {x : JobRequest × ObjectId}
    (hx : x ∈ calls) {k : ObjectId} (hk : x.2 ≠ k) :
    x.1.program.Issues exec (LeavesView exec (jobView k)) :=
  (issues_program (h.names x hx).1 (h.names x hx).2).imp fun _ => onJob_leaves hk

theorem OnDistinctJobs.frame (h : OnDistinctJobs calls) {x : JobRequest × ObjectId}
    (hx : x ∈ calls) : x.1.program.Issues exec (LeavesView exec jobFrame) :=
  (issues_program (h.names x hx).1 (h.names x hx).2).imp fun _ => onJob_frame

theorem getElem?_start (i : ℕ) : (JobPool.start s (calls.map Prod.fst)).threads[i]? =
    (calls[i]?).map fun x => x.1.program := by
  simp [JobPool.start, Function.comp_def]

/-- The thread of each request has the view of its job to itself. -/
theorem OnDistinctJobs.secluded (h : OnDistinctJobs calls) {i : ℕ} {x : JobRequest × ObjectId}
    (hx : calls[i]? = some x) :
    Secluded exec (jobView x.2) i (JobPool.start s (calls.map Prod.fst)) := by
  intro j p hp
  rw [getElem?_start] at hp
  obtain ⟨y, hy, rfl⟩ := Option.map_eq_some_iff.mp hp
  by_cases hij : j = i
  · rw [hij, hx] at hy
    cases hy
    simp only [hij, if_true]
    exact h.acts (List.mem_of_getElem? hx)
  · have hkeys : y.2 ≠ x.2 := by
      intro hyx
      have hi : (calls.map Prod.snd)[i]? = some x.2 := by simp [hx]
      have hj : (calls.map Prod.snd)[j]? = some x.2 := by simp [hy, hyx]
      have hlt := (List.getElem?_eq_some_iff.mp hj).1
      exact hij ((List.getElem?_inj hlt h.distinct).mp (hj.trans hi.symm))
    simp only [hij, if_false]
    exact h.leaves (List.mem_of_getElem? hy) hkeys

theorem runFrom_serve (s : Db) (rs : List JobRequest) :
    runFrom serve s rs = runInTurn exec s (rs.map JobRequest.program) := by
  simp only [runFrom, runInTurn, List.foldl_map]
  rfl

/-- What the requests in turn leave of the job that one of them names. -/
theorem OnDistinctJobs.view_inTurn (h : OnDistinctJobs calls) {x : JobRequest × ObjectId}
    (hx : x ∈ calls) :
    jobView x.2 (runFrom serve s (calls.map Prod.fst)) = jobView x.2 (serve s x.1) := by
  obtain ⟨before, after, rfl⟩ := List.append_of_mem hx
  have hothers : ∀ y ∈ before ++ after, y.2 ≠ x.2 := by
    have hnodup := h.distinct
    rw [List.map_append, List.map_cons, List.nodup_middle] at hnodup
    intro y hy hyx
    apply (List.nodup_cons.mp hnodup).1
    rw [← List.map_append, ← hyx]
    exact List.mem_map_of_mem hy
  rw [runFrom_serve, List.map_append, List.map_cons, List.map_append, List.map_cons]
  refine view_runInTurn_of_mem (h.acts hx) ?_ s
  intro q hq
  rw [← List.map_append, ← List.map_append] at hq
  obtain ⟨r, hr, rfl⟩ := List.mem_map.mp hq
  obtain ⟨y, hy, rfl⟩ := List.mem_map.mp hr
  have hmem : y ∈ before ++ x :: after := by
    simp only [List.mem_append, List.mem_cons] at hy ⊢
    tauto
  exact h.leaves hmem (hothers y hy)

/-- What the requests in turn leave of the rest. -/
theorem keeps_inTurn {γ : Type} {v : Db → γ}
    (hv : ∀ x ∈ calls, x.1.program.Issues exec (LeavesView exec v)) :
    v (runFrom serve s (calls.map Prod.fst)) = v s := by
  rw [runFrom_serve]
  refine view_runInTurn ?_ s
  intro q hq
  obtain ⟨r, hr, rfl⟩ := List.mem_map.mp hq
  obtain ⟨x, hx, rfl⟩ := List.mem_map.mp hr
  exact hv x hx

theorem keeps_pool {γ : Type} {v : Db → γ}
    (hv : ∀ x ∈ calls, x.1.program.Issues exec (LeavesView exec v)) (sched : List ℕ) :
    v (runFrom JobPool.step (JobPool.start s (calls.map Prod.fst)) sched).state = v s := by
  refine view_run_of_leaves (c := JobPool.start s (calls.map Prod.fst)) ?_ sched
  intro q hq
  obtain ⟨r, hr, rfl⟩ := List.mem_map.mp hq
  obtain ⟨x, hx, rfl⟩ := List.mem_map.mp hr
  exact hv x hx

/-- What the finished pool shows of a job is what the requests leave of it in any order. -/
theorem OnDistinctJobs.view_state (h : OnDistinctJobs calls) {sched : List ℕ}
    (hdone : (runFrom JobPool.step (JobPool.start s (calls.map Prod.fst)) sched).finished = true)
    {order : List (JobRequest × ObjectId)} (hperm : order.Perm calls) (k : ObjectId) :
    jobView k (runFrom JobPool.step (JobPool.start s (calls.map Prod.fst)) sched).state =
      jobView k (runFrom serve s (order.map Prod.fst)) := by
  have horder := h.perm hperm
  by_cases hk : k ∈ calls.map Prod.snd
  · obtain ⟨x, hx, rfl⟩ := List.mem_map.mp hk
    obtain ⟨i, hi⟩ := List.mem_iff_getElem?.mp hx
    have hthread : (JobPool.start s (calls.map Prod.fst)).threads[i]? = some x.1.program := by
      rw [getElem?_start, hi, Option.map_some]
    have hpool := ((h.secluded hi).ended hthread (Pool.finished_iff.mp hdone i)).2
    exact hpool.trans (horder.view_inTurn (hperm.mem_iff.mpr hx)).symm
  · -- Nobody names the job.
    have hleaves : ∀ x ∈ calls, x.1.program.Issues exec (LeavesView exec (jobView k)) := by
      intro x hx
      apply h.leaves hx
      rintro rfl
      exact hk (List.mem_map_of_mem hx)
    have hturn := keeps_inTurn (s := s) fun x hx => hleaves x (hperm.mem_iff.mp hx)
    exact (keeps_pool hleaves sched).trans hturn.symm

theorem run_program (s : Db) (r : JobRequest) :
    (r.program.run exec s).2 = .ok (answer s r) := by
  unfold answer JobRequest.program
  rw [Prog.run_catchAll]

/-- Requests on different jobs, in any interleaving: each of them is answered as though it were
alone, and once all are answered the database is what serving them one at a time in any order
leaves, up to the order of the notices. The pool can always be brought to that point. -/
theorem distinct_jobs_independent (s : Db) (calls : List (JobRequest × ObjectId))
    (h : OnDistinctJobs calls) (sched : List ℕ) :
    AsThoughAlone s calls (runFrom JobPool.step (JobPool.start s (calls.map Prod.fst)) sched) ∧
      ∃ more, (runFrom JobPool.step (JobPool.start s (calls.map Prod.fst))
        (sched ++ more)).finished = true := by
  constructor
  · constructor
    · intro i x hi hend
      have hthread : (JobPool.start s (calls.map Prod.fst)).threads[i]? = some x.1.program := by
        rw [getElem?_start, hi, Option.map_some]
      have hanswer := ((h.secluded hi).ended hthread hend).1
      rwa [show (JobPool.start s (calls.map Prod.fst)).state = s from rfl, run_program] at hanswer
    · intro hdone order hperm
      apply sameUpToNoticeOrder_of_views
      · exact h.view_state hdone hperm
      · have hturn := keeps_inTurn (s := s) fun x hx => (h.perm hperm).frame hx
        exact (keeps_pool (fun x hx => h.frame hx) sched).trans hturn.symm
  · obtain ⟨more, hmore⟩ := exists_finish exec
      (runFrom JobPool.step (JobPool.start s (calls.map Prod.fst)) sched)
    refine ⟨more, ?_⟩
    rw [runFrom_append]
    exact hmore

def twoJobsDb : Db := runFrom serve sampleDb twoBookings

def acceptAndReject : List (JobRequest × ObjectId) :=
  [(onSampleJob .jobAccept company 3, idOf "job-------01"),
    ({ onSampleJob .jobReject company 4 with
        body := { jobId := some (.str "job-------02"), rejectReason := some (.str "no time") } },
      idOf "job-------02")]

theorem accept_and_reject_independent : OnDistinctJobs acceptAndReject ∧
    AsThoughAlone twoJobsDb acceptAndReject
      (runFrom JobPool.step (JobPool.start twoJobsDb (acceptAndReject.map Prod.fst))
        [0, 1, 1, 0, 0]) ∧
    (runFrom JobPool.step (JobPool.start twoJobsDb (acceptAndReject.map Prod.fst))
      [0, 1, 1, 0, 0]).state.jobs.docs.map Job.jobStatus = [.accept, .reject] := by
  have hnames : ∀ x ∈ acceptAndReject, x.1.handler ≠ .assignJob ∧ x.1.NamesOnly x.2 := by
    intro x hx
    simp only [acceptAndReject, List.mem_cons, List.not_mem_nil, or_false] at hx
    rcases hx with rfl | rfl
    · exact ⟨by decide,
        JobRequest.namesOnly_of_string (v := "job-------01") rfl (by decide +kernel)⟩
    · exact ⟨by decide,
        JobRequest.namesOnly_of_string (v := "job-------02") rfl (by decide +kernel)⟩
  have hdistinct : OnDistinctJobs acceptAndReject := ⟨hnames, by decide +kernel⟩
  exact ⟨hdistinct, (distinct_jobs_independent _ _ hdistinct _).1, by decide +kernel⟩

end Pools

end DoQwik
