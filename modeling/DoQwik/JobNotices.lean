import DoQwik.JobFailures

/-! The announcements of completed jobs. Two handlers announce the completion of a job, but only
one of them completes it; and a job that was completed can be taken up again. -/
namespace DoQwik
open JsValues DocStore Interleave

section Notices

def JobHandler.notices : JobHandler → List NoticeKind
  | .proceedToPay => [.newJobNotificationtouser, .newJobNotificationtoprovider]
  | .jobAccept => [.jobAcceptNotyfy]
  | .jobStart => [.jobStartNotyfy]
  | .jobFinish => [.jobFinishNotyfy]
  | .paymentUpdate => [.jobFinishNotyfy]
  | _ => []

def JobRequest.notices (r : JobRequest) (s : Db) : List Notice :=
  (r.written s).elim [] fun j => r.handler.notices.map fun kind => ⟨kind, j.id⟩

theorem notices_notifyAll_bind {α : Type} (job : ObjectId) (kinds : List NoticeKind)
    (k : Unit → Action α) (hk : ∀ s, ((k ()).run exec s).1.notices = s.notices) (s : Db) :
    ((notifyAll job kinds >>= k).run exec s).1.notices =
      s.notices ++ kinds.map fun kind => ⟨kind, job⟩ := by
  induction kinds generalizing s with
  | nil =>
    rw [List.map_nil, List.append_nil]
    exact hk s
  | cons kind kinds ih =>
    refine (ih { s with notices := s.notices ++ [⟨kind, job⟩] }).trans ?_
    rw [List.append_assoc]
    rfl

/-- Each handler ends with its notifications, about the job that it changed. -/
theorem notices_finish (r : JobRequest) (x : Option Job) (s : Db) :
    ((r.finish x).run exec s).1.notices =
      s.notices ++ x.elim [] fun j => r.handler.notices.map fun kind => ⟨kind, j.id⟩ := by
  have hnone : ∀ {t : Db}, t.notices = s.notices → t.notices = s.notices ++ [] := by
    intro t ht
    rw [ht, List.append_nil]
  obtain ⟨handler, c, b, files, env⟩ := r
  cases x with
  | none =>
    refine hnone ?_
    cases handler with
    | _ => rfl
  | some j =>
    cases handler with
    | proceedToPay | jobAccept | jobStart | jobFinish | paymentUpdate =>
      exact notices_notifyAll_bind j.id _ _ (fun _ => rfl) s
    | _ => exact hnone rfl

theorem notices_changeJob (r : JobRequest) (s : Db) :
    ((changeJob r.env r.target r.filter r.plan r.finish).run exec s).1.notices =
      s.notices ++ ((planned s r.target r.filter r.plan).bind fun w => s.jobs.findOne w.sel).elim []
        fun j => r.handler.notices.map fun kind => ⟨kind, j.id⟩ := by
  have hstop : s.notices = s.notices ++ [] := (List.append_nil _).symm
  rcases run_changeJob r.env r.target r.filter r.plan r.finish s with
    ⟨hnone, ⟨e, hrun⟩ | ⟨key, hrun, -⟩⟩ | ⟨w, j, hw, -, hrun⟩
  · rw [hrun, hnone]
    exact hstop
  · rw [hrun, hnone]
    exact hstop
  · rw [hrun, hw, notices_finish, Option.bind_some]
    -- The update leaves the id of the job.
    cases s.jobs.findOne w.sel with
    | none => rfl
    | some j' => rfl

/-- A booking starts no notification. -/
theorem keeps_notices_assignJob (env : Env) (c : Caller) (b : JobBody) (files : Option JobFiles) :
    Prog.Keeps exec Db.notices (assignJob env c b files) := by
  have hcreate : ∀ user provider offer serviceData sub seqId,
      Prog.Keeps exec Db.notices
        (createOrder env b files user provider offer serviceData sub seqId) := by
    intro user provider offer serviceData sub seqId
    rcases serviceData with _ | service
    · exact fun _ => rfl
    rcases files with _ | f
    · exact fun _ => rfl
    · refine Prog.Keeps.bind (Prog.Keeps.bind (keeps_cast _) fun j => ?_) fun _ _ => rfl
      refine Prog.Keeps.bind (fun t => ?_) fun created => ?_
      · change (exec (.createJob j) t).1.notices = t.notices
        cases hi : t.jobs.insert j with
        | none => rw [exec_createJob_none hi]
        | some c => rw [exec_createJob_some hi]
      · cases created with
        | false => exact fun _ => rfl
        | true => exact keeps_query _
  refine keeps_checked _ (Prog.Keeps.bind (Prog.Keeps.bind (keeps_cast _) fun _ =>
    keeps_query _) fun checkLocation => ?_)
  split
  · exact fun _ => rfl
  · refine Prog.Keeps.bind (keeps_query _) fun userData => keeps_checked _ ?_
    refine Prog.Keeps.bind (Prog.Keeps.bind (keeps_cast _) fun _ => keeps_query _) fun found => ?_
    rcases found with _ | ⟨offer, serviceData, _ | sub⟩
    · exact fun _ => rfl
    · exact fun _ => rfl
    · refine Prog.Keeps.bind (keeps_cast _) fun p => Prog.Keeps.bind (keeps_query _) fun found => ?_
      rcases found with _ | provider
      · exact fun _ => rfl
      rcases userData with _ | user
      · exact fun _ => rfl
      · refine Prog.Keeps.bind (Prog.Keeps.bind (keeps_cast _) fun _ => keeps_query _) fun order => ?_
        rcases order with _ | j
        · exact Prog.Keeps.bind (keeps_getSequence (fun _ _ => rfl) _) fun n => hcreate _ _ _ _ _ n
        · exact fun _ => rfl

/-- Every request adds its notifications to those before. -/
theorem notices_serve (s : Db) (r : JobRequest) :
    (serve s r).notices = s.notices ++ r.notices s := by
  have hserve : serve s r = (r.handle.run exec s).1 := by
    rw [serve, JobRequest.program, Prog.run_catchAll]
  have hstop : s.notices = s.notices ++ [] := (List.append_nil _).symm
  rw [hserve]
  by_cases hbook : r.handler = .assignJob
  · have hnone : r.notices s = [] := by
      unfold JobRequest.notices
      cases hw : r.written s with
      | none => rfl
      | some j => exact absurd hbook (written_assignJob hw)
    rw [hnone, List.append_nil, JobRequest.handle, hbook]
    exact keeps_notices_assignJob r.env r.caller r.body r.files s
  by_cases hpay : r.handler = .paymentSuccess
  · have hnone : r.notices s = [] := by
      unfold JobRequest.notices
      rw [hpay]
      cases r.written s with
      | none => rfl
      | some j => rfl
    rw [hnone, List.append_nil, JobRequest.handle, hpay]
    refine keeps_checked _ (Prog.Keeps.bind ?_ fun _ _ => rfl) s
    exact Prog.Keeps.bind (keeps_cast _) fun _ => Prog.Keeps.bind (keeps_cast _) fun _ _ => rfl
  · rw [run_handle s r hbook hpay]
    unfold JobRequest.notices JobRequest.written JobRequest.write
    split
    · exact notices_changeJob r s
    · exact hstop

/-- The lists only read. -/
theorem serveCall_list (s : Db) (r : JobListRequest) : serveCall s (.list r) = s := by
  have hgetData : ∀ condition window withCode,
      Prog.Keeps exec id (getData condition window withCode) := fun _ _ _ =>
    Prog.Keeps.bind (keeps_cast _) fun _ => Prog.Keeps.bind (keeps_cast _) fun _ =>
      Prog.Keeps.bind (keeps_query _) fun _ _ => rfl
  have hrevenues : ∀ dateOf periods, Prog.Keeps exec id (revenues dateOf (ownJobs r) periods) := by
    intro dateOf periods t
    rw [run_revenues]
  have hkeeps : Prog.Keeps exec id r.handle := by
    unfold JobListRequest.handle
    cases r.handler with
    | assignJobListByProviderID | jobListByWorkerID | jobListByUserID => exact hgetData _ _ _
    | jobDetailsByID =>
      exact keeps_checked _ (Prog.Keeps.bind (keeps_cast _) fun _ =>
        Prog.Keeps.bind (keeps_query _) fun _ _ => rfl)
    | jobTransactionHistory =>
      exact Prog.Keeps.bind (keeps_cast _) fun _ => Prog.Keeps.bind (keeps_query _) fun _ _ => rfl
    | getDailyRevenue | getMonthlyRevenue => exact Prog.Keeps.bind (hrevenues _ _) fun _ _ => rfl
  exact Prog.Keeps.catchAll hkeeps serverError s

end Notices

section Announcements

/-- How often the completion of the job was announced. -/
def announced (s : Db) (id : ObjectId) : ℕ := s.notices.count ⟨.jobFinishNotyfy, id⟩

def CompletedIn (s : Db) (id : ObjectId) : Prop :=
  ∃ j, s.jobs.get? id = some j ∧ j.jobStatus = .complete

/-- Along the run a job is announced as completed only by a request after which it is, and at
most once. -/
structure AnnouncesOnce (s : Db) (calls : List JobCall) : Prop where
  truthful : ∀ pre call post, calls = pre ++ call :: post → ∀ id,
    announced (runFrom serveCall s pre) id < announced (runFrom serveCall s (pre ++ [call])) id →
    CompletedIn (runFrom serveCall s (pre ++ [call])) id
  once : ∀ pre, pre <+: calls → ∀ id, announced (runFrom serveCall s pre) id ≤ 1

def paysUnderWay (s : Db) (r : JobRequest) : Bool :=
  r.handler = .paymentUpdate && (r.written s).isSome

def resumes (s : Db) (r : JobRequest) : Bool :=
  r.handler ∈ [JobHandler.jobAccept, .jobStart, .assignJobToWorker] &&
    (r.written s).any fun j => j.jobStatus = .complete

def misannounces (s : Db) : JobCall → Bool
  | .change r => paysUnderWay s r || resumes s r
  | .list _ => false

/-- What is announced is completed, and announced once. -/
def AnnouncedOnce (s : Db) : Prop :=
  ∀ id, announced s id ≤ 1 ∧ (announced s id ≠ 0 → CompletedIn s id)

variable {s : Db} {r : JobRequest} {id : ObjectId}

theorem announced_serve (s : Db) (r : JobRequest) (id : ObjectId) :
    announced (serve s r) id = announced s id + (r.notices s).count ⟨.jobFinishNotyfy, id⟩ := by
  rw [announced, notices_serve, List.count_append]
  rfl

/-- A completed job stays completed. -/
theorem completedIn_serve (hr : resumes s r = false) (h : CompletedIn s id) :
    CompletedIn (serve s r) id := by
  obtain ⟨j, hj, hstatus⟩ := h
  obtain ⟨j', hj', hsame⟩ := serve_keeps_closed_job (r := r) hj (by rw [hstatus]; rfl) fun hw => by
    simpa [resumes, hw, hstatus] using hr
  exact ⟨j', hj', hsame.trans hstatus⟩

/-- Only two handlers announce a completion. -/
theorem count_notices_of_other (h : r.handler ≠ .jobFinish) (h' : r.handler ≠ .paymentUpdate)
    (s : Db) (id : ObjectId) : (r.notices s).count ⟨.jobFinishNotyfy, id⟩ = 0 := by
  obtain ⟨handler, c, b, files, env⟩ := r
  unfold JobRequest.notices
  cases (JobRequest.mk handler c b files env).written s with
  | none => rfl
  | some j =>
    cases handler with
    | jobFinish => exact absurd rfl h
    | paymentUpdate => exact absurd rfl h'
    | _ => rfl

/-- A job that is finished was under way, and is completed afterwards. -/
theorem finished_written (h : r.handler = .jobFinish) {j : Job} (hw : r.written s = some j) :
    s.jobs.get? j.id = some j ∧ j.jobStatus = .start ∧ CompletedIn (serve s r) j.id := by
  obtain ⟨w, hwrite, hfind⟩ := Option.bind_eq_some_iff.mp hw
  obtain ⟨hadmits, hsets⟩ := (change_written hwrite hfind).follows_machine
  rw [h] at hadmits hsets
  refine ⟨Collection.get?_of_findOne hfind, of_decide_eq_true hadmits, ?_⟩
  refine ⟨_, get?_serve_written (written_assignJob hw) hwrite hfind, ?_⟩
  rw [JobSet.apply_jobStatus, hsets]
  rfl

theorem announcedOnce_serve (hs : AnnouncedOnce s) (hpay : paysUnderWay s r = false)
    (hresume : resumes s r = false) : AnnouncedOnce (serve s r) := by
  intro id
  have hkeep : (r.notices s).count ⟨.jobFinishNotyfy, id⟩ = 0 →
      announced (serve s r) id ≤ 1 ∧ (announced (serve s r) id ≠ 0 → CompletedIn (serve s r) id) := by
    intro hzero
    rw [announced_serve, hzero, Nat.add_zero]
    exact ⟨(hs id).1, fun h => completedIn_serve hresume ((hs id).2 h)⟩
  cases hw : r.written s with
  | none => exact hkeep (by rw [JobRequest.notices, hw]; rfl)
  | some j =>
    by_cases hfinish : r.handler = .jobFinish
    · obtain ⟨hj, hstart, hcomplete⟩ := finished_written hfinish hw
      have hnotices : r.notices s = [⟨.jobFinishNotyfy, j.id⟩] := by
        rw [JobRequest.notices, hw, hfinish]
        rfl
      by_cases hid : j.id = id
      · -- The job was under way, and so was not announced before.
        have hzero : announced s id = 0 := by
          by_contra hne
          obtain ⟨j', hj', hstatus⟩ := (hs id).2 hne
          rw [← hid, hj] at hj'
          cases hj'
          rw [hstart] at hstatus
          cases hstatus
        refine ⟨?_, fun _ => hid ▸ hcomplete⟩
        rw [announced_serve, hzero, hnotices, hid, List.count_singleton_self]
      · refine hkeep ?_
        rw [hnotices, List.count_eq_zero]
        simpa using Ne.symm hid
    · have hother : r.handler ≠ .paymentUpdate := by
        intro hupdate
        simp [paysUnderWay, hupdate, hw] at hpay
      exact hkeep (count_notices_of_other hfinish hother s id)

/-- One call. -/
theorem announcedOnce_serveCall (t : Db) (call : JobCall) (ht : AnnouncedOnce t)
    (hcall : misannounces t call = false) : AnnouncedOnce (serveCall t call) := by
  cases call with
  | change r =>
    obtain ⟨hpay, hresume⟩ := Bool.or_eq_false_iff.mp hcall
    exact announcedOnce_serve ht hpay hresume
  | list r =>
    rw [serveCall_list]
    exact ht

/-- If no payment is recorded for a job under way, and no completed job is taken up again, then
jobs are announced as completed when they are, and once. -/
theorem announcesOnce_of_along (s : Db) (hs : s.notices = []) (calls : List JobCall)
    (h : Along serveCall (fun t call => misannounces t call = false) s calls) :
    AnnouncesOnce s calls := by
  have hstart : AnnouncedOnce s := by
    intro id
    rw [announced, hs]
    exact ⟨Nat.zero_le 1, fun hne => absurd rfl hne⟩
  have hreached : ∀ pre post, calls = pre ++ post → AnnouncedOnce (runFrom serveCall s pre) := by
    intro pre post hcalls
    rw [hcalls, along_append] at h
    exact invariant_runFrom announcedOnce_serveCall hstart h.1
  constructor
  · intro pre call post hcalls id hmore
    have hafter := hreached (pre ++ [call]) post (by rw [hcalls, List.append_assoc]; rfl)
    exact (hafter id).2 (Nat.ne_zero_of_lt hmore)
  · intro pre hpre id
    obtain ⟨post, hcalls⟩ := hpre
    exact (hreached pre post hcalls.symm id).1

def sampleCourse : List JobCall :=
  [.change sampleBooking, .change (onSampleJob .jobAccept company 2),
    .change (onSampleJob .jobStart company 3), .change (onSampleJob .jobFinish company 4)]

theorem announcesOnce_sampleCourse :
    Along serveCall (fun t call => misannounces t call = false) sampleDb sampleCourse ∧
      AnnouncesOnce sampleDb sampleCourse := by
  have halong : Along serveCall (fun t call => misannounces t call = false) sampleDb
      sampleCourse := ⟨by decide +kernel, by decide +kernel, by decide +kernel, by decide +kernel,
        trivial⟩
  exact ⟨halong, announcesOnce_of_along sampleDb rfl sampleCourse halong⟩

def samplePayments : List JobCall :=
  sampleCourse.take 3 ++ [.change (onSampleJob .paymentUpdate company 4),
    .change (onSampleJob .paymentUpdate company 5)]

/-- Its completion is announced twice, though it is not completed. -/
theorem payment_announces_completion :
    announced (runFrom serveCall sampleDb samplePayments) (idOf "job-------01") = 2 ∧
      ((runFrom serveCall sampleDb samplePayments).jobs.get? (idOf "job-------01")).map
        Job.jobStatus = some .start ∧
      ¬ AnnouncesOnce sampleDb samplePayments := by
  have htwice : announced (runFrom serveCall sampleDb samplePayments) (idOf "job-------01") = 2 := by
    decide +kernel
  refine ⟨htwice, by decide +kernel, fun h => ?_⟩
  have honce := h.once _ List.prefix_rfl (idOf "job-------01")
  rw [htwice] at honce
  exact absurd honce (by decide)

end Announcements

end DoQwik
