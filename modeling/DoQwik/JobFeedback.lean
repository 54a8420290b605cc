import DoQwik.JobRaces
import DoQwik.JobPayments

/-! Feedback and reply. The rating of the customer and the reply of the provider are kept in one
nested object, and both handlers replace it as a whole: `submitFeedback` by a rating without a
reply, `replyFeedback` by a reply with a copy of the rating that it read. -/
namespace DoQwik
open JsValues DocStore Interleave

section Contents

/-- The customer's part of a feedback. -/
structure Rating where
  star : Option JsNum
  message : Option String
  feedbackAt : Option ℤ
deriving DecidableEq

def UserFeedback.rating (f : UserFeedback) : Rating where
  star := f.star
  message := f.message
  feedbackAt := f.feedbackAt

def JobRequest.rating (r : JobRequest) : Rating where
  star := storedValue castNumber r.body.star none
  message := storedValue castString (ifTruthy r.body.message) none
  feedbackAt := some r.env.now

def JobRequest.replyText (r : JobRequest) : Option String :=
  storedValue castString r.body.message none

/-- What the handlers write into the feedback: a rating, a reply, or nothing. -/
structure WritesFeedback (r : JobRequest) (d : JobSet) : Prop where
  submit : r.handler = .submitFeedback → ∃ f, d.userFeedback = some f ∧ f.rating = r.rating ∧
    f.reply = none ∧ f.replayAt = none
  reply : r.handler = .replyFeedback → ∃ f, d.userFeedback = some f ∧ f.reply = r.replyText ∧
    f.replayAt = some r.env.now
  other : r.handler ≠ .submitFeedback → r.handler ≠ .replyFeedback → d.userFeedback = none

theorem storedValue_none {α : Type} {cast : Json → Except Thrown (Option α)} {v : Option Json}
    {x : Option (Option α)} (h : castSet cast v = .ok x) : storedValue cast v none = x.join := by
  rw [storedValue, h]
  cases x with
  | none => rfl
  | some a => rfl

theorem WritesFeedback.of_none {r : JobRequest} {d : JobSet} (hs : r.handler ≠ .submitFeedback)
    (hr : r.handler ≠ .replyFeedback) (hd : d.userFeedback = none) : WritesFeedback r d where
  submit h := absurd h hs
  reply h := absurd h hr
  other _ _ := hd

theorem JobChange.writesFeedback {r : JobRequest} {j : Job} {d : JobSet} (h : JobChange r j d) :
    WritesFeedback r d := by
  cases h with
  | submitFeedback hr _ hstar hmessage =>
    constructor
    · intro _
      refine ⟨_, rfl, ?_, rfl, rfl⟩
      simp only [UserFeedback.rating, JobRequest.rating, storedValue_none hstar,
        storedValue_none hmessage]
    · intro h
      rw [hr] at h
      cases h
    · exact fun h => absurd hr h
  | replyFeedback hr _ hreply =>
    constructor
    · intro h
      rw [hr] at h
      cases h
    · exact fun _ => ⟨_, rfl, (storedValue_none hreply).symm, rfl⟩
    · exact fun _ h => absurd hr h
  | reject hr => rcases hr with hr | hr <;> exact .of_none (by simp [hr]) (by simp [hr]) rfl
  | proceedToPay hr | paymentSuccess hr | assignJobToWorker hr | jobAccept hr | jobStart hr
  | jobFinish hr | paymentUpdate hr | userJobReschedule hr =>
    exact .of_none (by simp [hr]) (by simp [hr]) rfl

end Contents

section Histories

def DbOp.updatesJob (s : Db) (job : ObjectId) : DbOp → Bool
  | .updateJob sel _ _ => (s.jobs.findOne sel).any (·.id = job)
  | _ => false

/-- The requests whose update was applied to the job in the run, in this order. -/
def applied (job : ObjectId) (rs : List JobRequest) : JobPool → List ℕ → List JobRequest
  | _, [] => []
  | c, i :: schedule =>
    (if (c.nextOp i).any (DbOp.updatesJob c.state job) then rs[i]?.toList else []) ++
      applied job rs (c.step i) schedule

def lastOf (h : JobHandler) (history : List JobRequest) : Option JobRequest :=
  (history.filter (·.handler = h)).getLast?

/-- The feedback holds the last rating and the last reply of the history. -/
structure Reflects (history : List JobRequest) (f : UserFeedback) : Prop where
  rating : ∀ r, lastOf .submitFeedback history = some r → f.rating = r.rating
  reply : ∀ r, lastOf .replyFeedback history = some r → f.reply = r.replyText

/-- After the steps of the schedule, the feedback of the job holds the star, the message and the
time of the last applied `submitFeedback`, and the reply of the last applied `replyFeedback`. -/
def FeedbackKept (job : ObjectId) (s : Db) (rs : List JobRequest) (schedule : List ℕ) : Prop :=
  ∀ j, (runFrom JobPool.step (.start s rs) schedule).state.jobs.get? job = some j →
    Reflects (applied job rs (.start s rs) schedule) j.userFeedback

/-- The operation drops a part of the job's feedback that it is not about: a rating is written
over a reply, or a reply comes with another rating than the stored one. -/
def losesFeedback (s : Db) (job : ObjectId) : DbOp → Bool
  | .updateJob sel d _ => (s.jobs.findOne sel).any fun j => j.id = job &&
      d.userFeedback.any fun f =>
        if f.replayAt.isSome then f.rating ≠ j.userFeedback.rating else j.userFeedback.reply.isSome
  | _ => false

theorem lastOf_append (h : JobHandler) (history : List JobRequest) (r : JobRequest) :
    lastOf h (history ++ [r]) = if r.handler = h then some r else lastOf h history := by
  unfold lastOf
  rw [List.filter_append]
  by_cases hr : r.handler = h
  · simp [hr]
  · simp [hr]

theorem reflects_nil (f : UserFeedback) : Reflects [] f where
  rating r h := by cases h
  reply r h := by cases h

/-- An update that loses nothing keeps up with the history. -/
theorem Reflects.append {history : List JobRequest} {r : JobRequest} {d : JobSet}
    {f : UserFeedback} (h : Reflects history f) (hd : WritesFeedback r d)
    (hkeep : ∀ f', d.userFeedback = some f' →
      if f'.replayAt.isSome then f'.rating = f.rating else f.reply = none) :
    Reflects (history ++ [r]) (d.userFeedback.getD f) := by
  by_cases hs : r.handler = .submitFeedback
  · -- A rating comes without a reply, so that there must have been none.
    obtain ⟨f', hf', hrating, hreply, hat⟩ := hd.submit hs
    have hnone : f.reply = none := by simpa [hat] using hkeep f' hf'
    rw [hf', Option.getD_some]
    constructor
    · intro r' hr'
      rw [lastOf_append, if_pos hs, Option.some.injEq] at hr'
      rw [← hr']
      exact hrating
    · intro r' hr'
      rw [lastOf_append, if_neg (by simp [hs])] at hr'
      rw [hreply, ← hnone]
      exact h.reply r' hr'
  · by_cases hr : r.handler = .replyFeedback
    · -- A reply comes with the rating that its request read, which must be the stored one.
      obtain ⟨f', hf', hreply, hat⟩ := hd.reply hr
      have hsame : f'.rating = f.rating := by simpa [hat] using hkeep f' hf'
      rw [hf', Option.getD_some]
      constructor
      · intro r' hr'
        rw [lastOf_append, if_neg hs] at hr'
        rw [hsame]
        exact h.rating r' hr'
      · intro r' hr'
        rw [lastOf_append, if_pos hr, Option.some.injEq] at hr'
        rw [← hr']
        exact hreply
    · rw [hd.other hs hr, Option.getD_none]
      constructor
      · intro r' hr'
        rw [lastOf_append, if_neg hs] at hr'
        exact h.rating r' hr'
      · intro r' hr'
        rw [lastOf_append, if_neg hr] at hr'
        exact h.reply r' hr'

end Histories

section Runs

variable {job : ObjectId} {rs : List JobRequest}

/-- The updates of thread `i` write into the feedback what its request is about. -/
def FeedbackRule (rs : List JobRequest) (i : ℕ) (_ : Db) : DbOp → Prop
  | .updateJob _ d _ => ∃ r, rs[i]? = some r ∧ WritesFeedback r d
  | _ => True

theorem feedbackRule {i : ℕ} {r : JobRequest} (hi : rs[i]? = some r) :
    OpRule (FeedbackRule rs i) r where
  read _ _ _ := trivial
  notify _ _ := trivial
  createCounter _ _ := trivial
  updateCounter _ _ _ _ := trivial
  createJob _ := fun _ _ _ _ _ _ _ _ _ _ => trivial
  pay hr := fun _ _ _ => ⟨r, hi, .of_none (by simp [hr]) (by simp [hr]) rfl⟩
  updateJob := fun _ _ _ _ _ _ _ _ hplan => ⟨r, hi, (plan_change hplan).writesFeedback⟩

def Serving (rs : List JobRequest) (c : JobPool) : Prop :=
  c.FollowingEach exec (fun _ _ => True) (FeedbackRule rs) (fun _ _ => True)

theorem serving_start (s : Db) (rs : List JobRequest) : Serving rs (.start s rs) := by
  intro i p hp
  change (rs.map JobRequest.program)[i]? = some p at hp
  rw [List.getElem?_map] at hp
  obtain ⟨r, hr, rfl⟩ := Option.map_eq_some_iff.mp hp
  exact obeys_program (feedbackRule hr) s

theorem Serving.step {c : JobPool} (h : Serving rs c) (i : ℕ) : Serving rs (c.step i) :=
  Pool.FollowingEach.stepAt h trivial (fun _ _ _ hop => Pool.FollowingEach.next h hop)
    (fun _ _ => trivial) (fun _ _ => trivial)

/-- The job after an operation that does not update it: it is the same, or it was not there. -/
theorem get?_exec_of_not_updatesJob {s : Db} {op : DbOp} (h : op.updatesJob s job = false) :
    (exec op s).1.jobs.get? job = s.jobs.get? job ∨ s.jobs.get? job = none := by
  rcases exec_jobs_cases op s with hsame | ⟨new, -, hi⟩ | ⟨sel, d, now, rfl⟩
  · rw [hsame]
    exact Or.inl rfl
  · -- A booking can create the very job, but only under an id that was free.
    by_cases hid : new.id = job
    · rw [← hid]
      exact Or.inr (Collection.get?_of_insert hi)
    · exact Or.inl ((Collection.get?_insert hi job).trans (if_neg hid))
  · rw [exec_updateJob_jobs, Collection.get?_updateOne, if_neg]
    · exact Or.inl rfl
    · intro hid
      obtain ⟨j, hj, hjob⟩ := Option.map_eq_some_iff.mp hid
      simp [DbOp.updatesJob, hj, hjob] at h

/-- The history of the job so far: its feedback reflects it, and it is empty as long as there is
no job. -/
structure Recorded (job : ObjectId) (history : List JobRequest) (s : Db) : Prop where
  reflects : ∀ j, s.jobs.get? job = some j → Reflects history j.userFeedback
  absent : s.jobs.get? job = none → history = []

/-- An update of the job that loses nothing is recorded. -/
theorem Recorded.update {history : List JobRequest} {s : Db} {sel : Job → Bool} {d : JobSet}
    {now : ℤ} {j : Job} {r : JobRequest} (h : Recorded job history s)
    (hfind : s.jobs.findOne sel = some j) (hid : j.id = job) (hd : WritesFeedback r d)
    (hloses : losesFeedback s job (.updateJob sel d now) = false) :
    Recorded job (history ++ [r]) (exec (.updateJob sel d now) s).1 := by
  have hold : s.jobs.get? job = some j := hid ▸ Collection.get?_of_findOne hfind
  have hget : (exec (.updateJob sel d now) s).1.jobs.get? job = some (d.apply now j) := by
    rw [exec_updateJob_jobs, Collection.get?_updateOne, hfind, Option.map_some, hid, if_pos rfl,
      hold, Option.map_some]
  constructor
  · intro j' hj'
    rw [hget, Option.some.injEq] at hj'
    rw [← hj']
    refine (h.reflects j hold).append hd fun f hf => ?_
    simp only [losesFeedback, hfind, Option.any_some, hid, decide_true, Bool.true_and, hf] at hloses
    split
    · rename_i hat
      simpa [hat] using hloses
    · rename_i hat
      simpa [hat] using hloses
  · intro hnone
    rw [hget] at hnone
    cases hnone

/-- An operation that does not update the job needs no record. -/
theorem Recorded.skip {history : List JobRequest} {s : Db} {op : DbOp} (h : Recorded job history s)
    (hop : op.updatesJob s job = false) : Recorded job history (exec op s).1 := by
  rcases get?_exec_of_not_updatesJob hop with hsame | hnone
  · constructor
    · intro j hj
      exact h.reflects j (hsame ▸ hj)
    · exact fun hj => h.absent (hsame ▸ hj)
  · rw [h.absent hnone]
    exact ⟨fun j _ => reflects_nil j.userFeedback, fun _ => rfl⟩

/-- One step of the pool, with what it adds to the history. -/
theorem Recorded.step {history : List JobRequest} {c : JobPool} {i : ℕ} (hc : Serving rs c)
    (h : Recorded job history c.state)
    (hloses : (c.nextOp i).all (fun op => !losesFeedback c.state job op) = true) :
    Recorded job (history ++
      if (c.nextOp i).any (DbOp.updatesJob c.state job) then rs[i]?.toList else [])
      (c.step i).state := by
  rw [JobPool.state_step]
  cases hop : c.nextOp i with
  | none => simpa using h
  | some op =>
    rw [hop, Option.all_some, Bool.not_eq_true'] at hloses
    rw [Option.elim_some, Option.any_some]
    cases hu : op.updatesJob c.state job with
    | false => simpa using h.skip hu
    | true =>
      have hrule := Pool.FollowingEach.next hc hop
      cases op with
      | updateJob sel d now =>
        obtain ⟨r, hr, hd⟩ := hrule
        obtain ⟨j, hfind, hid⟩ := Option.any_eq_true _ _ |>.mp hu
        rw [if_pos rfl, hr]
        exact h.update hfind (of_decide_eq_true hid) hd hloses
      | _ => cases hu

/-- What a run adds to the history, the rest of the run included. -/
theorem Recorded.run {history : List JobRequest} {c : JobPool} {schedule : List ℕ}
    (hc : Serving rs c) (h : Recorded job history c.state)
    (hrun : Along JobPool.step
      (fun c i => (c.nextOp i).all (fun op => !losesFeedback c.state job op) = true) c schedule) :
    Recorded job (history ++ applied job rs c schedule)
      (runFrom JobPool.step c schedule).state := by
  -- The history grows at its end, so that the induction is over every history so far.
  induction schedule generalizing c history with
  | nil => simpa [applied] using h
  | cons i schedule ih =>
    have hnext := ih (hc.step i) (h.step hc hrun.1) hrun.2
    rw [runFrom_cons, applied, ← List.append_assoc]
    exact hnext

/-- In every interleaving of job requests over any database, if no step writes a rating over a
reply, or a reply with another rating than the stored one, then the feedback of every job holds
the last rating and the last reply that were applied to it. -/
theorem feedbackKept_of_losesNothing (job : ObjectId) (s : Db) (rs : List JobRequest)
    (schedule : List ℕ)
    (h : Along JobPool.step
      (fun c i => (c.nextOp i).all (fun op => !losesFeedback c.state job op) = true)
      (JobPool.start s rs) schedule) :
    FeedbackKept job s rs schedule := by
  have hstart : Recorded job [] (JobPool.start s rs).state :=
    ⟨fun j _ => reflects_nil j.userFeedback, fun _ => rfl⟩
  have hend := hstart.run (serving_start s rs) h
  rw [List.nil_append] at hend
  exact hend.reflects

def completedDb : Db :=
  runFrom serve sampleDb [sampleBooking, onSampleJob .jobAccept company 2,
    onSampleJob .jobStart company 3, onSampleJob .jobFinish company 4]

/-- The customer rates the completed job, and then the company replies. -/
theorem feedbackKept_serial :
    Along JobPool.step
      (fun c i => (c.nextOp i).all
        (fun op => !losesFeedback c.state (idOf "job-------01") op) = true)
      (JobPool.start completedDb
        [onSampleJob .submitFeedback customer 5, onSampleJob .replyFeedback company 6])
      [0, 0, 1, 1] ∧
    FeedbackKept (idOf "job-------01") completedDb
      [onSampleJob .submitFeedback customer 5, onSampleJob .replyFeedback company 6]
      [0, 0, 1, 1] :=
  ⟨by decide +kernel, feedbackKept_of_losesNothing _ _ _ _ (by decide +kernel)⟩

/-- The customer rates the job once more after the reply: the reply is gone. -/
theorem rating_drops_reply :
    ¬ FeedbackKept (idOf "job-------01") completedDb
      [onSampleJob .submitFeedback customer 5, onSampleJob .replyFeedback company 6,
        onSampleJob .submitFeedback customer 7] [0, 0, 1, 1, 2, 2] := by
  intro h
  have hjob : ((runFrom JobPool.step (.start completedDb
      [onSampleJob .submitFeedback customer 5, onSampleJob .replyFeedback company 6,
        onSampleJob .submitFeedback customer 7]) [0, 0, 1, 1, 2, 2]).state.jobs.get?
      (idOf "job-------01")).map (·.userFeedback.reply) = some none := by decide +kernel
  have hlast : (lastOf .replyFeedback (applied (idOf "job-------01")
      [onSampleJob .submitFeedback customer 5, onSampleJob .replyFeedback company 6,
        onSampleJob .submitFeedback customer 7] (.start completedDb
      [onSampleJob .submitFeedback customer 5, onSampleJob .replyFeedback company 6,
        onSampleJob .submitFeedback customer 7]) [0, 0, 1, 1, 2, 2])).map JobRequest.replyText =
      some (some "ok") := by decide +kernel
  obtain ⟨j, hj, hnone⟩ := Option.map_eq_some_iff.mp hjob
  obtain ⟨r, hr, htext⟩ := Option.map_eq_some_iff.mp hlast
  have hreply := (h j hj).reply r hr
  rw [hnone, htext] at hreply
  cases hreply

end Runs

end DoQwik
