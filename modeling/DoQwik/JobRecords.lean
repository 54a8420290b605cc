import DoQwik.JobRaces
import DoQwik.JobLists

/-! What the record of a job holds in every interleaving of calls to the routed job handlers:
its terms never change, it is never removed, and its status is backed by the time stamps and
the worker that the handlers store. -/
namespace DoQwik
open JsValues DocStore Interleave

section Calls

/-- Calls to any routed job handlers, in progress over one database. -/
def JobPool.ofCalls (s : Db) (calls : List JobCall) : JobPool := ⟨s, calls.map JobCall.program⟩

variable {Φ : Db → DbOp → Prop}

theorem obeys_revenues (hread : ∀ (s : Db) {β : Type} (f : Db → β), Φ s (.read f))
    (dateOf : Job → ℤ) (isOwn : Job → Bool) (periods : List Period) (s : Db) :
    Obeys Φ s (revenues dateOf isOwn periods) := by
  induction periods generalizing s with
  | nil => trivial
  | cons period periods ih =>
    refine obeys_query_bind (hread s _) fun t => ?_
    exact Prog.Follows.bind ((ih t).mono fun _ _ _ => trivial)

theorem obeys_getData (hread : ∀ (s : Db) {β : Type} (f : Db → β), Φ s (.read f))
    (condition : JobCondition) (window : Except Thrown (ℕ × Option ℕ)) (withCode : Bool) (s : Db) :
    Obeys Φ s (getData condition window withCode) :=
  obeys_cast_bind fun _ _ => obeys_cast_bind fun _ _ => ⟨hread s _, fun _ _ => trivial⟩

/-- The handlers that list jobs only read. -/
theorem obeys_list (hread : ∀ (s : Db) {β : Type} (f : Db → β), Φ s (.read f))
    (r : JobListRequest) (s : Db) : Obeys Φ s (JobCall.list r).program := by
  apply Prog.Follows.catchAll (fun _ _ => trivial)
  obtain ⟨handler, c, jobId, orderSearch, window, periods, regex⟩ := r
  cases handler with
  | assignJobListByProviderID => exact obeys_getData hread _ _ _ s
  | jobListByWorkerID => exact obeys_getData hread _ _ _ s
  | jobListByUserID => exact obeys_getData hread _ _ _ s
  | jobDetailsByID =>
    exact obeys_checked fun _ => obeys_cast_bind fun _ _ => ⟨hread s _, fun _ _ => trivial⟩
  | jobTransactionHistory => exact obeys_cast_bind fun _ _ => ⟨hread s _, fun _ _ => trivial⟩
  | getDailyRevenue | getMonthlyRevenue =>
    exact Prog.Follows.bind ((obeys_revenues hread _ _ _ s).mono fun _ _ _ => trivial)

theorem obeying_ofCalls (hread : ∀ (s : Db) {β : Type} (f : Db → β), Φ s (.read f))
    (hrule : ∀ r, OpRule Φ r) (s : Db) (calls : List JobCall) :
    (JobPool.ofCalls s calls).Obeying Φ := by
  intro p hp
  obtain ⟨r, -, rfl⟩ := List.mem_map.mp hp
  cases r with
  | change r => exact obeys_program (hrule r) s
  | list r => exact obeys_list hread r s

/-- What an operation makes of the job of one id: nothing, or one update. -/
theorem get?_exec {Q : Job → Job → Prop} (hrefl : ∀ j, Q j j) {op : DbOp}
    (hop : ∀ sel d now, op = .updateJob sel d now → ∀ j, Q j (d.apply now j)) {s : Db}
    {id : ObjectId} {j : Job} (hj : s.jobs.get? id = some j) :
    ∃ j', (exec op s).1.jobs.get? id = some j' ∧ Q j j' := by
  rcases exec_jobs_cases op s with hsame | ⟨new, -, hi⟩ | ⟨sel, d, now, rfl⟩
  · rw [hsame]
    exact ⟨j, hj, hrefl j⟩
  · have hnew : new.id ≠ id := by
      intro he
      have hfree := Collection.get?_of_insert hi
      rw [he, hj] at hfree
      cases hfree
    exact ⟨j, (Collection.get?_insert hi id).trans ((if_neg hnew).trans hj), hrefl j⟩
  · rw [exec_updateJob_jobs, Collection.get?_updateOne]
    split
    · exact ⟨d.apply now j, by rw [hj, Option.map_some], hop sel d now rfl j⟩
    · exact ⟨j, hj, hrefl j⟩

end Calls

section Terms

/-- Every job of `s` is still there in `t`, on the same terms. -/
def TermsKept (s t : Db) : Prop :=
  ∀ id j, s.jobs.get? id = some j → ∃ j', t.jobs.get? id = some j' ∧ j'.terms = j.terms

def TermsRule (_ : Db) : DbOp → Prop
  | .updateJob _ d _ => d.KeepsTerms
  | _ => True

theorem termsRule (r : JobRequest) : OpRule TermsRule r where
  read _ _ _ := trivial
  notify _ _ := trivial
  createCounter _ _ := trivial
  updateCounter _ _ _ _ := trivial
  createJob _ := fun _ _ _ _ _ _ _ _ _ _ => trivial
  pay _ := fun _ _ _ => by constructor <;> rfl
  updateJob := fun _ _ _ _ _ _ _ _ hplan => plan_keepsTerms hplan

theorem termsKept_exec {op : DbOp} (s : Db) (hop : TermsRule s op) :
    TermsKept s (exec op s).1 := by
  intro id j hj
  apply get?_exec (Q := fun j j' => j'.terms = j.terms) (fun _ => rfl) _ hj
  rintro sel d now rfl j'
  exact hop.apply_terms now j'

/-- In every interleaving of calls to the routed job handlers, over any database, the jobs of
any earlier state are all there in any later one, on the same terms. -/
theorem terms_immutable (s : Db) (calls : List JobCall) (earlier later : List ℕ) :
    TermsKept (runFrom JobPool.step (.ofCalls s calls) earlier).state
      (runFrom JobPool.step (.ofCalls s calls) (earlier ++ later)).state := by
  have hstart : (JobPool.ofCalls s calls).Obeying TermsRule :=
    obeying_ofCalls (fun _ _ _ => trivial) termsRule s calls
  have hstep : ∀ (c : JobPool) (i : ℕ), c.Obeying TermsRule → (c.step i).Obeying TermsRule :=
    fun c i hc => obeying_step hc i fun k op _ hop => Pool.Following.next hc hop
  have hmid : (runFrom JobPool.step (.ofCalls s calls) earlier).Obeying TermsRule :=
    invariant_of_step hstep hstart earlier
  rw [runFrom_append]
  intro id j hj
  -- Along the later steps the job of this id keeps the terms that it has now.
  refine (invariant_of_step
    (I := fun c : JobPool => c.Obeying TermsRule ∧
      ∃ j', c.state.jobs.get? id = some j' ∧ j'.terms = j.terms)
    ?_ ⟨hmid, j, hj, rfl⟩ later).2
  rintro c i ⟨hc, j₁, hj₁, hterms⟩
  refine ⟨hstep c i hc, ?_⟩
  rw [JobPool.state_step]
  cases hop : c.nextOp i with
  | none => exact ⟨j₁, hj₁, hterms⟩
  | some op =>
    obtain ⟨j₂, hj₂, hkept⟩ := termsKept_exec c.state (Pool.Following.next hc hop) id j₁ hj₁
    exact ⟨j₂, hj₂, hkept.trans hterms⟩

end Terms

section Evidence

/-- What a job record can hold as evidence of its history. -/
inductive Mark where
  | worker
  | accept
  | reject
  | start
  | finish

def Job.has (j : Job) : Mark → Bool
  | .worker => j.workerData.isSome
  | .accept => j.jobAcceptAt.isSome
  | .reject => j.jobRejectAt.isSome
  | .start => j.jobStartAt.isSome
  | .finish => j.jobFinishAt.isSome

def JobStatus.mark : JobStatus → Option Mark
  | .processing => none
  | .assign => some .worker
  | .accept => some .accept
  | .reject => some .reject
  | .start => some .start
  | .complete => some .finish

/-- Somebody has taken the job up, or turned it down. -/
def Job.Engaged (j : Job) : Prop :=
  j.has .accept = true ∨ j.has .worker = true ∨ j.has .reject = true

def Job.Rated (j : Job) : Prop :=
  j.userFeedback.star.isSome = true ∨ j.userFeedback.reply.isSome = true

/-- The evidence chain: a completed or rated job was finished, a finished or running one was
started, and a started one was taken up before. -/
structure EvidenceChain (j : Job) : Prop where
  complete : j.jobStatus = .complete → j.jobFinishAt.isSome = true
  rated : j.userFeedback.star.isSome = true ∨ j.userFeedback.reply.isSome = true →
    j.jobFinishAt.isSome = true
  finished : j.jobFinishAt.isSome = true → j.jobStartAt.isSome = true
  running : j.jobStatus = .start → j.jobStartAt.isSome = true
  started : j.jobStartAt.isSome = true →
    j.jobAcceptAt.isSome = true ∨ j.workerData.isSome = true ∨ j.jobRejectAt.isSome = true

/-- The chain as an inductive invariant: every status comes with its mark. -/
structure Documented (j : Job) : Prop where
  status : ∀ m, j.jobStatus.mark = some m → j.has m = true
  rated : j.Rated → j.has .finish = true
  finished : j.has .finish = true → j.has .start = true
  started : j.has .start = true → j.Engaged

theorem Documented.chain {j : Job} (h : Documented j) : EvidenceChain j where
  complete hs := h.status .finish (by rw [hs]; rfl)
  rated := h.rated
  finished := h.finished
  running hs := h.status .start (by rw [hs]; rfl)
  started := h.started

namespace JobSet

/-- The update takes no mark away, and a status that it writes comes with its mark. -/
structure Sound (d : JobSet) : Prop where
  keeps : ∀ now j m, j.has m = true → (d.apply now j).has m = true
  status : ∀ st m, d.jobStatus = some st → st.mark = some m → ∀ now j, (d.apply now j).has m = true

/-- What the update needs of the job that it is written onto. -/
structure Warranted (d : JobSet) (j : Job) : Prop where
  finish : d.jobFinishAt.isSome = true → j.has .start = true
  start : d.jobStartAt.isSome = true → j.Engaged
  rating : d.userFeedback.isSome = true → j.has .finish = true

end JobSet

theorem Job.Engaged.mono {j j' : Job} (h : ∀ m, j.has m = true → j'.has m = true)
    (hj : j.Engaged) : j'.Engaged := by
  rcases hj with h1 | h2 | h3
  · exact Or.inl (h _ h1)
  · exact Or.inr (Or.inl (h _ h2))
  · exact Or.inr (Or.inr (h _ h3))

theorem JobSet.Warranted.mono {d : JobSet} {j j' : Job} (hd : d.Warranted j)
    (h : ∀ m, j.has m = true → j'.has m = true) : d.Warranted j' where
  finish hf := h _ (hd.finish hf)
  start hs := (hd.start hs).mono h
  rating hr := h _ (hd.rating hr)

/-- A sound and warranted update keeps the invariant. -/
theorem Documented.apply {d : JobSet} {j : Job} (hj : Documented j) (hd : d.Sound)
    (hw : d.Warranted j) (now : ℤ) : Documented (d.apply now j) where
  status m hm := by
    rw [JobSet.apply_jobStatus] at hm
    cases hs : d.jobStatus with
    | none =>
      rw [hs] at hm
      exact hd.keeps now j m (hj.status m hm)
    | some st =>
      rw [hs] at hm
      exact hd.status st m hs hm now j
  rated hr := by
    apply hd.keeps
    cases hf : d.userFeedback with
    | none =>
      apply hj.rated
      simpa only [Job.Rated, JobSet.apply, hf, Option.getD_none] using hr
    | some f => exact hw.rating (by rw [hf]; rfl)
  finished hf := by
    apply hd.keeps
    cases hd' : d.jobFinishAt with
    | none =>
      apply hj.finished
      simpa only [Job.has, JobSet.apply, hd', Option.getD_none] using hf
    | some t => exact hw.finish (by rw [hd']; rfl)
  started hs := by
    apply Job.Engaged.mono (hd.keeps now j)
    cases hd' : d.jobStartAt with
    | none =>
      apply hj.started
      simpa only [Job.has, JobSet.apply, hd', Option.getD_none] using hs
    | some t => exact hw.start (by rw [hd']; rfl)

/-- Only `null` casts to no id. -/
theorem castObjectId_eq_none {v : Json} (h : castObjectId v = .ok none) : v = .null := by
  have hstring : ∀ s, castObjectIdString s ≠ .ok none := by
    intro s hs
    unfold castObjectIdString at hs
    split at hs <;> cases hs
  have hplain : ∀ kvs, castObjectIdPlain kvs ≠ .ok none := by
    intro kvs hs
    unfold castObjectIdPlain at hs
    split at hs
    · split at hs <;> cases hs
    · exact hstring _ hs
  cases v with
  | null => rfl
  | obj kvs =>
    simp only [castObjectId] at h
    split at h
    · split at h
      · exact absurd h (hstring _)
      · exact absurd h (hplain _)
    · exact absurd h (hplain _)
  | bool b => exact absurd h (hstring _)
  | num m e => exact absurd h (hstring _)
  | str s => exact absurd h (hstring _)
  | arr vs => exact absurd h (hstring _)

/-- A worker that was found has an id: `null` and `undefined` find none. -/
theorem workerData_of_lookup {v : Option Json} {company : ObjectId} {t : Db}
    (h : someMatch t.providers (workersOf v company) = true) {x : Option (Option ObjectId)}
    (hx : castSet castObjectId v = .ok x) : ∃ w, x = some (some w) := by
  have hnone : ∀ p : Provider → Bool, (∀ w, p w = false) → t.providers.count p = 0 := by
    intro p hp
    simp [Collection.count, Collection.find, List.filter_eq_nil_iff, hp]
  rcases v with _ | v
  · simp [workersOf, castForQuery, Except.map, someMatch, hnone] at h
  · cases hc : castObjectId v with
    | error e =>
      rw [castSet, hc] at hx
      cases hx
    | ok a =>
      rw [castSet, hc] at hx
      cases hx
      cases a with
      | some w => exact ⟨w, rfl⟩
      | none =>
        rw [castObjectId_eq_none hc] at h
        simp [workersOf, castForQuery, Except.map, someMatch, hnone] at h

variable {r : JobRequest} {j : Job} {d : JobSet}

/-- What the update does to a mark: it sets it, takes it away, or leaves it. -/
def JobSet.marks (d : JobSet) : Mark → Option Bool
  | .worker => d.workerData.map Option.isSome
  | .accept => d.jobAcceptAt.map Option.isSome
  | .reject => d.jobRejectAt.map Option.isSome
  | .start => d.jobStartAt.map Option.isSome
  | .finish => d.jobFinishAt.map Option.isSome

theorem JobSet.has_apply (d : JobSet) (now : ℤ) (j : Job) (m : Mark) :
    (d.apply now j).has m = (d.marks m).getD (j.has m) := by
  have hgetD : ∀ {α : Type} (x : Option (Option α)) (y : Option α),
      (x.getD y).isSome = (x.map Option.isSome).getD y.isSome := by
    intro α x y
    cases x with
    | none => rfl
    | some a => rfl
  cases m with
  | worker => exact hgetD d.workerData j.workerData
  | accept => exact hgetD d.jobAcceptAt j.jobAcceptAt
  | reject => exact hgetD d.jobRejectAt j.jobRejectAt
  | start => exact hgetD d.jobStartAt j.jobStartAt
  | finish => exact hgetD d.jobFinishAt j.jobFinishAt

/-- Field by field: no mark is taken away, and the mark of the status is set. -/
def JobSet.marksStatus (d : JobSet) : Bool :=
  [Mark.worker, .accept, .reject, .start, .finish].all (fun m => d.marks m != some false) &&
    d.jobStatus.all fun st => st.mark.all fun m => d.marks m == some true

theorem JobSet.Sound.of_marksStatus (h : d.marksStatus = true) : d.Sound := by
  obtain ⟨hkeep, hstatus⟩ := Bool.and_eq_true_iff.mp h
  constructor
  · intro now j m hm
    have hne : d.marks m ≠ some false := by
      have hall := List.all_eq_true.mp hkeep m (by cases m <;> simp)
      simpa using hall
    rw [JobSet.has_apply]
    cases hd : d.marks m with
    | none => exact hm
    | some b =>
      cases b with
      | false => exact absurd hd hne
      | true => rfl
  · intro st m hst hm now j
    rw [hst, Option.all_some, hm, Option.all_some, beq_iff_eq] at hstatus
    rw [JobSet.has_apply, hstatus]
    rfl

/-- Every plan writes a status together with its mark, and takes no mark away. -/
theorem plan_sound (hplan : r.plan j = .ok (.update d)) (hlook : ∃ t, r.lookups t = true) :
    d.Sound := by
  cases plan_change hplan with
  | assignJobToWorker hr hworker =>
    obtain ⟨t, ht⟩ := hlook
    unfold JobRequest.lookups at ht
    rw [hr] at ht
    obtain ⟨w, rfl⟩ := workerData_of_lookup ht hworker
    exact .of_marksStatus rfl
  | _ => exact .of_marksStatus rfl

/-- An update without a start, a finish and a rating needs nothing. -/
theorem JobSet.Warranted.of_free (hf : d.jobFinishAt = none) (hs : d.jobStartAt = none)
    (hr : d.userFeedback = none) (j : Job) : d.Warranted j where
  finish h := by rw [hf] at h; cases h
  start h := by rw [hs] at h; cases h
  rating h := by rw [hr] at h; cases h

/-- A start needs a job that was taken up. -/
theorem JobSet.Warranted.of_start (hf : d.jobFinishAt = none) (hr : d.userFeedback = none)
    (hj : j.Engaged) : d.Warranted j where
  finish h := by rw [hf] at h; cases h
  start _ := hj
  rating h := by rw [hr] at h; cases h

/-- A finish needs a job that was started. -/
theorem JobSet.Warranted.of_finish (hs : d.jobStartAt = none) (hr : d.userFeedback = none)
    (hj : j.has .start = true) : d.Warranted j where
  finish _ := hj
  start h := by rw [hs] at h; cases h
  rating h := by rw [hr] at h; cases h

/-- A rating needs a job that was finished. -/
theorem JobSet.Warranted.of_rating (hf : d.jobFinishAt = none) (hs : d.jobStartAt = none)
    (hj : j.has .finish = true) : d.Warranted j where
  finish h := by rw [hf] at h; cases h
  start h := by rw [hs] at h; cases h
  rating _ := hj

/-- A job with any other status than `Processing` was taken up. -/
theorem Documented.engaged (hj : Documented j) (hs : j.jobStatus ≠ .processing) : j.Engaged := by
  cases hst : j.jobStatus with
  | processing => exact absurd hst hs
  | assign => exact Or.inr (Or.inl (hj.status .worker (by rw [hst]; rfl)))
  | accept => exact Or.inl (hj.status .accept (by rw [hst]; rfl))
  | reject => exact Or.inr (Or.inr (hj.status .reject (by rw [hst]; rfl)))
  | start => exact hj.started (hj.status .start (by rw [hst]; rfl))
  | complete => exact hj.started (hj.finished (hj.status .finish (by rw [hst]; rfl)))

/-- A plan is warranted by the job that it was made for. The handlers that do not check the id,
and may write to another job than they read, plan nothing that needs a warrant. -/
theorem plan_warranted (hplan : r.plan j = .ok (.update d)) :
    (r.handler.checksId = false → ∀ j', d.Warranted j') ∧ (Documented j → d.Warranted j) := by
  have hfree : (∀ j', d.Warranted j') →
      (r.handler.checksId = false → ∀ j', d.Warranted j') ∧ (Documented j → d.Warranted j) :=
    fun h => ⟨fun _ => h, fun _ => h j⟩
  -- A handler that checks the id writes to the job that it read.
  have hread : r.handler.checksId = true → (Documented j → d.Warranted j) →
      (r.handler.checksId = false → ∀ j', d.Warranted j') ∧ (Documented j → d.Warranted j) := by
    intro hchecks h
    refine ⟨fun hnot => ?_, h⟩
    rw [hchecks] at hnot
    cases hnot
  cases plan_change hplan with
  | jobStart hr hs => exact hread (by rw [hr]; rfl) fun hj => .of_start rfl rfl (hj.engaged hs)
  | jobFinish hr hs =>
    exact hread (by rw [hr]; rfl) fun hj => .of_finish rfl rfl (hj.status .start (by rw [hs]; rfl))
  | submitFeedback hr hs | replyFeedback hr hs =>
    exact hread (by rw [hr]; rfl) fun hj => .of_rating rfl rfl (hj.status .finish (by rw [hs]; rfl))
  | _ => exact hfree (.of_free rfl rfl rfl)

def AllDocumented (s : Db) : Prop := ∀ j ∈ s.jobs.docs, Documented j

/-- A waiting update is sound, and warranted by every job or by the only one that it can
select; a job that is created is documented. -/
def EvidenceRule (s : Db) : DbOp → Prop
  | .updateJob sel d _ => d.Sound ∧ ((∀ j, d.Warranted j) ∨
      ∃ j ∈ s.jobs.docs, d.Warranted j ∧ ∀ j', sel j' = true → j'.id = j.id)
  | .createJob j => Documented j
  | _ => True

theorem newJob_documented {env : Env} {b : JobBody} {image : Option String} {seqId : ℕ}
    {user : User} {provider : Provider} {offer : ProviderSubService} {service : Service}
    {sub : SubService} {j : Job}
    (h : newJob env b image seqId user provider offer service sub = .ok j) : Documented j := by
  have hnew := newJob_fresh h
  constructor
  · intro m hm
    rw [hnew.jobStatus] at hm
    cases hm
  · intro hr
    unfold Job.Rated at hr
    rw [hnew.userFeedback] at hr
    rcases hr with hr | hr <;> cases hr
  · intro hf
    simp only [Job.has, hnew.jobFinishAt, Option.isSome_none, Bool.false_eq_true] at hf
  · intro hs
    simp only [Job.has, hnew.jobStartAt, Option.isSome_none, Bool.false_eq_true] at hs

/-- In a state of documented jobs, every handler obeys the rule. -/
theorem evidenceRule (r : JobRequest) :
    OpRule (fun s op => AllDocumented s → EvidenceRule s op) r where
  read _ _ _ _ := trivial
  notify _ _ _ := trivial
  createCounter _ _ _ := trivial
  updateCounter _ _ _ _ _ := trivial
  createJob _ := fun _ _ _ _ _ _ _ _ _ h _ => newJob_documented h
  pay _ := fun _ _ _ _ => ⟨.of_marksStatus rfl, Or.inl (.of_free rfl rfl rfl)⟩
  updateJob := by
    intro s p j d hchecks hlook hp hj hplan hs
    refine ⟨plan_sound hplan hlook, ?_⟩
    cases hid : r.handler.checksId with
    | false => exact Or.inl ((plan_warranted hplan).1 hid)
    | true =>
      have hj' := Collection.mem_of_findOne hj
      refine Or.inr ⟨j, hj'.1, (plan_warranted hplan).2 (hs j hj'.1), fun j' hsel => ?_⟩
      rw [Bool.and_eq_true] at hsel
      exact jobById_injective (badId_of_checks hid hchecks) hp hsel.1 hj'.2

/-- An operation that obeys the rule keeps all jobs documented. -/
theorem allDocumented_exec {s : Db} {op : DbOp} (hs : AllDocumented s) (hop : EvidenceRule s op) :
    AllDocumented (exec op s).1 := by
  refine allJobs_exec (Q := Documented) hs ?_ ?_
  · rintro j rfl
    exact hop
  · rintro sel d now j rfl hfind hj
    have hm := Collection.mem_of_findOne hfind
    apply hj.apply hop.1
    rcases hop.2 with hall | ⟨j₁, hj₁, hwarr, honly⟩
    · exact hall j
    · -- The update can only have found the job that warrants it.
      rw [List.inj_on_of_nodup_map s.jobs.nodup hm.1 hj₁ (honly j hm.2)]
      exact hwarr

/-- The rule for a waiting operation outlives the operations of others: no job loses a mark. -/
theorem evidenceRule_exec {s : Db} {op op' : DbOp} (hop : EvidenceRule s op)
    (hop' : EvidenceRule s op') : EvidenceRule (exec op s).1 op' := by
  cases op' with
  | updateJob sel' d' now' =>
    refine ⟨hop'.1, ?_⟩
    rcases hop'.2 with hall | ⟨j, hj, hwarr, honly⟩
    · exact Or.inl hall
    · obtain ⟨j₁, hj₁, hid, hmarks⟩ : ∃ j₁, (exec op s).1.jobs.get? j.id = some j₁ ∧
          j₁.id = j.id ∧ ∀ m, j.has m = true → j₁.has m = true := by
        apply get?_exec (Q := fun j j' => j'.id = j.id ∧ ∀ m, j.has m = true → j'.has m = true)
          (fun _ => ⟨rfl, fun _ => id⟩) _ (Collection.get?_key hj)
        rintro sel d now rfl j'
        exact ⟨rfl, fun m => hop.1.keeps now j' m⟩
      refine Or.inr ⟨j₁, (Collection.mem_of_findOne hj₁).1, hwarr.mono hmarks, fun j' hsel => ?_⟩
      rw [honly j' hsel, hid]
  | createJob j => exact hop'
  | _ => trivial

/-- In every interleaving of calls to the routed job handlers, over any database without jobs,
every job carries its evidence chain in every state. -/
theorem evidence_chain (s : Db) (calls : List JobCall) (schedule : List ℕ) :
    ∀ j ∈ (runFrom JobPool.step (.ofCalls { s with jobs := .empty _ } calls)
      schedule).state.jobs.docs, EvidenceChain j := by
  have hinv : ∀ c : JobPool, AllDocumented c.state ∧
      c.Obeying (fun s op => AllDocumented s → EvidenceRule s op) → ∀ i,
      AllDocumented (c.step i).state ∧
        (c.step i).Obeying (fun s op => AllDocumented s → EvidenceRule s op) := by
    rintro c ⟨hdoc, hrule⟩ i
    have hstate : AllDocumented (c.step i).state := by
      rw [JobPool.state_step]
      cases hop : c.nextOp i with
      | none => exact hdoc
      | some op => exact allDocumented_exec hdoc (Pool.Following.next hrule hop hdoc)
    refine ⟨hstate, obeying_step hrule i fun k op' _ hop' _ => ?_⟩
    have hrule' := Pool.Following.next hrule hop' hdoc
    rw [JobPool.state_step]
    cases hop : c.nextOp i with
    | none => exact hrule'
    | some op => exact evidenceRule_exec (Pool.Following.next hrule hop hdoc) hrule'
  have hstart : (JobPool.ofCalls { s with jobs := .empty _ } calls).Obeying
      (fun s op => AllDocumented s → EvidenceRule s op) :=
    obeying_ofCalls (fun _ _ _ _ => trivial) evidenceRule _ calls
  have hend := invariant_of_step (fun c i hc => hinv c hc i)
    ⟨fun j hj => (List.not_mem_nil hj).elim, hstart⟩ schedule
  exact fun j hj => (hend.1 j hj).chain

/-- A job is booked, accepted and started while its assignment to a worker is in progress. -/
theorem evidence_chain_started :
    ∃ j ∈ (runFrom JobPool.step (.ofCalls { sampleDb with jobs := .empty _ }
      [.change sampleBooking, .change (onSampleJob .jobAccept company 2),
        .change (onSampleJob .assignJobToWorker company 3),
        .change (onSampleJob .jobStart company 4)])
      (List.replicate 12 0 ++ [2] ++ List.replicate 8 1 ++ List.replicate 8 3)).state.jobs.docs,
      j.jobStatus = .start ∧ EvidenceChain j := by
  have hany : ((runFrom JobPool.step (.ofCalls { sampleDb with jobs := .empty _ }
      [.change sampleBooking, .change (onSampleJob .jobAccept company 2),
        .change (onSampleJob .assignJobToWorker company 3),
        .change (onSampleJob .jobStart company 4)])
      (List.replicate 12 0 ++ [2] ++ List.replicate 8 1 ++ List.replicate 8 3)).state.jobs.docs.any
      fun j => j.jobStatus = .start) = true := by decide +kernel
  obtain ⟨j, hj, hstatus⟩ := List.any_eq_true.mp hany
  exact ⟨j, hj, of_decide_eq_true hstatus, evidence_chain sampleDb _ _ j hj⟩

end Evidence

end DoQwik
