import DoQwik.JobLifecycle

/-! The times that a job record holds. Each handler that gives a job a status stores the time
beside it, and later handlers leave the times of earlier ones alone: so the record of a job tells
the order in which things happened, as long as the clock does not go back. -/
namespace DoQwik
open JsValues DocStore Interleave

section Times

/-- The job was accepted, rejected, started or finished at this time, at the latest occasion. -/
def Job.HappenedAt (j : Job) (t : ℤ) : Prop :=
  j.jobAcceptAt = some t ∨ j.jobRejectAt = some t ∨ j.jobStartAt = some t ∨ j.jobFinishAt = some t

def Job.statusSince (j : Job) : Option ℤ :=
  match j.jobStatus with
  | .processing => some j.creationDate
  | .assign => j.updateDate
  | .accept => j.jobAcceptAt
  | .reject => j.jobRejectAt
  | .start => j.jobStartAt
  | .complete => j.jobFinishAt

/-- What the record tells at the time `now`: the status goes with the latest of the times, all of
them lie between the booking and now, nothing has happened to a new job, and a reply is not
earlier than the feedback that it answers. -/
structure Chronological (now : ℤ) (j : Job) : Prop where
  status : ∃ t, j.statusSince = some t ∧ t ≤ now ∧ ∀ e, j.HappenedAt e → e ≤ t
  booked : j.creationDate ≤ now ∧ ∀ e, j.HappenedAt e → j.creationDate ≤ e
  new : j.jobStatus = .processing → ∀ e, ¬ j.HappenedAt e
  rated : ∀ e, j.userFeedback.feedbackAt = some e → j.creationDate ≤ e ∧ e ≤ now
  replied : ∀ e e', j.userFeedback.feedbackAt = some e → j.userFeedback.replayAt = some e' → e ≤ e'

theorem Chronological.mono {n now : ℤ} {j : Job} (h : Chronological n j) (hn : n ≤ now) :
    Chronological now j where
  status := by
    obtain ⟨t, hsince, ht, hlatest⟩ := h.status
    exact ⟨t, hsince, ht.trans hn, hlatest⟩
  booked := ⟨h.booked.1.trans hn, h.booked.2⟩
  new := h.new
  rated e he := ⟨(h.rated e he).1, (h.rated e he).2.trans hn⟩
  replied := h.replied

end Times

section Changes

variable {r : JobRequest} {j : Job} {d : JobSet}

theorem JobChange.creationDate (h : JobChange r j d) :
    (d.apply r.env.now j).creationDate = j.creationDate := by
  cases h <;> rfl

/-- The update leaves the status and what has happened alone, or it gives a status with the time
of the request, and sets no other time. -/
theorem JobChange.times (h : JobChange r j d) :
    ((d.apply r.env.now j).jobStatus = j.jobStatus ∧
        (d.apply r.env.now j).statusSince = j.statusSince ∧
        ∀ e, (d.apply r.env.now j).HappenedAt e → j.HappenedAt e) ∨
      (d.apply r.env.now j).jobStatus ≠ .processing ∧
        (d.apply r.env.now j).statusSince = some r.env.now ∧
        ∀ e, (d.apply r.env.now j).HappenedAt e → j.HappenedAt e ∨ e = r.env.now := by
  have hkept : ∀ {e : ℤ}, j.HappenedAt e → j.HappenedAt e ∨ e = r.env.now := fun he => Or.inl he
  cases h with
  | proceedToPay | paymentSuccess | userJobReschedule | submitFeedback | replyFeedback =>
    exact Or.inl ⟨rfl, rfl, fun _ he => he⟩
  | paymentUpdate hr hs =>
    -- The time of the update is that of the status of an assigned job only.
    refine Or.inl ⟨rfl, ?_, fun _ he => he⟩
    simp only [Job.statusSince, JobSet.apply, Option.getD_none, hs]
  | assignJobToWorker => exact Or.inr ⟨by simp [JobSet.apply], rfl, fun _ he => Or.inl he⟩
  | jobAccept =>
    refine Or.inr ⟨by simp [JobSet.apply], rfl, ?_⟩
    rintro e (he | he)
    · exact Or.inr (Option.some.inj he).symm
    · exact Or.inl (Or.inr he)
  | reject =>
    refine Or.inr ⟨by simp [JobSet.apply], rfl, ?_⟩
    rintro e (he | he | he)
    · exact Or.inl (Or.inl he)
    · exact Or.inr (Option.some.inj he).symm
    · exact Or.inl (Or.inr (Or.inr he))
  | jobStart =>
    refine Or.inr ⟨by simp [JobSet.apply], rfl, ?_⟩
    rintro e (he | he | he | he)
    · exact Or.inl (Or.inl he)
    · exact Or.inl (Or.inr (Or.inl he))
    · exact Or.inr (Option.some.inj he).symm
    · exact Or.inl (Or.inr (Or.inr (Or.inr he)))
  | jobFinish =>
    refine Or.inr ⟨by simp [JobSet.apply], rfl, ?_⟩
    rintro e (he | he | he | he)
    · exact Or.inl (Or.inl he)
    · exact Or.inl (Or.inr (Or.inl he))
    · exact Or.inl (Or.inr (Or.inr (Or.inl he)))
    · exact Or.inr (Option.some.inj he).symm

/-- The update leaves the feedback alone, replaces it, or adds a reply to it. -/
theorem JobChange.feedback (h : JobChange r j d) :
    (d.apply r.env.now j).userFeedback = j.userFeedback ∨
      ((d.apply r.env.now j).userFeedback.feedbackAt = some r.env.now ∧
        (d.apply r.env.now j).userFeedback.replayAt = none) ∨
      (d.apply r.env.now j).userFeedback.feedbackAt = j.userFeedback.feedbackAt ∧
        (d.apply r.env.now j).userFeedback.replayAt = some r.env.now := by
  cases h with
  | submitFeedback => exact Or.inr (Or.inl ⟨rfl, rfl⟩)
  | replyFeedback => exact Or.inr (Or.inr ⟨rfl, rfl⟩)
  | _ => exact Or.inl rfl

/-- An update at a time that is not earlier keeps the record in order. -/
theorem Chronological.change (hj : Chronological r.env.now j) (h : JobChange r j d) :
    Chronological r.env.now (d.apply r.env.now j) := by
  have hdate := h.creationDate
  obtain ⟨t, hsince, ht, hlatest⟩ := hj.status
  obtain ⟨hbooked, hafter⟩ := hj.booked
  have hbefore : ∀ e, j.HappenedAt e → e ≤ r.env.now := fun e he => (hlatest e he).trans ht
  have htimes := h.times
  refine ⟨?_, ⟨hdate ▸ hbooked, ?_⟩, ?_, ?_, ?_⟩
  · rcases htimes with ⟨-, hsame, hkept⟩ | ⟨-, hnow, hadded⟩
    · exact ⟨t, hsame.trans hsince, ht, fun e he => hlatest e (hkept e he)⟩
    · refine ⟨r.env.now, hnow, le_refl _, fun e he => ?_⟩
      rcases hadded e he with hold | rfl
      · exact hbefore e hold
      · exact le_refl _
  · intro e he
    rw [hdate]
    rcases htimes with ⟨-, -, hkept⟩ | ⟨-, -, hadded⟩
    · exact hafter e (hkept e he)
    · rcases hadded e he with hold | rfl
      · exact hafter e hold
      · exact hbooked
  · intro hs e he
    rcases htimes with ⟨hstatus, -, hkept⟩ | ⟨hstatus, -⟩
    · exact hj.new (hstatus ▸ hs) e (hkept e he)
    · exact hstatus hs
  · intro e he
    rw [hdate]
    rcases h.feedback with hsame | ⟨hnow, -⟩ | ⟨hsame, -⟩
    · exact hj.rated e (hsame ▸ he)
    · rw [hnow] at he
      cases he
      exact ⟨hbooked, le_refl _⟩
    · exact hj.rated e (hsame ▸ he)
  · intro e e' he he'
    rcases h.feedback with hsame | ⟨-, hnone⟩ | ⟨hsame, hnow⟩
    · rw [hsame] at he he'
      exact hj.replied e e' he he'
    · rw [hnone] at he'
      cases he'
    · rw [hsame] at he
      rw [hnow] at he'
      cases he'
      exact (hj.rated e he).2

/-- Nothing has happened to a job that was just booked. -/
theorem chronological_newJob {env : Env} {b : JobBody} {image : Option String} {seqId : ℕ}
    {user : User} {provider : Provider} {offer : ProviderSubService} {service : Service}
    {sub : SubService} {j : Job}
    (h : newJob env b image seqId user provider offer service sub = .ok j) :
    Chronological env.now j := by
  unfold newJob at h
  iterate 12 obtain ⟨_, -, h⟩ := bind_eq_ok h
  cases h
  have hnothing : ∀ e : ℤ, ¬ ((none : Option ℤ) = some e ∨ none = some e ∨ none = some e ∨
      none = some e) := by
    simp
  refine ⟨⟨env.now, rfl, le_refl _, ?_⟩, ⟨le_refl _, ?_⟩, fun _ => hnothing, ?_, ?_⟩
  · exact fun e he => absurd he (hnothing e)
  · exact fun e he => absurd he (hnothing e)
  · intro e he
    cases he
  · intro e e' he
    cases he

end Changes

section Runs

/-- A request at a time that is not earlier keeps all records in order. -/
theorem chronological_serve {n : ℤ} {s : Db} {r : JobRequest} (hs : AllJobs (Chronological n) s)
    (hn : n ≤ r.env.now) : AllJobs (Chronological r.env.now) (serve s r) := by
  intro j' hj'
  rcases get?_serve_cases (Collection.get?_key hj') with ⟨w, j, hw, hfind, -, rfl⟩ |
    ⟨hold, -⟩ | ⟨k, hk, -⟩
  · have hj := hs j (Collection.mem_of_findOne hfind).1
    exact (hj.mono hn).change (change_written hw hfind)
  · exact (hs j' ((s.jobs.get?_eq_some_iff _ _).mp hold).1).mono hn
  · exact chronological_newJob hk.new

/-- After every run of requests whose clock does not go back, over a database without jobs: the
status of a job goes with the latest time in its record, and the times lie in the order in which
things happened. -/
theorem status_since_latest_event (s : Db) (rs : List JobRequest) (r : JobRequest)
    (hclock : ((rs ++ [r]).map fun q => q.env.now).Pairwise (· ≤ ·)) :
    AllJobs (Chronological r.env.now)
      (runFrom serve { s with jobs := .empty _ } (rs ++ [r])) := by
  induction rs using List.reverseRecOn generalizing r with
  | nil => exact chronological_serve (n := r.env.now) (allJobs_empty _ s) (le_refl _)
  | append_singleton rs q ih =>
    rw [List.map_append, List.pairwise_append] at hclock
    have hbefore := ih q hclock.1
    have hqr : q.env.now ≤ r.env.now :=
      hclock.2.2 _ (List.mem_map_of_mem (List.mem_append_right rs List.mem_cons_self)) _
        (List.mem_singleton.mpr rfl)
    rw [runFrom_append]
    exact chronological_serve hbefore hqr

def sampleHistory : List JobRequest :=
  [sampleBooking, onSampleJob .jobAccept company 2, onSampleJob .jobStart company 3,
    onSampleJob .jobFinish company 4, onSampleJob .submitFeedback customer 5]

theorem status_since_finish :
    (runFrom serve { sampleDb with jobs := .empty _ }
        (sampleHistory ++ [onSampleJob .replyFeedback company 6])).jobs.docs.map
        (fun j => (j.jobStatus, j.jobFinishAt, j.userFeedback.replayAt)) =
        [(.complete, some 4, some 6)] ∧
      AllJobs (Chronological 6) (runFrom serve { sampleDb with jobs := .empty _ }
        (sampleHistory ++ [onSampleJob .replyFeedback company 6])) :=
  ⟨by decide +kernel, status_since_latest_event sampleDb sampleHistory
    (onSampleJob .replyFeedback company 6) (by decide +kernel)⟩

end Runs

end DoQwik
