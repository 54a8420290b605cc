import DoQwik.Stages

/-! What the handlers that update a job do, step by step, as one rule. They check the request, look
up a worker or an address, read the job, and write the planned update; from there on they start
notifications and answer. -/
namespace DoQwik
open JsValues DocStore Interleave

variable {γ : Type} {Step : γ → DbOp → Db → γ → Prop} {Q : γ → JobResponse → Prop} {E : γ → Prop}
  {r : JobRequest} {g : γ}

/-- How the handlers end once the update was made: with the job, or with a text. -/
def endsWith (x : Option Job) (a : JobResponse) : Prop :=
  a.result = some (.job x) ∨ ∃ text, a.result = some (.message text)

theorem tracks_notifyAndSend (kinds : List NoticeKind) {x : Option Job}
    (hnotify : ∀ j ∈ x, ∀ kind t, Step g (.notify ⟨kind, j.id⟩) t g) (hthrow : E g)
    (hanswer : ∀ a, endsWith x a → Q g a) :
    Prog.Tracks exec Step Q E g (notifyAndSend kinds x) := by
  cases x with
  | none => exact hthrow
  | some j =>
    change Prog.Tracks exec Step Q E g (notifyAll j.id kinds >>= fun _ => sendResult (some j))
    induction kinds with
    | nil => exact hanswer _ (Or.inl rfl)
    | cons kind kinds ih => exact fun t => ⟨g, hnotify j rfl kind t, ih⟩

theorem tracks_finish {x : Option Job}
    (hnotify : ∀ j ∈ x, ∀ kind t, Step g (.notify ⟨kind, j.id⟩) t g) (hthrow : E g)
    (hanswer : ∀ a, endsWith x a → Q g a) : Prog.Tracks exec Step Q E g (r.finish x) := by
  have hnotifies (kinds : List NoticeKind) := tracks_notifyAndSend kinds hnotify hthrow hanswer
  unfold JobRequest.finish
  cases r.handler with
  | proceedToPay | jobAccept | jobStart | jobFinish | paymentUpdate => exact hnotifies _
  | submitFeedback | replyFeedback =>
    cases x with
    | none => exact hanswer _ (Or.inr ⟨_, rfl⟩)
    | some j => exact hanswer _ (Or.inl rfl)
  | _ => exact hanswer _ (Or.inl rfl)

/-- What a request needs for its operations to be steps of the stages. -/
structure ChangeRule (Step : γ → DbOp → Db → γ → Prop) (Q : γ → JobResponse → Prop) (E : γ → Prop)
    (r : JobRequest) (g : γ) : Prop where
  readJob : ∀ p, jobById r.target = .ok p → ∀ t,
    Step g (.read fun s => (s.jobs.findOne p).map (populate s)) t g
  countWorkers : ∀ p t, Step g (.read fun s => s.providers.count p) t g
  findAddresses : ∀ p t, Step g (.read fun s => s.addresses.find p) t g
  refuse : ∀ key, Q g { key := key }
  throw : E g
  update : ∀ p j d, jobById r.target = .ok p → r.plan j = .ok (.update d) → ∀ t, ∃ g',
    Step g (.updateJob (fun j => p j && r.filter j) d r.env.now) t g' ∧
      Prog.Tracks exec Step Q E g'
        (r.finish ((t.jobs.findOne fun j => p j && r.filter j).map (d.apply r.env.now)))
  pay : r.handler = .paymentSuccess → ∀ p, jobById r.target = .ok p → ∀ t, ∃ g',
    Step g (.updateJob p paymentSuccessParam r.env.now) t g' ∧
      Prog.Tracks exec Step Q E g'
        (sendResult ((t.jobs.findOne p).map (paymentSuccessParam.apply r.env.now)))

theorem tracks_changeJob (h : ChangeRule Step Q E r g) :
    Prog.Tracks exec Step Q E g (changeJob r.env r.target r.filter r.plan r.finish) := by
  unfold changeJob
  cases hid : jobById r.target with
  | error e => exact h.throw
  | ok p =>
    refine fun t => ⟨g, h.readJob p hid t, ?_⟩
    rw [exec_read]
    cases t.jobs.findOne p with
    | none => exact h.refuse .jobNotFound
    | some j =>
      refine tracks_cast_bind h.throw fun decision hplan => ?_
      cases decision with
      | refuse key => exact h.refuse key
      | update d => exact h.update p j d hid hplan

/-- Handlers other than `assignJob` take steps of the stages. -/
theorem tracks_handle (hr : r.handler ≠ .assignJob) (h : ChangeRule Step Q E r g) :
    Prog.Tracks exec Step Q E g r.handle := by
  have hchange := tracks_changeJob h
  have hpay := h.pay
  have hcount := h.countWorkers
  have hfind := h.findAddresses
  have hrefuse := h.refuse
  have hthrow := h.throw
  obtain ⟨handler, c, b, files, env⟩ := r
  cases handler with
  | assignJob => exact absurd rfl hr
  | paymentSuccess =>
    refine tracks_checked hrefuse fun _ => ?_
    simp only [updateData]
    cases hid : jobById b.jobID with
    | error e => exact hthrow
    | ok p => exact hpay rfl p hid
  | assignJobToWorker =>
    refine tracks_checked hrefuse fun _ => tracks_cast_bind hthrow fun p _ => ?_
    refine fun t => ⟨g, hcount p t, ?_⟩
    change Prog.Tracks exec Step Q E g (if t.providers.count p = 0 then _ else _)
    split
    · exact hrefuse _
    · exact hchange
  | jobStart =>
    refine tracks_checked hrefuse fun _ => ?_
    rcases files with _ | ⟨i, _ | x, _ | y⟩
    · exact hthrow
    · exact hrefuse _
    · exact hrefuse _
    · exact hrefuse _
    · exact hchange
  | userJobReschedule =>
    refine tracks_checked hrefuse fun _ => ?_
    simp only [getAddressDataById]
    cases addressOf b.locationID c.userId with
    | error e => exact hthrow
    | ok p =>
      refine fun t => ⟨g, hfind p t, ?_⟩
      change Prog.Tracks exec Step Q E g (if (t.addresses.find p).isEmpty then _ else _)
      split
      · exact hrefuse _
      · exact hchange
  | _ => exact tracks_checked hrefuse fun _ => hchange

end DoQwik
