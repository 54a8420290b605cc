import DoQwik.ProviderAccounts
import DoQwik.JobLifecycle

/-! Whether the worker that `delateWorker` and `editWorker` ask for is the account that they
then remove or change: the question is put with the company, the write with the id alone. -/
namespace DoQwik
open JsValues DocStore Interleave

def isWorkerOf (company : ObjectId) (p : Provider) : Bool :=
  p.userType = workerType && p.companyData = some company

section Conditions

variable {v : Option Json} {f : Option ObjectId → Bool} (h : castForQuery objectIdType v = .ok f)

include h

theorem providerById_eq : providerById v = .ok fun q => f (some q.id) := by
  simp only [providerById, h, Except.map]

/-- The question asks for more than the write. -/
theorem workersOf_eq (company : ObjectId) :
    workersOf v company = .ok fun q => f (some q.id) && isWorkerOf company q := by
  simp only [workersOf, h, Except.map, isWorkerOf, Bool.and_assoc]

end Conditions

section Removal

variable (s : Db) (env : Env) (c : Caller) (b : AccountBody)

/-- The position of the removal can be recorded. -/
def recordable : Bool :=
  (optional castString (ifTruthy b.latitude)).isOk &&
    (optional castString (ifTruthy b.longitude)).isOk

/-- The request gets through to the removal. -/
def removes : Bool :=
  (refusal (Providers.delateWorkerChecks b)).isNone &&
    someMatch s.providers (workersOf b.workerId c.userId) && recordable b

def afterRemoval (p : Option ObjectId → Bool) (cs : Collection Counter.table) (d : DeleteRecord) :
    Db :=
  { s with
    counters := cs
    deleteRecords := s.deleteRecords ++ [d]
    providers := (s.providers.deleteOne fun q => p (some q.id)).updateOne
      (fun q => q.id = c.userId) (pullFrom (fun w => p (some w)) env.now) (fun _ => rfl) }

theorem newDeleteRecord_of_recordable (h : recordable b = true) (seqId : ℕ) (worker : Provider) :
    ∃ d, Providers.newDeleteRecord env c b seqId worker = .ok d := by
  unfold recordable at h
  unfold Providers.newDeleteRecord
  cases hlat : optional castString (ifTruthy b.latitude) with
  | error e =>
    rw [hlat] at h
    cases h
  | ok lat =>
    cases hlon : optional castString (ifTruthy b.longitude) with
    | error e =>
      rw [hlat, hlon] at h
      cases h
    | ok lon => exact ⟨_, rfl⟩

/-- The record of a removal has the worker, but neither the address nor the platform. -/
theorem newDeleteRecord_entries {seqId : ℕ} {worker : Provider} {d : DeleteRecord}
    (h : Providers.newDeleteRecord env c b seqId worker = .ok d) :
    d.params = worker ∧ d.creationIp = none ∧ d.platform = none := by
  unfold Providers.newDeleteRecord at h
  obtain ⟨_, -, h⟩ := bind_eq_ok h
  obtain ⟨_, -, h⟩ := bind_eq_ok h
  rw [← Except.ok.inj h]
  exact ⟨rfl, rfl, rfl⟩

theorem newDeleteRecord_of_not_recordable (h : recordable b = false) (seqId : ℕ)
    (worker : Provider) : ∃ e, Providers.newDeleteRecord env c b seqId worker = .error e := by
  unfold recordable at h
  unfold Providers.newDeleteRecord
  cases hlat : optional castString (ifTruthy b.latitude) with
  | error e => exact ⟨e, rfl⟩
  | ok lat =>
    cases hlon : optional castString (ifTruthy b.longitude) with
    | error e => exact ⟨e, rfl⟩
    | ok lon =>
      rw [hlat, hlon] at h
      cases h

theorem serveAccount_eq (r : AccountRequest) : serveAccount s r = (r.handle.run exec s).1 := by
  unfold serveAccount AccountRequest.program
  rw [Prog.run_catchAll]

/-- A worker that was found is removed by its id, once its record is written. -/
theorem run_removeWorker {f : Option ObjectId → Bool}
    (hf : castForQuery objectIdType b.workerId = .ok f) (h : recordable b = true)
    (worker : Provider) :
    ∃ cs seqId d, Providers.newDeleteRecord env c b seqId worker = .ok d ∧
      ((Providers.removeWorker env c b worker).run exec s).1 = afterRemoval s env c f cs d := by
  obtain ⟨cs, n, hseq⟩ := run_getSequence "dqw_provider_services" s
  obtain ⟨d, hd⟩ := newDeleteRecord_of_recordable env c b h n worker
  refine ⟨cs, n, d, hd, ?_⟩
  unfold Providers.removeWorker deleteData updateWorkerList
  rw [Prog.run_bind, hseq]
  simp only [hd, providerById_eq hf, hf, run_cast_ok_bind]
  rfl

/-- Without a position that can be recorded nothing is removed. -/
theorem run_removeWorker_refused (h : recordable b = false) (worker : Provider) :
    ∃ cs, ((Providers.removeWorker env c b worker).run exec s).1 = { s with counters := cs } := by
  obtain ⟨cs, n, hseq⟩ := run_getSequence "dqw_provider_services" s
  obtain ⟨e, he⟩ := newDeleteRecord_of_not_recordable env c b h n worker
  refine ⟨cs, ?_⟩
  unfold Providers.removeWorker
  rw [Prog.run_bind, hseq]
  simp only [he]
  rfl

def delateRequest : AccountRequest :=
  { handler := .delateWorker, caller := c, body := b, env := env }

/-- A request that gets through removes the first account of the id, and records the first
worker of the company that has the id. -/
theorem serve_delateWorker (h : removes s c b = true) :
    ∃ f worker cs seqId d, castForQuery objectIdType b.workerId = .ok f ∧
      s.providers.findOne (fun q => f (some q.id) && isWorkerOf c.userId q) = some worker ∧
      Providers.newDeleteRecord env c b seqId worker = .ok d ∧
      serveAccount s (delateRequest env c b) = afterRemoval s env c f cs d := by
  simp only [removes, Bool.and_eq_true, Option.isNone_iff_eq_none] at h
  obtain ⟨⟨hchecks, hfound⟩, hrec⟩ := h
  rw [serveAccount_eq]
  simp only [delateRequest, AccountRequest.handle, Providers.delateWorker, checked, hchecks]
  cases hf : castForQuery objectIdType b.workerId with
  | error e =>
    simp only [workersOf, hf, Except.map, someMatch] at hfound
    cases hfound
  | ok f =>
    simp only [workersOf_eq hf, someMatch, decide_eq_true_eq] at hfound
    simp only [workersOf_eq hf, run_cast_ok_bind, run_query_bind]
    have hhead := List.head?_filter (p := fun q : Provider => f (some q.id) && isWorkerOf c.userId q)
      (l := s.providers.docs)
    cases hlist : s.providers.find fun q => f (some q.id) && isWorkerOf c.userId q with
    | nil =>
      rw [Collection.count, hlist] at hfound
      exact absurd rfl hfound
    | cons worker rest =>
      obtain ⟨cs, seqId, d, hd, hrun⟩ := run_removeWorker s env c b hf hrec worker
      refine ⟨f, worker, cs, seqId, d, rfl, ?_, hd, hrun⟩
      rw [Collection.findOne, ← hhead]
      exact congrArg List.head? hlist

/-- Any other request removes nothing. -/
theorem serve_delateWorker_refused (h : removes s c b = false) :
    ∃ cs, serveAccount s (delateRequest env c b) = { s with counters := cs } := by
  rw [serveAccount_eq]
  simp only [delateRequest, AccountRequest.handle, Providers.delateWorker, checked]
  cases hchecks : refusal (Providers.delateWorkerChecks b) with
  | some key => exact ⟨s.counters, rfl⟩
  | none =>
    simp only [removes, hchecks, Option.isNone_none, Bool.true_and] at h
    cases hf : castForQuery objectIdType b.workerId with
    | error e =>
      simp only [workersOf, hf, Except.map]
      exact ⟨s.counters, rfl⟩
    | ok f =>
      simp only [workersOf_eq hf, run_cast_ok_bind, run_query_bind]
      cases hlist : s.providers.find fun q => f (some q.id) && isWorkerOf c.userId q with
      | nil => exact ⟨s.counters, rfl⟩
      | cons worker rest =>
        have hsome : someMatch s.providers (workersOf b.workerId c.userId) = true := by
          simp [workersOf_eq hf, someMatch, Collection.count, hlist]
        rw [hsome, Bool.true_and] at h
        exact run_removeWorker_refused s env c b h worker

/-- Which accounts are gone after a removal. -/
theorem get?_afterRemoval_eq_none {f : Option ObjectId → Bool} {cs : Collection Counter.table}
    {d : DeleteRecord} (w : ObjectId) :
    (afterRemoval s env c f cs d).providers.get? w = none ↔
      s.providers.get? w = none ∨
        (s.providers.findOne fun q => f (some q.id)).map Provider.id = some w := by
  have hpull : (afterRemoval s env c f cs d).providers.get? w = none ↔
      (s.providers.deleteOne fun q => f (some q.id)).get? w = none :=
    Collection.get?_updateOne_eq_none (s.providers.deleteOne fun q => f (some q.id))
      (fun q => q.id = c.userId) (pullFrom (fun x => f (some x)) env.now) (fun _ => rfl) w
  rw [hpull, Collection.get?_deleteOne]
  split
  · rename_i hid
    exact iff_of_true rfl (Or.inr hid)
  · rename_i hid
    simp [hid]

/-- Only the account that the write selects is removed. -/
theorem get?_afterRemoval_none {f : Option ObjectId → Bool} {cs : Collection Counter.table}
    {d : DeleteRecord} {q : Provider} (hq : s.providers.get? q.id = some q) :
    (afterRemoval s env c f cs d).providers.get? q.id = none ↔
      s.providers.findOne (fun x => f (some x.id)) = some q := by
  rw [get?_afterRemoval_eq_none, hq]
  constructor
  · rintro (hnone | hid)
    · cases hnone
    · obtain ⟨x, hx, hxid⟩ := Option.map_eq_some_iff.mp hid
      have hget := Collection.get?_of_findOne hx
      rw [hxid, hq] at hget
      rw [hx, hget]
  · intro hx
    rw [hx]
    exact Or.inr rfl

/-- Whatever account the request removes is a worker of the company, and the one recorded. -/
def RemovesChecked : Prop :=
  ∀ q, s.providers.get? q.id = some q →
    (serveAccount s (delateRequest env c b)).providers.get? q.id = none →
      isWorkerOf c.userId q = true ∧
      ∃ d, (serveAccount s (delateRequest env c b)).deleteRecords = s.deleteRecords ++ [d] ∧
        d.params = q

/-- The request gets through, and the first account of the id is no worker of the company. -/
def strayRemoval : Bool :=
  removes s c b && !(selected s.providers (providerById b.workerId)).any (isWorkerOf c.userId)

theorem removesChecked_iff : RemovesChecked s env c b ↔ strayRemoval s c b = false := by
  unfold RemovesChecked strayRemoval
  cases hr : removes s c b with
  | false =>
    refine iff_of_true ?_ rfl
    intro q hq hgone
    obtain ⟨cs, hserve⟩ := serve_delateWorker_refused s env c b hr
    rw [hserve, hq] at hgone
    cases hgone
  | true =>
    obtain ⟨f, worker, cs, seqId, d, hf, hworker, hd, hserve⟩ := serve_delateWorker s env c b hr
    simp only [hserve, providerById_eq hf, selected, Bool.true_and]
    -- The worker that was found has the id, so that some account is removed.
    have hm := Collection.mem_of_findOne hworker
    obtain ⟨x, hx⟩ := Collection.exists_findOne (p := fun q => f (some q.id)) hm.1
      ((Bool.and_eq_true _ _).mp hm.2).1
    have hxget := Collection.get?_of_findOne hx
    rw [hx, Option.any_some, Bool.not_eq_false']
    constructor
    · intro h
      exact (h x hxget ((get?_afterRemoval_none s env c hxget).mpr hx)).1
    · intro hown q hq hgone
      have hqx : s.providers.findOne (fun y => f (some y.id)) = some q :=
        (get?_afterRemoval_none s env c hq).mp hgone
      rw [hx, Option.some.injEq] at hqx
      subst hqx
      refine ⟨hown, d, rfl, ?_⟩
      -- The first account of the id is then also the first worker that was asked for.
      have hsame := Collection.findOne_of_imp hx
        (q := fun q => f (some q.id) && isWorkerOf c.userId q)
        (by rw [(Collection.mem_of_findOne hx).2, hown]; rfl)
        (fun y hy => ((Bool.and_eq_true _ _).mp hy).1)
      rw [hworker, Option.some.injEq] at hsame
      rw [(newDeleteRecord_entries env c b hd).1, hsame]

end Removal

section Edit

variable (s : Db) (env : Env) (c : Caller) (b : ProviderBody) (profilePic : Option String)

def editRequest : ProviderRequest :=
  { handler := .editWorker profilePic, caller := some c, body := b, env := env }

/-- The request gets through to the update. -/
def edits : Bool :=
  (refusal (editWorkerChecks b profilePic)).isNone && (s.providers.get? c.userId).isSome &&
    someMatch s.providers (workersOf b.workerId c.userId) && (editWorkerData env b profilePic).isOk

/-- The time of the request decides nothing but the date of the update. -/
theorem editWorkerData_now (now : ℤ) {d : ProviderSet}
    (h : editWorkerData env b profilePic = .ok d) :
    editWorkerData { env with now := now } b profilePic =
      .ok { d with updateDate := some (some now) } := by
  unfold editWorkerData at h ⊢
  obtain ⟨_, h₁, h⟩ := bind_eq_ok h
  obtain ⟨_, h₂, h⟩ := bind_eq_ok h
  obtain ⟨_, h₃, h⟩ := bind_eq_ok h
  obtain ⟨_, h₄, h⟩ := bind_eq_ok h
  obtain ⟨_, h₅, h⟩ := bind_eq_ok h
  obtain ⟨_, h₆, h⟩ := bind_eq_ok h
  obtain ⟨_, h₇, h⟩ := bind_eq_ok h
  obtain ⟨_, h₈, h⟩ := bind_eq_ok h
  obtain ⟨_, h₉, h⟩ := bind_eq_ok h
  rw [← Except.ok.inj h]
  simp only [h₁, h₂, h₃, h₄, h₅, h₆, h₇, h₈, h₉, bind, Except.bind]
  rfl

theorem edits_now (now : ℤ) (h : edits s env c b profilePic = true) :
    edits s { env with now := now } c b profilePic = true := by
  unfold edits at h ⊢
  cases hd : editWorkerData env b profilePic with
  | error e =>
    rw [hd] at h
    simp [Except.isOk, Except.toBool] at h
  | ok d =>
    rw [hd] at h
    rw [editWorkerData_now env b profilePic now hd]
    exact h

theorem serveProvider_editRequest :
    serveProvider s (editRequest env c b profilePic) =
      ((editWorker env c b profilePic).run exec s).1 := by
  unfold serveProvider ProviderRequest.program editRequest authenticated
  rw [Prog.run_catchAll]

theorem providers_sendWorker (x : Option Provider) (t : Db) :
    ((sendWorker x).run exec t).1.providers = t.providers := by
  cases x with
  | none => rfl
  | some w => rfl

/-- A request that gets through updates the first account of the id. -/
theorem serve_editWorker (h : edits s env c b profilePic = true) :
    ∃ f d worker, castForQuery objectIdType b.workerId = .ok f ∧
      editWorkerData env b profilePic = .ok d ∧
      s.providers.findOne (fun q => f (some q.id) && isWorkerOf c.userId q) = some worker ∧
      (serveProvider s (editRequest env c b profilePic)).providers =
        s.providers.updateOne (fun q => f (some q.id)) (d.apply env.now) (d.apply_id env.now) := by
  simp only [edits, Bool.and_eq_true, Option.isNone_iff_eq_none] at h
  obtain ⟨⟨⟨hchecks, hcompany⟩, hfound⟩, hdata⟩ := h
  obtain ⟨company, hget⟩ := Option.isSome_iff_exists.mp hcompany
  have hid : company.id = c.userId := ((s.providers.get?_eq_some_iff _ _).mp hget).2
  rw [serveProvider_editRequest]
  simp only [editWorker, checked, hchecks, run_query_bind, hget]
  cases hf : castForQuery objectIdType b.workerId with
  | error e =>
    simp only [workersOf, hf, Except.map, someMatch] at hfound
    cases hfound
  | ok f =>
    cases hd : editWorkerData env b profilePic with
    | error e =>
      rw [hd] at hdata
      cases hdata
    | ok d =>
      simp only [workersOf_eq hf, someMatch, decide_eq_true_eq] at hfound
      have hpos := Nat.pos_of_ne_zero hfound
      simp only [workersOf_eq hf, run_cast_ok_bind, run_query_bind, hid, gt_iff_lt, hpos, if_true,
        updateProviderData, providerById_eq hf]
      obtain ⟨worker, hworker⟩ := List.exists_mem_of_length_pos hpos
      have hm := List.mem_filter.mp hworker
      obtain ⟨first, hfirst⟩ := Collection.exists_findOne
        (p := fun q => f (some q.id) && isWorkerOf c.userId q) hm.1 hm.2
      exact ⟨f, d, first, rfl, rfl, hfirst, providers_sendWorker _ _⟩

/-- Any other request changes nothing. -/
theorem serve_editWorker_refused (h : edits s env c b profilePic = false) :
    (serveProvider s (editRequest env c b profilePic)).providers = s.providers := by
  rw [serveProvider_editRequest]
  simp only [editWorker, checked]
  cases hchecks : refusal (editWorkerChecks b profilePic) with
  | some key => rfl
  | none =>
    simp only [run_query_bind]
    cases hget : s.providers.get? c.userId with
    | none => rfl
    | some company =>
      have hid : company.id = c.userId := ((s.providers.get?_eq_some_iff _ _).mp hget).2
      simp only [hid]
      cases hf : castForQuery objectIdType b.workerId with
      | error e =>
        simp only [workersOf, hf, Except.map]
        rfl
      | ok f =>
        simp only [workersOf_eq hf, run_cast_ok_bind, run_query_bind]
        split
        · rename_i hpos
          have hsome : someMatch s.providers (workersOf b.workerId c.userId) = true := by
            simp only [workersOf_eq hf, someMatch, decide_eq_true_eq]
            exact Nat.ne_of_gt hpos
          simp only [edits, hchecks, hget, hsome, Option.isNone_none, Option.isSome_some,
            Bool.true_and] at h
          cases hd : editWorkerData env b profilePic with
          | error e =>
            simp only [updateProviderData, providerById_eq hf]
            rfl
          | ok d =>
            rw [hd] at h
            cases h
        · rfl

/-- Whatever account the request changes, at any time, is a worker of the company. -/
def ChangesChecked : Prop :=
  ∀ now q, s.providers.get? q.id = some q →
    (serveProvider s (editRequest { env with now := now } c b profilePic)).providers.get? q.id ≠
      some q → isWorkerOf c.userId q = true

/-- The request gets through, and the first account of the id is no worker of the company. -/
def strayEdit : Bool :=
  edits s env c b profilePic &&
    !(selected s.providers (providerById b.workerId)).any (isWorkerOf c.userId)

theorem changesChecked_iff :
    ChangesChecked s env c b profilePic ↔ strayEdit s env c b profilePic = false := by
  unfold ChangesChecked strayEdit
  cases hr : edits s env c b profilePic with
  | false =>
    refine iff_of_true ?_ rfl
    intro now q hq hchange
    cases hr' : edits s { env with now := now } c b profilePic with
    | false =>
      rw [serve_editWorker_refused s _ c b profilePic hr'] at hchange
      exact absurd hq hchange
    | true =>
      have hback := edits_now s { env with now := now } c b profilePic env.now hr'
      rw [show edits s { env with now := env.now } c b profilePic = false from hr] at hback
      cases hback
  | true =>
    obtain ⟨f, d, worker, hf, -, hworker, -⟩ := serve_editWorker s env c b profilePic hr
    simp only [providerById_eq hf, selected, Bool.true_and]
    have hm := Collection.mem_of_findOne hworker
    obtain ⟨x, hx⟩ := Collection.exists_findOne (p := fun q => f (some q.id)) hm.1
      ((Bool.and_eq_true _ _).mp hm.2).1
    have hxget := Collection.get?_of_findOne hx
    rw [hx, Option.any_some, Bool.not_eq_false']
    -- The providers after the same request at another time.
    have hserve : ∀ now, ∃ d : ProviderSet,
        (serveProvider s (editRequest { env with now := now } c b profilePic)).providers =
          s.providers.updateOne (fun q => f (some q.id)) (d.apply now) (d.apply_id now) := by
      intro now
      obtain ⟨f', d', -, hf', -, -, hrun⟩ :=
        serve_editWorker s _ c b profilePic (edits_now s env c b profilePic now hr)
      rw [hf, Except.ok.injEq] at hf'
      subst hf'
      exact ⟨d', hrun⟩
    constructor
    · intro h
      -- At a time other than that of its last update the account is seen to change.
      obtain ⟨d', hd'⟩ := hserve (x.updatedAt+1)
      refine h (x.updatedAt+1) x hxget ?_
      rw [hd', Collection.get?_updateOne, hx, Option.map_some, if_pos rfl, hxget, Option.map_some]
      intro heq
      have htime := congrArg Provider.updatedAt (Option.some.inj heq)
      have hnow : (d'.apply (x.updatedAt+1) x).updatedAt = x.updatedAt+1 := rfl
      omega
    · intro hown now q hq hchange
      obtain ⟨d', hd'⟩ := hserve now
      rw [hd', Collection.get?_updateOne, hx] at hchange
      split at hchange
      · rename_i hid
        have hxq : x.id = q.id := by simpa using hid
        rw [← hxq, hxget, Option.some.injEq] at hq
        rw [← hq]
        exact hown
      · exact absurd hq hchange

end Edit

section Records

/-- What `delateWorker` removes and `editWorker` changes is a worker of the company that asks,
and the record of a removal is that of the removed worker, exactly when the id of a request
that gets through does not select another account first. -/
theorem acts_on_checked_iff (s : Db) (env : Env) (c : Caller) :
    (∀ b : AccountBody, RemovesChecked s env c b ↔ strayRemoval s c b = false) ∧
      ∀ (b : ProviderBody) (profilePic : Option String),
        ChangesChecked s env c b profilePic ↔ strayEdit s env c b profilePic = false :=
  ⟨removesChecked_iff s env c, changesChecked_iff s env c⟩

def anyId : Option Json := some (.obj [("$ne", .null)])

def strayRemovalBody : AccountBody where
  workerId := anyId
  platform := some (.str "Android")
  ipAddress := some (.str "10.0.0.1")

def strayEditBody : ProviderBody where
  workerId := anyId
  fullName := some (.str "Ann")
  country := some (.str "NG")
  state := some (.str "Lagos")
  city := some (.str "Ikeja")
  landMark := some (.str "Mall")
  postalCode := some (.str "100")
  platform := some (.str "Android")

/-- A company that has a worker asks for the worker with an operator in the place of the id:
the account that is removed, or changed, is the first of all, its own. -/
theorem operator_removes_company :
    ¬ RemovesChecked sampleDb (sampleEnv 1) company strayRemovalBody ∧
      ¬ ChangesChecked sampleDb (sampleEnv 1) company strayEditBody (some "a.png") := by
  let account := sampleProvider "company---01" companyType none
  have hget : sampleDb.providers.get? account.id = some account := rfl
  have hother : isWorkerOf company.userId account = false := by decide +kernel
  constructor
  · intro h
    have hgone : ((serveAccount sampleDb (delateRequest (sampleEnv 1) company
        strayRemovalBody)).providers.get? account.id).isNone = true := by decide +kernel
    have hown := (h account hget (Option.isNone_iff_eq_none.mp hgone)).1
    rw [hother] at hown
    cases hown
  · intro h
    have hname : ((serveProvider sampleDb (editRequest { sampleEnv 1 with now := 1 } company
        strayEditBody (some "a.png"))).providers.get? account.id).map Provider.fullName =
          some "Ann" := by decide +kernel
    have hown := h 1 account hget (by
      intro heq
      rw [heq] at hname
      exact absurd hname (by decide))
    rw [hother] at hown
    cases hown

end Records

end DoQwik
