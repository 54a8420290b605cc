import DoQwik.ProviderController

/-! Whether a response tells the stored token of a provider to somebody else. Two runs are
compared, from states that differ in the token of one account only. -/
namespace DoQwik
open JsValues DocStore Interleave

section States

variable (a : ObjectId) (t : Option TokenText)

def setToken (p : Provider) : Provider := if p.id = a then { p with token := t } else p

variable (p : Provider)

@[simp] theorem setToken_id : (setToken a t p).id = p.id := by
  unfold setToken
  split <;> rfl

@[simp] theorem setToken_userType : (setToken a t p).userType = p.userType := by
  unfold setToken
  split <;> rfl

@[simp] theorem setToken_companyData : (setToken a t p).companyData = p.companyData := by
  unfold setToken
  split <;> rfl

@[simp] theorem setToken_workers : (setToken a t p).workers = p.workers := by
  unfold setToken
  split <;> rfl

@[simp] theorem setToken_card : (setToken a t p).card = p.card := by
  unfold setToken
  split <;> rfl

/-- An edit of a worker does not touch the token. -/
theorem setToken_apply (d : ProviderSet) (now : ℤ) :
    d.apply now (setToken a t p) = setToken a t (d.apply now p) := by
  have hid : (d.apply now p).id = p.id := d.apply_id now p
  unfold setToken
  rw [hid]
  split <;> rfl

theorem setToken_of_ne (h : p.id ≠ a) : setToken a t p = p := if_neg h

def withToken (s : Db) : Db :=
  { s with providers := s.providers.map (setToken a t) (setToken_id a t) }

end States

section Responses

/-- The account documents that a response shows. -/
def shownIn : ProviderResult → List Provider
  | .workerDetail w _ _ => w.toList
  | .workerList ws => ws
  | .worker w => w.toList
  | _ => []

def shown (x : ProviderResponse) : List Provider := (x.result.map shownIn).getD []

def mapResult (f : Provider → Provider) : ProviderResult → ProviderResult
  | .workerDetail w services subServices => .workerDetail (w.map f) services subServices
  | .workerList ws => .workerList (ws.map f)
  | .worker w => .worker (w.map f)
  | x => x

def mapResponse (f : Provider → Provider) (x : ProviderResponse) : ProviderResponse :=
  { x with result := x.result.map (mapResult f) }

theorem shown_mapResponse (f : Provider → Provider) (x : ProviderResponse) :
    shown (mapResponse f x) = (shown x).map f := by
  obtain ⟨key, result, header⟩ := x
  cases result with
  | none => rfl
  | some r =>
    cases r with
    | workerDetail w services subServices => cases w <;> rfl
    | worker w => cases w <;> rfl
    | _ => rfl

/-- A change of no document shown changes no response. -/
theorem mapResponse_eq_self {f : Provider → Provider} {x : ProviderResponse}
    (h : ∀ p ∈ shown x, f p = p) : mapResponse f x = x := by
  obtain ⟨key, result, header⟩ := x
  cases result with
  | none => rfl
  | some r =>
    cases r with
    | workerDetail w services subServices =>
      cases w with
      | none => rfl
      | some p =>
        have hp : f p = p := h p (List.mem_singleton_self p)
        simp [mapResponse, mapResult, hp]
    | workerList ws =>
      have hws : ws.map f = ws := (List.map_congr_left h).trans (List.map_id ws)
      simp [mapResponse, mapResult, hws]
    | worker w =>
      cases w with
      | none => rfl
      | some p =>
        have hp : f p = p := h p (List.mem_singleton_self p)
        simp [mapResponse, mapResult, hp]
    | _ => rfl

end Responses

section TwoRuns

variable {a : ObjectId} {t : Option TokenText} {α β : Type}

/-- The programs agree, up to `V`, on a state and the same state with another token. -/
abbrev Agree (a : ObjectId) (t : Option TokenText) (V : α → β → Prop) (p : Action α)
    (q : Action β) : Prop :=
  Prog.Related exec (fun s s' => s' = withToken a t s) V p q

/-- The second value shows the first with the other token. -/
abbrev Retokened (a : ObjectId) (t : Option TokenText) (x y : ProviderResponse) : Prop :=
  y = mapResponse (setToken a t) x

theorem agree_query {V : α → β → Prop} {f : Db → α} {g : Db → β}
    (h : ∀ s, V (f s) (g (withToken a t s))) : Agree a t V (query f) (query g) :=
  related_query fun s _ hs => hs ▸ h s

theorem agree_getProvider (id : ObjectId) :
    Agree a t (fun x y => y = x.map (setToken a t)) (query fun s => s.providers.get? id)
      (query fun s => s.providers.get? id) :=
  agree_query fun s => Collection.get?_map s.providers (setToken_id a t) id

theorem agree_updateProvider {p : Provider → Bool} (hp : ∀ q, p (setToken a t q) = p q)
    (d : ProviderSet) (now : ℤ) :
    Agree a t (fun x y : Option Provider => y = x.map (setToken a t))
      (Prog.perform (DbOp.updateProvider p d now)) (Prog.perform (DbOp.updateProvider p d now)) := by
  rintro s s' rfl
  have hstate : (withToken a t s).providers.updateOne p (d.apply now) (d.apply_id now) =
      (s.providers.updateOne p (d.apply now) (d.apply_id now)).map (setToken a t) (setToken_id a t) :=
    Collection.updateOne_map s.providers (setToken_id a t) hp _ fun q => setToken_apply a t q d now
  have hvalue : (withToken a t s).providers.findOne p =
      (s.providers.findOne p).map (setToken a t) :=
    Collection.findOne_map s.providers (setToken_id a t) hp
  constructor
  · exact congrArg (fun c => { withToken a t s with providers := c }) hstate
  · change ((withToken a t s).providers.findOne p).map (d.apply now) =
      ((s.providers.findOne p).map (d.apply now)).map (setToken a t)
    rw [hvalue, Option.map_map, Option.map_map]
    congr 1
    funext q
    exact setToken_apply a t q d now

theorem agree_reply (key : MessageKey) {x y : Option ProviderResult}
    (h : y = x.map (mapResult (setToken a t))) :
    Agree a t (Retokened a t) (reply key x) (reply key y) := by
  refine Prog.Related.done ?_
  rw [h]
  rfl

theorem agree_checked {checks : List (Bool × MessageKey)} {p q : Action ProviderResponse}
    (h : Agree a t (Retokened a t) p q) :
    Agree a t (Retokened a t) (checked checks p) (checked checks q) :=
  related_checked (fun _ => rfl) h

theorem agree_providerError {p q : Action ProviderResponse} (h : Agree a t (Retokened a t) p q) :
    Agree a t (Retokened a t) (p.catchAll providerError) (q.catchAll providerError) :=
  Prog.Related.catchAll (fun _ => rfl) h

end TwoRuns

section Handlers

variable (a : ObjectId) (t : Option TokenText)

/-- A condition on the id does not see the token. -/
theorem providerById_setToken {v : Option Json} {p : Provider → Bool}
    (h : providerById v = .ok p) (q : Provider) : p (setToken a t q) = p q := by
  obtain ⟨f, -, rfl⟩ := map_eq_ok h
  simp

theorem workersOf_setToken {v : Option Json} {company : ObjectId} {p : Provider → Bool}
    (h : workersOf v company = .ok p) (q : Provider) : p (setToken a t q) = p q := by
  obtain ⟨f, -, rfl⟩ := map_eq_ok h
  simp

theorem agree_workerDetail (b : ProviderBody) :
    Agree a t (Retokened a t) (workerDetail b) (workerDetail b) := by
  refine agree_checked ?_
  -- Only the first of the three queries looks at the accounts.
  have hdetails : Agree a t (fun x y => y = x.map (setToken a t))
      (getProviderById (providerById b.workerId)) (getProviderById (providerById b.workerId)) := by
    refine Prog.Related.bind (related_cast _) ?_
    rintro p p' ⟨hp, rfl⟩
    exact agree_query fun s =>
      Collection.findOne_map s.providers (setToken_id a t) (providerById_setToken a t hp)
  have hservices : Agree a t Eq (serviceList b.workerId) (serviceList b.workerId) := by
    refine Prog.Related.bind (related_cast _) ?_
    rintro p p' ⟨-, rfl⟩
    exact agree_query fun s => rfl
  have hsubServices : Agree a t Eq (subServiceList b.workerId) (subServiceList b.workerId) := by
    refine Prog.Related.bind (related_cast _) ?_
    rintro p p' ⟨-, rfl⟩
    exact agree_query fun s => rfl
  refine Prog.Related.bind hdetails ?_
  rintro w w' rfl
  refine Prog.Related.bind hservices ?_
  rintro services services' rfl
  refine Prog.Related.bind hsubServices ?_
  rintro subServices subServices' rfl
  exact agree_reply _ rfl

theorem agree_companyWorkerList (c : Caller) :
    Agree a t (Retokened a t) (companyWorkerList c) (companyWorkerList c) := by
  refine Prog.Related.bind (agree_getProvider c.userId) ?_
  rintro company company' rfl
  cases company with
  | none => exact Prog.Related.fail _ _
  | some company =>
    simp only [Option.map_some, setToken_workers]
    have hworkers : ∀ s : Db, (withToken a t s).providers.find (fun w => w.id ∈ company.workers) =
        (s.providers.find fun w => w.id ∈ company.workers).map (setToken a t) :=
      fun s => Collection.find_map s.providers (setToken_id a t) fun w => by rw [setToken_id]
    refine Prog.Related.bind (agree_query
      (V := fun x y : List Provider => y = x.map (setToken a t)) hworkers) ?_
    rintro ws ws' rfl
    unfold sendWorkers
    rw [List.isEmpty_map]
    split
    · exact agree_reply _ rfl
    · exact agree_reply _ rfl

theorem agree_sendWorker (w : Option Provider) :
    Agree a t (Retokened a t) (sendWorker w) (sendWorker (w.map (setToken a t))) := by
  cases w with
  | none => exact Prog.Related.fail _ _
  | some w =>
    simp only [Option.map_some, sendWorker, setToken_id]
    refine Prog.Related.bind (agree_getProvider w.id) ?_
    rintro x x' rfl
    exact agree_reply _ rfl

theorem agree_editWorker (env : Env) (c : Caller) (b : ProviderBody) (profilePic : Option String) :
    Agree a t (Retokened a t) (editWorker env c b profilePic) (editWorker env c b profilePic) := by
  refine agree_checked ?_
  refine Prog.Related.bind (agree_getProvider c.userId) ?_
  rintro company company' rfl
  cases company with
  | none => exact Prog.Related.fail _ _
  | some company =>
    simp only [Option.map_some, setToken_id]
    refine Prog.Related.bind (related_cast _) ?_
    rintro isOwn isOwn' ⟨hown, rfl⟩
    refine Prog.Related.bind (agree_query (V := Eq) fun s =>
      (Collection.count_map s.providers (setToken_id a t) (workersOf_setToken a t hown)).symm) ?_
    rintro n n' rfl
    split
    · have hupdate : Agree a t (fun x y => y = x.map (setToken a t))
          (updateProviderData env (providerById b.workerId) (editWorkerData env b profilePic))
          (updateProviderData env (providerById b.workerId) (editWorkerData env b profilePic)) := by
        refine Prog.Related.bind (related_cast _) ?_
        rintro p p' ⟨hp, rfl⟩
        refine Prog.Related.bind (related_cast _) ?_
        rintro d d' ⟨-, rfl⟩
        exact agree_updateProvider (providerById_setToken a t hp) d env.now
      refine Prog.Related.bind hupdate ?_
      rintro w w' rfl
      exact agree_sendWorker a t w
    · exact Prog.Related.fail _ _

theorem agree_providerDetails (b : ProviderBody) (card : ProviderCard) :
    Agree a t (Retokened a t) (providerDetails b card) (providerDetails b card) := by
  -- None of the queries looks at the accounts.
  refine Prog.Related.bind (related_cast _) ?_
  rintro p p' ⟨-, rfl⟩
  refine Prog.Related.bind (agree_query (V := Eq) fun s => rfl) ?_
  rintro services services' rfl
  refine Prog.Related.bind (agree_query (V := Eq) fun s => rfl) ?_
  rintro subServices subServices' rfl
  refine Prog.Related.bind (related_cast _) ?_
  rintro g g' ⟨-, rfl⟩
  refine Prog.Related.bind (agree_query (V := Eq) fun s => rfl) ?_
  rintro gallery gallery' rfl
  refine Prog.Related.bind (related_cast _) ?_
  rintro f f' ⟨-, rfl⟩
  refine Prog.Related.bind (agree_query (V := Eq) fun s => rfl) ?_
  rintro feedback feedback' rfl
  exact agree_reply _ rfl

theorem agree_getServiceProviderByID (b : ProviderBody) :
    Agree a t (Retokened a t) (getServiceProviderByID b) (getServiceProviderByID b) := by
  refine agree_checked (Prog.Related.bind (related_cast _) ?_)
  rintro p p' ⟨hp, rfl⟩
  have hcard : ∀ s : Db, (s.providers.findOne p).map Provider.card =
      ((withToken a t s).providers.findOne p).map Provider.card := by
    intro s
    rw [withToken, Collection.findOne_map _ _ (providerById_setToken a t hp), Option.map_map]
    congr 1
    funext q
    exact (setToken_card a t q).symm
  refine Prog.Related.bind (agree_query hcard) ?_
  rintro card card' rfl
  cases card with
  | none => exact agree_reply _ rfl
  | some card =>
    dsimp only
    split
    · exact agree_reply _ rfl
    · exact agree_providerDetails a t b card

end Handlers

section Secrecy

/-- The response tells nothing of the token that the account of `a` holds. -/
def TokenSecret (s : Db) (r : ProviderRequest) (a : ObjectId) : Prop :=
  ∀ t, answerProvider (withToken a t s) r = answerProvider s r

theorem agree_program (a : ObjectId) (t : Option TokenText) (r : ProviderRequest) :
    Agree a t (Retokened a t) r.program r.program := by
  have hkey : ∀ p : Action ProviderResponse, Agree a t (Retokened a t) p p →
      Agree a t (Retokened a t) (withKey r.apiKey p) (withKey r.apiKey p) := by
    intro p hp
    unfold withKey
    split
    · exact agree_providerError hp
    · exact agree_reply _ rfl
  have hauth : ∀ p : Caller → Action ProviderResponse, (∀ c, Agree a t (Retokened a t) (p c) (p c)) →
      Agree a t (Retokened a t) (authenticated r.caller p) (authenticated r.caller p) := by
    intro p hp
    unfold authenticated
    cases r.caller with
    | none => exact agree_reply _ rfl
    | some c => exact agree_providerError (hp c)
  unfold ProviderRequest.program
  cases r.handler with
  | workerDetail => exact hkey _ (agree_workerDetail a t r.body)
  | getServiceProviderByID => exact hkey _ (agree_getServiceProviderByID a t r.body)
  | companyWorkerList => exact hauth _ (agree_companyWorkerList a t)
  | editWorker profilePic =>
    exact hauth _ fun c => agree_editWorker a t r.env c r.body profilePic

/-- With another token the response is the same, but for the documents it shows. -/
theorem answerProvider_withToken (s : Db) (r : ProviderRequest) (a : ObjectId)
    (t : Option TokenText) :
    answerProvider (withToken a t s) r = mapResponse (setToken a t) (answerProvider s r) := by
  have h := (agree_program a t r s (withToken a t s) rfl).2
  unfold answerProvider
  cases hx : (r.program.run exec s).2 with
  | error e =>
    cases hy : (r.program.run exec (withToken a t s)).2 with
    | error e' =>
      rw [hx, hy] at h
      cases h
      rfl
    | ok y =>
      rw [hx, hy] at h
      cases h
  | ok x =>
    cases hy : (r.program.run exec (withToken a t s)).2 with
    | error e' =>
      rw [hx, hy] at h
      cases h
    | ok y =>
      rw [hx, hy] at h
      exact h

/-- The token is secret exactly when the response does not show the account. -/
theorem tokenSecret_iff_not_shown (s : Db) (r : ProviderRequest) (a : ObjectId) :
    TokenSecret s r a ↔ ∀ p ∈ shown (answerProvider s r), p.id ≠ a := by
  constructor
  · intro h p hp hid
    -- A token that differs from the one shown.
    let t : Option TokenText := if p.token = none then some (.plain "") else none
    have hne : t ≠ p.token := by
      by_cases hnone : p.token = none
      · simp [t, hnone]
      · simp only [t, hnone, if_false]
        exact Ne.symm hnone
    have hsame : (shown (answerProvider s r)).map (setToken a t) = shown (answerProvider s r) := by
      rw [← shown_mapResponse, ← answerProvider_withToken, h t]
    have hfix : setToken a t p = p :=
      List.map_inj_left.mp (hsame.trans (List.map_id _).symm) p hp
    have htoken : (setToken a t p).token = t := by
      unfold setToken
      rw [if_pos hid]
    rw [hfix] at htoken
    exact hne htoken.symm
  · intro h t
    rw [answerProvider_withToken]
    exact mapResponse_eq_self fun p hp => setToken_of_ne a t p (h p hp)

end Secrecy

section Exposure

def callerAccount (s : Db) (caller : Option Caller) : Option Provider :=
  caller.bind fun c => s.providers.get? c.userId

/-- The worker that a company edits: the first account of the id, which need not be the
worker of the company that the request was checked for. -/
def editedWorker (s : Db) (env : Env) (b : ProviderBody) (profilePic : Option String)
    (company : Provider) : Option Provider :=
  if refusal (editWorkerChecks b profilePic) = none ∧
      someMatch s.providers (workersOf b.workerId company.id) = true ∧
      (editWorkerData env b profilePic).isOk = true then
    selected s.providers (providerById b.workerId)
  else none

/-- The accounts that the response shows: whichever the body of `worker_detail` selects, the
workers of the calling company, the worker that was edited. -/
def exposed (s : Db) (r : ProviderRequest) : List Provider :=
  match r.handler with
  | .workerDetail =>
    if r.apiKey = true ∧ truthy r.body.workerId = true then
      (selected s.providers (providerById r.body.workerId)).toList
    else []
  | .getServiceProviderByID => []
  | .companyWorkerList =>
    match callerAccount s r.caller with
    | none => []
    | some company => s.providers.find fun w => w.id ∈ company.workers
  | .editWorker profilePic =>
    ((callerAccount s r.caller).bind (editedWorker s r.env r.body profilePic)).toList

def shownBy (p : Action ProviderResponse) (s : Db) : List ObjectId :=
  match (p.run exec s).2 with
  | .ok x => (shown x).map Provider.id
  | .error _ => []

theorem shownBy_catchAll (p : Action ProviderResponse) (s : Db) :
    shownBy (p.catchAll providerError) s = shownBy p s := by
  unfold shownBy
  rw [Prog.run_catchAll]
  cases (p.run exec s).2 with
  | error e => rfl
  | ok x => rfl

theorem shownBy_checked (checks : List (Bool × MessageKey)) (p : Action ProviderResponse) (s : Db) :
    shownBy (checked checks p) s = if refusal checks = none then shownBy p s else [] := by
  unfold checked
  cases refusal checks with
  | none => rfl
  | some key => rfl

theorem shownBy_throwing (e : Thrown) (s : Db) : shownBy (throwing e) s = [] := rfl

theorem shownBy_query_bind {α : Type} (f : Db → α) (k : α → Action ProviderResponse) (s : Db) :
    shownBy (query f >>= k) s = shownBy (k (f s)) s := rfl

theorem shownBy_cast_bind {α : Type} (x : Except Thrown α) (k : α → Action ProviderResponse)
    (s : Db) :
    shownBy (cast x >>= k) s = match x with | .ok a => shownBy (k a) s | .error _ => [] := by
  cases x with
  | error e => rfl
  | ok a => rfl

theorem shownBy_answer (s : Db) (r : ProviderRequest) :
    shownBy r.program s = (shown (answerProvider s r)).map Provider.id := by
  unfold shownBy answerProvider
  cases (r.program.run exec s).2 with
  | error e => rfl
  | ok x => rfl

theorem shownBy_workerDetail (b : ProviderBody) (s : Db) :
    shownBy (workerDetail b) s =
      if truthy b.workerId = true then
        (selected s.providers (providerById b.workerId)).toList.map Provider.id
      else [] := by
  unfold workerDetail
  rw [shownBy_checked]
  cases hb : truthy b.workerId with
  | false => rfl
  | true =>
    simp only [refusal, Bool.not_true, Bool.false_eq_true, if_false, if_true]
    unfold getProviderById serviceList subServiceList providerById offeredBy
    cases castForQuery objectIdType b.workerId with
    | error e => rfl
    | ok p => rfl

theorem shownBy_sendWorkers (workers : List Provider) (s : Db) :
    shownBy (sendWorkers workers) s = workers.map Provider.id := by
  cases workers with
  | nil => rfl
  | cons w ws => rfl

theorem shownBy_companyWorkerList (c : Caller) (s : Db) :
    shownBy (companyWorkerList c) s =
      match s.providers.get? c.userId with
      | none => []
      | some company => (s.providers.find fun w => w.id ∈ company.workers).map Provider.id := by
  unfold companyWorkerList
  rw [shownBy_query_bind]
  cases s.providers.get? c.userId with
  | none => rfl
  | some company =>
    dsimp only
    rw [shownBy_query_bind, shownBy_sendWorkers]

/-- The updated worker is shown under the id it was found with. -/
theorem shownBy_updateProviderData_bind (env : Env) (condition : Except Thrown (Provider → Bool))
    (data : Except Thrown ProviderSet) (s : Db) :
    shownBy (updateProviderData env condition data >>= sendWorker) s =
      if data.isOk = true then (selected s.providers condition).toList.map Provider.id else [] := by
  cases condition with
  | error e => cases data <;> rfl
  | ok p =>
    cases data with
    | error e => rfl
    | ok d =>
      have hrun : shownBy (updateProviderData env (.ok p) (.ok d) >>= sendWorker) s =
          shownBy (sendWorker ((s.providers.findOne p).map (d.apply env.now)))
            (exec (.updateProvider p d env.now) s).1 := rfl
      simp only [Except.isOk, Except.toBool, if_true, selected]
      rw [hrun]
      cases hq : s.providers.findOne p with
      | none => rfl
      | some q =>
        have hget : (exec (.updateProvider p d env.now) s).1.providers.get? q.id =
            some (d.apply env.now q) := by
          change (s.providers.updateOne p (d.apply env.now) (d.apply_id env.now)).get? q.id = _
          rw [Collection.get?_updateOne, hq, Option.map_some, if_pos rfl,
            Collection.get?_of_findOne hq, Option.map_some]
        rw [Option.map_some, sendWorker, shownBy_query_bind, ProviderSet.apply_id, hget]
        rfl

theorem shownBy_editWorker (env : Env) (c : Caller) (b : ProviderBody) (profilePic : Option String)
    (s : Db) :
    shownBy (editWorker env c b profilePic) s =
      ((s.providers.get? c.userId).bind (editedWorker s env b profilePic)).toList.map
        Provider.id := by
  unfold editWorker
  rw [shownBy_checked, shownBy_query_bind]
  cases s.providers.get? c.userId with
  | none => simp [shownBy_throwing]
  | some company =>
    simp only [Option.bind_some, editedWorker, shownBy_cast_bind]
    by_cases hchecks : refusal (editWorkerChecks b profilePic) = none
    · cases workersOf b.workerId company.id with
      | error e => simp [someMatch]
      | ok isOwn =>
        by_cases hcount : s.providers.count isOwn = 0
        · simp [shownBy_query_bind, shownBy_throwing, someMatch, hcount]
        · have hpos : s.providers.count isOwn > 0 := by omega
          simp only [shownBy_query_bind, hpos, if_true, shownBy_updateProviderData_bind, hchecks,
            someMatch, hcount, ne_eq, not_false_eq_true, decide_true, true_and]
          split <;> rfl
    · simp [hchecks]

theorem shownBy_providerDetails (b : ProviderBody) (card : ProviderCard) (s : Db) :
    shownBy (providerDetails b card) s = [] := by
  unfold providerDetails
  rw [shownBy_cast_bind]
  cases activeOfferOf card.userType b.providerId with
  | error e => rfl
  | ok p =>
    dsimp only
    rw [shownBy_query_bind, shownBy_query_bind, shownBy_cast_bind]
    cases galleryOf b.providerId b.serviceId with
    | error e => rfl
    | ok g =>
      dsimp only
      rw [shownBy_query_bind, shownBy_cast_bind]
      cases feedbackOf b.providerId with
      | error e => rfl
      | ok f => rfl

theorem shownBy_getServiceProviderByID (b : ProviderBody) (s : Db) :
    shownBy (getServiceProviderByID b) s = [] := by
  unfold getServiceProviderByID
  rw [shownBy_checked, shownBy_cast_bind]
  cases providerById b.providerId with
  | error e => simp
  | ok p =>
    dsimp only
    rw [shownBy_query_bind]
    cases (s.providers.findOne p).map Provider.card with
    | none => exact ite_self _
    | some card =>
      by_cases hworker : card.userType = workerType
      · simp only [hworker, if_true]
        exact ite_self _
      · simp only [hworker, if_false, shownBy_providerDetails, ite_self]

theorem shown_ids_eq_exposed (s : Db) (r : ProviderRequest) :
    (shown (answerProvider s r)).map Provider.id = (exposed s r).map Provider.id := by
  rw [← shownBy_answer]
  obtain ⟨handler, apiKey, caller, b, env⟩ := r
  have hkey (p : Action ProviderResponse) :
      shownBy (withKey apiKey p) s = if apiKey = true then shownBy p s else [] := by
    cases apiKey with
    | false => rfl
    | true => exact shownBy_catchAll p s
  have hauth (p : Caller → Action ProviderResponse) :
      shownBy (authenticated caller p) s = (caller.map fun c => shownBy (p c) s).getD [] := by
    cases caller with
    | none => rfl
    | some c => exact shownBy_catchAll (p c) s
  cases handler with
  | workerDetail =>
    simp only [ProviderRequest.program, hkey, shownBy_workerDetail, exposed]
    by_cases hk : apiKey = true
    · by_cases hb : truthy b.workerId = true
      · simp [hk, hb]
      · simp [hk, hb]
    · simp [hk]
  | getServiceProviderByID =>
    simp [ProviderRequest.program, hkey, shownBy_getServiceProviderByID, exposed]
  | companyWorkerList =>
    simp only [ProviderRequest.program, hauth, shownBy_companyWorkerList, exposed, callerAccount]
    cases caller with
    | none => rfl
    | some c =>
      simp only [Option.map_some, Option.getD_some, Option.bind_some]
      cases s.providers.get? c.userId with
      | none => rfl
      | some company => rfl
  | editWorker profilePic =>
    simp only [ProviderRequest.program, hauth, shownBy_editWorker, exposed, callerAccount]
    cases caller with
    | none => rfl
    | some c => rfl

/-- Whoever asks, the response keeps the token of `a` secret exactly when `a` is not among the
accounts that the request exposes. -/
theorem tokenSecret_iff (s : Db) (r : ProviderRequest) (a : ObjectId) :
    TokenSecret s r a ↔ ∀ p ∈ exposed s r, p.id ≠ a := by
  have hmem (l : List Provider) : (∀ p ∈ l, p.id ≠ a) ↔ a ∉ l.map Provider.id := by
    simp
  rw [tokenSecret_iff_not_shown, hmem, hmem, shown_ids_eq_exposed]

def loneProvider : Provider where
  id := (ObjectId.ofString "company---01").getD ⟨0⟩
  seqId := 1
  fullName := "Fix It"
  email := "fix@example"
  phone := some (.fin 900)
  country := "NG"
  state := "Lagos"
  city := "Ikeja"
  landMark := "Mall"
  postalCode := "100"
  userType := companyType
  companyData := none
  address1 := none
  address2 := none
  profilePic := none
  updateDate := none
  status := "A"
  token := some (.signed ⟨(ObjectId.ofString "company---01").getD ⟨0⟩, "PROVIDER", "PROVIDER", 0, 31536000⟩)
  latitude := none
  longitude := none
  deviceId := none
  platform := none
  workers := []
  createdAt := 0
  updatedAt := 0

/-- Without any account, `worker_detail` tells the token of a provider whose id is known. -/
theorem worker_detail_tells_token :
    ¬ TokenSecret
      { Db.empty with providers := ⟨[loneProvider], List.nodup_singleton _⟩ }
      { handler := .workerDetail
        body := { workerId := some (.str "company---01") }
        env := ⟨0, ⟨0⟩, fun _ _ => none⟩ }
      loneProvider.id := by
  intro h
  have htokens := congrArg (fun x => (shown x).map Provider.token) (h (some (.plain "")))
  revert htokens
  decide +kernel

end Exposure

end DoQwik
