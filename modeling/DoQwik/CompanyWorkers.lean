import DoQwik.Stages
import DoQwik.WorkerRecords
import DoQwik.UniquePhones

/-! Whether the list of a company and the records of its workers agree, when `addWorker` and
`delateWorker` requests of the company run side by side. What a request still has to do to the
records is its stage. -/
namespace DoQwik
open JsValues DocStore Interleave

section Records

def workerList (s : Db) (company : ObjectId) : List ObjectId :=
  ((s.providers.get? company).map Provider.workers).getD []

def employs (s : Db) (company w : ObjectId) : Bool :=
  (s.providers.get? w).any (isWorkerOf company)

/-- The list holds the workers of the company, each once. -/
def WorkersAgree (s : Db) (company : ObjectId) : Prop :=
  (workerList s company).Nodup ∧ ∀ w, w ∈ workerList s company ↔ employs s company w = true

theorem get?_of_employs {s : Db} {company w : ObjectId} (h : employs s company w = true) :
    ∃ q, s.providers.get? w = some q ∧ isWorkerOf company q = true := by
  unfold employs at h
  cases hq : s.providers.get? w with
  | none =>
    rw [hq] at h
    cases h
  | some q =>
    rw [hq] at h
    exact ⟨q, rfl, h⟩

variable {s : Db} {company : ObjectId} {sel : Provider → Bool} (f : Provider → Provider)
variable (hf : ∀ p, (f p).id = p.id)

/-- An update of the company leaves everybody employed. -/
theorem employs_updateOne
    (hkeep : ∀ p, isWorkerOf company (f p) = isWorkerOf company p) (w : ObjectId) :
    employs { s with providers := s.providers.updateOne sel f hf } company w =
      employs s company w := by
  unfold employs
  rw [Collection.get?_updateOne]
  split
  · cases s.providers.get? w with
    | none => rfl
    | some q => exact hkeep q
  · rfl

/-- An update of the company leaves it a company. -/
theorem company_updateOne
    (hkeep : ∀ p, isWorkerOf company (f p) = isWorkerOf company p)
    (h : ∃ p, s.providers.get? company = some p ∧ isWorkerOf company p = false) :
    ∃ p, (s.providers.updateOne sel f hf).get? company = some p ∧ isWorkerOf company p = false := by
  obtain ⟨p, hp, hown⟩ := h
  rw [Collection.get?_updateOne, hp]
  split
  · exact ⟨f p, rfl, (hkeep p).trans hown⟩
  · exact ⟨p, rfl, hown⟩

/-- The list after an update of the company. -/
theorem workerList_updateOne {p : Provider}
    (hp : s.providers.get? company = some p) (hsel : ∀ q, sel q = true ↔ q.id = company) :
    workerList { s with providers := s.providers.updateOne sel f hf } company = (f p).workers := by
  have hfirst : s.providers.findOne sel = some p := (s.providers.findOne_key hsel).trans hp
  have hid : p.id = company := ((s.providers.get?_eq_some_iff _ _).mp hp).2
  unfold workerList
  rw [Collection.get?_updateOne, hfirst, Option.map_some, hid, if_pos rfl, hp]
  rfl

end Records

section Stages

/-- What a request of the company has still to do: to create a worker of this id, to put it on
the list, to ask for a worker and remove it, to take it off the list, or nothing. -/
inductive Stage where
  | adding (w : ObjectId)
  | linking (w : ObjectId)
  | asking (w : ObjectId)
  | deleting (w : ObjectId)
  | unlinking (w : ObjectId)
  | over

def Stage.settled : Stage → Prop
  | linking _ => False
  | unlinking _ => False
  | _ => True

def Stage.holds (w : ObjectId) (g : Stage) : Prop :=
  g = adding w ∨ g = linking w ∨ g = deleting w ∨ g = unlinking w

@[simp] theorem Stage.holds_linking {v w : ObjectId} : (linking v).holds w ↔ v = w := by
  simp [holds]

@[simp] theorem Stage.holds_deleting {v w : ObjectId} : (deleting v).holds w ↔ v = w := by
  simp [holds]

@[simp] theorem Stage.holds_unlinking {v w : ObjectId} : (unlinking v).holds w ↔ v = w := by
  simp [holds]

@[simp] theorem Stage.not_holds_over {w : ObjectId} : ¬ over.holds w := by
  simp [holds]

def Stage.Expects (company : ObjectId) (s : Db) : Stage → Prop
  | adding w => s.providers.get? w = none ∧ w ∉ workerList s company
  | linking w => w ∉ workerList s company
  | deleting w => w ≠ company
  | unlinking w => s.providers.get? w = none
  | _ => True

theorem Stage.Expects.mono {company : ObjectId} {s t : Db} {g : Stage} (h : g.Expects company s)
    (hnone : ∀ w, g.holds w → s.providers.get? w = none → t.providers.get? w = none)
    (hlist : ∀ w, g = adding w ∨ g = linking w →
      w ∉ workerList s company → w ∉ workerList t company) :
    g.Expects company t := by
  cases g with
  | adding w => exact ⟨hnone w (Or.inl rfl) h.1, hlist w (Or.inl rfl) h.2⟩
  | linking w => exact hlist w (Or.inr rfl) h
  | deleting w => exact h
  | unlinking w => exact hnone w (Or.inr (Or.inr (Or.inr rfl))) h
  | _ => trivial

/-- Two requests cannot be at these stages: a worker whom the first is about to create is in
nobody else's hand, and one whom it is about to put on the list is put there once. -/
def Stage.Clashes (g g' : Stage) : Prop :=
  ∃ w, (g = adding w ∧ g'.holds w) ∨ (g = linking w ∧ g' = linking w)

inductive StageStep (company : ObjectId) : Stage → DbOp → Db → Stage → Prop where
  | other {g : Stage} {op : DbOp} {s : Db} (hop : op.writesProviders = false) :
      StageStep company g op s g
  | created {p : Provider} {s : Db} (hp : isWorkerOf company p = true)
      (hfree : s.providers.get? p.id = none) :
      StageStep company (.adding p.id) (.createProvider p) s (.linking p.id)
  | refused {w : ObjectId} {p : Provider} {s : Db} (hin : s.providers.insert p = none) :
      StageStep company (.adding w) (.createProvider p) s .over
  | linked {w : ObjectId} {sel : Provider → Bool} {d : ProviderSet} {now : ℤ} {ws : List ObjectId}
      {s : Db} (hsel : ∀ q, sel q = true ↔ q.id = company) (hws : d.workers = some (ws ++ [w])) :
      StageStep company (.linking w) (.updateProvider sel d now) s .over
  | found {w : ObjectId} {β : Type} {f : Db → β} {s : Db} (hw : employs s company w = true) :
      StageStep company (.asking w) (.read f) s (.deleting w)
  | deleted {w : ObjectId} {sel : Provider → Bool} {s : Db} (hsel : ∀ q, sel q = true ↔ q.id = w) :
      StageStep company (.deleting w) (.deleteProvider sel) s (.unlinking w)
  | unlinked {w : ObjectId} {sel : ObjectId → Bool} {now : ℤ} {s : Db}
      (hsel : ∀ x, sel x = true ↔ x = w) :
      StageStep company (.unlinking w) (.pullWorkers company sel now) s .over

end Stages

section Invariant

variable {company : ObjectId} {s : Db} {gs : ℕ → Stage}

/-- What holds of the records in every state of a run: an id on the list has its worker, or a
request is about to take it off, and a worker is on the list, or a request is about to put it
there. -/
structure Consistent (company : ObjectId) (s : Db) (gs : ℕ → Stage) : Prop where
  exists_company : ∃ p, s.providers.get? company = some p ∧ isWorkerOf company p = false
  nodup : (workerList s company).Nodup
  expects : ∀ i, (gs i).Expects company s
  apart : ∀ i j, i ≠ j → ¬ (gs i).Clashes (gs j)
  listed : ∀ w, w ∈ workerList s company → employs s company w = true ∨ ∃ i, gs i = .unlinking w
  linked : ∀ w, employs s company w = true → w ∈ workerList s company ∨ ∃ i, gs i = .linking w

/-- A stage that thread `i` is not at is the stage of another one. -/
theorem exists_other {i : ℕ} {x : Stage} (hi : gs i ≠ x) (hx : ∃ j, gs j = x) :
    ∃ j, j ≠ i ∧ gs j = x := by
  obtain ⟨j, hj⟩ := hx
  refine ⟨j, ?_, hj⟩
  rintro rfl
  exact hi hj

theorem Consistent.of_providers {t : Db} (ht : t.providers = s.providers)
    (h : Consistent company s gs) : Consistent company t gs := by
  have hlist : workerList t company = workerList s company := by
    unfold workerList
    rw [ht]
  have hown : ∀ w, employs t company w = employs s company w := by
    intro w
    unfold employs
    rw [ht]
  constructor
  · rw [ht]
    exact h.exists_company
  · rw [hlist]
    exact h.nodup
  · exact fun i => (h.expects i).mono (fun w _ hw => by rw [ht]; exact hw)
      fun w _ hw => by rw [hlist]; exact hw
  · exact h.apart
  · intro w hw
    rw [hown]
    exact h.listed w (hlist ▸ hw)
  · intro w hw
    rw [hlist]
    exact h.linked w (hown w ▸ hw)

/-- A step of thread `i`, which gets to the stage `g`: the thread and the others find what they
expect, and the list and the workers still differ by what the threads are about to do. -/
theorem Consistent.advance {t : Db} {i : ℕ} {g : Stage} (h : Consistent company s gs)
    (hcompany : ∃ p, t.providers.get? company = some p ∧ isWorkerOf company p = false)
    (hnodup : (workerList t company).Nodup) (hself : g.Expects company t)
    (hother : ∀ j, j ≠ i → (gs j).Expects company t)
    (hclash : ∀ j, j ≠ i → ¬ g.Clashes (gs j) ∧ ¬ (gs j).Clashes g)
    (hlisted : ∀ w, w ∈ workerList t company →
      employs t company w = true ∨ g = .unlinking w ∨ ∃ j, j ≠ i ∧ gs j = .unlinking w)
    (hlinked : ∀ w, employs t company w = true →
      w ∈ workerList t company ∨ g = .linking w ∨ ∃ j, j ≠ i ∧ gs j = .linking w) :
    Consistent company t (Function.update gs i g) := by
  have hstage : ∀ {x : Stage}, (g = x ∨ ∃ j, j ≠ i ∧ gs j = x) →
      ∃ j, Function.update gs i g j = x := by
    rintro x (hg | ⟨j, hj, hg⟩)
    · exact ⟨i, by rw [Function.update_self, hg]⟩
    · exact ⟨j, by rw [Function.update_of_ne hj, hg]⟩
  refine ⟨hcompany, hnodup, fun j => ?_, fun j k hjk => ?_,
    fun w hw => (hlisted w hw).imp_right hstage, fun w hw => (hlinked w hw).imp_right hstage⟩
  · by_cases hj : j = i
    · rw [hj, Function.update_self]
      exact hself
    · rw [Function.update_of_ne hj]
      exact hother j hj
  · by_cases hj : j = i
    · subst hj
      rw [Function.update_self, Function.update_of_ne (Ne.symm hjk)]
      exact (hclash k (Ne.symm hjk)).1
    · rw [Function.update_of_ne hj]
      by_cases hk : k = i
      · subst hk
        rw [Function.update_self]
        exact (hclash j hj).2
      · rw [Function.update_of_ne hk]
        exact h.apart j k hjk

/-- The last step of a request. -/
theorem Consistent.retire {t : Db} {i : ℕ} (h : Consistent company s gs)
    (hcompany : ∃ p, t.providers.get? company = some p ∧ isWorkerOf company p = false)
    (hnodup : (workerList t company).Nodup)
    (hother : ∀ j, j ≠ i → (gs j).Expects company t)
    (hlisted : ∀ w, w ∈ workerList t company →
      employs t company w = true ∨ ∃ j, j ≠ i ∧ gs j = .unlinking w)
    (hlinked : ∀ w, employs t company w = true →
      w ∈ workerList t company ∨ ∃ j, j ≠ i ∧ gs j = .linking w) :
    Consistent company t (Function.update gs i .over) := by
  refine h.advance hcompany hnodup trivial hother (fun j _ => ⟨?_, ?_⟩)
    (fun w hw => (hlisted w hw).imp_right Or.inr) fun w hw => (hlinked w hw).imp_right Or.inr
  · rintro ⟨w, ⟨hg, -⟩ | ⟨hg, -⟩⟩
    · cases hg
    · cases hg
  · rintro ⟨w, ⟨-, hw⟩ | ⟨-, hw⟩⟩
    · exact Stage.not_holds_over hw
    · cases hw

/-- A worker is created: the request is about to put it on the list. -/
theorem Consistent.created {i : ℕ} {p : Provider} {ps : Collection Provider.id}
    (h : Consistent company s gs) (hi : gs i = .adding p.id) (hp : isWorkerOf company p = true)
    (hps : s.providers.insert p = some ps) :
    Consistent company { s with providers := ps } (Function.update gs i (.linking p.id)) := by
  have hexp := h.expects i
  rw [hi] at hexp
  obtain ⟨hfree, hnew⟩ := hexp
  obtain ⟨c, hc, hcown⟩ := h.exists_company
  have hget : ∀ w, ps.get? w = if p.id = w then some p else s.providers.get? w :=
    Collection.get?_insert hps
  have hne : p.id ≠ company := by
    rintro heq
    rw [heq, hc] at hfree
    cases hfree
  have hlist : workerList { s with providers := ps } company = workerList s company := by
    unfold workerList
    rw [hget, if_neg hne]
  have hown : ∀ w, employs { s with providers := ps } company w = true ↔
      p.id = w ∨ employs s company w = true := by
    intro w
    unfold employs
    rw [hget]
    split
    · rename_i heq
      exact iff_of_true hp (Or.inl heq)
    · rename_i hw
      simp only [hw, false_or]
  -- No other request has the new worker in hand.
  have hother : ∀ j w, j ≠ i → (gs j).holds w → p.id ≠ w := by
    rintro j w hj hw rfl
    exact h.apart i j (Ne.symm hj) ⟨_, Or.inl ⟨hi, hw⟩⟩
  apply h.advance
  · exact ⟨c, by rw [hget, if_neg hne]; exact hc, hcown⟩
  · rw [hlist]
    exact h.nodup
  · intro hin
    rw [hlist] at hin
    exact hnew hin
  · refine fun j hj => (h.expects j).mono (fun w hw hnone => ?_) fun w _ hw => ?_
    · rw [hget, if_neg (hother j w hj hw)]
      exact hnone
    · rw [hlist]
      exact hw
  · refine fun j hj => ⟨?_, ?_⟩
    · rintro ⟨w, ⟨hg, -⟩ | ⟨hg, hgj⟩⟩
      · cases hg
      · cases hg
        exact hother j _ hj (Or.inr (Or.inl hgj)) rfl
    · rintro ⟨w, ⟨hgj, hw⟩ | ⟨hgj, hw⟩⟩
      · exact hother j w hj (Or.inl hgj) (Stage.holds_linking.mp hw)
      · cases hw
        exact hother j _ hj (Or.inr (Or.inl hgj)) rfl
  · intro w hw
    rw [hlist] at hw
    rcases h.listed w hw with hemp | hex
    · exact Or.inl ((hown w).mpr (Or.inr hemp))
    · exact Or.inr (Or.inr (exists_other (by rw [hi]; simp) hex))
  · intro w hw
    rw [hlist]
    rcases (hown w).mp hw with rfl | hemp
    · exact Or.inr (Or.inl rfl)
    · exact (h.linked w hemp).imp_right fun hex => Or.inr (exists_other (by rw [hi]; simp) hex)

/-- The request is over before it could create its worker. -/
theorem Consistent.refused {i : ℕ} {w : ObjectId} (h : Consistent company s gs)
    (hi : gs i = .adding w) : Consistent company s (Function.update gs i .over) := by
  refine h.retire h.exists_company h.nodup (fun j _ => h.expects j) ?_ ?_
  · exact fun x hx => (h.listed x hx).imp_right (exists_other (by rw [hi]; simp))
  · exact fun x hx => (h.linked x hx).imp_right (exists_other (by rw [hi]; simp))

/-- The list goes back as it is by now, with a worker who is still there. -/
theorem Consistent.linkedTo {i : ℕ} {w : ObjectId} {sel : Provider → Bool} {d : ProviderSet}
    {now : ℤ} (h : Consistent company s gs) (hi : gs i = .linking w)
    (hsel : ∀ q, sel q = true ↔ q.id = company)
    (hws : d.workers = some (workerList s company ++ [w])) (hw : employs s company w = true) :
    Consistent company (exec (.updateProvider sel d now) s).1 (Function.update gs i .over) := by
  have hnotin : w ∉ workerList s company := by
    have hexp := h.expects i
    rw [hi] at hexp
    exact hexp
  obtain ⟨c, hc, hcown⟩ := h.exists_company
  have hlist : workerList (exec (.updateProvider sel d now) s).1 company =
      workerList s company ++ [w] := by
    refine (workerList_updateOne (d.apply now) (d.apply_id now) hc hsel).trans ?_
    rw [ProviderSet.apply, hws, Option.getD_some]
  have hown : ∀ x, employs (exec (.updateProvider sel d now) s).1 company x = employs s company x :=
    employs_updateOne (d.apply now) (d.apply_id now) fun _ => rfl
  apply h.retire
  · exact company_updateOne (d.apply now) (d.apply_id now) (fun _ => rfl) h.exists_company
  · rw [hlist]
    exact h.nodup.append (List.nodup_singleton w) (List.disjoint_singleton.mpr hnotin)
  · intro j hj
    refine (h.expects j).mono (fun x _ => ?_) fun x hg hx => ?_
    · exact (Collection.get?_updateOne_eq_none _ _ _ (d.apply_id now) x).mpr
    · rw [hlist, List.mem_append, List.mem_singleton, not_or]
      refine ⟨hx, ?_⟩
      -- Nobody else is about to create this worker, or to put it on the list.
      rintro rfl
      refine h.apart j i hj ⟨x, hg.imp (fun hg => ⟨hg, ?_⟩) fun hg => ⟨hg, hi⟩⟩
      rw [hi]
      exact Stage.holds_linking.mpr rfl
  · intro x hx
    rw [hown]
    rw [hlist, List.mem_append, List.mem_singleton] at hx
    rcases hx with hx | rfl
    · exact (h.listed x hx).imp_right (exists_other (by rw [hi]; simp))
    · exact Or.inl hw
  · intro x hx
    rw [hown] at hx
    rw [hlist, List.mem_append, List.mem_singleton]
    by_cases hxw : x = w
    · exact Or.inl (Or.inr hxw)
    · exact (h.linked x hx).imp Or.inl (exists_other (by rw [hi]; simpa using Ne.symm hxw))

/-- A worker who is found is no request's new one, and not the company. -/
theorem Consistent.found {i : ℕ} {w : ObjectId} (h : Consistent company s gs)
    (hi : gs i = .asking w) (hw : employs s company w = true) :
    Consistent company s (Function.update gs i (.deleting w)) := by
  obtain ⟨q, hq, hqown⟩ := get?_of_employs hw
  refine h.advance h.exists_company h.nodup ?_ (fun j _ => h.expects j) (fun j _ => ⟨?_, ?_⟩)
    (fun x hx => (h.listed x hx).imp_right fun hex => Or.inr (exists_other (by rw [hi]; simp) hex))
    fun x hx => (h.linked x hx).imp_right fun hex => Or.inr (exists_other (by rw [hi]; simp) hex)
  · rintro rfl
    obtain ⟨c, hc, hcown⟩ := h.exists_company
    rw [hc, Option.some.injEq] at hq
    rw [← hq, hcown] at hqown
    cases hqown
  · rintro ⟨x, ⟨hg, -⟩ | ⟨hg, -⟩⟩
    · cases hg
    · cases hg
  · rintro ⟨x, ⟨hg, hx⟩ | ⟨-, hx⟩⟩
    · -- The worker in hand has a record, a new one has none.
      have hexp := h.expects j
      rw [hg, ← Stage.holds_deleting.mp hx] at hexp
      rw [hexp.1] at hq
      cases hq
    · cases hx

/-- A worker is removed: the request is about to take it off the list. -/
theorem Consistent.deleted {i : ℕ} {w : ObjectId} {sel : Provider → Bool}
    (h : Consistent company s gs) (hi : gs i = .deleting w) (hsel : ∀ q, sel q = true ↔ q.id = w) :
    Consistent company { s with providers := s.providers.deleteOne sel }
      (Function.update gs i (.unlinking w)) := by
  have hget := s.providers.get?_deleteOne_key hsel
  have hne : w ≠ company := by
    have hexp := h.expects i
    rw [hi] at hexp
    exact hexp
  have hlist : workerList { s with providers := s.providers.deleteOne sel } company =
      workerList s company := by
    unfold workerList
    rw [hget, if_neg (Ne.symm hne)]
  -- The list still names the worker, who is no longer employed: the thread has yet to unlink it.
  have hown : ∀ x, employs { s with providers := s.providers.deleteOne sel } company x = true ↔
      x ≠ w ∧ employs s company x = true := by
    intro x
    unfold employs
    rw [hget]
    split
    · rename_i hx
      simp [hx]
    · rename_i hx
      simp [hx]
  obtain ⟨c, hc, hcown⟩ := h.exists_company
  apply h.advance
  · exact ⟨c, by rw [hget, if_neg (Ne.symm hne)]; exact hc, hcown⟩
  · rw [hlist]
    exact h.nodup
  · exact (hget w).trans (if_pos rfl)
  · refine fun j _ => (h.expects j).mono (fun x _ hx => ?_) fun x _ hx => ?_
    · rw [hget, hx, ite_self]
    · rw [hlist]
      exact hx
  · refine fun j hj => ⟨?_, ?_⟩
    · rintro ⟨x, ⟨hg, -⟩ | ⟨hg, -⟩⟩
      · cases hg
      · cases hg
    · rintro ⟨x, ⟨hg, hx⟩ | ⟨-, hx⟩⟩
      · -- The request had the worker in hand before, too.
        refine h.apart j i hj ⟨x, Or.inl ⟨hg, ?_⟩⟩
        rw [hi, Stage.holds_deleting]
        exact Stage.holds_unlinking.mp hx
      · cases hx
  · intro x hx
    rw [hlist] at hx
    by_cases hxw : x = w
    · exact Or.inr (Or.inl (by rw [hxw]))
    · rcases h.listed x hx with hemp | hex
      · exact Or.inl ((hown x).mpr ⟨hxw, hemp⟩)
      · exact Or.inr (Or.inr (exists_other (by rw [hi]; simp) hex))
  · intro x hx
    rw [hlist]
    exact (h.linked x ((hown x).mp hx).2).imp_right
      fun hex => Or.inr (exists_other (by rw [hi]; simp) hex)

/-- A worker who is gone is taken off the list. -/
theorem Consistent.unlinked {i : ℕ} {w : ObjectId} {sel : ObjectId → Bool} {now : ℤ}
    (h : Consistent company s gs) (hi : gs i = .unlinking w) (hsel : ∀ x, sel x = true ↔ x = w) :
    Consistent company (exec (.pullWorkers company sel now) s).1 (Function.update gs i .over) := by
  obtain ⟨c, hc, hcown⟩ := h.exists_company
  have hlist : workerList (exec (.pullWorkers company sel now) s).1 company =
      (workerList s company).filter fun x => !sel x := by
    refine (workerList_updateOne (pullFrom sel now) (fun _ => rfl) hc
      fun q => decide_eq_true_iff).trans ?_
    unfold workerList
    rw [hc]
    rfl
  have hmem : ∀ x, x ∈ workerList (exec (.pullWorkers company sel now) s).1 company ↔
      x ∈ workerList s company ∧ x ≠ w := by
    intro x
    rw [hlist, List.mem_filter, Bool.not_eq_true', ← Bool.not_eq_true, hsel]
  have hown : ∀ x, employs (exec (.pullWorkers company sel now) s).1 company x =
      employs s company x := employs_updateOne (pullFrom sel now) (fun _ => rfl) fun _ => rfl
  apply h.retire
  · exact company_updateOne (pullFrom sel now) (fun _ => rfl) (fun _ => rfl) h.exists_company
  · rw [hlist]
    exact h.nodup.filter _
  · refine fun j _ => (h.expects j).mono (fun x _ => ?_) fun x _ hx hin => hx ((hmem x).mp hin).1
    exact (Collection.get?_updateOne_eq_none _ _ (pullFrom sel now) (fun _ => rfl) x).mpr
  · intro x hx
    obtain ⟨hin, hxw⟩ := (hmem x).mp hx
    rw [hown]
    exact (h.listed x hin).imp_right (exists_other (by rw [hi]; simpa using Ne.symm hxw))
  · intro x hx
    rw [hown] at hx
    have hxw : x ≠ w := by
      rintro rfl
      obtain ⟨q, hq, -⟩ := get?_of_employs hx
      have hgone := h.expects i
      rw [hi] at hgone
      rw [hgone] at hq
      cases hq
    rw [hmem]
    exact (h.linked x hx).imp (fun hin => ⟨hin, hxw⟩) (exists_other (by rw [hi]; simp))

end Invariant

section Tracking

variable {company : ObjectId} {g : Stage}

theorem stageStep_counts {op : DbOp} {s : Db} (h : op.counts = true) :
    StageStep company g op s g := by
  cases op with
  | read f | createCounter c | updateCounter table m n => exact .other rfl
  | _ => cases h

abbrev Staged (company : ObjectId) (g : Stage) (p : Action AccountResponse) : Prop :=
  Prog.Tracks exec (StageStep company) (fun g _ => g.settled) Stage.settled g p

/-- The new worker is one of the company, under the id of the request. -/
theorem newWorker_spec {env : Env} {b : AccountBody} {profilePic : Option String} {seqId : ℕ}
    {company : ObjectId} {p : Provider}
    (h : Providers.newWorker env b profilePic seqId company = .ok p) :
    p.id = env.newId ∧ isWorkerOf company p = true := by
  unfold Providers.newWorker at h
  repeat obtain ⟨_, -, h⟩ := bind_eq_ok h
  rw [← Except.ok.inj h]
  exact ⟨rfl, by simp [isWorkerOf]⟩

/-- `addWorker` creates one worker, and then writes the list back with it. -/
theorem staged_addWorker (env : Env) (c : Caller) (b : AccountBody) (profilePic : Option String) :
    Staged c.userId (.adding env.newId) (Providers.addWorker env c b profilePic) := by
  refine tracks_checked (fun _ => trivial) fun _ => ?_
  apply tracks_query_bind fun _ _ => stageStep_counts
  intro t
  cases hcompany : t.providers.get? c.userId with
  | none => trivial
  | some account =>
    have hid : account.id = c.userId := ((t.providers.get?_eq_some_iff _ _).mp hcompany).2
    apply tracks_cast_bind trivial
    intro p _
    apply tracks_query_bind fun _ _ => stageStep_counts
    intro t'
    split
    · apply tracks_getSequence_bind (fun _ _ => stageStep_counts) _ trivial
      intro n
      apply Prog.Tracks.bind
      apply tracks_cast_bind trivial
      intro worker hworker
      obtain ⟨hnew, hown⟩ := newWorker_spec hworker
      rw [hid] at hown
      intro t''
      cases hi : t''.providers.insert worker with
      | none =>
        refine ⟨.over, .refused hi, ?_⟩
        rw [exec_createProvider_none hi]
        trivial
      | some ps =>
        refine ⟨.linking worker.id, ?_, ?_⟩
        · rw [← hnew]
          exact .created hown (Collection.get?_of_insert hi)
        · rw [exec_createProvider_some hi]
          -- The list that was read goes back with the new worker at its end.
          intro t₃
          refine ⟨.over, .linked (fun q => ?_) rfl, trivial⟩
          rw [decide_eq_true_eq, hid]
    · unfold Providers.alreadyRegister
      rcases b.phone with _ | v
      · trivial
      · dsimp only
        split
        · trivial
        · trivial

/-- The value is neither an operator object nor an array. -/
def namesOneId : Option Json → Bool
  | some (.arr _) => false
  | some (.obj kvs) => !kvs.any fun kv => isOperator kv.1
  | _ => true

/-- Such a value selects at most one id. -/
theorem castForQuery_of_namesOneId {v : Option Json} {f : Option ObjectId → Bool}
    (hv : namesOneId v = true) (hf : castForQuery objectIdType v = .ok f) :
    ∃ a, f = fun x => decide (x = a) := by
  have hmap : ∀ {r : Except Thrown (Option ObjectId)},
      (r.map fun a x => decide (x = a)) = .ok f → ∃ a, f = fun x => decide (x = a) := by
    intro r hr
    cases r with
    | error e => cases hr
    | ok a => exact ⟨a, (Except.ok.inj hr).symm⟩
  rcases v with _ | v
  · exact ⟨none, (Except.ok.inj hf).symm⟩
  cases v with
  | null => exact ⟨none, (Except.ok.inj hf).symm⟩
  | bool b => exact hmap (r := castObjectId (.bool b)) hf
  | num m e => exact hmap (r := castObjectId (.num m e)) hf
  | str s => exact hmap (r := castObjectId (.str s)) hf
  | arr vs => cases hv
  | obj kvs =>
    simp only [namesOneId, Bool.not_eq_true'] at hv
    simp only [castForQuery, hv, Bool.false_eq_true, if_false] at hf
    exact hmap hf

/-- The worker that was found is removed, and then taken off the list. -/
theorem staged_removeWorker (env : Env) (c : Caller) (b : AccountBody) (worker : Provider)
    {w : ObjectId} (hf : castForQuery objectIdType b.workerId = .ok fun x => decide (x = some w)) :
    Staged c.userId (.deleting w) (Providers.removeWorker env c b worker) := by
  apply tracks_getSequence_bind (fun _ _ => stageStep_counts) _ trivial
  intro n
  apply tracks_cast_bind trivial
  intro r _ t
  refine ⟨.deleting w, .other rfl, ?_⟩
  unfold deleteData updateWorkerList
  rw [providerById_eq hf, hf]
  intro t'
  refine ⟨.unlinking w, .deleted (fun q => by simp), ?_⟩
  intro t''
  exact ⟨.over, .unlinked (fun x => by simp), trivial⟩

/-- `delateWorker` removes the one worker that it found, and then takes it off the list. -/
theorem staged_delateWorker (env : Env) (c : Caller) (b : AccountBody)
    (hv : namesOneId b.workerId = true) :
    ∃ g, (g = .over ∨ ∃ w, g = .asking w) ∧ Staged c.userId g (Providers.delateWorker env c b) := by
  cases hf : castForQuery objectIdType b.workerId with
  | error e =>
    refine ⟨.over, Or.inl rfl, tracks_checked (fun _ => trivial) fun _ => ?_⟩
    apply tracks_cast_bind trivial
    intro p hp
    simp only [workersOf, hf, Except.map] at hp
    cases hp
  | ok f =>
    obtain ⟨a, rfl⟩ := castForQuery_of_namesOneId hv hf
    cases a with
    | none =>
      -- The value selects no account at all.
      refine ⟨.over, Or.inl rfl, tracks_checked (fun _ => trivial) fun _ => ?_⟩
      rw [workersOf_eq hf]
      apply tracks_query_bind fun _ _ => stageStep_counts
      intro t
      cases hlist : t.providers.find fun q =>
          decide (some q.id = none) && isWorkerOf c.userId q with
      | nil => trivial
      | cons worker rest =>
        have hmem : worker ∈ t.providers.find fun q =>
            decide (some q.id = none) && isWorkerOf c.userId q := by
          rw [hlist]
          exact List.mem_cons_self
        have hsel := (List.mem_filter.mp hmem).2
        simp at hsel
    | some w =>
      refine ⟨.asking w, Or.inr ⟨w, rfl⟩, tracks_checked (fun _ => trivial) fun _ => ?_⟩
      rw [workersOf_eq hf]
      intro t
      cases hlist : t.providers.find fun q =>
          decide (some q.id = some w) && isWorkerOf c.userId q with
      | nil =>
        refine ⟨.asking w, .other rfl, ?_⟩
        simp only [exec_read, hlist]
        trivial
      | cons worker rest =>
        have hmem : worker ∈ t.providers.find fun q =>
            decide (some q.id = some w) && isWorkerOf c.userId q := by
          rw [hlist]
          exact List.mem_cons_self
        have hm := List.mem_filter.mp hmem
        simp only [Option.some.injEq, Bool.and_eq_true, decide_eq_true_eq] at hm
        have hemp : employs t c.userId w = true := by
          unfold employs
          rw [← hm.2.1, Collection.get?_key hm.1]
          exact hm.2.2
        refine ⟨.deleting w, .found hemp, ?_⟩
        simp only [exec_read, hlist]
        exact staged_removeWorker env c b worker hf

end Tracking

section Agreement

inductive WorkerRequest where
  | addWorker (body : AccountBody) (profilePic : Option String) (env : Env)
  | delateWorker (body : AccountBody) (env : Env)

namespace WorkerRequest

def request (c : Caller) : WorkerRequest → AccountRequest
  | addWorker body profilePic env =>
    { handler := .addWorker profilePic, caller := c, body := body, env := env }
  | delateWorker body env => { handler := .delateWorker, caller := c, body := body, env := env }

def newId : WorkerRequest → ObjectId
  | addWorker _ _ env => env.newId
  | delateWorker _ env => env.newId

def plain : WorkerRequest → Bool
  | addWorker _ _ _ => true
  | delateWorker body _ => namesOneId body.workerId

end WorkerRequest

def companyPool (c : Caller) (s : Db) (rs : List WorkerRequest) : AccountPool :=
  AccountPool.of s (rs.map (WorkerRequest.request c))

/-- A list that the step writes back is the present one, with one more worker, who is there. -/
def upToDate (company : ObjectId) (p : AccountPool) (i : ℕ) : Bool :=
  match p.nextOp i with
  | some (.updateProvider _ d _) => d.workers.all fun ws =>
      ws.dropLast = workerList p.state company && ws.getLast?.all (employs p.state company)
  | _ => true

variable {company : ObjectId} {gs : ℕ → Stage}

/-- One step of a run. -/
theorem consistent_step {p : AccountPool} {i : ℕ} {op : DbOp} {g : Stage}
    (h : Consistent company p.state gs) (hdate : upToDate company p i = true)
    (hop : p.nextOp i = some op) (hstep : StageStep company (gs i) op p.state g) :
    Consistent company (exec op p.state).1 (Function.update gs i g) := by
  generalize hg : gs i = g₀ at hstep
  cases hstep with
  | other hw =>
    rw [← hg, Function.update_eq_self]
    exact h.of_providers (exec_providers_of_not_writesProviders hw _)
  | created hown hfree =>
    obtain ⟨ps, hps⟩ := Collection.exists_insert hfree
    rw [exec_createProvider_some hps]
    exact h.created hg hown hps
  | refused hin =>
    rw [exec_createProvider_none hin]
    exact h.refused hg
  | linked hsel hws =>
    simp only [upToDate, hop, hws, Option.all_some, List.dropLast_concat, List.getLast?_concat,
      Bool.and_eq_true, decide_eq_true_eq] at hdate
    rw [hdate.1] at hws
    exact h.linkedTo hg hsel hws hdate.2
  | found hw => exact h.found hg hw
  | deleted hsel => exact h.deleted hg hsel
  | unlinked hsel => exact h.unlinked hg hsel

/-- Every request starts at a stage of its own kind. -/
theorem WorkerRequest.staged (c : Caller) (r : WorkerRequest) (hr : r.plain = true) :
    ∃ g, (g = .over ∨ (∃ w, g = .asking w) ∨ g = .adding r.newId) ∧
      Staged c.userId g (r.request c).program := by
  cases r with
  | addWorker body profilePic env =>
    refine ⟨.adding env.newId, Or.inr (Or.inr rfl), ?_⟩
    refine Prog.Tracks.catchAll ?_ (staged_addWorker env c body profilePic)
    exact fun _ _ hg => hg
  | delateWorker body env =>
    obtain ⟨g, hg, hstaged⟩ := staged_delateWorker env c body hr
    refine ⟨g, hg.imp_right Or.inl, ?_⟩
    refine Prog.Tracks.catchAll ?_ hstaged
    exact fun _ _ hg => hg

def FirstStage (rs : List WorkerRequest) (i : ℕ) (g : Stage) : Prop :=
  g = .over ∨ (∃ w, g = .asking w) ∨ ∃ r : WorkerRequest, rs[i]? = some r ∧ g = .adding r.newId

theorem exists_firstStage (c : Caller) {rs : List WorkerRequest}
    (hplain : ∀ r ∈ rs, r.plain = true) (i : ℕ) :
    ∃ g, FirstStage rs i g ∧
      ∀ r : WorkerRequest, rs[i]? = some r → Staged c.userId g (r.request c).program := by
  cases hi : rs[i]? with
  | none =>
    refine ⟨.over, Or.inl rfl, ?_⟩
    intro r hr
    cases hr
  | some r =>
    obtain ⟨g, hg, hstaged⟩ := r.staged c (hplain r (List.mem_of_getElem? hi))
    refine ⟨g, hg.imp_right (Or.imp_right fun ha => ⟨r, hi, ha⟩), ?_⟩
    intro r' hr'
    cases hr'
    exact hstaged

theorem FirstStage.settled {rs : List WorkerRequest} {i : ℕ} {g : Stage}
    (h : FirstStage rs i g) : g.settled := by
  rcases h with rfl | ⟨w, rfl⟩ | ⟨r, -, rfl⟩
  · trivial
  · trivial
  · trivial

/-- The only worker that a request can have in hand from the start is the one that it adds. -/
theorem FirstStage.newId_of_holds {rs : List WorkerRequest} {i : ℕ} {g : Stage}
    (h : FirstStage rs i g) {w : ObjectId} (hw : g.holds w) :
    ∃ r, rs[i]? = some r ∧ r.newId = w := by
  rcases h with rfl | ⟨w', rfl⟩ | ⟨r, hr, rfl⟩
  · rcases hw with hw | hw | hw | hw <;> cases hw
  · rcases hw with hw | hw | hw | hw <;> cases hw
  · rcases hw with hw | hw | hw | hw <;> cases hw
    exact ⟨r, hr, rfl⟩

/-- The first stages agree with the records. -/
theorem consistent_firstStages {company : ObjectId} {s : Db} {rs : List WorkerRequest}
    {gs : ℕ → Stage} (hfirst : ∀ i, FirstStage rs i (gs i))
    (hcompany : ∃ p, s.providers.get? company = some p ∧ p.userType ≠ workerType)
    (hstart : WorkersAgree s company) (hnew : (rs.map WorkerRequest.newId).Nodup)
    (hfree : ∀ r ∈ rs, s.providers.get? r.newId = none) : Consistent company s gs := by
  constructor
  · obtain ⟨p, hp, htype⟩ := hcompany
    refine ⟨p, hp, ?_⟩
    unfold isWorkerOf
    rw [decide_eq_false htype, Bool.false_and]
  · exact hstart.1
  · intro i
    rcases hfirst i with hk | ⟨w, hk⟩ | ⟨r, hr, hk⟩
    · rw [hk]
      trivial
    · rw [hk]
      trivial
    · have hwfree : s.providers.get? r.newId = none := hfree r (List.mem_of_getElem? hr)
      rw [hk]
      refine ⟨hwfree, fun hin => ?_⟩
      obtain ⟨q, hq, -⟩ := get?_of_employs ((hstart.2 _).mp hin)
      rw [hwfree] at hq
      cases hq
  · -- Two requests in whose hand a worker is are about to create it, with one id.
    rintro i j hij ⟨w, hclash⟩
    have hboth : (gs i).holds w ∧ (gs j).holds w := by
      rcases hclash with ⟨hi, hj⟩ | ⟨hi, hj⟩
      · exact ⟨Or.inl hi, hj⟩
      · exact ⟨Or.inr (Or.inl hi), Or.inr (Or.inl hj)⟩
    obtain ⟨r, hr, hw⟩ := (hfirst i).newId_of_holds hboth.1
    obtain ⟨r', hr', hw'⟩ := (hfirst j).newId_of_holds hboth.2
    have hlt : i < (rs.map WorkerRequest.newId).length := by
      rw [List.length_map]
      exact (List.getElem?_eq_some_iff.mp hr).1
    refine hij ((List.getElem?_inj hlt hnew).mp ?_)
    rw [List.getElem?_map, List.getElem?_map, hr, hr', Option.map_some, Option.map_some, hw, hw']
  · exact fun w hw => Or.inl ((hstart.2 w).mp hw)
  · exact fun w hw => Or.inl ((hstart.2 w).mpr hw)

/-- The requests at their first stages, which agree with the records. -/
theorem exists_stages (c : Caller) {s : Db} {rs : List WorkerRequest}
    (hcompany : ∃ p, s.providers.get? c.userId = some p ∧ p.userType ≠ workerType)
    (hstart : WorkersAgree s c.userId) (hnew : (rs.map WorkerRequest.newId).Nodup)
    (hfree : ∀ r ∈ rs, s.providers.get? r.newId = none) (hplain : ∀ r ∈ rs, r.plain = true) :
    ∃ gs : ℕ → Stage, (∀ i, (gs i).settled) ∧
      (companyPool c s rs).Tracking exec (StageStep c.userId) (fun g _ => g.settled)
        Stage.settled gs ∧
      Consistent c.userId s gs := by
  choose gs hfirst hstaged using exists_firstStage c hplain
  refine ⟨gs, fun i => (hfirst i).settled, ?_, ?_⟩
  · intro i p hp
    simp only [companyPool, AccountPool.of, List.map_map, List.getElem?_map,
      Option.map_eq_some_iff] at hp
    obtain ⟨r, hr, rfl⟩ := hp
    exact hstaged i r hr
  · exact consistent_firstStages hfirst hcompany hstart hnew hfree

/-- Whatever requests of the company run side by side, if each list that is written back is the
present one with a worker who is still there, and each removal names at most one worker, then
the list and the workers agree whenever no request is in progress. -/
theorem workers_agree_of_upToDate (c : Caller) (s : Db) (rs : List WorkerRequest)
    (hcompany : ∃ p, s.providers.get? c.userId = some p ∧ p.userType ≠ workerType)
    (hstart : WorkersAgree s c.userId) (hnew : (rs.map WorkerRequest.newId).Nodup)
    (hfree : ∀ r ∈ rs, s.providers.get? r.newId = none) (hplain : ∀ r ∈ rs, r.plain = true)
    (sched : List ℕ)
    (hdate : Along (Pool.stepAt exec) (fun p i => upToDate c.userId p i = true)
      (companyPool c s rs) sched)
    (hquiet : ∀ i ∈ sched,
      (runFrom (Pool.stepAt exec) (companyPool c s rs) sched).nextOp i = none) :
    WorkersAgree (runFrom (Pool.stepAt exec) (companyPool c s rs) sched).state c.userId := by
  obtain ⟨gs, hsettled, htrack, hcons⟩ := exists_stages c hcompany hstart hnew hfree hplain
  obtain ⟨gs', htrack', hcons', hsame⟩ := Pool.Tracking.run
    (I := Consistent c.userId) (fun _ _ _ _ _ h hd hop hg => consistent_step h hd hop hg)
    htrack hcons hdate
  -- A request that began is over, and one that did not is at its first stage.
  have hend : ∀ i, (gs' i).settled := by
    intro i
    by_cases hi : i ∈ sched
    · have hop := hquiet i hi
      cases hp : (runFrom (Pool.stepAt exec) (companyPool c s rs) sched).threads[i]? with
      | none =>
        rw [hsame i (Or.inr ((Pool.threads_run_eq_none exec _ sched i).mp hp))]
        exact hsettled i
      | some p =>
        rcases htrack'.ended hp hop with ⟨a, -, hg⟩ | ⟨-, hg⟩
        · exact hg
        · exact hg
    · rw [hsame i (Or.inl hi)]
      exact hsettled i
  refine ⟨hcons'.nodup, fun w => ⟨fun hw => ?_, fun hw => ?_⟩⟩
  · refine (hcons'.listed w hw).resolve_right ?_
    rintro ⟨i, hi⟩
    have hi' := hend i
    rw [hi] at hi'
    exact hi'
  · refine (hcons'.linked w hw).resolve_right ?_
    rintro ⟨i, hi⟩
    have hi' := hend i
    rw [hi] at hi'
    exact hi'

end Agreement

def sampleAdd (phone newId : String) : WorkerRequest :=
  .addWorker (sampleWorkerBody phone) (some "a.png") { sampleEnv 1 with newId := idOf newId }

def sampleDelete (worker newId : String) : WorkerRequest :=
  .delateWorker
    { workerId := some (.str worker)
      platform := some (.str "Android")
      ipAddress := some (.str "10.0.0.1") }
    { sampleEnv 2 with newId := idOf newId }

theorem workersAgree_companyDb : WorkersAgree companyDb company.userId := by
  have hlist : workerList companyDb company.userId = [] := rfl
  refine ⟨by rw [hlist]; exact List.nodup_nil, fun w => ?_⟩
  rw [hlist]
  refine iff_of_false (by simp) ?_
  intro hw
  obtain ⟨q, hq, hown⟩ := get?_of_employs hw
  have hmem := ((companyDb.providers.get?_eq_some_iff _ _).mp hq).1
  rw [List.mem_singleton.mp hmem] at hown
  exact absurd hown (by decide)

/-- Two workers are added one after the other, and the first of them is removed. -/
theorem workers_agree_serial :
    WorkersAgree (runFrom (Pool.stepAt exec) (companyPool company companyDb
      [sampleAdd "801" "worker----02", sampleAdd "802" "worker----03",
        sampleDelete "worker----02" "record----01"])
      [0, 0, 0, 0, 0, 0, 1, 1, 1, 1, 1, 1, 2, 2, 2, 2, 2, 2]).state company.userId := by
  have hquiet : ∀ i ∈ [0, 0, 0, 0, 0, 0, 1, 1, 1, 1, 1, 1, 2, 2, 2, 2, 2, 2],
      ((runFrom (Pool.stepAt exec) (companyPool company companyDb
        [sampleAdd "801" "worker----02", sampleAdd "802" "worker----03",
          sampleDelete "worker----02" "record----01"])
        [0, 0, 0, 0, 0, 0, 1, 1, 1, 1, 1, 1, 2, 2, 2, 2, 2, 2]).nextOp i).isNone = true := by
    decide +kernel
  have hfree : ∀ r ∈ [sampleAdd "801" "worker----02", sampleAdd "802" "worker----03",
      sampleDelete "worker----02" "record----01"],
      (companyDb.providers.get? r.newId).isNone = true := by decide +kernel
  refine workers_agree_of_upToDate company companyDb _ ⟨_, rfl, by decide⟩ workersAgree_companyDb
    (by decide +kernel) (fun r hr => Option.isNone_iff_eq_none.mp (hfree r hr))
    (by decide +kernel) _ (by decide +kernel) fun i hi => Option.isNone_iff_eq_none.mp (hquiet i hi)

/-- Two workers are added side by side: each request writes back the list that it read before
the other one wrote, and the first worker is not on the list. -/
theorem added_worker_lost :
    let p := runFrom (Pool.stepAt exec) (companyPool company companyDb
      [sampleAdd "801" "worker----02", sampleAdd "802" "worker----03"])
      [0, 0, 1, 1, 0, 0, 0, 0, 1, 1, 1, 1]
    WorkersAgree companyDb company.userId ∧ (p.nextOp 0).isNone = true ∧
      (p.nextOp 1).isNone = true ∧ ¬ WorkersAgree p.state company.userId := by
  refine ⟨workersAgree_companyDb, by decide +kernel, by decide +kernel, ?_⟩
  intro h
  have hown : employs (runFrom (Pool.stepAt exec) (companyPool company companyDb
      [sampleAdd "801" "worker----02", sampleAdd "802" "worker----03"])
      [0, 0, 1, 1, 0, 0, 0, 0, 1, 1, 1, 1]).state company.userId (idOf "worker----02") = true := by
    decide +kernel
  have hin := (h.2 _).mpr hown
  exact absurd hin (by decide +kernel)

end DoQwik
