import DoQwik.GrantStages

/-! The branches of a grant in any order of their steps: the worker's rows are those of the branches
that have added one, and the order tells which branches these are. -/
namespace DoQwik
open JsValues DocStore Interleave

def servicesOf (s : Db) (w : ObjectId) : List (Option ObjectId) :=
  (s.providerServices.find fun o => o.worker = some w).map ProviderService.serviceData

def copiesOf (s : Db) (w : ObjectId) : List OfferCopy :=
  (s.providerSubServices.find fun o => o.worker = some w).map ProviderSubService.copy

section Granting

/-- Reads and numbers leave all but the counters alone. -/
theorem exec_of_counts {op : DbOp} (h : op.counts = true) (t : Db) :
    (exec op t).1 = { t with counters := (exec op t).1.counters } ∧
      ∀ table, (t.counters.get? table).isSome = true →
        ((exec op t).1.counters.get? table).isSome = true := by
  cases op with
  | read f => exact ⟨rfl, fun _ h => h⟩
  | createCounter c =>
    cases hi : t.counters.insert c with
    | none =>
      rw [exec_createCounter_none hi]
      exact ⟨rfl, fun _ h => h⟩
    | some cs =>
      rw [exec_createCounter_some hi]
      refine ⟨rfl, fun table htable => ?_⟩
      change (cs.get? table).isSome = true
      rw [Collection.get?_insert hi]
      split
      · rfl
      · exact htable
  | updateCounter table m n =>
    refine ⟨rfl, fun table' htable => ?_⟩
    exact (Collection.isSome_get?_updateOne t.counters (fun c => c.table = table)
      (fun c => { c with seq := m, encrypted := n }) (fun _ => rfl) table').trans htable
  | _ => cases h

/-- Ids that are set aside stay free when one of them is used. -/
theorem free_of_insert {α κ : Type} [DecidableEq κ] {key : α → κ} {c c' : Collection key} {a : α}
    (h : c.insert a = some c') {ks ls : List κ} (hdistinct : (ks ++ key a :: ls).Nodup)
    (hfree : ∀ k ∈ ks ++ key a :: ls, c.get? k = none) : ∀ k ∈ ks ++ ls, c'.get? k = none := by
  intro k hk
  have hne : key a ≠ k := by
    rintro rfl
    exact (List.nodup_middle.mp hdistinct).notMem hk
  rw [Collection.get?_insert h, if_neg hne]
  refine hfree k ?_
  rcases List.mem_append.mp hk with hk | hk
  · exact List.mem_append_left _ hk
  · exact List.mem_append_right _ (List.mem_cons_of_mem _ hk)

theorem copiesOf_append {t t' : Db} {w : ObjectId} {o : ProviderSubService}
    (h : t'.providerSubServices.docs = t.providerSubServices.docs ++ [o])
    (hw : o.worker = some w) : copiesOf t' w = copiesOf t w ++ [o.copy] := by
  simp [copiesOf, Collection.find, h, hw]

def BranchStage.isCopying (g : BranchStage) : Bool :=
  match g.phase with
  | .copying _ => true
  | _ => false

def adders (gs : List BranchStage) : List ℕ :=
  (gs.filter BranchStage.isCopying).map BranchStage.branch

def BranchStage.rest (g : BranchStage) : Multiset OfferCopy :=
  match g.phase with
  | .copying cs => (cs.map CopyStage.rest).sum
  | _ => 0

def BranchStage.sane (g : BranchStage) : Prop :=
  match g.phase with
  | .copying cs => .lost ∉ cs
  | .lost => False
  | _ => True

variable (G : Grant)

def BranchStage.newServices (g : BranchStage) : List ObjectId :=
  match g.phase with
  | .copying _ => []
  | _ => [G.env.newId g.branch 0]

def BranchStage.newOffers (g : BranchStage) : List ObjectId :=
  match g.phase with
  | .copying cs => cs.filterMap CopyStage.newId
  | _ => (copyStages G.env g.branch G.first.serviceData G.values).filterMap CopyStage.newId

def Grant.copies (i : ℕ) : Multiset OfferCopy :=
  ((copyStages G.env i G.first.serviceData G.values).map CopyStage.rest).sum

/-- What holds while the branches go on: the rows of the worker are those of the branches that
have added one, what is copied and what is to be copied is always what these branches copy, and
the ids of the rows to come are new and different. -/
structure Granting (s t : Db) (gs : List BranchStage) : Prop where
  frame : t = { s with
    counters := t.counters
    providerServices := t.providerServices
    providerSubServices := t.providerSubServices }
  sees : G.Sees t
  sane : ∀ g ∈ gs, g.sane
  services : (servicesOf t G.worker).Perm ((adders gs).map fun i =>
    some (G.first.serviceData.getD (G.env.generated i 0)))
  typed : ∀ o ∈ t.providerServices.docs, o.worker = some G.worker → o.userType = some workerType
  copies : (copiesOf t G.worker : Multiset OfferCopy)+(gs.map BranchStage.rest).sum =
    ((adders gs).map G.copies).sum
  freshServices : ∀ id ∈ gs.flatMap (BranchStage.newServices G),
    t.providerServices.get? id = none
  distinctServices : (gs.flatMap (BranchStage.newServices G)).Nodup
  freshOffers : ∀ id ∈ gs.flatMap (BranchStage.newOffers G),
    t.providerSubServices.get? id = none
  distinctOffers : (gs.flatMap (BranchStage.newOffers G)).Nodup

variable {G} {s t : Db} {before after : List BranchStage} {g g' : BranchStage} {op : DbOp}

theorem Grant.Sees.of_counters (h : G.Sees t) {cs : Collection Counter.table}
    (hcs : ∀ table, (t.counters.get? table).isSome = true → (cs.get? table).isSome = true) :
    G.Sees { t with counters := cs } :=
  ⟨h.first, h.values, hcs _ h.serviceCounter, hcs _ h.offerCounter⟩

theorem adders_append (gs gs' : List BranchStage) :
    adders (gs ++ gs') = adders gs ++ adders gs' := by
  rw [adders, List.filter_append, List.map_append]
  rfl

theorem flatMap_middle {α β : Type} (f : α → List β) {as bs : List α} {a a' : α} (h : f a' = f a) :
    (as ++ a' :: bs).flatMap f = (as ++ a :: bs).flatMap f := by
  rw [List.flatMap_append, List.flatMap_append, List.flatMap_cons, List.flatMap_cons, h]

theorem sane_of_mem (hold : ∀ x ∈ before ++ g :: after, x.sane) (hg' : g'.sane) :
    ∀ x ∈ before ++ g' :: after, x.sane := by
  intro x hx
  rcases List.mem_append.mp hx with hx | hx
  · exact hold x (List.mem_append_left _ hx)
  · rcases List.mem_cons.mp hx with rfl | hx
    · exact hg'
    · exact hold x (List.mem_append_right _ (List.mem_cons_of_mem _ hx))

/-- A step that leaves the rows and the plans alone. -/
theorem Granting.aside (h : Granting G s t (before ++ g :: after)) (hop : op.counts = true)
    (hadders : adders [g'] = adders [g]) (hrest : g'.rest = g.rest) (hsane : g'.sane)
    (hservices : g'.newServices G = g.newServices G) (hoffers : g'.newOffers G = g.newOffers G) :
    Granting G s (exec op t).1 (before ++ g' :: after) := by
  obtain ⟨hframe, hcounters⟩ := exec_of_counts hop t
  have hadders' : adders (before ++ g' :: after) = adders (before ++ g :: after) := by
    rw [adders_append, adders_append, ← List.singleton_append, adders_append, hadders,
      ← adders_append, List.singleton_append]
  have hrest' : (before ++ g' :: after).map BranchStage.rest =
      (before ++ g :: after).map BranchStage.rest := by
    rw [List.map_append, List.map_append, List.map_cons, List.map_cons, hrest]
  rw [hframe]
  constructor
  · rw [h.frame]
  · exact h.sees.of_counters hcounters
  · exact sane_of_mem h.sane hsane
  · rw [hadders']
    exact h.services
  · exact h.typed
  · rw [hadders', hrest']
    exact h.copies
  · rw [flatMap_middle _ hservices]
    exact h.freshServices
  · rw [flatMap_middle _ hservices]
    exact h.distinctServices
  · rw [flatMap_middle _ hoffers]
    exact h.freshOffers
  · rw [flatMap_middle _ hoffers]
    exact h.distinctOffers

theorem adders_copying (i : ℕ) (cs : List CopyStage) :
    adders (before ++ ⟨i, .copying cs⟩ :: after) = adders before ++ i :: adders after := by
  rw [adders_append]
  rfl

theorem adders_counted (i k : ℕ) (absent : Bool) :
    adders (before ++ ⟨i, .counted k absent⟩ :: after) = adders before ++ adders after := by
  rw [adders_append]
  rfl

theorem servicesOf_append {w : ObjectId} {rows : Collection ProviderService.id}
    {row : ProviderService} (h : rows.docs = t.providerServices.docs ++ [row])
    (hw : row.worker = some w) :
    servicesOf { t with providerServices := rows } w = servicesOf t w ++ [row.serviceData] := by
  simp [servicesOf, Collection.find, h, hw]

/-- A branch that found no row adds its own. -/
theorem Granting.add {i : ℕ} {row : ProviderService}
    (h : Granting G s t (before ++ ⟨i, .counted 5 true⟩ :: after)) (hrow : G.IsRow i row)
    (hnew : t.providerServices.get? row.id = none) :
    Granting G s (exec (.createProviderService row) t).1
      (before ++ ⟨i, .copying (copyStages G.env i G.first.serviceData G.values)⟩ :: after) := by
  obtain ⟨rows, hrows⟩ := Collection.exists_insert hnew
  have hdocs := (Collection.insert_eq_some hrows).2
  have hexec : (exec (.createProviderService row) t).1 = { t with providerServices := rows } := by
    simp only [exec, hrows, Option.getD_some]
  have hsplit : (before ++ ⟨i, .counted 5 true⟩ :: after).flatMap (BranchStage.newServices G) =
      before.flatMap (BranchStage.newServices G) ++ row.id ::
        after.flatMap (BranchStage.newServices G) := by
    rw [List.flatMap_append, List.flatMap_cons, hrow.id]
    rfl
  have hrest : (before ++ ⟨i, .copying (copyStages G.env i G.first.serviceData G.values)⟩ ::
      after).flatMap (BranchStage.newServices G) =
      before.flatMap (BranchStage.newServices G) ++ after.flatMap (BranchStage.newServices G) := by
    rw [List.flatMap_append, List.flatMap_cons]
    rfl
  have hoffers : BranchStage.newOffers G
      ⟨i, .copying (copyStages G.env i G.first.serviceData G.values)⟩ =
      BranchStage.newOffers G ⟨i, .counted 5 true⟩ := rfl
  rw [hexec]
  constructor
  · rw [h.frame]
  · exact ⟨h.sees.first, h.sees.values, h.sees.serviceCounter, h.sees.offerCounter⟩
  · refine sane_of_mem h.sane ?_
    simp [BranchStage.sane, copyStages]
  · have hservices := h.services
    rw [adders_counted] at hservices
    rw [adders_copying, servicesOf_append hdocs hrow.worker, hrow.serviceData, List.map_append,
      List.map_cons]
    refine (List.perm_append_singleton _ _).trans (((List.Perm.cons _ hservices)).trans ?_)
    rw [List.map_append]
    exact List.perm_middle.symm
  · intro o ho
    change o ∈ rows.docs at ho
    rw [hdocs] at ho
    rcases List.mem_append.mp ho with ho | ho
    · exact h.typed o ho
    · rw [List.mem_singleton.mp ho]
      exact fun _ => hrow.userType
  · have hcopies := h.copies
    rw [adders_counted, List.map_append, List.map_append, List.map_cons, List.sum_append,
      List.sum_append, List.sum_cons] at hcopies
    rw [adders_copying, List.map_append, List.map_append, List.map_cons, List.map_cons,
      List.sum_append, List.sum_append, List.sum_cons, List.sum_cons]
    have hnone : BranchStage.rest ⟨i, .counted 5 true⟩ = 0 := rfl
    change (copiesOf t G.worker : Multiset OfferCopy)+((before.map BranchStage.rest).sum+
      (G.copies i+(after.map BranchStage.rest).sum)) = _
    rw [hnone] at hcopies
    rw [add_left_comm ((adders before).map G.copies).sum, ← hcopies]
    abel
  · rw [hrest]
    exact free_of_insert hrows (hsplit ▸ h.distinctServices) (hsplit ▸ h.freshServices)
  · rw [hrest]
    exact (List.nodup_middle.mp (hsplit ▸ h.distinctServices)).of_cons
  · rw [flatMap_middle _ hoffers]
    exact h.freshOffers
  · rw [flatMap_middle _ hoffers]
    exact h.distinctOffers

/-- The copies of the offers are offers of no company. -/
theorem Grant.Sees.of_copy (h : G.Sees t) {ps : Collection ProviderSubService.id}
    {o : ProviderSubService} (hdocs : ps.docs = t.providerSubServices.docs ++ [o])
    (htype : o.userType = some workerType) : G.Sees { t with providerSubServices := ps } := by
  have hother : companyOffers G.first.serviceData o = false := by
    have hne : (some workerType : Option String) ≠ some companyType := by decide
    rw [companyOffers, htype, decide_eq_false hne, Bool.false_and]
  have hfirst := h.first
  have hvalues := h.values
  rw [Collection.findOne] at hfirst
  rw [Collection.find] at hvalues
  refine ⟨?_, ?_, h.serviceCounter, h.offerCounter⟩
  · change ps.docs.find? _ = _
    rw [hdocs, List.find?_append, hfirst]
    rfl
  · change (ps.docs.filter _).map _ = _
    have hnone : [o].filter (companyOffers G.first.serviceData) = [] := by simp [hother]
    rw [hdocs, List.filter_append, hnone, List.append_nil]
    exact hvalues

/-- One offer is copied. -/
theorem Granting.copy {i : ℕ} {cs cs' : List CopyStage}
    (h : Granting G s t (before ++ ⟨i, .copying cs⟩ :: after))
    (hstep : Prog.OneOf (CopyStep G.worker) cs op t cs') :
    Granting G s (exec op t).1 (before ++ ⟨i, .copying cs'⟩ :: after) := by
  have hsane : .lost ∉ cs := h.sane ⟨i, .copying cs⟩ (by simp)
  obtain ⟨pre, c, c', post, rfl, rfl, hone⟩ := hstep
  cases hone with
  | aside hop => exact h.aside hop rfl rfl hsane rfl rfl
  | @copied o _ hw htype =>
    have hsplit : (before ++ ⟨i, .copying (pre ++ .pending o.id (some o.copy) :: post)⟩ ::
        after).flatMap (BranchStage.newOffers G) =
        (before.flatMap (BranchStage.newOffers G) ++ pre.filterMap CopyStage.newId) ++ o.id ::
          (post.filterMap CopyStage.newId ++ after.flatMap (BranchStage.newOffers G)) := by
      simp [BranchStage.newOffers, CopyStage.newId]
    have hrest : (before ++ ⟨i, .copying (pre ++ .over :: post)⟩ ::
        after).flatMap (BranchStage.newOffers G) =
        (before.flatMap (BranchStage.newOffers G) ++ pre.filterMap CopyStage.newId) ++
          (post.filterMap CopyStage.newId ++ after.flatMap (BranchStage.newOffers G)) := by
      simp [BranchStage.newOffers, List.filterMap_cons, CopyStage.newId]
    have hservices : BranchStage.newServices G ⟨i, .copying (pre ++ .over :: post)⟩ =
      BranchStage.newServices G ⟨i, .copying (pre ++ .pending o.id (some o.copy) :: post)⟩ := rfl
    have hids := hsplit ▸ h.distinctOffers
    have hfresh := hsplit ▸ h.freshOffers
    obtain ⟨ps, hps⟩ :=
      Collection.exists_insert (hfresh o.id (List.mem_append_right _ List.mem_cons_self))
    have hdocs := (Collection.insert_eq_some hps).2
    have hexec : (exec (.createProviderSubService o) t).1 =
        { t with providerSubServices := ps } := by
      simp only [exec, hps, Option.getD_some]
    rw [hexec]
    constructor
    · rw [h.frame]
    · exact h.sees.of_copy hdocs htype
    · refine sane_of_mem h.sane ?_
      simp only [BranchStage.sane, List.mem_append, List.mem_cons, not_or] at hsane ⊢
      exact ⟨hsane.1, by simp, hsane.2.2⟩
    · have hservices := h.services
      rwa [adders_copying] at hservices ⊢
    · exact h.typed
    · have hcopies := h.copies
      rw [adders_copying] at hcopies ⊢
      rw [← hcopies, copiesOf_append hdocs hw]
      simp only [List.map_append, List.map_cons, List.sum_append, List.sum_cons, BranchStage.rest,
        ← Multiset.coe_add, CopyStage.rest, Multiset.coe_singleton]
      abel
    · rw [flatMap_middle _ hservices]
      exact h.freshServices
    · rw [flatMap_middle _ hservices]
      exact h.distinctServices
    · rw [hrest]
      exact free_of_insert hps hids hfresh
    · rw [hrest]
      exact (List.nodup_middle.mp hids).of_cons
  | lose hnone =>
    have hcounter := h.sees.offerCounter
    rw [hnone] at hcounter
    cases hcounter
  | lost => exact absurd (by simp) hsane

theorem Granting.step (h : Granting G s t (before ++ g :: after)) (hstep : GrantStep G g op t g') :
    Granting G s (exec op t).1 (before ++ g' :: after) := by
  cases hstep with
  | look hk | count hk => exact h.aside rfl rfl rfl trivial rfl rfl
  | aside hop => exact h.aside hop rfl rfl trivial rfl rfl
  | add hrow hnew => exact h.add hrow hnew
  | copy hone => exact h.copy hone
  | lose hsees => exact absurd h.sees hsees
  | taken hid => exact absurd (h.freshServices _ (by simp [BranchStage.newServices])) hid
  | lost => exact (h.sane _ (List.mem_append_right _ List.mem_cons_self)).elim

/-- The worker's rows are found by their service, unless it is made up. -/
theorem Granting.count_eq_zero_iff {gs : List BranchStage} (h : Granting G s t gs) :
    t.providerServices.count (isServiceOf G.worker G.first.serviceData) = 0 ↔
      (G.first.serviceData.isSome = true → adders gs = []) := by
  have hcounted : (∃ o ∈ t.providerServices.docs,
      isServiceOf G.worker G.first.serviceData o = true) ↔
        G.first.serviceData ∈ servicesOf t G.worker := by
    simp only [servicesOf, Collection.find, List.mem_map, List.mem_filter, isServiceOf,
      Bool.and_eq_true, decide_eq_true_eq]
    constructor
    · rintro ⟨o, ho, ⟨hw, -⟩, hdata⟩
      exact ⟨o, ⟨ho, hw⟩, hdata⟩
    · rintro ⟨o, ⟨ho, hw⟩, hdata⟩
      exact ⟨o, ho, ⟨hw, h.typed o ho hw⟩, hdata⟩
  rw [← not_iff_not, ← ne_eq, Collection.count_ne_zero_iff, hcounted, h.services.mem_iff]
  cases G.first.serviceData with
  | none => simp
  | some sd =>
    simp only [Option.getD_some, List.mem_map, and_true, Option.isSome_some, true_implies]
    rw [List.eq_nil_iff_forall_not_mem, not_forall]
    exact exists_congr fun i => not_not.symm

end Granting

section Timing

open Prog (Precedes)

variable {G : Grant} {pre : List ℕ} {A A' : List ℕ} {g : BranchStage} {i : ℕ}

/-- What the order of the steps says about a branch: it has made its steps, and whether it found a
row tells whether another branch had added one before it counted. -/
def BranchStage.timed (G : Grant) (pre : List ℕ) (A : List ℕ) (g : BranchStage) : Prop :=
  match g.phase with
  | .reading k => pre.count g.branch = k ∧ k < G.order.countStep g.branch
  | .counted k true => pre.count g.branch = k ∧ G.order.countStep g.branch ≤ k ∧
      (G.first.serviceData.isSome = true →
        ∀ j ∈ A, ¬ Precedes pre j 6 g.branch (G.order.countStep g.branch))
  | .counted _ false => G.first.serviceData.isSome = true ∧
      ∃ j ∈ A, Precedes pre j 6 g.branch (G.order.countStep g.branch)
  | .copying _ => 6 ≤ pre.count g.branch ∧
      (G.first.serviceData.isSome = true →
        ∀ j ∈ A, ¬ Precedes pre j 6 g.branch (G.order.countStep g.branch))
  | .lost => False

theorem WorkerOrder.countStep_le (order : WorkerOrder) (i : ℕ) : order.countStep i ≤ 3 := by
  unfold countStep
  split <;> omega

/-- A branch that has counted none does not learn of a row that comes later. -/
theorem not_precedes_snoc (hcount : G.order.countStep g.branch ≤ pre.count g.branch)
    (h : ∀ j ∈ A, ¬ Precedes pre j 6 g.branch (G.order.countStep g.branch))
    (hnew : ∀ j ∈ A', j ∈ A ∨ pre.count j < 6) :
    ∀ j ∈ A', ¬ Precedes (pre ++ [i]) j 6 g.branch (G.order.countStep g.branch) := by
  intro j hj hbefore
  have hpre := hbefore.of_snoc hcount
  rcases hnew j hj with hold | hlt
  · exact h j hold hpre
  · obtain ⟨q, hq, hsix, -⟩ := hpre
    have := hq.sublist.count_le j
    omega

/-- A step of another branch. -/
theorem BranchStage.timed.other (h : g.timed G pre A) (hne : g.branch ≠ i)
    (hsub : ∀ j ∈ A, j ∈ A') (hnew : ∀ j ∈ A', j ∈ A ∨ pre.count j < 6) :
    g.timed G (pre ++ [i]) A' := by
  have hcount : (pre ++ [i]).count g.branch = pre.count g.branch := by
    rw [List.count_append, List.count_singleton, if_neg (by simpa using hne.symm), Nat.add_zero]
  have hmono : ∀ {j a b}, Precedes pre j a g.branch b → Precedes (pre ++ [i]) j a g.branch b :=
    fun h => h.mono (List.prefix_append _ _)
  obtain ⟨b, phase⟩ := g
  cases phase with
  | reading k => exact ⟨hcount.trans h.1, h.2⟩
  | counted k absent =>
    cases absent with
    | true =>
      obtain ⟨hk, hstep, hnone⟩ := h
      exact ⟨hcount.trans hk, hstep, fun hsome =>
        not_precedes_snoc (g := ⟨b, .counted k true⟩) (hstep.trans hk.ge) (hnone hsome) hnew⟩
    | false =>
      obtain ⟨hsome, j, hj, hbefore⟩ := h
      exact ⟨hsome, j, hsub j hj, hmono hbefore⟩
  | copying cs =>
    obtain ⟨hsix, hnone⟩ := h
    refine ⟨hsix.trans hcount.ge, fun hsome =>
      not_precedes_snoc (g := ⟨b, .copying cs⟩) ?_ (hnone hsome) hnew⟩
    exact (G.order.countStep_le b).trans (le_trans (by decide) hsix)
  | lost => exact h

/-- A turn that a branch lets pass. -/
theorem BranchStage.timed.pass (h : g.timed G pre A) (hended : g.branch = i → g.ended) :
    g.timed G (pre ++ [i]) A := by
  by_cases hne : g.branch = i
  · obtain ⟨b, phase⟩ := g
    rcases hended hne with hphase | hphase | ⟨cs, hphase, -⟩
    · cases hphase
      obtain ⟨hsome, j, hj, hbefore⟩ := h
      exact ⟨hsome, j, hj, hbefore.mono (List.prefix_append _ _)⟩
    · cases hphase
      exact h
    · cases hphase
      obtain ⟨hsix, hnone⟩ := h
      refine ⟨hsix.trans ((List.sublist_append_left _ _).count_le _), fun hsome =>
        not_precedes_snoc (g := ⟨b, .copying cs⟩) ?_ (hnone hsome) fun j hj => Or.inl hj⟩
      exact (G.order.countStep_le b).trans (le_trans (by decide) hsix)
  · exact h.other hne (fun j hj => hj) fun j hj => Or.inl hj

structure GrantRun (G : Grant) (s : Db) (n : ℕ) (pre : List ℕ) (t : Db) (gs : List BranchStage) :
    Prop where
  granting : Granting G s t gs
  branches : gs.map BranchStage.branch = List.range n
  timed : ∀ g ∈ gs, g.timed G pre (adders gs)

variable {s t : Db} {n : ℕ} {gs : List BranchStage} {g' : BranchStage} {op : DbOp}

theorem GrantRun.branch_eq (h : GrantRun G s n pre t gs) (hi : gs[i]? = some g) :
    g.branch = i := by
  have hmap : (gs.map BranchStage.branch)[i]? = some g.branch := by
    rw [List.getElem?_map, hi]
    rfl
  rw [h.branches] at hmap
  obtain ⟨hlt, heq⟩ := List.getElem?_eq_some_iff.mp hmap
  rw [← heq, List.getElem_range]

theorem exists_split {α : Type} {as : List α} {i : ℕ} {a : α} (h : as[i]? = some a) :
    ∃ before after, as = before ++ a :: after ∧ ∀ b, as.set i b = before ++ b :: after := by
  induction as generalizing i with
  | nil => cases h
  | cons x xs ih =>
    cases i with
    | zero =>
      cases h
      exact ⟨[], xs, rfl, fun _ => rfl⟩
    | succ i =>
      obtain ⟨before, after, rfl, hset⟩ := ih (i := i) h
      exact ⟨x :: before, after, rfl, fun b => by rw [List.set_cons_succ, hset, List.cons_append]⟩

theorem GrantStep.branch_eq (h : GrantStep G g op t g') : g'.branch = g.branch := by
  cases h <;> rfl

/-- A branch becomes an adder with its sixth step, and stays one. -/
theorem GrantStep.adders (h : GrantStep G g op t g') (hold : g.timed G pre A) (hsane : g'.sane) :
    (∀ j ∈ adders [g'], j ∈ adders [g] ∨ pre.count j < 6) ∧
      ∀ j ∈ adders [g], j ∈ adders [g'] := by
  cases h with
  | look hk | count hk | aside hop => exact ⟨fun j hj => Or.inl hj, fun j hj => hj⟩
  | add hrow hnew =>
    refine ⟨fun j hj => Or.inr ?_, fun j hj => by cases hj⟩
    rw [List.mem_singleton.mp hj]
    exact hold.1.trans_lt (by decide)
  | copy hone => exact ⟨fun j hj => Or.inl hj, fun j hj => hj⟩
  | lose hsees | taken hid | lost => exact hsane.elim

/-- The branch that takes the step keeps to its time. -/
theorem GrantStep.timed (h : GrantStep G g op t g') (hold : g.timed G pre A) (hsane : g'.sane)
    (hcount : t.providerServices.count (isServiceOf G.worker G.first.serviceData) = 0 ↔
      (G.first.serviceData.isSome = true → A = []))
    (hA : ∀ j ∈ A, 6 ≤ pre.count j) (hnew : ∀ j ∈ A', j ∈ A ∨ pre.count j < 6)
    (hsub : ∀ j ∈ A, j ∈ A') : g'.timed G (pre ++ [g.branch]) A' := by
  have hturn : (pre ++ [g.branch]).count g.branch = pre.count g.branch+1 := by
    rw [List.count_append, List.count_singleton_self]
  cases h with
  | look hk => exact ⟨hturn.trans (congrArg (·+1) hold.1), hk⟩
  | @count i k β f t hk =>
    have hmade : (pre ++ [i]).count i = k+1 := hturn.trans (congrArg (·+1) hold.1)
    by_cases hzero : t.providerServices.count (isServiceOf G.worker G.first.serviceData) = 0
    · rw [decide_eq_true hzero]
      refine ⟨hmade, hk.ge, fun hsome j hj hbefore => ?_⟩
      -- No branch has added a row so far, so that none has before this step.
      have hlt : pre.count j < 6 := by
        rcases hnew j hj with hmem | hlt
        · rw [hcount.mp hzero hsome] at hmem
          cases hmem
        · exact hlt
      obtain ⟨q, hq, hsix, hless⟩ := hbefore
      rcases List.prefix_concat_iff.mp hq with rfl | hq
      · exact absurd hless (not_lt.mpr (hk.ge.trans hmade.ge))
      · have := hq.sublist.count_le j
        omega
    · rw [decide_eq_false hzero]
      rw [hcount, Classical.not_imp] at hzero
      obtain ⟨hsome, hA'⟩ := hzero
      obtain ⟨j, hj⟩ := List.exists_mem_of_ne_nil _ hA'
      have hless : pre.count i < G.order.countStep i := hold.1.trans_lt hold.2
      exact ⟨hsome, j, hsub j hj, pre, List.prefix_append _ _, hA j hj, hless⟩
  | @aside i k absent op t hop =>
    cases absent with
    | true =>
      obtain ⟨hk, hstep, hnone⟩ := hold
      exact ⟨hturn.trans (congrArg (·+1) hk), hstep.trans (Nat.le_succ k), fun hsome =>
        not_precedes_snoc (g := ⟨i, .counted k true⟩) (hstep.trans hk.ge) (hnone hsome) hnew⟩
    | false =>
      obtain ⟨hsome, j, hj, hbefore⟩ := hold
      exact ⟨hsome, j, hsub j hj, hbefore.mono (List.prefix_append _ _)⟩
  | @add i row t hrow hfree =>
    obtain ⟨hk, hstep, hnone⟩ := hold
    exact ⟨(hturn.trans (congrArg (·+1) hk)).ge, fun hsome =>
      not_precedes_snoc (g := ⟨i, .counted 5 true⟩) (hstep.trans hk.ge) (hnone hsome) hnew⟩
  | @copy i cs cs' op t hone =>
    obtain ⟨hsix, hnone⟩ := hold
    exact ⟨(hsix.trans (Nat.le_succ _)).trans hturn.ge, fun hsome =>
      not_precedes_snoc (g := ⟨i, .copying cs⟩)
        ((G.order.countStep_le i).trans (le_trans (by decide) hsix)) (hnone hsome) hnew⟩
  | lose hsees | taken hid | lost => exact hsane.elim

theorem mem_adders {j : ℕ} : j ∈ adders gs ↔ ∃ g ∈ gs, g.isCopying = true ∧ g.branch = j := by
  simp [adders, and_assoc]

theorem GrantRun.six_le (h : GrantRun G s n pre t gs) : ∀ j ∈ adders gs, 6 ≤ pre.count j := by
  intro j hj
  obtain ⟨g, hg, hcopying, rfl⟩ := mem_adders.mp hj
  have htimed := h.timed g hg
  obtain ⟨b, phase⟩ := g
  cases phase with
  | reading k | counted k absent | lost => cases hcopying
  | copying cs => exact htimed.1

theorem mem_middle {α : Type} {as bs : List α} {a x : α} (h : x ∈ as ++ bs) : x ∈ as ++ a :: bs :=
  ((List.sublist_cons_self a bs).append_left as).mem h

theorem GrantRun.branch_ne {before after : List BranchStage} {x : BranchStage}
    (h : GrantRun G s n pre t (before ++ g :: after)) (hx : x ∈ before ++ after) :
    x.branch ≠ g.branch := by
  have hnodup : ((before ++ g :: after).map BranchStage.branch).Nodup := by
    rw [h.branches]
    exact List.nodup_range
  rw [List.map_append, List.map_cons, List.nodup_middle, ← List.map_append] at hnodup
  exact fun heq => hnodup.notMem (heq ▸ List.mem_map_of_mem hx)

theorem ended_of_over {α : Type}
    (h : Prog.Over (fun (g : BranchStage) (_ : α) => g.ended) BranchStage.ended g) : g.ended := by
  rcases h with ⟨-, h⟩ | h
  · exact h
  · exact h

theorem traceInvariant_grantRun (G : Grant) (s : Db) (n : ℕ) (α : Type) :
    Prog.TraceInvariant exec (GrantStep G)
      (Prog.Over (fun (g : BranchStage) (_ : α) => g.ended) BranchStage.ended)
      (GrantRun G s n) where
  step := by
    intro pre t gs i g op g' h hi hstep
    have hbranch := h.branch_eq hi
    subst hbranch
    have hsix := h.six_le
    obtain ⟨before, after, rfl, hset⟩ := exists_split hi
    have hmem : g ∈ before ++ g :: after := List.mem_append_right _ List.mem_cons_self
    rw [hset]
    have hgranting := h.granting.step hstep
    have hsane : g'.sane := hgranting.sane g' (List.mem_append_right _ List.mem_cons_self)
    obtain ⟨hnew, hsub⟩ := hstep.adders (h.timed g hmem) hsane
    have hsplit (x : BranchStage) (j : ℕ) : j ∈ adders (before ++ x :: after) ↔
        j ∈ adders before ∨ j ∈ adders [x] ∨ j ∈ adders after := by
      rw [adders_append, ← List.singleton_append, adders_append, List.mem_append, List.mem_append]
    have hnew' : ∀ j ∈ adders (before ++ g' :: after),
        j ∈ adders (before ++ g :: after) ∨ pre.count j < 6 := by
      intro j hj
      rw [hsplit] at hj ⊢
      rcases hj with hj | hj | hj
      · exact Or.inl (Or.inl hj)
      · exact (hnew j hj).imp_left fun h => Or.inr (Or.inl h)
      · exact Or.inl (Or.inr (Or.inr hj))
    have hsub' : ∀ j ∈ adders (before ++ g :: after), j ∈ adders (before ++ g' :: after) := by
      intro j hj
      rw [hsplit] at hj ⊢
      exact hj.imp_right (Or.imp_left (hsub j))
    refine ⟨hgranting, ?_, fun x hx => ?_⟩
    · rw [← h.branches, List.map_append, List.map_append, List.map_cons, List.map_cons,
        hstep.branch_eq]
    · have hother : x ∈ before ++ after → x.timed G (pre ++ [g.branch]) _ := fun hx =>
        (h.timed x (mem_middle hx)).other (h.branch_ne hx) hsub' hnew'
      rcases List.mem_append.mp hx with hx | hx
      · exact hother (List.mem_append_left _ hx)
      · rcases List.mem_cons.mp hx with rfl | hx
        · exact hstep.timed (h.timed g hmem) hsane h.granting.count_eq_zero_iff hsix hnew' hsub'
        · exact hother (List.mem_append_right _ hx)
  skip := by
    intro pre t gs i h hended
    refine ⟨h.granting, h.branches, fun g hg => (h.timed g hg).pass fun hbranch => ?_⟩
    obtain ⟨k, hk⟩ := List.mem_iff_getElem?.mp hg
    rw [h.branch_eq hk] at hbranch
    exact ended_of_over (hended g (hbranch ▸ hk))

variable (h : GrantRun G s n pre t gs) (hended : ∀ g ∈ gs, g.ended)

include h

theorem GrantRun.lt_of_mem_adders {j : ℕ} (hj : j ∈ adders gs) : j < n := by
  obtain ⟨g, hg, -, rfl⟩ := mem_adders.mp hj
  rw [← List.mem_range, ← h.branches]
  exact List.mem_map_of_mem hg

theorem GrantRun.nodup_adders : (adders gs).Nodup := by
  have hnodup : (gs.map BranchStage.branch).Nodup := by
    rw [h.branches]
    exact List.nodup_range
  exact hnodup.sublist (List.filter_sublist.map _)

/-- A branch that added its row had not learned of another. -/
theorem GrantRun.not_precedes (hsome : G.first.serviceData.isSome = true) (hi : i ∈ adders gs) :
    ∀ j ∈ adders gs, ¬ Precedes pre j 6 i (G.order.countStep i) := by
  obtain ⟨g, hg, hcopying, rfl⟩ := mem_adders.mp hi
  have htimed := h.timed g hg
  obtain ⟨b, phase⟩ := g
  cases phase with
  | reading k | counted k absent | lost => cases hcopying
  | copying cs => exact htimed.2 hsome

include hended

/-- A branch that did not add one learned of another in time. -/
theorem GrantRun.exists_precedes (hi : i < n) (hnot : i ∉ adders gs) :
    G.first.serviceData.isSome = true ∧
      ∃ j ∈ adders gs, Precedes pre j 6 i (G.order.countStep i) := by
  have hmem : i ∈ gs.map BranchStage.branch := by
    rw [h.branches]
    exact List.mem_range.mpr hi
  obtain ⟨g, hg, rfl⟩ := List.mem_map.mp hmem
  have htimed := h.timed g hg
  rcases hended g hg with hphase | hphase | ⟨cs, hphase, -⟩
  · rw [BranchStage.timed, hphase] at htimed
    exact htimed
  · rw [BranchStage.timed, hphase] at htimed
    exact htimed.elim
  · refine absurd (mem_adders.mpr ⟨g, hg, ?_, rfl⟩) hnot
    rw [BranchStage.isCopying, hphase]

/-- Without a service to count by, all branches add their rows. -/
theorem GrantRun.mem_adders_of_none (hnone : G.first.serviceData = none) (hi : i < n) :
    i ∈ adders gs := by
  by_contra hnot
  have hsome := (h.exists_precedes hended hi hnot).1
  rw [hnone] at hsome
  cases hsome

theorem GrantRun.adders_ne_nil (hn : 0 < n) : adders gs ≠ [] := by
  intro hnil
  obtain ⟨-, j, hj, -⟩ := h.exists_precedes hended hn (by rw [hnil]; exact List.not_mem_nil)
  rw [hnil] at hj
  cases hj

/-- One branch is the only one to add a row if its row is there before any other branch counts. -/
theorem GrantRun.adders_eq_singleton_iff (hsome : G.first.serviceData.isSome = true) :
    (∃ j, adders gs = [j]) ↔
      ∃ j < n, ∀ i < n, i ≠ j → Precedes pre j 6 i (G.order.countStep i) := by
  have hsix (i : ℕ) : G.order.countStep i ≤ 6 := (G.order.countStep_le i).trans (by decide)
  constructor
  · rintro ⟨j, hj⟩
    refine ⟨j, h.lt_of_mem_adders (hj ▸ List.mem_cons_self), fun i hi hne => ?_⟩
    have hnot : i ∉ adders gs := by
      rw [hj, List.mem_singleton]
      exact hne
    obtain ⟨-, j', hj', hbefore⟩ := h.exists_precedes hended hi hnot
    rw [hj, List.mem_singleton] at hj'
    exact hj' ▸ hbefore
  · rintro ⟨j, hj, hfirst⟩
    have hadded : j ∈ adders gs := by
      by_contra hnot
      obtain ⟨-, j', hj', hbefore⟩ := h.exists_precedes hended hj hnot
      have hne : j' ≠ j := fun heq => hnot (heq ▸ hj')
      exact (hfirst j' (h.lt_of_mem_adders hj') hne).asymm (hsix j') (hsix j) hbefore
    refine ⟨j, List.perm_singleton.mp ?_⟩
    refine (List.perm_ext_iff_of_nodup h.nodup_adders (List.nodup_singleton j)).mpr fun i => ?_
    rw [List.mem_singleton]
    refine ⟨fun hi => ?_, fun hi => hi ▸ hadded⟩
    by_contra hne
    exact h.not_precedes hsome hi j hadded (hfirst i (h.lt_of_mem_adders hi) hne)

/-- In the end nothing is left to be copied. -/
theorem GrantRun.copies_eq :
    (copiesOf t G.worker : Multiset OfferCopy) = ((adders gs).map G.copies).sum := by
  have hrest : (gs.map BranchStage.rest).sum = 0 := by
    refine List.sum_eq_zero fun x hx => ?_
    obtain ⟨g, hg, rfl⟩ := List.mem_map.mp hx
    rcases hended g hg with hphase | hphase | ⟨cs, hphase, hcs⟩
    · rw [BranchStage.rest, hphase]
    · rw [BranchStage.rest, hphase]
    · rw [BranchStage.rest, hphase]
      refine List.sum_eq_zero fun y hy => ?_
      obtain ⟨c, hc, rfl⟩ := List.mem_map.mp hy
      exact hcs c hc
  have hcopies := h.granting.copies
  rwa [hrest, add_zero] at hcopies

end Timing

end DoQwik
