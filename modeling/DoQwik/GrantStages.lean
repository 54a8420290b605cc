import DoQwik.CatalogueUpserts
import DoQwik.Traces

/-! The stages of the branches by which a company grants services to a worker. A branch reads the
first offer of all, the companies' offers of its service and the number of the worker's rows; if
there is none it adds one, with its sixth step, and then copies the offers in any order. -/
namespace DoQwik
open JsValues DocStore Interleave

/-- What a copy has of an offer: the service, the sub-service and the price. -/
abbrev OfferCopy := Option ObjectId × Option ObjectId × Option JsNum

def ProviderSubService.copy (o : ProviderSubService) : OfferCopy :=
  (o.serviceData, o.subServices, o.price)

/-- The copy that is made of an offer, if its sub-service is there. -/
def PopulatedOffer.copyFor (sd : ObjectId) (value : PopulatedOffer) : Option OfferCopy :=
  value.subServices.map fun sub => (some sd, some sub.id, value.offer.price)

def isServiceOf (w : ObjectId) (serviceData : Option ObjectId) (o : ProviderService) : Bool :=
  decide (o.worker = some w) && o.userType = some workerType && o.serviceData = serviceData

def offerTable : String := "dqw_provider_sub_services"

def serviceTable : String := "dqw_provider_services"

section Copies

/-- Where the copying of one offer is: the row is still to be written under its id, or there is
none to be written, or it is done. Without a counter of the collection anything may come. -/
inductive CopyStage where
  | pending (id : ObjectId) (copy : Option OfferCopy)
  | over
  | lost

def CopyStage.rest : CopyStage → Multiset OfferCopy
  | .pending _ (some x) => {x}
  | _ => 0

def CopyStage.newId : CopyStage → Option ObjectId
  | .pending id _ => some id
  | _ => none

inductive CopyStep (w : ObjectId) : CopyStage → DbOp → Db → CopyStage → Prop where
  | aside {g : CopyStage} {op : DbOp} {s : Db} (h : op.counts = true) : CopyStep w g op s g
  | copied {o : ProviderSubService} {s : Db} (hw : o.worker = some w)
      (htype : o.userType = some workerType) :
      CopyStep w (.pending o.id (some o.copy)) (.createProviderSubService o) s .over
  | lose {g : CopyStage} {op : DbOp} {s : Db} (h : s.counters.get? offerTable = none) :
      CopyStep w g op s .lost
  | lost {op : DbOp} {s : Db} : CopyStep w .lost op s .lost

theorem tracks_lost {α : Type} (w : ObjectId) (p : Action α) :
    Prog.Tracks exec (CopyStep w) (fun g _ => g.rest = 0) (fun g => g.rest = 0) .lost p := by
  induction p with
  | done a => rfl
  | fail e => rfl
  | call op k ih => exact fun t => ⟨.lost, .lost, ih _⟩

variable {env : CatalogueEnv} {b : CatalogueBody} {i : ℕ} {serviceData : Option ObjectId}
  {w : ObjectId}

variable (env) (i) (serviceData) in
theorem newWorkerOffer_eq (hw : optional castObjectId b.workerData = .ok (some w)) (k seqId : ℕ)
    {value : PopulatedOffer} {sub : SubService} (hsub : value.subServices = some sub) :
    ∃ o, newWorkerOffer env b i serviceData k value seqId = .ok o ∧ o.id = env.newId i (k+1) ∧
      o.worker = some w ∧ o.userType = some workerType ∧
      o.copy = (some (serviceData.getD (env.generated i (k+1))), some sub.id,
        value.offer.price) := by
  simp only [newWorkerOffer, hsub, hw]
  exact ⟨_, rfl, rfl, rfl, rfl, rfl⟩

/-- The row of a copy, once its number is there. -/
theorem tracks_addSubservices (hw : optional castObjectId b.workerData = .ok (some w)) (k n : ℕ)
    (value : PopulatedOffer) :
    Prog.Tracks exec (CopyStep w) (fun g _ => g.rest = 0) (fun g => g.rest = 0)
      (.pending (env.newId i (k+1)) (value.copyFor (serviceData.getD (env.generated i (k+1)))))
      (addSubservices (newWorkerOffer env b i serviceData k value n) >>= fun _ => pure ()) := by
  cases hsub : value.subServices with
  | none =>
    have herror : newWorkerOffer env b i serviceData k value n = .error .typeError := by
      simp only [newWorkerOffer, hsub]
    rw [herror, PopulatedOffer.copyFor, hsub]
    rfl
  | some sub =>
    obtain ⟨o, ho, hid, hworker, htype, hcopy⟩ := newWorkerOffer_eq env i serviceData hw k n hsub
    rw [ho, PopulatedOffer.copyFor, hsub, Option.map_some, ← hcopy, ← hid]
    intro t
    refine ⟨.over, .copied hworker htype, ?_⟩
    -- An id that is taken refuses the row, and that ends it as well.
    change Prog.Tracks exec (CopyStep w) _ _ .over
      ((if (t.providerSubServices.insert o).isSome then pure o else throwing .duplicateKey) >>=
        fun _ => pure ())
    split
    · rfl
    · rfl

theorem tracks_addOfferToWorker (hw : optional castObjectId b.workerData = .ok (some w)) (k : ℕ)
    (value : PopulatedOffer) :
    Prog.Tracks exec (CopyStep w) (fun g _ => g.rest = 0) (fun g => g.rest = 0)
      (.pending (env.newId i (k+1)) (value.copyFor (serviceData.getD (env.generated i (k+1)))))
      (addOfferToWorker env b i serviceData k value) := by
  intro t
  cases hc : t.counters.get? offerTable with
  | none => exact ⟨.lost, .lose hc, tracks_lost w _⟩
  | some counter =>
    refine ⟨_, .aside rfl, ?_⟩
    change Prog.Tracks exec (CopyStep w) _ _ _
      (nextNumber offerTable (t.counters.get? offerTable) >>= fun n =>
        addSubservices (newWorkerOffer env b i serviceData k value n) >>= fun _ => pure ())
    rw [hc]
    exact fun t' => ⟨_, .aside rfl, tracks_addSubservices hw k _ value⟩

def copyStages (env : CatalogueEnv) (i : ℕ) (serviceData : Option ObjectId)
    (values : List PopulatedOffer) : List CopyStage :=
  values.zipIdx.map fun x =>
    .pending (env.newId i (x.2+1)) (x.1.copyFor (serviceData.getD (env.generated i (x.2+1))))

theorem sum_copyStages (sd : ObjectId) (values : List PopulatedOffer) :
    ((copyStages env i (some sd) values).map CopyStage.rest).sum =
      (values.filterMap (PopulatedOffer.copyFor sd) : Multiset OfferCopy) := by
  have hmap : (copyStages env i (some sd) values).map CopyStage.rest =
      values.map fun v => ((v.copyFor sd).elim 0 fun x => {x} : Multiset OfferCopy) := by
    conv_rhs => rw [← List.zipIdx_map_fst 0 values]
    rw [copyStages, List.map_map, List.map_map]
    refine List.map_congr_left fun x _ => ?_
    simp only [Function.comp_apply, Option.getD_some]
    cases x.1.copyFor sd with
    | none => rfl
    | some y => rfl
  rw [hmap]
  clear hmap
  induction values with
  | nil => rfl
  | cons v values ih =>
    rw [List.map_cons, List.sum_cons, ih, List.filterMap_cons]
    cases v.copyFor sd with
    | none => exact zero_add _
    | some x => rfl

theorem newIds_copyStages (values : List PopulatedOffer) :
    (copyStages env i serviceData values).filterMap CopyStage.newId =
      (List.range values.length).map fun k => env.newId i (k+1) := by
  rw [copyStages, List.filterMap_map, List.range_eq_range', ← List.zipIdx_map_snd 0 values,
    List.map_map, ← List.filterMap_eq_map]
  rfl

variable (env) (i) (serviceData) in
theorem tracks_copies (hw : optional castObjectId b.workerData = .ok (some w))
    (values : List PopulatedOffer) :
    List.Forall₂ (Prog.Tracks exec (CopyStep w) (fun g _ => g.rest = 0) (fun g => g.rest = 0))
      (copyStages env i serviceData values)
      (values.mapIdx (addOfferToWorker env b i serviceData)) := by
  rw [copyStages, List.mapIdx_eq_zipIdx_map, List.forall₂_map_left_iff, List.forall₂_map_right_iff]
  exact List.forall₂_same.mpr fun x _ => tracks_addOfferToWorker hw x.2 x.1

end Copies

section Branches

/-- A grant: the request, the worker it names, the first offer of all and the offers that the
branches find. -/
structure Grant where
  env : CatalogueEnv
  caller : Caller
  body : CatalogueBody
  worker : ObjectId
  first : ProviderSubService
  values : List PopulatedOffer
  order : WorkerOrder

def WorkerOrder.countStep (order : WorkerOrder) (i : ℕ) : ℕ :=
  if (order.branch i).countFirst then 2 else 3

/-- What every branch reads, whenever it does. -/
structure Grant.Sees (G : Grant) (t : Db) : Prop where
  first : t.providerSubServices.findOne (fun _ => true) = some G.first
  values : (t.providerSubServices.find (companyOffers G.first.serviceData)).map
    (populateOffer t) = G.values
  serviceCounter : (t.counters.get? serviceTable).isSome = true
  offerCounter : (t.counters.get? offerTable).isSome = true

/-- Where a branch is, by the steps it has made: it has not counted yet, it has counted and found
no row or some, or it has added its row. -/
inductive GrantPhase where
  | reading (made : ℕ)
  | counted (made : ℕ) (absent : Bool)
  | copying (cs : List CopyStage)
  | lost

structure BranchStage where
  branch : ℕ
  phase : GrantPhase

def BranchStage.ended (g : BranchStage) : Prop :=
  g.phase = .counted 3 false ∨ g.phase = .lost ∨
    ∃ cs, g.phase = .copying cs ∧ ∀ c ∈ cs, c.rest = 0

structure Grant.IsRow (G : Grant) (i : ℕ) (row : ProviderService) : Prop where
  id : row.id = G.env.newId i 0
  worker : row.worker = some G.worker
  userType : row.userType = some workerType
  serviceData : row.serviceData = some (G.first.serviceData.getD (G.env.generated i 0))

inductive GrantStep (G : Grant) : BranchStage → DbOp → Db → BranchStage → Prop where
  | look {i k : ℕ} {β : Type} {f : Db → β} {t : Db} (hk : k+1 < G.order.countStep i) :
      GrantStep G ⟨i, .reading k⟩ (.read f) t ⟨i, .reading (k+1)⟩
  | count {i k : ℕ} {β : Type} {f : Db → β} {t : Db} (hk : k+1 = G.order.countStep i) :
      GrantStep G ⟨i, .reading k⟩ (.read f) t ⟨i, .counted (k+1)
        (t.providerServices.count (isServiceOf G.worker G.first.serviceData) = 0)⟩
  | aside {i k : ℕ} {absent : Bool} {op : DbOp} {t : Db} (h : op.counts = true) :
      GrantStep G ⟨i, .counted k absent⟩ op t ⟨i, .counted (k+1) absent⟩
  | add {i : ℕ} {row : ProviderService} {t : Db} (hrow : G.IsRow i row)
      (hnew : t.providerServices.get? row.id = none) :
      GrantStep G ⟨i, .counted 5 true⟩ (.createProviderService row) t
        ⟨i, .copying (copyStages G.env i G.first.serviceData G.values)⟩
  | copy {i : ℕ} {cs cs' : List CopyStage} {op : DbOp} {t : Db}
      (h : Prog.OneOf (CopyStep G.worker) cs op t cs') :
      GrantStep G ⟨i, .copying cs⟩ op t ⟨i, .copying cs'⟩
  | lose {g : BranchStage} {op : DbOp} {t : Db} (h : ¬ G.Sees t) :
      GrantStep G g op t ⟨g.branch, .lost⟩
  | taken {i : ℕ} {op : DbOp} {t : Db} (h : t.providerServices.get? (G.env.newId i 0) ≠ none) :
      GrantStep G ⟨i, .counted 5 true⟩ op t ⟨i, .lost⟩
  | lost {i : ℕ} {op : DbOp} {t : Db} : GrantStep G ⟨i, .lost⟩ op t ⟨i, .lost⟩

abbrev GrantTracked (G : Grant) {α : Type} (g : BranchStage) (p : Action α) : Prop :=
  Prog.Tracks exec (GrantStep G) (fun g _ => g.ended) BranchStage.ended g p

theorem grantTracked_lost (G : Grant) {α : Type} (i : ℕ) (p : Action α) :
    GrantTracked G ⟨i, .lost⟩ p := by
  induction p with
  | done a => exact Or.inr (Or.inl rfl)
  | fail e => exact Or.inr (Or.inl rfl)
  | call op k ih => exact fun t => ⟨_, .lost, ih _⟩

variable {G : Grant} {i : ℕ}

/-- An operation after which a branch goes on if it saw what is there. -/
theorem grantTracked_call {α : Type} {g : BranchStage} {op : DbOp} {k : Ret op → Action α}
    (h : ∀ t, G.Sees t → ∃ g', GrantStep G g op t g' ∧ GrantTracked G g' (k (exec op t).2)) :
    GrantTracked G g (.call op k) := by
  intro t
  by_cases hsees : G.Sees t
  · exact h t hsees
  · exact ⟨_, .lose hsees, grantTracked_lost G g.branch _⟩

/-- The offers are copied in any order. -/
theorem grantTracked_copies (hw : optional castObjectId G.body.workerData = .ok (some G.worker))
    (order : List ℕ) :
    GrantTracked G ⟨i, .copying (copyStages G.env i G.first.serviceData G.values)⟩
      (Prog.joinAll order
        (G.values.mapIdx (addOfferToWorker G.env G.body i G.first.serviceData))) := by
  have hover : ∀ cs : List CopyStage,
      (∀ c ∈ cs, Prog.Over (fun (c : CopyStage) (_ : Unit) => c.rest = 0)
        (fun c => c.rest = 0) c) → BranchStage.ended ⟨i, .copying cs⟩ := by
    intro cs hcs
    refine Or.inr (Or.inr ⟨cs, rfl, fun c hc => ?_⟩)
    rcases hcs c hc with ⟨-, hrest⟩ | hrest
    · exact hrest
    · exact hrest
  have htracks := Prog.Tracks.joinAll order (tracks_copies G.env i G.first.serviceData hw G.values)
  exact htracks.lift (fun cs => BranchStage.mk i (.copying cs))
    (fun _ _ _ _ hstep => GrantStep.copy hstep) (fun cs _ hcs => hover cs hcs) hover

variable (G) (i) in
theorem newWorkerService_eq (hw : optional castObjectId G.body.workerData = .ok (some G.worker))
    (seqId : ℕ) :
    ∃ row, newWorkerService G.env G.caller G.body i G.first.serviceData seqId = .ok row ∧
      G.IsRow i row := by
  simp only [newWorkerService, hw]
  exact ⟨_, rfl, rfl, rfl, rfl, rfl⟩

/-- The row of the service comes with the sixth step, and then the copies of the offers. -/
theorem grantTracked_add (hw : optional castObjectId G.body.workerData = .ok (some G.worker))
    (order : List ℕ) :
    GrantTracked G ⟨i, .counted 3 true⟩
      (addServiceToWorker G.env G.caller G.body i G.first.serviceData G.values order) := by
  let copies : Action Unit :=
    Prog.joinAll order (G.values.mapIdx (addOfferToWorker G.env G.body i G.first.serviceData)) >>=
      fun _ => pure ()
  have hcopies : GrantTracked G
      ⟨i, .copying (copyStages G.env i G.first.serviceData G.values)⟩ copies :=
    Prog.Tracks.bind (Prog.Tracks.mono (fun _ _ hended => hended) (grantTracked_copies hw order))
  refine grantTracked_call fun t hsees => ⟨_, .aside rfl, ?_⟩
  obtain ⟨counter, hcounter⟩ := Option.isSome_iff_exists.mp hsees.serviceCounter
  change GrantTracked G _ (nextNumber serviceTable (t.counters.get? serviceTable) >>= fun seqId =>
    addServices (newWorkerService G.env G.caller G.body i G.first.serviceData seqId) >>= fun _ =>
      copies)
  rw [hcounter]
  refine grantTracked_call fun t _ => ⟨_, .aside rfl, ?_⟩
  obtain ⟨row, hrow, hisRow⟩ := newWorkerService_eq G i hw (counter.seq+1)
  change GrantTracked G _
    (addServices (newWorkerService G.env G.caller G.body i G.first.serviceData (counter.seq+1)) >>=
      fun _ => copies)
  rw [hrow]
  refine grantTracked_call fun t _ => ?_
  cases hnew : t.providerServices.get? row.id with
  | some o =>
    refine ⟨_, .taken ?_, grantTracked_lost G i _⟩
    rw [← hisRow.id, hnew]
    exact Option.some_ne_none o
  | none =>
    obtain ⟨rows, hrows⟩ := Collection.exists_insert hnew
    refine ⟨_, .add hisRow hnew, ?_⟩
    change GrantTracked G _
      ((if (t.providerServices.insert row).isSome then pure () else throwing .duplicateKey) >>=
        fun _ => copies)
    rw [hrows]
    exact hcopies

theorem workerServices_eq {b : CatalogueBody} {w : ObjectId}
    (hquery : castForQuery objectIdType b.workerData = .ok fun x => decide (x = some w))
    (serviceData : Option ObjectId) :
    workerServices b serviceData = .ok (isServiceOf w serviceData) := by
  simp only [workerServices, hquery, Except.map]
  rfl

/-- What the two reads give, in either order. -/
theorem grantTracked_reads
    (hquery : castForQuery objectIdType G.body.workerData =
      .ok fun x => decide (x = some G.worker)) {α : Type}
    {k : List PopulatedOffer × ℕ → Action α}
    (hk : ∀ n, GrantTracked G ⟨i, .counted 3 (n = 0)⟩ (k (G.values, n))) :
    GrantTracked G ⟨i, .reading 1⟩
      (readOffersAndCount G.body G.first.serviceData (G.order.branch i).countFirst >>= k) := by
  unfold readOffersAndCount getServicesFromProvider
  rw [workerServices_eq hquery]
  cases hfirst : (G.order.branch i).countFirst with
  | true =>
    have hstep : 1+1 = G.order.countStep i := by rw [WorkerOrder.countStep, hfirst]; rfl
    refine grantTracked_call fun t _ => ⟨_, .count hstep, ?_⟩
    refine grantTracked_call fun t' hsees => ⟨_, .aside rfl, ?_⟩
    have hrest := hk (t.providerServices.count (isServiceOf G.worker G.first.serviceData))
    rw [← hsees.values] at hrest
    exact hrest
  | false =>
    have hstep : G.order.countStep i = 3 := by rw [WorkerOrder.countStep, hfirst]; rfl
    refine grantTracked_call fun t hsees => ⟨_, .look (by omega), ?_⟩
    refine grantTracked_call fun t' _ => ⟨_, .count hstep.symm, ?_⟩
    have hrest := hk (t'.providerServices.count (isServiceOf G.worker G.first.serviceData))
    rw [← hsees.values] at hrest
    exact hrest

theorem grantTracked_serviceBranch
    (hw : optional castObjectId G.body.workerData = .ok (some G.worker))
    (hquery : castForQuery objectIdType G.body.workerData =
      .ok fun x => decide (x = some G.worker)) :
    GrantTracked G ⟨i, .reading 0⟩
      (serviceBranch G.env G.caller G.body i (G.order.branch i)) := by
  have hcount : 0+1 < G.order.countStep i := by
    unfold WorkerOrder.countStep
    split <;> omega
  refine grantTracked_call fun t hsees => ⟨_, .look hcount, ?_⟩
  have hread : (exec (.read fun s => s.providerSubServices.findOne fun _ => true) t).2 =
      some G.first := hsees.first
  rw [hread]
  refine grantTracked_reads hquery fun n => ?_
  by_cases hn : n = 0
  · rw [if_pos hn, decide_eq_true hn]
    exact Prog.Tracks.bind (Prog.Tracks.mono (fun _ _ hended => hended) (grantTracked_add hw _))
  · rw [if_neg hn, decide_eq_false hn]
    exact Or.inl rfl

end Branches

end DoQwik
