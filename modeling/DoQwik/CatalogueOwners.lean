import DoQwik.CatalogueStages
import DoQwik.JobBookings

/-! Whose rows a vendor's requests touch. What they add or update is their own; a deletion takes
whatever row its id names. -/
namespace DoQwik
open JsValues DocStore Interleave

section Owners

def ProviderService.ownedBy (o : ProviderService) (p : ObjectId) : Bool :=
  o.company = some p || o.individual = some p

/-- Every row that is inserted, changed or deleted between the two states is the provider's. -/
structure EditsOwn (p : ObjectId) (s t : Db) : Prop where
  services : Collection.DiffersIn (fun o => ProviderService.ownedBy o p = true) s.providerServices
    t.providerServices
  offers : Collection.DiffersIn (fun o => ProviderSubService.ownedBy o p = true)
    s.providerSubServices t.providerSubServices

def OwnWrite (p : ObjectId) : DbOp → Prop
  | .createProviderService o => o.ownedBy p = true
  | .createProviderSubService o => o.ownedBy p = true
  | .updateProviderSubService sel _ _ => ∀ o, sel o = true → o.ownedBy p = true
  | .deleteProviderSubService _ => False
  | _ => True

variable {p : ObjectId} {s t : Db}

theorem EditsOwn.refl (p : ObjectId) (s : Db) : EditsOwn p s s :=
  ⟨.refl _ _, .refl _ _⟩

theorem editsOwn_createService {o : ProviderService} (ho : o.ownedBy p = true)
    (h : EditsOwn p s t) : EditsOwn p s (exec (.createProviderService o) t).1 := by
  refine ⟨h.services.trans ?_, h.offers⟩
  change Collection.DiffersIn _ _ ((t.providerServices.insert o).getD t.providerServices)
  cases hi : t.providerServices.insert o with
  | none => exact .refl _ _
  | some d => exact Collection.differsIn_insert ho hi

theorem editsOwn_createOffer {o : ProviderSubService} (ho : o.ownedBy p = true)
    (h : EditsOwn p s t) : EditsOwn p s (exec (.createProviderSubService o) t).1 := by
  refine ⟨h.services, h.offers.trans ?_⟩
  change Collection.DiffersIn _ _ ((t.providerSubServices.insert o).getD t.providerSubServices)
  cases hi : t.providerSubServices.insert o with
  | none => exact .refl _ _
  | some d => exact Collection.differsIn_insert ho hi

/-- The update sets neither owner. -/
theorem editsOwn_updateOffer {sel : ProviderSubService → Bool} {d : OfferSet} {now : ℤ}
    (hsel : ∀ o, sel o = true → o.ownedBy p = true) (h : EditsOwn p s t) :
    EditsOwn p s (exec (.updateProviderSubService sel d now) t).1 := by
  refine ⟨h.services, h.offers.trans ?_⟩
  exact Collection.differsIn_updateOne (d.apply_id now) hsel fun o ho => ho

theorem editsOwn_exec {op : DbOp} (hop : OwnWrite p op) (h : EditsOwn p s t) :
    EditsOwn p s (exec op t).1 := by
  have hframe : op.addsService = false → op.writesOffers = false →
      EditsOwn p s (exec op t).1 := by
    intro hservice hoffer
    refine ⟨?_, ?_⟩
    · rw [exec_services_of_not_addsService hservice]
      exact h.services
    · rw [exec_offers_of_not_writesOffers hoffer]
      exact h.offers
  cases op with
  | createProviderService o => exact editsOwn_createService hop h
  | createProviderSubService o => exact editsOwn_createOffer hop h
  | updateProviderSubService sel d now => exact editsOwn_updateOffer hop h
  | deleteProviderSubService sel => exact absurd hop id
  | _ => exact hframe rfl rfl

end Owners

section Additions

variable {env : CatalogueEnv} {b : CatalogueBody} {vendor : Vendor} {owner : ObjectId}

/-- A row that the vendor's field names the owner in belongs to it. -/
theorem ownedBy_of_field {company individual : Option ObjectId}
    (h : vendor.field company individual = some owner) :
    (decide (company = some owner) || decide (individual = some owner)) = true := by
  cases vendor with
  | company => exact Bool.or_eq_true_iff.mpr (Or.inl (decide_eq_true h))
  | individual => exact Bool.or_eq_true_iff.mpr (Or.inr (decide_eq_true h))

/-- Everything that an addition writes is the vendor's own. -/
theorem ownWrites_vendor :
    VendorStages (fun (_ : Unit) op _ _ => OwnWrite owner op) env b vendor owner () () () () where
  aside g op s hop := by
    cases op with
    | read f | createCounter c | updateCounter table m n => trivial
    | _ => cases hop
  countedNone _ _ _ _ _ := trivial
  countedSome _ _ _ _ _ := trivial
  createService seqId o s ho _ := by
    obtain ⟨i, -, hfield, -⟩ := newService_eq_ok ho
    exact ownedBy_of_field hfield
  refuseService seqId o s ho _ := by
    obtain ⟨i, -, hfield, -⟩ := newService_eq_ok ho
    exact ownedBy_of_field hfield
  notFound _ _ _ _ _ := trivial
  createOffer seqId o s ho := by
    obtain ⟨i, j, -, -, hfield, -⟩ := newOffer_eq_ok ho
    exact ownedBy_of_field hfield
  updateOffer q d now s hq o ho := by
    obtain ⟨p, p', -, -, hsel⟩ := ownOffers_eq_ok hq
    exact ownedBy_of_field ((hsel o).mp ho).1

theorem editsOwn_addServicesBy (env : CatalogueEnv) (c : Caller) (b : CatalogueBody)
    (vendor : Vendor) (s : Db) :
    EditsOwn c.userId s ((addServicesBy env c b vendor).run exec s).1 := by
  have hstaged : CatalogueStaged (fun (_ : Unit) op _ _ => OwnWrite c.userId op) ()
      (addServicesBy env c b vendor) := staged_addServicesBy fun _ => ownWrites_vendor
  have hkeep : ∀ (t : Db) (_ : Unit) (op : DbOp) (_ : Unit), EditsOwn c.userId s t →
      OwnWrite c.userId op → EditsOwn c.userId s (exec op t).1 :=
    fun t _ op _ ht hop => editsOwn_exec hop ht
  obtain ⟨-, hend⟩ := hstaged.run (I := fun t _ => EditsOwn c.userId s t) hkeep
    (EditsOwn.refl c.userId s)
  exact hend

end Additions

section Deletions

def offerNamed (s : Db) (c : Caller) (b : CatalogueBody) (vendor : Vendor) :
    Option ProviderSubService :=
  if (s.providers.get? c.userId).any (fun p => p.userType = vendor.userType) then
    selected s.providerSubServices (offerById b.id)
  else none

/-- A deletion takes the row that it names, or nothing. -/
theorem run_deleteServicesBy (s : Db) (c : Caller) (b : CatalogueBody) (vendor : Vendor) :
    (offerNamed s c b vendor = none ∧ ((deleteServicesBy c b vendor).run exec s).1 = s) ∨
      ∃ q, offerNamed s c b vendor = s.providerSubServices.findOne q ∧
        ((deleteServicesBy c b vendor).run exec s).1 =
          { s with providerSubServices := s.providerSubServices.deleteOne q } := by
  cases hp : s.providers.get? c.userId with
  | none =>
    refine Or.inl ⟨?_, ?_⟩
    · rw [offerNamed, hp]
      rfl
    · simp only [deleteServicesBy, asVendor, getProvider, run_query_bind, hp]
      rfl
  | some p =>
    by_cases htype : p.userType = vendor.userType
    · have hnamed : offerNamed s c b vendor = selected s.providerSubServices (offerById b.id) := by
        rw [offerNamed, hp, Option.any_some, if_pos (decide_eq_true htype)]
      rw [hnamed]
      cases hq : offerById b.id with
      | error e =>
        refine Or.inl ⟨rfl, ?_⟩
        simp only [deleteServicesBy, asVendor, getProvider, run_query_bind, hp, if_pos htype,
          deleteIndividualServices, hq]
        rfl
      | ok q =>
        refine Or.inr ⟨q, rfl, ?_⟩
        simp only [deleteServicesBy, asVendor, getProvider, run_query_bind, hp, if_pos htype,
          deleteIndividualServices, hq]
        rfl
    · refine Or.inl ⟨?_, ?_⟩
      · rw [offerNamed, hp, Option.any_some, if_neg (by simpa using htype)]
      · simp only [deleteServicesBy, asVendor, getProvider, run_query_bind, hp, if_neg htype]
        rfl

theorem editsOwn_deleteServicesBy_iff (s : Db) (c : Caller) (b : CatalogueBody)
    (vendor : Vendor) :
    EditsOwn c.userId s ((deleteServicesBy c b vendor).run exec s).1 ↔
      ∀ o, offerNamed s c b vendor = some o → o.ownedBy c.userId = true := by
  rcases run_deleteServicesBy s c b vendor with ⟨hnamed, hrun⟩ | ⟨q, hnamed, hrun⟩
  · rw [hnamed, hrun]
    exact iff_of_true (EditsOwn.refl _ _) fun o ho => by cases ho
  · rw [hnamed, hrun]
    constructor
    · intro h
      exact Collection.differsIn_deleteOne_iff.mp h.offers
    · intro h
      exact ⟨.refl _ _, Collection.differsIn_deleteOne_iff.mpr h⟩

def CatalogueHandler.editsOwnCatalogue : CatalogueHandler → Bool
  | .addServicesbyCompanyToWorker _ => false
  | _ => true

def CatalogueRequest.deletes (r : CatalogueRequest) (s : Db) : Option ProviderSubService :=
  match r.handler with
  | .deteleCompanyServicesByID => offerNamed s r.caller r.body .company
  | .deteleIndividualServicesByID => offerNamed s r.caller r.body .individual
  | _ => none

/-- A provider's request edits only rows of the provider exactly when it does not delete the row
of another one. -/
theorem editsOwn_iff (s : Db) (r : CatalogueRequest) (hr : r.handler.editsOwnCatalogue = true) :
    EditsOwn r.caller.userId s (serveCatalogue s r) ↔
      ∀ o, r.deletes s = some o → o.ownedBy r.caller.userId = true := by
  have hserve : serveCatalogue s r = (r.handle.run exec s).1 := by
    rw [serveCatalogue, CatalogueRequest.program, Prog.run_catchAll]
  rw [hserve]
  obtain ⟨handler, c, b, env⟩ := r
  cases handler with
  | addServicesbyCompany | addServicesbyIndividual =>
    exact iff_of_true (editsOwn_addServicesBy env c b _ s) fun o ho => by cases ho
  | addServicesbyCompanyToWorker order => cases hr
  | deteleCompanyServicesByID | deteleIndividualServicesByID =>
    exact editsOwn_deleteServicesBy_iff s c b _

def sampleCatalogueEnv (tag : ℕ) : CatalogueEnv where
  now := tag
  newId i k := ⟨BitVec.ofNat 96 (10000*tag+100*i+k)⟩
  generated i k := ⟨BitVec.ofNat 96 (10000*tag+5000+100*i+k)⟩

def sampleOfferDelete (name : String) : CatalogueRequest where
  handler := .deteleCompanyServicesByID
  caller := ⟨idOf name, "PROVIDER"⟩
  body := { id := some (.str "offer-----01") }
  env := sampleCatalogueEnv 1

theorem editsOwn_own_deletion :
    (sampleOfferDelete "company---01").handler.editsOwnCatalogue = true ∧
      EditsOwn (idOf "company---01") sampleDb
        (serveCatalogue sampleDb (sampleOfferDelete "company---01")) := by
  have hown : ∀ o, (sampleOfferDelete "company---01").deletes sampleDb = some o →
      o.ownedBy (idOf "company---01") = true :=
    (Option.all_eq_true _ _).mp (by decide +kernel)
  exact ⟨rfl, (editsOwn_iff sampleDb (sampleOfferDelete "company---01") rfl).mpr hown⟩

def rivalDb : Db :=
  { sampleDb with
    providers := ⟨[sampleProvider "company---01" companyType none,
      sampleProvider "company---02" companyType none], by decide +kernel⟩ }

/-- The second company deletes the offer of the first one. -/
theorem rival_deletes_offer :
    (sampleOfferDelete "company---02").handler.editsOwnCatalogue = true ∧
      ¬ EditsOwn (idOf "company---02") rivalDb
        (serveCatalogue rivalDb (sampleOfferDelete "company---02")) := by
  refine ⟨rfl, fun h => ?_⟩
  have hbefore : rivalDb.providerSubServices.get? (idOf "offer-----01") = some sampleOffer :=
    (rivalDb.providerSubServices.get?_eq_some_iff _ _).mpr ⟨List.mem_singleton_self _, rfl⟩
  have hafter : ((serveCatalogue rivalDb (sampleOfferDelete "company---02")).providerSubServices.get?
      (idOf "offer-----01")).isSome = false := by decide +kernel
  have hown : sampleOffer.ownedBy (idOf "company---02") = true := by
    refine h.offers (idOf "offer-----01") ?_ sampleOffer (Or.inl hbefore)
    intro heq
    rw [← heq, hbefore] at hafter
    cases hafter
  exact absurd hown (by decide +kernel)

end Deletions

end DoQwik
