import DoQwik.CatalogueStages
import DoQwik.Knowledge

/-! The keys of the catalogue. A service is identified by its owner, the type of the owner and the
service itself, an offer by its sub-service as well; the row of the service is the parent of its
offers. What a request has to know before it adds a row is said in terms of these keys. -/
namespace DoQwik
open JsValues DocStore Interleave

section Keys

inductive CatalogueKey where
  | service (userType : Option String) (owner serviceData : Option ObjectId)
  | offer (userType : Option String) (owner serviceData subServices : Option ObjectId)
deriving DecidableEq

/-- The owner of a row, in the field that the type of the owner tells. -/
def rowOwner (userType : Option String) (company worker individual : Option ObjectId) :
    Option ObjectId :=
  if userType = some companyType then company
  else if userType = some individualType then individual
  else if userType = some workerType then worker
  else none

def ProviderService.key (o : ProviderService) : CatalogueKey :=
  .service o.userType (rowOwner o.userType o.company o.worker o.individual) o.serviceData

def ProviderSubService.key (o : ProviderSubService) : CatalogueKey :=
  .offer o.userType (rowOwner o.userType o.company o.worker o.individual) o.serviceData
    o.subServices

def ProviderSubService.parentKey (o : ProviderSubService) : CatalogueKey :=
  .service o.userType (rowOwner o.userType o.company o.worker o.individual) o.serviceData

def Db.serviceKeys (s : Db) : List CatalogueKey := s.providerServices.docs.map ProviderService.key

def Db.offerKeys (s : Db) : List CatalogueKey :=
  s.providerSubServices.docs.map ProviderSubService.key

def Db.catalogueKeys (s : Db) : List CatalogueKey := s.serviceKeys ++ s.offerKeys

/-- Every offer has its service, under the same owner. -/
def Parented (s : Db) : Prop :=
  ∀ o ∈ s.providerSubServices.docs, o.parentKey ∈ s.serviceKeys

/-- A catalogue in order: besides, every offer names a service. -/
structure Catalogued (s : Db) : Prop where
  parented : Parented s
  named : ∀ o ∈ s.providerSubServices.docs, o.serviceData.isSome = true

/-- The owner of a vendor's row is in the vendor's field. -/
theorem rowOwner_vendor (vendor : Vendor) (company worker individual : Option ObjectId) :
    rowOwner (some vendor.userType) company worker individual =
      vendor.field company individual := by
  cases vendor with
  | company => rfl
  | individual => rfl

theorem rowOwner_worker (company worker individual : Option ObjectId) :
    rowOwner (some workerType) company worker individual = worker := rfl

theorem service_mem_catalogueKeys {s : Db} {u : Option String} {w d : Option ObjectId} :
    CatalogueKey.service u w d ∈ s.catalogueKeys ↔ CatalogueKey.service u w d ∈ s.serviceKeys := by
  rw [Db.catalogueKeys, List.mem_append]
  refine or_iff_left ?_
  intro h
  obtain ⟨o, -, ho⟩ := List.mem_map.mp h
  cases ho

theorem offer_mem_catalogueKeys {s : Db} {u : Option String} {w d x : Option ObjectId} :
    CatalogueKey.offer u w d x ∈ s.catalogueKeys ↔ CatalogueKey.offer u w d x ∈ s.offerKeys := by
  rw [Db.catalogueKeys, List.mem_append]
  refine or_iff_right ?_
  intro h
  obtain ⟨o, -, ho⟩ := List.mem_map.mp h
  cases ho

/-- In a catalogue in order, an offer's key tells that its service is there. -/
theorem Catalogued.parent_of_offer {s : Db} (hs : Catalogued s) {u : Option String}
    {w d x : Option ObjectId} (h : CatalogueKey.offer u w d x ∈ s.offerKeys) :
    CatalogueKey.service u w d ∈ s.serviceKeys := by
  obtain ⟨o, ho, hkey⟩ := List.mem_map.mp h
  cases hkey
  exact hs.parented o ho

end Keys

section Operations

def addsRow (s : Db) : DbOp → Option CatalogueKey
  | .createProviderService o =>
    if (s.providerServices.insert o).isSome then some o.key else none
  | .createProviderSubService o =>
    if (s.providerSubServices.insert o).isSome then some o.key else none
  | _ => none

theorem exec_createService_docs {s : Db} {o : ProviderService}
    (h : (s.providerServices.insert o).isSome = true) :
    (exec (.createProviderService o) s).1.serviceKeys = s.serviceKeys ++ [o.key] := by
  obtain ⟨c, hc⟩ := Option.isSome_iff_exists.mp h
  change ((s.providerServices.insert o).getD s.providerServices).docs.map ProviderService.key = _
  rw [hc, Option.getD_some, (Collection.insert_eq_some hc).2, List.map_append]
  rfl

theorem exec_createService_refused {s : Db} {o : ProviderService}
    (h : (s.providerServices.insert o).isSome = false) :
    (exec (.createProviderService o) s).1.providerServices = s.providerServices := by
  change (s.providerServices.insert o).getD s.providerServices = _
  rw [Option.isSome_eq_false_iff, Option.isNone_iff_eq_none] at h
  rw [h, Option.getD_none]

theorem exec_createOffer_docs {s : Db} {o : ProviderSubService}
    (h : (s.providerSubServices.insert o).isSome = true) :
    (exec (.createProviderSubService o) s).1.providerSubServices.docs =
      s.providerSubServices.docs ++ [o] := by
  obtain ⟨c, hc⟩ := Option.isSome_iff_exists.mp h
  change ((s.providerSubServices.insert o).getD s.providerSubServices).docs = _
  rw [hc, Option.getD_some, (Collection.insert_eq_some hc).2]

theorem exec_createOffer_refused {s : Db} {o : ProviderSubService}
    (h : (s.providerSubServices.insert o).isSome = false) :
    (exec (.createProviderSubService o) s).1.providerSubServices = s.providerSubServices := by
  change (s.providerSubServices.insert o).getD s.providerSubServices = _
  rw [Option.isSome_eq_false_iff, Option.isNone_iff_eq_none] at h
  rw [h, Option.getD_none]

/-- No operation takes a service away. -/
theorem serviceKeys_exec {s : Db} {k : CatalogueKey} (op : DbOp) (h : k ∈ s.serviceKeys) :
    k ∈ (exec op s).1.serviceKeys := by
  cases hop : op.addsService with
  | false =>
    rw [Db.serviceKeys, exec_services_of_not_addsService hop]
    exact h
  | true =>
    cases op with
    | createProviderService o =>
      cases hi : (s.providerServices.insert o).isSome with
      | true =>
        rw [exec_createService_docs hi]
        exact List.mem_append_left _ h
      | false =>
        rw [Db.serviceKeys, exec_createService_refused hi]
        exact h
    | _ => cases hop

/-- Besides the creation of one, an operation only takes offers away or sets other fields. -/
theorem offers_exec {s : Db} {op : DbOp} {o : ProviderSubService}
    (h : o ∈ (exec op s).1.providerSubServices.docs) :
    op = .createProviderSubService o ∨
      ∃ o' ∈ s.providerSubServices.docs, o.key = o'.key ∧ o.serviceData = o'.serviceData ∧
        o.parentKey = o'.parentKey := by
  cases hop : op.writesOffers with
  | false =>
    rw [exec_offers_of_not_writesOffers hop] at h
    exact Or.inr ⟨o, h, rfl, rfl, rfl⟩
  | true =>
    cases op with
    | createProviderSubService x =>
      cases hi : (s.providerSubServices.insert x).isSome with
      | true =>
        rw [exec_createOffer_docs hi] at h
        rcases List.mem_append.mp h with hold | hnew
        · exact Or.inr ⟨o, hold, rfl, rfl, rfl⟩
        · rw [List.mem_singleton] at hnew
          exact Or.inl (by rw [hnew])
      | false =>
        rw [exec_createOffer_refused hi] at h
        exact Or.inr ⟨o, h, rfl, rfl, rfl⟩
    | updateProviderSubService sel d now =>
      change o ∈ (s.providerSubServices.updateOne sel (d.apply now) (d.apply_id now)).docs at h
      rcases Collection.mem_updateOne h with ⟨x, hx, rfl⟩ | ⟨hold, -⟩
      · exact Or.inr ⟨x, (Collection.mem_of_findOne hx).1, rfl, rfl, rfl⟩
      · exact Or.inr ⟨o, hold, rfl, rfl, rfl⟩
    | deleteProviderSubService sel =>
      exact Or.inr ⟨o, List.mem_of_mem_eraseP h, rfl, rfl, rfl⟩
    | _ => cases hop

/-- A creation adds its key; every other operation at most takes one away. -/
theorem addsKeys_catalogue : AddsKeys exec Db.catalogueKeys addsRow where
  added {s op k} h := by
    cases op with
    | createProviderService o =>
      simp only [addsRow] at h
      cases hi : (s.providerServices.insert o).isSome with
      | false =>
        rw [hi] at h
        cases h
      | true =>
        rw [hi] at h
        cases h
        have hsame : (exec (.createProviderService o) s).1.offerKeys = s.offerKeys := rfl
        rw [Db.catalogueKeys, exec_createService_docs hi, hsame, List.append_assoc,
          List.singleton_append]
        exact List.perm_middle
    | createProviderSubService o =>
      simp only [addsRow] at h
      cases hi : (s.providerSubServices.insert o).isSome with
      | false =>
        rw [hi] at h
        cases h
      | true =>
        rw [hi] at h
        cases h
        have hsame : (exec (.createProviderSubService o) s).1.serviceKeys = s.serviceKeys := rfl
        rw [Db.catalogueKeys, Db.offerKeys, exec_createOffer_docs hi, hsame, List.map_append,
          ← List.append_assoc]
        exact List.perm_append_singleton _ _
    | _ => cases h
  kept {s op} h := by
    have hframe : op.addsService = false → op.writesOffers = false →
        (exec op s).1.catalogueKeys.Sublist s.catalogueKeys := by
      intro hservice hoffer
      rw [Db.catalogueKeys, Db.serviceKeys, Db.offerKeys, exec_services_of_not_addsService hservice,
        exec_offers_of_not_writesOffers hoffer]
      exact List.Sublist.refl _
    cases op with
    | createProviderService o =>
      simp only [addsRow] at h
      cases hi : (s.providerServices.insert o).isSome with
      | true =>
        rw [hi] at h
        cases h
      | false =>
        rw [Db.catalogueKeys, Db.serviceKeys, exec_createService_refused hi]
        exact List.Sublist.refl _
    | createProviderSubService o =>
      simp only [addsRow] at h
      cases hi : (s.providerSubServices.insert o).isSome with
      | true =>
        rw [hi] at h
        cases h
      | false =>
        rw [Db.catalogueKeys, Db.offerKeys, exec_createOffer_refused hi]
        exact List.Sublist.refl _
    | updateProviderSubService sel d now =>
      have hkeys : (exec (.updateProviderSubService sel d now) s).1.offerKeys = s.offerKeys :=
        map_key_updateFirst ProviderSubService.key sel (d.apply now) (fun _ => rfl) _
      rw [Db.catalogueKeys, hkeys]
      exact List.Sublist.refl _
    | deleteProviderSubService sel =>
      exact (List.Sublist.refl _).append (List.eraseP_sublist.map _)
    | _ => exact hframe rfl rfl

end Operations

section Facts

/-- What a request can know about the catalogue. -/
inductive CatalogueFact where
  | free (k : CatalogueKey)
  | present (k : CatalogueKey)
  | named (serviceData : Option ObjectId)

def CatalogueFact.holds : CatalogueFact → Db → Prop
  | free k, s => k ∉ s.catalogueKeys
  | present k, s => k ∈ s.serviceKeys
  | named serviceData, _ => serviceData.isSome = true

/-- What the creation of a row rests on: that the service of an offer is there, and, where keys
are to be `unique`, that its own key is free. -/
def catalogueNeeds (unique : Bool) : DbOp → Set CatalogueFact
  | .createProviderService o => {f | unique = true ∧ f = .free o.key}
  | .createProviderSubService o =>
    {f | unique = true ∧ f = .free o.key} ∪ {.present o.parentKey, .named o.serviceData}
  | _ => ∅

abbrev CatalogueStep (unique : Bool) :
    Set CatalogueFact → DbOp → Db → Set CatalogueFact → Prop :=
  Learns exec CatalogueFact.holds Catalogued (catalogueNeeds unique)

/-- Only keys can cease to be free. -/
theorem present_stable (k : CatalogueKey) (s : Db) (op : DbOp)
    (h : (CatalogueFact.present k).holds s) : (CatalogueFact.present k).holds (exec op s).1 :=
  serviceKeys_exec op h

theorem addsRow_needs (s : Db) (op : DbOp) (k : CatalogueKey) (h : addsRow s op = some k) :
    CatalogueFact.free k ∈ catalogueNeeds true op := by
  cases op with
  | createProviderService o =>
    simp only [addsRow] at h
    split at h
    · cases h
      exact ⟨rfl, rfl⟩
    · cases h
  | createProviderSubService o =>
    simp only [addsRow] at h
    split at h
    · cases h
      exact Or.inl ⟨rfl, rfl⟩
    · cases h
  | _ => cases h

/-- An offer that is added to its service keeps the catalogue in order. -/
theorem catalogued_exec {unique : Bool} (s : Db) (op : DbOp) (hs : Catalogued s)
    (hneeds : ∀ f ∈ catalogueNeeds unique op,
      (∀ t op', CatalogueFact.holds f t → CatalogueFact.holds f (exec op' t).1) →
      CatalogueFact.holds f s) : Catalogued (exec op s).1 := by
  constructor
  · intro o ho
    apply serviceKeys_exec
    rcases offers_exec ho with rfl | ⟨o', ho', -, -, hparent⟩
    · exact hneeds (.present o.parentKey) (Or.inr (Or.inl rfl)) (present_stable _)
    · rw [hparent]
      exact hs.parented o' ho'
  · intro o ho
    rcases offers_exec ho with rfl | ⟨o', ho', -, hdata, -⟩
    · exact hneeds (.named o.serviceData) (Or.inr (Or.inr rfl)) fun _ _ h => h
    · rw [hdata]
      exact hs.named o' ho'

end Facts

section Knowing

variable {unique : Bool} {g : Set CatalogueFact}

/-- Reads and numbers need nothing. -/
theorem catalogueStep_counts (op : DbOp) (s : Db) (hop : op.counts = true) :
    CatalogueStep unique g op s g := by
  refine ⟨?_, fun f hf => Or.inl hf⟩
  cases op with
  | read f | createCounter c | updateCounter table m n => exact Set.empty_subset g
  | _ => cases hop

/-- A read teaches what is true in a catalogue in order. -/
theorem catalogueStep_read {β : Type} (f : Db → β) (s : Db) {g' : Set CatalogueFact}
    (h : Catalogued s → ∀ x ∈ g', x.holds s) : CatalogueStep unique g (.read f) s g' :=
  ⟨Set.empty_subset g, fun x hx => Or.inr fun hs => h hs x hx⟩

end Knowing

end DoQwik
