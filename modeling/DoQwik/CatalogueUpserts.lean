import DoQwik.CatalogueEffects

/-! Additions to the catalogue that nothing interrupts, one after the other: when a failed one
leaves its traces, and that a valid one leaves exactly one row of each kind. -/
namespace DoQwik
open JsValues DocStore Interleave

def Vendor.addition : Vendor → CatalogueHandler
  | company => .addServicesbyCompany
  | individual => .addServicesbyIndividual

section Serving

variable {vendor : Vendor} {r : CatalogueRequest}

theorem run_addition (hr : r.handler = vendor.addition) (s : Db) :
    r.program.run exec s =
      ((addServicesBy r.env r.caller r.body vendor).catchAll catalogueError).run exec s := by
  obtain ⟨handler, c, b, env⟩ := r
  subst hr
  cases vendor with
  | company => rfl
  | individual => rfl

theorem serve_addition (hr : r.handler = vendor.addition) (s : Db) :
    serveCatalogue s r = ((addServicesBy r.env r.caller r.body vendor).run exec s).1 := by
  rw [serveCatalogue, run_addition hr, Prog.run_catchAll]

/-- The answer is `SUCCESS` exactly when the addition came to its end. -/
theorem answer_addition (hr : r.handler = vendor.addition) (s : Db) :
    (answerCatalogue s r).key = .success ↔
      succeeded ((addServicesBy r.env r.caller r.body vendor).run exec s).2 = true := by
  rw [answerCatalogue, run_addition hr, Prog.run_catchAll]
  cases ((addServicesBy r.env r.caller r.body vendor).run exec s).2 with
  | error e => exact iff_of_false (by simp [catalogueError]) Bool.false_ne_true
  | ok a => exact decide_eq_true_iff.symm

theorem effect_serve (hr : r.handler = vendor.addition) (s : Db) :
    ∃ x, AdditionEffect r.env r.caller r.body vendor s (serveCatalogue s r) x ∧
      ((answerCatalogue s r).key = .success ↔ succeeded x = true) := by
  refine ⟨_, ?_, answer_addition hr s⟩
  rw [serve_addition hr]
  exact effect_addServicesBy r.env r.caller r.body vendor s

theorem vendorStages_accounts {env : CatalogueEnv} {b : CatalogueBody}
    {owner : ObjectId} :
    VendorStages (fun (_ : Unit) op _ _ => op.writesProviders = false) env b vendor owner
      () () () () where
  aside g op s hop := by
    cases op with
    | read f | createCounter c | updateCounter table m n => rfl
    | _ => cases hop
  countedNone _ _ _ _ _ := rfl
  countedSome _ _ _ _ _ := rfl
  createService _ _ _ _ _ := rfl
  refuseService _ _ _ _ _ := rfl
  notFound _ _ _ _ _ := rfl
  createOffer _ _ _ _ := rfl
  updateOffer _ _ _ _ _ := rfl

/-- An addition leaves the accounts alone. -/
theorem providers_serve_addition (hr : r.handler = vendor.addition) (s : Db) :
    (serveCatalogue s r).providers = s.providers := by
  have hstaged : CatalogueStaged (fun (_ : Unit) op _ _ => op.writesProviders = false) ()
      (addServicesBy r.env r.caller r.body vendor) :=
    staged_addServicesBy fun _ => vendorStages_accounts
  rw [serve_addition hr]
  obtain ⟨-, hend⟩ := hstaged.run (I := fun t _ => t.providers = s.providers)
    (fun t _ op _ ht hop => (exec_providers_of_not_writesProviders hop t).trans ht) rfl
  exact hend

end Serving

section Failures

/-- If the request does not answer `SUCCESS`, the catalogue is as before. -/
def KeptOnFailure (s : Db) (r : CatalogueRequest) : Prop :=
  (answerCatalogue s r).key ≠ .success →
    (serveCatalogue s r).providerServices = s.providerServices ∧
      (serveCatalogue s r).providerSubServices = s.providerSubServices

def misnamedAddition : CatalogueRequest :=
  { sampleAddition 1 (.str "service---01") with
    body :=
      { services := some (.str "service---01")
        subServices := some (.str "cleaning")
        price := some (.num 100 0) } }

end Failures

section Orders

/-- A catalogue in order without double rows. -/
structure Orderly (s : Db) : Prop where
  catalogued : Catalogued s
  unique : UniqueRows s

variable {s t : Db}

/-- Only the two collections matter. -/
theorem Orderly.of_same (hs : Orderly s) (hservices : t.providerServices = s.providerServices)
    (hoffers : t.providerSubServices = s.providerSubServices) : Orderly t := by
  have hkeys : t.serviceKeys = s.serviceKeys := by rw [Db.serviceKeys, hservices, Db.serviceKeys]
  have hofferKeys : t.offerKeys = s.offerKeys := by rw [Db.offerKeys, hoffers, Db.offerKeys]
  refine ⟨⟨?_, ?_⟩, ?_⟩
  · unfold Parented
    rw [hoffers, hkeys]
    exact hs.catalogued.parented
  · rw [hoffers]
    exact hs.catalogued.named
  · rw [UniqueRows, hkeys, hofferKeys]
    exact hs.unique

theorem serviceKeys_insert {o : ProviderService}
    (h : s.providerServices.insert o = some t.providerServices) :
    t.serviceKeys = s.serviceKeys ++ [o.key] := by
  rw [Db.serviceKeys, (Collection.insert_eq_some h).2, List.map_append]
  rfl

theorem offerKeys_insert {o : ProviderSubService}
    (h : s.providerSubServices.insert o = some t.providerSubServices) :
    t.offerKeys = s.offerKeys ++ [o.key] := by
  rw [Db.offerKeys, (Collection.insert_eq_some h).2, List.map_append]
  rfl

theorem orderly_insert_service {o : ProviderService} (hs : Orderly s)
    (hfree : o.key ∉ s.serviceKeys)
    (h : s.providerServices.insert o = some t.providerServices)
    (hoffers : t.providerSubServices = s.providerSubServices) : Orderly t := by
  have hkeys := serviceKeys_insert h
  have hofferKeys : t.offerKeys = s.offerKeys := by rw [Db.offerKeys, hoffers, Db.offerKeys]
  refine ⟨⟨?_, ?_⟩, ?_, ?_⟩
  · intro x hx
    rw [hoffers] at hx
    rw [hkeys]
    exact List.mem_append_left _ (hs.catalogued.parented x hx)
  · rw [hoffers]
    exact hs.catalogued.named
  · rw [hkeys, ← List.concat_eq_append]
    exact List.Nodup.concat hfree hs.unique.1
  · rw [hofferKeys]
    exact hs.unique.2

theorem orderly_insert_offer {o : ProviderSubService} (hs : Orderly s)
    (hfree : o.key ∉ s.offerKeys) (hparent : o.parentKey ∈ s.serviceKeys)
    (hnamed : o.serviceData.isSome = true)
    (hservices : t.providerServices = s.providerServices)
    (h : s.providerSubServices.insert o = some t.providerSubServices) : Orderly t := by
  have hkeys : t.serviceKeys = s.serviceKeys := by rw [Db.serviceKeys, hservices, Db.serviceKeys]
  have hofferKeys := offerKeys_insert h
  have hmem : ∀ x ∈ t.providerSubServices.docs, x ∈ s.providerSubServices.docs ∨ x = o := by
    intro x hx
    rw [(Collection.insert_eq_some h).2] at hx
    simpa using hx
  refine ⟨⟨?_, ?_⟩, ?_, ?_⟩
  · intro x hx
    rw [hkeys]
    rcases hmem x hx with hold | rfl
    · exact hs.catalogued.parented x hold
    · exact hparent
  · intro x hx
    rcases hmem x hx with hold | rfl
    · exact hs.catalogued.named x hold
    · exact hnamed
  · rw [hkeys]
    exact hs.unique.1
  · rw [hofferKeys, ← List.concat_eq_append]
    exact List.Nodup.concat hfree hs.unique.2

/-- An update of an offer sets no part of its key. -/
theorem orderly_update {q : ProviderSubService → Bool} {d : OfferSet} {now : ℤ} (hs : Orderly s)
    (hservices : t.providerServices = s.providerServices)
    (h : t.providerSubServices = s.providerSubServices.updateOne q (d.apply now) (d.apply_id now)) :
    Orderly t := by
  have hkeys : t.serviceKeys = s.serviceKeys := by rw [Db.serviceKeys, hservices, Db.serviceKeys]
  have hofferKeys : t.offerKeys = s.offerKeys := by
    rw [Db.offerKeys, h]
    exact map_key_updateFirst ProviderSubService.key q (d.apply now) (fun _ => rfl) _
  have hmem : ∀ x ∈ t.providerSubServices.docs, ∃ y ∈ s.providerSubServices.docs,
      x.parentKey = y.parentKey ∧ x.serviceData = y.serviceData := by
    intro x hx
    rw [h] at hx
    rcases Collection.mem_updateOne hx with ⟨y, hy, rfl⟩ | ⟨hold, -⟩
    · exact ⟨y, (Collection.mem_of_findOne hy).1, rfl, rfl⟩
    · exact ⟨x, hold, rfl, rfl⟩
  refine ⟨⟨?_, ?_⟩, ?_⟩
  · intro x hx
    obtain ⟨y, hy, hparent, -⟩ := hmem x hx
    rw [hkeys, hparent]
    exact hs.catalogued.parented y hy
  · intro x hx
    obtain ⟨y, hy, -, hdata⟩ := hmem x hx
    rw [hdata]
    exact hs.catalogued.named y hy
  · rw [UniqueRows, hkeys, hofferKeys]
    exact hs.unique

theorem orderly_deleteOne {q : ProviderSubService → Bool} (hs : Orderly s) :
    Orderly { s with providerSubServices := s.providerSubServices.deleteOne q } := by
  refine ⟨⟨?_, ?_⟩, hs.unique.1, ?_⟩
  · intro x hx
    exact hs.catalogued.parented x (List.mem_of_mem_eraseP hx)
  · intro x hx
    exact hs.catalogued.named x (List.mem_of_mem_eraseP hx)
  · exact hs.unique.2.sublist (List.eraseP_sublist.map _)

section Additions

variable {env : CatalogueEnv} {c : Caller} {b : CatalogueBody} {vendor : Vendor}
  {x : Except Thrown CatalogueResponse} {n n' : ℕ} {o : ProviderService} {o' : ProviderSubService}
  {q : ProviderService → Bool} {q' : ProviderSubService → Bool}

/-- A service that is not counted is free. -/
theorem free_of_absent (hc : refusal (addServicesChecks b) = none)
    (hv : plainId b.services = true) (hq : ownServices b vendor c.userId = .ok q)
    (habsent : s.providerServices.count q = 0)
    (ho : newService env b vendor c.userId n = .ok o) : o.key ∉ s.serviceKeys := by
  obtain ⟨i, hi, hkey⟩ := newService_key ho
  rw [hkey, ← count_ownServices (truthy_of_checks hc).1 hv hi hq]
  exact not_not.mpr habsent

/-- The offer of a service that is counted has its parent. -/
theorem parent_of_present (hc : refusal (addServicesChecks b) = none)
    (hv : plainId b.services = true) (hq : ownServices b vendor c.userId = .ok q)
    (hpresent : s.providerServices.count q ≠ 0)
    (ho : newOffer env b vendor c.userId n = .ok o') : o'.parentKey ∈ s.serviceKeys := by
  obtain ⟨i, j, hi, -, -, hparent, -⟩ := newOffer_keys ho
  rw [hparent]
  exact (count_ownServices (truthy_of_checks hc).1 hv hi hq s).mp hpresent

theorem named_newOffer (ho : newOffer env b vendor c.userId n = .ok o') :
    o'.serviceData.isSome = true := by
  obtain ⟨i, j, -, -, -, -, hdata⟩ := newOffer_keys ho
  rw [hdata]
  rfl

/-- A plain addition keeps the catalogue in order, and its rows unique. -/
theorem orderly_effect (hs : Orderly s) (hv : plainId b.services = true)
    (hv' : plainId b.subServices = true) (h : AdditionEffect env c b vendor s t x) :
    Orderly t := by
  cases h with
  | nothing services offers failed unfinished invalid => exact hs.of_same services offers
  | half checks counted absent service services offers failed unfinished invalid =>
    exact orderly_insert_service hs (free_of_absent checks hv counted absent service) services
      offers
  | both checks counted absent service offer services offers success =>
    have hfree := free_of_absent checks hv counted absent service
    have hparent := parentKey_newOffer (truthy_of_checks checks).1 hv service offer
    have hmid : Orderly { s with providerServices := t.providerServices } :=
      orderly_insert_service hs hfree services rfl
    refine orderly_insert_offer hmid (fun hmem => hfree ?_) ?_ (named_newOffer offer) rfl offers
    · -- An offer that is there would have its service.
      rw [← hparent]
      exact hs.catalogued.parent_of_offer hmem
    · change _ ∈ t.serviceKeys
      rw [hparent, serviceKeys_insert services]
      exact List.mem_append_right _ (List.mem_singleton_self _)
  | offer checks counted present searched notFound offer services offers success =>
    obtain ⟨ht, ht', -⟩ := truthy_of_checks checks
    obtain ⟨i, j, hi, hj, hkey, -, -⟩ := newOffer_keys offer
    refine orderly_insert_offer hs ?_ (parent_of_present checks hv counted present offer)
      (named_newOffer offer) services offers
    rw [hkey]
    exact offer_free_of_notFound ht hv ht' hv' hi hj searched notFound
  | update checks counted present searched found data services offers success =>
    exact orderly_update hs services offers

end Additions

/-- One request of the vendors. -/
theorem orderly_serve (hs : Orderly s) (r : CatalogueRequest)
    (hr : r.handler.editsOwnCatalogue = true) (hplain : r.plainIds = true) :
    Orderly (serveCatalogue s r) := by
  have haddition : ∀ vendor : Vendor, r.handler = vendor.addition →
      plainId r.body.services = true → plainId r.body.subServices = true →
      Orderly (serveCatalogue s r) := by
    intro vendor hvendor hv hv'
    obtain ⟨x, heffect, -⟩ := effect_serve hvendor s
    exact orderly_effect hs hv hv' heffect
  have hdeletion : ∀ vendor : Vendor,
      serveCatalogue s r = ((deleteServicesBy r.caller r.body vendor).run exec s).1 →
      Orderly (serveCatalogue s r) := by
    intro vendor hserve
    rw [hserve]
    rcases run_deleteServicesBy s r.caller r.body vendor with ⟨-, hrun⟩ | ⟨q, -, hrun⟩
    · rw [hrun]
      exact hs
    · rw [hrun]
      exact orderly_deleteOne hs
  obtain ⟨handler, c, b, env⟩ := r
  cases handler with
  | addServicesbyCompany =>
    obtain ⟨hv, hv'⟩ := Bool.and_eq_true_iff.mp hplain
    exact haddition .company rfl hv hv'
  | addServicesbyIndividual =>
    obtain ⟨hv, hv'⟩ := Bool.and_eq_true_iff.mp hplain
    exact haddition .individual rfl hv hv'
  | addServicesbyCompanyToWorker order => cases hr
  | deteleCompanyServicesByID =>
    refine hdeletion .company ?_
    rw [serveCatalogue, CatalogueRequest.program, Prog.run_catchAll]
    rfl
  | deteleIndividualServicesByID =>
    refine hdeletion .individual ?_
    rw [serveCatalogue, CatalogueRequest.program, Prog.run_catchAll]
    rfl

end Orders

section Upserts

def Vendor.serviceKey (vendor : Vendor) (owner i : ObjectId) : CatalogueKey :=
  .service (some vendor.userType) (some owner) (some i)

def Vendor.offerKey (vendor : Vendor) (owner i j : ObjectId) : CatalogueKey :=
  .offer (some vendor.userType) (some owner) (some i) (some j)

/-- An addition by a provider of the vendor's type, which names the service and the sub-service by
strings and has a price. Its new rows get ids that are not in use. -/
structure ValidAddition (vendor : Vendor) (r : CatalogueRequest) (i j : ObjectId) (x : JsNum)
    (s : Db) : Prop where
  handler : r.handler = vendor.addition
  caller : ActsAs r.caller vendor s
  services : ∃ text, r.body.services = some (.str text) ∧ ObjectId.ofString text = some i
  subServices : ∃ text, r.body.subServices = some (.str text) ∧ ObjectId.ofString text = some j
  price : ∃ v, r.body.price = some v ∧ truthy (some v) = true ∧ castNumber v = .ok (some x)
  category : ∃ y, castSet castString (ifTruthy r.body.category) = .ok y
  fresh : ¬ IdTaken r.env s

/-- The row of a key with another time of its last update. -/
def ProviderSubService.touched (key : CatalogueKey) (now : ℤ) (o : ProviderSubService) :
    ProviderSubService :=
  if o.key = key then { o with updatedAt := now } else o

theorem ProviderSubService.touched_id (key : CatalogueKey) (now : ℤ) (o : ProviderSubService) :
    (o.touched key now).id = o.id := by
  unfold touched
  split <;> rfl

/-- After the request there is one row of each kind, the offer has the price, and the other rows
are as before. The same request again, with new ids for its rows, changes the time of the last
update of the offer and nothing else. -/
structure Upserts (vendor : Vendor) (r : CatalogueRequest) (i j : ObjectId) (x : JsNum)
    (s : Db) : Prop where
  offer : ∃! o, o ∈ (serveCatalogue s r).providerSubServices.docs ∧
    o.key = vendor.offerKey r.caller.userId i j
  price : ∀ o ∈ (serveCatalogue s r).providerSubServices.docs,
    o.key = vendor.offerKey r.caller.userId i j → o.price = some x
  service : ∃! o, o ∈ (serveCatalogue s r).providerServices.docs ∧
    o.key = vendor.serviceKey r.caller.userId i
  otherOffers : Collection.DiffersIn (fun o => o.key = vendor.offerKey r.caller.userId i j)
    s.providerSubServices (serveCatalogue s r).providerSubServices
  otherServices : Collection.DiffersIn (fun o => o.key = vendor.serviceKey r.caller.userId i)
    s.providerServices (serveCatalogue s r).providerServices
  repeated : ∀ env, ¬ IdTaken env (serveCatalogue s r) →
    (serveCatalogue (serveCatalogue s r) { r with env }).providerServices =
        (serveCatalogue s r).providerServices ∧
      (serveCatalogue (serveCatalogue s r) { r with env }).providerSubServices =
        (serveCatalogue s r).providerSubServices.map
          (ProviderSubService.touched (vendor.offerKey r.caller.userId i j) env.now)
          (ProviderSubService.touched_id _ _)

variable {vendor : Vendor} {r : CatalogueRequest} {i j : ObjectId} {x : JsNum} {s t : Db}

section Bodies

variable {env : CatalogueEnv} {b : CatalogueBody} {owner : ObjectId} {n : ℕ} {text : String}

theorem objectIdOf_str {g : ObjectId} (h : ObjectId.ofString text = some i) :
    objectIdOf g (some (.str text)) = .ok i := by
  change (ObjectId.ofString text).elim (Except.error Thrown.typeError) Except.ok = Except.ok i
  rw [h]
  rfl

theorem castForQuery_str (h : ObjectId.ofString text = some i) :
    castForQuery objectIdType (some (.str text)) = .ok fun a => decide (a = some i) := by
  change (castObjectIdString text).map (fun a a' => decide (a' = a)) = _
  rw [castObjectIdString, h]
  rfl

theorem truthy_of_ofString (h : ObjectId.ofString text = some i) :
    truthy (some (.str text)) = true := by
  refine decide_eq_true ?_
  rintro rfl
  have hempty : ObjectId.ofString "" = none := by decide +kernel
  rw [hempty] at h
  cases h

/-- What a new offer stores is what an update would set. -/
theorem apply_newOffer {o : ProviderSubService} {d : OfferSet}
    (ho : newOffer env b vendor owner n = .ok o) (hd : offerData b = .ok d) :
    d.apply o.updatedAt o = o := by
  have hoptional : ∀ {α : Type} {cast : Json → Except Thrown (Option α)} {v : Option Json}
      {a : Option α} {a' : Option (Option α)}, optional cast v = .ok a →
      castSet cast v = .ok a' → a'.getD a = a := by
    intro α cast v a a' ha ha'
    rw [optional, ha'] at ha
    cases ha
    cases a' with
    | none => rfl
    | some y => rfl
  obtain ⟨k, -, ho⟩ := bind_eq_ok ho
  obtain ⟨k', -, ho⟩ := bind_eq_ok ho
  obtain ⟨price, hprice, ho⟩ := bind_eq_ok ho
  obtain ⟨category, hcategory, ho⟩ := bind_eq_ok ho
  obtain ⟨price', hprice', hd⟩ := bind_eq_ok hd
  obtain ⟨category', hcategory', hd⟩ := bind_eq_ok hd
  cases ho
  cases hd
  simp only [OfferSet.apply, hoptional hprice hprice', hoptional hcategory hcategory']

/-- An update that sets what is there sets the time of the update only. -/
theorem OfferSet.apply_of_fixed (d : OfferSet) {o : ProviderSubService}
    (h : d.apply o.updatedAt o = o) (now : ℤ) : d.apply now o = { o with updatedAt := now } :=
  calc d.apply now o = { d.apply o.updatedAt o with updatedAt := now } := rfl
    _ = { o with updatedAt := now } := by rw [h]

theorem apply_apply (d : OfferSet) (now now' : ℤ) (o : ProviderSubService) :
    d.apply now' (d.apply now o) = d.apply now' o := by
  obtain ⟨price, category⟩ := d
  cases price with
  | none =>
    cases category with
    | none => rfl
    | some y => rfl
  | some x =>
    cases category with
    | none => rfl
    | some y => rfl

end Bodies

section Valid

variable (h : ValidAddition vendor r i j x s)

include h

theorem ValidAddition.checks : refusal (addServicesChecks r.body) = none := by
  obtain ⟨text, hservices, hi⟩ := h.services
  obtain ⟨text', hsub, hj⟩ := h.subServices
  obtain ⟨v, hprice, hv, -⟩ := h.price
  simp [addServicesChecks, refusal, hservices, hsub, hprice, truthy_of_ofString hi,
    truthy_of_ofString hj, hv]

theorem ValidAddition.plain :
    plainId r.body.services = true ∧ plainId r.body.subServices = true := by
  obtain ⟨text, hservices, -⟩ := h.services
  obtain ⟨text', hsub, -⟩ := h.subServices
  rw [hservices, hsub]
  exact ⟨rfl, rfl⟩

theorem ValidAddition.objectIdOf_services (g : ObjectId) :
    objectIdOf g r.body.services = .ok i := by
  obtain ⟨text, hservices, hi⟩ := h.services
  rw [hservices]
  exact objectIdOf_str hi

theorem ValidAddition.objectIdOf_subServices (g : ObjectId) :
    objectIdOf g r.body.subServices = .ok j := by
  obtain ⟨text, hsub, hj⟩ := h.subServices
  rw [hsub]
  exact objectIdOf_str hj

theorem ValidAddition.castSet_price : castSet castNumber r.body.price = .ok (some (some x)) := by
  obtain ⟨v, hprice, -, hx⟩ := h.price
  rw [hprice, castSet, hx]
  rfl

theorem ValidAddition.storable : Storable r.env r.caller r.body vendor := by
  obtain ⟨text, hservices, hi⟩ := h.services
  obtain ⟨text', hsub, hj⟩ := h.subServices
  have hp := castForQuery_str hi
  have hp' := castForQuery_str hj
  refine ⟨h.checks, ?_, ?_, ⟨i, h.objectIdOf_services _⟩, ⟨i, h.objectIdOf_services _⟩,
    ⟨j, h.objectIdOf_subServices _⟩, ⟨_, h.castSet_price⟩, h.category⟩
  · unfold ownServices
    rw [hservices, hp]
    exact ⟨_, rfl⟩
  · unfold ownOffers
    rw [hservices, hsub, hp, hp']
    exact ⟨_, rfl⟩

/-- The offer gets the price, whether it is added or updated. -/
theorem ValidAddition.offerData :
    ∃ d, offerData r.body = .ok d ∧ d.price = some (some x) := by
  obtain ⟨y, hy⟩ := h.category
  refine ⟨⟨some (some x), y⟩, ?_, rfl⟩
  unfold DoQwik.offerData
  rw [h.castSet_price, hy]
  rfl

theorem ValidAddition.newService_key {env : CatalogueEnv} {n : ℕ} {o : ProviderService}
    (ho : newService env r.body vendor r.caller.userId n = .ok o) :
    o.key = vendor.serviceKey r.caller.userId i := by
  obtain ⟨k, hk, hkey⟩ := DoQwik.newService_key ho
  rw [h.objectIdOf_services] at hk
  cases hk
  exact hkey

theorem ValidAddition.newOffer_key {env : CatalogueEnv} {n : ℕ} {o : ProviderSubService}
    (ho : newOffer env r.body vendor r.caller.userId n = .ok o) :
    o.key = vendor.offerKey r.caller.userId i j := by
  obtain ⟨k, k', hk, hk', hkey, -, -⟩ := newOffer_keys ho
  rw [h.objectIdOf_services] at hk
  rw [h.objectIdOf_subServices] at hk'
  cases hk
  cases hk'
  exact hkey

/-- The rows that the search for the offer selects are those of the key. -/
theorem ValidAddition.key_of_ownOffers {q : ProviderSubService → Bool}
    (hq : ownOffers r.body vendor r.caller.userId = .ok q) {o : ProviderSubService}
    (ho : q o = true) : o.key = vendor.offerKey r.caller.userId i j := by
  obtain ⟨ht, ht', -⟩ := truthy_of_checks h.checks
  obtain ⟨hv, hv'⟩ := h.plain
  obtain ⟨p, p', hp, hp', hsel⟩ := ownOffers_eq_ok hq
  obtain ⟨hfield, htype, hservice, hsub⟩ := (hsel o).mp ho
  have hi := (selects_of_plain ht hv (h.objectIdOf_services i) hp _).mp hservice
  have hj := (selects_of_plain ht' hv' (h.objectIdOf_subServices i) hp' _).mp hsub
  rw [ProviderSubService.key, htype, rowOwner_vendor, hfield, hi, hj]
  rfl

theorem ValidAddition.present_iff {q : ProviderService → Bool}
    (hq : ownServices r.body vendor r.caller.userId = .ok q) (t : Db) :
    t.providerServices.count q ≠ 0 ↔ vendor.serviceKey r.caller.userId i ∈ t.serviceKeys :=
  count_ownServices (truthy_of_checks h.checks).1 h.plain.1 (h.objectIdOf_services i) hq t

theorem ValidAddition.offer_free {q : ProviderSubService → Bool}
    (hq : ownOffers r.body vendor r.caller.userId = .ok q) {t : Db}
    (hfind : t.providerSubServices.findOne q = none) :
    vendor.offerKey r.caller.userId i j ∉ t.offerKeys := by
  obtain ⟨ht, ht', -⟩ := truthy_of_checks h.checks
  exact offer_free_of_notFound ht h.plain.1 ht' h.plain.2 (h.objectIdOf_services i)
    (h.objectIdOf_subServices i) hq hfind

end Valid

def Settled (vendor : Vendor) (r : CatalogueRequest) (i j : ObjectId) (d : OfferSet) (t : Db) :
    Prop :=
  vendor.serviceKey r.caller.userId i ∈ t.serviceKeys ∧
    ∃ o ∈ t.providerSubServices.docs,
      o.key = vendor.offerKey r.caller.userId i j ∧ d.apply o.updatedAt o = o

variable {d : OfferSet} {y : Except Thrown CatalogueResponse}

theorem settled_effect (h : ValidAddition vendor r i j x s) (hd : offerData r.body = .ok d)
    (heffect : AdditionEffect r.env r.caller r.body vendor s t y) :
    Settled vendor r i j d t ∧
      Collection.DiffersIn (fun o => o.key = vendor.offerKey r.caller.userId i j)
        s.providerSubServices t.providerSubServices ∧
      Collection.DiffersIn (fun o => o.key = vendor.serviceKey r.caller.userId i)
        s.providerServices t.providerServices := by
  -- An inserted offer is the last row.
  have hlast : ∀ {n : ℕ} {o : ProviderSubService},
      newOffer r.env r.body vendor r.caller.userId n = .ok o →
      s.providerSubServices.insert o = some t.providerSubServices →
      ∃ o ∈ t.providerSubServices.docs,
        o.key = vendor.offerKey r.caller.userId i j ∧ d.apply o.updatedAt o = o := by
    intro n o ho hinsert
    refine ⟨o, ?_, h.newOffer_key ho, apply_newOffer ho hd⟩
    rw [(Collection.insert_eq_some hinsert).2]
    exact List.mem_append_right _ (List.mem_singleton_self _)
  cases heffect with
  | nothing services offers failed unfinished invalid =>
    exact absurd ⟨h.caller, h.storable⟩ (invalid.resolve_right h.fresh)
  | half checks counted absent service services offers failed unfinished invalid =>
    exact absurd h.storable (invalid.resolve_right h.fresh)
  | both checks counted absent service offer services offers success =>
    refine ⟨⟨?_, hlast offer offers⟩, Collection.differsIn_insert (h.newOffer_key offer) offers,
      Collection.differsIn_insert (h.newService_key service) services⟩
    rw [serviceKeys_insert services, h.newService_key service]
    exact List.mem_append_right _ (List.mem_singleton_self _)
  | offer checks counted present searched notFound offer services offers success =>
    refine ⟨⟨?_, hlast offer offers⟩, Collection.differsIn_insert (h.newOffer_key offer) offers, ?_⟩
    · rw [Db.serviceKeys, services]
      exact (h.present_iff counted s).mp present
    · rw [services]
      exact .refl _ _
  | update checks counted present searched found data services offers success =>
    rw [hd] at data
    cases data
    refine ⟨⟨?_, ?_⟩, ?_, ?_⟩
    · rw [Db.serviceKeys, services]
      exact (h.present_iff counted s).mp present
    · have hkey := h.key_of_ownOffers searched (Collection.mem_of_findOne found).2
      refine ⟨d.apply r.env.now _, ?_, hkey, apply_apply d _ _ _⟩
      rw [offers]
      exact Collection.mem_updateOne_of_findOne found
    · rw [offers]
      exact Collection.differsIn_updateOne (d.apply_id _)
        (fun o ho => h.key_of_ownOffers searched ho) fun o ho => ho
    · rw [services]
      exact .refl _ _

/-- Once all is there, and once only, the same request finds the offer and sets what it has. -/
theorem touched_of_settled (h : ValidAddition vendor r i j x t) (hd : offerData r.body = .ok d)
    (hunique : UniqueRows t) (hsettled : Settled vendor r i j d t) {u : Db}
    (heffect : AdditionEffect r.env r.caller r.body vendor t u y) :
    u.providerServices = t.providerServices ∧
      u.providerSubServices = t.providerSubServices.map
        (ProviderSubService.touched (vendor.offerKey r.caller.userId i j) r.env.now)
        (ProviderSubService.touched_id _ _) := by
  obtain ⟨hservice, o, ho, hkey, hfixed⟩ := hsettled
  cases heffect with
  | nothing services offers failed unfinished invalid =>
    exact absurd ⟨h.caller, h.storable⟩ (invalid.resolve_right h.fresh)
  | half checks counted absent service services offers failed unfinished invalid =>
    exact absurd absent ((h.present_iff counted t).mpr hservice)
  | both checks counted absent service offer services offers success =>
    exact absurd absent ((h.present_iff counted t).mpr hservice)
  | offer checks counted present searched notFound offer services offers success =>
    exact absurd (List.mem_map.mpr ⟨o, ho, hkey⟩) (h.offer_free searched notFound)
  | update checks counted present searched found data services offers success =>
    rw [hd] at data
    cases data
    refine ⟨services, ?_⟩
    rw [offers]
    have hown : ∀ a ∈ t.providerSubServices.docs,
        a.key = vendor.offerKey r.caller.userId i j → a = o := fun a ha hka =>
      List.inj_on_of_nodup_map hunique.2 ha ho (hka.trans hkey.symm)
    -- The row that is found is the one of the key.
    obtain ⟨hmem, hsel⟩ := Collection.mem_of_findOne found
    obtain rfl := hown _ hmem (h.key_of_ownOffers searched hsel)
    refine Collection.updateOne_eq_map _ _ found ?_ fun a ha hne => ?_
    · rw [ProviderSubService.touched, if_pos hkey, d.apply_of_fixed hfixed]
    · exact if_neg fun hka => hne (hown a ha hka)

theorem existsUnique_of_nodup {α κ : Type} {key : α → κ} {as : List α} (h : (as.map key).Nodup)
    {k : κ} (hk : k ∈ as.map key) : ∃! a, a ∈ as ∧ key a = k := by
  obtain ⟨a, ha, rfl⟩ := List.mem_map.mp hk
  refine ⟨a, ⟨ha, rfl⟩, ?_⟩
  rintro b ⟨hb, hkey⟩
  exact List.inj_on_of_nodup_map h hb ha hkey

/-- From a catalogue in order, a valid addition is an upsert. -/
theorem upserts_of_orderly (hs : Orderly s) (h : ValidAddition vendor r i j x s) :
    Upserts vendor r i j x s := by
  obtain ⟨d, hd, hprice⟩ := h.offerData
  obtain ⟨y, heffect, -⟩ := effect_serve h.handler s
  have hafter : Orderly (serveCatalogue s r) := orderly_effect hs h.plain.1 h.plain.2 heffect
  obtain ⟨hsettled, hoffers, hservices⟩ := settled_effect h hd heffect
  obtain ⟨hservice, o, ho, hkey, hfixed⟩ := hsettled
  constructor
  · exact existsUnique_of_nodup hafter.unique.2 (List.mem_map.mpr ⟨o, ho, hkey⟩)
  · intro o' ho' hkey'
    have hsame : o' = o :=
      List.inj_on_of_nodup_map hafter.unique.2 ho' ho (hkey'.trans hkey.symm)
    rw [hsame, ← hfixed, OfferSet.apply, hprice, Option.getD_some]
  · exact existsUnique_of_nodup hafter.unique.1 hservice
  · exact hoffers
  · exact hservices
  · intro env hfresh
    have hvalid : ValidAddition vendor { r with env } i j x (serveCatalogue s r) :=
      { h with
        caller := by
          unfold ActsAs
          rw [providers_serve_addition h.handler]
          exact h.caller
        fresh := hfresh }
    obtain ⟨y', hrepeat, -⟩ := effect_serve hvalid.handler (serveCatalogue s r)
    exact touched_of_settled hvalid hd hafter.unique ⟨hservice, o, ho, hkey, hfixed⟩ hrepeat

theorem validAddition_sample (tag : ℕ) {text : String} {i : ObjectId} {s : Db}
    (hi : ObjectId.ofString text = some i)
    (hcaller : (s.providers.get? company.userId).any (fun p => p.userType = companyType) = true)
    (hservice : (s.providerServices.get? ((sampleCatalogueEnv tag).newId 0 0)).isSome = false)
    (hoffer : (s.providerSubServices.get? ((sampleCatalogueEnv tag).newId 0 1)).isSome = false) :
    ValidAddition .company (sampleAddition tag (.str text)) i (idOf "subservice01") (.fin 100)
      s := by
  obtain ⟨p, hp, htype⟩ := (Option.any_eq_true _ _).mp hcaller
  refine ⟨rfl, ⟨p, hp, of_decide_eq_true htype⟩, ⟨text, rfl, hi⟩,
    ⟨"subservice01", rfl, by decide +kernel⟩, ⟨.num 100 0, rfl, rfl, by decide +kernel⟩,
    ⟨none, rfl⟩, ?_⟩
  rintro (⟨o, ho⟩ | ⟨o, ho⟩)
  · exact Bool.false_ne_true (hservice.symm.trans (congrArg Option.isSome ho))
  · exact Bool.false_ne_true (hoffer.symm.trans (congrArg Option.isSome ho))

def generatedText : String := "000000000000000000003a99"

end Upserts

end DoQwik
