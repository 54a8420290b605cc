import DoQwik.CatalogueKeys
import DoQwik.CatalogueOwners

/-! The catalogue under concurrent requests. A request adds an offer only where it saw or made the
service, and a row only where it saw its key free; the key can have been taken since. -/
namespace DoQwik
open JsValues DocStore Interleave

section Plain

/-- The id that the constructor makes of the value is the one that a query with the value looks
for: not so for a number, which seeds a new id, and for an object whose `_id` and `id` differ. -/
def plainId : Option Json → Bool
  | some (.num _ _) => false
  | some (.obj kvs) =>
    match ObjectId.ofObject kvs, castObjectId (.obj kvs) with
    | some i, .ok a => decide (a = some i)
    | _, _ => true
  | _ => true

/-- A query with the value finds the rows that are created with it. -/
def plainWorker (v : Option Json) : Bool :=
  match castForQuery objectIdType v, optional castObjectId v with
  | .ok p, .ok w => p w
  | _, _ => true

def CatalogueRequest.plainIds (r : CatalogueRequest) : Bool :=
  match r.handler with
  | .addServicesbyCompany => plainId r.body.services && plainId r.body.subServices
  | .addServicesbyIndividual => plainId r.body.services && plainId r.body.subServices
  | _ => true

def CatalogueRequest.plain (r : CatalogueRequest) : Bool :=
  match r.handler with
  | .addServicesbyCompanyToWorker _ => plainWorker r.body.workerData
  | _ => r.plainIds

variable {v : Option Json} {g g' i : ObjectId}

/-- The constructor generates nothing for a plain value. -/
theorem objectIdOf_of_plain (ht : truthy v = true) (hv : plainId v = true)
    (h : objectIdOf g v = .ok i) : objectIdOf g' v = .ok i := by
  rcases v with _ | v
  · cases ht
  cases v with
  | null => cases ht
  | num m e => cases hv
  | bool x | str s | arr vs | obj kvs => exact h

/-- A query with a plain value selects exactly the id that the constructor makes of it. -/
theorem selects_of_plain (ht : truthy v = true) (hv : plainId v = true)
    (h : objectIdOf g v = .ok i) {p : Option ObjectId → Bool}
    (hp : castForQuery objectIdType v = .ok p) (x : Option ObjectId) :
    p x = true ↔ x = some i := by
  rcases v with _ | v
  · cases ht
  have hcast : ObjectId.isValid (some v) = true ∧
      ∀ a, castObjectId v = .ok a → a = some i := by
    cases v with
    | null => cases ht
    | num m e => cases hv
    | bool x | arr vs => cases h
    | str s =>
      simp only [objectIdOf] at h
      cases hs : ObjectId.ofString s with
      | none =>
        rw [hs] at h
        cases h
      | some j =>
        rw [hs] at h
        cases h
        refine ⟨by rw [ObjectId.isValid, hs]; rfl, fun a ha => ?_⟩
        change castObjectIdString s = .ok a at ha
        rw [castObjectIdString, hs] at ha
        exact (Except.ok.inj ha).symm
    | obj kvs =>
      simp only [objectIdOf] at h
      cases hs : ObjectId.ofObject kvs with
      | none =>
        rw [hs] at h
        cases h
      | some j =>
        rw [hs] at h
        cases h
        refine ⟨by rw [ObjectId.isValid, hs]; rfl, fun a ha => ?_⟩
        simp only [plainId, hs, ha] at hv
        exact of_decide_eq_true hv
  obtain ⟨w, a, hw, ha, rfl⟩ := castForQuery_of_isValid hcast.1 hp
  cases hw
  rw [hcast.2 a ha, decide_eq_true_eq]

end Plain

section Vendors

variable {env : CatalogueEnv} {c : Caller} {b : CatalogueBody} {vendor : Vendor}
  {owner i j : ObjectId}

theorem newService_key {seqId : ℕ} {o : ProviderService}
    (h : newService env b vendor owner seqId = .ok o) :
    ∃ i, objectIdOf (env.generated 0 0) b.services = .ok i ∧
      o.key = .service (some vendor.userType) (some owner) (some i) := by
  obtain ⟨i, hi, hfield, -, htype, hdata⟩ := newService_eq_ok h
  refine ⟨i, hi, ?_⟩
  rw [ProviderService.key, htype, rowOwner_vendor, hfield, hdata]

theorem newOffer_keys {seqId : ℕ} {o : ProviderSubService}
    (h : newOffer env b vendor owner seqId = .ok o) :
    ∃ i j, objectIdOf (env.generated 0 1) b.services = .ok i ∧
      objectIdOf (env.generated 0 2) b.subServices = .ok j ∧
      o.key = .offer (some vendor.userType) (some owner) (some i) (some j) ∧
      o.parentKey = .service (some vendor.userType) (some owner) (some i) ∧
      o.serviceData = some i := by
  obtain ⟨i, j, hi, hj, hfield, -, htype, hdata, hsub⟩ := newOffer_eq_ok h
  refine ⟨i, j, hi, hj, ?_, ?_, hdata⟩
  · rw [ProviderSubService.key, htype, rowOwner_vendor, hfield, hdata, hsub]
  · rw [ProviderSubService.parentKey, htype, rowOwner_vendor, hfield, hdata]

theorem truthy_of_checks (h : refusal (addServicesChecks b) = none) :
    truthy b.services = true ∧ truthy b.subServices = true ∧ truthy b.price = true := by
  have hall : ∀ x ∈ addServicesChecks b, x.1 = false := fun x hx => check_of_refusal h hx
  simpa [addServicesChecks] using hall

/-- Both rows of a plain request name the service by the same id. -/
theorem parentKey_newOffer (ht : truthy b.services = true) (hv : plainId b.services = true)
    {n n' : ℕ} {o : ProviderService} {o' : ProviderSubService}
    (ho : newService env b vendor owner n = .ok o)
    (ho' : newOffer env b vendor owner n' = .ok o') : o'.parentKey = o.key := by
  obtain ⟨i, hi, hkey⟩ := newService_key ho
  obtain ⟨i', j, hi', -, -, hparent, -⟩ := newOffer_keys ho'
  rw [objectIdOf_of_plain ht hv hi] at hi'
  cases hi'
  rw [hparent, hkey]

/-- The count tells whether the service that the request would add is there. -/
theorem count_ownServices (ht : truthy b.services = true) (hv : plainId b.services = true)
    {g : ObjectId} (hi : objectIdOf g b.services = .ok i) {q : ProviderService → Bool}
    (hq : ownServices b vendor owner = .ok q) (s : Db) :
    s.providerServices.count q ≠ 0 ↔
      CatalogueKey.service (some vendor.userType) (some owner) (some i) ∈ s.serviceKeys := by
  obtain ⟨p, hp, hsel⟩ := ownServices_eq_ok hq
  rw [Collection.count_ne_zero_iff, Db.serviceKeys, List.mem_map]
  refine exists_congr fun o => and_congr_right fun _ => ?_
  rw [hsel, selects_of_plain ht hv hi hp, ProviderService.key]
  constructor
  · rintro ⟨hfield, htype, hdata⟩
    rw [htype, rowOwner_vendor, hfield, hdata]
  · intro hkey
    injection hkey with htype howner hdata
    rw [htype, rowOwner_vendor] at howner
    exact ⟨howner, htype, hdata⟩

/-- If the offer is not found, its key is free. -/
theorem offer_free_of_notFound (ht : truthy b.services = true) (hv : plainId b.services = true)
    (ht' : truthy b.subServices = true) (hv' : plainId b.subServices = true) {g g' : ObjectId}
    (hi : objectIdOf g b.services = .ok i) (hj : objectIdOf g' b.subServices = .ok j)
    {q : ProviderSubService → Bool} (hq : ownOffers b vendor owner = .ok q) {s : Db}
    (hfind : s.providerSubServices.findOne q = none) :
    CatalogueKey.offer (some vendor.userType) (some owner) (some i) (some j) ∉ s.offerKeys := by
  obtain ⟨p, p', hp, hp', hsel⟩ := ownOffers_eq_ok hq
  intro hmem
  obtain ⟨o, ho, hkey⟩ := List.mem_map.mp hmem
  injection hkey with htype howner hdata hsub
  rw [htype, rowOwner_vendor] at howner
  refine List.find?_eq_none.mp hfind o ho ((hsel o).mpr ⟨howner, htype, ?_, ?_⟩)
  · exact (selects_of_plain ht hv hi hp _).mpr hdata
  · exact (selects_of_plain ht' hv' hj hp' _).mpr hsub

variable (env b vendor owner)

def freeServices : Set CatalogueFact :=
  {f | ∃ n o, newService env b vendor owner n = .ok o ∧ f = .free o.key}

def freeOffers : Set CatalogueFact :=
  {f | ∃ n o, newOffer env b vendor owner n = .ok o ∧ f = .free o.key}

def itsParent : Set CatalogueFact :=
  {f | ∃ n o, newOffer env b vendor owner n = .ok o ∧
    (f = .present o.parentKey ∨ f = .named o.serviceData)}

variable {env b vendor owner}

/-- A vendor's request knows what it needs: an offer without its service is never there, and so a
missing service tells that the offer is missing, too. -/
theorem vendorStages_of_plain (unique : Bool) (hc : refusal (addServicesChecks b) = none)
    (hv : plainId b.services = true) (hv' : plainId b.subServices = true) :
    VendorStages (CatalogueStep unique) env b vendor owner ∅
      (freeServices env b vendor owner ∪ freeOffers env b vendor owner)
      (itsParent env b vendor owner)
      (freeOffers env b vendor owner ∪ itsParent env b vendor owner) := by
  obtain ⟨ht, ht', -⟩ := truthy_of_checks hc
  exact
  { aside := fun g op s hop => catalogueStep_counts op s hop
    countedNone := by
      intro β f s q hq hcount
      refine catalogueStep_read f s fun hs x hx => ?_
      rcases hx with ⟨n, o, ho, rfl⟩ | ⟨n, o, ho, rfl⟩
      · obtain ⟨i, hi, hkey⟩ := newService_key ho
        change o.key ∉ s.catalogueKeys
        rw [hkey, service_mem_catalogueKeys, ← count_ownServices ht hv hi hq]
        exact not_not.mpr hcount
      · obtain ⟨i, j, hi, -, hkey, -, -⟩ := newOffer_keys ho
        change o.key ∉ s.catalogueKeys
        rw [hkey, offer_mem_catalogueKeys]
        intro hmem
        exact (count_ownServices ht hv hi hq s).mpr (hs.parent_of_offer hmem) hcount
    countedSome := by
      intro β f s q hq hcount
      refine catalogueStep_read f s fun _ x hx => ?_
      obtain ⟨n, o, ho, hx⟩ := hx
      obtain ⟨i, j, hi, -, -, hparent, hdata⟩ := newOffer_keys ho
      rcases hx with rfl | rfl
      · change o.parentKey ∈ s.serviceKeys
        rw [hparent]
        exact (count_ownServices ht hv hi hq s).mp hcount
      · change o.serviceData.isSome = true
        rw [hdata]
        rfl
    createService := by
      intro n o s ho hinsert
      refine ⟨?_, fun x hx => ?_⟩
      · rintro x ⟨-, rfl⟩
        exact Or.inl ⟨n, o, ho, rfl⟩
      · rcases hx with hfree | ⟨n', o', ho', hx⟩
        · exact Or.inl (Or.inr hfree)
        · refine Or.inr fun _ => ?_
          rcases hx with rfl | rfl
          · change o'.parentKey ∈ (exec (.createProviderService o) s).1.serviceKeys
            rw [exec_createService_docs hinsert, parentKey_newOffer ht hv ho ho']
            exact List.mem_append_right _ (List.mem_singleton_self _)
          · obtain ⟨i, j, -, -, -, -, hdata⟩ := newOffer_keys ho'
            change o'.serviceData.isSome = true
            rw [hdata]
            rfl
    refuseService := by
      intro n o s ho _
      refine ⟨?_, fun x hx => Or.inl hx⟩
      rintro x ⟨-, rfl⟩
      exact Or.inl ⟨n, o, ho, rfl⟩
    notFound := by
      intro β f s q hq hfind
      refine ⟨Set.empty_subset _, fun x hx => ?_⟩
      rcases hx with ⟨n, o, ho, rfl⟩ | hparent
      · refine Or.inr fun _ => ?_
        obtain ⟨i, j, hi, hj, hkey, -, -⟩ := newOffer_keys ho
        change o.key ∉ s.catalogueKeys
        rw [hkey, offer_mem_catalogueKeys]
        exact offer_free_of_notFound ht hv ht' hv' hi hj hq hfind
      · exact Or.inl hparent
    createOffer := by
      intro n o s ho
      refine ⟨?_, fun x hx => Or.inl hx⟩
      rintro x (⟨-, rfl⟩ | rfl | rfl)
      · exact Or.inl ⟨n, o, ho, rfl⟩
      · exact Or.inr ⟨n, o, ho, Or.inl rfl⟩
      · exact Or.inr ⟨n, o, ho, Or.inr rfl⟩
    updateOffer := fun q d now s _ => ⟨Set.empty_subset _, fun x hx => Or.inl hx⟩ }

end Vendors

section Workers

variable {env : CatalogueEnv} {c : Caller} {b : CatalogueBody} {i : ℕ} {d : ObjectId}
  {w : Option ObjectId}

theorem newWorkerService_key {seqId : ℕ} {o : ProviderService}
    (h : newWorkerService env c b i (some d) seqId = .ok o) :
    ∃ w, optional castObjectId b.workerData = .ok w ∧
      o.key = .service (some workerType) w (some d) := by
  obtain ⟨w, hw, h⟩ := bind_eq_ok h
  cases h
  exact ⟨w, hw, rfl⟩

theorem newWorkerOffer_keys {k : ℕ} {value : PopulatedOffer} {seqId : ℕ} {o : ProviderSubService}
    (h : newWorkerOffer env b i (some d) k value seqId = .ok o) :
    ∃ w x, optional castObjectId b.workerData = .ok w ∧
      o.key = .offer (some workerType) w (some d) x ∧
      o.parentKey = .service (some workerType) w (some d) ∧ o.serviceData = some d := by
  unfold newWorkerOffer at h
  cases hsub : value.subServices with
  | none =>
    rw [hsub] at h
    cases h
  | some sub =>
    rw [hsub] at h
    obtain ⟨w, hw, h⟩ := bind_eq_ok h
    cases h
    exact ⟨w, some sub.id, hw, rfl, rfl, rfl⟩

/-- A service of the worker that is there is counted. -/
theorem count_workerServices (hv : plainWorker b.workerData = true)
    (hw : optional castObjectId b.workerData = .ok w) {q : ProviderService → Bool}
    (hq : workerServices b (some d) = .ok q) {s : Db}
    (hmem : CatalogueKey.service (some workerType) w (some d) ∈ s.serviceKeys) :
    s.providerServices.count q ≠ 0 := by
  obtain ⟨p, hp, rfl⟩ := map_eq_ok hq
  have hpw : p w = true := by
    simpa only [plainWorker, hp, hw] using hv
  obtain ⟨o, ho, hkey⟩ := List.mem_map.mp hmem
  injection hkey with htype howner hdata
  rw [htype, rowOwner_worker] at howner
  refine Collection.count_ne_zero_iff.mpr ⟨o, ho, ?_⟩
  simp only [howner, hpw, htype, hdata, decide_true, Bool.and_self]

variable (env c b i d) (unique : Bool)

def freeWorkerServices : Set CatalogueFact :=
  {f | unique = true ∧ ∃ n o, newWorkerService env c b i (some d) n = .ok o ∧ f = .free o.key}

def freeWorkerOffers : Set CatalogueFact :=
  {f | unique = true ∧
    ∃ k v n o, newWorkerOffer env b i (some d) k v n = .ok o ∧ f = .free o.key}

def itsWorkerParent : Set CatalogueFact :=
  {f | ∃ k v n o, newWorkerOffer env b i (some d) k v n = .ok o ∧
    (f = .present o.parentKey ∨ f = .named o.serviceData)}

variable {env c b i d unique}

/-- If nothing is counted, neither the service nor an offer of it is there. -/
theorem free_of_workerServices_count (hv : unique = true → plainWorker b.workerData = true)
    {q : ProviderService → Bool} (hq : workerServices b (some d) = .ok q) {s : Db}
    (hs : Catalogued s) (hcount : s.providerServices.count q = 0) :
    ∀ f ∈ freeWorkerServices env c b i d unique ∪ freeWorkerOffers env b i d unique,
      f.holds s := by
  rintro f (⟨hu, n, o, ho, rfl⟩ | ⟨hu, k, v, n, o, ho, rfl⟩)
  · obtain ⟨w, hw, hkey⟩ := newWorkerService_key ho
    change o.key ∉ s.catalogueKeys
    rw [hkey, service_mem_catalogueKeys]
    exact fun hmem => count_workerServices (hv hu) hw hq hmem hcount
  · obtain ⟨w, x, hw, hkey, -, -⟩ := newWorkerOffer_keys ho
    change o.key ∉ s.catalogueKeys
    rw [hkey, offer_mem_catalogueKeys]
    exact fun hmem => count_workerServices (hv hu) hw hq (hs.parent_of_offer hmem) hcount

/-- The service that a branch created is the parent of all its offers. -/
theorem parent_of_newWorkerService {n : ℕ} {o : ProviderService} {s : Db}
    (ho : newWorkerService env c b i (some d) n = .ok o)
    (hinsert : (s.providerServices.insert o).isSome = true) :
    ∀ f ∈ itsWorkerParent env b i d, f.holds (exec (.createProviderService o) s).1 := by
  rintro f ⟨k, v, n', o', ho', hf⟩
  obtain ⟨w, hw, hkey⟩ := newWorkerService_key ho
  obtain ⟨w', x, hw', -, hparent, hdata⟩ := newWorkerOffer_keys ho'
  rcases hf with rfl | rfl
  · have hsame : w' = w := by
      rw [hw] at hw'
      exact (Except.ok.inj hw').symm
    change o'.parentKey ∈ (exec (.createProviderService o) s).1.serviceKeys
    rw [exec_createService_docs hinsert, hparent, hkey, hsame]
    exact List.mem_append_right _ (List.mem_singleton_self _)
  · change o'.serviceData.isSome = true
    rw [hdata]
    rfl

abbrev branchAbsent (env : CatalogueEnv) (c : Caller) (b : CatalogueBody) (i : ℕ) (d : ObjectId)
    (unique : Bool) : Set CatalogueFact :=
  freeWorkerServices env c b i d unique ∪ freeWorkerOffers env b i d unique

abbrev branchReady (env : CatalogueEnv) (b : CatalogueBody) (i : ℕ) (d : ObjectId)
    (unique : Bool) : Set CatalogueFact :=
  freeWorkerOffers env b i d unique ∪ itsWorkerParent env b i d

theorem staged_addOfferToWorker (k : ℕ) (value : PopulatedOffer) :
    CatalogueStaged (CatalogueStep unique) (branchReady env b i d unique)
      (addOfferToWorker env b i (some d) k value) := by
  refine tracks_getSequence_bind catalogueStep_counts _ trivial fun n => ?_
  refine staged_addSubservices_bind (fun o s ho => ?_) fun _ => trivial
  refine ⟨?_, fun f hf => Or.inl hf⟩
  rintro f (⟨hu, rfl⟩ | rfl | rfl)
  · exact Or.inl ⟨hu, k, value, n, o, ho, rfl⟩
  · exact Or.inr ⟨k, value, n, o, ho, Or.inl rfl⟩
  · exact Or.inr ⟨k, value, n, o, ho, Or.inr rfl⟩

theorem staged_addServiceToWorker (servicesData : List PopulatedOffer) (order : List ℕ) :
    CatalogueStaged (CatalogueStep unique) (branchAbsent env c b i d unique)
      (addServiceToWorker env c b i (some d) servicesData order) := by
  refine tracks_getSequence_bind catalogueStep_counts _ trivial fun n => ?_
  refine staged_addServices_bind (branchReady env b i d unique) ?_ ?_ ?_
  · intro o s ho hinsert
    refine ⟨?_, ?_⟩
    · rintro f ⟨hu, rfl⟩
      exact Or.inl ⟨hu, n, o, ho, rfl⟩
    · rintro f (hfree | hparent)
      · exact Or.inl (Or.inr hfree)
      · exact Or.inr fun _ => parent_of_newWorkerService ho hinsert f hparent
  · intro o s ho _
    refine ⟨?_, fun f hf => Or.inl hf⟩
    rintro f ⟨hu, rfl⟩
    exact Or.inl ⟨hu, n, o, ho, rfl⟩
  · apply Prog.Tracks.bind
    refine Prog.Tracks.mono (fun _ _ _ => trivial) (Prog.Branch.joinAll learns_climbs order ?_)
    intro p hp
    obtain ⟨k, hk, rfl⟩ := List.mem_mapIdx.mp hp
    exact staged_addOfferToWorker k _

/-- The count decides, in whatever order the two reads come. -/
theorem staged_readOffersAndCount_bind {α : Type}
    (hv : unique = true → plainWorker b.workerData = true) (countFirst : Bool)
    {k : List PopulatedOffer × ℕ → Action α}
    (hnone : ∀ os, CatalogueStaged (CatalogueStep unique) (branchAbsent env c b i d unique)
      (k (os, 0)))
    (hsome : ∀ os n, n ≠ 0 → CatalogueStaged (CatalogueStep unique) ∅ (k (os, n))) :
    CatalogueStaged (CatalogueStep unique) ∅ (readOffersAndCount b (some d) countFirst >>= k) := by
  cases hq : workerServices b (some d) with
  | error e =>
    cases countFirst with
    | true =>
      simp only [readOffersAndCount, getServicesFromProvider, hq]
      trivial
    | false =>
      simp only [readOffersAndCount, getServicesFromProvider, hq]
      exact fun t => ⟨∅, catalogueStep_counts _ t rfl, trivial⟩
  | ok q =>
    have hcounted : ∀ {β : Type} (f : Db → β) s, s.providerServices.count q = 0 →
        CatalogueStep unique ∅ (.read f) s (branchAbsent env c b i d unique) :=
      fun f s hcount => catalogueStep_read f s fun hs =>
        free_of_workerServices_count hv hq hs hcount
    cases countFirst with
    | true =>
      simp only [readOffersAndCount, getServicesFromProvider, hq]
      intro t
      by_cases hcount : t.providerServices.count q = 0
      · refine ⟨_, hcounted _ t hcount, fun t' => ⟨_, catalogueStep_counts _ t' rfl, ?_⟩⟩
        simp only [exec_read, hcount]
        exact hnone _
      · exact ⟨∅, catalogueStep_counts _ t rfl, fun t' =>
          ⟨∅, catalogueStep_counts _ t' rfl, hsome _ _ hcount⟩⟩
    | false =>
      simp only [readOffersAndCount, getServicesFromProvider, hq]
      intro t
      refine ⟨∅, catalogueStep_counts _ t rfl, fun t' => ?_⟩
      by_cases hcount : t'.providerServices.count q = 0
      · refine ⟨_, hcounted _ t' hcount, ?_⟩
        simp only [exec_read, hcount]
        exact hnone _
      · exact ⟨∅, catalogueStep_counts _ t' rfl, hsome _ _ hcount⟩

theorem staged_serviceBranchFrom (hv : unique = true → plainWorker b.workerData = true)
    (order : BranchOrder) :
    CatalogueStaged (CatalogueStep unique) ∅ (serviceBranchFrom env c b i (some d) order) := by
  apply staged_readOffersAndCount_bind hv order.countFirst
  · intro os
    apply Prog.Tracks.bind
    exact Prog.Tracks.mono (fun _ _ _ => trivial) (staged_addServiceToWorker os order.offers)
  · intro os n hn
    rw [if_neg hn]
    trivial

/-- A branch needs nothing but what it sees itself: in a catalogue in order, the first row names a
service. -/
theorem staged_serviceBranch (hv : unique = true → plainWorker b.workerData = true) (i : ℕ)
    (order : BranchOrder) :
    CatalogueStaged (CatalogueStep unique) ∅ (serviceBranch env c b i order) := by
  intro t
  cases hfind : t.providerSubServices.findOne fun _ => true with
  | none =>
    refine ⟨∅, catalogueStep_counts _ t rfl, ?_⟩
    simp only [exec_read, hfind]
    trivial
  | some curr =>
    by_cases hgood : Catalogued t
    · refine ⟨∅, catalogueStep_counts _ t rfl, ?_⟩
      simp only [exec_read, hfind]
      change CatalogueStaged _ ∅ (serviceBranchFrom env c b i curr.serviceData order)
      obtain ⟨d, hd⟩ := Option.isSome_iff_exists.mp
        (hgood.named curr (Collection.mem_of_findOne hfind).1)
      rw [hd]
      exact staged_serviceBranchFrom hv order
    · exact ⟨Set.univ, catalogueStep_read _ t fun hs => absurd hs hgood, tracks_univ _⟩

theorem staged_addServicesbyCompanyToWorker
    (hv : unique = true → plainWorker b.workerData = true) (order : WorkerOrder) :
    CatalogueStaged (CatalogueStep unique) ∅ (addServicesbyCompanyToWorker env c b order) := by
  refine tracks_checked (fun _ => trivial) fun _ => staged_asVendor catalogueStep_counts fun p _ => ?_
  have hlist : ∀ g (ids : List (Option ObjectId)),
      CatalogueStaged (CatalogueStep unique) g (listServices (servicesOfWorker b ids) >>= fun list =>
        reply .success (some (CatalogueResult.services list))) := by
    intro g ids
    refine Prog.Tracks.bind (tracks_cast_bind trivial fun q _ => ?_)
    exact fun t => ⟨g, catalogueStep_counts _ t rfl, trivial⟩
  cases hs : b.services with
  | none => trivial
  | some v =>
    cases v with
    | null | bool x | num m e | str x | obj kvs => trivial
    | arr items =>
      apply Prog.Tracks.bind
      refine Prog.Tracks.mono (Q := fun _ _ => True) (fun g ids _ => hlist g ids) ?_
      refine Prog.Branch.joinAll learns_climbs order.branches ?_
      intro p hp
      obtain ⟨i, -, rfl⟩ := List.mem_map.mp hp
      exact staged_serviceBranch hv i (order.branch i)

end Workers

section Runs

variable {unique : Bool} {r : CatalogueRequest}

theorem CatalogueRequest.plainIds_of_plain (h : r.plain = true) : r.plainIds = true := by
  obtain ⟨handler, c, b, env⟩ := r
  cases handler with
  | addServicesbyCompanyToWorker order => rfl
  | _ => exact h

/-- What a request does rests on what it saw before. -/
theorem grounded_program (hids : r.plainIds = true) (hplain : unique = true → r.plain = true) :
    Grounded exec CatalogueFact.holds Catalogued (catalogueNeeds unique) r.program := by
  apply Prog.Tracks.catchAll (fun _ _ _ => trivial)
  change CatalogueStaged (CatalogueStep unique) ∅ r.handle
  obtain ⟨handler, c, b, env⟩ := r
  cases handler with
  | addServicesbyCompany | addServicesbyIndividual =>
    obtain ⟨hv, hv'⟩ := Bool.and_eq_true_iff.mp hids
    exact staged_addServicesBy fun hc => vendorStages_of_plain unique hc hv hv'
  | addServicesbyCompanyToWorker order =>
    exact staged_addServicesbyCompanyToWorker hplain order
  | deteleCompanyServicesByID | deteleIndividualServicesByID =>
    refine staged_deleteServicesBy catalogueStep_counts fun q s _ => ?_
    exact ⟨Set.empty_subset _, fun f hf => Or.inl hf⟩

def cataloguePool (s : Db) (rs : List CatalogueRequest) :
    Pool Db DbOp Ret Thrown CatalogueResponse :=
  ⟨s, rs.map CatalogueRequest.program⟩

variable {s : Db} {rs : List CatalogueRequest}

theorem grounded_pool (hids : ∀ r ∈ rs, r.plainIds = true)
    (hplain : unique = true → ∀ r ∈ rs, r.plain = true) :
    ∀ p ∈ (cataloguePool s rs).threads,
      Grounded exec CatalogueFact.holds Catalogued (catalogueNeeds unique) p := by
  intro p hp
  obtain ⟨r, hr, rfl⟩ := List.mem_map.mp hp
  exact grounded_program (hids r hr) fun hu => hplain hu r hr

/-- A catalogue in order stays in order, whatever the interleaving. -/
theorem catalogued_run (hs : Catalogued s) (hids : ∀ r ∈ rs, r.plainIds = true)
    (sched : List ℕ) : ∀ pre, pre <+: sched →
      Catalogued (runFrom (Pool.stepAt exec) (cataloguePool s rs) pre).state := by
  have hground : ∀ p ∈ (cataloguePool s rs).threads,
      Grounded exec CatalogueFact.holds Catalogued (catalogueNeeds false) p :=
    grounded_pool hids fun hu => by cases hu
  exact good_run hground hs catalogued_exec sched

def bareDb : Db := { sampleDb with providerSubServices := .empty _ }

theorem catalogued_bareDb : Catalogued bareDb := by
  constructor
  · intro o ho
    cases ho
  · intro o ho
    cases ho

def sampleAddition (tag : ℕ) (services : Json) : CatalogueRequest where
  handler := .addServicesbyCompany
  caller := company
  body :=
    { services := some services
      subServices := some (.str "subservice01")
      price := some (.num 100 0) }
  env := sampleCatalogueEnv tag

def sampleAdditions : List CatalogueRequest :=
  [sampleAddition 1 (.str "service---01"), sampleAddition 2 (.str "service---01")]

/-- Both requests count the services before one of them adds its own. -/
def raceSchedule : List ℕ := [0, 0, 1, 1] ++ List.replicate 6 0 ++ List.replicate 6 1

/-- There is one row for each service of an owner and one for each offer. -/
def UniqueRows (s : Db) : Prop := s.serviceKeys.Nodup ∧ s.offerKeys.Nodup

theorem nodup_catalogueKeys_iff (s : Db) : s.catalogueKeys.Nodup ↔ UniqueRows s := by
  rw [Db.catalogueKeys, List.nodup_append, UniqueRows]
  refine and_congr_right fun _ => and_iff_left ?_
  intro k hk k' hk' heq
  obtain ⟨o, -, rfl⟩ := List.mem_map.mp hk
  obtain ⟨o', -, rfl⟩ := List.mem_map.mp hk'
  cases heq

/-- From a catalogue in order, and with plain requests, the rows stay unique exactly as long as no
request adds a row whose key was added since the request began. -/
theorem uniqueRows_iff (s : Db) (hs : Catalogued s) (rs : List CatalogueRequest)
    (hplain : ∀ r ∈ rs, r.plain = true) (sched : List ℕ) :
    (∀ pre, pre <+: sched →
        UniqueRows (runFrom (Pool.stepAt exec) (cataloguePool s rs) pre).state) ↔
      UniqueRows s ∧ ∀ pre i post, sched = pre ++ i :: post →
        ¬ Retakes exec (cataloguePool s rs) Db.catalogueKeys addsRow pre i := by
  have hids : ∀ r ∈ rs, r.plainIds = true := fun r hr => r.plainIds_of_plain (hplain r hr)
  simp only [← nodup_catalogueKeys_iff]
  exact nodup_keys_iff_of_grounded addsKeys_catalogue CatalogueFact.free (fun _ _ => Iff.rfl)
    addsRow_needs (grounded_pool hids fun _ => hplain) (catalogued_run hs hids sched)

instance : DecidablePred UniqueRows :=
  fun s => inferInstanceAs (Decidable (s.serviceKeys.Nodup ∧ s.offerKeys.Nodup))

theorem uniqueRows_of_one_addition :
    UniqueRows bareDb ∧ ∀ pre i post, List.replicate 8 0 = pre ++ i :: post →
      ¬ Retakes exec (cataloguePool bareDb [sampleAddition 1 (.str "service---01")])
        Db.catalogueKeys addsRow pre i := by
  have hplain : ∀ r ∈ [sampleAddition 1 (.str "service---01")], r.plain = true := by
    decide +kernel
  have hunique : ∀ pre ∈ (List.replicate 8 0).inits,
      UniqueRows (runFrom (Pool.stepAt exec)
        (cataloguePool bareDb [sampleAddition 1 (.str "service---01")]) pre).state := by
    decide +kernel
  exact (uniqueRows_iff bareDb catalogued_bareDb _ hplain _).mp
    fun pre hpre => hunique pre ((List.mem_inits pre _).mpr hpre)

def sampleService : ProviderService where
  id := idOf "shelf-----01"
  seqId := 1
  company := some (idOf "company---01")
  worker := none
  workerCompany := none
  individual := none
  userId := none
  price := none
  userType := some companyType
  serviceData := some (idOf "service---01")
  creationDate := none
  status := "A"
  createdAt := 0
  updatedAt := 0

def stockedDb : Db :=
  { sampleDb with
    providerServices := ⟨[sampleService], List.nodup_singleton _⟩
    counters := ⟨[⟨"dqw_provider_services", 1, 1⟩, ⟨"dqw_provider_sub_services", 1, 1⟩],
      by decide +kernel⟩ }

def sharedDb : Db :=
  { stockedDb with
    providerServices := ⟨[sampleService,
      { sampleService with id := idOf "shelf-----02", company := some (idOf "company---02") }],
      by decide +kernel⟩
    providerSubServices := ⟨[sampleOffer,
      { sampleOffer with id := idOf "offer-----02", company := some (idOf "company---02") }],
      by decide +kernel⟩ }

def sampleToWorker (names : List String) : CatalogueRequest where
  handler := .addServicesbyCompanyToWorker
    { branches := [0, 1, 0, 1, 0, 1], branch := fun _ => ⟨false, []⟩ }
  caller := company
  body :=
    { services := some (.arr (names.map .str))
      workerData := some (.str "worker----01") }
  env := sampleCatalogueEnv 1

/-- The same addition sent twice, two branches of one request, and an offer of two companies: each
time a row is there twice in the end. -/
theorem rows_added_twice :
    ¬ UniqueRows (runFrom (Pool.stepAt exec) (cataloguePool bareDb sampleAdditions)
      raceSchedule).state ∧
    ¬ UniqueRows (runFrom (Pool.stepAt exec)
      (cataloguePool stockedDb [sampleToWorker ["offer-----01", "offer-----01"]])
      (List.replicate 20 0)).state ∧
    ¬ UniqueRows (runFrom (Pool.stepAt exec)
      (cataloguePool sharedDb [sampleToWorker ["offer-----01"]]) (List.replicate 14 0)).state := by
  refine ⟨?_, ?_, ?_⟩
  · decide +kernel
  · decide +kernel
  · decide +kernel

end Runs

end DoQwik
