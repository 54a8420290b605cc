import DoQwik.Catalogue
import DoQwik.Stages

/-! The catalogue requests of a vendor, led through their stages. A vendor's request counts the
services of the kind, and then adds the service and the offer, or looks for the offer and adds or
updates it. -/
namespace DoQwik
open JsValues DocStore Interleave

variable {γ : Type} {Step : γ → DbOp → Db → γ → Prop}

abbrev CatalogueStaged (Step : γ → DbOp → Db → γ → Prop) (g : γ) {α : Type} (p : Action α) :
    Prop :=
  Prog.Tracks exec Step (fun _ _ => True) (fun _ => True) g p

section Programs

variable {α : Type} {g : γ} {c : Caller} {vendor : Vendor}

theorem staged_asVendor (haside : ∀ op s, op.counts = true → Step g op s g)
    {k : Provider → Action CatalogueResponse}
    (hk : ∀ p, p.id = c.userId → CatalogueStaged Step g (k p)) :
    CatalogueStaged Step g (asVendor c vendor k) := by
  apply tracks_query_bind haside
  intro t
  cases hp : t.providers.get? c.userId with
  | none => trivial
  | some p =>
    change CatalogueStaged Step g (if p.userType = vendor.userType then k p else _)
    split
    · exact hk p ((t.providers.get?_eq_some_iff _ _).mp hp).2
    · trivial

/-- An offer is created, or its id was taken. -/
theorem staged_addSubservices_bind {data : Except Thrown ProviderSubService}
    {k : ProviderSubService → Action α}
    (hop : ∀ o s, data = .ok o → Step g (.createProviderSubService o) s g)
    (hk : ∀ o, CatalogueStaged Step g (k o)) :
    CatalogueStaged Step g (addSubservices data >>= k) := by
  cases hdata : data with
  | error e => trivial
  | ok o =>
    intro t
    refine ⟨g, hop o t hdata, ?_⟩
    change CatalogueStaged Step g
      ((if (t.providerSubServices.insert o).isSome then pure o else throwing .duplicateKey) >>= k)
    cases (t.providerSubServices.insert o).isSome with
    | false => trivial
    | true => exact hk o

/-- A service is created, and the request goes on from the stage that this leads to. -/
theorem staged_addServices_bind {data : Except Thrown ProviderService} {k : Unit → Action α}
    (g' : γ)
    (hop : ∀ o s, data = .ok o → (s.providerServices.insert o).isSome = true →
      Step g (.createProviderService o) s g')
    (hfail : ∀ o s, data = .ok o → (s.providerServices.insert o).isSome = false →
      Step g (.createProviderService o) s g)
    (hk : CatalogueStaged Step g' (k ())) :
    CatalogueStaged Step g (addServices data >>= k) := by
  cases hdata : data with
  | error e => trivial
  | ok o =>
    intro t
    cases hi : (t.providerServices.insert o).isSome with
    | false =>
      refine ⟨g, hfail o t hdata hi, ?_⟩
      change CatalogueStaged Step g
        ((if (t.providerServices.insert o).isSome then pure () else throwing .duplicateKey) >>= k)
      rw [hi]
      trivial
    | true =>
      refine ⟨g', hop o t hdata hi, ?_⟩
      change CatalogueStaged Step g'
        ((if (t.providerServices.insert o).isSome then pure () else throwing .duplicateKey) >>= k)
      rw [hi]
      exact hk

end Programs

section Rows

variable {env : CatalogueEnv} {b : CatalogueBody} {vendor : Vendor} {owner : ObjectId}

/-- The rows that a request creates name the vendor in its field. -/
theorem field_new (vendor : Vendor) (owner : ObjectId) :
    vendor.field (if vendor = .company then some owner else none)
      (if vendor = .individual then some owner else none) = some owner := by
  cases vendor with
  | company => rfl
  | individual => rfl

theorem newService_eq_ok {seqId : ℕ} {o : ProviderService}
    (h : newService env b vendor owner seqId = .ok o) :
    ∃ i, objectIdOf (env.generated 0 0) b.services = .ok i ∧
      vendor.field o.company o.individual = some owner ∧ o.worker = none ∧
      o.userType = some vendor.userType ∧ o.serviceData = some i := by
  obtain ⟨i, hi, h⟩ := bind_eq_ok h
  cases h
  exact ⟨i, hi, field_new vendor owner, rfl, rfl, rfl⟩

theorem newOffer_eq_ok {seqId : ℕ} {o : ProviderSubService}
    (h : newOffer env b vendor owner seqId = .ok o) :
    ∃ i j, objectIdOf (env.generated 0 1) b.services = .ok i ∧
      objectIdOf (env.generated 0 2) b.subServices = .ok j ∧
      vendor.field o.company o.individual = some owner ∧ o.worker = none ∧
      o.userType = some vendor.userType ∧ o.serviceData = some i ∧ o.subServices = some j := by
  obtain ⟨i, hi, h⟩ := bind_eq_ok h
  obtain ⟨j, hj, h⟩ := bind_eq_ok h
  obtain ⟨price, -, h⟩ := bind_eq_ok h
  obtain ⟨category, -, h⟩ := bind_eq_ok h
  cases h
  exact ⟨i, j, hi, hj, field_new vendor owner, rfl, rfl, rfl, rfl⟩

theorem ownOffers_eq_ok {q : ProviderSubService → Bool} (h : ownOffers b vendor owner = .ok q) :
    ∃ p p', castForQuery objectIdType b.services = .ok p ∧
      castForQuery objectIdType b.subServices = .ok p' ∧
      ∀ o, q o = true ↔ vendor.field o.company o.individual = some owner ∧
        o.userType = some vendor.userType ∧ p o.serviceData = true ∧ p' o.subServices = true := by
  obtain ⟨p, hp, h⟩ := bind_eq_ok h
  obtain ⟨p', hp', h⟩ := bind_eq_ok h
  cases h
  refine ⟨p, p', hp, hp', fun o => ?_⟩
  simp only [Bool.and_eq_true, decide_eq_true_eq, and_assoc]

theorem ownServices_eq_ok {q : ProviderService → Bool} (h : ownServices b vendor owner = .ok q) :
    ∃ p, castForQuery objectIdType b.services = .ok p ∧
      ∀ o, q o = true ↔ vendor.field o.company o.individual = some owner ∧
        o.userType = some vendor.userType ∧ p o.serviceData = true := by
  obtain ⟨p, hp, rfl⟩ := map_eq_ok h
  refine ⟨p, hp, fun o => ?_⟩
  simp only [Bool.and_eq_true, decide_eq_true_eq, and_assoc]

end Rows

/-- The stages of a vendor's request: at the `start`, with its service `absent` or `present`, and
`ready` to add the offer. -/
structure VendorStages (Step : γ → DbOp → Db → γ → Prop) (env : CatalogueEnv) (b : CatalogueBody)
    (vendor : Vendor) (owner : ObjectId) (start absent present ready : γ) : Prop where
  aside : ∀ g op s, op.counts = true → Step g op s g
  countedNone : ∀ {β : Type} (f : Db → β) s p, ownServices b vendor owner = .ok p →
    s.providerServices.count p = 0 → Step start (.read f) s absent
  countedSome : ∀ {β : Type} (f : Db → β) s p, ownServices b vendor owner = .ok p →
    s.providerServices.count p ≠ 0 → Step start (.read f) s present
  createService : ∀ seqId o s, newService env b vendor owner seqId = .ok o →
    (s.providerServices.insert o).isSome = true → Step absent (.createProviderService o) s ready
  refuseService : ∀ seqId o s, newService env b vendor owner seqId = .ok o →
    (s.providerServices.insert o).isSome = false → Step absent (.createProviderService o) s absent
  notFound : ∀ {β : Type} (f : Db → β) s q, ownOffers b vendor owner = .ok q →
    s.providerSubServices.findOne q = none → Step present (.read f) s ready
  createOffer : ∀ seqId o s, newOffer env b vendor owner seqId = .ok o →
    Step ready (.createProviderSubService o) s ready
  updateOffer : ∀ q d now s, ownOffers b vendor owner = .ok q →
    Step present (.updateProviderSubService q d now) s present

section Vendors

variable {env : CatalogueEnv} {c : Caller} {b : CatalogueBody} {vendor : Vendor}
  {start absent present ready : γ}

theorem staged_addOffer
    (h : VendorStages Step env b vendor c.userId start absent present ready) :
    CatalogueStaged Step ready (addOffer env b vendor c.userId) := by
  refine tracks_getSequence_bind (h.aside ready) _ trivial fun n => ?_
  exact staged_addSubservices_bind (fun o s ho => h.createOffer n o s ho) fun _ => trivial

theorem staged_addNewService
    (h : VendorStages Step env b vendor c.userId start absent present ready) :
    CatalogueStaged Step absent (addNewService env b vendor c.userId) := by
  refine tracks_getSequence_bind (h.aside absent) _ trivial fun n => ?_
  exact staged_addServices_bind ready (h.createService n) (h.refuseService n) (staged_addOffer h)

theorem staged_addOrUpdateOffer
    (h : VendorStages Step env b vendor c.userId start absent present ready) :
    CatalogueStaged Step present (addOrUpdateOffer env b vendor c.userId) := by
  cases hq : ownOffers b vendor c.userId with
  | error e =>
    simp only [addOrUpdateOffer, findOneSubservices, hq]
    trivial
  | ok q =>
    simp only [addOrUpdateOffer, findOneSubservices, hq]
    intro t
    cases hfind : t.providerSubServices.findOne q with
    | none =>
      refine ⟨ready, h.notFound _ t q hq hfind, ?_⟩
      simp only [exec_read, hfind]
      exact staged_addOffer h
    | some o =>
      refine ⟨present, h.aside _ _ t rfl, ?_⟩
      simp only [exec_read, hfind]
      cases hd : offerData b with
      | error e => trivial
      | ok d => exact fun t' => ⟨present, h.updateOffer q d _ t' hq, trivial⟩

/-- Whatever the others do, a vendor's addition that is not refused goes through its stages. -/
theorem staged_addServicesBy
    (h : refusal (addServicesChecks b) = none →
      VendorStages Step env b vendor c.userId start absent present ready) :
    CatalogueStaged Step start (addServicesBy env c b vendor) := by
  refine tracks_checked (fun _ => trivial) fun hc => ?_
  replace h := h hc
  refine staged_asVendor (h.aside start) fun p hp => ?_
  rw [hp]
  cases hs : ownServices b vendor c.userId with
  | error e =>
    simp only [getServicesFromProvider]
    trivial
  | ok q =>
    simp only [getServicesFromProvider]
    intro t
    by_cases hcount : t.providerServices.count q = 0
    · refine ⟨absent, h.countedNone _ t q hs hcount, ?_⟩
      change CatalogueStaged Step absent (if t.providerServices.count q = 0 then _ else _)
      rw [if_pos hcount]
      exact staged_addNewService h
    · refine ⟨present, h.countedSome _ t q hs hcount, ?_⟩
      change CatalogueStaged Step present (if t.providerServices.count q = 0 then _ else _)
      rw [if_neg hcount]
      exact staged_addOrUpdateOffer h

/-- A deletion has one stage. -/
theorem staged_deleteServicesBy {g : γ} (haside : ∀ op s, op.counts = true → Step g op s g)
    (hdelete : ∀ q s, offerById b.id = .ok q → Step g (.deleteProviderSubService q) s g) :
    CatalogueStaged Step g (deleteServicesBy c b vendor) := by
  refine staged_asVendor haside fun p _ => ?_
  simp only [deleteIndividualServices]
  cases hq : offerById b.id with
  | error e => trivial
  | ok q => exact fun t => ⟨g, hdelete q t hq, trivial⟩

end Vendors

end DoQwik
