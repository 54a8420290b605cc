import DoQwik.CatalogueRaces

/-! What an addition to the catalogue does when nothing interrupts it: nothing at all, the service
without its offer, both, the offer alone, or an update of the offer. -/
namespace DoQwik
open JsValues DocStore Interleave

section Effects

variable (env : CatalogueEnv) (c : Caller) (b : CatalogueBody) (vendor : Vendor) (s : Db)

def ActsAs : Prop := ∃ p, s.providers.get? c.userId = some p ∧ p.userType = vendor.userType

/-- The body is one that an addition can store, whichever way it goes. -/
structure Storable : Prop where
  checks : refusal (addServicesChecks b) = none
  services : ∃ q, ownServices b vendor c.userId = .ok q
  offers : ∃ q, ownOffers b vendor c.userId = .ok q
  service : ∃ i, objectIdOf (env.generated 0 0) b.services = .ok i
  offerService : ∃ i, objectIdOf (env.generated 0 1) b.services = .ok i
  offer : ∃ i, objectIdOf (env.generated 0 2) b.subServices = .ok i
  price : ∃ x, castSet castNumber b.price = .ok x
  category : ∃ x, castSet castString (ifTruthy b.category) = .ok x

/-- The service is new and can be stored, and the offer cannot. -/
structure Halfway : Prop where
  checks : refusal (addServicesChecks b) = none
  caller : ActsAs c vendor s
  absent : ∃ q, ownServices b vendor c.userId = .ok q ∧ s.providerServices.count q = 0
  service : ∃ i, objectIdOf (env.generated 0 0) b.services = .ok i
  offer : (∃ e, objectIdOf (env.generated 0 2) b.subServices = .error e) ∨
    (∃ e, castSet castNumber b.price = .error e) ∨
    ∃ e, castSet castString (ifTruthy b.category) = .error e

def IdTaken : Prop :=
  (∃ o, s.providerServices.get? (env.newId 0 0) = some o) ∨
    ∃ o, s.providerSubServices.get? (env.newId 0 1) = some o

def succeeded : Except Thrown CatalogueResponse → Bool
  | .ok a => a.key = .success
  | .error _ => false

/-- What an addition can do, with what it takes to get there. -/
inductive AdditionEffect : Db → Except Thrown CatalogueResponse → Prop where
  | nothing {t r} (services : t.providerServices = s.providerServices)
      (offers : t.providerSubServices = s.providerSubServices) (failed : succeeded r = false)
      (unfinished : ¬ Halfway env c b vendor s ∨ IdTaken env s)
      (invalid : ¬ (ActsAs c vendor s ∧ Storable env c b vendor) ∨ IdTaken env s) :
      AdditionEffect t r
  | half {t r n o q} (checks : refusal (addServicesChecks b) = none)
      (counted : ownServices b vendor c.userId = .ok q) (absent : s.providerServices.count q = 0)
      (service : newService env b vendor c.userId n = .ok o)
      (services : s.providerServices.insert o = some t.providerServices)
      (offers : t.providerSubServices = s.providerSubServices) (failed : succeeded r = false)
      (unfinished : Halfway env c b vendor s ∨ IdTaken env s)
      (invalid : ¬ Storable env c b vendor ∨ IdTaken env s) : AdditionEffect t r
  | both {t r n n' o o' q} (checks : refusal (addServicesChecks b) = none)
      (counted : ownServices b vendor c.userId = .ok q) (absent : s.providerServices.count q = 0)
      (service : newService env b vendor c.userId n = .ok o)
      (offer : newOffer env b vendor c.userId n' = .ok o')
      (services : s.providerServices.insert o = some t.providerServices)
      (offers : s.providerSubServices.insert o' = some t.providerSubServices)
      (success : succeeded r = true) : AdditionEffect t r
  | offer {t r n o' q q'} (checks : refusal (addServicesChecks b) = none)
      (counted : ownServices b vendor c.userId = .ok q) (present : s.providerServices.count q ≠ 0)
      (searched : ownOffers b vendor c.userId = .ok q')
      (notFound : s.providerSubServices.findOne q' = none)
      (offer : newOffer env b vendor c.userId n = .ok o')
      (services : t.providerServices = s.providerServices)
      (offers : s.providerSubServices.insert o' = some t.providerSubServices)
      (success : succeeded r = true) : AdditionEffect t r
  | update {t r d x q q'} (checks : refusal (addServicesChecks b) = none)
      (counted : ownServices b vendor c.userId = .ok q) (present : s.providerServices.count q ≠ 0)
      (searched : ownOffers b vendor c.userId = .ok q')
      (found : s.providerSubServices.findOne q' = some x) (data : offerData b = .ok d)
      (services : t.providerServices = s.providerServices)
      (offers : t.providerSubServices =
        s.providerSubServices.updateOne q' (d.apply env.now) (d.apply_id env.now))
      (success : succeeded r = true) : AdditionEffect t r

variable {env c b vendor s}

theorem newService_id {owner : ObjectId} {n : ℕ} {o : ProviderService}
    (h : newService env b vendor owner n = .ok o) : o.id = env.newId 0 0 := by
  obtain ⟨i, -, h⟩ := bind_eq_ok h
  cases h
  rfl

theorem newOffer_id {owner : ObjectId} {n : ℕ} {o : ProviderSubService}
    (h : newOffer env b vendor owner n = .ok o) : o.id = env.newId 0 1 := by
  obtain ⟨i, -, h⟩ := bind_eq_ok h
  obtain ⟨j, -, h⟩ := bind_eq_ok h
  obtain ⟨price, -, h⟩ := bind_eq_ok h
  obtain ⟨category, -, h⟩ := bind_eq_ok h
  cases h
  rfl

theorem optional_error {α : Type} {cast : Json → Except Thrown (Option α)} {v : Option Json}
    {e : Thrown} (h : optional cast v = .error e) : ∃ e', castSet cast v = .error e' := by
  unfold optional at h
  cases hc : castSet cast v with
  | error e' => exact ⟨e', rfl⟩
  | ok a =>
    rw [hc] at h
    cases h

/-- Whether the constructor throws does not depend on the id that it would generate. -/
theorem objectIdOf_error {v : Option Json} {g g' : ObjectId} {e : Thrown}
    (h : objectIdOf g v = .error e) : objectIdOf g' v = .error e := by
  rcases v with _ | v
  · cases h
  cases v with
  | null => cases h
  | num m e' => cases h
  | bool x | str x | arr vs | obj kvs => exact h

theorem newService_error {owner : ObjectId} {n : ℕ} {e : Thrown}
    (h : newService env b vendor owner n = .error e) :
    ∃ e', objectIdOf (env.generated 0 0) b.services = .error e' := by
  unfold newService at h
  cases hi : objectIdOf (env.generated 0 0) b.services with
  | error e' => exact ⟨e', rfl⟩
  | ok i =>
    rw [hi] at h
    cases h

theorem newOffer_error {owner : ObjectId} {n : ℕ} {e : Thrown}
    (h : newOffer env b vendor owner n = .error e) :
    (∃ e', objectIdOf (env.generated 0 1) b.services = .error e') ∨
      (∃ e', objectIdOf (env.generated 0 2) b.subServices = .error e') ∨
      (∃ e', castSet castNumber b.price = .error e') ∨
      ∃ e', castSet castString (ifTruthy b.category) = .error e' := by
  unfold newOffer at h
  cases hi : objectIdOf (env.generated 0 1) b.services with
  | error e' => exact Or.inl ⟨e', rfl⟩
  | ok i =>
    cases hj : objectIdOf (env.generated 0 2) b.subServices with
    | error e' => exact Or.inr (Or.inl ⟨e', rfl⟩)
    | ok j =>
      cases hprice : optional castNumber b.price with
      | error e' => exact Or.inr (Or.inr (Or.inl (optional_error hprice)))
      | ok price =>
        cases hcategory : optional castString (ifTruthy b.category) with
        | error e' => exact Or.inr (Or.inr (Or.inr (optional_error hcategory)))
        | ok category =>
          rw [hi, hj, hprice, hcategory] at h
          cases h

/-- An offer that cannot be stored leaves the request unfinished, if its service can. -/
theorem halfway_of_newOffer_error {n n' : ℕ} {o : ProviderService} {e : Thrown}
    {q : ProviderService → Bool} (hc : refusal (addServicesChecks b) = none)
    (hact : ActsAs c vendor s) (hq : ownServices b vendor c.userId = .ok q)
    (habsent : s.providerServices.count q = 0)
    (ho : newService env b vendor c.userId n = .ok o)
    (he : newOffer env b vendor c.userId n' = .error e) : Halfway env c b vendor s := by
  obtain ⟨i, hi, -⟩ := newService_eq_ok ho
  refine ⟨hc, hact, ⟨q, hq, habsent⟩, ⟨i, hi⟩, ?_⟩
  rcases newOffer_error he with ⟨e', he'⟩ | hrest
  · rw [objectIdOf_error he'] at hi
    cases hi
  · exact hrest

theorem not_halfway_of_newOffer {n : ℕ} {o : ProviderSubService}
    (ho : newOffer env b vendor c.userId n = .ok o) : ¬ Halfway env c b vendor s := by
  intro h
  obtain ⟨i, -, ho⟩ := bind_eq_ok ho
  obtain ⟨j, hj, ho⟩ := bind_eq_ok ho
  obtain ⟨price, hprice, ho⟩ := bind_eq_ok ho
  obtain ⟨category, hcategory, -⟩ := bind_eq_ok ho
  rcases h.offer with ⟨e, he⟩ | ⟨e, he⟩ | ⟨e, he⟩
  · rw [hj] at he
    cases he
  · rw [optional, he] at hprice
    cases hprice
  · rw [optional, he] at hcategory
    cases hcategory

theorem not_halfway_of_present {q : ProviderService → Bool}
    (hq : ownServices b vendor c.userId = .ok q) (hpresent : s.providerServices.count q ≠ 0) :
    ¬ Halfway env c b vendor s := by
  intro h
  obtain ⟨q', hq', habsent⟩ := h.absent
  rw [hq] at hq'
  cases hq'
  exact hpresent habsent

theorem not_storable_of_newOffer_error {n : ℕ} {e : Thrown}
    (he : newOffer env b vendor c.userId n = .error e) : ¬ Storable env c b vendor := by
  intro h
  rcases newOffer_error he with ⟨e', he'⟩ | ⟨e', he'⟩ | ⟨e', he'⟩ | ⟨e', he'⟩
  · obtain ⟨i, hi⟩ := h.offerService
    rw [he'] at hi
    cases hi
  · obtain ⟨i, hi⟩ := h.offer
    rw [he'] at hi
    cases hi
  · obtain ⟨x, hx⟩ := h.price
    rw [he'] at hx
    cases hx
  · obtain ⟨x, hx⟩ := h.category
    rw [he'] at hx
    cases hx

theorem not_storable_of_offerData_error {e : Thrown} (he : offerData b = .error e) :
    ¬ Storable env c b vendor := by
  intro h
  obtain ⟨x, hx⟩ := h.price
  obtain ⟨y, hy⟩ := h.category
  unfold offerData at he
  rw [hx, hy] at he
  cases he

variable (env b vendor)

/-- The end of an addition: the offer cannot be stored, its id is taken, or it is there. -/
theorem run_addOffer (owner : ObjectId) (s : Db) : ∃ cs n,
    (∃ e, newOffer env b vendor owner n = .error e ∧
      (addOffer env b vendor owner).run exec s = ({ s with counters := cs }, .error e)) ∨
    (∃ o, newOffer env b vendor owner n = .ok o ∧ s.providerSubServices.insert o = none ∧
      (addOffer env b vendor owner).run exec s =
        ({ s with counters := cs }, .error .duplicateKey)) ∨
    ∃ o d, newOffer env b vendor owner n = .ok o ∧ s.providerSubServices.insert o = some d ∧
      (addOffer env b vendor owner).run exec s =
        ({ s with counters := cs, providerSubServices := d },
          .ok { key := .success, result := some (.offer o) }) := by
  obtain ⟨cs, n, hseq⟩ := run_getSequence "dqw_provider_sub_services" s
  refine ⟨cs, n, ?_⟩
  have hrun : (addOffer env b vendor owner).run exec s =
      (addSubservices (newOffer env b vendor owner n) >>= fun data =>
        reply .success (some (CatalogueResult.offer data))).run exec { s with counters := cs } := by
    unfold addOffer
    rw [Prog.run_bind, hseq]
  cases hnew : newOffer env b vendor owner n with
  | error e =>
    refine Or.inl ⟨e, rfl, ?_⟩
    rw [hrun, hnew]
    rfl
  | ok o =>
    -- The insertion comes first, and what follows depends on its outcome.
    have hinsert : (addOffer env b vendor owner).run exec s =
        ((if (s.providerSubServices.insert o).isSome then pure o else throwing .duplicateKey)
          >>= fun data => reply .success (some (CatalogueResult.offer data))).run exec
          { s with counters := cs, providerSubServices :=
            (s.providerSubServices.insert o).getD s.providerSubServices } := by
      rw [hrun, hnew]
      rfl
    cases hi : s.providerSubServices.insert o with
    | none =>
      rw [hi] at hinsert
      exact Or.inr (Or.inl ⟨o, rfl, hi, hinsert⟩)
    | some d =>
      rw [hi] at hinsert
      exact Or.inr (Or.inr ⟨o, d, rfl, hi, hinsert⟩)

/-- A new service: it cannot be stored, its id is taken, or it is there and the offer follows. -/
theorem run_addNewService (owner : ObjectId) (s : Db) : ∃ cs n,
    (∃ e, newService env b vendor owner n = .error e ∧
      (addNewService env b vendor owner).run exec s = ({ s with counters := cs }, .error e)) ∨
    (∃ o, newService env b vendor owner n = .ok o ∧ s.providerServices.insert o = none ∧
      (addNewService env b vendor owner).run exec s =
        ({ s with counters := cs }, .error .duplicateKey)) ∨
    ∃ o d, newService env b vendor owner n = .ok o ∧ s.providerServices.insert o = some d ∧
      (addNewService env b vendor owner).run exec s =
        (addOffer env b vendor owner).run exec
          { s with counters := cs, providerServices := d } := by
  obtain ⟨cs, n, hseq⟩ := run_getSequence "dqw_provider_services" s
  refine ⟨cs, n, ?_⟩
  have hrun : (addNewService env b vendor owner).run exec s =
      (addServices (newService env b vendor owner n) >>= fun _ =>
        addOffer env b vendor owner).run exec { s with counters := cs } := by
    unfold addNewService
    rw [Prog.run_bind, hseq]
  cases hnew : newService env b vendor owner n with
  | error e =>
    refine Or.inl ⟨e, rfl, ?_⟩
    rw [hrun, hnew]
    rfl
  | ok o =>
    have hinsert : (addNewService env b vendor owner).run exec s =
        ((if (s.providerServices.insert o).isSome then pure () else throwing .duplicateKey)
          >>= fun _ => addOffer env b vendor owner).run exec
          { s with counters := cs, providerServices :=
            (s.providerServices.insert o).getD s.providerServices } := by
      rw [hrun, hnew]
      rfl
    cases hi : s.providerServices.insert o with
    | none =>
      rw [hi] at hinsert
      exact Or.inr (Or.inl ⟨o, rfl, hi, hinsert⟩)
    | some d =>
      rw [hi] at hinsert
      exact Or.inr (Or.inr ⟨o, d, rfl, hi, hinsert⟩)

/-- A service that is there: the offer is added, or updated. -/
theorem run_addOrUpdateOffer (owner : ObjectId) (s : Db) :
    (∃ e, ownOffers b vendor owner = .error e ∧
      (addOrUpdateOffer env b vendor owner).run exec s = (s, .error e)) ∨
    (∃ q, ownOffers b vendor owner = .ok q ∧ s.providerSubServices.findOne q = none ∧
      (addOrUpdateOffer env b vendor owner).run exec s =
        (addOffer env b vendor owner).run exec s) ∨
    ∃ q x, ownOffers b vendor owner = .ok q ∧ s.providerSubServices.findOne q = some x ∧
      ((∃ e, offerData b = .error e ∧
        (addOrUpdateOffer env b vendor owner).run exec s = (s, .error e)) ∨
      ∃ d, offerData b = .ok d ∧
        (addOrUpdateOffer env b vendor owner).run exec s =
          ({ s with providerSubServices :=
              s.providerSubServices.updateOne q (d.apply env.now) (d.apply_id env.now) },
            .ok { key := .success, result := some (.updated (some (d.apply env.now x))) })) := by
  cases hq : ownOffers b vendor owner with
  | error e =>
    refine Or.inl ⟨e, rfl, ?_⟩
    simp only [addOrUpdateOffer, findOneSubservices, hq]
    rfl
  | ok q =>
    have hfirst : (findOneSubservices (.ok q)).run exec s =
        (s, .ok (s.providerSubServices.findOne q)) := rfl
    cases hfind : s.providerSubServices.findOne q with
    | none =>
      refine Or.inr (Or.inl ⟨q, rfl, hfind, ?_⟩)
      unfold addOrUpdateOffer
      rw [hq, Prog.run_bind, hfirst, hfind]
    | some x =>
      refine Or.inr (Or.inr ⟨q, x, rfl, hfind, ?_⟩)
      cases hd : offerData b with
      | error e =>
        refine Or.inl ⟨e, rfl, ?_⟩
        unfold addOrUpdateOffer
        rw [hq, Prog.run_bind, hfirst, hfind, hd]
        rfl
      | ok d =>
        refine Or.inr ⟨d, rfl, ?_⟩
        have hupdate : (updateSubSrvices (.ok q) (.ok d) env.now).run exec s =
            ({ s with providerSubServices :=
                s.providerSubServices.updateOne q (d.apply env.now) (d.apply_id env.now) },
              .ok ((s.providerSubServices.findOne q).map (d.apply env.now))) := rfl
        unfold addOrUpdateOffer
        rw [hq, Prog.run_bind, hfirst, hfind, hd]
        dsimp only
        rw [Prog.run_bind, hupdate, hfind]
        rfl

variable {env b vendor}

/-- Once the service is there, the offer is added or the addition stops halfway. -/
theorem effect_of_newService {n : ℕ} {o : ProviderService} {q : ProviderService → Bool}
    {d : Collection ProviderService.id} (cs : Collection Counter.table)
    (hc : refusal (addServicesChecks b) = none) (hact : ActsAs c vendor s)
    (hq : ownServices b vendor c.userId = .ok q) (habsent : s.providerServices.count q = 0)
    (ho : newService env b vendor c.userId n = .ok o)
    (hi : s.providerServices.insert o = some d) :
    AdditionEffect env c b vendor s
      ((addOffer env b vendor c.userId).run exec
        { s with counters := cs, providerServices := d }).1
      ((addOffer env b vendor c.userId).run exec
        { s with counters := cs, providerServices := d }).2 := by
  obtain ⟨cs', n', ⟨e, he, hrun⟩ | ⟨o', ho', hi', hrun⟩ | ⟨o', d', ho', hi', hrun⟩⟩ :=
    run_addOffer env b vendor c.userId { s with counters := cs, providerServices := d }
  · rw [hrun]
    exact .half hc hq habsent ho hi rfl rfl
      (Or.inl (halfway_of_newOffer_error hc hact hq habsent ho he))
      (Or.inl (not_storable_of_newOffer_error he))
  · rw [hrun]
    obtain ⟨x, hx⟩ := Collection.exists_get?_of_insert_none hi'
    rw [newOffer_id ho'] at hx
    exact .half hc hq habsent ho hi rfl rfl (Or.inr (Or.inr ⟨x, hx⟩)) (Or.inr (Or.inr ⟨x, hx⟩))
  · rw [hrun]
    exact .both hc hq habsent ho ho' hi hi' rfl

theorem effect_addNewService {q : ProviderService → Bool}
    (hc : refusal (addServicesChecks b) = none) (hact : ActsAs c vendor s)
    (hq : ownServices b vendor c.userId = .ok q) (habsent : s.providerServices.count q = 0) :
    AdditionEffect env c b vendor s ((addNewService env b vendor c.userId).run exec s).1
      ((addNewService env b vendor c.userId).run exec s).2 := by
  obtain ⟨cs, n, ⟨e, he, hrun⟩ | ⟨o, ho, hi, hrun⟩ | ⟨o, d, ho, hi, hrun⟩⟩ :=
    run_addNewService env b vendor c.userId s
  · rw [hrun]
    obtain ⟨e', he'⟩ := newService_error he
    refine .nothing rfl rfl rfl (Or.inl fun h => ?_) (Or.inl fun h => ?_)
    · obtain ⟨i, hi⟩ := h.service
      rw [he'] at hi
      cases hi
    · obtain ⟨i, hi⟩ := h.2.service
      rw [he'] at hi
      cases hi
  · rw [hrun]
    obtain ⟨x, hx⟩ := Collection.exists_get?_of_insert_none hi
    rw [newService_id ho] at hx
    exact .nothing rfl rfl rfl (Or.inr (Or.inl ⟨x, hx⟩)) (Or.inr (Or.inl ⟨x, hx⟩))
  · rw [hrun]
    exact effect_of_newService cs hc hact hq habsent ho hi

theorem effect_addOrUpdateOffer {q : ProviderService → Bool}
    (hc : refusal (addServicesChecks b) = none) (hq : ownServices b vendor c.userId = .ok q)
    (hpresent : s.providerServices.count q ≠ 0) :
    AdditionEffect env c b vendor s ((addOrUpdateOffer env b vendor c.userId).run exec s).1
      ((addOrUpdateOffer env b vendor c.userId).run exec s).2 := by
  have hnot : ¬ Halfway env c b vendor s := not_halfway_of_present hq hpresent
  rcases run_addOrUpdateOffer env b vendor c.userId s with
    ⟨e, he, hrun⟩ | ⟨q', hq', hfind, hrun⟩ | ⟨q', x, hq', hfind, ⟨e, he, hrun⟩ | ⟨d, hd, hrun⟩⟩
  · rw [hrun]
    refine .nothing rfl rfl rfl (Or.inl hnot) (Or.inl fun h => ?_)
    obtain ⟨p, hp⟩ := h.2.offers
    rw [he] at hp
    cases hp
  · rw [hrun]
    obtain ⟨cs, n, ⟨e, he, hrun'⟩ | ⟨o, ho, hi, hrun'⟩ | ⟨o, d, ho, hi, hrun'⟩⟩ :=
      run_addOffer env b vendor c.userId s
    · rw [hrun']
      exact .nothing rfl rfl rfl (Or.inl hnot)
        (Or.inl fun h => not_storable_of_newOffer_error he h.2)
    · rw [hrun']
      obtain ⟨x, hx⟩ := Collection.exists_get?_of_insert_none hi
      rw [newOffer_id ho] at hx
      exact .nothing rfl rfl rfl (Or.inl hnot) (Or.inr (Or.inr ⟨x, hx⟩))
    · rw [hrun']
      exact .offer hc hq hpresent hq' hfind ho rfl hi rfl
  · rw [hrun]
    exact .nothing rfl rfl rfl (Or.inl hnot)
      (Or.inl fun h => not_storable_of_offerData_error he h.2)
  · rw [hrun]
    exact .update hc hq hpresent hq' hfind hd rfl rfl rfl

/-- Every addition that nothing interrupts has one of the effects. -/
theorem effect_addServicesBy (env : CatalogueEnv) (c : Caller) (b : CatalogueBody)
    (vendor : Vendor) (s : Db) :
    AdditionEffect env c b vendor s ((addServicesBy env c b vendor).run exec s).1
      ((addServicesBy env c b vendor).run exec s).2 := by
  have hstop : ∀ key, key ≠ .success → ¬ (refusal (addServicesChecks b) = none ∧
      ActsAs c vendor s) → AdditionEffect env c b vendor s s (.ok { key := key }) := by
    intro key hkey hno
    refine .nothing rfl rfl (decide_eq_false hkey) (Or.inl fun h => ?_) (Or.inl fun h => ?_)
    · exact hno ⟨h.checks, h.caller⟩
    · exact hno ⟨h.2.checks, h.1⟩
  unfold addServicesBy checked
  cases hc : refusal (addServicesChecks b) with
  | some key =>
    refine hstop key ?_ fun h => by rw [hc] at h; cases h.1
    have hmem := mem_of_refusal hc
    rintro rfl
    simp [addServicesChecks] at hmem
  | none =>
    cases hp : s.providers.get? c.userId with
    | none =>
      simp only [asVendor, getProvider, run_query_bind, hp]
      refine hstop .invalidUserType (by decide) fun h => ?_
      obtain ⟨-, p, hp', -⟩ := h
      rw [hp] at hp'
      cases hp'
    | some p =>
      have hid : p.id = c.userId := ((s.providers.get?_eq_some_iff _ _).mp hp).2
      simp only [asVendor, getProvider, run_query_bind, hp]
      by_cases htype : p.userType = vendor.userType
      · rw [if_pos htype, hid]
        have hact : ActsAs c vendor s := ⟨p, hp, htype⟩
        cases hq : ownServices b vendor c.userId with
        | error e =>
          refine .nothing rfl rfl rfl (Or.inl fun h => ?_) (Or.inl fun h => ?_)
          · obtain ⟨q, hq', -⟩ := h.absent
            rw [hq] at hq'
            cases hq'
          · obtain ⟨q, hq'⟩ := h.2.services
            rw [hq] at hq'
            cases hq'
        | ok q =>
          have hcount : (getServicesFromProvider (.ok q)).run exec s =
              (s, .ok (s.providerServices.count q)) := rfl
          rw [Prog.run_bind, hcount]
          dsimp only
          by_cases habsent : s.providerServices.count q = 0
          · rw [if_pos habsent]
            exact effect_addNewService hc hact hq habsent
          · rw [if_neg habsent]
            exact effect_addOrUpdateOffer hc hq habsent
      · rw [if_neg htype]
        refine hstop .invalidUserType (by decide) fun h => ?_
        obtain ⟨-, p', hp', htype'⟩ := h
        rw [hp] at hp'
        cases hp'
        exact htype htype'

end Effects

end DoQwik
