import DoQwik.GrantRuns

/-! What a worker has after a company granted services to it, against the offers that were named. -/
namespace DoQwik
open JsValues DocStore Interleave

def isOwnOffer (company : ObjectId) (o : ProviderSubService) : Bool :=
  o.company = some company && o.userType = some companyType

/-- A company names offers of its own, and a worker that has nothing yet. The ids of the rows to
come are new and different, no offer is for an id that stands for a missing service, and both
collections have their counters. -/
structure ValidGrant (s : Db) (r : CatalogueRequest) (order : WorkerOrder) (w : ObjectId)
    (named : List ProviderSubService) : Prop where
  handler : r.handler = .addServicesbyCompanyToWorker order
  company : ActsAs r.caller .company s
  worker : ∃ text, r.body.workerData = some (.str text) ∧ ObjectId.ofString text = some w
  names : ∃ texts : List String, r.body.services = some (.arr (texts.map .str)) ∧
    texts.map ObjectId.ofString = named.map fun o => some o.id
  own : ∀ o ∈ named, o ∈ s.providerSubServices.docs ∧ isOwnOffer r.caller.userId o = true
  bare : servicesOf s w = [] ∧ copiesOf s w = []
  newServices : ∀ i < named.length, s.providerServices.get? (r.env.newId i 0) = none
  newOffers : ∀ i < named.length, ∀ k < s.providerSubServices.docs.length,
    s.providerSubServices.get? (r.env.newId i (k+1)) = none
  distinct : ∀ i < named.length, ∀ k < s.providerSubServices.docs.length+1,
    ∀ i' < named.length, ∀ k' < s.providerSubServices.docs.length+1,
      r.env.newId i k = r.env.newId i' k' → i = i' ∧ k = k'
  generated : ∀ i < named.length, ∀ o ∈ s.providerSubServices.docs,
    o.serviceData ≠ some (r.env.generated i 0)
  counters : (s.counters.get? serviceTable).isSome = true ∧
    (s.counters.get? offerTable).isSome = true

/-- The worker has exactly one row for each service of the named offers, and exactly one copy of
each offer of the company for these services. -/
def GrantsNamed (s t : Db) (company w : ObjectId) (named : List ProviderSubService) : Prop :=
  (servicesOf t w).Perm (named.map ProviderSubService.serviceData).dedup ∧
    (copiesOf t w).Perm ((s.providerSubServices.find fun o => isOwnOffer company o &&
      (named.map ProviderSubService.serviceData).contains o.serviceData).map
        ProviderSubService.copy)

def hasSubService (s : Db) (o : ProviderSubService) : Bool :=
  (o.subServices.bind s.subServices.get?).isSome

/-- Branch `j` makes its step `a` before branch `i` makes its step `b`, by the order that is given
or after it, where the branches go on one after the other. -/
def WorkerOrder.Precedes (order : WorkerOrder) (j a i b : ℕ) : Prop :=
  Prog.Precedes order.branches j a i b ∨ (j < i ∧ order.branches.count i < b)

instance (order : WorkerOrder) (j a i b : ℕ) : Decidable (order.Precedes j a i b) :=
  inferInstanceAs (Decidable (_ ∨ _))

/-- One branch of `n` adds its row, which is its sixth step, before any other counts the worker's
rows. -/
def WorkerOrder.OneAdds (order : WorkerOrder) (n : ℕ) : Prop :=
  ∃ j < n, ∀ i < n, i ≠ j → order.Precedes j 6 i (order.countStep i)

instance (order : WorkerOrder) (n : ℕ) : Decidable (order.OneAdds n) :=
  inferInstanceAs (Decidable (∃ j < n, _))

-- The second branch only looks up its offer before the first one is over.
example : WorkerOrder.OneAdds { branches := [1], branch := fun _ => ⟨false, []⟩ } 2 := by decide

-- The branches take turns.
example : ¬ WorkerOrder.OneAdds
    { branches := [0, 1, 0, 1, 0, 1], branch := fun _ => ⟨false, []⟩ } 2 := by decide

/-- One branch adds a row, the named offers are all for the service of the first row of the
collection, and among the companies' offers for it those whose sub-service is there are the
company's own. -/
def GrantsRightly (s : Db) (order : WorkerOrder) (company : ObjectId)
    (named : List ProviderSubService) : Prop :=
  named = [] ∨ (order.OneAdds named.length ∧ ∃ first sd,
    s.providerSubServices.findOne (fun _ => true) = some first ∧
    first.serviceData = some sd ∧ (∀ o ∈ named, o.serviceData = some sd) ∧
    ∀ o ∈ s.providerSubServices.docs, companyOffers (some sd) o = true →
      isOwnOffer company o = hasSubService s o)

variable {s : Db} {r : CatalogueRequest} {order : WorkerOrder} {w : ObjectId}
  {named : List ProviderSubService}

theorem run_asVendor {c : Caller} {vendor : Vendor} {p : Provider}
    {k : Provider → Action CatalogueResponse} (hp : s.providers.get? c.userId = some p)
    (htype : p.userType = vendor.userType) :
    (asVendor c vendor k).run exec s = (k p).run exec s := by
  have hget : (getProvider c.userId).run exec s = (s, .ok (s.providers.get? c.userId)) := rfl
  unfold asVendor
  rw [Prog.run_bind, hget, hp]
  dsimp only
  rw [if_pos htype]

/-- The copy of an offer for the service of the branch has what the offer has. -/
theorem copyFor_populateOffer (s : Db) {o : ProviderSubService} {sd : ObjectId}
    (h : o.serviceData = some sd) :
    (populateOffer s o).copyFor sd =
      (Option.guard (hasSubService s) o).map ProviderSubService.copy := by
  change (o.subServices.bind s.subServices.get?).map _ = _
  cases hsub : o.subServices.bind s.subServices.get? with
  | none => simp [Option.guard, hasSubService, hsub]
  | some sub =>
    obtain ⟨i, hi, hget⟩ := Option.bind_eq_some_iff.mp hsub
    have hid : sub.id = i := ((s.subServices.get?_eq_some_iff _ _).mp hget).2
    simp [Option.guard, hasSubService, ProviderSubService.copy, populateOffer, h, hi, hget, hid]

theorem filterMap_copyFor (s : Db) (sd : ObjectId) :
    ((s.providerSubServices.find (companyOffers (some sd))).map (populateOffer s)).filterMap
        (PopulatedOffer.copyFor sd) =
      ((s.providerSubServices.find (companyOffers (some sd))).filter (hasSubService s)).map
        ProviderSubService.copy := by
  rw [List.filterMap_map, ← List.filterMap_eq_filter, List.map_filterMap]
  refine List.filterMap_congr fun o ho => ?_
  have hsd := (List.mem_filter.mp ho).2
  simp only [companyOffers, Bool.and_eq_true, decide_eq_true_eq] at hsd
  exact copyFor_populateOffer s hsd.2

section Valid

variable (h : ValidGrant s r order w named)

include h

theorem ValidGrant.optional_worker : optional castObjectId r.body.workerData = .ok (some w) := by
  obtain ⟨text, htext, hw⟩ := h.worker
  have hset : castSet castObjectId (some (.str text)) = .ok (some (some w)) := by
    change (castObjectIdString text).map some = _
    rw [castObjectIdString, hw]
    rfl
  rw [htext, optional, hset]
  rfl

theorem ValidGrant.query_worker :
    castForQuery objectIdType r.body.workerData = .ok fun x => decide (x = some w) := by
  obtain ⟨text, htext, hw⟩ := h.worker
  rw [htext]
  exact castForQuery_str hw

theorem ValidGrant.checks : refusal (addToWorkerChecks r.body) = none := by
  obtain ⟨text, htext, hw⟩ := h.worker
  obtain ⟨texts, htexts, -⟩ := h.names
  simp [addToWorkerChecks, refusal, htext, htexts, truthy_of_ofString hw]
  rfl

/-- The branches run in the order that is given, and nothing is written after them. -/
theorem ValidGrant.serve :
    serveCatalogue s r = ((Prog.inParallel order.branches ((List.range named.length).map fun i =>
      serviceBranch r.env r.caller r.body i (order.branch i))).run exec s).1 := by
  obtain ⟨texts, htexts, hnames⟩ := h.names
  obtain ⟨p, hp, htype⟩ := h.company
  have hlength : (texts.map Json.str).length = named.length := by
    have hlen := congrArg List.length hnames
    simp only [List.length_map] at hlen ⊢
    exact hlen
  rw [serveCatalogue, CatalogueRequest.program, Prog.run_catchAll, CatalogueRequest.handle,
    h.handler]
  dsimp only
  rw [addServicesbyCompanyToWorker, checked, h.checks]
  dsimp only
  rw [run_asVendor hp htype, htexts]
  dsimp only
  rw [Prog.run_bind_fst exec ?_, Prog.run_joinAll_fst, hlength]
  intro ids t
  -- The list of the worker's services is only read.
  unfold listServices
  cases servicesOfWorker r.body ids with
  | error e => rfl
  | ok q => rfl

theorem ValidGrant.worker_ne {o : ProviderService} (ho : o ∈ s.providerServices.docs) :
    o.worker ≠ some w := by
  intro hworker
  have hmem : o.serviceData ∈ servicesOf s w :=
    List.mem_map_of_mem (List.mem_filter.mpr ⟨ho, by simpa using hworker⟩)
  rw [h.bare.1] at hmem
  cases hmem

omit h in
variable (s) (r) (order) (w) in
def CatalogueRequest.grant (first : ProviderSubService) : Grant where
  env := r.env
  caller := r.caller
  body := r.body
  worker := w
  first := first
  values := (s.providerSubServices.find (companyOffers first.serviceData)).map (populateOffer s)
  order := order

omit h in
def newBranches (n : ℕ) : List BranchStage := (List.range n).map fun i => ⟨i, .reading 0⟩

omit h in
theorem newServices_newBranches (G : Grant) (n : ℕ) :
    (newBranches n).flatMap (BranchStage.newServices G) =
      (List.range n).map fun i => G.env.newId i 0 := by
  rw [newBranches, List.flatMap_map]
  exact List.map_eq_flatMap.symm

omit h in
theorem mem_newOffers_newBranches {G : Grant} {n : ℕ} {id : ObjectId}
    (hid : id ∈ (newBranches n).flatMap (BranchStage.newOffers G)) :
    ∃ i < n, ∃ k < G.values.length, id = G.env.newId i (k+1) := by
  rw [newBranches, List.flatMap_map] at hid
  obtain ⟨i, hi, hmem⟩ := List.mem_flatMap.mp hid
  change id ∈ (copyStages G.env i G.first.serviceData G.values).filterMap CopyStage.newId at hmem
  rw [newIds_copyStages] at hmem
  obtain ⟨k, hk, rfl⟩ := List.mem_map.mp hmem
  exact ⟨i, List.mem_range.mp hi, k, List.mem_range.mp hk, rfl⟩

omit h in
theorem nodup_newOffers_newBranches {G : Grant} {n : ℕ}
    (hdistinct : ∀ i < n, ∀ k < G.values.length, ∀ i' < n, ∀ k' < G.values.length,
      G.env.newId i (k+1) = G.env.newId i' (k'+1) → i = i' ∧ k = k') :
    ((newBranches n).flatMap (BranchStage.newOffers G)).Nodup := by
  have hoffers (i : ℕ) : BranchStage.newOffers G ⟨i, .reading 0⟩ =
      (List.range G.values.length).map fun k => G.env.newId i (k+1) := newIds_copyStages _
  rw [newBranches, List.flatMap_map, List.nodup_flatMap]
  constructor
  · intro i hi
    rw [hoffers]
    refine List.Nodup.map_on (fun k hk k' hk' heq => ?_) List.nodup_range
    rw [List.mem_range] at hi hk hk'
    exact (hdistinct i hi k hk i hi k' hk' heq).2
  · refine List.Pairwise.imp_of_mem (fun {i i'} hi hi' hne => ?_) List.nodup_range
    rw [Function.onFun, hoffers, hoffers]
    intro id hid hid'
    obtain ⟨k, hk, rfl⟩ := List.mem_map.mp hid
    obtain ⟨k', hk', heq⟩ := List.mem_map.mp hid'
    rw [List.mem_range] at hi hi' hk hk'
    exact hne (hdistinct i hi k hk i' hi' k' hk' heq.symm).1

theorem ValidGrant.granting {first : ProviderSubService}
    (hfirst : s.providerSubServices.findOne (fun _ => true) = some first) :
    Granting (r.grant s order w first) s s (newBranches named.length) := by
  have hnone : adders (newBranches named.length) = [] := by
    simp [adders, newBranches, BranchStage.isCopying]
  have hvalues : (r.grant s order w first).values.length ≤ s.providerSubServices.docs.length := by
    change (List.map _ _).length ≤ _
    rw [List.length_map]
    exact List.length_filter_le _ _
  constructor
  · rfl
  · exact ⟨hfirst, rfl, h.counters.1, h.counters.2⟩
  · intro g hg
    obtain ⟨i, -, rfl⟩ := List.mem_map.mp hg
    trivial
  · rw [hnone]
    exact .of_eq h.bare.1
  · exact fun o ho hworker => absurd hworker (h.worker_ne ho)
  · have hrest : ((newBranches named.length).map BranchStage.rest).sum = 0 := by
      refine List.sum_eq_zero fun x hx => ?_
      obtain ⟨g, hg, rfl⟩ := List.mem_map.mp hx
      obtain ⟨i, -, rfl⟩ := List.mem_map.mp hg
      rfl
    have hbare : copiesOf s (r.grant s order w first).worker = [] := h.bare.2
    rw [hnone, hrest, hbare]
    rfl
  · intro id hid
    rw [newServices_newBranches] at hid
    obtain ⟨i, hi, rfl⟩ := List.mem_map.mp hid
    exact h.newServices i (List.mem_range.mp hi)
  · rw [newServices_newBranches]
    refine List.Nodup.map_on (fun i hi i' hi' heq => ?_) List.nodup_range
    rw [List.mem_range] at hi hi'
    exact (h.distinct i hi 0 (Nat.succ_pos _) i' hi' 0 (Nat.succ_pos _) heq).1
  · intro id hid
    obtain ⟨i, hi, k, hk, rfl⟩ := mem_newOffers_newBranches hid
    exact h.newOffers i hi k (hk.trans_le hvalues)
  · refine nodup_newOffers_newBranches fun i hi k hk i' hi' k' hk' heq => ?_
    obtain ⟨rfl, hkk⟩ := h.distinct i hi (k+1) (Nat.succ_lt_succ (hk.trans_le hvalues)) i' hi'
      (k'+1) (Nat.succ_lt_succ (hk'.trans_le hvalues)) heq
    exact ⟨rfl, Nat.succ.inj hkk⟩

theorem ValidGrant.start {first : ProviderSubService}
    (hfirst : s.providerSubServices.findOne (fun _ => true) = some first) :
    GrantRun (r.grant s order w first) s named.length [] s (newBranches named.length) := by
  refine ⟨h.granting hfirst, ?_, fun g hg => ?_⟩
  · rw [newBranches, List.map_map]
    exact List.map_id _
  · obtain ⟨i, -, rfl⟩ := List.mem_map.mp hg
    refine ⟨rfl, ?_⟩
    change 0 < order.countStep i
    unfold WorkerOrder.countStep
    split <;> decide

/-- The branches come to their ends, and of two of their steps the order says which came first. -/
theorem ValidGrant.run {first : ProviderSubService}
    (hfirst : s.providerSubServices.findOne (fun _ => true) = some first) :
    ∃ trace gs, GrantRun (r.grant s order w first) s named.length trace (serveCatalogue s r) gs ∧
      (∀ g ∈ gs, g.ended) ∧
      ∀ j < named.length, ∀ i < named.length, i ≠ j →
        (Prog.Precedes trace j 6 i (order.countStep i) ↔
          order.Precedes j 6 i (order.countStep i)) := by
  have htracks : List.Forall₂ (GrantTracked (r.grant s order w first)) (newBranches named.length)
      ((List.range named.length).map fun i =>
        serviceBranch r.env r.caller r.body i (order.branch i)) := by
    rw [newBranches, List.forall₂_map_left_iff, List.forall₂_map_right_iff]
    exact List.forall₂_same.mpr fun i _ =>
      grantTracked_serviceBranch (G := r.grant s order w first) h.optional_worker h.query_worker
  obtain ⟨rest, gs, hsorted, hcount, hrun, hended⟩ :=
    (traceInvariant_grantRun (r.grant s order w first) s named.length _).run_inParallel 6
      order.branches htracks (h.start hfirst)
  rw [List.length_map, List.length_range] at hcount
  rw [List.nil_append, ← h.serve] at hrun
  refine ⟨order.branches ++ rest, gs, hrun, fun g hg => ended_of_over (hended g hg), ?_⟩
  intro j hj i hi hne
  have hstep : order.countStep i ≤ 6 := (order.countStep_le i).trans (by decide)
  exact Prog.precedes_append_iff hsorted hne.symm (hcount j hj) (hstep.trans (hcount i hi))

/-- The first row of all names no service: the worker has a row for an id that was made up. -/
theorem ValidGrant.mem_generated (hnamed : named ≠ []) {first : ProviderSubService}
    (hfirst : s.providerSubServices.findOne (fun _ => true) = some first)
    (hnone : first.serviceData = none) :
    some (r.env.generated 0 0) ∈ servicesOf (serveCatalogue s r) w := by
  obtain ⟨trace, gs, hrun, hended, -⟩ := h.run hfirst
  have hadded := hrun.mem_adders_of_none hended hnone (List.length_pos_iff.mpr hnamed)
  have hrow : some (first.serviceData.getD (r.env.generated 0 0)) ∈
      servicesOf (serveCatalogue s r) w :=
    hrun.granting.services.mem_iff.mpr (List.mem_map_of_mem hadded)
  rwa [hnone, Option.getD_none] at hrow

/-- The first row of all names a service: each branch that adds a row adds one for this service,
and a copy of each offer of any company for it whose sub-service is there. -/
theorem ValidGrant.rows_perm (hnamed : named ≠ []) {first : ProviderSubService} {sd : ObjectId}
    (hfirst : s.providerSubServices.findOne (fun _ => true) = some first)
    (hsd : first.serviceData = some sd) :
    ∃ added : List ℕ, added ≠ [] ∧ ((∃ j, added = [j]) ↔ order.OneAdds named.length) ∧
      (servicesOf (serveCatalogue s r) w).Perm (added.map fun _ => some sd) ∧
      (copiesOf (serveCatalogue s r) w : Multiset OfferCopy) = (added.map fun _ =>
        ((((s.providerSubServices.find (companyOffers (some sd))).filter (hasSubService s)).map
          ProviderSubService.copy : List OfferCopy) : Multiset OfferCopy)).sum := by
  obtain ⟨trace, gs, hrun, hended, horder⟩ := h.run hfirst
  have hsome : first.serviceData.isSome = true := by rw [hsd]; rfl
  refine ⟨adders gs, hrun.adders_ne_nil hended (List.length_pos_iff.mpr hnamed), ?_, ?_, ?_⟩
  · rw [hrun.adders_eq_singleton_iff hended hsome]
    refine exists_congr fun j => and_congr_right fun hj => ?_
    exact forall₂_congr fun i hi => forall_congr' fun hne => horder j hj i hi hne
  · have hservices := hrun.granting.services
    change (servicesOf _ w).Perm ((adders gs).map fun i =>
      some (first.serviceData.getD (r.env.generated i 0))) at hservices
    rwa [hsd] at hservices
  · have hcopies (i : ℕ) : (r.grant s order w first).copies i =
        ((((s.providerSubServices.find (companyOffers (some sd))).filter (hasSubService s)).map
          ProviderSubService.copy : List OfferCopy) : Multiset OfferCopy) := by
      rw [← filterMap_copyFor]
      change ((copyStages r.env i first.serviceData ((s.providerSubServices.find
        (companyOffers first.serviceData)).map (populateOffer s))).map CopyStage.rest).sum = _
      rw [hsd, sum_copyStages]
    rw [← funext hcopies]
    exact hrun.copies_eq hended

end Valid

/-- The named services are one row for the service if they are all the same. -/
theorem perm_dedup_iff {sds : List (Option ObjectId)} (hne : sds ≠ []) (sd : ObjectId) :
    [some sd].Perm sds.dedup ↔ ∀ x ∈ sds, x = some sd := by
  rw [List.perm_ext_iff_of_nodup (List.nodup_singleton _) (List.nodup_dedup _)]
  constructor
  · intro h x hx
    exact List.mem_singleton.mp ((h x).mpr (List.mem_dedup.mpr hx))
  · intro h x
    rw [List.mem_singleton, List.mem_dedup]
    constructor
    · rintro rfl
      obtain ⟨y, hy⟩ := List.exists_mem_of_ne_nil sds hne
      exact h y hy ▸ hy
    · exact h x

/-- Two selections show the same only if they are the same, when the first can be told by what is
shown. -/
theorem eq_of_perm_map_filter {offers : List ProviderSubService} {s : Db}
    {q : ProviderSubService → Bool}
    (h : ((offers.filter (hasSubService s)).map ProviderSubService.copy).Perm
      ((offers.filter q).map ProviderSubService.copy)) :
    ∀ o ∈ offers, q o = hasSubService s o := by
  have hhas : ∀ o ∈ offers, q o = true → hasSubService s o = true := by
    intro o ho hq
    have hmem := h.mem_iff.mpr (List.mem_map_of_mem (List.mem_filter.mpr ⟨ho, hq⟩))
    obtain ⟨o', ho', hcopy⟩ := List.mem_map.mp hmem
    have hsub : o'.subServices = o.subServices := congrArg (fun x => x.2.1) hcopy
    rw [hasSubService, ← hsub]
    exact (List.mem_filter.mp ho').2
  have hnested : offers.filter q = (offers.filter (hasSubService s)).filter q := by
    rw [List.filter_filter]
    refine List.filter_congr fun o ho => ?_
    cases hq : q o with
    | false => rfl
    | true => rw [hhas o ho hq]; rfl
  have hlength : (offers.filter q).length = (offers.filter (hasSubService s)).length := by
    simpa using h.length_eq.symm
  have hsublist : (offers.filter q).Sublist (offers.filter (hasSubService s)) := by
    rw [hnested]
    exact List.filter_sublist
  have hsame := hsublist.eq_of_length hlength
  intro o ho
  rw [Bool.eq_iff_iff]
  refine ⟨hhas o ho, fun hhaso => ?_⟩
  have hmem : o ∈ offers.filter q := hsame ▸ List.mem_filter.mpr ⟨ho, hhaso⟩
  exact (List.mem_filter.mp hmem).2

/-- The offers of the company for the service of all the named ones. -/
theorem find_ownOffers (s : Db) (company : ObjectId) {named : List ProviderSubService}
    (hnamed : named ≠ []) {sd : ObjectId} (hall : ∀ o ∈ named, o.serviceData = some sd) :
    (s.providerSubServices.find fun o => isOwnOffer company o &&
      (named.map ProviderSubService.serviceData).contains o.serviceData) =
      (s.providerSubServices.find (companyOffers (some sd))).filter (isOwnOffer company) := by
  obtain ⟨o₀, ho₀⟩ := List.exists_mem_of_ne_nil named hnamed
  have hmem (x : Option ObjectId) :
      (named.map ProviderSubService.serviceData).contains x = true ↔ x = some sd := by
    rw [List.contains_iff_mem, List.mem_map]
    constructor
    · rintro ⟨o, ho, rfl⟩
      exact hall o ho
    · rintro rfl
      exact ⟨o₀, ho₀, hall o₀ ho₀⟩
  rw [Collection.find, Collection.find, List.filter_filter]
  refine List.filter_congr fun o _ => ?_
  rw [Bool.eq_iff_iff]
  simp only [hmem, isOwnOffer, companyOffers, Bool.and_eq_true, decide_eq_true_eq]
  tauto

theorem grantsRightly_iff {company : ObjectId} {first : ProviderSubService} (hnamed : named ≠ [])
    (hfirst : s.providerSubServices.findOne (fun _ => true) = some first) :
    GrantsRightly s order company named ↔ order.OneAdds named.length ∧
      ∃ sd, first.serviceData = some sd ∧ (∀ o ∈ named, o.serviceData = some sd) ∧
        ∀ o ∈ s.providerSubServices.docs, companyOffers (some sd) o = true →
          isOwnOffer company o = hasSubService s o := by
  constructor
  · rintro (hnil | ⟨hone, first', sd, hfirst', hrest⟩)
    · exact absurd hnil hnamed
    · rw [hfirst] at hfirst'
      cases hfirst'
      exact ⟨hone, sd, hrest⟩
  · rintro ⟨hone, sd, hrest⟩
    exact Or.inr ⟨hone, first, sd, hfirst, hrest⟩

/-- What the worker gets is what was named if one branch adds a row, the service of the first row
of all is the one of all the named offers, and the offers that are copied are the company's own. -/
theorem ValidGrant.grantsNamed_iff (h : ValidGrant s r order w named) (hnamed : named ≠ [])
    {first : ProviderSubService} {sd : ObjectId}
    (hfirst : s.providerSubServices.findOne (fun _ => true) = some first)
    (hsd : first.serviceData = some sd) :
    GrantsNamed s (serveCatalogue s r) r.caller.userId w named ↔
      order.OneAdds named.length ∧ (∀ o ∈ named, o.serviceData = some sd) ∧
      ∀ o ∈ s.providerSubServices.docs, companyOffers (some sd) o = true →
        isOwnOffer r.caller.userId o = hasSubService s o := by
  obtain ⟨added, hadded, hone, hservices, hcopies⟩ := h.rows_perm hnamed hfirst hsd
  have hmap : named.map ProviderSubService.serviceData ≠ [] := by simpa using hnamed
  -- With more than one row for the service, the rows are not those of different services.
  have hsingle (hrows : (servicesOf (serveCatalogue s r) w).Perm
      (named.map ProviderSubService.serviceData).dedup) : ∃ j, added = [j] := by
    have hnodup := (hservices.symm.trans hrows).nodup_iff.mpr (List.nodup_dedup _)
    cases added with
    | nil => exact absurd rfl hadded
    | cons j rest =>
      cases rest with
      | nil => exact ⟨j, rfl⟩
      | cons j' rest => exact absurd List.mem_cons_self hnodup.notMem
  have hcopied (hj : ∃ j, added = [j]) : (copiesOf (serveCatalogue s r) w).Perm
      (((s.providerSubServices.find (companyOffers (some sd))).filter (hasSubService s)).map
        ProviderSubService.copy) := by
    obtain ⟨j, rfl⟩ := hj
    rw [List.map_singleton, List.sum_singleton] at hcopies
    exact Multiset.coe_eq_coe.mp hcopies
  have hrow (hj : ∃ j, added = [j]) : (servicesOf (serveCatalogue s r) w).Perm [some sd] := by
    obtain ⟨j, rfl⟩ := hj
    exact hservices
  constructor
  · rintro ⟨hrows, hown⟩
    have hj := hsingle hrows
    have hall : ∀ o ∈ named, o.serviceData = some sd := fun o ho =>
      (perm_dedup_iff hmap sd).mp ((hrow hj).symm.trans hrows) _ (List.mem_map_of_mem ho)
    rw [find_ownOffers s _ hnamed hall] at hown
    have hsame := eq_of_perm_map_filter ((hcopied hj).symm.trans hown)
    exact ⟨hone.mp hj, hall, fun o ho hoffer => hsame o (List.mem_filter.mpr ⟨ho, hoffer⟩)⟩
  · rintro ⟨horder, hall, hsame⟩
    have hj := hone.mpr horder
    refine ⟨(hrow hj).trans ((perm_dedup_iff hmap sd).mpr fun x hx => ?_), ?_⟩
    · obtain ⟨o, ho, rfl⟩ := List.mem_map.mp hx
      exact hall o ho
    · rw [find_ownOffers s _ hnamed hall, List.filter_congr (q := hasSubService s) fun o ho => ?_]
      · exact hcopied hj
      · obtain ⟨hdoc, hoffer⟩ := List.mem_filter.mp ho
        exact hsame o hdoc hoffer

/-- A grant gives the worker what was named if and only if one branch adds its row before any
other counts, it names offers of one service, the one of the first row of all, and no other
company has an offer of it with a sub-service that is there. -/
theorem grants_named_iff (h : ValidGrant s r order w named) :
    GrantsNamed s (serveCatalogue s r) r.caller.userId w named ↔
      GrantsRightly s order r.caller.userId named := by
  by_cases hnamed : named = []
  · subst hnamed
    have hserve : serveCatalogue s r = s := by
      rw [h.serve, List.length_nil, List.range_zero, List.map_nil, Prog.run_inParallel_nil]
    have hnothing : GrantsNamed s s r.caller.userId w [] := by
      refine ⟨by rw [h.bare.1]; rfl, ?_⟩
      rw [h.bare.2]
      simp [Collection.find]
    rw [hserve]
    exact iff_of_true hnothing (Or.inl rfl)
  · obtain ⟨o₀, ho₀⟩ := List.exists_mem_of_ne_nil named hnamed
    obtain ⟨first, hfirst⟩ : ∃ first, s.providerSubServices.findOne (fun _ => true) = some first :=
      Option.isSome_iff_exists.mp (List.find?_isSome.mpr ⟨o₀, (h.own o₀ ho₀).1, rfl⟩)
    rw [grantsRightly_iff hnamed hfirst]
    cases hsd : first.serviceData with
    | none =>
      refine iff_of_false ?_ (by rintro ⟨-, sd, ⟨⟩, -⟩)
      rintro ⟨hservices, -⟩
      -- The worker has a row for a generated id, which no named offer is for.
      have hmem := hservices.mem_iff.mp (h.mem_generated hnamed hfirst hsd)
      obtain ⟨o, ho, hgenerated⟩ := List.mem_map.mp (List.mem_dedup.mp hmem)
      exact h.generated 0 (List.length_pos_iff.mpr hnamed) o (h.own o ho).1 hgenerated
    | some sd =>
      rw [h.grantsNamed_iff hnamed hfirst hsd]
      constructor
      · rintro ⟨hone, hrest⟩
        exact ⟨hone, sd, rfl, hrest⟩
      · rintro ⟨hone, sd', ⟨⟩, hrest⟩
        exact ⟨hone, hrest⟩

def sampleOrder : WorkerOrder := { branches := [0, 1, 0, 1, 0, 1], branch := fun _ => ⟨false, []⟩ }

theorem actsAs_company {s : Db} (h : s.providers = stockedDb.providers) :
    ActsAs company .company s := by
  refine ⟨sampleProvider "company---01" companyType none, ?_, rfl⟩
  rw [h, Collection.get?_eq_some_iff]
  exact ⟨List.mem_cons_self, rfl⟩

theorem sampleIds_distinct {n : ℕ} (hn : n ≤ 3) : ∀ i < 1, ∀ k < n, ∀ i' < 1, ∀ k' < n,
    (sampleCatalogueEnv 1).newId i k = (sampleCatalogueEnv 1).newId i' k' → i = i' ∧ k = k' := by
  have hids : ∀ k < 3, ∀ k' < 3,
      (sampleCatalogueEnv 1).newId 0 k = (sampleCatalogueEnv 1).newId 0 k' → k = k' := by
    decide +kernel
  intro i hi k hk i' hi' k' hk' heq
  obtain rfl := Nat.lt_one_iff.mp hi
  obtain rfl := Nat.lt_one_iff.mp hi'
  exact ⟨rfl, hids k (hk.trans_le hn) k' (hk'.trans_le hn) heq⟩

/-- The only company grants its offer to its worker. -/
theorem grants_named_alone :
    ValidGrant stockedDb (sampleToWorker ["offer-----01"]) sampleOrder (idOf "worker----01")
        [sampleOffer] ∧
      GrantsNamed stockedDb (serveCatalogue stockedDb (sampleToWorker ["offer-----01"]))
        company.userId (idOf "worker----01") [sampleOffer] := by
  have hvalid : ValidGrant stockedDb (sampleToWorker ["offer-----01"]) sampleOrder
      (idOf "worker----01") [sampleOffer] := by
    refine ⟨rfl, actsAs_company rfl, ⟨"worker----01", rfl, by decide +kernel⟩,
      ⟨["offer-----01"], rfl, by decide +kernel⟩, ?_, by decide +kernel, by decide +kernel,
      by decide +kernel, sampleIds_distinct (by decide), by decide +kernel, by decide +kernel⟩
    rintro o (_ | ⟨_, ⟨⟩⟩)
    exact ⟨List.mem_cons_self, by decide +kernel⟩
  refine ⟨hvalid, (grants_named_iff hvalid).mpr (Or.inr ⟨by decide, ?_⟩)⟩
  refine ⟨sampleOffer, idOf "service---01", rfl, rfl, ?_, ?_⟩
  · rintro o (_ | ⟨_, ⟨⟩⟩)
    rfl
  · rintro o (_ | ⟨_, ⟨⟩⟩)
    decide +kernel

def rivalOffer : ProviderSubService :=
  { sampleOffer with
    id := idOf "offer-----02"
    company := some (idOf "company---02")
    serviceData := some (idOf "service---02") }

def rivalFirstDb : Db :=
  { stockedDb with
    providerSubServices := ⟨[rivalOffer, sampleOffer], by decide +kernel⟩ }

/-- The worker gets the service and the offer of the other company, and not what was named. -/
theorem rival_offer_granted :
    ValidGrant rivalFirstDb (sampleToWorker ["offer-----01"]) sampleOrder (idOf "worker----01")
        [sampleOffer] ∧
      servicesOf (serveCatalogue rivalFirstDb (sampleToWorker ["offer-----01"]))
        (idOf "worker----01") = [rivalOffer.serviceData] ∧
      copiesOf (serveCatalogue rivalFirstDb (sampleToWorker ["offer-----01"]))
        (idOf "worker----01") = [rivalOffer.copy] ∧
      ¬ GrantsNamed rivalFirstDb (serveCatalogue rivalFirstDb (sampleToWorker ["offer-----01"]))
        company.userId (idOf "worker----01") [sampleOffer] := by
  have hservices : servicesOf (serveCatalogue rivalFirstDb (sampleToWorker ["offer-----01"]))
      (idOf "worker----01") = [rivalOffer.serviceData] := by decide +kernel
  refine ⟨?_, hservices, by decide +kernel, ?_⟩
  · refine ⟨rfl, actsAs_company rfl, ⟨"worker----01", rfl, by decide +kernel⟩,
      ⟨["offer-----01"], rfl, by decide +kernel⟩, ?_, by decide +kernel, by decide +kernel,
      by decide +kernel, sampleIds_distinct (by decide), by decide +kernel, by decide +kernel⟩
    rintro o (_ | ⟨_, ⟨⟩⟩)
    exact ⟨List.mem_cons_of_mem _ List.mem_cons_self, by decide +kernel⟩
  · rintro ⟨hrows, -⟩
    rw [hservices] at hrows
    exact absurd (hrows.mem_iff.mp List.mem_cons_self) (by decide +kernel)

end DoQwik
