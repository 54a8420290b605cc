import DoQwik.CatalogueRaces
import DoQwik.Completions
import DoQwik.JobLists
import DoQwik.ProviderController

/-! The lists of providers that the users see. Each is put together from queries that run at the
same time, and every query adds what it found when it is through. -/
namespace DoQwik
open JsValues DocStore Interleave

section Views

/-- The paths of an account that `getProviderList` populates. -/
structure AccountCard where
  id : ObjectId
  fullName : String
  email : String
  phone : Option JsNum
  country : String
  state : String
  city : String
  landMark : String
  postalCode : String
  profilePic : Option String
  address1 : Option String
  address2 : Option String
  status : String

def Provider.accountCard (p : Provider) : AccountCard :=
  ⟨p.id, p.fullName, p.email, p.phone, p.country, p.state, p.city, p.landMark, p.postalCode,
    p.profilePic, p.address1, p.address2, p.status⟩

/-- The paths of a service in the list; `tags` and `isCategory` are no paths of its schema. -/
structure ServiceCard where
  id : ObjectId
  serviceName : String
  status : String

/-- A row of `dqw_provider_services` as `getProviderList` gives it. -/
structure PopulatedRow where
  id : ObjectId
  individual : Option AccountCard
  company : Option AccountCard
  userType : Option String
  serviceData : Option ServiceCard

def populateRow (s : Db) (o : ProviderService) : PopulatedRow where
  id := o.id
  individual := (o.individual.bind s.providers.get?).map Provider.accountCard
  company := (o.company.bind s.providers.get?).map Provider.accountCard
  userType := o.userType
  serviceData := (o.serviceData.bind s.services.get?).map fun x =>
    ⟨x.id, x.serviceName, (s.serviceDetails x.id).status⟩

/-- An entry of `user_list`. The account stands under the name of the vendor's field. -/
structure ListedProvider where
  id : ObjectId
  vendor : Vendor
  account : AccountCard
  userType : String
  serviceData : ServiceCard
  addedSubService : List PopulatedSubService

/-- The paths of a provider that `getServiceProviderList` selects. -/
structure ProviderSummary where
  id : ObjectId
  fullName : String
  profilePic : Option String
  phone : Option JsNum
  status : String
  userType : String
  country : String
  state : String
  city : String
  landMark : String
  postalCode : String
  address1 : Option String
  address2 : Option String

def Provider.summary (p : Provider) : ProviderSummary :=
  ⟨p.id, p.fullName, p.profilePic, p.phone, p.status, p.userType, p.country, p.state, p.city,
    p.landMark, p.postalCode, p.address1, p.address2⟩

/-- An entry of `getServiceProviderList`. -/
structure SubServiceProviders where
  id : ObjectId
  serviceName : String
  providerList : List ProviderSummary

structure PopularService extends Service where
  popular : Option String

end Views

inductive ListingResult where
  | providers (list : List ListedProvider)
  | serviceProviders (list : List SubServiceProviders)
      (popularService : Option (List PopularService))
  | error (e : Thrown)

abbrev ListingResponse := Response ListingResult

def listingError (e : Thrown) : ListingResponse :=
  { key := .errorServerError, result := some (.error e) }

section UserList

/-- The body of `user_list`, with what the driver reads off `skip` and `limit`. -/
structure UserListBody where
  services : Option Json := none
  window : Except Thrown (ℕ × Option ℕ) := .ok (0, none)

def listedRows (services : Option Json) : Except Thrown (ProviderService → Bool) :=
  (castForQuery objectIdType services).map fun p o =>
    p o.serviceData && o.userType ≠ some workerType

def getProviderList (condition : Except Thrown (ProviderService → Bool))
    (window : Except Thrown (ℕ × Option ℕ)) : Action (List PopulatedRow) := do
  let w ← cast window
  let p ← cast condition
  query fun s => (page w (s.providerServices.find p)).map (populateRow s)

/-- `subServiceList`: the vendor's offers for a service. -/
def vendorSubServices (vendor : Vendor) (service owner : ObjectId) :
    Action (List PopulatedSubService) :=
  query fun s =>
    (s.providerSubServices.find fun o => o.serviceData = some service &&
      o.userType = some vendor.userType && vendor.field o.company o.individual = some owner).map
      fun o => ⟨o, o.serviceData.bind s.services.get?,
        (o.subServices.bind s.subServices.get?).map SubService.view⟩

def Vendor.account (value : PopulatedRow) : Vendor → Option AccountCard
  | .company => value.company
  | .individual => value.individual

/-- One row of the list, if its vendor has offers. A missing document has no `_id`. -/
def vendorEntry (vendor : Vendor) (value : PopulatedRow) : Action (Option ListedProvider) :=
  match value.serviceData, vendor.account value with
  | some service, some account => do
    let subService ← vendorSubServices vendor service.id account.id
    if subService.length > 0 then
      pure (some ⟨value.id, vendor, account, vendor.userType, service, subService⟩)
    else pure none
  | _, _ => throwing .typeError

def listedEntry (value : PopulatedRow) : Action (Option ListedProvider) :=
  if value.userType = some individualType then vendorEntry .individual value
  else if value.userType = some companyType then vendorEntry .company value
  else pure none

/-- `user_list`; `order` is the order in which its queries are answered. -/
def userList (b : UserListBody) (order : List ℕ) : Action ListingResponse :=
  Prog.catchAll listingError do
    let providerData ← getProviderList (listedRows b.services) b.window
    let finalProviderList ← Prog.collect order (providerData.map listedEntry)
    reply .success (some (.providers finalProviderList.reduceOption))

def answerUserList (s : Db) (b : UserListBody) (order : List ℕ) : Except Thrown ListingResponse :=
  ((userList b order).run exec s).2

end UserList

section ServiceProviders

/-- The active services with their sub-services. -/
def getServiceDataById1 (serviceId : Option Json) : Action (List (Service × List SubService)) := do
  let p ← cast (castForQuery objectIdType serviceId)
  query fun s =>
    (s.services.find fun x => (s.serviceDetails x.id).status = "A" && p (some x.id)).map fun x =>
      (x, (s.serviceDetails x.id).subServices.filterMap s.subServices.get?)

def getproviderSubServices (item : SubService) : Action (List ProviderSubService) :=
  query fun s => s.providerSubServices.find fun o =>
    o.serviceData = item.serviceOid && o.userType ≠ some workerType && o.subServices = some item.id

/-- The active account of an offer. -/
def offerProvider (value : ProviderSubService) : Action (Option ProviderSummary) :=
  query fun s =>
    ((s.providers.find fun p => p.status = "A" && p.userType ≠ workerType &&
      some p.id = value.individual.or value.company).map Provider.summary).head?

/-- The providers of one sub-service, in the order in which their accounts are found. -/
def subServiceProviders (order : List ℕ) (item : SubService) : Action SubServiceProviders := do
  let providerData ← getproviderSubServices item
  let finalProviderList ← Prog.collect order (providerData.map offerProvider)
  pure ⟨item.id, item.subServiceName, finalProviderList.reduceOption⟩

/-- The order of the database on numbers: a missing one first, and then `NaN`. -/
def sortsBefore : Option JsNum → Option JsNum → Bool
  | none, _ => true
  | some _, none => false
  | some .nan, some _ => true
  | some _, some .nan => false
  | some x, some y => JsNum.le x y

def getPopularServices : Action (List PopularService) :=
  query fun s =>
    ((s.services.find fun x => (s.serviceDetails x.id).status = "A" &&
      (s.serviceDetails x.id).popular = some "Yes").insertionSort fun x y =>
        sortsBefore (s.serviceDetails y.id).orderSeq (s.serviceDetails x.id).orderSeq).map fun x =>
      { x with popular := (s.serviceDetails x.id).popular }

/-- The order in which the queries are answered: over the sub-services, and inside of each. -/
structure ListingOrder where
  items : List ℕ := []
  providers : ℕ → List ℕ := fun _ => []

def getServiceProviderList (serviceId : Option Json) (order : ListingOrder) :
    Action ListingResponse :=
  Prog.catchAll listingError do
    let services ← getServiceDataById1 serviceId
    match services with
    -- `services[0]` is undefined.
    | [] => throwing .typeError
    | (_, subServices) :: _ =>
      if subServices.length > 0 then do
        let serviceProviderList ← Prog.collect order.items
          (subServices.mapIdx fun i item => subServiceProviders (order.providers i) item)
        let popularService ← getPopularServices
        reply .success (some (.serviceProviders serviceProviderList.reverse (some popularService)))
      else reply .success (some (.serviceProviders [] none))

def answerServiceProviderList (s : Db) (serviceId : Option Json) (order : ListingOrder) :
    Except Thrown ListingResponse :=
  ((getServiceProviderList serviceId order).run exec s).2

end ServiceProviders

section Conditions

/-- The rows that a request for `user_list` selects. -/
def selectedRows (s : Db) (b : UserListBody) : Except Thrown (List ProviderService) := do
  let w ← b.window
  let p ← listedRows b.services
  pure (page w (s.providerServices.find p))

def ProviderService.vendor (o : ProviderService) : Option Vendor :=
  if o.userType = some individualType then some .individual
  else if o.userType = some companyType then some .company
  else none

/-- The service or the account of a vendor's row is gone. -/
def ProviderService.isBroken (s : Db) (o : ProviderService) : Bool :=
  o.vendor.any fun vendor => (o.serviceData.bind s.services.get?).isNone ||
    ((vendor.field o.company o.individual).bind s.providers.get?).isNone

def ProviderService.hasOffer (s : Db) (o : ProviderService) : Bool :=
  o.vendor.any fun vendor => s.providerSubServices.docs.any fun x =>
    x.serviceData = o.serviceData && x.userType = some vendor.userType &&
      vendor.field x.company x.individual = vendor.field o.company o.individual

/-- Of the rows that are selected at most one is of a vendor with an offer, or one of them refers
to what is gone. -/
def SingleListing (s : Db) (b : UserListBody) : Prop :=
  ∀ rows, selectedRows s b = .ok rows →
    (∃ o ∈ rows, o.isBroken s = true) ∨ rows.countP (ProviderService.hasOffer s) ≤ 1

/-- The service whose providers are listed: the first active one that the request selects. -/
def chosenService (s : Db) (serviceId : Option Json) : Except Thrown (Option Service) :=
  (castForQuery objectIdType serviceId).map fun p =>
    s.services.findOne fun x => (s.serviceDetails x.id).status = "A" && p (some x.id)

def Service.items (s : Db) (x : Service) : List SubService :=
  (s.serviceDetails x.id).subServices.filterMap s.subServices.get?

/-- An active account that has an offer of a sub-service. -/
def Provider.Offers (s : Db) (item : SubService) (p : Provider) : Prop :=
  p.status = "A" ∧ p.userType ≠ workerType ∧ ∃ o ∈ s.providerSubServices.docs,
    (o.serviceData = item.serviceOid ∧ o.userType ≠ some workerType ∧
      o.subServices = some item.id) ∧ o.individual.or o.company = some p.id

def SingleProvider (s : Db) (item : SubService) : Prop :=
  ∀ p ∈ s.providers.docs, ∀ p' ∈ s.providers.docs, p.Offers s item → p'.Offers s item → p = p'

/-- The service that is listed has one sub-service, and the sub-service one provider, at most. -/
def SingleProviders (s : Db) (serviceId : Option Json) : Prop :=
  ∀ x, chosenService s serviceId = .ok (some x) →
    Uniform (x.items s) ∧ ∀ item ∈ x.items s, SingleProvider s item

end Conditions

section Reading

variable {s : Db}

theorem reads_query {β : Type} (f : Db → β) : Prog.Reads exec s (query f) (.ok (f s)) := ⟨rfl, rfl⟩

/-- A vendor's row is read to the exception of a missing document, or to an entry under its id if
the vendor has an offer, or to none. -/
theorem reads_vendorEntry {o : ProviderService} {vendor : Vendor}
    (hvendor : o.vendor = some vendor) :
    (o.isBroken s = true ∧
        Prog.Reads exec s (vendorEntry vendor (populateRow s o)) (.error .typeError)) ∨
      (o.isBroken s = false ∧ ∃ a,
        Prog.Reads exec s (vendorEntry vendor (populateRow s o)) (.ok a) ∧
        a.isSome = o.hasOffer s ∧ ∀ entry ∈ a, entry.id = o.id) := by
  have hbroken : o.isBroken s = ((o.serviceData.bind s.services.get?).isNone ||
      ((vendor.field o.company o.individual).bind s.providers.get?).isNone) := by
    rw [ProviderService.isBroken, hvendor]
    rfl
  have hservice : (populateRow s o).serviceData = (o.serviceData.bind s.services.get?).map
      fun x => ⟨x.id, x.serviceName, (s.serviceDetails x.id).status⟩ := rfl
  have haccount : vendor.account (populateRow s o) =
      ((vendor.field o.company o.individual).bind s.providers.get?).map Provider.accountCard := by
    cases vendor <;> rfl
  unfold vendorEntry
  rw [hservice, haccount, hbroken]
  cases hx : o.serviceData.bind s.services.get? with
  | none => exact Or.inl ⟨rfl, rfl⟩
  | some x =>
    cases hp : (vendor.field o.company o.individual).bind s.providers.get? with
    | none => exact Or.inl ⟨rfl, rfl⟩
    | some p =>
      refine Or.inr ⟨rfl, ?_⟩
      obtain ⟨id, hid, hget⟩ := Option.bind_eq_some_iff.mp hx
      obtain ⟨id', hid', hget'⟩ := Option.bind_eq_some_iff.mp hp
      have hxid : o.serviceData = some x.id := by
        rw [hid, ((s.services.get?_eq_some_iff _ _).mp hget).2]
      have hpid : vendor.field o.company o.individual = some p.id := by
        rw [hid', ((s.providers.get?_eq_some_iff _ _).mp hget').2]
      obtain ⟨subService, hsub, hlen⟩ : ∃ subService, Prog.Reads exec s
          (vendorSubServices vendor x.id p.id) (.ok subService) ∧
          (subService.length > 0 ↔ o.hasOffer s = true) := by
        refine ⟨_, reads_query _, ?_⟩
        rw [List.length_map, gt_iff_lt, Collection.find, ← List.countP_eq_length_filter,
          List.countP_pos_iff, ProviderService.hasOffer, hvendor, Option.any_some, hxid, hpid,
          List.any_eq_true]
      by_cases hpos : subService.length > 0
      · refine ⟨some ⟨o.id, vendor, p.accountCard, vendor.userType,
          ⟨x.id, x.serviceName, (s.serviceDetails x.id).status⟩, subService⟩,
          hsub.bind ?_, (hlen.mp hpos).symm, by rintro _ ⟨⟩; rfl⟩
        rw [if_pos hpos]
        rfl
      · refine ⟨none, hsub.bind ?_, ?_, by rintro _ ⟨⟩⟩
        · rw [if_neg hpos]
          rfl
        · rw [eq_comm, Option.isSome_none, Bool.eq_false_iff]
          exact fun h => hpos (hlen.mpr h)

/-- A row of another kind is read to no entry. -/
theorem reads_listedEntry (o : ProviderService) :
    (o.isBroken s = true ∧
        Prog.Reads exec s (listedEntry (populateRow s o)) (.error .typeError)) ∨
      (o.isBroken s = false ∧ ∃ a, Prog.Reads exec s (listedEntry (populateRow s o)) (.ok a) ∧
        a.isSome = o.hasOffer s ∧ ∀ entry ∈ a, entry.id = o.id) := by
  have htype : (populateRow s o).userType = o.userType := rfl
  unfold listedEntry
  rw [htype]
  by_cases hindividual : o.userType = some individualType
  · rw [if_pos hindividual]
    exact reads_vendorEntry (by rw [ProviderService.vendor, if_pos hindividual])
  · rw [if_neg hindividual]
    by_cases hcompany : o.userType = some companyType
    · rw [if_pos hcompany]
      refine reads_vendorEntry ?_
      rw [ProviderService.vendor, if_neg hindividual, if_pos hcompany]
    · rw [if_neg hcompany]
      have hvendor : o.vendor = none := by
        rw [ProviderService.vendor, if_neg hindividual, if_neg hcompany]
      refine Or.inr ⟨?_, none, rfl, ?_, by rintro _ ⟨⟩⟩
      · rw [ProviderService.isBroken, hvendor]
        rfl
      · rw [ProviderService.hasOffer, hvendor]
        rfl

end Reading

section UserListTiming

variable {s : Db} {b : UserListBody} {rows : List ProviderService} {order : List ℕ}

/-- Each row is read to an entry or none, when nothing is gone. -/
theorem exists_entries (hrows : ∀ o ∈ rows, o.isBroken s = false) :
    ∃ as : List (Option ListedProvider),
      List.Forall₂ (fun a p => Prog.Reads exec s p (.ok a)) as
        ((rows.map (populateRow s)).map listedEntry) ∧
      as.reduceOption.length = rows.countP (ProviderService.hasOffer s) ∧
      (as.reduceOption.map ListedProvider.id).Sublist (rows.map ProviderService.id) := by
  induction rows with
  | nil => exact ⟨[], .nil, rfl, .slnil⟩
  | cons o rows ih =>
    obtain ⟨as, has, hlength, hsub⟩ := ih fun o' ho' => hrows o' (List.mem_cons_of_mem o ho')
    rcases reads_listedEntry (s := s) o with ⟨hbroken, -⟩ | ⟨-, a, ha, hoffer, hid⟩
    · rw [hrows o List.mem_cons_self] at hbroken
      cases hbroken
    · refine ⟨a :: as, .cons ha has, ?_⟩
      cases a with
      | none =>
        refine ⟨?_, hsub.cons _⟩
        rw [List.countP_cons_of_neg (by rw [← hoffer]; exact Bool.false_ne_true)]
        exact hlength
      | some entry =>
        refine ⟨?_, ?_⟩
        · rw [List.countP_cons_of_pos hoffer.symm, ← hlength]
          rfl
        · rw [List.map_cons, ← hid entry rfl]
          exact hsub.cons_cons _

/-- Otherwise every order ends in the exception. -/
theorem collect_broken (hrows : ∃ o ∈ rows, o.isBroken s = true) (order : List ℕ) :
    Prog.Reads exec s (Prog.collect order ((rows.map (populateRow s)).map listedEntry))
      (.error .typeError) := by
  have hread (o : ProviderService) : ∃ x, Prog.Reads exec s (listedEntry (populateRow s o)) x ∧
      (∀ e, x = .error e → e = .typeError) ∧ (o.isBroken s = true → x = .error .typeError) := by
    rcases reads_listedEntry (s := s) o with ⟨-, hreads⟩ | ⟨hsound, a, hreads, -⟩
    · exact ⟨_, hreads, fun e he => (Except.error.inj he).symm, fun _ => rfl⟩
    · exact ⟨_, hreads, by rintro e ⟨⟩, fun hbroken => by rw [hsound] at hbroken; cases hbroken⟩
  choose x hreads herror hbroken using hread
  have hall : List.Forall₂ (fun y p => Prog.Reads exec s p y) (rows.map x)
      ((rows.map (populateRow s)).map listedEntry) := by
    rw [List.map_map, List.forall₂_map_left_iff, List.forall₂_map_right_iff]
    exact List.forall₂_same.mpr fun o _ => hreads o
  obtain ⟨o, ho, hgone⟩ := hrows
  have hthrow : .error .typeError ∈ rows.map x := List.mem_map.mpr ⟨o, ho, hbroken o hgone⟩
  refine Prog.Reads.collect_error hall hthrow (fun e' he' => ?_) order
  obtain ⟨o', -, ho'⟩ := List.mem_map.mp he'
  exact herror o' e' ho'

theorem reads_getProviderList (s : Db) (b : UserListBody) :
    Prog.Reads exec s (getProviderList (listedRows b.services) b.window)
      ((selectedRows s b).map (List.map (populateRow s))) := by
  unfold getProviderList selectedRows
  cases b.window with
  | error e => rfl
  | ok w =>
    cases listedRows b.services with
    | error e => rfl
    | ok p => exact reads_query _

theorem answerUserList_ok {found : List (Option ListedProvider)}
    (hrows : selectedRows s b = .ok rows)
    (hfound : Prog.Reads exec s
      (Prog.collect order ((rows.map (populateRow s)).map listedEntry)) (.ok found)) :
    answerUserList s b order =
      .ok { key := .success, result := some (.providers found.reduceOption) } := by
  have hread := reads_getProviderList s b
  rw [hrows] at hread
  have hreads : Prog.Reads exec s (userList b order)
      (.ok { key := .success, result := some (.providers found.reduceOption) }) := by
    refine Prog.Reads.catchAll (hread.bind ?_) listingError
    refine hfound.bind ?_
    rfl
  rw [answerUserList, hreads.run]

theorem answerUserList_error {e : Thrown}
    (h : selectedRows s b = .error e ∨ ∃ rows, selectedRows s b = .ok rows ∧
      Prog.Reads exec s (Prog.collect order ((rows.map (populateRow s)).map listedEntry))
        (.error e)) : answerUserList s b order = .ok (listingError e) := by
  have hread := reads_getProviderList s b
  have hreads : Prog.Reads exec s (userList b order) (.ok (listingError e)) := by
    refine Prog.Reads.catchAll_error ?_ listingError
    rcases h with hrows | ⟨rows, hrows, hfound⟩
    · rw [hrows] at hread
      exact hread.bind_error
    · rw [hrows] at hread
      exact hread.bind hfound.bind_error
  rw [answerUserList, hreads.run]

theorem page_sublist {α : Type} (w : ℕ × Option ℕ) (xs : List α) : (page w xs).Sublist xs := by
  unfold page
  cases w.2 with
  | none => exact List.drop_sublist _ _
  | some limit => exact (List.take_sublist _ _).trans (List.drop_sublist _ _)

theorem nodup_selectedRows (h : selectedRows s b = .ok rows) :
    (rows.map ProviderService.id).Nodup := by
  unfold selectedRows at h
  cases hw : b.window with
  | error e => rw [hw] at h; cases h
  | ok w =>
    cases hp : listedRows b.services with
    | error e => rw [hw, hp] at h; cases h
    | ok p =>
      rw [hw, hp] at h
      cases h
      have hsub : (page w (s.providerServices.find p)).Sublist s.providerServices.docs :=
        (page_sublist w _).trans List.filter_sublist
      exact s.providerServices.nodup.sublist (hsub.map ProviderService.id)

/-- The list of `user_list` does not depend on the order of the answers. -/
def TimelessUserList (s : Db) (b : UserListBody) : Prop :=
  ∀ order order', answerUserList s b order = answerUserList s b order'

theorem timelessUserList_of_error {e : Thrown}
    (h : ∀ order, answerUserList s b order = .ok (listingError e)) : TimelessUserList s b :=
  fun order order' => (h order).trans (h order').symm

/-- The entries change places unless there is at most one. -/
theorem timelessUserList_of_sound (hrows : selectedRows s b = .ok rows)
    (hsound : ∀ o ∈ rows, o.isBroken s = false) :
    TimelessUserList s b ↔ rows.countP (ProviderService.hasOffer s) ≤ 1 := by
  obtain ⟨as, has, hlength, hsub⟩ := exists_entries hsound
  have hfirst := answerUserList_ok hrows (Prog.Reads.collect_nil has)
  rw [← hlength]
  constructor
  · intro h
    refine Uniform.length_le_one ?_ ((nodup_selectedRows hrows).sublist hsub)
    refine uniform_reduceOption_iff.mpr fun ys hperm => ?_
    obtain ⟨order, horder⟩ := Prog.Reads.exists_collect has hperm
    have hsame := (answerUserList_ok hrows horder).symm.trans ((h order []).trans hfirst)
    simpa using hsame
  · intro h
    have huniform : Uniform as.reduceOption := uniform_of_length_le_one h
    have hanswer (order : List ℕ) : answerUserList s b order = answerUserList s b [] := by
      obtain ⟨bs, hperm, horder⟩ := Prog.Reads.collect has order
      rw [answerUserList_ok hrows horder, hfirst, uniform_reduceOption_iff.mp huniform bs hperm]
    exact fun order order' => (hanswer order).trans (hanswer order').symm

theorem timelessUserList_iff (s : Db) (b : UserListBody) :
    TimelessUserList s b ↔ SingleListing s b := by
  unfold SingleListing
  cases hrows : selectedRows s b with
  | error e =>
    refine iff_of_true (timelessUserList_of_error fun _ => answerUserList_error (Or.inl hrows)) ?_
    rintro rows ⟨⟩
  | ok rows =>
    by_cases hbroken : ∃ o ∈ rows, o.isBroken s = true
    · refine iff_of_true (timelessUserList_of_error fun order =>
        answerUserList_error (Or.inr ⟨rows, hrows, collect_broken hbroken order⟩)) ?_
      rintro _ ⟨⟩
      exact Or.inl hbroken
    · have hsound : ∀ o ∈ rows, o.isBroken s = false := by
        intro o ho
        rw [Bool.eq_false_iff]
        exact fun h => hbroken ⟨o, ho, h⟩
      rw [timelessUserList_of_sound hrows hsound]
      constructor
      · rintro h _ ⟨⟩
        exact Or.inr h
      · intro h
        exact (h rows rfl).resolve_left hbroken

end UserListTiming

section ServiceProvidersTiming

variable {s : Db}

/-- The account of an offer, if it is active. -/
theorem reads_offerProvider (s : Db) (o : ProviderSubService) :
    ∃ a : Option ProviderSummary, Prog.Reads exec s (offerProvider o) (.ok a) ∧
      ∀ x, a = some x ↔ ∃ p ∈ s.providers.docs, p.summary = x ∧ p.status = "A" ∧
        p.userType ≠ workerType ∧ o.individual.or o.company = some p.id := by
  let q (p : Provider) : Bool := p.status = "A" && p.userType ≠ workerType &&
    some p.id = o.individual.or o.company
  have hq (p : Provider) : q p = true ↔ p.status = "A" ∧ p.userType ≠ workerType ∧
      o.individual.or o.company = some p.id := by
    simp only [q, Bool.and_eq_true, decide_eq_true_eq, and_assoc]
    rw [eq_comm (a := some p.id)]
  have hhead : ((s.providers.find q).map Provider.summary).head? =
      (s.providers.findOne q).map Provider.summary := by
    rw [List.head?_map, Collection.find, List.head?_filter]
    rfl
  refine ⟨(s.providers.findOne q).map Provider.summary, hhead ▸ reads_query _, fun x => ?_⟩
  rw [Option.map_eq_some_iff]
  constructor
  · rintro ⟨p, hp, rfl⟩
    obtain ⟨hmem, hfound⟩ := Collection.mem_of_findOne hp
    exact ⟨p, hmem, rfl, (hq p).mp hfound⟩
  · rintro ⟨p, hp, rfl, hactive⟩
    obtain ⟨p', hp'⟩ := Collection.exists_findOne hp ((hq p).mpr hactive)
    obtain ⟨hmem, hfound⟩ := Collection.mem_of_findOne hp'
    -- No other account has the id.
    have hid : p'.id = p.id :=
      Option.some.inj (((hq p').mp hfound).2.2.symm.trans hactive.2.2)
    exact ⟨p, List.inj_on_of_nodup_map s.providers.nodup hmem hp hid ▸ hp', rfl⟩

/-- For every order of its own queries a sub-service is read to an entry, which is always the same
exactly when it has one provider at most. -/
theorem exists_reads_subServiceProviders (s : Db) (item : SubService) :
    ∃ entry : List ℕ → SubServiceProviders,
      (∀ order, Prog.Reads exec s (subServiceProviders order item) (.ok (entry order))) ∧
      (∀ order, (entry order).id = item.id) ∧
      ((∀ order, entry order = entry []) ↔ SingleProvider s item) := by
  obtain ⟨rows, hrows, hmem⟩ : ∃ rows,
      Prog.Reads exec s (getproviderSubServices item) (.ok rows) ∧
        ∀ o, o ∈ rows ↔ o ∈ s.providerSubServices.docs ∧ o.serviceData = item.serviceOid ∧
          o.userType ≠ some workerType ∧ o.subServices = some item.id := by
    refine ⟨_, reads_query _, fun o => ?_⟩
    simp only [Collection.find, List.mem_filter, Bool.and_eq_true, decide_eq_true_eq, and_assoc]
  choose account haccount hactive using reads_offerProvider s
  have has : List.Forall₂ (fun a p => Prog.Reads exec s p (.ok a)) (rows.map account)
      (rows.map offerProvider) := by
    rw [List.forall₂_map_left_iff, List.forall₂_map_right_iff]
    exact List.forall₂_same.mpr fun value _ => haccount value
  have hentry {order : List ℕ} {bs : List (Option ProviderSummary)}
      (hbs : Prog.Reads exec s (Prog.collect order (rows.map offerProvider)) (.ok bs)) :
      Prog.Reads exec s (subServiceProviders order item)
        (.ok ⟨item.id, item.subServiceName, bs.reduceOption⟩) := by
    refine hrows.bind (hbs.bind ?_)
    rfl
  have huniform : Uniform (rows.map account).reduceOption ↔ SingleProvider s item := by
    have hlisted (x : ProviderSummary) : x ∈ (rows.map account).reduceOption ↔
        ∃ p ∈ s.providers.docs, p.summary = x ∧ p.Offers s item := by
      rw [List.reduceOption_mem_iff, List.mem_map]
      constructor
      · rintro ⟨o, ho, ha⟩
        obtain ⟨hdoc, hitem⟩ := (hmem o).mp ho
        obtain ⟨p, hp, hsummary, hstatus, htype, howner⟩ := (hactive o x).mp ha
        exact ⟨p, hp, hsummary, hstatus, htype, o, hdoc, hitem, howner⟩
      · rintro ⟨p, hp, hsummary, hstatus, htype, o, hdoc, hitem, howner⟩
        exact ⟨o, (hmem o).mpr ⟨hdoc, hitem⟩,
          (hactive o x).mpr ⟨p, hp, hsummary, hstatus, htype, howner⟩⟩
    constructor
    · intro h p hp p' hp' hoffers hoffers'
      have hsame := h _ ((hlisted _).mpr ⟨p, hp, rfl, hoffers⟩) _
        ((hlisted _).mpr ⟨p', hp', rfl, hoffers'⟩)
      exact List.inj_on_of_nodup_map s.providers.nodup hp hp' (congrArg ProviderSummary.id hsame)
    · intro h x hx x' hx'
      obtain ⟨p, hp, rfl, hoffers⟩ := (hlisted x).mp hx
      obtain ⟨p', hp', rfl, hoffers'⟩ := (hlisted x').mp hx'
      rw [h p hp p' hp' hoffers hoffers']
  choose found hperm hfound using fun order => Prog.Reads.collect has order
  have hnil : found [] = rows.map account :=
    Except.ok.inj ((hfound []).unique (Prog.Reads.collect_nil has))
  refine ⟨fun order => ⟨item.id, item.subServiceName, (found order).reduceOption⟩,
    fun order => hentry (hfound order), fun _ => rfl, ?_⟩
  dsimp only
  rw [hnil, ← huniform]
  constructor
  · intro h
    refine uniform_reduceOption_iff.mpr fun ys hys => ?_
    obtain ⟨order, horder⟩ := Prog.Reads.exists_collect has hys
    have hsame : found order = ys := Except.ok.inj ((hfound order).unique horder)
    rw [← hsame]
    exact congrArg SubServiceProviders.providerList (h order)
  · intro h order
    rw [uniform_reduceOption_iff.mp h _ (hperm order)]

theorem exists_reads_getServiceDataById1 (s : Db) (serviceId : Option Json) :
    ∃ y, Prog.Reads exec s (getServiceDataById1 serviceId) y ∧
      y.map List.head? = (chosenService s serviceId).map (Option.map fun x => (x, x.items s)) := by
  unfold getServiceDataById1 chosenService
  cases castForQuery objectIdType serviceId with
  | error e => exact ⟨.error e, rfl, rfl⟩
  | ok p =>
    refine ⟨_, reads_query _, ?_⟩
    change Except.ok _ = Except.ok _
    rw [List.head?_map, Collection.find, List.head?_filter]
    rfl

variable {serviceId : Option Json} {order : ListingOrder}

variable (order) in
/-- The answer for a service that has sub-services. -/
theorem answerServiceProviderList_ok {service : Service} {items : List SubService}
    {services : List (Service × List SubService)} {entries : List SubServiceProviders}
    {popularService : List PopularService}
    (hservices : Prog.Reads exec s (getServiceDataById1 serviceId)
      (.ok ((service, items) :: services)))
    (hpos : items.length > 0)
    (hentries : Prog.Reads exec s (Prog.collect order.items
      (items.mapIdx fun i item => subServiceProviders (order.providers i) item)) (.ok entries))
    (hpopular : Prog.Reads exec s getPopularServices (.ok popularService)) :
    answerServiceProviderList s serviceId order =
      .ok { key := .success
            result := some (.serviceProviders entries.reverse (some popularService)) } := by
  have hreads : Prog.Reads exec s (getServiceProviderList serviceId order)
      (.ok { key := .success
             result := some (.serviceProviders entries.reverse (some popularService)) }) := by
    refine Prog.Reads.catchAll (hservices.bind ?_) listingError
    dsimp only
    rw [if_pos hpos]
    refine hentries.bind (hpopular.bind ?_)
    rfl
  rw [answerServiceProviderList, hreads.run]

/-- Otherwise there is nothing to be put in order. -/
theorem answerServiceProviderList_plain {x : Except Thrown (List (Service × List SubService))}
    (hservices : Prog.Reads exec s (getServiceDataById1 serviceId) x)
    (hplain : ∀ service items services, x = .ok ((service, items) :: services) → items = []) :
    ∃ answer : ListingResponse,
      ∀ order, answerServiceProviderList s serviceId order = .ok answer := by
  have hanswer {order : ListingOrder} {answer : ListingResponse}
      (h : Prog.Reads exec s (getServiceProviderList serviceId order) (.ok answer)) :
      answerServiceProviderList s serviceId order = .ok answer := by
    rw [answerServiceProviderList, h.run]
  cases x with
  | error e =>
    refine ⟨listingError e, fun order => hanswer ?_⟩
    exact hservices.bind_error.catchAll_error listingError
  | ok services =>
    cases services with
    | nil =>
      refine ⟨listingError .typeError, fun order => hanswer ?_⟩
      refine Prog.Reads.catchAll_error (hservices.bind ?_) listingError
      rfl
    | cons first services =>
      obtain ⟨service, items⟩ := first
      cases hplain service items services rfl
      refine ⟨{ key := .success, result := some (.serviceProviders [] none) },
        fun order => hanswer ?_⟩
      refine Prog.Reads.catchAll (hservices.bind ?_) listingError
      rfl

theorem forall₂_mapIdx {α β γ : Type*} {R : β → γ → Prop} {f : ℕ → α → β} {g : ℕ → α → γ}
    (h : ∀ i a, R (f i a) (g i a)) (xs : List α) :
    List.Forall₂ R (xs.mapIdx f) (xs.mapIdx g) := by
  rw [List.mapIdx_eq_zipIdx_map, List.mapIdx_eq_zipIdx_map, List.forall₂_map_left_iff,
    List.forall₂_map_right_iff]
  exact List.forall₂_same.mpr fun x _ => h x.2 x.1

/-- The list of `getServiceProviderList` does not depend on the order of the answers. -/
def TimelessServiceProviders (s : Db) (serviceId : Option Json) : Prop :=
  ∀ order order', answerServiceProviderList s serviceId order =
    answerServiceProviderList s serviceId order'

theorem timelessServiceProviders_of_plain
    {y : Except Thrown (List (Service × List SubService))}
    (hservices : Prog.Reads exec s (getServiceDataById1 serviceId) y)
    (hplain : ∀ service items services, y = .ok ((service, items) :: services) → items = []) :
    TimelessServiceProviders s serviceId := by
  obtain ⟨answer, hanswer⟩ := answerServiceProviderList_plain hservices hplain
  exact fun order order' => (hanswer order).trans (hanswer order').symm

theorem timelessServiceProviders_of_items {service : Service} {items : List SubService}
    {services : List (Service × List SubService)}
    (hservices : Prog.Reads exec s (getServiceDataById1 serviceId)
      (.ok ((service, items) :: services)))
    (hpos : items.length > 0)
    (hdistinct : ∀ item ∈ items, ∀ item' ∈ items, item.id = item'.id → item = item') :
    TimelessServiceProviders s serviceId ↔
      Uniform items ∧ ∀ item ∈ items, SingleProvider s item := by
  obtain ⟨popularService, hpopular⟩ : ∃ popularService,
      Prog.Reads exec s getPopularServices (.ok popularService) := ⟨_, reads_query _⟩
  choose entry hentry hid hsingle using exists_reads_subServiceProviders s
  have hentries (order : ListingOrder) : List.Forall₂ (fun a p => Prog.Reads exec s p (.ok a))
      (items.mapIdx fun i item => entry item (order.providers i))
      (items.mapIdx fun i item => subServiceProviders (order.providers i) item) := by
    refine forall₂_mapIdx ?_ items
    exact fun i item => hentry item (order.providers i)
  have hfirst := answerServiceProviderList_ok {} hservices hpos
    (Prog.Reads.collect_nil (hentries {})) hpopular
  have hmap : (items.mapIdx fun _ item => entry item []) = items.map fun item => entry item [] :=
    List.ext_getElem (by simp) fun i hi hi' => by simp
  constructor
  · intro h
    have hsame (order : ListingOrder) (entries : List SubServiceProviders)
        (hread : Prog.Reads exec s (Prog.collect order.items
          (items.mapIdx fun i item => subServiceProviders (order.providers i) item))
          (.ok entries)) : entries = items.mapIdx fun _ item => entry item [] := by
      have hanswer := answerServiceProviderList_ok order hservices hpos hread hpopular
      have heq := hanswer.symm.trans ((h order {}).trans hfirst)
      simpa using heq
    refine ⟨?_, fun item hitem => ?_⟩
    · -- The sub-services can come in any order.
      have huniform : Uniform (items.mapIdx fun _ item => entry item []) := by
        refine uniform_iff.mpr fun ys hperm => ?_
        obtain ⟨order, horder⟩ := Prog.Reads.exists_collect (hentries {}) hperm
        exact hsame { items := order } ys horder
      have hmem (item : SubService) (hitem : item ∈ items) :
          entry item [] ∈ items.mapIdx fun _ item => entry item [] := by
        rw [hmap]
        exact List.mem_map_of_mem hitem
      intro item hitem item' hitem'
      have hsame := congrArg SubServiceProviders.id
        (huniform _ (hmem item hitem) _ (hmem item' hitem'))
      rw [hid, hid] at hsame
      exact hdistinct item hitem item' hitem' hsame
    · -- So can the providers of one of them.
      obtain ⟨i, hi, rfl⟩ := List.mem_iff_getElem.mp hitem
      refine (hsingle _).mp fun order => ?_
      let inner : ListingOrder := { providers := fun j => if j = i then order else [] }
      have heq := hsame inner _ (Prog.Reads.collect_nil (hentries inner))
      have hat := congrArg (fun entries => entries[i]?) heq
      simpa [inner, hi] using hat
  · rintro ⟨hitems, hproviders⟩
    have huniform : Uniform (items.mapIdx fun _ item => entry item []) := by
      rw [hmap]
      rintro _ hx _ hy
      obtain ⟨item, hitem, rfl⟩ := List.mem_map.mp hx
      obtain ⟨item', hitem', rfl⟩ := List.mem_map.mp hy
      rw [hitems item hitem item' hitem']
    have hanswer (order : ListingOrder) : answerServiceProviderList s serviceId order =
        answerServiceProviderList s serviceId {} := by
      have heq : (items.mapIdx fun i item => entry item (order.providers i)) =
          items.mapIdx fun _ item => entry item [] := by
        refine List.ext_getElem (by simp) fun i hi hi' => ?_
        rw [List.getElem_mapIdx, List.getElem_mapIdx]
        exact (hsingle _).mpr (hproviders _ (List.getElem_mem _)) _
      obtain ⟨entries, hperm, hread⟩ := Prog.Reads.collect (hentries order) order.items
      rw [heq] at hperm
      rw [answerServiceProviderList_ok order hservices hpos hread hpopular, hfirst,
        huniform.eq_of_perm hperm]
    exact fun order order' => (hanswer order).trans (hanswer order').symm

theorem chosen_of_head {service : Service} {items : List SubService}
    {services : List (Service × List SubService)}
    (h : (Except.ok ((service, items) :: services)).map List.head? =
      (chosenService s serviceId).map (Option.map fun x => (x, x.items s))) :
    items = service.items s ∧ chosenService s serviceId = .ok (some service) := by
  cases hc : chosenService s serviceId with
  | error e => rw [hc] at h; cases h
  | ok found =>
    cases found with
    | none => rw [hc] at h; cases h
    | some x =>
      rw [hc] at h
      cases h
      exact ⟨rfl, rfl⟩

theorem Service.items_inj (s : Db) (x : Service) :
    ∀ item ∈ x.items s, ∀ item' ∈ x.items s, item.id = item'.id → item = item' := by
  have hmem : ∀ item ∈ x.items s, item ∈ s.subServices.docs := by
    intro item hitem
    obtain ⟨id, -, hget⟩ := List.mem_filterMap.mp hitem
    exact ((s.subServices.get?_eq_some_iff _ _).mp hget).1
  intro item hitem item' hitem' hid
  exact List.inj_on_of_nodup_map s.subServices.nodup (hmem item hitem) (hmem item' hitem') hid

theorem timelessServiceProviders_iff (s : Db) (serviceId : Option Json) :
    TimelessServiceProviders s serviceId ↔ SingleProviders s serviceId := by
  obtain ⟨y, hservices, hhead⟩ := exists_reads_getServiceDataById1 s serviceId
  by_cases hitems : ∃ service items services, y = .ok ((service, items) :: services) ∧
      items.length > 0
  · obtain ⟨service, items, services, rfl, hpos⟩ := hitems
    obtain ⟨rfl, hchosen⟩ := chosen_of_head hhead
    rw [timelessServiceProviders_of_items hservices hpos (service.items_inj s)]
    constructor
    · intro h x hx
      rw [hchosen] at hx
      cases hx
      exact h
    · exact fun h => h service hchosen
  · have hplain : ∀ service items services, y = .ok ((service, items) :: services) →
        items = [] := by
      intro service items services hy
      by_contra hne
      exact hitems ⟨service, items, services, hy, List.length_pos_iff.mpr hne⟩
    refine iff_of_true (timelessServiceProviders_of_plain hservices hplain) fun x hx => ?_
    rw [hx] at hhead
    cases y with
    | error e => cases hhead
    | ok found =>
      cases found with
      | nil => cases hhead
      | cons first services =>
        cases hhead
        rw [hplain x (x.items s) services rfl]
        exact ⟨by rintro _ ⟨⟩, by rintro _ ⟨⟩⟩

end ServiceProvidersTiming

section Listings

/-- The two lists do not depend on the order in which their queries are answered exactly when there
is nothing to be put in order: at most one of the rows that `user_list` selects is of a vendor with
an offer, or one refers to what is gone; and the service of `getServiceProviderList` has one
sub-service and one provider of it, at most. -/
theorem timeless_listings_iff (s : Db) (b : UserListBody) (serviceId : Option Json) :
    (TimelessUserList s b ↔ SingleListing s b) ∧
      (TimelessServiceProviders s serviceId ↔ SingleProviders s serviceId) :=
  ⟨timelessUserList_iff s b, timelessServiceProviders_iff s serviceId⟩

def listedIds : Except Thrown ListingResponse → List (ObjectId × List ObjectId)
  | .ok { result := some (.providers list), .. } => list.map fun e => (e.id, [])
  | .ok { result := some (.serviceProviders list _), .. } =>
    list.map fun e => (e.id, e.providerList.map ProviderSummary.id)
  | _ => []

def listedDb : Db :=
  { sharedDb with
    providers := rivalDb.providers
    serviceDetails := fun _ => { subServices := [idOf "subservice01", idOf "subservice02"] }
    subServices := ⟨[
      ⟨idOf "subservice01", "Plumbing", "Leak", none, none, some (idOf "service---01")⟩,
      ⟨idOf "subservice02", "Plumbing", "Pipe", none, none, some (idOf "service---01")⟩],
      by decide +kernel⟩ }

def sampleListing : UserListBody := { services := some (.str "service---01") }

/-- The companies are listed in the order of the answers, and so are the sub-services and the
companies that offer one. -/
theorem listing_order_varies :
    (listedIds (answerUserList listedDb sampleListing []) =
        [(idOf "shelf-----01", []), (idOf "shelf-----02", [])] ∧
      listedIds (answerUserList listedDb sampleListing [1, 1]) =
        [(idOf "shelf-----02", []), (idOf "shelf-----01", [])]) ∧
    (listedIds (answerServiceProviderList listedDb sampleListing.services {}) =
        [(idOf "subservice02", []),
          (idOf "subservice01", [idOf "company---01", idOf "company---02"])] ∧
      listedIds (answerServiceProviderList listedDb sampleListing.services
          { items := [1, 1], providers := fun _ => [1, 1] }) =
        [(idOf "subservice01", [idOf "company---02", idOf "company---01"]),
          (idOf "subservice02", [])]) ∧
    ¬ TimelessUserList listedDb sampleListing ∧
      ¬ TimelessServiceProviders listedDb sampleListing.services := by
  have husers : listedIds (answerUserList listedDb sampleListing []) ≠
      listedIds (answerUserList listedDb sampleListing [1, 1]) := by decide +kernel
  have hproviders : listedIds (answerServiceProviderList listedDb sampleListing.services {}) ≠
      listedIds (answerServiceProviderList listedDb sampleListing.services
        { items := [1, 1], providers := fun _ => [1, 1] }) := by decide +kernel
  refine ⟨⟨by decide +kernel, by decide +kernel⟩, ⟨by decide +kernel, by decide +kernel⟩, ?_, ?_⟩
  · exact fun h => husers (congrArg listedIds (h [] [1, 1]))
  · exact fun h => hproviders (congrArg listedIds (h {} _))

end Listings

end DoQwik
