import DoQwik.CatalogueUpserts
import DoQwik.Indexes

/-! What the catalogue is for: every vendor has a book with the services that it has entered and a
quote for each sub-service that it offers. The two collections and the branches of the handlers
are one way to keep such books, and the lists that the vendors get are read off them. -/
namespace DoQwik
open JsValues DocStore Interleave

section Listings

/-- The fields of a service, and of a sub-service, that a listing looks up. -/
structure ListedService where
  id : ObjectId
  serviceName : String
  serviceImage : Option String
  icon : Option String

/-- The select string of the listings has a comma behind `sub_service_image`, which makes it the
name of a field that does not exist. -/
structure ListedSubService where
  id : ObjectId
  serviceName : String
  subServiceName : String

/-- The details have the commission besides. -/
structure DetailedSubService extends ListedSubService where
  revenue : Option JsNum

structure ListedOffer where
  offer : ProviderSubService
  serviceData : Option ListedService
  subServices : Option ListedSubService

/-- What `getOnlyOneIndividualServices` selects. -/
structure OfferDetails where
  id : ObjectId
  service : Option ObjectId
  serviceData : Option ListedService
  subService : Option ObjectId
  subServices : Option DetailedSubService
  price : Option JsNum
  category : Option String
  creationDate : Option ℤ
  status : String

def listedService (v : Service) : ListedService := ⟨v.id, v.serviceName, v.serviceImage, v.icon⟩

def listedSubService (v : SubService) : ListedSubService := ⟨v.id, v.serviceName, v.subServiceName⟩

def listedOffer (o : PopulatedOffer) : ListedOffer where
  offer := o.offer
  serviceData := o.serviceData.map listedService
  subServices := o.subServices.map listedSubService

def offerDetails (o : PopulatedOffer) : OfferDetails where
  id := o.offer.id
  service := o.offer.serviceData
  serviceData := o.serviceData.map listedService
  subService := o.offer.subServices
  subServices := o.subServices.map fun v => ⟨listedSubService v, v.revenue⟩
  price := o.offer.price
  category := o.offer.category
  creationDate := o.offer.creationDate
  status := o.offer.status

inductive OfferingResult where
  | offers (os : List ListedOffer)
  | services (os : List (ProviderService × Option ListedService))
  | details (o : Option OfferDetails)
  | error (e : Thrown)

abbrev OfferingResponse := Response OfferingResult

def offeringError (e : Thrown) : OfferingResponse :=
  { key := .errorServerError, result := some (.error e) }

/-- `fetchAllIndividualServices`, with the services looked up. -/
def fetchAllIndividualServices (condition : ProviderService → Bool) :
    Action (List (ProviderService × Option ListedService)) :=
  query fun s => (s.providerServices.find condition).map fun o =>
    (o, (o.serviceData.bind s.services.get?).map listedService)

variable (c : Caller) (b : CatalogueBody) (vendor : Vendor)

/-- Only a provider of the vendor's type gets the listing. -/
def listedTo (k : Provider → Action OfferingResponse) : Action OfferingResponse :=
  Prog.catchAll offeringError do
    let userData ← getProvider c.userId
    match userData with
    | none => reply .invalidUserType
    | some p => if p.userType = vendor.userType then k p else reply .invalidUserType

def getServicesOf : Action OfferingResponse :=
  listedTo c vendor fun userData => do
    let serviceList ← getIndividualServicesList fun o =>
      vendor.field o.company o.individual = some userData.id && o.userType = some vendor.userType
    reply .success (some (.offers (serviceList.map listedOffer)))

/-- The offer is named by its id alone, whoever makes it. -/
def getServicesDetailsOf : Action OfferingResponse :=
  listedTo c vendor fun _ => do
    let serviceList ← getOnlyOneIndividualServices (offerById b.id)
    reply .success (some (.details (serviceList.map offerDetails)))

def getCompanyServicesList : Action OfferingResponse := getServicesOf c .company

def getIndividualServices : Action OfferingResponse := getServicesOf c .individual

def getCompanyServicesDetailsByID : Action OfferingResponse := getServicesDetailsOf c b .company

def getIndividualServicesDetailsByID : Action OfferingResponse :=
  getServicesDetailsOf c b .individual

def companyServicesList : Action OfferingResponse :=
  listedTo c .company fun userData => do
    let serviceList ← fetchAllIndividualServices fun o =>
      o.company = some userData.id && o.userType = some companyType
    reply .success (some (.services serviceList))

def answerOffering (s : Db) (p : Action OfferingResponse) : OfferingResponse :=
  match (p.run exec s).2 with
  | .ok a => a
  | .error e => offeringError e

end Listings

section Books

/-- What a vendor asks for a sub-service, and the id under which the offer can be removed. -/
structure Quote where
  id : ObjectId
  price : Option JsNum
  category : Option String
deriving DecidableEq

/-- The place of a quote. -/
structure Line where
  vendor : Vendor
  owner : ObjectId
  service : ObjectId
  subService : ObjectId
deriving DecidableEq

structure PriceBook where
  services : Set (Vendor × ObjectId × ObjectId)
  quotes : Line → Option Quote

def OfferSet.revise (d : OfferSet) (q : Quote) : Quote :=
  { q with price := d.price.getD q.price, category := d.category.getD q.category }

namespace PriceBook

def blank : PriceBook := ⟨∅, fun _ => none⟩

def enter (vendor : Vendor) (owner service : ObjectId) (book : PriceBook) : PriceBook :=
  { book with services := insert (vendor, owner, service) book.services }

/-- A quote that is there is revised, and keeps its id; a new one gets the id that is given. -/
def quote (l : Line) (id : ObjectId) (d : OfferSet) (book : PriceBook) : PriceBook :=
  { book with
    quotes := Function.update book.quotes l
      (some (d.revise ((book.quotes l).getD ⟨id, none, none⟩))) }

def strike (id : ObjectId) (book : PriceBook) : PriceBook :=
  { book with quotes := fun l => (book.quotes l).filter fun q => q.id ≠ id }

theorem quotes_quote_self (l : Line) (id : ObjectId) (d : OfferSet) (book : PriceBook) :
    (book.quote l id d).quotes l = some (d.revise ((book.quotes l).getD ⟨id, none, none⟩)) :=
  Function.update_self ..

theorem quotes_quote_of_ne {l l' : Line} (h : l' ≠ l) (id : ObjectId) (d : OfferSet)
    (book : PriceBook) : (book.quote l id d).quotes l' = book.quotes l' :=
  Function.update_of_ne h ..

end PriceBook

def textId : Option Json → Option ObjectId
  | some (.str text) => ObjectId.ofString text
  | _ => none

def textOrNone : Option Json → Bool
  | some (.str _) => true
  | none => true
  | _ => false

/-- A request of a vendor that names what it is about by texts. -/
def CatalogueRequest.textual (r : CatalogueRequest) : Bool :=
  match r.handler with
  | .addServicesbyCompany => textOrNone r.body.services && textOrNone r.body.subServices
  | .addServicesbyIndividual => textOrNone r.body.services && textOrNone r.body.subServices
  | .addServicesbyCompanyToWorker _ => false
  | .deteleCompanyServicesByID => textOrNone r.body.id
  | .deteleIndividualServicesByID => textOrNone r.body.id

variable (s : Db) (r : CatalogueRequest) (vendor : Vendor)

def actsAs (c : Caller) : Bool :=
  (s.providers.get? c.userId).any fun p => p.userType = vendor.userType

/-- An addition enters the service, and if it is complete it quotes for the sub-service. -/
def CatalogueRequest.add (book : PriceBook) : PriceBook :=
  if refusal (addServicesChecks r.body) = none ∧ actsAs s vendor r.caller = true then
    match textId r.body.services with
    | none => book
    | some i =>
      match textId r.body.subServices, offerData r.body with
      | some j, .ok d =>
        (book.enter vendor r.caller.userId i).quote ⟨vendor, r.caller.userId, i, j⟩
          (r.env.newId 0 1) d
      | _, _ => book.enter vendor r.caller.userId i
  else book

/-- A removal strikes the quote with the id, in whichever book it is. -/
def CatalogueRequest.remove (book : PriceBook) : PriceBook :=
  if actsAs s vendor r.caller = true then
    match textId r.body.id with
    | some id => book.strike id
    | none => book
  else book

/-- What the request is to do, with the accounts of `s`. -/
def CatalogueRequest.post (book : PriceBook) : PriceBook :=
  match r.handler with
  | .addServicesbyCompany => r.add s .company book
  | .addServicesbyIndividual => r.add s .individual book
  | .addServicesbyCompanyToWorker _ => book
  | .deteleCompanyServicesByID => r.remove s .company book
  | .deteleIndividualServicesByID => r.remove s .individual book

end Books

section Texts

variable {v : Option Json} {i : ObjectId}

theorem exists_text (hv : textOrNone v = true) (ht : truthy v = true) :
    ∃ text, v = some (.str text) := by
  rcases v with _ | v
  · cases ht
  cases v with
  | str text => exact ⟨text, rfl⟩
  | _ => cases hv

theorem plainId_of_text (hv : textOrNone v = true) : plainId v = true := by
  rcases v with _ | v
  · rfl
  cases v with
  | str text => rfl
  | _ => cases hv

theorem textId_of_objectIdOf {g : ObjectId} (hv : textOrNone v = true) (ht : truthy v = true)
    (h : objectIdOf g v = .ok i) : textId v = some i := by
  obtain ⟨text, rfl⟩ := exists_text hv ht
  change (ObjectId.ofString text).elim (Except.error Thrown.typeError) Except.ok = _ at h
  rw [textId]
  cases hi : ObjectId.ofString text with
  | none =>
    rw [hi] at h
    cases h
  | some i' =>
    rw [hi] at h
    exact congrArg some (Except.ok.inj h)

theorem objectIdOf_of_textId {g : ObjectId} (h : textId v = some i) :
    objectIdOf g v = .ok i := by
  rcases v with _ | v
  · cases h
  cases v with
  | str text => exact objectIdOf_str h
  | _ => cases h

theorem castForQuery_of_textId (h : textId v = some i) :
    castForQuery objectIdType v = .ok fun a => decide (a = some i) := by
  rcases v with _ | v
  · cases h
  cases v with
  | str text => exact castForQuery_str h
  | _ => cases h

theorem textId_of_castForQuery {p : Option ObjectId → Bool} (hv : textOrNone v = true)
    (ht : truthy v = true) (h : castForQuery objectIdType v = .ok p) : ∃ i, textId v = some i := by
  obtain ⟨text, rfl⟩ := exists_text hv ht
  obtain ⟨a, ha, -⟩ := map_eq_ok h
  change castObjectIdString text = _ at ha
  unfold castObjectIdString at ha
  rw [textId]
  cases hi : ObjectId.ofString text with
  | none =>
    rw [hi] at ha
    cases ha
  | some i' => exact ⟨i', rfl⟩

theorem CatalogueRequest.plainIds_of_textual {r : CatalogueRequest} (h : r.textual = true) :
    r.handler.editsOwnCatalogue = true ∧ r.plainIds = true := by
  obtain ⟨handler, c, b, env⟩ := r
  have hboth : (textOrNone b.services && textOrNone b.subServices) = true →
      (plainId b.services && plainId b.subServices) = true := by
    intro hb
    obtain ⟨hv, hv'⟩ := Bool.and_eq_true_iff.mp hb
    exact Bool.and_eq_true_iff.mpr ⟨plainId_of_text hv, plainId_of_text hv'⟩
  cases handler with
  | addServicesbyCompany => exact ⟨rfl, hboth h⟩
  | addServicesbyIndividual => exact ⟨rfl, hboth h⟩
  | addServicesbyCompanyToWorker order => cases h
  | deteleCompanyServicesByID => exact ⟨rfl, rfl⟩
  | deteleIndividualServicesByID => exact ⟨rfl, rfl⟩

end Texts

section Refinement

def Line.key (l : Line) : CatalogueKey := l.vendor.offerKey l.owner l.service l.subService

theorem Vendor.userType_injective : Function.Injective Vendor.userType := by
  intro v w h
  cases v with
  | company =>
    cases w with
    | company => rfl
    | individual => exact absurd h (by decide)
  | individual =>
    cases w with
    | company => exact absurd h (by decide)
    | individual => rfl

theorem Line.key_injective : Function.Injective Line.key := by
  rintro ⟨v, o, i, j⟩ ⟨v', o', i', j'⟩ h
  injection h with htype howner hservice hsub
  cases Vendor.userType_injective (Option.some.inj htype)
  cases howner
  cases hservice
  cases hsub
  rfl

def ProviderSubService.quote (o : ProviderSubService) : Quote := ⟨o.id, o.price, o.category⟩

/-- The collections hold the books: a row for each service that was entered, and a row for each
quote. -/
structure Refines (s : Db) (book : PriceBook) : Prop where
  services : ∀ k, k ∈ s.serviceKeys ↔ ∃ x ∈ book.services, k = x.1.serviceKey x.2.1 x.2.2
  quotes : ∀ l : Line, book.quotes l =
    (s.providerSubServices.lookup ProviderSubService.key l.key).map ProviderSubService.quote
  lines : ∀ o ∈ s.providerSubServices.docs, ∃ l : Line, o.key = l.key

variable {s t : Db} {book : PriceBook} {vendor : Vendor} {owner i j id : ObjectId} {l : Line}
  {d : OfferSet}

theorem refines_blank (hservices : s.providerServices.docs = [])
    (hoffers : s.providerSubServices.docs = []) : Refines s .blank := by
  refine ⟨fun k => ?_, fun l => ?_, fun o ho => ?_⟩
  · rw [Db.serviceKeys, hservices]
    refine iff_of_false List.not_mem_nil ?_
    rintro ⟨x, hx, -⟩
    exact hx
  · rw [Collection.lookup, Collection.findOne, hoffers]
    rfl
  · rw [hoffers] at ho
    cases ho

/-- Only the two collections matter. -/
theorem Refines.of_same (h : Refines s book) (hservices : t.providerServices = s.providerServices)
    (hoffers : t.providerSubServices = s.providerSubServices) : Refines t book := by
  refine ⟨?_, ?_, ?_⟩
  · rw [Db.serviceKeys, hservices]
    exact h.services
  · rw [hoffers]
    exact h.quotes
  · rw [hoffers]
    exact h.lines

/-- A new row enters the service. -/
theorem Refines.enter {o : ProviderService} (h : Refines s book)
    (hkey : o.key = vendor.serviceKey owner i)
    (hservices : s.providerServices.insert o = some t.providerServices)
    (hoffers : t.providerSubServices = s.providerSubServices) :
    Refines t (book.enter vendor owner i) := by
  refine ⟨fun k => ?_, ?_, ?_⟩
  · rw [serviceKeys_insert hservices, List.mem_append, List.mem_singleton, h.services, hkey]
    constructor
    · rintro (⟨x, hx, rfl⟩ | rfl)
      · exact ⟨x, Set.mem_insert_of_mem _ hx, rfl⟩
      · exact ⟨_, Set.mem_insert _ _, rfl⟩
    · rintro ⟨x, hx, rfl⟩
      rcases Set.mem_insert_iff.mp hx with rfl | hold
      · exact Or.inr rfl
      · exact Or.inl ⟨x, hold, rfl⟩
  · rw [hoffers]
    exact h.quotes
  · rw [hoffers]
    exact h.lines

/-- To enter a service again makes no difference. -/
theorem Refines.enter_present (h : Refines s book)
    (hpresent : vendor.serviceKey owner i ∈ s.serviceKeys) :
    Refines s (book.enter vendor owner i) := by
  refine ⟨fun k => ?_, h.quotes, h.lines⟩
  constructor
  · intro hk
    obtain ⟨x, hx, rfl⟩ := (h.services k).mp hk
    exact ⟨x, Set.mem_insert_of_mem _ hx, rfl⟩
  · rintro ⟨x, hx, rfl⟩
    rcases Set.mem_insert_iff.mp hx with rfl | hold
    · exact hpresent
    · exact (h.services _).mpr ⟨x, hold, rfl⟩

/-- A new row is a new quote. -/
theorem Refines.quote_new {o : ProviderSubService} (h : Refines s book) (hunique : UniqueRows s)
    (hkey : o.key = l.key) (hfree : l.key ∉ s.offerKeys)
    (hquote : o.quote = d.revise ⟨id, none, none⟩)
    (hservices : t.providerServices = s.providerServices)
    (hoffers : s.providerSubServices.insert o = some t.providerSubServices) :
    Refines t (book.quote l id d) := by
  refine ⟨?_, fun l' => ?_, fun o' ho' => ?_⟩
  · rw [Db.serviceKeys, hservices]
    exact h.services
  · have hnone : book.quotes l = none := by
      rw [h.quotes l, Collection.lookup_eq_none hunique.2 hfree]
      rfl
    have hlookup := Collection.lookup_insert hunique.2 hoffers (hkey ▸ hfree) l'.key
    rw [hlookup, hkey]
    by_cases hl : l' = l
    · subst hl
      rw [PriceBook.quotes_quote_self, hnone, if_pos rfl, Option.map_some, hquote]
      rfl
    · rw [PriceBook.quotes_quote_of_ne hl,
        if_neg fun hsame => hl (Line.key_injective hsame).symm]
      exact h.quotes l'
  · rw [(Collection.insert_eq_some hoffers).2] at ho'
    rcases List.mem_append.mp ho' with hold | hnew
    · exact h.lines o' hold
    · exact ⟨l, by rw [List.mem_singleton.mp hnew, hkey]⟩

/-- An update of the row is a revision of the quote. -/
theorem Refines.quote_old {q : ProviderSubService → Bool} {o : ProviderSubService} {now : ℤ}
    (h : Refines s book) (hunique : UniqueRows s) (hfind : s.providerSubServices.findOne q = some o)
    (hkey : o.key = l.key) (hservices : t.providerServices = s.providerServices)
    (hoffers : t.providerSubServices =
      s.providerSubServices.updateOne q (d.apply now) (d.apply_id now)) :
    Refines t (book.quote l id d) := by
  have hmem := (Collection.mem_of_findOne hfind).1
  have hold : s.providerSubServices.lookup ProviderSubService.key l.key = some o :=
    (Collection.lookup_eq_some_iff hunique.2 _ _).mpr ⟨hmem, hkey⟩
  refine ⟨?_, fun l' => ?_, fun o' ho' => ?_⟩
  · rw [Db.serviceKeys, hservices]
    exact h.services
  · rw [hoffers, Collection.lookup_updateOne hunique.2 (d.apply_id now) (fun _ => rfl), hfind,
      Option.map_some, hkey]
    by_cases hl : l' = l
    · subst hl
      rw [PriceBook.quotes_quote_self, h.quotes, if_pos rfl, hold]
      rfl
    · rw [PriceBook.quotes_quote_of_ne hl,
        if_neg fun hsame => hl (Line.key_injective (Option.some.inj hsame)).symm]
      exact h.quotes l'
  · rw [hoffers] at ho'
    rcases Collection.mem_updateOne ho' with ⟨x, hx, rfl⟩ | ⟨hx, -⟩
    · exact h.lines x (Collection.mem_of_findOne hx).1
    · exact h.lines o' hx

/-- The removal of the row strikes the quote. -/
theorem Refines.strike {q : ProviderSubService → Bool} (h : Refines s book)
    (hunique : UniqueRows s) (hq : ∀ o, q o = true ↔ o.id = id) :
    Refines { s with providerSubServices := s.providerSubServices.deleteOne q }
      (book.strike id) := by
  refine ⟨h.services, fun l => ?_, fun o ho => h.lines o (List.mem_of_mem_eraseP ho)⟩
  change (book.quotes l).filter _ = _
  rw [Collection.lookup_deleteOne_key hunique.2 hq, h.quotes]
  cases s.providerSubServices.lookup ProviderSubService.key l.key with
  | none => rfl
  | some o =>
    rw [Option.map_some, Option.filter_some, Option.filter_some]
    change (if decide (o.id ≠ id) = true then some o.quote else none) = _
    split
    · rfl
    · rfl

end Refinement

section Additions

variable {s t : Db} {book : PriceBook} {vendor : Vendor} {owner i j : ObjectId}
  {env : CatalogueEnv} {b : CatalogueBody} {n : ℕ} {d : OfferSet}

theorem optional_eq_ok {α : Type} {cast : Json → Except Thrown (Option α)} {v : Option Json}
    {a : Option α} (h : optional cast v = .ok a) :
    ∃ a', castSet cast v = .ok a' ∧ a'.getD none = a := by
  unfold optional at h
  cases hc : castSet cast v with
  | error e =>
    rw [hc] at h
    cases h
  | ok a' =>
    rw [hc] at h
    cases h
    cases a' with
    | none => exact ⟨none, rfl, rfl⟩
    | some x => exact ⟨some x, rfl, rfl⟩

/-- A new offer is quoted as the request has it. -/
theorem quote_newOffer {o : ProviderSubService} (ho : newOffer env b vendor owner n = .ok o) :
    ∃ d, offerData b = .ok d ∧ o.quote = d.revise ⟨env.newId 0 1, none, none⟩ := by
  obtain ⟨i, -, ho⟩ := bind_eq_ok ho
  obtain ⟨j, -, ho⟩ := bind_eq_ok ho
  obtain ⟨price, hprice, ho⟩ := bind_eq_ok ho
  obtain ⟨category, hcategory, ho⟩ := bind_eq_ok ho
  cases ho
  obtain ⟨x, hx, rfl⟩ := optional_eq_ok hprice
  obtain ⟨y, hy, rfl⟩ := optional_eq_ok hcategory
  refine ⟨⟨x, y⟩, ?_, rfl⟩
  unfold offerData
  rw [hx, hy]
  rfl

theorem key_of_ownOffers {q : ProviderSubService → Bool} {o : ProviderSubService}
    (hi : textId b.services = some i) (hj : textId b.subServices = some j)
    (hq : ownOffers b vendor owner = .ok q) (ho : q o = true) :
    o.key = Line.key ⟨vendor, owner, i, j⟩ := by
  obtain ⟨p, p', hp, hp', hsel⟩ := ownOffers_eq_ok hq
  obtain ⟨hfield, htype, hservice, hsub⟩ := (hsel o).mp ho
  rw [castForQuery_of_textId hi] at hp
  rw [castForQuery_of_textId hj] at hp'
  cases hp
  cases hp'
  rw [ProviderSubService.key, htype, rowOwner_vendor, hfield, of_decide_eq_true hservice,
    of_decide_eq_true hsub]
  rfl

/-- The caller is of the vendor's type. -/
theorem actsAs_iff {c : Caller} : actsAs s vendor c = true ↔ ActsAs c vendor s := by
  simp only [actsAs, ActsAs, Option.any_eq_true, decide_eq_true_eq]

variable {r : CatalogueRequest}

theorem add_eq_quote (hc : refusal (addServicesChecks r.body) = none)
    (hact : actsAs s vendor r.caller = true) (hi : textId r.body.services = some i)
    (hj : textId r.body.subServices = some j) (hd : offerData r.body = .ok d) :
    r.add s vendor book = (book.enter vendor r.caller.userId i).quote
      ⟨vendor, r.caller.userId, i, j⟩ (r.env.newId 0 1) d := by
  rw [CatalogueRequest.add, if_pos ⟨hc, hact⟩, hi, hj, hd]

theorem add_eq_enter (hc : refusal (addServicesChecks r.body) = none)
    (hact : actsAs s vendor r.caller = true) (hi : textId r.body.services = some i)
    (hnot : ∀ j d, textId r.body.subServices = some j → offerData r.body ≠ .ok d) :
    r.add s vendor book = book.enter vendor r.caller.userId i := by
  rw [CatalogueRequest.add, if_pos ⟨hc, hact⟩, hi]
  cases hj : textId r.body.subServices with
  | none => rfl
  | some j =>
    cases hd : offerData r.body with
    | error e => rfl
    | ok d => exact absurd hd (hnot j d hj)

/-- What the texts name can be stored. -/
theorem storable_of_text {c : Caller} (hc : refusal (addServicesChecks b) = none)
    (hi : textId b.services = some i) (hj : textId b.subServices = some j)
    (hd : offerData b = .ok d) : Storable env c b vendor := by
  have hp := castForQuery_of_textId hi
  have hp' := castForQuery_of_textId hj
  obtain ⟨price, hprice, hd⟩ := bind_eq_ok hd
  obtain ⟨category, hcategory, -⟩ := bind_eq_ok hd
  refine ⟨hc, ?_, ?_, ⟨i, objectIdOf_of_textId hi⟩, ⟨i, objectIdOf_of_textId hi⟩,
    ⟨j, objectIdOf_of_textId hj⟩, ⟨price, hprice⟩, ⟨category, hcategory⟩⟩
  · unfold ownServices
    rw [hp]
    exact ⟨_, rfl⟩
  · unfold ownOffers
    rw [hp, hp']
    exact ⟨_, rfl⟩

/-- An addition that could go no further than its service had it already, or left it halfway. -/
theorem present_of_not_halfway {c : Caller} (hc : refusal (addServicesChecks b) = none)
    (hact : ActsAs c vendor s) (hv : textOrNone b.services = true)
    (hv' : textOrNone b.subServices = true) (hi : textId b.services = some i)
    (hnot : ∀ j d, textId b.subServices = some j → offerData b ≠ .ok d)
    (h : ¬ Halfway env c b vendor s) : vendor.serviceKey c.userId i ∈ s.serviceKeys := by
  by_contra habsent
  obtain ⟨ht, ht', -⟩ := truthy_of_checks hc
  have hservices : ∃ q, ownServices b vendor c.userId = .ok q := by
    unfold ownServices
    rw [castForQuery_of_textId hi]
    exact ⟨_, rfl⟩
  obtain ⟨q, hq⟩ := hservices
  have hcount := count_ownServices ht (plainId_of_text hv) (objectIdOf_of_textId (g := i) hi) hq s
  refine h ⟨hc, hact, ⟨q, hq, not_not.mp fun hne => habsent (hcount.mp hne)⟩,
    ⟨i, objectIdOf_of_textId hi⟩, ?_⟩
  cases hj : objectIdOf (env.generated 0 2) b.subServices with
  | error e => exact Or.inl ⟨e, rfl⟩
  | ok j =>
    refine Or.inr ?_
    cases hprice : castSet castNumber b.price with
    | error e => exact Or.inl ⟨e, rfl⟩
    | ok price =>
      cases hcategory : castSet castString (ifTruthy b.category) with
      | error e => exact Or.inr ⟨e, rfl⟩
      | ok category =>
        refine absurd ?_ (hnot j ⟨price, category⟩ (textId_of_objectIdOf hv' ht' hj))
        unfold offerData
        rw [hprice, hcategory]
        rfl

/-- Whatever an addition does to the collections, it does to the book. -/
theorem refines_add (hs : Orderly s) (h : Refines s book)
    (hact : actsAs s vendor r.caller = true) (hv : textOrNone r.body.services = true)
    (hv' : textOrNone r.body.subServices = true) (hfresh : ¬ IdTaken r.env s)
    {x : Except Thrown CatalogueResponse}
    (heffect : AdditionEffect r.env r.caller r.body vendor s t x) :
    Refines t (r.add s vendor book) := by
  have hstorable : ¬ Storable r.env r.caller r.body vendor →
      refusal (addServicesChecks r.body) = none → ∀ i, textId r.body.services = some i →
      ∀ j d, textId r.body.subServices = some j → offerData r.body ≠ .ok d :=
    fun hno hc i hi j d hj hd => hno (storable_of_text hc hi hj hd)
  cases heffect with
  | nothing services offers failed unfinished invalid =>
    by_cases hc : refusal (addServicesChecks r.body) = none
    · cases hi : textId r.body.services with
      | none =>
        rw [CatalogueRequest.add, if_pos ⟨hc, hact⟩, hi]
        exact h.of_same services offers
      | some i =>
        have hnot := hstorable (fun hst => invalid.resolve_right hfresh
          ⟨actsAs_iff.mp hact, hst⟩) hc i hi
        rw [add_eq_enter hc hact hi hnot]
        refine (h.enter_present ?_).of_same services offers
        exact present_of_not_halfway hc (actsAs_iff.mp hact) hv hv' hi hnot
          (unfinished.resolve_right hfresh)
    · rw [CatalogueRequest.add, if_neg fun hand => hc hand.1]
      exact h.of_same services offers
  | half checks counted absent service services offers failed unfinished invalid =>
    obtain ⟨ht, -, -⟩ := truthy_of_checks checks
    obtain ⟨i, hi, hkey⟩ := newService_key service
    have hid := textId_of_objectIdOf hv ht hi
    rw [add_eq_enter checks hact hid
      (hstorable (invalid.resolve_right hfresh) checks i hid)]
    exact h.enter hkey services offers
  | both checks counted absent service offer services offers success =>
    obtain ⟨ht, ht', -⟩ := truthy_of_checks checks
    obtain ⟨i, hi, hkey⟩ := newService_key service
    obtain ⟨i', j, hi', hj, hofferKey, -, -⟩ := newOffer_keys offer
    obtain ⟨d, hd, hquote⟩ := quote_newOffer offer
    have hid := textId_of_objectIdOf hv ht hi
    have hid' := textId_of_objectIdOf hv' ht' hj
    rw [textId_of_objectIdOf hv ht hi', Option.some.injEq] at hid
    subst hid
    rw [add_eq_quote checks hact (textId_of_objectIdOf hv ht hi) hid' hd]
    have hfree := free_of_absent checks (plainId_of_text hv) counted absent service
    have hmid : Refines { s with providerServices := t.providerServices }
        (book.enter vendor r.caller.userId i') := h.enter hkey services rfl
    have horderly : Orderly { s with providerServices := t.providerServices } :=
      orderly_insert_service hs hfree services rfl
    refine hmid.quote_new horderly.unique hofferKey (fun hmem => hfree ?_) hquote rfl offers
    -- An offer that is there would have its service.
    rw [hkey]
    exact hs.catalogued.parent_of_offer hmem
  | offer checks counted present searched notFound offer services offers success =>
    obtain ⟨ht, ht', -⟩ := truthy_of_checks checks
    obtain ⟨i, j, hi, hj, hkey, -, -⟩ := newOffer_keys offer
    obtain ⟨d, hd, hquote⟩ := quote_newOffer offer
    rw [add_eq_quote checks hact (textId_of_objectIdOf hv ht hi) (textId_of_objectIdOf hv' ht' hj)
      hd]
    have hpresent := (count_ownServices ht (plainId_of_text hv) hi counted s).mp present
    refine (h.enter_present hpresent).quote_new hs.unique hkey ?_ hquote services offers
    exact offer_free_of_notFound ht (plainId_of_text hv) ht' (plainId_of_text hv') hi hj searched
      notFound
  | update checks counted present searched found data services offers success =>
    obtain ⟨ht, ht', -⟩ := truthy_of_checks checks
    obtain ⟨p, p', hp, hp', -⟩ := ownOffers_eq_ok searched
    obtain ⟨i, hi⟩ := textId_of_castForQuery hv ht hp
    obtain ⟨j, hj⟩ := textId_of_castForQuery hv' ht' hp'
    rw [add_eq_quote checks hact hi hj data]
    have hpresent := (count_ownServices ht (plainId_of_text hv)
      (objectIdOf_of_textId (g := i) hi) counted s).mp present
    have hkey := key_of_ownOffers hi hj searched (Collection.mem_of_findOne found).2
    exact (h.enter_present hpresent).quote_old hs.unique found hkey services offers

end Additions

section Requests

variable {s : Db} {book : PriceBook} {vendor : Vendor} {r : CatalogueRequest}

/-- A provider of another type adds nothing. -/
theorem run_addServicesBy_refused (h : actsAs s vendor r.caller ≠ true) :
    ((addServicesBy r.env r.caller r.body vendor).run exec s).1 = s := by
  unfold addServicesBy checked
  cases refusal (addServicesChecks r.body) with
  | some key => rfl
  | none =>
    simp only [asVendor, getProvider, run_query_bind]
    cases hp : s.providers.get? r.caller.userId with
    | none => rfl
    | some p =>
      dsimp only
      by_cases htype : p.userType = vendor.userType
      · exact absurd (actsAs_iff.mpr ⟨p, hp, htype⟩) h
      · rw [if_neg htype]
        rfl

theorem add_refused (h : actsAs s vendor r.caller ≠ true) : r.add s vendor book = book := by
  rw [CatalogueRequest.add, if_neg fun hand => h hand.2]

def Vendor.removal : Vendor → CatalogueHandler
  | company => .deteleCompanyServicesByID
  | individual => .deteleIndividualServicesByID

theorem serve_removal (hr : r.handler = vendor.removal) (s : Db) :
    serveCatalogue s r = ((deleteServicesBy r.caller r.body vendor).run exec s).1 := by
  obtain ⟨handler, c, b, env⟩ := r
  subst hr
  rw [serveCatalogue, CatalogueRequest.program, Prog.run_catchAll]
  cases vendor with
  | company => rfl
  | individual => rfl

def withoutOffer (s : Db) : Except Thrown (ProviderSubService → Bool) → Db
  | .ok q => { s with providerSubServices := s.providerSubServices.deleteOne q }
  | .error _ => s

theorem state_deleteServicesBy (c : Caller) (b : CatalogueBody) (vendor : Vendor) (s : Db) :
    ((deleteServicesBy c b vendor).run exec s).1 =
      if actsAs s vendor c = true then withoutOffer s (offerById b.id) else s := by
  cases hp : s.providers.get? c.userId with
  | none =>
    have hact : actsAs s vendor c = false := by rw [actsAs, hp]; rfl
    simp only [deleteServicesBy, asVendor, getProvider, run_query_bind, hp, hact]
    rfl
  | some p =>
    by_cases htype : p.userType = vendor.userType
    · rw [if_pos (actsAs_iff.mpr ⟨p, hp, htype⟩)]
      simp only [deleteServicesBy, asVendor, getProvider, run_query_bind, hp, if_pos htype,
        deleteIndividualServices]
      cases offerById b.id with
      | error e => rfl
      | ok q => rfl
    · have hact : ¬ actsAs s vendor c = true := by
        rw [actsAs, hp, Option.any_some, decide_eq_true_eq]
        exact htype
      rw [if_neg hact]
      simp only [deleteServicesBy, asVendor, getProvider, run_query_bind, hp, if_neg htype]
      rfl

/-- A text that is no id, or no text at all, selects nothing. -/
theorem withoutOffer_of_no_id {v : Option Json} (hv : textOrNone v = true) (hid : textId v = none)
    (s : Db) : withoutOffer s (offerById v) = s := by
  rcases v with _ | v
  · have hnone : s.providerSubServices.deleteOne (fun o => decide (some o.id = none)) =
        s.providerSubServices :=
      Collection.ext (List.eraseP_of_forall_not fun o _ => by simp)
    change withoutOffer s (.ok fun o => decide (some o.id = none)) = s
    rw [withoutOffer, hnone]
  · cases v with
    | str text =>
      have hcast : offerById (some (.str text)) = .error .castError := by
        change ((castObjectIdString text).map _).map _ = _
        rw [castObjectIdString, show ObjectId.ofString text = none from hid]
        rfl
      rw [hcast]
      rfl
    | _ => cases hv

theorem refines_remove (vendor : Vendor) (hs : Orderly s) (h : Refines s book)
    (hr : r.handler = vendor.removal) (hv : textOrNone r.body.id = true) :
    Refines (serveCatalogue s r) (r.remove s vendor book) := by
  rw [serve_removal hr, state_deleteServicesBy, CatalogueRequest.remove]
  split
  · cases hid : textId r.body.id with
    | some id =>
      rw [offerById, castForQuery_of_textId hid]
      exact h.strike hs.unique fun o => by simp
    | none =>
      rw [withoutOffer_of_no_id hv hid]
      exact h
  · exact h

theorem refines_addition (vendor : Vendor) (hs : Orderly s) (h : Refines s book)
    (hr : r.handler = vendor.addition) (hv : textOrNone r.body.services = true)
    (hv' : textOrNone r.body.subServices = true) (hfresh : ¬ IdTaken r.env s) :
    Refines (serveCatalogue s r) (r.add s vendor book) := by
  by_cases hact : actsAs s vendor r.caller = true
  · obtain ⟨x, heffect, -⟩ := effect_serve hr s
    exact refines_add hs h hact hv hv' hfresh heffect
  · rw [serve_addition hr, run_addServicesBy_refused hact, add_refused hact]
    exact h

/-- One request. -/
theorem refines_serve (hs : Orderly s) (h : Refines s book) (hr : r.textual = true)
    (hfresh : ¬ IdTaken r.env s) : Refines (serveCatalogue s r) (r.post s book) := by
  obtain ⟨handler, c, b, env⟩ := r
  cases handler with
  | addServicesbyCompany =>
    obtain ⟨hv, hv'⟩ := Bool.and_eq_true_iff.mp hr
    exact refines_addition .company hs h rfl hv hv' hfresh
  | addServicesbyIndividual =>
    obtain ⟨hv, hv'⟩ := Bool.and_eq_true_iff.mp hr
    exact refines_addition .individual hs h rfl hv hv' hfresh
  | addServicesbyCompanyToWorker order => cases hr
  | deteleCompanyServicesByID => exact refines_remove .company hs h rfl hr
  | deteleIndividualServicesByID => exact refines_remove .individual hs h rfl hr

end Requests

section Runs

variable {s t : Db} {r : CatalogueRequest}

theorem exists_vendor (hr : r.handler.editsOwnCatalogue = true) :
    ∃ vendor : Vendor, r.handler = vendor.addition ∨ r.handler = vendor.removal := by
  cases hh : r.handler with
  | addServicesbyCompany => exact ⟨.company, Or.inl rfl⟩
  | addServicesbyIndividual => exact ⟨.individual, Or.inl rfl⟩
  | addServicesbyCompanyToWorker order =>
    rw [hh] at hr
    cases hr
  | deteleCompanyServicesByID => exact ⟨.company, Or.inr rfl⟩
  | deteleIndividualServicesByID => exact ⟨.individual, Or.inr rfl⟩

/-- A request of a vendor leaves the accounts alone. -/
theorem providers_serveCatalogue (hr : r.handler.editsOwnCatalogue = true) (s : Db) :
    (serveCatalogue s r).providers = s.providers := by
  obtain ⟨vendor, hadd | hremove⟩ := exists_vendor hr
  · exact providers_serve_addition hadd s
  · rw [serve_removal hremove, state_deleteServicesBy]
    split
    · cases offerById r.body.id with
      | error e => rfl
      | ok q => rfl
    · rfl

/-- New rows have the ids that the request gives out. -/
structure NewIds (env : CatalogueEnv) (s t : Db) : Prop where
  services : t.providerServices.docs.map ProviderService.id ⊆
    s.providerServices.docs.map ProviderService.id ++ [env.newId 0 0]
  offers : t.providerSubServices.docs.map ProviderSubService.id ⊆
    s.providerSubServices.docs.map ProviderSubService.id ++ [env.newId 0 1]

theorem newIds_effect {env : CatalogueEnv} {c : Caller} {b : CatalogueBody} {vendor : Vendor}
    {x : Except Thrown CatalogueResponse} (h : AdditionEffect env c b vendor s t x) :
    NewIds env s t := by
  have hservice : ∀ {n : ℕ} {o : ProviderService}, newService env b vendor c.userId n = .ok o →
      s.providerServices.insert o = some t.providerServices →
      t.providerServices.docs.map ProviderService.id ⊆
        s.providerServices.docs.map ProviderService.id ++ [env.newId 0 0] := by
    intro n o ho hinsert
    rw [(Collection.insert_eq_some hinsert).2, List.map_append, List.map_singleton,
      newService_id ho]
    exact List.Subset.refl _
  have hoffer : ∀ {n : ℕ} {o : ProviderSubService}, newOffer env b vendor c.userId n = .ok o →
      s.providerSubServices.insert o = some t.providerSubServices →
      t.providerSubServices.docs.map ProviderSubService.id ⊆
        s.providerSubServices.docs.map ProviderSubService.id ++ [env.newId 0 1] := by
    intro n o ho hinsert
    rw [(Collection.insert_eq_some hinsert).2, List.map_append, List.map_singleton,
      newOffer_id ho]
    exact List.Subset.refl _
  cases h with
  | nothing services offers failed unfinished invalid =>
    exact ⟨services ▸ List.subset_append_left _ _, offers ▸ List.subset_append_left _ _⟩
  | half checks counted absent service services offers failed unfinished invalid =>
    exact ⟨hservice service services, offers ▸ List.subset_append_left _ _⟩
  | both checks counted absent service offer services offers success =>
    exact ⟨hservice service services, hoffer offer offers⟩
  | offer checks counted present searched notFound offer services offers success =>
    exact ⟨services ▸ List.subset_append_left _ _, hoffer offer offers⟩
  | update checks counted present searched found data services offers success =>
    refine ⟨services ▸ List.subset_append_left _ _, ?_⟩
    have hkept : t.providerSubServices.docs.map ProviderSubService.id =
        s.providerSubServices.docs.map ProviderSubService.id := by
      rw [offers]
      exact map_key_updateFirst ProviderSubService.id _ _ (OfferSet.apply_id _ _) _
    rw [hkept]
    exact List.subset_append_left _ _

theorem newIds_serve (hr : r.handler.editsOwnCatalogue = true) (s : Db) :
    NewIds r.env s (serveCatalogue s r) := by
  obtain ⟨vendor, hadd | hremove⟩ := exists_vendor hr
  · obtain ⟨x, heffect, -⟩ := effect_serve hadd s
    exact newIds_effect heffect
  · rw [serve_removal hremove, state_deleteServicesBy]
    have hsame : NewIds r.env s s :=
      ⟨List.subset_append_left _ _, List.subset_append_left _ _⟩
    split
    · cases offerById r.body.id with
      | error e => exact hsame
      | ok q =>
        have hfewer : (s.providerSubServices.deleteOne q).docs.map ProviderSubService.id ⊆
            s.providerSubServices.docs.map ProviderSubService.id :=
          (List.eraseP_sublist.map _).subset
        exact ⟨hsame.services, List.Subset.trans hfewer hsame.offers⟩
    · exact hsame

def books (s : Db) (rs : List CatalogueRequest) : PriceBook :=
  rs.foldl (fun book r => r.post s book) .blank

/-- What holds after the requests `rs` have been served from an empty catalogue in `s`. -/
structure BooksKept (s : Db) (rs : List CatalogueRequest) (t : Db) : Prop where
  orderly : Orderly t
  refines : Refines t (books s rs)
  accounts : t.providers = s.providers
  serviceIds : t.providerServices.docs.map ProviderService.id ⊆ rs.map fun r => r.env.newId 0 0
  offerIds : t.providerSubServices.docs.map ProviderSubService.id ⊆ rs.map fun r => r.env.newId 0 1

/-- Ids that no request has given out before are not in use. -/
theorem BooksKept.fresh {rs : List CatalogueRequest} (h : BooksKept s rs t)
    (hservice : r.env.newId 0 0 ∉ rs.map fun r => r.env.newId 0 0)
    (hoffer : r.env.newId 0 1 ∉ rs.map fun r => r.env.newId 0 1) : ¬ IdTaken r.env t := by
  rintro (⟨o, ho⟩ | ⟨o, ho⟩)
  · obtain ⟨hmem, hid⟩ := (t.providerServices.get?_eq_some_iff _ _).mp ho
    exact hservice (h.serviceIds (List.mem_map.mpr ⟨o, hmem, hid⟩))
  · obtain ⟨hmem, hid⟩ := (t.providerSubServices.get?_eq_some_iff _ _).mp ho
    exact hoffer (h.offerIds (List.mem_map.mpr ⟨o, hmem, hid⟩))

/-- What a request is to do depends on the accounts alone. -/
theorem post_congr (h : t.providers = s.providers) (r : CatalogueRequest) (book : PriceBook) :
    r.post t book = r.post s book := by
  unfold CatalogueRequest.post CatalogueRequest.add CatalogueRequest.remove actsAs
  rw [h]

theorem BooksKept.serve {rs : List CatalogueRequest} (h : BooksKept s rs t) (hr : r.textual = true)
    (hservice : r.env.newId 0 0 ∉ rs.map fun r => r.env.newId 0 0)
    (hoffer : r.env.newId 0 1 ∉ rs.map fun r => r.env.newId 0 1) :
    BooksKept s (rs ++ [r]) (serveCatalogue t r) := by
  obtain ⟨hedits, hplain⟩ := CatalogueRequest.plainIds_of_textual hr
  have hids := newIds_serve hedits t
  constructor
  · exact orderly_serve h.orderly r hedits hplain
  · have hstep := refines_serve h.orderly h.refines hr (h.fresh hservice hoffer)
    rw [post_congr h.accounts] at hstep
    rw [books, List.foldl_append]
    exact hstep
  · rw [providers_serveCatalogue hedits, h.accounts]
  · rw [List.map_append]
    exact List.Subset.trans hids.services (List.append_subset.mpr
      ⟨List.subset_append_of_subset_left _ h.serviceIds, List.subset_append_right _ _⟩)
  · rw [List.map_append]
    exact List.Subset.trans hids.offers (List.append_subset.mpr
      ⟨List.subset_append_of_subset_left _ h.offerIds, List.subset_append_right _ _⟩)

theorem booksKept_run (hservices : s.providerServices.docs = [])
    (hoffers : s.providerSubServices.docs = []) (rs : List CatalogueRequest)
    (htext : ∀ r ∈ rs, r.textual = true) (hserviceIds : (rs.map fun r => r.env.newId 0 0).Nodup)
    (hofferIds : (rs.map fun r => r.env.newId 0 1).Nodup) :
    BooksKept s rs (runFrom serveCatalogue s rs) := by
  induction rs using List.reverseRecOn with
  | nil =>
    refine ⟨⟨⟨?_, ?_⟩, ?_⟩, refines_blank hservices hoffers, rfl, ?_, ?_⟩
    · intro o ho
      rw [runFrom_nil, hoffers] at ho
      cases ho
    · intro o ho
      rw [runFrom_nil, hoffers] at ho
      cases ho
    · rw [runFrom_nil, UniqueRows, Db.serviceKeys, Db.offerKeys, hservices, hoffers]
      exact ⟨List.nodup_nil, List.nodup_nil⟩
    · rw [runFrom_nil, hservices]
      exact List.nil_subset _
    · rw [runFrom_nil, hoffers]
      exact List.nil_subset _
  | append_singleton rs r ih =>
    rw [List.map_append, List.map_singleton, List.nodup_append] at hserviceIds hofferIds
    have hbefore := ih (fun q hq => htext q (List.mem_append_left _ hq)) hserviceIds.1 hofferIds.1
    rw [runFrom_append]
    refine hbefore.serve (htext r (List.mem_append_right _ List.mem_cons_self)) ?_ ?_
    · exact fun hmem => hserviceIds.2.2 _ hmem _ List.mem_cons_self rfl
    · exact fun hmem => hofferIds.2.2 _ hmem _ List.mem_cons_self rfl

end Runs

section Readings

def Vendor.listing (c : Caller) : Vendor → Action OfferingResponse
  | company => getCompanyServicesList c
  | individual => getIndividualServices c

def Vendor.details (c : Caller) (b : CatalogueBody) : Vendor → Action OfferingResponse
  | company => getCompanyServicesDetailsByID c b
  | individual => getIndividualServicesDetailsByID c b

namespace PriceBook

/-- The list has the vendor's quotes, each once, and nothing else. -/
structure Lists (book : PriceBook) (vendor : Vendor) (owner : ObjectId) (os : List ListedOffer) :
    Prop where
  once : (os.map fun o => (o.offer.serviceData, o.offer.subServices)).Nodup
  complete : ∀ i j q, book.quotes ⟨vendor, owner, i, j⟩ = some q →
    ∃ o ∈ os, o.offer.serviceData = some i ∧ o.offer.subServices = some j ∧ o.offer.quote = q
  sound : ∀ o ∈ os, ∃ i j, o.offer.serviceData = some i ∧ o.offer.subServices = some j ∧
    book.quotes ⟨vendor, owner, i, j⟩ = some o.offer.quote

/-- The list has the services that the vendor has entered, each once, and nothing else. -/
structure ListsServices (book : PriceBook) (vendor : Vendor) (owner : ObjectId)
    (os : List (ProviderService × Option ListedService)) : Prop where
  once : (os.map fun o => o.1.serviceData).Nodup
  complete : ∀ i, (vendor, owner, i) ∈ book.services → ∃ o ∈ os, o.1.serviceData = some i
  sound : ∀ o ∈ os, ∃ i, o.1.serviceData = some i ∧ (vendor, owner, i) ∈ book.services

/-- The details are those of the quote with the id, if there is one. -/
def Details (book : PriceBook) (id : ObjectId) : Option OfferDetails → Prop
  | some x => ∃ l, x.service = some l.service ∧ x.subService = some l.subService ∧
      book.quotes l = some ⟨id, x.price, x.category⟩
  | none => ∀ l q, book.quotes l = some q → q.id ≠ id

end PriceBook

variable {s : Db} {c : Caller} {vendor : Vendor} {book : PriceBook}

theorem run_listedTo {k : Provider → Action OfferingResponse} {p : Provider}
    (hp : s.providers.get? c.userId = some p) (htype : p.userType = vendor.userType) :
    (listedTo c vendor k).run exec s = ((k p).catchAll offeringError).run exec s := by
  have hget : (getProvider c.userId).run exec s = (s, .ok (s.providers.get? c.userId)) := rfl
  rw [listedTo, Prog.run_catchAll, Prog.run_catchAll, Prog.run_bind, hget, hp]
  simp only [if_pos htype]

theorem answer_listing (h : ActsAs c vendor s) :
    answerOffering s (vendor.listing c) =
      { key := .success
        result := some (.offers (((s.providerSubServices.find fun o =>
          vendor.field o.company o.individual = some c.userId &&
            o.userType = some vendor.userType).map (populateOffer s)).map listedOffer)) } := by
  obtain ⟨p, hp, htype⟩ := h
  have hid : p.id = c.userId := ((s.providers.get?_eq_some_iff _ _).mp hp).2
  have hlisting : vendor.listing c = getServicesOf c vendor := by
    cases vendor with
    | company => rfl
    | individual => rfl
  rw [hlisting, answerOffering, getServicesOf, run_listedTo hp htype, hid]
  rfl

theorem answer_companyServicesList (h : ActsAs c .company s) :
    answerOffering s (companyServicesList c) =
      { key := .success
        result := some (.services ((s.providerServices.find fun o =>
          o.company = some c.userId && o.userType = some companyType).map fun o =>
            (o, (o.serviceData.bind s.services.get?).map listedService))) } := by
  obtain ⟨p, hp, htype⟩ := h
  have hid : p.id = c.userId := ((s.providers.get?_eq_some_iff _ _).mp hp).2
  rw [answerOffering, companyServicesList, run_listedTo hp htype, hid]
  rfl

theorem answer_details {text : String} {id : ObjectId} (h : ActsAs c vendor s)
    (hid : ObjectId.ofString text = some id) :
    answerOffering s (vendor.details c { id := some (.str text) }) =
      { key := .success
        result := some (.details
          (((s.providerSubServices.get? id).map (populateOffer s)).map offerDetails)) } := by
  obtain ⟨p, hp, htype⟩ := h
  have hdetails : vendor.details c { id := some (.str text) } =
      getServicesDetailsOf c { id := some (.str text) } vendor := by
    cases vendor with
    | company => rfl
    | individual => rfl
  have hcond : offerById (some (.str text)) =
      .ok fun o => decide (some o.id = some id) := by
    rw [offerById, castForQuery_str hid]
    rfl
  have hfind : s.providerSubServices.findOne (fun o => decide (some o.id = some id)) =
      s.providerSubServices.get? id :=
    s.providerSubServices.findOne_key fun o => by simp
  rw [hdetails, answerOffering, getServicesDetailsOf, run_listedTo hp htype, hcond, ← hfind]
  rfl

/-- The rows with the vendor and the owner in their key. -/
theorem key_eq_line_iff {o : ProviderSubService} {l : Line} :
    o.key = l.key ↔ l.vendor.field o.company o.individual = some l.owner ∧
      o.userType = some l.vendor.userType ∧ o.serviceData = some l.service ∧
      o.subServices = some l.subService := by
  rw [ProviderSubService.key, Line.key, Vendor.offerKey, CatalogueKey.offer.injEq]
  constructor
  · rintro ⟨htype, howner, hservice, hsub⟩
    rw [htype, rowOwner_vendor] at howner
    exact ⟨howner, htype, hservice, hsub⟩
  · rintro ⟨howner, htype, hservice, hsub⟩
    rw [htype, rowOwner_vendor]
    exact ⟨rfl, howner, hservice, hsub⟩

theorem Refines.lists (h : Refines s book) (hunique : UniqueRows s) (owner : ObjectId) :
    book.Lists vendor owner (((s.providerSubServices.find fun o =>
      vendor.field o.company o.individual = some owner &&
        o.userType = some vendor.userType).map (populateOffer s)).map listedOffer) := by
  have hrow : ∀ {l : Line} {o : ProviderSubService}, o ∈ s.providerSubServices.docs →
      o.key = l.key → book.quotes l = some o.quote := by
    intro l o ho hkey
    rw [h.quotes, (Collection.lookup_eq_some_iff hunique.2 _ _).mpr ⟨ho, hkey⟩, Option.map_some]
  have hline : ∀ {o : ProviderSubService}, o ∈ s.providerSubServices.docs →
      vendor.field o.company o.individual = some owner → o.userType = some vendor.userType →
      ∃ i j, o.serviceData = some i ∧ o.subServices = some j ∧
        o.key = Line.key ⟨vendor, owner, i, j⟩ := by
    intro o ho howner htype
    obtain ⟨l, hl⟩ := h.lines o ho
    obtain ⟨-, -, hservice, hsub⟩ := key_eq_line_iff.mp hl
    exact ⟨l.service, l.subService, hservice, hsub,
      key_eq_line_iff.mpr ⟨howner, htype, hservice, hsub⟩⟩
  constructor
  · rw [List.map_map, List.map_map]
    -- Among the rows of one owner, the two ids tell as much as the key.
    have hnodup := hunique.2.sublist (List.Sublist.map ProviderSubService.key
      (List.filter_sublist (p := fun o => vendor.field o.company o.individual = some owner &&
        o.userType = some vendor.userType)))
    refine Collection.nodup_map_of_determines (fun x => CatalogueKey.offer (some vendor.userType)
      (some owner) x.1 x.2) hnodup fun o ho => ?_
    have hsel := (List.mem_filter.mp ho).2
    rw [Bool.and_eq_true, decide_eq_true_eq, decide_eq_true_eq] at hsel
    rw [ProviderSubService.key, hsel.2, rowOwner_vendor, hsel.1]
    rfl
  · intro i j q hq
    rw [h.quotes] at hq
    obtain ⟨o, ho, rfl⟩ := Option.map_eq_some_iff.mp hq
    obtain ⟨hmem, hkey⟩ := (Collection.lookup_eq_some_iff hunique.2 _ _).mp ho
    obtain ⟨howner, htype, hservice, hsub⟩ := key_eq_line_iff.mp hkey
    refine ⟨listedOffer (populateOffer s o), ?_, hservice, hsub, rfl⟩
    refine List.mem_map_of_mem (List.mem_map_of_mem (List.mem_filter.mpr ⟨hmem, ?_⟩))
    rw [Bool.and_eq_true, decide_eq_true_eq, decide_eq_true_eq]
    exact ⟨howner, htype⟩
  · intro o ho
    obtain ⟨x, hx, rfl⟩ := List.mem_map.mp ho
    obtain ⟨y, hy, rfl⟩ := List.mem_map.mp hx
    obtain ⟨hmem, hsel⟩ := List.mem_filter.mp hy
    rw [Bool.and_eq_true, decide_eq_true_eq, decide_eq_true_eq] at hsel
    obtain ⟨i, j, hservice, hsub, hkey⟩ := hline hmem hsel.1 hsel.2
    exact ⟨i, j, hservice, hsub, hrow hmem hkey⟩

theorem Refines.listsServices (h : Refines s book) (hunique : UniqueRows s) (owner : ObjectId) :
    book.ListsServices .company owner ((s.providerServices.find fun o =>
      o.company = some owner && o.userType = some companyType).map fun o =>
        (o, (o.serviceData.bind s.services.get?).map listedService)) := by
  have hkey : ∀ {o : ProviderService}, o.company = some owner → o.userType = some companyType →
      o.key = .service (some companyType) (some owner) o.serviceData := by
    intro o howner htype
    rw [ProviderService.key, htype, ← howner]
    rfl
  constructor
  · rw [List.map_map]
    have hnodup := hunique.1.sublist (List.Sublist.map ProviderService.key
      (List.filter_sublist (p := fun o => o.company = some owner &&
        o.userType = some companyType)))
    refine Collection.nodup_map_of_determines (CatalogueKey.service (some companyType)
      (some owner)) hnodup fun o ho => ?_
    have hsel := (List.mem_filter.mp ho).2
    rw [Bool.and_eq_true, decide_eq_true_eq, decide_eq_true_eq] at hsel
    exact hkey hsel.1 hsel.2
  · intro i hi
    obtain ⟨o, ho, hentered⟩ := List.mem_map.mp ((h.services _).mpr ⟨_, hi, rfl⟩)
    injection hentered with htype howner hservice
    rw [htype, show some Vendor.company.userType = some companyType from rfl] at howner
    refine ⟨_, List.mem_map_of_mem (List.mem_filter.mpr ⟨ho, ?_⟩), hservice⟩
    rw [Bool.and_eq_true, decide_eq_true_eq, decide_eq_true_eq]
    exact ⟨howner, htype⟩
  · intro x hx
    obtain ⟨o, ho, rfl⟩ := List.mem_map.mp hx
    obtain ⟨hmem, hsel⟩ := List.mem_filter.mp ho
    rw [Bool.and_eq_true, decide_eq_true_eq, decide_eq_true_eq] at hsel
    obtain ⟨⟨v, owner', i⟩, hentered, hsame⟩ :=
      (h.services _).mp (List.mem_map_of_mem (f := ProviderService.key) hmem)
    rw [hkey hsel.1 hsel.2] at hsame
    injection hsame with htype howner hservice
    have hvendor : Vendor.company = v := Vendor.userType_injective (Option.some.inj htype)
    cases hvendor
    cases howner
    exact ⟨i, hservice, hentered⟩

theorem Refines.details (h : Refines s book) (hunique : UniqueRows s) (id : ObjectId) :
    book.Details id
      (((s.providerSubServices.get? id).map (populateOffer s)).map offerDetails) := by
  cases hget : s.providerSubServices.get? id with
  | none =>
    intro l q hq hid
    rw [h.quotes] at hq
    obtain ⟨o, ho, rfl⟩ := Option.map_eq_some_iff.mp hq
    have hmem := ((Collection.lookup_eq_some_iff hunique.2 _ _).mp ho).1
    have hthere := (s.providerSubServices.get?_eq_some_iff id o).mpr ⟨hmem, hid⟩
    rw [hget] at hthere
    cases hthere
  | some o =>
    obtain ⟨hmem, rfl⟩ := (s.providerSubServices.get?_eq_some_iff id o).mp hget
    obtain ⟨l, hl⟩ := h.lines o hmem
    obtain ⟨-, -, hservice, hsub⟩ := key_eq_line_iff.mp hl
    refine ⟨l, hservice, hsub, ?_⟩
    rw [h.quotes, (Collection.lookup_eq_some_iff hunique.2 _ _).mpr ⟨hmem, hl⟩]
    rfl

/-- After every run of the vendors' requests from an empty catalogue, with ids that are texts and
new rows that get new ids: what a vendor reads is what the requests have put into the books. The
list of its offers has its quotes, the list of its services has the services that it has entered,
and the details of an id are those of the quote with this id. -/
theorem readings_follow_books (s : Db) (hservices : s.providerServices.docs = [])
    (hoffers : s.providerSubServices.docs = []) (rs : List CatalogueRequest)
    (htext : ∀ r ∈ rs, r.textual = true) (hserviceIds : (rs.map fun r => r.env.newId 0 0).Nodup)
    (hofferIds : (rs.map fun r => r.env.newId 0 1).Nodup) (c : Caller) (vendor : Vendor)
    (hc : ActsAs c vendor s) :
    let t := runFrom serveCatalogue s rs
    (∃ os, answerOffering t (vendor.listing c) = ⟨.success, some (.offers os), none⟩ ∧
        (books s rs).Lists vendor c.userId os) ∧
      (vendor = .company → ∃ os,
        answerOffering t (companyServicesList c) = ⟨.success, some (.services os), none⟩ ∧
          (books s rs).ListsServices .company c.userId os) ∧
      ∀ text id, ObjectId.ofString text = some id → ∃ x,
        answerOffering t (vendor.details c { id := some (.str text) }) =
            ⟨.success, some (.details x), none⟩ ∧
          (books s rs).Details id x := by
  intro t
  have hkept := booksKept_run hservices hoffers rs htext hserviceIds hofferIds
  have hacts : ActsAs c vendor t := by
    obtain ⟨p, hp, htype⟩ := hc
    exact ⟨p, by rw [hkept.accounts]; exact hp, htype⟩
  refine ⟨⟨_, answer_listing hacts, hkept.refines.lists hkept.orderly.unique _⟩, ?_, ?_⟩
  · rintro rfl
    exact ⟨_, answer_companyServicesList hacts,
      hkept.refines.listsServices hkept.orderly.unique _⟩
  · intro text id hid
    exact ⟨_, answer_details hacts hid, hkept.refines.details hkept.orderly.unique id⟩

def sampleQuotes : List CatalogueRequest :=
  [sampleAddition 1 (.str "service---01"),
    { sampleAddition 2 (.str "service---01") with
      body :=
        { services := some (.str "service---01")
          subServices := some (.str "subservice02")
          price := some (.num 300 0) } },
    { sampleAddition 3 (.str "service---01") with
      body :=
        { services := some (.str "service---01")
          subServices := some (.str "subservice01")
          price := some (.num 80 0) } },
    { sampleAddition 4 (.str "service---01") with
      handler := .deteleCompanyServicesByID
      body := { id := some (.str "000000000000000000004e21") } }]

/-- One quote is left in the book, and it is what the company reads. -/
theorem readings_follow_sample_books :
    (books bareDb sampleQuotes).quotes
        ⟨.company, company.userId, idOf "service---01", idOf "subservice01"⟩ =
        some ⟨(sampleCatalogueEnv 1).newId 0 1, some (.fin 80), none⟩ ∧
      (books bareDb sampleQuotes).quotes
        ⟨.company, company.userId, idOf "service---01", idOf "subservice02"⟩ = none ∧
      ∃ os, answerOffering (runFrom serveCatalogue bareDb sampleQuotes)
          (getCompanyServicesList company) = ⟨.success, some (.offers os), none⟩ ∧
        (books bareDb sampleQuotes).Lists .company company.userId os := by
  have hacts : ActsAs company .company bareDb := actsAs_iff.mp (by decide +kernel)
  exact ⟨by decide +kernel, by decide +kernel,
    (readings_follow_books bareDb rfl rfl sampleQuotes (by decide +kernel) (by decide +kernel)
      (by decide +kernel) company .company hacts).1⟩

end Readings

end DoQwik
