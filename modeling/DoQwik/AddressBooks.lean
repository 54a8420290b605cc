import DoQwik.JobLocations

/-! The address book of a user: its addresses, the list of their ids in the record of the user,
and the default among them. The list is extended after the address was created, and nothing is
ever taken off it. -/
namespace DoQwik
open JsValues DocStore Interleave

def hasAddress (s : Db) (u l : ObjectId) : Bool :=
  (s.addresses.get? l).any fun a => a.userId = some u

/-- The list of the user holds its addresses, each once, and the default is one of them. -/
structure BookAgrees (s : Db) (u : User) : Prop where
  nodup : u.addressData.Nodup
  listed : ∀ l, l ∈ u.addressData ↔ hasAddress s u.id l = true
  default : ∀ l, u.defaultAddress = some l → hasAddress s u.id l = true

def BooksAgree (s : Db) : Prop := ∀ u ∈ s.users.docs, BookAgrees s u

/-- The user is there, and the request removes one of its addresses, or makes its default what is
none of them. -/
def tearsBook (s : Db) (r : AddressRequest) : Bool :=
  (s.users.get? r.caller.userId).isSome &&
    match r.handler with
    | .removeAddress =>
      (refusal (removeAddressChecks r.body)).isNone &&
        (selected s.addresses (addressOf r.body.addressId r.caller.userId)).isSome
    | .setDefaultAddress =>
      (refusal (addressIdChecks r.body)).isNone &&
        (addressOf r.body.addressId r.caller.userId).isOk &&
        match castSet castObjectId r.body.addressId with
        | .ok (some (some l)) => !hasAddress s r.caller.userId l
        | _ => false
    | _ => false

def addressIds (s : Db) (u : ObjectId) : List ObjectId :=
  ((s.users.get? u).map User.addressData).getD []

theorem nodup_eraseDups {α : Type} [DecidableEq α] (l : List α) : l.eraseDups.Nodup := by
  rw [← FirstOccurrences.uniques_eq_eraseDups]
  exact FirstOccurrences.nodup_uniques l

section Serving

variable {s : Db} {env : Env} {c : Caller} {b : AddressBody}

theorem serveAddress_eq (s : Db) (r : AddressRequest) :
    serveAddress s r = (r.handle.run exec s).1 := by
  unfold serveAddress AddressRequest.program
  rw [Prog.run_catchAll]

def withAddress (now : ℤ) (l : ObjectId) (ids : List ObjectId) (u : User) : User :=
  { u with addressData := (ids ++ [l]).eraseDups, updatedAt := now }

theorem run_createDataAddress_some {a : Address} {as : Collection Address.id}
    (h : s.addresses.insert a = some as) :
    (createDataAddress (.ok a)).run exec s = ({ s with addresses := as }, .ok a) := by
  change Prog.run exec ((fun created : Bool => if created = true then pure a
    else throwing .duplicateKey) (exec (.createAddress a) s).2) (exec (.createAddress a) s).1 = _
  rw [exec_createAddress_some h]
  rfl

theorem run_createDataAddress_none {a : Address} (h : s.addresses.insert a = none) :
    (createDataAddress (.ok a)).run exec s = (s, .error .duplicateKey) := by
  change Prog.run exec ((fun created : Bool => if created = true then pure a
    else throwing .duplicateKey) (exec (.createAddress a) s).2) (exec (.createAddress a) s).1 = _
  rw [exec_createAddress_none h]
  rfl

theorem run_addAddressIDtoUserProfile {u : User} {id : ObjectId} (h : s.users.get? id = some u)
    (l : ObjectId) :
    (addAddressIDtoUserProfile env l id).run exec s =
      ({ s with
          users := s.users.updateOne (fun v => v.id = id) (withAddress env.now l u.addressData)
            (fun _ => rfl) }, .ok ()) := by
  unfold addAddressIDtoUserProfile
  rw [Prog.run_catchAll]
  simp only [run_query_bind, h, Option.map_some, FirstOccurrences.uniques_eq_eraseDups]
  rfl

/-- `address` does nothing, or it creates an address and puts it on the list. -/
theorem serve_address (s : Db) (env : Env) (c : Caller) (b : AddressBody) :
    serveAddress s ⟨.address, c, b, env⟩ = s ∨
      ∃ u a as, s.users.get? c.userId = some u ∧ a.userId = some c.userId ∧
        s.addresses.insert a = some as ∧
        serveAddress s ⟨.address, c, b, env⟩ =
          { s with
            addresses := as
            users := s.users.updateOne (fun v => v.id = u.id)
              (withAddress env.now a.id u.addressData) (fun _ => rfl) } := by
  rw [serveAddress_eq]
  simp only [AddressRequest.handle, address, checked]
  cases refusal (addressChecks b) with
  | some key => exact Or.inl rfl
  | none =>
    simp only [run_query_bind]
    cases hu : s.users.get? c.userId with
    | none => exact Or.inl rfl
    | some u =>
      dsimp only
      cases hnew : newAddress env c b u.usersId with
      | error e => exact Or.inl rfl
      | ok a =>
        rw [Prog.run_bind]
        cases hi : s.addresses.insert a with
        | none =>
          rw [run_createDataAddress_none hi]
          exact Or.inl rfl
        | some as =>
          have hu' : s.users.get? u.id = some u := by
            rw [((s.users.get?_eq_some_iff _ _).mp hu).2]
            exact hu
          rw [run_createDataAddress_some hi]
          dsimp only
          rw [Prog.run_bind, run_addAddressIDtoUserProfile (by exact hu')]
          exact Or.inr ⟨u, a, as, rfl, (newAddress_spec hnew).2, hi, rfl⟩

/-- `edit_address` changes no id and no owner. -/
theorem serve_editAddress (s : Db) (env : Env) (c : Caller) (b : AddressBody)
    (addressId : Option String) :
    serveAddress s ⟨.editAddress addressId, c, b, env⟩ = s ∨
      ∃ p d, serveAddress s ⟨.editAddress addressId, c, b, env⟩ =
        { s with addresses := s.addresses.updateOne p (AddressSet.apply d) d.apply_id } := by
  rw [serveAddress_eq]
  simp only [AddressRequest.handle, editAddress, checked, getAddressDataById, updateAddressData]
  cases refusal (editAddressChecks b addressId) with
  | some key => exact Or.inl rfl
  | none =>
    cases addressOf (addressId.map .str) c.userId with
    | error e => exact Or.inl rfl
    | ok p =>
      cases editAddressData env b with
      | error e => exact Or.inl rfl
      | ok d => exact Or.inr ⟨p, d, rfl⟩

/-- `removeAddress` removes the address that it selects. -/
theorem serve_removeAddress (s : Db) (env : Env) (c : Caller) (b : AddressBody) :
    serveAddress s ⟨.removeAddress, c, b, env⟩ =
      if (refusal (removeAddressChecks b)).isNone then
        match addressOf b.addressId c.userId with
        | .ok p => { s with addresses := s.addresses.deleteOne p }
        | .error _ => s
      else s := by
  rw [serveAddress_eq]
  simp only [AddressRequest.handle, removeAddress, checked, removeAddressById]
  cases refusal (removeAddressChecks b) with
  | some key => rfl
  | none =>
    cases addressOf b.addressId c.userId with
    | error e => rfl
    | ok p => rfl

/-- `setDefaultAddress` writes the id, whatever it found. -/
theorem serve_setDefaultAddress (s : Db) (env : Env) (c : Caller) (b : AddressBody) :
    serveAddress s ⟨.setDefaultAddress, c, b, env⟩ =
      if (refusal (addressIdChecks b)).isNone && (addressOf b.addressId c.userId).isOk then
        match castSet castObjectId b.addressId with
        | .ok x =>
          { s with
            users := s.users.updateOne (fun u => u.id = c.userId)
              (UserSet.apply { defaultAddress := x } env.now) (UserSet.apply_id _ _) }
        | .error _ => s
      else s := by
  rw [serveAddress_eq]
  simp only [AddressRequest.handle, setDefaultAddress, checked, getAddressDataById, updateUserData]
  cases refusal (addressIdChecks b) with
  | some key => rfl
  | none =>
    cases addressOf b.addressId c.userId with
    | error e => rfl
    | ok p =>
      cases castSet castObjectId b.addressId with
      | error e => rfl
      | ok x => rfl

end Serving

/-- The list after it was written back. -/
theorem addressIds_written {s : Db} {u : ObjectId} (hu : (s.users.get? u).isSome = true)
    (ids : List ObjectId) (now : ℤ) :
    addressIds (exec (.updateUser (fun v => v.id = u) { addressData := some ids } now) s).1 u =
      ids := by
  obtain ⟨v, hv⟩ := Option.isSome_iff_exists.mp hu
  have hid : v.id = u := ((s.users.get?_eq_some_iff _ _).mp hv).2
  change (((s.users.updateOne (fun v => v.id = u)
    (UserSet.apply { addressData := some ids } now) (UserSet.apply_id _ _)).get? u).map
      User.addressData).getD [] = ids
  rw [Collection.get?_updateOne, s.users.findOne_key fun _ => decide_eq_true_iff, hv,
    Option.map_some, hid, if_pos rfl]
  rfl

section Lists

/-- What one more id makes of a list: every id stays once, at the place of its first occurrence,
and a new one comes last. -/
structure ExtendedBy (old : List ObjectId) (l : ObjectId) (new : List ObjectId) : Prop where
  nodup : new.Nodup
  mem : ∀ x, x ∈ new ↔ x ∈ old ∨ x = l
  ordered : new.Pairwise fun x y => y ∈ old → old.idxOf x < old.idxOf y
  last : l ∉ old → new.getLast? = some l

theorem extendedBy_uniques (old : List ObjectId) (l : ObjectId) :
    ExtendedBy old l (FirstOccurrences.uniques (old ++ [l])) where
  nodup := FirstOccurrences.nodup_uniques _
  mem x := by
    rw [FirstOccurrences.mem_uniques, List.mem_append, List.mem_singleton]
  ordered := by
    refine (FirstOccurrences.pairwise_uniques (old ++ [l])).imp fun {x y} hlt hy => ?_
    rw [List.idxOf_append_of_mem hy] at hlt
    by_cases hx : x ∈ old
    · rwa [List.idxOf_append_of_mem hx] at hlt
    · -- An id that is not on the old list stands behind all that are.
      have hbound : old.idxOf y < old.length := List.idxOf_lt_length_of_mem hy
      rw [List.idxOf_append_of_notMem hx] at hlt
      omega
  last hl := by
    rw [FirstOccurrences.uniques_append_singleton, if_neg hl, List.getLast?_concat]

def withProfile (env : Env) (addressID userID : ObjectId) (s : Db) : Db :=
  ((addAddressIDtoUserProfile env addressID userID).run exec s).1

theorem withProfile_eq (env : Env) (l : ObjectId) {u : ObjectId} {s : Db}
    (hu : (s.users.get? u).isSome = true) :
    withProfile env l u s = (exec (.updateUser (fun w => w.id = u)
      { addressData := some (FirstOccurrences.uniques (addressIds s u ++ [l])) } env.now) s).1 := by
  obtain ⟨v, hv⟩ := Option.isSome_iff_exists.mp hu
  have hids : addressIds s u = v.addressData := by simp [addressIds, hv]
  unfold withProfile addAddressIDtoUserProfile
  rw [Prog.run_catchAll, hids]
  simp only [run_query_bind, hv, Option.map_some]
  rfl

theorem addressIds_withProfile (env : Env) (l : ObjectId) {u : ObjectId} {s : Db}
    (hu : (s.users.get? u).isSome = true) :
    addressIds (withProfile env l u s) u = FirstOccurrences.uniques (addressIds s u ++ [l]) := by
  rw [withProfile_eq env l hu, addressIds_written hu]

theorem isSome_withProfile (env : Env) (l : ObjectId) {u : ObjectId} {s : Db}
    (hu : (s.users.get? u).isSome = true) :
    ((withProfile env l u s).users.get? u).isSome = true := by
  rw [withProfile_eq env l hu]
  exact (Collection.isSome_get?_updateOne s.users (fun w => decide (w.id = u)) _
    (UserSet.apply_id _ env.now) u).trans hu

/-- The list of an existing user is extended by the id, and a second time nothing is left to do. -/
theorem address_list_extended (env env' : Env) (s : Db) (u l : ObjectId)
    (hu : (s.users.get? u).isSome = true) :
    ExtendedBy (addressIds s u) l (addressIds (withProfile env l u s) u) ∧
      addressIds (withProfile env' l u (withProfile env l u s)) u =
        addressIds (withProfile env l u s) u := by
  have hextended : ExtendedBy (addressIds s u) l (addressIds (withProfile env l u s) u) := by
    rw [addressIds_withProfile env l hu]
    exact extendedBy_uniques _ l
  refine ⟨hextended, ?_⟩
  have hmem : l ∈ addressIds (withProfile env l u s) u := (hextended.mem l).mpr (Or.inr rfl)
  rw [addressIds_withProfile env' l (isSome_withProfile env l hu),
    FirstOccurrences.uniques_append_singleton, if_pos hmem, List.append_nil]
  exact FirstOccurrences.uniques_of_nodup hextended.nodup

theorem address_list_extended_customer :
    let ids := addressIds (withProfile (sampleEnv 1) (idOf "address---02") customer.userId sampleDb)
      customer.userId
    ids = [idOf "address---01", idOf "address---02"] ∧
      ExtendedBy (addressIds sampleDb customer.userId) (idOf "address---02") ids :=
  ⟨by decide +kernel, (address_list_extended (sampleEnv 1) (sampleEnv 2) sampleDb customer.userId
    (idOf "address---02") (by decide +kernel)).1⟩

end Lists

section Books

variable {s : Db}

theorem hasAddress_eq_true {u l : ObjectId} :
    hasAddress s u l = true ↔ ∃ a, s.addresses.get? l = some a ∧ a.userId = some u := by
  simp [hasAddress, Option.any_eq_true]

theorem hasAddress_insert {a : Address} {as : Collection Address.id}
    (h : s.addresses.insert a = some as) (u l : ObjectId) :
    hasAddress { s with addresses := as } u l = true ↔
      a.id = l ∧ a.userId = some u ∨ hasAddress s u l = true := by
  have hfree := Collection.get?_of_insert h
  rw [hasAddress_eq_true, hasAddress_eq_true]
  dsimp only
  rw [Collection.get?_insert h]
  by_cases hl : a.id = l
  · subst hl
    simp [hfree]
  · simp [hl]

theorem hasAddress_updateOne (p : Address → Bool) (d : AddressSet) (u l : ObjectId) :
    hasAddress { s with addresses := s.addresses.updateOne p d.apply d.apply_id } u l =
      hasAddress s u l := by
  unfold hasAddress
  rw [Collection.get?_updateOne]
  split
  · cases s.addresses.get? l with
    | none => rfl
    | some a => rfl
  · rfl

theorem hasAddress_deleteOne (p : Address → Bool) (u l : ObjectId) :
    hasAddress { s with addresses := s.addresses.deleteOne p } u l = true ↔
      (s.addresses.findOne p).map Address.id ≠ some l ∧ hasAddress s u l = true := by
  rw [hasAddress_eq_true, hasAddress_eq_true]
  dsimp only
  rw [Collection.get?_deleteOne]
  by_cases hl : (s.addresses.findOne p).map Address.id = some l
  · simp [hl]
  · simp [hl]

/-- A user after an update of the user with the id. -/
theorem user_updateOne {c : Collection User.id} {id : ObjectId} (f : User → User)
    (hf : ∀ u, (f u).id = u.id) {v : User}
    (hv : v ∈ (c.updateOne (fun u => u.id = id) f hf).docs) :
    (∃ u, c.get? id = some u ∧ v = f u) ∨ v ∈ c.docs ∧ v.id ≠ id := by
  have hfind : c.findOne (fun u => u.id = id) = c.get? id :=
    c.findOne_key fun _ => decide_eq_true_iff
  rcases Collection.mem_updateOne hv with ⟨u, hu, rfl⟩ | ⟨hold, hne⟩
  · exact Or.inl ⟨u, hfind ▸ hu, rfl⟩
  · refine Or.inr ⟨hold, fun hid => hne ?_⟩
    rw [hfind, ← hid, Collection.get?_key hold]
    rfl

/-- What the books say depends on the addresses and the users alone. -/
theorem BookAgrees.of_hasAddress {t : Db} {u : User} (h : BookAgrees s u)
    (hsame : ∀ l, hasAddress t u.id l = hasAddress s u.id l) : BookAgrees t u where
  nodup := h.nodup
  listed l := by
    rw [hsame]
    exact h.listed l
  default l hl := by
    rw [hsame]
    exact h.default l hl

theorem booksAgree_address (hs : BooksAgree s) (env : Env) (c : Caller) (b : AddressBody) :
    BooksAgree (serveAddress s ⟨.address, c, b, env⟩) := by
  rcases serve_address s env c b with h | ⟨u, a, as, hu, ha, hi, h⟩
  · rwa [h]
  rw [h]
  have hid : u.id = c.userId := ((s.users.get?_eq_some_iff _ _).mp hu).2
  have hlook := hasAddress_insert hi
  intro v hv
  rcases user_updateOne (withAddress env.now a.id u.addressData) (fun _ => rfl) hv with
    ⟨w, hw, rfl⟩ | ⟨hold, hne⟩
  · -- The user gets the address, and its id on the list.
    rw [hid, hu, Option.some.injEq] at hw
    subst hw
    have hbook := hs u ((s.users.get?_eq_some_iff _ _).mp hu).1
    refine ⟨nodup_eraseDups _, fun l => ?_, fun l hl => ?_⟩
    · change l ∈ (u.addressData ++ [a.id]).eraseDups ↔
        hasAddress { s with addresses := as } u.id l = true
      rw [List.mem_eraseDups, List.mem_append, List.mem_singleton, hbook.listed l, hlook, hid, ha,
        eq_comm (a := l), or_comm]
      simp
    · exact (hlook u.id l).mpr (Or.inr (hbook.default l hl))
  · -- The address is none of another user's.
    refine (hs v hold).of_hasAddress fun l => ?_
    rw [Bool.eq_iff_iff]
    refine (hlook v.id l).trans (or_iff_right ?_)
    rintro ⟨-, hv'⟩
    rw [ha, Option.some.injEq] at hv'
    exact hne (hv'.symm.trans hid.symm)

theorem booksAgree_editAddress (hs : BooksAgree s) (env : Env) (c : Caller) (b : AddressBody)
    (addressId : Option String) :
    BooksAgree (serveAddress s ⟨.editAddress addressId, c, b, env⟩) := by
  rcases serve_editAddress s env c b addressId with h | ⟨p, d, h⟩
  · rwa [h]
  · rw [h]
    exact fun u hu => (hs u hu).of_hasAddress fun l => hasAddress_updateOne p d u.id l

/-- A removal leaves the id on the list of the user, if there is one. -/
theorem booksAgree_removeAddress (hs : BooksAgree s) (env : Env) (c : Caller) (b : AddressBody) :
    BooksAgree (serveAddress s ⟨.removeAddress, c, b, env⟩) ↔
      tearsBook s ⟨.removeAddress, c, b, env⟩ = false := by
  rw [serve_removeAddress]
  simp only [tearsBook, selected]
  cases hr : (refusal (removeAddressChecks b)).isNone with
  | false => simpa using hs
  | true =>
    simp only [if_true, Bool.true_and]
    cases hp : addressOf b.addressId c.userId with
    | error e => simpa using hs
    | ok p =>
      dsimp only
      cases hfind : s.addresses.findOne p with
      | none =>
        refine iff_of_true (fun u hu => (hs u hu).of_hasAddress fun l => ?_) (by simp)
        rw [Bool.eq_iff_iff, hasAddress_deleteOne, hfind]
        simp
      | some a =>
        obtain ⟨hmem, hsel⟩ := Collection.mem_of_findOne hfind
        obtain ⟨q, -, rfl⟩ := map_eq_ok hp
        simp only [Bool.and_eq_true, decide_eq_true_eq] at hsel
        rw [Option.isSome_some, Bool.and_true, Option.isSome_eq_false_iff,
          Option.isNone_iff_eq_none]
        constructor
        · intro h
          refine Option.eq_none_iff_forall_ne_some.mpr fun u hu => ?_
          obtain ⟨humem, huid⟩ := (s.users.get?_eq_some_iff _ _).mp hu
          have hbefore : hasAddress s u.id a.id = true := by
            rw [hasAddress_eq_true, huid]
            exact ⟨a, Collection.get?_key hmem, hsel.2⟩
          have hafter := ((h u humem).listed a.id).mp (((hs u humem).listed a.id).mpr hbefore)
          rw [hasAddress_deleteOne, hfind] at hafter
          exact hafter.1 rfl
        · intro hgone u hu
          refine (hs u hu).of_hasAddress fun l => ?_
          rw [Bool.eq_iff_iff, hasAddress_deleteOne, hfind]
          refine and_iff_right_of_imp fun hl hid => ?_
          -- The address is one of nobody's.
          obtain rfl : a.id = l := Option.some.inj hid
          obtain ⟨a', ha', hu'⟩ := hasAddress_eq_true.mp hl
          rw [Collection.get?_key hmem, Option.some.injEq] at ha'
          rw [← ha', hsel.2, Option.some.injEq] at hu'
          rw [hu', Collection.get?_key hu] at hgone
          cases hgone

/-- A default is in order if it is an address of the user, if there is one. -/
theorem booksAgree_default (hs : BooksAgree s) (id : ObjectId) (x : Option (Option ObjectId))
    (now : ℤ) :
    BooksAgree { s with
        users := s.users.updateOne (fun u => u.id = id) (UserSet.apply { defaultAddress := x } now)
          (UserSet.apply_id _ _) } ↔
      ∀ u l, s.users.get? id = some u → x = some (some l) → hasAddress s id l = true := by
  constructor
  · rintro h u l hu rfl
    have hid : u.id = id := ((s.users.get?_eq_some_iff _ _).mp hu).2
    have hget := Collection.get?_updateOne s.users (fun u => decide (u.id = id))
      (UserSet.apply { defaultAddress := some (some l) } now) (UserSet.apply_id _ _) id
    rw [s.users.findOne_key fun _ => decide_eq_true_iff, hu, Option.map_some, hid, if_pos rfl,
      Option.map_some] at hget
    have hdefault := (h _ ((Collection.get?_eq_some_iff _ _ _).mp hget).1).default l rfl
    rw [← hid]
    exact hdefault
  · intro h v hv
    rcases user_updateOne (UserSet.apply { defaultAddress := x } now) (UserSet.apply_id _ _) hv
      with ⟨u, hu, rfl⟩ | ⟨hold, -⟩
    · obtain ⟨humem, hid⟩ := (s.users.get?_eq_some_iff _ _).mp hu
      have hbook := hs u humem
      refine ⟨hbook.nodup, hbook.listed, fun l hl => ?_⟩
      cases x with
      | none => exact hbook.default l hl
      | some y =>
        have hy : y = some l := hl
        change hasAddress s u.id l = true
        rw [hid]
        exact h u l hu (congrArg some hy)
    · exact (hs v hold).of_hasAddress fun _ => rfl

/-- `setDefaultAddress` writes a default whether or not it is an address of the user. -/
theorem booksAgree_setDefaultAddress (hs : BooksAgree s) (env : Env) (c : Caller)
    (b : AddressBody) :
    BooksAgree (serveAddress s ⟨.setDefaultAddress, c, b, env⟩) ↔
      tearsBook s ⟨.setDefaultAddress, c, b, env⟩ = false := by
  rw [serve_setDefaultAddress]
  simp only [tearsBook]
  cases (refusal (addressIdChecks b)).isNone && (addressOf b.addressId c.userId).isOk with
  | false => simpa using hs
  | true =>
    simp only [if_true, Bool.true_and]
    cases castSet castObjectId b.addressId with
    | error e => simpa using hs
    | ok x =>
      dsimp only
      rw [booksAgree_default hs]
      rcases x with _ | _ | l
      · simp
      · simp
      · cases s.users.get? c.userId with
        | none => simp
        | some u => simp

/-- Every request tears a book exactly in the case that `tearsBook` tells. -/
theorem booksAgree_serveAddress (hs : BooksAgree s) (r : AddressRequest) :
    BooksAgree (serveAddress s r) ↔ tearsBook s r = false := by
  obtain ⟨handler, c, b, env⟩ := r
  cases handler with
  | address => exact iff_of_true (booksAgree_address hs env c b) (by simp [tearsBook])
  | addressList => exact iff_of_true hs (by simp [tearsBook])
  | editAddress addressId =>
    exact iff_of_true (booksAgree_editAddress hs env c b addressId) (by simp [tearsBook])
  | removeAddress => exact booksAgree_removeAddress hs env c b
  | setDefaultAddress => exact booksAgree_setDefaultAddress hs env c b
  | addressDetailByID =>
    refine iff_of_true ?_ (by simp [tearsBook])
    have hsame : serveAddress s ⟨.addressDetailByID, c, b, env⟩ = s := by
      rw [serveAddress_eq]
      simp only [AddressRequest.handle, addressDetailByID, checked, getAddressDataById]
      cases refusal (addressIdChecks b) with
      | some key => rfl
      | none =>
        cases addressOf b.addressId c.userId with
        | error e => rfl
        | ok p => rfl
    rwa [hsame]

/-- In a sequential run from a database whose address books are in order, they are in every
state, exactly when no request removes an address of a user that is there, or makes its default
what is none of its addresses. -/
theorem booksAgree_throughout_iff (s : Db) (hs : BooksAgree s) (rs : List AddressRequest) :
    Throughout serveAddress BooksAgree s rs ↔
      Along serveAddress (fun t r => tearsBook t r = false) s rs := by
  refine throughout_iff (J := fun _ => True) (fun _ _ _ => trivial) ?_ hs trivial rs
  exact fun t r _ ht => booksAgree_serveAddress ht r

theorem booksAgree_sampleDb : BooksAgree sampleDb := by
  intro u hu
  obtain rfl : u = sampleUser := List.mem_singleton.mp hu
  refine ⟨List.nodup_singleton _, fun l => ?_, fun l hl => by cases hl⟩
  rw [hasAddress_eq_true]
  constructor
  · intro hl
    obtain rfl : l = idOf "address---01" := List.mem_singleton.mp hl
    exact ⟨sampleAddress, rfl, rfl⟩
  · rintro ⟨a, ha, -⟩
    obtain ⟨hmem, rfl⟩ := (sampleDb.addresses.get?_eq_some_iff _ _).mp ha
    obtain rfl : a = sampleAddress := List.mem_singleton.mp hmem
    exact List.mem_singleton_self _

def onAddress (handler : AddressHandler) (addressId : String) : AddressRequest where
  handler := handler
  caller := customer
  body := { addressId := some (.str addressId) }
  env := sampleEnv 2

/-- The customer adds an address and makes it the default. -/
theorem booksAgree_default_chosen :
    Throughout serveAddress BooksAgree sampleDb
      [sampleAddressRequest "address---02", onAddress .setDefaultAddress "address---02"] :=
  (booksAgree_throughout_iff sampleDb booksAgree_sampleDb _).mpr (by decide +kernel)

/-- The customer removes the address again: its id stays on the list. Or it makes an id the
default under which there is no address at all. -/
theorem removal_stays_listed :
    ¬ Throughout serveAddress BooksAgree sampleDb
        [sampleAddressRequest "address---02", onAddress .removeAddress "address---02"] ∧
      ¬ Throughout serveAddress BooksAgree sampleDb
        [onAddress .setDefaultAddress "stranger--01"] := by
  constructor
  · intro h
    have hlast := h _ [] (List.append_nil _).symm
    let t := runFrom serveAddress sampleDb
      [sampleAddressRequest "address---02", onAddress .removeAddress "address---02"]
    have hlisted : (t.users.get? customer.userId).any
        (fun u => u.addressData.contains (idOf "address---02")) = true := by decide +kernel
    obtain ⟨u, hu, hmem⟩ := (Option.any_eq_true _ _).mp hlisted
    obtain ⟨hin, hid⟩ := (t.users.get?_eq_some_iff _ _).mp hu
    have hthere := ((hlast u hin).listed _).mp (List.contains_iff_mem.mp hmem)
    rw [hid] at hthere
    exact absurd hthere (by decide +kernel)
  · intro h
    have hlast := h _ [] (List.append_nil _).symm
    let t := runFrom serveAddress sampleDb [onAddress .setDefaultAddress "stranger--01"]
    have hdefault : (t.users.get? customer.userId).any
        (fun u => u.defaultAddress = some (idOf "stranger--01")) = true := by decide +kernel
    obtain ⟨u, hu, hl⟩ := (Option.any_eq_true _ _).mp hdefault
    obtain ⟨hin, hid⟩ := (t.users.get?_eq_some_iff _ _).mp hu
    have hthere := (hlast u hin).default _ (of_decide_eq_true hl)
    rw [hid] at hthere
    exact absurd hthere (by decide +kernel)

end Books

end DoQwik
