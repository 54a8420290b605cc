import DoQwik.Interference
import DoQwik.ProviderAccounts
import DoQwik.JobLifecycle

/-! Whether two accounts can have the same phone. The registrations count the accounts of the
phone, and create one some steps later: other requests may step in between. -/
namespace DoQwik
open JsValues DocStore Interleave

section Counting

/-- The count asks for the number that would be stored. -/
theorem selects_phone {v : Option Json} {p : Option JsNum → Bool} {n : JsNum}
    (hp : castForQuery numberType v = .ok p) (hn : optional castNumber v = .ok (some n)) :
    p (some n) = true := by
  cases v with
  | none => cases hn
  | some w =>
    have hw : castNumber w = .ok (some n) := by
      simp only [optional, castSet] at hn
      cases hc : castNumber w with
      | error e =>
        rw [hc] at hn
        cases hn
      | ok a =>
        rw [hc] at hn
        exact hn
    rw [castForQuery_of_castNumber hp hw]
    exact decide_eq_true rfl

/-- After a count of zero, no document has the phone. -/
theorem free_of_count {α κ : Type} {key : α → κ} {c : Collection key} {phone : α → Option JsNum}
    {p : Option JsNum → Bool} {n : JsNum} (hcount : c.count (fun a => p (phone a)) = 0)
    (hn : p (some n) = true) : n ∉ c.docs.filterMap phone := by
  intro hmem
  obtain ⟨a, ha, hphone⟩ := List.mem_filterMap.mp hmem
  have hempty := List.length_eq_zero_iff.mp hcount
  have hin : a ∈ c.find fun a => p (phone a) := List.mem_filter.mpr ⟨ha, by rw [hphone]; exact hn⟩
  rw [hempty] at hin
  cases hin

/-- If the phone of the request is `k`, then nobody has it. -/
def PhoneFree (phones : Db → List JsNum) (v : Option Json) (k : JsNum) (s : Db) : Prop :=
  optional castNumber v = .ok (some k) → k ∉ phones s

theorem PhoneFree.spared {phones : Db → List JsNum} {v : Option Json} {k : JsNum} {s t : Db}
    (ht : Spares phones k s t) (h : PhoneFree phones v k s) : PhoneFree phones v k t :=
  fun hk hmem => h hk (ht hmem)

/-- What all registrations do: count the documents of the phone, and draw a number if there is
none. What comes after may rely on the phone being free, as long as nobody else takes it. -/
theorem follows_counted {Doc κ α : Type} {key : Doc → κ} (docs : Db → Collection key)
    (phone : Doc → Option JsNum) {phones : Db → List JsNum} {added : Db → DbOp → Option JsNum}
    {k : JsNum} (hphones : ∀ s, phones s = (docs s).docs.filterMap phone)
    (hcounters : ∀ s cs, phones { s with counters := cs } = phones s)
    (hadded : ∀ t op, op.counts = true → added t op = none) (v : Option Json) (table : String)
    {next : ℕ → Action α} {taken : Action α}
    (hnext : ∀ t n, PhoneFree phones v k t →
      Prog.Follows exec (Spares phones k) (AddsFree phones added k) (fun _ _ => True) t (next n))
    (htaken : ∀ t, Prog.Follows exec (Spares phones k) (AddsFree phones added k)
      (fun _ _ => True) t taken) (s : Db) :
    Prog.Follows exec (Spares phones k) (AddsFree phones added k) (fun _ _ => True) s (do
      let p ← cast ((castForQuery numberType v).map fun p d => p (phone d))
      let isUserAvailable ← query fun s => (docs s).count p
      if isUserAvailable = 0 then do
        let seqId ← getSequence table
        next seqId
      else taken) := by
  apply follows_cast_bind
  intro p hp
  refine follows_query_bind (addsFree_of_none fun t => hadded t _ rfl) fun t _ => ?_
  split
  · rename_i hcount
    have hfree : PhoneFree phones v k t := by
      intro hk
      obtain ⟨q, hq, rfl⟩ := map_eq_ok hp
      rw [hphones]
      exact free_of_count hcount (selects_phone hq hk)
    refine follows_getSequence_bind (K := PhoneFree phones v k)
      (fun _ _ ht h => PhoneFree.spared ht h) ?_ ?_ table hnext hfree
    · intro t' cs h hk
      rw [hcounters]
      exact h hk
    · exact fun t' op hop _ => addsFree_of_none fun t'' => hadded t'' op hop
  · exact htaken t

end Counting

section Users

def userPhones (s : Db) : List JsNum := s.users.docs.filterMap User.phone

def addedUserPhone (s : Db) : DbOp → Option JsNum
  | .createUser u => if (s.users.get? u.id).isSome then none else u.phone
  | _ => none

theorem addedUserPhone_of_counts (s : Db) (op : DbOp) (h : op.counts = true) :
    addedUserPhone s op = none := by
  cases op with
  | createUser u => cases h
  | _ => rfl

theorem addsKeys_users : AddsKeys exec userPhones addedUserPhone where
  added := by
    intro s op n h
    cases op with
    | createUser u =>
      simp only [addedUserPhone] at h
      split at h
      · cases h
      · rename_i hfree
        obtain ⟨us, hus⟩ := Collection.exists_insert (Option.not_isSome_iff_eq_none.mp hfree)
        rw [exec_createUser_some hus]
        unfold userPhones
        rw [Collection.filterMap_insert hus, h]
        exact List.perm_append_singleton _ _
    | _ => cases h
  kept := by
    intro s op h
    cases hw : op.writesUsers with
    | false =>
      unfold userPhones
      rw [exec_users_of_not_writesUsers hw]
    | true =>
      cases op with
      | createUser u =>
        cases hi : s.users.insert u with
        | none => rw [exec_createUser_none hi]
        | some us =>
          have hphone : u.phone = none := by
            simpa only [addedUserPhone, Collection.get?_of_insert hi, Option.isSome_none,
              Bool.false_eq_true, if_false] using h
          rw [exec_createUser_some hi]
          unfold userPhones
          rw [Collection.filterMap_insert hi, hphone, Option.toList_none, List.append_nil]
      | updateUser sel d now =>
        have hsame : userPhones (exec (.updateUser sel d now) s).1 = userPhones s :=
          filterMap_updateFirst (g := User.phone) sel (f := d.apply now) (fun _ => rfl) s.users.docs
        rw [hsame]
      | _ => cases hw

/-- The new user has the phone of the request. -/
theorem newUser_phone {env : Env} {b : UserBody} {profilePic document : String} {seqId : ℕ}
    {u : User} (h : newUser env b profilePic document seqId = .ok u) :
    optional castNumber b.phone = .ok u.phone := by
  unfold newUser at h
  obtain ⟨_, -, h⟩ := bind_eq_ok h
  obtain ⟨_, -, h⟩ := bind_eq_ok h
  obtain ⟨phone, hphone, h⟩ := bind_eq_ok h
  repeat obtain ⟨_, -, h⟩ := bind_eq_ok h
  rw [hphone, ← Except.ok.inj h]

variable {k : JsNum}

/-- The log-in at the end of a registration creates nobody. -/
theorem follows_getUserLogin (env : Env) (condition : Except Thrown (User → Bool))
    (deviceId : Option Json) (s : Db) :
    Prog.Follows exec (Spares userPhones k) (AddsFree userPhones addedUserPhone k)
      (fun _ _ => True) s (getUserLogin env condition deviceId) := by
  have hnone {op : DbOp} {t : Db} (hop : ∀ t, addedUserPhone t op = none) :
      AddsFree userPhones addedUserPhone k t op := addsFree_of_none hop
  refine follows_cast_bind fun p _ => follows_query_bind (hnone fun _ => rfl) fun t _ => ?_
  cases t.users.findOne p with
  | none => trivial
  | some u =>
    refine ⟨hnone fun _ => rfl, fun _ _ => ⟨hnone fun _ => rfl, fun _ _ => ?_⟩⟩
    refine follows_cast_bind fun deviceId _ => ?_
    exact ⟨hnone fun _ => rfl, fun _ _ => ⟨hnone fun _ => rfl, fun _ _ => trivial⟩⟩

theorem follows_createUserData (env : Env) {data : Except Thrown User} {s : Db}
    (hfree : ∀ u, data = .ok u → u.phone = some k → k ∉ userPhones s) :
    Prog.Follows exec (Spares userPhones k) (AddsFree userPhones addedUserPhone k)
      (fun _ _ => True) s (createUserData env data) := by
  apply follows_cast_bind
  intro u hu
  constructor
  · intro t hadd
    apply hfree u hu
    simp only [addedUserPhone] at hadd
    split at hadd
    · cases hadd
    · exact hadd
  · intro t _
    cases hi : t.users.insert u with
    | none =>
      rw [exec_createUser_none hi]
      trivial
    | some us =>
      rw [exec_createUser_some hi]
      -- What is left is to store the token, in the cache and in the record.
      exact ⟨addsFree_of_none fun _ => rfl, fun _ _ => ⟨addsFree_of_none fun _ => rfl,
        fun _ _ => trivial⟩⟩

/-- A registration counts the accounts of its phone before it creates one. -/
theorem checksFirst_register (env : Env) (b : UserBody) (files : Option UserFiles) :
    ChecksFirst exec userPhones addedUserPhone (register env b files) := by
  intro k s
  refine Prog.Follows.catchAll (fun _ _ => trivial) (follows_checked (fun _ => trivial) fun _ => ?_)
  rcases files with _ | ⟨profilePic, _ | document⟩
  · trivial
  · trivial
  apply follows_counted (fun s => s.users) User.phone (fun _ => rfl) (fun _ _ => rfl)
    addedUserPhone_of_counts
  · intro t n hfree
    rcases profilePic with _ | profilePic
    · trivial
    · refine Prog.Follows.bind ((follows_createUserData env ?_).mono fun t' id _ => ?_)
      · intro u hu hphone
        exact hfree (by rw [newUser_phone hu, hphone])
      · refine Prog.Follows.bind ((follows_getUserLogin env _ _ t').mono fun t'' data _ => ?_)
        cases data with
        | none => trivial
        | some u => trivial
  · intro t
    unfold alreadyRegister
    rcases b.phone with _ | v
    · trivial
    · dsimp only
      split
      · trivial
      · trivial

end Users

section Providers

def providerPhones (s : Db) : List JsNum := s.providers.docs.filterMap Provider.phone

def addedProviderPhone (s : Db) : DbOp → Option JsNum
  | .createProvider p => if (s.providers.get? p.id).isSome then none else p.phone
  | _ => none

theorem addedProviderPhone_of_counts (s : Db) (op : DbOp) (h : op.counts = true) :
    addedProviderPhone s op = none := by
  cases op with
  | createProvider p => cases h
  | _ => rfl

theorem addsKeys_providers : AddsKeys exec providerPhones addedProviderPhone where
  added := by
    intro s op n h
    cases op with
    | createProvider p =>
      simp only [addedProviderPhone] at h
      split at h
      · cases h
      · rename_i hfree
        obtain ⟨ps, hps⟩ := Collection.exists_insert (Option.not_isSome_iff_eq_none.mp hfree)
        rw [exec_createProvider_some hps]
        unfold providerPhones
        rw [Collection.filterMap_insert hps, h]
        exact List.perm_append_singleton _ _
    | _ => cases h
  kept := by
    intro s op h
    -- An update keeps the phone, whatever it changes.
    have hupdate : ∀ (sel : Provider → Bool) (f : Provider → Provider),
        (∀ p, (f p).phone = p.phone) →
          ((updateFirst sel f s.providers.docs).filterMap Provider.phone).Sublist
            (providerPhones s) := by
      intro sel f hphone
      rw [filterMap_updateFirst sel hphone]
      exact List.Sublist.refl _
    cases hw : op.writesProviders with
    | false =>
      unfold providerPhones
      rw [exec_providers_of_not_writesProviders hw]
    | true =>
      cases op with
      | createProvider p =>
        cases hi : s.providers.insert p with
        | none => rw [exec_createProvider_none hi]
        | some ps =>
          have hphone : p.phone = none := by
            simpa only [addedProviderPhone, Collection.get?_of_insert hi, Option.isSome_none,
              Bool.false_eq_true, if_false] using h
          rw [exec_createProvider_some hi]
          unfold providerPhones
          rw [Collection.filterMap_insert hi, hphone, Option.toList_none, List.append_nil]
      | updateProvider sel d now =>
        exact hupdate sel (d.apply now) fun _ => rfl
      | saveProviderToken id t now =>
        exact hupdate _ (fun p => { p with token := some t, updatedAt := now }) fun _ => rfl
      | loginProvider id t d now => exact hupdate _ (saveLogin t d now) fun _ => rfl
      | pullWorkers c sel now => exact hupdate _ (pullFrom sel now) fun _ => rfl
      | deleteProvider sel => exact List.eraseP_sublist.filterMap Provider.phone
      | _ => cases hw

theorem newProvider_phone {env : Env} {b : AccountBody} {profilePic certificate : String}
    {seqId : ℕ} {p : Provider}
    (h : Providers.newProvider env b profilePic certificate seqId = .ok p) :
    optional castNumber b.phone = .ok p.phone := by
  unfold Providers.newProvider at h
  obtain ⟨_, -, h⟩ := bind_eq_ok h
  obtain ⟨_, -, h⟩ := bind_eq_ok h
  obtain ⟨phone, hphone, h⟩ := bind_eq_ok h
  repeat obtain ⟨_, -, h⟩ := bind_eq_ok h
  rw [hphone, ← Except.ok.inj h]

theorem newWorker_phone {env : Env} {b : AccountBody} {profilePic : Option String} {seqId : ℕ}
    {company : ObjectId} {p : Provider}
    (h : Providers.newWorker env b profilePic seqId company = .ok p) :
    optional castNumber b.phone = .ok p.phone := by
  unfold Providers.newWorker at h
  obtain ⟨_, -, h⟩ := bind_eq_ok h
  obtain ⟨_, -, h⟩ := bind_eq_ok h
  obtain ⟨phone, hphone, h⟩ := bind_eq_ok h
  repeat obtain ⟨_, -, h⟩ := bind_eq_ok h
  rw [hphone, ← Except.ok.inj h]

variable {k : JsNum}

theorem follows_createDataWithoutToken {data : Except Thrown Provider} {s : Db}
    (hfree : ∀ p, data = .ok p → p.phone = some k → k ∉ providerPhones s) :
    Prog.Follows exec (Spares providerPhones k) (AddsFree providerPhones addedProviderPhone k)
      (fun _ _ => True) s (createDataWithoutToken data) := by
  apply follows_cast_bind
  intro p hp
  constructor
  · intro t hadd
    apply hfree p hp
    simp only [addedProviderPhone] at hadd
    split at hadd
    · cases hadd
    · exact hadd
  · intro t _
    cases hi : t.providers.insert p with
    | none =>
      rw [exec_createProvider_none hi]
      trivial
    | some ps =>
      rw [exec_createProvider_some hi]
      trivial

/-- An account of the phone is there already: nothing is created. -/
theorem follows_alreadyRegister (b : AccountBody) (result : String → AccountResult) (s : Db) :
    Prog.Follows exec (Spares providerPhones k) (AddsFree providerPhones addedProviderPhone k)
      (fun _ _ => True) s (Providers.alreadyRegister b result) := by
  unfold Providers.alreadyRegister
  rcases b.phone with _ | v
  · trivial
  · dsimp only
    split
    · trivial
    · trivial

/-- So does the registration of a provider. -/
theorem checksFirst_registerProvider (env : Env) (b : AccountBody) (files : Option AccountFiles) :
    ChecksFirst exec providerPhones addedProviderPhone (Providers.register env b files) := by
  intro k s
  apply follows_checked (fun _ => trivial)
  intro _
  rcases files with _ | ⟨profilePic, certificate⟩
  · trivial
  apply follows_checked (fun _ => trivial)
  intro _
  split
  · trivial
  apply follows_checked (fun _ => trivial)
  intro _
  refine follows_counted (fun s => s.providers) Provider.phone (fun _ => rfl) (fun _ _ => rfl)
    addedProviderPhone_of_counts b.phone "dqw_providers" (fun t n hfree => ?_)
    (follows_alreadyRegister b (.refused 400)) s
  rcases profilePic with _ | profilePic
  · trivial
  · refine Prog.Follows.bind (Prog.Follows.bind
      ((follows_createDataWithoutToken ?_).mono fun t' p _ => ?_))
    · intro p hp hphone
      exact hfree (by rw [newProvider_phone hp, hphone])
    · have hsend : ∀ (t : Db) (x : Option Provider), Prog.Follows exec (Spares providerPhones k)
          (AddsFree providerPhones addedProviderPhone k) (fun _ _ => True) t
          (Providers.sendAccount x) := by
        intro t x
        cases x with
        | none => trivial
        | some q => trivial
      have hnone {op : DbOp} {t : Db} (hop : ∀ t, addedProviderPhone t op = none) :
          AddsFree providerPhones addedProviderPhone k t op := addsFree_of_none hop
      -- The token goes into the cache and into the record.
      refine ⟨hnone fun _ => rfl, fun _ _ => ⟨hnone fun _ => rfl, fun _ _ => ?_⟩⟩
      exact ⟨hnone fun _ => rfl, fun _ _ => ⟨hnone fun _ => rfl, fun _ _ => hsend _ _⟩⟩

/-- And `addWorker`. -/
theorem checksFirst_addWorker (env : Env) (c : Caller) (b : AccountBody)
    (profilePic : Option String) :
    ChecksFirst exec providerPhones addedProviderPhone
      (Providers.addWorker env c b profilePic) := by
  intro k s
  apply follows_checked (fun _ => trivial)
  intro _
  refine follows_query_bind (addsFree_of_none fun _ => rfl) fun t _ => ?_
  cases t.providers.get? c.userId with
  | none => trivial
  | some company =>
    refine follows_counted (fun s => s.providers) Provider.phone (fun _ => rfl) (fun _ _ => rfl)
      addedProviderPhone_of_counts b.phone "dqw_providers" (fun t' n hfree => ?_)
      (follows_alreadyRegister b .message) t
    refine Prog.Follows.bind ((follows_createDataWithoutToken ?_).mono fun t'' p _ => ?_)
    · intro p hp hphone
      exact hfree (by rw [newWorker_phone hp, hphone])
    · exact ⟨addsFree_of_none fun _ => rfl, fun _ _ => trivial⟩

end Providers

section Registrations

structure UserRegistration where
  body : UserBody
  files : Option UserFiles
  env : Env

def UserRegistration.program (r : UserRegistration) : Action UserResponse :=
  register r.env r.body r.files

/-- A request to one of the two handlers that create providers. -/
inductive ProviderRegistration where
  | register (body : AccountBody) (files : Option AccountFiles) (env : Env)
  | addWorker (caller : Caller) (body : AccountBody) (profilePic : Option String) (env : Env)

def ProviderRegistration.program : ProviderRegistration → Action AccountResponse
  | register body files env => (Providers.register env body files).catchAll accountError
  | addWorker caller body profilePic env =>
    (Providers.addWorker env caller body profilePic).catchAll accountError

theorem ProviderRegistration.checksFirst (r : ProviderRegistration) :
    ChecksFirst exec providerPhones addedProviderPhone r.program := by
  intro k s
  cases r with
  | register body files env =>
    exact (checksFirst_registerProvider env body files k s).catchAll fun _ _ => trivial
  | addWorker caller body profilePic env =>
    exact (checksFirst_addWorker env caller body profilePic k s).catchAll fun _ _ => trivial

/-- In every state of the run no two accounts have the same phone. -/
def StaysUnique {ρ : Type} (phones : Db → List JsNum) (c : Pool Db DbOp Ret Thrown ρ)
    (sched : List ℕ) : Prop :=
  ∀ pre, pre <+: sched → (phones (runFrom (Pool.stepAt exec) c pre).state).Nodup

/-- At no step of the run is a request overtaken: about to create an account whose phone is
taken, by an account that another request created after this one had begun. -/
def NoneOvertaken {ρ : Type} (phones : Db → List JsNum) (added : Db → DbOp → Option JsNum)
    (c : Pool Db DbOp Ret Thrown ρ) (sched : List ℕ) : Prop :=
  ∀ pre i post, sched = pre ++ i :: post → ¬ Overtaken exec phones added c pre i

/-- Registrations side by side, started with distinct phones, keep the phones distinct exactly
when none is overtaken by another one of the same phone; so of users, and so of providers. -/
theorem one_account_per_phone_iff (s : Db) (sched : List ℕ) :
    (∀ rs : List UserRegistration,
      StaysUnique userPhones ⟨s, rs.map UserRegistration.program⟩ sched ↔
        (userPhones s).Nodup ∧
          NoneOvertaken userPhones addedUserPhone ⟨s, rs.map UserRegistration.program⟩ sched) ∧
      ∀ rs : List ProviderRegistration,
        StaysUnique providerPhones ⟨s, rs.map ProviderRegistration.program⟩ sched ↔
          (providerPhones s).Nodup ∧
            NoneOvertaken providerPhones addedProviderPhone
              ⟨s, rs.map ProviderRegistration.program⟩ sched := by
  constructor
  · intro rs
    apply nodup_keys_iff addsKeys_users
    intro p hp
    obtain ⟨r, -, rfl⟩ := List.mem_map.mp hp
    exact checksFirst_register r.env r.body r.files
  · intro rs
    apply nodup_keys_iff addsKeys_providers
    intro p hp
    obtain ⟨r, -, rfl⟩ := List.mem_map.mp hp
    exact r.checksFirst

def rivalRegistration (newId : String) : UserRegistration where
  body :=
    { fullName := some (.str "Ann")
      email := some (.str "ann@example")
      phone := some (.str "801")
      country := some (.str "NG")
      state := some (.str "Lagos")
      city := some (.str "Ikeja")
      landMark := some (.str "Mall")
      postalCode := some (.str "100") }
  files := some ⟨some "a.png", some "b.png"⟩
  env := { sampleEnv 1 with newId := idOf newId }

def sampleWorkerBody (phone : String) : AccountBody where
  fullName := some (.str "Bob")
  email := some (.str "bob@example")
  phone := some (.str phone)
  country := some (.str "NG")
  state := some (.str "Lagos")
  city := some (.str "Ikeja")
  landMark := some (.str "Mall")
  postalCode := some (.str "100")
  identificationType := some (.str "card")
  identificationNumber := some (.str "1")
  platform := some (.str "Android")

def companyDb : Db :=
  { Db.empty with
    providers := ⟨[sampleProvider "company---01" companyType none], List.nodup_singleton _⟩ }

def rivalAddition (newId : String) : ProviderRegistration :=
  .addWorker company (sampleWorkerBody "801") (some "a.png")
    { sampleEnv 1 with newId := idOf newId }

/-- Two registrations with one phone, the second of which counts before the first creates its
account: both create one. So do two workers that are added with one phone. -/
theorem phone_registered_twice :
    ¬ StaysUnique userPhones ⟨Db.empty, [rivalRegistration "user------01",
      rivalRegistration "user------02"].map UserRegistration.program⟩ [0, 1, 0, 0, 0, 1, 1, 1] ∧
    ¬ StaysUnique providerPhones ⟨companyDb, [rivalAddition "worker----02",
      rivalAddition "worker----03"].map ProviderRegistration.program⟩
      [0, 0, 1, 1, 0, 0, 0, 1, 1, 1] := by
  constructor
  · intro h
    exact absurd (h _ List.prefix_rfl) (by decide +kernel)
  · intro h
    exact absurd (h _ List.prefix_rfl) (by decide +kernel)

end Registrations

end DoQwik
