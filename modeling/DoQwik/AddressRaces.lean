import DoQwik.AddressBooks

/-! Addresses that one user adds side by side. The list of ids is read, extended and written back
whole, after the answer: what another request put on it in between is lost. -/
namespace DoQwik
open JsValues DocStore Interleave

section Stages

/-- What a request has still to do: to find its user, to create the address, to read the list for
it, to write the list back, or nothing. -/
inductive BookStage where
  | asking
  | adding
  | linking (l : ObjectId)
  | writing (l : ObjectId) (ids : List ObjectId)
  | over

/-- The request has created the address, and not yet put it on the list. -/
def BookStage.carries (l : ObjectId) : BookStage → Prop
  | .linking l' => l' = l
  | .writing l' _ => l' = l
  | _ => False

def BookStage.settled (g : BookStage) : Prop := ∀ l, ¬ g.carries l

def BookStage.underWay : BookStage → Prop
  | .asking => False
  | .over => False
  | _ => True

inductive BookStep (u : ObjectId) : BookStage → DbOp → Db → BookStage → Prop where
  | read {β : Type} {g : BookStage} {f : Db → β} {s : Db} : BookStep u g (.read f) s g
  | found {β : Type} {f : Db → β} {s : Db} (hu : (s.users.get? u).isSome = true) :
      BookStep u .asking (.read f) s .adding
  | created {a : Address} {s : Db} (hi : (s.addresses.insert a).isSome = true) :
      BookStep u .adding (.createAddress a) s (.linking a.id)
  | taken {a : Address} {s : Db} (hi : s.addresses.insert a = none) :
      BookStep u .adding (.createAddress a) s .over
  | listed {β : Type} {f : Db → β} {l : ObjectId} {s : Db} :
      BookStep u (.linking l) (.read f) s (.writing l (addressIds s u))
  | gone {β : Type} {f : Db → β} {l : ObjectId} {s : Db} (hu : s.users.get? u = none) :
      BookStep u (.linking l) (.read f) s .over
  | written {l : ObjectId} {ids : List ObjectId} {now : ℤ} {s : Db} :
      BookStep u (.writing l ids)
        (.updateUser (fun v => v.id = u) { addressData := some (ids ++ [l]).eraseDups } now) s .over

/-- What holds in every state of a run: the user of a request under way is there, and each new
address is on the list once, unless the request that created it is still to write it there. -/
structure Booked (u : ObjectId) (isOld : ObjectId → Prop) (s : Db) (gs : ℕ → BookStage) :
    Prop where
  present : ∀ i, (gs i).underWay → (s.users.get? u).isSome = true
  covered : ∀ l, ¬ isOld l → (s.addresses.get? l).isSome = true →
    (∃ i, (gs i).carries l) ∨ (addressIds s u).count l = 1

/-- A list that the step writes back is the present one, with one more id. -/
def listUpToDate (u : ObjectId) (p : Pool Db DbOp Ret Thrown AddressResponse) (i : ℕ) : Bool :=
  match p.nextOp i with
  | some (.updateUser _ d _) => d.addressData.all fun ids =>
      ids = (addressIds p.state u ++ ids.getLast?.toList).eraseDups
  | _ => true

end Stages

section Programs

variable {u : ObjectId}

abbrev BookTracked {α : Type} (u : ObjectId) (g : BookStage) (p : Action α) : Prop :=
  Prog.Tracks exec (BookStep u) (fun g _ => g.settled) BookStage.settled g p

/-- The background update, for an address that was created. -/
theorem tracked_profile (env : Env) (l u : ObjectId) :
    BookTracked u (.linking l) (addAddressIDtoUserProfile env l u) := by
  refine Prog.Tracks.catchAll (fun _ _ h => h) ?_
  intro t
  cases hu : t.users.get? u with
  | none =>
    refine ⟨.over, .gone hu, ?_⟩
    simp only [exec_read, hu]
    exact fun _ h => h
  | some v =>
    refine ⟨_, .listed, ?_⟩
    have hids : addressIds t u = v.addressData := by simp [addressIds, hu]
    simp only [exec_read, hu, Option.map_some, hids, FirstOccurrences.uniques_eq_eraseDups]
    exact fun t' => ⟨.over, .written, fun _ h => h⟩

/-- The stages of an `address` request. -/
theorem tracked_address (env : Env) (c : Caller) (b : AddressBody) :
    BookTracked c.userId .asking (address env c b) := by
  have hasking : BookStage.asking.settled := fun _ h => h
  have hadding : BookStage.adding.settled := fun _ h => h
  have hover : BookStage.over.settled := fun _ h => h
  refine tracks_checked (fun _ => hasking) fun _ => ?_
  intro t
  cases hu : t.users.get? c.userId with
  | none =>
    refine ⟨.asking, .read, ?_⟩
    simp only [exec_read, hu]
    exact hasking
  | some v =>
    have hid : v.id = c.userId := ((t.users.get?_eq_some_iff _ _).mp hu).2
    refine ⟨.adding, .found (by rw [hu]; rfl), ?_⟩
    simp only [exec_read, hu]
    change BookTracked c.userId .adding (createDataAddress (newAddress env c b v.usersId) >>=
      fun data => addAddressIDtoUserProfile env data.id v.id >>= fun _ =>
        reply .success (some (AddressResult.address data)))
    apply Prog.Tracks.bind
    refine tracks_cast_bind hadding fun a _ => ?_
    intro t'
    cases hi : t'.addresses.insert a with
    | none =>
      refine ⟨.over, .taken hi, ?_⟩
      rw [exec_createAddress_none hi]
      exact hover
    | some as =>
      refine ⟨.linking a.id, .created (by rw [hi]; rfl), ?_⟩
      rw [exec_createAddress_some hi]
      change BookTracked c.userId (.linking a.id) (addAddressIDtoUserProfile env a.id v.id >>=
        fun _ => reply .success (some (AddressResult.address a)))
      rw [hid]
      exact Prog.Tracks.bind (tracked_profile env a.id c.userId)

end Programs

section Invariant

variable {u : ObjectId} {isOld : ObjectId → Prop} {s : Db} {gs : ℕ → BookStage} {i : ℕ}
  {g : BookStage}

theorem carries_update {l : ObjectId} (h : ∃ k, (gs k).carries l)
    (hi : (gs i).carries l → g.carries l) : ∃ k, (Function.update gs i g k).carries l := by
  obtain ⟨k, hk⟩ := h
  by_cases hki : k = i
  · subst hki
    exact ⟨k, by rw [Function.update_self]; exact hi hk⟩
  · exact ⟨k, by rwa [Function.update_of_ne hki]⟩

/-- A step that leaves the users and the addresses alone. -/
theorem Booked.of_same (h : Booked u isOld s gs) (hway : g.underWay → (s.users.get? u).isSome = true)
    (hcarries : ∀ l, (gs i).carries l → g.carries l) :
    Booked u isOld s (Function.update gs i g) where
  present k hk := by
    by_cases hki : k = i
    · subst hki
      rw [Function.update_self] at hk
      exact hway hk
    · rw [Function.update_of_ne hki] at hk
      exact h.present k hk
  covered l hl ha := (h.covered l hl ha).imp_left fun hc => carries_update hc (hcarries l)

/-- Every step with a list that is up to date keeps the law. -/
theorem Booked.step {p : Pool Db DbOp Ret Thrown AddressResponse} {op : DbOp}
    (h : Booked u isOld p.state gs) (hdate : listUpToDate u p i = true)
    (hop : p.nextOp i = some op) (hstep : BookStep u (gs i) op p.state g) :
    Booked u isOld (exec op p.state).1 (Function.update gs i g) := by
  generalize hg : gs i = g₀ at hstep
  have hpresent := h.present i
  have hcarries : ∀ l, (gs i).carries l → g₀.carries l := fun l => by rw [hg]; exact id
  rw [hg] at hpresent
  cases hstep with
  | read => exact h.of_same hpresent hcarries
  | found hu => exact h.of_same (fun _ => hu) hcarries
  | listed => exact h.of_same (fun _ => hpresent trivial) hcarries
  | gone hu =>
    -- The user of a request under way does not go away.
    have hthere := hpresent trivial
    rw [hu] at hthere
    cases hthere
  | taken hi =>
    rw [exec_createAddress_none hi]
    exact h.of_same False.elim hcarries
  | created hi =>
    rename_i a
    obtain ⟨as, hi⟩ := Option.isSome_iff_exists.mp hi
    rw [exec_createAddress_some hi]
    have hsame : Booked u isOld p.state (Function.update gs i (.linking a.id)) :=
      h.of_same (fun _ => hpresent trivial) fun l hl => (hcarries l hl).elim
    refine ⟨hsame.present, fun l hl ha => ?_⟩
    dsimp only at ha
    rw [Collection.get?_insert hi] at ha
    split at ha
    · rename_i hid
      exact Or.inl ⟨i, by rw [Function.update_self]; exact hid⟩
    · exact hsame.covered l hl ha
  | written =>
    rename_i l ids now
    have hthere := hpresent trivial
    have hlist := addressIds_written hthere (ids ++ [l]).eraseDups now
    have hcurrent : ∀ x ∈ addressIds p.state u, x ∈ (ids ++ [l]).eraseDups := by
      intro x hx
      simp only [listUpToDate, hop, Option.all_some, decide_eq_true_eq] at hdate
      rw [hdate, List.mem_eraseDups, List.mem_append]
      exact Or.inl hx
    refine ⟨fun k _ => ?_, fun x hx ha => ?_⟩
    · exact (Collection.isSome_get?_updateOne p.state.users (fun v => decide (v.id = u)) _
        (UserSet.apply_id _ now) u).trans hthere
    · -- What is on the list, or in hand, is on the new list, and there only once.
      rcases h.covered x hx ha with ⟨k, hk⟩ | honce
      · by_cases hki : k = i
        · subst hki
          rw [hg] at hk
          obtain rfl : l = x := hk
          refine Or.inr ?_
          rw [hlist]
          exact List.count_eq_one_of_mem (nodup_eraseDups _) (by simp)
        · exact Or.inl ⟨k, by rwa [Function.update_of_ne hki]⟩
      · refine Or.inr ?_
        have hmem : x ∈ addressIds p.state u := by
          rw [← List.count_pos_iff, honce]
          exact Nat.one_pos
        rw [hlist]
        exact List.count_eq_one_of_mem (nodup_eraseDups _) (hcurrent x hmem)

end Invariant

section Runs

def addressPool (c : Caller) (s : Db) (calls : List (AddressBody × Env)) :
    Pool Db DbOp Ret Thrown AddressResponse :=
  ⟨s, calls.map fun x => (AddressRequest.mk .address c x.1 x.2).program⟩

theorem tracking_addressPool (c : Caller) (s : Db) (calls : List (AddressBody × Env)) :
    (addressPool c s calls).Tracking exec (BookStep c.userId) (fun g _ => g.settled)
      BookStage.settled fun _ => .asking := by
  intro i p hp
  obtain ⟨x, -, rfl⟩ := List.getElem?_map .. ▸ hp |> Option.map_eq_some_iff.mp
  have hsettled : ∀ g (_ : Thrown), g.settled → BookStage.settled g := fun _ _ h => h
  exact Prog.Tracks.catchAll hsettled (tracked_address x.2 c x.1)

/-- Whatever `address` requests of a user run side by side, if each list that is written back is
the present one with one more id, then each new address is on the list exactly once whenever no
request is in progress. -/
theorem new_addresses_listed (c : Caller) (s : Db) (calls : List (AddressBody × Env))
    (sched : List ℕ)
    (hdate : Along (Pool.stepAt exec) (fun p i => listUpToDate c.userId p i = true)
      (addressPool c s calls) sched)
    (hquiet : ∀ i ∈ sched,
      (runFrom (Pool.stepAt exec) (addressPool c s calls) sched).nextOp i = none) (l : ObjectId) :
    let t := (runFrom (Pool.stepAt exec) (addressPool c s calls) sched).state
    s.addresses.get? l = none → (t.addresses.get? l).isSome = true →
      (addressIds t c.userId).count l = 1 := by
  intro t hnew hthere
  have hstart : Booked c.userId (fun l => (s.addresses.get? l).isSome = true) s
      fun _ => .asking := ⟨fun _ h => h.elim, fun l hl ha => absurd ha hl⟩
  obtain ⟨gs, htrack, hbooked, hsame⟩ := (tracking_addressPool c s calls).run
    (I := Booked c.userId fun l => (s.addresses.get? l).isSome = true)
    (fun _ _ _ _ _ h hd hop hstep => h.step hd hop hstep) hstart hdate
  refine (hbooked.covered l (by simp [hnew]) hthere).resolve_left ?_
  rintro ⟨i, hi⟩
  -- A request that began is over, and one that did not has created nothing.
  have hasking : gs i = .asking → False := by
    intro hg
    rw [hg] at hi
    exact hi
  by_cases hmem : i ∈ sched
  · cases hp : (runFrom (Pool.stepAt exec) (addressPool c s calls) sched).threads[i]? with
    | none =>
      have hnone := (Pool.threads_run_eq_none exec (addressPool c s calls) sched i).mp hp
      exact hasking (hsame i (Or.inr hnone))
    | some p =>
      rcases htrack.ended hp (hquiet i hmem) with ⟨a, -, hg⟩ | ⟨-, hg⟩
      · exact hg l hi
      · exact hg l hi
  · exact hasking (hsame i (Or.inl hmem))

def sampleAddressCalls : List (AddressBody × Env) :=
  [((sampleAddressRequest "address---02").body, (sampleAddressRequest "address---02").env),
    ((sampleAddressRequest "address---03").body, (sampleAddressRequest "address---03").env)]

/-- One after the other, with the second creation before the first list is written. -/
theorem new_addresses_listed_both :
    let t := (runFrom (Pool.stepAt exec) (addressPool customer sampleDb sampleAddressCalls)
      [0, 1, 0, 1, 0, 0, 1, 1]).state
    (addressIds t customer.userId).count (idOf "address---02") = 1 ∧
      (addressIds t customer.userId).count (idOf "address---03") = 1 := by
  have hlisted := new_addresses_listed customer sampleDb sampleAddressCalls
    [0, 1, 0, 1, 0, 0, 1, 1] (by decide +kernel) (by decide +kernel)
  exact ⟨hlisted (idOf "address---02") (by decide +kernel) (by decide +kernel),
    hlisted (idOf "address---03") (by decide +kernel) (by decide +kernel)⟩

/-- Both requests read the list before either writes it back: the first address is created, and
is not on the list when all is over. -/
theorem quick_addition_lost :
    let p := runFrom (Pool.stepAt exec) (addressPool customer sampleDb sampleAddressCalls)
      [0, 0, 0, 1, 1, 1, 0, 1]
    (p.nextOp 0).isNone = true ∧ (p.nextOp 1).isNone = true ∧
      (sampleDb.addresses.get? (idOf "address---02")).isNone = true ∧
      (p.state.addresses.get? (idOf "address---02")).isSome = true ∧
      (addressIds p.state customer.userId).count (idOf "address---02") = 0 := by
  decide +kernel

end Runs

end DoQwik
