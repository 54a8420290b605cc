import DoQwik.JobBookings
import DoQwik.JobRefs
import DoQwik.JobRecords
import DoQwik.UserAddresses

/-! The places of jobs. `assignJob` and `user_job_reschedule` look the address up among those of
the caller, and later write its id into a job of the caller; meanwhile addresses come and go. No
request gives an address to another user. -/
namespace DoQwik
open JsValues DocStore Interleave

section Addresses

def DbOp.createsAddress : DbOp → Option ObjectId
  | .createAddress a => some a.id
  | _ => none

/-- An address never changes hands. -/
def SameOwner (a a' : Address) : Prop := a'.userId = a.userId

theorem addresses_evolve :
    Evolves exec (fun s : Db => s.addresses.get?) SameOwner DbOp.createsAddress := by
  intro op s l a' ha'
  dsimp only at ha' ⊢
  cases op with
  | createAddress a =>
    cases hi : s.addresses.insert a with
    | none =>
      rw [exec_createAddress_none hi] at ha'
      exact Or.inl ⟨a', ha', rfl⟩
    | some as =>
      rw [exec_createAddress_some hi, Collection.get?_insert hi] at ha'
      split at ha'
      · rename_i hid
        refine Or.inr ⟨?_, congrArg some hid⟩
        rw [← hid]
        exact Collection.get?_of_insert hi
      · exact Or.inl ⟨a', ha', rfl⟩
  | updateAddress sel d =>
    change (s.addresses.updateOne sel d.apply d.apply_id).get? l = some a' at ha'
    rw [Collection.get?_updateOne] at ha'
    split at ha'
    · obtain ⟨a, ha, rfl⟩ := Option.map_eq_some_iff.mp ha'
      exact Or.inl ⟨a, ha, rfl⟩
    · exact Or.inl ⟨a', ha', rfl⟩
  | deleteAddress sel =>
    change (s.addresses.deleteOne sel).get? l = some a' at ha'
    rw [Collection.get?_deleteOne] at ha'
    split at ha'
    · cases ha'
    · exact Or.inl ⟨a', ha', rfl⟩
  | _ =>
    rw [exec_addresses_of_not_writesAddresses rfl] at ha'
    exact Or.inl ⟨a', ha', rfl⟩

/-- The reference of a job to its place, which is an address of the customer. -/
def locationRef : JobRef Address where
  look s := s.addresses.get?
  creates := DbOp.createsAddress
  ref := Job.serviceLocation
  sets := JobSet.serviceLocation
  owner := Job.userId
  due _ := True
  owns u a := a.userId = some u
  Same := SameOwner
  creates_aside op h := by
    cases op with
    | createAddress => cases h
    | _ => rfl
  creates_jobs op h := by
    cases op with
    | createAddress => cases h
    | _ => rfl
  ref_apply _ _ _ := rfl
  owner_apply h now j := congrArg JobTerms.userId (h.apply_terms now j)
  due_apply _ _ _ _ := trivial
  evolves := addresses_evolve
  owns_same _ _ _ hsame ha := hsame.trans ha

abbrev LocationStep := RefStep locationRef

end Addresses

section Programs

def JobRequest.locationStage (r : JobRequest) : RefStage :=
  match r.handler with
  | .assignJob => .foundBy r.body.serviceLocation r.caller.userId
  | .userJobReschedule => .foundBy r.body.locationID r.caller.userId
  | _ => .idle

/-- The new job is at the place that the request names. -/
theorem newJob_serviceLocation {env : Env} {b : JobBody} {image : Option String} {seqId : ℕ}
    {user : User} {provider : Provider} {offer : ProviderSubService} {service : Service}
    {sub : SubService} {j : Job}
    (h : newJob env b image seqId user provider offer service sub = .ok j) :
    j.userId = user.id ∧
      ∃ v l, b.serviceLocation = some v ∧ castObjectId v = .ok (some l) ∧
        j.serviceLocation = some l := by
  unfold newJob at h
  iterate 4 obtain ⟨_, -, h⟩ := bind_eq_ok h
  obtain ⟨l, hl, h⟩ := bind_eq_ok h
  iterate 7 obtain ⟨_, -, h⟩ := bind_eq_ok h
  cases h
  obtain ⟨v, hv, hcast⟩ := required_eq_ok hl
  exact ⟨rfl, v, l, hv, hcast, rfl⟩

theorem locationStep_foundBy {v : Option Json} {u : ObjectId} {s : Db}
    (h : someMatch s.addresses (addressOf v u) = true) {β : Type} (f : Db → β) :
    LocationStep .idle (.read f) s (.foundBy v u) := by
  obtain ⟨sel, a, hsel, hmem, ha⟩ := exists_of_someMatch h
  obtain ⟨q, hq, rfl⟩ := map_eq_ok hsel
  simp only [Bool.and_eq_true, decide_eq_true_eq] at ha
  exact refStep_foundBy hq ha.1 (Collection.get?_key hmem) ha.2 f

/-- What a job request relies on: the address it found is the one that it then writes. -/
theorem jobStages_location (r : JobRequest) : JobStages LocationStep r .idle r.locationStage where
  aside := refStep_aside
  found := by
    intro _ β f s hfinds
    unfold JobRequest.locationStage
    unfold JobRequest.finds JobRequest.lookups at hfinds
    cases hr : r.handler with
    | assignJob | userJobReschedule =>
      simp only [hr] at hfinds
      exact locationStep_foundBy hfinds f
    | _ => exact .other rfl rfl
  straight := by
    intro hr
    unfold JobRequest.locationStage
    cases hh : r.handler with
    | assignJob | userJobReschedule =>
      rw [hh] at hr
      cases hr
    | _ => rfl
  createJob := by
    intro hr s image seqId user provider offer service sub j huser hnew
    obtain ⟨hj, v, l, hv, hl, hplace⟩ := newJob_serviceLocation hnew
    refine .booked fun l' hl' => ⟨?_, trivial⟩
    cases hplace.symm.trans hl'
    simp only [JobRequest.locationStage, hr, hv]
    change RefStage.foundBy (some v) r.caller.userId = .found l j.userId
    rw [RefStage.foundBy_eq hl, hj, huser]
  updateJob := by
    intro s p j d hchecks hp hplan
    refine .changed (plan_keepsTerms hplan) fun l hl j' hj' => ⟨?_, trivial⟩
    cases plan_change hplan with
    | userJobReschedule hr =>
      have hfilter : r.filter j' = true := ((Bool.and_eq_true _ _).mp hj').2
      simp only [JobRequest.filter, hr, decide_eq_true_eq] at hfilter
      simp only [JobRequest.plan, hr] at hplan
      obtain ⟨-, x, y, z, hplace, -, -, hd⟩ := userJobRescheduleParam_eq hplan
      cases hd
      simp only [JobRequest.locationStage, hr]
      change RefStage.foundBy r.body.locationID r.caller.userId = .found l j'.userId
      cases hv : r.body.locationID with
      | none =>
        rw [hv] at hplace
        cases hplace
        cases hl
      | some v =>
        rw [hv] at hplace
        obtain ⟨a, ha, rfl⟩ := map_eq_ok hplace
        obtain rfl : a = some l := Option.some.inj hl
        rw [RefStage.foundBy_eq ha, hfilter]
    | assignJobToWorker | reject | proceedToPay | paymentSuccess | jobAccept | jobStart | jobFinish
    | paymentUpdate | submitFeedback | replyFeedback => cases hl
  pay := by
    intro _ s p _
    exact .changed (by constructor <;> rfl) fun l hl => by cases hl

abbrev LeavesPlaces {α : Type} (s : Db) (p : Action α) : Prop :=
  Obeys (fun _ op => op.createsAddress = none ∧ op.writesJobs = false) s p

theorem leavesPlaces_profile (env : Env) (addressID userID : ObjectId) (s : Db) :
    LeavesPlaces s (addAddressIDtoUserProfile env addressID userID) := by
  refine Prog.Follows.catchAll (fun _ _ => trivial) ?_
  refine follows_query_bind ⟨rfl, rfl⟩ fun t _ => ?_
  cases (t.users.get? userID).map User.addressData with
  | none => trivial
  | some ids => exact ⟨⟨rfl, rfl⟩, fun _ _ => trivial⟩

theorem newAddress_spec {env : Env} {c : Caller} {b : AddressBody} {n : Option ℕ} {a : Address}
    (h : newAddress env c b n = .ok a) : a.id = env.newId ∧ a.userId = some c.userId := by
  unfold newAddress at h
  repeat obtain ⟨_, -, h⟩ := bind_eq_ok h
  cases h
  exact ⟨rfl, rfl⟩

/-- `address` creates at most one address, under the id of the request. -/
theorem located_address (env : Env) (c : Caller) (b : AddressBody) :
    JobStaged LocationStep (.adding env.newId) (address env c b) := by
  refine tracks_checked (fun _ => trivial) fun _ => ?_
  refine tracks_query_bind (refStep_counts _) fun t => ?_
  cases t.users.get? c.userId with
  | none => trivial
  | some u =>
    apply Prog.Tracks.bind
    refine tracks_cast_bind trivial fun a ha t' => ⟨.idle, .created ?_, ?_⟩
    · exact congrArg some (newAddress_spec ha).1
    · cases hi : t'.addresses.insert a with
      | none =>
        rw [exec_createAddress_none hi]
        trivial
      | some as =>
        rw [exec_createAddress_some hi]
        change JobStaged LocationStep .idle (addAddressIDtoUserProfile env a.id u.id >>= fun _ =>
          reply .success (some (AddressResult.address a)))
        have hleaves := leavesPlaces_profile env a.id u.id .empty
        exact Prog.Tracks.bind (refStaged_of_obeys hleaves .idle)

theorem leavesPlaces_getAddressDataById {α : Type} (condition : Except Thrown (Address → Bool))
    {k : List Address → Action α} (hk : ∀ s as, LeavesPlaces s (k as)) (s : Db) :
    LeavesPlaces s (getAddressDataById condition >>= k) := by
  unfold getAddressDataById
  cases condition with
  | error e => trivial
  | ok p => exact ⟨⟨rfl, rfl⟩, fun t _ => hk _ _⟩

def AddressRequest.newAddress (r : AddressRequest) : Option ObjectId :=
  match r.handler with
  | .address => some r.env.newId
  | _ => none

theorem located_addressRequest (r : AddressRequest) :
    JobStaged LocationStep (.first r.newAddress) r.program := by
  apply Prog.Tracks.catchAll (fun _ _ _ => trivial)
  obtain ⟨handler, c, b, env⟩ := r
  cases handler with
  | address => exact located_address env c b
  | addressList => exact fun t => ⟨_, refStep_aside _ _ t rfl, trivial⟩
  | editAddress addressId =>
    refine tracks_checked (fun _ => trivial) fun _ => ?_
    refine refStaged_of_obeys (s := .empty) (leavesPlaces_getAddressDataById _ (fun s _ => ?_) _) _
    unfold updateAddressData
    refine Prog.Follows.bind (follows_cast_bind fun p _ => follows_cast_bind fun d _ => ?_)
    exact ⟨⟨rfl, rfl⟩, fun _ _ => trivial⟩
  | removeAddress =>
    refine tracks_checked (fun _ => trivial) fun _ => ?_
    refine refStaged_of_obeys (s := .empty) ?_ _
    unfold removeAddressById
    refine Prog.Follows.bind (follows_cast_bind fun p _ => ?_)
    exact ⟨⟨rfl, rfl⟩, fun _ _ => trivial⟩
  | setDefaultAddress =>
    refine tracks_checked (fun _ => trivial) fun _ => ?_
    refine refStaged_of_obeys (s := .empty) (leavesPlaces_getAddressDataById _ (fun s _ => ?_) _) _
    unfold updateUserData
    refine Prog.Follows.bind (follows_cast_bind fun d _ => ?_)
    exact ⟨⟨rfl, rfl⟩, fun _ _ => trivial⟩
  | addressDetailByID =>
    refine tracks_checked (fun _ => trivial) fun _ => ?_
    refine refStaged_of_obeys (s := .empty) (leavesPlaces_getAddressDataById _ (fun s as => ?_) _) _
    trivial

end Programs

section Runs

inductive PlaceCall where
  | job (r : JobCall)
  | address (r : AddressRequest)

namespace PlaceCall

def program : PlaceCall → Action Unit
  | .job r => r.program >>= fun _ => pure ()
  | .address r => r.program >>= fun _ => pure ()

def newAddress : PlaceCall → Option ObjectId
  | .job _ => none
  | .address r => r.newAddress

theorem staged (r : PlaceCall) : JobStaged LocationStep (.first r.newAddress) r.program := by
  cases r with
  | job r =>
    cases r with
    | change r => exact Prog.Tracks.bind (staged_program (jobStages_location r))
    | list r =>
      have hreads := obeys_list (Φ := fun _ op => op.createsAddress = none ∧ op.writesJobs = false)
        (fun _ _ _ => ⟨rfl, rfl⟩) r .empty
      exact Prog.Tracks.bind (refStaged_of_obeys hreads .idle)
  | address r => exact Prog.Tracks.bind (located_addressRequest r)

end PlaceCall

def placePool (s : Db) (calls : List PlaceCall) : Pool Db DbOp Ret Thrown Unit :=
  ⟨{ s with jobs := .empty _ }, calls.map PlaceCall.program⟩

/-- The address of a job, if it is still there, is one of the job's customer. -/
def OwnPlace (s : Db) (j : Job) : Prop :=
  ∀ l a, j.serviceLocation = some l → s.addresses.get? l = some a → a.userId = some j.userId

/-- In every interleaving of job requests with requests that add, edit and remove addresses, over
any database without jobs, the address of a job is one of its customer, in every state. The ids
of new addresses are fresh. -/
theorem places_of_jobs_own (s : Db) (calls : List PlaceCall)
    (hnew : (calls.filterMap PlaceCall.newAddress).Nodup)
    (hfree : ∀ r ∈ calls, ∀ l, r.newAddress = some l → s.addresses.get? l = none)
    (schedule : List ℕ) :
    let t := (runFrom (Pool.stepAt exec) (placePool s calls) schedule).state
    AllJobs (OwnPlace t) t := by
  intro t j hj l a hl ha
  exact (refersOwn_run (R := locationRef) PlaceCall.staged s hnew hfree schedule j hj l a hl ha).1

def sampleAddressRequest (newId : String) : AddressRequest where
  handler := .address
  caller := customer
  body :=
    { country := some (.str "NG")
      state := some (.str "Lagos")
      city := some (.str "Ikeja")
      landMark := some (.str "Mall")
      postalCode := some (.str "100") }
  env := { sampleEnv 1 with newId := idOf newId }

def samplePlaceCalls : List PlaceCall :=
  [.job (.change sampleBooking), .address (sampleAddressRequest "address---02")]

/-- The job is booked while the customer adds another address. -/
theorem places_of_jobs_own_booked :
    let t := (runFrom (Pool.stepAt exec) (placePool sampleDb samplePlaceCalls)
      [0, 0, 1, 0, 0, 1, 0, 0, 1, 0, 0, 1]).state
    ((t.jobs.get? (idOf "job-------01")).bind Job.serviceLocation = some (idOf "address---01") ∧
      (t.addresses.get? (idOf "address---01")).isSome = true ∧
      (t.addresses.get? (idOf "address---02")).isSome = true) ∧ AllJobs (OwnPlace t) t := by
  refine ⟨by decide +kernel, places_of_jobs_own sampleDb samplePlaceCalls (by decide +kernel) ?_ _⟩
  have hfree : ∀ r ∈ samplePlaceCalls,
      r.newAddress.all (fun l => (sampleDb.addresses.get? l).isNone) = true := by decide +kernel
  intro r hr l hl
  have hl' := hfree r hr
  rw [hl, Option.all_some] at hl'
  exact Option.isNone_iff_eq_none.mp hl'

end Runs

end DoQwik
