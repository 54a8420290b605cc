import DoQwik.WorkerRemovals

/-! What becomes of the inputs that a handler insists on. Each of them passes the destructuring of
the body, a document that is put together by hand, and the schema, which drops what it does not
declare. -/
namespace DoQwik
open JsValues DocStore Interleave

section Records

/-- A request to a handler that refuses it without some of its inputs. -/
inductive InsistingRequest where
  | paymentSuccess (caller : Caller) (body : JobBody) (env : Env)
  | jobStart (caller : Caller) (body : JobBody) (files : Option JobFiles) (env : Env)
  | register (caller : Caller) (body : AccountBody) (files : Option AccountFiles) (env : Env)
  | delateWorker (caller : Caller) (body : AccountBody) (env : Env)

def paymentSuccessRequest (c : Caller) (b : JobBody) (env : Env) : JobRequest :=
  { handler := .paymentSuccess, caller := c, body := b, env := env }

def jobStartRequest (c : Caller) (b : JobBody) (files : Option JobFiles) (env : Env) : JobRequest :=
  { handler := .jobStart, caller := c, body := b, files := files, env := env }

def registerRequest (c : Caller) (b : AccountBody) (files : Option AccountFiles) (env : Env) :
    AccountRequest :=
  { handler := .register files, caller := c, body := b, env := env }

variable (s : Db)

def writtenJob (r : JobRequest) : Option Job :=
  (r.written s).bind fun j => (serve s r).jobs.get? j.id

def writtenAccount (r : AccountRequest) : Option Provider :=
  if (s.providers.get? r.env.newId).isNone then (serveAccount s r).providers.get? r.env.newId
  else none

def writtenRecord (r : AccountRequest) : Option DeleteRecord :=
  (serveAccount s r).deleteRecords[s.deleteRecords.length]?

/-- The path holds what the input casts to. -/
def ReadBack {α : Type} (cast : Json → Except Thrown (Option α)) (v : Option Json)
    (x : Option α) : Prop :=
  ∀ a, v = some a → cast a = .ok x

/-- The picture is at one of the two paths for pictures of the start. -/
def ShowsPicture (j : Job) (pic : String) : Prop :=
  j.jobStartImage1 = some pic ∨ j.jobStartImage2 = some pic

/-- Every input that the handler insists on, and the position of a start, can be read back from the
record that the request wrote. -/
def KeepsInputs : InsistingRequest → Prop
  | .paymentSuccess c b env =>
    ∀ j, writtenJob s (paymentSuccessRequest c b env) = some j → ReadBack castString b.txnNo j.txnNo
  | .jobStart c b files env =>
    ∀ j, writtenJob s (jobStartRequest c b files env) = some j →
      (∀ pic, files.bind JobFiles.firstPic = some pic → ShowsPicture j pic) ∧
      (∀ pic, files.bind JobFiles.secondPic = some pic → ShowsPicture j pic) ∧
      ReadBack castNumber b.latitude j.jobStartLatitude ∧
      ReadBack castNumber b.langitude j.jobStartLongitude
  | .register c b files env =>
    ∀ p, writtenAccount s (registerRequest c b files env) = some p →
      ReadBack castTrimmed b.gender p.gender
  | .delateWorker c b env =>
    ∀ d, writtenRecord s (delateRequest env c b) = some d →
      ReadBack castString b.platform d.platform ∧ ReadBack castString b.ipAddress d.creationIp

def noMatch {α κ : Type} {key : α → κ} (c : Collection key) : Except Thrown (α → Bool) → Bool
  | .ok p => c.count p = 0
  | .error _ => false

/-- The registration gets through to a new account. -/
def opensAccount (b : AccountBody) (files : Option AccountFiles) (env : Env) : Bool :=
  (refusal (Providers.registerChecks b)).isNone && files.any fun files =>
    (refusal (Providers.companyChecks b files)).isNone && !b.userType.any Json.unprintable &&
      (refusal (Providers.ownerChecks b)).isNone && noMatch s.providers (providerByPhone b.phone) &&
      files.profilePic.any fun pic =>
        (Providers.newProvider env b pic (files.certificate.getD "") 0).isOk &&
          (s.providers.get? env.newId).isNone

/-- The inputs are on record without the request, or the request writes no record. -/
def KeptAnyway : InsistingRequest → Prop
  | .paymentSuccess c b env =>
    ∀ j, (paymentSuccessRequest c b env).written s = some j → ReadBack castString b.txnNo j.txnNo
  | .jobStart c b files env =>
    ∀ j, (jobStartRequest c b files env).written s = some j →
      ∀ first second, files.bind JobFiles.firstPic = some first →
        files.bind JobFiles.secondPic = some second →
        (trim second = first ∨ j.jobStartImage2 = some first) ∧
        (trim second = second ∨ j.jobStartImage2 = some second) ∧
        ReadBack castNumber b.langitude j.jobStartLongitude
  | .register _ b files env => opensAccount s b files env = false
  | .delateWorker c b _ => removes s c b = false

end Records

section Jobs

variable {s : Db} {r : JobRequest}

/-- What holds of the job that was written holds of the update of the job that was selected. -/
theorem forall_writtenJob_iff (hr : r.handler ≠ .assignJob) {P : Job → Prop} :
    (∀ j, writtenJob s r = some j → P j) ↔
      ∀ w j, r.write s = some w → s.jobs.findOne w.sel = some j → P (w.data.apply r.env.now j) := by
  constructor
  · intro h w j hw hj
    refine h _ ?_
    rw [writtenJob, JobRequest.written, hw, Option.bind_some, hj, Option.bind_some]
    exact get?_serve_written hr hw hj
  · intro h j' hj'
    obtain ⟨j, hwritten, hget⟩ := Option.bind_eq_some_iff.mp hj'
    obtain ⟨w, hw, hj⟩ := Option.bind_eq_some_iff.mp hwritten
    rw [get?_serve_written hr hw hj, Option.some.injEq] at hget
    rw [← hget]
    exact h w j hw hj

theorem forall_written_iff {P : Job → Prop} :
    (∀ j, r.written s = some j → P j) ↔
      ∀ w j, r.write s = some w → s.jobs.findOne w.sel = some j → P j := by
  constructor
  · intro h w j hw hj
    refine h j ?_
    rw [JobRequest.written, hw, Option.bind_some, hj]
  · intro h j hj
    obtain ⟨w, hw, hj⟩ := Option.bind_eq_some_iff.mp hj
    exact h w j hw hj

/-- A request keeps its inputs in the job exactly when they meet a condition on the job before,
if the update makes the one out of the other. -/
theorem forall_writtenJob_congr (hr : r.handler ≠ .assignJob) {P Q : Job → Prop}
    (h : ∀ w j, r.write s = some w → (P (w.data.apply r.env.now j) ↔ Q j)) :
    (∀ j, writtenJob s r = some j → P j) ↔ ∀ j, r.written s = some j → Q j := by
  rw [forall_writtenJob_iff hr, forall_written_iff]
  exact forall_congr' fun w => forall_congr' fun j => forall_congr' fun hw =>
    forall_congr' fun _ => h w j hw

theorem keepsInputs_paymentSuccess (c : Caller) (b : JobBody) (env : Env) :
    KeepsInputs s (.paymentSuccess c b env) ↔ KeptAnyway s (.paymentSuccess c b env) := by
  refine forall_writtenJob_congr (fun h => by cases h) fun w j hw => ?_
  obtain ⟨-, p, j', -, -, hplan, -⟩ := write_eq_some hw
  rw [← Plan.update.inj (Except.ok.inj hplan)]
  exact Iff.rfl

/-- The update of a start sets one picture and the latitude. -/
theorem jobStartParam_eq_update {env : Env} {b : JobBody} {pic : String} {j : Job} {d : JobSet}
    (h : jobStartParam env b pic j = .ok (.update d)) :
    d.jobStartImage1 = some (some (trim pic)) ∧ d.jobStartImage2 = none ∧
      d.jobStartLongitude = none ∧ castSet castNumber b.latitude = .ok d.jobStartLatitude := by
  unfold jobStartParam at h
  split at h
  · cases h
  obtain ⟨code, -, h⟩ := bind_eq_ok h
  split at h
  · obtain ⟨lat, hlat, h⟩ := bind_eq_ok h
    cases h
    exact ⟨rfl, rfl, rfl, hlat⟩
  · cases h

theorem readBack_of_castSet {v : Option Json} {lat : Option (Option JsNum)}
    (h : castSet castNumber v = .ok lat) (x : Option JsNum) :
    ReadBack castNumber v (lat.getD x) := by
  rintro a rfl
  obtain ⟨y, hy, rfl⟩ := map_eq_ok h
  exact hy

/-- The pictures and the position after a start. -/
theorem apply_jobStart {env : Env} {b : JobBody} {pic : String} {j₀ : Job} {d : JobSet}
    (h : jobStartParam env b pic j₀ = .ok (.update d)) (now : ℤ) (j : Job) :
    (d.apply now j).jobStartImage1 = some (trim pic) ∧
      (d.apply now j).jobStartImage2 = j.jobStartImage2 ∧
      (d.apply now j).jobStartLongitude = j.jobStartLongitude ∧
      ReadBack castNumber b.latitude (d.apply now j).jobStartLatitude := by
  obtain ⟨himage1, himage2, hlon, hlat⟩ := jobStartParam_eq_update h
  refine ⟨?_, ?_, ?_, readBack_of_castSet hlat j.jobStartLatitude⟩
  · change d.jobStartImage1.getD j.jobStartImage1 = _
    rw [himage1, Option.getD_some]
  · change d.jobStartImage2.getD j.jobStartImage2 = _
    rw [himage2, Option.getD_none]
  · change d.jobStartLongitude.getD j.jobStartLongitude = _
    rw [hlon, Option.getD_none]

theorem keepsInputs_jobStart (c : Caller) (b : JobBody) (files : Option JobFiles) (env : Env) :
    KeepsInputs s (.jobStart c b files env) ↔ KeptAnyway s (.jobStart c b files env) := by
  refine forall_writtenJob_congr (fun h => by cases h) fun w j hw => ?_
  obtain ⟨-, p, j', -, -, hplan, -⟩ := write_eq_some hw
  have hpics := (Bool.and_eq_true _ _).mp (lookups_of_write hw)
  obtain ⟨first, hfirst⟩ := Option.isSome_iff_exists.mp hpics.1
  obtain ⟨second, hsecond⟩ := Option.isSome_iff_exists.mp hpics.2
  change files.bind JobFiles.firstPic = some first at hfirst
  change files.bind JobFiles.secondPic = some second at hsecond
  change jobStartParam env b ((files.bind JobFiles.secondPic).getD "") j' = _ at hplan
  rw [hsecond, Option.getD_some] at hplan
  have hstart := apply_jobStart hplan (jobStartRequest c b files env).env.now j
  generalize w.data.apply _ j = j₁ at hstart ⊢
  obtain ⟨himage1, himage2, hlon, hlat⟩ := hstart
  simp only [ShowsPicture, hfirst, hsecond, himage1, himage2, hlon, Option.some.injEq, forall_eq']
  constructor
  · rintro ⟨hfirst, hsecond, -, hback⟩ _ _ rfl rfl
    exact ⟨hfirst, hsecond, hback⟩
  · intro h
    obtain ⟨hfirst, hsecond, hback⟩ := h first second rfl rfl
    exact ⟨hfirst, hsecond, hlat, hback⟩

end Jobs

section Accounts

variable {s : Db} (c : Caller) (b : AccountBody) (env : Env)

theorem castString_ne_none {v : Json} (h : truthy (some v) = true) : castString v ≠ .ok none := by
  cases v with
  | null => cases h
  | arr vs => simp [castString]
  | obj kvs =>
    simp only [castString]
    split
    · split
      · simp
      · simp
    · simp
  | bool b | num m e | str t => simp [castString]

/-- An input that was insisted on cannot be read back from an empty path. -/
theorem not_readBack_castString {v : Option Json} (h : truthy v = true) :
    ¬ ReadBack castString v none := by
  intro hback
  cases v with
  | none => cases h
  | some a => exact castString_ne_none h (hback a rfl)

theorem not_readBack_castTrimmed {v : Option Json} (h : truthy v = true) :
    ¬ ReadBack castTrimmed v none := by
  intro hback
  refine not_readBack_castString h fun a ha => ?_
  obtain ⟨x, hx, hnone⟩ := map_eq_ok (hback a ha)
  rw [hx, Option.map_eq_none_iff.mp hnone]

theorem keepsInputs_delateWorker :
    KeepsInputs s (.delateWorker c b env) ↔ KeptAnyway s (.delateWorker c b env) := by
  change (∀ d, writtenRecord s (delateRequest env c b) = some d → _) ↔ removes s c b = false
  cases hr : removes s c b with
  | false =>
    refine iff_of_true (fun d hd => ?_) rfl
    obtain ⟨cs, hserve⟩ := serve_delateWorker_refused s env c b hr
    rw [writtenRecord, hserve, List.getElem?_eq_none le_rfl] at hd
    cases hd
  | true =>
    obtain ⟨f, worker, cs, seqId, d, -, -, hd, hserve⟩ := serve_delateWorker s env c b hr
    have hrecord : writtenRecord s (delateRequest env c b) = some d := by
      rw [writtenRecord, hserve]
      exact List.getElem?_concat_length
    have hplatform : truthy b.platform = true := by
      simp only [removes, Bool.and_eq_true, Option.isNone_iff_eq_none] at hr
      have hcheck : (!truthy b.platform) = false :=
        check_of_refusal hr.1.1 (x := (!truthy b.platform, .platformEmpty)) (by
          simp [Providers.delateWorkerChecks])
      rwa [Bool.not_eq_false'] at hcheck
    refine iff_of_false (fun h => ?_) (by simp)
    have hback := (h d hrecord).1
    rw [(newDeleteRecord_entries env c b hd).2.2] at hback
    exact not_readBack_castString hplatform hback

/-- The operations of a registration: the account that it creates has no gender, although the
request has one. -/
def dropsGender (b : AccountBody) : DbOp → Prop
  | .createProvider p => p.gender = none ∧ truthy b.gender = true
  | .loginProvider _ _ _ _ => False
  | .deleteProvider _ => False
  | .pullWorkers _ _ _ => False
  | _ => True

theorem of_get?_updateOne {P : Provider → Prop} {ps : Collection Provider.id} {w : ObjectId}
    {sel : Provider → Bool} {f : Provider → Provider} (hf : ∀ p, (f p).id = p.id)
    (hP : ∀ p, P p → P (f p)) (h : ∀ p, ps.get? w = some p → P p) :
    ∀ p, (ps.updateOne sel f hf).get? w = some p → P p := by
  intro q hq
  rw [Collection.get?_updateOne] at hq
  split at hq
  · obtain ⟨p, hp, rfl⟩ := Option.map_eq_some_iff.mp hq
    exact hP p (h p hp)
  · exact h q hq

theorem dropsGender_exec {op : DbOp} (hop : dropsGender b op) {t : Db} {w : ObjectId}
    (ht : ∀ p, t.providers.get? w = some p → p.gender = none ∧ truthy b.gender = true) :
    ∀ p, (exec op t).1.providers.get? w = some p → p.gender = none ∧ truthy b.gender = true := by
  cases hw : op.writesProviders with
  | false =>
    rw [exec_providers_of_not_writesProviders hw]
    exact ht
  | true =>
    cases op with
    | createProvider p =>
      intro q hq
      cases hi : t.providers.insert p with
      | none =>
        rw [exec_createProvider_none hi] at hq
        exact ht q hq
      | some ps =>
        rw [exec_createProvider_some hi] at hq
        change ps.get? w = some q at hq
        rw [Collection.get?_insert hi] at hq
        split at hq
        · cases hq
          exact hop
        · exact ht q hq
    | updateProvider sel d now => exact of_get?_updateOne (d.apply_id now) (fun p hp => hp) ht
    | saveProviderToken id tok now =>
      exact of_get?_updateOne (f := fun p => { p with token := some tok, updatedAt := now })
        (fun _ => rfl) (fun p hp => hp) ht
    | loginProvider | deleteProvider | pullWorkers => cases hop
    | _ => cases hw

theorem newProvider_gender {profilePic certificate : String} {seqId : ℕ} {p : Provider}
    (h : Providers.newProvider env b profilePic certificate seqId = .ok p) : p.gender = none := by
  unfold Providers.newProvider at h
  repeat obtain ⟨_, -, h⟩ := bind_eq_ok h
  rw [← Except.ok.inj h]

theorem gender_of_writtenAccount {files : Option AccountFiles} {p : Provider}
    (h : writtenAccount s (registerRequest c b files env) = some p) :
    p.gender = none ∧ truthy b.gender = true := by
  have hrule : RegisterRule (fun _ op => dropsGender b op) env b :=
    { counts := fun _ op hop => by
        cases op with
        | read f | createCounter c | updateCounter table m n => trivial
        | _ => cases hop
      updateProvider := fun _ _ _ _ => trivial
      create := fun _ _ _ _ p howner hp => by
        refine ⟨newProvider_gender b env hp, ?_⟩
        have hcheck : (!truthy b.gender) = false :=
          check_of_refusal howner (x := (!truthy b.gender, .genderEmpty)) (by
            simp [Providers.ownerChecks])
        rwa [Bool.not_eq_false'] at hcheck
      clear := fun _ _ => trivial
      cache := fun _ _ => trivial
      record := fun _ _ _ _ => trivial }
  unfold writtenAccount at h
  split at h
  · rename_i hnew
    rw [serveAccount_eq] at h
    refine (obeys_register hrule files s).run
      (I := fun t => ∀ p, t.providers.get? env.newId = some p →
        p.gender = none ∧ truthy b.gender = true)
      (fun t op hop ht => dropsGender_exec b hop ht) ?_ p h
    intro q hq
    rw [Option.isNone_iff_eq_none] at hnew
    exact absurd (hnew.symm.trans hq) (by simp)
  · cases h

theorem isOk_bind_congr {α β : Type} {x : Except Thrown α} {f g : α → Except Thrown β}
    (h : ∀ a, (f a).isOk = (g a).isOk) : (x >>= f).isOk = (x >>= g).isOk := by
  cases x with
  | error e => rfl
  | ok a => exact h a

/-- The number of the account decides nothing. -/
theorem isOk_newProvider (profilePic certificate : String) (n : ℕ) :
    (Providers.newProvider env b profilePic certificate n).isOk =
      (Providers.newProvider env b profilePic certificate 0).isOk := by
  unfold Providers.newProvider
  repeat refine isOk_bind_congr fun _ => ?_
  rfl

/-- The account is there in the end, if its document is accepted. -/
theorem isSome_createProviderData {t : Db} (hnew : t.providers.get? env.newId = none)
    (profilePic certificate : String) (n : ℕ) :
    ((((createProviderData env (Providers.newProvider env b profilePic certificate n)) >>=
      Providers.sendAccount).run exec t).1.providers.get? env.newId).isSome =
        (Providers.newProvider env b profilePic certificate 0).isOk := by
  rw [← isOk_newProvider b env profilePic certificate n]
  cases hdata : Providers.newProvider env b profilePic certificate n with
  | error e =>
    change (t.providers.get? env.newId).isSome = false
    rw [hnew]
    rfl
  | ok p =>
    have hid : p.id = env.newId := newProvider_id hdata
    obtain ⟨ps, hps⟩ := Collection.exists_insert (hid ▸ hnew)
    have hsend (x : Option Provider) (t : Db) : ((Providers.sendAccount x).run exec t).1 = t := by
      cases x with
      | none => rfl
      | some p => rfl
    rw [Prog.run_bind_fst exec hsend]
    let rest (created : Bool) : Action (Option Provider) :=
      (if created then pure p else throwing .duplicateKey) >>= fun p => do
        let token := generateProviderToken env p.id
        Prog.perform (DbOp.delProviderToken p.id)
        Prog.perform (DbOp.setProviderToken p.id token)
        Prog.perform (DbOp.saveProviderToken p.id token env.now)
        query fun s => s.providers.get? p.id
    have hrun : (createProviderData env (.ok p)).run exec t =
        (rest (exec (.createProvider p) t).2).run exec (exec (.createProvider p) t).1 := rfl
    rw [hrun, exec_createProvider_some hps]
    let stamped (q : Provider) : Provider :=
      { q with token := some (generateProviderToken env p.id), updatedAt := env.now }
    change ((ps.updateOne _ stamped (fun _ => rfl)).get? env.newId).isSome = true
    rw [Collection.isSome_get?_updateOne, Collection.get?_insert hps, if_pos hid]
    rfl

theorem isSome_registerWith (hnew : s.providers.get? env.newId = none)
    (profilePic : Option String) (certificate : String) :
    (((Providers.registerWith env b profilePic certificate).run exec s).1.providers.get?
      env.newId).isSome =
        (noMatch s.providers (providerByPhone b.phone) && profilePic.any fun pic =>
          (Providers.newProvider env b pic certificate 0).isOk) := by
  have hnone : (s.providers.get? env.newId).isSome = false := by rw [hnew]; rfl
  unfold Providers.registerWith
  cases providerByPhone b.phone with
  | error e => exact hnone
  | ok p =>
    rw [run_cast_ok_bind, run_query_bind, noMatch]
    by_cases hcount : s.providers.count p = 0
    · rw [if_pos hcount, decide_eq_true hcount, Bool.true_and]
      obtain ⟨cs, n, hseq⟩ := run_getSequence "dqw_providers" s
      rw [Prog.run_bind, hseq]
      dsimp only
      cases profilePic with
      | none => exact hnone
      | some pic =>
        exact isSome_createProviderData b env (t := { s with counters := cs }) hnew pic _ n
    · rw [if_neg hcount, decide_eq_false hcount, Bool.false_and]
      unfold Providers.alreadyRegister
      rcases b.phone with _ | v
      · exact hnone
      · dsimp only
        split
        · exact hnone
        · exact hnone

theorem isSome_register {files : Option AccountFiles} (hnew : s.providers.get? env.newId = none) :
    (((Providers.register env b files).run exec s).1.providers.get? env.newId).isSome =
      opensAccount s b files env := by
  have hnone : (s.providers.get? env.newId).isSome = false := by rw [hnew]; rfl
  unfold Providers.register opensAccount checked
  cases refusal (Providers.registerChecks b) with
  | some key => exact hnone
  | none =>
    cases files with
    | none => exact hnone
    | some files =>
      simp only [Option.any_some, Option.isNone_none, Bool.true_and]
      cases refusal (Providers.companyChecks b files) with
      | some key => exact hnone
      | none =>
        cases b.userType.any Json.unprintable with
        | true => exact hnone
        | false =>
          cases refusal (Providers.ownerChecks b) with
          | some key => exact hnone
          | none =>
            have hwith := isSome_registerWith b env hnew files.profilePic
              (files.certificate.getD "")
            simpa [hnew] using hwith

theorem isSome_writtenAccount (files : Option AccountFiles) :
    (writtenAccount s (registerRequest c b files env)).isSome = opensAccount s b files env := by
  change (if (s.providers.get? env.newId).isNone then
    (serveAccount s (registerRequest c b files env)).providers.get? env.newId else none).isSome = _
  rw [serveAccount_eq]
  cases hnew : s.providers.get? env.newId with
  | none => exact isSome_register b env hnew
  | some p => simp [opensAccount, hnew]

theorem keepsInputs_register (files : Option AccountFiles) :
    KeepsInputs s (.register c b files env) ↔ KeptAnyway s (.register c b files env) := by
  change (∀ p, writtenAccount s (registerRequest c b files env) = some p → _) ↔
    opensAccount s b files env = false
  rw [← isSome_writtenAccount c]
  cases hp : writtenAccount s (registerRequest c b files env) with
  | none => exact iff_of_true (fun p hp => by cases hp) rfl
  | some p =>
    refine iff_of_false (fun h => ?_) (by simp)
    obtain ⟨hnone, hgender⟩ := gender_of_writtenAccount c b env hp
    have hback := h p rfl
    rw [hnone] at hback
    exact not_readBack_castTrimmed hgender hback

/-- What a handler insists on can be read back from what it wrote exactly when it was there
without the request, or nothing was written: the number of a transaction, the first picture and
the longitude of a start, the gender of a provider and the origin of a removal are not kept. -/
theorem inputs_kept_iff (s : Db) (r : InsistingRequest) : KeepsInputs s r ↔ KeptAnyway s r := by
  cases r with
  | paymentSuccess c b env => exact keepsInputs_paymentSuccess c b env
  | jobStart c b files env => exact keepsInputs_jobStart c b files env
  | register c b files env => exact keepsInputs_register c b env files
  | delateWorker c b env => exact keepsInputs_delateWorker c b env

def acceptedDb : Db := runFrom serve sampleDb [sampleBooking, onSampleJob .jobAccept company 2]

def sampleCompanyBody : AccountBody where
  fullName := some (.str "Fix It")
  email := some (.str "fix@example")
  phone := some (.str "901")
  country := some (.str "NG")
  state := some (.str "Lagos")
  city := some (.str "Ikeja")
  landMark := some (.str "Mall")
  postalCode := some (.str "100")
  userType := some (.str companyType)
  companyRegNo := some (.str "1")
  tinNumber := some (.str "1")
  bankAcountNumber := some (.str "1")
  companyName := some (.str "Fix It")
  companyPhone := some (.str "901")
  documentType := some (.str "card")
  documentNo := some (.str "1")
  ownerBVN := some (.str "1")
  gender := some (.str "female")

/-- The four requests get through, and each loses an input: the number of the transaction, the
first picture, the gender, the platform. -/
theorem inputs_dropped :
    ¬ KeepsInputs acceptedDb
        (.paymentSuccess customer (onSampleJob .paymentSuccess customer 3).body (sampleEnv 3)) ∧
      ¬ KeepsInputs acceptedDb
        (.jobStart company (onSampleJob .jobStart company 3).body
          (some ⟨none, some "a.png", some "b.png"⟩) (sampleEnv 3)) ∧
      ¬ KeepsInputs sampleDb
        (.register company sampleCompanyBody (some ⟨some "a.png", some "c.pdf"⟩)
          { sampleEnv 1 with newId := idOf "company---09" }) ∧
      ¬ KeepsInputs sampleDb
        (.delateWorker company
          { workerId := some (.str "worker----01")
            platform := some (.str "Android")
            ipAddress := some (.str "10.0.0.1") } (sampleEnv 2)) := by
  refine ⟨fun h => ?_, fun h => ?_, fun h => ?_, fun h => ?_⟩
  · have hjob : (writtenJob acceptedDb (paymentSuccessRequest customer
        (onSampleJob .paymentSuccess customer 3).body (sampleEnv 3))).map Job.txnNo =
          some none := by
      decide +kernel
    obtain ⟨j, hj, hnone⟩ := Option.map_eq_some_iff.mp hjob
    have hback := h j hj
    rw [hnone] at hback
    exact not_readBack_castString rfl hback
  · have hjob : (writtenJob acceptedDb (jobStartRequest company
        (onSampleJob .jobStart company 3).body (some ⟨none, some "a.png", some "b.png"⟩)
        (sampleEnv 3))).map (fun j => (j.jobStartImage1, j.jobStartImage2)) =
          some (some "b.png", none) := by
      decide +kernel
    obtain ⟨j, hj, hpics⟩ := Option.map_eq_some_iff.mp hjob
    obtain ⟨hfirst, hsecond⟩ := Prod.mk.inj hpics
    have hshows := (h j hj).1 "a.png" rfl
    rw [ShowsPicture, hfirst, hsecond] at hshows
    exact absurd hshows (by decide)
  · rw [keepsInputs_register] at h
    have hopens : opensAccount sampleDb sampleCompanyBody (some ⟨some "a.png", some "c.pdf"⟩)
        { sampleEnv 1 with newId := idOf "company---09" } = true := by decide +kernel
    exact Bool.false_ne_true (h.symm.trans hopens)
  · rw [keepsInputs_delateWorker] at h
    have hremoves : removes sampleDb company
        { workerId := some (.str "worker----01")
          platform := some (.str "Android")
          ipAddress := some (.str "10.0.0.1") } = true := by decide +kernel
    exact Bool.false_ne_true (h.symm.trans hremoves)

end Accounts

end DoQwik
