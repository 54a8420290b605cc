import DoQwik.Dashboard

/-! The most active accounts of the dashboard: which groups of jobs they come from, whatever order
the database hands the groups over in. -/
namespace DoQwik
open JsValues DocStore Interleave Calendar Groups

section Statements

variable (s : Db) (p : Job → Bool) (ref : Job → Option ObjectId)

def jobsOf (w : ObjectId) : ℕ := (s.jobs.find p).countP fun j => ref j = some w

def Shows (e : Option ActiveEntry) (w : ObjectId) : Prop :=
  (e.bind ActiveEntry.account).map Prod.fst = some w

/-- If a job qualifies, the entry shows an account with as many jobs as any other has; and it does
not come from the jobs that refer to nobody. -/
structure MostActive (e : Option ActiveEntry) : Prop where
  maximum : ∀ j ∈ s.jobs.docs, p j = true → ref j ≠ none →
    ∃ w, Shows e w ∧ ∀ w', jobsOf s p ref w' ≤ jobsOf s p ref w
  assigned : ∀ entry, e = some entry → ∀ j ∈ s.jobs.docs, j.id = entry.id → ref j ≠ none

/-- The jobs leave no choice: each one refers to an account that is there, and all of these have
the same number of jobs. -/
structure NoChoice (account : Db → ObjectId → Option (ObjectId × String)) : Prop where
  known : ∀ j ∈ s.jobs.docs, p j = true → ∃ w, ref j = some w ∧ (account s w).isSome = true
  tied : ∀ j ∈ s.jobs.docs, p j = true → ∀ j' ∈ s.jobs.docs, p j' = true →
    ∀ w w', ref j = some w → ref j' = some w' → jobsOf s p ref w = jobsOf s p ref w'

end Statements

section Entries

variable {s : Db} {p : Job → Bool} {ref : Job → Option ObjectId}

/-- The newest job of a group is one of its jobs. -/
theorem exists_newestOf (ref : Job → Option ObjectId)
    (account : Db → ObjectId → Option (ObjectId × String)) {j : Job} (hj : j ∈ s.jobs.docs) :
    ∃ j₀ ∈ s.jobs.docs, ref j₀ = ref j ∧ newestOf ref account (ref j) s =
      some { id := j₀.id, account := (ref j).bind (account s) } := by
  have hmem : ∀ j', j' ∈ listJobs s (fun j' => ref j' = ref j) ↔
      j' ∈ s.jobs.docs ∧ ref j' = ref j := by
    intro j'
    simp [listJobs, sortDescending, Collection.find]
  have hne : listJobs s (fun j' => ref j' = ref j) ≠ [] :=
    List.ne_nil_of_mem ((hmem j).mpr ⟨hj, rfl⟩)
  obtain ⟨hdocs, href⟩ := (hmem _).mp (List.head_mem hne)
  refine ⟨_, hdocs, href, ?_⟩
  rw [newestOf, List.head?_eq_some_head hne, Option.map_some, href]

theorem mem_groupsOf {g : Option ObjectId × ℕ} (h : g ∈ groupsOf ref p s) :
    ∃ j ∈ s.jobs.docs, p j = true ∧ ref j = g.1 := by
  obtain ⟨⟨j, hj, href⟩, -⟩ := mem_counts.mp h
  obtain ⟨hdocs, hp⟩ := List.mem_filter.mp hj
  exact ⟨j, hdocs, hp, href⟩

theorem exists_group (ref : Job → Option ObjectId) {j : Job} (hj : j ∈ s.jobs.docs) (hp : p j = true) :
    ∃ n, (ref j, n) ∈ groupsOf ref p s :=
  ⟨_, mem_counts_of_mem (List.mem_filter.mpr ⟨hj, hp⟩)⟩

theorem jobsOf_pos {w : ObjectId} (h : 0 < jobsOf s p ref w) :
    ∃ j ∈ s.jobs.docs, p j = true ∧ ref j = some w := by
  obtain ⟨j, hj, href⟩ := List.countP_pos_iff.mp h
  obtain ⟨hdocs, hp⟩ := List.mem_filter.mp hj
  exact ⟨j, hdocs, hp, of_decide_eq_true href⟩

end Entries

section Arrangements

variable (s : Db) (p : Job → Bool) (ref : Job → Option ObjectId)

def firstEntry (order : Arrangement (Option ObjectId × ℕ)) : Option ActiveEntry :=
  (order.first (groupsOf ref p s)).bind fun g => newestOf ref providerAccount g.1 s

variable {s p ref}

theorem account_id {w : ObjectId} {a : ObjectId × String} (h : providerAccount s w = some a) :
    a.1 = w := by
  obtain ⟨provider, hget, rfl⟩ := Option.map_eq_some_iff.mp h
  exact ((s.providers.get?_eq_some_iff w provider).mp hget).2

/-- If any order gives a maximum then every group is one, since each comes first in some order. -/
theorem noChoice_of_mostActive (h : ∀ order, MostActive s p ref (firstEntry s p ref order)) :
    NoChoice s p ref providerAccount := by
  have hgroup : ∀ j ∈ s.jobs.docs, p j = true → ∃ w, ref j = some w ∧
      (providerAccount s w).isSome = true ∧ ∀ w', jobsOf s p ref w' ≤ jobsOf s p ref w := by
    intro j hj hp
    obtain ⟨n, hmem⟩ := exists_group ref hj hp
    obtain ⟨order, hfirst⟩ := Arrangement.exists_arrangement hmem
    obtain ⟨j₀, hj₀, href, hnewest⟩ := exists_newestOf ref providerAccount hj
    have hentry : firstEntry s p ref order =
        some { id := j₀.id, account := (ref j).bind (providerAccount s) } := by
      rw [firstEntry, hfirst, Option.bind_some, hnewest]
    have hassigned := (h order).assigned _ hentry j₀ hj₀ rfl
    rw [href] at hassigned
    obtain ⟨w, hshows, hmax⟩ := (h order).maximum j hj hp hassigned
    obtain ⟨w₀, hw₀⟩ := Option.ne_none_iff_exists'.mp hassigned
    rw [Shows, hentry, Option.bind_some, hw₀, Option.bind_some] at hshows
    obtain ⟨a, ha, rfl⟩ := Option.map_eq_some_iff.mp hshows
    change providerAccount s w₀ = some a at ha
    rw [account_id ha] at hmax
    exact ⟨w₀, hw₀, Option.isSome_of_mem ha, hmax⟩
  constructor
  · intro j hj hp
    obtain ⟨w, hw, haccount, -⟩ := hgroup j hj hp
    exact ⟨w, hw, haccount⟩
  · intro j hj hp j' hj' hp' w w' hw hw'
    obtain ⟨v, hv, -, hmax⟩ := hgroup j hj hp
    obtain ⟨v', hv', -, hmax'⟩ := hgroup j' hj' hp'
    obtain rfl : w = v := Option.some.inj (hw.symm.trans hv)
    obtain rfl : w' = v' := Option.some.inj (hw'.symm.trans hv')
    exact le_antisymm (hmax' w) (hmax w')

theorem mostActive_of_noChoice (h : NoChoice s p ref providerAccount)
    (order : Arrangement (Option ObjectId × ℕ)) :
    MostActive s p ref (firstEntry s p ref order) := by
  -- what an order puts first comes from a job with an account
  have hfirst : ∀ g, order.first (groupsOf ref p s) = some g → ∃ j ∈ s.jobs.docs, p j = true ∧
      ∃ w, ref j = some w ∧ (providerAccount s w).isSome = true ∧
        ∃ j₀ ∈ s.jobs.docs, ref j₀ = some w ∧ firstEntry s p ref order =
          some { id := j₀.id, account := providerAccount s w } := by
    intro g hg
    obtain ⟨j, hj, hp, href⟩ := mem_groupsOf (Arrangement.mem_of_first hg)
    obtain ⟨w, hw, haccount⟩ := h.known j hj hp
    obtain ⟨j₀, hj₀, href₀, hnewest⟩ :=
      exists_newestOf ref providerAccount hj
    refine ⟨j, hj, hp, w, hw, haccount, j₀, hj₀, href₀.trans hw, ?_⟩
    rw [firstEntry, hg, Option.bind_some, ← href, hnewest, hw, Option.bind_some]
  constructor
  · intro j hj hp _
    obtain ⟨n, hmem⟩ := exists_group ref hj hp
    obtain ⟨g, hg⟩ := Arrangement.exists_first (a := order) hmem
    obtain ⟨j₁, hj₁, hp₁, w, hw, haccount, j₀, -, -, hentry⟩ := hfirst g hg
    obtain ⟨a, ha⟩ := Option.isSome_iff_exists.mp haccount
    refine ⟨w, ?_, fun w' => ?_⟩
    · rw [Shows, hentry, Option.bind_some, ha, Option.map_some, account_id ha]
    · rcases Nat.eq_zero_or_pos (jobsOf s p ref w') with hzero | hpos
      · rw [hzero]
        exact Nat.zero_le _
      · obtain ⟨j', hj', hp', href'⟩ := jobsOf_pos hpos
        exact (h.tied j' hj' hp' j₁ hj₁ hp₁ w' w href' hw).le
  · intro entry hentry j hj hid
    obtain ⟨g, hg, -⟩ := Option.bind_eq_some_iff.mp hentry
    obtain ⟨-, -, -, w, -, -, j₀, hj₀, href₀, hfirst⟩ := hfirst g hg
    rw [hfirst, Option.some.injEq] at hentry
    rw [← hentry] at hid
    rw [List.inj_on_of_nodup_map s.jobs.nodup hj hj₀ hid, href₀]
    exact Option.some_ne_none w

theorem mostActive_iff :
    (∀ order, MostActive s p ref (firstEntry s p ref order)) ↔ NoChoice s p ref providerAccount :=
  ⟨noChoice_of_mostActive, mostActive_of_noChoice⟩

end Arrangements

section Accounts

/-- The most active worker, individual and company are a maximum of their kind in whatever order
the groups come, exactly if the paid jobs of each kind leave no choice. -/
theorem activeAccounts_iff (z : Zone) (now : ℕ) (s : Db) :
    (∀ order, MostActive s paid Job.workerData (dashboardOf z now order s).activeWorker ∧
        MostActive s (paidAs individualType) providerOf
          (dashboardOf z now order s).activeIndividual ∧
        MostActive s (paidAs companyType) providerOf (dashboardOf z now order s).activeCompany) ↔
      NoChoice s paid Job.workerData providerAccount ∧
        NoChoice s (paidAs individualType) providerOf providerAccount ∧
        NoChoice s (paidAs companyType) providerOf providerAccount := by
  rw [← mostActive_iff, ← mostActive_iff, ← mostActive_iff]
  constructor
  · intro h
    -- the three pipelines are ordered independently of each other
    refine ⟨fun a => ?_, fun a => ?_, fun a => ?_⟩
    · exact (h ⟨a, a, a, a, a, a⟩).1
    · exact (h ⟨a, a, a, a, a, a⟩).2.1
    · exact (h ⟨a, a, a, a, a, a⟩).2.2
  · rintro ⟨hworker, hindividual, hcompany⟩ order
    exact ⟨hworker order.workers, hindividual order.individuals, hcompany order.companies⟩

/-- Sorted by their size, the groups begin with a largest one. -/
theorem le_of_largestGroup {order : Arrangement (Option ObjectId × ℕ)}
    {gs : List (Option ObjectId × ℕ)} {g g' : Option ObjectId × ℕ}
    (h : largestGroup order gs = some g) (hg' : g' ∈ gs) : g'.2 ≤ g.2 := by
  have hsorted : (sortDescending (fun g => (g.2 : ℤ)) (order.arrange gs)).Pairwise
      fun a b => (b.2 : ℤ) ≤ a.2 := List.pairwise_insertionSort _ _
  have hmem : g' ∈ sortDescending (fun g => (g.2 : ℤ)) (order.arrange gs) :=
    List.mem_insertionSort _ |>.mpr ((order.perm gs).mem_iff.mpr hg')
  obtain ⟨rest, hrest⟩ := List.head?_eq_some_iff.mp h
  rw [hrest] at hsorted hmem
  rcases List.mem_cons.mp hmem with rfl | hin
  · exact le_rfl
  · exact_mod_cast (List.pairwise_cons.mp hsorted).1 g' hin

/-- The most active user, for which the groups are sorted by their size, is a maximum in every
order. -/
theorem activeUser_eq (z : Zone) (now : ℕ) (order : GroupOrders) (s : Db)
    (hjobs : s.jobs.docs ≠ []) :
    ∃ w, (dashboardOf z now order s).activeUser = newestOf userOf userAccount (some w) s ∧
      ∀ w', jobsOf s (fun _ => true) userOf w' ≤ jobsOf s (fun _ => true) userOf w := by
  obtain ⟨j, hj⟩ := List.exists_mem_of_ne_nil _ hjobs
  obtain ⟨n, hgroup⟩ := exists_group (p := fun _ => true) (s := s) userOf hj rfl
  have hne : sortDescending (fun g => (g.2 : ℤ))
      (order.users.arrange (groupsOf userOf (fun _ => true) s)) ≠ [] :=
    List.ne_nil_of_mem ((List.mem_insertionSort _).mpr ((order.users.perm _).mem_iff.mpr hgroup))
  obtain ⟨g, hg⟩ : ∃ g, largestGroup order.users (groupsOf userOf (fun _ => true) s) = some g :=
    ⟨_, List.head?_eq_some_head hne⟩
  have hmem : g ∈ groupsOf userOf (fun _ => true) s :=
    (order.users.perm _).mem_iff.mp
      ((List.mem_insertionSort _).mp (List.mem_of_mem_head? hg))
  obtain ⟨j₁, -, -, hw⟩ := mem_groupsOf hmem
  have hcount : jobsOf s (fun _ => true) userOf j₁.userId = g.2 := by
    rw [← (mem_counts.mp hmem).2, ← hw]
    rfl
  refine ⟨j₁.userId, ?_, fun w' => ?_⟩
  · change (largestGroup order.users (groupsOf userOf (fun _ => true) s)).bind _ = _
    rw [hg, Option.bind_some, ← hw]
    rfl
  · rw [hcount]
    rcases Nat.eq_zero_or_pos (jobsOf s (fun _ => true) userOf w') with hzero | hpos
    · rw [hzero]
      exact Nat.zero_le _
    · obtain ⟨j', hj', hp', hw'⟩ := jobsOf_pos hpos
      have hgroup' : (some w', jobsOf s (fun _ => true) userOf w') ∈
          groupsOf userOf (fun _ => true) s :=
        mem_counts.mpr ⟨⟨j', List.mem_filter.mpr ⟨hj', hp'⟩, hw'⟩, rfl⟩
      exact le_of_largestGroup hg hgroup'

end Accounts

section Sample

def paidCourse (job provider : String) : List JobRequest :=
  { sampleBooking with
    body := { sampleBooking.body with providerId := some (.str provider) }
    env := { sampleEnv 1 with newId := idOf job } } ::
  [JobHandler.jobAccept, .jobStart, .jobFinish].map fun handler =>
    { onSampleJob handler ⟨idOf provider, "PROVIDER"⟩ 2 with
      body := { (onSampleJob handler company 2).body with
        jobId := some (.str job)
        jobID := some (.str job) } }

def twoCompanies : Db :=
  runFrom serve
    { sampleDb with
      providers := ⟨[sampleProvider "company---01" companyType none,
        sampleProvider "company---03" companyType none], by decide +kernel⟩ }
    (paidCourse "job-------01" "company---01" ++ paidCourse "job-------02" "company---03" ++
      paidCourse "job-------03" "company---03")

/-- The company with fewer jobs is shown, and a worker is shown for jobs that had none. -/
theorem activeCompany_with_fewer_jobs :
    Shows (dashboardOf utc sampleNow someOrders twoCompanies).activeCompany
        (idOf "company---01") ∧
      jobsOf twoCompanies (paidAs companyType) providerOf (idOf "company---01") = 1 ∧
      jobsOf twoCompanies (paidAs companyType) providerOf (idOf "company---03") = 2 ∧
      ¬ MostActive twoCompanies (paidAs companyType) providerOf
        (dashboardOf utc sampleNow someOrders twoCompanies).activeCompany ∧
      ¬ MostActive twoCompanies paid Job.workerData
        (dashboardOf utc sampleNow someOrders twoCompanies).activeWorker := by
  have hshows : Shows (dashboardOf utc sampleNow someOrders twoCompanies).activeCompany
      (idOf "company---01") := by
    unfold Shows
    decide +kernel
  have hone : jobsOf twoCompanies (paidAs companyType) providerOf (idOf "company---01") = 1 := by
    decide +kernel
  have htwo : jobsOf twoCompanies (paidAs companyType) providerOf (idOf "company---03") = 2 := by
    decide +kernel
  refine ⟨hshows, hone, htwo, fun h => ?_, fun h => ?_⟩
  · have hjob : ∃ j ∈ twoCompanies.jobs.docs, paidAs companyType j = true := by decide +kernel
    obtain ⟨j, hj, hp⟩ := hjob
    obtain ⟨w, hw, hmax⟩ := h.maximum j hj hp (Option.some_ne_none _)
    obtain rfl : idOf "company---01" = w := Option.some.inj (hshows.symm.trans hw)
    have hle := hmax (idOf "company---03")
    rw [hone, htwo] at hle
    exact absurd hle (by decide)
  · have hentry : ∃ j ∈ twoCompanies.jobs.docs,
        (dashboardOf utc sampleNow someOrders twoCompanies).activeWorker.map ActiveEntry.id =
          some j.id ∧ j.workerData = none := by decide +kernel
    obtain ⟨j, hj, hid, hnone⟩ := hentry
    obtain ⟨entry, hactive, hentry⟩ := Option.map_eq_some_iff.mp hid
    exact h.assigned entry hactive j hj hentry.symm hnone

end Sample

end DoQwik
