import DoQwik.JobBookings
import DoQwik.JobRecords
import DoQwik.Paging

/-! The lists of jobs, read page by page with `skip` and `limit` while other requests are served.
The lists are sorted by the number of the job, so that a job that is booked in the meantime may
come in anywhere. -/
namespace DoQwik
open JsValues DocStore Interleave Paging

section Lists

/-- The lists that select by the terms of a booking alone: those of a customer, and those of a
provider who does not search for a status. -/
def JobListRequest.pinned (r : JobListRequest) : Bool :=
  match r.handler with
  | .jobListByUserID => true
  | .assignJobListByProviderID => !truthy r.orderSearch
  | _ => false

def JobListRequest.lists (r : JobListRequest) (terms : JobTerms) : Bool :=
  match r.handler with
  | .jobListByUserID => terms.userId = r.caller.userId
  | _ => terms.providerData = r.caller.userId

def JobListRequest.atPage (r : JobListRequest) (size k : ℕ) : JobListRequest :=
  { r with window := .ok (k*size, some size) }

def shownIds (a : JobResponse) : List ObjectId :=
  match a.result with
  | some (.entries jobs) => jobs.map JobEntry.id
  | _ => []

/-- A page that the database may show: the jobs are sorted by their numbers, and jobs with the same
number may come in another order for every request. -/
def JobListRequest.MayPage (r : JobListRequest) (size k : ℕ) (s : Db) (page : List ObjectId) :
    Prop :=
  ∃ jobs, SortsTo (fun j => (j.jobId : ℤ)) (s.jobs.find fun j => r.lists j.terms) jobs ∧
    page = Paging.window size k (jobs.map Job.id)

/-- No two jobs of the list have the same number. -/
def JobListRequest.Numbered (r : JobListRequest) (s : Db) : Prop :=
  ((s.jobs.find fun j => r.lists j.terms).map fun j => (j.jobId : ℤ)).Nodup

def JobListRequest.ids (r : JobListRequest) (s : Db) : List ObjectId :=
  (listJobs s fun j => r.lists j.terms).map Job.id

variable {r : JobListRequest}

theorem isToday_of_not_truthy {v : Option Json} (h : truthy v = false) : isToday v = false := by
  cases v with
  | none => rfl
  | some v =>
    cases v with
    | str s =>
      refine decide_eq_false ?_
      rintro rfl
      exact absurd h (by decide)
    | _ => rfl

theorem statusSearch_of_not_truthy (h : truthy r.orderSearch = false) :
    statusSearch r = .ok fun _ => true := by
  rw [statusSearch, isToday_of_not_truthy h, h]
  rfl

/-- What `getData` answers, for a page of a list. -/
theorem shownIds_getData {p : Job → Bool} {withCode : Bool} {size k : ℕ}
    (h : r.handle = getData (.ok p) (.ok (k*size, some size)) withCode) (s : Db) :
    shownIds (answerCall s (.list r)) = window size k ((listJobs s p).map Job.id) := by
  have hshown : shownIds (answerCall s (.list r)) =
      ((page (k*size, some size) (listJobs s p)).map (entryOf s withCode)).map JobEntry.id := by
    rw [answerCall, JobCall.program, h]
    rfl
  rw [hshown, List.map_map, window, ← List.map_drop, ← List.map_take]
  rfl

/-- A page shows its part of the list. -/
theorem shownIds_page (hr : r.pinned = true) (size k : ℕ) (s : Db) :
    shownIds (answerCall s (.list (r.atPage size k))) = window size k (r.ids s) := by
  obtain ⟨handler, c, jobId, orderSearch, w, periods, regex⟩ := r
  cases handler with
  | jobListByUserID => exact shownIds_getData rfl s
  | assignJobListByProviderID =>
    have hsearch : truthy orderSearch = false := by simpa [JobListRequest.pinned] using hr
    have hhandle : (JobListRequest.atPage ⟨.assignJobListByProviderID, c, jobId, orderSearch, w,
        periods, regex⟩ size k).handle =
          getData (.ok fun j => decide (j.providerData = c.userId)) (.ok (k*size, some size))
            false := by
      change getData ((statusSearch _).map _) _ _ = _
      rw [statusSearch_of_not_truthy hsearch]
      change getData (.ok fun j => decide (j.providerData = c.userId) && true) _ _ = _
      simp only [Bool.and_true]
      rfl
    exact shownIds_getData hhandle s
  | _ => cases hr

theorem mayPage_window (r : JobListRequest) (size k : ℕ) (s : Db) :
    r.MayPage size k s (window size k (r.ids s)) :=
  ⟨_, sortsTo_sortDescending _ _, rfl⟩

/-- With different numbers there is one page only. -/
theorem JobListRequest.MayPage.eq {size k : ℕ} {s : Db} {page : List ObjectId}
    (h : r.MayPage size k s page) (hnumbered : r.Numbered s) :
    page = Paging.window size k (r.ids s) := by
  obtain ⟨jobs, hsorts, rfl⟩ := h
  rw [hsorts.eq_sortDescending hnumbered]
  rfl

end Lists

section Growth

/-- The bookings in the order in which they were made. -/
def bookings (s : Db) : List (ObjectId × JobTerms) := s.jobs.docs.map fun j => (j.id, j.terms)

/-- A list is made of the bookings. -/
theorem ids_eq (r : JobListRequest) (s : Db) :
    r.ids s = (sortDescending (fun x => (x.2.jobId : ℤ))
      ((bookings s).filter fun x => r.lists x.2)).map Prod.fst := by
  rw [JobListRequest.ids, bookings, List.filter_map, ← map_sortDescending, List.map_map]
  rfl

/-- Bookings that are added leave those that are there in their order. -/
theorem ids_sublist (r : JobListRequest) {s t : Db} (h : bookings s <+: bookings t) :
    (r.ids s).Sublist (r.ids t) := by
  rw [ids_eq, ids_eq]
  exact (sortDescending_sublist _ (h.sublist.filter _)).map _

theorem JobListRequest.Numbered.of_prefix {r : JobListRequest} {s t : Db} (h : r.Numbered t)
    (hgrown : bookings s <+: bookings t) : r.Numbered s := by
  have hnumbers (u : Db) : ((u.jobs.find fun j => r.lists j.terms).map fun j => (j.jobId : ℤ)) =
      ((bookings u).filter fun x => r.lists x.2).map fun x => (x.2.jobId : ℤ) := by
    rw [bookings, List.filter_map, List.map_map]
    rfl
  unfold JobListRequest.Numbered at h ⊢
  rw [hnumbers] at h ⊢
  exact h.sublist ((hgrown.sublist.filter _).map _)

theorem bookings_exec {op : DbOp} (s : Db) (hop : TermsRule s op) :
    bookings s <+: bookings (exec op s).1 := by
  rcases exec_jobs_cases op s with hsame | ⟨j, -, hi⟩ | ⟨sel, d, now, rfl⟩
  · rw [bookings, bookings, hsame]
  · rw [bookings, bookings, (Collection.insert_eq_some hi).2, List.map_append]
    exact List.prefix_append _ _
  · have hsame : bookings (exec (.updateJob sel d now) s).1 = bookings s := by
      rw [bookings, exec_updateJob_jobs]
      refine map_key_updateFirst (fun j => (j.id, j.terms)) sel (d.apply now) (fun j => ?_) _
      exact Prod.ext rfl (hop.apply_terms now j)
    rw [hsame]

theorem obeying_steps {c : JobPool} (h : c.Obeying TermsRule) (sched : List ℕ) :
    (runFrom JobPool.step c sched).Obeying TermsRule := by
  refine invariant_of_step (I := fun c' : JobPool => c'.Obeying TermsRule) ?_ h sched
  intro c' i hc
  exact obeying_step hc i fun _ _ _ hop => Pool.Following.next hc hop

/-- In every interleaving bookings are only added, at the end. -/
theorem bookings_run {c : JobPool} (h : c.Obeying TermsRule) (sched : List ℕ) :
    bookings c.state <+: bookings (runFrom JobPool.step c sched).state := by
  refine (invariant_of_step
    (I := fun c' : JobPool => c'.Obeying TermsRule ∧ bookings c.state <+: bookings c'.state)
    ?_ ⟨h, List.prefix_refl _⟩ sched).2
  rintro c' i ⟨hc, hgrown⟩
  refine ⟨obeying_steps hc [i], ?_⟩
  rw [JobPool.state_step]
  cases hop : c'.nextOp i with
  | none => exact hgrown
  | some op => exact hgrown.trans (bookings_exec c'.state (Pool.Following.next hc hop))

end Growth

section Walks

/-- The answers to the requests for one page after the other, from page `k` on. A list is one
query; between two pages, the requests of the pool go on as the schedule says. -/
def pagesFrom (r : JobListRequest) (size : ℕ) : ℕ → JobPool → List (List ℕ) → List JobResponse
  | k, c, [] => [answerCall c.state (.list (r.atPage size k))]
  | k, c, sched :: pauses =>
    answerCall c.state (.list (r.atPage size k)) ::
      pagesFrom r size (k+1) (runFrom JobPool.step c sched) pauses

def listsFrom (r : JobListRequest) : JobPool → List (List ℕ) → List (List ObjectId)
  | c, [] => [r.ids c.state]
  | c, sched :: pauses => r.ids c.state :: listsFrom r (runFrom JobPool.step c sched) pauses

/-- The pages that may be shown to such a reader. -/
inductive MayShow (r : JobListRequest) (size : ℕ) :
    ℕ → JobPool → List (List ℕ) → List (List ObjectId) → Prop where
  | last {k : ℕ} {c : JobPool} {page : List ObjectId} (h : r.MayPage size k c.state page) :
      MayShow r size k c [] [page]
  | next {k : ℕ} {c : JobPool} {sched : List ℕ} {pauses : List (List ℕ)} {page : List ObjectId}
      {pages : List (List ObjectId)} (h : r.MayPage size k c.state page)
      (hrest : MayShow r size (k+1) (runFrom JobPool.step c sched) pauses pages) :
      MayShow r size k c (sched :: pauses) (page :: pages)

variable {r : JobListRequest}

/-- The answers are among them. -/
theorem mayShow_pagesFrom (hr : r.pinned = true) (size k : ℕ) (c : JobPool)
    (pauses : List (List ℕ)) :
    MayShow r size k c pauses ((pagesFrom r size k c pauses).map shownIds) := by
  have hpage (k : ℕ) (c : JobPool) :
      r.MayPage size k c.state (shownIds (answerCall c.state (.list (r.atPage size k)))) := by
    rw [shownIds_page hr]
    exact mayPage_window r size k c.state
  induction pauses generalizing k c with
  | nil => exact .last (hpage k c)
  | cons sched pauses ih => exact .next (hpage k c) (ih (k+1) _)

/-- With different numbers, they are the pages of the lists at the times of the requests. -/
theorem MayShow.eq_windows {size k : ℕ} {c : JobPool} {pauses : List (List ℕ)}
    {pages : List (List ObjectId)} (h : MayShow r size k c pauses pages)
    (hc : c.Obeying TermsRule)
    (hnumbered : r.Numbered (runFrom JobPool.step c pauses.flatten).state) :
    pages = windows size k (listsFrom r c pauses) := by
  have hnow {c : JobPool} {pauses : List (List ℕ)} (hc : c.Obeying TermsRule)
      (hnumbered : r.Numbered (runFrom JobPool.step c pauses.flatten).state) :
      r.Numbered c.state := hnumbered.of_prefix (bookings_run hc pauses.flatten)
  induction h with
  | last hpage =>
    rw [hpage.eq (hnow hc hnumbered)]
    rfl
  | @next k c sched pauses page pages hpage _ ih =>
    have hrest := hnumbered
    rw [List.flatten_cons, runFrom_append] at hrest
    rw [hpage.eq (hnow hc hnumbered), ih (obeying_steps hc sched) hrest]
    rfl

theorem listsFrom_eq_cons (r : JobListRequest) (c : JobPool) (pauses : List (List ℕ)) :
    ∃ later, listsFrom r c pauses = r.ids c.state :: later := by
  cases pauses with
  | nil => exact ⟨[], rfl⟩
  | cons sched pauses => exact ⟨_, rfl⟩

/-- From one page to the next the list only grows. -/
theorem listsFrom_growing {c : JobPool} (hc : c.Obeying TermsRule) (pauses : List (List ℕ)) :
    (listsFrom r c pauses).IsChain List.Sublist := by
  induction pauses generalizing c with
  | nil => exact List.isChain_singleton _
  | cons sched pauses ih =>
    have hrest := ih (obeying_steps hc sched)
    obtain ⟨later, hlater⟩ := listsFrom_eq_cons r (runFrom JobPool.step c sched) pauses
    rw [listsFrom, hlater]
    rw [hlater] at hrest
    exact List.isChain_cons_cons.mpr ⟨ids_sublist r (bookings_run hc sched), hrest⟩

/-- A list that is at the end what it was at the start was so all the time. -/
theorem listsFrom_constant {c : JobPool} (hc : c.Obeying TermsRule) (pauses : List (List ℕ))
    (hsame : r.ids (runFrom JobPool.step c pauses.flatten).state = r.ids c.state) :
    ∀ xs ∈ listsFrom r c pauses, xs = r.ids c.state := by
  induction pauses generalizing c with
  | nil => exact fun xs hxs => List.mem_singleton.mp hxs
  | cons sched pauses ih =>
    have hmid := obeying_steps hc sched
    rw [List.flatten_cons, runFrom_append] at hsame
    -- The list after the first pause lies between the two equal ones.
    have hfirst := ids_sublist r (bookings_run hc sched)
    have hrest := ids_sublist r (bookings_run hmid pauses.flatten)
    rw [hsame] at hrest
    have heq := hfirst.antisymm hrest
    intro xs hxs
    rcases List.mem_cons.mp hxs with rfl | hxs
    · rfl
    · rw [heq] at hsame ⊢
      exact ih hmid hsame xs hxs

/-- A customer, or a provider who does not search, reads the list page by page until a page is not
full, while any other requests go on in any interleaving, and no two jobs of the list have the same
number. The answers are pages that may be shown; and whatever pages are shown, every job of the list
that was there at the first page is on one of them. If no job of the list was booked meanwhile, then
the pages make up the list, with each job once. -/
theorem pages_show_all_jobs (s : Db) (calls : List JobCall) (r : JobListRequest)
    (hr : r.pinned = true) (size : ℕ) (pauses : List (List ℕ))
    (hnumbered : r.Numbered (runFrom JobPool.step (.ofCalls s calls) pauses.flatten).state) :
    MayShow r size 0 (.ofCalls s calls) pauses
        ((pagesFrom r size 0 (.ofCalls s calls) pauses).map shownIds) ∧
      ∀ pages, MayShow r size 0 (.ofCalls s calls) pauses pages → EndsShort size pages →
        (∀ j ∈ s.jobs.docs, r.lists j.terms = true → ∃ page ∈ pages, j.id ∈ page) ∧
        (r.ids (runFrom JobPool.step (.ofCalls s calls) pauses.flatten).state = r.ids s →
          pages.flatten = r.ids s ∧ (r.ids s).Nodup) := by
  refine ⟨mayShow_pagesFrom hr size 0 _ pauses, fun pages hpages hend => ?_⟩
  have hc : (JobPool.ofCalls s calls).Obeying TermsRule :=
    obeying_ofCalls (fun _ _ _ => trivial) termsRule s calls
  have hshown := hpages.eq_windows hc hnumbered
  obtain ⟨later, hlater⟩ := listsFrom_eq_cons r (.ofCalls s calls) pauses
  rw [hlater] at hshown
  rw [hshown] at hend
  constructor
  · intro j hj hlists
    have hmem : j.id ∈ r.ids s :=
      List.mem_map_of_mem ((List.mem_insertionSort _).mpr (List.mem_filter.mpr ⟨hj, hlists⟩))
    have hgrow := listsFrom_growing (r := r) hc pauses
    rw [hlater] at hgrow
    have hbehind : j.id ∈ (r.ids s).drop (0*size) := by rwa [Nat.zero_mul, List.drop_zero]
    rw [hshown]
    exact mem_windows hgrow hbehind hend
  · intro hsame
    have hconstant := listsFrom_constant hc pauses hsame
    rw [hlater] at hconstant
    have hflat := flatten_windows (fun xs hxs => hconstant xs (List.mem_cons_of_mem _ hxs)) hend
    rw [Nat.zero_mul, List.drop_zero, ← hshown] at hflat
    refine ⟨hflat, ?_⟩
    have hperm := (List.perm_insertionSort
      (fun a b : Job => (b.jobId : ℤ) ≤ a.jobId) (s.jobs.find fun j => r.lists j.terms)).map Job.id
    exact hperm.nodup_iff.mpr (s.jobs.nodup.sublist (List.filter_sublist.map _))

def customerList : JobListRequest where
  handler := .jobListByUserID
  caller := customer
  regex := fun _ _ => none

def bookingMeanwhile : JobPool :=
  .ofCalls (runFrom serve sampleDb (twoBookings.take 1)) ((twoBookings.drop 1).map .change)

theorem pages_show_shifted_job :
    (pagesFrom customerList 1 0 bookingMeanwhile [List.replicate 12 0, []]).map shownIds =
        [[idOf "job-------01"], [idOf "job-------01"], []] ∧
      ∃ page ∈ (pagesFrom customerList 1 0 bookingMeanwhile [List.replicate 12 0, []]).map shownIds,
        idOf "job-------01" ∈ page := by
  have hpages :
      (pagesFrom customerList 1 0 bookingMeanwhile [List.replicate 12 0, []]).map shownIds =
        [[idOf "job-------01"], [idOf "job-------01"], []] := by decide +kernel
  have hend : EndsShort 1
      ((pagesFrom customerList 1 0 bookingMeanwhile [List.replicate 12 0, []]).map shownIds) := by
    rw [hpages]
    exact ⟨[], rfl, Nat.zero_lt_one⟩
  have hnumbered : customerList.Numbered
      (runFrom JobPool.step bookingMeanwhile [List.replicate 12 0, []].flatten).state := by
    unfold JobListRequest.Numbered
    decide +kernel
  obtain ⟨j, hj, hid, hlists⟩ : ∃ j ∈ bookingMeanwhile.state.jobs.docs,
      j.id = idOf "job-------01" ∧ customerList.lists j.terms = true := by
    have hall : (bookingMeanwhile.state.jobs.docs.any fun j =>
        j.id = idOf "job-------01" && customerList.lists j.terms) = true := by decide +kernel
    simpa using hall
  obtain ⟨hmay, hall⟩ :=
    pages_show_all_jobs _ _ customerList rfl 1 [List.replicate 12 0, []] hnumbered
  have hshown := (hall _ hmay hend).1 j hj hlists
  rw [hid] at hshown
  exact ⟨hpages, hshown⟩

end Walks

end DoQwik
