import DoQwik.Interference

/-! Records that are created under fresh keys. Every request has at most one key set aside, under
which it may create a record. What is known of a record that was once there then holds for ever:
should it be removed, no other record takes its key. -/
namespace Interleave

universe u

variable {σ γ κ δ : Type*} {Op : Type u} {Ret : Op → Type}

section Records

variable (exec : (op : Op) → σ → σ × Ret op) (look : σ → κ → Option δ)

/-- After an operation, a record is what it was up to `Same`, or the operation created it. -/
def Evolves (Same : δ → δ → Prop) (creates : Op → Option κ) : Prop :=
  ∀ op s k d', look (exec op s).1 k = some d' →
    (∃ d, look s k = some d ∧ Same d d') ∨ look s k = none ∧ creates op = some k

variable (creates : Op → Option κ) (pending : γ → Option κ) (Step : γ → Op → σ → γ → Prop)

/-- A request creates a record only under the key that is set aside for it, and only once. -/
structure SetsAside : Prop where
  kept : ∀ {g op s g' k}, Step g op s g' → pending g' = some k → pending g = some k
  used : ∀ {g op s g' k}, Step g op s g' → creates op = some k →
    pending g = some k ∧ pending g' = none

/-- The keys that are set aside are free, and no two requests have the same. -/
structure Fresh (s : σ) (gs : ℕ → γ) : Prop where
  free : ∀ i k, pending (gs i) = some k → look s k = none
  apart : ∀ i j k, pending (gs i) = some k → pending (gs j) = some k → i = j

/-- The record with the key, if it is there, satisfies `P`; and the key is not set aside. -/
structure Known (P : δ → Prop) (s : σ) (gs : ℕ → γ) (k : κ) : Prop where
  holds : ∀ d, look s k = some d → P d
  issued : ∀ i, pending (gs i) ≠ some k

end Records

variable {exec : (op : Op) → σ → σ × Ret op} {look : σ → κ → Option δ} {Same : δ → δ → Prop}
  {creates : Op → Option κ} {pending : γ → Option κ} {Step : γ → Op → σ → γ → Prop}
  {s : σ} {gs : ℕ → γ} {i : ℕ} {op : Op} {g : γ}

/-- No step sets a key aside. -/
theorem SetsAside.pending_update (h : SetsAside creates pending Step) (hstep : Step (gs i) op s g)
    {j : ℕ} {k : κ} (hj : pending (Function.update gs i g j) = some k) :
    pending (gs j) = some k := by
  by_cases hji : j = i
  · subst hji
    rw [Function.update_self] at hj
    exact h.kept hstep hj
  · rwa [Function.update_of_ne hji] at hj

/-- A record that was there is known, as its key cannot be set aside. -/
theorem Fresh.known (h : Fresh look pending s gs) {k : κ} {d : δ} (hd : look s k = some d)
    {P : δ → Prop} (hP : P d) : Known look pending P s gs k where
  holds d' hd' := by
    rw [hd, Option.some.injEq] at hd'
    rwa [← hd']
  issued j hj := by
    rw [h.free j k hj] at hd
    cases hd

theorem Fresh.step (hE : Evolves exec look Same creates) (hS : SetsAside creates pending Step)
    (h : Fresh look pending s gs) (hstep : Step (gs i) op s g) :
    Fresh look pending (exec op s).1 (Function.update gs i g) where
  free j k hj := by
    have hbefore := hS.pending_update hstep hj
    refine Option.eq_none_iff_forall_ne_some.mpr fun d' hd' => ?_
    rcases hE op s k d' hd' with ⟨d, hd, -⟩ | ⟨-, hcreates⟩
    · rw [h.free j k hbefore] at hd
      cases hd
    · -- The request that creates the record has no longer a key set aside.
      obtain ⟨hi, hdone⟩ := hS.used hstep hcreates
      obtain rfl := h.apart j i k hbefore hi
      rw [Function.update_self, hdone] at hj
      cases hj
  apart j j' k hj hj' :=
    h.apart j j' k (hS.pending_update hstep hj) (hS.pending_update hstep hj')

/-- What is known of a record outlives every step. -/
theorem Known.step (hE : Evolves exec look Same creates) (hS : SetsAside creates pending Step)
    {P : δ → Prop} (hP : ∀ d d', Same d d' → P d → P d') {k : κ}
    (h : Known look pending P s gs k) (hstep : Step (gs i) op s g) :
    Known look pending P (exec op s).1 (Function.update gs i g) k where
  holds d' hd' := by
    rcases hE op s k d' hd' with ⟨d, hd, hsame⟩ | ⟨-, hcreates⟩
    · exact hP d d' hsame (h.holds d hd)
    · exact absurd (hS.used hstep hcreates).1 (h.issued i)
  issued j hj := h.issued j (hS.pending_update hstep hj)

section Calls

variable {ι : Type*} (stage : ι → γ) (idle : γ)

def stagesOf (calls : List ι) (i : ℕ) : γ := (calls[i]?).elim idle stage

variable {stage idle}

theorem stagesOf_cases (stage : ι → γ) (idle : γ) (calls : List ι) (i : ℕ) :
    stagesOf stage idle calls i = idle ∨
      ∃ r ∈ calls, calls[i]? = some r ∧ stagesOf stage idle calls i = stage r := by
  unfold stagesOf
  cases hr : calls[i]? with
  | none => exact Or.inl rfl
  | some r => exact Or.inr ⟨r, List.mem_of_getElem? hr, rfl, rfl⟩

/-- Keys that are fresh when the requests come in. -/
theorem fresh_stagesOf (hidle : pending idle = none) {calls : List ι}
    (hnew : (calls.filterMap fun r => pending (stage r)).Nodup)
    (hfree : ∀ r ∈ calls, ∀ k, pending (stage r) = some k → look s k = none) :
    Fresh look pending s (stagesOf stage idle calls) := by
  have hcall : ∀ i k, pending (stagesOf stage idle calls i) = some k →
      ∃ r, calls[i]? = some r ∧ pending (stage r) = some k := by
    intro i k hk
    rcases stagesOf_cases stage idle calls i with h | ⟨r, -, hr, h⟩
    · rw [h, hidle] at hk
      cases hk
    · exact ⟨r, hr, by rwa [h] at hk⟩
  constructor
  · intro i k hk
    obtain ⟨r, hr, hrk⟩ := hcall i k hk
    exact hfree r (List.mem_of_getElem? hr) k hrk
  · intro i j k hi hj
    obtain ⟨r, hr, hrk⟩ := hcall i k hi
    obtain ⟨r', hr', hrk'⟩ := hcall j k hj
    have hpair := List.pairwise_filterMap.mp hnew
    obtain ⟨hi', rfl⟩ := List.getElem?_eq_some_iff.mp hr
    obtain ⟨hj', rfl⟩ := List.getElem?_eq_some_iff.mp hr'
    by_contra hne
    rcases Nat.lt_or_gt_of_ne hne with hlt | hlt
    · exact List.pairwise_iff_getElem.mp hpair i j hi' hj' hlt k hrk k hrk' rfl
    · exact List.pairwise_iff_getElem.mp hpair j i hj' hi' hlt k hrk' k hrk rfl

end Calls

end Interleave
