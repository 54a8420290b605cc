import Mathlib

/-! A token that is kept twice, on the record of an account and in a cache, by programs that
write the one after the other. -/
namespace TokenStore

variable {κ τ : Type*}

/-- The two stores. An account that does not exist has no record. -/
@[ext] structure Stores (κ τ : Type*) where
  record : κ → Option (Option τ)
  cache : κ → Option τ

namespace Stores

/-- The account, if it exists, has this on record. -/
def Holds (s : Stores κ τ) (k : κ) (tok : Option τ) : Prop :=
  ∀ old, s.record k = some old → old = tok

/-- Every account has on record what the cache has. -/
def Agree (s : Stores κ τ) : Prop := ∀ k, s.Holds k (s.cache k)

variable [DecidableEq κ]

/-- Write to the cache only. -/
def cacheAs (s : Stores κ τ) (k : κ) (tok : Option τ) : Stores κ τ :=
  { s with cache := Function.update s.cache k tok }

/-- Write to the record of an account, if it exists. -/
def recordAs (s : Stores κ τ) (k : κ) (tok : Option τ) : Stores κ τ :=
  { s with record := Function.update s.record k ((s.record k).map fun _ => tok) }

def create (s : Stores κ τ) (k : κ) (tok : Option τ) : Stores κ τ :=
  { s with record := Function.update s.record k (some tok) }

def put (s : Stores κ τ) (k : κ) (tok : Option τ) : Stores κ τ := (s.cacheAs k tok).recordAs k tok

variable {s : Stores κ τ} {k : κ} {a b : Option τ}

@[simp] theorem record_cacheAs : (s.cacheAs k a).record = s.record := rfl

@[simp] theorem cache_recordAs : (s.recordAs k a).cache = s.cache := rfl

@[simp] theorem cache_create : (s.create k a).cache = s.cache := rfl

theorem cache_cacheAs_self : (s.cacheAs k a).cache k = a := Function.update_self _ _ _

theorem cache_cacheAs_of_ne {j : κ} (h : j ≠ k) : (s.cacheAs k a).cache j = s.cache j :=
  Function.update_of_ne h _ _

theorem record_recordAs_self : (s.recordAs k a).record k = (s.record k).map fun _ => a :=
  Function.update_self _ _ _

theorem record_recordAs_of_ne {j : κ} (h : j ≠ k) : (s.recordAs k a).record j = s.record j :=
  Function.update_of_ne h _ _

theorem record_create_of_ne {j : κ} (h : j ≠ k) : (s.create k a).record j = s.record j :=
  Function.update_of_ne h _ _

/-- The last write to a cache entry counts. -/
theorem cacheAs_cacheAs : (s.cacheAs k a).cacheAs k b = s.cacheAs k b := by
  unfold cacheAs
  rw [Function.update_idem]

theorem put_cacheAs : (s.cacheAs k a).put k b = s.put k b := by
  unfold put
  rw [cacheAs_cacheAs]

theorem holds_recordAs_self : (s.recordAs k a).Holds k a := by
  intro old hold
  rw [record_recordAs_self] at hold
  obtain ⟨_, -, rfl⟩ := Option.map_eq_some_iff.mp hold
  rfl

/-- A write to both stores makes them agree on the account, whatever the others hold. -/
theorem agree_put (h : ∀ j, j ≠ k → s.Holds j (s.cache j)) : (s.put k a).Agree := by
  intro j
  unfold put
  rw [cache_recordAs]
  by_cases hj : j = k
  · subst hj
    rw [cache_cacheAs_self]
    exact holds_recordAs_self
  · unfold Holds
    rw [record_recordAs_of_ne hj, cache_cacheAs_of_ne hj, record_cacheAs]
    exact h j hj

theorem Agree.put (h : s.Agree) (k : κ) (tok : Option τ) : (s.put k tok).Agree :=
  agree_put fun j _ => h j

/-- A new account with a token in both stores. -/
theorem Agree.create_put (h : s.Agree) (k : κ) (tok new : Option τ) :
    ((s.create k new).put k tok).Agree := by
  refine agree_put fun j hj => ?_
  unfold Holds
  rw [record_create_of_ne hj, cache_create]
  exact h j

/-- A write to the cache alone leaves the stores in agreement exactly when the account has the
token on record already. -/
theorem Agree.cacheAs_iff (h : s.Agree) : (s.cacheAs k a).Agree ↔ s.Holds k a := by
  constructor
  · intro h'
    have hk := h' k
    rw [cache_cacheAs_self] at hk
    exact hk
  · intro hk j
    by_cases hj : j = k
    · subst hj
      rw [cache_cacheAs_self]
      exact hk
    · rw [cache_cacheAs_of_ne hj]
      exact h j

/-- So does a write to the record alone. -/
theorem Agree.recordAs_iff (h : s.Agree) : (s.recordAs k a).Agree ↔ s.Holds k a := by
  constructor
  · intro h' old hold
    have hnew : (s.recordAs k a).record k = some a := by
      rw [record_recordAs_self, hold]
      rfl
    rw [h k old hold]
    exact (h' k a hnew).symm
  · intro hk j
    rw [cache_recordAs]
    by_cases hj : j = k
    · subst hj
      intro new hnew
      have hold := hnew
      rw [record_recordAs_self] at hold
      obtain ⟨old, hold, -⟩ := Option.map_eq_some_iff.mp hold
      rw [holds_recordAs_self new hnew, ← hk old hold, h j old hold]
    · unfold Holds
      rw [record_recordAs_of_ne hj]
      exact h j

/-- A write to the cache entry of one account and to the record of another one leaves the stores
in agreement exactly when both had on record what is written. -/
theorem Agree.cross_iff (h : s.Agree) {j : κ} (hjk : j ≠ k) :
    ((s.cacheAs k a).recordAs j b).Agree ↔ s.Holds k a ∧ s.Holds j b := by
  constructor
  · intro h'
    have hk : s.Holds k a := by
      have hk' := h' k
      unfold Holds at hk'
      rw [record_recordAs_of_ne (Ne.symm hjk), cache_recordAs, cache_cacheAs_self] at hk'
      exact hk'
    exact ⟨hk, (h.cacheAs_iff.mpr hk).recordAs_iff.mp h'⟩
  · rintro ⟨hk, hj⟩
    exact (h.cacheAs_iff.mpr hk).recordAs_iff.mpr hj

end Stores

section Logins

/-- How far a login has come that writes its token first to the cache, then to the record, and
answers with what it then reads there. -/
inductive LoginStage (κ τ : Type*) where
  | idle
  | found (k : κ) (t : τ)
  | cleared (k : κ) (t : τ)
  | cached (k : κ) (t : τ)
  | recorded (k : κ)
  | answered (k : κ) (tok : Option τ)

namespace LoginStage

/-- The login has the account and its token in hand. -/
def Carries (k : κ) (t : τ) : LoginStage κ τ → Prop
  | found k' t' => k' = k ∧ t' = t
  | cleared k' t' => k' = k ∧ t' = t
  | cached k' t' => k' = k ∧ t' = t
  | _ => False

/-- The login has written to the cache, and not yet to the record. -/
def Pending (k : κ) : LoginStage κ τ → Prop
  | cleared k' _ => k' = k
  | cached k' _ => k' = k
  | _ => False

/-- The login has written to both. -/
def Through (k : κ) : LoginStage κ τ → Prop
  | recorded k' => k' = k
  | answered k' _ => k' = k
  | _ => False

end LoginStage

/-- Both stores have the same token of the account. -/
def Stores.Fixed (Minted : κ → τ → Prop) (s : Stores κ τ) (k : κ) : Prop :=
  ∃ t, Minted k t ∧ s.record k = some (some t) ∧ s.cache k = some t

/-- What holds between the steps of logins side by side: an account that a login is through with
has the same token in both stores, or another login is about to write its own. -/
structure Settling (Minted : κ → τ → Prop) (s : Stores κ τ) (gs : ℕ → LoginStage κ τ) : Prop where
  carries : ∀ i k t, (gs i).Carries k t → Minted k t ∧ (s.record k).isSome = true
  settles : ∀ i k, (gs i).Through k → s.Fixed Minted k ∨ ∃ j, (gs j).Pending k

variable {Minted : κ → τ → Prop} {s t : Stores κ τ} {gs : ℕ → LoginStage κ τ}

/-- When nothing is pending any more, both stores have the same token. -/
theorem Settling.fixed (h : Settling Minted s gs) {i : ℕ} {k : κ} (hi : (gs i).Through k)
    (hdone : ∀ j, ¬ (gs j).Pending k) : s.Fixed Minted k := by
  rcases h.settles i k hi with hfixed | ⟨j, hj⟩
  · exact hfixed
  · exact absurd hj (hdone j)

/-- A step of login `i`: it makes the account settled or pending, or it does not touch it. -/
theorem Settling.advance (h : Settling Minted s gs) {i : ℕ} {g : LoginStage κ τ}
    (hself : ∀ k t', g.Carries k t' → Minted k t' ∧ (t.record k).isSome = true)
    (hkeep : ∀ k, (s.record k).isSome = true → (t.record k).isSome = true)
    (hstep : ∀ k, g.Pending k ∨ t.Fixed Minted k ∨
      (¬ (gs i).Pending k ∧ (g.Through k → (gs i).Through k) ∧
        (s.Fixed Minted k → t.Fixed Minted k))) :
    Settling Minted t (Function.update gs i g) := by
  constructor
  · intro j k t' hj
    by_cases hji : j = i
    · rw [hji, Function.update_self] at hj
      exact hself k t' hj
    · rw [Function.update_of_ne hji] at hj
      exact ⟨(h.carries j k t' hj).1, hkeep k (h.carries j k t' hj).2⟩
  · intro j k hj
    rcases hstep k with hpending | hfixed | ⟨hnot, hthrough, hfixed⟩
    · refine Or.inr ⟨i, ?_⟩
      rw [Function.update_self]
      exact hpending
    · exact Or.inl hfixed
    · -- The account was left alone: whatever made it settled or pending before still does.
      have hbefore : ∃ l, (gs l).Through k := by
        by_cases hji : j = i
        · rw [hji, Function.update_self] at hj
          exact ⟨i, hthrough hj⟩
        · rw [Function.update_of_ne hji] at hj
          exact ⟨j, hj⟩
      obtain ⟨l, hl⟩ := hbefore
      rcases h.settles l k hl with hf | ⟨m, hm⟩
      · exact Or.inl (hfixed hf)
      · refine Or.inr ⟨m, ?_⟩
        have hmi : m ≠ i := by
          rintro rfl
          exact hnot hm
        rw [Function.update_of_ne hmi]
        exact hm

variable [DecidableEq κ]

/-- The step from one stage to the next, with the stores before and after it. -/
inductive LoginStep (Minted : κ → τ → Prop) :
    LoginStage κ τ → Stores κ τ → Stores κ τ → LoginStage κ τ → Prop where
  | wait {g : LoginStage κ τ} {s : Stores κ τ} (hg : ∀ k tok, g ≠ .answered k tok) :
      LoginStep Minted g s s g
  | find {k : κ} {t : τ} {s : Stores κ τ} (hm : Minted k t) (hk : (s.record k).isSome = true) :
      LoginStep Minted .idle s s (.found k t)
  | clear {k : κ} {t : τ} {s : Stores κ τ} :
      LoginStep Minted (.found k t) s (s.cacheAs k none) (.cleared k t)
  | cache {k : κ} {t : τ} {s : Stores κ τ} :
      LoginStep Minted (.cleared k t) s (s.cacheAs k (some t)) (.cached k t)
  | record {k : κ} {t : τ} {s : Stores κ τ} :
      LoginStep Minted (.cached k t) s (s.recordAs k (some t)) (.recorded k)
  | answer {k : κ} {tok : Option τ} {s : Stores κ τ} (htok : s.record k = some tok) :
      LoginStep Minted (.recorded k) s s (.answered k tok)

/-- A write to the cache entry of one account leaves the others settled. -/
theorem Stores.Fixed.cacheAs_of_ne {j k : κ} {tok : Option τ} (h : s.Fixed Minted j) (hjk : j ≠ k) :
    (s.cacheAs k tok).Fixed Minted j := by
  obtain ⟨t', hm, hrecord, hcache⟩ := h
  exact ⟨t', hm, hrecord, (cache_cacheAs_of_ne hjk).trans hcache⟩

theorem Stores.Fixed.recordAs_of_ne {j k : κ} {tok : Option τ} (h : s.Fixed Minted j)
    (hjk : j ≠ k) : (s.recordAs k tok).Fixed Minted j := by
  obtain ⟨t', hm, hrecord, hcache⟩ := h
  exact ⟨t', hm, (record_recordAs_of_ne hjk).trans hrecord, hcache⟩

/-- A login answers with what it finds on record. -/
theorem LoginStep.record_of_answered {g : LoginStage κ τ} {k : κ} {tok : Option τ}
    (h : LoginStep Minted g s t (.answered k tok)) : t.record k = some tok := by
  cases h with
  | wait hg => exact absurd rfl (hg k tok)
  | answer htok => exact htok

/-- A step keeps the invariant, provided that a login which writes its token to the record still
finds it in the cache. -/
theorem Settling.step (h : Settling Minted s gs) {i : ℕ} {g : LoginStage κ τ}
    (hstep : LoginStep Minted (gs i) s t g)
    (htimely : ∀ k t', gs i = .cached k t' → s.cache k = some t') :
    Settling Minted t (Function.update gs i g) := by
  -- The stage before the step is generalised so that the step can be split by its constructors.
  have hcarries := h.carries i
  generalize hi : gs i = old at hstep hcarries htimely
  cases hstep with
  | wait hg =>
    rw [← hi, Function.update_eq_self]
    exact h
  | find hm hk =>
    apply h.advance
    · rintro k t' ⟨rfl, rfl⟩
      exact ⟨hm, hk⟩
    · exact fun _ hsome => hsome
    · intro k
      rw [hi]
      exact Or.inr (Or.inr ⟨id, id, id⟩)
  | @clear k t' =>
    -- From here on this login is itself the pending one of its account.
    apply h.advance
    · rintro k' t'' ⟨rfl, rfl⟩
      exact hcarries _ _ ⟨rfl, rfl⟩
    · exact fun _ hsome => hsome
    · intro k'
      by_cases hk : k = k'
      · exact Or.inl hk
      · rw [hi]
        exact Or.inr (Or.inr ⟨id, id, fun hf => hf.cacheAs_of_ne (Ne.symm hk)⟩)
  | @cache k t' =>
    apply h.advance
    · rintro k' t'' ⟨rfl, rfl⟩
      exact hcarries _ _ ⟨rfl, rfl⟩
    · exact fun _ hsome => hsome
    · intro k'
      by_cases hk : k = k'
      · exact Or.inl hk
      · rw [hi]
        exact Or.inr (Or.inr ⟨hk, id, fun hf => hf.cacheAs_of_ne (Ne.symm hk)⟩)
  | @record k t' =>
    -- The only step that can part the stores: the cache must still have the same token.
    obtain ⟨hm, hsome⟩ := hcarries k t' ⟨rfl, rfl⟩
    obtain ⟨old, hold⟩ := Option.isSome_iff_exists.mp hsome
    have hnew : (s.recordAs k (some t')).record k = some (some t') := by
      rw [Stores.record_recordAs_self, hold]
      rfl
    apply h.advance
    · exact fun _ _ => False.elim
    · intro k' hsome'
      by_cases hk : k' = k
      · rw [hk, hnew]
        rfl
      · rw [Stores.record_recordAs_of_ne hk]
        exact hsome'
    · intro k'
      by_cases hk : k = k'
      · subst hk
        exact Or.inr (Or.inl ⟨t', hm, hnew, htimely k t' rfl⟩)
      · rw [hi]
        exact Or.inr (Or.inr ⟨hk, fun hg => absurd hg hk, fun hf => hf.recordAs_of_ne (Ne.symm hk)⟩)
  | answer htok =>
    apply h.advance
    · exact fun _ _ => False.elim
    · exact fun _ hsome => hsome
    · intro k'
      rw [hi]
      exact Or.inr (Or.inr ⟨id, id, id⟩)

end Logins

end TokenStore
