import Mathlib.Data.List.Infix
import Mathlib.Tactic

/-! Patterns in a text: the text taken apart into letters and marks, and the first occurrence of one
pattern. The occurrences in a part of a text are counted with what follows the part, because a
pattern may begin in one part and end in the next. -/
namespace TextPatterns

/-- Two patterns of which no part of one, other than the whole, begins like the other. -/
structure Apart {α : Type*} (pat pat' : List α) : Prop where
  left : ∀ c ∈ pat.head?, c ∉ pat'.tail
  right : ∀ c ∈ pat'.head?, c ∉ pat.tail
  notPrefix : ¬ pat <+: pat'
  notPrefix' : ¬ pat' <+: pat

/-- Marks that can be told apart wherever they begin. -/
structure Separable {α κ : Type*} (keys : List κ) (mark : κ → List α) : Prop where
  nonempty : ∀ k ∈ keys, mark k ≠ []
  alone : ∀ k ∈ keys, ∀ c ∈ (mark k).head?, c ∉ (mark k).tail
  apart : ∀ j ∈ keys, ∀ k ∈ keys, j ≠ k → Apart (mark j) (mark k)

section Parts

variable {α : Type*} {pat pat' : List α}

/-- A pattern does not run into another one whose first letter it has only at its own beginning. -/
theorem prefix_of_prefix_append (hne : pat ≠ []) (h : ∀ c ∈ pat.head?, c ∉ pat'.tail)
    {t y : List α} (ht : t ≠ []) (hpre : pat' <+: t ++ (pat ++ y)) : pat' <+: t := by
  rcases List.prefix_or_prefix_of_prefix hpre (List.prefix_append t (pat ++ y)) with hin | ⟨q, hq⟩
  · exact hin
  · obtain ⟨c, p, hpat⟩ := List.exists_cons_of_ne_nil hne
    obtain ⟨b, t', rfl⟩ := List.exists_cons_of_ne_nil ht
    cases q with
    | nil =>
      rw [← hq, List.append_nil]
    | cons d q =>
      -- The letter behind `t` is the first one of `pat`, inside of `pat'`.
      rw [← hq, List.prefix_append_right_inj, hpat, List.cons_append, List.cons_prefix_cons] at hpre
      refine absurd ?_ (h c (by rw [hpat]; rfl))
      rw [← hq, ← hpre.1]
      simp

end Parts

section Occurrences

variable {α : Type*} [DecidableEq α]

/-- The number of places in `x` at which the pattern begins, when `r` follows. -/
def occurrences (pat : List α) : List α → List α → ℕ
  | [], _ => 0
  | c :: x, r => (if pat <+: (c :: x) ++ r then 1 else 0)+occurrences pat x r

variable {pat pat' x y t r : List α}

theorem occurrences_append (pat x y r : List α) :
    occurrences pat (x ++ y) r = occurrences pat x (y ++ r)+occurrences pat y r := by
  induction x with
  | nil => exact (Nat.zero_add _).symm
  | cons c x ih =>
    rw [List.cons_append, occurrences, occurrences, ih, ← List.cons_append, List.append_assoc,
      add_assoc]

theorem starts_le (pat x r : List α) :
    (if pat <+: x ++ [] then 1 else 0) ≤ if pat <+: x ++ r then 1 else 0 := by
  rw [List.append_nil]
  by_cases h : pat <+: x
  · rw [if_pos h, if_pos (h.trans (List.prefix_append x r))]
  · rw [if_neg h]
    exact Nat.zero_le _

/-- What is found in a part alone is found there in the whole text. -/
theorem occurrences_le (pat x r : List α) : occurrences pat x [] ≤ occurrences pat x r := by
  induction x with
  | nil => exact le_rfl
  | cons c x ih => exact add_le_add (starts_le pat (c :: x) r) ih

theorem occurrences_eq_zero_of_not_prefix (h : ∀ t, t <:+ x → t ≠ [] → ¬ pat <+: t ++ r) :
    occurrences pat x r = 0 := by
  induction x with
  | nil => rfl
  | cons c x ih =>
    rw [occurrences, if_neg (h _ List.suffix_rfl (List.cons_ne_nil c x)),
      ih fun t ht => h t (ht.trans (List.suffix_cons c x))]

/-- A pattern does not begin in a text without its first letter. -/
theorem occurrences_eq_zero_of_head (hne : pat ≠ []) (h : ∀ c ∈ pat.head?, c ∉ x) (r : List α) :
    occurrences pat x r = 0 := by
  refine occurrences_eq_zero_of_not_prefix fun t ht ht' hpre => ?_
  obtain ⟨d, q, rfl⟩ := List.exists_cons_of_ne_nil hne
  obtain ⟨b, t', rfl⟩ := List.exists_cons_of_ne_nil ht'
  rw [List.cons_append, List.cons_prefix_cons] at hpre
  refine h d rfl ?_
  rw [hpre.1]
  exact ht.subset List.mem_cons_self

theorem occurrences_self (hne : pat ≠ []) (hself : ∀ c ∈ pat.head?, c ∉ pat.tail) (r : List α) :
    occurrences pat pat r = 1 := by
  obtain ⟨c, p, rfl⟩ := List.exists_cons_of_ne_nil hne
  have hrest : occurrences (c :: p) p r = 0 := occurrences_eq_zero_of_head hne hself r
  rw [occurrences, if_pos (List.prefix_append _ _), hrest]

theorem Apart.occurrences_eq_zero (h : Apart pat pat') (hne : pat' ≠ []) (r : List α) :
    occurrences pat' pat r = 0 := by
  cases pat with
  | nil => rfl
  | cons c p =>
    have hnot : ¬ pat' <+: (c :: p) ++ r := by
      intro hpre
      rcases List.prefix_or_prefix_of_prefix hpre (List.prefix_append (c :: p) r) with hpre | hpre
      · exact h.notPrefix' hpre
      · exact h.notPrefix hpre
    have hrest : occurrences pat' p r = 0 := occurrences_eq_zero_of_head hne h.right r
    rw [occurrences, if_neg hnot, hrest]

end Occurrences

inductive Token (α κ : Type*) where
  | letter (c : α)
  | mark (k : κ)
deriving DecidableEq

section Render

variable {α κ : Type*}

/-- The text with `content k` in the place of the mark `k`. -/
def render (content : κ → List α) : List (Token α κ) → List α
  | [] => []
  | .letter c :: t => c :: render content t
  | .mark k :: t => content k ++ render content t

variable {content content' : κ → List α} {k : κ} {t p q : List (Token α κ)}

theorem render_append (content : κ → List α) (t u : List (Token α κ)) :
    render content (t ++ u) = render content t ++ render content u := by
  induction t with
  | nil => rfl
  | cons a t ih =>
    cases a with
    | letter c => rw [List.cons_append, render, render, ih, List.cons_append]
    | mark k => rw [List.cons_append, render, render, ih, List.append_assoc]

theorem render_congr (h : ∀ k, .mark k ∈ t → content k = content' k) :
    render content t = render content' t := by
  induction t with
  | nil => rfl
  | cons a t ih =>
    have hrest := ih fun k hk => h k (List.mem_cons_of_mem _ hk)
    cases a with
    | letter c => rw [render, render, hrest]
    | mark k => rw [render, render, hrest, h k List.mem_cons_self]

variable [DecidableEq κ]

def Token.isMark (k : κ) : Token α κ → Bool
  | .letter _ => false
  | .mark j => j = k

/-- What comes before the mark `k`, and what comes after it. -/
def renderBefore (content : κ → List α) (k : κ) (t : List (Token α κ)) : List α :=
  render content (t.takeWhile fun a => !a.isMark k)

def renderAfter (content : κ → List α) (k : κ) (t : List (Token α κ)) : List α :=
  render content (t.dropWhile fun a => !a.isMark k).tail

theorem not_isMark (hp : .mark k ∉ p) : ∀ a ∈ p, (!a.isMark k) = true := by
  intro a ha
  cases a with
  | letter c => rfl
  | mark j =>
    have hj : j ≠ k := fun hj => hp (hj ▸ ha)
    simpa [Token.isMark] using hj

theorem renderBefore_place (content : κ → List α) (hp : .mark k ∉ p) :
    renderBefore content k (p ++ .mark k :: q) = render content p := by
  rw [renderBefore, List.takeWhile_append_of_pos (not_isMark hp)]
  simp [Token.isMark]

theorem renderAfter_place (content : κ → List α) (hp : .mark k ∉ p) :
    renderAfter content k (p ++ .mark k :: q) = render content q := by
  rw [renderAfter, List.dropWhile_append_of_pos (not_isMark hp)]
  simp [Token.isMark]

theorem render_place (content : κ → List α) (hp : .mark k ∉ p) :
    render content (p ++ .mark k :: q) = renderBefore content k (p ++ .mark k :: q) ++
      (content k ++ renderAfter content k (p ++ .mark k :: q)) := by
  rw [renderBefore_place content hp, renderAfter_place content hp, render_append, render]

end Render

section Tokens

variable {α κ : Type*} [DecidableEq α]

/-- The text from left to right as letters and marks, behind its next `n` letters. -/
def tokensFrom (keys : List κ) (mark : κ → List α) : ℕ → List α → List (Token α κ)
  | _, [] => []
  | n+1, _ :: s => tokensFrom keys mark n s
  | 0, c :: s =>
    match keys.find? fun k => mark k <+: c :: s with
    | some k => .mark k :: tokensFrom keys mark ((mark k).length-1) s
    | none => .letter c :: tokensFrom keys mark 0 s

def tokens (keys : List κ) (mark : κ → List α) (s : List α) : List (Token α κ) :=
  tokensFrom keys mark 0 s

variable {keys : List κ} {mark : κ → List α} {s : List α}

theorem tokensFrom_eq (keys : List κ) (mark : κ → List α) (n : ℕ) (s : List α) :
    tokensFrom keys mark n s = tokens keys mark (s.drop n) := by
  induction s generalizing n with
  | nil =>
    rw [List.drop_nil]
    cases n with
    | zero => rfl
    | succ n => rfl
  | cons c s ih =>
    cases n with
    | zero => rfl
    | succ n => exact ih n

theorem tokens_cons_of_none {c : α} (h : (keys.find? fun k => mark k <+: c :: s) = none) :
    tokens keys mark (c :: s) = .letter c :: tokens keys mark s := by
  rw [tokens, tokensFrom, h]
  rfl

theorem tokens_append_of_find? {k : κ} (hne : mark k ≠ [])
    (h : (keys.find? fun j => mark j <+: mark k ++ s) = some k) :
    tokens keys mark (mark k ++ s) = .mark k :: tokens keys mark s := by
  obtain ⟨c, p, hp⟩ := List.exists_cons_of_ne_nil hne
  have hcons : mark k ++ s = c :: (p ++ s) := by rw [hp, List.cons_append]
  rw [hcons] at h ⊢
  rw [tokens, tokensFrom, h]
  dsimp only
  rw [tokensFrom_eq, hp, List.length_cons, Nat.add_sub_cancel, List.drop_left]

/-- What holds of the empty text, behind a mark and behind a letter that begins none, holds of every
text. -/
theorem tokens_induction {P : List α → Prop} (hne : ∀ k ∈ keys, mark k ≠ []) (nil : P [])
    (onMark : ∀ k ∈ keys, ∀ s, tokens keys mark (mark k ++ s) = .mark k :: tokens keys mark s →
      P s → P (mark k ++ s))
    (onLetter : ∀ c s, (∀ k ∈ keys, ¬ mark k <+: c :: s) →
      tokens keys mark (c :: s) = .letter c :: tokens keys mark s → P s → P (c :: s))
    (s : List α) : P s := by
  induction hn : s.length using Nat.strong_induction_on generalizing s with
  | _ n ih =>
    subst hn
    cases s with
    | nil => exact nil
    | cons c s =>
      cases hfind : keys.find? fun k => mark k <+: c :: s with
      | none =>
        have hnone : ∀ k ∈ keys, ¬ mark k <+: c :: s := by simpa using hfind
        exact onLetter c s hnone (tokens_cons_of_none hfind) (ih s.length (by simp) s rfl)
      | some k =>
        have hk := List.mem_of_find?_eq_some hfind
        obtain ⟨r, hr⟩ : mark k <+: c :: s := by simpa using List.find?_some hfind
        have hpos := List.length_pos_iff.mpr (hne k hk)
        rw [← hr] at hfind ih ⊢
        refine onMark k hk r (tokens_append_of_find? (hne k hk) hfind) (ih r.length ?_ r rfl)
        rw [List.length_append]
        omega

theorem render_tokens (h : Separable keys mark) (s : List α) :
    render mark (tokens keys mark s) = s := by
  induction s using tokens_induction h.nonempty with
  | nil => rfl
  | onMark k hk s htokens ih =>
    rw [htokens, render, ih]
  | onLetter c s hnone htokens ih =>
    rw [htokens, render, ih]

theorem count_tokens [DecidableEq κ] (h : Separable keys mark) {k : κ} (hk : k ∈ keys)
    (s : List α) : (tokens keys mark s).count (.mark k) = occurrences (mark k) s [] := by
  induction s using tokens_induction h.nonempty with
  | nil => rfl
  | onMark j hj s htokens ih =>
    rw [htokens, occurrences_append, ← ih, List.append_nil]
    by_cases hjk : j = k
    · rw [hjk, occurrences_self (h.nonempty k hk) (h.alone k hk), List.count_cons_self, add_comm]
    · have hzero := (h.apart j hj k hk hjk).occurrences_eq_zero (h.nonempty k hk) s
      rw [hzero, List.count_cons_of_ne (by simpa using hjk), Nat.zero_add]
  | onLetter c s hnone htokens ih =>
    rw [htokens, List.count_cons_of_ne (by simp), occurrences, List.append_nil,
      if_neg (hnone k hk), ih, Nat.zero_add]

/-- A mark that occurs once divides the text. -/
theorem exists_place [DecidableEq κ] (h : Separable keys mark) {k : κ} (hk : k ∈ keys)
    (honce : occurrences (mark k) s [] = 1) : ∃ p q,
      tokens keys mark s = p ++ .mark k :: q ∧ .mark k ∉ p ∧ .mark k ∉ q := by
  rw [← count_tokens h hk] at honce
  have hmem : .mark k ∈ tokens keys mark s := List.count_pos_iff.mp (by omega)
  obtain ⟨p, q, hpq, hp⟩ := List.eq_append_cons_of_mem hmem
  refine ⟨p, q, hpq, hp, ?_⟩
  rw [hpq, List.count_append, List.count_cons_self] at honce
  exact List.count_eq_zero.mp (by omega)

end Tokens

section First

variable {α : Type*} [DecidableEq α]

/-- What stands before and after the first occurrence of a nonempty pattern. -/
def splitFirst (pat : List α) : List α → Option (List α × List α)
  | [] => none
  | c :: s =>
    if pat <+: c :: s then some ([], (c :: s).drop pat.length)
    else (splitFirst pat s).map fun xy => (c :: xy.1, xy.2)

/-- Replace the first occurrence by something that may depend on where it is. -/
def replaceFirst (pat : List α) (new : List α → List α → List α) (s : List α) : List α :=
  match splitFirst pat s with
  | none => s
  | some (x, y) => x ++ (new x y ++ y)

variable {pat s x y : List α}

theorem splitFirst_eq_some (h : splitFirst pat s = some (x, y)) : s = x ++ (pat ++ y) := by
  induction s generalizing x y with
  | nil => cases h
  | cons c s ih =>
    rw [splitFirst] at h
    by_cases hpre : pat <+: c :: s
    · rw [if_pos hpre, Option.some.injEq, Prod.mk.injEq] at h
      obtain ⟨rest, hrest⟩ := hpre
      rw [← h.1, ← h.2, ← hrest, List.drop_left, List.nil_append]
    · rw [if_neg hpre, Option.map_eq_some_iff] at h
      obtain ⟨⟨x', y'⟩, hxy, heq⟩ := h
      cases heq
      rw [ih hxy, List.cons_append]

/-- The first occurrence stays the first when the text goes on. -/
theorem splitFirst_append (h : splitFirst pat s = some (x, y)) (r : List α) :
    splitFirst pat (s ++ r) = some (x, y ++ r) := by
  induction s generalizing x y with
  | nil => cases h
  | cons c s ih =>
    rw [splitFirst] at h
    by_cases hpre : pat <+: c :: s
    · rw [if_pos hpre, Option.some.injEq, Prod.mk.injEq] at h
      rw [List.cons_append, splitFirst, ← List.cons_append,
        if_pos (hpre.trans (List.prefix_append _ _)), ← h.1, ← h.2,
        List.drop_append_of_le_length hpre.length_le]
    · rw [if_neg hpre, Option.map_eq_some_iff] at h
      obtain ⟨⟨x', y'⟩, hxy, heq⟩ := h
      cases heq
      have hlen : pat.length ≤ (c :: s).length := by
        rw [splitFirst_eq_some hxy]
        simp only [List.length_cons, List.length_append]
        omega
      -- An occurrence at the beginning would end before the first one does.
      have hnot : ¬ pat <+: (c :: s) ++ r := fun hpre' =>
        hpre (List.prefix_of_prefix_length_le hpre' (List.prefix_append _ _) hlen)
      rw [List.cons_append, splitFirst, ← List.cons_append, if_neg hnot, ih hxy]
      rfl

/-- A pattern with its first letter only at its beginning is found behind a text without it. -/
theorem splitFirst_append_self (hne : pat ≠ []) (hself : ∀ c ∈ pat.head?, c ∉ pat.tail)
    (h : splitFirst pat s = none) (r : List α) :
    splitFirst pat (s ++ (pat ++ r)) = some (s, r) := by
  induction s with
  | nil =>
    obtain ⟨c, p, rfl⟩ := List.exists_cons_of_ne_nil hne
    rw [List.nil_append, List.cons_append, splitFirst, ← List.cons_append,
      if_pos (List.prefix_append _ _), List.drop_left]
  | cons c s ih =>
    rw [splitFirst] at h
    by_cases hpre : pat <+: c :: s
    · rw [if_pos hpre] at h
      cases h
    · rw [if_neg hpre, Option.map_eq_none_iff] at h
      have hnot : ¬ pat <+: (c :: s) ++ (pat ++ r) := fun hpre' =>
        hpre (prefix_of_prefix_append hne hself (List.cons_ne_nil c s) hpre')
      rw [List.cons_append, splitFirst, ← List.cons_append, if_neg hnot, ih h]
      rfl

theorem splitFirst_eq_none_of_occurrences (hne : pat ≠ []) (h : occurrences pat s [] = 0) :
    splitFirst pat s = none := by
  cases hspot : splitFirst pat s with
  | none => rfl
  | some spot =>
    obtain ⟨c, p, hp⟩ := List.exists_cons_of_ne_nil hne
    rw [splitFirst_eq_some hspot, occurrences_append, List.append_nil, occurrences_append, hp,
      occurrences, if_pos (List.prefix_append _ _)] at h
    omega

theorem splitFirst_eq_none_of_once (hne : pat ≠ []) (hself : ∀ c ∈ pat.head?, c ∉ pat.tail)
    (h : occurrences pat (x ++ (pat ++ y)) [] = 1) : splitFirst pat x = none := by
  rw [occurrences_append, List.append_nil, occurrences_append, occurrences_self hne hself] at h
  have hle := occurrences_le pat x (pat ++ y)
  exact splitFirst_eq_none_of_occurrences hne (by omega)

/-- The pattern between `x` and `y` is the first one, or there is one in `x`. -/
theorem replaceFirst_of_none (hne : pat ≠ []) (hself : ∀ c ∈ pat.head?, c ∉ pat.tail)
    (h : splitFirst pat x = none) (new : List α → List α → List α) (y : List α) :
    replaceFirst pat new (x ++ (pat ++ y)) = x ++ (new x y ++ y) := by
  rw [replaceFirst, splitFirst_append_self hne hself h]

theorem replaceFirst_of_some {b a : List α} (h : splitFirst pat x = some (b, a))
    (new : List α → List α → List α) (y : List α) :
    replaceFirst pat new (x ++ (pat ++ y)) =
      b ++ (new b (a ++ (pat ++ y)) ++ (a ++ (pat ++ y))) := by
  rw [replaceFirst, splitFirst_append h]

end First

end TextPatterns
