import DoQwik.Queries

/-! What an operator object admits. Operators that compare cannot tell two strings apart that lie
between the same operands, so that finitely many probes decide what a list of them lets pass. What
a pattern matches is up to the engine. -/
namespace DocStore
open JsValues

section Probes

/-- The string after `a` in the order. -/
def following (a : String) : String := a.push '\x00'

/-- The operands, the string after each of them, and the least string. -/
def probes (as : List String) : List String := "" :: (as ++ as.map following)

theorem toList_following (a : String) : (following a).toList = a.toList ++ ['\x00'] :=
  String.toList_push _

theorem lt_append_nul (cs : List Char) : cs < cs ++ ['\x00'] := by
  induction cs with
  | nil => exact List.nil_lt_cons _ _
  | cons c cs ih => exact List.cons_lt_cons_iff.mpr (Or.inr ⟨rfl, ih⟩)

theorem not_lt_append_nul {cs ds : List Char} (h : cs < ds) : ¬ ds < cs ++ ['\x00'] := by
  induction cs generalizing ds with
  | nil =>
    cases ds with
    | nil => exact absurd h (List.lt_irrefl _)
    | cons d ds =>
      intro hlt
      rcases List.cons_lt_cons_iff.mp hlt with hd | ⟨-, hds⟩
      · exact absurd hd (by simp [Char.lt_def])
      · cases hds
  | cons c cs ih =>
    cases ds with
    | nil => cases h
    | cons d ds =>
      intro hlt
      rcases List.cons_lt_cons_iff.mp h with hc | ⟨rfl, hcs⟩ <;>
        rcases List.cons_lt_cons_iff.mp hlt with hd | ⟨heq, hds⟩
      · exact absurd hd (Char.lt_asymm hc)
      · exact absurd hc (heq ▸ Char.lt_irrefl _)
      · exact absurd hd (Char.lt_irrefl _)
      · exact ih hcs hds

theorem lt_following (a : String) : a < following a := by
  rw [String.lt_iff_toList_lt, toList_following]
  exact lt_append_nul _

theorem following_le {a b : String} (h : a < b) : following a ≤ b := by
  rw [String.lt_iff_toList_lt] at h
  rw [← not_lt, String.lt_iff_toList_lt, toList_following]
  exact not_lt_append_nul h

/-- The two strings lie between the same operands. -/
def Alike (as : List String) (x y : String) : Prop :=
  ∀ a ∈ as, (x = a ↔ y = a) ∧ (x < a ↔ y < a) ∧ (a < x ↔ a < y)

theorem exists_lower_probe (as : List String) (x : String) :
    ∃ y ∈ "" :: as.map following, y ≤ x ∧ ∀ a ∈ as, a < x → a < y := by
  induction as with
  | nil =>
    refine ⟨"", List.mem_singleton_self _, ?_, fun a ha => by cases ha⟩
    rw [← not_lt, String.lt_iff_toList_lt]
    exact List.not_lt_nil _
  | cons a as ih =>
    obtain ⟨y, hy, hle, hbelow⟩ := ih
    have hmem : y ∈ "" :: (a :: as).map following := by
      rw [List.map_cons, List.mem_cons, List.mem_cons]
      exact (List.mem_cons.mp hy).imp_right Or.inr
    by_cases hnew : a < x ∧ y < following a
    · -- The new operand is the greatest one below `x` so far.
      refine ⟨following a, by simp, following_le hnew.1, fun b hb hbx => ?_⟩
      rcases List.mem_cons.mp hb with rfl | hb
      · exact lt_following b
      · exact (hbelow b hb hbx).trans hnew.2
    · refine ⟨y, hmem, hle, fun b hb hbx => ?_⟩
      rcases List.mem_cons.mp hb with rfl | hb
      · exact (lt_following b).trans_le (not_lt.mp fun h => hnew ⟨hbx, h⟩)
      · exact hbelow b hb hbx

/-- Every string has a probe like it, which is the string itself if it is an operand. -/
theorem exists_probe (as : List String) (x : String) :
    ∃ y ∈ probes as, Alike as x y ∧ (y ∈ as → y = x) := by
  by_cases hx : x ∈ as
  · exact ⟨x, by simp [probes, hx], fun a _ => ⟨Iff.rfl, Iff.rfl, Iff.rfl⟩, fun _ => rfl⟩
  obtain ⟨y, hy, hle, hbelow⟩ := exists_lower_probe as x
  have hy' : y ∉ as := by
    intro hmem
    have hlt : y < x := lt_of_le_of_ne hle fun h => hx (h ▸ hmem)
    exact lt_irrefl y (hbelow y hmem hlt)
  refine ⟨y, ?_, fun a ha => ⟨?_, ?_, ?_⟩, fun h => absurd h hy'⟩
  · rw [probes, List.mem_cons, List.mem_append]
    exact (List.mem_cons.mp hy).imp_right Or.inr
  · exact iff_of_false (fun h => hx (h ▸ ha)) (fun h => hy' (h ▸ ha))
  · refine ⟨fun h => hle.trans_lt h, fun h => ?_⟩
    rcases lt_trichotomy x a with hlt | rfl | hlt
    · exact hlt
    · exact absurd ha hx
    · exact absurd (hbelow a ha hlt) (lt_asymm h)
  · exact ⟨hbelow a ha, fun h => h.trans_le hle⟩

end Probes

section Operators

variable {α : Type} [DecidableEq α]

def Operator.operands : Operator α → List α
  | .eq a | .ne a | .gt a | .gte a | .lt a | .lte a => a.toList
  | .isIn as | .notIn as | .all as => as.reduceOption
  | .present _ | .ofType _ | .pattern _ | .options => []

def Operator.hasPattern : Operator α → Bool
  | .pattern _ => true
  | _ => false

def Clause.operands : Clause α → List α
  | .operator o => o.operands
  | .not os => os.flatMap Operator.operands

def Clause.hasPattern : Clause α → Bool
  | .operator o => o.hasPattern
  | .not os => os.any Operator.hasPattern

section Comparison

variable (rx : RegexEngine) {as : List String} {x y : String}

theorem Alike.some_eq (h : Alike as x y) {a : Option String} (ha : ∀ b, a = some b → b ∈ as) :
    some x = a ↔ some y = a := by
  cases a with
  | none => simp
  | some b => simpa using (h b (ha b rfl)).1

theorem Alike.below_left (h : Alike as x y) {a : Option String} (ha : ∀ b, a = some b → b ∈ as) :
    below (stringType rx) (some x) a = below (stringType rx) (some y) a := by
  cases a with
  | none => rfl
  | some b =>
    have hlt := (h b (ha b rfl)).2.1
    rw [String.lt_iff_toList_lt, String.lt_iff_toList_lt] at hlt
    exact decide_eq_decide.mpr hlt

theorem Alike.below_right (h : Alike as x y) {a : Option String} (ha : ∀ b, a = some b → b ∈ as) :
    below (stringType rx) a (some x) = below (stringType rx) a (some y) := by
  cases a with
  | none => rfl
  | some b =>
    have hlt := (h b (ha b rfl)).2.2
    rw [String.lt_iff_toList_lt, String.lt_iff_toList_lt] at hlt
    exact decide_eq_decide.mpr hlt

theorem Alike.some_mem {bs : List (Option String)} (h : Alike bs.reduceOption x y) :
    some x ∈ bs ↔ some y ∈ bs := by
  constructor
  · intro hx
    have hyx := (h x (List.reduceOption_mem_iff.mpr hx)).1.mp rfl
    rwa [hyx]
  · intro hy
    have hxy := (h y (List.reduceOption_mem_iff.mpr hy)).1.mpr rfl
    rwa [hxy]

theorem Alike.all_eq {bs : List (Option String)} (h : Alike bs.reduceOption x y) :
    bs.all (some x = ·) = bs.all (some y = ·) := by
  rw [Bool.eq_iff_iff, List.all_eq_true, List.all_eq_true]
  refine forall₂_congr fun b hb => ?_
  rw [decide_eq_true_iff, decide_eq_true_iff]
  refine h.some_eq fun c hc => List.reduceOption_mem_iff.mpr (hc ▸ hb)

/-- A comparison does not tell two strings apart that are alike for its operands. -/
theorem Operator.holds_alike {o : Operator String} (hp : o.hasPattern = false)
    (h : Alike o.operands x y) :
    o.holds (stringType rx) (some x) = o.holds (stringType rx) (some y) := by
  have hoption : ∀ {a : Option String} (b : String), a = some b → b ∈ a.toList :=
    fun b hb => Option.mem_toList.mpr hb
  cases o with
  | eq a => exact decide_eq_decide.mpr (h.some_eq hoption)
  | ne a => exact decide_eq_decide.mpr (not_congr (h.some_eq hoption))
  | gt a => exact h.below_right rx hoption
  | gte a =>
    exact congrArg₂ or (h.below_right rx hoption) (decide_eq_decide.mpr (h.some_eq hoption))
  | lt a => exact h.below_left rx hoption
  | lte a =>
    exact congrArg₂ or (h.below_left rx hoption) (decide_eq_decide.mpr (h.some_eq hoption))
  | isIn bs => exact decide_eq_decide.mpr h.some_mem
  | notIn bs => exact decide_eq_decide.mpr (not_congr h.some_mem)
  | all bs => exact congrArg (and _) h.all_eq
  | present b | ofType codes | options => rfl
  | pattern p => cases hp

theorem Alike.of_subset {bs : List String} (h : Alike bs x y) (hsub : ∀ a ∈ as, a ∈ bs) :
    Alike as x y := fun a ha => h a (hsub a ha)

theorem Clause.holds_alike {c : Clause String} (hp : c.hasPattern = false)
    (h : Alike c.operands x y) :
    c.holds (stringType rx) (some x) = c.holds (stringType rx) (some y) := by
  cases c with
  | operator o => exact Operator.holds_alike rx hp h
  | not os =>
    refine congrArg Bool.not ?_
    rw [Bool.eq_iff_iff, List.all_eq_true, List.all_eq_true]
    refine forall₂_congr fun o ho => ?_
    have hpo : o.hasPattern = false := by
      have := List.any_eq_false.mp hp o ho
      simpa using this
    rw [Operator.holds_alike rx hpo (h.of_subset fun a ha => List.mem_flatMap.mpr ⟨o, ho, ha⟩)]

end Comparison

section Admission

/-- The ranges that the comparisons leave open, by their probes; `none` is a missing field. -/
def leftOpen (rx : RegexEngine) (cs : List (Clause String)) : List (Option String) :=
  (none :: (probes (cs.flatMap Clause.operands)).map some).filter fun x =>
    cs.all fun c => c.hasPattern || c.holds (stringType rx) x

/-- The same range: the field is missing in both, or holds two strings between the same
operands. -/
def SameRange (as : List String) : Option String → Option String → Prop
  | none, none => True
  | some x, some y => Alike as x y
  | _, _ => False

/-- The operators admit no string but `target`: without a pattern, no other probe is left open;
with patterns, they admit no other string of the ranges that are left open. -/
def admitsOnly (rx : RegexEngine) (target : String) (cs : List (Clause String)) : Prop :=
  if cs.any Clause.hasPattern then
    ∀ y ∈ leftOpen rx cs, ∀ x, SameRange (cs.flatMap Clause.operands) x y →
      (∀ c ∈ cs, c.hasPattern = true → c.holds (stringType rx) x = true) → x = some target
  else ∀ y ∈ leftOpen rx cs, y = some target

variable {rx : RegexEngine} {cs : List (Clause String)}

theorem mem_leftOpen_of_sameRange {x y : Option String}
    (hy : y ∈ none :: (probes (cs.flatMap Clause.operands)).map some)
    (hrange : SameRange (cs.flatMap Clause.operands) x y) :
    y ∈ leftOpen rx cs ↔
      ∀ c ∈ cs, c.hasPattern = false → c.holds (stringType rx) x = true := by
  have hsame : ∀ c ∈ cs, c.hasPattern = false →
      c.holds (stringType rx) x = c.holds (stringType rx) y := by
    intro c hc hp
    cases x with
    | none =>
      cases y with
      | none => rfl
      | some y => cases hrange
    | some x =>
      cases y with
      | none => cases hrange
      | some y =>
        exact Clause.holds_alike rx hp
          (Alike.of_subset hrange fun a ha => List.mem_flatMap.mpr ⟨c, hc, ha⟩)
  rw [leftOpen, List.mem_filter, and_iff_right hy, List.all_eq_true]
  refine forall₂_congr fun c hc => ?_
  cases hp : c.hasPattern with
  | true => simp
  | false => simp [hsame c hc hp]

theorem exists_sameRange (as : List String) (x : Option String) :
    ∃ y ∈ none :: (probes as).map some,
      SameRange as x y ∧ ∀ a ∈ as, y = some a → x = some a := by
  cases x with
  | none => exact ⟨none, List.mem_cons_self, trivial, fun a _ h => by cases h⟩
  | some x =>
    obtain ⟨y, hy, halike, hself⟩ := exists_probe as x
    refine ⟨some y, by simp [hy], halike, fun a ha h => ?_⟩
    cases h
    rw [hself ha]

/-- A target that is no string after another one is admitted alone exactly if the probes say so. -/
theorem admitsOnly_iff {target : String} (hempty : target ≠ "")
    (hlast : ∀ a, target ≠ following a) :
    admitsOnly rx target cs ↔
      ∀ x, cs.all (Clause.holds (stringType rx) x) = true → x = some target := by
  set as := cs.flatMap Clause.operands with has
  have hadmitted : ∀ {x y}, y ∈ none :: (probes as).map some → SameRange as x y →
      cs.all (Clause.holds (stringType rx) x) = true → y ∈ leftOpen rx cs := by
    intro x y hy hrange hx
    exact (mem_leftOpen_of_sameRange hy hrange).mpr fun c hc _ => List.all_eq_true.mp hx c hc
  unfold admitsOnly
  split <;> rename_i hpat
  · constructor
    · intro h x hx
      obtain ⟨y, hy, hrange, -⟩ := exists_sameRange as x
      exact h y (hadmitted hy hrange hx) x hrange fun c hc _ => List.all_eq_true.mp hx c hc
    · intro h y hy x hrange hx
      refine h x (List.all_eq_true.mpr fun c hc => ?_)
      cases hp : c.hasPattern with
      | true => exact hx c hc hp
      | false =>
        exact (mem_leftOpen_of_sameRange (List.mem_of_mem_filter hy) hrange).mp hy c hc hp
  · have hnone : ∀ c ∈ cs, c.hasPattern = false := by
      intro c hc
      by_contra hp
      exact hpat (List.any_eq_true.mpr ⟨c, hc, by simpa using hp⟩)
    constructor
    · intro h x hx
      obtain ⟨y, hy, hrange, hself⟩ := exists_sameRange as x
      obtain rfl := h y (hadmitted hy hrange hx)
      -- The target is left open, and no probe but an operand can be the target.
      have hmem : target ∈ as := by
        rcases List.mem_cons.mp hy with hy | hy
        · cases hy
        simp only [probes, List.mem_map, List.mem_cons, List.mem_append, Option.some.injEq] at hy
        obtain ⟨z, hz, rfl⟩ := hy
        rcases hz with hz | hz | ⟨a, -, ha⟩
        · exact absurd hz hempty
        · exact hz
        · exact absurd ha.symm (hlast a)
      exact hself target hmem rfl
    · intro h y hy
      refine h y (List.all_eq_true.mpr fun c hc => ?_)
      have hc' := List.all_eq_true.mp (List.mem_filter.mp hy).2 c hc
      rwa [hnone c hc, Bool.false_or] at hc'

-- A type leaves every string open, here by the least one; two bounds leave one string open.
example : leftOpen (fun _ _ => none) [.operator (.ofType [2])] = [some ""] ∧
    leftOpen (fun _ _ => none) [.operator (.gte (some "a")), .operator (.lte (some "a"))] =
      [some "a", some "a"] := by decide +kernel

end Admission

end Operators

end DocStore
