import DoQwik.JsValues

/-! Where the two conversions of strings to numbers part: `parseInt` reads a run of digits
and ignores the rest, `Number` reads the whole string. -/
namespace JsValues

section Digits

theorem isDigitOf_of_isSpace {c : Char} (h : isSpace c = true) (r : ℕ) :
    isDigitOf r c = false := by
  have hnone : digitVal c = none := by
    simp only [isSpace, Bool.or_eq_true, Bool.and_eq_true, decide_eq_true_eq, List.mem_cons,
      List.not_mem_nil, or_false] at h
    simp only [digitVal, Char.le_def, UInt32.le_iff_toNat_le]
    have hn : c.val.toNat = c.toNat := rfl
    rw [if_neg, if_neg, if_neg] <;> rw [hn] <;> simp <;> omega
  simp [isDigitOf, hnone]

theorem takeWhile_append_spaces (cs : List Char) {ws : List Char}
    (hws : ∀ c ∈ ws, isSpace c = true) (r : ℕ) :
    (cs ++ ws).takeWhile (isDigitOf r) = cs.takeWhile (isDigitOf r) := by
  induction cs with
  | nil =>
    cases ws with
    | nil => rfl
    | cons w ws =>
      have hw := isDigitOf_of_isSpace (hws w List.mem_cons_self) r
      simp [hw]
  | cons c cs ih =>
    rw [List.cons_append, List.takeWhile_cons, List.takeWhile_cons, ih]

end Digits

section Literals

theorem decimal_eq_zpow (m e : ℤ) : decimal m e = m*(10 : ℚ)^e := by
  unfold decimal
  split
  · rename_i he
    have hz : (10 : ℚ)^e = 10^e.toNat := by
      rw [← zpow_natCast, Int.toNat_of_nonneg he]
    rw [hz]
  · rename_i he
    have hz : (10 : ℚ)^e = (10^(-e).toNat)⁻¹ := by
      rw [← zpow_natCast, Int.toNat_of_nonneg (by omega), zpow_neg, inv_inv]
    rw [hz, div_eq_mul_inv]

theorem DecimalLit.value_nonneg (d : DecimalLit) : 0 ≤ d.value := by
  rw [DecimalLit.value, decimal_eq_zpow]
  positivity

/-- A literal that does not go beyond its integer digits: no midpoint of two neighbouring doubles
lies between the number they denote and its value. A literal without integer digits is no number
for `parseInt`. -/
def DecimalLit.plain (d : DecimalLit) : Prop :=
  d.whole = [] ∨ Binary64.Alike (natOf 10 d.whole) d.value

theorem DecimalLit.plain_iff (d : DecimalLit) :
    d.plain ↔ d.whole = [] ∨ Binary64.nearest (natOf 10 d.whole) = Binary64.nearest d.value := by
  rw [DecimalLit.plain, Binary64.nearest_eq_iff (Nat.cast_nonneg _) d.value_nonneg]

instance (d : DecimalLit) : Decidable d.plain := decidable_of_iff' _ d.plain_iff

theorem whole_of_decimalLit {cs : List Char} {d : DecimalLit} (h : decimalLit cs = some d) :
    d.whole = cs.takeWhile (isDigitOf 10) := by
  simp only [decimalLit] at h
  split at h
  · cases h
  · obtain ⟨e, -, rfl⟩ := Option.map_eq_some_iff.mp h
    rfl

end Literals

section Conversions

theorem splitSign_append {cs : List Char} (h : cs ≠ []) (ws : List Char) :
    splitSign (cs ++ ws) = ((splitSign cs).1, (splitSign cs).2 ++ ws) := by
  cases cs with
  | nil => exact absurd rfl h
  | cons c cs =>
    rw [List.cons_append]
    unfold splitSign
    split <;> simp_all

theorem splitHex_append_spaces (cs : List Char) {ws : List Char}
    (hws : ∀ c ∈ ws, isSpace c = true) :
    splitHex (cs ++ ws) = ((splitHex cs).1, (splitHex cs).2 ++ ws) := by
  -- The white space supplies neither of the two characters of a hexadecimal prefix.
  rcases cs with _ | ⟨c, _ | ⟨d, cs⟩⟩
  · rw [List.nil_append]
    unfold splitHex
    split
    · exact absurd (hws '0' (by simp)) (by decide)
    · exact absurd (hws '0' (by simp)) (by decide)
    · rfl
  · rw [List.singleton_append]
    unfold splitHex
    split
    · rename_i heq
      rw [List.cons.injEq] at heq
      exact absurd (hws 'x' (by simp [heq.2])) (by decide)
    · rename_i heq
      rw [List.cons.injEq] at heq
      exact absurd (hws 'X' (by simp [heq.2])) (by decide)
    · simp
  · rw [List.cons_append, List.cons_append]
    unfold splitHex
    split <;> simp_all

/-- White space after the digits is ignored. -/
theorem readInt_append_spaces (cs : List Char) {ws : List Char}
    (hws : ∀ c ∈ ws, isSpace c = true) : readInt (cs ++ ws) = readInt cs := by
  by_cases hcs : cs = []
  · subst hcs
    have hsign : splitSign ws = (false, ws) := by
      unfold splitSign
      split
      · exact absurd (hws '-' (by simp)) (by decide)
      · exact absurd (hws '+' (by simp)) (by decide)
      · rfl
    have hhex : splitHex ws = (10, ws) := splitHex_append_spaces [] hws
    have hdigits : ws.takeWhile (isDigitOf 10) = [] := takeWhile_append_spaces [] hws 10
    rw [List.nil_append]
    simp only [readInt, hsign, hhex, hdigits]
    rfl
  · simp only [readInt, splitSign_append hcs, splitHex_append_spaces _ hws,
      takeWhile_append_spaces _ hws]

theorem exists_spaces (cs : List Char) :
    ∃ ws, (∀ c ∈ ws, isSpace c = true) ∧ cs = trimEnd cs ++ ws := by
  refine ⟨(cs.reverse.takeWhile isSpace).reverse, ?_, ?_⟩
  · intro c hc
    exact List.mem_takeWhile_imp (List.mem_reverse.mp hc)
  · rw [trimEnd, ← List.reverse_append, List.takeWhile_append_dropWhile, List.reverse_reverse]

/-- Both conversions read the trimmed string. -/
theorem parseInt_eq_readInt (s : String) : parseInt s = readInt (trimEnd (trimStart s.toList)) := by
  obtain ⟨ws, hws, hcs⟩ := exists_spaces (trimStart s.toList)
  rw [parseInt]
  nth_rewrite 1 [hcs]
  exact readInt_append_spaces _ hws

/-- The conversions do not read different numbers off the string. -/
def conversionsAgree (s : String) : Prop :=
  parseInt s = .nan ∨ number s = .nan ∨ parseInt s = number s

theorem signed_inj {neg : Bool} {p q : ℚ} : signed neg p = signed neg q ↔ p = q := by
  cases neg with
  | false => rfl
  | true => exact neg_inj

theorem toDouble_ne_nan (neg : Bool) (q : ℚ) : toDouble neg q ≠ .nan := by
  unfold toDouble
  split <;> simp

theorem toDouble_inj {neg : Bool} {p q : ℚ} :
    toDouble neg p = toDouble neg q ↔ Binary64.nearest p = Binary64.nearest q := by
  unfold toDouble
  cases Binary64.nearest p <;> cases Binary64.nearest q <;> simp [signed_inj]

/-- A prefixed literal is plain if it is hexadecimal or zero, or if its digits are not of
its radix. -/
def plainRadix (r : ℕ) (ds : List Char) : Bool :=
  r = 16 || !(ds ≠ [] ∧ ds.all (isDigitOf r)) || natOf r ds = 0

/-- The trimmed strings on which the two conversions do not read different numbers. -/
def plainChars (cs : List Char) : Bool :=
  match radixLit cs with
  | some (r, ds) => plainRadix r ds
  | none => (decimalLit (splitSign cs).2).all fun d => decide d.plain

def plainNumeral (s : String) : Bool := plainChars (trimEnd (trimStart s.toList))

theorem radixLit_eq_some {cs ds : List Char} {r : ℕ} (h : radixLit cs = some (r, ds)) :
    (r = 16 ∧ (cs = '0' :: 'x' :: ds ∨ cs = '0' :: 'X' :: ds)) ∨
    (r ≠ 16 ∧ ∃ c, cs = '0' :: c :: ds ∧ isDigitOf 10 c = false ∧ c ≠ 'x' ∧ c ≠ 'X') := by
  unfold radixLit at h
  split at h
  · rename_i c cs
    split at h
    · rename_i hc
      cases h
      rcases hc with rfl | rfl
      · exact Or.inl ⟨rfl, Or.inl rfl⟩
      · exact Or.inl ⟨rfl, Or.inr rfl⟩
    · rename_i hx
      rw [not_or] at hx
      split at h
      · rename_i hc
        cases h
        refine Or.inr ⟨by decide, c, rfl, ?_, hx⟩
        rcases hc with rfl | rfl <;> decide
      · split at h
        · rename_i hc
          cases h
          refine Or.inr ⟨by decide, c, rfl, ?_, hx⟩
          rcases hc with rfl | rfl <;> decide
        · cases h
  · cases h

/-- `parseInt` reads a prefixed literal only if it is hexadecimal, and else its leading zero. -/
theorem readInt_radixLit {cs ds : List Char} {r : ℕ} (h : radixLit cs = some (r, ds))
    (hne : ds ≠ []) (hall : ds.all (isDigitOf r) = true) :
    readInt cs = toDouble false (if r = 16 then natOf r ds else 0) := by
  rcases radixLit_eq_some h with ⟨rfl, hcs⟩ | ⟨hr, c, rfl, hc, hx, hX⟩
  · have htake : ds.takeWhile (isDigitOf 16) = ds :=
      List.takeWhile_eq_self_iff.mpr (List.all_eq_true.mp hall)
    rcases hcs with rfl | rfl
    · simp [readInt, splitSign, splitHex, htake, hne]
    · simp [readInt, splitSign, splitHex, htake, hne]
  · have hhex : splitHex ('0' :: c :: ds) = (10, '0' :: c :: ds) := by
      unfold splitHex
      split
      · simp_all
      · simp_all
      · rfl
    have htake : ('0' :: c :: ds).takeWhile (isDigitOf 10) = ['0'] := by
      have hzero : isDigitOf 10 '0' = true := by decide
      simp [hzero, hc]
    have hsign : splitSign ('0' :: c :: ds) = (false, '0' :: c :: ds) := rfl
    have hval : natOf 10 ['0'] = 0 := by decide
    simp [readInt, hsign, hhex, htake, hval, hr]

theorem agree_radix_iff {cs ds : List Char} {r : ℕ} (h : radixLit cs = some (r, ds)) :
    (readInt cs = .nan ∨ readNumber cs = .nan ∨ readInt cs = readNumber cs) ↔
      plainRadix r ds = true := by
  have hcs : cs ≠ [] := by
    rintro rfl
    cases h
  by_cases hv : ds ≠ [] ∧ ds.all (isDigitOf r) = true
  · have hnum : readNumber cs = toDouble false (natOf r ds) := by
      simp only [readNumber, hcs, if_false, h]
      rw [if_pos hv]
    rw [hnum, readInt_radixLit h hv.1 hv.2]
    simp only [toDouble_ne_nan, false_or, toDouble_inj]
    by_cases hr : r = 16
    · simp [hr, plainRadix]
    · rw [if_neg hr, eq_comm, Binary64.nearest_natCast_eq_zero_iff]
      simp [hr, plainRadix, hv]
  · have hnum : readNumber cs = .nan := by
      simp only [readNumber, hcs, if_false, h, hv]
    have hplain : plainRadix r ds = true := by
      simp only [plainRadix, hv]
      simp
    simp [hnum, hplain]

/-- A literal that `Number` reads as a decimal has no hexadecimal prefix. -/
theorem splitHex_of_decimalLit {cs : List Char} {d : DecimalLit} (h : decimalLit cs = some d) :
    splitHex cs = (10, cs) := by
  have hzero : isDigitOf 10 '0' = true := by decide
  have hx : isDigitOf 10 'x' = false := by decide
  have hX : isDigitOf 10 'X' = false := by decide
  unfold splitHex
  split
  · simp [decimalLit, fractionPart, exponentPart, hzero, hx] at h
  · simp [decimalLit, fractionPart, exponentPart, hzero, hX] at h
  · rfl

/-- Outside the prefixed literals the conversions read the same sign and the same digits. -/
theorem agree_decimal_iff {cs : List Char} (h : radixLit cs = none) :
    (readInt cs = .nan ∨ readNumber cs = .nan ∨ readInt cs = readNumber cs) ↔
      ((decimalLit (splitSign cs).2).all fun d => decide d.plain) = true := by
  by_cases hcs : cs = []
  · subst hcs
    exact iff_of_true (Or.inl rfl) rfl
  cases hd : decimalLit (splitSign cs).2 with
  | none =>
    refine iff_of_true ?_ rfl
    by_cases hinf : (splitSign cs).2 = "Infinity".toList
    · have hread : readInt cs = .nan := by
        simp only [readInt, hinf]
        rfl
      exact Or.inl hread
    · have hnum : readNumber cs = .nan := by
        simp only [readNumber, hcs, if_false, h, hinf, hd]
      exact Or.inr (Or.inl hnum)
  | some d =>
    have hinf : (splitSign cs).2 ≠ "Infinity".toList := by
      intro hinf
      have hnone : decimalLit "Infinity".toList = none := by decide +kernel
      rw [hinf, hnone] at hd
      cases hd
    have hnum : readNumber cs = toDouble (splitSign cs).1 d.value := by
      simp only [readNumber, hcs, if_false, h, hinf, hd]
    have hread : readInt cs =
        if d.whole = [] then .nan else toDouble (splitSign cs).1 (natOf 10 d.whole) := by
      simp only [readInt, splitHex_of_decimalLit hd, whole_of_decimalLit hd]
    rw [hnum, hread, Option.all_some, decide_eq_true_iff, d.plain_iff]
    by_cases hw : d.whole = []
    · simp [hw]
    · simp [hw, toDouble_ne_nan, toDouble_inj]

/-- The two conversions read different numbers off exactly the strings that are not plain. -/
theorem conversionsAgree_iff_plainNumeral (s : String) :
    conversionsAgree s ↔ plainNumeral s = true := by
  unfold conversionsAgree plainNumeral plainChars
  rw [parseInt_eq_readInt, number]
  cases h : radixLit (trimEnd (trimStart s.toList)) with
  | none => exact agree_decimal_iff h
  | some rd => exact agree_radix_iff h

-- A fraction that is lost in the rounding, one that is not, and a small exponent.
example : plainNumeral "12345678901234567890.5" = true ∧ plainNumeral "800.5" = false ∧
    plainNumeral "1e5" = false := by decide +kernel

end Conversions

section Characters

def isNumeralChar (c : Char) : Bool := c.isDigit || c ∈ ['-', '+', '.', 'e']

theorem isNumeralChar_of_digits (n : ℕ) {c : Char} (h : c ∈ (toString n).toList) :
    isNumeralChar c = true := by
  have hlist : (toString n).toList = Nat.toDigits 10 n := by simp [Nat.toString_eq_repr, Nat.repr]
  rw [hlist] at h
  simp [isNumeralChar, Nat.isDigit_of_mem_toDigits (by decide) (by decide) h]

theorem isNumeralChar_layoutDigits {digits : List Char} (hd : ∀ c ∈ digits, isNumeralChar c = true)
    (n : ℤ) {c : Char} (h : c ∈ layoutDigits digits n) : isNumeralChar c = true := by
  have hexp : ∀ c ∈ (toString (n-1).natAbs).toList, isNumeralChar c = true :=
    fun c => isNumeralChar_of_digits _
  unfold layoutDigits at h
  simp only at h
  have hsign : isNumeralChar (if 0 ≤ n-1 then '+' else '-') = true := by
    split <;> rfl
  -- An integer, a point inside, leading zeros, or an exponent.
  split at h
  · rcases List.mem_append.mp h with h | h
    · exact hd c h
    · rw [List.eq_of_mem_replicate h]
      rfl
  · split at h
    · rcases List.mem_append.mp h with h | h
      · exact hd c (List.mem_of_mem_take h)
      · rcases List.mem_cons.mp h with rfl | h
        · rfl
        · exact hd c (List.mem_of_mem_drop h)
    · split at h
      · rcases List.mem_cons.mp h with rfl | h
        · rfl
        rcases List.mem_cons.mp h with rfl | h
        · rfl
        rcases List.mem_append.mp h with h | h
        · rw [List.eq_of_mem_replicate h]
          rfl
        · exact hd c h
      · rcases digits with _ | ⟨d, _ | ⟨d', ds⟩⟩
        · cases h
        · simp only [List.mem_cons] at h
          rcases h with rfl | rfl | rfl | h
          · exact hd _ (by simp)
          · rfl
          · exact hsign
          · exact hexp c h
        · simp only [List.mem_cons, List.mem_append] at h
          rcases h with rfl | rfl | (h | h) | rfl | rfl | h
          · exact hd _ (by simp)
          · rfl
          · exact hd _ (by simp [h])
          · exact hd _ (by simp [h])
          · rfl
          · exact hsign
          · exact hexp c h

theorem isNumeralChar_numToString {m e : ℤ} {c : Char} (h : c ∈ (numToString m e).toList) :
    isNumeralChar c = true := by
  unfold numToString at h
  split at h
  · have hc : c = '0' := by simpa using h
    rw [hc]
    rfl
  · simp only [String.toList_ofList, List.mem_append] at h
    rcases h with h | h
    · split at h
      · have hc : c = '-' := by simpa using h
        rw [hc]
        rfl
      · cases h
    · refine isNumeralChar_layoutDigits (fun c hc => ?_) _ h
      rw [List.mem_reverse] at hc
      exact isNumeralChar_of_digits m.natAbs (List.mem_reverse.mp ((List.dropWhile_sublist _).mem hc))

end Characters

end JsValues
