import DoQwik.Binary64

/-! JavaScript values as request bodies carry them: JSON trees, numbers, and the string
conversions `String`, `parseInt` and `Number`, which round to doubles. -/
namespace JsValues

/-- A JavaScript number. Sums and products are exact; the conversions round to doubles. -/
inductive JsNum where
  | nan
  | inf (neg : Bool)
  | fin (q : ℚ)
deriving DecidableEq

namespace JsNum

def sub : JsNum → JsNum → JsNum
  | fin a, fin b => fin (a-b)
  | nan, _ => nan
  | _, nan => nan
  | inf a, inf b => if a = b then nan else inf a
  | inf a, fin _ => inf a
  | fin _, inf b => inf (!b)

theorem sub_fin_zero (a : JsNum) : a.sub (.fin 0) = a := by
  cases a with
  | nan => rfl
  | inf neg => rfl
  | fin q => simp only [sub, sub_zero]

def add : JsNum → JsNum → JsNum
  | fin a, fin b => fin (a+b)
  | nan, _ => nan
  | _, nan => nan
  | inf a, inf b => if a = b then inf a else nan
  | inf a, fin _ => inf a
  | fin _, inf b => inf b

def mul : JsNum → JsNum → JsNum
  | fin a, fin b => fin (a*b)
  | nan, _ => nan
  | _, nan => nan
  | inf a, inf b => inf (a != b)
  | inf a, fin b => if b = 0 then nan else inf (a != decide (b < 0))
  | fin a, inf b => if a = 0 then nan else inf (b != decide (a < 0))

/-- Division by a nonzero constant, the only division the callers need. -/
def divBy (a : JsNum) (c : ℚ) : JsNum := mul a (fin (1/c))

/-- The order of the database on numbers: `NaN` below everything, then by value. -/
def lt : JsNum → JsNum → Bool
  | fin a, fin b => decide (a < b)
  | nan, nan => false
  | nan, _ => true
  | _, nan => false
  | inf a, inf b => a && !b
  | inf a, fin _ => a
  | fin _, inf b => !b

/-- JavaScript `x > 0`. -/
def positive : JsNum → Bool
  | fin a => decide (0 < a)
  | inf neg => !neg
  | nan => false

/-- JavaScript `x <= y`: `NaN` compares to nothing. -/
def le : JsNum → JsNum → Bool
  | fin a, fin b => decide (a ≤ b)
  | inf a, inf b => a || !b
  | inf a, fin _ => a
  | fin _, inf b => !b
  | _, _ => false

theorem zero_le_of_positive {a : JsNum} (h : a.positive = true) : le (.fin 0) a = true := by
  cases a with
  | nan => cases h
  | inf neg => exact h
  | fin q =>
    have hq : 0 < q := of_decide_eq_true h
    simp [le, hq.le]

/-- A positive amount with a fixed sum off stays between zero and itself exactly when it covers
the sum. -/
theorem le_sub_iff {a : JsNum} (h : a.positive = true) {c : ℚ} (hc : 0 ≤ c) :
    (le (.fin 0) (a.sub (.fin c)) = true ∧ le (a.sub (.fin c)) a = true) ↔ le (.fin c) a = true := by
  cases a with
  | nan => cases h
  | inf neg => cases neg <;> simp [le, sub]
  | fin q => simp [le, sub, hc]

/-- JavaScript `===` on numbers: `NaN` equals nothing. -/
def strictEq : JsNum → JsNum → Bool
  | nan, _ => false
  | a, b => a = b

end JsNum

/-- A parsed JSON value. A number is the double that prints as `mantissa * 10 ^ exponent`. -/
inductive Json where
  | null
  | bool (b : Bool)
  | num (mantissa exponent : ℤ)
  | str (s : String)
  | arr (xs : List Json)
  | obj (kvs : List (String × Json))

/-- `mantissa * 10 ^ exponent` as a rational. -/
def decimal (mantissa exponent : ℤ) : ℚ :=
  if 0 ≤ exponent then mantissa*10^exponent.toNat else mantissa/10^(-exponent).toNat

def signed (neg : Bool) (q : ℚ) : ℚ := if neg then -q else q

/-- The double nearest to a rational, given by its sign and its magnitude. -/
def toDouble (neg : Bool) (q : ℚ) : JsNum :=
  match Binary64.nearest q with
  | some r => .fin (signed neg r)
  | none => .inf neg

/-- The double of a JSON number literal. -/
def literal (mantissa exponent : ℤ) : JsNum :=
  toDouble (mantissa < 0) (decimal mantissa.natAbs exponent)

/-- JavaScript truthiness; `none` is `undefined`. -/
def truthy : Option Json → Bool
  | none => false
  | some .null => false
  | some (.bool b) => b
  | some (.num m _) => decide (m ≠ 0)
  | some (.str s) => decide (s ≠ "")
  | some (.arr _) => true
  | some (.obj _) => true

/-- White space and line terminators, as `trim` and the number grammars skip them. -/
def isSpace (c : Char) : Bool :=
  c.toNat ∈ [0x9, 0xa, 0xb, 0xc, 0xd, 0x20, 0xa0, 0x1680, 0x2028, 0x2029, 0x202f, 0x205f,
    0x3000, 0xfeff] || (0x2000 ≤ c.toNat && c.toNat ≤ 0x200a)

def trimStart (cs : List Char) : List Char := cs.dropWhile isSpace

def trimEnd (cs : List Char) : List Char := (cs.reverse.dropWhile isSpace).reverse

/-- `String.prototype.trim`. -/
def trim (s : String) : String := String.ofList (trimEnd (trimStart s.toList))

section Rendering

/-- The digits of a finite nonzero number in the layout of `Number.prototype.toString`:
`digits` has no trailing zero and stands for `0.digits * 10 ^ n`. -/
def layoutDigits (digits : List Char) (n : ℤ) : List Char :=
  let k : ℤ := digits.length
  let exp : List Char := (if 0 ≤ n-1 then '+' else '-') :: (toString (n-1).natAbs).toList
  if k ≤ n ∧ n ≤ 21 then digits ++ List.replicate (n-k).toNat '0'
  else if 0 < n ∧ n ≤ 21 then digits.take n.toNat ++ '.' :: digits.drop n.toNat
  else if -6 < n ∧ n ≤ 0 then '0' :: '.' :: (List.replicate (-n).toNat '0' ++ digits)
  else match digits with
    | [d] => d :: 'e' :: exp
    | d :: ds => d :: '.' :: (ds ++ 'e' :: exp)
    | [] => []

/-- `Number.prototype.toString` of a JSON number literal. -/
def numToString (mantissa exponent : ℤ) : String :=
  if mantissa = 0 then "0" else
    let all := (toString mantissa.natAbs).toList
    let digits := (all.reverse.dropWhile (· = '0')).reverse
    String.ofList ((if mantissa < 0 then ['-'] else []) ++
      layoutDigits digits (all.length+exponent))

mutual

/-- `String(x)`. -/
def Json.toStr : Json → String
  | .null => "null"
  | .bool b => if b then "true" else "false"
  | .num m e => numToString m e
  | .str s => s
  | .arr xs => ",".intercalate (joinElems xs)
  | .obj _ => "[object Object]"

/-- The elements `Array.prototype.join` puts together: `null` renders as nothing. -/
def joinElems : List Json → List String
  | [] => []
  | .null :: xs => "" :: joinElems xs
  | x :: xs => x.toStr :: joinElems xs

end

mutual

/-- A value that `String(x)` throws on: an object whose own `toString` entry hides the
built-in method, or an array that holds one. -/
def Json.unprintable : Json → Bool
  | .obj kvs => (kvs.lookup "toString").isSome
  | .arr xs => anyUnprintable xs
  | _ => false

def anyUnprintable : List Json → Bool
  | [] => false
  | x :: xs => x.unprintable || anyUnprintable xs

end

/-- An array is joined from the texts of its elements. -/
theorem joinElems_cons (v : Json) (vs : List Json) :
    ∃ t, joinElems (v :: vs) = t :: joinElems vs ∧ (v ≠ .null → t = v.toStr) := by
  cases v with
  | null => exact ⟨_, rfl, fun h => absurd rfl h⟩
  | bool b | num m e | str s | arr xs | obj kvs => exact ⟨_, rfl, fun _ => rfl⟩

/-- The text of an array has room for the text of each element, and for the commas. -/
theorem length_toStr_arr {v : Json} {vs : List Json} (hv : v ∈ vs) (hn : v ≠ .null) :
    v.toStr.length+vs.length ≤ (Json.arr vs).toStr.length+1 := by
  have hcommas : ∀ ws : List Json, ws.length ≤ (",".intercalate (joinElems ws)).length+1 := by
    intro ws
    induction ws with
    | nil => exact Nat.zero_le _
    | cons w ws ih =>
      obtain ⟨t, ht, -⟩ := joinElems_cons w ws
      rw [ht]
      cases ws with
      | nil => simp
      | cons w' ws =>
        obtain ⟨t', ht', -⟩ := joinElems_cons w' ws
        rw [ht'] at ih ⊢
        simp only [String.intercalate_cons_cons, String.length_append, List.length_cons] at ih ⊢
        have : ",".length = 1 := rfl
        omega
  change _ ≤ (",".intercalate (joinElems vs)).length+1
  induction vs with
  | nil => cases hv
  | cons w ws ih =>
    obtain ⟨t, ht, hw⟩ := joinElems_cons w ws
    rw [ht]
    have hc := hcommas ws
    cases ws with
    | nil =>
      obtain rfl : v = w := by simpa using hv
      simp [joinElems, hw hn]
    | cons w' ws =>
      obtain ⟨t', ht', -⟩ := joinElems_cons w' ws
      rw [ht'] at ih hc ⊢
      have : ",".length = 1 := rfl
      simp only [String.intercalate_cons_cons, String.length_append, List.length_cons] at ih hc ⊢
      rcases List.mem_cons.mp hv with rfl | hv
      · rw [hw hn]
        omega
      · have := ih hv
        omega

/-- The text of an array of two elements or more has a comma. -/
theorem comma_mem_toStr_arr {vs : List Json} (h : 1 < vs.length) :
    ',' ∈ (Json.arr vs).toStr.toList := by
  change ',' ∈ (",".intercalate (joinElems vs)).toList
  rcases vs with _ | ⟨v, _ | ⟨w, ws⟩⟩
  · cases h
  · exact absurd h (lt_irrefl 1)
  · obtain ⟨t, ht, -⟩ := joinElems_cons v (w :: ws)
    obtain ⟨u, hu, -⟩ := joinElems_cons w ws
    rw [ht, hu, String.intercalate_cons_cons]
    simp

end Rendering

section Numbers

/-- The value of a digit in radix 36, for both letter cases. -/
def digitVal (c : Char) : Option ℕ :=
  if '0' ≤ c ∧ c ≤ '9' then some (c.toNat - 48)
  else if 'a' ≤ c ∧ c ≤ 'z' then some (c.toNat - 87)
  else if 'A' ≤ c ∧ c ≤ 'Z' then some (c.toNat - 55)
  else none

def isDigitOf (r : ℕ) (c : Char) : Bool := (digitVal c).any (· < r)

/-- The number a digit string denotes in radix `r`. -/
def natOf (r : ℕ) (cs : List Char) : ℕ :=
  cs.foldl (fun n c => n*r+(digitVal c).getD 0) 0

/-- Split off an optional sign; `true` is minus. -/
def splitSign : List Char → Bool × List Char
  | '-' :: cs => (true, cs)
  | '+' :: cs => (false, cs)
  | cs => (false, cs)

/-- The radix `parseInt` reads in, and the text after a `0x`. -/
def splitHex : List Char → ℕ × List Char
  | '0' :: 'x' :: cs => (16, cs)
  | '0' :: 'X' :: cs => (16, cs)
  | cs => (10, cs)

/-- The longest digit run after the sign and the radix, whatever follows it. -/
def readInt (cs : List Char) : JsNum :=
  let (neg, cs) := splitSign cs
  let (r, cs) := splitHex cs
  let ds := cs.takeWhile (isDigitOf r)
  if ds = [] then .nan else toDouble neg (natOf r ds)

/-- `parseInt(s)` without a radix. -/
def parseInt (s : String) : JsNum := readInt (trimStart s.toList)

/-- The three parts of a decimal literal without sign: integer digits, fraction digits, exponent. -/
structure DecimalLit where
  whole : List Char
  frac : List Char
  exp : ℤ

def DecimalLit.value (d : DecimalLit) : ℚ :=
  decimal (natOf 10 (d.whole ++ d.frac)) (d.exp-d.frac.length)

/-- An exponent part running to the end of the literal. -/
def exponentPart : List Char → Option ℤ
  | [] => some 0
  | c :: cs =>
    if c = 'e' ∨ c = 'E' then
      let (neg, ds) := splitSign cs
      if ds ≠ [] ∧ ds.all (isDigitOf 10) then
        some (if neg then -(natOf 10 ds : ℤ) else natOf 10 ds)
      else none
    else none

/-- The fraction digits after the integer part, and the rest. -/
def fractionPart : List Char → List Char × List Char
  | '.' :: cs => (cs.takeWhile (isDigitOf 10), cs.dropWhile (isDigitOf 10))
  | cs => ([], cs)

/-- `StrUnsignedDecimalLiteral` of the number grammar, apart from `Infinity`. -/
def decimalLit (cs : List Char) : Option DecimalLit :=
  let whole := cs.takeWhile (isDigitOf 10)
  let (frac, rest) := fractionPart (cs.dropWhile (isDigitOf 10))
  if whole = [] ∧ frac = [] then none
  else (exponentPart rest).map fun e => ⟨whole, frac, e⟩

/-- The radix and the digits of a `0x`, `0o` or `0b` literal. -/
def radixLit : List Char → Option (ℕ × List Char)
  | '0' :: c :: cs =>
    if c = 'x' ∨ c = 'X' then some (16, cs)
    else if c = 'o' ∨ c = 'O' then some (8, cs)
    else if c = 'b' ∨ c = 'B' then some (2, cs)
    else none
  | _ => none

/-- A whole string of the number grammar, without the white space around it. -/
def readNumber (cs : List Char) : JsNum :=
  if cs = [] then .fin 0 else
  match radixLit cs with
  | some (r, ds) => if ds ≠ [] ∧ ds.all (isDigitOf r) then toDouble false (natOf r ds) else .nan
  | none =>
    let (neg, ds) := splitSign cs
    if ds = "Infinity".toList then .inf neg else
    match decimalLit ds with
    | some d => toDouble neg d.value
    | none => .nan

/-- `Number(s)` of a string. -/
def number (s : String) : JsNum := readNumber (trimEnd (trimStart s.toList))

end Numbers

end JsValues
