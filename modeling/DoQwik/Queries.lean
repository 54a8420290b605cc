import DoQwik.JsValues

/-! Casting of request values to schema types, in the conditions and in the data of a
query. An object whose keys are query operators is passed on as operators, an array
becomes a membership test, every other value an equality test. -/
namespace DocStore
open JsValues

/-- What a call can throw instead of returning. -/
inductive Thrown where
  | castError
  | badOperator
  | validationError
  | duplicateKey
  | typeError
  | referenceError
  | tooEarly
  | unsettled
deriving DecidableEq

/-- A sequence of casts returns only if each of them does. -/
theorem bind_eq_ok {ε α β : Type} {x : Except ε α} {f : α → Except ε β} {b : β}
    (h : (x >>= f) = .ok b) : ∃ a, x = .ok a ∧ f a = .ok b := by
  cases x with
  | error e => cases h
  | ok a => exact ⟨a, rfl, h⟩

/-- A condition is made of a value only if the value casts. -/
theorem map_eq_ok {ε α β : Type} {x : Except ε α} {f : α → β} {b : β} (h : x.map f = .ok b) :
    ∃ a, x = .ok a ∧ f a = b := by
  cases x with
  | error e => cases h
  | ok a => exact ⟨a, rfl, Except.ok.inj h⟩

/-- The operand of an arithmetic operator; `none` is `undefined`. -/
def toNumber : Option Json → Except Thrown JsNum
  | none => .ok .nan
  | some .null => .ok (.fin 0)
  | some (.bool b) => .ok (.fin (if b then 1 else 0))
  | some (.num m e) => .ok (literal m e)
  | some (.str s) => .ok (number s)
  | some v => if v.unprintable then .error .typeError else .ok (number v.toStr)

def parseIntOf : Option Json → Except Thrown JsNum
  | none => .ok .nan
  | some v => if v.unprintable then .error .typeError else .ok (parseInt v.toStr)

/-- A 12-byte document id. -/
structure ObjectId where
  bits : BitVec 96
deriving DecidableEq

namespace ObjectId

/-- The id a string of 12 bytes or of 24 hexadecimal digits denotes. -/
def ofString (s : String) : Option ObjectId :=
  let cs := s.toList
  if cs.length = 12 ∧ cs.all (fun c => decide (c.toNat < 128)) then
    some ⟨BitVec.ofNat 96 (cs.foldl (fun n c => n*256+c.toNat) 0)⟩
  else if cs.length = 24 ∧ cs.all (isDigitOf 16) then some ⟨BitVec.ofNat 96 (natOf 16 cs)⟩
  else none

/-- `new ObjectId(x)` of an object: only its own `id` string counts. -/
def ofObject (kvs : List (String × Json)) : Option ObjectId :=
  match kvs.lookup "id" with
  | some (.str s) => ofString s
  | _ => none

/-- `isValidObjectId(x)`: the constructor does not throw. A number is accepted, it seeds
a new id. -/
def isValid : Option Json → Bool
  | some (.str s) => (ofString s).isSome
  | some (.num _ _) => true
  | some (.obj kvs) => (ofObject kvs).isSome
  | _ => false

end ObjectId

def castObjectIdString (s : String) : Except Thrown (Option ObjectId) :=
  match ObjectId.ofString s with
  | some i => .ok (some i)
  | none => .error .castError

/-- The cast of an object without usable `_id`. -/
def castObjectIdPlain (kvs : List (String × Json)) : Except Thrown (Option ObjectId) :=
  if (Json.obj kvs).unprintable then
    match ObjectId.ofObject kvs with
    | some i => .ok (some i)
    | none => .error .castError
  else castObjectIdString (Json.obj kvs).toStr

def castObjectId : Json → Except Thrown (Option ObjectId)
  | .null => .ok none
  | .obj kvs =>
    match kvs.lookup "_id" with
    | some v =>
      if truthy (some v) && !v.unprintable then castObjectIdString v.toStr
      else castObjectIdPlain kvs
    | none => castObjectIdPlain kvs
  | v => castObjectIdString v.toStr

def castNumber : Json → Except Thrown (Option JsNum)
  | .null => .ok none
  | .bool b => .ok (some (.fin (if b then 1 else 0)))
  | .num m e => .ok (some (literal m e))
  | .str s =>
    if s = "" then .ok none
    else match number s with
      | .nan => .error .castError
      | n => .ok (some n)
  | .arr _ => .error .castError
  | .obj _ => .error .castError

/-- A number computed by the caller: `NaN` is refused. -/
def castNum : JsNum → Except Thrown (Option JsNum)
  | .nan => .error .castError
  | n => .ok (some n)

def castString : Json → Except Thrown (Option String)
  | .null => .ok none
  | .arr _ => .error .castError
  | .obj kvs =>
    match kvs.lookup "_id" with
    | some (.str s) => if s = "" then .error .castError else .ok (some s)
    | _ => .error .castError
  | v => .ok (some v.toStr)

/-- A string path declared with `trim`. -/
def castTrimmed (v : Json) : Except Thrown (Option String) :=
  (castString v).map (Option.map trim)

/-- The cast of an update value: an `undefined` key is dropped from the update. -/
def castSet {α : Type} (cast : Json → Except Thrown (Option α)) :
    Option Json → Except Thrown (Option (Option α))
  | none => .ok none
  | some v => (cast v).map some

/-- A query operator other than `$not`, with its operand cast. A missing field is `none`. -/
inductive Operator (α : Type) where
  | eq (a : Option α)
  | ne (a : Option α)
  | gt (a : Option α)
  | gte (a : Option α)
  | lt (a : Option α)
  | lte (a : Option α)
  | isIn (as : List (Option α))
  | notIn (as : List (Option α))
  | all (as : List (Option α))
  | present (b : Bool)
  | ofType (codes : List ℤ)
  | pattern (p : α → Bool)
  | options

/-- One entry of an operator object. -/
inductive Clause (α : Type) where
  | operator (o : Operator α)
  | not (os : List (Operator α))

/-- A schema type as the query caster sees it. -/
structure SchemaType (α : Type) where
  cast : Json → Except Thrown (Option α)
  lt : α → α → Bool
  /-- The BSON type of a stored value. -/
  typeCode : α → ℤ
  /-- Further operators of the type, with all keys of the operator object at hand. -/
  native : List (String × Json) → String → Json → Option (Except Thrown (Operator α))

/-- The MongoDB evaluation of `$regex`: the strings that a pattern matches under its options, or
`none` if the server refuses them. -/
abbrev RegexEngine := String → String → Option (String → Bool)

def objectIdType : SchemaType ObjectId where
  cast := castObjectId
  lt a b := decide (a.bits < b.bits)
  typeCode _ := 7
  native _ _ _ := none

/-- The driver stores an integer of 32 bits as such, and any other number as a double. -/
def numberCode : JsNum → ℤ
  | .fin q => if q.den = 1 ∧ -2^31 ≤ q ∧ q < 2^31 then 16 else 1
  | _ => 1

def numberType : SchemaType JsNum where
  cast := castNumber
  lt := JsNum.lt
  typeCode := numberCode
  native _ _ _ := none

/-- `$regex` with its `$options`; `$options` alone is refused by the server. -/
def stringNative (rx : RegexEngine) (kvs : List (String × Json)) (op : String) (v : Json) :
    Option (Except Thrown (Operator String)) :=
  if op = "$regex" then
    match castString v, (kvs.lookup "$options").map castString with
    | .ok (some pat), none => some (((rx pat "").map Operator.pattern).elim (.error .badOperator) .ok)
    | .ok (some pat), some (.ok (some opts)) =>
      some (((rx pat opts).map Operator.pattern).elim (.error .badOperator) .ok)
    | _, _ => some (.error .badOperator)
  else if op = "$options" then
    if (kvs.lookup "$regex").isSome then some (.ok .options) else some (.error .badOperator)
  else none

def stringTypeWith (cast : Json → Except Thrown (Option String)) (rx : RegexEngine) :
    SchemaType String where
  cast := cast
  lt a b := decide (a.toList < b.toList)
  typeCode _ := 2
  native := stringNative rx

def stringType (rx : RegexEngine) : SchemaType String := stringTypeWith castString rx

def trimmedType (rx : RegexEngine) : SchemaType String := stringTypeWith castTrimmed rx

/-- The names and the codes of the BSON types. -/
def typeNames : List (String × List ℤ) :=
  [("double", [1]), ("string", [2]), ("object", [3]), ("array", [4]), ("binData", [5]),
    ("undefined", [6]), ("objectId", [7]), ("bool", [8]), ("date", [9]), ("null", [10]),
    ("regex", [11]), ("dbPointer", [12]), ("javascript", [13]), ("symbol", [14]),
    ("javascriptWithScope", [15]), ("int", [16]), ("timestamp", [17]), ("long", [18]),
    ("decimal", [19]), ("minKey", [-1]), ("maxKey", [127]), ("number", [1, 16, 18, 19])]

/-- One type of a `$type` operand, by its name or its code. -/
def castType : Json → Except Thrown (List ℤ)
  | .str s => (typeNames.lookup s).elim (.error .badOperator) .ok
  | .num m e =>
    let q := decimal m e
    if q.den = 1 ∧ q.num ∈ typeNames.flatMap Prod.snd then .ok [q.num] else .error .badOperator
  | _ => .error .badOperator

/-- The operand of `$type`: one type, or an array of them that is not empty. -/
def castTypes : Json → Except Thrown (List ℤ)
  | .arr [] => .error .badOperator
  | .arr vs => (vs.mapM castType).map List.flatten
  | v => castType v

/-- The operand of `$exists`: `null` passes, and counts as `false`. -/
def castExists : Json → Except Thrown Bool
  | .null => .ok false
  | .bool b => .ok b
  | .str s =>
    if s ∈ ["true", "1", "yes"] then .ok true
    else if s ∈ ["false", "0", "no"] then .ok false
    else .error .castError
  | .num m e =>
    if decimal m e = 1 then .ok true
    else if decimal m e = 0 then .ok false
    else .error .castError
  | _ => .error .castError

section Casting

variable {α : Type} [DecidableEq α] (T : SchemaType α)

def castAll : List Json → Except Thrown (List (Option α))
  | [] => .ok []
  | v :: vs =>
    match T.cast v, castAll vs with
    | .ok a, .ok as => .ok (a :: as)
    | .error e, _ => .error e
    | _, .error e => .error e

/-- The operand of `$all`: a single value counts as a list of one. -/
def castList : Json → Except Thrown (List (Option α))
  | .arr vs => castAll T vs
  | v => castAll T [v]

def isEmptyArray : Json → Bool
  | .arr vs => vs.isEmpty
  | _ => false

/-- The operand of `$in` and `$nin`: an empty array among the values is not cast, and no stored
value is equal to it. -/
def castIn : Json → Except Thrown (List (Option α))
  | .arr vs => castAll T (vs.filter fun v => !isEmptyArray v)
  | v => castAll T [v]

def castOperator (kvs : List (String × Json)) (op : String) (v : Json) :
    Except Thrown (Operator α) :=
  if op = "$eq" then (T.cast v).map .eq
  else if op = "$ne" then (T.cast v).map .ne
  else if op = "$gt" then (T.cast v).map .gt
  else if op = "$gte" then (T.cast v).map .gte
  else if op = "$lt" then (T.cast v).map .lt
  else if op = "$lte" then (T.cast v).map .lte
  else if op = "$in" then (castIn T v).map .isIn
  else if op = "$nin" then (castIn T v).map .notIn
  else if op = "$all" then (castList T v).map .all
  else if op = "$exists" then (castExists v).map .present
  else if op = "$type" then (castTypes v).map .ofType
  else (T.native kvs op v).getD (.error .badOperator)

/-- A key of a query that the driver takes for an operator. -/
def isOperator (k : String) : Bool :=
  k.toList.head? = some '$' && k ∉ ["$ref", "$id", "$db"]

def castOperators (kvs : List (String × Json)) :
    List (String × Json) → Except Thrown (List (Operator α))
  | [] => .ok []
  | (op, v) :: rest =>
    match castOperator T kvs op v, castOperators kvs rest with
    | .ok o, .ok os => .ok (o :: os)
    | .error e, _ => .error e
    | _, .error e => .error e

/-- `$not` takes an operator object; anything else is refused. -/
def castNot : Json → Except Thrown (Clause α)
  | .obj kvs =>
    match kvs with
    | [] => .error .badOperator
    | (k, _) :: _ =>
      if isOperator k then (castOperators T kvs kvs).map .not else .error .badOperator
  | _ => .error .badOperator

def castClauses (kvs : List (String × Json)) :
    List (String × Json) → Except Thrown (List (Clause α))
  | [] => .ok []
  | (op, v) :: rest =>
    match (if op = "$not" then castNot T v else (castOperator T kvs op v).map .operator),
      castClauses kvs rest with
    | .ok c, .ok cs => .ok (c :: cs)
    | .error e, _ => .error e
    | _, .error e => .error e

/-- Comparison brackets types: a missing field is below nothing. -/
def below : Option α → Option α → Bool
  | some a, some b => T.lt a b
  | _, _ => false

/-- The test that an operator puts on the stored field. -/
def Operator.holds (x : Option α) : Operator α → Bool
  | .eq a => x = a
  | .ne a => x ≠ a
  | .gt a => below T a x
  | .gte a => below T a x || x = a
  | .lt a => below T x a
  | .lte a => below T x a || x = a
  | .isIn as => x ∈ as
  | .notIn as => x ∉ as
  | .all as => as ≠ [] && as.all (x = ·)
  | .present b => x.isSome == b
  | .ofType codes => x.any fun a => T.typeCode a ∈ codes
  | .pattern p => x.any p
  | .options => true

def Clause.holds (x : Option α) : Clause α → Bool
  | .operator o => o.holds T x
  | .not os => !os.all (Operator.holds T x)

/-- The condition a request value puts on one path; `none` is `undefined`. -/
def castForQuery : Option Json → Except Thrown (Option α → Bool)
  | none => .ok fun x => decide (x = none)
  | some .null => .ok fun x => decide (x = none)
  | some (.arr vs) => (castAll T vs).map fun as x => decide (x ∈ as)
  | some (.obj kvs) =>
    if kvs.any fun kv => isOperator kv.1 then
      (castClauses T kvs kvs).map fun cs x => cs.all (Clause.holds T x)
    else (T.cast (.obj kvs)).map fun a x => decide (x = a)
  | some v => (T.cast v).map fun a x => decide (x = a)

/-- A string, number or boolean that casts selects exactly the fields equal to its cast. -/
theorem castForQuery_scalar (v : Json) (hv : ∀ vs, v ≠ .arr vs) (ho : ∀ kvs, v ≠ .obj kvs)
    (hn : v ≠ .null) :
    castForQuery T (some v) = (T.cast v).map fun a x => decide (x = a) := by
  cases v with
  | null => exact absurd rfl hn
  | bool b => rfl
  | num m e => rfl
  | str s => rfl
  | arr vs => exact absurd rfl (hv vs)
  | obj kvs => exact absurd rfl (ho kvs)

omit [DecidableEq α] in
/-- A list casts exactly when each of its elements does. -/
theorem castAll_eq_ok_iff (vs : List Json) (as : List (Option α)) :
    castAll T vs = .ok as ↔ vs.map T.cast = as.map Except.ok := by
  induction vs generalizing as with
  | nil =>
    cases as with
    | nil => exact iff_of_true rfl rfl
    | cons a as => exact iff_of_false (by simp [castAll]) (by simp)
  | cons v vs ih =>
    simp only [castAll, List.map_cons]
    cases hv : T.cast v with
    | error e =>
      refine iff_of_false (by simp) ?_
      cases as with
      | nil => simp
      | cons a as => simp
    | ok b =>
      cases hvs : castAll T vs with
      | error e =>
        refine iff_of_false (by simp) ?_
        intro h
        cases as with
        | nil => cases h
        | cons a as =>
          rw [List.map_cons, List.cons.injEq] at h
          rw [(ih as).mpr h.2] at hvs
          cases hvs
      | ok bs =>
        have hbs := (ih bs).mp hvs
        cases as with
        | nil => exact iff_of_false (by simp) (by simp)
        | cons a as =>
          simp only [Except.ok.injEq, List.cons.injEq, List.map_cons, hbs]
          rw [(List.map_injective_iff.mpr fun x y h => Except.ok.inj h).eq_iff]

omit [DecidableEq α] in
theorem mem_of_lookup {kvs : List (String × α)} {k : String} {v : α}
    (h : kvs.lookup k = some v) : (k, v) ∈ kvs := by
  obtain ⟨l₁, l₂, hkvs, -⟩ := List.lookup_eq_some_iff.mp h
  rw [hkvs]
  simp

omit [DecidableEq α] in
/-- One clause that is refused refuses the whole condition. -/
theorem castClauses_ne_ok {kvs rest : List (String × Json)} {op : String} {v : Json}
    (hmem : (op, v) ∈ rest) (hnot : op ≠ "$not")
    (hop : ∀ q, castOperator T kvs op v ≠ .ok q) (cs : List (Clause α)) :
    castClauses T kvs rest ≠ .ok cs := by
  induction rest generalizing cs with
  | nil => cases hmem
  | cons kv rest ih =>
    obtain ⟨op', v'⟩ := kv
    intro h
    simp only [castClauses] at h
    rcases List.mem_cons.mp hmem with heq | htail
    · cases heq
      rw [if_neg hnot] at h
      cases hq : castOperator T kvs op v with
      | error e => rw [hq] at h; cases h
      | ok q => exact hop q hq
    · cases hq : castClauses T kvs rest with
      | error e =>
        rw [hq] at h
        cases hw : (if op' = "$not" then castNot T v'
            else (castOperator T kvs op' v').map Clause.operator) with
        | error e => rw [hw] at h; cases h
        | ok q => rw [hw] at h; cases h
      | ok q => exact ih htail q hq

end Casting

/-- A string is a condition on ids only if it denotes one, and then selects that one. -/
theorem castForQuery_idString {v : String} {p : Option ObjectId → Bool}
    (h : castForQuery objectIdType (some (.str v)) = .ok p) :
    ∃ i, ObjectId.ofString v = some i ∧ p = fun x => decide (x = some i) := by
  change (castObjectIdString v).map (fun a x => decide (x = a)) = .ok p at h
  unfold castObjectIdString at h
  cases hv : ObjectId.ofString v with
  | none =>
    rw [hv] at h
    cases h
  | some i =>
    rw [hv] at h
    cases h
    exact ⟨i, rfl, rfl⟩

/-- An entry that makes an object an id is no operator, and refuses the object as a condition. -/
theorem castClauses_entry_ne_ok {kvs : List (String × Json)} {k : String} {v : Json}
    (hk : k = "id" ∨ k = "_id") (hl : kvs.lookup k = some v) (cs : List (Clause ObjectId)) :
    castClauses objectIdType kvs kvs ≠ .ok cs := by
  have hop : ∀ q, castOperator objectIdType kvs k v ≠ .ok q := by
    intro q hq
    rcases hk with rfl | rfl <;> simp [castOperator, objectIdType] at hq
  have hnot : k ≠ "$not" := by
    rcases hk with rfl | rfl <;> decide
  exact castClauses_ne_ok objectIdType (mem_of_lookup hl) hnot hop cs

/-- A value that passes for an id selects the one id that it casts to: an operator object is
no id. -/
theorem castForQuery_of_isValid {v : Option Json} {p : Option ObjectId → Bool}
    (hv : ObjectId.isValid v = true) (hp : castForQuery objectIdType v = .ok p) :
    ∃ w a, v = some w ∧ castObjectId w = .ok a ∧ p = fun x => decide (x = a) := by
  have hmap : ∀ {w : Json}, (castObjectId w).map (fun a x => decide (x = a)) = .ok p →
      ∃ a, castObjectId w = .ok a ∧ p = fun x => decide (x = a) := by
    intro w hr
    cases ha : castObjectId w with
    | error e =>
      rw [ha] at hr
      cases hr
    | ok a =>
      rw [ha] at hr
      exact ⟨a, rfl, (Except.ok.inj hr).symm⟩
  rcases v with _ | v
  · cases hv
  cases v with
  | null | bool b | arr vs => cases hv
  | num m e =>
    obtain ⟨a, ha, hpa⟩ := hmap (w := .num m e) hp
    exact ⟨_, a, rfl, ha, hpa⟩
  | str s =>
    obtain ⟨a, ha, hpa⟩ := hmap (w := .str s) hp
    exact ⟨_, a, rfl, ha, hpa⟩
  | obj kvs =>
    simp only [castForQuery] at hp
    split at hp
    · -- The `id` entry that makes the object valid is no operator.
      simp only [ObjectId.isValid, ObjectId.ofObject] at hv
      cases hl : kvs.lookup "id" with
      | none => simp [hl] at hv
      | some w =>
        obtain ⟨cs, hcs, -⟩ := map_eq_ok hp
        exact absurd hcs (castClauses_entry_ne_ok (Or.inl rfl) hl cs)
    · obtain ⟨a, ha, hpa⟩ := hmap (w := .obj kvs) hp
      exact ⟨_, a, rfl, ha, hpa⟩

/-- Only texts of twelve characters or of twenty-four digits are ids. -/
theorem ObjectId.ofString_isSome {s : String} {i : ObjectId} (h : ObjectId.ofString s = some i) :
    s.length = 12 ∨ s.length = 24 ∧ s.toList.all (isDigitOf 16) = true := by
  unfold ObjectId.ofString at h
  dsimp only at h
  rw [String.length_toList] at h
  split at h
  · rename_i h12
    exact Or.inl h12.1
  · split at h
    · rename_i h24
      exact Or.inr h24
    · cases h

theorem ofString_objectObject : ObjectId.ofString "[object Object]" = none := by decide

theorem castObjectIdString_eq_ok {s : String} {a : Option ObjectId}
    (h : castObjectIdString s = .ok a) : ∃ i, ObjectId.ofString s = some i ∧ a = some i := by
  unfold castObjectIdString at h
  cases hs : ObjectId.ofString s with
  | none =>
    rw [hs] at h
    cases h
  | some i =>
    rw [hs] at h
    exact ⟨i, rfl, (Except.ok.inj h).symm⟩

/-- An array that denotes an id as a text has a single element, with this id as its text. -/
theorem ofString_toStr_arr {vs : List Json} {v : Json} {i : ObjectId} (hv : v ∈ vs)
    (hn : v ≠ .null) (hlong : 12 ≤ v.toStr.length)
    (h : ObjectId.ofString (Json.arr vs).toStr = some i) : ObjectId.ofString v.toStr = some i := by
  have hroom := length_toStr_arr hv hn
  by_cases hone : vs.length = 1
  · obtain ⟨w, rfl⟩ := List.length_eq_one_iff.mp hone
    obtain rfl : v = w := by simpa using hv
    obtain ⟨t, ht, hw⟩ := joinElems_cons v []
    have hsame : (Json.arr [v]).toStr = v.toStr := by
      change ",".intercalate (joinElems [v]) = _
      rw [ht, hw hn]
      exact String.intercalate_singleton
    rw [← hsame]
    exact h
  · exfalso
    have hpos := List.length_pos_of_mem hv
    rcases ObjectId.ofString_isSome h with h12 | ⟨-, hex⟩
    · omega
    · -- The comma between the elements is no digit.
      have hcomma := List.all_eq_true.mp hex _ (comma_mem_toStr_arr (by omega))
      exact absurd hcomma (by decide)

/-- A value that casts to an id selects that id at most: an operator object casts to none. -/
theorem castForQuery_of_castObjectId {v : Json} {p : Option ObjectId → Bool} {i j : ObjectId}
    (hp : castForQuery objectIdType (some v) = .ok p) (hv : castObjectId v = .ok (some i))
    (hj : p (some j) = true) : j = i := by
  have hcast : objectIdType.cast v = .ok (some i) := hv
  have hscalar : (objectIdType.cast v).map (fun a x => decide (x = a)) = .ok p → j = i := by
    intro h
    rw [hcast] at h
    rw [← Except.ok.inj h] at hj
    exact Option.some.inj (of_decide_eq_true hj)
  cases v with
  | null => cases hv
  | bool b | num m e | str s => exact hscalar hp
  | arr vs =>
    obtain ⟨as, has, rfl⟩ := map_eq_ok hp
    have hmem : some j ∈ as := of_decide_eq_true hj
    have hall := (castAll_eq_ok_iff objectIdType vs as).mp has
    have helem : Except.ok (some j) ∈ vs.map objectIdType.cast := by
      rw [hall]
      exact List.mem_map_of_mem hmem
    obtain ⟨w, hw, hwj⟩ := List.mem_map.mp helem
    obtain ⟨i', hi, hsome⟩ := castObjectIdString_eq_ok (s := (Json.arr vs).toStr) hv
    cases hsome
    have hwj' : castObjectId w = .ok (some j) := hwj
    cases w with
    | null => cases hwj'
    | obj kvs =>
      -- An object renders as `[object Object]`, which is no id.
      have htext : (Json.obj kvs).toStr = "[object Object]" := rfl
      have h := ofString_toStr_arr hw (by simp) (by rw [htext]; decide) hi
      rw [htext, ofString_objectObject] at h
      cases h
    | bool b | num m e | str s | arr xs =>
      obtain ⟨j', hj', hsome⟩ := castObjectIdString_eq_ok hwj'
      cases hsome
      have hlong := ObjectId.ofString_isSome hj'
      have h := ofString_toStr_arr hw (by simp) (by omega) hi
      exact Option.some.inj (hj'.symm.trans h)
  | obj kvs =>
    simp only [castForQuery] at hp
    split at hp
    · -- Each entry that the object could cast by is no operator.
      exfalso
      simp only [castObjectId] at hv
      cases hl : kvs.lookup "_id" with
      | some w =>
        obtain ⟨cs, hcs, -⟩ := map_eq_ok hp
        exact castClauses_entry_ne_ok (Or.inr rfl) hl cs hcs
      | none =>
        rw [hl] at hv
        simp only [castObjectIdPlain] at hv
        split at hv
        · cases ho : kvs.lookup "id" with
          | none => simp [ObjectId.ofObject, ho] at hv
          | some w =>
            obtain ⟨cs, hcs, -⟩ := map_eq_ok hp
            exact castClauses_entry_ne_ok (Or.inl rfl) ho cs hcs
        · obtain ⟨i', hi, -⟩ := castObjectIdString_eq_ok hv
          rw [show (Json.obj kvs).toStr = "[object Object]" from rfl, ofString_objectObject] at hi
          cases hi
    · exact hscalar hp

/-- A value that casts to a number selects that number: an object or an array casts to none. -/
theorem castForQuery_of_castNumber {v : Json} {p : Option JsNum → Bool} {n : JsNum}
    (hp : castForQuery numberType (some v) = .ok p) (hn : castNumber v = .ok (some n)) :
    p = fun x => decide (x = some n) := by
  have hcast : numberType.cast v = .ok (some n) := hn
  cases v with
  | null | arr vs | obj kvs => cases hn
  | bool b | num m e | str s =>
    simp only [castForQuery, hcast] at hp
    exact (Except.ok.inj hp).symm

/-- A value that casts to a string selects that string: an operator object casts to none. -/
theorem castForQuery_of_castTrimmed {rx : RegexEngine} {v : Json} {p : Option String → Bool}
    {a : String} (hp : castForQuery (trimmedType rx) (some v) = .ok p)
    (ha : castTrimmed v = .ok (some a)) : p = fun x => decide (x = some a) := by
  have hcast : (trimmedType rx).cast v = .ok (some a) := ha
  cases v with
  | null => cases ha
  | arr vs => cases ha
  | obj kvs =>
    simp only [castForQuery] at hp
    split at hp
    · -- The `_id` entry that the object casts by is no operator.
      simp only [castTrimmed, castString] at ha
      cases hl : kvs.lookup "_id" with
      | none =>
        rw [hl] at ha
        cases ha
      | some w =>
        have hop : ∀ q, castOperator (trimmedType rx) kvs "_id" w ≠ .ok q := by
          intro q hq
          simp [castOperator, trimmedType, stringTypeWith, stringNative] at hq
        obtain ⟨cs, hcs, -⟩ := map_eq_ok hp
        exact absurd hcs (castClauses_ne_ok _ (mem_of_lookup hl) (by decide) hop cs)
    · rw [hcast] at hp
      exact (Except.ok.inj hp).symm
  | bool b | num m e | str s =>
    simp only [castForQuery, hcast] at hp
    exact (Except.ok.inj hp).symm

section Conditions

variable {α : Type}

/-- The conditions of a query by their paths. Each is cast when the query is made. -/
abbrev Conditions (α : Type) := List (String × Except Thrown (α → Bool))

/-- With `strictQuery`, a condition on a path that the schema does not declare is dropped. -/
def Conditions.strict (paths : List String) (cs : Conditions α) : Conditions α :=
  cs.filter fun c => decide (c.1 ∈ paths)

/-- The documents that meet all conditions. -/
def Conditions.cast : Conditions α → Except Thrown (α → Bool)
  | [] => .ok fun _ => true
  | c :: cs => do
    let p ← c.2
    let q ← Conditions.cast cs
    pure fun a => p a && q a

/-- The options of a query, as the services take them apart: conditions that stand elsewhere in
the object are not looked at. -/
structure FindOptions (α : Type) where
  condition : Conditions α := []
  others : Conditions α := []

/-- The selection of `Model.find(condition)` for a schema with these paths. -/
def FindOptions.selection (paths : List String) (o : FindOptions α) : Except Thrown (α → Bool) :=
  (o.condition.strict paths).cast

end Conditions

end DocStore
