import IcebergRs.Iceberg.Predicate
import IcebergRs.Support.Json
import IcebergRs.Support.Outcome

/-! The filter DSL of `filter.rs`: a JSON S-expression is read into a predicate, with
its literals coerced to the types of the columns they stand next to. -/
namespace IcebergRs.Filter

/-- `str::to_ascii_lowercase`. -/
def toAsciiLowercase (s : String) : String := String.ofList (s.toList.map Char.toLower)

/-- `arr[i]`, which panics out of range. -/
def index {α : Type} (arr : List α) (i : ℕ) : Outcome α :=
  match arr[i]? with
  | some x => .ok x
  | none => .panic "index out of bounds"

/-- `usize` subtraction, which panics below zero. -/
def sub (a b : ℕ) : Outcome ℕ :=
  if b ≤ a then .ok (a - b) else .panic "attempt to subtract with overflow"

/-- The outer arms of the operator match. -/
inductive Arm where
  | alwaysTrue | alwaysFalse | logical | not | isNull | notNull | isNan | notNan
  | membership | comparison
  deriving DecidableEq, Repr

def arm : String → Option Arm
  | "true" => some .alwaysTrue
  | "false" => some .alwaysFalse
  | "and" | "or" => some .logical
  | "not" => some .not
  | "is-null" | "isnull" => some .isNull
  | "not-null" | "is-not-null" | "notnull" => some .notNull
  | "is-nan" | "isnan" => some .isNan
  | "not-nan" | "is-not-nan" => some .notNan
  | "in" | "not-in" | "notin" => some .membership
  | "=" | "==" | "eq" | "!=" | "<>" | "ne" | "<" | "lt" | "<=" | "le" | ">" | "gt" | ">="
  | "ge" | "starts-with" | "startswith" | "not-starts-with" => some .comparison
  | _ => none

/-- The inner match of the comparison arm, with its catch-all last. -/
def comparison (op : String) (r : Reference) (d : Datum) : Predicate :=
  match op with
  | "=" | "==" | "eq" => r.equalTo d
  | "!=" | "<>" | "ne" => r.notEqualTo d
  | "<" | "lt" => r.lessThan d
  | "<=" | "le" => r.lessThanOrEqualTo d
  | ">" | "gt" => r.greaterThan d
  | ">=" | "ge" => r.greaterThanOrEqualTo d
  | "starts-with" | "startswith" => r.startsWith d
  | _ => r.notStartsWith d

/-- The inner test of the membership arm. -/
def membership (op : String) (r : Reference) (ds : List Datum) : Predicate :=
  if op = "in" then r.isIn ds else r.isNotIn ds

def need (op : String) (len n : ℕ) : Outcome Unit :=
  if len = n then .ok ()
  else do
    let takes ← sub n 1
    let got ← sub len 1
    .err s!"operator '{op}' takes {takes} argument(s), got {got}"

def col (op : String) (arr : List Json) (i : ℕ) : Outcome String :=
  .okOr (arr[i]?.bind Json.asStr) s!"operator '{op}': argument {i} must be a column name"

section
variable (api : DatumApi)

def columnType (schema : Schema) (name : String) : Outcome PrimitiveType :=
  match schema.fieldByName name with
  | none => .err s!"filter: column '{name}' is not in the table schema"
  | some field =>
    match field.fieldType with
    | .primitive p => .ok p
    | .nested other =>
      .err (s!"filter: column '{name}' has non-primitive type {other}; " ++
        "only primitive columns are filterable")

def datum (v : Json) (ty : PrimitiveType) (col : String) : Outcome Datum :=
  let bad (want : String) : String :=
    s!"filter: column '{col}' is {api.typeText ty}, expected a {want} literal, " ++
      s!"got {v.text api.floatText}"
  let mapErr (e : String) : String := s!"filter: {col}: {e}"
  match ty with
  | .boolean => .okOr (v.asBool.map .bool) (bad "boolean")
  | .int => .okOr ((v.asI64.bind toI32).map .int) (bad "32-bit integer")
  | .long => .okOr (v.asI64.map .long) (bad "integer")
  | .float => .okOr (v.asF64.map fun f => .float f.toFloat32) (bad "number")
  | .double => .okOr (v.asF64.map .double) (bad "number")
  | .string => .okOr (v.asStr.map .string) (bad "string")
  | .date =>
    match v with
    | .number n => .okOr ((n.asI64.bind toI32).map .date) (bad "day count")
    | .string s => .ofExcept (api.dateFromStr s) mapErr
    | _ => .err (bad "date")
  | .time =>
    match v with
    | .number n => do .ofExcept (api.timeMicros (← .unwrap n.asI64)) mapErr
    | .string s => .ofExcept (api.timeFromStr s) mapErr
    | _ => .err (bad "time")
  | .timestamp =>
    match v with
    | .number n => do pure (.timestampMicros (← .unwrap n.asI64))
    | .string s => .ofExcept (api.timestampFromStr s) mapErr
    | _ => .err (bad "timestamp")
  | .timestamptz =>
    match v with
    | .number n => do pure (.timestamptzMicros (← .unwrap n.asI64))
    | .string s => .ofExcept (api.timestamptzFromStr s) mapErr
    | _ => .err (bad "timestamptz")
  | .timestampNs => .okOr (v.asI64.map .timestampNanos) (bad "nanosecond timestamp")
  | .timestamptzNs => .okOr (v.asI64.map .timestamptzNanos) (bad "nanosecond timestamptz")
  | .uuid => do .ofExcept (api.uuidFromStr (← .okOr v.asStr (bad "uuid string"))) mapErr
  | .decimal _ _ =>
    match v with
    | .string s => .ofExcept (api.decimalFromStr s) mapErr
    | .number n => .ofExcept (api.decimalFromStr (n.text api.floatText)) mapErr
    | _ => .err (bad "decimal")
  | .binary | .fixed _ =>
    .err (s!"filter: column '{col}' is {api.typeText ty}; " ++
      "binary/fixed columns are not supported by the filter DSL")

variable (ops : PredicateOps) (schema : Schema)

/-- One node of `build`. `built` holds `build` of each element of `arr`; an arm looks only
at the elements that the source recurses into, in its order. -/
def buildNode (arr : List Json) (built : List (Outcome Predicate)) : Outcome Predicate :=
  match arr.head?.bind Json.asStr with
  | none => .err s!"filter node needs a string operator, got {(Json.array arr).text api.floatText}"
  | some s =>
    let op := toAsciiLowercase s
    match arm op with
    | some .alwaysTrue => .ok .alwaysTrue
    | some .alwaysFalse => .ok .alwaysFalse
    | some .logical =>
      if arr.length < 3 then .err s!"operator '{op}' needs at least two operands"
      else do
        let acc ← (← .unwrap (built.drop 1).head?)
        (built.drop 2).foldlM (fun acc next => do
          let p ← next
          pure (if op = "and" then ops.and acc p else ops.or acc p)) acc
    | some .not => do
      need op arr.length 2
      pure (ops.negate (← (← index built 1)))
    | some .isNull => do
      need op arr.length 2
      pure (Reference.isNull ⟨← col op arr 1⟩)
    | some .notNull => do
      need op arr.length 2
      pure (Reference.isNotNull ⟨← col op arr 1⟩)
    | some .isNan => do
      need op arr.length 2
      pure (Reference.isNan ⟨← col op arr 1⟩)
    | some .notNan => do
      need op arr.length 2
      pure (Reference.isNotNan ⟨← col op arr 1⟩)
    | some .membership => do
      need op arr.length 3
      let name ← col op arr 1
      let ty ← columnType schema name
      let items ← .okOr (← index arr 2).asArray
        s!"operator '{op}': third argument must be a JSON array"
      let datums ← items.mapM (datum api · ty name)
      pure (membership op ⟨name⟩ datums)
    | some .comparison => do
      need op arr.length 3
      let name ← col op arr 1
      let ty ← columnType schema name
      let d ← datum api (← index arr 2) ty name
      pure (comparison op ⟨name⟩ d)
    | none => .err s!"unknown filter operator '{op}'"

mutual
def build : Json → Outcome Predicate
  | .array arr => buildNode api ops schema arr (buildEach arr)
  | v => .err s!"filter node must be a JSON array, got {v.text api.floatText}"

def buildEach : List Json → List (Outcome Predicate)
  | [] => []
  | v :: vs => build v :: buildEach vs
end

/-- `parseJson` is `serde_json::from_str`. -/
def parseFilter (parseJson : String → Except String Json) (json : String) :
    Outcome Predicate := do
  build api ops schema (← .ofExcept (parseJson json) fun e => s!"filter is not JSON: {e}")

end
end IcebergRs.Filter
