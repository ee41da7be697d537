import Vgi.Arrow.Array

/-! The wire form of Filter Encoding v2: the JSON document of a filter batch, its predicates,
updates and expressions, and the decoders that read them.
-/

namespace Vgi.Pushdown

open Arrow Lib

def encodingName : String := "vgi.filters.v2"
def versionName : String := "2"
def semanticsName : String := "vgi.duckdb.standard.v1"
def noContext : String := "vgi.none.v1"
def sessionContext : String := "vgi.duckdb.session.v1"
def maxJson : Nat := 2 ^ 20
def maxPayload : Nat := 16 * 2 ^ 20
def maxDepth : Nat := 64
def maxNodes : Nat := 10000
def maxPredicates : Nat := 1024
def maxIds : Nat := 4096

inductive Number where
  | posInt (value : Nat)
  | negInt (value : Int)
  | float (bits : Nat)
deriving DecidableEq

/-- A JSON value. An object's keys are distinct. -/
inductive Value where
  | null
  | bool (value : Bool)
  | number (value : Number)
  | string (value : String)
  | array (items : List Value)
  | object (entries : List (String × Value))

namespace Value

/-- `Value::get` with a key: only an object has members. -/
def get (key : String) : Value → Option Value
  | object entries => entries.lookup key
  | _ => none

def asStr : Value → Option String
  | string value => some value
  | _ => none

def asU64 : Value → Option Nat
  | number (.posInt value) => some value
  | _ => none

def isObject : Value → Bool
  | object _ => true
  | _ => false

/-- The members a derived struct reader sees, one per declared field. It accepts an object
without unknown keys and, as every derived reader does, an array in declaration order.
-/
def structMembers (fields : List String) : Value → Except String (List (Option Value))
  | object entries =>
    if entries.all (fun entry => entry.1 ∈ fields) then
      .ok (fields.map fun field => entries.lookup field)
    else
      .error "unknown field"
  | array items =>
    if items.length ≤ fields.length then
      .ok (fields.zipIdx.map fun field => items[field.2]?)
    else
      .error "invalid length"
  | _ => .error "invalid type"

def required {α : Type} (read : Value → Except String α) : Option Value → Except String α
  | some value => read value
  | none => .error "missing field"

/-- An optional member: absent and `null` are both `None`. -/
def optional {α : Type} (read : Value → Except String α)
    : Option Value → Except String (Option α)
  | none => .ok none
  | some null => .ok none
  | some value => (read value).map some

def readString (value : Value) : Except String String :=
  okOr "invalid type, expected a string" value.asStr

def readU64 (value : Value) : Except String Nat := okOr "invalid type, expected u64" value.asU64

end Value

inductive Document where
  | snapshot (encoding semantics : String) (predicates : List Value)
  | delta (encoding semantics : String) (updates : List Value)

/-- The identity of an extension function or of a runtime-filter algorithm. -/
structure Identity where
  nameSpace : String
  name : String
  version : Nat

inductive WireFunction where
  | standard (name : String)
  | extension (identity : Identity)

inductive WireSet where
  | literal (valueRef : Nat)
  | external (batchIndex columnIndex : Nat) (columnName : String)

inductive WireExpr where
  | columnRef (columnIndex : Nat) (columnName : String)
  | fieldRef (expression : WireExpr) (fieldIndex : Nat) (fieldName : String)
  | literal (valueRef : Nat)
  | comparison (op : String) (left right : WireExpr)
  | and (children : List WireExpr)
  | or (children : List WireExpr)
  | not (expression : WireExpr)
  | isNull (expression : WireExpr) (negated : Bool)
  | inSet (expression : WireExpr) (set : WireSet) (negated : Bool)
  | cast (expression : WireExpr) (typeRef : Nat)
  | arithmetic (op : String) (left right : WireExpr)
  | negate (expression : WireExpr)
  | call (function : WireFunction) (arguments : List WireExpr) (options : Option Value)
  | runtimeFilter (algorithm : Identity) (input : WireExpr) (artifactRef : Nat)
      (nullHandling : String)

structure WirePredicate where
  id : String
  revision : Nat
  mode : String
  source : String
  expression : WireExpr

structure WireUpdate where
  operation : String
  id : String
  revision : Nat
  mode : Option String
  source : Option String
  expression : Option WireExpr

/-- The readers outside this module: base64, Arrow IPC and JSON. A text or a byte string is
known only through what they return for it.
-/
structure Decoders (Text Bytes : Type) where
  b64Decode : Text → Option Bytes
  len : Bytes → Nat
  readSchema : Bytes → Result Schema
  readBatch : Bytes → Result RecordBatch
  documentFromStr : String → Except String Document
  wireExprFromValue : Value → Except String WireExpr

def jsonError (error : String) : RpcError := valueError s!"invalid filter JSON: {error}"

variable {Text Bytes : Type} (dec : Decoders Text Bytes)

def WirePredicate.fromValue (value : Value) : Except String WirePredicate :=
  do
    let members ← value.structMembers ["id", "revision", "mode", "source", "expression"]
    let id ← Value.required Value.readString (members.getD 0 none)
    let revision ← Value.required Value.readU64 (members.getD 1 none)
    let mode ← Value.required Value.readString (members.getD 2 none)
    let source ← Value.required Value.readString (members.getD 3 none)
    let expression ← Value.required dec.wireExprFromValue (members.getD 4 none)
    pure { id, revision, mode, source, expression }

def WireUpdate.fromValue (value : Value) : Except String WireUpdate :=
  do
    let members ← value.structMembers
      ["operation", "id", "revision", "mode", "source", "expression"]
    let operation ← Value.required Value.readString (members.getD 0 none)
    let id ← Value.required Value.readString (members.getD 1 none)
    let revision ← Value.required Value.readU64 (members.getD 2 none)
    let mode ← Value.optional Value.readString (members.getD 3 none)
    let source ← Value.optional Value.readString (members.getD 4 none)
    let expression ← Value.optional dec.wireExprFromValue (members.getD 5 none)
    pure { operation, id, revision, mode, source, expression }

/-- An update written as an object shows its id and revision under their keys. -/
theorem WireUpdate.get_of_isObject {value} {update}
    (object : value.isObject = true) (read : WireUpdate.fromValue dec value = .ok update)
    : (value.get "id").bind Value.asStr = some update.id
      ∧ (value.get "revision").bind Value.asU64 = some update.revision := by
  cases value with
  | object entries =>
    simp only [WireUpdate.fromValue, Value.structMembers, bind_eq_ok, pure_eq_ok] at read
    obtain ⟨members, split, operation, _, id, hid, revision, hrevision, _, _, _, _, _, _, rfl⟩ :=
      read
    split at split
    · cases split
      constructor
      · cases found : entries.lookup "id" <;>
          simp_all [Value.required, Value.readString, Value.get]
      · cases found : entries.lookup "revision" <;>
          simp_all [Value.required, Value.readU64, Value.get]
    · cases split
  | _ => simp [Value.isObject] at object

end Vgi.Pushdown
