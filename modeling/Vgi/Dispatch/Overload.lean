import Mathlib.Data.Int.Order.Basic
import Vgi.Dispatch.Arguments
import Vgi.Lib.FirstBest

/-! Overload resolution. Of several functions of one name the one whose parameters fit the
call best is picked: first by the number of arguments, then by a score of their types.
-/

namespace Vgi.Dispatch

open Arrow Lib

def argTypeToArrow : String → DataType
  | "int8" => .flat .int8
  | "int16" => .flat .int16
  | "int32" => .flat .int32
  | "int64" => .flat .int64
  | "uint8" => .flat .uint8
  | "uint16" => .flat .uint16
  | "uint32" => .flat .uint32
  | "uint64" => .flat .uint64
  | "float32" | "float" => .flat .float32
  | "float64" | "double" => .flat .float64
  | "bool" | "boolean" => .flat .boolean
  | "varchar" | "string" | "utf8" => .flat .utf8
  | "blob" | "binary" => .flat .binary
  | _ => .flat .null

mutual

/-- Equality of types that ignores the names and the nullability of nested fields, and the
width of list offsets.
-/
def nestedStructurallyEqual : DataType → DataType → Bool
  | .listLike layout (.mk n x b), .listLike layout' (.mk m y c) =>
    match layout, layout' with
    | .list, .list | .largeList, .largeList | .list, .largeList | .largeList, .list =>
      nestedStructurallyEqual x y
    | .fixedSizeList size, .fixedSizeList size' => size = size' && nestedStructurallyEqual x y
    | .map _, .map _ => nestedStructurallyEqual x y
    | _, _ => DataType.listLike layout (.mk n x b) = DataType.listLike layout' (.mk m y c)
  | .struct fields, .struct fields' => fieldsStructurallyEqual fields fields'
  | left, right => left = right

def fieldsStructurallyEqual : List Field → List Field → Bool
  | [], [] => true
  | .mk _ x _ :: fields, .mk _ y _ :: fields' =>
    nestedStructurallyEqual x y && fieldsStructurallyEqual fields fields'
  | _, _ => false

end

def isInteger : DataType → Bool
  | .flat .int8 | .flat .int16 | .flat .int32 | .flat .int64 => true
  | .flat .uint8 | .flat .uint16 | .flat .uint32 | .flat .uint64 => true
  | _ => false

def isFloatOrDecimal : DataType → Bool
  | .flat .float16 | .flat .float32 | .flat .float64 => true
  | .flat (.decimal128 ..) | .flat (.decimal256 ..) => true
  | _ => false

def isString : DataType → Bool
  | .flat .utf8 | .flat .largeUtf8 => true
  | _ => false

def isBinary : DataType → Bool
  | .flat .binary | .flat .largeBinary => true
  | _ => false

def sameFamily (a b : DataType) : Bool :=
  (isInteger a && isInteger b) || (isFloatOrDecimal a && isFloatOrDecimal b)
    || (isString a && isString b) || (isBinary a && isBinary b)

/-- Exact is 2, of the same family 1, an ANY parameter 0; otherwise the candidate is out. -/
def scoreType (actual : DataType) (spec : ArgSpec) : Option Int :=
  let expected := spec.arrowDataType.getD (argTypeToArrow spec.arrowType)
  if (spec.arrowDataType.isNone ∧ (spec.arrowType = "any" ∨ spec.arrowType = ""))
      ∨ expected = .null then some 0
  else if actual = expected then some 2
  else if nestedStructurallyEqual actual expected then some 2
  else if sameFamily actual expected then some 1
  else none

def scoreAll (pairs : List (Option DataType × ArgSpec)) : Option Int :=
  pairs.foldlM
    (fun score pair => match pair.1 with
      | some actual => (scoreType actual pair.2).map (score + ·)
      | none => some score)
    0

def scoreColumns (nonconst : List ArgSpec) (varargs : Option ArgSpec) (schema : Schema)
    : Option Int :=
  match varargs.filter (!·.isConst) with
  | some spec => scoreAll (schema.fields.map fun field => (some field.dataType, spec))
  | none =>
    scoreAll (nonconst.zipIdx.map fun (spec, index) =>
      ((schema.fields[index]?).map Field.dataType, spec))

/-- The number of arguments fits the candidate. -/
def countFits (const nonconst : List ArgSpec) (varargs : Option ArgSpec) (numPos : Nat)
    (inputSchema : Option Schema) : Bool :=
  let inputFields := (inputSchema.map (·.fields.length)).getD 0
  match varargs with
  | some spec =>
    if spec.isConst then numPos ≥ const.length - 1
    else
      numPos ≥ const.length && (inputSchema.isNone || inputFields ≥ nonconst.length - 1)
  | none =>
    numPos = const.length
      && (inputSchema.isNone || nonconst.isEmpty || inputFields = nonconst.length)

/-- The positional parameters of a blended candidate are the columns of the input. -/
def scoreBlended (nonconst : List ArgSpec) (varargs : Option ArgSpec) (schema : Schema)
    : Option Int :=
  let fits : Bool := match varargs with
    | some _ => schema.fields.length ≥ (nonconst.filter (!·.isVarargs)).length
    | none => schema.fields.length = nonconst.length
  if fits then scoreColumns nonconst varargs schema else none

def scoreCandidate (specs : List ArgSpec) (blended : Bool) (args : Arguments)
    (inputSchema : Option Schema) : Option Int := do
  let const := specs.filter fun spec => spec.position ≥ 0 && spec.isConst
  let nonconst := specs.filter fun spec => spec.position ≥ 0 && !spec.isConst
  let varargs := specs.find? (·.isVarargs)
  if blended then
    match inputSchema with
    | some schema => scoreBlended nonconst varargs schema
    | none => some 0
  else if countFits const nonconst varargs args.numPositional inputSchema then
    let fixed ← scoreAll ((const.filter (!·.isVarargs)).zipIdx.map fun (spec, index) =>
      ((args.arg index).map ArrayRef.dataType, spec))
    let rest ← match varargs.filter fun spec => spec.isConst && spec.position ≥ 0 with
      | some spec =>
        scoreAll ((List.range' spec.position.toNat (args.numPositional - spec.position.toNat)).map
          fun position => ((args.arg position).map ArrayRef.dataType, spec))
      | none => some 0
    let columns ← match inputSchema with
      | some schema => scoreColumns nonconst varargs schema
      | none => some 0
    some (fixed + rest + columns)
  else none

/-- The index of the first best candidate. A single one is taken without a look at the call. -/
def resolveOverloadBlended (candidates : List (List ArgSpec × Bool)) (args : Arguments)
    (inputSchema : Option Schema) : Option Nat :=
  if candidates.length = 1 then some 0
  else
    (firstBest (candidates.map fun candidate =>
      scoreCandidate candidate.1 candidate.2 args inputSchema)).map Prod.fst

def resolveOverload (candidates : List (List ArgSpec)) (args : Arguments)
    (inputSchema : Option Schema) : Option Nat :=
  resolveOverloadBlended (candidates.map (·, false)) args inputSchema

/-- The candidate at this index is the only one, or it fits and no other one fits better, nor
does an earlier one fit as well.
-/
def Preferred (candidates : List (List ArgSpec)) (args : Arguments)
    (inputSchema : Option Schema) (index : Nat) : Prop :=
  (candidates.length = 1 ∧ index = 0)
  ∨ (candidates.length ≠ 1 ∧ ∃ score,
      IsFirstBest (candidates.map (scoreCandidate · false args inputSchema)) index score)

theorem resolveOverload_eq_some_iff {candidates args inputSchema index}
    : resolveOverload candidates args inputSchema = some index
      ↔ Preferred candidates args inputSchema index := by
  unfold resolveOverload resolveOverloadBlended Preferred
  simp only [List.length_map, List.map_map, Function.comp_def]
  by_cases single : candidates.length = 1
  · simp [single, eq_comm]
  · simp only [single, if_false, Option.map_eq_some_iff, Prod.exists, exists_and_right,
      exists_eq_right, firstBest_eq_some_iff, false_and, ne_eq, not_false_eq_true, true_and,
      false_or]

end Vgi.Dispatch
