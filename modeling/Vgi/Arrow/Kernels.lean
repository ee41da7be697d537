import Mathlib.Data.Int.Order.Basic
import Vgi.Arrow.Array
import Vgi.Lib.Kleene

/-! The Arrow compute kernels that filters call. The Boolean ones are given here; casts,
arithmetic and comparisons are parameters, with the laws that filter pruning relies on.
-/

namespace Vgi.Arrow

open Lib

inductive CompareOp where
  | eq
  | ne
  | lt
  | le
  | gt
  | ge
  | distinctFrom
  | notDistinctFrom
deriving DecidableEq

inductive ArithmeticOp where
  | add
  | subtract
  | multiply
  | divide
  | modulo
deriving DecidableEq

/-- The operator's verdict on two values in this order. -/
def CompareOp.holds : CompareOp → Ordering → Bool
  | .eq, ordering => ordering.isEq
  | .ne, ordering => !ordering.isEq
  | .lt, ordering => ordering.isLT
  | .le, ordering => !ordering.isGT
  | .gt, ordering => ordering.isGT
  | .ge, ordering => !ordering.isLT
  | .distinctFrom, ordering => !ordering.isEq
  | .notDistinctFrom, ordering => ordering.isEq

/-- A verdict on two slots becomes a SQL outcome: NULL operands decide the null-safe
operators and make the others NULL.
-/
def CompareOp.withNulls (op : CompareOp) (left right : Cell) (verdict : Bool) : Option Bool :=
  match op with
  | .distinctFrom =>
    some ((left.isNull != right.isNull) || (!left.isNull && !right.isNull && verdict))
  | .notDistinctFrom =>
    some ((left.isNull && right.isNull) || (!left.isNull && !right.isNull && verdict))
  | _ => if left.isNull || right.isNull then none else some verdict

def compareCells (order : Cell → Cell → Ordering) (op : CompareOp) (left right : Cell)
    : Option Bool :=
  op.withNulls left right (op.holds (order left right))

/-- Apply a row function with a one-row side repeated for every row of the other. -/
def broadcastRows {α β γ : Type} (f : α → β → γ) : List α → List β → Except String (List γ)
  | [left], right => .ok (right.map (f left))
  | left, [right] => .ok (left.map (f · right))
  | left, right =>
    if left.length = right.length then .ok (List.zipWith f left right)
    else .error "incompatible lengths"

@[simp] theorem broadcastRows_singleton {α β γ : Type} (f : α → β → γ) (left right)
    : broadcastRows f [left] [right] = .ok [f left right] := rfl

variable (f : Option Bool → Option Bool → Option Bool)

/-- Both Kleene kernels refuse arrays of different lengths. -/
def zipBoolean (left right : BooleanArray)
    : Except String BooleanArray :=
  if left.length = right.length then .ok (List.zipWith f left right)
  else .error "Cannot perform bitwise operation on arrays of different length"

def andKleene : BooleanArray → BooleanArray → Except String BooleanArray := zipBoolean Kleene.and

def orKleene : BooleanArray → BooleanArray → Except String BooleanArray := zipBoolean Kleene.or

def notKernel (values : BooleanArray) : BooleanArray := values.map Kleene.not

def isNullKernel (array : ArrayRef) : BooleanArray :=
  array.cells.map fun cell => some (cell.isLogicalNull array.dataType)

def isNotNullKernel (array : ArrayRef) : BooleanArray :=
  array.cells.map fun cell => some !(cell.isLogicalNull array.dataType)

@[simp] theorem zipBoolean_singleton (left right)
    : zipBoolean f [left] [right] = .ok [f left right] := rfl

/-- Casts, arithmetic, comparison and selection, as functions of whole arrays. -/
structure Kernels where
  cast : ArrayRef → DataType → Except String ArrayRef
  /-- Select row zero this many times. -/
  takeFirst : ArrayRef → Nat → Except String ArrayRef
  /-- The typed comparison kernels; a flag marks a side passed as a scalar. -/
  compare : CompareOp → (left right : ArrayRef) → (leftScalar rightScalar : Bool)
    → Except String BooleanArray
  /-- The comparator of two nested arrays, by row indices. -/
  makeComparator : ArrayRef → ArrayRef → Except String (Nat → Nat → Ordering)
  numeric : ArithmeticOp → ArrayRef → ArrayRef → Except String ArrayRef
  negate : ArrayRef → Except String ArrayRef

/-- The scalar types with a SQL order, dictionaries aside. -/
def FlatType.ordered : FlatType → Bool
  | .boolean | .int8 | .int16 | .int32 | .int64 | .uint8 | .uint16 | .uint32 | .uint64
  | .float32 | .float64 | .decimal32 .. | .decimal64 .. | .decimal128 .. | .decimal256 ..
  | .utf8 | .largeUtf8 | .utf8View | .binary | .largeBinary | .binaryView
  | .fixedSizeBinary _ | .date32 | .date64 | .time32 _ | .time64 _ | .timestamp ..
  | .duration _ => true
  | .null | .float16 | .interval _ => false

/-- A dictionary array with its values written out. -/
def ArrayRef.unpacked (array : ArrayRef) : ArrayRef :=
  { dataType := array.dataType.logicalValueType
    cells := array.cells.map (Cell.unpack array.dataType) }

/-- What pruning assumes of the kernels: comparisons of one ordered type are row by row, in a
total order of its values; casting a dictionary to its value type unpacks it; selecting a row
repeats it.
-/
structure Kernels.Lawful (kernels : Kernels) (order : FlatType → Cell → Cell → Ordering)
    : Prop where
  compare : ∀ (type : FlatType) (op : CompareOp) (left right : ArrayRef),
    type.ordered = true → type ≠ .float32 → type ≠ .float64
    → left.dataType = .flat type → right.dataType = .flat type
    → kernels.compare op left right (left.len = 1) (right.len = 1)
      = broadcastRows (compareCells (order type) op) left.cells right.cells
  total : ∀ type : FlatType, type.ordered = true → Std.TransCmp (order type)
  boolean : ∀ left right : Cell,
    order .boolean left right = Ord.compare left.boolValue right.boolValue
  unpack : ∀ (array : ArrayRef) (key value : DataType), array.dataType = .dictionary key value
    → kernels.cast array array.dataType.logicalValueType = .ok array.unpacked
  takeFirst : ∀ (array result : ArrayRef) (cell : Cell) (count : Nat), array.cells = [cell]
    → kernels.takeFirst array count = .ok result
    → result = { array with cells := List.replicate count cell }
  takesOrdered : ∀ (array : ArrayRef) (type : FlatType) (count : Nat), type.ordered = true
    → array.dataType.logicalValueType = .flat type → array.len = 1
    → (kernels.takeFirst array count).isOk = true

end Vgi.Arrow
