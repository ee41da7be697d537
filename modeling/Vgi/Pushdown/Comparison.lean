import Vgi.Pushdown.Expr

/-! SQL comparison of arrays. Floats are compared with DuckDB's order, in which signed zeros
are equal and every NaN is equal and above all other values; nested values go through a
comparator and the rest through Arrow's typed kernels.
-/

namespace Vgi.Pushdown

open Arrow Lib CompareOp

/-- An IEEE binary format: the weight of its sign bit and the bits of positive infinity. -/
structure FloatFormat where
  signWeight : Nat
  infinity : Nat

def float32Format : FloatFormat := { signWeight := 2 ^ 31, infinity := 0x7f800000 }

def float64Format : FloatFormat := { signWeight := 2 ^ 63, infinity := 0x7ff0000000000000 }

namespace FloatFormat

variable (format : FloatFormat)

def magnitude (bits : Nat) : Nat := bits % format.signWeight

def isNan (bits : Nat) : Bool := format.infinity < format.magnitude bits

/-- Where a number lies: values other than NaN are ordered by sign and magnitude, and both
zeros lie at zero.
-/
def position (bits : Nat) : Int :=
  if bits / format.signWeight % 2 = 1 then -(format.magnitude bits : Int)
  else format.magnitude bits

variable (left right : Nat)

/-- The machine comparisons, which are all false on NaN. -/
def machineEq : Bool :=
  !format.isNan left && !format.isNan right && format.position left = format.position right

def machineLt : Bool :=
  !format.isNan left && !format.isNan right && format.position left < format.position right

def machineLe : Bool :=
  !format.isNan left && !format.isNan right && format.position left ≤ format.position right

/-- The closures of `float_comparator`. -/
def compareValues (op : CompareOp) (a b : Nat) : Bool :=
  match op with
  | .eq | .notDistinctFrom => format.machineEq a b || (format.isNan a && format.isNan b)
  | .ne | .distinctFrom => !(format.machineEq a b || (format.isNan a && format.isNan b))
  | .lt => format.machineLt a b || (!format.isNan a && format.isNan b)
  | .le => format.machineLe a b || format.isNan b
  | .gt => format.machineLt b a || (format.isNan a && !format.isNan b)
  | .ge => format.machineLe b a || format.isNan a

/-- The order those closures decide: NaN last, numbers by position. -/
def order : Ordering :=
  compareLex (compareOn format.isNan)
    (compareOn fun bits => if format.isNan bits then 0 else format.position bits) left right

theorem compareValues_eq (op left right)
    : format.compareValues op left right = op.holds (format.order left right) := by
  have orders : format.order left right
      = match format.isNan left, format.isNan right with
        | true, true => .eq
        | true, false => .gt
        | false, true => .lt
        | false, false => compare (format.position left) (format.position right) := by
    unfold order compareLex compareOn
    cases leftNan : format.isNan left <;> cases rightNan : format.isNan right <;>
      simp [leftNan, rightNan, compare, compareOfLessAndEq]
  rw [orders]
  cases leftNan : format.isNan left <;> cases rightNan : format.isNan right
  case false.false =>
    rcases lt_trichotomy (format.position left) (format.position right) with less | same | more
    · have comparison := Int.compare_eq_lt.mpr less
      cases op <;> simp [compareValues, machineEq, machineLt, machineLe, leftNan, rightNan,
        holds, comparison] <;> omega
    · have comparison := Int.compare_eq_eq.mpr same
      cases op <;> simp [compareValues, machineEq, machineLt, machineLe, leftNan, rightNan,
        holds, comparison] <;> omega
    · have comparison := Int.compare_eq_gt.mpr more
      cases op <;> simp [compareValues, machineEq, machineLt, machineLe, leftNan, rightNan,
        holds, comparison] <;> omega
  all_goals
    cases op <;> simp [compareValues, machineEq, machineLt, machineLe, leftNan, rightNan, holds]

theorem order_trans : Std.TransCmp format.order := by
  unfold order
  infer_instance

end FloatFormat

/-- The float kernels: values by the format's closures, NULLs afterwards. -/
def floatCompare (format : FloatFormat) (left right : ArrayRef) (op : CompareOp)
    : Except String BooleanArray :=
  broadcastRows
    (fun l r => op.withNulls l r (format.compareValues op l.floatBits r.floatBits))
    left.cells right.cells

variable (kernels : Kernels)

variable (left right : ArrayRef) (op : CompareOp)

/-- One-row sides are passed to the typed kernels as scalars. -/
def arrowCompare : Except String BooleanArray :=
  kernels.compare op left right (left.len = 1) (right.len = 1)

/-- The verdict on two slots of nested values, read before their NULLs are. -/
def nestedVerdict (ordering : Ordering) (left right : Cell) : Bool :=
  op.holds ordering
    || match op with
      | .distinctFrom => left.isNull != right.isNull
      | .notDistinctFrom => left.isNull && right.isNull
      | _ => false

def nestedCompare : Except String BooleanArray := do
  rejectIf (left.len ≠ right.len ∧ left.len ≠ 1 ∧ right.len ≠ 1) "incompatible lengths"
  let compare ← kernels.makeComparator left right
  broadcastRows
    (fun l r : Cell × Nat => op.withNulls l.1 r.1 (nestedVerdict op (compare l.2 r.2) l.1 r.1))
    left.cells.zipIdx right.cells.zipIdx

def sqlCompare : Except String BooleanArray :=
  if left.dataType = .flat .float32 ∧ right.dataType = .flat .float32 then
    floatCompare float32Format left right op
  else if left.dataType = .flat .float64 ∧ right.dataType = .flat .float64 then
    floatCompare float64Format left right op
  else if left.dataType.isNested || right.dataType.isNested then
    nestedCompare kernels left right op
  else
    arrowCompare kernels left right op

/-- An Arrow failure as the filter module reports it. -/
def cvt (error : String) : RpcError := runtimeError s!"filter: {error}"

/-- Dictionaries are compared by their values. -/
def dictionaryValues (array : ArrayRef) : Result ArrayRef :=
  match array.dataType with
  | .dictionary _ _ => (kernels.cast array array.dataType.logicalValueType).mapError cvt
  | _ => .ok array

def compareArrays : Result BooleanArray := do
  let left ← dictionaryValues kernels left
  let right ← dictionaryValues kernels right
  (sqlCompare kernels left right op).mapError cvt

/-- The SQL order of an ordered type, given Arrow's orders for the types it compares. -/
def valueOrder (order : FlatType → Cell → Cell → Ordering) (type : FlatType)
    (left right : Cell) : Ordering :=
  match type with
  | .float32 => float32Format.order left.floatBits right.floatBits
  | .float64 => float64Format.order left.floatBits right.floatBits
  | other => order other left right

section

variable {kernels} {order : FlatType → Cell → Cell → Ordering} (lawful : kernels.Lawful order)

include lawful

variable {type : FlatType} (ordered : type.ordered = true)

include ordered

theorem valueOrder_trans : Std.TransCmp (valueOrder order type) := by
  have arrow := lawful.total type ordered
  have floats : ∀ format : FloatFormat, Std.TransCmp fun left right : Cell =>
      format.order left.floatBits right.floatBits := by
    intro format
    have := format.order_trans
    exact {
      eq_swap := this.eq_swap
      isLE_trans := this.isLE_trans
    }
  unfold valueOrder
  split
  · exact floats float32Format
  · exact floats float64Format
  · exact arrow

variable {left right}

theorem sqlCompare_of_ordered (leftType : left.dataType = .flat type)
    (rightType : right.dataType = .flat type) (op)
    : sqlCompare kernels left right op
      = broadcastRows (compareCells (valueOrder order type) op) left.cells right.cells := by
  by_cases single : type = .float32
  · subst single
    simp only [sqlCompare, leftType, rightType, floatCompare, FloatFormat.compareValues_eq]
    rfl
  by_cases double : type = .float64
  · subst double
    simp only [sqlCompare, leftType, rightType, floatCompare, FloatFormat.compareValues_eq]
    rfl
  have typed := lawful.compare type op left right ordered single double leftType rightType
  have sameOrder : valueOrder order type = order type := by
    unfold valueOrder
    split
    · exact absurd rfl single
    · exact absurd rfl double
    · rfl
  rw [sameOrder, ← typed]
  simp [sqlCompare, leftType, rightType, single, double, DataType.isNested, arrowCompare]

omit ordered in
theorem dictionaryValues_eq (array) : dictionaryValues kernels array = .ok array.unpacked := by
  obtain ⟨type, cells⟩ := array
  cases type with
  | dictionary key value =>
    simp only [dictionaryValues]
    rw [lawful.unpack ⟨.dictionary key value, cells⟩ key value rfl]
    rfl
  | _ => simp [dictionaryValues, ArrayRef.unpacked, DataType.logicalValueType, Cell.unpack]

/-- On values of one ordered type, comparison is row by row on the unpacked slots. -/
theorem compareArrays_of_ordered (leftType : left.dataType.logicalValueType = .flat type)
    (rightType : right.dataType.logicalValueType = .flat type) (op)
    : compareArrays kernels left right op
      = (broadcastRows (compareCells (valueOrder order type) op) left.unpacked.cells
          right.unpacked.cells).mapError cvt := by
  rw [compareArrays, dictionaryValues_eq lawful, ok_bind, dictionaryValues_eq lawful, ok_bind,
    sqlCompare_of_ordered lawful ordered leftType rightType]

theorem compareArrays_singleton {leftType rightType}
    (logicalLeft : leftType.logicalValueType = .flat type)
    (logicalRight : rightType.logicalValueType = .flat type) (left right op)
    : compareArrays kernels ⟨leftType, [left]⟩ ⟨rightType, [right]⟩ op
      = .ok [compareCells (valueOrder order type) op (Cell.unpack leftType left)
          (Cell.unpack rightType right)] := by
  rw [compareArrays_of_ordered lawful ordered logicalLeft logicalRight]
  rfl

end

end Vgi.Pushdown
