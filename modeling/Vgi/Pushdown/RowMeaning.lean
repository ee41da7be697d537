import Vgi.Pushdown.Binding
import Vgi.Pushdown.Eval

/-! The SQL meaning of a filter expression on one row: its type over a schema, its value, and
the rows the evaluator refuses. Below it, kernels that work row by row, and the comparison of
arrays in terms of the comparison of values.
-/

namespace Vgi.Pushdown

open Arrow Lib List

/-- What Arrow does with single values: the casts and comparisons it has, and their results. -/
structure RowKernels where
  /-- Whether a cast succeeds, on whatever values; not given where it depends on them, as for
  dictionaries with small keys.
  -/
  castable : (source target : DataType) → Option Bool
  castCell : (source target : DataType) → Cell → Cell
  comparable : (left right : DataType) → Bool
  order : (left right : DataType) → Cell → Cell → Ordering
  numeric : ArithmeticOp → Cell → Cell → Cell
  negate : Cell → Cell

/-- The outcome of a comparison, given which operands are NULL and the verdict on others. -/
def outcomeOfNulls (op : CompareOp) (left right verdict : Bool) : Option Bool :=
  match op with
  | .distinctFrom => some ((left != right) || (!left && !right && verdict))
  | .notDistinctFrom => some ((left && right) || (!left && !right && verdict))
  | _ => if left || right then none else some verdict

def bothOf (type left right : DataType) : Bool := left = type && right = type

variable (rows : RowKernels)

/-- The order of two values: floats in SQL's order, others in Arrow's. -/
def RowKernels.valueOrder (leftType rightType : DataType) (left right : Cell)
    : Ordering :=
  if bothOf (.flat .float32) leftType rightType then
    float32Format.order left.floatBits right.floatBits
  else if bothOf .float64 leftType rightType then
    float64Format.order left.floatBits right.floatBits
  else rows.order leftType rightType left right

def RowKernels.compares (left right : DataType) : Bool :=
  bothOf (.flat .float32) left right || bothOf .float64 left right || rows.comparable left right

def RowKernels.compare (leftType rightType : DataType) (op : CompareOp)
    (left right : Cell) : Option Bool :=
  outcomeOfNulls op (left.isLogicalNull leftType) (right.isLogicalNull rightType)
    (op.holds (rows.valueOrder leftType rightType left right))

/-- A cast to the same type changes nothing, a cast to Float64 fails on no value, a dictionary is
cast to its values by unpacking it, and the nested arrays that can be compared have validity
bitmaps of their own.
-/
structure RowKernels.Lawful : Prop where
  castSelf : ∀ type, rows.castable type type = some true ∧ rows.castCell type type = id
  castFloat : ∀ type, (rows.castable type .float64).isSome
  unpackable : ∀ key value, let type : DataType := .dictionary key value
    rows.castable type type.logicalValueType = some true
    ∧ rows.castCell type type.logicalValueType = Cell.unpack type
  ownNulls : ∀ left right, rows.comparable left right = true →
    (left.isNested || right.isNested) = true →
    left.canContainNullMask = true ∧ right.canContainNullMask = true

/-- Kernels that work row by row. Casts and comparisons that Arrow does not have fail whatever
the values; nothing is asked of a cast that fails on some values only.
-/
structure RowWise (kernels : Kernels) (rows : RowKernels) : Prop extends rows.Lawful where
  cast : ∀ array target, rows.castable array.dataType target = some true →
    kernels.cast array target
      = .ok ⟨target, array.cells.map (rows.castCell array.dataType target)⟩
  noCast : ∀ array target, rows.castable array.dataType target = some false →
    (kernels.cast array target).isOk = false
  takeFirst : ∀ type cell count,
    kernels.takeFirst ⟨type, [cell]⟩ count = .ok ⟨type, replicate count cell⟩
  compare : ∀ op left right, (left.dataType.isNested || right.dataType.isNested) = false →
    rows.comparable left.dataType right.dataType = true →
    kernels.compare op left right (left.len = 1) (right.len = 1)
      = broadcastRows
          (fun l r => outcomeOfNulls op (l.isLogicalNull left.dataType)
            (r.isLogicalNull right.dataType)
            (op.holds (rows.order left.dataType right.dataType l r)))
          left.cells right.cells
  noCompare : ∀ op left right, rows.comparable left.dataType right.dataType = false →
    (kernels.compare op left right (left.len = 1) (right.len = 1)).isOk = false
  comparator : ∀ left right, (left.dataType.isNested || right.dataType.isNested) = true →
    rows.comparable left.dataType right.dataType = true →
    ∃ compare, kernels.makeComparator left right = .ok compare
      ∧ ∀ i j l r, left.cells[i]? = some l → right.cells[j]? = some r →
        l.isNull = false → r.isNull = false →
        compare i j = rows.order left.dataType right.dataType l r
  noComparator : ∀ left right, rows.comparable left.dataType right.dataType = false →
    (kernels.makeComparator left right).isOk = false
  numeric : ∀ op left right, left.length = right.length →
    kernels.numeric op ⟨.float64, left⟩ ⟨.float64, right⟩
      = .ok ⟨.float64, zipWith (rows.numeric op) left right⟩
  negate : ∀ cells, kernels.negate ⟨.float64, cells⟩ = .ok ⟨.float64, cells.map rows.negate⟩

/-- The kernels that apply these functions row by row. -/
def RowKernels.kernels : Kernels where
  cast := fun array target =>
    if rows.castable array.dataType target = some true then
      .ok ⟨target, array.cells.map (rows.castCell array.dataType target)⟩
    else .error "Casting is not supported"
  takeFirst := fun array count =>
    match array.cells with
    | cell :: _ => .ok ⟨array.dataType, replicate count cell⟩
    | [] => if count = 0 then .ok array else .error "Out-of-bounds index 0"
  compare := fun op left right _ _ =>
    if rows.comparable left.dataType right.dataType then
      broadcastRows
        (fun l r => outcomeOfNulls op (l.isLogicalNull left.dataType)
          (r.isLogicalNull right.dataType)
          (op.holds (rows.order left.dataType right.dataType l r)))
        left.cells right.cells
    else .error "Invalid comparison operation"
  makeComparator := fun left right =>
    if rows.comparable left.dataType right.dataType then
      .ok fun i j => rows.order left.dataType right.dataType (left.cells.getD i .null)
        (right.cells.getD j .null)
    else .error "The data type is not supported"
  numeric := fun op left right => .ok ⟨.float64, zipWith (rows.numeric op) left.cells right.cells⟩
  negate := fun array => .ok ⟨.float64, array.cells.map rows.negate⟩

theorem RowKernels.Lawful.rowWise {rows} (lawful : rows.Lawful)
    : RowWise rows.kernels rows where
  toLawful := lawful
  cast := by
    intro array target castable
    simp only [kernels, castable, if_true]
  noCast := by
    intro array target castable
    simp only [kernels, castable]
    rfl
  takeFirst := fun _ _ _ => rfl
  compare := by
    intro op left right _ comparable
    simp only [kernels, comparable, if_true]
  noCompare := by
    intro op left right comparable
    simp only [kernels, comparable]
    rfl
  comparator := by
    intro left right _ comparable
    simp only [kernels, comparable]
    refine ⟨_, rfl, ?_⟩
    intro i j l r atLeft atRight _ _
    simp [atLeft, atRight]
  noComparator := by
    intro left right comparable
    simp only [kernels, comparable]
    rfl
  numeric := fun _ _ _ _ => rfl
  negate := fun _ => rfl

namespace RowKernels

def columnType (schema : Schema) (index : Nat) (name : String) (dataType : DataType)
    : Option DataType :=
  match resolveColumn schema index name with
  | .ok resolved =>
    if (schema.fields[resolved]?).any (·.dataType = dataType) then some dataType else none
  | .error _ => none

def fieldType (parent : DataType) (index : Nat) (name : String) (dataType : DataType)
    : Option DataType :=
  match parent with
  | .struct fields =>
    if (fields[index]?).any (fun field => field.name = name && field.dataType = dataType) then
      some dataType
    else none
  | _ => none

mutual

/-- The type an expression evaluates to over a schema, if it can be evaluated at all. -/
def typeOf (rows : RowKernels) (schema : Schema) : Expr → Option DataType
  | .column index name dataType => columnType schema index name dataType
  | .field expression index name dataType =>
    (typeOf rows schema expression).bind (fieldType · index name dataType)
  | .literal value => some value.dataType
  | .comparison _ left right =>
    match typeOf rows schema left, typeOf rows schema right with
    | some left, some right =>
      if rows.compares left.logicalValueType right.logicalValueType then some .boolean else none
    | _, _ => none
  | .and children =>
    if (typesOf rows schema children).all (· = some .boolean) then some .boolean else none
  | .or children =>
    if (typesOf rows schema children).all (· = some .boolean) then some .boolean else none
  | .not child => if typeOf rows schema child = some .boolean then some .boolean else none
  | .isNull expression _ => (typeOf rows schema expression).map fun _ => .boolean
  | .inSet expression values _ =>
    (typeOf rows schema expression).bind fun type =>
      if values.cells.isEmpty
          || rows.compares type.logicalValueType values.dataType.logicalValueType then
        some .boolean
      else none
  | .cast expression target =>
    (typeOf rows schema expression).bind fun type =>
      if rows.castable type target = some true then some target else none
  | .arithmetic _ left right =>
    match typeOf rows schema left, typeOf rows schema right with
    | some left, some right =>
      if rows.castable left .float64 = some true ∧ rows.castable right .float64 = some true then
        some .float64
      else none
    | _, _ => none
  | .negate expression =>
    (typeOf rows schema expression).bind fun type =>
      if rows.castable type .float64 = some true then some .float64 else none
  | .call function arguments =>
    if function ≠ .listContains
        ∧ typesOf rows schema arguments = [some .utf8, some .utf8] then some .boolean
    else none
  | .runtimeFilter => none

def typesOf (rows : RowKernels) (schema : Schema) : List Expr → List (Option DataType)
  | [] => []
  | child :: rest => typeOf rows schema child :: typesOf rows schema rest

end

/-- Whether the node can be cast is decided by its type. -/
def Steady (rows : RowKernels) (schema : Schema) : Expr → Prop
  | .cast expression target =>
    ∀ type ∈ typeOf rows schema expression, (rows.castable type target).isSome
  | _ => True

def columnOf (schema : Schema) (row : List Cell) (index : Nat) (name : String) : Cell :=
  match resolveColumn schema index name with
  | .ok resolved => row.getD resolved .null
  | .error _ => .null

/-- The value of IN: some listed value is equal. -/
def isIn (rows : RowKernels) (type listType : DataType) (cell : Cell) (listed : List Cell)
    : Option Bool :=
  listed.foldl (fun result item => Kleene.or result (rows.compare type listType .eq cell item))
    (some false)

def stringCall (function : StandardFunction) : List Cell → Option Bool
  | [value, pattern] =>
    if value.isNull || pattern.isNull then none
    else some (stringFunction function value.stringValue pattern.stringValue)
  | _ => none

mutual

/-- The value of an expression on a row. A Boolean value is TRUE, FALSE or NULL. -/
def valueOf (rows : RowKernels) (schema : Schema) (row : List Cell) : Expr → Cell
  | .column index name _ => columnOf schema row index name
  | .field expression index _ _ => (valueOf rows schema row expression).child index
  | .literal value => value.cells.headD .null
  | .comparison op left right =>
    let leftType := (typeOf rows schema left).getD .null
    let rightType := (typeOf rows schema right).getD .null
    .ofOption (rows.compare leftType.logicalValueType rightType.logicalValueType op
      ((valueOf rows schema row left).unpack leftType)
      ((valueOf rows schema row right).unpack rightType))
  | .and children =>
    .ofOption (((valuesOf rows schema row children).map Cell.toBool).foldl Kleene.and (some true))
  | .or children =>
    .ofOption (((valuesOf rows schema row children).map Cell.toBool).foldl Kleene.or (some false))
  | .not child => .ofOption (Kleene.not (valueOf rows schema row child).toBool)
  | .isNull expression negated =>
    let type := (typeOf rows schema expression).getD .null
    .bool (negated ^^ (valueOf rows schema row expression).isLogicalNull type)
  | .inSet expression values negated =>
    let type := (typeOf rows schema expression).getD .null
    let found := rows.isIn type.logicalValueType values.dataType.logicalValueType
      ((valueOf rows schema row expression).unpack type)
      (values.cells.map (Cell.unpack values.dataType))
    .ofOption (if negated then Kleene.not found else found)
  | .cast expression target =>
    rows.castCell ((typeOf rows schema expression).getD .null) target
      (valueOf rows schema row expression)
  | .arithmetic op left right =>
    rows.numeric op
      (rows.castCell ((typeOf rows schema left).getD .null) .float64 (valueOf rows schema row left))
      (rows.castCell ((typeOf rows schema right).getD .null) .float64
        (valueOf rows schema row right))
  | .negate expression =>
    rows.negate (rows.castCell ((typeOf rows schema expression).getD .null) .float64
      (valueOf rows schema row expression))
  | .call function arguments => .ofOption (stringCall function (valuesOf rows schema row arguments))
  | .runtimeFilter => .null

def valuesOf (rows : RowKernels) (schema : Schema) (row : List Cell) : List Expr → List Cell
  | [] => []
  | child :: rest => valueOf rows schema row child :: valuesOf rows schema row rest

end

mutual

/-- The row makes the evaluator fail: it has a NULL struct, and a field of it is read whose
layout has no validity bitmap to carry that NULL.
-/
def refuses (rows : RowKernels) (schema : Schema) (row : List Cell) : Expr → Bool
  | .field expression _ _ dataType =>
    refuses rows schema row expression
      || ((valueOf rows schema row expression).isNull && !dataType.canContainNullMask)
  | .comparison _ left right => refuses rows schema row left || refuses rows schema row right
  | .and children => refusesAny rows schema row children
  | .or children => refusesAny rows schema row children
  | .not child => refuses rows schema row child
  | .isNull expression _ => refuses rows schema row expression
  | .inSet expression _ _ => refuses rows schema row expression
  | .cast expression _ => refuses rows schema row expression
  | .arithmetic _ left right => refuses rows schema row left || refuses rows schema row right
  | .negate expression => refuses rows schema row expression
  | .call _ arguments => refusesAny rows schema row arguments
  | .column .. => false
  | .literal _ => false
  | .runtimeFilter => false

def refusesAny (rows : RowKernels) (schema : Schema) (row : List Cell) : List Expr → Bool
  | [] => false
  | child :: rest => refuses rows schema row child || refusesAny rows schema row rest

end

variable (schema : Schema)

@[simp] theorem typesOf_eq_map (children)
    : typesOf rows schema children = children.map (typeOf rows schema) := by
  induction children with
  | nil => simp [typesOf]
  | cons child rest ih => simp [typesOf, ih]

@[simp] theorem valuesOf_eq_map (row children)
    : valuesOf rows schema row children = children.map (valueOf rows schema row) := by
  induction children with
  | nil => simp [valuesOf]
  | cons child rest ih => simp [valuesOf, ih]

@[simp] theorem refusesAny_eq_any (row children)
    : refusesAny rows schema row children = children.any (refuses rows schema row) := by
  induction children with
  | nil => simp [refusesAny]
  | cons child rest ih => simp [refusesAny, ih]

end RowKernels

def rowsOf (batch : RecordBatch) : List (List Cell) :=
  (range batch.numRows).map fun index =>
    batch.columns.map fun column => column.cells.getD index .null

@[simp] theorem length_rowsOf (batch) : (rowsOf batch).length = batch.numRows := by
  simp [rowsOf]

/-- A column is what its place holds in each row. -/
theorem column_cells {batch place column}
    (found : batch.columns[place]? = some column)
    : column.cells = (rowsOf batch).map fun row => row.getD place .null := by
  have long : column.cells.length = batch.numRows := batch.lengths column (mem_of_getElem? found)
  refine ext_getElem (by simp [long]) fun index inside _ => ?_
  simp [rowsOf, found, inside]

section

variable {α β γ δ ε : Type} (f : α → β → γ)

/-- A scalar side stands for every row. -/
theorem broadcastRows_right (rows : List δ) (left right)
    : broadcastRows f (rows.map left) [right] = .ok (rows.map fun row => f (left row) right) := by
  match rows with
  | [] => rfl
  | [_] => rfl
  | _ :: _ :: _ => simp [broadcastRows]

theorem broadcastRows_map (rows : List δ) (left right)
    : broadcastRows f (rows.map left) (rows.map right)
      = .ok (rows.map fun row => f (left row) (right row)) := by
  match rows with
  | [] => rfl
  | [_] => rfl
  | _ :: _ :: _ => simp [broadcastRows]

theorem broadcastRows_comp (left : List δ) (right : List ε) (g h)
    : broadcastRows f (left.map g) (right.map h)
      = broadcastRows (fun l r => f (g l) (h r)) left right := by
  match left, right with
  | [], [] => rfl
  | [], [_] => rfl
  | [], _ :: _ :: _ => simp [broadcastRows]
  | [_], right => simp [broadcastRows]
  | _ :: _ :: _, [] => simp [broadcastRows]
  | _ :: _ :: _, [_] => simp [broadcastRows]
  | _ :: _ :: _, _ :: _ :: _ => simp [broadcastRows]

theorem broadcastRows_congr {g left right} (same : ∀ l ∈ left, ∀ r ∈ right, f l r = g l r)
    : broadcastRows f left right = broadcastRows g left right := by
  have zipped : zipWith f left right = zipWith g left right := by
    refine ext_getElem (by simp) fun index inside _ => ?_
    simp only [getElem_zipWith]
    exact same _ (getElem_mem _) _ (getElem_mem _)
  unfold broadcastRows
  split
  · rw [map_congr_left fun r member => same _ (by simp) r member]
  · rw [map_congr_left fun l member => same l member _ (by simp)]
  · rw [zipped]

end

section

variable {kernels : Kernels} {rows}

/-- The outcome on cells whose NULLs are those of the validity bitmap. -/
theorem withNulls_eq (op left right verdict)
    : op.withNulls left right verdict = outcomeOfNulls op left.isNull right.isNull verdict := by
  cases op <;> rfl

theorem logicalValueType_ne_dictionary
    : ∀ type key value : DataType, type.logicalValueType ≠ .dictionary key value
  | .dictionary _ value, _, _ => logicalValueType_ne_dictionary value _ _
  | .flat _, _, _ => nofun
  | .listLike .., _, _ => nofun
  | .struct _, _, _ => nofun
  | .union .., _, _ => nofun
  | .runEndEncoded .., _, _ => nofun

/-- A value that is not behind a dictionary stands for itself. -/
theorem unpack_logical (type : DataType) (cell : Cell)
    : cell.unpack type.logicalValueType = cell := by
  cases plain : type.logicalValueType with
  | dictionary key value => exact absurd plain (logicalValueType_ne_dictionary type key value)
  | _ => simp [Cell.unpack]

/-- A type that keeps its NULLs in its own bitmap and is no dictionary. -/
theorem isLogicalNull_of_mask {type} (masked : type.canContainNullMask = true)
    (plain : type.logicalValueType = type) (cell : Cell)
    : cell.isLogicalNull type = cell.isNull := by
  cases type with
  | flat type => cases type <;> first | rfl | cases masked
  | dictionary key value => exact absurd plain (logicalValueType_ne_dictionary value key value)
  | union | runEndEncoded => cases masked
  | _ => rfl

/-- The verdict counts only if neither operand is NULL. -/
theorem outcomeOfNulls_congr {op left right verdict verdict'}
    (same : left = false → right = false → verdict = verdict')
    : outcomeOfNulls op left right verdict = outcomeOfNulls op left right verdict' := by
  cases left <;> cases right
  · rw [same rfl rfl]
  all_goals cases op <;> simp [outcomeOfNulls]

theorem broadcastRows_of_mismatch {α β γ : Type} (f : α → β → γ) {left right}
    (mismatch : left.length ≠ right.length ∧ left.length ≠ 1 ∧ right.length ≠ 1)
    : broadcastRows f left right = .error "incompatible lengths" := by
  unfold broadcastRows
  split
  · simp at mismatch
  · simp at mismatch
  · rw [if_neg mismatch.1]

theorem nestedVerdict_of_valid (op ordering) {left right}
    (validLeft : left.isNull = false) (validRight : right.isNull = false)
    : nestedVerdict op ordering left right = op.holds ordering := by
  cases op <;> simp [nestedVerdict, validLeft, validRight]

variable (rowWise : RowWise kernels rows)

include rowWise

/-- Nested arrays are compared row by row: a comparator is asked by index, and its answer
counts where both slots are valid.
-/
theorem nestedCompare_eq (op) {left right}
    (nested : (left.dataType.isNested || right.dataType.isNested) = true)
    (comparable : rows.comparable left.dataType right.dataType = true)
    (plainLeft : left.dataType.logicalValueType = left.dataType)
    (plainRight : right.dataType.logicalValueType = right.dataType)
    : nestedCompare kernels left right op
      = broadcastRows
          (fun l r => outcomeOfNulls op (l.isLogicalNull left.dataType)
            (r.isLogicalNull right.dataType)
            (op.holds (rows.order left.dataType right.dataType l r)))
          left.cells right.cells := by
  obtain ⟨compare, made, orders⟩ := rowWise.comparator left right nested comparable
  obtain ⟨maskLeft, maskRight⟩ := rowWise.ownNulls _ _ comparable nested
  by_cases mismatch : left.len ≠ right.len ∧ left.len ≠ 1 ∧ right.len ≠ 1
  · rw [broadcastRows_of_mismatch _ mismatch, nestedCompare, rejectIf, if_pos mismatch]
    rfl
  · rw [nestedCompare, rejectIf, if_neg mismatch, ok_bind, made, ok_bind]
    conv_rhs => rw [← zipIdx_map_fst 0 left.cells, ← zipIdx_map_fst 0 right.cells,
      broadcastRows_comp]
    refine broadcastRows_congr _ fun l inLeft r inRight => ?_
    rw [withNulls_eq, isLogicalNull_of_mask maskLeft plainLeft,
      isLogicalNull_of_mask maskRight plainRight]
    refine outcomeOfNulls_congr fun validLeft validRight => ?_
    rw [orders _ _ _ _ (mem_zipIdx_iff_getElem?.mp inLeft) (mem_zipIdx_iff_getElem?.mp inRight)
      validLeft validRight, nestedVerdict_of_valid op _ validLeft validRight]

/-- Arrays of two plain types are compared row by row, or not at all. -/
theorem sqlCompare_toOption (op)
    {left right} (plainLeft : left.dataType.logicalValueType = left.dataType)
    (plainRight : right.dataType.logicalValueType = right.dataType)
    : (sqlCompare kernels left right op).toOption
      = if rows.compares left.dataType right.dataType then
          (broadcastRows (rows.compare left.dataType right.dataType op) left.cells
            right.cells).toOption
        else none := by
  obtain ⟨leftType, left⟩ := left
  obtain ⟨rightType, right⟩ := right
  by_cases single : leftType = .flat .float32 ∧ rightType = .flat .float32
  · obtain ⟨rfl, rfl⟩ := single
    simp only [sqlCompare, floatCompare, FloatFormat.compareValues_eq]
    rfl
  by_cases double : leftType = .float64 ∧ rightType = .float64
  · obtain ⟨rfl, rfl⟩ := double
    simp only [sqlCompare, floatCompare, FloatFormat.compareValues_eq]
    rfl
  have noSingle : bothOf (.flat .float32) leftType rightType = false := by
    simpa [bothOf] using single
  have noDouble : bothOf .float64 leftType rightType = false := by
    simpa [bothOf] using double
  have compares : rows.compares leftType rightType = rows.comparable leftType rightType := by
    simp [RowKernels.compares, noSingle, noDouble]
  have compare : rows.compare leftType rightType op = fun l r =>
      outcomeOfNulls op (l.isLogicalNull leftType) (r.isLogicalNull rightType)
        (op.holds (rows.order leftType rightType l r)) := by
    funext l r
    simp [RowKernels.compare, RowKernels.valueOrder, noSingle, noDouble]
  simp only [sqlCompare, if_neg single, if_neg double, compares, compare]
  cases comparable : rows.comparable leftType rightType with
  | false =>
    split
    · simp only [nestedCompare, toOption_bind,
        toOption_eq_none (rowWise.noComparator ⟨leftType, left⟩ ⟨rightType, right⟩ comparable)]
      simp
    · exact toOption_eq_none (rowWise.noCompare op ⟨leftType, left⟩ ⟨rightType, right⟩ comparable)
  | true =>
    simp only [if_true]
    split
    next nested => rw [nestedCompare_eq rowWise op nested comparable plainLeft plainRight]
    next flat =>
      rw [arrowCompare, rowWise.compare op ⟨leftType, left⟩ ⟨rightType, right⟩
        (by simpa using flat) comparable]

theorem dictionaryValues_unpacked (array)
    : dictionaryValues kernels array = .ok array.unpacked := by
  obtain ⟨type, cells⟩ := array
  cases type with
  | dictionary key value =>
    obtain ⟨castable, unpacks⟩ := rowWise.unpackable key value
    simp only [dictionaryValues]
    rw [rowWise.cast ⟨.dictionary key value, cells⟩ _ castable, unpacks]
    rfl
  | _ => simp [dictionaryValues, ArrayRef.unpacked, DataType.logicalValueType, Cell.unpack]

theorem compareArrays_toOption (op left right)
    : (compareArrays kernels left right op).toOption
      = if rows.compares left.dataType.logicalValueType right.dataType.logicalValueType then
          (broadcastRows
            (rows.compare left.dataType.logicalValueType right.dataType.logicalValueType op)
            left.unpacked.cells right.unpacked.cells).toOption
        else none := by
  rw [compareArrays, dictionaryValues_unpacked rowWise, ok_bind,
    dictionaryValues_unpacked rowWise, ok_bind, toOption_mapError]
  exact sqlCompare_toOption rowWise op (DataType.logicalValueType_idem _)
    (DataType.logicalValueType_idem _)

theorem repeatScalar_eq (type cell count)
    : repeatScalar kernels ⟨type, [cell]⟩ count = .ok ⟨type, replicate count cell⟩ := by
  simp [repeatScalar, ArrayRef.len, rowWise.takeFirst]

end

end Vgi.Pushdown
