import Vgi.Pushdown.RowMeaning

/-! The vectorised evaluator computes the meaning of an expression row by row: with row-wise
kernels it succeeds exactly if the expression has a type over the batch's schema and no row is
refused, and then gives the value of each row.
-/

namespace Vgi.Pushdown

open Arrow Lib List RowKernels Option Function ArrayRef

/-- No row of the batch is refused. -/
@[simp]
abbrev RowKernels.Carries (rows : RowKernels) (batch : RecordBatch) (expression : Expr) : Prop :=
  ∀ row ∈ rowsOf batch, rows.refuses batch.schema row expression = false

/-- What evaluation should give: the type, and the value of each row, unless a row is refused.
-/
def RowKernels.evaluated (rows : RowKernels) (batch : RecordBatch) (expression : Expr)
    : Option ArrayRef :=
  (rows.typeOf batch.schema expression).bind fun type =>
    if ∀ row ∈ rowsOf batch, rows.refuses batch.schema row expression = false then
      some ⟨type, (rowsOf batch).map (rows.valueOf batch.schema · expression)⟩
    else none

section

variable {kernels : Kernels} {rows : RowKernels} {batch : RecordBatch}

variable {α : Type} {leftType rightType : DataType} {leftValue rightValue : List Cell → Cell}
  {schema : Schema} {expression node : Expr} {predicate : Predicate}

theorem map_const_rowsOf (batch) (value : α)
    : (rowsOf batch).map (fun _ => value) = replicate batch.numRows value := by
  rw [map_const', length_rowsOf]

theorem evalColumn_toOption (index name dataType)
    : (evalColumn batch index name dataType).toOption
      = rows.evaluated batch (.column index name dataType) := by
  simp only [evalColumn, evaluated, typeOf, columnType, refuses, valueOf, columnOf, implies_true]
  cases found : resolveColumn batch.schema index name with
  | error e => rfl
  | ok resolved =>
    simp only [ok_bind, toOption_bind, toOption_okOr, toOption_rejectIf, toOption_pure]
    cases at_place : batch.columns[resolved]? with
    | none =>
      have outside : batch.schema.fields[resolved]? = none := by
        rw [getElem?_eq_none_iff] at at_place ⊢
        rwa [← batch.columns_length]
      simp [outside]
    | some column =>
      have inside : resolved < batch.schema.fields.length := by
        rw [← batch.columns_length]
        exact (List.getElem?_eq_some_iff.mp at_place).1
      obtain ⟨column', at_place', typed⟩ := batch.getElem?_columns (getElem?_eq_getElem inside)
      cases at_place.symm.trans at_place'
      have cells := column_cells at_place
      by_cases same : column.dataType = dataType
      · subst same
        simp only [ne_eq, not_true_eq_false, if_false, bind_some, getElem?_eq_getElem inside,
          any_some, ← typed, decide_true, if_true, ← cells]
      · have other : batch.schema.fields[resolved].dataType ≠ dataType := typed ▸ same
        simp [same, other, getElem?_eq_getElem inside]

/-- A field of a struct column, under the struct's NULLs. -/
theorem evalField_toOption (parentType value index name dataType)
    : (evalField ⟨parentType, (rowsOf batch).map value⟩ index name dataType).toOption
      = (fieldType parentType index name dataType).bind fun type =>
          if ∀ row ∈ rowsOf batch, ((value row).isNull && !dataType.canContainNullMask) = false then
            some ⟨type, (rowsOf batch).map fun row => (value row).child index⟩
          else none := by
  unfold evalField fieldType
  cases parentType with
  | struct fields =>
    simp only [ok_bind, toOption_bind, toOption_okOr]
    cases at_index : fields[index]? with
    | none => simp
    | some field =>
      simp only [any_some]
      by_cases named : field.name = name
      · by_cases typed : field.dataType = dataType
        · simp only [named, typed, ne_eq, bind_some, decide_true, Bool.and_self, if_true, maskChild,
            toOption_bind, toOption_rejectIf, List.map_map]
          have refused : (nullCount ⟨.struct fields, (rowsOf batch).map value⟩ ≠ 0
              ∧ ¬dataType.canContainNullMask = true)
              ↔ ¬∀ row ∈ rowsOf batch,
                ((value row).isNull && !dataType.canContainNullMask) = false := by
            cases dataType.canContainNullMask <;> simp [nullCount]
          by_cases all : ∀ row ∈ rowsOf batch,
              ((value row).isNull && !dataType.canContainNullMask) = false
          · rw [if_neg (fun no => refused.mp no all), if_pos all]
            rfl
          · rw [if_pos (refused.mpr all), if_neg all]
            rfl
        · simp [typed]
      · simp [named]
  | _ => simp

/-- The side of a comparison: a scalar that stands for every row, or a column. -/
inductive Operand (batch : RecordBatch) (type : DataType) (value : List Cell → Cell)
    : ArrayRef → Prop where
  | scalar (cell : Cell) (constant : ∀ row, value row = cell)
      : Operand batch type value ⟨type, [cell]⟩
  | column : Operand batch type value ⟨type, (rowsOf batch).map value⟩

def IsColumn (batch : RecordBatch) (type : DataType) (value : List Cell → Cell)
    (array : ArrayRef) : Prop :=
  array = ⟨type, (rowsOf batch).map value⟩

theorem isColumn_rows (type value)
    : IsColumn batch type value ⟨type, (rowsOf batch).map value⟩ := rfl

/-- A computation of an operand gives its value in this shape, or fails where evaluation should.
-/
def Side (rows : RowKernels) (batch : RecordBatch)
    (Shape : DataType → (List Cell → Cell) → ArrayRef → Prop) (x : Result ArrayRef)
    (expression : Expr) : Prop :=
  (x.toOption = none ∧ rows.evaluated batch expression = none)
  ∨ ∃ type array, rows.typeOf batch.schema expression = some type
    ∧ rows.Carries batch expression
    ∧ x.toOption = some array ∧ Shape type (rows.valueOf batch.schema · expression) array

variable (rowWise : RowWise kernels rows)

include rowWise in
theorem evalComparison_toOption (op) {left right} (leftSide : Operand batch leftType leftValue left)
    (rightSide : Operand batch rightType rightValue right)
    : (evalComparison kernels op left right batch).toOption
      = if rows.compares leftType.logicalValueType rightType.logicalValueType then
          some ⟨.boolean, (rowsOf batch).map fun row =>
            .ofOption (rows.compare leftType.logicalValueType rightType.logicalValueType op
              ((leftValue row).unpack leftType) ((rightValue row).unpack rightType))⟩
        else none := by
  have rowResult : ∀ outcome : List Cell → Option Bool,
      (if ((rowsOf batch).map outcome).length = batch.numRows then
          pure (.ofBool ((rowsOf batch).map outcome))
        else repeatScalar kernels (.ofBool ((rowsOf batch).map outcome)) batch.numRows
          : Result ArrayRef).toOption
        = some ⟨.boolean, (rowsOf batch).map fun row => .ofOption (outcome row)⟩ := by
    intro outcome
    simp [ArrayRef.ofBool]
  simp only [evalComparison, toOption_bind, compareArrays_toOption rowWise]
  cases leftSide with
  | scalar cell constant =>
    cases rightSide with
    | scalar cell' constant' =>
      split
      · simp only [ArrayRef.unpacked, map_cons, map_nil, broadcastRows_singleton,
          toOption_ok, bind_some, constant, constant']
        split
        next one => simp [ArrayRef.ofBool, ← one]
        · simp [ArrayRef.ofBool, repeatScalar_eq rowWise]
      · rfl
    | column =>
      split
      · simp only [ArrayRef.unpacked, List.map_cons, List.map_nil, List.map_map,
          broadcastRows, constant]
        exact rowResult _
      · rfl
  | column =>
    cases rightSide with
    | scalar cell constant =>
      split
      · simp only [ArrayRef.unpacked, List.map_cons, List.map_nil, List.map_map,
          broadcastRows_right, constant]
        exact rowResult _
      · rfl
    | column =>
      split
      · simp only [ArrayRef.unpacked, List.map_map, broadcastRows_map]
        exact rowResult _
      · rfl

theorem asPredicate_toOption (array)
    : (asPredicate array).toOption
      = if array.dataType = .boolean then some (array.cells.map Cell.toBool) else none := by
  simp [asPredicate, asBoolean?]

theorem zipBoolean_map (f) (items : List α)
    (left right)
    : zipBoolean f (items.map left) (items.map right)
      = .ok (items.map fun item => f (left item) (right item)) := by
  simp [zipBoolean]

def connective (and : Bool) : Option Bool → Option Bool → Option Bool :=
  if and then Kleene.and else Kleene.or

theorem connective_rows (and : Bool) (left right)
    : (if and then andKleene ((rowsOf batch).map left) ((rowsOf batch).map right)
        else orKleene ((rowsOf batch).map left) ((rowsOf batch).map right)).mapError cvt
      = .ok ((rowsOf batch).map fun row => connective and (left row) (right row)) := by
  cases and <;> simp [andKleene, orKleene, zipBoolean_map, connective]

/-- The child is a Boolean, and no row is refused. -/
def Condition (rows : RowKernels) (batch : RecordBatch) (child : Expr) : Prop :=
  rows.typeOf batch.schema child = some .boolean
    ∧ ∀ row ∈ rowsOf batch, rows.refuses batch.schema row child = false

instance (rows : RowKernels) (batch : RecordBatch) (child : Expr)
    : Decidable (Condition rows batch child) :=
  inferInstanceAs (Decidable (_ ∧ _))

theorem predicate_toOption {child}
    (evaluates : (eval kernels batch child).toOption = rows.evaluated batch child)
    : (eval kernels batch child >>= asPredicate).toOption
      = if Condition rows batch child then
          some ((rowsOf batch).map fun row => (rows.valueOf batch.schema row child).toBool)
        else none := by
  rw [toOption_bind, evaluates, evaluated]
  by_cases unrefused : rows.Carries batch child
  · by_cases boolean : rows.typeOf batch.schema child = some .boolean
    · simp only [boolean, bind_some, if_pos unrefused, asPredicate_toOption, if_pos (show
        Condition rows batch child from ⟨boolean, unrefused⟩), if_true, List.map_map, comp_def]
    · rw [if_neg fun condition => boolean condition.1]
      cases typed : rows.typeOf batch.schema child with
      | none => rfl
      | some type =>
        have other : type ≠ .boolean := fun same => boolean (same ▸ typed)
        simp [asPredicate_toOption, other]
  · rw [if_neg fun condition => unrefused condition.2]
    cases rows.typeOf batch.schema child <;> simp [unrefused]

/-- A connective folds its children's outcomes on each row, by induction on the children with
the outcomes so far.
-/
theorem foldBool_toOption (and) (children : List Expr)
    (evaluates : ∀ child ∈ children,
      (eval kernels batch child).toOption = rows.evaluated batch child)
    (start)
    : ((children.map (eval kernels batch)).foldlM
        (fun result child => do
          let value ← child
          let value ← asPredicate value
          (if and then andKleene result value else orKleene result value).mapError cvt)
        ((rowsOf batch).map start)).toOption
      = if ∀ child ∈ children, Condition rows batch child then
          some ((rowsOf batch).map fun row =>
            (children.map fun child => (rows.valueOf batch.schema row child).toBool).foldl
              (connective and) (start row))
        else none := by
  induction children generalizing start with
  | nil => simp
  | cons child rest ih =>
    have first := predicate_toOption (evaluates child mem_cons_self)
    have later := ih fun other member => evaluates other (mem_cons_of_mem _ member)
    simp only [map_cons, foldlM_cons, toOption_bind, forall_mem_cons]
    rw [toOption_bind] at first
    by_cases condition : Condition rows batch child
    · rw [if_pos condition] at first
      obtain ⟨array, evaluated, boolean⟩ := bind_eq_some_iff.mp first
      simp only [evaluated, boolean, bind_some, connective_rows, condition, true_and]
      exact later _
    · rw [if_neg condition] at first
      simp only [condition]
      cases evaluated : (eval kernels batch child).toOption with
      | none => rfl
      | some array =>
        rw [evaluated, bind_some] at first
        simp [first]

/-- A fold of functions is a fold at each argument. -/
theorem foldl_pointwise {β γ : Type} (f : α → β → γ → β) (items : List γ) (start : α → β)
    : items.foldl (fun results item a => f a (results a) item) start
      = fun a => items.foldl (f a) (start a) := by
  induction items generalizing start with
  | nil => rfl
  | cons item items ih => exact ih _

include rowWise

/-- IN compares each row with each listed value. -/
theorem inList_toOption (type value values)
    : (inList kernels ⟨type, (rowsOf batch).map value⟩ values).toOption
      = if values.cells.isEmpty
            || rows.compares type.logicalValueType values.dataType.logicalValueType then
          some ((rowsOf batch).map fun row =>
            rows.isIn type.logicalValueType values.dataType.logicalValueType
              ((value row).unpack type) (values.cells.map (Cell.unpack values.dataType)))
        else none := by
  have columnValues : unpacked ⟨type, (rowsOf batch).map value⟩
      = ⟨type.logicalValueType, (rowsOf batch).map fun row => (value row).unpack type⟩ := by
    simp [unpacked]
  have compared : ∀ item, (compareArrays kernels
        ⟨type.logicalValueType, (rowsOf batch).map fun row => (value row).unpack type⟩
        ⟨values.dataType.logicalValueType, replicate batch.numRows item⟩ .eq).toOption
      = if rows.compares type.logicalValueType values.dataType.logicalValueType then
          some ((rowsOf batch).map fun row =>
            rows.compare type.logicalValueType values.dataType.logicalValueType .eq
              ((value row).unpack type) item)
        else none := by
    intro item
    rw [compareArrays_toOption rowWise, ← map_const_rowsOf]
    simp only [unpacked, DataType.logicalValueType_idem, List.map_map,
      comp_def, unpack_logical, broadcastRows_map, toOption_ok]
  have start : allFalse (rowsOf batch).length = (rowsOf batch).map fun _ => some false := by
    rw [map_const_rowsOf, length_rowsOf, allFalse]
  rw [inList, dictionaryValues_unpacked rowWise, ok_bind, dictionaryValues_unpacked rowWise,
    ok_bind, columnValues]
  simp only [len, length_map, start]
  by_cases comparable : rows.compares type.logicalValueType values.dataType.logicalValueType
  · simp only [comparable, Bool.or_true, if_true]
    rw [foldlM_range_eq_ok (fun outcomes => (rowsOf batch).map outcomes)
      (fun outcomes item row => Kleene.or (outcomes row)
        (rows.compare type.logicalValueType values.dataType.logicalValueType .eq
          ((value row).unpack type) item))]
    · simp only [toOption_ok, isIn, unpacked]
      rw [foldl_pointwise fun row result item => Kleene.or result
        (rows.compare type.logicalValueType values.dataType.logicalValueType .eq
          ((value row).unpack type) item)]
    · intro outcomes index item found
      have equal := compared item
      rw [if_pos comparable, toOption_eq_some] at equal
      rw [slice_one found]
      simp only [length_rowsOf, repeatScalar_eq rowWise, ok_bind]
      rw [show values.unpacked.dataType = values.dataType.logicalValueType from rfl, equal,
        ok_bind, orKleene, zipBoolean_map]
      rfl
  · -- The first value of the list already refuses; an empty list compares nothing.
    cases listed : values.cells with
    | nil => simp [unpacked, listed, isIn]
    | cons first rest =>
      have found : values.unpacked.cells[0]? = some (first.unpack values.dataType) := by
        simp [unpacked, listed]
      have more : values.unpacked.cells.length = rest.length + 1 := by
        simp [unpacked, listed]
      have differ := compared (first.unpack values.dataType)
      rw [more, range_succ_eq_map]
      simp only [foldlM_cons, toOption_bind, slice_one found, length_rowsOf,
        repeatScalar_eq rowWise, toOption_ok, bind_some]
      rw [show values.unpacked.dataType = values.dataType.logicalValueType from rfl, differ]
      simp [comparable]

/-- A literal repeats its value. -/
theorem evalLiteral_toOption {value : ArrayRef} (scalar : value.len = 1)
    : (evalLiteral kernels value batch).toOption
      = some ⟨value.dataType, (rowsOf batch).map fun _ => value.cells.headD .null⟩ := by
  obtain ⟨type, cells⟩ := value
  obtain ⟨cell, rfl⟩ := length_eq_one_iff.mp scalar
  rw [evalLiteral, map_const_rowsOf]
  split
  next one =>
    simp only [len] at one
    simp [← one]
  · simp [repeatScalar_eq rowWise]

variable (evaluates : (eval kernels batch expression).toOption = rows.evaluated batch expression)

omit rowWise

theorem evaluated_eq_some {array} (evaluated : rows.evaluated batch expression = some array)
    : ∃ type, rows.typeOf batch.schema expression = some type
      ∧ rows.Carries batch expression
      ∧ array = ⟨type, (rowsOf batch).map (rows.valueOf batch.schema · expression)⟩ := by
  obtain ⟨type, typed, evaluated⟩ := bind_eq_some_iff.mp evaluated
  split at evaluated
  next unrefused => exact ⟨type, typed, unrefused, (some.inj evaluated).symm⟩
  · cases evaluated

include evaluates

/-- The evaluation of an operand as a side of a node. -/
theorem side_of_evaluates {Shape}
    (column : ∀ type value, Shape type value ⟨type, (rowsOf batch).map value⟩)
    : Side rows batch Shape (eval kernels batch expression) expression := by
  rw [Side, evaluates]
  cases evaluated : rows.evaluated batch expression with
  | none => exact .inl ⟨rfl, rfl⟩
  | some array =>
    obtain ⟨type, typed, unrefused, rfl⟩ := evaluated_eq_some evaluated
    exact .inr ⟨type, _, typed, unrefused, rfl, column type _⟩

/-- The operands of a comparison: a literal stays a scalar. -/
theorem comparisonOperand_toOption (bound : expression.Bound schema)
    : Side rows batch (Operand batch)
        (comparisonOperand expression (eval kernels batch expression)) expression := by
  by_cases literal : ∃ value, expression = .literal value
  · obtain ⟨value, rfl⟩ := literal
    obtain ⟨type, cells⟩ := value
    cases bound with
    | literal scalar =>
      obtain ⟨cell, rfl⟩ := length_eq_one_iff.mp scalar
      exact .inr ⟨type, _, by simp [typeOf], by simp [refuses], rfl,
        .scalar cell fun row => by simp [valueOf]⟩
  · have same : comparisonOperand expression (eval kernels batch expression)
        = eval kernels batch expression := by
      cases expression with
      | literal value => exact absurd ⟨value, rfl⟩ literal
      | _ => rfl
    rw [same]
    exact side_of_evaluates evaluates fun _ _ => .column

omit evaluates

theorem evaluated_eq_none (evaluated : rows.evaluated batch expression = none)
    : rows.typeOf batch.schema expression = none ∨ ¬rows.Carries batch expression := by
  by_contra both
  simp only [not_or, not_not] at both
  obtain ⟨type, typed⟩ := ne_none_iff_exists'.mp both.1
  simp only [RowKernels.evaluated, typed, if_pos both.2] at evaluated
  cases evaluated

theorem evaluated_of_refused (refused : ¬rows.Carries batch expression)
    : rows.evaluated batch expression = none := by
  rw [evaluated]
  cases rows.typeOf batch.schema expression <;> simp [refused]

/-- A node over one child, which decides its type and is refused with it. -/
theorem unary_toOption {child step}
    (evaluates : (eval kernels batch child).toOption = rows.evaluated batch child)
    (nodeType : DataType → Option DataType)
    (typed : rows.typeOf batch.schema node = (rows.typeOf batch.schema child).bind nodeType)
    (refuses : ∀ row, rows.refuses batch.schema row node = rows.refuses batch.schema row child)
    (steps : ∀ type, rows.typeOf batch.schema child = some type →
      (step ⟨type, (rowsOf batch).map (rows.valueOf batch.schema · child)⟩).toOption
        = (nodeType type).map fun result =>
            ⟨result, (rowsOf batch).map (rows.valueOf batch.schema · node)⟩)
    : (eval kernels batch child >>= step).toOption = rows.evaluated batch node := by
  rw [toOption_bind, evaluates]
  cases evaluated : rows.evaluated batch child with
  | none =>
    rcases evaluated_eq_none evaluated with untyped | refused
    · simp [RowKernels.evaluated, typed, untyped]
    · rw [evaluated_of_refused (by simpa only [Carries, refuses] using refused)]
      rfl
  | some array =>
    obtain ⟨type, typed', unrefused, rfl⟩ := evaluated_eq_some evaluated
    have unrefused' : rows.Carries batch node := by
      simpa only [Carries, refuses] using unrefused
    rw [bind_some, steps type typed', RowKernels.evaluated, typed, typed', bind_some]
    simp only [if_pos unrefused']
    cases nodeType type <;> rfl

/-- A node over two operands, which are evaluated one after the other. -/
theorem binary_toOption {left right} {x y : Result ArrayRef}
    {step : ArrayRef → ArrayRef → Result ArrayRef}
    {Shape : DataType → (List Cell → Cell) → ArrayRef → Prop}
    (leftSide : Side rows batch Shape x left) (rightSide : Side rows batch Shape y right)
    (nodeType : DataType → DataType → Option DataType)
    (typed : rows.typeOf batch.schema node = (rows.typeOf batch.schema left).bind fun leftType =>
      (rows.typeOf batch.schema right).bind fun rightType => nodeType leftType rightType)
    (refuses : ∀ row, rows.refuses batch.schema row node
      = (rows.refuses batch.schema row left || rows.refuses batch.schema row right))
    (steps : ∀ leftType rightType leftArray rightArray,
      rows.typeOf batch.schema left = some leftType →
      rows.typeOf batch.schema right = some rightType →
      Shape leftType (rows.valueOf batch.schema · left) leftArray →
      Shape rightType (rows.valueOf batch.schema · right) rightArray →
      (step leftArray rightArray).toOption
        = (nodeType leftType rightType).map fun result =>
            ⟨result, (rowsOf batch).map (rows.valueOf batch.schema · node)⟩)
    : (x >>= fun leftArray => y >>= fun rightArray => step leftArray rightArray).toOption
      = rows.evaluated batch node := by
  have failed : ∀ {operand}, rows.evaluated batch operand = none → operand = left ∨ operand = right
      → rows.evaluated batch node = none := by
    intro operand none either
    rcases evaluated_eq_none none with untyped | refused
    · rcases either with rfl | rfl
      · simp [evaluated, typed, untyped]
      · cases leftType : rows.typeOf batch.schema left <;>
          simp [evaluated, typed, untyped]
    · refine evaluated_of_refused fun all => refused fun row member => ?_
      have both := all row member
      rw [refuses, Bool.or_eq_false_iff] at both
      rcases either with rfl | rfl
      · exact both.1
      · exact both.2
  rw [toOption_bind]
  rcases leftSide with ⟨none, evaluated⟩ | ⟨leftType, leftArray, leftTyped, leftRows, found, shape⟩
  · rw [none, failed evaluated (.inl rfl)]
    rfl
  · rw [found, bind_some, toOption_bind]
    rcases rightSide with
      ⟨none, evaluated⟩ | ⟨rightType, rightArray, rightTyped, rightRows, found', shape'⟩
    · rw [none, failed evaluated (.inr rfl)]
      rfl
    · have unrefused : rows.Carries batch node := by
        intro row member
        rw [refuses, leftRows row member, rightRows row member]
        rfl
      rw [found', bind_some, steps _ _ _ _ leftTyped rightTyped shape shape',
        evaluated, typed, leftTyped, bind_some, rightTyped, bind_some]
      simp only [if_pos unrefused]
      cases nodeType leftType rightType <;> rfl

/-- A connective over conditions. -/
theorem connective_toOption (and) {children : List Expr} (evaluates : ∀ child ∈ children,
      (eval kernels batch child).toOption = rows.evaluated batch child)
    (typed : rows.typeOf batch.schema node
      = if ∀ child ∈ children, rows.typeOf batch.schema child = some .boolean then some .boolean
        else none) (refuses : ∀ row, rows.refuses batch.schema row node
      = children.any (rows.refuses batch.schema row))
    (values : ∀ row, rows.valueOf batch.schema row node
      = .ofOption ((children.map fun child => (rows.valueOf batch.schema row child).toBool).foldl
          (connective and) (some and)))
    : ((foldBool (children.map (eval kernels batch)) batch.numRows and).map .ofBool).toOption
      = rows.evaluated batch node := by
  have start : (if and then allTrue batch.numRows else allFalse batch.numRows)
      = (rowsOf batch).map fun _ => some and := by
    rw [map_const_rowsOf]
    cases and <;> rfl
  rw [toOption_map, foldBool, start, foldBool_toOption and children evaluates, evaluated, typed]
  have conditions : (∀ child ∈ children, Condition rows batch child)
      ↔ (∀ child ∈ children, rows.typeOf batch.schema child = some .boolean)
        ∧ rows.Carries batch node := by
    simp only [Carries, refuses, List.any_eq_false]
    constructor
    · intro all
      exact ⟨fun child member => (all child member).1, fun row inRows child member => by
        simpa using (all child member).2 row inRows⟩
    · rintro ⟨types, unrefused⟩ child member
      exact ⟨types child member, fun row inRows => by simpa using unrefused row inRows child member⟩
  by_cases types : ∀ child ∈ children, rows.typeOf batch.schema child = some .boolean
  · by_cases unrefused : rows.Carries batch node
    · rw [if_pos (conditions.mpr ⟨types, unrefused⟩)]
      simp only [if_pos types, bind_some, if_pos unrefused, map_some, ofBool,
        List.map_map, comp_def, values]
    · rw [if_neg fun all => unrefused (conditions.mp all).2]
      simp only [if_pos types, bind_some, if_neg unrefused, map_none]
  · rw [if_neg fun all => types (conditions.mp all).1]
    simp only [if_neg types, bind_none, map_none]

theorem broadcast_rows (leftType rightType left right)
    : broadcast kernels ⟨leftType, (rowsOf batch).map left⟩ ⟨rightType, (rowsOf batch).map right⟩
      = .ok (⟨leftType, (rowsOf batch).map left⟩, ⟨rightType, (rowsOf batch).map right⟩) := by
  simp [broadcast, len]

/-- Two string columns, or a failure. -/
theorem evalCall_toOption {function} (supported : function ≠ .listContains)
    {left right leftArray rightArray}
    (leftFound : left.toOption = some leftArray) (rightFound : right.toOption = some rightArray)
    (leftRows : leftArray = ⟨leftType, (rowsOf batch).map leftValue⟩)
    (rightRows : rightArray = ⟨rightType, (rowsOf batch).map rightValue⟩)
    : (evalCall kernels function [left, right]).toOption
      = if leftType = .utf8 ∧ rightType = .utf8 then
          some ((rowsOf batch).map fun row => stringCall function [leftValue row, rightValue row])
        else none := by
  subst leftRows rightRows
  simp only [evalCall, if_neg supported, toOption_bind, leftFound, rightFound, bind_some,
    broadcast_rows, toOption_ok, toOption_okOr, toOption_pure, asString?]
  by_cases leftString : leftType = .utf8
  · by_cases rightString : rightType = .utf8
    · simp only [leftString, rightString, if_true, bind_some, zipWith_map, zipWith_self]
      congr 1
      refine map_congr_left fun row _ => ?_
      cases nullLeft : (leftValue row).isNull <;> cases nullRight : (rightValue row).isNull <;>
        simp [stringCall, nullLeft, nullRight]
    · simp [rightString]
  · simp [leftString]

/-- A call of two arguments: both have to be strings, for any function but `list_contains`. -/
theorem call_toOption (function) {left right}
    (evaluatesLeft : (eval kernels batch left).toOption = rows.evaluated batch left)
    (evaluatesRight : (eval kernels batch right).toOption = rows.evaluated batch right)
    : ((evalCall kernels function ([left, right].map (eval kernels batch))).map .ofBool).toOption
      = rows.evaluated batch (.call function [left, right]) := by
  by_cases supported : function = .listContains
  · subst supported
    simp [evalCall, evaluated, typeOf]
  have turns : (evalCall kernels function ([left, right].map (eval kernels batch))).map
        ofBool
      = eval kernels batch left >>= fun leftArray => eval kernels batch right >>= fun rightArray =>
          (evalCall kernels function [.ok leftArray, .ok rightArray]).map ofBool := by
    simp only [evalCall, map_cons, if_neg supported]
    cases eval kernels batch left with
    | error e => rfl
    | ok leftArray => cases eval kernels batch right <;> rfl
  rw [turns]
  refine binary_toOption (side_of_evaluates evaluatesLeft isColumn_rows)
    (side_of_evaluates evaluatesRight isColumn_rows)
    (fun leftType rightType =>
      if leftType = .utf8 ∧ rightType = .utf8 then some .boolean else none) ?_
    (fun row => by simp [refuses]) ?_
  · cases leftType : rows.typeOf batch.schema left <;>
      cases rightType : rows.typeOf batch.schema right <;>
      simp [typeOf, leftType, rightType, supported]
  · intro leftType rightType leftArray rightArray _ _ leftRows rightRows
    rw [toOption_map,
      evalCall_toOption supported (toOption_ok _) (toOption_ok _) leftRows rightRows]
    split <;> simp [ofBool, valueOf]

include rowWise

theorem cast_toOption {type target} (decided : (rows.castable type target).isSome) (cells)
    : (kernels.cast ⟨type, cells⟩ target).toOption
      = if rows.castable type target = some true then
          some ⟨target, cells.map (rows.castCell type target)⟩
        else none := by
  obtain ⟨castable, is⟩ := isSome_iff_exists.mp decided
  cases castable with
  | true => rw [rowWise.cast _ target is, if_pos is, toOption_ok]
  | false => rw [toOption_eq_none (rowWise.noCast _ target is), if_neg (by simp [is])]

/-- Both operands are cast to doubles. -/
theorem arithmetic_toOption (op leftType rightType left right)
    : (arithmetic kernels op ⟨leftType, (rowsOf batch).map left⟩
        ⟨rightType, (rowsOf batch).map right⟩).toOption
      = if rows.castable leftType .float64 = some true
            ∧ rows.castable rightType .float64 = some true then
          some ⟨.float64, (rowsOf batch).map fun row =>
            rows.numeric op (rows.castCell leftType .float64 (left row))
              (rows.castCell rightType .float64 (right row))⟩
        else none := by
  rw [arithmetic, broadcast_rows, ok_bind]
  simp only [toOption_bind, toOption_mapError, cast_toOption rowWise (rowWise.castFloat _)]
  by_cases castLeft : rows.castable leftType .float64 = some true
  · by_cases castRight : rows.castable rightType .float64 = some true
    · simp [castLeft, castRight, rowWise.numeric]
    · simp [castLeft, castRight]
  · simp [castLeft]

/-- Evaluation is row by row: one case per node, each from the lemma about its kernel. -/
theorem eval_toOption (bound : expression.Bound schema)
    (steady : expression.Everywhere (rows.Steady batch.schema))
    : (eval kernels batch expression).toOption = rows.evaluated batch expression := by
  induction bound with
  | column =>
    exact evalColumn_toOption ..
  | @field parent index name fields field _ _ _ _ ih =>
    rw [eval, toOption_bind, ih (steady.operand (by simp))]
    cases evaluated : rows.evaluated batch parent with
    | none =>
      rcases evaluated_eq_none evaluated with untyped | refused
      · simp [RowKernels.evaluated, typeOf, untyped]
      · rw [evaluated_of_refused fun all => refused fun row member => ?_]
        · rfl
        · have both := all row member
          rw [refuses, Bool.or_eq_false_iff] at both
          exact both.1
    | some array =>
      obtain ⟨type, typed, unrefused, rfl⟩ := evaluated_eq_some evaluated
      rw [bind_some, evalField_toOption]
      simp only [RowKernels.evaluated, typeOf, typed, refuses]
      congr 1
      funext type'
      refine if_congr ?_ rfl rfl
      refine forall₂_congr fun row member => ?_
      rw [unrefused row member, Bool.false_or]
  | literal scalar =>
    rw [eval, evalLiteral_toOption rowWise scalar]
    simp [evaluated, typeOf, refuses, valueOf]
  | @comparison op left right boundLeft boundRight _ ihLeft ihRight =>
    have evaluatesLeft := ihLeft (steady.operand (by simp))
    have evaluatesRight := ihRight (steady.operand (by simp))
    refine binary_toOption (comparisonOperand_toOption evaluatesLeft boundLeft)
      (comparisonOperand_toOption evaluatesRight boundRight)
      (fun leftType rightType =>
        if rows.compares leftType.logicalValueType rightType.logicalValueType then some .boolean
        else none) ?_ (fun row => by rw [refuses]) ?_
    · rw [typeOf]
      cases rows.typeOf batch.schema left <;> cases rows.typeOf batch.schema right <;> rfl
    · intro leftType rightType leftArray rightArray leftTyped rightTyped leftSide rightSide
      rw [evalComparison_toOption rowWise op leftSide rightSide]
      simp only [valueOf, leftTyped, rightTyped]
      split <;> rfl
  | @and children _ _ ih =>
    rw [eval, evalAll_eq_map]
    refine connective_toOption true
      (fun child member => ih child member (steady.operand member)) ?_ (fun row => ?_)
      fun row => ?_
    · simp [typeOf]
    · simp [refuses]
    · simp [valueOf, connective, comp_def]
  | @or children _ _ ih =>
    rw [eval, evalAll_eq_map]
    refine connective_toOption false
      (fun child member => ih child member (steady.operand member)) ?_ (fun row => ?_)
      fun row => ?_
    · simp [typeOf]
    · simp [refuses]
    · simp [valueOf, connective, comp_def]
  | @not child _ _ ih =>
    refine unary_toOption (ih (steady.operand (by simp)))
      (fun type => if type = .boolean then some .boolean else none) ?_
      (fun row => by rw [refuses]) fun type typed => ?_
    · rw [typeOf]
      cases rows.typeOf batch.schema child <;> simp
    · rw [toOption_bind, asPredicate_toOption]
      split <;> simp [notKernel, ofBool, valueOf]
  | @isNull expression negated _ ih =>
    refine unary_toOption (ih (steady.operand (by simp))) (fun _ => some .boolean) ?_
      (fun row => by rw [refuses]) fun type typed => ?_
    · rw [typeOf]
      cases rows.typeOf batch.schema expression <;> rfl
    · cases negated <;>
        simp [isNullKernel, isNotNullKernel, ofBool, valueOf, typed, Cell.ofOption]
  | @inSet expression values negated _ _ ih =>
    refine unary_toOption (ih (steady.operand (by simp)))
      (fun type =>
        if values.cells.isEmpty
            || rows.compares type.logicalValueType values.dataType.logicalValueType then
          some .boolean
        else none)
      (by rw [typeOf]) (fun row => by rw [refuses]) fun type typed => ?_
    rw [toOption_bind, inList_toOption rowWise]
    split
    · cases negated <;>
        simp [notKernel, ofBool, valueOf, typed]
    · rfl
  | @cast expression target _ ih =>
    refine unary_toOption (ih (steady.operand (by simp)))
      (fun type => if rows.castable type target = some true then some target else none)
      (by rw [typeOf]) (fun row => by rw [refuses]) fun type typed => ?_
    rw [toOption_mapError, cast_toOption rowWise (steady.here type typed)]
    split <;> simp [valueOf, typed]
  | @arithmetic op left right type _ _ _ _ _ ihLeft ihRight =>
    have evaluatesLeft := ihLeft (steady.operand (by simp))
    have evaluatesRight := ihRight (steady.operand (by simp))
    refine binary_toOption (side_of_evaluates evaluatesLeft isColumn_rows)
      (side_of_evaluates evaluatesRight isColumn_rows)
      (fun leftType rightType =>
        if rows.castable leftType .float64 = some true
            ∧ rows.castable rightType .float64 = some true then
          some .float64
        else none) ?_ (fun row => by rw [refuses]) ?_
    · rw [typeOf]
      cases rows.typeOf batch.schema left <;> cases rows.typeOf batch.schema right <;> rfl
    · rintro leftType rightType _ _ leftTyped rightTyped rfl rfl
      rw [arithmetic_toOption rowWise]
      split <;> simp [valueOf, leftTyped, rightTyped]
  | @negate expression _ _ ih =>
    refine unary_toOption (ih (steady.operand (by simp)))
      (fun type => if rows.castable type .float64 = some true then some .float64 else none)
      (by rw [typeOf]) (fun row => by rw [refuses]) fun type typed => ?_
    rw [negate, toOption_bind, toOption_mapError, cast_toOption rowWise (rowWise.castFloat type)]
    split <;> simp [rowWise.negate, valueOf, typed]
  | @call function arguments _ two ih =>
    obtain ⟨left, right, rfl⟩ := length_eq_two.mp two
    exact call_toOption function (ih left (by simp) (steady.operand (by simp)))
      (ih right (by simp) (steady.operand (by simp)))
  | runtimeFilter =>
    rw [eval]
    simp [evaluated, typeOf]

/-- The predicate takes part in the mask of the batch. -/
def RowKernels.Applies (rows : RowKernels) (batch : RecordBatch) (predicate : Predicate) : Prop :=
  predicate.expression.isRuntimeFilter = false ∧ Condition rows batch predicate.expression

instance (rows : RowKernels) (batch : RecordBatch) (predicate : Predicate)
    : Decidable (rows.Applies batch predicate) :=
  inferInstanceAs (Decidable (_ ∧ _))

def RowKernels.outcome (rows : RowKernels) (schema : Schema) (row : List Cell)
    (predicate : Predicate) : Option Bool :=
  (rows.valueOf schema row predicate.expression).toBool

def RowKernels.conjunction (rows : RowKernels) (schema : Schema) (predicates : List Predicate)
    (row : List Cell) : Option Bool :=
  (predicates.map (rows.outcome schema row)).foldl Kleene.and (some true)

/-- The expression is bound, and its casts are decided by the types in the batch. -/
def RowKernels.Decides (rows : RowKernels) (schema actual : Schema) (expression : Expr) : Prop :=
  expression.Bound schema ∧ expression.Everywhere (rows.Steady actual)

variable (bound : rows.Decides schema batch.schema predicate.expression)

include bound

theorem mask_eq : predicate.mask kernels batch
      = if rows.Applies batch predicate then
          some ((rowsOf batch).map (rows.outcome batch.schema · predicate))
        else none := by
  have evaluates : (eval kernels batch predicate.expression).toOption
      = rows.evaluated batch predicate.expression := eval_toOption rowWise bound.1 bound.2
  unfold Predicate.mask Applies evalBool
  by_cases skipped : predicate.expression.isRuntimeFilter = true
  · simp [skipped]
  · rw [if_neg skipped, predicate_toOption evaluates]
    simp [skipped, outcome]

/-- A required predicate fails unless it takes part. -/
theorem notFailing_iff : predicate.NotFailing kernels batch
      ↔ (predicate.mode = .required →
          predicate.expression.isRuntimeFilter = true ∨ rows.Applies batch predicate) := by
  refine forall_congr' fun _ => ?_
  by_cases skipped : predicate.expression.isRuntimeFilter = true
  · simp [skipped]
  · simp only [skipped, false_or, Bool.false_eq_true]
    have masked : predicate.mask kernels batch = _ := mask_eq rowWise bound
    rw [Predicate.mask, if_neg skipped] at masked
    cases value : evalBool kernels batch predicate.expression with
    | ok mask =>
      rw [value, toOption_ok] at masked
      by_cases applies : rows.Applies batch predicate
      · exact iff_of_true rfl applies
      · simp [applies] at masked
    | error error =>
      rw [value, toOption_error] at masked
      by_cases applies : rows.Applies batch predicate
      · simp [applies] at masked
      · exact iff_of_false nofun applies

omit bound

/-- Filters keep the conjunction of the applied predicates on each row, by induction on the
predicates with the conjunction so far.
-/
theorem evaluatePredicates_rows {predicates : List Predicate}
    (bound : ∀ predicate ∈ predicates, rows.Decides schema batch.schema predicate.expression)
    (sound : ∀ predicate ∈ predicates, predicate.NotFailing kernels batch)
    (start)
    : predicates.foldlM (evaluatePredicate kernels batch) ((rowsOf batch).map start)
      = .ok ((rowsOf batch).map fun row =>
          ((predicates.filter (rows.Applies batch)).map
            (rows.outcome batch.schema row)).foldl Kleene.and (start row)) := by
  induction predicates generalizing start with
  | nil => rfl
  | cons first rest ih =>
    simp only [forall_mem_cons] at bound sound
    rw [foldlM_cons, evaluatePredicate_eq _ sound.1, mask_eq rowWise bound.1]
    by_cases applies : rows.Applies batch first
    · simp only [if_pos applies, andKleene, zipBoolean_map, Except.mapError, ok_bind]
      rw [ih bound.2 sound.2, filter_cons_of_pos (by simpa using applies)]
      rfl
    · simp only [if_neg applies, ok_bind]
      rw [ih bound.2 sound.2, filter_cons_of_neg (by simpa using applies)]

theorem evaluate_rows {filters : PushdownFilters}
    (bound : ∀ predicate ∈ filters.predicates,
      rows.Decides schema batch.schema predicate.expression)
    (sound : ∀ predicate ∈ filters.predicates, predicate.NotFailing kernels batch)
    : filters.evaluate kernels batch
      = .ok ((rowsOf batch).map
          (rows.conjunction batch.schema (filters.predicates.filter (rows.Applies batch)))) := by
  unfold PushdownFilters.evaluate
  rw [allTrue, ← map_const_rowsOf, evaluatePredicates_rows rowWise bound sound]
  rfl

end

end Vgi.Pushdown
