import Vgi.Pushdown.Pruning

/-! Evaluation on one row of the bind schema. The expressions pruning supports have a value
there, with one exception: a field of a type without a validity bitmap, under a NULL struct.
-/

namespace Vgi.Pushdown

open Arrow Lib List ArrayRef Option Kleene

/-- The batch is one full row of the schema. -/
structure RowOf (schema : Schema) (row : RecordBatch) : Prop where
  fields : row.schema.fields = schema.fields
  oneRow : row.numRows = 1

/-- The slot that a column, a field path or a literal reads on a one-row batch. -/
def readCell (row : RecordBatch) : Expr → Cell
  | .column index _ _ => ((row.columns[index]?).bind fun column => column.cells[0]?).getD .null
  | .field parent index _ _ => (readCell row parent).child index
  | .literal value => (value.cells[0]?).getD .null
  | _ => .null

/-- The path ends below a NULL struct, at a type whose layout refuses the struct's mask. -/
def refusesMask (row : RecordBatch) : Expr → Bool
  | .field parent _ _ dataType => (readCell row parent).isNull && !dataType.canContainNullMask
  | _ => false

def readValue (row : RecordBatch) (expression : Expr) (type : DataType) : Cell :=
  Cell.unpack type (readCell row expression)

variable {type : DataType}

theorem logicalValueType_of_ordered (orders : ordered type = true)
    : ∃ flat : FlatType, type.logicalValueType = .flat flat ∧ flat.ordered = true := by
  unfold ordered at orders
  split at orders
  next flat same => exact ⟨flat, same, orders⟩
  next => cases orders

theorem canContainNullMask_of_ordered (orders : ordered type = true)
    : type.canContainNullMask = true := by
  cases type with
  | flat flat => cases flat <;> first | rfl | cases orders
  | union | runEndEncoded => cases orders
  | _ => rfl

theorem refusesMask_of_type {expression} (row)
    (typed : expression.exprType = some type) (masked : type.canContainNullMask = true)
    : refusesMask row expression = false := by
  cases expression with
  | field parent index name dataType =>
    cases typed
    simp [refusesMask, masked]
  | _ => rfl

mutual

/-- The values whose null tests an expression makes, through its connectives. -/
def nullTests : Expr → List Expr
  | .and children => allNullTests children
  | .or children => allNullTests children
  | .not child => nullTests child
  | .isNull expression _ => [expression]
  | _ => []

def allNullTests : List Expr → List Expr
  | [] => []
  | child :: rest => nullTests child ++ allNullTests rest

end

@[simp] theorem mem_allNullTests {test children}
    : test ∈ allNullTests children ↔ ∃ child ∈ children, test ∈ nullTests child := by
  induction children with
  | nil => simp [allNullTests]
  | cons child rest ih => simp [allNullTests, ih]

@[simp] theorem asPredicate_ofBool (values) : asPredicate (.ofBool values) = .ok values := by
  simp [asPredicate]

section

variable {kernels : Kernels} {order : FlatType → Cell → Cell → Ordering} {schema : Schema}
  {row : RecordBatch} (isRow : RowOf schema row)

include isRow

theorem evalColumn_row {index name field}
    (at_index : schema.fields[index]? = some field) (named : field.name = name)
    : evalColumn row index name field.dataType
      = .ok ⟨field.dataType, [readCell row (.column index name field.dataType)]⟩ := by
  rw [← isRow.fields] at at_index
  obtain ⟨column, found, type⟩ := row.getElem?_columns at_index
  have single : column.len = 1 := by
    rw [row.lengths column (mem_of_getElem? found), isRow.oneRow]
  have resolved : resolveColumn row.schema index name = .ok index := by
    simp [resolveColumn, at_index, named]
  have cells : readCell row (.column index name field.dataType)
      = (column.cells[0]?).getD .null := by
    simp [readCell, found]
  rw [cells, ← type, ← eq_singleton single]
  simp [evalColumn, resolved, found, rejectIf]

variable {expression : Expr} {dataType : DataType} {type : FlatType} {values : ArrayRef}
  {children : List Expr} {result : BooleanArray} {outcome : Outcome}

/-- On one row, a literal kept as a scalar is the literal evaluated. -/
theorem comparisonOperand_row (bound : expression.Bound schema)
    : comparisonOperand expression (eval kernels row expression) = eval kernels row expression := by
  cases bound with
  | literal scalar => simp [comparisonOperand, eval, evalLiteral, scalar, isRow.oneRow]
  | _ => rfl

/-- The expression reads a value of an ordered type. -/
structure OrderedValue (schema : Schema) (expression : Expr) (dataType : DataType)
    (type : FlatType) : Prop where
  bound : expression.Bound schema
  simple : simpleValue expression = true
  typed : expression.exprType = some dataType
  logical : dataType.logicalValueType = .flat type
  orders : type.ordered = true

section Simple

variable (kernels) (bound : expression.Bound schema) (simple : simpleValue expression = true)

include bound simple

/-- A simple value on one row is the slot it reads, unless the mask is refused. -/
theorem eval_simple : ∃ type, expression.exprType = some type
      ∧ eval kernels row expression
        = if refusesMask row expression then
            .error (cvt "Arrays of this type cannot contain a null bitmask")
          else .ok ⟨type, [readCell row expression]⟩ := by
  induction bound with
  | column at_index named =>
    refine ⟨_, rfl, ?_⟩
    simpa [eval, refusesMask] using evalColumn_row isRow at_index named
  | @field parent index name fields field _ typed at_index named ih =>
    obtain ⟨type, sameType, parentValue⟩ := ih simple
    rw [typed] at sameType
    cases sameType
    rw [refusesMask_of_type row typed rfl] at parentValue
    refine ⟨_, rfl, ?_⟩
    cases absent : (readCell row parent).isNull <;>
      cases masked : field.dataType.canContainNullMask <;>
        simp [eval, parentValue, evalField, at_index, named, okOr, rejectIf, maskChild,
          nullCount, refusesMask, readCell, absent, masked]
  | @literal value scalar =>
    refine ⟨_, rfl, ?_⟩
    have whole := eq_singleton scalar
    simp [eval, evalLiteral, scalar, isRow.oneRow, refusesMask, readCell, ← whole]
  | _ => cases simple

theorem eval_of_masked {type} (typed : expression.exprType = some type)
    (masked : type.canContainNullMask = true)
    : eval kernels row expression = .ok ⟨type, [readCell row expression]⟩ := by
  obtain ⟨_, sameType, value⟩ := eval_simple kernels isRow bound simple
  rw [typed] at sameType
  cases sameType
  simpa [refusesMask_of_type row typed masked] using value

/-- A null test on one row fails exactly when the mask is refused. -/
theorem evalBool_isNull (negated)
    : ∃ type, expression.exprType = some type
      ∧ evalBool kernels row (.isNull expression negated)
        = if refusesMask row expression then
            .error (cvt "Arrays of this type cannot contain a null bitmask")
          else .ok [some (negated ^^ (readCell row expression).isLogicalNull type)] := by
  obtain ⟨type, typed, value⟩ := eval_simple kernels isRow bound simple
  refine ⟨type, typed, ?_⟩
  unfold evalBool eval
  rw [value]
  cases refusesMask row expression <;> cases negated <;>
    simp [isNullKernel, isNotNullKernel]

/-- A Boolean column, field or literal is its own outcome. -/
theorem evalBool_boolean (typed : expression.exprType = some .boolean)
    : evalBool kernels row expression = .ok [(readCell row expression).toBool] := by
  have value := eval_of_masked kernels isRow bound simple typed rfl
  simp [evalBool, value, asPredicate, asBoolean?]

omit isRow in
theorem OrderedValue.of_logical (orders : type.ordered = true)
    (logical : expression.exprType.map DataType.logicalValueType = some (.flat type))
    : ∃ dataType, OrderedValue schema expression dataType type := by
  obtain ⟨dataType, typed, flat⟩ := map_eq_some_iff.mp logical
  exact ⟨dataType, bound, simple, typed, flat, orders⟩

omit isRow in
theorem OrderedValue.of_ordered (orders : expression.exprType.any ordered = true)
    : ∃ dataType type, OrderedValue schema expression dataType type := by
  cases typed : expression.exprType with
  | none => simp [typed] at orders
  | some dataType =>
    rw [typed, any_some] at orders
    obtain ⟨type, logical, total⟩ := logicalValueType_of_ordered orders
    exact ⟨dataType, type, bound, simple, typed, logical, total⟩

end Simple

theorem OrderedValue.eval (kernels) (value : OrderedValue schema expression dataType type)
    : eval kernels row expression = .ok ⟨dataType, [readCell row expression]⟩ := by
  have masked : dataType.canContainNullMask = true :=
    canContainNullMask_of_ordered (by simp [ordered, value.logical, value.orders])
  exact eval_of_masked kernels isRow value.bound value.simple value.typed masked

variable (lawful : kernels.Lawful order)

include lawful

/-- A supported comparison on one row compares the two values it reads. -/
theorem evalBool_comparison {left right leftType rightType}
    (leftValue : OrderedValue schema left leftType type)
    (rightValue : OrderedValue schema right rightType type) (op)
    : evalBool kernels row (.comparison op left right)
      = .ok [compareCells (valueOrder order type) op (readValue row left leftType)
          (readValue row right rightType)] := by
  have compared := compareArrays_singleton lawful leftValue.orders leftValue.logical
    rightValue.logical (readCell row left) (readCell row right) op
  unfold evalBool eval
  rw [comparisonOperand_row isRow leftValue.bound, leftValue.eval isRow kernels,
    comparisonOperand_row isRow rightValue.bound, rightValue.eval isRow kernels]
  simp [evalComparison, compared, isRow.oneRow, readValue]

/-- The value of IN on one row: some listed value equals it. -/
def inOutcome (order : FlatType → Cell → Cell → Ordering) (type : FlatType) (value : Cell)
    (listed : List Cell) : Outcome :=
  listed.foldl
    (fun result item => Kleene.or result (compareCells (valueOrder order type) .eq value item))
    (some false)

omit isRow in
theorem repeatScalar_singleton
    (logical : dataType.logicalValueType = .flat type) (orders : type.ordered = true) (cell : Cell)
    : repeatScalar kernels ⟨dataType, [cell]⟩ 1 = .ok ⟨dataType, [cell]⟩ := by
  have taken := lawful.takesOrdered ⟨dataType, [cell]⟩ type 1 orders logical rfl
  cases result : kernels.takeFirst ⟨dataType, [cell]⟩ 1 with
  | error message => simp [result, Except.toBool] at taken
  | ok repeated =>
    have same := lawful.takeFirst _ _ cell 1 rfl result
    simp [repeatScalar, len, result, same]

omit isRow in
theorem inList_row {columnType}
    (logicalColumn : columnType.logicalValueType = .flat type) (orders : type.ordered = true)
    (cell : Cell) (logicalValues : values.dataType.logicalValueType = .flat type)
    : inList kernels ⟨columnType, [cell]⟩ values
      = .ok [inOutcome order type (Cell.unpack columnType cell) values.unpacked.cells] := by
  have columnValues : unpacked ⟨columnType, [cell]⟩
      = ⟨.flat type, [Cell.unpack columnType cell]⟩ := by
    simp [unpacked, logicalColumn]
  have valuesType : values.unpacked.dataType = .flat type := logicalValues
  unfold inList
  rw [dictionaryValues_eq lawful, dictionaryValues_eq lawful, columnValues]
  refine foldlM_range_eq_ok (fun outcome => [outcome]) _ ?_ (some false)
  intro outcome index item found
  have scalar : repeatScalar kernels ⟨.flat type, [item]⟩ 1 = .ok ⟨.flat type, [item]⟩ :=
    repeatScalar_singleton lawful rfl orders item
  have equal : compareArrays kernels ⟨.flat type, [Cell.unpack columnType cell]⟩
      ⟨.flat type, [item]⟩ .eq
      = .ok [compareCells (valueOrder order type) .eq (Cell.unpack columnType cell) item] := by
    rw [compareArrays_singleton lawful orders rfl rfl, Cell.unpack_flat, Cell.unpack_flat]
  simp only [slice_one found, valuesType, len, length_singleton, scalar, ok_bind, equal]
  rfl

theorem evalBool_inSet (value : OrderedValue schema expression dataType type)
    (logicalValues : values.dataType.logicalValueType = .flat type) (negated)
    : evalBool kernels row (.inSet expression values negated)
      = .ok [if negated then
            not (inOutcome order type (readValue row expression dataType) values.unpacked.cells)
          else inOutcome order type (readValue row expression dataType) values.unpacked.cells] := by
  have listed := inList_row lawful value.logical value.orders (readCell row expression)
    logicalValues
  unfold evalBool eval
  rw [value.eval isRow kernels, ok_bind, listed]
  cases negated <;> simp [notKernel, readValue]

omit lawful isRow

/-- One turn of a connective on a one-row batch. -/
theorem connective_singleton (and : Bool) (left right)
    : (if and then andKleene [left] [right] else orKleene [left] [right]).mapError cvt
      = .ok [truth left right and] := by
  cases and <;> simp [andKleene, orKleene, truth_true, truth_false]

/-- A connective on one row folds its children's outcomes, by induction on the children with
the outcome so far.
-/
theorem foldBool_row (children : List Expr) (and start)
    : (children.map (eval kernels row)).foldlM
        (fun result child => do
          let value ← child
          let value ← asPredicate value
          (if and then andKleene result value else orKleene result value).mapError cvt)
        [start] = .ok result
      ↔ ∃ outcome, result = [outcome]
        ∧ FoldsTo (truth · · and) (fun child v => evalBool kernels row child = .ok [v])
          children start outcome := by
  induction children generalizing start with
  | nil =>
    simp only [map_nil, foldlM_nil, pure_eq_ok, FoldsTo, exists_eq_right]
    exact eq_comm
  | cons child rest ih =>
    simp only [map_cons, foldlM_cons]
    constructor
    · intro run
      obtain ⟨next, turn, later⟩ := bind_eq_ok.mp run
      simp only [bind_eq_ok] at turn
      obtain ⟨value, evaluated, values, boolean, combined⟩ := turn
      have single : ∃ v, values = [v] := by
        rw [← length_eq_one_iff]
        cases and <;> simp [andKleene, orKleene, zipBoolean] at combined <;> grind
      obtain ⟨v, rfl⟩ := single
      rw [connective_singleton] at combined
      cases combined
      obtain ⟨outcome, rfl, folds⟩ := (ih _).mp later
      exact ⟨outcome, rfl, v, by simp [evalBool, evaluated, boolean], folds⟩
    · rintro ⟨outcome, rfl, v, value, folds⟩
      obtain ⟨array, evaluated, boolean⟩ := bind_eq_ok.mp value
      simp only [evaluated, ok_bind, boolean, connective_singleton]
      exact (ih _).mpr ⟨outcome, rfl, folds⟩

theorem evalBool_connective (oneRow : row.numRows = 1) (and)
    : evalBool kernels row (.connective and children) = .ok result
      ↔ ∃ outcome, result = [outcome]
        ∧ FoldsTo (truth · · and) (fun child v => evalBool kernels row child = .ok [v])
          children (some and) outcome := by
  rw [← foldBool_row]
  cases and <;>
    simp [Expr.connective, evalBool, eval, foldBool, oneRow, allTrue, allFalse, map_eq_ok]

theorem evalBool_not {child}
    : evalBool kernels row (.not child) = .ok result
      ↔ ∃ values, evalBool kernels row child = .ok values ∧ result = notKernel values := by
  simp only [evalBool, eval, bind_eq_ok, pure_eq_ok]
  constructor
  · rintro ⟨_, ⟨value, evaluated, values, boolean, rfl⟩, final⟩
    rw [asPredicate_ofBool] at final
    cases final
    exact ⟨values, ⟨value, evaluated, boolean⟩, rfl⟩
  · rintro ⟨values, ⟨value, evaluated, boolean⟩, rfl⟩
    exact ⟨_, ⟨value, evaluated, values, boolean, rfl⟩, asPredicate_ofBool _⟩

theorem evalBool_of_not {child} (value : evalBool kernels row (.not child) = .ok [outcome])
    : evalBool kernels row child = .ok [not outcome] := by
  obtain ⟨values, childValue, same⟩ := evalBool_not.mp value
  obtain ⟨childOutcome, rfl⟩ : ∃ v, values = [v] := by
    rw [← length_eq_one_iff, ← length_map (f := Kleene.not)]
    exact (congrArg length same).symm
  cases same
  rw [Kleene.not_not]
  exact childValue

/-- Evaluation on the row gives one outcome and no null test is refused its mask, or it fails
and some null test is.
-/
def Evaluates (kernels : Kernels) (row : RecordBatch) (expression : Expr) : Prop :=
  ((∃ outcome, evalBool kernels row expression = .ok [outcome])
    ∧ ∀ test ∈ nullTests expression, refusesMask row test = false)
  ∨ ((∃ error, evalBool kernels row expression = .error error)
    ∧ ∃ test ∈ nullTests expression, refusesMask row test = true)

theorem Evaluates.of_ok (value : evalBool kernels row expression = .ok [outcome])
    (noTests : nullTests expression = [])
    : Evaluates kernels row expression :=
  .inl ⟨⟨outcome, value⟩, by simp [noTests]⟩

/-- A connective evaluates when its children do. -/
theorem Evaluates.fold {and start} (tests : nullTests expression = allNullTests children)
    (folds : ∀ {result}, evalBool kernels row expression = .ok result
      ↔ ∃ outcome, result = [outcome]
        ∧ FoldsTo (truth · · and) (fun child v => evalBool kernels row child = .ok [v])
          children start outcome) (each : ∀ child ∈ children, Evaluates kernels row child)
    : Evaluates kernels row expression := by
  by_cases refused : ∃ test ∈ nullTests expression, refusesMask row test = true
  · refine .inr ⟨?_, refused⟩
    obtain ⟨test, member, refuses⟩ := refused
    rw [tests, mem_allNullTests] at member
    obtain ⟨child, inChildren, inTests⟩ := member
    cases value : evalBool kernels row expression with
    | error error => exact ⟨error, rfl⟩
    | ok result =>
      obtain ⟨outcome, _, run⟩ := folds.mp value
      obtain ⟨childOutcome, childValue⟩ := FoldsTo.exists_iff.mp ⟨outcome, run⟩ child inChildren
      rcases each child inChildren with ⟨_, accepted⟩ | ⟨⟨error, fails⟩, _⟩
      · rw [accepted test inTests] at refuses
        cases refuses
      · rw [fails] at childValue
        cases childValue
  · have accepted : ∀ test ∈ nullTests expression, refusesMask row test = false := by
      simpa using refused
    have values : ∀ child ∈ children, ∃ outcome, evalBool kernels row child = .ok [outcome] := by
      intro child member
      rcases each child member with ⟨value, _⟩ | ⟨_, test, inTests, refuses⟩
      · exact value
      · have allowed := accepted test (by
          rw [tests, mem_allNullTests]
          exact ⟨child, member, inTests⟩)
        rw [allowed] at refuses
        cases refuses
    obtain ⟨outcome, run⟩ := FoldsTo.exists_iff.mpr values
    exact .inl ⟨⟨outcome, folds.mpr ⟨outcome, rfl, run⟩⟩, accepted⟩

include isRow lawful in
/-- Every supported predicate over the row evaluates, up to refused masks. -/
theorem evaluates_of_supported (bound : expression.Bound schema)
    (typed : expression.exprType = some .boolean)
    (supports : supported expression = true)
    : Evaluates kernels row expression := by
  induction bound with
  | column at_index named =>
    exact .of_ok (evalBool_boolean kernels isRow (.column at_index named) rfl typed) rfl
  | field parentBound parentTyped at_index named =>
    have simple : simpleValue _ = true := (Bool.and_eq_true_iff.mp supports).1
    exact .of_ok (evalBool_boolean kernels isRow
      (.field parentBound parentTyped at_index named) simple typed) rfl
  | literal scalar =>
    exact .of_ok (evalBool_boolean kernels isRow (.literal scalar) rfl typed) rfl
  | @comparison op left right boundLeft boundRight compatible =>
    simp only [supported, Bool.and_eq_true] at supports
    obtain ⟨⟨simpleLeft, simpleRight⟩, orders⟩ := supports
    obtain ⟨leftType, type, leftValue⟩ := OrderedValue.of_ordered boundLeft simpleLeft orders
    have logical : right.exprType.map DataType.logicalValueType = some (.flat type) := by
      rw [← compatible, leftValue.typed, map_some, leftValue.logical]
    obtain ⟨rightType, rightValue⟩ :=
      OrderedValue.of_logical boundRight simpleRight leftValue.orders logical
    exact .of_ok (evalBool_comparison isRow lawful leftValue rightValue op) rfl
  | and bound typedChildren ih =>
    rw [supported, allSupported_iff] at supports
    exact .fold rfl (evalBool_connective isRow.oneRow true) fun child member =>
      ih child member (typedChildren child member) (supports child member)
  | or bound typedChildren ih =>
    rw [supported, allSupported_iff] at supports
    exact .fold rfl (evalBool_connective isRow.oneRow false) fun child member =>
      ih child member (typedChildren child member) (supports child member)
  | @not child _ typedChild ih =>
    rcases ih typedChild supports with ⟨⟨outcome, value⟩, accepted⟩ | ⟨⟨error, fails⟩, refused⟩
    · exact .inl ⟨⟨Kleene.not outcome, evalBool_not.mpr ⟨_, value, rfl⟩⟩, accepted⟩
    · refine .inr ⟨?_, refused⟩
      cases value : evalBool kernels row (.not child) with
      | error error => exact ⟨error, rfl⟩
      | ok result =>
        obtain ⟨_, childValue, _⟩ := evalBool_not.mp value
        rw [fails] at childValue
        cases childValue
  | @isNull expression negated bound =>
    obtain ⟨type, _, value⟩ := evalBool_isNull kernels isRow bound supports negated
    -- The one test that can fail: the child of a NULL struct has no mask to read.
    cases refuses : refusesMask row expression
    · exact .inl ⟨⟨_, by rw [value, refuses]; rfl⟩, by simp [nullTests, refuses]⟩
    · exact .inr ⟨⟨_, by rw [value, refuses]; rfl⟩, by simp [nullTests, refuses]⟩
  | @inSet expression values negated bound compatible =>
    simp only [supported, Bool.and_eq_true] at supports
    obtain ⟨dataType, type, value⟩ := OrderedValue.of_ordered bound supports.1 supports.2
    rw [value.typed, map_some, some.injEq, value.logical] at compatible
    exact .of_ok (evalBool_inSet isRow lawful value compatible.symm negated) rfl
  | _ => cases supports

end

end Vgi.Pushdown
