import Vgi.Pushdown.Comparison
import Vgi.Pushdown.Filters

/-! Exact evaluation of filters over a record batch. -/

namespace Vgi.Pushdown

open Arrow Lib List

def allTrue (count : Nat) : BooleanArray := replicate count (some true)

def allFalse (count : Nat) : BooleanArray := replicate count (some false)

/-- The column a reference reads: at its index if the name fits, else the only column of that
name.
-/
def resolveColumn (schema : Schema) (index : Nat) (name : String) : Result Nat :=
  if (schema.fields[index]?).any (·.name = name) then .ok index
  else
    match schema.fields.findIdxs (·.name = name) with
    | [only] => .ok only
    | _ =>
      .error (valueError
        "authoritatively bound column_ref is absent or ambiguous in evaluation batch")

def evalColumn (batch : RecordBatch) (index : Nat) (name : String) (dataType : DataType)
    : Result ArrayRef := do
  let resolved ← resolveColumn batch.schema index name
  let column ← okOr (valueError "column_ref type changed in evaluation batch")
    batch.columns[resolved]?
  rejectIf (column.dataType ≠ dataType) (valueError "column_ref type changed in evaluation batch")
  pure column

/-- Rebuild a child array under its parent's validity. A layout without a validity bitmap
refuses the mask as soon as the parent has a NULL.
-/
def maskChild (parent : ArrayRef) (index : Nat) (dataType : DataType) : Result ArrayRef := do
  rejectIf (parent.nullCount ≠ 0 ∧ ¬dataType.canContainNullMask)
    (cvt "Arrays of this type cannot contain a null bitmask")
  pure { dataType, cells := parent.cells.map (Cell.child index) }

def evalField (parent : ArrayRef) (index : Nat) (name : String) (dataType : DataType)
    : Result ArrayRef := do
  let fields ← match parent.dataType with
    | .struct fields => .ok fields
    | _ => .error (valueError "field_ref input is not struct")
  let field ← okOr (valueError "field_ref index out of range") fields[index]?
  rejectIf (field.name ≠ name) (valueError "field_ref name does not match authoritative index")
  rejectIf (field.dataType ≠ dataType) (valueError "field_ref type changed in evaluation batch")
  maskChild parent index dataType

/-- The downcast at the root of every predicate. -/
def asPredicate (array : ArrayRef) : Result BooleanArray :=
  okOr (valueError "predicate expression is not BOOLEAN") array.asBoolean?

section

variable (kernels : Kernels)

def repeatScalar (value : ArrayRef) (count : Nat) : Result ArrayRef := do
  rejectIf (value.len ≠ 1) (valueError "payload literal is not scalar")
  (kernels.takeFirst value count).mapError cvt

def evalLiteral (value : ArrayRef) (batch : RecordBatch) : Result ArrayRef :=
  if value.len = batch.numRows then .ok value else repeatScalar kernels value batch.numRows

/-- A literal stays a scalar at a comparison; anything else is evaluated. -/
def comparisonOperand (expression : Expr) (evaluated : Result ArrayRef) : Result ArrayRef :=
  match expression with
  | .literal value => .ok value
  | _ => evaluated

/-- Two scalar operands still describe a predicate for every row. -/
def evalComparison (op : CompareOp) (left right : ArrayRef) (batch : RecordBatch)
    : Result ArrayRef := do
  let result ← compareArrays kernels left right op
  if result.length = batch.numRows then pure (.ofBool result)
  else repeatScalar kernels (.ofBool result) batch.numRows

def foldBool (children : List (Result ArrayRef)) (count : Nat) (and : Bool)
    : Result BooleanArray :=
  children.foldlM
    (fun result child => do
      let value ← child
      let value ← asPredicate value
      (if and then andKleene result value else orKleene result value).mapError cvt)
    (if and then allTrue count else allFalse count)

def inList (column values : ArrayRef) : Result BooleanArray := do
  let column ← dictionaryValues kernels column
  let values ← dictionaryValues kernels values
  (range values.len).foldlM
    (fun result index => do
      let scalar ← repeatScalar kernels (values.slice index 1) column.len
      let equal ← compareArrays kernels column scalar .eq
      (orKleene result equal).mapError cvt)
    (allFalse column.len)

def broadcast (left right : ArrayRef) : Result (ArrayRef × ArrayRef) :=
  if left.len = right.len then .ok (left, right)
  else if left.len = 1 then do
    let left ← repeatScalar kernels left right.len
    pure (left, right)
  else if right.len = 1 then do
    let right ← repeatScalar kernels right left.len
    pure (left, right)
  else
    .error (valueError "expression lengths are incompatible")

def arithmetic (op : ArithmeticOp) (left right : ArrayRef) : Result ArrayRef := do
  let (left, right) ← broadcast kernels left right
  let left ← (kernels.cast left .float64).mapError cvt
  let right ← (kernels.cast right .float64).mapError cvt
  (kernels.numeric op left right).mapError cvt

def negate (value : ArrayRef) : Result ArrayRef := do
  let value ← (kernels.cast value .float64).mapError cvt
  (kernels.negate value).mapError cvt

def stringFunction (function : StandardFunction) (value pattern : String) : Bool :=
  match function with
  | .startsWith => pattern.toList.isPrefixOf value.toList
  | .endsWith => pattern.toList.isSuffixOf value.toList
  | .contains => pattern.toList <:+: value.toList
  | .listContains => false

def evalCall (function : StandardFunction) (arguments : List (Result ArrayRef))
    : Result BooleanArray :=
  match arguments with
  | [left, right] =>
    if function = .listContains then
      .error (valueError "list_contains is not implemented for this Arrow type")
    else do
      let left ← left
      let right ← right
      let (left, right) ← broadcast kernels left right
      let left ← okOr (valueError "string function input is not utf8") left.asString?
      let right ← okOr (valueError "string function pattern is not utf8") right.asString?
      pure (zipWith
        (fun
          | some value, some pattern => some (stringFunction function value pattern)
          | _, _ => none)
        left right)
  | _ => .error (valueError "standard filter function requires two arguments")

mutual

def eval (kernels : Kernels) (batch : RecordBatch) : Expr → Result ArrayRef
  | .column index name dataType => evalColumn batch index name dataType
  | .field expression index name dataType => do
    let parent ← eval kernels batch expression
    evalField parent index name dataType
  | .literal value => evalLiteral kernels value batch
  | .comparison op left right => do
    let leftValue ← comparisonOperand left (eval kernels batch left)
    let rightValue ← comparisonOperand right (eval kernels batch right)
    evalComparison kernels op leftValue rightValue batch
  | .and children => (foldBool (evalAll kernels batch children) batch.numRows true).map .ofBool
  | .or children => (foldBool (evalAll kernels batch children) batch.numRows false).map .ofBool
  | .not child => do
    let value ← eval kernels batch child
    let value ← asPredicate value
    pure (.ofBool (notKernel value))
  | .isNull expression negated => do
    let value ← eval kernels batch expression
    pure (.ofBool (if negated then isNotNullKernel value else isNullKernel value))
  | .inSet expression values negated => do
    let column ← eval kernels batch expression
    let result ← inList kernels column values
    pure (.ofBool (if negated then notKernel result else result))
  | .cast expression target => do
    let value ← eval kernels batch expression
    (kernels.cast value target).mapError cvt
  | .arithmetic op left right => do
    let left ← eval kernels batch left
    let right ← eval kernels batch right
    arithmetic kernels op left right
  | .negate expression => do
    let value ← eval kernels batch expression
    negate kernels value
  | .call function arguments =>
    (evalCall kernels function (evalAll kernels batch arguments)).map .ofBool
  | .runtimeFilter => .error (valueError "runtime filter has no negotiated evaluator")

def evalAll (kernels : Kernels) (batch : RecordBatch) : List Expr → List (Result ArrayRef)
  | [] => []
  | child :: rest => eval kernels batch child :: evalAll kernels batch rest

end

def evalBool (batch : RecordBatch) (expression : Expr) : Result BooleanArray := do
  let value ← eval kernels batch expression
  asPredicate value

/-- One predicate's turn in `evaluate`: advisory predicates that fail are passed over. -/
def evaluatePredicate (batch : RecordBatch) (result : BooleanArray) (predicate : Predicate)
    : Result BooleanArray :=
  if predicate.expression.isRuntimeFilter then .ok result
  else
    match evalBool kernels batch predicate.expression with
    | .ok current => (andKleene result current).mapError cvt
    | .error error =>
      if predicate.mode = .advisory then .ok result else .error error

def PushdownFilters.evaluate (filters : PushdownFilters) (batch : RecordBatch)
    : Result BooleanArray :=
  filters.predicates.foldlM (evaluatePredicate kernels batch) (allTrue batch.numRows)

end

@[simp] theorem evalAll_eq_map (kernels batch children)
    : evalAll kernels batch children = children.map (eval kernels batch) := by
  induction children with
  | nil => simp [evalAll]
  | cons child rest ih => simp [evalAll, ih]

/-- The predicate, if it is required, can be evaluated on the batch. -/
def Predicate.NotFailing (kernels : Kernels) (batch : RecordBatch) (predicate : Predicate)
    : Prop :=
  predicate.mode = .required → predicate.expression.isRuntimeFilter = true
    ∨ (evalBool kernels batch predicate.expression).isOk = true

/-- The mask a predicate contributes, if it is evaluated. -/
def Predicate.mask (kernels : Kernels) (batch : RecordBatch) (predicate : Predicate)
    : Option BooleanArray :=
  if predicate.expression.isRuntimeFilter then none
  else (evalBool kernels batch predicate.expression).toOption

section

variable {kernels : Kernels} {batch : RecordBatch}

theorem evaluatePredicate_eq {predicate} (result)
    (sound : predicate.NotFailing kernels batch)
    : evaluatePredicate kernels batch result predicate
      = match predicate.mask kernels batch with
        | some mask => (andKleene result mask).mapError cvt
        | none => .ok result := by
  unfold evaluatePredicate Predicate.mask
  split
  · rfl
  next evaluated =>
    cases value : evalBool kernels batch predicate.expression with
    | ok mask => rfl
    | error error =>
      have advisory : predicate.mode = .advisory := by
        cases mode : predicate.mode with
        | advisory => rfl
        | required =>
          rcases sound mode with skipped | ok
          · exact absurd skipped evaluated
          · rw [value] at ok
            cases ok
      simp [advisory]

/-- A filter state that evaluates has no failing required predicate, by induction on the
predicates with the mask so far.
-/
theorem notFailing_of_evaluated {predicates : List Predicate} {start result}
    (evaluated : predicates.foldlM (evaluatePredicate kernels batch) start = .ok result)
    : ∀ predicate ∈ predicates, predicate.NotFailing kernels batch := by
  induction predicates generalizing start with
  | nil => simp
  | cons first rest ih =>
    obtain ⟨next, taken, evaluated⟩ := bind_eq_ok.mp evaluated
    refine forall_mem_cons.mpr ⟨fun required => ?_, ih evaluated⟩
    by_cases skipped : first.expression.isRuntimeFilter = true
    · exact .inl skipped
    · unfold evaluatePredicate at taken
      rw [if_neg skipped] at taken
      cases value : evalBool kernels batch first.expression with
      | ok mask => exact .inr rfl
      | error error => simp [value, required] at taken

end

end Vgi.Pushdown
