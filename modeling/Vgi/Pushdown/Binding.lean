import Vgi.Pushdown.Filters

/-! What parsing guarantees of an expression: its references are bound to the output schema,
its literals are scalars and its operands have the types their operators need.
-/

namespace Vgi.Pushdown

open Arrow Lib Pushdown.Expr

/-- The expression is bound to the schema, by the checks the parser makes at each node. -/
inductive Expr.Bound (schema : Schema) : Expr → Prop where
  | column {index : Nat} {name : String} {field : Field}
      (at_index : schema.fields[index]? = some field) (named : field.name = name)
      : Bound schema (.column index name field.dataType)
  | field {parent : Expr} {index : Nat} {name : String} {fields : List Field} {field : Field}
      (bound : Bound schema parent) (typed : parent.exprType = some (.struct fields))
      (at_index : fields[index]? = some field) (named : field.name = name)
      : Bound schema (.field parent index name field.dataType)
  | literal {value : ArrayRef} (scalar : value.len = 1) : Bound schema (.literal value)
  | comparison {op : CompareOp} {left right : Expr} (boundLeft : Bound schema left)
      (boundRight : Bound schema right)
      (compatible : left.exprType.map DataType.logicalValueType
        = right.exprType.map DataType.logicalValueType)
      : Bound schema (.comparison op left right)
  | and {children : List Expr} (bound : ∀ child ∈ children, Bound schema child)
      (typed : ∀ child ∈ children, child.exprType = some .boolean)
      : Bound schema (.and children)
  | or {children : List Expr} (bound : ∀ child ∈ children, Bound schema child)
      (typed : ∀ child ∈ children, child.exprType = some .boolean)
      : Bound schema (.or children)
  | not {child : Expr} (bound : Bound schema child) (typed : child.exprType = some .boolean)
      : Bound schema (.not child)
  | isNull {expression : Expr} {negated : Bool} (bound : Bound schema expression)
      : Bound schema (.isNull expression negated)
  | inSet {expression : Expr} {values : ArrayRef} {negated : Bool}
      (bound : Bound schema expression)
      (compatible : expression.exprType.map DataType.logicalValueType
        = some values.dataType.logicalValueType)
      : Bound schema (.inSet expression values negated)
  | cast {expression : Expr} {target : DataType} (bound : Bound schema expression)
      : Bound schema (.cast expression target)
  | arithmetic {op : ArithmeticOp} {left right : Expr} {type : DataType}
      (boundLeft : Bound schema left) (boundRight : Bound schema right)
      (typedLeft : left.exprType = some type) (typedRight : right.exprType = some type)
      (numeric : numericType type = true)
      : Bound schema (.arithmetic op left right)
  | negate {expression : Expr} (bound : Bound schema expression)
      (numeric : expression.exprType.any numericType = true)
      : Bound schema (.negate expression)
  | call {function : StandardFunction} {arguments : List Expr}
      (bound : ∀ argument ∈ arguments, Bound schema argument) (two : arguments.length = 2)
      : Bound schema (.call function arguments)
  | runtimeFilter : Bound schema .runtimeFilter

/-- The expression is not a connective. -/
def Expr.isAtom : Expr → Bool
  | .and _ => false
  | .or _ => false
  | .not _ => false
  | _ => true

variable {schema : Schema}

def Expr.connective (and : Bool) (children : List Expr) : Expr :=
  if and then .and children else .or children

/-- Induction over the connectives of a bound predicate, down to its atoms. -/
@[elab_as_elim] theorem Expr.Bound.connectives {motive : Expr → Prop}
    (connective : ∀ and children, (∀ child ∈ children, child.Bound schema)
      → (∀ child ∈ children, child.exprType = some .boolean)
      → (∀ child ∈ children, motive child) → motive (.connective and children))
    (not : ∀ child, child.exprType = some .boolean → motive child → motive (.not child))
    (atom : ∀ expression, expression.isAtom = true → expression.Bound schema
      → motive expression) {expression} (bound : expression.Bound schema)
    : motive expression := by
  induction bound with
  | and bound typed ih => exact connective true _ bound typed ih
  | or bound typed ih => exact connective false _ bound typed ih
  | not _ typed ih => exact not _ typed ih
  | column at_index named => exact atom _ rfl (.column at_index named)
  | field bound typed at_index named => exact atom _ rfl (.field bound typed at_index named)
  | literal scalar => exact atom _ rfl (.literal scalar)
  | comparison left right compatible => exact atom _ rfl (.comparison left right compatible)
  | isNull bound => exact atom _ rfl (.isNull bound)
  | inSet bound compatible => exact atom _ rfl (.inSet bound compatible)
  | cast bound => exact atom _ rfl (.cast bound)
  | arithmetic left right typedLeft typedRight numeric =>
    exact atom _ rfl (.arithmetic left right typedLeft typedRight numeric)
  | negate bound numeric => exact atom _ rfl (.negate bound numeric)
  | call bound two => exact atom _ rfl (.call bound two)
  | runtimeFilter => exact atom _ rfl .runtimeFilter

namespace Expr

@[simp]
def operands : Expr → List Expr
  | column .. => []
  | field parent .. => [parent]
  | literal _ => []
  | comparison _ left right => [left, right]
  | and children => children
  | or children => children
  | not child => [child]
  | isNull expression _ => [expression]
  | inSet expression _ _ => [expression]
  | cast expression _ => [expression]
  | arithmetic _ left right => [left, right]
  | negate expression => [expression]
  | call _ arguments => arguments
  | runtimeFilter => []

inductive Part : Expr → Expr → Prop where
  | whole {expression : Expr} : Part expression expression
  | inside {part operand expression : Expr} (member : operand ∈ expression.operands)
      (within : Part part operand) : Part part expression

/-- Every node of the expression satisfies the condition. -/
def Everywhere (condition : Expr → Prop) (expression : Expr) : Prop :=
  ∀ part, Part part expression → condition part

variable {condition : Expr → Prop} {expression : Expr}

theorem everywhere_iff : expression.Everywhere condition
      ↔ condition expression ∧ ∀ operand ∈ expression.operands, operand.Everywhere condition := by
  constructor
  · intro everywhere
    exact ⟨everywhere _ .whole, fun _ member part within => everywhere part (.inside member within)⟩
  · rintro ⟨here, below⟩ part within
    cases within with
    | whole => exact here
    | inside member within => exact below _ member part within

variable (everywhere : expression.Everywhere condition)

include everywhere

theorem Everywhere.here : condition expression := everywhere _ .whole

theorem Everywhere.operand {operand} (member : operand ∈ expression.operands)
    : operand.Everywhere condition :=
  (everywhere_iff.mp everywhere).2 operand member

theorem Everywhere.within {part} (within : Part part expression) : part.Everywhere condition := by
  induction within with
  | whole => exact everywhere
  | inside member _ ih => exact ih (everywhere.operand member)

omit everywhere in
/-- Every node of a bound expression is bound. -/
theorem Bound.nodes (bound : expression.Bound schema)
    : expression.Everywhere (Bound schema) := by
  intro part within
  induction within with
  | whole => exact bound
  | inside member _ ih =>
    refine ih ?_
    cases bound <;> simp at member <;> grind

/-- What the parser checks of a node beyond binding it: string functions take strings, and a
runtime filter stands nowhere but alone.
-/
def Checked : Expr → Prop
  | call function arguments =>
    function = .listContains ∨ ∀ argument ∈ arguments, argument.exprType = some .utf8
  | runtimeFilter => False
  | _ => True

end Expr

namespace Parser

variable (parser : Parser)

theorem payload_len (oneRow : parser.batch.numRows = 1) {kind reference payload}
    (found : parser.payload kind reference = .ok payload)
    : payload.2.len = 1 := by
  unfold Parser.payload at found
  simp only [okOr_eq_ok, bind, Option.bind_eq_some_iff, pure, Option.some.injEq] at found
  obtain ⟨index, _, field, _, column, at_index, rfl⟩ := found
  rw [← oneRow]
  exact parser.batch.lengths column (List.mem_of_getElem? at_index)

/-- Only a root may be a runtime filter; any other accepted expression is bound and checked
throughout.
-/
def Outcome (schema : Schema) (root : Bool) (result : Expr) : Prop :=
  (root = true ∧ result = .runtimeFilter)
  ∨ result.Bound schema ∧ result.Everywhere Expr.Checked

variable {root : Bool} {result : Expr}

theorem Outcome.node (bound : result.Bound schema) (here : result.Checked)
    (below : ∀ operand ∈ result.operands, operand.Everywhere Expr.Checked)
    : Outcome schema root result :=
  .inr ⟨bound, everywhere_iff.mpr ⟨here, below⟩⟩

theorem Outcome.inner (outcome : Outcome schema false result)
    : result.Bound schema ∧ result.Everywhere Expr.Checked :=
  outcome.resolve_left fun root => nomatch root.1

theorem columnRef_sound {columnIndex columnName}
    (h : parser.columnRef columnIndex columnName = .ok result)
    : Outcome parser.outputSchema root result := by
  unfold Parser.columnRef at h
  simp only [bind_eq_ok, okOr_eq_ok, rejectIf_eq_ok, pure_eq_ok] at h
  obtain ⟨index, _, name, _, field, at_index, _, named, rfl⟩ := h
  exact .node (.column at_index (not_not.mp named)) trivial (by simp)

theorem fieldRef_sound {expression fieldIndex fieldName} (sound : Outcome schema false expression)
    (h : fieldRef expression fieldIndex fieldName = .ok result)
    : Outcome schema root result := by
  unfold Parser.fieldRef at h
  simp only [bind_eq_ok, okOr_eq_ok] at h
  obtain ⟨index, _, name, _, parent, typed, h⟩ := h
  cases parent with
  | struct fields =>
    simp only [ok_bind, bind_eq_ok, okOr_eq_ok, rejectIf_eq_ok, pure_eq_ok] at h
    obtain ⟨field, at_index, _, named, rfl⟩ := h
    exact .node (.field sound.inner.1 typed at_index (not_not.mp named)) trivial
      (by simpa using sound.inner.2)
  | _ => simp at h

theorem checkCall_checked {function arguments u}
    (h : checkCall function arguments = .ok u) : (call function arguments).Checked := by
  by_cases listed : function = .listContains
  · exact .inl listed
  · obtain ⟨_, _, h⟩ := bind_eq_ok.mp h
    refine .inr fun argument member => ?_
    cases function with
    | listContains => exact absurd rfl listed
    | _ =>
      have strings := rejectIf_eq_ok.mp h
      simp only [List.any_eq_true, decide_eq_true_eq, not_exists, not_and, not_not] at strings
      exact strings argument member

theorem requireBoolean_eq_ok {children message u}
    : requireBoolean children message = .ok u
      ↔ ∀ child ∈ children, child.exprType = some .boolean := by
  unfold requireBoolean
  simp

mutual

/-- Every accepted expression is bound to the output schema and checked, by one node's checks at
a time.
-/
theorem expression_sound (parser : Parser) (oneRow : parser.batch.numRows = 1) (wire)
    (depth : Nat) (root : Bool) (count count' : Nat) (result : Expr)
    (h : parser.expression wire depth root count = .ok (result, count'))
    : Outcome parser.outputSchema root result := by
  cases wire
  all_goals
    unfold expression at h
    simp only [StateT.bind_eq_ok, StateT.liftM_eq_ok, rejectIf_eq_ok, okOr_eq_ok,
      requireBoolean_eq_ok] at h
  case columnRef =>
    obtain ⟨_, _, _, accepted, _⟩ := h
    exact parser.columnRef_sound accepted
  case fieldRef inner _ _ =>
    obtain ⟨_, _, _, parent, _, parsed, accepted, _⟩ := h
    exact fieldRef_sound (expression_sound parser oneRow inner _ _ _ _ _ parsed) accepted
  case literal =>
    obtain ⟨_, _, _, payload, _, ⟨found, _⟩, h⟩ := h
    cases h
    exact .node (.literal (parser.payload_len oneRow found)) trivial (by simp)
  case comparison _ left right =>
    obtain ⟨_, _, _, _, _, _, _, _, parsedLeft, _, _, parsedRight, _, _, ⟨compatible, _⟩, h⟩ := h
    cases h
    have soundLeft := (expression_sound parser oneRow left _ _ _ _ _ parsedLeft).inner
    have soundRight := (expression_sound parser oneRow right _ _ _ _ _ parsedRight).inner
    exact .node (.comparison soundLeft.1 soundRight.1 (not_not.mp compatible)) trivial
      (by simp [soundLeft.2, soundRight.2])
  case and children =>
    obtain ⟨_, _, _, _, _, _, _, _, parsed, _, _, ⟨typed, _⟩, h⟩ := h
    cases h
    obtain ⟨bound, checked⟩ := expressions_sound parser oneRow children _ _ _ _ parsed
    exact .node (.and bound typed) trivial checked
  case or children =>
    obtain ⟨_, _, _, _, _, _, _, _, parsed, _, _, ⟨typed, _⟩, h⟩ := h
    cases h
    obtain ⟨bound, checked⟩ := expressions_sound parser oneRow children _ _ _ _ parsed
    exact .node (.or bound typed) trivial checked
  case not inner =>
    obtain ⟨_, _, _, _, _, parsed, _, _, ⟨typed, _⟩, h⟩ := h
    cases h
    obtain ⟨bound, checked⟩ := (expression_sound parser oneRow inner _ _ _ _ _ parsed).inner
    exact .node (.not bound (typed _ (List.mem_singleton_self _))) trivial
      (by simp [checked])
  case isNull inner _ =>
    obtain ⟨_, _, _, _, _, parsed, h⟩ := h
    cases h
    obtain ⟨bound, checked⟩ := (expression_sound parser oneRow inner _ _ _ _ _ parsed).inner
    exact .node (.isNull bound) trivial (by simp [checked])
  case inSet inner _ _ =>
    obtain ⟨_, _, _, _, _, parsed, _, _, _, _, _, ⟨compatible, _⟩, h⟩ := h
    cases h
    obtain ⟨bound, checked⟩ := (expression_sound parser oneRow inner _ _ _ _ _ parsed).inner
    exact .node (.inSet bound (not_not.mp compatible)) trivial (by simp [checked])
  case cast inner _ =>
    obtain ⟨_, _, _, _, _, _, _, _, _, _, _, parsed, h⟩ := h
    cases h
    obtain ⟨bound, checked⟩ := (expression_sound parser oneRow inner _ _ _ _ _ parsed).inner
    exact .node (.cast bound) trivial (by simp [checked])
  case arithmetic _ left right =>
    obtain ⟨_, _, _, _, _, _, _, _, parsedLeft, _, _, parsedRight, type, _, ⟨typed, _⟩, _, _,
      ⟨allowed, _⟩, h⟩ := h
    cases h
    push Not at allowed
    have soundLeft := (expression_sound parser oneRow left _ _ _ _ _ parsedLeft).inner
    have soundRight := (expression_sound parser oneRow right _ _ _ _ _ parsedRight).inner
    exact .node (.arithmetic soundLeft.1 soundRight.1 typed allowed.2.symm allowed.1) trivial
      (by simp [soundLeft.2, soundRight.2])
  case negate inner =>
    obtain ⟨_, _, _, _, _, parsed, _, _, ⟨numeric, _⟩, h⟩ := h
    cases h
    obtain ⟨bound, checked⟩ := (expression_sound parser oneRow inner _ _ _ _ _ parsed).inner
    exact .node (.negate bound (not_not.mp numeric)) trivial (by simp [checked])
  case call _ arguments _ =>
    obtain ⟨_, _, _, _, _, _, _, _, _, _, _, _, values, _, parsed, _, _, ⟨called, _⟩, h⟩ := h
    cases h
    obtain ⟨bound, checked⟩ := expressions_sound parser oneRow arguments _ _ _ _ parsed
    refine .node (.call bound ?_) (checkCall_checked called) checked
    obtain ⟨_, two, _⟩ := bind_eq_ok.mp called
    exact not_not.mp (rejectIf_eq_ok.mp two)
  case runtimeFilter =>
    obtain ⟨_, _, _, _, _, ⟨root, _⟩, _, _, _, _, _, _, _, _, _, _, _, _, _, _, _, h⟩ := h
    cases h
    exact .inl ⟨not_not.mp root, rfl⟩

theorem expressions_sound (parser : Parser) (oneRow : parser.batch.numRows = 1)
    (wires) (depth count count' : Nat) (result)
    (h : parser.expressions wires depth count = .ok (result, count'))
    : (∀ child ∈ result, child.Bound parser.outputSchema)
      ∧ ∀ child ∈ result, child.Everywhere Expr.Checked := by
  cases wires with
  | nil =>
    cases h
    simp
  | cons wire rest =>
    unfold expressions at h
    simp only [StateT.bind_eq_ok] at h
    obtain ⟨_, _, first, _, _, others, h⟩ := h
    cases h
    have here := (expression_sound parser oneRow wire _ _ _ _ _ first).inner
    have later := expressions_sound parser oneRow rest _ _ _ _ others
    simp only [List.forall_mem_cons]
    exact ⟨⟨here.1, later.1⟩, here.2, later.2⟩

end

end Parser

/-- The parser made this predicate from some document, bound to this output schema. -/
def Predicate.Accepted (schema : Schema) (predicate : Predicate) : Prop :=
  ∃ (parser : Parser) (wire : WirePredicate) (delta : Bool) (count count' : Nat),
    parser.outputSchema = schema ∧ parser.batch.numRows = 1
    ∧ parser.predicate wire delta count = .ok (predicate, count')

/-- An accepted predicate is bound and a Boolean. One that is no runtime filter is checked
throughout; a runtime filter is advisory.
-/
theorem Predicate.Accepted.sound {predicate : Predicate} (accepted : predicate.Accepted schema)
    : (predicate.expression.Bound schema ∧ predicate.expression.exprType = some .boolean)
      ∧ (predicate.expression.isRuntimeFilter = false
        → predicate.expression.Everywhere Expr.Checked)
      ∧ (predicate.expression.isRuntimeFilter = true → predicate.mode = .advisory) := by
  obtain ⟨parser, wire, delta, count, count', rfl, oneRow, parsed⟩ := accepted
  unfold Parser.predicate at parsed
  simp only [StateT.bind_eq_ok, StateT.liftM_eq_ok, rejectIf_eq_ok] at parsed
  obtain ⟨_, _, _, mode, _, _, _, _, _, expression, _, parsedExpression, _, _, ⟨advisory, _⟩, _, _,
    ⟨typed, _⟩, _, _, _, h⟩ := parsed
  cases h
  have skips (skipped : expression.isRuntimeFilter = true) : mode = .advisory :=
    not_not.mp fun required => advisory ⟨skipped, required⟩
  rcases parser.expression_sound oneRow _ _ _ _ _ _ parsedExpression with
    ⟨_, rfl⟩ | ⟨bound, checked⟩
  · exact ⟨⟨.runtimeFilter, rfl⟩, nofun, skips⟩
  · refine ⟨⟨bound, ?_⟩, fun _ => checked, skips⟩
    cases expression with
    | runtimeFilter => rfl
    | _ => exact not_not.mp fun other => typed ⟨by simp [isRuntimeFilter], other⟩

end Vgi.Pushdown
