import Mathlib.Data.List.Infix
import Vgi.Lib.Budget
import Vgi.Pushdown.Expr

/-! The parser that binds wire expressions to the authoritative output schema, and the checks
of a filter batch that come before it.
-/

namespace Vgi.Pushdown

open Arrow Lib

/-- What is fixed while one document is parsed. -/
structure Parser where
  batch : RecordBatch
  joinKeys : List RecordBatch
  outputSchema : Schema

/-- Parsing counts the expression nodes of the document as it goes. -/
abbrev ParseM := StateT Nat (Except RpcError)

/-- Indices are 64-bit on the wire and on the machine. -/
def usizeLimit : Nat := 2 ^ 64

def toUsize (value : Nat) : Result Nat :=
  if value < usizeLimit then .ok value else .error (valueError "index out of range")

def nonempty (value name : String) : Result String :=
  if value = "" then .error (valueError s!"{name} must be nonempty") else .ok value

def validateId (value : String) : Result Unit :=
  rejectIf (value = "" ∨ value.utf8ByteSize > 128)
    (valueError "predicate ID must be nonempty and at most 128 bytes")

/-- A lower-case identifier path: letters, digits, `_` and `.`, starting with a letter. -/
def canonicalIdentifier (value : String) : Bool :=
  match value.toList with
  | [] => false
  | first :: rest =>
    first.isLower && (first :: rest).all fun c => c.isLower || c.isDigit || c = '_' || c = '.'

def validateIdentity (id : Identity) : Result Unit :=
  rejectIf
    (¬canonicalIdentifier id.nameSpace ∨ ['.', '.'] <:+: id.nameSpace.toList
      ∨ ¬canonicalIdentifier id.name ∨ '.' ∈ id.name.toList ∨ id.version = 0)
    (valueError "noncanonical function identity")

def isPredicateSource (source : String) : Bool :=
  source ∈ ["query", "join", "top_n", "split_refinement", "other"]

namespace Parser

variable (parser : Parser)

def payload (kind : String) (reference : Nat) : Result (Field × ArrayRef) :=
  let name := s!"{kind}_{reference}"
  okOr (valueError s!"missing payload field {name}") do
    let index ← RecordBatch.indexOf? parser.batch.schema name
    let field ← parser.batch.schema.fields[index]?
    let column ← parser.batch.columns[index]?
    pure (field, column)

def listElements (array : ArrayRef) (item : Field) : Result ArrayRef :=
  match (array.cells[0]? : Option Cell) with
  | some (.list items) => .ok { dataType := item.dataType, cells := items }
  | _ => .error (valueError "literal IN list must not be NULL")

/-- The value set of a literal IN: one list scalar. -/
def literalSet (array : ArrayRef) : Result ArrayRef :=
  match array.dataType with
  | .list item => listElements array item
  | .largeList item => listElements array item
  | _ => .error (valueError "literal IN payload must be a list scalar")

def valueSet : WireSet → Result ArrayRef
  | .literal valueRef => do
    let payload ← parser.payload "value" valueRef
    literalSet payload.2
  | .external batchIndex columnIndex columnName => do
    let batchIndex ← toUsize batchIndex
    let batch ← okOr (valueError "external IN batch unavailable") parser.joinKeys[batchIndex]?
    let index ← toUsize columnIndex
    let field ← okOr (valueError "external IN column out of range") batch.schema.fields[index]?
    rejectIf (field.name ≠ columnName) (valueError "external IN name does not match index")
    okOr (valueError "external IN column out of range") batch.columns[index]?

def columnRef (columnIndex : Nat) (columnName : String) : Result Expr := do
  let index ← toUsize columnIndex
  let name ← nonempty columnName "column name"
  let field ← okOr (valueError "column_ref index is outside the authoritative output schema")
    parser.outputSchema.fields[index]?
  rejectIf (field.name ≠ name) (valueError "column_ref name does not match authoritative index")
  pure (.column index name field.dataType)

def fieldRef (expression : Expr) (fieldIndex : Nat) (fieldName : String) : Result Expr := do
  let index ← toUsize fieldIndex
  let name ← nonempty fieldName "field name"
  let parent ← okOr (valueError "field_ref parent has no authoritative type") expression.exprType
  let fields ← match parent with
    | .struct fields => .ok fields
    | _ => .error (valueError "field_ref parent is not STRUCT")
  let field ← okOr (valueError "field_ref index is outside the authoritative struct") fields[index]?
  rejectIf (field.name ≠ name) (valueError "field_ref name does not match authoritative index")
  pure (.field expression index name field.dataType)

/-- Conjunctions and disjunctions take Boolean children only. -/
def requireBoolean (children : List Expr) (message : String) : Result Unit :=
  rejectIf (children.any fun child => child.exprType ≠ some .boolean) (valueError message)

def checkCall (function : StandardFunction) (arguments : List Expr) : Result Unit := do
  rejectIf (arguments.length ≠ 2)
    (valueError "standard filter functions require exactly two arguments")
  match function with
  | .listContains =>
    match (arguments[0]?).bind Expr.exprType with
    | some (.list item) =>
      rejectIf (some item.dataType ≠ (arguments[1]?).bind Expr.exprType)
        (valueError "list_contains element type mismatch")
    | _ => .error (valueError "list_contains first argument must be LIST")
  | _ =>
    rejectIf (arguments.any fun argument => argument.exprType ≠ some .utf8)
      (valueError "string function arguments must be UTF8")

/-- No standard function takes options; an empty object counts as none. -/
def checkOptions : Option Value → Result Unit
  | none => .ok ()
  | some (.object []) => .ok ()
  | some _ => .error (valueError "filter function does not accept options")

def standardFunction : WireFunction → Result StandardFunction
  | .standard name => okOr (valueError "unknown standard filter function") (standardFunctionOf name)
  | .extension identity => do
    validateIdentity identity
    .error (valueError "extension filter function was not advertised")

/-- Every expression node counts against the document's limits before it is looked at. -/
def countNode (depth : Nat) : ParseM Unit := do
  rejectIf (depth > maxDepth) (valueError "expression exceeds nesting-depth limit")
  let nodes ← get
  rejectIf (nodes + 1 > maxNodes) (valueError "document exceeds expression-node limit")
  set (nodes + 1)

mutual

/-- Parse one node at the given depth. -/
def expression (parser : Parser) : WireExpr → (depth : Nat) → (root : Bool) → ParseM Expr
  | .columnRef columnIndex columnName, depth, _ => do
    countNode depth
    parser.columnRef columnIndex columnName
  | .fieldRef inner fieldIndex fieldName, depth, _ => do
    countNode depth
    let inner ← parser.expression inner (depth + 1) false
    fieldRef inner fieldIndex fieldName
  | .literal valueRef, depth, _ => do
    countNode depth
    let payload ← parser.payload "value" valueRef
    pure (.literal payload.2)
  | .comparison op left right, depth, _ => do
    countNode depth
    let op ← okOr (valueError "unknown comparison operator") (compareOp op)
    let left ← parser.expression left (depth + 1) false
    let right ← parser.expression right (depth + 1) false
    rejectIf
      (left.exprType.map DataType.logicalValueType ≠ right.exprType.map DataType.logicalValueType)
      (valueError "comparison operands have incompatible types")
    pure (.comparison op left right)
  | .and children, depth, _ => do
    countNode depth
    rejectIf (children.length < 2) (valueError "and requires at least two children")
    let values ← parser.expressions children (depth + 1)
    requireBoolean values "and children must resolve to BOOLEAN"
    pure (.and values)
  | .or children, depth, _ => do
    countNode depth
    rejectIf (children.length < 2) (valueError "or requires at least two children")
    let values ← parser.expressions children (depth + 1)
    requireBoolean values "or children must resolve to BOOLEAN"
    pure (.or values)
  | .not inner, depth, _ => do
    countNode depth
    let inner ← parser.expression inner (depth + 1) false
    requireBoolean [inner] "not operand must resolve to BOOLEAN"
    pure (.not inner)
  | .isNull inner negated, depth, _ => do
    countNode depth
    let inner ← parser.expression inner (depth + 1) false
    pure (.isNull inner negated)
  | .inSet inner set negated, depth, _ => do
    countNode depth
    let inner ← parser.expression inner (depth + 1) false
    let values ← parser.valueSet set
    rejectIf
      (inner.exprType.map DataType.logicalValueType ≠ some values.dataType.logicalValueType)
      (valueError "IN expression and set have incompatible types")
    pure (.inSet inner values negated)
  | .cast inner typeRef, depth, _ => do
    countNode depth
    let payload ← parser.payload "type" typeRef
    rejectIf (¬payload.2.isNull 0) (valueError "cast type payload must contain NULL")
    let inner ← parser.expression inner (depth + 1) false
    pure (.cast inner payload.1.dataType)
  | .arithmetic op left right, depth, _ => do
    countNode depth
    let op ← okOr (valueError "unknown arithmetic operator") (arithmeticOp op)
    let left ← parser.expression left (depth + 1) false
    let right ← parser.expression right (depth + 1) false
    let leftType ← okOr (valueError "arithmetic left operand has no type") left.exprType
    rejectIf (¬numericType leftType ∨ some leftType ≠ right.exprType)
      (valueError "arithmetic operands require one exact numeric type")
    pure (.arithmetic op left right)
  | .negate inner, depth, _ => do
    countNode depth
    let inner ← parser.expression inner (depth + 1) false
    rejectIf (¬inner.exprType.any numericType) (valueError "negate operand must be numeric")
    pure (.negate inner)
  | .call function arguments options, depth, _ => do
    countNode depth
    rejectIf (arguments.length > 256) (valueError "call exceeds argument-count limit")
    checkOptions options
    let function ← standardFunction function
    let arguments ← parser.expressions arguments (depth + 1)
    checkCall function arguments
    pure (.call function arguments)
  | .runtimeFilter algorithm input artifactRef nullHandling, depth, root => do
    countNode depth
    rejectIf (¬root) (valueError "runtime_filter may appear only at predicate root")
    validateIdentity algorithm
    rejectIf
      (¬(algorithm.nameSpace = "duckdb.runtime_filter"
        ∧ (algorithm.name = "bloom" ∨ algorithm.name = "prefix_range")
        ∧ algorithm.version = 1))
      (valueError "unknown runtime-filter algorithm")
    rejectIf (nullHandling ≠ "pass" ∧ nullHandling ≠ "reject")
      (valueError "invalid runtime_filter null_handling")
    let _ ← parser.payload "artifact" artifactRef
    let _ ← parser.expression input (depth + 1) false
    pure .runtimeFilter

/-- Children are parsed left to right and stop at the first error. -/
def expressions (parser : Parser) : List WireExpr → (depth : Nat) → ParseM (List Expr)
  | [], _ => pure []
  | child :: rest, depth => do
    let value ← parser.expression child depth false
    let values ← parser.expressions rest depth
    pure (value :: values)

end

/-- The mode a predicate may have: a delta only adds advisory ones. -/
def predicateMode (mode : String) (delta : Bool) : Result PredicateMode :=
  match mode with
  | "required" =>
    if delta then .error (valueError "delta upserts must be advisory") else .ok .required
  | "advisory" => .ok .advisory
  | _ => .error (valueError "unknown predicate mode")

def predicate (wire : WirePredicate) (delta : Bool) : ParseM Predicate := do
  validateId wire.id
  let mode ← predicateMode wire.mode delta
  rejectIf (¬isPredicateSource wire.source) (valueError "unknown predicate source")
  let expression ← parser.expression wire.expression 1 true
  rejectIf (expression.isRuntimeFilter ∧ mode ≠ .advisory)
    (valueError "runtime_filter predicates must be advisory")
  rejectIf (¬expression.isRuntimeFilter ∧ expression.exprType ≠ some .boolean)
    (valueError "predicate root must resolve to BOOLEAN")
  let profile := (parser.batch.schema.metadata.lookup "vgi_evaluation_context").getD ""
  rejectIf (profile = noContext ∧ expression.requiresContext)
    (valueError "context-dependent expression requires session context")
  pure { id := wire.id, revision := wire.revision, mode, expression }

theorem countNode_eq_ok {depth count count' result}
    : countNode depth count = .ok (result, count')
      ↔ depth ≤ maxDepth ∧ count + 1 ≤ maxNodes ∧ count' = count + 1 := by
  unfold countNode
  simp only [StateT.bind_eq_ok, StateT.liftM_eq_ok, StateT.get_eq_ok, StateT.set_eq_ok,
    rejectIf_eq_ok]
  constructor
  · rintro ⟨_, _, ⟨depthOk, rfl⟩, _, _, ⟨rfl, rfl⟩, _, _, ⟨nodesOk, rfl⟩, rfl⟩
    exact ⟨by omega, by omega, rfl⟩
  · rintro ⟨depthOk, nodesOk, rfl⟩
    exact ⟨(), count, ⟨by omega, rfl⟩, count, count, ⟨rfl, rfl⟩, (), count, ⟨by omega, rfl⟩, rfl⟩

theorem countNode_budgeted (depth) : Budgeted (countNode depth) := by
  intro count result count' h
  obtain ⟨depthOk, nodesOk, rfl⟩ := countNode_eq_ok.mp h
  refine ⟨by omega, fun less le => ⟨less + 1, by omega, ?_⟩⟩
  exact countNode_eq_ok.mpr ⟨depthOk, by omega, rfl⟩

mutual

/-- Parsing an expression draws on the node budget and on nothing else that runs along: each case
is a chain of binds over counting the node, checks and parsed operands.
-/
theorem expression_budgeted (parser : Parser) (wire) (depth : Nat) (root : Bool)
    : Budgeted (parser.expression wire depth root) := by
  cases wire
  all_goals
    unfold expression
    repeat' first
      | exact countNode_budgeted depth
      | exact .lift _
      | exact .pure _
      | exact expression_budgeted parser _ _ _
      | exact expressions_budgeted parser _ _
      | refine .bind ?_ fun _ => ?_

theorem expressions_budgeted (parser : Parser) (wires) (depth : Nat)
    : Budgeted (parser.expressions wires depth) := by
  cases wires with
  | nil =>
    exact .pure _
  | cons child rest =>
    exact .bind (expression_budgeted parser child _ _) fun _ =>
      .bind (expressions_budgeted parser rest _) fun _ => .pure _

end

theorem predicate_budgeted (wire delta) : Budgeted (parser.predicate wire delta) := by
  exact .bind (.lift _) fun _ => .bind (.lift _) fun _ => .bind (.lift _) fun _ =>
    .bind (expression_budgeted parser wire.expression 1 true) fun _ =>
    .bind (.lift _) fun _ => .bind (.lift _) fun _ => .bind (.lift _) fun _ => .pure _

/-- A parsed predicate keeps the wire's identity, and a delta's is advisory. -/
theorem predicate_spec {wire delta count count' predicate}
    (h : parser.predicate wire delta count = .ok (predicate, count'))
    : predicate.id = wire.id ∧ predicate.revision = wire.revision
      ∧ (delta = true → predicate.mode = .advisory) := by
  unfold Parser.predicate at h
  simp only [StateT.bind_eq_ok, StateT.liftM_eq_ok] at h
  obtain ⟨_, _, _, mode, _, ⟨accepted, _⟩, _, _, _, _, _, _, _, _, _, _, _, _, _, _, _, h⟩ := h
  cases h
  refine ⟨rfl, rfl, fun isDelta => ?_⟩
  subst isDelta
  unfold predicateMode at accepted
  split at accepted
  · simp at accepted
  · cases accepted
    rfl
  · simp at accepted

end Parser

end Vgi.Pushdown
