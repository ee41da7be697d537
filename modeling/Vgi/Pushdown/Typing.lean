import Vgi.Pushdown.RowWise

/-! Accepted expressions can be evaluated at their declared type. The parser's checks and the
evaluator are two recursions; the type the evaluator arrives at is the one the parser recorded,
wherever Arrow has the kernels and arithmetic stays in the type it is computed in.
-/

namespace Vgi.Pushdown

open Arrow Lib Option RowKernels Pushdown.Expr List

namespace Expr

/-- The node is computed in the type the parser records for it: arithmetic and negation are
done in 64-bit floats, and `list_contains` is not done at all.
-/
def Exact : Expr → Prop
  | arithmetic _ left _ => left.exprType = some .float64
  | negate expression => expression.exprType = some .float64
  | call function _ => function ≠ .listContains
  | _ => True

end Expr

/-- Arrow has the cast or the comparison the node needs. -/
def RowKernels.Supports (rows : RowKernels) : Expr → Prop
  | .cast expression target => expression.exprType.any (rows.castable · target = some true) = true
  | .comparison _ left _ =>
    left.exprType.any (fun type => rows.compares type.logicalValueType type.logicalValueType) = true
  | .inSet expression values _ =>
    values.cells = []
      ∨ expression.exprType.any (fun type =>
          rows.compares type.logicalValueType type.logicalValueType) = true
  | _ => True

variable {expression : Expr}

/-- Every bound expression has a declared type. -/
theorem Expr.Bound.typed {schema} (bound : expression.Bound schema)
    : ∃ type, expression.exprType = some type := by
  cases bound with
  | arithmetic _ _ typedLeft => exact ⟨_, typedLeft⟩
  | negate _ numeric =>
    obtain ⟨type, typed, _⟩ := (any_eq_true _ _).mp numeric
    exact ⟨type, typed⟩
  | _ => exact ⟨_, rfl⟩

section

variable {kernels : Kernels} {rows : RowKernels}

theorem columnType_of_bound {schema} {index field}
    (found : schema.fields[index]? = some field)
    : columnType schema index field.name field.dataType = some field.dataType := by
  have resolved : resolveColumn schema index field.name = .ok index := by
    simp [resolveColumn, found]
  simp [columnType, resolved, found]

/-- What a node needs for the evaluator to follow the parser. -/
def RowKernels.Regular (rows : RowKernels) (node : Expr) : Prop :=
  node.Checked ∧ rows.Supports node ∧ node.Exact

variable (rowWise : RowWise kernels rows)

include rowWise

/-- The type the evaluator arrives at, by induction over the parser's checks. -/
theorem typeOf_eq_exprType {schema} (bound : expression.Bound schema) {actual}
    (fields : actual.fields = schema.fields) (regular : expression.Everywhere rows.Regular)
    : rows.typeOf actual expression = expression.exprType := by
  induction bound with
  | column at_index named =>
    subst named
    rw [← fields] at at_index
    simp only [typeOf, columnType_of_bound at_index, exprType]
  | field _ typed at_index named ih =>
    have parent := ih (regular.operand (by simp))
    simp [typeOf, parent, typed, fieldType, at_index, named, exprType]
  | literal _ => simp only [typeOf, exprType]
  | comparison boundLeft _ compatible ihLeft ihRight =>
    have left := ihLeft (regular.operand (by simp))
    have right := ihRight (regular.operand (by simp))
    obtain ⟨type, typed⟩ := boundLeft.typed
    rw [typed] at compatible left
    obtain ⟨rightType, rightTyped, same⟩ := map_eq_some_iff.mp compatible.symm
    have compares : rows.compares type.logicalValueType type.logicalValueType = true := by
      simpa [Supports, typed] using (regular.here).2.1
    simp [typeOf, left, right, rightTyped, same, compares, exprType]
  | and _ typed ih | or _ typed ih =>
    have children := fun child member =>
      (ih child member (regular.operand member)).trans (typed child member)
    simpa [typeOf, exprType] using children
  | not _ typed ih =>
    have child := ih (regular.operand (by simp))
    simp [typeOf, child, typed, exprType]
  | isNull bound ih =>
    have inner := ih (regular.operand (by simp))
    obtain ⟨type, typed⟩ := bound.typed
    simp [typeOf, inner, typed, exprType]
  | inSet bound compatible ih =>
    have inner := ih (regular.operand (by simp))
    obtain ⟨type, typed⟩ := bound.typed
    rw [typed] at compatible inner
    have same := some.inj compatible
    have supported := regular.here.2.1
    simp only [Supports, typed, any_some] at supported
    rcases supported with empty | compares
    · simp [typeOf, inner, empty, exprType]
    · simp [typeOf, inner, ← same, compares, exprType]
  | cast bound ih =>
    have inner := ih (regular.operand (by simp))
    obtain ⟨type, typed⟩ := bound.typed
    have castable := regular.here.2.1
    simp only [Supports, typed, any_some, decide_eq_true_eq] at castable
    simp [typeOf, inner, typed, castable, exprType]
  | arithmetic _ _ typedLeft typedRight _ ihLeft ihRight =>
    have left := ihLeft (regular.operand (by simp))
    have right := ihRight (regular.operand (by simp))
    have double : some _ = some DataType.float64 := typedLeft.symm.trans regular.here.2.2
    cases double
    have castable := (rowWise.castSelf .float64).1
    simp [typeOf, left, right, typedLeft, typedRight, castable, exprType]
  | negate _ _ ih =>
    have inner := ih (regular.operand (by simp))
    have double := regular.here.2.2
    simp only [Exact] at double
    have castable := (rowWise.castSelf .float64).1
    simp [typeOf, inner, double, castable, exprType]
  | @call function arguments _ two ih =>
    have supported : function ≠ .listContains := regular.here.2.2
    have strings := regular.here.1.resolve_left supported
    obtain ⟨value, pattern, rfl⟩ := length_eq_two.mp two
    have argument := fun argument member =>
      (ih argument member (regular.operand member)).trans (strings argument member)
    simp [typeOf, supported, argument, exprType]
  | runtimeFilter => exact regular.here.1.elim

/-- The evaluator can follow the parser through the whole expression on this batch: Arrow has
its casts and comparisons, arithmetic stays in 64-bit floats, `list_contains` does not occur,
and no field without a validity bitmap is read under a NULL struct.
-/
structure Followed (rows : RowKernels) (batch : RecordBatch) (expression : Expr) : Prop where
  supported : expression.Everywhere rows.Supports
  exact : expression.Everywhere Expr.Exact
  carried : ∀ row ∈ rowsOf batch, rows.refuses batch.schema row expression = false

variable {batch : RecordBatch}

variable {schema : Schema} (followed : Followed rows batch expression)
  (conforms : batch.schema.fields = schema.fields) (bound : expression.Bound schema)
  (checked : expression.Everywhere Checked)

include followed checked

omit rowWise in
theorem Followed.regular : expression.Everywhere rows.Regular := fun part within =>
  ⟨checked part within, followed.supported part within, followed.exact part within⟩

include conforms bound

theorem Followed.typeOf : rows.typeOf batch.schema expression = expression.exprType :=
  typeOf_eq_exprType rowWise bound conforms (followed.regular checked)

/-- Arrow has the casts of the expression at their types. -/
theorem Followed.decides : rows.Decides schema batch.schema expression := by
  refine ⟨bound, fun part within => ?_⟩
  cases part with
  | cast inner target =>
    intro type typed
    cases bound.nodes _ within with
    | cast bound =>
      have regular := (followed.regular checked).within within
      have inside : inner.Everywhere _ := regular.operand (by simp)
      rw [typeOf_eq_exprType rowWise bound conforms inside] at typed
      have castable := regular.here.2.1
      simp only [Supports, Option.mem_def.mp typed, any_some, decide_eq_true_eq] at castable
      rw [castable]
      rfl
  | _ => trivial

theorem Followed.evaluates
    : ∃ array, eval kernels batch expression = .ok array ∧ array.len = batch.numRows
      ∧ expression.exprType = some array.dataType := by
  obtain ⟨type, typed⟩ := bound.typed
  have evaluated : (eval kernels batch expression).toOption
      = some ⟨type, (rowsOf batch).map (rows.valueOf batch.schema · expression)⟩ := by
    have decides := followed.decides rowWise conforms bound checked
    rw [eval_toOption rowWise bound decides.2, evaluated,
      followed.typeOf rowWise conforms bound checked, typed, bind_some, if_pos followed.carried]
  cases value : eval kernels batch expression with
  | error error => simp [value] at evaluated
  | ok array =>
    rw [value, toOption_ok] at evaluated
    cases evaluated
    exact ⟨_, rfl, by simp [ArrayRef.len], typed⟩

omit followed bound checked

variable {predicate : Predicate}

/-- A followed predicate takes part in the mask. -/
theorem Predicate.Accepted.applies (accepted : predicate.Accepted schema)
    (evaluated : predicate.expression.isRuntimeFilter = false)
    (followed : Followed rows batch predicate.expression)
    : rows.Applies batch predicate := by
  obtain ⟨⟨bound, boolean⟩, checked, -⟩ := accepted.sound
  have typed := followed.typeOf rowWise conforms bound (checked evaluated)
  exact ⟨evaluated, typed.trans boolean, followed.carried⟩

omit rowWise conforms

/-- A runtime filter has no casts. -/
theorem steady_of_isRuntimeFilter (skipped : expression.isRuntimeFilter = true)
    : expression.Everywhere (rows.Steady schema) := by
  cases expression with
  | runtimeFilter => exact everywhere_iff.mpr ⟨trivial, by simp⟩
  | _ => cases skipped

/-- An accepted expression other than a runtime filter evaluates on a conforming batch to one
value per row, in its declared type. So every predicate of a filter state but the runtime
filters takes part in its mask and none makes it fail; a runtime filter is advisory and passed
over.
-/
theorem accepted_filters_evaluate (rowWise : RowWise kernels rows) {schema : Schema}
    {batch : RecordBatch} (conforms : batch.schema.fields = schema.fields)
    : (∀ (parser : Parser) (wire : WireExpr) (depth : Nat) (root : Bool) (count count' : Nat)
          (expression : Expr),
        parser.outputSchema = schema → parser.batch.numRows = 1
        → parser.expression wire depth root count = .ok (expression, count')
        → expression.isRuntimeFilter = false → Followed rows batch expression
        → ∃ array, eval kernels batch expression = .ok array ∧ array.len = batch.numRows
          ∧ expression.exprType = some array.dataType)
      ∧ (∀ filters : PushdownFilters, (∀ predicate ∈ filters.predicates, predicate.Accepted schema)
          → (∀ predicate ∈ filters.predicates, predicate.expression.isRuntimeFilter = false
            → Followed rows batch predicate.expression)
          → filters.evaluate kernels batch
            = .ok ((rowsOf batch).map (rows.conjunction batch.schema
                (filters.predicates.filter fun predicate =>
                  !predicate.expression.isRuntimeFilter))))
      ∧ (∀ predicate : Predicate, predicate.Accepted schema
          → predicate.expression.isRuntimeFilter = true
          → predicate.mode = .advisory
            ∧ ∀ result, evaluatePredicate kernels batch result predicate = .ok result) := by
  refine ⟨?_, ?_, ?_⟩
  · intro parser wire depth root count count' expression atSchema oneRow parsed evaluated followed
    rcases parser.expression_sound oneRow _ _ _ _ _ _ parsed with ⟨_, rfl⟩ | ⟨bound, checked⟩
    · cases evaluated
    · exact followed.evaluates rowWise conforms (atSchema ▸ bound) checked
  · intro filters accepted followed
    have applies : ∀ predicate ∈ filters.predicates,
        predicate.expression.isRuntimeFilter = false → rows.Applies batch predicate :=
      fun predicate member evaluated =>
        (accepted predicate member).applies rowWise conforms evaluated
          (followed predicate member evaluated)
    have decides : ∀ predicate ∈ filters.predicates,
        rows.Decides schema batch.schema predicate.expression := by
      intro predicate member
      obtain ⟨⟨bound, -⟩, checked, -⟩ := (accepted predicate member).sound
      cases skipped : predicate.expression.isRuntimeFilter with
      | false =>
        exact (followed predicate member skipped).decides rowWise conforms bound (checked skipped)
      | true => exact ⟨bound, steady_of_isRuntimeFilter skipped⟩
    have sound : ∀ predicate ∈ filters.predicates, predicate.NotFailing kernels batch := by
      intro predicate member
      refine (notFailing_iff rowWise (decides predicate member)).mpr fun _ => ?_
      by_cases skipped : predicate.expression.isRuntimeFilter = true
      · exact .inl skipped
      · exact .inr (applies predicate member (by simpa using skipped))
    rw [evaluate_rows rowWise decides sound]
    have taken : filters.predicates.filter (rows.Applies batch)
        = filters.predicates.filter fun predicate => !predicate.expression.isRuntimeFilter := by
      refine filter_congr fun predicate member => ?_
      cases skipped : predicate.expression.isRuntimeFilter with
      | true => simp [RowKernels.Applies, skipped]
      | false => simpa using applies predicate member skipped
    rw [taken]
  · intro predicate accepted skipped
    exact ⟨accepted.sound.2.2 skipped, fun result => by simp [evaluatePredicate, skipped]⟩

end

namespace TypingSample

/-- The doubles 1 and 2 and their sum; no other arithmetic occurs. -/
def double : Int → Nat
  | 1 => 0x3FF0000000000000
  | 2 => 0x4000000000000000
  | _ => 0

/-- Arrow's functions on the values that occur: integers, strings and dictionaries of strings.
-/
def rows : RowKernels where
  castable := fun source target =>
    some (source = target || target = source.logicalValueType
      || (source = .int64 && target = .float64))
  castCell := fun source target cell =>
    if source = target then cell
    else if target = source.logicalValueType then cell.unpack source
    else
      match cell with
      | .int value => .float (double value)
      | _ => .null
  comparable := fun left right =>
    match left with
    | .flat type => type.ordered && right = .flat type
    | _ => false
  order := fun _ _ left right =>
    match left, right with
    | .int left, .int right => compare left right
    | left, right => compare left.stringValue right.stringValue
  numeric := fun _ left right =>
    if left.isNull || right.isNull then .null
    else .float (double 2)
  negate := fun cell => cell

theorem lawful : rows.Lawful where
  castSelf := by
    intro type
    refine ⟨by simp [rows], ?_⟩
    funext cell
    simp [rows]
  castFloat := fun _ => rfl
  unpackable := by
    intro key value
    refine ⟨by simp [rows], ?_⟩
    have other := (logicalValueType_ne_dictionary (.dictionary key value) key value).symm
    simp [rows, other]
  ownNulls := by
    intro left right comparable nested
    cases left with
    | flat type =>
      simp only [rows, Bool.and_eq_true, decide_eq_true_eq] at comparable
      rw [comparable.2] at nested
      cases nested
    | _ => cases comparable

def texts : DataType := .dictionary (.flat .int32) .utf8

def schema : Schema := { fields := [.mk "a" .int64 true, .mk "d" texts true], metadata := [] }

/-- The rows `(1, 'x')` and `(NULL, NULL)`. -/
def batch : RecordBatch where
  schema := schema
  columns := [⟨.int64, [.int 1, .null]⟩, ⟨texts, [.encoded (.string "x"), .null]⟩]
  numRows := 2
  types := rfl
  lengths := by simp [ArrayRef.len]
  nonNull := by simp [schema]

/-- The payloads of the filter documents: the literals 'x' and 2 and a bloom filter. -/
def parser : Parser where
  batch :=
    { schema :=
        { fields := [.mk "filter_spec" .utf8 false, .mk "value_0" .utf8 true,
            .mk "value_1" .int64 true, .mk "artifact_2" (.flat .binary) true]
          metadata := [("vgi_evaluation_context", noContext)] }
      columns := [⟨.utf8, [.string ""]⟩, ⟨.utf8, [.string "x"]⟩, ⟨.int64, [.int 2]⟩,
        ⟨.flat .binary, [.bytes [0]]⟩]
      numRows := 1
      types := rfl
      lengths := by simp [ArrayRef.len]
      nonNull := by simp [ArrayRef.nullCount, Cell.isNull] }
  joinKeys := []
  outputSchema := schema

/-- `d = 'x' AND a IS NOT NULL`. -/
def followed : WireExpr :=
  .and [.comparison "eq" (.columnRef 1 "d") (.literal 0), .isNull (.columnRef 0 "a") true]

def followedExpr : Expr :=
  .and [.comparison .eq (.column 1 "d" texts) (.literal ⟨.utf8, [.string "x"]⟩),
    .isNull (.column 0 "a" .int64) true]

def bloom : WireExpr :=
  .runtimeFilter ⟨"duckdb.runtime_filter", "bloom", 1⟩ (.columnRef 0 "a") 2 "pass"

/-- `a + a = 2`. -/
def sum : WireExpr :=
  .comparison "eq" (.arithmetic "add" (.columnRef 0 "a") (.columnRef 0 "a")) (.literal 1)

def sumExpr : Expr :=
  .comparison .eq (.arithmetic .add (.column 0 "a" .int64) (.column 0 "a" .int64))
    (.literal ⟨.int64, [.int 2]⟩)

def filters (mode : PredicateMode) (expression : Expr) : PushdownFilters where
  predicates := [{ id := "p", revision := 0, mode, expression }]
  revisions := ∅
  requiredIds := ∅
  context := ⟨noContext, none, none, none, none, none, none⟩
  joinKeys := []
  outputSchema := schema

theorem parsed : parser.expression followed 1 true 0 = .ok (followedExpr, 6) := rfl

theorem canonical : validateIdentity ⟨"duckdb.runtime_filter", "bloom", 1⟩ = .ok () := by
  unfold validateIdentity
  rw [rejectIf, if_neg (by decide +kernel)]

theorem parsedBloom : parser.expression bloom 1 true 0 = .ok (.runtimeFilter, 2) := by
  unfold bloom Parser.expression
  simp only [StateT.bind_eq_ok, StateT.liftM_eq_ok]
  exact ⟨(), 1, rfl, (), 1, ⟨by simp, rfl⟩, (), 1, ⟨canonical, rfl⟩, (), 1,
    ⟨by decide +kernel, rfl⟩, (), 1, ⟨by decide +kernel, rfl⟩, _, 1, ⟨rfl, rfl⟩, _, 2, rfl, rfl⟩

theorem parsedSum : parser.expression sum 1 true 0 = .ok (sumExpr, 5) := rfl

/-- The three predicates as the parser makes them. -/
theorem accepted : ∀ predicate ∈ (filters .required followedExpr).predicates
        ++ (filters .advisory .runtimeFilter).predicates ++ (filters .required sumExpr).predicates,
      predicate.Accepted schema := by
  intro predicate member
  simp only [filters, cons_append, nil_append, mem_cons, not_mem_nil, or_false] at member
  rcases member with rfl | rfl | rfl
  · exact ⟨parser, ⟨"p", 0, "required", "query", followed⟩, false, 0, 6, rfl, rfl, rfl⟩
  · refine ⟨parser, ⟨"p", 0, "advisory", "query", bloom⟩, false, 0, 2, rfl, rfl, ?_⟩
    unfold Parser.predicate
    simp only [StateT.bind_eq_ok, StateT.liftM_eq_ok]
    exact ⟨(), 0, ⟨rfl, rfl⟩, .advisory, 0, ⟨rfl, rfl⟩, (), 0, ⟨by decide, rfl⟩, _, 2, parsedBloom,
      (), 2, ⟨by simp, rfl⟩, (), 2, ⟨by simp [isRuntimeFilter], rfl⟩, (), 2,
      ⟨by simp [requiresContext], rfl⟩, rfl⟩
  · exact ⟨parser, ⟨"p", 0, "required", "query", sum⟩, false, 0, 5, rfl, rfl, rfl⟩

/-- The nodes of `d = 'x' AND a IS NOT NULL`. -/
theorem everywhere_followed {condition} (whole : condition followedExpr)
    (compared : condition (.comparison .eq (.column 1 "d" texts) (.literal ⟨.utf8, [.string "x"]⟩)))
    (tested : condition (.isNull (.column 0 "a" .int64) true))
    (column : ∀ index name type, condition (.column index name type))
    (literal : ∀ value, condition (.literal value))
    : followedExpr.Everywhere condition := by
  have leaf : ∀ index name type, (Expr.column index name type).Everywhere condition :=
    fun _ _ _ => everywhere_iff.mpr ⟨column .., by simp⟩
  have constant : ∀ value, (Expr.literal value).Everywhere condition :=
    fun _ => everywhere_iff.mpr ⟨literal _, by simp⟩
  refine everywhere_iff.mpr ⟨whole, ?_⟩
  simp only [followedExpr, operands, forall_mem_cons, not_mem_nil, false_imp_iff,
    implies_true, and_true]
  exact ⟨everywhere_iff.mpr ⟨compared, by simp [leaf, constant]⟩,
    everywhere_iff.mpr ⟨tested, by simp [leaf]⟩⟩

theorem evaluable : Followed rows batch followedExpr where
  supported := everywhere_followed trivial rfl trivial (fun _ _ _ => trivial) fun _ => trivial
  exact := everywhere_followed trivial trivial trivial (fun _ _ _ => trivial) fun _ => trivial
  carried := fun _ _ => by simp [followedExpr, refuses]

end TypingSample

open TypingSample in
/-- A conjunction over a dictionary column and a nullable one evaluates to the mask of its two
rows.
-/
theorem accepted_filters_evaluate_sample
    : parser.expression followed 1 true 0 = .ok (followedExpr, 6)
      ∧ Followed rows batch followedExpr
      ∧ (∃ array, eval rows.kernels batch followedExpr = .ok array ∧ array.len = 2
        ∧ followedExpr.exprType = some array.dataType)
      ∧ (filters .required followedExpr).evaluate rows.kernels batch
        = .ok [some true, some false] := by
  have conforms : batch.schema.fields = schema.fields := rfl
  obtain ⟨evaluates, filtered, _⟩ := accepted_filters_evaluate lawful.rowWise conforms
  refine ⟨parsed, evaluable, ?_, ?_⟩
  · exact evaluates parser followed 1 true 0 6 _ rfl rfl parsed rfl evaluable
  · rw [filtered (filters .required followedExpr)
      (fun predicate member => accepted predicate (mem_append_left _ (mem_append_left _ member)))
      (fun predicate member _ => by rw [mem_singleton.mp member]; exact evaluable)]
    rfl

open TypingSample in
/-- A bloom filter is accepted and never evaluated; a sum of integers is accepted as an integer and
fails, because it is evaluated in doubles.
-/
theorem accepted_filters_not_evaluated : parser.expression bloom 1 true 0 = .ok (.runtimeFilter, 2)
      ∧ (eval rows.kernels batch .runtimeFilter).isOk = false
      ∧ (∀ predicate ∈ (filters .advisory .runtimeFilter).predicates, predicate.Accepted schema)
      ∧ (filters .advisory .runtimeFilter).evaluate rows.kernels batch = .ok [some true, some true]
      ∧ parser.expression sum 1 true 0 = .ok (sumExpr, 5)
      ∧ (∀ predicate ∈ (filters .required sumExpr).predicates, predicate.Accepted schema)
      ∧ ((filters .required sumExpr).evaluate rows.kernels batch).isOk = false := by
  refine ⟨parsedBloom, rfl, fun predicate member => accepted predicate ?_, rfl, parsedSum,
    fun predicate member => accepted predicate ?_, rfl⟩
  · exact mem_append_left _ (mem_append_right _ member)
  · exact mem_append_right _ member

end Vgi.Pushdown
