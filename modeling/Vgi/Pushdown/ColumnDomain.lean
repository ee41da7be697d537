import Vgi.Pushdown.DomainCover
import Vgi.Pushdown.MayMatch

/-! Soundness of column domains: the value of the column in a row that exact evaluation keeps
lies in the domain inferred for the column.
-/

namespace Vgi.Pushdown

open Arrow Lib List CompareOp Std.OrientedCmp ArrayRef Cell ColumnDomain Option

section

variable {kernels : Kernels} {order : FlatType → Cell → Cell → Ordering}

/-- The outcomes a predicate is followed through: its value on the row, or, where pruning
supports it, any outcome it can have when only the selected column is known.
-/
def Possible (kernels : Kernels) (row known : RecordBatch) (expression : Expr)
    (outcome : Outcome) : Prop :=
  supported expression = true ∧ CanBe kernels row known expression outcome
  ∨ evalBool kernels row expression = .ok [outcome]

section

variable {schema : Schema} {row known : RecordBatch}

variable {children : List Expr} {outcome : Outcome} {expression : Expr} {value values : ArrayRef}
  {flat : FlatType} {op : CompareOp} {type : DataType} {whole result domain : ColumnDomain}

theorem Possible.connective {and} (oneRow : row.numRows = 1)
    (possible : Possible kernels row known (.connective and children) outcome)
    : FoldsTo (truth · · and) (Possible kernels row known) children (some and) outcome := by
  rcases possible with ⟨supports, can⟩ | value
  · rw [supported_connective] at supports
    exact (canBe_connective.mp can).mono fun child member _ can => .inl ⟨supports child member, can⟩
  · obtain ⟨_, same, folds⟩ := (evalBool_connective oneRow and).mp value
    cases same
    exact folds.mono fun child _ _ value => .inr value

theorem Possible.not {child} (possible : Possible kernels row known (.not child) outcome)
    : Possible kernels row known child (Kleene.not outcome) := by
  rcases possible with ⟨supports, can⟩ | value
  · exact .inl ⟨supports, can⟩
  · exact .inr (evalBool_of_not value)

/-- An atom over the known column only has its value on the row. -/
theorem Possible.atom (possible : Possible kernels row known expression outcome)
    (atom : expression.isAtom = true) (reads : available known expression = true)
    : evalBool kernels row expression = .ok [outcome] := by
  rcases possible with ⟨supports, can⟩ | value
  · exact (canBe_atom atom).mp can ⟨supports, reads⟩
  · exact value

/-- The column at this position of the schema, under a name no other field has. -/
structure ColumnAt (schema : Schema) (row : RecordBatch) (column : String) (index : Nat)
    (field : Field) : Prop where
  isRow : RowOf schema row
  at_index : schema.fields[index]? = some field
  named : field.name = column
  once : Unambiguous schema column

def columnValue (row : RecordBatch) (column : String) (index : Nat) (field : Field) : Cell :=
  readValue row (.column index column field.dataType) field.dataType

variable {column : String} {index : Nat} {field : Field}
  (here : ColumnAt schema row column index field)

include here

theorem ColumnAt.index_unique {other otherField}
    (at_other : schema.fields[other]? = some otherField)
    (named : otherField.name = column)
    : other = index ∧ otherField = field := by
  have length : (schema.fields.findIdxs (·.name = column)).length = 1 := by
    rw [length_findIdxs]
    exact here.once
  obtain ⟨only, single⟩ := length_eq_one_iff.mp length
  have position : ∀ i f, schema.fields[i]? = some f → f.name = column → i = only := by
    intro i f at_i f_named
    obtain ⟨inside, rfl⟩ := List.getElem?_eq_some_iff.mp at_i
    have member : i ∈ schema.fields.findIdxs (·.name = column) :=
      mem_findIdxs_iff_exists_getElem_pos.mpr ⟨inside, by simpa using f_named⟩
    simpa [single] using member
  have same : other = index := by
    rw [position other otherField at_other named, position index field here.at_index here.named]
  subst same
  rw [here.at_index] at at_other
  cases at_other
  exact ⟨rfl, rfl⟩

/-- A bound expression that targets the column is the reference to it. -/
theorem ColumnAt.target_eq
    (bound : expression.Bound schema) (targets : target expression column = true)
    : expression = .column index column field.dataType := by
  cases bound with
  | @column _ name _ at_index named =>
    have same : name = column := by simpa [target] using targets
    obtain ⟨rfl, rfl⟩ := here.index_unique at_index (named.trans same)
    rw [same]
  | _ => cases targets

theorem ColumnAt.supplied (type)
    : available (row.select column) (.column index column type) = true := by
  have at_index := here.at_index
  rw [← here.isRow.fields] at at_index
  obtain ⟨values, found, _⟩ := row.getElem?_columns at_index
  refine columnByName_isSome.mpr ⟨field, mem_map.mpr ⟨(field, values), ?_, rfl⟩, here.named⟩
  exact mem_filter.mpr ⟨mem_entries at_index found, by simpa using here.named⟩

theorem ColumnAt.bound : Expr.Bound schema (.column index column field.dataType) :=
  .column here.at_index here.named

omit here

theorem holds_swap (op ordering) : op.holds ordering.swap = (reversed op).holds ordering := by
  cases op <;> cases ordering <;> rfl

theorem withNulls_swap (op left right verdict)
    : op.withNulls left right verdict = (reversed op).withNulls right left verdict := by
  cases l : left.isNull <;> cases r : right.isNull <;> cases op <;>
    simp [withNulls, reversed, l]

theorem compareCells_reversed {cmp} [Std.OrientedCmp cmp] (op left right)
    : compareCells cmp op left right = compareCells cmp (reversed op) right left := by
  have swapped : cmp left right = (cmp right left).swap := eq_swap
  rw [compareCells, compareCells, swapped, holds_swap, withNulls_swap]

/-- A literal that unpacks to an ordered scalar reads as that scalar. -/
theorem OrderedValue.of_unpacked (row) {literal}
    (bound : Expr.Bound schema (.literal value)) (orders : flat.ordered = true)
    (unpacked : value.unpacked = ⟨.flat flat, [literal]⟩)
    : OrderedValue schema (.literal value) value.dataType flat
      ∧ readValue row (.literal value) value.dataType = literal := by
  have logical : value.dataType.logicalValueType = .flat flat := congrArg ArrayRef.dataType unpacked
  refine ⟨⟨bound, rfl, rfl, logical, orders⟩, ?_⟩
  have cells : value.cells.map (unpack value.dataType) = [literal] := congrArg cells unpacked
  obtain ⟨cell, single, rfl⟩ := map_eq_singleton_iff.mp cells
  simp [readValue, readCell, single]

include here

theorem ColumnAt.ordered
    (logical : field.dataType.logicalValueType = .flat flat) (orders : flat.ordered = true)
    : OrderedValue schema (.column index column field.dataType) field.dataType flat :=
  ⟨here.bound, rfl, rfl, logical, orders⟩

variable (lawful : kernels.Lawful order)

include lawful

theorem ColumnAt.compared (bound : Expr.Bound schema (.literal value))
    (evaluated : evalBool kernels row
        (.comparison op (.column index column field.dataType) (.literal value))
      = .ok [outcome])
    : ComparedWith order field.dataType.logicalValueType (columnValue row column index field)
      op value outcome := by
  intro flat literal logical orders unpacked
  obtain ⟨literalValue, reads⟩ := OrderedValue.of_unpacked row bound orders unpacked
  rw [evalBool_comparison here.isRow lawful (here.ordered logical orders) literalValue op,
    reads] at evaluated
  cases evaluated
  rfl

theorem ColumnAt.comparedReversed (bound : Expr.Bound schema (.literal value))
    (evaluated : evalBool kernels row
        (.comparison op (.literal value) (.column index column field.dataType))
      = .ok [outcome])
    : ComparedWith order field.dataType.logicalValueType (columnValue row column index field)
      (reversed op) value outcome := by
  intro flat literal logical orders unpacked
  have total := valueOrder_trans lawful orders
  obtain ⟨literalValue, reads⟩ := OrderedValue.of_unpacked row bound orders unpacked
  rw [evalBool_comparison here.isRow lawful literalValue (here.ordered logical orders) op,
    reads, compareCells_reversed] at evaluated
  cases evaluated
  rfl

omit here lawful in
/-- Without an order every disjunction of at least one item can have every outcome. -/
theorem foldsTo_any {ι : Type} {can : ι → Outcome → Prop}
    (always : ∀ item outcome, can item outcome)
    (outcome) {items start} (reachable : start = outcome ∨ start = some false ∧ items ≠ [])
    : FoldsTo (truth · · false) can items start outcome := by
  induction items generalizing start with
  | nil => exact (reachable.resolve_right (by simp)).symm
  | cons item rest ih =>
    refine ⟨outcome, always item outcome, ih (.inl ?_)⟩
    rcases reachable with same | ⟨same, _⟩ <;> rcases outcome with _ | _ | _ <;>
      rw [same] <;> rfl

omit here lawful in
/-- Comparing with each listed value in turn folds to the outcome of IN. -/
theorem foldsTo_listed (cell : Cell) (logical : type = .flat flat)
    : FoldsTo (truth · · false) (ComparedWith order type cell .eq) (listedValues values)
        (some false) (inOutcome order flat cell values.unpacked.cells) := by
  have fold : ∀ (cells : List Cell) (start : Outcome),
      FoldsTo (truth · · false) (ComparedWith order type cell .eq)
        (cells.map fun item => ⟨values.dataType, [item]⟩) start
        ((cells.map (unpack values.dataType)).foldl
          (fun result item =>
            truth result (compareCells (valueOrder order flat) .eq cell item) false) start) := by
    intro cells
    induction cells with
    | nil => exact fun _ => rfl
    | cons item rest ih =>
      intro start
      refine ⟨compareCells (valueOrder order flat) .eq cell (unpack values.dataType item), ?_, ?_⟩
      · intro flat' literal sameType _ unpacked
        have same : [unpack values.dataType item] = [literal] := congrArg cells unpacked
        rw [logical] at sameType
        cases sameType
        cases same
        rfl
      · exact ih _
  simpa only [inOutcome, truth_false, listedValues, unpacked] using fold values.cells (some false)

theorem ColumnAt.listed {negated}
    (compatible : field.dataType.logicalValueType = values.dataType.logicalValueType)
    (evaluated : evalBool kernels row
        (.inSet (.column index column field.dataType) values negated) = .ok [outcome])
    : FoldsTo (truth · · false)
        (ComparedWith order field.dataType.logicalValueType
          (columnValue row column index field) .eq)
        (listedValues values) (some false)
        (if negated then Kleene.not outcome else outcome) := by
  by_cases orders : Pushdown.ordered field.dataType = true
  · obtain ⟨flat, logical, total⟩ := logicalValueType_of_ordered orders
    have logicalValues := compatible.symm.trans logical
    rw [evalBool_inSet here.isRow lawful (here.ordered logical total) logicalValues negated]
      at evaluated
    have folds : FoldsTo (truth · · false)
        (ComparedWith order field.dataType.logicalValueType
          (columnValue row column index field) .eq) (listedValues values) (some false)
        (inOutcome order flat (columnValue row column index field) values.unpacked.cells) :=
      foldsTo_listed _ logical
    cases negated <;> cases evaluated <;> simpa [columnValue] using folds
  · have always : ∀ item outcome, ComparedWith order field.dataType.logicalValueType
        (columnValue row column index field) .eq item outcome := by
      intro item outcome flat _ logical total
      exact absurd (by simp [Pushdown.ordered, logical, total]) orders
    cases cells : values.cells with
    | cons item rest =>
      exact foldsTo_any always _ (.inr ⟨rfl, by simp [listedValues, cells]⟩)
    | nil =>
      have reads := evalColumn_row here.isRow here.at_index here.named
      have isFalse : outcome = if negated then some true else some false := by
        cases negated <;>
          simpa [evalBool, eval, reads, inList, dictionaryValues_eq lawful, unpacked, len, cells,
            allFalse, notKernel, Kleene.not, eq_comm] using evaluated
      subst isFalse
      cases negated <;> simp [listedValues, cells, FoldsTo, Kleene.not]

/-- The column's whole domain, as far as the results below need it. -/
structure Whole (order : FlatType → Cell → Cell → Ordering) (row : RecordBatch)
    (column : String) (index : Nat) (field : Field) (whole : ColumnDomain) : Prop where
  valid : whole.Valid field.dataType.logicalValueType
  admits : whole.Admits order field.dataType.logicalValueType (columnValue row column index field)

omit here in
theorem compareCells_true (cell : Cell)
    : compareCells (valueOrder order .boolean) .eq cell (.bool true) = cell.toBool := by
  have verdict : valueOrder order .boolean cell (.bool true)
      = compare cell.boolValue true := lawful.boolean cell (.bool true)
  cases value : cell.boolValue <;>
    simp [compareCells, CompareOp.withNulls, verdict, CompareOp.holds, Cell.toBool, Cell.isNull,
      value, compare]

variable (isWhole : Whole order row column index field whole)

include isWhole

/-- A Boolean column is compared with TRUE. -/
theorem ColumnAt.boolean_covers (typed : field.dataType = .boolean)
    : ∃ result, comparisonDomains kernels .eq (.ofBool [some true]) whole = .ok result
      ∧ Covers order field.dataType.logicalValueType (columnValue row column index field) result
        (Possible kernels row (row.select column) (.column index column field.dataType)) := by
  obtain ⟨result, run, covers⟩ := comparisonDomains_covers lawful isWhole.valid isWhole.admits
    .eq (.ofBool [some true])
  refine ⟨result, run, covers.mono ?_⟩
  intro outcome possible flat literal _ _ unpacked
  have evaluated := possible.atom rfl (here.supplied field.dataType)
  rw [evalBool_boolean kernels here.isRow here.bound rfl (congrArg some typed)] at evaluated
  cases evaluated
  cases unpacked
  rw [columnValue, readValue, typed, unpack_flat]
  exact (compareCells_true lawful _).symm

omit isWhole here in
/-- A literal operand is compared with the column; any other operand says nothing. -/
theorem literalDomains_covers {cell}
    (valid : whole.Valid type) (inWhole : whole.Admits order type cell) {other can}
    (compared : ∀ value, other = .literal value → ∀ outcome, can outcome
      → ComparedWith order type cell op value outcome)
    : ∃ result, literalDomains kernels op other whole = .ok result
      ∧ Covers order type cell result can := by
  unfold literalDomains
  split
  next value =>
    obtain ⟨result, run, covers⟩ := comparisonDomains_covers lawful valid inWhole op value
    exact ⟨result, run, covers.mono (compared value rfl)⟩
  next => exact ⟨_, rfl, (anyDomains_covers valid inWhole).mono fun _ _ => trivial⟩

omit lawful in
theorem ColumnAt.null_covers (negated : Bool)
    : Covers order field.dataType.logicalValueType (columnValue row column index field)
        (nullTestDomains negated whole)
        (Possible kernels row (row.select column)
          (.isNull (.column index column field.dataType) negated)) := by
  refine (nullTestDomains_covers isWhole.valid isWhole.admits negated).mono ?_
  intro outcome possible
  have evaluated := possible.atom rfl (here.supplied field.dataType)
  obtain ⟨type, typed, value⟩ := evalBool_isNull kernels here.isRow here.bound rfl negated
  cases typed
  rw [value] at evaluated
  cases evaluated
  rw [columnValue, readValue, isLogicalNull_unpack]

/-- The domains of an atom cover its possible outcomes. -/
theorem ColumnAt.atom_covers (atom : expression.isAtom = true) (bound : expression.Bound schema)
    (typed : expression.exprType = some .boolean)
    : ∃ result, domains kernels column whole expression = .ok result
      ∧ Covers order field.dataType.logicalValueType (columnValue row column index field) result
        (Possible kernels row (row.select column) expression) := by
  have any : ∃ result, (pure (anyDomains whole) : Result Domains) = .ok result
      ∧ Covers order field.dataType.logicalValueType (columnValue row column index field) result
        (Possible kernels row (row.select column) expression) :=
    ⟨_, rfl, (anyDomains_covers isWhole.valid isWhole.admits).mono fun _ _ => trivial⟩
  cases bound with
  | and => cases atom
  | or => cases atom
  | not => cases atom
  | @column i name found at_index named =>
    rw [domains]
    split
    next targets =>
      obtain ⟨same, boolean⟩ := targets
      obtain ⟨rfl, rfl⟩ := here.index_unique at_index (named.trans same)
      subst same
      exact here.boolean_covers lawful isWhole (some.inj typed)
    next => exact any
  | @literal value scalar =>
    rw [domains]
    split
    next boolean =>
      refine ⟨_, rfl, (constantDomains_covers isWhole.valid isWhole.admits _).mono ?_⟩
      intro outcome possible
      have evaluated := possible.atom rfl rfl
      rw [evalBool_boolean kernels here.isRow (.literal scalar) rfl typed] at evaluated
      cases evaluated
      rfl
    next => exact any
  | @comparison op left right boundLeft boundRight compatible =>
    rw [domains]
    split
    next targets =>
      obtain rfl := here.target_eq boundLeft targets
      refine literalDomains_covers lawful isWhole.valid isWhole.admits ?_
      rintro value rfl outcome possible
      exact here.compared lawful boundRight
        (possible.atom rfl (by simpa [available] using here.supplied field.dataType))
    next =>
      split
      next targets =>
        obtain rfl := here.target_eq boundRight targets
        refine literalDomains_covers lawful isWhole.valid isWhole.admits ?_
        rintro value rfl outcome possible
        exact here.comparedReversed lawful boundLeft
          (possible.atom rfl (by simpa [available] using here.supplied field.dataType))
      next => exact any
  | @isNull inner negated boundInner =>
    rw [domains]
    split
    next targets =>
      obtain rfl := here.target_eq boundInner targets
      exact ⟨_, rfl, here.null_covers isWhole negated⟩
    next => exact any
  | @inSet inner values negated boundInner compatible =>
    rw [domains]
    split
    next targets =>
      obtain rfl := here.target_eq boundInner targets
      obtain ⟨result, run, covers⟩ :=
        inDomains_covers lawful isWhole.valid isWhole.admits values negated
      refine ⟨result, run, covers.mono ?_⟩
      intro outcome possible
      exact here.listed lawful (some.inj compatible)
        (possible.atom rfl (here.supplied field.dataType))
    next => exact any
  | _ => simpa only [domains] using any

/-- The domains of a predicate cover its possible outcomes, by induction on its connectives. -/
theorem ColumnAt.covers (bound : expression.Bound schema)
    : expression.exprType = some .boolean
      → ∃ result, domains kernels column whole expression = .ok result
        ∧ Covers order field.dataType.logicalValueType (columnValue row column index field)
          result (Possible kernels row (row.select column) expression) := by
  refine Expr.Bound.connectives ?_ ?_ ?_ bound
  · intro and children _ typed ih _
    have folded : domains kernels column whole (.connective and children)
        = foldDomains kernels (allDomains kernels column whole children) and whole := by
      cases and <;> rfl
    rw [folded, foldDomains, allDomains_eq_map]
    obtain ⟨result, run, covers⟩ := foldDomains_covers lawful isWhole.valid and
      (fun child member => ih child member (typed child member))
      (constantDomains_covers isWhole.valid isWhole.admits (some and))
    exact ⟨result, run, covers.mono fun outcome possible =>
      ⟨_, rfl, possible.connective here.isRow.oneRow⟩⟩
  · intro child typed ih _
    obtain ⟨result, run, covers⟩ := ih typed
    refine ⟨swapDomains result, ?_, covers.swap.mono fun outcome possible => possible.not⟩
    rw [domains, run]
    rfl
  · intro expression atom bound typed
    exact here.atom_covers lawful isWhole atom bound typed

variable (isResult : Whole order row column index field result)

include isResult in
/-- A predicate that holds of the row, or that may hold where the column alone is known, keeps
the column's value in the domain.
-/
theorem restrictDomain_admits {predicate} (bound : predicate.expression.Bound schema)
    (typed : predicate.expression.exprType = some .boolean) (kept : predicate.Passes kernels row)
    (undecided : Dropped row predicate
      → CanBe kernels row (row.select column) predicate.expression (some true))
    : ∃ next, restrictDomain kernels column whole result predicate = .ok next
      ∧ Whole order row column index field next := by
  unfold restrictDomain
  split
  next => exact ⟨result, rfl, isResult⟩
  next considered =>
    obtain ⟨outcomeDomains, run, covers⟩ := here.covers lawful isWhole bound typed
    have admits : (outcomeDomains (some true)).Admits order field.dataType.logicalValueType
        (columnValue row column index field) := by
      rcases kept with runtime | value | ⟨advisory, error, fails⟩
      · cases same : predicate.expression with
        | runtimeFilter =>
          simp only [same, domains, pure_eq_ok] at run
          subst run
          exact isWhole.admits
        | _ => simp [same, Expr.isRuntimeFilter] at runtime
      · exact covers.admits _ (.inr value)
      · have supports : supported predicate.expression = true := by
          by_contra unsupported
          exact considered ⟨advisory, unsupported⟩
        rcases evaluates_of_supported here.isRow lawful bound typed supports with
          ⟨⟨outcome, value⟩, _⟩ | ⟨_, refused⟩
        · rw [fails] at value
          cases value
        · exact covers.admits _ (.inl ⟨supports, undecided ⟨advisory, supports, refused⟩⟩)
    obtain ⟨next, intersected, valid, both⟩ :=
      combined lawful isResult.valid (covers.valid (some true)) true
    exact ⟨next, by rw [run]; exact intersected, valid, both _ ⟨isResult.admits, admits⟩⟩

omit isWhole

omit lawful in
/-- The column of the row holds the one slot that its reference reads. -/
theorem ColumnAt.entry : row.columns[index]?
        = some ⟨field.dataType, [readCell row (.column index column field.dataType)]⟩
      ∧ (field, (⟨field.dataType, [readCell row (.column index column field.dataType)]⟩
          : ArrayRef)) ∈ row.entries := by
  have at_index := here.at_index
  rw [← here.isRow.fields] at at_index
  obtain ⟨values, found, type⟩ := row.getElem?_columns at_index
  have single : values.len = 1 := by
    rw [row.lengths values (mem_of_getElem? found), here.isRow.oneRow]
  have same : values = ⟨field.dataType, [readCell row (.column index column field.dataType)]⟩ := by
    rw [eq_singleton single, type]
    simp [readCell, found]
  subst same
  exact ⟨found, mem_entries at_index found⟩

omit lawful in
theorem ColumnAt.columnByName (found : row.columnByName column = some values)
    : values = ⟨field.dataType, [readCell row (.column index column field.dataType)]⟩ := by
  obtain ⟨position, located, at_position⟩ := bind_eq_some_iff.mp found
  obtain ⟨inside, named, _⟩ := findIdx?_eq_some_iff_getElem.mp located
  have same := (here.index_unique
    (by rw [← here.isRow.fields]; exact getElem?_eq_getElem inside)
    (by simpa using named)).1
  subst same
  rw [here.entry.1] at at_position
  exact (some.inj at_position).symm

omit here lawful in
theorem isLogicalNull_physical (physical : encodesNull type = false) (cell : Cell)
    : cell.isLogicalNull type = cell.isNull := by
  cases type with
  | flat flat => cases flat <;> first | rfl | cases physical
  | dictionary | union | runEndEncoded => cases physical
  | _ => rfl

omit lawful in
/-- All values of the field's type, and NULL where the field or its encoding admits it. -/
theorem universeOf_whole : Whole order row column index field (universeOf field) := by
  refine ⟨⟨rfl, ?_⟩, ?_⟩
  · unfold universeOf
    split <;> trivial
  · unfold ColumnDomain.Admits columnValue readValue
    rw [isLogicalNull_unpack]
    split
    next missing =>
      cases nullable : field.isNullable with
      | true => simp [universeOf, nullable]
      | false =>
        have present : (readCell row (.column index column field.dataType)).isNull = false := by
          simpa [nullCount] using row.nonNull _ here.entry.2 nullable
        cases encodes : encodesNull field.dataType with
        | true => simp [universeOf, encodes]
        | false =>
          rw [isLogicalNull_physical encodes, present] at missing
          cases missing
    next present =>
      have notNull : field.dataType ≠ .null := by
        intro isNull
        simp [isNull, isLogicalNull] at present
      simp [universeOf, notNull, Interval.Contains]

omit here in
/-- The mask of one comparison with an endpoint is TRUE where the order says so. -/
theorem compareArrays_scalar {cell endpoint} (scalar : IsScalar type endpoint) (op)
    : ∃ mask, compareArrays kernels ⟨type, [cell]⟩ endpoint op = .ok [mask]
      ∧ (cell.isLogicalNull type = false
        → mask = some (op.holds (scalarCmp order type ⟨type, [cell]⟩ endpoint))) := by
  obtain ⟨flat, literal, rfl, orders, rfl, present⟩ := scalar
  refine ⟨_, compareArrays_singleton lawful orders rfl rfl _ _ op, fun value => ?_⟩
  rw [isLogicalNull_of_ordered orders] at value
  rw [unpack_flat, unpack_flat, compareCells_of_values value present]
  simp [scalarCmp, orders]

omit here in
/-- The mask of one end is TRUE if its comparison holds. -/
theorem boundMask_scalar (cell : Cell) {bound}
    (scalars : bound.Forall (IsScalar type)) (closed past : CompareOp)
    : ∃ mask, boundMask kernels ⟨type, [cell]⟩ bound closed past = .ok [mask]
      ∧ (cell.isLogicalNull type = false → (match bound with
          | .unbounded => True
          | .included end_ => closed.holds (scalarCmp order type ⟨type, [cell]⟩ end_) = true
          | .excluded end_ => past.holds (scalarCmp order type ⟨type, [cell]⟩ end_) = true)
        → mask = some true) := by
  cases bound with
  | unbounded => exact ⟨some true, rfl, fun _ _ => rfl⟩
  | included end_ | excluded end_ =>
    obtain ⟨mask, run, value⟩ := compareArrays_scalar lawful (scalars end_ rfl) _
    exact ⟨mask, run, fun present is => (value present).trans (congrArg some is)⟩

omit here in
/-- The mask of the non-NULL part is TRUE on its values. -/
theorem nonNullMask_of_admits (cell : Cell)
    (valid : domain.Valid type)
    : ∃ mask, domain.nonNullMask kernels ⟨type, [cell]⟩ = .ok [mask]
      ∧ (cell.isLogicalNull type = false
        → domain.nonNull.Contains (scalarCmp order type) ⟨type, [cell]⟩ → mask = some true) := by
  have endpoints := valid.endpoints
  unfold nonNullMask
  cases shape : domain.nonNull with
  | empty => exact ⟨some false, rfl, fun _ impossible => impossible.elim⟩
  | all => exact ⟨some true, rfl, fun _ _ => rfl⟩
  | range lower upper =>
    rw [shape] at endpoints
    have total := scalarCmp_trans lawful type
    obtain ⟨above, aboveRun, aboveTrue⟩ := boundMask_scalar lawful cell endpoints.1 .ge .gt
    obtain ⟨below, belowRun, belowTrue⟩ := boundMask_scalar lawful cell endpoints.2 .le .lt
    refine ⟨Kleene.and above below, by simp [aboveRun, belowRun, andKleene], ?_⟩
    rintro present ⟨isAbove, isBelow⟩
    rw [aboveTrue present ?_, belowTrue present ?_]
    · rfl
    · cases upper <;> simp_all [Bound.Above, holds]
    · cases lower <;> simp_all [Bound.Below, holds, isGE_iff_isLE, gt_of_lt]

variable (inDomain : Whole order row column index field domain)

include inDomain

theorem mayContain_of_admits (found : row.columnByName column = some values)
    : domain.mayContain kernels values = .ok [some true] := by
  obtain rfl := here.columnByName found
  obtain ⟨mask, run, isTrue⟩ := nonNullMask_of_admits lawful
    (columnValue row column index field) inDomain.valid
  have admits := inDomain.admits
  have unpacked : unpacked
      ⟨field.dataType, [readCell row (.column index column field.dataType)]⟩
      = ⟨field.dataType.logicalValueType, [columnValue row column index field]⟩ := rfl
  unfold mayContain
  rw [dictionaryValues_eq lawful, ok_bind, unpacked]
  simp only [inDomain.valid.typed, run]
  unfold ColumnDomain.Admits at admits
  split at admits
  next missing => simp [missing, admits]
  next present =>
    have present := Bool.eq_false_iff.mpr present
    simp [present, isTrue present admits, valueAt]

omit here lawful in
theorem isEmpty_of_admits : domain.isEmpty = false := by
  have admits := inDomain.admits
  unfold ColumnDomain.Admits at admits
  unfold ColumnDomain.isEmpty
  split at admits
  next => simp [admits]
  next =>
    cases shape : domain.nonNull with
    | empty =>
      rw [shape] at admits
      exact admits.elim
    | _ => rfl

omit inDomain

omit here lawful in
theorem columnAt_of_pruningField {filters : PushdownFilters}
    (isRow : RowOf filters.outputSchema row) (found : filters.pruningField column = .ok field)
    : ∃ index, ColumnAt filters.outputSchema row column index field := by
  have single : filters.outputSchema.fields.filter (·.name = column) = [field] := by
    unfold PushdownFilters.pruningField at found
    split at found
    next => cases found
    next only same => rw [same, Except.ok.inj found]
    next => cases found
  have member : field ∈ filters.outputSchema.fields.filter (·.name = column) := by simp [single]
  obtain ⟨inside, named⟩ := mem_filter.mp member
  obtain ⟨index, at_index⟩ := getElem?_of_mem inside
  exact ⟨index, isRow, at_index, by simpa using named,
    by rw [Unambiguous, countP_eq_length_filter, single, length_singleton]⟩

include isResult isWhole in
/-- The loop over the predicates keeps the column's value in the domain, by induction on the
predicates.
-/
theorem restrictDomains_admits {predicates : List Predicate}
    (bound : ∀ predicate ∈ predicates, predicate.expression.Bound schema
      ∧ predicate.expression.exprType = some .boolean)
    (kept : ∀ predicate ∈ predicates, predicate.Passes kernels row)
    (undecided : ∀ predicate ∈ predicates, Dropped row predicate
      → CanBe kernels row (row.select column) predicate.expression (some true))
    : ∃ final, predicates.foldlM (restrictDomain kernels column whole) result = .ok final
      ∧ Whole order row column index field final := by
  induction predicates generalizing result with
  | nil => exact ⟨result, rfl, isResult⟩
  | cons predicate rest ih =>
    have first : predicate ∈ predicate :: rest := mem_cons_self ..
    obtain ⟨next, turn, isNext⟩ := restrictDomain_admits here lawful isWhole isResult
      (bound predicate first).1 (bound predicate first).2 (kept predicate first)
      (undecided predicate first)
    obtain ⟨final, run, isFinal⟩ := ih isNext
      (fun predicate member => bound predicate (mem_cons_of_mem _ member))
      (fun predicate member => kept predicate (mem_cons_of_mem _ member))
      (fun predicate member => undecided predicate (mem_cons_of_mem _ member))
    exact ⟨final, by rw [foldlM_cons, turn, ok_bind, run], isFinal⟩

omit here lawful

/-- On a row that exact evaluation keeps, the domain of every column that `columnDomain`
accepts contains the row's value and is not empty, as long as every advisory predicate that
evaluation drops at a refused mask can still be TRUE where only this column is known.
-/
theorem columnDomain_contains (lawful : kernels.Lawful order) {filters : PushdownFilters}
    (accepted : ∀ predicate ∈ filters.predicates, predicate.Accepted filters.outputSchema)
    (isRow : RowOf filters.outputSchema row)
    (kept : filters.evaluate kernels row = .ok [some true]) {domain : ColumnDomain}
    (inferred : filters.columnDomain kernels column = .ok domain) {values : ArrayRef}
    (found : row.columnByName column = some values)
    (undecided : ∀ predicate ∈ filters.predicates, Dropped row predicate
      → CanBe kernels row (row.select column) predicate.expression (some true))
    : domain.mayContain kernels values = .ok [some true] ∧ domain.isEmpty = false := by
  rw [PushdownFilters.evaluate, isRow.oneRow] at kept
  obtain ⟨field, named, run⟩ := bind_eq_ok.mp inferred
  obtain ⟨index, here⟩ := columnAt_of_pruningField isRow named
  have isWhole : Whole order row column index field (universeOf field) := universeOf_whole here
  obtain ⟨final, sameRun, isFinal⟩ := restrictDomains_admits here lawful isWhole isWhole
    (fun predicate member => (accepted predicate member).sound.1) (evaluate_row kept).2 undecided
  rw [run] at sameRun
  cases sameRun
  exact ⟨mayContain_of_admits here lawful isFinal found, isEmpty_of_admits isFinal⟩

end

end

section

open PruningSample

/-- The row that pruning loses is also outside the domain of its integer column: evaluation
passes over the advisory predicate, but `b = 5` still restricts the domain to 5.
-/
theorem columnDomain_excludes_kept_row
    : (∀ predicate ∈ filters.predicates, predicate.Accepted filters.outputSchema)
      ∧ RowOf filters.outputSchema (row .null 6)
      ∧ filters.evaluate kernels (row .null 6) = .ok [some true]
      ∧ ∃ domain, filters.columnDomain kernels "b" = .ok domain
        ∧ (row .null 6).columnByName "b" = some ⟨.int64, [.int 6]⟩
        ∧ domain.mayContain kernels ⟨.int64, [.int 6]⟩ = .ok [some false] := by
  refine ⟨accepts, ⟨rfl, rfl⟩, by decide +kernel, ?_⟩
  have outside : ((filters.columnDomain kernels "b").map fun domain =>
      domain.mayContain kernels ⟨.int64, [.int 6]⟩) = .ok (.ok [some false]) := by
    decide +kernel
  obtain ⟨domain, inferred, excluded⟩ := map_eq_ok.mp outside
  exact ⟨domain, inferred, rfl, excluded⟩

/-- With a struct that is not NULL the domain of the integer column contains its value. -/
theorem columnDomain_contains_sample : ∃ domain, filters.columnDomain kernels "b" = .ok domain
      ∧ domain.mayContain kernels ⟨.int64, [.int 5]⟩ = .ok [some true]
      ∧ domain.isEmpty = false := by
  have accepted : (filters.columnDomain kernels "b").isOk = true := by decide +kernel
  cases inferred : filters.columnDomain kernels "b" with
  | error error => simp [inferred, Except.isOk, Except.toBool] at accepted
  | ok domain =>
    have kept : filters.evaluate kernels (row (.struct [.null]) 5) = .ok [some true] := by
      decide +kernel
    refine ⟨domain, rfl, columnDomain_contains lawful accepts ⟨rfl, rfl⟩ kept inferred rfl ?_⟩
    intro predicate member dropped
    exact absurd dropped (not_dropped _ member)

end

end Vgi.Pushdown
