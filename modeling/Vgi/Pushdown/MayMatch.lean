import Vgi.Pushdown.RowEval

/-! Soundness of pruning by known columns: on a row that exact evaluation keeps, `mayMatch`
keeps every restriction of the row to some of its columns.
-/

namespace Vgi.Pushdown

open Arrow Lib PushdownFilters
open List hiding beq_eq_decide

/-- The known batch is the row restricted to some of its columns, in any order. -/
structure Restricts (known row : RecordBatch) : Prop where
  numRows : known.numRows = row.numRows
  columns : known.entries.Subperm row.entries

/-- Exactly one field of the schema has this name. -/
def Unambiguous (schema : Schema) (name : String) : Prop := schema.fields.countP (·.name = name) = 1

variable {batch : RecordBatch} {column : ArrayRef} {name : String} {index : Nat} {field : Field}

theorem mem_entries (named : batch.schema.fields[index]? = some field)
    (found : batch.columns[index]? = some column)
    : (field, column) ∈ batch.entries := by
  have here : batch.entries[index]? = some (field, column) := by
    simp [RecordBatch.entries, getElem?_zip_eq_some, named, found]
  exact mem_of_getElem? here

theorem countP_entries (batch : RecordBatch) (name)
    : batch.entries.countP (·.1.name = name) = batch.schema.fields.countP (·.name = name) := by
  have fields : batch.entries.map Prod.fst = batch.schema.fields := by
    rw [RecordBatch.entries, map_fst_zip]
    exact batch.columns_length.ge
  rw [← fields, countP_map]
  rfl

theorem filter_eq_singleton {α} {items : List α} {item p}
    (once : items.countP p = 1) (member : item ∈ items) (holds : p item = true)
    : items.filter p = [item] := by
  rw [countP_eq_length_filter] at once
  obtain ⟨only, single⟩ := length_eq_one_iff.mp once
  have same := mem_filter.mpr ⟨member, holds⟩
  rw [single, mem_singleton] at same
  rw [single, same]

/-- A name that occurs once is resolved to the field that has it. -/
theorem resolveColumn_unique {schema} (index) (once : Unambiguous schema name)
    : ∃ resolved field, resolveColumn schema index name = .ok resolved
      ∧ schema.fields[resolved]? = some field ∧ field.name = name := by
  unfold resolveColumn
  split
  next fits =>
    obtain ⟨field, at_index, named⟩ : ∃ field, schema.fields[index]? = some field
        ∧ field.name = name := by
      cases at_index : schema.fields[index]? with
      | none => simp [at_index] at fits
      | some field => exact ⟨field, rfl, by simpa [at_index] using fits⟩
    exact ⟨index, field, rfl, at_index, named⟩
  next =>
    have length : (schema.fields.findIdxs (·.name = name)).length = 1 := by
      rw [length_findIdxs]
      exact once
    obtain ⟨only, single⟩ := length_eq_one_iff.mp length
    have member : only ∈ schema.fields.findIdxs (·.name = name) := by simp [single]
    obtain ⟨inside, named⟩ := mem_findIdxs_iff_exists_getElem_pos.mp member
    refine ⟨only, schema.fields[only], by rw [single], getElem?_eq_getElem inside, ?_⟩
    simpa using named

theorem columnByName_isSome : (batch.columnByName name).isSome = true
      ↔ ∃ field ∈ batch.schema.fields, field.name = name := by
  unfold RecordBatch.columnByName RecordBatch.indexOf?
  cases position : batch.schema.fields.findIdx? (·.name = name) with
  | none =>
    have absent := findIdx?_eq_none_iff.mp position
    simpa using absent
  | some index =>
    obtain ⟨inside, named, _⟩ := findIdx?_eq_some_iff_getElem.mp position
    refine iff_of_true ?_ ⟨_, getElem_mem inside, by simpa using named⟩
    simpa [batch.columns_length] using inside

theorem evalColumn_of_resolved {resolved type}
    (resolves : resolveColumn batch.schema index name = .ok resolved)
    (found : batch.columns[resolved]? = some column) (typed : column.dataType = type)
    : evalColumn batch index name type = .ok column := by
  simp [evalColumn, resolves, found, rejectIf, typed]

section

variable {kernels : Kernels} {schema : Schema} {row known : RecordBatch}
  (restricts : Restricts known row)

include restricts

/-- A known column reads the same as in the full row. -/
theorem evalColumn_known (isRow : RowOf schema row)
    (unambiguous : ∀ field ∈ known.schema.fields, Unambiguous schema field.name) {name}
    (at_index : schema.fields[index]? = some field) (named : field.name = name)
    (supplied : (known.columnByName name).isSome = true)
    : evalColumn known index name field.dataType = evalColumn row index name field.dataType := by
  obtain ⟨other, otherIn, otherNamed⟩ := columnByName_isSome.mp supplied
  have once : Unambiguous schema name := otherNamed ▸ unambiguous other otherIn
  rw [Unambiguous, ← isRow.fields, ← countP_entries] at once
  have knownOnce : Unambiguous known.schema name := by
    have atMost := restricts.columns.countP_le (·.1.name = name)
    have atLeast : 0 < known.schema.fields.countP (·.name = name) :=
      countP_pos_iff.mpr ⟨other, otherIn, by simpa using otherNamed⟩
    rw [countP_entries, once] at atMost
    exact le_antisymm atMost atLeast
  obtain ⟨resolved, resolvedField, resolves, at_resolved, resolvedNamed⟩ :=
    resolveColumn_unique index knownOnce
  obtain ⟨column, found, type⟩ := known.getElem?_columns at_resolved
  rw [← isRow.fields] at at_index
  obtain ⟨rowColumn, rowFound, rowType⟩ := row.getElem?_columns at_index
  cases (filter_eq_singleton once (restricts.columns.subset (mem_entries at_resolved found))
    (by simpa using resolvedNamed)).symm.trans
      (filter_eq_singleton once (mem_entries at_index rowFound) (by simpa using named))
  have here : resolveColumn row.schema index name = .ok index := by
    simp [resolveColumn, at_index, named]
  rw [evalColumn_of_resolved resolves found type, evalColumn_of_resolved here rowFound type]

/-- An expression that reads known columns only has the same value, or error, as on the full
row.
-/
theorem eval_known (kernels) (isRow : RowOf schema row)
    (unambiguous : ∀ field ∈ known.schema.fields, Unambiguous schema field.name) {expression}
    (bound : expression.Bound schema) (reads : available known expression = true)
    : eval kernels known expression = eval kernels row expression := by
  induction bound with
  | column at_index named =>
    simpa [eval] using evalColumn_known restricts isRow unambiguous at_index named reads
  | field _ _ _ _ ih => simp only [eval, ih reads]
  | literal _ => simp only [eval, evalLiteral, restricts.numRows]
  | @comparison op left right _ _ _ ihLeft ihRight =>
    have both : available known left = true ∧ available known right = true := by
      simpa [available] using reads
    simp only [eval, ihLeft both.1, ihRight both.2, evalComparison, restricts.numRows]
  | isNull _ ih | inSet _ _ ih => simp only [eval, ih reads]
  | _ => cases reads

variable {filters : PushdownFilters} (isRow : RowOf filters.outputSchema row)

include isRow

omit restricts

theorem pruningField_row
    {entry} (member : entry ∈ row.entries) (once : Unambiguous filters.outputSchema entry.1.name)
    : filters.pruningField entry.1.name = .ok entry.1 := by
  have inside : entry.1 ∈ filters.outputSchema.fields := by
    rw [← isRow.fields]
    exact (of_mem_zip member).1
  unfold pruningField
  rw [filter_eq_singleton once inside (by simp)]

/-- Some of the row's columns, each under an unambiguous name, pass the input checks. -/
theorem checkKnown_row {entries names}
    (fromRow : ∀ entry ∈ entries, entry ∈ row.entries)
    (unambiguous : ∀ entry ∈ entries, Unambiguous filters.outputSchema entry.1.name)
    (distinct : (entries.map (·.1.name)).Nodup) (fresh : ∀ entry ∈ entries, entry.1.name ∉ names)
    : filters.checkKnown entries names = .ok () := by
  induction entries generalizing names with
  | nil => rfl
  | cons entry rest ih =>
    obtain ⟨field, column⟩ := entry
    obtain ⟨notLater, distinctRest⟩ := nodup_cons.mp distinct
    have inRow := fromRow (field, column) (mem_cons_self ..)
    have named := pruningField_row isRow inRow (unambiguous _ (mem_cons_self ..))
    have nonNull : field.isNullable = false → column.nullCount = 0 :=
      row.nonNull (field, column) inRow
    have later : filters.checkKnown rest (field.name :: names) = .ok () := ih
      (fun entry member => fromRow entry (mem_cons_of_mem _ member))
      (fun entry member => unambiguous entry (mem_cons_of_mem _ member)) distinctRest
      (by
        intro entry member
        rw [mem_cons, not_or]
        refine ⟨?_, fresh entry (mem_cons_of_mem _ member)⟩
        intro same
        exact notLater (mem_map.mpr ⟨entry, member, same⟩))
    have unseen : field.name ∉ names := fresh (field, column) (mem_cons_self ..)
    simp [checkKnown, unseen, named, later]
    exact nonNull

include restricts in
theorem checkKnown_restricts
    (unambiguous : ∀ field ∈ known.schema.fields, Unambiguous filters.outputSchema field.name)
    : filters.checkKnown known.entries [] = .ok () := by
  have each : ∀ entry ∈ known.entries, Unambiguous filters.outputSchema entry.1.name :=
    fun entry member => unambiguous entry.1 (of_mem_zip member).1
  refine checkKnown_row isRow (fun entry => (restricts.columns.subset ·)) each ?_ (by simp)
  rw [nodup_iff_count_le_one]
  intro name
  by_cases occurs : ∃ entry ∈ known.entries, entry.1.name = name
  · obtain ⟨entry, member, rfl⟩ := occurs
    have once := each entry member
    rw [Unambiguous, ← isRow.fields, ← countP_entries] at once
    have atMost := restricts.columns.countP_le (·.1.name = entry.1.name)
    rw [once] at atMost
    simpa [count, Function.comp_def, beq_eq_decide] using atMost
  · have absent : name ∉ known.entries.map (·.1.name) := by simpa using occurs
    simp [count_eq_zero.mpr absent]

end

/-- Pruning reads the value of this expression from the known columns. -/
def Decided (known : RecordBatch) (expression : Expr) : Prop :=
  supported expression = true ∧ available known expression = true

mutual

/-- The predicate can have this outcome when every undecided part may have any outcome and
the others have their value on the row.
-/
def CanBe (kernels : Kernels) (row known : RecordBatch) : Expr → Outcome → Prop
  | .and children, outcome => CanFold kernels row known true children (some true) outcome
  | .or children, outcome => CanFold kernels row known false children (some false) outcome
  | .not child, outcome => CanBe kernels row known child (Kleene.not outcome)
  | atom, outcome => Decided known atom → evalBool kernels row atom = .ok [outcome]

def CanFold (kernels : Kernels) (row known : RecordBatch) (and : Bool)
    : List Expr → Outcome → Outcome → Prop
  | [], state, final => final = state
  | child :: rest, state, final =>
    ∃ outcome, CanBe kernels row known child outcome
      ∧ CanFold kernels row known and rest (truth state outcome and) final

end

theorem canBe_atom {expression} (atom : expression.isAtom = true) {kernels row known outcome}
    : CanBe kernels row known expression outcome
      ↔ (Decided known expression → evalBool kernels row expression = .ok [outcome]) := by
  cases expression <;> first | (simp only [CanBe]; done) | cases atom

theorem canFold_iff {kernels row known and children state final}
    : CanFold kernels row known and children state final
      ↔ FoldsTo (truth · · and) (CanBe kernels row known) children state final := by
  induction children generalizing state with
  | nil => rfl
  | cons child rest ih => simp only [CanFold, FoldsTo, ih]

section

variable {kernels : Kernels} {order : FlatType → Cell → Cell → Ordering} {schema : Schema}
  {row known : RecordBatch} {expression : Expr} {and : Bool} {result sets : List Nat}
  {start : Outcome} {predicates : List Predicate} {children : List Expr} {outcome : Outcome}

theorem canBe_connective : CanBe kernels row known (.connective and children) outcome
      ↔ FoldsTo (truth · · and) (CanBe kernels row known) children (some and) outcome := by
  cases and <;> exact canFold_iff

theorem supported_connective
    : supported (.connective and children) = true ↔ ∀ child ∈ children, supported child = true := by
  cases and <;> exact allSupported_iff children

theorem partialSets_connective : partialSets kernels known (.connective and children)
      = foldSets (partialAll kernels known children) known.numRows and := by
  cases and <;> rfl

/-- The value on the row is one the predicate can have, whatever is known. -/
theorem CanBe.of_value (oneRow : row.numRows = 1) (bound : expression.Bound schema)
    : ∀ outcome, evalBool kernels row expression = .ok [outcome]
      → CanBe kernels row known expression outcome := by
  refine Expr.Bound.connectives ?_ ?_ ?_ bound
  · intro and children _ _ ih outcome value
    obtain ⟨_, same, folds⟩ := (evalBool_connective oneRow and).mp value
    cases same
    exact canBe_connective.mpr (folds.mono ih)
  · intro child _ ih outcome value
    exact ih _ (evalBool_of_not value)
  · intro expression atom _ outcome value
    exact (canBe_atom atom).mpr fun _ => value

/-- Folding outcome sets gives the outcomes of all folds of their members. -/
theorem hasOutcome_folds {set : Expr → Nat → Prop} {can : Expr → Outcome → Prop}
    {children start final} (each : ∀ child ∈ children, ∀ s, set child s
      → ∀ outcome, hasOutcome s outcome = true ↔ can child outcome)
    (folds : FoldsTo (truthSets · · and) set children start final) (outcome)
    : hasOutcome final outcome = true
      ↔ ∃ first, hasOutcome start first = true
        ∧ FoldsTo (truth · · and) can children first outcome := by
  induction children generalizing start with
  | nil =>
    cases folds
    simp [FoldsTo]
  | cons child rest ih =>
    obtain ⟨s, childSet, later⟩ := folds
    have outcomes := each child (mem_cons_self ..) s childSet
    rw [ih (fun child member => each child (mem_cons_of_mem _ member)) later]
    simp only [hasOutcome_truthSets, outcomes]
    constructor
    · rintro ⟨_, ⟨left, right, possible, can, rfl⟩, folds⟩
      exact ⟨left, possible, right, can, folds⟩
    · rintro ⟨left, possible, right, can, folds⟩
      exact ⟨_, ⟨left, right, possible, can, rfl⟩, folds⟩

/-- On one row, a connective folds its children's sets, by induction on the children with the
set so far.
-/
theorem foldSets_row {sets : Expr → Result (List Nat)} {children : List Expr}
    (single : ∀ child ∈ children, ∀ result, sets child = .ok result → ∃ s, result = [s])
    (and start)
    : (children.map sets).foldlM
        (fun result child => do
          let values ← child
          pure (updateRows (truthSets · · and) result values))
        [start] = .ok result
      ↔ ∃ final, result = [final]
        ∧ FoldsTo (truthSets · · and) (fun child s => sets child = .ok [s]) children start
          final := by
  induction children generalizing start with
  | nil =>
    simp only [map_nil, foldlM_nil, pure_eq_ok, FoldsTo, exists_eq_right]
    exact eq_comm
  | cons child rest ih =>
    have later := ih (fun child member => single child (mem_cons_of_mem _ member))
    simp only [map_cons]
    constructor
    · intro run
      obtain ⟨next, turn, run⟩ := bind_eq_ok.mp run
      simp only [bind_eq_ok, pure_eq_ok] at turn
      obtain ⟨values, childSets, rfl⟩ := turn
      obtain ⟨s, rfl⟩ := single child (mem_cons_self ..) values childSets
      obtain ⟨final, rfl, folds⟩ := (later _).mp run
      exact ⟨final, rfl, s, childSets, folds⟩
    · rintro ⟨final, rfl, s, childSets, folds⟩
      simp only [childSets]
      exact (later _).mpr ⟨final, rfl, folds⟩

/-- The facts shared by all results about one restriction of one row. -/
structure Candidate (schema : Schema) (row known : RecordBatch) : Prop where
  isRow : RowOf schema row
  restricts : Restricts known row
  unambiguous : ∀ field ∈ known.schema.fields, Unambiguous schema field.name

/-- The sets of an expression on a restricted row: one set, of the outcomes it can have. -/
def Describes (kernels : Kernels) (row known : RecordBatch) (expression : Expr)
    (sets : List Nat) : Prop :=
  ∃ s, sets = [s]
    ∧ ∀ outcome, hasOutcome s outcome = true ↔ CanBe kernels row known expression outcome

theorem Describes.single (described : Describes kernels row known expression sets)
    : ∃ s, sets = [s] := by
  obtain ⟨s, same, _⟩ := described
  exact ⟨s, same⟩

/-- An atom is known together with the value of its null test. -/
theorem available_nullTest {test} (atom : expression.isAtom = true)
    (member : test ∈ nullTests expression)
    : available known expression = available known test := by
  cases expression with
  | isNull inner negated =>
    rw [nullTests, mem_singleton] at member
    rw [member, available]
  | and => cases atom
  | or => cases atom
  | not => cases atom
  | _ => simp [nullTests] at member

/-- No null test that reads known columns only is refused its mask. -/
def KnownTestsPass (row known : RecordBatch) (expression : Expr) : Prop :=
  ∀ test ∈ nullTests expression, available known test = true → refusesMask row test = false

theorem knownTestsPass_children (tests : nullTests expression = allNullTests children)
    : KnownTestsPass row known expression ↔ ∀ child ∈ children, KnownTestsPass row known child := by
  unfold KnownTestsPass
  rw [tests]
  simp only [mem_allNullTests]
  constructor
  · exact fun pass child member test inTests => pass test ⟨child, member, inTests⟩
  · rintro pass test ⟨child, member, inTests⟩
    exact pass child member test inTests

section

variable (lawful : kernels.Lawful order) (candidate : Candidate schema row known)

include candidate

theorem Candidate.oneRow : known.numRows = 1 := by
  rw [candidate.restricts.numRows, candidate.isRow.oneRow]

theorem Candidate.evalBool (kernels) (bound : expression.Bound schema)
    (reads : available known expression = true)
    : evalBool kernels known expression = evalBool kernels row expression := by
  unfold Pushdown.evalBool
  rw [eval_known candidate.restricts kernels candidate.isRow candidate.unambiguous bound reads]

section

variable (each : ∀ child ∈ children, ∀ sets, partialSets kernels known child = .ok sets
  → Describes kernels row known child sets)

include each

/-- A connective over described children is described. -/
theorem foldSets_describes
    (run : foldSets (partialAll kernels known children) known.numRows and = .ok result)
    : ∃ s, result = [s] ∧ ∀ outcome, hasOutcome s outcome = true
      ↔ FoldsTo (truth · · and) (CanBe kernels row known) children (some and) outcome := by
  have outcomes : ∀ child ∈ children, ∀ s, partialSets kernels known child = .ok [s]
      → ∀ outcome, hasOutcome s outcome = true ↔ CanBe kernels row known child outcome := by
    intro child member s childRun
    obtain ⟨_, same, outcomes⟩ := each child member [s] childRun
    cases same
    exact outcomes
  rw [foldSets, candidate.oneRow, partialAll_eq_map] at run
  obtain ⟨final, rfl, folds⟩ :=
    (foldSets_row (fun child member sets run => (each child member sets run).single) and _).mp run
  refine ⟨final, rfl, fun outcome => ?_⟩
  rw [hasOutcome_folds outcomes folds]
  simp

theorem foldSets_isOk
    (passes : ∀ child ∈ children, (∃ sets, partialSets kernels known child = .ok sets)
      ↔ KnownTestsPass row known child)
    : (∃ sets, foldSets (partialAll kernels known children) known.numRows and = .ok sets)
      ↔ ∀ child ∈ children, KnownTestsPass row known child := by
  have single := fun child member sets run => (each child member sets run).single
  rw [foldSets, candidate.oneRow, partialAll_eq_map]
  simp only [replicate_one, foldSets_row single and]
  constructor
  · rintro ⟨_, final, _, folds⟩ child member
    obtain ⟨s, childRun⟩ := FoldsTo.exists_iff.mp ⟨final, folds⟩ child member
    exact (passes child member).mp ⟨[s], childRun⟩
  · intro pass
    have childSets : ∀ child ∈ children, ∃ s, partialSets kernels known child = .ok [s] := by
      intro child member
      obtain ⟨sets, childRun⟩ := (passes child member).mpr (pass child member)
      obtain ⟨s, rfl⟩ := single child member sets childRun
      exact ⟨s, childRun⟩
    obtain ⟨final, folds⟩ := FoldsTo.exists_iff.mpr childSets
    exact ⟨[final], final, rfl, folds⟩

end

variable (bound : expression.Bound schema)

include lawful bound

theorem partialAtom_describes (typed : expression.exprType = some .boolean)
    (run : partialAtom kernels known expression = .ok sets)
    : ∃ s, sets = [s] ∧ ∀ outcome, hasOutcome s outcome = true
      ↔ (Decided known expression → evalBool kernels row expression = .ok [outcome]) := by
  unfold partialAtom at run
  split at run
  next decided =>
    have reads : Decided known expression := by simpa [Decided] using decided
    simp only [bind_eq_ok, pure_eq_ok] at run
    obtain ⟨values, evaluated, rfl⟩ := run
    rw [candidate.evalBool kernels bound reads.2] at evaluated
    rcases evaluates_of_supported candidate.isRow lawful bound typed reads.1 with
      ⟨⟨outcome, value⟩, _⟩ | ⟨⟨error, fails⟩, _⟩
    · rw [value] at evaluated
      cases evaluated
      exact ⟨_, rfl, fun other => by simp [reads, value]⟩
    · rw [fails] at evaluated
      cases evaluated
  next undecided =>
    have open_ : ¬Decided known expression := by simpa [Decided] using undecided
    cases run
    exact ⟨unknownOutcome, by simp [candidate.oneRow], fun other => by simp [open_]⟩

/-- Outcome sets are exact for the known columns, by induction on the predicate. -/
theorem partialSets_describes : expression.exprType = some .boolean
      → ∀ sets, partialSets kernels known expression = .ok sets
        → Describes kernels row known expression sets := by
  refine Expr.Bound.connectives ?_ ?_ ?_ bound
  · intro and children _ typed ih _ sets run
    rw [partialSets_connective] at run
    simpa only [Describes, canBe_connective] using
      foldSets_describes candidate (fun child member => ih child member (typed child member)) run
  · intro child typed ih _ sets run
    obtain ⟨childSets, childRun, rfl⟩ := map_eq_ok.mp run
    obtain ⟨s, rfl, outcomes⟩ := ih typed _ childRun
    refine ⟨negateSet s, rfl, fun outcome => ?_⟩
    rw [hasOutcome_negateSet, outcomes, CanBe]
  · intro expression atom bound typed sets run
    rw [partialSets_atom atom] at run
    simpa only [Describes, canBe_atom atom] using
      partialAtom_describes lawful candidate bound typed run

theorem partialAtom_isOk (atom : expression.isAtom = true)
    (typed : expression.exprType = some .boolean) (supports : supported expression = true)
    : (∃ sets, partialAtom kernels known expression = .ok sets)
      ↔ KnownTestsPass row known expression := by
  cases reads : available known expression with
  | false =>
    refine iff_of_true ⟨_, by simp [partialAtom, reads]; rfl⟩ ?_
    intro test member supplied
    rw [← available_nullTest atom member, reads] at supplied
    cases supplied
  | true =>
    have value := candidate.evalBool kernels bound reads
    rcases evaluates_of_supported candidate.isRow lawful bound typed supports with
      ⟨⟨outcome, evaluated⟩, accepted⟩ | ⟨⟨error, fails⟩, test, member, refuses⟩
    · refine iff_of_true ⟨[1 <<< outcomeBit outcome], ?_⟩ fun test member _ =>
        accepted test member
      simp [partialAtom, supports, reads, value, evaluated]
    · refine iff_of_false ?_ ?_
      · simp [partialAtom, supports, reads, value, fails]
      · intro pass
        rw [available_nullTest atom member] at reads
        rw [pass test member reads] at refuses
        cases refuses

/-- Computing outcome sets fails exactly at a known null test that is refused its mask. -/
theorem partialSets_isOk : expression.exprType = some .boolean → supported expression = true
      → ((∃ sets, partialSets kernels known expression = .ok sets)
        ↔ KnownTestsPass row known expression) := by
  refine Expr.Bound.connectives ?_ ?_ ?_ bound
  · intro and children bound typed ih _ supports
    rw [supported_connective] at supports
    have tests : nullTests (.connective and children) = allNullTests children := by
      cases and <;> rfl
    rw [partialSets_connective, knownTestsPass_children tests]
    exact foldSets_isOk candidate
      (fun child member => partialSets_describes lawful candidate (bound child member)
        (typed child member))
      fun child member => ih child member (typed child member) (supports child member)
  · intro child typed ih _ supports
    have childIff := ih typed supports
    simp only [partialSets, map_eq_ok]
    constructor
    · rintro ⟨_, sets, run, _⟩
      exact childIff.mp ⟨sets, run⟩
    · intro pass
      obtain ⟨sets, run⟩ := childIff.mpr pass
      exact ⟨_, sets, run, rfl⟩
  · intro expression atom bound typed supports
    rw [partialSets_atom atom]
    exact partialAtom_isOk lawful candidate bound atom typed supports

end

/-- Exact evaluation does not drop the row for the predicate. -/
def Predicate.Passes (predicate : Predicate) (kernels : Kernels) (row : RecordBatch) : Prop :=
  predicate.expression.isRuntimeFilter = true
  ∨ evalBool kernels row predicate.expression = .ok [some true]
  ∨ predicate.mode = .advisory ∧ ∃ error, evalBool kernels row predicate.expression = .error error

variable {predicate : Predicate}

theorem evaluatePredicate_row {result}
    (turn : evaluatePredicate kernels row [start] predicate = .ok result)
    : ∃ outcome, result = [outcome] ∧ (outcome = some true →
      start = some true ∧ predicate.Passes kernels row) := by
  unfold evaluatePredicate at turn
  split at turn
  next runtime =>
    cases turn
    exact ⟨start, rfl, fun kept => ⟨kept, .inl runtime⟩⟩
  next =>
    split at turn
    next current value =>
      obtain ⟨v, rfl⟩ : ∃ v, current = [v] := by
        rw [← length_eq_one_iff]
        simp [andKleene, zipBoolean] at turn
        grind
      cases turn
      refine ⟨Kleene.and start v, rfl, fun kept => ?_⟩
      obtain ⟨startTrue, rfl⟩ := Kleene.and_eq_true.mp kept
      exact ⟨startTrue, .inr (.inl value)⟩
    next error fails =>
      split at turn
      next advisory =>
        cases turn
        exact ⟨start, rfl, fun kept => ⟨kept, .inr (.inr ⟨advisory, error, fails⟩)⟩⟩
      next => cases turn

/-- What holds of every predicate when a row is kept, by induction on the predicates. -/
theorem evaluate_row
    (run : predicates.foldlM (evaluatePredicate kernels row) [start] = .ok [some true])
    : start = some true ∧ ∀ predicate ∈ predicates, predicate.Passes kernels row := by
  induction predicates generalizing start with
  | nil =>
    cases run
    simp
  | cons predicate rest ih =>
    obtain ⟨next, turn, later⟩ := bind_eq_ok.mp run
    obtain ⟨outcome, rfl, first⟩ := evaluatePredicate_row turn
    obtain ⟨outcomeTrue, others⟩ := ih later
    obtain ⟨startTrue, here⟩ := first outcomeTrue
    refine ⟨startTrue, ?_⟩
    simpa using ⟨here, others⟩

/-- The predicate's turn leaves TRUE possible. -/
def Retains (kernels : Kernels) (known : RecordBatch) (predicate : Predicate) : Prop :=
  (predicate.mode = .advisory ∧ ¬supported predicate.expression = true)
  ∨ ∀ s, partialSets kernels known predicate.expression = .ok [s] → hasOutcome s (some true) = true

theorem hasOutcome_and_true {left right}
    : hasOutcome (truthSets left right true) (some true) = true
      ↔ hasOutcome left (some true) = true ∧ hasOutcome right (some true) = true := by
  rw [hasOutcome_truthSets]
  simp only [truth_true, Kleene.and_eq_true]
  constructor
  · rintro ⟨_, _, left, right, rfl, rfl⟩
    exact ⟨left, right⟩
  · rintro ⟨left, right⟩
    exact ⟨_, _, left, right, rfl, rfl⟩

theorem prunePredicate_row
    (single : ∀ sets, partialSets kernels known predicate.expression = .ok sets
      → ∃ s, sets = [s]) (start)
    : ∃ next, prunePredicate kernels known [start] predicate = [next]
      ∧ (hasOutcome next (some true) = true
        ↔ hasOutcome start (some true) = true ∧ Retains kernels known predicate) := by
  unfold prunePredicate Retains
  split
  next skipped => exact ⟨start, rfl, by simp [skipped]⟩
  next considered =>
    cases run : partialSets kernels known predicate.expression with
    | error error => exact ⟨start, rfl, by simp⟩
    | ok sets =>
      obtain ⟨s, rfl⟩ := single sets run
      refine ⟨truthSets start s true, rfl, ?_⟩
      simp only [hasOutcome_and_true, considered, false_or, Except.ok.injEq, cons.injEq,
        and_true, forall_eq']

/-- TRUE stays possible through all predicates exactly when each retains it. -/
theorem prune_row (single : ∀ predicate ∈ predicates, ∀ sets,
      partialSets kernels known predicate.expression = .ok sets → ∃ s, sets = [s]) (start)
    : ∃ final, predicates.foldl (prunePredicate kernels known) [start] = [final]
      ∧ (hasOutcome final (some true) = true
        ↔ hasOutcome start (some true) = true
          ∧ ∀ predicate ∈ predicates, Retains kernels known predicate) := by
  induction predicates generalizing start with
  | nil => exact ⟨start, rfl, by simp⟩
  | cons predicate rest ih =>
    obtain ⟨next, turn, first⟩ := prunePredicate_row (single predicate (by simp)) start
    obtain ⟨final, run, later⟩ :=
      ih (fun predicate member => single predicate (mem_cons_of_mem _ member)) next
    refine ⟨final, by rw [foldl_cons, turn, run], ?_⟩
    rw [later, first]
    simp [and_assoc]

theorem mayMatch_row {filters : PushdownFilters}
    (candidate : Candidate filters.outputSchema row known)
    (single : ∀ predicate ∈ filters.predicates, ∀ sets,
      partialSets kernels known predicate.expression = .ok sets → ∃ s, sets = [s])
    : filters.mayMatch kernels known = .ok [some true]
      ↔ ∀ predicate ∈ filters.predicates, Retains kernels known predicate := by
  obtain ⟨final, run, outcomes⟩ := prune_row single (1 <<< outcomeBit (some true))
  have checked := checkKnown_restricts candidate.restricts candidate.isRow candidate.unambiguous
  rw [hasOutcome_singleton, eq_self, true_and] at outcomes
  rw [← outcomes, hasOutcome_true]
  simp only [mayMatch, checked, candidate.oneRow, replicate_one, run]
  simp

/-- Exact evaluation drops this advisory predicate on the row, though pruning supports it: one
of its null tests is refused its mask.
-/
def Dropped (row : RecordBatch) (predicate : Predicate) : Prop :=
  predicate.mode = .advisory ∧ supported predicate.expression = true
  ∧ ∃ test ∈ nullTests predicate.expression, refusesMask row test = true

/-- A predicate retains a kept row unless exact evaluation drops it while pruning decides it.
-/
theorem retains_iff (lawful : kernels.Lawful order) (candidate : Candidate schema row known)
    (bound : predicate.expression.Bound schema)
    (typed : predicate.expression.exprType = some .boolean)
    (kept : predicate.Passes kernels row)
    : Retains kernels known predicate
      ↔ (Dropped row predicate
        → ¬KnownTestsPass row known predicate.expression
          ∨ CanBe kernels row known predicate.expression (some true)) := by
  have described := partialSets_describes lawful candidate bound typed
  have retains : CanBe kernels row known predicate.expression (some true)
      → Retains kernels known predicate := by
    intro can
    refine .inr fun s run => ?_
    obtain ⟨_, same, outcomes⟩ := described [s] run
    cases same
    exact (outcomes _).mpr can
  constructor
  · rintro retained ⟨advisory, supports, _⟩
    rcases retained with ⟨_, unsupported⟩ | always
    · exact absurd supports unsupported
    · by_cases pass : KnownTestsPass row known predicate.expression
      · obtain ⟨sets, run⟩ := (partialSets_isOk lawful candidate bound typed supports).mpr pass
        obtain ⟨s, rfl, outcomes⟩ := described sets run
        exact .inr ((outcomes _).mp (always s run))
      · exact .inl pass
  · intro condition
    rcases kept with runtime | value | ⟨advisory, error, fails⟩
    · apply retains
      cases same : predicate.expression with
      | runtimeFilter => exact (canBe_atom rfl).mpr fun decided => nomatch decided.1
      | _ => simp [same, Expr.isRuntimeFilter] at runtime
    · exact retains (CanBe.of_value candidate.isRow.oneRow bound _ value)
    · by_cases supports : supported predicate.expression = true
      · rcases evaluates_of_supported candidate.isRow lawful bound typed supports with
          ⟨⟨outcome, value⟩, _⟩ | ⟨_, refused⟩
        · rw [fails] at value
          cases value
        · rcases condition ⟨advisory, supports, refused⟩ with blocked | can
          · refine .inr fun s run => ?_
            exact absurd ((partialSets_isOk lawful candidate bound typed supports).mp ⟨_, run⟩)
              blocked
          · exact retains can
      · exact .inl ⟨advisory, supports⟩

/-- On a row that exact evaluation keeps, pruning by a restriction of the row keeps it too,
except for advisory predicates that evaluation drops at a refused mask: such a predicate must
fail on the known columns as well, or still allow TRUE there.
-/
theorem mayMatch_keeps_iff (lawful : kernels.Lawful order) {filters : PushdownFilters}
    (accepted : ∀ predicate ∈ filters.predicates, predicate.Accepted filters.outputSchema)
    (candidate : Candidate filters.outputSchema row known)
    (kept : filters.evaluate kernels row = .ok [some true])
    : filters.mayMatch kernels known = .ok [some true]
      ↔ ∀ predicate ∈ filters.predicates, Dropped row predicate
        → ¬KnownTestsPass row known predicate.expression
          ∨ CanBe kernels row known predicate.expression (some true) := by
  have bound := fun predicate member => (accepted predicate member).sound.1
  rw [mayMatch_row candidate fun predicate member sets run =>
    (partialSets_describes lawful candidate (bound predicate member).1
      (bound predicate member).2 sets run).single]
  rw [PushdownFilters.evaluate, candidate.isRow.oneRow] at kept
  have each := (evaluate_row kept).2
  exact forall₂_congr fun predicate member =>
    retains_iff lawful candidate (bound predicate member).1 (bound predicate member).2
      (each predicate member)

end

namespace PruningSample

/-- The order of Booleans and integers; other values do not occur in the samples. -/
def order : FlatType → Cell → Cell → Ordering
  | .boolean, left, right => compare left.boolValue right.boolValue
  | _, left, right => compareOn intValue left right
where
  intValue : Cell → Int
    | .int value => value
    | _ => 0

/-- Kernels that compare and select as Arrow does, for those values. -/
def kernels : Kernels where
  cast := fun array target =>
    if target = array.dataType.logicalValueType then .ok array.unpacked
    else .error "Casting is not supported"
  takeFirst := fun array count =>
    match array.cells with
    | cell :: _ => .ok { array with cells := replicate count cell }
    | [] => if count = 0 then .ok array else .error "Out-of-bounds index 0"
  compare := fun op left right _ _ =>
    match left.dataType with
    | .flat type => broadcastRows (compareCells (order type) op) left.cells right.cells
    | _ => .error "Invalid comparison operation"
  makeComparator := fun _ _ => .error "Not yet implemented"
  numeric := fun _ _ _ => .error "Invalid arithmetic operation"
  negate := fun _ => .error "Invalid arithmetic operation"

theorem lawful : kernels.Lawful order where
  compare := by
    intro type op left right _ _ _ leftType _
    simp [kernels, leftType]
  total := by
    intro type _
    by_cases boolean : type = .boolean
    · subst boolean
      exact inferInstanceAs (Std.TransCmp (compareOn Cell.boolValue))
    · have integers : order type = compareOn order.intValue := by
        funext left right
        exact order.eq_2 type left right boolean
      rw [integers]
      infer_instance
  boolean := fun _ _ => rfl
  unpack := by
    intro array key value type
    simp [kernels]
  takeFirst := by
    intro array result cell count single taken
    simp [kernels, single] at taken
    exact taken.symm
  takesOrdered := by
    intro array type count _ _ single
    obtain ⟨cell, cells⟩ := length_eq_one_iff.mp single
    simp [kernels, cells]
    rfl

def structType : DataType := .struct [.mk "u" .null true]

def schema : Schema := { fields := [.mk "s" structType true, .mk "b" .int64 true], metadata := [] }

def row (struct : Cell) (value : Int) : RecordBatch where
  schema := schema
  columns := [⟨structType, [struct]⟩, ⟨.int64, [.int value]⟩]
  numRows := 1
  types := rfl
  lengths := by simp [ArrayRef.len]
  nonNull := by simp [schema]

/-- The row with its integer only. -/
def known (value : Int) : RecordBatch where
  schema := { fields := [.mk "b" .int64 true], metadata := [] }
  columns := [⟨.int64, [.int value]⟩]
  numRows := 1
  types := rfl
  lengths := by simp [ArrayRef.len]
  nonNull := by simp

def parser : Parser where
  batch :=
    { schema :=
        { fields := [.mk "filter_spec" .utf8 false, .mk "value_0" .int64 true]
          metadata := [("vgi_evaluation_context", noContext)] }
      columns := [⟨.utf8, [.string ""]⟩, ⟨.int64, [.int 5]⟩]
      numRows := 1
      types := rfl
      lengths := by simp [ArrayRef.len]
      nonNull := by simp [ArrayRef.nullCount, Cell.isNull] }
  joinKeys := []
  outputSchema := schema

/-- `s.u IS NULL AND b = 5` on the wire. -/
def wire : WirePredicate where
  id := "a"
  revision := 0
  mode := "advisory"
  source := "query"
  expression := .and [.isNull (.fieldRef (.columnRef 0 "s") 0 "u") false,
    .comparison "eq" (.columnRef 1 "b") (.literal 0)]

def predicate : Predicate where
  id := "a"
  revision := 0
  mode := .advisory
  expression := .and
    [.isNull (.field (.column 0 "s" structType) 0 "u" .null) false,
      .comparison .eq (.column 1 "b" .int64) (.literal ⟨.int64, [.int 5]⟩)]

theorem accepted : predicate.Accepted schema := ⟨parser, wire, false, 0, 7, rfl, rfl, rfl⟩

def filters : PushdownFilters where
  predicates := [predicate]
  revisions := ∅
  requiredIds := ∅
  context := ⟨noContext, none, none, none, none, none, none⟩
  joinKeys := []
  outputSchema := schema

theorem accepts : ∀ predicate ∈ filters.predicates, predicate.Accepted filters.outputSchema := by
  intro predicate member
  rw [mem_singleton.mp member]
  exact accepted

/-- A struct that is not NULL lets the null test of its field pass. -/
theorem not_dropped
    : ∀ predicate ∈ filters.predicates, ¬Dropped (row (.struct [.null]) 5) predicate := by
  rintro predicate member ⟨_, _, test, inTests, refuses⟩
  rw [mem_singleton.mp member] at inTests
  simp [PruningSample.predicate, nullTests] at inTests
  subst inTests
  cases refuses

theorem candidate (struct value)
    : Candidate schema (row struct value) (known value) where
  isRow := ⟨rfl, rfl⟩
  restricts := ⟨rfl, Sublist.subperm (.cons _ (.cons_cons _ .slnil))⟩
  unambiguous := by
    intro field member
    rw [known, mem_singleton] at member
    subst member
    rfl

end PruningSample

section

open PruningSample

/-- With a NULL struct the null test of its field fails, so evaluation passes over the advisory
predicate and keeps the row; pruning still reads `b = 5` as FALSE and drops it.
-/
theorem mayMatch_loses_kept_row
    : (∀ predicate ∈ filters.predicates, predicate.Accepted filters.outputSchema)
      ∧ Candidate filters.outputSchema (row .null 6) (known 6)
      ∧ filters.evaluate kernels (row .null 6) = .ok [some true]
      ∧ filters.mayMatch kernels (known 6) = .ok [some false] := by
  exact ⟨accepts, candidate .null 6, by decide +kernel, by decide +kernel⟩

/-- With a struct that is not NULL the predicate evaluates and the row is kept by both. -/
theorem mayMatch_keeps_sample : filters.evaluate kernels (row (.struct [.null]) 5) = .ok [some true]
      ∧ filters.mayMatch kernels (known 5) = .ok [some true] := by
  have kept : filters.evaluate kernels (row (.struct [.null]) 5) = .ok [some true] := by
    decide +kernel
  refine ⟨kept, (mayMatch_keeps_iff lawful accepts (candidate _ 5) kept).mpr ?_⟩
  intro predicate member dropped
  exact absurd dropped (not_dropped predicate member)

end

end Vgi.Pushdown
