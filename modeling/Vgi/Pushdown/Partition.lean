import Vgi.Pushdown.Typing

/-! Filters see one row at a time. The mask of a batch is the conjunction of the meanings of
its predicates on each row, it does not depend on the other columns of the batch or on their
order, and it is the masks of the parts of the batch in a row unless one row makes the
evaluator pass over an advisory predicate for all of them.
-/

namespace Vgi.Pushdown

open Arrow Lib List

def columnsNamed (batch : RecordBatch) (name : String) : List (Field × ArrayRef) :=
  batch.entries.filter (·.1.name = name)

/-- The batches have the same columns under the names of the schema, at most one for each, in
whatever places and beside whatever other columns.
-/
structure SameColumns (schema : Schema) (batch other : RecordBatch) : Prop where
  rows : other.numRows = batch.numRows
  single : ∀ field ∈ schema.fields, (columnsNamed batch field.name).length ≤ 1
  same : ∀ field ∈ schema.fields, columnsNamed other field.name = columnsNamed batch field.name

theorem fields_eq_map_entries (batch : RecordBatch)
    : batch.schema.fields = batch.entries.map Prod.fst := by
  rw [RecordBatch.entries, map_fst_zip (Nat.le_of_eq batch.columns_length.symm)]

variable {name : String}

/-- A field of this name brings its column along. -/
theorem entry_of_field {batch} {place : Nat}
    (named : (batch.schema.fields[place]?).any (·.name = name) = true)
    : ∃ entry, batch.entries[place]? = some entry ∧ entry ∈ columnsNamed batch name := by
  rw [fields_eq_map_entries, getElem?_map] at named
  obtain ⟨field, found, isNamed⟩ := (Option.any_eq_true _ _).mp named
  obtain ⟨entry, here, rfl⟩ := Option.map_eq_some_iff.mp found
  exact ⟨entry, here, mem_filter.mpr ⟨mem_of_getElem? here, isNamed⟩⟩

/-- A name with at most one column resolves to the place of that column, if there is one. -/
theorem resolveColumn_named {batch}
    (single : (columnsNamed batch name).length ≤ 1) (index)
    : (∃ place entry, resolveColumn batch.schema index name = .ok place
        ∧ batch.entries[place]? = some entry ∧ columnsNamed batch name = [entry])
      ∨ columnsNamed batch name = []
        ∧ resolveColumn batch.schema index name = .error (valueError
          "authoritatively bound column_ref is absent or ambiguous in evaluation batch") := by
  have only : ∀ entry ∈ columnsNamed batch name, columnsNamed batch name = [entry] := by
    intro entry member
    match listed : columnsNamed batch name with
    | [] => simp [listed] at member
    | [_] => simpa [listed, eq_comm] using member
    | _ :: _ :: _ => simp [listed] at single
  unfold resolveColumn
  by_cases atIndex : (batch.schema.fields[index]?).any (·.name = name) = true
  · obtain ⟨entry, here, member⟩ := entry_of_field atIndex
    exact .inl ⟨index, entry, if_pos atIndex, here, only entry member⟩
  · rw [if_neg atIndex]
    have count : (batch.schema.fields.findIdxs (·.name = name)).length
        = (columnsNamed batch name).length := by
      rw [length_findIdxs, fields_eq_map_entries, countP_map, countP_eq_length_filter]
      rfl
    rcases Nat.le_one_iff_eq_zero_or_eq_one.mp single with none | one
    · rw [none, length_eq_zero_iff] at count
      rw [count]
      exact .inr ⟨length_eq_zero_iff.mp none, rfl⟩
    · rw [one] at count
      obtain ⟨place, found⟩ := length_eq_one_iff.mp count
      have member : place ∈ batch.schema.fields.findIdxs (·.name = name) := by simp [found]
      obtain ⟨inside, named⟩ := mem_findIdxs_iff_exists_getElem_pos.mp member
      have isNamed : (batch.schema.fields[place]?).any (·.name = name) = true := by
        simpa [inside] using named
      obtain ⟨entry, here, member⟩ := entry_of_field isNamed
      rw [found]
      exact .inl ⟨place, entry, rfl, here, only entry member⟩

/-- A name with at most one column is read from that column, whatever the index. -/
theorem evalColumn_named {batch}
    (single : (columnsNamed batch name).length ≤ 1) (index dataType)
    : evalColumn batch index name dataType
      = match columnsNamed batch name with
        | [] =>
          .error (valueError
            "authoritatively bound column_ref is absent or ambiguous in evaluation batch")
        | entry :: _ =>
          if entry.2.dataType = dataType then .ok entry.2
          else .error (valueError "column_ref type changed in evaluation batch") := by
  unfold evalColumn
  rcases resolveColumn_named single index with
    ⟨place, entry, resolved, here, only⟩ | ⟨absent, failed⟩
  · have column : batch.columns[place]? = some entry.2 :=
      (getElem?_zip_eq_some.mp here).2
    rw [resolved, ok_bind, column, only]
    by_cases typed : entry.2.dataType = dataType
    · simp [rejectIf, typed]
    · simp [okOr, rejectIf, typed]
  · rw [failed, absent]
    rfl

section

variable {kernels : Kernels} {schema : Schema} {batch other : RecordBatch}

theorem SameColumns.eval (same : SameColumns schema batch other) {expression}
    (bound : expression.Bound schema)
    : eval kernels other expression = eval kernels batch expression := by
  induction bound with
  | column at_index named =>
    have member := mem_of_getElem? at_index
    subst named
    have one := same.single _ member
    simp only [Pushdown.eval]
    rw [evalColumn_named one, evalColumn_named (by rw [same.same _ member]; exact one),
      same.same _ member]
  | field _ _ _ _ ih => simp only [Pushdown.eval, ih]
  | literal _ => simp only [Pushdown.eval, evalLiteral, same.rows]
  | comparison _ _ _ ihLeft ihRight =>
    simp only [Pushdown.eval, ihLeft, ihRight, evalComparison, same.rows]
  | and _ _ ih | or _ _ ih =>
    simp only [Pushdown.eval, evalAll_eq_map, map_congr_left ih, same.rows]
  | not _ _ ih | isNull _ ih | inSet _ _ ih | cast _ ih => simp only [Pushdown.eval, ih]
  | arithmetic _ _ _ _ _ ihLeft ihRight => simp only [Pushdown.eval, ihLeft, ihRight]
  | negate _ _ ih => simp only [Pushdown.eval, ih]
  | call _ _ ih => simp only [Pushdown.eval, evalAll_eq_map, map_congr_left ih]
  | runtimeFilter => simp only [Pushdown.eval]

theorem SameColumns.evaluate (same : SameColumns schema batch other) {filters : PushdownFilters}
    (bound : ∀ predicate ∈ filters.predicates, predicate.expression.Bound schema)
    : filters.evaluate kernels other = filters.evaluate kernels batch := by
  unfold PushdownFilters.evaluate
  rw [same.rows]
  refine foldlM_congr fun predicate member result => ?_
  unfold evaluatePredicate evalBool
  rw [same.eval (bound predicate member)]

end

/-- The parts, one after the other, have the rows of the batch. -/
structure PartsOf (batch : RecordBatch) (parts : List RecordBatch) : Prop where
  nonempty : parts ≠ []
  schema : ∀ part ∈ parts, part.schema = batch.schema
  rows : parts.flatMap rowsOf = rowsOf batch

def evaluateParts (kernels : Kernels) (filters : PushdownFilters) (parts : List RecordBatch)
    : Result BooleanArray :=
  (parts.mapM (filters.evaluate kernels)).map flatten

/-- The predicate can be evaluated on this row alone. -/
def AppliesTo (rows : RowKernels) (schema : Schema) (row : List Cell) (predicate : Predicate)
    : Prop :=
  predicate.expression.isRuntimeFilter = false
    ∧ rows.typeOf schema predicate.expression = some .boolean
    ∧ rows.refuses schema row predicate.expression = false

/-- The required predicates can be evaluated on the batch. -/
def RequiredApply (rows : RowKernels) (filters : PushdownFilters) (batch : RecordBatch) : Prop :=
  ∀ predicate ∈ filters.predicates, predicate.mode = .required →
    predicate.expression.isRuntimeFilter = true ∨ rows.Applies batch predicate

/-- If a row of the batch makes the evaluator pass over an advisory predicate, then the
predicate makes no difference on the rows where it could be evaluated: it is TRUE there, or a
predicate that is applied is FALSE, or both are NULL.
-/
def Undisturbed (rows : RowKernels) (filters : PushdownFilters) (batch : RecordBatch) : Prop :=
  RequiredApply rows filters batch →
  ∀ row ∈ rowsOf batch, ∀ predicate ∈ filters.predicates,
    ¬rows.Applies batch predicate → AppliesTo rows batch.schema row predicate →
    let applied := filters.predicates.filter (rows.Applies batch)
    rows.outcome batch.schema row predicate = some true
      ∨ (∃ other ∈ applied, rows.outcome batch.schema row other = some false)
      ∨ rows.outcome batch.schema row predicate = none
        ∧ ∃ other ∈ applied, rows.outcome batch.schema row other = none

section

variable {kernels : Kernels} {rows : RowKernels} {filters : PushdownFilters} {batch : RecordBatch}
  {parts : List RecordBatch}

instance (rows : RowKernels) (filters : PushdownFilters) (batch : RecordBatch)
    : Decidable (RequiredApply rows filters batch) :=
  inferInstanceAs (Decidable (∀ predicate ∈ filters.predicates, _ → _))

variable {schema : Schema} (isParts : PartsOf batch parts) (rowWise : RowWise kernels rows)
  (bound : ∀ predicate ∈ filters.predicates,
    rows.Decides schema batch.schema predicate.expression)

include rowWise bound in
theorem evaluate_toOption
    : (filters.evaluate kernels batch).toOption
      = if RequiredApply rows filters batch then
          some ((rowsOf batch).map (rows.conjunction batch.schema
            (filters.predicates.filter (rows.Applies batch))))
        else none := by
  split
  next applies =>
    rw [evaluate_rows rowWise bound fun predicate member =>
      (notFailing_iff rowWise (bound predicate member)).mpr (applies predicate member)]
    rfl
  next fails =>
    cases value : filters.evaluate kernels batch with
    | error error => rfl
    | ok mask =>
      have sound := notFailing_of_evaluated value
      exact absurd (fun predicate member =>
        (notFailing_iff rowWise (bound predicate member)).mp (sound predicate member)) fails

include isParts

/-- A predicate takes part in the mask of a batch if it takes part in those of its parts. -/
theorem PartsOf.applies_iff (predicate)
    : rows.Applies batch predicate ↔ ∀ part ∈ parts, rows.Applies part predicate := by
  constructor
  · rintro ⟨evaluated, typed, carried⟩ part member
    refine ⟨evaluated, ?_, fun row inside => ?_⟩
    · rw [isParts.schema part member]
      exact typed
    · rw [isParts.schema part member]
      exact carried row (isParts.rows ▸ mem_flatMap.mpr ⟨part, member, inside⟩)
  · intro applies
    obtain ⟨first, member⟩ := exists_mem_of_ne_nil parts isParts.nonempty
    obtain ⟨evaluated, typed, _⟩ := applies first member
    refine ⟨evaluated, isParts.schema first member ▸ typed, fun row inside => ?_⟩
    obtain ⟨part, member, inside⟩ := mem_flatMap.mp (isParts.rows ▸ inside)
    exact isParts.schema part member ▸ (applies part member).2.2 row inside

theorem PartsOf.requiredApply_iff
    : RequiredApply rows filters batch ↔ ∀ part ∈ parts, RequiredApply rows filters part := by
  constructor
  · intro applies part inParts predicate member required
    exact (applies predicate member required).imp_right fun applies =>
      (isParts.applies_iff predicate).mp applies part inParts
  · intro applies predicate member required
    by_cases skipped : predicate.expression.isRuntimeFilter = true
    · exact .inl skipped
    · refine .inr ((isParts.applies_iff predicate).mpr fun part inParts => ?_)
      exact (applies part inParts predicate member required).resolve_left skipped

include rowWise bound in
/-- The masks of the parts exist if the mask of the batch does, and are each the conjunction of
the predicates that take part there.
-/
theorem PartsOf.evaluateParts_toOption : (evaluateParts kernels filters parts).toOption
      = if RequiredApply rows filters batch then
          some (parts.flatMap fun part => (rowsOf part).map (rows.conjunction batch.schema
            (filters.predicates.filter (rows.Applies part))))
        else none := by
  have decides : ∀ part ∈ parts, ∀ predicate ∈ filters.predicates,
      rows.Decides schema part.schema predicate.expression := fun part member =>
    isParts.schema part member ▸ bound
  unfold evaluateParts
  split
  next applies =>
    have masks : ∀ part ∈ parts, filters.evaluate kernels part
        = .ok ((rowsOf part).map (rows.conjunction batch.schema
            (filters.predicates.filter (rows.Applies part)))) := by
      intro part member
      have sound := isParts.requiredApply_iff.mp applies part member
      rw [← isParts.schema part member]
      exact evaluate_rows rowWise (decides part member) fun predicate listed =>
        (notFailing_iff rowWise (decides part member predicate listed)).mpr (sound predicate listed)
    rw [mapM_eq_ok_map masks]
    rfl
  next fails =>
    have some : ∃ part ∈ parts, ¬RequiredApply rows filters part := by
      simpa using isParts.requiredApply_iff.not.mp fails
    obtain ⟨part, member, fails⟩ := some
    cases run : parts.mapM (filters.evaluate kernels) with
    | error error => rfl
    | ok masks =>
      obtain ⟨mask, evaluated⟩ := mapM_ok_of_mem run member
      have none : (filters.evaluate kernels part).toOption = _ :=
        evaluate_toOption rowWise (decides part member)
      simp [evaluated, fails] at none

omit isParts

variable {row : List Cell}

/-- The row alone keeps what the batch keeps of it, and so does every part the row is in. -/
theorem conjunction_eq_iff {predicates : List Predicate}
    {fewer more : Predicate → Prop} [DecidablePred fewer] [DecidablePred more]
    (within : ∀ predicate, fewer predicate → more predicate)
    : rows.conjunction schema (predicates.filter more) row
        = rows.conjunction schema (predicates.filter fewer) row
      ↔ ∀ predicate ∈ predicates, ¬fewer predicate → more predicate →
          rows.outcome schema row predicate = some true
          ∨ (∃ other ∈ predicates.filter fewer, rows.outcome schema row other = some false)
          ∨ rows.outcome schema row predicate = none
            ∧ ∃ other ∈ predicates.filter fewer, rows.outcome schema row other = none := by
  have sub : (predicates.filter fewer).map (rows.outcome schema row)
      ⊆ (predicates.filter more).map (rows.outcome schema row) :=
    map_subset _ fun predicate member => by
      simp only [mem_filter, decide_eq_true_eq] at member ⊢
      exact ⟨member.1, within predicate member.2⟩
  unfold RowKernels.conjunction
  rw [Kleene.foldl_and_eq_iff sub]
  rw [forall_mem_map]
  simp only [mem_map]
  constructor
  · intro absorbed predicate member _ applies
    exact absorbed predicate (mem_filter.mpr ⟨member, by simpa using applies⟩)
  · intro absorbed predicate member
    obtain ⟨listed, applies⟩ := mem_filter.mp member
    by_cases already : fewer predicate
    · have kept : predicate ∈ predicates.filter fewer :=
        mem_filter.mpr ⟨listed, by simpa using already⟩
      rcases value : rows.outcome schema row predicate with _ | _ | _
      · exact .inr (.inr ⟨rfl, predicate, kept, value⟩)
      · exact .inr (.inl ⟨predicate, kept, value⟩)
      · exact .inl rfl
    · exact absorbed predicate listed already (by simpa using applies)

/-- One row of a batch as a batch. -/
def rowAt (batch : RecordBatch) (index : Fin batch.numRows) : RecordBatch where
  schema := batch.schema
  columns := batch.columns.map fun column => ⟨column.dataType, [column.cells.getD index .null]⟩
  numRows := 1
  types := by simpa [Function.comp_def] using batch.types
  lengths := by simp [ArrayRef.len]
  nonNull := by
    intro pair member required
    rw [zip_map_right] at member
    obtain ⟨entry, inside, rfl⟩ := mem_map.mp member
    have filled := batch.nonNull entry inside required
    have long := batch.lengths entry.2 (of_mem_zip inside).2
    rw [ArrayRef.nullCount, countP_eq_zero] at filled
    have cell : entry.2.cells.getD index .null ∈ entry.2.cells := by
      have inside : index.1 < entry.2.cells.length := by
        rw [show entry.2.cells.length = batch.numRows from long]
        exact index.2
      simp [getD_eq_getElem?_getD, inside]
    simpa [ArrayRef.nullCount] using filled _ cell

theorem rowsOf_rowAt (batch index)
    : rowsOf (rowAt batch index)
      = [batch.columns.map fun column => column.cells.getD index .null] := by
  simp [rowsOf, rowAt]

theorem rowsOf_eq_finRange (batch)
    : rowsOf batch = (finRange batch.numRows).map fun index =>
        batch.columns.map fun column => column.cells.getD index .null := by
  rw [rowsOf, ← map_coe_finRange_eq_range, map_map]
  rfl

/-- The rows of a batch with at least one, as batches of one row. -/
theorem partsOf_rows (batch) (some : 0 < batch.numRows)
    : PartsOf batch ((finRange batch.numRows).map (rowAt batch)) where
  nonempty := by
    rw [ne_eq, map_eq_nil_iff, finRange_eq_nil_iff]
    omega
  schema := by simp [rowAt]
  rows := by
    rw [rowsOf_eq_finRange batch]
    simp only [flatMap_map, rowsOf_rowAt]
    exact flatMap_pure_eq_map ..

variable {predicate : Predicate}

/-- Alone, a row is subject to every predicate that can be evaluated on it. -/
theorem applies_rowAt {index}
    : rows.Applies (rowAt batch index) predicate
      ↔ AppliesTo rows batch.schema
          (batch.columns.map fun column => column.cells.getD index .null) predicate := by
  unfold RowKernels.Applies Condition AppliesTo
  rw [rowsOf_rowAt]
  simp [rowAt]

include isParts rowWise bound in
theorem PartsOf.undisturbed (undisturbed : Undisturbed rows filters batch)
    : (evaluateParts kernels filters parts).toOption
      = (filters.evaluate kernels batch).toOption := by
  rw [isParts.evaluateParts_toOption rowWise bound, evaluate_toOption rowWise bound]
  split
  next applies =>
    rw [← isParts.rows, map_flatMap]
    refine congrArg _ (flatMap_congr fun part member => ?_)
    refine map_congr_left fun row inside => ?_
    have inBatch : row ∈ rowsOf batch := isParts.rows ▸ mem_flatMap.mpr ⟨part, member, inside⟩
    refine (conjunction_eq_iff fun predicate applies =>
      (isParts.applies_iff predicate).mp applies part member).mpr ?_
    intro predicate listed skipped here
    refine undisturbed applies row inBatch predicate listed skipped ?_
    rw [← isParts.schema part member]
    exact ⟨here.1, here.2.1, here.2.2 row inside⟩
  · rfl

include rowWise bound in
theorem undisturbed_of_rows
    (same : ∀ parts, PartsOf batch parts → (evaluateParts kernels filters parts).toOption
      = (filters.evaluate kernels batch).toOption)
    : Undisturbed rows filters batch := by
  intro applies row member
  rw [rowsOf_eq_finRange] at member
  obtain ⟨index, _, rfl⟩ := mem_map.mp member
  have isParts := partsOf_rows batch (Nat.zero_lt_of_lt index.2)
  have masks := same _ isParts
  rw [isParts.evaluateParts_toOption rowWise bound, evaluate_toOption rowWise bound,
    if_pos applies, if_pos applies, rowsOf_eq_finRange batch] at masks
  simp only [flatMap_map, rowsOf_rowAt, map_map, Option.some.injEq] at masks
  have alone := map_inj_left.mp ((flatMap_pure_eq_map _ _).symm.trans masks) index
    (mem_finRange index)
  have part : rowAt batch index ∈ (finRange batch.numRows).map (rowAt batch) :=
    mem_map_of_mem (mem_finRange index)
  intro predicate listed skipped here
  exact (conjunction_eq_iff fun predicate applies =>
    (isParts.applies_iff predicate).mp applies _ part).mp alone predicate listed skipped
      (applies_rowAt.mpr here)

/-- The mask of a batch does not depend on the places of its columns or on further ones. If the
casts of the filters are decided by types, then whenever filters evaluate, the entry of a row is
the conjunction of the meanings on this row of the predicates that are applied; and every division
of the batch into parts gives the same mask, part by part, exactly if no predicate that matters is
passed over for the sake of another row.
-/
theorem filters_evaluate_rows (rowWise : RowWise kernels rows)
    (accepted : ∀ predicate ∈ filters.predicates, predicate.Accepted filters.outputSchema)
    (batch : RecordBatch)
    : (∀ other, SameColumns filters.outputSchema batch other
        → filters.evaluate kernels other = filters.evaluate kernels batch)
      ∧ ((∀ predicate ∈ filters.predicates,
            predicate.expression.Everywhere (rows.Steady batch.schema))
        → (∀ mask, filters.evaluate kernels batch = .ok mask
            → mask = (rowsOf batch).map (rows.conjunction batch.schema
                (filters.predicates.filter (rows.Applies batch))))
          ∧ ((∀ parts, PartsOf batch parts → (evaluateParts kernels filters parts).toOption
              = (filters.evaluate kernels batch).toOption)
            ↔ Undisturbed rows filters batch)) := by
  have bound : ∀ predicate ∈ filters.predicates, predicate.expression.Bound filters.outputSchema :=
    fun predicate member => (accepted predicate member).sound.1.1
  refine ⟨fun other same => same.evaluate bound, fun steady => ?_⟩
  have decides : ∀ predicate ∈ filters.predicates,
      rows.Decides filters.outputSchema batch.schema predicate.expression :=
    fun predicate member => ⟨bound predicate member, steady predicate member⟩
  refine ⟨fun mask evaluated => ?_, undisturbed_of_rows rowWise decides,
    fun undisturbed parts isParts => isParts.undisturbed rowWise decides undisturbed⟩
  have rowsMask := evaluate_rows rowWise decides (notFailing_of_evaluated evaluated)
  rw [evaluated] at rowsMask
  exact Except.ok.inj rowsMask

end

namespace PartitionSample

def structType : DataType := .struct [.mk "u" .null true]

def schema : Schema := { fields := [.mk "s" structType true], metadata := [] }

def batch (structs : List Cell) : RecordBatch where
  schema := schema
  columns := [⟨structType, structs⟩]
  numRows := structs.length
  types := rfl
  lengths := by simp [ArrayRef.len]
  nonNull := by simp [schema]

/-- The same rows with another column in front. -/
def widened (structs : List Cell) : RecordBatch where
  schema := { fields := [.mk "b" .int64 true, .mk "s" structType true], metadata := [] }
  columns := [⟨.int64, replicate structs.length (.int 7)⟩, ⟨structType, structs⟩]
  numRows := structs.length
  types := rfl
  lengths := by simp [ArrayRef.len]
  nonNull := by simp

/-- A struct whose field is NULL, as any value of the NULL type is. -/
def empty : Cell := .struct [.encoded .null]

def parser : Parser := { TypingSample.parser with outputSchema := schema }

/-- The advisory predicate `s.u IS NOT NULL`. -/
def filters : PushdownFilters :=
  { TypingSample.filters .advisory (.isNull (.field (.column 0 "s" structType) 0 "u" .null) true)
    with outputSchema := schema }

theorem accepts : ∀ predicate ∈ filters.predicates, predicate.Accepted filters.outputSchema := by
  intro predicate member
  rw [mem_singleton.mp member]
  exact ⟨parser, ⟨"p", 0, "advisory", "query",
    .isNull (.fieldRef (.columnRef 0 "s") 0 "u") true⟩, false, 0, 3, rfl, rfl, rfl⟩

theorem steady {rows : RowKernels} {schema} : ∀ predicate ∈ filters.predicates,
    predicate.expression.Everywhere (rows.Steady schema) := by
  intro listed member
  rw [mem_singleton.mp member]
  have column : (Expr.column 0 "s" structType).Everywhere (rows.Steady schema) :=
    Expr.everywhere_iff.mpr ⟨trivial, forall_mem_nil _⟩
  have field
      : (Expr.field (.column 0 "s" structType) 0 "u" .null).Everywhere (rows.Steady schema) :=
    Expr.everywhere_iff.mpr ⟨trivial, forall_mem_singleton.mpr column⟩
  exact Expr.everywhere_iff.mpr ⟨trivial, forall_mem_singleton.mpr field⟩

theorem partsOf (first second)
    : PartsOf (batch [first, second]) [batch [first], batch [], batch [second]] where
  nonempty := nofun
  schema := by simp [batch]
  rows := rfl

theorem undisturbed (rows) : Undisturbed rows filters (batch [empty, empty]) := by
  intro _ row member listed inFilters skipped
  rw [mem_singleton.mp inFilters] at skipped
  refine absurd ⟨rfl, rfl, ?_⟩ skipped
  intro row member
  rw [show rowsOf (batch [empty, empty]) = [[empty], [empty]] from rfl] at member
  have only : row = [empty] := by simpa using member
  subst only
  rfl

theorem sameColumns (structs)
    : SameColumns schema (batch structs) (widened structs) where
  rows := rfl
  single := by
    intro field member
    rw [mem_singleton.mp member]
    exact Nat.le_refl 1
  same := by
    intro field member
    rw [mem_singleton.mp member]
    rfl

end PartitionSample

open PartitionSample in
/-- Two rows with a null field are dropped, whole or in parts, with or without another column. -/
theorem filters_evaluate_rows_sample
    : PartsOf (batch [empty, empty]) [batch [empty], batch [], batch [empty]]
      ∧ Undisturbed TypingSample.rows filters (batch [empty, empty])
      ∧ filters.evaluate TypingSample.rows.kernels (batch [empty, empty])
        = .ok [some false, some false]
      ∧ filters.evaluate TypingSample.rows.kernels (widened [empty, empty])
        = .ok [some false, some false]
      ∧ (evaluateParts TypingSample.rows.kernels filters
          [batch [empty], batch [], batch [empty]]).toOption
        = some [some false, some false] := by
  have evaluated : filters.evaluate TypingSample.rows.kernels (batch [empty, empty])
      = .ok [some false, some false] := rfl
  obtain ⟨columns, decided⟩ :=
    filters_evaluate_rows TypingSample.lawful.rowWise accepts (batch [empty, empty])
  have whole := (decided steady).2.mpr (undisturbed _) _ (partsOf empty empty)
  exact ⟨partsOf empty empty, undisturbed _, evaluated,
    (columns _ (sameColumns _)).trans evaluated, whole⟩

open PartitionSample in
/-- A NULL struct makes evaluation pass over the predicate for the whole batch, and for its own
part only when the batch is split.
-/
theorem filters_evaluate_rows_disturbed
    : (∀ predicate ∈ filters.predicates, predicate.Accepted filters.outputSchema)
      ∧ PartsOf (batch [empty, .null]) [batch [empty], batch [], batch [.null]]
      ∧ filters.evaluate TypingSample.rows.kernels (batch [empty, .null])
        = .ok [some true, some true]
      ∧ evaluateParts TypingSample.rows.kernels filters
          [batch [empty], batch [], batch [.null]]
        = .ok [some false, some true] :=
  ⟨accepts, partsOf _ _, rfl, rfl⟩

end Vgi.Pushdown
