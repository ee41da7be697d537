import Vgi.Client.Exchange

/-! The projection of a scan. The client asks for the requested columns and then for those that only
its filter reads, and trims the latter off every batch; the worker narrows its own schema.
-/

namespace Vgi.Client

open Arrow Lib Dispatch List

structure ScanOptions where
  projection : Option (List Int)
  filterColumns : Option (List Int)

def unionProjection (projection filterColumns : Option (List Int)) : Option (List Int) :=
  projection.map fun requested =>
    (filterColumns.getD []).foldl (fun out c => if c ∈ out then out else out ++ [c]) requested

def ScanOptions.wireProjection (options : ScanOptions) : Option (List Int) :=
  unionProjection options.projection options.filterColumns

/-- A running scan, without its stream. -/
structure Scan where
  function : String
  schema : Schema
  emittedSchema : Schema

namespace Scan

def position (i : Int) : Result Nat :=
  okOr (typeError s!"negative projection index {i}") (if 0 ≤ i then some i.toNat else none)

def fieldAt (schema : Schema) (i : Nat) : Result Field :=
  okOr (typeError ("projection is not valid for the bind output schema: Schema error: project "
    ++ s!"index {i} out of bounds, max field {schema.fields.length}")) schema.fields[i]?

def projectSchema (schema : Schema) : Option (List Int) → Result Schema
  | none => .ok schema
  | some ids => do
    let positions ← ids.mapM position
    let fields ← positions.mapM (fieldAt schema)
    return { schema with fields }

def start (function : String) (outputSchema : Schema) (options : ScanOptions) : Result Scan := do
  let schema ← projectSchema outputSchema options.projection
  let emittedSchema ← projectSchema outputSchema options.wireProjection
  return { function, schema, emittedSchema }

def trimToProjection (scan : Scan) (batch : RecordBatch) : Result RecordBatch :=
  let keep := scan.schema.fields.length
  if keep = batch.columns.length then .ok batch
  else
    (keepColumns keep batch).mapError fun error =>
      runtimeError (s!"function `{scan.function}`: could not drop the filter-only columns from a "
        ++ s!"batch: {error}")

/-- What `next_batch` makes of a batch with rows. -/
def receive (display : DataType → String) (scan : Scan) (batch : RecordBatch)
    : Result RecordBatch := do
  checkBatchSchema display scan.function scan.emittedSchema batch
  scan.trimToProjection batch

/-- All batches of a stream. Those without rows are skipped. -/
def collect (display : DataType → String) (scan : Scan) (stream : List RecordBatch)
    : Result (List RecordBatch) :=
  (stream.filter (·.numRows ≠ 0)).mapM (scan.receive display)

end Scan

/-- The columns at some positions. One that is no position is skipped. -/
def pick {α : Type} (columns : List α) (ids : List Int) : List α :=
  ids.filterMap fun id => if 0 ≤ id then columns[id.toNat]? else none

def requested {α : Type} (columns : List α) (ids : Option (List Int)) : List α :=
  ids.elim columns (pick columns)

/-- A batch of the worker for a projection, with its part of the values of all columns. -/
structure Emitted (full : Schema) (wire : Option (List Int)) where
  values : List ArrayRef
  batch : RecordBatch
  whole : values.length = full.fields.length
  fields : batch.schema.fields = (Dispatch.projectSchema full wire).fields
  columns : batch.columns = if wire = some [] then values else requested values wire

structure Yields (full : Schema) (options : ScanOptions)
    (sent : Emitted full options.wireProjection) (batch : RecordBatch) : Prop where
  fields : batch.schema.fields = requested full.fields options.projection
  columns : batch.columns = requested sent.values options.projection
  rows : batch.numRows = sent.batch.numRows

/-- Positions of the schema can be scanned; then the worker's schema is the one that the client
expects, and the client yields the requested columns of every batch with rows.
-/
structure Agree (display : DataType → String) (function : String) (full : Schema)
    (options : ScanOptions) : Prop where
  starts : (∀ id ∈ options.projection.getD [] ++ options.filterColumns.getD [],
      0 ≤ id ∧ id < full.fields.length) →
    ∃ scan, Scan.start function full options = .ok scan
  expects : ∀ scan, Scan.start function full options = .ok scan →
    (Dispatch.projectSchema full options.wireProjection).fields = scan.emittedSchema.fields
  yields : ∀ scan, Scan.start function full options = .ok scan →
    ∀ stream : List (Emitted full options.wireProjection),
      ∃ batches, scan.collect display (stream.map Emitted.batch) = .ok batches
        ∧ List.Forall₂ (Yields full options) (stream.filter (·.batch.numRows ≠ 0)) batches

/-- The client asks for no column at all of a schema that has some. -/
def AsksForNothing (full : Schema) (options : ScanOptions) : Prop :=
  options.projection = some [] ∧ options.filterColumns.getD [] = [] ∧ full.fields ≠ []

section

variable {α β : Type} {columns : List α} {ids : List Int}

theorem pick_append (rest)
    : pick columns (ids ++ rest) = pick columns ids ++ pick columns rest :=
  filterMap_append

theorem pick_length {others : List β} (same : columns.length = others.length)
    : (pick columns ids).length = (pick others ids).length := by
  induction ids with
  | nil => rfl
  | cons id rest ih =>
    simp only [pick, filterMap_cons] at ih ⊢
    by_cases inside : 0 ≤ id ∧ id.toNat < columns.length
    · rw [if_pos inside.1, if_pos inside.1, getElem?_eq_getElem inside.2,
        getElem?_eq_getElem (same ▸ inside.2)]
      simpa using ih
    · have outside : (if 0 ≤ id then columns[id.toNat]? else none) = none := by grind
      have outside' : (if 0 ≤ id then others[id.toNat]? else none) = none := by grind
      rw [outside, outside']
      exact ih

theorem requested_length {others : List β} {ids} (same : columns.length = others.length)
    : (requested columns ids).length = (requested others ids).length := by
  cases ids with
  | none => exact same
  | some ids => exact pick_length same

end

/-- The columns for the filter come last, and are columns of the filter. -/
theorem exists_unionProjection (requested filterColumns)
    : ∃ rest, (∀ c ∈ rest, c ∈ filterColumns) ∧ (rest = [] → ∀ c ∈ filterColumns, c ∈ requested)
      ∧ unionProjection (some requested) (some filterColumns) = some (requested ++ rest) := by
  induction filterColumns generalizing requested with
  | nil => exact ⟨[], by simp, by simp, by simp [unionProjection]⟩
  | cons column columns ih =>
    by_cases known : column ∈ requested
    · obtain ⟨rest, from_, covers, is⟩ := ih requested
      refine ⟨rest, fun c member => .tail _ (from_ c member), fun none c member => ?_, ?_⟩
      · rcases mem_cons.mp member with rfl | member
        · exact known
        · exact covers none c member
      · simpa [unionProjection, known] using is
    · obtain ⟨rest, from_, _, is⟩ := ih (requested ++ [column])
      refine ⟨column :: rest, fun c member => ?_, by simp, ?_⟩
      · rcases mem_cons.mp member with rfl | member
        · exact .head _
        · exact .tail _ (from_ c member)
      · simpa [unionProjection, known] using is

namespace ScanOptions

variable {options : ScanOptions}

theorem wireProjection_none (all : options.projection = none) : options.wireProjection = none := by
  rw [wireProjection, all]
  rfl

theorem exists_wireProjection {ids} (narrow : options.projection = some ids)
    : ∃ rest, (∀ c ∈ rest, c ∈ options.filterColumns.getD [])
      ∧ (rest = [] → ∀ c ∈ options.filterColumns.getD [], c ∈ ids)
      ∧ options.wireProjection = some (ids ++ rest) := by
  have is := exists_unionProjection ids (options.filterColumns.getD [])
  rwa [wireProjection, narrow]

end ScanOptions

namespace Scan

variable {schema narrowed full : Schema} {ids : Option (List Int)} {options : ScanOptions}
  {function : String} {scan : Scan} {display : DataType → String}

theorem projectSchema_fields (projected : projectSchema schema ids = .ok narrowed)
    : narrowed.fields = requested schema.fields ids := by
  cases ids with
  | none =>
    cases projected
    rfl
  | some ids =>
    simp only [projectSchema, bind_eq_ok, pure_eq_ok] at projected
    obtain ⟨positions, read, fields, found, rfl⟩ := projected
    rw [eq_filterMap_of_mapM found, eq_filterMap_of_mapM read, filterMap_filterMap]
    refine filterMap_congr fun id _ => ?_
    simp only [position, fieldAt, toOption_okOr]
    split <;> rfl

theorem exists_projectSchema (inside : ∀ id ∈ ids.getD [], 0 ≤ id ∧ id < schema.fields.length)
    : ∃ narrowed, projectSchema schema ids = .ok narrowed := by
  cases ids with
  | none => exact ⟨schema, rfl⟩
  | some ids =>
    have read : ∀ id ∈ ids, position id = .ok id.toNat := by
      intro id member
      rw [position, if_pos (inside id member).1]
      rfl
    have found : ∀ i ∈ ids.map Int.toNat, ∃ field, fieldAt schema i = .ok field ∧ True := by
      intro i member
      obtain ⟨id, known, rfl⟩ := mem_map.mp member
      obtain ⟨positive, bound⟩ := inside id known
      exact ⟨schema.fields[id.toNat], by simp [fieldAt], trivial⟩
    obtain ⟨fields, found, _⟩ := exists_mapM found
    exact ⟨{ schema with fields }, by simp [projectSchema, mapM_eq_ok_map read, found]⟩

theorem start_eq_ok (started : start function full options = .ok scan)
    : scan.schema.fields = requested full.fields options.projection
      ∧ scan.emittedSchema.fields = requested full.fields options.wireProjection := by
  simp only [start, bind_eq_ok, pure_eq_ok] at started
  obtain ⟨schema, first, emitted, second, rfl⟩ := started
  exact ⟨projectSchema_fields first, projectSchema_fields second⟩

theorem exists_start (inside : ∀ id ∈ options.projection.getD [] ++ options.filterColumns.getD [],
      0 ≤ id ∧ id < full.fields.length)
    : ∃ scan, start function full options = .ok scan := by
  have first : ∃ schema, projectSchema full options.projection = .ok schema :=
    exists_projectSchema fun id member => inside id (mem_append_left _ member)
  have second : ∃ emitted, projectSchema full options.wireProjection = .ok emitted := by
    refine exists_projectSchema fun id member => inside id ?_
    cases requested : options.projection with
    | none =>
      rw [options.wireProjection_none requested] at member
      cases member
    | some ids =>
      obtain ⟨rest, extra, _, is⟩ := options.exists_wireProjection requested
      rw [is] at member
      exact mem_append.mpr ((mem_append.mp member).imp_right (extra id))
  obtain ⟨schema, first⟩ := first
  obtain ⟨emitted, second⟩ := second
  exact ⟨⟨function, schema, emitted⟩, by simp [start, first, second]⟩

theorem checkBatchSchema_same {expected batch}
    (same : batch.schema.fields = expected.fields)
    : checkBatchSchema display function expected batch = .ok () := by
  have none : (expected.fields.zip expected.fields).zipIdx.find? (fun column =>
      column.1.1.name ≠ column.1.2.name ∨ column.1.1.dataType ≠ column.1.2.dataType) = none := by
    rw [find?_eq_none]
    intro column member
    have pair := fst_mem_of_mem_zipIdx member
    rw [zip_eq_zipWith, zipWith_self, mem_map] at pair
    obtain ⟨field, _, is⟩ := pair
    simp [← is]
  unfold checkBatchSchema
  dsimp only
  rw [same, none]
  simp

/-- The requested columns stand first in what is received, and the others are dropped. -/
theorem receive_eq_ok {sent fields columns}
    (checked : sent.batch.schema.fields = scan.emittedSchema.fields)
    (narrowed : scan.schema.fields = requested full.fields options.projection)
    (isFields : sent.batch.schema.fields = requested full.fields options.projection ++ fields)
    (isColumns : sent.batch.columns = requested sent.values options.projection ++ columns)
    : ∃ batch, scan.receive display sent.batch = .ok batch ∧ Yields full options sent batch := by
  have keep : scan.schema.fields.length = (requested sent.values options.projection).length := by
    rw [narrowed]
    exact requested_length sent.whole.symm
  rw [receive, checkBatchSchema_same checked, ok_bind, trimToProjection]
  split
  next same =>
    rw [isColumns, length_append, keep] at same
    have long := sent.batch.columns_length
    rw [isColumns, isFields, length_append, length_append, ← narrowed, keep] at long
    have none : columns = [] := length_eq_zero_iff.mp (by omega)
    have none' : fields = [] := length_eq_zero_iff.mp (by omega)
    subst none none'
    exact ⟨sent.batch, rfl, by simpa using isFields, by simpa using isColumns, rfl⟩
  · rw [keepColumns, if_neg (by rw [isColumns, length_append]; omega)]
    refine ⟨_, rfl, ?_, ?_, rfl⟩
    · exact (congrArg _ isFields).trans (take_left' (by rw [← narrowed]))
    · exact (congrArg _ isColumns).trans (take_left' keep.symm)

end Scan

section

variable {full : Schema} {options : ScanOptions}

theorem wireProjection_eq_nil_iff : options.wireProjection = some []
      ↔ options.projection = some [] ∧ options.filterColumns.getD [] = [] := by
  cases narrow : options.projection with
  | none => simp [options.wireProjection_none narrow]
  | some ids =>
    obtain ⟨rest, extra, covers, is⟩ := options.exists_wireProjection narrow
    rw [is]
    constructor
    · intro none
      obtain ⟨rfl, rfl⟩ := append_eq_nil_iff.mp (Option.some.inj none)
      exact ⟨rfl, eq_nil_iff_forall_not_mem.mpr fun c member => nomatch covers rfl c member⟩
    · rintro ⟨none, unfiltered⟩
      rw [unfiltered] at extra
      rw [Option.some.inj none, eq_nil_iff_forall_not_mem.mpr
        fun c member => nomatch extra c member]
      rfl

/-- The worker narrows its schema as the client does, if it is asked for some column. -/
theorem projectSchema_wire (asks : ¬ AsksForNothing full options)
    : (Dispatch.projectSchema full options.wireProjection).fields
      = requested full.fields options.wireProjection := by
  cases wire : options.wireProjection with
  | none => rfl
  | some ids =>
    rw [Dispatch.projectSchema]
    split
    next none =>
      subst none
      obtain ⟨narrow, unfiltered⟩ := wireProjection_eq_nil_iff.mp wire
      by_contra other
      refine asks ⟨narrow, unfiltered, fun empty => other ?_⟩
      rw [empty]
      rfl
    · rfl

/-- What is requested comes first in what is emitted. -/
theorem exists_requested_append (options : ScanOptions) {α : Type} (columns : List α)
    : ∃ rest, requested columns options.wireProjection
      = requested columns options.projection ++ rest := by
  cases narrow : options.projection with
  | none => exact ⟨[], by rw [options.wireProjection_none narrow, append_nil]⟩
  | some ids =>
    obtain ⟨rest, _, _, is⟩ := options.exists_wireProjection narrow
    exact ⟨pick columns rest, by rw [is]; exact pick_append rest⟩

theorem Emitted.columns_eq (sent : Emitted full options.wireProjection)
    (asks : ¬ AsksForNothing full options)
    : sent.batch.columns = requested sent.values options.wireProjection := by
  rw [sent.columns]
  split
  next wire =>
    obtain ⟨narrow, unfiltered⟩ := wireProjection_eq_nil_iff.mp wire
    have empty : full.fields = [] := by
      by_contra some
      exact asks ⟨narrow, unfiltered, some⟩
    have none : sent.values = [] := length_eq_zero_iff.mp (sent.whole.trans (congrArg length empty))
    rw [none]
    simp [requested, wire, pick]
  · rfl

end

/-- The two sides agree exactly if the client asks for some column, or there is none: an empty list
asks for nothing, and the worker reads it as everything.
-/
theorem projection_agrees_iff (display : DataType → String) (function : String) (full : Schema)
    (options : ScanOptions)
    : Agree display function full options ↔ ¬ AsksForNothing full options := by
  constructor
  · rintro agree ⟨narrow, unfiltered, some⟩
    have wire := wireProjection_eq_nil_iff.mpr ⟨narrow, unfiltered⟩
    obtain ⟨scan, started⟩ := agree.starts (by simp [narrow, unfiltered])
    have same := agree.expects scan started
    rw [(Scan.start_eq_ok started).2, wire] at same
    exact some same
  · intro asks
    refine ⟨Scan.exists_start, fun scan started => ?_, fun scan started stream => ?_⟩
    · rw [(Scan.start_eq_ok started).2, projectSchema_wire asks]
    · obtain ⟨narrowed, expected⟩ := Scan.start_eq_ok started
      have each (sent : Emitted full options.wireProjection)
          : ∃ batch, scan.receive display sent.batch = .ok batch
            ∧ Yields full options sent batch := by
        obtain ⟨fields, isFields⟩ := exists_requested_append options full.fields
        obtain ⟨columns, isColumns⟩ := exists_requested_append options sent.values
        have checked := sent.fields.trans (projectSchema_wire asks)
        exact Scan.receive_eq_ok (checked.trans expected.symm) narrowed (checked.trans isFields)
          ((sent.columns_eq asks).trans isColumns)
      obtain ⟨batches, run, all⟩ := exists_mapM fun sent
        (_ : sent ∈ stream.filter (·.batch.numRows ≠ 0)) => each sent
      refine ⟨batches, ?_, all⟩
      rw [Scan.collect, filter_map, mapM_map]
      exact run

namespace ProjectionSample

def full : Schema := ⟨[.mk "a" .int64 true], []⟩

def batch : RecordBatch where
  schema := full
  columns := [⟨.int64, [.int 1]⟩]
  numRows := 1
  types := rfl
  lengths := by simp [ArrayRef.len]
  nonNull := by simp [full]

def options : ScanOptions := ⟨some [], none⟩

end ProjectionSample

open ProjectionSample in
/-- A scan of no columns. The worker sends all of them, and the client refuses the batch. -/
theorem empty_projection_refused
    : batch.schema.fields = (Dispatch.projectSchema full options.wireProjection).fields
      ∧ (Scan.start "f" full options >>= fun scan => scan.collect (fun _ => "Int64") [batch]).map
          length
        = .error (typeError ("function `f` emitted a batch with 1 column(s) but its bind resolved "
          ++ "0: every batch must match the schema the scan declared")) := by
  decide +kernel

end Vgi.Client
