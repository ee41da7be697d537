import Vgi.Stored.State

/-! The columns of a stored table. What `CREATE TABLE` accepts, every listing can serve: the checks
that a listing makes again never refuse it.
-/

namespace Vgi.Stored

open Lib List

/-- What an Arrow type is to the checks: a struct, a type over other fields (lists, maps,
dictionaries, unions and run ends) or neither.
-/
inductive ColumnKind where
  | struct
  | nested
  | leaf
deriving DecidableEq

abbrev Metadata := List (String × String)

/-- An Arrow field with the fields below it. -/
inductive Column where
  | field (name : String) (nullable : Bool) (metadata : Metadata) (kind : ColumnKind)
      (children : List Column)

namespace Column

def metadata : Column → Metadata
  | .field _ _ metadata _ _ => metadata

mutual

def height : Column → Nat
  | .field _ _ _ _ children => heightAll children + 1

def heightAll : List Column → Nat
  | [] => 0
  | column :: rest => max column.height (heightAll rest)

end

mutual

/-- Every field there is, nested ones too, has such metadata. -/
def Every (holds : Metadata → Prop) : Column → Prop
  | .field _ _ metadata _ children => holds metadata ∧ EveryAll holds children

def EveryAll (holds : Metadata → Prop) : List Column → Prop
  | [] => True
  | column :: rest => column.Every holds ∧ EveryAll holds rest

end

end Column

def Metadata.containsKey (metadata : Metadata) (key : String) : Bool := metadata.any (·.1 = key)

/-- The formats that columns are written in: Arrow schema messages, the JSON of tags and the
records of generated columns. The reader of messages bounds how deep they nest.
-/
structure Formats where
  read : Bytes → Result (List Column)
  shallow : ∀ {bytes columns}, read bytes = .ok columns → Column.heightAll columns ≤ 64
  tags : String → Except String Unit
  encoded : String → SchemaPath → Result Unit
  generatedColumn : Column → String → List Column → SchemaPath → Result Unit
  generatedMetadata : String → SchemaPath → Result String

variable (formats : Formats)

def checkEntries : Metadata → (seen : List String) → Result Unit
  | [], _ => .ok ()
  | (key, value) :: rest, seen => do
    rejectIf (key ∈ seen) (valueError "duplicate column metadata key")
    if key = "tags" then
      (formats.tags value).mapError fun e => valueError s!"invalid column tags: {e}"
    checkEntries rest (seen ++ [key])

mutual

def checkMessageField (depth : Nat) : Column → Result Unit
  | .field _ _ metadata _ children => do
    rejectIf (depth > 64) (valueError "column metadata nesting too deep")
    checkEntries formats metadata []
    checkMessageFields (depth + 1) children

def checkMessageFields (depth : Nat) : List Column → Result Unit
  | [] => .ok ()
  | column :: rest => do
    checkMessageField depth column
    checkMessageFields depth rest

end

def validateColumnMetadataIpc (bytes : Bytes) : Result Unit := do
  checkMessageFields formats 0 (← formats.read bytes)

mutual

def validateField : Column → Result Unit
  | .field name _ metadata _ children => do
    match metadata.lookup "tags" with
    | some tags => (formats.tags tags).mapError fun e => valueError s!"column {name} tags: {e}"
    | none => pure ()
    validateColumnMetadata children

def validateColumnMetadata : List Column → Result Unit
  | [] => .ok ()
  | column :: rest => do
    validateField column
    validateColumnMetadata rest

end

def generated : String := "vgi.column.generated.v1"

def generation : String := "vgi.column.generation.v1"

def legacyGenerated : String := "generated_expression"

def startsWith (key start : String) : Bool := start.toList.isPrefixOf key.toList

def unknownVersion (metadata : Metadata) : Bool :=
  metadata.any fun (key, _) =>
    (startsWith key "vgi.column.generated." && key ≠ generated)
      || (startsWith key "vgi.column.generation." && key ≠ generation)

/-- The checks on one field's own metadata. -/
def checkGenerated (owner : SchemaPath) (allowGenerated : Bool) (metadata : Metadata)
    : Result Unit := do
  rejectIf (unknownVersion metadata) (valueError "unknown generated metadata version")
  rejectIf (metadata.containsKey legacyGenerated) (valueError <|
    "legacy generated_expression metadata is translated only on top-level catalog "
      ++ "table columns; use vgi::column_expressions::generated_metadata")
  rejectIf (metadata.containsKey generated ≠ metadata.containsKey generation)
    (valueError "generated expression and category must occur together")
  match metadata.lookup generated with
  | some value => do
    rejectIf (metadata.lookup generation ≠ some "virtual")
      (valueError "only VIRTUAL generated columns are supported")
    rejectIf (metadata.containsKey "default" ∨ metadata.containsKey "vgi.column.default.v1")
      (valueError "generated column cannot have a default")
    formats.encoded value owner
    rejectIf (¬ allowGenerated)
      (methodNotImplemented "generated columns unsupported by this catalog")
  | none => pure ()

mutual

def checkExpression (owner : SchemaPath) (allowGenerated : Bool) : Column → Result Unit
  | .field _ _ metadata _ children => do
    checkGenerated formats owner allowGenerated metadata
    checkExpressions owner allowGenerated children

def checkExpressions (owner : SchemaPath) (allowGenerated : Bool) : List Column → Result Unit
  | [] => .ok ()
  | column :: rest => do
    checkExpression owner allowGenerated column
    checkExpressions owner allowGenerated rest

end

/-- The loop of `validate` over the columns of the table, which tells whether a column is physical
and whether one is generated.
-/
def validateLoop (schema : List Column) (owner : SchemaPath) (allowGenerated : Bool)
    : List Column → (physical generates : Bool) → Result (Bool × Bool)
  | [], physical, generates => .ok (physical, generates)
  | column :: rest, physical, generates => do
    checkExpression formats owner allowGenerated column
    match column.metadata.lookup generated with
    | some value => do
      formats.generatedColumn column value schema owner
      validateLoop schema owner allowGenerated rest physical true
    | none =>
      validateLoop schema owner allowGenerated rest
        (physical || ¬ column.metadata.containsKey "is_row_id") generates

def validateExpressions (schema : List Column) (owner : SchemaPath) (allowGenerated : Bool)
    : Result Unit := do
  let (physical, generates) ← validateLoop formats schema owner allowGenerated schema false false
  rejectIf (generates ∧ ¬ physical)
    (valueError "a table with generated columns needs at least one physical column")

def translateField (owner : SchemaPath) : Column → Result Column
  | .field name nullable metadata kind children =>
    match metadata.lookup legacyGenerated with
    | none => .ok (.field name nullable metadata kind children)
    | some sql => do
      let others := metadata.filter (·.1 ≠ legacyGenerated)
      rejectIf (Metadata.containsKey others generated ∨ Metadata.containsKey others generation)
        (valueError <| s!"column '{name}' carries both legacy {legacyGenerated} and canonical "
          ++ s!"{generated}/{generation} metadata; keep only the canonical pair")
      let value ← formats.generatedMetadata sql owner
      return .field name nullable (others ++ [(generated, value), (generation, "virtual")]) kind
        children

def translateLegacyGenerated (schema : List Column) (owner : SchemaPath) : Result (List Column) :=
  if schema.any (·.metadata.containsKey legacyGenerated) then
    schema.mapM (translateField formats owner)
  else .ok schema

def logicalType (metadata : Metadata) : Bool :=
  metadata.any fun (key, _) => key = "ARROW:extension:name" || startsWith key "vgi.logical_type."

mutual

def visitUnconstrained (top : Bool) (depth : Nat) : Column → Result Unit
  | .field name nullable metadata kind children => do
    rejectIf (depth > 64) (methodNotImplemented
      "catalog_table_create: column nesting exceeds supported depth")
    if top ∧ metadata.containsKey "is_row_id" then return ()
    rejectIf (logicalType metadata) (methodNotImplemented
      "catalog_table_create: logical column types require negotiation")
    rejectIf (¬ nullable) (methodNotImplemented <|
      s!"catalog_table_create: column '{name}' is non-nullable, but this catalog does not "
        ++ "support NOT NULL (no write path enforces it)")
    if kind = .struct then visitAllUnconstrained false (depth + 1) children

def visitAllUnconstrained (top : Bool) (depth : Nat) : List Column → Result Unit
  | [] => .ok ()
  | column :: rest => do
    visitUnconstrained top depth column
    visitAllUnconstrained top depth rest

end

def requireUnconstrainedColumns (schema : List Column) : Result Unit :=
  visitAllUnconstrained true 0 schema

mutual

/-- `normalize_fields` without constraint records: everything but the row id is nullable. -/
def normalizeField (depth : Nat) : Column → Result Column
  | .field name nullable metadata kind children =>
    if depth = 0 ∧ metadata.containsKey "is_row_id" then
      .ok (.field name nullable metadata kind children)
    else if kind = .struct ∧ ¬ logicalType metadata then do
      rejectIf (depth + 1 > 64) (valueError "column nesting exceeds 64 levels")
      return .field name true metadata kind (← normalizeFields (depth + 1) children)
    else .ok (.field name true metadata kind children)

def normalizeFields (depth : Nat) : List Column → Result (List Column)
  | [] => .ok []
  | column :: rest => do
    let first ← normalizeField depth column
    return first :: (← normalizeFields depth rest)

end

/-- What a table listing tells of a stored table. -/
structure TableInfo where
  name : String
  schemaPath : SchemaPath
  columns : List Column

def validateColumns (bytes : Bytes) (path : SchemaPath) : Result Unit := do
  validateColumnMetadataIpc formats bytes
  let schema ← formats.read bytes
  validateExpressions formats schema path false
  requireUnconstrainedColumns schema

/-- `served_table_columns` of a table without constraint records. -/
def servedTableColumns (path : SchemaPath) (name : String) (columns : List Column)
    : Result (List Column) := do
  let named (e : RpcError) : RpcError := { e with message := s!"Table '{name}': {e.message}" }
  let columns ← (translateLegacyGenerated formats columns path).mapError named
  let served ← normalizeFields 0 columns
  validateColumnMetadata formats served
  (validateExpressions formats served path true).mapError named
  return served

def StoredTable.info (table : StoredTable) (path : SchemaPath) : Result TableInfo := do
  validateColumnMetadataIpc formats table.columns
  let columns ← servedTableColumns formats path table.name (← formats.read table.columns)
  return ⟨table.name, path, columns⟩

variable {formats} {columns : List Column} {owner path : SchemaPath}

/-- The tags that a field has are JSON. -/
def TagsValid (formats : Formats) (metadata : Metadata) : Prop :=
  ∀ value, ("tags", value) ∈ metadata → formats.tags value = .ok ()

/-- Nothing tells of a generated column. -/
structure Plain (metadata : Metadata) : Prop where
  known : unknownVersion metadata = false
  current : metadata.containsKey legacyGenerated = false
  expression : metadata.containsKey generated = false
  category : metadata.containsKey generation = false

variable {key : String}

theorem lookup_eq_none {metadata : Metadata}
    (absent : metadata.containsKey key = false) : metadata.lookup key = none := by
  rw [lookup_eq_none_iff]
  intro entry member
  have other : entry.1 ≠ key := by simpa using any_eq_false.mp absent entry member
  simpa using other.symm

theorem exists_lookup {metadata : Metadata}
    (present : metadata.containsKey key = true) : ∃ value, metadata.lookup key = some value := by
  cases found : metadata.lookup key with
  | some value => exact ⟨value, rfl⟩
  | none =>
    rw [lookup_eq_none_iff] at found
    obtain ⟨entry, member, is⟩ := any_eq_true.mp present
    have := found entry member
    simp_all

theorem mem_of_lookup {metadata : Metadata} {value}
    (found : metadata.lookup key = some value) : (key, value) ∈ metadata := by
  obtain ⟨before, after, rfl, _⟩ := lookup_eq_some_iff.mp found
  simp

theorem tagsValid_of_checkEntries {metadata seen}
    (checked : checkEntries formats metadata seen = .ok ()) : TagsValid formats metadata := by
  induction metadata generalizing seen with
  | nil => exact nofun
  | cons entry rest ih =>
    obtain ⟨key, value⟩ := entry
    obtain ⟨_, _, checked⟩ := bind_eq_ok.mp checked
    intro other member
    rcases mem_cons.mp member with is | later
    · cases is
      obtain ⟨_, tags, _⟩ := bind_eq_ok.mp checked
      exact mapError_eq_ok.mp tags
    · by_cases isTags : key = "tags"
      · rw [if_pos isTags] at checked
        obtain ⟨_, _, rest⟩ := bind_eq_ok.mp checked
        exact ih rest other later
      · rw [if_neg isTags] at checked
        exact ih checked other later

theorem plain_of_checkGenerated {metadata}
    (checked : checkGenerated formats owner false metadata = .ok ()) : Plain metadata := by
  obtain ⟨_, known, checked⟩ := bind_eq_ok.mp checked
  obtain ⟨_, current, checked⟩ := bind_eq_ok.mp checked
  have expression : metadata.containsKey generated = false := by
    refine Bool.eq_false_iff.mpr fun present => ?_
    obtain ⟨value, found⟩ := exists_lookup present
    simp [found] at checked
  exact ⟨by simpa using known, by simpa using current, expression, by simp_all⟩

theorem Plain.checkGenerated {metadata} (plain : Plain metadata) (allow)
    : checkGenerated formats owner allow metadata = .ok () := by
  unfold Vgi.Stored.checkGenerated
  rw [lookup_eq_none plain.expression]
  simp [plain.known, plain.current, plain.expression, plain.category]

mutual

theorem every_tagsValid {depth} : ∀ {column : Column},
    checkMessageField formats depth column = .ok () → column.Every (TagsValid formats)
  | .field .., checked => by
    obtain ⟨_, _, checked⟩ := bind_eq_ok.mp checked
    obtain ⟨_, entries, checked⟩ := bind_eq_ok.mp checked
    exact ⟨tagsValid_of_checkEntries entries, everyAll_tagsValid checked⟩

theorem everyAll_tagsValid {depth} : ∀ {columns : List Column},
    checkMessageFields formats depth columns = .ok () →
    Column.EveryAll (TagsValid formats) columns
  | [], _ => trivial
  | _ :: _, checked => by
    obtain ⟨_, first, rest⟩ := bind_eq_ok.mp checked
    exact ⟨every_tagsValid first, everyAll_tagsValid rest⟩

end

mutual

theorem every_plain : ∀ {column : Column},
    checkExpression formats owner false column = .ok () → column.Every Plain
  | .field .., checked => by
    obtain ⟨_, own, checked⟩ := bind_eq_ok.mp checked
    exact ⟨plain_of_checkGenerated own, everyAll_plain checked⟩

theorem everyAll_plain : ∀ {columns : List Column},
    checkExpressions formats owner false columns = .ok () → Column.EveryAll Plain columns
  | [], _ => trivial
  | _ :: _, checked => by
    obtain ⟨_, first, rest⟩ := bind_eq_ok.mp checked
    exact ⟨every_plain first, everyAll_plain rest⟩

end

mutual

theorem validateField_ok : ∀ {column : Column},
    column.Every (TagsValid formats) → validateField formats column = .ok ()
  | .field _ _ metadata _ _, valid => by
    unfold validateField
    split
    · next tags found =>
        rw [valid.1 tags (mem_of_lookup found)]
        exact validateColumnMetadata_ok valid.2
    · exact validateColumnMetadata_ok valid.2

theorem validateColumnMetadata_ok : ∀ {columns : List Column},
    Column.EveryAll (TagsValid formats) columns → validateColumnMetadata formats columns = .ok ()
  | [], _ => rfl
  | _ :: _, valid => by
    unfold validateColumnMetadata
    rw [validateField_ok valid.1]
    exact validateColumnMetadata_ok valid.2

end

mutual

variable {allow : Bool}

theorem checkExpression_ok : ∀ {column : Column},
    column.Every Plain → checkExpression formats owner allow column = .ok ()
  | .field .., plain => by
    unfold checkExpression
    rw [plain.1.checkGenerated]
    exact checkExpressions_ok plain.2

theorem checkExpressions_ok : ∀ {columns : List Column},
    Column.EveryAll Plain columns → checkExpressions formats owner allow columns = .ok ()
  | [], _ => rfl
  | _ :: _, plain => by
    unfold checkExpressions
    rw [checkExpression_ok plain.1]
    exact checkExpressions_ok plain.2

end

mutual

/-- Normalizing fails only below the deepest level that a message has. -/
theorem exists_normalizeField : ∀ column (depth : Nat),
    column.height + depth ≤ 64 → ∃ served, normalizeField depth column = .ok served
      ∧ ∀ holds, column.Every holds → served.Every holds
  | .field name nullable metadata kind children, depth, shallow => by
    rw [Column.height] at shallow
    obtain ⟨served, normal, every⟩ := exists_normalizeFields children (depth + 1) (by omega)
    unfold normalizeField
    split
    · exact ⟨_, rfl, fun _ => id⟩
    · split
      · rw [rejectIf, if_neg (by omega), ok_bind, normal]
        exact ⟨_, rfl, fun holds own => ⟨own.1, every holds own.2⟩⟩
      · exact ⟨_, rfl, fun _ => id⟩

theorem exists_normalizeFields : ∀ columns (depth : Nat),
    Column.heightAll columns + depth ≤ 64 → ∃ served, normalizeFields depth columns = .ok served
      ∧ ∀ holds, Column.EveryAll holds columns → Column.EveryAll holds served
  | [], _, _ => ⟨[], rfl, fun _ => id⟩
  | column :: rest, depth, shallow => by
    rw [Column.heightAll] at shallow
    obtain ⟨first, normal, every⟩ := exists_normalizeField column depth (by omega)
    obtain ⟨others, normals, everyAll⟩ := exists_normalizeFields rest depth (by omega)
    unfold normalizeFields
    rw [normal, ok_bind, normals]
    exact ⟨_, rfl, fun holds own => ⟨every holds own.1, everyAll holds own.2⟩⟩

end

variable {schema : List Column}

theorem everyAll_plain_of_validateLoop {physical generates flags}
    (checked : validateLoop formats schema owner false columns physical generates = .ok flags)
    : Column.EveryAll Plain columns := by
  induction columns generalizing physical generates with
  | nil => trivial
  | cons column rest ih =>
    obtain ⟨_, own, checked⟩ := bind_eq_ok.mp checked
    refine ⟨every_plain own, ?_⟩
    split at checked
    · obtain ⟨_, _, rest⟩ := bind_eq_ok.mp checked
      exact ih rest
    · exact ih checked

theorem Column.Every.metadata {holds} {column : Column}
    (every : column.Every holds) : holds column.metadata := by
  cases column
  exact every.1

/-- Plain columns pass, and none of them is generated. -/
theorem exists_validateLoop (plain : Column.EveryAll Plain columns)
    (allow physical generates)
    : ∃ physical', validateLoop formats schema owner allow columns physical generates
        = .ok (physical', generates) := by
  induction columns generalizing physical with
  | nil => exact ⟨physical, rfl⟩
  | cons column rest ih =>
    unfold validateLoop
    rw [checkExpression_ok plain.1, ok_bind, lookup_eq_none plain.1.metadata.expression]
    exact ih plain.2 _

theorem translateLegacyGenerated_plain (plain : Column.EveryAll Plain columns)
    : translateLegacyGenerated formats columns path = .ok columns := by
  have none : columns.any (·.metadata.containsKey legacyGenerated) = false := by
    induction columns with
    | nil => rfl
    | cons column rest ih => rw [any_cons, plain.1.metadata.current, ih plain.2]; rfl
  unfold translateLegacyGenerated
  rw [none]
  rfl

/-- A table with accepted columns is listed, wherever its schema is. -/
theorem exists_info {bytes} (accepted : validateColumns formats bytes owner = .ok ()) (name path)
    : ∃ columns, (StoredTable.mk name bytes).info formats path = .ok ⟨name, path, columns⟩ := by
  obtain ⟨_, message, accepted⟩ := bind_eq_ok.mp accepted
  obtain ⟨columns, read, accepted⟩ := bind_eq_ok.mp accepted
  obtain ⟨_, expressions, _⟩ := bind_eq_ok.mp accepted
  obtain ⟨flags, loop, _⟩ := bind_eq_ok.mp expressions
  have plain := everyAll_plain_of_validateLoop loop
  have tags : Column.EveryAll (TagsValid formats) columns := by
    unfold validateColumnMetadataIpc at message
    rw [read] at message
    exact everyAll_tagsValid message
  obtain ⟨served, normal, every⟩ := exists_normalizeFields columns 0 (formats.shallow read)
  have loops : ∃ physical, validateLoop formats served path true served false false
      = .ok (physical, false) := exists_validateLoop (every Plain plain) true false false
  obtain ⟨physical, passes⟩ := loops
  have expressions : validateExpressions formats served path true = .ok () := by
    unfold validateExpressions
    rw [passes]
    rfl
  refine ⟨served, ?_⟩
  unfold StoredTable.info servedTableColumns
  simp only [message, read, ok_bind, translateLegacyGenerated_plain plain, normal,
    validateColumnMetadata_ok (every _ tags), expressions, Except.mapError]
  rfl

end Vgi.Stored
