import Mathlib.Data.List.Sort
import Vgi.Rpc

/-! The `catalog_contents` answer: a worker flattens its schemas into one stream for each kind of
record, and the client groups the rows by their schema path again. Streams are the records that
were written to them.
-/

namespace Vgi.Catalog

/-- A schema path, outermost name first. -/
abbrev Path := List String

/-- The records of each kind, with what the reader looks at in them. -/
structure Records where
  Schema : Type
  Table : Type
  View : Type
  Function : Type
  Macro : Type
  Index : Type
  path : Schema → Path
  tablePath : Table → Path
  viewPath : View → Path
  functionPath : Function → Path
  functionType : Function → String
  macroPath : Macro → Path
  macroType : Macro → String
  indexPath : Index → Path

structure SchemaContents (R : Records) where
  path : Path
  schema : R.Schema
  tables : List R.Table
  views : List R.View
  scalarFunctions : List R.Function
  aggregateFunctions : List R.Function
  tableFunctions : List R.Function
  scalarMacros : List R.Macro
  tableMacros : List R.Macro
  indexes : List R.Index

def SchemaContents.bare {R : Records} (path : Path) (schema : R.Schema) : SchemaContents R :=
  ⟨path, schema, [], [], [], [], [], [], [], []⟩

structure CatalogContentsResult (R : Records) where
  schemas : List (SchemaContents R)
  etag : Option String
  notModified : Bool

structure CatalogContentsResponse (R : Records) where
  catalogVersion : Int
  etag : Option String
  notModified : Bool
  schemas : Option (List R.Schema)
  tables : Option (List R.Table)
  views : Option (List R.View)
  functions : Option (List R.Function)
  macros : Option (List R.Macro)
  indexes : Option (List R.Index)

variable {R : Records}

def CatalogContentsResult.full (schemas : List (SchemaContents R)) (etag : Option String)
    : CatalogContentsResult R :=
  ⟨schemas, etag, false⟩

def CatalogContentsResponse.unchanged (catalogVersion : Int) (etag : String)
    : CatalogContentsResponse R :=
  ⟨catalogVersion, some etag, true, none, none, none, none, none, none⟩

def CatalogContentsResponse.streamless (response : CatalogContentsResponse R) : Bool :=
  response.schemas.isNone && response.tables.isNone && response.views.isNone
    && response.functions.isNone && response.macros.isNone && response.indexes.isNone

inductive CatalogContentsEtag where
  | none
  | contentHash
deriving DecidableEq

/-- `encode_collection`: no records are no stream. -/
def encodeCollection {α : Type} (values : List α) : Option (List α) :=
  if values.isEmpty then none else some values

def decodeCollection {α : Type} (stream : Option (List α)) : List α := stream.getD []

def fromSchemaContents (catalogVersion : Int) (etag : Option String)
    (schemas : List (SchemaContents R)) : CatalogContentsResponse R where
  catalogVersion := catalogVersion
  etag := etag
  notModified := false
  schemas := encodeCollection (schemas.map (·.schema))
  tables := encodeCollection (schemas.flatMap (·.tables))
  views := encodeCollection (schemas.flatMap (·.views))
  functions := encodeCollection (schemas.flatMap fun entry =>
    entry.scalarFunctions ++ entry.aggregateFunctions ++ entry.tableFunctions)
  macros := encodeCollection (schemas.flatMap fun entry => entry.scalarMacros ++ entry.tableMacros)
  indexes := encodeCollection (schemas.flatMap (·.indexes))

section

variable (debug : Path → String)

/-- The loop of `validate_paths` over the entries, with the paths it has seen. -/
def validateEach : List (SchemaContents R) → (seen : List Path) → Result (List Path)
  | [], seen => .ok seen
  | entry :: rest, seen =>
    if entry.path = [] then
      .error (valueError "catalog_contents returned a schema with an empty path")
    else if entry.path ∈ seen then
      .error (valueError s!"catalog_contents returned duplicate schema path {debug entry.path}")
    else if R.path entry.schema ≠ entry.path then
      .error (valueError (s!"catalog_contents: path {debug entry.path} differs from its "
        ++ s!"SchemaInfo.path {debug (R.path entry.schema)}"))
    else validateEach rest (seen ++ [entry.path])

def validateParents (seen : List Path) : List (SchemaContents R) → Result Unit
  | [] => .ok ()
  | entry :: rest =>
    let parent := entry.path.dropLast
    if parent ≠ [] ∧ parent ∉ seen then
      .error (valueError
        s!"catalog_contents returned schema path {debug entry.path} without its parent")
    else validateParents seen rest

variable (schemas : List (SchemaContents R))

def validatePaths : Result Unit := do
  let seen ← validateEach debug schemas []
  validateParents debug seen schemas

/-- Parents before children; siblings keep their order. -/
def parentsFirst : List (SchemaContents R) :=
  schemas.insertionSort fun a b => a.path.length ≤ b.path.length

/-- Shapes a catalog's answer into the response. -/
def finish (digest : CatalogContentsResponse R → String) (result : CatalogContentsResult R)
    (ifNoneMatch : Option String) (catalogVersion : Int) (etagMode : CatalogContentsEtag)
    : Result (CatalogContentsResponse R) :=
  if result.notModified then
    match result.etag, ifNoneMatch with
    | some etag, some held =>
      if etag = held then
        if result.schemas.isEmpty then .ok (.unchanged catalogVersion etag)
        else .error (valueError
          "catalog_contents returned not_modified with schemas; it must return none")
      else .error notModifiedRefused
    | _, _ => .error notModifiedRefused
  else do
    validatePaths debug result.schemas
    let schemas := parentsFirst result.schemas
    match result.etag with
    | some etag =>
      if ifNoneMatch = some etag then return .unchanged catalogVersion etag
      else return fromSchemaContents catalogVersion (some etag) schemas
    | none =>
      let response := fromSchemaContents catalogVersion none schemas
      if etagMode = .contentHash then
        let etag := digest response
        if ifNoneMatch = some etag then return .unchanged catalogVersion etag
        else return { response with etag := some etag }
      else return response
where
  notModifiedRefused : RpcError :=
    valueError ("catalog_contents returned not_modified, but only a catalog whose etag equals "
      ++ "if_none_match may (and it must return that etag)")

/-- The loop of `schema_contents` over the schemas. -/
def openSchemas : List R.Schema → List (SchemaContents R) → Result (List (SchemaContents R))
  | [], schemas => .ok schemas
  | info :: rest, schemas =>
    let path := R.path info
    let known (path : Path) := schemas.any (·.path = path)
    if path = [] ∨ path.any (· = "") ∨ known path then
      .error (typeError "catalog contains empty or duplicate schema path")
    else if path.length > 1 ∧ ¬ known path.dropLast then
      .error (typeError "catalog schema parent missing or out of order")
    else openSchemas rest (schemas ++ [.bare path info])

def place (path : Path)
    (push : SchemaContents R → Result (SchemaContents R)) : Result (List (SchemaContents R)) :=
  match schemas.find? (·.path = path) with
  | none => .error (typeError s!"catalog object refers to absent schema {debug path}")
  | some schema => do
    let filled ← push schema
    return schemas.map fun entry => if entry.path = path then filled else entry

def pushFunction (row : R.Function) (schema : SchemaContents R) : Result (SchemaContents R) :=
  match R.functionType row with
  | "SCALAR" | "scalar" | "SCALAR_FUNCTION" =>
    .ok { schema with scalarFunctions := schema.scalarFunctions ++ [row] }
  | "AGGREGATE" | "aggregate" | "AGGREGATE_FUNCTION" =>
    .ok { schema with aggregateFunctions := schema.aggregateFunctions ++ [row] }
  | "TABLE" | "TABLE_BUFFERING" | "table" | "table_buffering" | "table_in_out"
  | "TABLE_FUNCTION" => .ok { schema with tableFunctions := schema.tableFunctions ++ [row] }
  | kind => .error (typeError s!"unsupported catalog function type {kind}")

def pushMacro (row : R.Macro) (schema : SchemaContents R) : Result (SchemaContents R) :=
  match R.macroType row with
  | "SCALAR" | "scalar" | "SCALAR_MACRO" =>
    .ok { schema with scalarMacros := schema.scalarMacros ++ [row] }
  | "TABLE" | "table" | "TABLE_MACRO" =>
    .ok { schema with tableMacros := schema.tableMacros ++ [row] }
  | other => .error (typeError s!"unsupported catalog macro type {other}")

def placeAll {Row : Type} (pathOf : Row → Path)
    (push : Row → SchemaContents R → Result (SchemaContents R)) (rows : Option (List Row))
    (schemas : List (SchemaContents R)) : Result (List (SchemaContents R)) :=
  (decodeCollection rows).foldlM (fun schemas row =>
    place debug schemas (pathOf row) (push row)) schemas

def CatalogContentsResponse.schemaContents (response : CatalogContentsResponse R)
    : Result (List (SchemaContents R)) := do
  if response.notModified then
    if ¬ response.streamless ∨ response.etag.isNone then
      .error (typeError "not_modified requires an ETag and six null streams")
    else return []
  else
    let schemas ← openSchemas (decodeCollection response.schemas) []
    let schemas ← placeAll debug R.tablePath
      (fun row schema => .ok { schema with tables := schema.tables ++ [row] })
      response.tables schemas
    let schemas ← placeAll debug R.viewPath
      (fun row schema => .ok { schema with views := schema.views ++ [row] })
      response.views schemas
    let schemas ← placeAll debug R.functionPath pushFunction response.functions schemas
    let schemas ← placeAll debug R.macroPath pushMacro response.macros schemas
    placeAll debug R.indexPath
      (fun row schema => .ok { schema with indexes := schema.indexes ++ [row] })
      response.indexes schemas

end

end Vgi.Catalog
