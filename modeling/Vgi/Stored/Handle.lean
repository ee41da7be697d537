import Vgi.Stored.State

/-! The RPCs of a stored catalog. A read replays the session's event log; a DDL is validated
against the replayed state and, when it changes anything, appended to the log.
-/

namespace Vgi.Stored

open Storage

structure SchemaCreateParams where
  path : SchemaPath
  onConflict : String
  comment : Option String
  tags : Option StrMap
  options : Option Bytes
deriving DecidableEq

structure SchemaDropParams where
  path : SchemaPath
  ignoreNotFound : Bool
  cascade : Bool
deriving DecidableEq

structure TableCreateRequest where
  schemaPath : SchemaPath
  name : String
  columns : Bytes
  onConflict : String
  constraintDefinitions : List Bytes
  comment : Option String
  tags : Option StrMap
  options : Option Bytes
  layout : Option Bytes
deriving DecidableEq

structure DropParams where
  schemaPath : SchemaPath
  name : String
  ignoreNotFound : Bool
deriving DecidableEq

structure ViewCreateParams where
  schemaPath : SchemaPath
  name : String
  definition : String
  onConflict : String
  aliases : Option (List String)
  security : String
  comment : Option String
  tags : Option StrMap
  columnComments : Option StrMap
deriving DecidableEq

structure ViewCommentSetParams where
  schemaPath : SchemaPath
  name : String
  comment : Option String
  ignoreNotFound : Bool
deriving DecidableEq

structure ViewColumnCommentSetParams extends ViewCommentSetParams where
  columnPath : List String
deriving DecidableEq

structure GetParams where
  schemaPath : SchemaPath
  name : String
deriving DecidableEq

structure SchemaInfo where
  comment : Option String
  tags : StrMap
  path : SchemaPath
  estimatedObjectCount : List (String × Int)
deriving DecidableEq

structure ViewInfo where
  comment : Option String
  tags : StrMap
  name : String
  schemaPath : SchemaPath
  definition : String
  columnComments : StrMap
  aliases : List String
  security : String
deriving DecidableEq

/-- What surrounds the catalog: reading the parameters of each method from a record batch,
the JSON of the log, the Arrow schemas of tables, and the `catalog_contents` answer that the
provider shapes from a state.
-/
structure Surroundings (Batch TableInfo Contents : Type) where
  path : Batch → Result SchemaPath
  get : Batch → Result GetParams
  ifNoneMatch : Batch → Result (Option String)
  schemaCreate : Batch → Result SchemaCreateParams
  schemaDrop : Batch → Result SchemaDropParams
  tableCreate : Batch → Result TableCreateRequest
  drop : Batch → Result DropParams
  viewCreate : Batch → Result ViewCreateParams
  viewCommentSet : Batch → Result ViewCommentSetParams
  viewColumnCommentSet : Batch → Result ViewColumnCommentSetParams
  encodeEvent : Event → Except String Bytes
  decodeEvent : Bytes → Except String Event
  validateColumns : Bytes → SchemaPath → Result Unit
  tableInfo : SchemaPath → StoredTable → Result TableInfo
  contents : State → Option String → Result Contents

inductive Reply (TableInfo Contents : Type) where
  | version (version : Int)
  | transactionBegin
  | schemas (items : List SchemaInfo)
  | tables (items : List TableInfo)
  | views (items : List ViewInfo)
  | noItems
  | noStatistics
  | contents (contents : Contents)
deriving DecidableEq

structure StoredCatalog where
  name : String
  versioned : Bool
deriving DecidableEq

structure Request (Batch : Type) where
  method : String
  batch : Batch

def StoredSchema.info (schema : StoredSchema) : SchemaInfo where
  comment := schema.comment
  tags := schema.tags
  path := schema.path
  estimatedObjectCount :=
    [("table", schema.tables.length), ("view", schema.views.length), ("macro", 0),
      ("index", 0), ("scalar_function", 0), ("aggregate_function", 0), ("table_function", 0)]

def StoredView.info (view : StoredView) (path : SchemaPath) : ViewInfo where
  comment := view.comment
  tags := view.tags
  name := view.name
  schemaPath := path
  definition := view.definition
  columnComments := view.columnComments
  aliases := view.aliases
  security := "regular"

section

variable {Batch TableInfo Contents σ : Type} (sur : Surroundings Batch TableInfo Contents)
  (store : FunctionStorage σ) (catalog : StoredCatalog) (session : Bytes)

/-- An operation on the store that can fail. What it did before it failed stays done. -/
abbrev Effect (σ α : Type) := ExceptT RpcError (StateM σ) α

def logNs : Bytes := utf8 "ddl"

def logKey : Bytes := utf8 "log"

def scope : Bytes := utf8 "vgi.stored_catalog" ++ [0] ++ utf8 catalog.name ++ [0] ++ session

def append (event : Event) : Effect σ Unit := do
  let bytes ← liftM ((sur.encodeEvent event).mapError fun e =>
    runtimeError s!"{catalog.name}: encode DDL: {e}")
  let _ ← (store.append (scope catalog session) logNs logKey bytes : StateM σ Int)

/-- An event that no longer applies lost a race: it is skipped without a version bump. -/
def State.replay (state : State) (event : Event) : State :=
  match state.apply event with
  | .ok (true, changed) => { changed with version := changed.version + 1 }
  | _ => state

/-- Replays the decoded log. The first entry must be the one of the attach. -/
def replayLog (events : List (Result Event)) : Result State := do
  let notAttached := notFound
    s!"catalog '{catalog.name}' is not attached (unknown or detached session)"
  match events with
  | [] => .error notAttached
  | first :: rest =>
    match ← first with
    | .attached => rest.foldlM (fun state event => return state.replay (← event)) .new
    | _ => .error notAttached

def load : Effect σ State := do
  let rows ← (store.scan (scope catalog session) logNs logKey (-1) (2 ^ 64 - 1)
    : StateM σ (List (Int × Bytes)))
  liftM (replayLog catalog (rows.map fun (_, bytes) =>
    (sur.decodeEvent bytes).mapError fun e =>
      runtimeError s!"{catalog.name}: corrupt DDL log: {e}"))

/-- Validates the event against the current state and, when it changes anything, appends it. -/
def mutate (event : Event) : Effect σ Unit := do
  let state ← load sur store catalog session
  let (changed, _) ← liftM (state.apply event)
  if changed then append sur store catalog session event

def reportedVersion (state : State) : Int :=
  if catalog.versioned then state.version else 0

variable (batch : Batch)

def handleSchemaCreate : Effect σ Unit := do
  let q ← liftM (sur.schemaCreate batch)
  if q.options.isSome then
    throw (methodNotImplemented
      "catalog_schema_create requires negotiated vgi.schema.options.create.v1")
  let onConflict ← liftM (OnConflict.parse q.onConflict)
  mutate sur store catalog session (.schemaCreate q.path q.comment (q.tags.getD []) onConflict)

def handleSchemaDrop : Effect σ Unit := do
  let q ← liftM (sur.schemaDrop batch)
  mutate sur store catalog session (.schemaDrop q.path q.ignoreNotFound q.cascade)

def handleTableCreate : Effect σ Unit := do
  let q ← liftM (sur.tableCreate batch)
  if ¬q.constraintDefinitions.isEmpty then
    throw (methodNotImplemented <| s!"catalog '{catalog.name}' does not support CREATE TABLE "
      ++ "constraints (NOT NULL, PRIMARY KEY, UNIQUE, CHECK, FOREIGN KEY): its tables are "
      ++ "metadata only, with no write path that could enforce them")
  if q.comment.isSome ∨ q.tags.isSome ∨ q.options.isSome ∨ q.layout.isSome then
    throw (methodNotImplemented "catalog_table_create requires negotiated table profiles")
  liftM (sur.validateColumns q.columns q.schemaPath)
  let onConflict ← liftM (OnConflict.parse q.onConflict)
  mutate sur store catalog session
    (.tableCreate q.schemaPath q.name q.columns [] [] [] [] onConflict)

def handleTableDrop : Effect σ Unit := do
  let q ← liftM (sur.drop batch)
  mutate sur store catalog session (.tableDrop q.schemaPath q.name q.ignoreNotFound)

/-- An identifier as it is written, without its quotes. -/
def rawIdentifier (name : String) : Bool := name ≠ "" ∧ '\u0000' ∉ name.toList

def handleViewCreate : Effect σ Unit := do
  let q ← liftM (sur.viewCreate batch)
  if (q.columnComments.getD []).any fun entry => ¬rawIdentifier entry.1 then
    throw (valueError "view column comments require raw output identifiers")
  if q.security ≠ "regular" then
    throw (valueError "view security mode is unsupported")
  let onConflict ← liftM (OnConflict.parse q.onConflict)
  mutate sur store catalog session
    (.viewCreate q.schemaPath q.name q.definition (q.aliases.getD []) q.comment
      (q.tags.getD []) (q.columnComments.getD []) onConflict)

def handleViewColumnCommentSet : Effect σ Unit := do
  let q ← liftM (sur.viewColumnCommentSet batch)
  match q.columnPath with
  | [column] =>
    if ¬rawIdentifier column then
      throw (valueError "view column comments require one raw output identifier")
    mutate sur store catalog session
      (.viewCommentSet q.schemaPath q.name (some column) q.comment q.ignoreNotFound)
  | _ => throw (valueError "view column comments require one raw output identifier")

def handleViewCommentSet : Effect σ Unit := do
  let q ← liftM (sur.viewCommentSet batch)
  mutate sur store catalog session
    (.viewCommentSet q.schemaPath q.name none q.comment q.ignoreNotFound)

def handleViewDrop : Effect σ Unit := do
  let q ← liftM (sur.drop batch)
  mutate sur store catalog session (.viewDrop q.schemaPath q.name q.ignoreNotFound)

/-- Answers from the replayed state. -/
def readState (answer : State → Result (Reply TableInfo Contents))
    : Effect σ (Option (Reply TableInfo Contents)) := do
  let state ← load sur store catalog session
  return some (← liftM (answer state))

/-- Serves one catalog RPC for a session of this catalog. -/
def handle (req : Request Batch) : Effect σ (Option (Reply TableInfo Contents)) :=
  let read := readState sur store catalog session
  let ddl (run : Batch → Effect σ Unit) : Effect σ (Option (Reply TableInfo Contents)) := do
    run req.batch
    return none
  match req.method with
  | "catalog_detach" => do
    (store.clear (scope catalog session) : StateM σ Unit)
    return none
  | "catalog_version" => read fun state => return .version (reportedVersion catalog state)
  | "catalog_transaction_begin" => return some .transactionBegin
  | "catalog_transaction_commit" | "catalog_transaction_rollback" => return none
  | "catalog_schemas" => read fun state => return .schemas (state.schemas.map StoredSchema.info)
  | "catalog_schema_get" => do
    let path ← liftM (sur.path req.batch)
    read fun state => return .schemas ((state.schema path).map StoredSchema.info).toList
  | "catalog_schema_contents_tables" => do
    let path ← liftM (sur.path req.batch)
    read fun state => do
      match state.schema path with
      | some schema => return .tables (← schema.tables.mapM (sur.tableInfo schema.path))
      | none => return .tables []
  | "catalog_schema_contents_views" => do
    let path ← liftM (sur.path req.batch)
    read fun state =>
      match state.schema path with
      | some schema => return .views (schema.views.map (·.info schema.path))
      | none => return .views []
  | "catalog_schema_contents_functions" | "catalog_schema_contents_macros"
  | "catalog_schema_contents_indexes" | "catalog_macro_get" | "catalog_index_get"
  | "catalog_copy_from_formats" => return some .noItems
  | "catalog_table_get" => do
    let params ← liftM (sur.get req.batch)
    read fun state => do
      match (state.schema params.schemaPath).bind (·.table params.name) with
      | some table => return .tables [← sur.tableInfo params.schemaPath table]
      | none => return .tables []
  | "catalog_view_get" => do
    let params ← liftM (sur.get req.batch)
    read fun state =>
      let found := (state.schema params.schemaPath).bind (·.view params.name)
      return .views (found.map (·.info params.schemaPath)).toList
  | "catalog_table_column_statistics_get" => return some .noStatistics
  | "catalog_table_scan_function_get" | "catalog_table_scan_branches_get" =>
    throw { valueError
      s!"catalog '{catalog.name}' stores table metadata only; its tables have no rows to scan"
      with code := .unimplemented }
  | "catalog_contents" => do
    let tag ← liftM (sur.ifNoneMatch req.batch)
    read fun state => return .contents (← sur.contents state tag)
  | "catalog_schema_create" => ddl (handleSchemaCreate sur store catalog session)
  | "catalog_schema_drop" => ddl (handleSchemaDrop sur store catalog session)
  | "catalog_table_create" => ddl (handleTableCreate sur store catalog session)
  | "catalog_table_drop" => ddl (handleTableDrop sur store catalog session)
  | "catalog_view_create" => ddl (handleViewCreate sur store catalog session)
  | "catalog_view_column_comment_set" => ddl (handleViewColumnCommentSet sur store catalog session)
  | "catalog_view_comment_set" => ddl (handleViewCommentSet sur store catalog session)
  | "catalog_view_drop" => ddl (handleViewDrop sur store catalog session)
  | other =>
    throw { valueError s!"catalog '{catalog.name}' does not support {other}"
      with code := .unimplemented }

end

end Vgi.Stored
