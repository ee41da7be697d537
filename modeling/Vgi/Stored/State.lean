import Vgi.Rpc
import Vgi.Storage.Backend

/-! The state of a stored catalog's session and what each DDL event does to it. The state is
never stored: it is what a replay of the session's event log gives.
-/

namespace Vgi.Stored

inductive OnConflict where
  | error
  | ignore
  | replace
deriving DecidableEq

def toAsciiLowercase (text : String) : String := String.ofList (text.toList.map Char.toLower)

def OnConflict.parse (value : String) : Result OnConflict :=
  match toAsciiLowercase value with
  | "error" | "" => .ok .error
  | "ignore" => .ok .ignore
  | "replace" => .ok .replace
  | other => .error (invalidArgument
      s!"unknown on_conflict '{other}' (expected error, ignore or replace)")

abbrev SchemaPath := List String
abbrev StrMap := List (String × String)

/-- One entry of a session's log. The constraint facts of a table are those of logs written
before the catalog refused them.
-/
inductive Event where
  | attached
  | schemaCreate (path : SchemaPath) (comment : Option String) (tags : StrMap)
      (onConflict : OnConflict)
  | schemaDrop (path : SchemaPath) (ignoreNotFound cascade : Bool)
  | tableCreate (path : SchemaPath) (name : String) (columns : Bytes) (notNull : List Int)
      (unique : List (List Int)) (check : List String) (primaryKey : List (List Int))
      (onConflict : OnConflict)
  | tableDrop (path : SchemaPath) (name : String) (ignoreNotFound : Bool)
  | viewCreate (path : SchemaPath) (name definition : String) (aliases : List String)
      (comment : Option String) (tags columnComments : StrMap) (onConflict : OnConflict)
  | viewCommentSet (path : SchemaPath) (name : String) (column comment : Option String)
      (ignoreNotFound : Bool)
  | viewDrop (path : SchemaPath) (name : String) (ignoreNotFound : Bool)
deriving DecidableEq

structure StoredTable where
  name : String
  columns : Bytes
deriving DecidableEq

structure StoredView where
  name : String
  definition : String
  aliases : List String
  comment : Option String
  tags : StrMap
  columnComments : StrMap
deriving DecidableEq

structure StoredSchema where
  path : SchemaPath
  comment : Option String
  tags : StrMap
  tables : List StoredTable
  views : List StoredView
deriving DecidableEq

structure State where
  version : Int
  schemas : List StoredSchema
deriving DecidableEq

/-- DuckDB identifiers are case-insensitive. -/
def same (a b : String) : Bool := toAsciiLowercase a = toAsciiLowercase b

def samePath (a b : SchemaPath) : Bool := a.length = b.length ∧ (a.zip b).all fun (x, y) => same x y

/-- The schema every session starts with. -/
def defaultSchema : String := "main"

def StoredSchema.empty (path : SchemaPath) : StoredSchema where
  path := path
  comment := none
  tags := []
  tables := []
  views := []

def StoredSchema.table (schema : StoredSchema) (name : String) : Option StoredTable :=
  schema.tables.find? fun table => same table.name name

def StoredSchema.view (schema : StoredSchema) (name : String) : Option StoredView :=
  schema.views.find? fun view => same view.name name

def State.new : State where
  version := 1
  schemas := [.empty [defaultSchema]]

def State.schema (state : State) (path : SchemaPath) : Option StoredSchema :=
  state.schemas.find? fun schema => samePath schema.path path

def joined (path : SchemaPath) : String := ".".intercalate path

/-- Cuts a list at its first element with the property. -/
def splitFirst {α : Type} (p : α → Bool) : List α → Option (List α × α × List α)
  | [] => none
  | a :: rest =>
    if p a then some ([], a, rest)
    else (splitFirst p rest).map fun (before, found, after) => (a :: before, found, after)

/-- The schema at a path, to be changed in place. -/
def State.schemaMut {α : Type} (state : State) (path : SchemaPath)
    (change : StoredSchema → Result (α × StoredSchema)) : Result (α × State) :=
  match splitFirst (fun schema => samePath schema.path path) state.schemas with
  | some (before, schema, after) => do
    let (result, changed) ← change schema
    return (result, { state with schemas := before ++ changed :: after })
  | none => .error (notFound s!"Schema '{joined path}' not found")

variable (state : State)

def State.createSchema (path : SchemaPath) (comment : Option String)
    (tags : StrMap) (onConflict : OnConflict) : Result (Bool × State) :=
  if path = [] then
    .error (invalidArgument "schema path must not be empty")
  else if path.length > 1 ∧ (state.schema path.dropLast).isNone then
    .error (notFound s!"Schema '{joined path.dropLast}' not found")
  else
    let fresh := { StoredSchema.empty path with comment, tags }
    match splitFirst (fun schema => samePath schema.path path) state.schemas with
    | some (before, _, after) =>
      match onConflict with
      | .ignore => .ok (false, state)
      | .replace => .ok (true, { state with schemas := before ++ fresh :: after })
      | .error => .error (valueError s!"Schema with name '{joined path}' already exists")
    | none => .ok (true, { state with schemas := state.schemas ++ [fresh] })

def isChild (path : SchemaPath) (schema : StoredSchema) : Bool :=
  schema.path.length > path.length ∧ samePath (schema.path.take path.length) path

def State.dropSchema (path : SchemaPath) (ignoreNotFound cascade : Bool)
    : Result (Bool × State) :=
  match state.schema path with
  | none =>
    if ignoreNotFound then .ok (false, state)
    else .error (notFound s!"Schema '{joined path}' not found")
  | some schema =>
    if samePath path [defaultSchema] then
      .error (valueError s!"cannot drop the default schema '{defaultSchema}'")
    else if (¬schema.tables.isEmpty ∨ ¬schema.views.isEmpty
        ∨ state.schemas.any (isChild path)) ∧ ¬cascade then
      .error (valueError s!"Schema '{joined path}' is not empty; use CASCADE")
    else
      .ok (true, { state with
        schemas := state.schemas.filter fun schema =>
          ¬samePath schema.path path ∧ ¬isChild path schema })

/-- Puts an object of one kind into its list, under the conflict rule. -/
def putNamed {α : Type} (kind name : String) (nameOf : α → String) (onConflict : OnConflict)
    (item : α) (items : List α) : Result (Bool × List α) :=
  match splitFirst (fun other => same (nameOf other) name) items with
  | some (before, _, after) =>
    match onConflict with
    | .ignore => .ok (false, items)
    | .replace => .ok (true, before ++ item :: after)
    | .error => .error (valueError s!"{kind} with name '{name}' already exists")
  | none => .ok (true, items ++ [item])

def State.createTable (path : SchemaPath) (name : String) (columns : Bytes)
    (onConflict : OnConflict) : Result (Bool × State) :=
  state.schemaMut path fun schema =>
    if (schema.view name).isSome then
      .error (valueError s!"A view named '{name}' already exists")
    else do
      let (changed, tables) ←
        putNamed "Table" name StoredTable.name onConflict ⟨name, columns⟩ schema.tables
      return (changed, { schema with tables })

def State.createView (path : SchemaPath) (view : StoredView)
    (onConflict : OnConflict) : Result (Bool × State) :=
  state.schemaMut path fun schema =>
    if (schema.table view.name).isSome then
      .error (valueError s!"A table named '{view.name}' already exists")
    else do
      let (changed, views) ← putNamed "View" view.name StoredView.name onConflict view schema.views
      return (changed, { schema with views })

/-- A comment goes to the view, or to one of its columns, where none is kept twice. -/
def StoredView.setComment (view : StoredView) (column comment : Option String) : StoredView :=
  match column with
  | some column =>
    let others := view.columnComments.filter fun entry => entry.1 ≠ column
    match comment with
    | some value => { view with columnComments := others ++ [(column, value)] }
    | none => { view with columnComments := others }
  | none => { view with comment := comment }

def State.setViewComment (path : SchemaPath) (name : String)
    (column comment : Option String) (ignoreNotFound : Bool) : Result (Bool × State) :=
  state.schemaMut path fun schema =>
    match splitFirst (fun view => same (StoredView.name view) name) schema.views with
    | some (before, view, after) =>
      .ok (true, { schema with views := before ++ view.setComment column comment :: after })
    | none =>
      if ignoreNotFound then .ok (false, schema)
      else .error (valueError s!"View with name '{name}' does not exist")

/-- Removes the object `name` of one kind from the schema at `path`. -/
def State.dropNamed {α : Type} (state : State) (path : SchemaPath) (name : String)
    (ignoreNotFound : Bool) (kind : String) (list : StoredSchema → List α)
    (setList : StoredSchema → List α → StoredSchema) (nameOf : α → String)
    : Result (Bool × State) :=
  let missing := if ignoreNotFound then .ok (false, state)
    else .error (notFound s!"{kind} '{joined path}.{name}' not found")
  match splitFirst (fun schema => samePath schema.path path) state.schemas with
  | none => missing
  | some (before, schema, after) =>
    match splitFirst (fun item => same (nameOf item) name) (list schema) with
    | some (earlier, _, later) =>
      .ok (true, { state with
        schemas := before ++ setList schema (earlier ++ later) :: after })
    | none => missing

/-- Applies one DDL. `true`: the catalog changed; `false`: a no-op. The constraint facts of
an old log are dropped.
-/
def State.apply : Event → Result (Bool × State)
  | .attached => .ok (false, state)
  | .schemaCreate path comment tags onConflict => state.createSchema path comment tags onConflict
  | .schemaDrop path ignoreNotFound cascade => state.dropSchema path ignoreNotFound cascade
  | .tableCreate path name columns _ _ _ _ onConflict =>
    state.createTable path name columns onConflict
  | .tableDrop path name ignoreNotFound =>
    state.dropNamed path name ignoreNotFound "Table" StoredSchema.tables
      (fun schema tables => { schema with tables }) StoredTable.name
  | .viewCreate path name definition aliases comment tags columnComments onConflict =>
    state.createView path ⟨name, definition, aliases, comment, tags, columnComments⟩ onConflict
  | .viewCommentSet path name column comment ignoreNotFound =>
    state.setViewComment path name column comment ignoreNotFound
  | .viewDrop path name ignoreNotFound =>
    state.dropNamed path name ignoreNotFound "View" StoredSchema.views
      (fun schema views => { schema with views }) StoredView.name

end Vgi.Stored
