import Vgi.Stored.Handle

/-! `State::apply` as it changes the state in place, where a refusal does not by itself undo what
was changed before it.
-/

namespace Vgi.Stored

open List State

/-- A computation that changes the state; what it has changed stays when it fails. -/
abbrev Change (α : Type) := ExceptT RpcError (StateM State) α

def State.position (state : State) (path : SchemaPath) : Option Nat :=
  state.schemas.findIdx? fun schema => samePath schema.path path

variable (path : SchemaPath)

/-- `schema_mut`: where the schema is, and the schema. -/
def schemaAt : Change (Nat × StoredSchema) := do
  let state ← get
  match state.position path with
  | some i => return (i, state.schemas.getD i (.empty path))
  | none => throw (notFound s!"Schema '{joined path}' not found")

def setSchema (i : Nat) (schema : StoredSchema) : Change Unit :=
  modify fun state => { state with schemas := state.schemas.set i schema }

def createSchemaInPlace (comment : Option String) (tags : StrMap)
    (onConflict : OnConflict) : Change Bool := do
  if path = [] then
    throw (invalidArgument "schema path must not be empty")
  let state ← get
  if path.length > 1 ∧ (state.schema path.dropLast).isNone then
    throw (notFound s!"Schema '{joined path.dropLast}' not found")
  let fresh := { StoredSchema.empty path with comment, tags }
  match state.position path with
  | some i =>
    match onConflict with
    | .ignore => return false
    | .replace => do
      setSchema i fresh
      return true
    | .error => throw (valueError s!"Schema with name '{joined path}' already exists")
  | none => do
    modify fun state => { state with schemas := state.schemas ++ [fresh] }
    return true

def dropSchemaInPlace (ignoreNotFound cascade : Bool) : Change Bool := do
  let state ← get
  match state.position path with
  | none =>
    if ignoreNotFound then return false
    else throw (notFound s!"Schema '{joined path}' not found")
  | some i => do
    if samePath path [defaultSchema] then
      throw (valueError s!"cannot drop the default schema '{defaultSchema}'")
    let schema := state.schemas.getD i (.empty path)
    if (¬schema.tables.isEmpty ∨ ¬schema.views.isEmpty ∨ state.schemas.any (isChild path))
        ∧ ¬cascade then
      throw (valueError s!"Schema '{joined path}' is not empty; use CASCADE")
    modify fun state => { state with
      schemas := state.schemas.filter fun schema =>
        ¬samePath schema.path path ∧ ¬isChild path schema }
    return true

/-- Puts an object of one kind into its list in the schema, under the conflict rule. -/
def putInPlace {α : Type} (kind name : String) (nameOf : α → String) (onConflict : OnConflict)
    (item : α) (items : List α) (setItems : List α → Change Unit) : Change Bool :=
  match items.findIdx? fun other => same (nameOf other) name with
  | some j =>
    match onConflict with
    | .ignore => return false
    | .replace => do
      setItems (items.set j item)
      return true
    | .error => throw (valueError s!"{kind} with name '{name}' already exists")
  | none => do
    setItems (items ++ [item])
    return true

def createTableInPlace (name : String) (columns : Bytes)
    (onConflict : OnConflict) : Change Bool := do
  let (i, schema) ← schemaAt path
  if (schema.view name).isSome then
    throw (valueError s!"A view named '{name}' already exists")
  putInPlace "Table" name StoredTable.name onConflict ⟨name, columns⟩ schema.tables
    fun tables => setSchema i { schema with tables }

def createViewInPlace (view : StoredView) (onConflict : OnConflict)
    : Change Bool := do
  let (i, schema) ← schemaAt path
  if (schema.table view.name).isSome then
    throw (valueError s!"A table named '{view.name}' already exists")
  putInPlace "View" view.name StoredView.name onConflict view schema.views
    fun views => setSchema i { schema with views }

def setViewCommentInPlace (name : String) (column comment : Option String)
    (ignoreNotFound : Bool) : Change Bool := do
  let (i, schema) ← schemaAt path
  match schema.views.findIdx? fun view => same view.name name with
  | none =>
    if ignoreNotFound then return false
    else throw (valueError s!"View with name '{name}' does not exist")
  | some j => do
    let views := schema.views.modify j fun view => view.setComment column comment
    setSchema i { schema with views }
    return true

def dropNamedInPlace {α : Type} (path : SchemaPath) (name : String) (ignoreNotFound : Bool)
    (kind : String) (list : StoredSchema → List α)
    (setList : StoredSchema → List α → StoredSchema) (nameOf : α → String) : Change Bool := do
  let missing : Change Bool :=
    if ignoreNotFound then return false
    else throw (notFound s!"{kind} '{joined path}.{name}' not found")
  let state ← get
  match state.position path with
  | none => missing
  | some i => do
    let schema := state.schemas.getD i (.empty path)
    match (list schema).findIdx? fun item => same (nameOf item) name with
    | some j => do
      setSchema i (setList schema ((list schema).eraseIdx j))
      return true
    | none => missing

def applyInPlace : Event → Change Bool
  | .attached => return false
  | .schemaCreate path comment tags onConflict => createSchemaInPlace path comment tags onConflict
  | .schemaDrop path ignoreNotFound cascade => dropSchemaInPlace path ignoreNotFound cascade
  | .tableCreate path name columns _ _ _ _ onConflict =>
    createTableInPlace path name columns onConflict
  | .tableDrop path name ignoreNotFound =>
    dropNamedInPlace path name ignoreNotFound "Table" StoredSchema.tables
      (fun schema tables => { schema with tables }) StoredTable.name
  | .viewCreate path name definition aliases comment tags columnComments onConflict =>
    createViewInPlace path ⟨name, definition, aliases, comment, tags, columnComments⟩ onConflict
  | .viewCommentSet path name column comment ignoreNotFound =>
    setViewCommentInPlace path name column comment ignoreNotFound
  | .viewDrop path name ignoreNotFound =>
    dropNamedInPlace path name ignoreNotFound "View" StoredSchema.views
      (fun schema views => { schema with views }) StoredView.name

/-- What the change does, where the state is only replaced when the event is applied. -/
def settled (state : State) : Result (Bool × State) → Result Bool × State
  | .ok (changed, after) => (.ok changed, after)
  | .error e => (.error e, state)

variable {α : Type}

/-- The first element with the property: by its place, by itself, and with what is around it. -/
theorem splitFirst_cases (p : α → Bool) (items)
    : (items.findIdx? p = none ∧ items.find? p = none ∧ splitFirst p items = none)
      ∨ ∃ before found after, items = before ++ found :: after
        ∧ items.findIdx? p = some before.length ∧ items.find? p = some found
        ∧ splitFirst p items = some (before, found, after) := by
  induction items with
  | nil => exact .inl ⟨rfl, rfl, rfl⟩
  | cons first rest ih =>
    rw [findIdx?_cons, find?_cons, splitFirst]
    cases holds : p first with
    | true => exact .inr ⟨[], first, rest, rfl, rfl, rfl, rfl⟩
    | false =>
      rcases ih with ⟨index, none_, split⟩ | ⟨before, found, after, is, index, some_, split⟩
      · refine .inl ⟨?_, none_, ?_⟩
        · rw [index]
          rfl
        · rw [split]
          rfl
      · refine .inr ⟨first :: before, found, after, ?_, ?_, some_, ?_⟩
        · rw [is]
          rfl
        · rw [index]
          rfl
        · rw [split]
          rfl

theorem set_middle (before after) (found item : α)
    : (before ++ found :: after).set before.length item = before ++ item :: after := by
  rw [set_append_right _ _ (Nat.le_refl _), Nat.sub_self]
  rfl

theorem modify_middle (before after) (found : α) (change)
    : (before ++ found :: after).modify before.length change = before ++ change found :: after := by
  induction before with
  | nil => rfl
  | cons first rest ih => exact congrArg (cons first) ih

theorem getD_middle (before after) (found other : α)
    : (before ++ found :: after).getD before.length other = found := by
  simp

section

variable (state : State) (path : SchemaPath)

theorem run_get_bind (next : State → Change α)
    : (get >>= next).run.run state = (next state).run.run state := rfl

theorem run_createSchemaInPlace (comment tags onConflict)
    : (createSchemaInPlace path comment tags onConflict).run.run state
      = settled state (state.createSchema path comment tags onConflict) := by
  unfold createSchema createSchemaInPlace position
  by_cases empty : path = []
  · rw [if_pos empty, if_pos empty]
    rfl
  · rw [if_neg empty, if_neg empty, run_get_bind]
    by_cases orphan : path.length > 1 ∧ (state.schema path.dropLast).isNone
    · rw [if_pos orphan, if_pos orphan]
      rfl
    · rw [if_neg orphan, if_neg orphan]
      rcases splitFirst_cases (fun schema => samePath schema.path path) state.schemas with
        ⟨index, _, split⟩ | ⟨before, schema, after, is, index, _, split⟩
      · simp only [index, split]
        rfl
      · simp only [index, split]
        cases onConflict with
        | replace =>
          refine congrArg (Prod.mk _) (congrArg (mk _) ?_)
          rw [is, set_middle]
        | _ => rfl

theorem run_dropSchemaInPlace (ignoreNotFound cascade)
    : (dropSchemaInPlace path ignoreNotFound cascade).run.run state
      = settled state (state.dropSchema path ignoreNotFound cascade) := by
  unfold dropSchema dropSchemaInPlace position schema
  rw [run_get_bind]
  rcases splitFirst_cases (fun schema => samePath schema.path path) state.schemas with
    ⟨index, none_, _⟩ | ⟨before, schema, after, is, index, some_, _⟩
  · simp only [index, none_]
    cases ignoreNotFound <;> rfl
  · have here : state.schemas.getD before.length (.empty path) = schema := by
      rw [is, getD_middle]
    simp only [index, some_, here]
    by_cases default : samePath path [defaultSchema] = true
    · rw [if_pos default, if_pos default]
      rfl
    · rw [if_neg default, if_neg default]
      split <;> rfl

/-- A schema that is found is changed where it is. -/
theorem run_schemaAt_bind {next change}
    (changes : ∀ before schema after, state.schemas = before ++ schema :: after →
      (next (before.length, schema)).run.run state
        = settled state ((change schema).map fun (changed, schema) =>
          (changed, { state with schemas := before ++ schema :: after })))
    : (schemaAt path >>= next).run.run state = settled state (state.schemaMut path change) := by
  unfold schemaMut
  have start : (schemaAt path >>= next).run.run state
      = ((match state.position path with
          | some i => return (i, state.schemas.getD i (.empty path))
          | none => throw (notFound s!"Schema '{joined path}' not found")
         ) >>= next).run.run state := rfl
  rw [start, position]
  rcases splitFirst_cases (fun schema => samePath schema.path path) state.schemas with
    ⟨index, _, split⟩ | ⟨before, schema, after, is, index, _, split⟩
  · simp only [index, split]
    rfl
  · have here : state.schemas.getD before.length (.empty path) = schema := by
      rw [is, getD_middle]
    simp only [index, split, here]
    refine (changes before schema after is).trans ?_
    cases change schema <;> rfl

/-- Changing the list of one kind in a schema. -/
theorem run_putInPlace {before after schema}
    (is : state.schemas = before ++ schema :: after) (kind name) (nameOf : α → String)
    (onConflict item items)
    (setItems : StoredSchema → List α → StoredSchema) (kept : setItems schema items = schema)
    : (putInPlace kind name nameOf onConflict item items fun items =>
        setSchema before.length (setItems schema items)).run.run state
      = settled state ((putNamed kind name nameOf onConflict item items).map
          fun (changed, items) => (changed, { state with
            schemas := before ++ setItems schema items :: after })) := by
  have sets items : state.schemas.set before.length (setItems schema items)
      = before ++ setItems schema items :: after := by
    rw [is, set_middle]
  unfold putInPlace putNamed
  rcases splitFirst_cases (fun other => same (nameOf other) name) items with
    ⟨index, _, split⟩ | ⟨earlier, other, later, list, index, _, split⟩
  · simp only [index, split]
    exact congrArg (Prod.mk _) (congrArg (mk _) (sets _))
  · simp only [index, split]
    cases onConflict with
    | ignore =>
      refine congrArg (Prod.mk _) (congrArg (mk _) ?_)
      rw [kept, is]
    | replace =>
      refine congrArg (Prod.mk _) (congrArg (mk _) ?_)
      rw [sets, list, set_middle]
    | error => rfl

theorem run_createTableInPlace (name columns onConflict)
    : (createTableInPlace path name columns onConflict).run.run state
      = settled state (state.createTable path name columns onConflict) := by
  refine run_schemaAt_bind state path fun before schema after is => ?_
  by_cases taken : (schema.view name).isSome = true
  · simp only [taken]
    rfl
  · simp only [taken]
    refine (run_putInPlace state is "Table" name StoredTable.name onConflict ⟨name, columns⟩
      schema.tables (fun schema tables => { schema with tables }) rfl).trans ?_
    cases putNamed "Table" name StoredTable.name onConflict ⟨name, columns⟩ schema.tables <;> rfl

theorem run_createViewInPlace (view onConflict)
    : (createViewInPlace path view onConflict).run.run state
      = settled state (state.createView path view onConflict) := by
  refine run_schemaAt_bind state path fun before schema after is => ?_
  by_cases taken : (schema.table view.name).isSome = true
  · simp only [taken]
    rfl
  · simp only [taken]
    refine (run_putInPlace state is "View" view.name StoredView.name onConflict view
      schema.views (fun schema views => { schema with views }) rfl).trans ?_
    cases putNamed "View" view.name StoredView.name onConflict view schema.views <;> rfl

theorem run_setViewCommentInPlace (name column comment ignoreNotFound)
    : (setViewCommentInPlace path name column comment ignoreNotFound).run.run state
      = settled state (state.setViewComment path name column comment ignoreNotFound) := by
  refine run_schemaAt_bind state path fun before schema after is => ?_
  rcases splitFirst_cases (fun view => same (StoredView.name view) name) schema.views with
    ⟨index, _, split⟩ | ⟨earlier, view, later, views, index, _, split⟩
  · simp only [index, split]
    cases ignoreNotFound with
    | true => exact congrArg (Prod.mk _) (congrArg (mk _) is)
    | false => rfl
  · simp only [index, split]
    refine congrArg (Prod.mk _) (congrArg (mk _) ?_)
    rw [is, set_middle, views, modify_middle]

theorem run_dropNamedInPlace (name ignoreNotFound kind)
    (list : StoredSchema → List α) (setList nameOf)
    : (dropNamedInPlace path name ignoreNotFound kind list setList nameOf).run.run state
      = settled state (state.dropNamed path name ignoreNotFound kind list setList nameOf) := by
  unfold dropNamed dropNamedInPlace position
  rw [run_get_bind]
  rcases splitFirst_cases (fun schema => samePath schema.path path) state.schemas with
    ⟨index, _, split⟩ | ⟨before, schema, after, is, index, _, split⟩
  · simp only [index, split]
    cases ignoreNotFound <;> rfl
  · have here : state.schemas.getD before.length (.empty path) = schema := by
      rw [is, getD_middle]
    simp only [index, split, here]
    rcases splitFirst_cases (fun item => same (nameOf item) name) (list schema) with
      ⟨index, _, split⟩ | ⟨earlier, item, later, items, index, _, split⟩
    · simp only [index, split]
      cases ignoreNotFound <;> rfl
    · simp only [index, split]
      refine congrArg (Prod.mk _) (congrArg (mk _) ?_)
      rw [is, set_middle, items, eraseIdx_append_of_length_le (Nat.le_refl _), Nat.sub_self]
      rfl

/-- Applying an event in place leaves the state alone unless it is applied. -/
theorem run_applyInPlace (event)
    : (applyInPlace event).run.run state = settled state (state.apply event) := by
  cases event with
  | attached => rfl
  | schemaCreate path comment tags onConflict =>
    exact run_createSchemaInPlace state path comment tags onConflict
  | schemaDrop path ignoreNotFound cascade =>
    exact run_dropSchemaInPlace state path ignoreNotFound cascade
  | tableCreate path name columns _ _ _ _ onConflict =>
    exact run_createTableInPlace state path name columns onConflict
  | tableDrop path name ignoreNotFound =>
    exact run_dropNamedInPlace state path name ignoreNotFound "Table" StoredSchema.tables
      (fun schema tables => { schema with tables }) StoredTable.name
  | viewCreate path name definition aliases comment tags columnComments onConflict =>
    exact run_createViewInPlace state path
      ⟨name, definition, aliases, comment, tags, columnComments⟩ onConflict
  | viewCommentSet path name column comment ignoreNotFound =>
    exact run_setViewCommentInPlace state path name column comment ignoreNotFound
  | viewDrop path name ignoreNotFound =>
    exact run_dropNamedInPlace state path name ignoreNotFound "View" StoredSchema.views
      (fun schema views => { schema with views }) StoredView.name

end

end Vgi.Stored
