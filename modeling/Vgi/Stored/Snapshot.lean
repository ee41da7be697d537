import Vgi.Catalog.Regroup
import Vgi.Stored.Columns
import Vgi.Stored.Sessions

/-! The `catalog_contents` answer of a stored catalog. Every state that a session reaches can be
listed; the client reads the answer if and only if the names of the state pass the rules of the
two readers, which know upper and lower case.
-/

namespace Vgi.Stored

open Lib Catalog State List

/-- The records of a stored catalog, which has no functions, macros or indexes. -/
def storedRecords : Records where
  Schema := SchemaInfo
  Table := TableInfo
  View := ViewInfo
  Function := Empty
  Macro := Empty
  Index := Empty
  path := SchemaInfo.path
  tablePath := TableInfo.schemaPath
  viewPath := ViewInfo.schemaPath
  functionPath := nofun
  functionType := nofun
  macroPath := nofun
  macroType := nofun
  indexPath := nofun

section

variable (formats : Formats)

def State.tableItems (state : State) (path : SchemaPath) : Result (List TableInfo) :=
  match state.schema path with
  | some schema => schema.tables.mapM (·.info formats schema.path)
  | none => .ok []

def State.viewItems (state : State) (path : SchemaPath) : List ViewInfo :=
  match state.schema path with
  | some schema => schema.views.map (·.info schema.path)
  | none => []

def State.entry (state : State) (schema : StoredSchema)
    : Result (SchemaContents storedRecords) := do
  let tables ← state.tableItems formats schema.path
  return {
    path := schema.path
    schema := schema.info
    tables := tables
    views := state.viewItems schema.path
    scalarFunctions := []
    aggregateFunctions := []
    tableFunctions := []
    scalarMacros := []
    tableMacros := []
    indexes := [] }

def State.snapshot (state : State) : Result (List (SchemaContents storedRecords)) :=
  state.schemas.mapM (state.entry formats)

/-- What a `CatalogContentsProvider` sees of a call. -/
structure CatalogContentsRequest where
  ifNoneMatch : Option String
  catalogVersion : Int
  generation : Nat
  build : Result (List (SchemaContents storedRecords))

def CatalogContentsRequest.defaultContents (request : CatalogContentsRequest)
    : Result (CatalogContentsResult storedRecords) := do
  return .full (← request.build) none

/-- `StoredCatalog::contents`, from the loaded state on. -/
def contents (debug : Path → String) (digest : CatalogContentsResponse storedRecords → String)
    (provider : Option (CatalogContentsRequest → Result (CatalogContentsResult storedRecords)))
    (etagMode : CatalogContentsEtag) (catalog : StoredCatalog) (state : State)
    (ifNoneMatch : Option String) : Result (CatalogContentsResponse storedRecords) := do
  let version := reportedVersion catalog state
  let request : CatalogContentsRequest :=
    ⟨ifNoneMatch, version, state.version.toNat, state.snapshot formats⟩
  let result ← match provider with
    | some provider => provider request
    | none => request.defaultContents
  finish debug digest result ifNoneMatch version etagMode

end

def State.columns (state : State) : List Bytes :=
  state.schemas.flatMap fun schema => schema.tables.map (·.columns)

def Event.columns : Event → List Bytes
  | .tableCreate _ _ columns _ _ _ _ _ => [columns]
  | _ => []

variable {state after : State} {changes : Bool}

theorem mem_columns {bytes}
    : bytes ∈ state.columns
      ↔ ∃ schema ∈ state.schemas, ∃ table ∈ schema.tables, table.columns = bytes := by
  simp [columns]

variable {path : SchemaPath} {onConflict : OnConflict} {kind name : String} {schema : StoredSchema}
  {entries : List (SchemaContents storedRecords)}

/-- A schema in another's place brings the columns that its new tables have. -/
theorem columns_replace {brings : List Bytes} {before rest schema next}
    (is : state.schemas = before ++ schema :: rest)
    (tables : ∀ table ∈ next.tables, table ∈ schema.tables ∨ table.columns ∈ brings)
    : ∀ bytes ∈ columns { state with schemas := before ++ next :: rest },
      bytes ∈ state.columns ∨ bytes ∈ brings := by
  intro bytes member
  simp only [columns, is, flatMap_append, flatMap_cons, mem_append, mem_map] at member ⊢
  rcases member with left | ⟨table, has, rfl⟩ | right
  · exact .inl (.inl left)
  · exact (tables table has).imp_left fun old => .inr (.inl ⟨table, old, rfl⟩)
  · exact .inl (.inr (.inr right))

theorem columns_createSchema {comment tags}
    (applied : state.createSchema path comment tags onConflict = .ok (changes, after))
    : ∀ bytes ∈ after.columns, bytes ∈ state.columns := by
  unfold createSchema at applied
  repeat' split at applied
  all_goals cases applied
  · exact fun _ => id
  · next split_ _ =>
      obtain ⟨is, _⟩ := splitFirst_eq_some split_
      exact fun bytes member =>
        (columns_replace is (by simp [StoredSchema.empty]) bytes member).resolve_right not_mem_nil
  · simp [columns, StoredSchema.empty]

theorem columns_dropSchema {ignoreNotFound cascade}
    (applied : state.dropSchema path ignoreNotFound cascade = .ok (changes, after))
    : ∀ bytes ∈ after.columns, bytes ∈ state.columns := by
  unfold dropSchema at applied
  repeat' split at applied
  all_goals cases applied
  · exact fun _ => id
  · intro bytes
    simp only [mem_columns]
    rintro ⟨schema, kept, rest⟩
    exact ⟨schema, (mem_filter.mp kept).1, rest⟩

theorem columns_schemaMut {brings : List Bytes}
    {change}
    (tables : ∀ {schema result next}, change schema = .ok (result, next) →
      ∀ table ∈ next.tables, table ∈ schema.tables ∨ table.columns ∈ brings)
    (applied : state.schemaMut path change = .ok (changes, after))
    : ∀ bytes ∈ after.columns, bytes ∈ state.columns ∨ bytes ∈ brings := by
  unfold schemaMut at applied
  split at applied
  · next before schema rest split_ =>
      obtain ⟨is, _⟩ := splitFirst_eq_some split_
      obtain ⟨⟨result, next⟩, done, returned⟩ := bind_eq_ok.mp applied
      cases returned
      exact columns_replace is (tables done)
  · cases applied

theorem mem_putNamed {α : Type} {nameOf : α → String} {item items next}
    (put : putNamed kind name nameOf onConflict item items = .ok (changes, next))
    : ∀ other ∈ next, other ∈ items ∨ other = item := by
  unfold putNamed at put
  split at put
  · next split_ =>
      obtain ⟨is, _⟩ := splitFirst_eq_some split_
      cases onConflict with
      | ignore =>
        cases put
        exact fun _ => .inl
      | replace =>
        cases put
        subst is
        intro other member
        simp only [mem_append, mem_cons] at member ⊢
        tauto
      | error => cases put
  · cases put
    intro other member
    simpa using member

theorem columns_dropNamed {α : Type} {ignoreNotFound} {list : StoredSchema → List α}
    {setList nameOf}
    (tables : ∀ schema items, items.Sublist (list schema) →
      ∀ table ∈ (setList schema items).tables, table ∈ schema.tables)
    (applied : state.dropNamed path name ignoreNotFound kind list setList nameOf
      = .ok (changes, after))
    : ∀ bytes ∈ after.columns, bytes ∈ state.columns := by
  unfold dropNamed at applied
  simp only at applied
  split at applied
  · split at applied <;> cases applied
    exact fun _ => id
  · next before schema rest split_ =>
      obtain ⟨is, _⟩ := splitFirst_eq_some split_
      split at applied
      · next earlier gone later found =>
          cases applied
          have kept : (earlier ++ later).Sublist (list schema) := by
            rw [(splitFirst_eq_some found).1]
            exact (sublist_cons_self _ _).append_left _
          intro bytes member
          exact (columns_replace is (fun table has => .inl (tables schema _ kept table has)) bytes
            member).resolve_right not_mem_nil
      · split at applied <;> cases applied
        exact fun _ => id

/-- Events bring no columns but their own. -/
theorem columns_apply {event} (applied : state.apply event = .ok (changes, after))
    : ∀ bytes ∈ after.columns, bytes ∈ state.columns ∨ bytes ∈ event.columns := by
  cases event with
  | attached =>
    cases applied
    exact fun _ => .inl
  | schemaCreate => exact fun bytes member => .inl (columns_createSchema applied bytes member)
  | schemaDrop => exact fun bytes member => .inl (columns_dropSchema applied bytes member)
  | tableCreate path name columns _ _ _ _ onConflict =>
    refine columns_schemaMut (fun {schema _ _} done table member => ?_) applied
    split at done
    · cases done
    · obtain ⟨⟨_, tables⟩, put, same⟩ := bind_eq_ok.mp done
      cases same
      rcases mem_putNamed put table member with old | rfl
      · exact .inl old
      · exact .inr (mem_singleton.mpr rfl)
  | tableDrop =>
    simp only [apply] at applied
    refine fun bytes member => .inl (columns_dropNamed ?_ applied bytes member)
    exact fun _ _ kept table member => kept.subset member
  | viewCreate =>
    refine columns_schemaMut (fun {schema _ _} done table member => ?_) applied
    split at done
    · cases done
    · obtain ⟨⟨_, views⟩, _, same⟩ := bind_eq_ok.mp done
      cases same
      exact .inl member
  | viewCommentSet =>
    refine columns_schemaMut (fun {schema _ _} done table member => ?_) applied
    repeat' split at done
    all_goals
      cases done
    all_goals exact .inl member
  | viewDrop =>
    refine fun bytes member => .inl (columns_dropNamed ?_ applied bytes member)
    exact fun _ _ _ table member => member

variable {formats : Formats}

/-- Every table can be listed. -/
def State.Served (formats : Formats) (state : State) : Prop :=
  ∀ bytes ∈ state.columns, ∃ owner, validateColumns formats bytes owner = .ok ()

/-- An event that a call may submit: `catalog_table_create` checks the columns first. -/
def Event.Accepted (formats : Formats) : Event → Prop
  | .tableCreate path _ columns _ _ _ _ _ => validateColumns formats columns path = .ok ()
  | _ => True

instance decidableAccepted (formats : Formats) : (event : Event) →
    Decidable (event.Accepted formats)
  | .tableCreate .. => inferInstanceAs (Decidable (_ = _))
  | .attached | .schemaCreate .. | .schemaDrop .. | .tableDrop .. | .viewCreate ..
  | .viewCommentSet .. | .viewDrop .. => isTrue trivial

theorem State.Served.replay {event} (served : state.Served formats)
    (accepted : event.Accepted formats) : (state.replay event).Served formats := by
  unfold State.replay
  split
  · next after applied =>
      intro bytes member
      rcases columns_apply applied bytes member with old | new
      · exact served bytes old
      · cases event with
        | tableCreate path =>
          cases mem_singleton.mp new
          exact ⟨path, accepted⟩
        | _ => exact (not_mem_nil new).elim
  · exact served

section

variable {Batch Info Contents : Type} {sur : Surroundings Batch Info Contents}
  {catalog : StoredCatalog}

/-- The calls of a session: an event that is submitted was accepted. -/
def SessionAction.Accepted (formats : Formats) : SessionAction → Prop
  | .mutate event => event.Accepted formats
  | _ => True

instance decidableActionAccepted (formats : Formats) : (action : SessionAction) →
    Decidable (action.Accepted formats)
  | .mutate event => inferInstanceAs (Decidable (event.Accepted formats))
  | .read | .attach | .detach | .step _ => isTrue trivial

def CallStage.Accepted (formats : Formats) : CallStage → Prop
  | .load (some event) => event.Accepted formats
  | .append event _ => event.Accepted formats
  | _ => True

/-- The log holds accepted events, and so does every call that is under way. -/
structure SessionState.Accepted (sur : Surroundings Batch Info Contents) (formats : Formats)
    (state : SessionState) : Prop where
  log : ∀ bytes ∈ state.log, ∃ event, sur.decodeEvent bytes = .ok event ∧ event.Accepted formats
  calls : ∀ stage ∈ state.calls, stage.Accepted formats
  loads : ∀ loaded ∈ state.loads, loaded.Served formats

theorem served_new : new.Served formats := by
  intro bytes member
  simp [new, columns, StoredSchema.empty] at member

/-- A log of accepted events leads to a state whose columns can be served. -/
theorem served_of_loadLog {log loaded}
    (accepted : ∀ bytes ∈ log, ∃ event, sur.decodeEvent bytes = .ok event ∧ event.Accepted formats)
    (loads : loadLog sur catalog log = .ok loaded) : loaded.Served formats := by
  have replays {start : State} (rest : List Bytes)
      (accepted : ∀ bytes ∈ rest, ∃ event, sur.decodeEvent bytes = .ok event
        ∧ event.Accepted formats)
      (folds : (rest.map fun bytes => (sur.decodeEvent bytes).mapError fun e =>
          runtimeError s!"{catalog.name}: corrupt DDL log: {e}").foldlM
          (fun state event => return state.replay (← event)) start = (.ok loaded : Result State))
      (served : start.Served formats) : loaded.Served formats := by
    induction rest generalizing start with
    | nil =>
      cases folds
      exact served
    | cons bytes rest ih =>
      obtain ⟨event, decoded, good⟩ := accepted bytes mem_cons_self
      rw [map_cons, foldlM_cons, decoded] at folds
      exact ih (fun bytes member => accepted bytes (mem_cons_of_mem _ member)) folds
        (served.replay good)
  cases log with
  | nil => cases loads
  | cons first rest =>
    obtain ⟨others, is, folds⟩ := replayLog_eq_ok loads
    cases (cons.inj is).2
    exact replays rest (fun bytes member => accepted bytes (mem_cons_of_mem _ member))
      folds served_new

theorem SessionState.Accepted.operate {state after : SessionState} {stage next}
    (roundTrip : ∀ event bytes, sur.encodeEvent event = .ok bytes →
      sur.decodeEvent bytes = .ok event)
    (accepted : state.Accepted sur formats) (good : stage.Accepted formats)
    (operates : state.operate sur catalog stage = some (after, next))
    : after.Accepted sur formats ∧ after.calls = state.calls ∧ next.Accepted formats := by
  cases stage with
  | load mutation =>
    simp only [SessionState.operate] at operates
    split at operates
    · cases operates
      exact ⟨accepted, rfl, trivial⟩
    · next loaded loads =>
        have grown : SessionState.Accepted sur formats
            { state with loads := state.loads ++ [loaded] } :=
          ⟨accepted.log, accepted.calls, forall_mem_append.mpr
            ⟨accepted.loads, forall_mem_singleton.mpr (served_of_loadLog accepted.log loads)⟩⟩
        cases mutation with
        | none =>
          cases operates
          exact ⟨grown, rfl, trivial⟩
        | some event =>
          simp only at operates
          split at operates
          all_goals cases operates
          · exact ⟨grown, rfl, good⟩
          · exact ⟨grown, rfl, trivial⟩
          · exact ⟨grown, rfl, trivial⟩
  | append event attaching =>
    simp only [SessionState.operate] at operates
    split at operates
    · cases operates
      exact ⟨accepted, rfl, trivial⟩
    · next bytes encoded =>
        cases operates
        refine ⟨⟨forall_mem_append.mpr ⟨accepted.log, forall_mem_singleton.mpr ?_⟩,
          accepted.calls, accepted.loads⟩, rfl, ?_⟩
        · exact ⟨event, roundTrip event bytes encoded, good⟩
        · split <;> trivial
  | clear attaching =>
    cases operates
    refine ⟨⟨forall_mem_nil _, accepted.calls, forall_mem_nil _⟩, rfl, ?_⟩
    split <;> trivial
  | finished => cases operates

theorem accepted_of_reaches {state} (roundTrip : ∀ event bytes, sur.encodeEvent event = .ok bytes →
      sur.decodeEvent bytes = .ok event) (reached : (sessionMachine sur catalog).Reaches
      (fun _ action => action.Accepted formats) state)
    : state.Accepted sur formats := by
  have grow {before : SessionState} {stage : CallStage} (accepted : before.Accepted sur formats)
      (good : stage.Accepted formats)
      : SessionState.Accepted sur formats { before with calls := before.calls ++ [stage] } :=
    ⟨accepted.log, forall_mem_append.mpr ⟨accepted.calls, forall_mem_singleton.mpr good⟩,
      accepted.loads⟩
  refine reached.invariant (SessionState.Accepted sur formats) ?_ ?_
  · rintro _ rfl
    exact ⟨nofun, nofun, nofun⟩
  · intro before after action accepted allowed steps
    cases action with
    | step index =>
      obtain ⟨stage, at_, steps⟩ := Option.bind_eq_some_iff.mp steps
      obtain ⟨⟨next, stage'⟩, operates, rfl⟩ := Option.map_eq_some_iff.mp steps
      obtain ⟨now, same, good⟩ := accepted.operate roundTrip
        (accepted.calls stage (mem_of_getElem? at_)) operates
      refine ⟨now.log, fun other member => ?_, now.loads⟩
      rcases mem_or_eq_of_mem_set member with old | rfl
      · exact now.calls other old
      · exact good
    | mutate event =>
      cases steps
      exact grow accepted allowed
    | _ =>
      cases steps
      exact grow accepted trivial

end

/-- The rules of the two readers: no name is empty, and a parent is there under the very path. -/
def State.Exact (state : State) : Prop :=
  (∀ schema ∈ state.schemas, ∀ part ∈ schema.path, part ≠ "")
  ∧ ∀ schema ∈ state.schemas, 1 < schema.path.length →
    ∃ parent ∈ state.schemas, parent.path = schema.path.dropLast

instance decidableExact (state : State) : Decidable state.Exact :=
  inferInstanceAs (Decidable (_ ∧ _))

variable (formed : state.WellFormed)

include formed

/-- A schema is found at its own path. -/
theorem State.WellFormed.schema_eq (member : schema ∈ state.schemas)
    : state.schema schema.path = some schema := by
  cases is : state.schema schema.path with
  | none =>
    have := find?_eq_none.mp is schema member
    exact (this (samePath_iff.mpr rfl)).elim
  | some found =>
    have here := mem_of_find?_eq_some is
    have same : samePath found.path schema.path = true := by simpa using find?_some is
    exact congrArg some (inj_on_of_nodup_map formed.distinct here member (samePath_iff.mp same))

/-- The entry lists the schema: its tables and views, in their order, under its path. -/
structure Lists (schema : StoredSchema) (entry : SchemaContents storedRecords) : Prop where
  path : entry.path = schema.path
  info : entry.schema = schema.info
  tables : List.Forall₂ (fun table info => TableInfo.name info = StoredTable.name table
    ∧ TableInfo.schemaPath info = schema.path) schema.tables entry.tables
  views : entry.views = schema.views.map (·.info schema.path)
  functions : entry.scalarFunctions ++ entry.aggregateFunctions ++ entry.tableFunctions = []
  macros : entry.scalarMacros ++ entry.tableMacros = []
  indexes : entry.indexes = []

omit formed in
theorem Lists.grouped {entry} (lists : Lists schema entry)
    (named : ∀ part ∈ schema.path, part ≠ "") : Grouped entry := by
  constructor
  case named => exact lists.path ▸ named
  case tables =>
    intro info member
    obtain ⟨_, _, _, path⟩ := exists_of_forall₂ lists.tables member
    exact path.trans lists.path.symm
  case views =>
    intro info member
    rw [lists.views] at member
    obtain ⟨_, _, rfl⟩ := mem_map.mp member
    exact lists.path.symm
  all_goals exact nofun

theorem exists_entry (served : state.Served formats) (member : schema ∈ state.schemas)
    : ∃ entry, state.entry formats schema = .ok entry ∧ Lists schema entry := by
  have each : ∀ table ∈ schema.tables, ∃ info, table.info formats schema.path = .ok info
      ∧ info.name = table.name ∧ info.schemaPath = schema.path := by
    intro table inside
    obtain ⟨owner, accepted⟩ := served table.columns (mem_columns.mpr
      ⟨schema, member, table, inside, rfl⟩)
    obtain ⟨columns, listed⟩ := exists_info accepted table.name schema.path
    exact ⟨_, listed, rfl, rfl⟩
  obtain ⟨infos, all, tables⟩ := exists_mapM each
  have items : state.tableItems formats schema.path = .ok infos := by
    unfold tableItems
    rw [formed.schema_eq member]
    exact all
  have views : state.viewItems schema.path = schema.views.map (·.info schema.path) := by
    unfold viewItems
    rw [formed.schema_eq member]
  exact ⟨_, by unfold entry; rw [items]; rfl, rfl, rfl, tables, views, rfl, rfl, rfl⟩

/-- A reached state is listed, schema by schema. -/
theorem exists_snapshot (served : state.Served formats)
    : ∃ entries, state.snapshot formats = .ok entries ∧ List.Forall₂ Lists state.schemas entries :=
  exists_mapM fun _ member => exists_entry formed served member

omit formed in
theorem paths_of_lists {schemas} (lists : List.Forall₂ Lists schemas entries)
    : entries.map (·.path) = schemas.map (·.path) := by
  have same := forall₂_map_left_iff.mpr (forall₂_map_right_iff.mpr
    (lists.imp fun _ _ listed => listed.path.symm))
  rw [forall₂_eq_eq_eq] at same
  exact same.symm

omit formed in
theorem dropLast_ne_nil_iff {path : Path} : path.dropLast ≠ [] ↔ 1 < path.length := by
  rw [← length_pos_iff, length_dropLast]
  omega

/-- The paths of a snapshot are valid if and only if parents are there under the very path. -/
theorem validPaths_iff (lists : List.Forall₂ Lists state.schemas entries)
    : ValidPaths entries
      ↔ ∀ schema ∈ state.schemas, 1 < schema.path.length →
        ∃ parent ∈ state.schemas, parent.path = schema.path.dropLast := by
  have paths := paths_of_lists lists
  constructor
  · intro valid schema member nested
    have inside : schema.path ∈ entries.map (·.path) := paths ▸ mem_map_of_mem member
    obtain ⟨entry, listed, is⟩ := mem_map.mp inside
    have parent := valid.parents entry listed (by rwa [is, dropLast_ne_nil_iff])
    rw [is, paths] at parent
    exact mem_map.mp parent
  · intro exact'
    constructor
    case nonempty =>
      intro entry listed
      obtain ⟨schema, member, holds⟩ := exists_of_forall₂ lists listed
      exact holds.path ▸ formed.nonempty schema member
    case distinct =>
      rw [paths]
      refine List.Nodup.of_map folded ?_
      rw [map_map]
      exact formed.distinct
    case infos =>
      intro entry listed
      obtain ⟨schema, _, holds⟩ := exists_of_forall₂ lists listed
      rw [holds.info, holds.path]
      rfl
    case parents =>
      intro entry listed nested
      obtain ⟨schema, member, holds⟩ := exists_of_forall₂ lists listed
      rw [holds.path, dropLast_ne_nil_iff] at nested
      rw [paths, holds.path]
      exact mem_map.mpr (exact' schema member nested)

/-- The answer says that nothing changed, or the client reads the schemas from it. -/
def Readable {R : Records} (debug : Path → String) (answer : Result (CatalogContentsResponse R))
    (schemas : List (SchemaContents R)) : Prop :=
  ∃ response, answer = .ok response
    ∧ (response.notModified = true ∨ response.schemaContents debug = .ok (parentsFirst schemas))

/-- A state is listed, and read back by the client, exactly if every parent is spelled as its
children spell it and no name is empty.
-/
theorem readable_iff (served : state.Served formats) (debug digest etagMode catalog)
    : (∃ entries, state.snapshot formats = .ok entries
        ∧ List.Forall₂ Lists state.schemas entries
        ∧ ∀ ifNoneMatch, Readable debug
          (contents formats debug digest none etagMode catalog state ifNoneMatch) entries)
      ↔ state.Exact := by
  obtain ⟨entries, snapshot, lists⟩ := exists_snapshot formed served
  have answer (ifNoneMatch : Option String)
      : contents formats debug digest none etagMode catalog state ifNoneMatch
        = finish debug digest (.full entries none) ifNoneMatch (reportedVersion catalog state)
            etagMode := by
    simp only [contents, snapshot]
    rfl
  constructor
  · rintro ⟨others, again, _, readable⟩
    cases snapshot.symm.trans again
    -- A client that holds nothing gets the whole snapshot.
    obtain ⟨response, finished, reads⟩ := readable none
    rw [answer] at finished
    rcases finish_eq_ok finished with ⟨_, held, _⟩ | ⟨_, valid, etag, rfl⟩
    · cases held
    · have read := reads.resolve_left nofun
      have grouped := (schemaContents_iff valid _ _).mp read
      refine ⟨fun schema member => ?_, (validPaths_iff formed lists).mp valid⟩
      have inside : schema.path ∈ entries.map (·.path) :=
        paths_of_lists lists ▸ mem_map_of_mem member
      obtain ⟨entry, listed, is⟩ := mem_map.mp inside
      exact is ▸ (grouped entry listed).named
  · rintro ⟨named, parents⟩
    refine ⟨entries, snapshot, lists, fun ifNoneMatch => ?_⟩
    have valid := (validPaths_iff formed lists).mpr parents
    have finishes : ∃ response, finish debug digest (.full entries none) ifNoneMatch
        (reportedVersion catalog state) etagMode = .ok response :=
      exists_finish rfl valid ifNoneMatch (reportedVersion catalog state) etagMode
    obtain ⟨response, finished⟩ := finishes
    refine ⟨response, (answer ifNoneMatch).trans finished, ?_⟩
    rcases finish_eq_ok finished with ⟨_, _, rfl⟩ | ⟨_, _, etag, rfl⟩
    · exact .inl rfl
    · refine .inr ((schemaContents_iff valid _ _).mpr fun entry listed => ?_)
      obtain ⟨schema, member, holds⟩ := exists_of_forall₂ lists listed
      exact holds.grouped (named schema member)

omit formed

/-- The client reads what a provider gave if and only if every schema is grouped, and what a
session of a stored catalog holds if and only if its names pass the rules of the readers.
-/
theorem catalog_contents_readable_iff (debug : Path → String)
    : (∀ (R : Records) (digest : CatalogContentsResponse R → String)
        (result : CatalogContentsResult R) (ifNoneMatch : Option String) (catalogVersion : Int)
        (etagMode : CatalogContentsEtag) (response : CatalogContentsResponse R),
        finish debug digest result ifNoneMatch catalogVersion etagMode = .ok response →
        (response.notModified = true → ifNoneMatch = response.etag
          ∧ response.schemaContents debug = .ok [])
        ∧ (response.notModified = false →
          (response.schemaContents debug = .ok (parentsFirst result.schemas)
            ↔ ∀ entry ∈ result.schemas, Grouped entry)))
      ∧ (∀ (R : Records) (schemas : List (SchemaContents R)), (parentsFirst schemas).Perm schemas
        ∧ (parentsFirst schemas).Pairwise (fun a b => a.path.length ≤ b.path.length)
        ∧ ∀ depth, (parentsFirst schemas).filter (·.path.length = depth)
          = schemas.filter (·.path.length = depth))
      ∧ (∀ {Batch Info Contents : Type} (sur : Surroundings Batch Info Contents)
        (formats : Formats) (catalog : StoredCatalog)
        (digest : CatalogContentsResponse storedRecords → String)
        (etagMode : CatalogContentsEtag) (state : SessionState),
        (∀ event bytes, sur.encodeEvent event = .ok bytes → sur.decodeEvent bytes = .ok event) →
        (sessionMachine sur catalog).Reaches (fun _ action => action.Accepted formats) state →
        ∀ loaded ∈ state.loads, (∃ entries, loaded.snapshot formats = .ok entries
            ∧ List.Forall₂ Lists loaded.schemas entries
            ∧ ∀ ifNoneMatch, Readable debug
              (contents formats debug digest none etagMode catalog loaded ifNoneMatch) entries)
          ↔ loaded.Exact) := by
  refine ⟨?_, ?_, ?_⟩
  · intro R digest result ifNoneMatch catalogVersion etagMode response finished
    rcases finish_eq_ok finished with ⟨etag, held, rfl⟩ | ⟨_, valid, etag, rfl⟩
    · exact ⟨fun _ => ⟨held, rfl⟩, nofun⟩
    · exact ⟨nofun, fun _ => schemaContents_iff valid catalogVersion etag⟩
  · intro R schemas
    exact ⟨parentsFirst_perm schemas, sorted_parentsFirst schemas, filter_parentsFirst schemas⟩
  · intro Batch Info Contents sur formats catalog digest etagMode state roundTrip reached loaded
      member
    obtain ⟨first, _, _, loads⟩ := (sound_of_reaches reached).source loaded member
    have served := (accepted_of_reaches roundTrip reached).loads loaded member
    exact readable_iff (wellFormed_of_loadLog loads) served debug digest etagMode catalog

namespace SnapshotSample

open SessionSample

def view : Event := .viewCreate ["a", "b"] "v" "SELECT 1" [] none [] [] .error

def viewJson : Bytes :=
  utf8 ("\x7b\"ViewCreate\":\x7b\"path\":[\"a\",\"b\"],\"name\":\"v\","
    ++ "\"definition\":\"SELECT 1\",\"aliases\":[],\"comment\":null,\"tags\":[],"
    ++ "\"column_comments\":[],\"on_conflict\":\"Error\"\x7d\x7d")

/-- The events that occur, with their JSON. -/
def events : List (Event × Bytes) :=
  [(create ["a"], json ["a"]), (create ["a", "b"], json ["a", "b"]),
    (create ["A", "b"], json ["A", "b"]), (create [""], json [""]), (view, viewJson)]

def surroundings : Surroundings Unit Unit Unit := logging events

/-- No columns are read. -/
def noColumns : Formats where
  read := fun _ => .error (valueError "invalid column schema IPC")
  shallow := nofun
  tags := fun _ => .error "expected value"
  encoded := fun _ _ => .error (valueError "invalid expression base64")
  generatedColumn := fun _ _ _ _ => .ok ()
  generatedMetadata := fun _ _ => .error (valueError "invalid expression text")

def debug (path : Path) : String := "[" ++ ", ".intercalate (path.map quoted) ++ "]"

def scratch : StoredCatalog := ⟨"scratch", true⟩

/-- A session of one client, which submits the events one after the other and then reads. -/
def actions (events : List Event) : List SessionAction :=
  [.attach, .step 0, .step 0, .step 0]
    ++ (events.zipIdx 1).flatMap (fun (event, index) => [.mutate event, .step index, .step index])
    ++ [.read, .step (events.length + 1)]

/-- What the last call of the session loads. -/
def final (events : List Event) : Option State :=
  ((sessionMachine surroundings scratch).exec ⟨[], [], []⟩ (actions events)).bind (·.loads.getLast?)

/-- A nested schema with a view. -/
def nested : State :=
  ⟨4, [.empty ["main"], .empty ["a"],
    { StoredSchema.empty ["a", "b"] with views := [⟨"v", "SELECT 1", [], none, [], []⟩] }]⟩

theorem roundTrip (event bytes) (encodes : surroundings.encodeEvent event = .ok bytes)
    : surroundings.decodeEvent bytes = .ok event := by
  have inverse : ∀ entry ∈ texts events, surroundings.decodeEvent entry.2 = .ok entry.1 := by
    decide +kernel
  obtain ⟨before, after, is, _⟩ := lookup_eq_some_iff.mp (okOr_eq_ok.mp encodes)
  exact inverse (event, bytes) (is ▸ mem_append_right _ mem_cons_self)

end SnapshotSample

open SessionSample (create)

open SnapshotSample in
/-- A schema that a client created under another spelling of its parent makes every listing of the
session fail; one without a name makes an answer that no client reads.
-/
theorem stored_snapshot_unreadable
    : (∃ loaded, final [create ["a"], create ["A", "b"]] = some loaded
        ∧ contents noColumns debug (fun _ => "") none .none scratch loaded none
          = .error (valueError
            "catalog_contents returned schema path [\"A\", \"b\"] without its parent"))
      ∧ (∃ loaded, final [create [""]] = some loaded
        ∧ ∃ response, contents noColumns debug (fun _ => "") none .none scratch loaded none
            = .ok response
          ∧ response.schemaContents debug
            = .error (typeError "catalog contains empty or duplicate schema path")) := by
  constructor
  · refine ⟨⟨3, [.empty ["main"], .empty ["a"], .empty ["A", "b"]]⟩, by decide +kernel, ?_⟩
    rfl
  · refine ⟨⟨2, [.empty ["main"], .empty [""]]⟩, by decide +kernel, _, rfl, ?_⟩
    rfl

open SnapshotSample in
/-- A session that creates a nested schema and a view lists them as they are stored. -/
theorem catalog_contents_readable_iff_sample
    : ∃ state, (sessionMachine surroundings scratch).Reaches
        (fun _ action => action.Accepted noColumns) state
      ∧ nested ∈ state.loads
      ∧ ∃ entries, nested.snapshot noColumns = .ok entries
        ∧ List.Forall₂ Lists nested.schemas entries
        ∧ ∀ ifNoneMatch, Readable debug
          (contents noColumns debug (fun _ => "") none .none scratch nested ifNoneMatch)
          entries := by
  let events := [create ["a"], create ["a", "b"], view]
  have ends : ((sessionMachine surroundings scratch).exec ⟨[], [], []⟩ (actions events)).map
      (·.loads.getLast?) = some (some nested) := by
    decide +kernel
  have meets : (sessionMachine surroundings scratch).Meets
      (fun _ action => action.Accepted noColumns) ⟨[], [], []⟩ (actions events) := by
    decide +kernel
  obtain ⟨state, run, last⟩ := Option.map_eq_some_iff.mp ends
  have reached : (sessionMachine surroundings scratch).Reaches
      (fun _ action => action.Accepted noColumns) state :=
    (Machine.Reaches.start rfl).exec meets run
  have member := mem_of_getLast? last
  obtain ⟨_, _, stored⟩ := catalog_contents_readable_iff debug
  exact ⟨state, reached, member, (stored surroundings noColumns scratch (fun _ => "") .none state
    roundTrip reached nested member).mpr (by decide)⟩

end Vgi.Stored
