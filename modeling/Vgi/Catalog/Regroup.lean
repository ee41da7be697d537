import Vgi.Catalog.Contents

/-! What the client reads from a `catalog_contents` answer: the schemas the worker had, if and only
if every name is there and every row is filed under the schema and the kind that it names itself.
-/

namespace Vgi.Catalog

open Lib List SchemaContents

variable {R : Records} {debug : Path → String}

/-- Paths are there, distinct and those of the schemas' own records, and parents are there. -/
structure ValidPaths (schemas : List (SchemaContents R)) : Prop where
  nonempty : ∀ entry ∈ schemas, entry.path ≠ []
  distinct : (schemas.map (·.path)).Nodup
  infos : ∀ entry ∈ schemas, R.path entry.schema = entry.path
  parents : ∀ entry ∈ schemas, entry.path.dropLast ≠ [] → entry.path.dropLast ∈ schemas.map (·.path)

variable {schemas filledAll entries : List (SchemaContents R)} {seen : List Path}
  {entry schema filled : SchemaContents R} {row : R.Function} {response : CatalogContentsResponse R}
  {digest : CatalogContentsResponse R → String} {result : CatalogContentsResult R}

theorem validateEach_eq_ok {out}
    : validateEach debug schemas seen = .ok out
      ↔ out = seen ++ schemas.map (·.path)
        ∧ (∀ entry ∈ schemas, entry.path ≠ [] ∧ R.path entry.schema = entry.path
          ∧ entry.path ∉ seen)
        ∧ (schemas.map (·.path)).Nodup := by
  induction schemas generalizing seen with
  | nil => simp [validateEach, eq_comm]
  | cons entry rest ih =>
    unfold validateEach
    by_cases empty : entry.path = []
    · simp [empty]
    · by_cases known : entry.path ∈ seen
      · simp [empty, known]
      · by_cases same : R.path entry.schema = entry.path
        · simp only [empty, known, same, ne_eq, not_true_eq_false, if_false, ih, append_assoc,
            map_cons, mem_cons, forall_eq_or_imp, nodup_cons, mem_append, not_or]
          constructor
          · rintro ⟨is, others, distinct⟩
            refine ⟨is, ⟨⟨nofun, trivial, nofun⟩, fun other member => ?_⟩, fun again => ?_,
              distinct⟩
            · exact ⟨(others other member).1, (others other member).2.1,
                (others other member).2.2.1⟩
            · obtain ⟨other, member, is⟩ := mem_map.mp again
              exact (others other member).2.2.2.1 is
          · rintro ⟨is, ⟨_, others⟩, new, distinct⟩
            refine ⟨is, fun other member => ?_, distinct⟩
            obtain ⟨nonempty, info, unseen⟩ := others other member
            exact ⟨nonempty, info, unseen, fun is => new (is ▸ mem_map_of_mem member), not_mem_nil⟩
        · simp [empty, known, same]

theorem validateParents_eq_ok : validateParents debug seen schemas = .ok ()
      ↔ ∀ entry ∈ schemas, entry.path.dropLast ≠ [] → entry.path.dropLast ∈ seen := by
  induction schemas with
  | nil => simp [validateParents]
  | cons entry rest ih =>
    simp only [validateParents, mem_cons, forall_eq_or_imp, ← ih]
    by_cases orphan : entry.path.dropLast ≠ [] ∧ entry.path.dropLast ∉ seen
    · rw [if_pos orphan]
      constructor
      · exact nofun
      · exact fun both => (orphan.2 (both.1 orphan.1)).elim
    · rw [if_neg orphan]
      exact ⟨fun rest => ⟨fun nested => by_contra fun out => orphan ⟨nested, out⟩, rest⟩,
        fun both => both.2⟩

theorem validatePaths_eq_ok : validatePaths debug schemas = .ok () ↔ ValidPaths schemas := by
  unfold validatePaths
  simp only [bind_eq_ok, validateEach_eq_ok, validateParents_eq_ok]
  constructor
  · rintro ⟨_, ⟨rfl, each, distinct⟩, parents⟩
    exact ⟨fun entry member => (each entry member).1, distinct,
      fun entry member => (each entry member).2.1, parents⟩
  · rintro ⟨nonempty, distinct, infos, parents⟩
    exact ⟨_, ⟨rfl, fun entry member => ⟨nonempty entry member, infos entry member,
      not_mem_nil⟩, distinct⟩, parents⟩

theorem parentsFirst_perm (schemas : List (SchemaContents R))
    : (parentsFirst schemas).Perm schemas :=
  perm_insertionSort _ _

theorem mem_parentsFirst : entry ∈ parentsFirst schemas ↔ entry ∈ schemas :=
  (parentsFirst_perm schemas).mem_iff

instance depthTotal
    : Std.Total fun a b : SchemaContents R => a.path.length ≤ b.path.length :=
  ⟨fun a b => Nat.le_total a.path.length b.path.length⟩

instance depthTrans
    : IsTrans (SchemaContents R) fun a b => a.path.length ≤ b.path.length :=
  ⟨fun _ _ _ => Nat.le_trans⟩

theorem sorted_parentsFirst (schemas : List (SchemaContents R))
    : (parentsFirst schemas).Pairwise fun a b => a.path.length ≤ b.path.length :=
  pairwise_insertionSort _ schemas

/-- Schemas of one depth keep their order. -/
theorem filter_parentsFirst (schemas : List (SchemaContents R)) (depth)
    : (parentsFirst schemas).filter (·.path.length = depth)
      = schemas.filter (·.path.length = depth) := by
  have level : (schemas.filter (·.path.length = depth)).Pairwise
      fun a b => a.path.length ≤ b.path.length := by
    refine pairwise_of_forall_mem_list fun a inA b inB => ?_
    have depthA := of_decide_eq_true (mem_filter.mp inA).2
    have depthB := of_decide_eq_true (mem_filter.mp inB).2
    exact Nat.le_of_eq (depthA.trans depthB.symm)
  have within := (sublist_insertionSort level filter_sublist).filter
    (fun entry => decide (entry.path.length = depth))
  simp only [filter_filter, Bool.and_self] at within
  refine (within.eq_of_length ?_).symm
  exact ((parentsFirst_perm schemas).filter _).length_eq.symm

theorem ValidPaths.parentsFirst (valid : ValidPaths schemas)
    : ValidPaths (parentsFirst schemas) where
  nonempty entry member := valid.nonempty entry (mem_parentsFirst.mp member)
  distinct := ((parentsFirst_perm schemas).map _).nodup_iff.mpr valid.distinct
  infos entry member := valid.infos entry (mem_parentsFirst.mp member)
  parents entry member nested :=
    ((parentsFirst_perm schemas).map _).mem_iff.mpr
      (valid.parents entry (mem_parentsFirst.mp member) nested)

def scalarTypes : List String := ["SCALAR", "scalar", "SCALAR_FUNCTION"]

def aggregateTypes : List String := ["AGGREGATE", "aggregate", "AGGREGATE_FUNCTION"]

def tableTypes : List String :=
  ["TABLE", "TABLE_BUFFERING", "table", "table_buffering", "table_in_out", "TABLE_FUNCTION"]

def scalarMacroTypes : List String := ["SCALAR", "scalar", "SCALAR_MACRO"]

def tableMacroTypes : List String := ["TABLE", "table", "TABLE_MACRO"]

/-- No name in the path is empty, and every row names the schema and the kind it is filed under. -/
structure Grouped (entry : SchemaContents R) : Prop where
  named : ∀ part ∈ entry.path, part ≠ ""
  tables : ∀ row ∈ entry.tables, R.tablePath row = entry.path
  views : ∀ row ∈ entry.views, R.viewPath row = entry.path
  scalars : ∀ row ∈ entry.scalarFunctions,
    R.functionPath row = entry.path ∧ R.functionType row ∈ scalarTypes
  aggregates : ∀ row ∈ entry.aggregateFunctions,
    R.functionPath row = entry.path ∧ R.functionType row ∈ aggregateTypes
  tableFunctions : ∀ row ∈ entry.tableFunctions,
    R.functionPath row = entry.path ∧ R.functionType row ∈ tableTypes
  scalarMacros : ∀ row ∈ entry.scalarMacros,
    R.macroPath row = entry.path ∧ R.macroType row ∈ scalarMacroTypes
  tableMacros : ∀ row ∈ entry.tableMacros,
    R.macroPath row = entry.path ∧ R.macroType row ∈ tableMacroTypes
  indexes : ∀ row ∈ entry.indexes, R.indexPath row = entry.path

variable {path : Path}

/-- The kinds of functions, by the list that a row goes to. -/
theorem pushFunction_eq_ok : pushFunction row schema = .ok filled
      ↔ (R.functionType row ∈ scalarTypes
          ∧ filled = { schema with scalarFunctions := schema.scalarFunctions ++ [row] })
        ∨ (R.functionType row ∈ aggregateTypes
          ∧ filled = { schema with aggregateFunctions := schema.aggregateFunctions ++ [row] })
        ∨ (R.functionType row ∈ tableTypes
          ∧ filled = { schema with tableFunctions := schema.tableFunctions ++ [row] }) := by
  unfold pushFunction
  split <;> simp_all [scalarTypes, aggregateTypes, tableTypes, eq_comm (a := filled)]

theorem pushMacro_eq_ok {row}
    : pushMacro row schema = .ok filled
      ↔ (R.macroType row ∈ scalarMacroTypes
          ∧ filled = { schema with scalarMacros := schema.scalarMacros ++ [row] })
        ∨ (R.macroType row ∈ tableMacroTypes
          ∧ filled = { schema with tableMacros := schema.tableMacros ++ [row] }) := by
  unfold pushMacro
  split <;> simp_all [scalarMacroTypes, tableMacroTypes, eq_comm (a := filled)]

theorem place_eq_ok {push} (placed : place debug schemas path push = .ok filledAll)
    : ∃ schema ∈ schemas, schema.path = path
      ∧ ∃ filled, push schema = .ok filled
        ∧ filledAll = schemas.map fun entry => if entry.path = path then filled else entry := by
  unfold place at placed
  split at placed
  · cases placed
  · next schema found =>
      obtain ⟨filled, pushed, same⟩ := bind_eq_ok.mp placed
      exact ⟨schema, mem_of_find?_eq_some found,
        by simpa using find?_some found, filled, pushed, (pure_eq_ok.mp same).symm⟩

variable {Row : Type}

/-- A step that keeps grouped what it adds a row to keeps the whole catalog grouped. -/
theorem grouped_placeAll {pathOf : Row → Path}
    {push}
    (keeps : ∀ {row schema filled}, push row schema = .ok filled → pathOf row = schema.path →
      Grouped schema → Grouped filled) {rows}
    (placed : placeAll debug pathOf push rows schemas = .ok filledAll)
    (grouped : ∀ entry ∈ schemas, Grouped entry)
    : ∀ entry ∈ filledAll, Grouped entry := by
  unfold placeAll at placed
  generalize decodeCollection rows = rows at placed
  induction rows generalizing schemas with
  | nil =>
    cases placed
    exact grouped
  | cons row rest ih =>
    obtain ⟨next, first, placed⟩ := bind_eq_ok.mp placed
    refine ih (fun entry member => ?_) placed
    obtain ⟨schema, inside, here, filled, pushed, rfl⟩ := place_eq_ok first
    obtain ⟨before, known, rfl⟩ := mem_map.mp member
    split
    · exact keeps pushed here.symm (grouped schema inside)
    · exact grouped before known

theorem grouped_openSchemas {infos opened}
    (run : openSchemas infos schemas = .ok opened) (grouped : ∀ entry ∈ schemas, Grouped entry)
    : ∀ entry ∈ opened, Grouped entry := by
  induction infos generalizing schemas with
  | nil =>
    cases run
    exact grouped
  | cons info rest ih =>
    unfold openSchemas at run
    simp only at run
    split at run
    · cases run
    · next accepted =>
        split at run
        · cases run
        · refine ih run (forall_mem_append.mpr ⟨grouped, forall_mem_singleton.mpr ?_⟩)
          refine ⟨fun part inside empty => accepted (.inr (.inl ?_)), nofun, nofun, nofun,
            nofun, nofun, nofun, nofun, nofun⟩
          exact any_eq_true.mpr ⟨part, inside, decide_eq_true empty⟩

theorem grouped_pushFunction (pushed : pushFunction row schema = .ok filled)
    (here : R.functionPath row = schema.path) (grouped : Grouped schema)
    : Grouped filled := by
  rcases pushFunction_eq_ok.mp pushed with ⟨kind, rfl⟩ | ⟨kind, rfl⟩ | ⟨kind, rfl⟩
  · exact { grouped with scalars := forall_mem_append.mpr ⟨grouped.scalars, by simp [*]⟩ }
  · exact { grouped with
      aggregates := forall_mem_append.mpr ⟨grouped.aggregates, by simp [*]⟩ }
  · exact { grouped with
      tableFunctions := forall_mem_append.mpr ⟨grouped.tableFunctions, by simp [*]⟩ }

theorem grouped_pushMacro {row} (pushed : pushMacro row schema = .ok filled)
    (here : R.macroPath row = schema.path) (grouped : Grouped schema)
    : Grouped filled := by
  rcases pushMacro_eq_ok.mp pushed with ⟨kind, rfl⟩ | ⟨kind, rfl⟩
  · exact { grouped with
      scalarMacros := forall_mem_append.mpr ⟨grouped.scalarMacros, by simp [*]⟩ }
  · exact { grouped with
      tableMacros := forall_mem_append.mpr ⟨grouped.tableMacros, by simp [*]⟩ }

/-- What the client reads is grouped. -/
theorem grouped_schemaContents (read : response.schemaContents debug = .ok schemas)
    : ∀ entry ∈ schemas, Grouped entry := by
  unfold CatalogContentsResponse.schemaContents at read
  split at read
  · split at read
    · cases read
    · cases read
      exact nofun
  · obtain ⟨opened, open', read⟩ := bind_eq_ok.mp read
    obtain ⟨withTables, tables, read⟩ := bind_eq_ok.mp read
    obtain ⟨withViews, views, read⟩ := bind_eq_ok.mp read
    obtain ⟨withFunctions, functions, read⟩ := bind_eq_ok.mp read
    obtain ⟨withMacros, macros, indexes⟩ := bind_eq_ok.mp read
    have bare := grouped_openSchemas open' (by simp)
    have tables := grouped_placeAll (fun {row _ _} pushed here grouped => by
      cases pushed
      exact { grouped with
        tables := forall_mem_append.mpr ⟨grouped.tables, by simp [here]⟩ }) tables bare
    have views := grouped_placeAll (fun {row _ _} pushed here grouped => by
      cases pushed
      exact { grouped with
        views := forall_mem_append.mpr ⟨grouped.views, by simp [here]⟩ }) views tables
    have functions := grouped_placeAll grouped_pushFunction functions views
    have macros := grouped_placeAll grouped_pushMacro macros functions
    exact grouped_placeAll (fun {row _ _} pushed here grouped => by
      cases pushed
      exact { grouped with
        indexes := forall_mem_append.mpr ⟨grouped.indexes, by simp [here]⟩ })
      indexes macros

@[simp] theorem decodeCollection_encodeCollection {α : Type} (values : List α)
    : decodeCollection (encodeCollection values) = values := by
  cases values <;> rfl

variable {before after : List (SchemaContents R)}

/-- With one schema at the path, that schema is the one that is filled. -/
theorem place_middle (apart : ∀ entry ∈ before ++ after, entry.path ≠ schema.path)
    (push)
    : place debug (before ++ schema :: after) schema.path push
      = (push schema).map fun filled => before ++ filled :: after := by
  have unchanged (filled : SchemaContents R) (part : List (SchemaContents R))
      (others : ∀ entry ∈ part, entry.path ≠ schema.path)
      : part.map (fun entry => if entry.path = schema.path then filled else entry) = part :=
    (map_congr_left fun entry member => if_neg (others entry member)).trans (map_id part)
  have found : (before ++ schema :: after).find? (·.path = schema.path) = some schema := by
    rw [find?_append, find?_eq_none.mpr fun entry member => ?_]
    · simp
    · simpa using apart entry (mem_append_left _ member)
  unfold place
  simp only [found]
  cases push schema with
  | error reason => rfl
  | ok filled =>
    simp only [ok_bind, map_append, map_cons]
    rw [unchanged filled before fun entry member => apart entry (mem_append_left _ member),
      unchanged filled after fun entry member => apart entry (mem_append_right _ member)]
    rfl

section

variable {pathOf : Row → Path} {push : Row → SchemaContents R → Result (SchemaContents R)}
  (samePath : ∀ {row schema filled}, push row schema = .ok filled → filled.path = schema.path)

include samePath

/-- The rows of one schema fill that schema. -/
theorem foldlM_place_rows {schema}
    (apart : ∀ entry ∈ before ++ after, entry.path ≠ schema.path) {rows : List Row}
    (here : ∀ row ∈ rows, pathOf row = schema.path)
    : rows.foldlM (fun schemas row => place debug schemas (pathOf row) (push row))
        (before ++ schema :: after)
      = (rows.foldlM (fun schema row => push row schema) schema).map
          fun filled => before ++ filled :: after := by
  induction rows generalizing schema with
  | nil => rfl
  | cons row rest ih =>
    rw [foldlM_cons, foldlM_cons, here row mem_cons_self, place_middle apart]
    cases pushed : push row schema with
    | error reason => rfl
    | ok filled =>
      have same := samePath pushed
      exact ih (same ▸ apart) fun row member => same ▸ here row (mem_cons_of_mem _ member)

/-- Rows that follow the schemas' order fill schema after schema. -/
theorem placeAll_fills {entries : List (SchemaContents R)}
    (distinct : (entries.map (·.path)).Nodup) {rows}
    (here : ∀ entry ∈ entries, ∀ row ∈ rows entry, pathOf row = entry.path)
    {lo hi} (path : ∀ entry, (lo entry).path = entry.path)
    (fills : ∀ entry ∈ entries,
      (rows entry).foldlM (fun schema row => push row schema) (lo entry) = .ok (hi entry))
    : placeAll debug pathOf push (encodeCollection (entries.flatMap rows)) (entries.map lo)
      = .ok (entries.map hi) := by
  have keptPath {schema filled : SchemaContents R} {rows : List Row}
      (run : rows.foldlM (fun schema row => push row schema) schema = .ok filled)
      : filled.path = schema.path := by
    induction rows generalizing schema with
    | nil =>
      cases run
      rfl
    | cons row rest ih =>
      obtain ⟨next, pushed, run⟩ := bind_eq_ok.mp run
      exact (ih run).trans (samePath pushed)
  -- The schemas before are full, the ones from here on have no rows of this stream.
  have loop (done rest : List (SchemaContents R)) (all : done ++ rest = entries)
      : (rest.flatMap rows).foldlM
          (fun schemas row => place debug schemas (pathOf row) (push row))
          (done.map hi ++ rest.map lo)
        = .ok (entries.map hi) := by
    induction rest generalizing done with
    | nil =>
      rw [append_nil] at all
      simp [all]
    | cons entry rest ih =>
      have inside : entry ∈ entries := all ▸ mem_append_right _ mem_cons_self
      have apart : ∀ other ∈ done.map hi ++ rest.map lo, other.path ≠ (lo entry).path := by
        rw [← all, map_append, map_cons, nodup_append] at distinct
        rw [path entry]
        intro other member
        rcases mem_append.mp member with left | right
        · obtain ⟨origin, known, rfl⟩ := mem_map.mp left
          have full := fills origin (all ▸ mem_append_left _ known)
          rw [keptPath full, path origin]
          exact distinct.2.2 _ (mem_map_of_mem known) _ mem_cons_self
        · obtain ⟨origin, known, rfl⟩ := mem_map.mp right
          rw [path origin]
          exact fun same => (nodup_cons.mp distinct.2.1).1 (same ▸ mem_map_of_mem known)
      rw [flatMap_cons, foldlM_append, map_cons, foldlM_place_rows samePath apart fun row member =>
          (here entry inside row member).trans (path entry).symm,
        fills entry inside]
      have := ih (done ++ [entry]) (by rw [append_assoc]; exact all)
      rw [map_append, append_assoc] at this
      exact this
  unfold placeAll
  rw [decodeCollection_encodeCollection]
  exact loop [] entries rfl

end

variable (sorted : entries.Pairwise fun a b => a.path.length ≤ b.path.length)

include sorted in
/-- Valid paths with all names there, parents first, open the schemas in that order. -/
theorem openSchemas_eq (valid : ValidPaths entries)
    (named : ∀ entry ∈ entries, ∀ part ∈ entry.path, part ≠ "")
    : openSchemas (entries.map (·.schema)) []
      = .ok (entries.map fun entry => .bare entry.path entry.schema) := by
  have loop (done rest : List (SchemaContents R)) (all : done ++ rest = entries)
      : openSchemas (rest.map (·.schema)) (done.map fun entry => .bare entry.path entry.schema)
        = .ok (entries.map fun entry => .bare entry.path entry.schema) := by
    induction rest generalizing done with
    | nil => simp [openSchemas, ← all]
    | cons entry rest ih =>
      have inside : entry ∈ entries := all ▸ mem_append_right _ mem_cons_self
      have known (path : Path)
          : (done.map fun entry => bare entry.path entry.schema).any
              (·.path = path) = true ↔ path ∈ done.map (·.path) := by
        simp [bare]
      have new : entry.path ∉ done.map (·.path) := by
        have distinct := valid.distinct
        rw [← all, map_append, map_cons, nodup_append] at distinct
        exact fun again => distinct.2.2 _ again _ mem_cons_self rfl
      have parent : entry.path.dropLast ≠ [] → entry.path.dropLast ∈ done.map (·.path) := by
        intro nested
        obtain ⟨parent, member, is⟩ := mem_map.mp (valid.parents entry inside nested)
        have shorter : parent.path.length < entry.path.length := by
          have := length_pos_iff.mpr (valid.nonempty entry inside)
          rw [is, length_dropLast]
          omega
        rw [← all, mem_append] at member
        rcases member with before | after
        · exact is ▸ mem_map_of_mem before
        · -- A parent that is not before its child is at least as deep.
          rw [← all] at sorted
          rcases mem_cons.mp after with rfl | later
          · omega
          · have := (pairwise_cons.mp (pairwise_append.mp sorted).2.1).1 parent later
            omega
      have accepted : ¬ (entry.path = [] ∨ entry.path.any (· = "") = true
          ∨ (done.map fun entry => bare entry.path entry.schema).any
              (·.path = entry.path) = true) := by
        rw [known]
        simpa using ⟨valid.nonempty entry inside,
          fun empty => named entry inside "" empty rfl, by simpa using new⟩
      have ordered : ¬ (entry.path.length > 1
          ∧ ¬ (done.map fun entry => bare entry.path entry.schema).any
              (·.path = entry.path.dropLast) = true) := by
        rw [known]
        rintro ⟨long, missing⟩
        refine missing (parent fun none => ?_)
        have := congrArg length none
        rw [length_dropLast, length_nil] at this
        omega
      have next := ih (done ++ [entry]) (by rw [append_assoc]; exact all)
      rw [map_append] at next
      rw [map_cons, openSchemas, valid.infos entry inside]
      simp only [accepted, ordered]
      exact next
  exact loop [] entries rfl

/-- Adds the rows of one kind, which never fails. -/
theorem foldlM_push {rows : List Row}
    {push : Row → SchemaContents R → Result (SchemaContents R)}
    (extend : SchemaContents R → List Row → SchemaContents R)
    (none : ∀ schema, extend schema [] = schema)
    (more : ∀ schema row rest, extend (extend schema [row]) rest = extend schema (row :: rest))
    (each : ∀ row ∈ rows, ∀ schema, push row schema = .ok (extend schema [row]))
    : rows.foldlM (fun schema row => push row schema) schema = .ok (extend schema rows) := by
  induction rows generalizing schema with
  | nil => rw [none]; rfl
  | cons row rest ih =>
    rw [foldlM_cons, each row mem_cons_self, ok_bind,
      ih fun row member => each row (mem_cons_of_mem _ member), more]

/-- A schema with its tables only, and so on: the client adds one kind after the other. -/
def SchemaContents.upToTables (entry : SchemaContents R) : SchemaContents R :=
  { SchemaContents.bare entry.path entry.schema with tables := entry.tables }

def SchemaContents.upToViews (entry : SchemaContents R) : SchemaContents R :=
  { entry.upToTables with views := entry.views }

def SchemaContents.upToFunctions (entry : SchemaContents R) : SchemaContents R :=
  { entry.upToViews with
    scalarFunctions := entry.scalarFunctions
    aggregateFunctions := entry.aggregateFunctions
    tableFunctions := entry.tableFunctions }

def SchemaContents.upToMacros (entry : SchemaContents R) : SchemaContents R :=
  { entry.upToFunctions with
    scalarMacros := entry.scalarMacros
    tableMacros := entry.tableMacros }

theorem fills_functions (grouped : Grouped entry)
    : (entry.scalarFunctions ++ entry.aggregateFunctions ++ entry.tableFunctions).foldlM
        (fun schema row => pushFunction row schema) entry.upToViews
      = .ok entry.upToFunctions := by
  rw [foldlM_append, foldlM_append, foldlM_push (fun schema rows =>
      { schema with scalarFunctions := schema.scalarFunctions ++ rows }) (by simp) (by simp)
      fun row member _ => pushFunction_eq_ok.mpr (.inl ⟨(grouped.scalars row member).2, rfl⟩),
    ok_bind,
    foldlM_push (fun schema rows =>
      { schema with aggregateFunctions := schema.aggregateFunctions ++ rows }) (by simp) (by simp)
      fun row member _ =>
        pushFunction_eq_ok.mpr (.inr (.inl ⟨(grouped.aggregates row member).2, rfl⟩)),
    ok_bind,
    foldlM_push (fun schema rows =>
      { schema with tableFunctions := schema.tableFunctions ++ rows }) (by simp) (by simp)
      fun row member _ =>
        pushFunction_eq_ok.mpr (.inr (.inr ⟨(grouped.tableFunctions row member).2, rfl⟩))]
  rfl

theorem fills_macros (grouped : Grouped entry)
    : (entry.scalarMacros ++ entry.tableMacros).foldlM (fun schema row => pushMacro row schema)
        entry.upToFunctions
      = .ok entry.upToMacros := by
  rw [foldlM_append, foldlM_push (fun schema rows =>
      { schema with scalarMacros := schema.scalarMacros ++ rows }) (by simp) (by simp)
      fun row member _ => pushMacro_eq_ok.mpr (.inl ⟨(grouped.scalarMacros row member).2, rfl⟩),
    ok_bind,
    foldlM_push (fun schema rows =>
      { schema with tableMacros := schema.tableMacros ++ rows }) (by simp) (by simp)
      fun row member _ => pushMacro_eq_ok.mpr (.inr ⟨(grouped.tableMacros row member).2, rfl⟩)]
  rfl

theorem path_pushFunction (pushed : pushFunction row schema = .ok filled)
    : filled.path = schema.path := by
  rcases pushFunction_eq_ok.mp pushed with ⟨_, rfl⟩ | ⟨_, rfl⟩ | ⟨_, rfl⟩ <;> rfl

theorem path_pushMacro {row} (pushed : pushMacro row schema = .ok filled)
    : filled.path = schema.path := by
  rcases pushMacro_eq_ok.mp pushed with ⟨_, rfl⟩ | ⟨_, rfl⟩ <;> rfl

include sorted in
/-- Grouped schemas, parents first, are read back as they were written. -/
theorem schemaContents_fromSchemaContents (valid : ValidPaths entries)
    (grouped : ∀ entry ∈ entries, Grouped entry) (catalogVersion : Int) (etag : Option String)
    : (fromSchemaContents catalogVersion etag entries).schemaContents debug = .ok entries := by
  have opened := openSchemas_eq sorted valid fun entry member => (grouped entry member).named
  have tables : placeAll debug R.tablePath
      (fun row schema => .ok { schema with tables := schema.tables ++ [row] })
      (encodeCollection (entries.flatMap (·.tables)))
      (entries.map fun entry => .bare entry.path entry.schema)
      = .ok (entries.map (·.upToTables)) := by
    refine placeAll_fills ?_ valid.distinct (fun entry member => (grouped entry member).tables)
      (fun _ => rfl) fun entry member => ?_
    · rintro _ _ _ ⟨⟩
      rfl
    · exact foldlM_push (fun schema rows => { schema with tables := schema.tables ++ rows })
        (by simp) (by simp) fun _ _ _ => rfl
  have views : placeAll debug R.viewPath
      (fun row schema => .ok { schema with views := schema.views ++ [row] })
      (encodeCollection (entries.flatMap (·.views))) (entries.map (·.upToTables))
      = .ok (entries.map (·.upToViews)) := by
    refine placeAll_fills ?_ valid.distinct (fun entry member => (grouped entry member).views)
      (fun _ => rfl) fun entry member => ?_
    · rintro _ _ _ ⟨⟩
      rfl
    · exact foldlM_push (fun schema rows => { schema with views := schema.views ++ rows })
        (by simp) (by simp) fun _ _ _ => rfl
  have functions : placeAll debug R.functionPath pushFunction
      (encodeCollection (entries.flatMap fun entry =>
        entry.scalarFunctions ++ entry.aggregateFunctions ++ entry.tableFunctions))
      (entries.map (·.upToViews))
      = .ok (entries.map (·.upToFunctions)) := by
    refine placeAll_fills path_pushFunction valid.distinct (fun entry member row inside => ?_)
      (fun _ => rfl) fun entry member => fills_functions (grouped entry member)
    rcases mem_append.mp inside with first | table
    · rcases mem_append.mp first with scalar | aggregate
      · exact ((grouped entry member).scalars row scalar).1
      · exact ((grouped entry member).aggregates row aggregate).1
    · exact ((grouped entry member).tableFunctions row table).1
  have macros : placeAll debug R.macroPath pushMacro
      (encodeCollection (entries.flatMap fun entry => entry.scalarMacros ++ entry.tableMacros))
      (entries.map (·.upToFunctions))
      = .ok (entries.map (·.upToMacros)) := by
    refine placeAll_fills path_pushMacro valid.distinct (fun entry member row inside => ?_)
      (fun _ => rfl) fun entry member => fills_macros (grouped entry member)
    rcases mem_append.mp inside with scalar | table
    · exact ((grouped entry member).scalarMacros row scalar).1
    · exact ((grouped entry member).tableMacros row table).1
  have indexes : placeAll debug R.indexPath
      (fun row schema => .ok { schema with indexes := schema.indexes ++ [row] })
      (encodeCollection (entries.flatMap (·.indexes))) (entries.map (·.upToMacros))
      = .ok (entries.map id) := by
    refine placeAll_fills ?_ valid.distinct (fun entry member => (grouped entry member).indexes)
      (fun _ => rfl) fun entry member => ?_
    · rintro _ _ _ ⟨⟩
      rfl
    · exact foldlM_push (fun schema rows => { schema with indexes := schema.indexes ++ rows })
        (by simp) (by simp) fun _ _ _ => rfl
  simp only [CatalogContentsResponse.schemaContents, fromSchemaContents,
    decodeCollection_encodeCollection, opened, ok_bind, tables, views, functions, macros, indexes,
    map_id]
  rfl

/-- An accepted answer is the snapshot, or tells the holder of its etag that nothing changed. -/
theorem finish_eq_ok {ifNoneMatch catalogVersion etagMode}
    (finished : finish debug digest result ifNoneMatch catalogVersion etagMode = .ok response)
    : (∃ etag, ifNoneMatch = some etag ∧ response = .unchanged catalogVersion etag)
      ∨ (result.notModified = false ∧ ValidPaths result.schemas ∧ ∃ etag, response
        = fromSchemaContents catalogVersion etag (parentsFirst result.schemas)) := by
  unfold finish at finished
  split at finished
  · repeat' split at finished
    all_goals cases finished
    next same _ => exact .inl ⟨_, by rw [same], rfl⟩
  · next full =>
      obtain ⟨_, checked, finished⟩ := bind_eq_ok.mp finished
      have valid := validatePaths_eq_ok.mp checked
      have full : result.notModified = false := Bool.not_eq_true _ |>.mp full
      simp only at finished
      repeat' split at finished
      all_goals cases finished
      all_goals first | exact .inl ⟨_, ‹_›, rfl⟩ | exact .inr ⟨full, valid, _, rfl⟩

/-- Valid paths are accepted, whatever the client holds. -/
theorem exists_finish (full : result.notModified = false) (valid : ValidPaths result.schemas)
    (ifNoneMatch catalogVersion etagMode)
    : ∃ response, finish debug digest result ifNoneMatch catalogVersion etagMode
        = .ok response := by
  unfold finish
  rw [if_neg (by simp [full]), validatePaths_eq_ok.mpr valid, ok_bind]
  simp only
  repeat' split
  all_goals exact ⟨_, rfl⟩

/-- The client reads the worker's schemas if and only if each is grouped. -/
theorem schemaContents_iff (valid : ValidPaths schemas) (catalogVersion etag)
    : (fromSchemaContents catalogVersion etag (parentsFirst schemas)).schemaContents debug
        = .ok (parentsFirst schemas)
      ↔ ∀ entry ∈ schemas, Grouped entry := by
  constructor
  · intro read entry member
    exact grouped_schemaContents read entry (mem_parentsFirst.mpr member)
  · intro grouped
    exact schemaContents_fromSchemaContents (sorted_parentsFirst schemas) valid.parentsFirst
      (fun entry member => grouped entry (mem_parentsFirst.mp member)) catalogVersion etag

end Vgi.Catalog
