import Mathlib.Data.List.Nodup
import Vgi.Stored.InPlace

/-! What one event may do to a catalog, and that it leaves a catalog well formed. -/

namespace Vgi.Stored

open List StoredSchema

def folded (path : SchemaPath) : List String := path.map toAsciiLowercase

theorem same_iff {a b} : same a b = true ↔ toAsciiLowercase a = toAsciiLowercase b := by
  simp [same]

variable {a b : SchemaPath} {α : Type} {p : α → Bool} {items : List α} {comment : Option String}
  {onConflict : OnConflict} {ignoreNotFound : Bool} {kind name : String} {nameOf : α → String}
  {before rest : List StoredSchema} {schema next : StoredSchema}

theorem samePath_iff : samePath a b = true ↔ folded a = folded b := by
  unfold samePath folded
  rw [decide_eq_true_iff]
  induction a generalizing b with
  | nil =>
    cases b with
    | nil => simp
    | cons => simp
  | cons first rest ih =>
    cases b with
    | nil => simp
    | cons other others =>
      have tail := ih (b := others)
      simp only [length_cons, Nat.add_right_cancel_iff, zip_cons_cons, all_cons,
        Bool.and_eq_true, map_cons, cons.injEq, same_iff]
      constructor
      · rintro ⟨length, head, rest⟩
        exact ⟨head, tail.mp ⟨length, rest⟩⟩
      · rintro ⟨head, rest⟩
        obtain ⟨length, all⟩ := tail.mpr rest
        exact ⟨length, head, all⟩

theorem samePath_eq_false : samePath a b = false ↔ folded a ≠ folded b := by
  rw [← Bool.not_eq_true, samePath_iff]

theorem folded_dropLast (path) : folded path.dropLast = (folded path).dropLast := map_dropLast

@[simp] theorem length_folded (path) : (folded path).length = path.length := length_map _

/-- The names of the tables and views, as they are compared. -/
def StoredSchema.keys (schema : StoredSchema) : List String :=
  schema.tables.map (toAsciiLowercase ·.name) ++ schema.views.map (toAsciiLowercase ·.name)

/-- Paths of schemas and names in a schema are distinct without case, every nested schema is in a
schema, and the default schema is there.
-/
structure State.WellFormed (state : State) : Prop where
  distinct : (state.schemas.map (folded ·.path)).Nodup
  nonempty : ∀ schema ∈ state.schemas, schema.path ≠ []
  parents : ∀ schema ∈ state.schemas, 1 < schema.path.length →
    ∃ parent ∈ state.schemas, samePath parent.path schema.path.dropLast = true
  main : ∃ schema ∈ state.schemas, samePath schema.path [defaultSchema] = true
  names : ∀ schema ∈ state.schemas, schema.keys.Nodup

/-- What applying an event may do to a catalog. -/
inductive State.Applied (state : State) : Bool → State → Prop where
  | ignored : state.Applied false state
  | changed {before after : List StoredSchema} {schema changed : StoredSchema}
      (is : state.schemas = before ++ schema :: after)
      (path : folded changed.path = folded schema.path)
      (names : schema.keys.Nodup → changed.keys.Nodup)
      : state.Applied true { state with schemas := before ++ changed :: after }
  | added {fresh : StoredSchema} (nonempty : fresh.path ≠ [])
      (new : ∀ schema ∈ state.schemas, samePath schema.path fresh.path = false)
      (parent : 1 < fresh.path.length → ∃ parent ∈ state.schemas,
        samePath parent.path fresh.path.dropLast = true)
      (keys : fresh.keys = [])
      : state.Applied true { state with schemas := state.schemas ++ [fresh] }
  | dropped {path : SchemaPath}
      (found : ∃ schema ∈ state.schemas, samePath schema.path path = true)
      (other : samePath path [defaultSchema] = false)
      : state.Applied true { state with
          schemas := state.schemas.filter fun schema =>
            ¬samePath schema.path path ∧ ¬isChild path schema }

variable {state after : State} {path : SchemaPath} {changes : Bool}

theorem splitFirst_eq_some {before after found}
    (split : splitFirst p items = some (before, found, after))
    : items = before ++ found :: after ∧ p found = true := by
  rcases splitFirst_cases p items with ⟨_, _, none_⟩ | ⟨_, _, _, is, _, first, some_⟩
  · rw [none_] at split
    cases split
  · rw [some_] at split
    cases split
    exact ⟨is, find?_some first⟩

theorem splitFirst_eq_none (split : splitFirst p items = none)
    : ∀ item ∈ items, p item = false := by
  rcases splitFirst_cases p items with ⟨_, none_, _⟩ | ⟨_, _, _, _, _, _, some_⟩
  · intro item member
    exact Bool.not_eq_true _ |>.mp (find?_eq_none.mp none_ item member)
  · rw [some_] at split
    cases split

theorem exists_of_schema {found} (is : state.schema path = some found)
    : ∃ schema ∈ state.schemas, samePath schema.path path = true :=
  ⟨found, mem_of_find?_eq_some is, by simpa using find?_some is⟩

theorem applied_createSchema {tags}
    (applied : state.createSchema path comment tags onConflict = .ok (changes, after))
    : state.Applied changes after := by
  unfold State.createSchema at applied
  repeat' split at applied
  all_goals cases applied
  · exact .ignored
  next split_ _ =>
    obtain ⟨is, found⟩ := splitFirst_eq_some split_
    exact .changed is (samePath_iff.mp found).symm fun _ => nodup_nil
  next nonempty orphan _ split_ =>
    refine .added nonempty (splitFirst_eq_none split_) (fun nested => ?_) rfl
    cases is : state.schema path.dropLast with
    | none => exact (orphan ⟨nested, by rw [is]; rfl⟩).elim
    | some found => exact exists_of_schema is

theorem applied_dropSchema {cascade}
    (applied : state.dropSchema path ignoreNotFound cascade = .ok (changes, after))
    : state.Applied changes after := by
  unfold State.dropSchema at applied
  repeat' split at applied
  all_goals cases applied
  · exact .ignored
  next is other _ => exact .dropped (exists_of_schema is) (Bool.not_eq_true _ |>.mp other)

/-- A schema that is changed keeps its path. -/
theorem applied_schemaMut {change}
    (does : ∀ {schema result next}, change schema = .ok (result, next) →
      (result = false ∧ next = schema)
        ∨ (result = true ∧ next.path = schema.path ∧ (schema.keys.Nodup → next.keys.Nodup)))
    (applied : state.schemaMut path change = .ok (changes, after))
    : state.Applied changes after := by
  unfold State.schemaMut at applied
  split at applied
  next before schema rest split_ =>
    obtain ⟨is, _⟩ := splitFirst_eq_some split_
    obtain ⟨⟨result, next⟩, done, returned⟩ := Lib.bind_eq_ok.mp applied
    cases returned
    rcases does done with ⟨rfl, rfl⟩ | ⟨rfl, samePath, names⟩
    · rw [← is]
      exact .ignored
    · exact .changed is (congrArg folded samePath) names
  · cases applied

/-- Putting an object in its list keeps the names there distinct, also from others that are not
its name.
-/
theorem putNamed_eq_ok {after result others} (nameOf : α → String) (item)
    (named : nameOf item = name) (free : toAsciiLowercase name ∉ others)
    (put : putNamed kind name nameOf onConflict item items = .ok (result, after))
    : (result = false ∧ after = items)
      ∨ (result = true ∧ ((items.map (toAsciiLowercase <| nameOf ·) ++ others).Nodup →
        (after.map (toAsciiLowercase <| nameOf ·) ++ others).Nodup)) := by
  unfold putNamed at put
  split at put
  next before found rest split_ =>
    obtain ⟨is, holds⟩ := splitFirst_eq_some split_
    cases onConflict with
    | ignore =>
      cases put
      exact .inl ⟨rfl, rfl⟩
    | replace =>
      cases put
      refine .inr ⟨rfl, ?_⟩
      rw [is]
      simp [named, same_iff.mp holds]
    | error => cases put
  next split_ =>
    cases put
    refine .inr ⟨rfl, fun distinct => ?_⟩
    rw [map_append, map_singleton, named, append_assoc, singleton_append]
    refine nodup_middle.mpr (nodup_cons.mpr ⟨fun member => ?_, distinct⟩)
    obtain ⟨other, inside, equal⟩ := mem_map.mp ((mem_append.mp member).resolve_right free)
    have differs := splitFirst_eq_none split_ other inside
    rw [same_iff.mpr equal] at differs
    cases differs

/-- No object of the other kind has the name. -/
theorem notMem_of_find? (none_ : ¬ (items.find? fun item => same (nameOf item) name).isSome = true)
    : toAsciiLowercase name ∉ items.map (toAsciiLowercase <| nameOf ·) := by
  intro member
  obtain ⟨item, inside, equal⟩ := mem_map.mp member
  exact none_ (find?_isSome.mpr ⟨item, inside, same_iff.mpr equal⟩)

theorem applied_createTable {columns}
    (applied : state.createTable path name columns onConflict = .ok (changes, after))
    : state.Applied changes after := by
  refine applied_schemaMut (fun {schema result next} done => ?_) applied
  split at done
  · cases done
  next free =>
    obtain ⟨⟨put, tables⟩, puts, returned⟩ := Lib.bind_eq_ok.mp done
    cases returned
    rcases putNamed_eq_ok StoredTable.name ⟨name, columns⟩ rfl (notMem_of_find? free) puts with
      ⟨rfl, rfl⟩ | ⟨rfl, keeps⟩
    · exact .inl ⟨rfl, rfl⟩
    · exact .inr ⟨rfl, rfl, keeps⟩

theorem applied_createView {view}
    (applied : state.createView path view onConflict = .ok (changes, after))
    : state.Applied changes after := by
  refine applied_schemaMut (fun {schema result next} done => ?_) applied
  split at done
  · cases done
  next free =>
    obtain ⟨⟨put, views⟩, puts, returned⟩ := Lib.bind_eq_ok.mp done
    cases returned
    rcases putNamed_eq_ok StoredView.name view rfl (notMem_of_find? free) puts with
      ⟨rfl, rfl⟩ | ⟨rfl, keeps⟩
    · exact .inl ⟨rfl, rfl⟩
    · -- The views come after the tables.
      refine .inr ⟨rfl, rfl, fun distinct => ?_⟩
      exact perm_append_comm.nodup_iff.mp (keeps (perm_append_comm.nodup_iff.mp distinct))

theorem applied_setViewComment {column}
    (applied : state.setViewComment path name column comment ignoreNotFound = .ok (changes, after))
    : state.Applied changes after := by
  refine applied_schemaMut (fun {schema result next} done => ?_) applied
  split at done
  next before view rest split_ =>
    obtain ⟨is, _⟩ := splitFirst_eq_some split_
    cases done
    have named : (view.setComment column comment).name = view.name := by
      unfold StoredView.setComment
      split
      · split <;> rfl
      · rfl
    refine .inr ⟨rfl, rfl, fun distinct => ?_⟩
    rw [StoredSchema.keys, is] at distinct
    rw [StoredSchema.keys]
    simpa [named] using distinct
  · split at done
    · cases done
      exact .inl ⟨rfl, rfl⟩
    · cases done

/-- The two kinds of objects that are dropped by name. -/
theorem applied_dropNamed (list setList)
    (sets : ∀ schema {items}, items.Sublist (list schema) →
      (setList schema items).path = schema.path ∧ (setList schema items).keys.Sublist schema.keys)
    (applied : state.dropNamed path name ignoreNotFound kind list setList nameOf
      = .ok (changes, after))
    : state.Applied changes after := by
  unfold State.dropNamed at applied
  dsimp only at applied
  have missing {e : RpcError}
      (is : (if ignoreNotFound then .ok (false, state) else .error e : Result (Bool × State))
        = .ok (changes, after))
      : state.Applied changes after := by
    split at is
    · cases is
      exact .ignored
    · cases is
  split at applied
  · exact missing applied
  next before schema rest split_ =>
    obtain ⟨is, _⟩ := splitFirst_eq_some split_
    split at applied
    next earlier item later items_ =>
      obtain ⟨items, _⟩ := splitFirst_eq_some items_
      cases applied
      have fewer : (earlier ++ later).Sublist (list schema) := by
        rw [items]
        exact (Sublist.refl earlier).append (sublist_cons_self item later)
      obtain ⟨samePath, keys⟩ := sets schema fewer
      exact .changed is (congrArg folded samePath) fun distinct => keys.nodup distinct
    · exact missing applied

/-- One lemma for each event. -/
theorem applied_apply {event} (applied : state.apply event = .ok (changes, after))
    : state.Applied changes after := by
  cases event with
  | attached =>
    cases applied
    exact .ignored
  | schemaCreate => exact applied_createSchema applied
  | schemaDrop => exact applied_dropSchema applied
  | tableCreate => exact applied_createTable applied
  | tableDrop =>
    refine applied_dropNamed tables (fun schema tables => { schema with tables })
      (fun schema {tables} fewer => ⟨rfl, ?_⟩) applied
    exact (fewer.map _).append (.refl _)
  | viewCreate => exact applied_createView applied
  | viewCommentSet => exact applied_setViewComment applied
  | viewDrop =>
    refine applied_dropNamed views (fun schema views => { schema with views })
      (fun schema {views} fewer => ⟨rfl, ?_⟩) applied
    exact (Sublist.refl _).append (fewer.map _)

theorem wellFormed_new : State.new.WellFormed where
  distinct := nodup_singleton _
  nonempty schema member := by
    cases mem_singleton.mp member
    exact cons_ne_nil _ _
  parents schema member nested := by
    cases mem_singleton.mp member
    exact absurd nested (by decide)
  main := ⟨_, mem_singleton_self _, samePath_iff.mpr rfl⟩
  names schema member := by
    cases mem_singleton.mp member
    exact nodup_nil

/-- The schema at the path of another one, when one is changed. -/
theorem exists_samePath_changed (same : folded next.path = folded schema.path) {wanted}
    (found : ∃ found ∈ before ++ schema :: rest, samePath found.path wanted = true)
    : ∃ found ∈ before ++ next :: rest, samePath found.path wanted = true := by
  obtain ⟨found, member, is⟩ := found
  simp only [mem_append, mem_cons] at member ⊢
  rcases member with earlier | rfl | later
  · exact ⟨found, .inl earlier, is⟩
  · exact ⟨next, .inr (.inl rfl), samePath_iff.mpr (same.trans (samePath_iff.mp is))⟩
  · exact ⟨found, .inr (.inr later), is⟩

variable (formed : state.WellFormed)

include formed

/-- A schema may be changed in place if it keeps its path and the names in it stay distinct. -/
theorem State.WellFormed.changed (is : state.schemas = before ++ schema :: rest)
    (same : folded next.path = folded schema.path) (names : schema.keys.Nodup → next.keys.Nodup)
    : { state with schemas := before ++ next :: rest }.WellFormed := by
  have length : next.path.length = schema.path.length := by
    simpa using congrArg length same
  have cases {other : StoredSchema} (member : other ∈ before ++ next :: rest)
      : other = next ∨ other ∈ state.schemas := by
    rw [is]
    simp only [mem_append, mem_cons] at member ⊢
    rcases member with earlier | rfl | later
    · exact .inr (.inl earlier)
    · exact .inl rfl
    · exact .inr (.inr (.inr later))
  have here : schema ∈ state.schemas := by
    rw [is]
    exact mem_append_right _ mem_cons_self
  constructor
  case distinct =>
    have distinct := formed.distinct
    rw [is] at distinct
    simpa [same] using distinct
  case nonempty =>
    intro other member
    rcases cases member with rfl | old
    · intro empty
      rw [empty] at length
      exact formed.nonempty schema here (eq_nil_of_length_eq_zero length.symm)
    · exact formed.nonempty other old
  case parents =>
    intro other member nested
    refine exists_samePath_changed same (is ▸ ?_)
    rcases cases member with rfl | old
    · obtain ⟨parent, inside, above⟩ := formed.parents schema here (length ▸ nested)
      refine ⟨parent, inside, samePath_iff.mpr ?_⟩
      rw [samePath_iff.mp above, folded_dropLast, folded_dropLast, same]
    · exact formed.parents other old nested
  case main => exact exists_samePath_changed same (is ▸ formed.main)
  case names =>
    intro other member
    rcases cases member with rfl | old
    · exact names (formed.names schema here)
    · exact formed.names other old

/-- A schema may be added if its path is new and its parent is there. -/
theorem State.WellFormed.added {fresh} (nonempty : fresh.path ≠ [])
    (new : ∀ schema ∈ state.schemas, samePath schema.path fresh.path = false)
    (parent : 1 < fresh.path.length → ∃ parent ∈ state.schemas,
      samePath parent.path fresh.path.dropLast = true)
    (keys : fresh.keys = [])
    : { state with schemas := state.schemas ++ [fresh] }.WellFormed := by
  have wider {wanted : SchemaPath}
      (found : ∃ found ∈ state.schemas, samePath found.path wanted = true)
      : ∃ found ∈ state.schemas ++ [fresh], samePath found.path wanted = true := by
    obtain ⟨found, member, is⟩ := found
    exact ⟨found, mem_append_left _ member, is⟩
  have cases {other : StoredSchema} (member : other ∈ state.schemas ++ [fresh])
      : other ∈ state.schemas ∨ other = fresh := by
    simpa using member
  constructor
  case distinct =>
    rw [map_append]
    refine nodup_append.mpr ⟨formed.distinct, nodup_singleton _, ?_⟩
    intro key member other isFresh same
    obtain ⟨schema, inside, rfl⟩ := mem_map.mp member
    have isFresh : other = folded fresh.path := by simpa using isFresh
    exact samePath_eq_false.mp (new schema inside) (same.trans isFresh)
  case nonempty =>
    intro other member
    rcases cases member with old | rfl
    · exact formed.nonempty other old
    · exact nonempty
  case parents =>
    intro other member nested
    rcases cases member with old | rfl
    · exact wider (formed.parents other old nested)
    · exact wider (parent nested)
  case main => exact wider formed.main
  case names =>
    intro other member
    rcases cases member with old | rfl
    · exact formed.names other old
    · rw [keys]
      exact nodup_nil

omit formed in
/-- Below a schema, as paths are compared. -/
theorem isChild_iff : isChild path schema = true ↔ path.length < schema.path.length
      ∧ (folded schema.path).take path.length = folded path := by
  unfold isChild
  rw [decide_eq_true_iff, samePath_iff, folded, folded, map_take]
  rfl

/-- A schema goes with its children, and `main` stays. -/
theorem State.WellFormed.dropped
    (found : ∃ schema ∈ state.schemas, samePath schema.path path = true)
    (other : samePath path [defaultSchema] = false)
    : { state with
        schemas := state.schemas.filter fun schema =>
          ¬samePath schema.path path ∧ ¬isChild path schema }.WellFormed := by
  obtain ⟨dropped, droppedIn, isDropped⟩ := found
  have length : dropped.path.length = path.length := by
    simpa using congrArg length (samePath_iff.mp isDropped)
  have positive : 0 < path.length := by
    rw [← length]
    exact length_pos_of_ne_nil (formed.nonempty dropped droppedIn)
  have sublist : (state.schemas.filter fun schema =>
      ¬samePath schema.path path ∧ ¬isChild path schema).Sublist state.schemas :=
    filter_sublist
  constructor
  case distinct => exact (sublist.map _).nodup formed.distinct
  case nonempty => exact fun schema member => formed.nonempty schema (sublist.subset member)
  case parents =>
    -- If the parent goes, the schema was below the path itself.
    intro schema member nested
    obtain ⟨inside, kept⟩ := mem_filter.mp member
    have kept := of_decide_eq_true kept
    obtain ⟨parent, parentIn, above⟩ := formed.parents schema inside nested
    have above := samePath_iff.mp above
    have shorter : parent.path.length = schema.path.length - 1 := by
      simpa using congrArg List.length above
    refine ⟨parent, mem_filter.mpr ⟨parentIn, decide_eq_true ?_⟩, samePath_iff.mpr above⟩
    refine ⟨fun same => ?_, fun below => ?_⟩
    · refine kept.2 (isChild_iff.mpr ?_)
      have same := samePath_iff.mp same
      have equal : path.length = schema.path.length - 1 := by
        rw [← shorter]
        simpa using (congrArg List.length same).symm
      refine ⟨by omega, ?_⟩
      rw [← same, above, folded_dropLast, dropLast_eq_take, equal, length_folded]
    · refine kept.2 (isChild_iff.mpr ?_)
      obtain ⟨longer, start⟩ := isChild_iff.mp below
      refine ⟨by omega, ?_⟩
      rw [← start, above, folded_dropLast, dropLast_eq_take, take_take, length_folded]
      congr 1
      omega
  case main =>
    obtain ⟨main, mainIn, isMain⟩ := formed.main
    refine ⟨main, mem_filter.mpr ⟨mainIn, decide_eq_true ?_⟩, isMain⟩
    refine ⟨fun same => ?_, fun below => ?_⟩
    · exact samePath_eq_false.mp other ((samePath_iff.mp same).symm.trans (samePath_iff.mp isMain))
    · have one : main.path.length = 1 := by
        simpa using congrArg List.length (samePath_iff.mp isMain)
      have longer := (isChild_iff.mp below).1
      omega
  case names => exact fun schema member => formed.names schema (sublist.subset member)

theorem State.WellFormed.applied (applied : state.Applied changes after) : after.WellFormed := by
  cases applied with
  | ignored => exact formed
  | changed is path names => exact formed.changed is path names
  | added nonempty new parent keys => exact formed.added nonempty new parent keys
  | dropped found other => exact formed.dropped found other

end Vgi.Stored
