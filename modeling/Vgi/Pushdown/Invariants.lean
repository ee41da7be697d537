import Vgi.Pushdown.Updates

/-! What holds in every reachable filter state. The effect of one update gives what the delta
loop preserves, and with it the invariants of every run and the change report of
`apply_delta`.
-/

namespace Vgi.Pushdown

open Arrow Lib Lib.LastWriter List PushdownFilters Option

section

variable {Text Bytes : Type} {dec : Decoders Text Bytes}

/-- The live predicates fit the revision map and the snapshot they came from. -/
structure Coherent (snapshot : PushdownFilters) (predicates : List Predicate)
    (revisions : Revisions) : Prop where
  distinct : (predicates.map Predicate.id).Nodup
  tracked : ∀ predicate ∈ predicates, revisions.lookup predicate.id = some predicate.revision
  required : ∀ id ∈ snapshot.requiredIds, ∃ predicate ∈ snapshot.predicates,
    predicate.id = id ∧ predicate.mode = .required ∧ predicate.revision = 0 ∧ predicate ∈ predicates
  added : ∀ predicate ∈ predicates, predicate ∈ snapshot.predicates ∨ predicate.mode = .advisory

variable {predicates : List Predicate} {id : String} {predicate : Predicate}
  {snapshot filters next : PushdownFilters} {revisions : Revisions} {parser : Parser}
  {state start : DeltaState} {update : WireUpdate} {operation : DeltaOperation} {changed : Bool}

theorem mem_retainOthers
    : predicate ∈ retainOthers predicates id ↔ predicate ∈ predicates ∧ predicate.id ≠ id := by
  simp [retainOthers]

theorem retainOthers_sublist (predicates id)
    : (retainOthers predicates id).Sublist predicates :=
  filter_sublist

variable {revision : Nat}

/-- Taking out the predicate of an optional ID keeps the rest coherent. -/
theorem Coherent.remove (coherent : Coherent snapshot predicates revisions)
    (optional : id ∉ snapshot.requiredIds)
    : Coherent snapshot (retainOthers predicates id) (revisions.insert id revision) where
  distinct := coherent.distinct.sublist ((retainOthers_sublist predicates id).map _)
  tracked := by
    intro predicate member
    obtain ⟨live, ne⟩ := mem_retainOthers.mp member
    rw [Finmap.lookup_insert_of_ne _ ne]
    exact coherent.tracked predicate live
  required := by
    intro other member
    obtain ⟨predicate, original, same, mode, zero, live⟩ := coherent.required other member
    have ne : predicate.id ≠ id := fun eq => optional (eq ▸ same ▸ member)
    exact ⟨predicate, original, same, mode, zero, mem_retainOthers.mpr ⟨live, ne⟩⟩
  added := fun predicate member => coherent.added predicate (mem_retainOthers.mp member).1

/-- Putting an advisory predicate at the end, under an ID that has none, stays coherent. -/
theorem Coherent.push (coherent : Coherent snapshot predicates revisions)
    (absent : predicate.id ∉ predicates.map Predicate.id)
    (known : revisions.lookup predicate.id = some predicate.revision)
    (advisory : predicate.mode = .advisory)
    : Coherent snapshot (predicates ++ [predicate]) revisions where
  distinct := by
    rw [map_append, map_singleton]
    exact nodup_append.mpr ⟨coherent.distinct, nodup_singleton _, by
      intro id member other single
      rw [mem_singleton] at single
      exact fun eq => absent (single ▸ eq ▸ member)⟩
  tracked := forall_mem_append.mpr ⟨coherent.tracked, forall_mem_singleton.mpr known⟩
  required := by
    intro id member
    obtain ⟨original, inSnapshot, same, mode, zero, live⟩ := coherent.required id member
    exact ⟨original, inSnapshot, same, mode, zero, mem_append_left _ live⟩
  added := forall_mem_append.mpr ⟨coherent.added, forall_mem_singleton.mpr (.inr advisory)⟩

theorem UpdateEffect.coherent {next} (effect : UpdateEffect parser state update operation next)
    (optional : update.id ∉ snapshot.requiredIds)
    (coherent : Coherent snapshot state.predicates state.revisions)
    : Coherent snapshot next.predicates next.revisions := by
  cases effect with
  | stale => exact coherent
  | removed => exact coherent.remove optional
  | upserted fresh parsed id revision advisory =>
    refine (coherent.remove optional).push ?_ ?_ advisory
    · rw [id, List.mem_map]
      rintro ⟨other, member, same⟩
      exact (mem_retainOthers.mp member).2 same
    · rw [id, revision, Finmap.lookup_insert]

/-- The loop's change flag is exact: unset, nothing moved; set, some ID advanced. -/
structure ChangeReport (start state : DeltaState) : Prop where
  unchanged : state.changed = false
    → state.predicates = start.predicates ∧ state.revisions = start.revisions
  changed : state.changed = true
    → ∃ id revision value, state.registers id = some (revision, value)
      ∧ Fresh (start.registers id) revision

theorem UpdateEffect.advances {next} (effect : UpdateEffect parser state update operation next) (id)
    : Advances (state.registers id) (next.registers id) := by
  obtain ⟨value, written⟩ := effect.write
  rw [written]
  exact advances_write _ _ _

theorem UpdateEffect.changeReport {next} (effect : UpdateEffect parser state update operation next)
    (advanced : ∀ id, Advances (start.registers id) (state.registers id))
    (report : ChangeReport start state)
    : ChangeReport start next := by
  have written : isStale state.revisions update = false →
      ∃ id revision value, next.registers id = some (revision, value)
        ∧ Fresh (start.registers id) revision := by
    intro fresh
    obtain ⟨value, written⟩ := effect.write
    have newer : Fresh (state.registers update.id) update.revision := fresh_of_not_isStale fresh
    refine ⟨update.id, update.revision, value, ?_, (advanced update.id).fresh newer⟩
    rw [written, write_of_fresh newer, Function.update_self]
  constructor
  · intro unset
    cases effect with
    | stale => exact report.unchanged unset
    | removed | upserted => cases unset
  · intro set
    cases effect with
    | stale => exact report.changed set
    | removed fresh | upserted fresh => exact written fresh

variable {bytes : Bytes}

theorem PushdownFilters.applyDelta_cases (h : filters.applyDelta dec bytes = .ok (next, changed))
    : ∃ batch updates final, deltaUpdates dec filters.context bytes = .ok (batch, updates)
      ∧ updates.foldlM (applyUpdate dec (filters.deltaParser batch) filters.requiredIds)
          filters.deltaStart = .ok final
      ∧ final.revisions.keys.card ≤ maxIds
      ∧ next = { filters with predicates := final.predicates, revisions := final.revisions }
      ∧ changed = final.changed := by
  simp only [applyDelta, bind_eq_ok, rejectIf_eq_ok, not_lt] at h
  obtain ⟨⟨batch, updates⟩, read, final, run, _, bounded, rfl, rfl⟩ := h
  exact ⟨batch, updates, final, read, run, bounded, rfl, rfl⟩

/-- What the delta loop keeps, from its start to any point of it. -/
structure LoopInvariant (snapshot : PushdownFilters) (start state : DeltaState) : Prop where
  coherent : Coherent snapshot state.predicates state.revisions
  advances : ∀ id, Advances (start.registers id) (state.registers id)
  report : ChangeReport start state

theorem applyUpdates_loopInvariant {final} {updates : List Value}
    (coherent : Coherent snapshot start.predicates start.revisions) (unset : start.changed = false)
    (run : updates.foldlM (applyUpdate dec parser snapshot.requiredIds) start = .ok final)
    : LoopInvariant snapshot start final := by
  refine foldlM_invariant (LoopInvariant snapshot start) ?_ ?_ run
  · intro state raw next holds accepted
    obtain ⟨update, operation, _, _, _, optional, _, effect⟩ := applyUpdate_eq_ok.mp accepted
    exact {
      coherent := effect.coherent optional holds.coherent
      advances := fun id => (holds.advances id).trans (effect.advances id)
      report := effect.changeReport holds.advances holds.report
    }
  · exact {
      coherent
      advances := fun id => .refl _
      report := ⟨fun _ => ⟨rfl, rfl⟩, fun set => absurd (unset.symm.trans set) (by simp)⟩
    }

/-- The state after a delta arrives, accepted or rejected. -/
def PushdownFilters.afterDelta (dec : Decoders Text Bytes) (filters : PushdownFilters)
    (bytes : Bytes) : PushdownFilters :=
  match filters.applyDelta dec bytes with
  | .ok (next, _) => next
  | .error _ => filters

def PushdownFilters.afterDeltas (dec : Decoders Text Bytes) (filters : PushdownFilters)
    (deltas : List Bytes) : PushdownFilters :=
  deltas.foldl (afterDelta dec) filters

/-- What every reachable state satisfies, relative to the snapshot it started from. -/
structure FilterInvariant (snapshot filters : PushdownFilters) : Prop where
  coherent : Coherent snapshot filters.predicates filters.revisions
  requiredIds : filters.requiredIds = snapshot.requiredIds
  bounded : filters.revisions.keys.card ≤ maxIds

/-- The reported change against the two states: unset, they are equal; set, some ID is at a
revision that the earlier state did not have.
-/
structure DeltaReport (filters next : PushdownFilters) (changed : Bool) : Prop where
  unchanged : changed = false → next = filters
  changed : changed = true → ∃ id revision value,
    next.registers id = some (revision, value) ∧ Fresh (filters.registers id) revision

theorem DeltaReport.changed_iff (report : DeltaReport filters next changed)
    : changed = true ↔ next ≠ filters := by
  constructor
  · rintro set rfl
    obtain ⟨id, revision, value, held, fresh⟩ := report.changed set
    exact not_fresh_of_held held fresh
  · intro moved
    by_contra unset
    exact moved (report.unchanged (by simpa using unset))

variable (holds : FilterInvariant snapshot filters)

include holds

theorem PushdownFilters.applyDelta_invariant
    (h : filters.applyDelta dec bytes = .ok (next, changed))
    : FilterInvariant snapshot next
      ∧ (∀ id, Advances (filters.registers id) (next.registers id))
      ∧ DeltaReport filters next changed := by
  obtain ⟨batch, updates, final, _, run, bounded, rfl, rfl⟩ := applyDelta_cases h
  rw [holds.requiredIds] at run
  have loop : LoopInvariant snapshot filters.deltaStart final :=
    applyUpdates_loopInvariant holds.coherent rfl run
  refine ⟨⟨loop.coherent, holds.requiredIds, bounded⟩, loop.advances, ?_, loop.report.changed⟩
  intro unset
  obtain ⟨predicates, revisions⟩ := loop.report.unchanged unset
  rw [predicates, revisions]
  rfl

theorem PushdownFilters.afterDelta_invariant (dec : Decoders Text Bytes) (bytes)
    : FilterInvariant snapshot (filters.afterDelta dec bytes)
      ∧ ∀ id, Advances (filters.registers id) ((filters.afterDelta dec bytes).registers id) := by
  unfold afterDelta
  split
  next next changed accepted =>
    obtain ⟨invariant, advances, _⟩ := applyDelta_invariant holds accepted
    exact ⟨invariant, advances⟩
  · exact ⟨holds, fun id => .refl _⟩

theorem PushdownFilters.afterDeltas_invariant (dec : Decoders Text Bytes) (deltas)
    : FilterInvariant snapshot (filters.afterDeltas dec deltas)
      ∧ ∀ id, Advances (filters.registers id) ((filters.afterDeltas dec deltas).registers id) := by
  induction deltas generalizing filters with
  | nil => exact ⟨holds, fun id => .refl _⟩
  | cons bytes deltas ih =>
    obtain ⟨invariant, advances⟩ := afterDelta_invariant holds dec bytes
    obtain ⟨invariant', advances'⟩ := ih invariant
    exact ⟨invariant', fun id => (advances id).trans (advances' id)⟩

/-- What the snapshot loop keeps: the revision map knows exactly the predicates so far. -/
structure SnapshotInvariant (state : SnapshotState) : Prop where
  distinct : (state.predicates.map Predicate.id).Nodup
  tracked : ∀ predicate ∈ state.predicates,
    predicate.revision = 0 ∧ state.revisions.lookup predicate.id = some 0
  keys : state.revisions.keys = (state.predicates.map Predicate.id).toFinset
  required : ∀ id ∈ state.requiredIds, ∃ predicate ∈ state.predicates,
    predicate.id = id ∧ predicate.mode = .required

variable {state : SnapshotState} {raw : Value}

omit holds

theorem snapshotPredicate_cases {next} (h : snapshotPredicate dec parser state raw = .ok next)
    : ∃ predicate, predicate.revision = 0
      ∧ predicate.id ∉ state.revisions.keys
      ∧ next.predicates = state.predicates ++ [predicate]
      ∧ next.revisions = state.revisions.insert predicate.id 0
      ∧ next.requiredIds = if predicate.mode = .required
          then insert predicate.id state.requiredIds else state.requiredIds := by
  simp only [snapshotPredicate, bind_eq_ok, rejectIf_eq_ok, pure_eq_ok] at h
  obtain ⟨wire, _, ⟨predicate, nodes⟩, _, _, zero, _, new, rfl⟩ := h
  refine ⟨predicate, not_not.mp zero, ?_, rfl, rfl, rfl⟩
  rw [Finmap.mem_keys, ← Finmap.lookup_isSome]
  exact new

theorem snapshotPredicate_invariant {next}
    (holds : SnapshotInvariant state) (h : snapshotPredicate dec parser state raw = .ok next)
    : SnapshotInvariant next := by
  obtain ⟨predicate, zero, new, predicates, revisions, requiredIds⟩ := snapshotPredicate_cases h
  have absent : predicate.id ∉ state.predicates.map Predicate.id := by
    rwa [holds.keys, List.mem_toFinset] at new
  constructor
  · rw [predicates, map_append, map_singleton]
    refine nodup_append.mpr ⟨holds.distinct, nodup_singleton _, ?_⟩
    intro id member other single eq
    rw [mem_singleton] at single
    exact absent (single ▸ eq ▸ member)
  · intro other member
    rw [predicates] at member
    rw [revisions]
    rcases mem_append.mp member with live | last
    · have ne : other.id ≠ predicate.id :=
        fun eq => absent (eq ▸ mem_map_of_mem live)
      rw [Finmap.lookup_insert_of_ne _ ne]
      exact holds.tracked other live
    · rw [mem_singleton.mp last]
      exact ⟨zero, Finmap.lookup_insert _⟩
  · ext id
    rw [revisions, predicates, Finmap.mem_keys, Finmap.mem_insert, ← Finmap.mem_keys, holds.keys]
    simp only [List.mem_toFinset, map_append, map_singleton, mem_append, mem_singleton]
    tauto
  · intro id member
    rw [requiredIds] at member
    rw [predicates]
    have earlier : id ∈ state.requiredIds → ∃ p ∈ state.predicates ++ [predicate],
        p.id = id ∧ p.mode = .required := by
      intro known
      obtain ⟨p, live, same, mode⟩ := holds.required id known
      exact ⟨p, mem_append_left _ live, same, mode⟩
    split at member
    next mode =>
      rcases Finset.mem_insert.mp member with rfl | known
      · exact ⟨predicate, by simp, rfl, mode⟩
      · exact earlier known
    · exact earlier member

/-- Each snapshot predicate that is read adds one to the list. -/
theorem snapshotPredicates_length {start final} {raws : List Value}
    (run : raws.foldlM (snapshotPredicate dec parser) start = .ok final)
    : final.predicates.length = start.predicates.length + raws.length := by
  induction raws generalizing start with
  | nil =>
    cases run
    rfl
  | cons raw raws ih =>
    obtain ⟨next, first, rest⟩ := bind_eq_ok.mp run
    obtain ⟨predicate, _, _, predicates, _⟩ := snapshotPredicate_cases first
    simp only [ih rest, predicates, length_append, length_cons, length_nil]
    omega

/-- An accepted snapshot satisfies the invariant relative to itself. -/
theorem parseSnapshotBatch_invariant {batch joinKeys outputSchema}
    (parsed : parseSnapshotBatch dec batch joinKeys outputSchema = .ok snapshot)
    : FilterInvariant snapshot snapshot := by
  simp only [parseSnapshotBatch, bind_eq_ok] at parsed
  obtain ⟨⟨context, document⟩, _, parsed⟩ := parsed
  cases document with
  | delta => cases parsed
  | snapshot encoding semantics raws =>
    simp only [bind_eq_ok, rejectIf_eq_ok, pure_eq_ok, not_lt] at parsed
    obtain ⟨_, _, _, small, _, _, final, run, rfl⟩ := parsed
    have loop : SnapshotInvariant final := by
      refine foldlM_invariant SnapshotInvariant (fun _ _ _ => snapshotPredicate_invariant) ?_ run
      constructor <;> simp
    have length := snapshotPredicates_length run
    constructor
    · exact {
        distinct := loop.distinct
        tracked := fun predicate live => by
          obtain ⟨zero, known⟩ := loop.tracked predicate live
          rw [known, zero]
        required := fun id member => by
          obtain ⟨predicate, live, same, mode⟩ := loop.required id member
          exact ⟨predicate, live, same, mode, (loop.tracked predicate live).1, live⟩
        added := fun predicate live => .inl live
      }
    · rfl
    · calc final.revisions.keys.card
          = (final.predicates.map Predicate.id).toFinset.card := by rw [loop.keys]
        _ ≤ (final.predicates.map Predicate.id).length := toFinset_card_le _
        _ = raws.length := by simp [length]
        _ ≤ maxPredicates := small
        _ ≤ maxIds := by decide

/-- The payload of an ID: its live predicate, or nothing. -/
def PushdownFilters.payload (filters : PushdownFilters) (id : String) : Option Predicate :=
  filters.predicates.find? fun predicate => predicate.id = id

theorem Coherent.payload_of_unknown
    (coherent : Coherent snapshot filters.predicates filters.revisions)
    (unknown : filters.revisions.lookup id = none)
    : filters.payload id = none := by
  refine find?_eq_none.mpr fun predicate live => ?_
  have known := coherent.tracked predicate live
  intro same
  rw [of_decide_eq_true same, unknown] at known
  cases known

/-- An advancing register takes no revision back. -/
theorem revision_of_advances (advances : Advances (filters.registers id) (next.registers id))
    (known : filters.revisions.lookup id = some revision)
    : ∃ later, next.revisions.lookup id = some later ∧ revision ≤ later := by
  simp only [registers, registersOf, known] at advances
  rcases advances with same | ⟨later, value, written, fresh⟩
  · obtain ⟨later, found, eq⟩ := map_eq_some_iff.mp same
    exact ⟨later, found, (congrArg Prod.fst eq).ge⟩
  · obtain ⟨found, lookup, eq⟩ := map_eq_some_iff.mp written
    cases eq
    exact ⟨later, lookup, (fresh_some.mp fresh).le⟩

/-- An advancing register changes its payload only with a higher revision. -/
theorem payload_of_advances (before : Coherent snapshot filters.predicates filters.revisions)
    (after : Coherent snapshot next.predicates next.revisions)
    (advances : Advances (filters.registers id) (next.registers id))
    (changed : next.payload id ≠ filters.payload id)
    : ∃ later, next.revisions.lookup id = some later
      ∧ ∀ revision ∈ filters.revisions.lookup id, revision < later := by
  rcases advances with same | ⟨later, value, written, fresh⟩
  · refine absurd ?_ changed
    simp only [registers, registersOf] at same
    cases known : filters.revisions.lookup id with
    | none =>
      rw [known, map_none, map_eq_none_iff] at same
      rw [before.payload_of_unknown known, after.payload_of_unknown same]
    | some revision =>
      rw [known, map_some] at same
      obtain ⟨later, _, eq⟩ := map_eq_some_iff.mp same
      exact congrArg Prod.snd eq
  · obtain ⟨found, lookup, eq⟩ := map_eq_some_iff.mp written
    cases eq
    refine ⟨later, lookup, fun revision known => ?_⟩
    exact fresh (revision, filters.payload id) (map_eq_some_iff.mpr ⟨_, known, rfl⟩)

/-- From an accepted snapshot, after any deltas: IDs are distinct and tracked at their
predicate's revision, required predicates are untouched, whatever was added is advisory, the
map is bounded, later deltas never take a revision back nor change a payload without a higher
one, and the next delta reports a change exactly when it makes one.
-/
theorem reachable_filter_states {batch : RecordBatch} {joinKeys : List RecordBatch}
    {outputSchema : Option Schema} {snapshot : PushdownFilters}
    (parsed : parseSnapshotBatch dec batch joinKeys outputSchema = .ok snapshot)
    (earlier later : List Bytes)
    : let state := snapshot.afterDeltas dec earlier
      let next := state.afterDeltas dec later
      (state.predicates.map Predicate.id).Nodup
      ∧ (∀ predicate ∈ state.predicates,
          state.revisions.lookup predicate.id = some predicate.revision)
      ∧ state.requiredIds = snapshot.requiredIds
      ∧ (∀ id ∈ state.requiredIds, ∃ predicate ∈ snapshot.predicates,
          predicate.id = id ∧ predicate.mode = .required ∧ predicate.revision = 0
            ∧ predicate ∈ state.predicates)
      ∧ (∀ predicate ∈ state.predicates,
          predicate ∈ snapshot.predicates ∨ predicate.mode = .advisory)
      ∧ (∀ id revision, state.revisions.lookup id = some revision
          → ∃ newer, next.revisions.lookup id = some newer ∧ revision ≤ newer)
      ∧ (∀ id, next.payload id ≠ state.payload id
          → ∃ newer, next.revisions.lookup id = some newer
            ∧ ∀ revision ∈ state.revisions.lookup id, revision < newer)
      ∧ state.revisions.keys.card ≤ maxIds
      ∧ ∀ bytes result changed, state.applyDelta dec bytes = .ok (result, changed)
          → (changed = true ↔ result ≠ state) := by
  intro state next
  have reached : FilterInvariant snapshot state :=
    (PushdownFilters.afterDeltas_invariant (parseSnapshotBatch_invariant parsed) dec earlier).1
  obtain ⟨after, advances⟩ := PushdownFilters.afterDeltas_invariant reached dec later
  have coherent := reached.coherent
  refine ⟨coherent.distinct, coherent.tracked, reached.requiredIds, ?_, coherent.added,
    fun id revision => revision_of_advances (advances id),
    fun id => payload_of_advances coherent after.coherent (advances id),
    reached.bounded, ?_⟩
  · rw [reached.requiredIds]
    exact coherent.required
  · intro bytes result changed accepted
    exact (PushdownFilters.applyDelta_invariant reached accepted).2.2.changed_iff

end

namespace Sample

/-- The bind schema of the sample scan: one Boolean column. -/
def outputSchema : Schema := { fields := [.mk "flag" .boolean true], metadata := [] }

def filterBatch (json : String) : RecordBatch where
  schema :=
    { fields := [.mk "filter_spec" .utf8 false]
      metadata := [("vgi_filter_encoding", "vgi.filters.v2"), ("vgi_filter_version", "2"),
        ("vgi_evaluation_context", "vgi.none.v1")] }
  columns := [{ dataType := .utf8, cells := [.string json] }]
  numRows := 1
  types := rfl
  lengths := by simp [ArrayRef.len]
  nonNull := by simp [ArrayRef.nullCount, Cell.isNull]

def columnRef (index : Nat) (name : String) : Value :=
  .object [("node", .string "column_ref"), ("column_index", .number (.posInt index)),
    ("column_name", .string name)]

def upsert (id : String) (revision : Nat) (expression : Value) : Value :=
  .object [("operation", .string "upsert"), ("id", .string id),
    ("revision", .number (.posInt revision)), ("mode", .string "advisory"),
    ("source", .string "query"), ("expression", expression)]

def remove (id : String) (revision : Nat) : Value :=
  .object [("operation", .string "remove"), ("id", .string id),
    ("revision", .number (.posInt revision))]

def delta (updates : List Value) : Document :=
  .delta "vgi.filters.v2" "vgi.duckdb.standard.v1" updates

/-- The JSON reader of expressions, for the one node kind the sample uses. -/
def columnRefFromValue (value : Value) : Except String WireExpr :=
  match (value.get "node").bind Value.asStr, (value.get "column_index").bind Value.asU64,
    (value.get "column_name").bind Value.asStr with
  | some "column_ref", some index, some name => .ok (.columnRef index name)
  | _, _, _ => .error "unknown variant"

/-- Decoders for a scan whose JSON texts are known: encoded bytes are the batches themselves.
-/
def decoders (documents : List (String × Document)) : Decoders RecordBatch RecordBatch where
  b64Decode := some
  len := fun _ => 1024
  readSchema := fun batch => .ok batch.schema
  readBatch := .ok
  documentFromStr := fun raw => okOr "expected value" (documents.lookup raw)
  wireExprFromValue := columnRefFromValue

/-- The JSON text of a document with these items under its last key. -/
def documentText (kind key items : String) : String :=
  "\x7b\"kind\":\"" ++ kind ++ "\",\"encoding\":\"vgi.filters.v2\","
    ++ "\"semantics\":\"vgi.duckdb.standard.v1\",\"" ++ key ++ "\":[" ++ items ++ "]\x7d"

def columnRefText (index : Nat) : String :=
  "\x7b\"node\":\"column_ref\",\"column_index\":" ++ toString index
    ++ ",\"column_name\":\"flag\"\x7d"

def upsertText (id : String) (revision index : Nat) : String :=
  "\x7b\"operation\":\"upsert\",\"id\":\"" ++ id ++ "\",\"revision\":" ++ toString revision
    ++ ",\"mode\":\"advisory\",\"source\":\"query\",\"expression\":" ++ columnRefText index
    ++ "\x7d"

def snapshotText : String :=
  documentText "snapshot" "predicates"
    ("\x7b\"id\":\"q\",\"revision\":0,\"mode\":\"required\",\"source\":\"query\","
      ++ "\"expression\":" ++ columnRefText 0 ++ "\x7d")

def snapshotDocument : Document :=
  .snapshot "vgi.filters.v2" "vgi.duckdb.standard.v1"
    [.object [("id", .string "q"), ("revision", .number (.posInt 0)),
      ("mode", .string "required"), ("source", .string "query"),
      ("expression", columnRef 0 "flag")]]

/-- A delta that adds the predicate `a` at revision 5. -/
def addText : String := documentText "delta" "updates" (upsertText "a" 5 0)

def addDocument : Document := delta [upsert "a" 5 (columnRef 0 "flag")]

end Sample

/-- The sample snapshot is accepted and its delta adds an advisory predicate beside the
required one.
-/
theorem reachable_filter_states_sample
    : let dec := Sample.decoders [(Sample.snapshotText, Sample.snapshotDocument),
        (Sample.addText, Sample.addDocument)]
      ∃ snapshot, parseSnapshotBatch dec (Sample.filterBatch Sample.snapshotText) []
          (some Sample.outputSchema) = .ok snapshot
        ∧ let state := snapshot.afterDeltas dec [Sample.filterBatch Sample.addText]
          state.predicateOrder = ["q", "a"] ∧ state.predicateOrder.Nodup
          ∧ state.revisions.keys.card ≤ maxIds := by
  intro dec
  have accepted : ((parseSnapshotBatch dec (Sample.filterBatch Sample.snapshotText) []
      (some Sample.outputSchema)).map fun snapshot =>
        (snapshot.afterDeltas dec [Sample.filterBatch Sample.addText]).predicateOrder)
      = .ok ["q", "a"] := by
    decide +kernel
  obtain ⟨snapshot, parsed, order⟩ := map_eq_ok.mp accepted
  obtain ⟨distinct, _, _, _, _, _, _, bounded, _⟩ :=
    reachable_filter_states parsed [Sample.filterBatch Sample.addText] []
  exact ⟨snapshot, parsed, order, distinct, bounded⟩

end Vgi.Pushdown
