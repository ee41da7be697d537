import Vgi.Pushdown.DeltaReplay

/-! The compacted history against the full log of deltas. The history keeps the first carrier
of every live revision, so replaying it on the snapshot rebuilds the live state in every run
whose accepted deltas stand on their own.
-/

namespace Vgi.Pushdown

open Arrow Lib Lib.LastWriter List DeltaHistory Sample

variable {Text Bytes : Type} {dec : Decoders Text Bytes}

variable {writes : List FilterWrite} {snapshot : PushdownFilters}

/-- The revisions a delta of objects shows are those of its writes. -/
theorem mapM_revisions {parser updates nodes}
    (objects : updates.all Value.isObject = true)
    (read : writesOf dec parser updates nodes = .ok writes)
    : (updates.mapM fun update =>
        match (update.get "id").bind Value.asStr, (update.get "revision").bind Value.asU64 with
        | some id, some revision => (.ok (id, revision) : Result (String × Nat))
        | _, _ => .error (valueError "delta update is missing its id or revision"))
      = .ok (writes.map fun w => (w.key, w.revision)) := by
  induction updates generalizing writes nodes with
  | nil =>
    cases read
    rfl
  | cons raw updates ih =>
    simp only [writesOf, bind_eq_ok, pure_eq_ok] at read
    obtain ⟨⟨w, nodes'⟩, first, later, rest, rfl⟩ := read
    rw [all_cons, Bool.and_eq_true] at objects
    obtain ⟨update, _, decoded, _, key, revision, _⟩ := writeOf_eq_ok first
    obtain ⟨id, rev⟩ := WireUpdate.get_of_isObject dec objects.1 decoded
    rw [mapM_cons, ih objects.2 rest, id, rev, map_cons, key, revision]
    rfl

theorem Applicable.deltaRevisionsB64 {encoded} (applicable : Applicable dec snapshot encoded writes)
    : deltaRevisionsB64 dec encoded = .ok (writes.map fun w => (w.key, w.revision)) := by
  obtain ⟨bytes, batch, updates, decoded, read, objects, readWrites, _⟩ := applicable.decodes
  simp only [deltaUpdates, bind_eq_ok] at read
  obtain ⟨_, _, schema, _, _, _, batch', readBatch, ⟨context, document⟩, validated, _, _, read⟩ :=
    read
  cases document with
  | snapshot => cases read
  | delta encoding semantics found =>
    simp only [bind_eq_ok, pure_eq_ok, Prod.mk.injEq] at read
    obtain ⟨_, _, rfl, rfl⟩ := read
    simp only [Pushdown.deltaRevisionsB64, bind_eq_ok, okOr_eq_ok]
    exact ⟨bytes, decoded, batch', readBatch, _, validated, mapM_revisions objects readWrites⟩

theorem claimPairs_eq (pairs needed wanted)
    : claimPairs pairs needed wanted
      = (needed || pairs.any (· ∈ wanted), wanted \ pairs.toFinset) := by
  induction pairs generalizing needed wanted with
  | nil => simp [claimPairs]
  | cons pair pairs ih =>
    rw [claimPairs, ih]
    refine Prod.ext ?_ ?_
    · rw [Bool.eq_iff_iff]
      simp only [Bool.or_eq_true, decide_eq_true_eq, any_eq_true, Finset.mem_erase,
        mem_cons, exists_eq_or_imp]
      constructor
      · rintro ((h | h) | ⟨other, member, _, h⟩)
        · exact .inl h
        · exact .inr (.inl h)
        · exact .inr (.inr ⟨other, member, h⟩)
      · rintro (h | h | ⟨other, member, h⟩)
        · exact .inl (.inl h)
        · exact .inl (.inr h)
        · by_cases same : other = pair
          · exact .inl (.inr (same ▸ h))
          · exact .inr ⟨other, member, same, h⟩
    · ext other
      simp only [Finset.mem_sdiff, Finset.mem_erase, mem_toFinset, mem_cons]
      tauto

/-- The compaction loop keeps the first carrier of every wanted pair. -/
theorem compact_eq {deltas pairs}
    (reads : ∀ delta ∈ deltas, deltaRevisionsB64 dec delta = .ok (pairs delta)) (wanted)
    : compact dec deltas wanted = .ok (keepFirst pairs wanted deltas) := by
  induction deltas generalizing wanted with
  | nil => rfl
  | cons delta deltas ih =>
    rw [compact, reads delta (by simp), ok_bind, claimPairs_eq, Bool.false_or]
    simp only [ih fun other member => reads other (by simp [member])]
    rfl

theorem mem_wantedPairs {revisions id revision}
    : (id, revision) ∈ wantedPairs revisions ↔ revisions.lookup id = some revision := by
  simp only [wantedPairs, Finset.mem_image, Prod.mk.injEq]
  constructor
  · rintro ⟨key, known, rfl, rfl⟩
    obtain ⟨found, lookup⟩ := Finmap.mem_iff.mp known
    simp [lookup]
  · intro lookup
    exact ⟨id, Finmap.mem_of_lookup_eq_some lookup, rfl, by simp [lookup]⟩

def carried (dec : Decoders Text Bytes) (snapshot : PushdownFilters) (encoded : Text)
    : List FilterWrite :=
  match snapshot.deltaWrites dec encoded with
  | .ok writes => writes
  | .error _ => []

theorem Applicable.carried_eq {encoded} (applicable : Applicable dec snapshot encoded writes)
    : carried dec snapshot encoded = writes := by
  obtain ⟨bytes, batch, updates, decoded, read, _, readWrites, _⟩ := applicable.decodes
  have found : snapshot.deltaWrites dec encoded = .ok writes := by
    simp only [PushdownFilters.deltaWrites, bind_eq_ok, okOr_eq_ok]
    exact ⟨bytes, decoded, (batch, updates), read, readWrites⟩
  rw [carried, found]

/-- What happens between two looks at a stream: a delta arrives, or the history is carried
by a continuation token and rebuilt from its parts.
-/
inductive Turn (Text : Type) where
  | delta (encoded : Text)
  | resume

structure Scan (Text : Type) where
  history : DeltaHistory Text
  filters : PushdownFilters

namespace Scan

def start (snapshot : PushdownFilters) : Scan Text := { history := .empty, filters := snapshot }

def step (dec : Decoders Text Bytes) (scan : Scan Text) : Turn Text → Scan Text
  | .delta encoded =>
    let recorded := scan.history.record dec scan.filters encoded
    { history := recorded.2.1, filters := recorded.2.2 }
  | .resume => { scan with history := .fromParts scan.history.deltas scan.history.order }

def run (dec : Decoders Text Bytes) (scan : Scan Text) (turns : List (Turn Text))
    : Scan Text :=
  turns.foldl (step dec) scan

/-- Every delta of the run that is accepted where it arrives stands on its own. -/
def selfContained (dec : Decoders Text Bytes) : Scan Text → List (Turn Text) → Bool
  | _, [] => true
  | scan, .delta encoded :: turns =>
    (!(scan.filters.applyDeltaB64 dec encoded).isOk
      || scan.filters.selfContained dec encoded)
    && selfContained dec (scan.step dec (.delta encoded)) turns
  | scan, .resume :: turns => selfContained dec (scan.step dec .resume) turns

/-- The history tracks the live state: the deltas it keeps write, over the snapshot, exactly
what the live state holds.
-/
structure Tracks (dec : Decoders Text Bytes) (snapshot : PushdownFilters)
    (scan : Scan Text) : Prop where
  same : SameScan snapshot scan.filters
  holds : FilterInvariant snapshot scan.filters
  applicable : ∀ delta ∈ scan.history.deltas,
    Applicable dec snapshot delta (carried dec snapshot delta)
  registers : writeAll snapshot.registers
      (scan.history.deltas.flatMap (carried dec snapshot))
    = scan.filters.registers
  untouched : scan.history.deltas = [] → scan.filters = snapshot
  order : scan.history.deltas ≠ [] → scan.history.order = scan.filters.predicateOrder

variable {scan : Scan Text}

theorem tracks_start (holds : FilterInvariant snapshot snapshot)
    : Tracks dec snapshot (start snapshot) where
  same := .refl snapshot
  holds := holds
  applicable := by simp [start, empty]
  registers := rfl
  untouched := fun _ => rfl
  order := fun touched => absurd rfl touched

variable (tracks : Tracks dec snapshot scan)

include tracks

/-- Recording an accepted delta that changed the state keeps the history in step with it. -/
theorem Tracks.recorded {next encoded} (contained : scan.filters.selfContained dec encoded = true)
    (accepted : scan.filters.applyDeltaB64 dec encoded = .ok (next, true))
    : ∃ kept, compact dec (scan.history.deltas ++ [encoded])
        (wantedPairs next.revisions) = .ok kept
      ∧ Tracks dec snapshot
          { history := { deltas := kept, order := next.predicateOrder }, filters := next } := by
  obtain ⟨writes, applies, registers, sameNext⟩ := tracks.same.applicable contained accepted
  obtain rfl := applies.carried_eq
  obtain ⟨holdsNext, report⟩ := tracks.holds.applyDeltaB64 accepted
  have applicable : ∀ delta ∈ scan.history.deltas ++ [encoded],
      Applicable dec snapshot delta (carried dec snapshot delta) :=
    forall_mem_append.mpr ⟨tracks.applicable, forall_mem_singleton.mpr applies⟩
  have full : writeAll snapshot.registers
      ((scan.history.deltas ++ [encoded]).flatMap (carried dec snapshot))
      = next.registers := by
    rw [flatMap_append, writeAll_append, tracks.registers, flatMap_singleton, registers]
  have wanted : ∀ id revision value, writeAll snapshot.registers
      ((scan.history.deltas ++ [encoded]).flatMap (carried dec snapshot)) id
        = some (revision, value)
      → (id, revision) ∈ wantedPairs next.revisions := by
    intro id revision value held
    rw [full] at held
    obtain ⟨found, lookup, eq⟩ := Option.map_eq_some_iff.mp held
    cases eq
    exact mem_wantedPairs.mpr lookup
  have compacted := writeAll_keepFirst wanted
  have sublist := keepFirst_sublist
    (fun delta => (carried dec snapshot delta).map fun w => (w.key, w.revision))
    (wantedPairs next.revisions) (scan.history.deltas ++ [encoded])
  refine ⟨_, compact_eq (fun delta member => (applicable delta member).deltaRevisionsB64) _, ?_⟩
  generalize keepFirst (fun delta => (carried dec snapshot delta).map fun w =>
    (w.key, w.revision)) (wantedPairs next.revisions)
    (scan.history.deltas ++ [encoded]) = kept at compacted sublist ⊢
  rw [full] at compacted
  exact {
    same := sameNext
    holds := holdsNext
    applicable := fun delta member => applicable delta (sublist.subset member)
    registers := compacted
    untouched := by
      -- The change is past the snapshot's revision, so something must have been kept.
      rintro rfl
      obtain ⟨id, revision, value, held, fresh⟩ := report.changed rfl
      rw [← tracks.registers] at fresh
      have past : Fresh (snapshot.registers id) revision := (advances_writeAll _ _ id).fresh fresh
      rw [show snapshot.registers = next.registers from compacted] at past
      exact absurd past (not_fresh_of_held held)
    order := fun _ => rfl
  }

theorem Tracks.step {encoded} (contained : (!(scan.filters.applyDeltaB64 dec encoded).isOk
      || scan.filters.selfContained dec encoded) = true)
    : Tracks dec snapshot (scan.step dec (.delta encoded)) := by
  unfold Scan.step
  cases accepted : scan.filters.applyDeltaB64 dec encoded with
  | error error =>
    simp only [record, accepted]
    exact tracks
  | ok result =>
    obtain ⟨next, changed⟩ := result
    cases changed with
    | false =>
      obtain rfl := (tracks.holds.applyDeltaB64 accepted).2.unchanged rfl
      simp only [record, accepted]
      exact tracks
    | true =>
      rw [accepted] at contained
      obtain ⟨kept, compacted, recorded⟩ := tracks.recorded contained accepted
      simp only [record, accepted, compacted]
      exact recorded

theorem Tracks.run {turns} (contained : scan.selfContained dec turns = true)
    : Tracks dec snapshot (scan.run dec turns) := by
  induction turns generalizing scan with
  | nil => exact tracks
  | cons turn turns ih =>
    cases turn with
    | delta encoded =>
      simp only [selfContained, Bool.and_eq_true] at contained
      exact ih (tracks.step contained.1) contained.2
    | resume => exact ih tracks contained

/-- A history that tracks the live state replays to it. -/
theorem Tracks.replay (holds : FilterInvariant snapshot snapshot)
    : scan.history.replay dec snapshot = .ok scan.filters := by
  unfold DeltaHistory.replay
  split
  next empty => rw [tracks.untouched (isEmpty_iff.mp empty)]
  next touched =>
    have within : ∀ id, writeAll snapshot.registers
        (scan.history.deltas.flatMap (carried dec snapshot)) id ≠ none
        → id ∈ scan.filters.revisions.keys := by
      intro id held
      rw [tracks.registers] at held
      rw [Finmap.mem_keys, ← Finmap.lookup_isSome]
      simpa [PushdownFilters.registers, registersOf, Option.isSome_iff_ne_none] using held
    obtain ⟨replayed, run, registers, same, holdsReplayed⟩ :=
      replay_deltas tracks.applicable (.refl snapshot) holds within tracks.holds.bounded
    rw [tracks.registers] at registers
    refine bind_eq_ok.mpr ⟨replayed, run, ?_⟩
    rw [tracks.order fun empty => touched (by simp [empty])]
    exact restorePredicateOrder_eq same tracks.same holdsReplayed tracks.holds registers

end Scan

/-- Whatever deltas a stream has seen, and however often its history was carried by a token,
replaying the history on the snapshot gives the live filters, as long as every accepted delta
stands on its own.
-/
theorem replay_rebuilds_live {batch : RecordBatch} {joinKeys : List RecordBatch}
    {outputSchema : Option Schema} {snapshot : PushdownFilters}
    (parsed : parseSnapshotBatch dec batch joinKeys outputSchema = .ok snapshot)
    (turns : List (Turn Text))
    (contained : (Scan.start snapshot).selfContained dec turns = true)
    : let scan := (Scan.start snapshot).run dec turns
      scan.history.replay dec snapshot = .ok scan.filters := by
  have holds := parseSnapshotBatch_invariant parsed
  exact ((Scan.tracks_start holds).run contained).replay holds

namespace Sample

/-- A delta with a stale update of `a`, whose column does not exist, beside a new `b`. -/
def mixedText : String :=
  documentText "delta" "updates" (upsertText "a" 3 9 ++ "," ++ upsertText "b" 1 0)

def mixedDocument : Document :=
  delta [upsert "a" 3 (columnRef 9 "flag"), upsert "b" 1 (columnRef 0 "flag")]

def removeText : String :=
  documentText "delta" "updates" "\x7b\"operation\":\"remove\",\"id\":\"a\",\"revision\":6\x7d"

def removeDocument : Document := delta [remove "a" 6]

/-- The same removal with its update written as an array. -/
def arrayText : String := documentText "delta" "updates" "[\"remove\",\"a\",6]"

def arrayDocument : Document := delta [.array [.string "remove", .string "a", .number (.posInt 6)]]

def streamDecoders : Decoders RecordBatch RecordBatch :=
  decoders [(snapshotText, snapshotDocument), (addText, addDocument),
    (mixedText, mixedDocument), (removeText, removeDocument), (arrayText, arrayDocument)]

def readSnapshot : Result PushdownFilters :=
  parseSnapshotBatch streamDecoders (filterBatch snapshotText) [] (some outputSchema)

/-- The sample snapshot's stream after these deltas. -/
def stream (snapshot : PushdownFilters) (texts : List String) : Scan RecordBatch :=
  (Scan.start snapshot).run streamDecoders (texts.map fun text => .delta (filterBatch text))

end Sample

/-- A stream that adds `a`, goes through a token, and removes `a` again. -/
theorem replay_rebuilds_live_sample : ∃ snapshot, Sample.readSnapshot = .ok snapshot
      ∧ let turns := [.delta (Sample.filterBatch Sample.addText), .resume,
          .delta (Sample.filterBatch Sample.removeText)]
        (Scan.start snapshot).selfContained Sample.streamDecoders turns = true
        ∧ let scan := (Scan.start snapshot).run Sample.streamDecoders turns
          scan.filters.revisions.lookup "a" = some 6
          ∧ scan.history.replay Sample.streamDecoders snapshot = .ok scan.filters := by
  have evaluated : (Sample.readSnapshot.map fun snapshot =>
      let turns := [.delta (Sample.filterBatch Sample.addText), .resume,
        .delta (Sample.filterBatch Sample.removeText)]
      ((Scan.start snapshot).selfContained Sample.streamDecoders turns,
        ((Scan.start snapshot).run Sample.streamDecoders turns).filters.revisions.lookup "a"))
      = .ok (true, some 6) := by
    decide +kernel
  obtain ⟨snapshot, parsed, result⟩ := map_eq_ok.mp evaluated
  obtain ⟨contained, lookup⟩ := Prod.mk.inj result
  exact ⟨snapshot, parsed, contained, lookup, replay_rebuilds_live parsed _ contained⟩

/-- Without the condition the history does not refine the log. In the first stream the stale
update of `a` was skipped unparsed; once the delta that made it stale is compacted away, its
replay is rejected. In the second the update is an array, which the delta loop reads and the
bookkeeping does not, so the recorded deltas are lost.
-/
theorem replay_misses_live : ∃ snapshot, Sample.readSnapshot = .ok snapshot
      ∧ (let scan := Sample.stream snapshot
          [Sample.addText, Sample.mixedText, Sample.removeText]
        scan.filters.predicateOrder = ["q", "b"]
        ∧ (scan.history.replay Sample.streamDecoders snapshot).isOk = false)
      ∧ (let scan := Sample.stream snapshot [Sample.addText, Sample.arrayText]
        scan.filters.revisions.lookup "a" = some 6
        ∧ ((scan.history.replay Sample.streamDecoders snapshot).map fun replayed =>
            replayed.revisions.lookup "a") = .ok none) := by
  have evaluated : (Sample.readSnapshot.map fun snapshot =>
      let first := Sample.stream snapshot [Sample.addText, Sample.mixedText, Sample.removeText]
      let second := Sample.stream snapshot [Sample.addText, Sample.arrayText]
      (first.filters.predicateOrder, (first.history.replay Sample.streamDecoders snapshot).isOk,
        second.filters.revisions.lookup "a",
        (second.history.replay Sample.streamDecoders snapshot).map fun replayed =>
          replayed.revisions.lookup "a"))
      = .ok (["q", "b"], false, some 6, .ok none) := by
    decide +kernel
  obtain ⟨snapshot, parsed, result⟩ := map_eq_ok.mp evaluated
  obtain ⟨order, fails, lookup, lost⟩ : _ ∧ _ ∧ _ ∧ _ := by
    simpa only [Prod.mk.injEq] using result
  exact ⟨snapshot, parsed, ⟨order, fails⟩, lookup, lost⟩

end Vgi.Pushdown
