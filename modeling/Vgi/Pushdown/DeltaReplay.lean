import Vgi.Pushdown.Invariants

/-! Deltas that can be applied on their own. Such a delta is a fixed list of writes that every
state of the scan accepts, and states that hold the same registers are equal once their
predicate order is restored.
-/

namespace Vgi.Pushdown

open Arrow Lib Lib.LastWriter PushdownFilters List

variable {Text Bytes : Type} {dec : Decoders Text Bytes}

abbrev FilterWrite := Write String (Option Predicate)

section

variable (dec)

/-- Read one update as a write, stale or not. -/
def writeOf (parser : Parser) (raw : Value) (nodes : Nat) : Result (FilterWrite × Nat) := do
  let update ← (WireUpdate.fromValue dec raw).mapError jsonError
  let operation ← deltaOperation update
  match operation with
  | .remove => pure (⟨update.id, update.revision, none⟩, nodes)
  | .upsert wire => do
    let (predicate, nodes) ← parser.predicate wire true nodes
    pure (⟨update.id, update.revision, some predicate⟩, nodes)

/-- Read all updates of a delta as writes, with one node count for the document. -/
def writesOf (parser : Parser) : List Value → (nodes : Nat) → Result (List FilterWrite)
  | [], _ => pure []
  | raw :: rest, nodes => do
    let (write, nodes) ← writeOf dec parser raw nodes
    let writes ← writesOf parser rest nodes
    pure (write :: writes)

/-- The writes of an encoded delta, in the context of a scan. -/
def PushdownFilters.deltaWrites (filters : PushdownFilters) (encoded : Text)
    : Result (List FilterWrite) := do
  let bytes ← okOr (valueError "invalid base64 filter delta") (dec.b64Decode encoded)
  let (batch, updates) ← deltaUpdates dec filters.context bytes
  writesOf dec (filters.deltaParser batch) updates 0

end

variable {parser : Parser} {nodes : Nat} {w : FilterWrite} {requiredIds known : Finset String}
  {state : DeltaState} {writes : List FilterWrite} {snapshot filters next other : PushdownFilters}
  {encoded : Text} {predicates : List Predicate}

/-- Reading a write: the update, its operation, and what the operation writes. -/
theorem writeOf_eq_ok {raw nodes'} (read : writeOf dec parser raw nodes = .ok (w, nodes'))
    : ∃ update operation, WireUpdate.fromValue dec raw = .ok update
      ∧ deltaOperation update = .ok operation
      ∧ w.key = update.id ∧ w.revision = update.revision ∧ nodes ≤ nodes'
      ∧ match operation with
        | .remove => w.value = none
        | .upsert wire => ∃ predicate, w.value = some predicate
            ∧ parser.predicate wire true nodes = .ok (predicate, nodes') := by
  simp only [writeOf, bind_eq_ok, mapError_eq_ok] at read
  obtain ⟨update, decoded, operation, checked, read⟩ := read
  refine ⟨update, operation, decoded, checked, ?_⟩
  cases operation with
  | remove =>
    cases read
    exact ⟨rfl, rfl, le_rfl, rfl⟩
  | upsert wire =>
    simp only [bind_eq_ok] at read
    obtain ⟨⟨predicate, count⟩, parsed, rfl, rfl⟩ := read
    obtain ⟨le, _⟩ := parser.predicate_budgeted wire true _ _ _ parsed
    exact ⟨rfl, rfl, le, predicate, rfl, parsed⟩

/-- An update applies in the same way to every state that has seen the same IDs and has no
more nodes on its count, if its write can be read.
-/
theorem applyUpdate_replay {next other raw nodes'}
    (accepted : applyUpdate dec parser requiredIds state raw = .ok next)
    (read : writeOf dec parser raw nodes = .ok (w, nodes')) (seen : other.seen = state.seen)
    (le : other.nodes ≤ nodes)
    : ∃ other', applyUpdate dec parser requiredIds other raw = .ok other'
      ∧ other'.seen = next.seen ∧ other'.nodes ≤ nodes'
      ∧ other'.registers = write other.registers w := by
  obtain ⟨update, operation, decoded, valid, unseen, optional, checked, effect⟩ :=
    applyUpdate_eq_ok.mp accepted
  obtain ⟨update', operation', decoded', checked', key, revision, grows, writes⟩ :=
    writeOf_eq_ok read
  obtain rfl : update' = update := Except.ok.inj (decoded'.symm.trans decoded)
  obtain rfl : operation' = operation := Except.ok.inj (checked'.symm.trans checked)
  have seenNext : next.seen = insert update'.id state.seen := by cases effect <;> rfl
  have accepts : ∀ {other'}, UpdateEffect parser other update' operation' other'
      → applyUpdate dec parser requiredIds other raw = .ok other' := fun effect =>
    applyUpdate_eq_ok.mpr
      ⟨update', operation', decoded, valid, seen ▸ unseen, optional, checked, effect⟩
  obtain ⟨wKey, wRevision, wValue⟩ := w
  obtain ⟨rfl, rfl⟩ : wKey = update'.id ∧ wRevision = update'.revision := ⟨key, revision⟩
  by_cases stale : isStale other.revisions update' = true
  · refine ⟨_, accepts (.stale stale), ?_, le.trans grows, ?_⟩
    · rw [seenNext, seen]
    · exact (write_of_stale (isStale_iff.mp stale)).symm
  · have fresh : isStale other.revisions update' = false := by simpa using stale
    cases operation' with
    | remove =>
      obtain rfl : wValue = none := writes
      refine ⟨_, accepts (.removed fresh), ?_, le.trans grows, ?_⟩
      · rw [seenNext, seen]
      · exact registersOf_remove fresh
    | upsert wire =>
      obtain ⟨predicate, rfl, parsed⟩ := writes
      -- From a smaller node count the parse succeeds again, with the same predicate.
      obtain ⟨_, replay⟩ := parser.predicate_budgeted wire true _ _ _ parsed
      obtain ⟨less, small, parsed'⟩ := replay other.nodes le
      obtain ⟨id, rev, advisory⟩ := parser.predicate_spec parsed'
      obtain ⟨wireId, wireRevision⟩ := deltaOperation_upsert checked
      refine ⟨_, accepts (.upserted fresh parsed' (id.trans wireId)
        (rev.trans wireRevision) (advisory rfl)), ?_, small, ?_⟩
      · rw [seenNext, seen]
      · exact registersOf_upsert fresh (id.trans wireId)

theorem applyUpdates_replay {final} (other) {raws}
    (accepted : raws.foldlM (applyUpdate dec parser requiredIds) state = .ok final)
    (read : writesOf dec parser raws nodes = .ok writes) (seen : other.seen = state.seen)
    (le : other.nodes ≤ nodes)
    : ∃ other', raws.foldlM (applyUpdate dec parser requiredIds) other = .ok other'
      ∧ other'.registers = writeAll other.registers writes := by
  induction raws generalizing state other writes nodes with
  | nil =>
    cases read
    exact ⟨other, rfl, rfl⟩
  | cons raw raws ih =>
    obtain ⟨next, first, rest⟩ := bind_eq_ok.mp accepted
    simp only [writesOf, bind_eq_ok, pure_eq_ok] at read
    obtain ⟨⟨w, nodes'⟩, readFirst, later, readRest, rfl⟩ := read
    obtain ⟨middle, firstOther, seenMiddle, leMiddle, written⟩ :=
      applyUpdate_replay first readFirst seen le
    obtain ⟨other', restOther, registers⟩ := ih middle rest readRest seenMiddle leMiddle
    refine ⟨other', bind_eq_ok.mpr ⟨middle, firstOther, restOther⟩, ?_⟩
    rw [registers, written, writeAll_cons]

/-- Two states of one scan differ in their predicates and revisions only. -/
structure SameScan (snapshot filters : PushdownFilters) : Prop where
  requiredIds : filters.requiredIds = snapshot.requiredIds
  context : filters.context = snapshot.context
  joinKeys : filters.joinKeys = snapshot.joinKeys
  outputSchema : filters.outputSchema = snapshot.outputSchema

theorem SameScan.refl (snapshot) : SameScan snapshot snapshot := ⟨rfl, rfl, rfl, rfl⟩

variable (same : SameScan snapshot filters)

include same

theorem SameScan.deltaParser (batch) : filters.deltaParser batch = snapshot.deltaParser batch := by
  rw [PushdownFilters.deltaParser, PushdownFilters.deltaParser, same.joinKeys, same.outputSchema]

/-- The delta stands on its own: each update is an object, and every upsert parses, those
that are stale now included, with one node count for the document.
-/
def PushdownFilters.selfContained (dec : Decoders Text Bytes) (filters : PushdownFilters)
    (encoded : Text) : Bool :=
  match (dec.b64Decode encoded).map (deltaUpdates dec filters.context) with
  | some (.ok (batch, updates)) =>
    updates.all Value.isObject && (writesOf dec (filters.deltaParser batch) updates 0).isOk
  | _ => false

/-- A delta that some state of the scan accepted, together with its writes. -/
structure Applicable (dec : Decoders Text Bytes) (snapshot : PushdownFilters)
    (encoded : Text) (writes : List FilterWrite) : Prop where
  decodes : ∃ bytes batch updates, dec.b64Decode encoded = some bytes
    ∧ deltaUpdates dec snapshot.context bytes = .ok (batch, updates)
    ∧ updates.all Value.isObject = true
    ∧ writesOf dec (snapshot.deltaParser batch) updates 0 = .ok writes
    ∧ ∃ state final, state.seen = ∅
      ∧ updates.foldlM (applyUpdate dec (snapshot.deltaParser batch) snapshot.requiredIds)
          state = .ok final

/-- An accepted self-contained delta is applicable, and its effect is its writes. -/
theorem SameScan.applicable {changed} (contained : filters.selfContained dec encoded = true)
    (accepted : filters.applyDeltaB64 dec encoded = .ok (next, changed))
    : ∃ writes, Applicable dec snapshot encoded writes
      ∧ next.registers = writeAll filters.registers writes
      ∧ SameScan snapshot next := by
  obtain ⟨bytes, decoded, accepted⟩ := bind_eq_ok.mp accepted
  rw [okOr_eq_ok] at decoded
  obtain ⟨batch, updates, final, read, run, _, rfl, rfl⟩ := applyDelta_cases accepted
  simp only [selfContained, decoded, Option.map_some, read, Bool.and_eq_true] at contained
  obtain ⟨objects, parses⟩ := contained
  obtain ⟨writes, readWrites⟩ :
      ∃ writes, writesOf dec (filters.deltaParser batch) updates 0 = .ok writes := by
    cases parsed : writesOf dec (filters.deltaParser batch) updates 0 with
    | ok writes => exact ⟨writes, rfl⟩
    | error e => rw [parsed] at parses; cases parses
  obtain ⟨final', run', registers⟩ :=
    applyUpdates_replay filters.deltaStart run readWrites rfl le_rfl
  obtain rfl : final' = final := Except.ok.inj (run'.symm.trans run)
  refine ⟨writes, ⟨bytes, batch, updates, decoded, ?_, objects, ?_, filters.deltaStart, final',
    rfl, ?_⟩, registers, { same with }⟩
  · rw [← same.context, read]
  · rw [← same.deltaParser, readWrites]
  · rw [← same.deltaParser, ← same.requiredIds, run]

omit same

/-- An applicable delta is accepted by every state of the scan whose IDs stay within the
limit, with the same writes.
-/
theorem Applicable.accepted (applicable : Applicable dec snapshot encoded writes)
    (same : SameScan snapshot filters)
    (within : ∀ id, writeAll filters.registers writes id ≠ none → id ∈ known)
    (bounded : known.card ≤ maxIds)
    : ∃ next changed, filters.applyDeltaB64 dec encoded = .ok (next, changed)
      ∧ next.registers = writeAll filters.registers writes
      ∧ SameScan snapshot next := by
  obtain ⟨bytes, batch, updates, decoded, read, _, readWrites, state, final, unseen, run⟩ :=
    applicable.decodes
  obtain ⟨next, runNext, registers⟩ :=
    applyUpdates_replay filters.deltaStart run readWrites unseen.symm le_rfl
  have small : next.revisions.keys.card ≤ maxIds := by
    refine (Finset.card_le_card fun id member => within id ?_).trans bounded
    obtain ⟨revision, lookup⟩ := Finmap.mem_iff.mp (Finmap.mem_keys.mp member)
    have held : next.registers id ≠ none := by
      simp [DeltaState.registers, registersOf, lookup]
    rwa [registers] at held
  refine ⟨{ filters with predicates := next.predicates, revisions := next.revisions },
    next.changed, ?_, registers, { same with }⟩
  simp only [applyDeltaB64, applyDelta, bind_eq_ok, okOr_eq_ok, rejectIf_eq_ok, not_lt]
  refine ⟨bytes, decoded, (batch, updates), ?_, next, ?_, (), small, rfl⟩
  · rw [same.context, read]
  · rw [same.deltaParser, same.requiredIds, runNext]

theorem FilterInvariant.applyDeltaB64 {changed} (holds : FilterInvariant snapshot filters)
    (accepted : filters.applyDeltaB64 dec encoded = .ok (next, changed))
    : FilterInvariant snapshot next ∧ DeltaReport filters next changed := by
  obtain ⟨bytes, _, accepted⟩ := bind_eq_ok.mp accepted
  obtain ⟨invariant, _, report⟩ := applyDelta_invariant holds accepted
  exact ⟨invariant, report⟩

/-- The deltas of a log apply one after the other, as long as the IDs they end with stay
within the limit.
-/
theorem replay_deltas {deltas : List Text} {writes : Text → List FilterWrite}
    (applicable : ∀ delta ∈ deltas, Applicable dec snapshot delta (writes delta))
    (same : SameScan snapshot filters) (holds : FilterInvariant snapshot filters)
    (within : ∀ id, writeAll filters.registers (deltas.flatMap writes) id ≠ none → id ∈ known)
    (bounded : known.card ≤ maxIds)
    : ∃ replayed, deltas.foldlM
        (fun filters delta => (filters.applyDeltaB64 dec delta).map Prod.fst) filters
        = .ok replayed
      ∧ replayed.registers = writeAll filters.registers (deltas.flatMap writes)
      ∧ SameScan snapshot replayed ∧ FilterInvariant snapshot replayed := by
  induction deltas generalizing filters with
  | nil => exact ⟨filters, rfl, rfl, same, holds⟩
  | cons delta deltas ih =>
    rw [flatMap_cons, writeAll_append] at within ⊢
    have early : ∀ id, writeAll filters.registers (writes delta) id ≠ none → id ∈ known := by
      intro id held
      refine within id fun gone => ?_
      rcases advances_writeAll (writeAll filters.registers (writes delta))
        (deltas.flatMap writes) id with kept | ⟨_, _, written, _⟩
      · exact held (kept ▸ gone)
      · rw [gone] at written
        cases written
    obtain ⟨next, changed, accepted, registers, sameNext⟩ :=
      (applicable delta (by simp)).accepted same early bounded
    obtain ⟨replayed, run, registers', same', holds'⟩ :=
      ih (fun other member => applicable other (by simp [member])) sameNext
        (holds.applyDeltaB64 accepted).1 (by rwa [registers])
    refine ⟨replayed, ?_, by rw [registers', registers], same', holds'⟩
    exact bind_eq_ok.mpr ⟨next, map_eq_ok.mpr ⟨_, accepted, rfl⟩, run⟩

/-- With distinct IDs, the last predicate of an ID is the first one. -/
theorem find?_reverse_of_nodup {id} (distinct : (predicates.map Predicate.id).Nodup)
    : predicates.reverse.find? (fun predicate => predicate.id = id)
      = predicates.find? fun predicate => predicate.id = id := by
  induction predicates with
  | nil => rfl
  | cons head tail ih =>
    rw [map_cons, nodup_cons] at distinct
    rw [reverse_cons, find?_append, ih distinct.2, find?_cons]
    by_cases same : head.id = id
    · have absent : tail.find? (fun predicate => predicate.id = id) = none := by
        refine find?_eq_none.mpr fun predicate member eq => distinct.1 ?_
        rw [same, ← of_decide_eq_true eq]
        exact mem_map_of_mem member
      simp [same, absent]
    · simp [same]

/-- Two lists with distinct IDs and the same predicate under each ID differ in order only:
taking the first in the order of the second gives the second.
-/
theorem takeInOrder_eq {target} (distinct : (predicates.map Predicate.id).Nodup)
    (distinctTarget : (target.map Predicate.id).Nodup)
    (agree : ∀ id, predicates.find? (fun predicate => predicate.id = id)
      = target.find? fun predicate => predicate.id = id)
    : takeInOrder predicates (target.map Predicate.id) = .ok target := by
  induction target generalizing predicates with
  | nil =>
    have empty : predicates = [] := by
      refine eq_nil_iff_forall_not_mem.mpr fun predicate member => ?_
      have absent := find?_eq_none.mp (agree predicate.id) predicate member
      simp at absent
    subst empty
    simp only [map_nil, takeInOrder, bind_eq_ok]
    exact ⟨(), by simp, rfl⟩
  | cons head tail ih =>
    rw [map_cons, nodup_cons] at distinctTarget
    have absent : tail.find? (fun predicate => predicate.id = head.id) = none := by
      refine find?_eq_none.mpr fun predicate member eq => distinctTarget.1 ?_
      rw [← of_decide_eq_true eq]
      exact mem_map_of_mem member
    have rest : takeInOrder (retainOthers predicates head.id)
        (tail.map Predicate.id) = .ok tail := by
      refine ih (distinct.sublist ((retainOthers_sublist _ _).map _)) distinctTarget.2 ?_
      intro id
      by_cases same : id = head.id
      · rw [same, find?_retainOthers, if_pos rfl, absent]
      · rw [find?_retainOthers, if_neg same, agree id, find?_cons_of_neg]
        simpa using Ne.symm same
    simp only [map_cons, takeInOrder, bind_eq_ok, okOr_eq_ok]
    refine ⟨head, ?_, tail, rest, rfl⟩
    rw [find?_reverse_of_nodup distinct, agree, find?_cons_of_pos]
    simp

theorem lookup_eq_of_registers (registers : filters.registers = other.registers) (id)
    : filters.revisions.lookup id = other.revisions.lookup id := by
  have held := congrFun registers id
  simp only [PushdownFilters.registers, registersOf] at held
  cases first : filters.revisions.lookup id <;> cases second : other.revisions.lookup id <;>
    simp_all

theorem payload_eq_of_registers (holds : FilterInvariant snapshot filters)
    (holdsOther : FilterInvariant snapshot other) (registers : filters.registers = other.registers)
    (id)
    : filters.payload id = other.payload id := by
  by_contra ne
  obtain ⟨later, lookup, newer⟩ := payload_of_advances holdsOther.coherent holds.coherent
    (.inl (congrFun registers id)) ne
  rw [lookup_eq_of_registers registers] at lookup
  exact lt_irrefl later (newer later lookup)

include same

/-- States of one scan with the same registers are equal once the order is restored. -/
theorem restorePredicateOrder_eq {live} (sameLive : SameScan snapshot live)
    (holds : FilterInvariant snapshot filters) (holdsLive : FilterInvariant snapshot live)
    (registers : filters.registers = live.registers)
    : filters.restorePredicateOrder live.predicateOrder = .ok live := by
  have revisions : filters.revisions = live.revisions :=
    Finmap.ext_lookup (lookup_eq_of_registers registers)
  have taken : takeInOrder filters.predicates
      (live.predicates.map Predicate.id) = .ok live.predicates :=
    takeInOrder_eq holds.coherent.distinct holdsLive.coherent.distinct
      (payload_eq_of_registers holds holdsLive registers)
  have rebuilt : { filters with predicates := live.predicates } = live := by
    cases filters
    cases live
    obtain ⟨rfl, rfl, rfl, rfl⟩ := same
    obtain ⟨h1, h2, h3, h4⟩ := sameLive
    simp_all
  unfold restorePredicateOrder
  split
  next sameOrder =>
    have again : takeInOrder filters.predicates
        (filters.predicates.map Predicate.id) = .ok filters.predicates :=
      takeInOrder_eq holds.coherent.distinct holds.coherent.distinct fun _ => rfl
    rw [show filters.predicates.map Predicate.id = live.predicates.map Predicate.id from
      sameOrder, taken] at again
    rw [← rebuilt, Except.ok.inj again]
  · simp only [bind_eq_ok, pure_eq_ok]
    exact ⟨live.predicates, taken, rebuilt⟩

end Vgi.Pushdown
