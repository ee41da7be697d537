import Vgi.Pushdown.DeltaHistory
import Vgi.Pushdown.Eval

/-! Deltas in any order. A filter state takes the updates of its deltas in as last-writer-wins
registers do, so that two orders of the same deltas end in the same registers, and the masks
of the live predicates do not depend on their order.
-/

namespace Vgi.Pushdown

open Arrow Lib Lib.LastWriter WireUpdate Settled List Sample

variable {Text Bytes : Type}

section

variable (dec : Decoders Text Bytes) (filters : PushdownFilters)

/-- Deltas applied one after the other, as long as each is accepted. -/
def PushdownFilters.applyDeltas (deltas : List Bytes) : Result PushdownFilters :=
  deltas.foldlM (fun filters delta => (filters.applyDelta dec delta).map Prod.fst) filters

/-- The delta has an update of this ID at this revision. -/
def Mentions (delta : Bytes) (id : String) (revision : Nat) : Prop :=
  ∃ batch updates raw update, deltaUpdates dec filters.context delta = .ok (batch, updates)
    ∧ raw ∈ updates ∧ fromValue dec raw = .ok update
    ∧ update.id = id ∧ update.revision = revision

/-- The delta has an update that reads as this write: a tombstone, or the predicate that the
expression and the delta's own payloads stand for.
-/
def Offers (delta : Bytes) (w : FilterWrite) : Prop :=
  ∃ batch updates raw nodes nodes', deltaUpdates dec filters.context delta = .ok (batch, updates)
    ∧ raw ∈ updates ∧ writeOf dec (filters.deltaParser batch) raw nodes = .ok (w, nodes')

/-- Updates of one ID at one revision are equal, whichever of the deltas they are in. -/
def Agree (deltas : List Bytes) : Prop :=
  ∀ delta ∈ deltas, ∀ delta' ∈ deltas, ∀ w w', Offers dec filters delta w
    → Offers dec filters delta' w' → w.key = w'.key → w.revision = w'.revision
    → w.value = w'.value

end

variable {dec : Decoders Text Bytes} {snapshot filters next : PushdownFilters}

variable {delta : Bytes} {w w' : FilterWrite} {parser : Parser} {requiredIds : Finset String}
  {state : DeltaState} {raw : Value} {id : String} {offers : Nat × Option Predicate → Prop}
  {deltas : List Bytes} {one other : PushdownFilters}

theorem Offers.mentions (offers : Offers dec filters delta w)
    : Mentions dec filters delta w.key w.revision := by
  obtain ⟨batch, updates, raw, nodes, nodes', read, member, written⟩ := offers
  obtain ⟨update, -, decoded, -, key, revision, -⟩ := writeOf_eq_ok written
  exact ⟨batch, updates, raw, update, read, member, decoded, key.symm, revision.symm⟩

/-- The offers that some of the deltas make for one ID. -/
def offersFor (dec : Decoders Text Bytes) (filters : PushdownFilters) (deltas : List Bytes)
    (id : String) : Nat × Option Predicate → Prop :=
  fun offer => ∃ delta ∈ deltas, Offers dec filters delta ⟨id, offer.1, offer.2⟩

/-- A fresh update writes what it reads as; a stale one leaves the registers alone. -/
theorem applyUpdate_written {next}
    (accepted : applyUpdate dec parser requiredIds state raw = .ok next)
    : ∃ update, fromValue dec raw = .ok update
      ∧ ((¬Fresh (state.registers update.id) update.revision ∧ next.registers = state.registers)
        ∨ ∃ value nodes', writeOf dec parser raw state.nodes
            = .ok (⟨update.id, update.revision, value⟩, nodes')
          ∧ Fresh (state.registers update.id) update.revision
          ∧ next.registers = write state.registers ⟨update.id, update.revision, value⟩) := by
  obtain ⟨update, operation, decoded, -, -, -, checked, effect⟩ := applyUpdate_eq_ok.mp accepted
  refine ⟨update, decoded, ?_⟩
  cases effect with
  | stale stale => exact .inl ⟨isStale_iff.mp stale, rfl⟩
  | removed fresh =>
    refine .inr ⟨none, state.nodes, ?_, fresh_of_not_isStale fresh, registersOf_remove fresh⟩
    simp [writeOf, decoded, checked]
  | @upserted wire predicate nodes fresh parsed id =>
    refine .inr ⟨some predicate, nodes, ?_, fresh_of_not_isStale fresh, registersOf_upsert fresh id⟩
    simp [writeOf, decoded, checked, parsed]

theorem applyUpdate_settled {next}
    (accepted : applyUpdate dec parser requiredIds state raw = .ok next)
    (offered : ∀ w nodes nodes', writeOf dec parser raw nodes = .ok (w, nodes') → w.key = id
      → offers (w.revision, w.value))
    : Settled offers
        (fun revision => ∃ update, fromValue dec raw = .ok update
          ∧ update.id = id ∧ update.revision = revision)
        (state.registers id) (next.registers id) := by
  obtain ⟨update, decoded, effect⟩ := applyUpdate_written accepted
  have arrives : ∀ {after : Option (Nat × Option Predicate)},
      (update.id = id → ¬Fresh after update.revision) →
      ∀ revision, (∃ update, fromValue dec raw = .ok update
        ∧ update.id = id ∧ update.revision = revision) → ¬Fresh after revision := by
    rintro after stale revision ⟨update', decoded', same, rfl⟩
    obtain rfl : update' = update := Except.ok.inj (decoded'.symm.trans decoded)
    exact stale same
  rcases effect with ⟨stale, kept⟩ | ⟨value, nodes', read, fresh, written⟩
  · rw [kept]
    exact ⟨.refl _, .inl rfl, arrives fun same => same ▸ stale⟩
  · rw [written]
    refine ⟨advances_write _ _ _, ?_, arrives fun same => ?_⟩
    · by_cases same : update.id = id
      · refine .inr ⟨_, offered _ _ _ read same, ?_⟩
        rw [← same, write_apply_self, if_pos fresh]
      · exact .inl (write_apply_of_ne same)
    · rw [← same, write_apply_self, if_pos fresh]
      simp

/-- The loop over the updates of a delta, by composing single updates. -/
theorem applyUpdates_settled {final} {updates : List Value}
    (run : updates.foldlM (applyUpdate dec parser requiredIds) state = .ok final)
    (offered : ∀ raw ∈ updates, ∀ w nodes nodes', writeOf dec parser raw nodes = .ok (w, nodes')
      → w.key = id → offers (w.revision, w.value))
    : Settled offers
        (fun revision => ∃ raw ∈ updates, ∃ update, fromValue dec raw = .ok update
          ∧ update.id = id ∧ update.revision = revision)
        (state.registers id) (final.registers id) := by
  induction updates generalizing state with
  | nil =>
    cases run
    exact (refl offers _).trans (refl offers _) (by simp)
  | cons raw updates ih =>
    obtain ⟨next, first, rest⟩ := bind_eq_ok.mp run
    have head := applyUpdate_settled first (offered raw mem_cons_self)
    have tail := ih rest fun other member => offered other (mem_cons_of_mem _ member)
    refine head.trans tail ?_
    rintro revision ⟨other, member, found⟩
    rcases mem_cons.mp member with rfl | later
    · exact .inl found
    · exact .inr ⟨other, later, found⟩

/-- A state of the scan that accepts a delta has settled with its updates. -/
theorem SameScan.applyDelta_settled {changed} (same : SameScan snapshot filters)
    (member : delta ∈ deltas) (accepted : filters.applyDelta dec delta = .ok (next, changed)) (id)
    : Settled (offersFor dec snapshot deltas id) (Mentions dec snapshot delta id)
        (filters.registers id) (next.registers id) := by
  obtain ⟨batch, updates, final, read, run, -, rfl, -⟩ := PushdownFilters.applyDelta_cases accepted
  rw [same.context] at read
  rw [same.deltaParser] at run
  have offered : ∀ raw ∈ updates, ∀ w nodes nodes',
      writeOf dec (snapshot.deltaParser batch) raw nodes = .ok (w, nodes') → w.key = id
      → offersFor dec snapshot deltas id (w.revision, w.value) := by
    rintro raw inside w nodes nodes' written rfl
    exact ⟨delta, member, batch, updates, raw, nodes, nodes', read, inside, written⟩
  refine (Settled.refl _ _).trans (applyUpdates_settled run offered) ?_
  rintro revision ⟨batch', updates', raw, update, read', inside, found⟩
  cases read.symm.trans read'
  exact .inr ⟨raw, inside, update, found⟩

/-- What holds after an accepted sequence of deltas, relative to the state before it. -/
structure Converged (dec : Decoders Text Bytes) (snapshot : PushdownFilters)
    (deltas arrived : List Bytes) (before after : PushdownFilters) : Prop where
  same : SameScan snapshot after
  holds : FilterInvariant snapshot after
  settled : ∀ id, Settled (offersFor dec snapshot deltas id)
    (fun revision => ∃ delta ∈ arrived, Mentions dec snapshot delta id revision)
    (before.registers id) (after.registers id)

theorem applyDeltas_converged {arrived} (part : arrived ⊆ deltas)
    (same : SameScan snapshot filters) (holds : FilterInvariant snapshot filters)
    (accepted : filters.applyDeltas dec arrived = .ok next)
    : Converged dec snapshot deltas arrived filters next := by
  induction arrived generalizing filters with
  | nil =>
    cases accepted
    exact ⟨same, holds, fun id => (refl _ _).trans (refl _ _) (by simp)⟩
  | cons delta arrived ih =>
    obtain ⟨_, first, rest⟩ := bind_eq_ok.mp accepted
    obtain ⟨⟨middle, changed⟩, applied, rfl⟩ := map_eq_ok.mp first
    have member : delta ∈ deltas := part mem_cons_self
    have sameMiddle : SameScan snapshot middle := by
      obtain ⟨_, _, _, -, -, -, rfl, -⟩ := PushdownFilters.applyDelta_cases applied
      exact { same with }
    have later := ih (fun other inside => part (mem_cons_of_mem _ inside)) sameMiddle
      (PushdownFilters.applyDelta_invariant holds applied).1 rest
    refine ⟨later.same, later.holds, fun id => ?_⟩
    refine (same.applyDelta_settled member applied id).trans (later.settled id) ?_
    rintro revision ⟨other, inside, mentioned⟩
    rcases mem_cons.mp inside with rfl | inside
    · exact .inl mentioned
    · exact .inr ⟨other, inside, mentioned⟩

/-- Two accepted orders of the same deltas end in the same registers. -/
theorem Converged.registers_eq {first second}
    (members : ∀ delta, delta ∈ first ↔ delta ∈ second) (agree : Agree dec snapshot first)
    (left : Converged dec snapshot first first snapshot one)
    (right : Converged dec snapshot first second snapshot other)
    : one.registers = other.registers := by
  funext id
  refine unique ?_ ?_ (left.settled id) ((right.settled id).trans (.refl _ _) ?_)
  · rintro revision value value' ⟨delta, member, offers⟩ ⟨delta', member', offers'⟩
    exact agree delta member delta' member' _ _ offers offers' rfl rfl
  · rintro offer ⟨delta, member, offers⟩
    exact ⟨delta, member, offers.mentions⟩
  · rintro revision ⟨delta, member, mentioned⟩
    exact .inl ⟨delta, (members delta).mp member, mentioned⟩

/-- With distinct IDs, each predicate is found under its own. -/
theorem find?_of_nodup {predicates : List Predicate} {predicate}
    (distinct : (predicates.map Predicate.id).Nodup) (live : predicate ∈ predicates)
    : predicates.find? (fun other => other.id = predicate.id) = some predicate := by
  induction predicates with
  | nil => cases live
  | cons head tail ih =>
    obtain ⟨absent, distinct⟩ := nodup_cons.mp distinct
    rcases mem_cons.mp live with rfl | later
    · simp
    · have other : head.id ≠ predicate.id := fun same =>
        absent (same ▸ mem_map_of_mem later)
      rw [find?_cons_of_neg (by simpa using other), ih distinct later]

/-- States with the same registers have the same live predicates, up to their order. -/
theorem predicates_perm (holds : FilterInvariant snapshot one)
    (holdsOther : FilterInvariant snapshot other) (registers : one.registers = other.registers)
    : one.predicates.Perm other.predicates := by
  have payload := payload_eq_of_registers holds holdsOther registers
  have finds : ∀ {filters}, FilterInvariant snapshot filters →
      ∀ predicate, predicate ∈ filters.predicates
        ↔ filters.payload predicate.id = some predicate := by
    intro filters holds predicate
    constructor
    · exact fun live => find?_of_nodup holds.coherent.distinct live
    · exact mem_of_find?_eq_some
  refine (perm_ext_iff_of_nodup (.of_map _ holds.coherent.distinct)
    (.of_map _ holdsOther.coherent.distinct)).mpr fun predicate => ?_
  rw [finds holds, finds holdsOther, payload]

section

variable {kernels : Kernels} {batch : RecordBatch}

/-- Two masks may be taken in either order: the connective commutes, and a mask of another
length is refused with the same message.
-/
theorem andKleene_right_comm (result first second)
    : ((andKleene result first).mapError cvt >>= fun next => (andKleene next second).mapError cvt)
      = (andKleene result second).mapError cvt
          >>= fun next => (andKleene next first).mapError cvt := by
  unfold andKleene zipBoolean
  by_cases one : result.length = first.length <;> by_cases other : result.length = second.length
  · have rows : zipWith Kleene.and (zipWith Kleene.and result first) second
        = zipWith Kleene.and (zipWith Kleene.and result second) first := by
      refine ext_getElem (by simp only [length_zipWith]; omega) fun index _ _ => ?_
      simp only [getElem_zipWith]
      exact Kleene.and_right_comm _ _ _
    have same : first.length = second.length := one.symm.trans other
    simp only [one, same, if_true, Except.mapError, ok_bind, length_zipWith, rows]
  · have refused : ¬(zipWith Kleene.and result first).length = second.length := by
      simp only [length_zipWith]
      omega
    simp only [if_pos one, if_neg other, if_neg refused, Except.mapError, ok_bind, error_bind]
  · have refused : ¬(zipWith Kleene.and result second).length = first.length := by
      simp only [length_zipWith]
      omega
    simp only [if_neg one, if_pos other, if_neg refused, Except.mapError, ok_bind, error_bind]
  · simp [one, other, Except.mapError]

theorem evaluatePredicates_perm {one other : List Predicate} (perm : one.Perm other)
    (sound : ∀ predicate ∈ one, predicate.NotFailing kernels batch) (result)
    : one.foldlM (evaluatePredicate kernels batch) result
      = other.foldlM (evaluatePredicate kernels batch) result := by
  refine foldlM_perm perm fun first inFirst second inSecond result => ?_
  simp only [evaluatePredicate_eq _ (sound first inFirst),
    evaluatePredicate_eq _ (sound second inSecond)]
  cases first.mask kernels batch with
  | none => cases second.mask kernels batch <;> exact (bind_pure _).symm
  | some mask =>
    cases second.mask kernels batch with
    | none => exact bind_pure _
    | some mask' => exact andKleene_right_comm result mask mask'

end

/-- From one snapshot, two orders of the same deltas, with repetitions, that are accepted
throughout end with the same revisions and the same live predicates, and keep the same rows of
every batch on which no required predicate fails.
-/
theorem deltas_converge {batch : RecordBatch} {joinKeys : List RecordBatch}
    {outputSchema : Option Schema} {one other : PushdownFilters} {first second : List Bytes}
    (parsed : parseSnapshotBatch dec batch joinKeys outputSchema = .ok snapshot)
    (agree : Agree dec snapshot first)
    (members : ∀ delta, delta ∈ first ↔ delta ∈ second)
    (accepted : snapshot.applyDeltas dec first = .ok one)
    (acceptedOther : snapshot.applyDeltas dec second = .ok other)
    : one.revisions = other.revisions
      ∧ (∀ id, one.payload id = other.payload id)
      ∧ ∀ (kernels : Kernels) (rows : RecordBatch),
          (∀ predicate ∈ snapshot.predicates, predicate.NotFailing kernels rows)
          → one.evaluate kernels rows = other.evaluate kernels rows := by
  have holds := parseSnapshotBatch_invariant parsed
  have left := applyDeltas_converged (List.Subset.refl first) (.refl snapshot) holds accepted
  have right := applyDeltas_converged (fun delta => (members delta).mpr) (.refl snapshot) holds
    acceptedOther
  have registers := left.registers_eq members agree right
  refine ⟨Finmap.ext_lookup (lookup_eq_of_registers registers),
    payload_eq_of_registers left.holds right.holds registers, fun kernels rows sound => ?_⟩
  refine evaluatePredicates_perm (predicates_perm left.holds right.holds registers) ?_ _
  intro predicate live
  rcases left.holds.coherent.added predicate live with original | advisory
  · exact sound predicate original
  · intro required
    rw [advisory] at required
    cases required

/-- An update reads as one write, whatever the node count. -/
theorem writeOf_unique {nodes nodes' count count'}
    (read : writeOf dec parser raw nodes = .ok (w, nodes'))
    (read' : writeOf dec parser raw count = .ok (w', count'))
    : w = w' := by
  obtain ⟨update, operation, decoded, checked, key, revision, -, written⟩ := writeOf_eq_ok read
  obtain ⟨_, _, decoded', checked', key', revision', -, written'⟩ := writeOf_eq_ok read'
  cases decoded.symm.trans decoded'
  cases checked.symm.trans checked'
  have values : w.value = w'.value := by
    cases operation with
    | remove => exact written.trans written'.symm
    | upsert wire =>
      obtain ⟨predicate, value, parsed⟩ := written
      obtain ⟨predicate', value', parsed'⟩ := written'
      rw [value, value']
      -- The parse at the larger count also succeeds at the smaller one.
      rcases le_total nodes count with le | le
      · obtain ⟨-, again⟩ := parser.predicate_budgeted wire true _ _ _ parsed'
        obtain ⟨_, -, found⟩ := again nodes le
        cases found.symm.trans parsed
        rfl
      · obtain ⟨-, again⟩ := parser.predicate_budgeted wire true _ _ _ parsed
        obtain ⟨_, -, found⟩ := again count le
        cases found.symm.trans parsed'
        rfl
  obtain ⟨_, _, _⟩ := w
  cases key.trans key'.symm
  cases revision.trans revision'.symm
  cases values
  rfl

/-- The ID and revision of each update of a delta. -/
def updatePairs (dec : Decoders Text Bytes) (context : EvaluationContext) (delta : Bytes)
    : Result (List (Option (String × Nat))) :=
  (deltaUpdates dec context delta).map fun read =>
    read.2.map fun raw =>
      (fromValue dec raw).toOption.map fun update => (update.id, update.revision)

/-- A delta with one update offers one write. -/
theorem Offers.of_single {revision}
    (single : updatePairs dec filters.context delta = .ok [some (id, revision)])
    (offers : Offers dec filters delta w) (offers' : Offers dec filters delta w')
    : w = w' ∧ w.key = id ∧ w.revision = revision := by
  obtain ⟨batch, updates, raw, nodes, nodes', read, member, written⟩ := offers
  obtain ⟨batch', updates', raw', count, count', read', member', written'⟩ := offers'
  cases read.symm.trans read'
  simp only [updatePairs, read, Except.map, Except.ok.injEq] at single
  obtain ⟨only, rfl, one⟩ := map_eq_singleton_iff.mp single
  cases mem_singleton.mp member
  cases mem_singleton.mp member'
  obtain ⟨update, -, decoded, -, key, at_revision, -⟩ := writeOf_eq_ok written
  simp only [decoded, Except.toOption, Option.map_some, Option.some.injEq, Prod.mk.injEq] at one
  exact ⟨writeOf_unique written written', key.trans one.1, at_revision.trans one.2⟩

namespace Sample

/-- Adding `a` and removing it again, in order and with the removal first and twice. -/
def inOrder : List RecordBatch := [filterBatch addText, filterBatch removeText]

def removedFirst : List RecordBatch :=
  [filterBatch removeText, filterBatch addText, filterBatch removeText]

end Sample

/-- The removal supersedes the addition in both orders. -/
theorem deltas_converge_sample : ∃ snapshot one other, Sample.readSnapshot = .ok snapshot
      ∧ Agree Sample.streamDecoders snapshot Sample.inOrder
      ∧ snapshot.applyDeltas Sample.streamDecoders Sample.inOrder = .ok one
      ∧ snapshot.applyDeltas Sample.streamDecoders Sample.removedFirst = .ok other
      ∧ one.revisions.lookup "a" = some 6
      ∧ one.revisions = other.revisions
      ∧ (∀ id, one.payload id = other.payload id)
      ∧ ∀ (kernels : Kernels) (rows : RecordBatch),
          (∀ predicate ∈ snapshot.predicates, predicate.NotFailing kernels rows)
          → one.evaluate kernels rows = other.evaluate kernels rows := by
  have members : ∀ delta, delta ∈ Sample.inOrder ↔ delta ∈ Sample.removedFirst := by
    have either : ∀ delta add remove : RecordBatch,
        delta ∈ [add, remove] ↔ delta ∈ [remove, add, remove] := by
      intro delta add remove
      simp only [mem_cons, not_mem_nil]
      tauto
    exact fun delta => either delta (Sample.filterBatch Sample.addText) _
  have evaluated : (do
      let snapshot ← Sample.readSnapshot
      let one ← snapshot.applyDeltas Sample.streamDecoders Sample.inOrder
      let other ← snapshot.applyDeltas Sample.streamDecoders Sample.removedFirst
      let add ← updatePairs Sample.streamDecoders snapshot.context
        (Sample.filterBatch Sample.addText)
      let remove ← updatePairs Sample.streamDecoders snapshot.context
        (Sample.filterBatch Sample.removeText)
      return (add, remove, one.revisions.lookup "a"))
      = .ok ([some ("a", 5)], [some ("a", 6)], some 6) := by
    decide +kernel
  simp only [bind_eq_ok, pure_eq_ok, Prod.mk.injEq] at evaluated
  obtain ⟨snapshot, parsed, one, accepted, other, acceptedOther, _, add, _, remove, rfl, rfl,
    lookup⟩ := evaluated
  have agree : Agree Sample.streamDecoders snapshot Sample.inOrder := by
    intro delta member delta' member' w w' offers offers' _ same
    simp only [Sample.inOrder, mem_cons, not_mem_nil, or_false] at member member'
    rcases member with rfl | rfl <;> rcases member' with rfl | rfl
    · exact congrArg Write.value (offers.of_single add offers').1
    · rw [(offers.of_single add offers).2.2, (offers'.of_single remove offers').2.2] at same
      cases same
    · rw [(offers.of_single remove offers).2.2, (offers'.of_single add offers').2.2] at same
      cases same
    · exact congrArg Write.value (offers.of_single remove offers').1
  exact ⟨snapshot, one, other, parsed, agree, accepted, acceptedOther, lookup,
    deltas_converge parsed agree members accepted acceptedOther⟩

end Vgi.Pushdown
