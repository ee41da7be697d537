import Vgi.Lib.Keyed
import Vgi.Lib.LastWriter
import Vgi.Pushdown.Filters

/-! What one update of a delta can do to the filter state. The state stands for a family of
last-writer-wins registers, one per predicate ID, and an update is one write to its register.
-/

namespace Vgi.Pushdown

open Arrow Lib Lib.LastWriter

/-- Each known ID holds its revision and its live predicate, or a tombstone. -/
def registersOf (predicates : List Predicate) (revisions : Revisions)
    : Registers String (Option Predicate) :=
  fun id => (revisions.lookup id).map fun revision =>
    (revision, predicates.find? fun predicate => predicate.id = id)

def PushdownFilters.registers (filters : PushdownFilters)
    : Registers String (Option Predicate) :=
  registersOf filters.predicates filters.revisions

def DeltaState.registers (state : DeltaState) : Registers String (Option Predicate) :=
  registersOf state.predicates state.revisions

variable {predicates : List Predicate} {revisions : Revisions} {update : WireUpdate}

theorem isStale_iff : isStale revisions update = true
      ↔ ¬Fresh (registersOf predicates revisions update.id) update.revision := by
  unfold isStale registersOf
  cases revisions.lookup update.id <;> simp

variable (fresh : isStale revisions update = false)

include fresh in
theorem fresh_of_not_isStale
    : Fresh (registersOf predicates revisions update.id) update.revision := by
  by_contra stale
  simp [isStale_iff.mpr stale] at fresh

theorem find?_retainOthers (predicates id other)
    : (retainOthers predicates id).find? (fun predicate => predicate.id = other)
      = if other = id then none else predicates.find? fun predicate => predicate.id = other :=
  find?_filter_ne _ _ _ _

include fresh

/-- A fresh removal writes a tombstone. -/
theorem registersOf_remove : registersOf (retainOthers predicates update.id)
        (revisions.insert update.id update.revision)
      = LastWriter.write (registersOf predicates revisions) ⟨update.id, update.revision, none⟩ := by
  rw [write_of_fresh (fresh_of_not_isStale fresh)]
  funext other
  by_cases same : other = update.id
  · subst same
    simp [registersOf, find?_retainOthers]
  · simp [registersOf, same, find?_retainOthers]

/-- A fresh upsert writes the new predicate. -/
theorem registersOf_upsert {predicate} (id : predicate.id = update.id)
    : registersOf (retainOthers predicates update.id ++ [predicate])
        (revisions.insert update.id update.revision)
      = LastWriter.write (registersOf predicates revisions)
          ⟨update.id, update.revision, some predicate⟩ := by
  rw [write_of_fresh (fresh_of_not_isStale fresh)]
  funext other
  by_cases same : other = update.id
  · subst same
    simp [registersOf, find?_retainOthers, id]
  · simp [registersOf, same, id, Ne.symm same, find?_retainOthers]

/-- The effect of an accepted update on the loop state. -/
inductive UpdateEffect (parser : Parser) (state : DeltaState) (update : WireUpdate)
    : DeltaOperation → DeltaState → Prop
  | stale {operation : DeltaOperation} (stale : isStale state.revisions update = true)
      : UpdateEffect parser state update operation
          { state with seen := insert update.id state.seen }
  | removed (fresh : isStale state.revisions update = false)
      : UpdateEffect parser state update .remove
          { state with
            predicates := retainOthers state.predicates update.id
            revisions := state.revisions.insert update.id update.revision
            seen := insert update.id state.seen
            changed := true }
  | upserted {wire : WirePredicate} {predicate : Predicate} {nodes : Nat}
      (fresh : isStale state.revisions update = false)
      (parsed : parser.predicate wire true state.nodes = .ok (predicate, nodes))
      (id : predicate.id = update.id) (revision : predicate.revision = update.revision)
      (advisory : predicate.mode = .advisory)
      : UpdateEffect parser state update (.upsert wire)
          { predicates := retainOthers state.predicates update.id ++ [predicate]
            revisions := state.revisions.insert update.id update.revision
            seen := insert update.id state.seen
            changed := true
            nodes }

omit fresh

theorem deltaOperation_upsert {wire} (h : deltaOperation update = .ok (.upsert wire))
    : wire.id = update.id ∧ wire.revision = update.revision := by
  unfold deltaOperation at h
  split at h
  · simp only [bind_eq_ok] at h
    obtain ⟨_, _, impossible⟩ := h
    cases impossible
  · split at h
    · simp only [bind_eq_ok, pure_eq_ok, DeltaOperation.upsert.injEq] at h
      obtain ⟨_, _, rfl⟩ := h
      exact ⟨rfl, rfl⟩
    · simp at h
  · simp at h

section

variable {Text Bytes : Type} {dec : Decoders Text Bytes} {parser : Parser} {state next : DeltaState}

/-- What an accepted loop step is. Every fact about deltas is read off here. -/
theorem applyUpdate_eq_ok {requiredIds raw}
    : applyUpdate dec parser requiredIds state raw = .ok next
      ↔ ∃ update operation, WireUpdate.fromValue dec raw = .ok update
        ∧ validateId update.id = .ok ()
        ∧ update.id ∉ state.seen ∧ update.id ∉ requiredIds
        ∧ deltaOperation update = .ok operation
        ∧ UpdateEffect parser state update operation next := by
  simp only [applyUpdate, bind_eq_ok, mapError_eq_ok, rejectIf_eq_ok]
  constructor
  · rintro ⟨update, read, _, valid, _, unseen, _, optional, operation, checked, h⟩
    refine ⟨update, operation, read, valid, unseen, optional, checked, ?_⟩
    split at h
    next stale =>
      cases h
      exact .stale stale
    next fresh =>
      simp only [Bool.not_eq_true] at fresh
      cases operation with
      | remove =>
        cases h
        exact .removed fresh
      | upsert wire =>
        simp only [applyOperation, bind_eq_ok, pure_eq_ok] at h
        obtain ⟨⟨predicate, nodes⟩, parsed, rfl⟩ := h
        obtain ⟨id, revision, advisory⟩ := parser.predicate_spec parsed
        obtain ⟨wireId, wireRevision⟩ := deltaOperation_upsert checked
        exact .upserted fresh parsed (id.trans wireId) (revision.trans wireRevision) (advisory rfl)
  · rintro ⟨update, operation, read, valid, unseen, optional, checked, effect⟩
    refine ⟨update, read, (), valid, (), unseen, (), optional, operation, checked, ?_⟩
    cases effect with
    | stale stale => exact if_pos stale
    | removed fresh => rw [if_neg (by simpa using fresh)]; rfl
    | @upserted wire predicate nodes fresh parsed id revision advisory =>
      rw [if_neg (by simpa using fresh)]
      simp only [applyOperation, bind_eq_ok]
      exact ⟨(predicate, nodes), parsed, rfl⟩

/-- An update is one last-writer-wins write to its ID's register. -/
theorem UpdateEffect.write {update operation}
    (effect : UpdateEffect parser state update operation next)
    : ∃ value, next.registers
        = LastWriter.write state.registers ⟨update.id, update.revision, value⟩ := by
  cases effect with
  | stale stale => exact ⟨none, (write_of_stale (isStale_iff.mp stale)).symm⟩
  | removed fresh => exact ⟨none, registersOf_remove fresh⟩
  | upserted fresh _ id => exact ⟨some _, registersOf_upsert fresh id⟩

end

end Vgi.Pushdown
