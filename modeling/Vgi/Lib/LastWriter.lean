import Mathlib.Data.Finset.Basic

/-! Last-writer-wins registers written by revision, and the compaction of a log of write
batches. A register keeps the first write of its highest revision, so a log may drop every
batch except the first carrier of each winning revision.
-/

namespace Vgi.Lib.LastWriter

open List

variable {κ ν β : Type*}

/-- One versioned write. A tombstone is a value like any other. -/
structure Write (κ ν : Type*) where
  key : κ
  revision : ℕ
  value : ν

/-- What each key holds: nothing, or the revision and value last written. -/
abbrev Registers (κ ν : Type*) := κ → Option (ℕ × ν)

/-- A revision is fresh for a register that holds nothing or an older revision. -/
def Fresh (register : Option (ℕ × ν)) (revision : ℕ) : Prop := ∀ held ∈ register, held.1 < revision

instance (register : Option (ℕ × ν)) (revision : ℕ) : Decidable (Fresh register revision) :=
  match register with
  | none => isTrue (by simp [Fresh])
  | some held => decidable_of_iff (held.1 < revision) (by simp [Fresh])

@[simp] theorem fresh_none (revision) : Fresh (none : Option (ℕ × ν)) revision := by
  simp [Fresh]

variable {revision : ℕ} {register after first second start : Option (ℕ × ν)}
  {registers : Registers κ ν} {w : Write κ ν} {key : κ} {writes : List (Write κ ν)}
  {batches : List β} {offers : ℕ × ν → Prop} {revisions : ℕ → Prop}

@[simp] theorem fresh_some {held : ℕ × ν} : Fresh (some held) revision ↔ held.1 < revision := by
  simp [Fresh]

theorem Fresh.mono {later} (fresh : Fresh register revision) (le : revision ≤ later)
    : Fresh register later :=
  fun held member => (fresh held member).trans_le le

/-- A register advances when it is unchanged or rewritten at a strictly higher revision. -/
def Advances (before after : Option (ℕ × ν)) : Prop :=
  after = before ∨ ∃ revision value, after = some (revision, value) ∧ Fresh before revision

theorem Advances.refl (register : Option (ℕ × ν)) : Advances register register := .inl rfl

theorem Advances.fresh {before} (advances : Advances before after)
    (fresh : Fresh after revision)
    : Fresh before revision := by
  rcases advances with rfl | ⟨middle, value, rfl, older⟩
  · exact fresh
  · exact older.mono (fresh_some.mp fresh).le

theorem Advances.trans {third} (early : Advances first second) (late : Advances second third)
    : Advances first third := by
  rcases late with rfl | ⟨revision, value, rfl, fresh⟩
  · exact early
  · exact .inr ⟨revision, value, rfl, early.fresh fresh⟩

/-- A register that was rewritten is not the register it was. -/
theorem not_fresh_of_held {value} (held : register = some (revision, value))
    : ¬Fresh register revision := by
  simp [held]

variable [DecidableEq κ]

/-- A fresh write replaces its register; a stale one is skipped. -/
def write (registers : Registers κ ν) (w : Write κ ν) : Registers κ ν :=
  if Fresh (registers w.key) w.revision then
    Function.update registers w.key (some (w.revision, w.value))
  else
    registers

theorem write_of_fresh (fresh : Fresh (registers w.key) w.revision)
    : write registers w = Function.update registers w.key (some (w.revision, w.value)) :=
  if_pos fresh

theorem write_of_stale (stale : ¬Fresh (registers w.key) w.revision)
    : write registers w = registers :=
  if_neg stale

def writeAll (registers : Registers κ ν) (writes : List (Write κ ν)) : Registers κ ν :=
  writes.foldl write registers

@[simp] theorem writeAll_cons (registers : Registers κ ν) (w)
    (writes : List (Write κ ν))
    : writeAll registers (w :: writes) = writeAll (write registers w) writes :=
  rfl

@[simp] theorem writeAll_append (registers : Registers κ ν) (first second)
    : writeAll registers (first ++ second) = writeAll (writeAll registers first) second :=
  foldl_append

theorem write_apply_of_ne (ne : w.key ≠ key) : write registers w key = registers key := by
  unfold write
  split
  · exact Function.update_of_ne ne.symm _ _
  · rfl

theorem write_apply_self (registers : Registers κ ν) (w)
    : write registers w w.key
      = if Fresh (registers w.key) w.revision then some (w.revision, w.value)
        else registers w.key := by
  unfold write
  split <;> simp

theorem advances_write (registers : Registers κ ν) (w key)
    : Advances (registers key) (write registers w key) := by
  by_cases same : w.key = key
  · subst same
    rw [write_apply_self]
    split
    next fresh => exact .inr ⟨w.revision, w.value, rfl, fresh⟩
    · exact .refl _
  · rw [write_apply_of_ne same]
    exact .refl _

/-- No sequence of writes takes a register back, by composing single writes. -/
theorem advances_writeAll (registers : Registers κ ν) (writes key)
    : Advances (registers key) (writeAll registers writes key) := by
  induction writes generalizing registers with
  | nil => exact .refl _
  | cons w writes ih => exact (advances_write registers w key).trans (ih _)

/-- Writes that are stale for a register leave it as it was. -/
theorem writeAll_of_stale (stale : ∀ w ∈ writes, w.key = key → ¬Fresh (registers key) w.revision)
    : writeAll registers writes key = registers key := by
  induction writes generalizing registers with
  | nil => rfl
  | cons w writes ih =>
    have unchanged : write registers w key = registers key := by
      by_cases same : w.key = key
      · subst same
        rw [write_apply_self, if_neg (stale w (by simp) rfl)]
      · exact write_apply_of_ne same
    rw [writeAll_cons, ih, unchanged]
    rw [unchanged]
    exact fun later member => stale later (mem_cons_of_mem _ member)

/-- (carries key revision w) says that the write is for this key at this revision. -/
def carries (key : κ) (revision : ℕ) (w : Write κ ν) : Bool := w.key = key ∧ w.revision = revision

@[simp] theorem carries_iff
    : carries key revision w = true ↔ w.key = key ∧ w.revision = revision := by
  simp [carries]

/-- The first write of the highest revision decides a register that it is fresh for. -/
theorem writeAll_of_first {winner}
    (fresh : Fresh (registers winner.key) winner.revision)
    (first : writes.find? (carries winner.key winner.revision) = some winner)
    (highest : ∀ w ∈ writes, w.key = winner.key → w.revision ≤ winner.revision)
    : writeAll registers writes winner.key = some (winner.revision, winner.value) := by
  induction writes generalizing registers with
  | nil => simp at first
  | cons w writes ih =>
    have later : ∀ w ∈ writes, w.key = winner.key → w.revision ≤ winner.revision :=
      fun w member => highest w (mem_cons_of_mem _ member)
    rw [find?_cons] at first
    by_cases won : carries winner.key winner.revision w = true
    · simp only [won, Option.some.injEq] at first
      subst first
      have written : write registers w w.key = some (w.revision, w.value) := by
        rw [write_apply_self, if_pos fresh]
      rw [writeAll_cons, writeAll_of_stale, written]
      intro other member same
      simpa only [written, fresh_some, not_lt] using later other member same
    · simp only [won] at first
      refine ih ?_ first later
      by_cases same : w.key = winner.key
      · have lower : w.revision < winner.revision :=
          lt_of_le_of_ne (highest w (by simp) same) fun eq => won (by simp [same, eq])
        rw [← same, write_apply_self]
        split
        · exact fresh_some.mpr lower
        · exact same ▸ fresh
      · rw [write_apply_of_ne same]
        exact fresh

/-- Either every write of a key is stale, or its register is decided by one of them. -/
theorem stale_or_winner (registers : Registers κ ν) (writes : List (Write κ ν)) (key)
    : (∀ w ∈ writes, w.key = key → ¬Fresh (registers key) w.revision)
      ∨ ∃ winner, winner.key = key ∧ Fresh (registers key) winner.revision
        ∧ writes.find? (carries key winner.revision) = some winner
        ∧ ∀ w ∈ writes, w.key = key → w.revision ≤ winner.revision := by
  induction writes with
  | nil => exact .inl (by simp)
  | cons w writes ih =>
    by_cases relevant : w.key = key ∧ Fresh (registers key) w.revision
    · obtain ⟨same, fresh⟩ := relevant
      right
      rcases ih with stale | ⟨winner, winnerKey, winnerFresh, first, highest⟩
      · refine ⟨w, same, fresh, by simp [same],
          forall_mem_cons.mpr ⟨fun _ => le_rfl, fun other later otherKey => ?_⟩⟩
        by_contra higher
        exact stale other later otherKey (fresh.mono (not_le.mp higher).le)
      · -- Of two writes with one revision the first one wins.
        by_cases beaten : w.revision < winner.revision
        · refine ⟨winner, winnerKey, winnerFresh, ?_,
            forall_mem_cons.mpr ⟨fun _ => beaten.le, highest⟩⟩
          rw [find?_cons_of_neg (by simp [beaten.ne]), first]
        · refine ⟨w, same, fresh, by simp [same],
            forall_mem_cons.mpr ⟨fun _ => le_rfl, fun other later otherKey => ?_⟩⟩
          exact (highest other later otherKey).trans (not_lt.mp beaten)
    · rcases ih with stale | ⟨winner, winnerKey, winnerFresh, first, highest⟩
      · exact .inl (forall_mem_cons.mpr ⟨fun key fresh => relevant ⟨key, fresh⟩, stale⟩)
      · refine .inr ⟨winner, winnerKey, winnerFresh, ?_,
          forall_mem_cons.mpr ⟨fun key => ?_, highest⟩⟩
        · rw [find?_cons_of_neg, first]
          intro won
          obtain ⟨same, eq⟩ := carries_iff.mp won
          exact relevant ⟨same, eq ▸ winnerFresh⟩
        · by_contra higher
          exact relevant ⟨key, winnerFresh.mono (not_le.mp higher).le⟩

/-- A sub-log with the same first carrier of every winning revision writes the same
registers.
-/
theorem writeAll_eq_of_firsts {kept} (subset : ∀ w ∈ kept, w ∈ writes)
    (firsts : ∀ key revision value, writeAll registers writes key = some (revision, value)
      → kept.find? (carries key revision) = writes.find? (carries key revision))
    : writeAll registers kept = writeAll registers writes := by
  funext key
  rcases stale_or_winner registers writes key with stale | ⟨winner, rfl, fresh, first, highest⟩
  · rw [writeAll_of_stale stale, writeAll_of_stale fun w member => stale w (subset w member)]
  · have decided := writeAll_of_first fresh first highest
    rw [decided]
    refine writeAll_of_first fresh ?_ fun w member => highest w (subset w member)
    rw [firsts _ _ _ decided, first]

/-- Keep each batch that is the first to carry some wanted item. -/
def keepFirst {α : Type*} [DecidableEq α] (carried : β → List α)
    : Finset α → List β → List β
  | _, [] => []
  | wanted, batch :: rest =>
    let remaining := keepFirst carried (wanted \ (carried batch).toFinset) rest
    if (carried batch).any (· ∈ wanted) then batch :: remaining else remaining

theorem keepFirst_sublist {α : Type*} [DecidableEq α] (carried : β → List α) (wanted batches)
    : (keepFirst carried wanted batches).Sublist batches := by
  induction batches generalizing wanted with
  | nil => exact .slnil
  | cons batch rest ih =>
    unfold keepFirst
    split
    · exact (ih _).cons_cons batch
    · exact (ih _).cons batch

/-- A search that only the carriers of a wanted item answer gets the same answer from the
kept batches, since the first carrier is kept.
-/
theorem findSome?_keepFirst {α γ : Type*} [DecidableEq α] {carried : β → List α} {wanted item}
    {search : β → Option γ} (member : item ∈ wanted)
    (answers : ∀ batch, (search batch).isSome ↔ item ∈ carried batch)
    : (keepFirst carried wanted batches).findSome? search = batches.findSome? search := by
  induction batches generalizing wanted with
  | nil => rfl
  | cons batch rest ih =>
    rw [keepFirst]
    by_cases carrier : item ∈ carried batch
    · have any : (carried batch).any (· ∈ wanted) = true := by
        simpa using ⟨item, carrier, member⟩
      obtain ⟨answer, found⟩ := Option.isSome_iff_exists.mp ((answers batch).mpr carrier)
      simp [any, found]
    · have silent : search batch = none := by
        simpa [← answers batch] using carrier
      have still : item ∈ wanted \ (carried batch).toFinset := by
        simp [member, carrier]
      split <;> simp [silent, ih still]

/-- Compacting a log against the revisions it ends with does not change what it writes. -/
theorem writeAll_keepFirst {writes : β → List (Write κ ν)} {wanted}
    (complete : ∀ key revision value,
      writeAll registers (batches.flatMap writes) key = some (revision, value)
      → (key, revision) ∈ wanted)
    : writeAll registers
        ((keepFirst (fun batch => (writes batch).map fun w => (w.key, w.revision)) wanted
          batches).flatMap writes)
      = writeAll registers (batches.flatMap writes) := by
  apply writeAll_eq_of_firsts
  · intro w member
    obtain ⟨batch, kept, inBatch⟩ := mem_flatMap.mp member
    exact mem_flatMap.mpr ⟨batch, (keepFirst_sublist _ _ _).subset kept, inBatch⟩
  · intro key revision value decided
    rw [find?_flatMap, find?_flatMap]
    apply findSome?_keepFirst (complete key revision value decided)
    intro batch
    simp

/-- A register after writes at these revisions arrived in some order: it did not go back, it is
where it started or holds one of the offers, and none of the revisions is fresh for it.
-/
structure Settled (offers : ℕ × ν → Prop) (revisions : ℕ → Prop)
    (start after : Option (ℕ × ν)) : Prop where
  advances : Advances start after
  source : after = start ∨ ∃ offer, offers offer ∧ after = some offer
  stale : ∀ revision, revisions revision → ¬Fresh after revision

theorem Settled.refl (offers : ℕ × ν → Prop) (register : Option (ℕ × ν))
    : Settled offers (fun _ => False) register register :=
  ⟨.refl register, .inl rfl, fun _ impossible => impossible.elim⟩

theorem Settled.trans {early late middle}
    (first : Settled offers early start middle) (second : Settled offers late middle after)
    (split : ∀ revision, revisions revision → early revision ∨ late revision)
    : Settled offers revisions start after where
  advances := first.advances.trans second.advances
  source := by
    rcases second.source with same | offered
    · rw [same]
      exact first.source
    · exact .inr offered
  stale := by
    intro revision arrived fresh
    rcases split revision arrived with before | now
    · exact first.stale revision before (second.advances.fresh fresh)
    · exact second.stale revision now fresh

/-- A register that took an offer in is at its revision or above. -/
theorem Settled.revision_le (settled : Settled offers revisions start after)
    (arrived : revisions revision)
    : ∃ held, after = some held ∧ revision ≤ held.1 := by
  have stale := settled.stale revision arrived
  cases after with
  | none => exact absurd (fresh_none revision) stale
  | some held => exact ⟨held, rfl, not_lt.mp fun fresh => stale (fresh_some.mpr fresh)⟩

/-- Where writes of one revision have one value, the order of their arrival does not matter:
whichever of two outcomes holds an offer, the other is at its revision or above.
-/
theorem Settled.unique
    (agree : ∀ revision value value', offers (revision, value) → offers (revision, value')
      → value = value') (arrived : ∀ offer, offers offer → revisions offer.1)
    (one : Settled offers revisions start first) (other : Settled offers revisions start second)
    : first = second := by
  have kept : ∀ {after after'}, Settled offers revisions start after
      → Settled offers revisions start after' → after = start → after' = start := by
    intro after after' settled settled' same
    rcases settled'.source with same' | ⟨offer, offered, held⟩
    · exact same'
    · rcases settled'.advances with same' | ⟨revision, value, written, fresh⟩
      · exact same'
      · cases held.symm.trans written
        exact absurd (same ▸ fresh) (settled.stale revision (arrived _ offered))
  rcases one.source with same | ⟨offer, offered, held⟩
  · rw [same, kept one other same]
  · rcases other.source with same' | ⟨offer', offered', held'⟩
    · rw [same', kept other one same']
    · obtain ⟨below, at_below, le⟩ := other.revision_le (arrived _ offered)
      obtain ⟨below', at_below', le'⟩ := one.revision_le (arrived _ offered')
      cases held'.symm.trans at_below
      cases held.symm.trans at_below'
      obtain ⟨revision, value⟩ := offer
      obtain ⟨revision', value'⟩ := offer'
      obtain rfl : revision = revision' := le_antisymm le le'
      rw [held, held', agree revision value value' offered offered']

end Vgi.Lib.LastWriter
