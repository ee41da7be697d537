import Vgi.Snapshot.Policy

/-! What one operation can do to the gates, the memo and the repository. -/

namespace Vgi.Snapshot

open Lib List

def GateAction.index? : GateAction → Option Nat
  | .begin _ => none
  | .lease index _ | .lock index | .unlock index | .check index | .release index _ => some index

namespace GateState

variable {state after : GateState} {action : GateAction}

/-- The calls that an action leaves behind: one more, or one of them changed. -/
theorem calls_next (next : state.next action = some after)
    : (∃ kind, action = .begin kind ∧ after.calls = state.calls ++ [⟨kind.rounds, .ready⟩])
      ∨ ∃ index call, action.index? = some index ∧ after.calls = state.calls.set index call := by
  cases action <;> simp only [GateState.next] at next
  all_goals repeat' split at next
  all_goals cases next
  next kind => exact .inl ⟨kind, rfl, rfl⟩
  next key _ rounds _ => -- `lease`
    refine .inr ⟨_, ⟨rounds, .leased key (state.entry key).1⟩, rfl, ?_⟩
    simp only [setCall, (entry_spec state key).2.1]
  on_goal 3 => -- `check`
    rename_i rounds key gate _
    refine .inr ⟨_, ⟨rounds, .checked key gate⟩, rfl, ?_⟩
    unfold dropLease setCall
    split <;> rfl
  all_goals exact .inr ⟨_, _, rfl, rfl⟩

end GateState

@[simp] theorem CatalogSnapshotPolicy.shared_concat (policy : CatalogSnapshotPolicy) (trace event)
    : policy.shared (trace ++ [event]) = (policy.shared trace).after policy event := by
  simp only [CatalogSnapshotPolicy.shared, foldl_append, foldl_cons, foldl_nil]

namespace Shared

variable {shared : Shared} {policy : CatalogSnapshotPolicy}

section

variable (shared) (key manifestId : String) (manifest : Manifest)

@[simp] theorem gates_remember : (shared.remember policy key manifest).gates = shared.gates := by
  unfold remember
  split <;> rfl

@[simp] theorem gates_commitIfAbsent : (shared.commitIfAbsent manifest).2.gates = shared.gates := by
  unfold commitIfAbsent
  split <;> rfl

@[simp] theorem gates_invalidate : (shared.invalidate key manifestId).2.gates = shared.gates := by
  unfold invalidate
  split <;> rfl

@[simp] theorem memo_commitIfAbsent (other)
    : (shared.commitIfAbsent manifest).2.memo other = shared.memo other := by
  unfold commitIfAbsent
  split <;> rfl

@[simp] theorem memo_invalidate (other)
    : (shared.invalidate key manifestId).2.memo other = shared.memo other := by
  unfold invalidate
  split <;> rfl

theorem memo_forget (other)
    : (shared.forget key).memo other = if other = key then none else shared.memo other := by
  unfold memo forget
  rw [find?_filter_ne]
  split <;> rfl

theorem memo_remember {other found}
    (is : (shared.remember policy key manifest).memo other = some found)
    : (other = key ∧ found = manifest) ∨ shared.memo other = some found := by
  unfold remember memo at is
  split at is
  · obtain ⟨rfl, rfl⟩ : key = other ∧ manifest = found := by simpa using is
    exact .inl ⟨rfl, rfl⟩
  · rw [find?_replace Prod.fst shared.validated (key, manifest)] at is
    split at is
    next same =>
      cases is
      exact .inl ⟨same, rfl⟩
    · exact .inr is

theorem found_remove (other)
    : (shared.remove key).found other = if other = key then none else shared.found other :=
  find?_filter_ne _ _ _ _

theorem found_put (other)
    : (shared.put manifest).found other
      = if other = manifest.cacheKey then some manifest else shared.found other :=
  find?_replace _ _ _ _

theorem cacheKey_of_found {manifest}
    (found : shared.found key = some manifest) : manifest.cacheKey = key := by
  simpa using find?_some found

end

/-- The gates change by what a call does there. -/
theorem gates_after (event)
    : (shared.after policy event).gates
      = match event.op with
        | .enter kind => (shared.gates.next (.begin kind)).getD shared.gates
        | .gate action => (shared.gates.next action).getD shared.gates
        | _ => shared.gates := by
  obtain ⟨call, op, result⟩ := event
  cases op with
  | enter kind => rfl
  | gate action => rfl
  | memoWithdraw key manifestId =>
    simp only [after]
    split <;> rfl
  | renew manifest => rcases result with error | renewed | renewed <;> rfl
  | commitIfAbsent manifest => rcases result with error | winner <;> simp [after]
  | discard key manifestId | withdraw key manifestId =>
    rcases result with error | removed <;> simp [after]
  | elsewhere change => cases change <;> rfl
  | remember key manifest => simp [after]
  | _ => rfl

variable {manifest : Manifest} {key : String} {event : SnapshotEvent}

/-- A new entry of the memo was put there by `remember`. -/
theorem memo_after (is : (shared.after policy event).memo key = some manifest)
    : event.op = .remember key manifest ∨ shared.memo key = some manifest := by
  obtain ⟨call, op, result⟩ := event
  cases op with
  | remember other offered =>
    rcases memo_remember _ _ _ is with ⟨rfl, rfl⟩ | before
    · exact .inl rfl
    · exact .inr before
  | memoRemove other =>
    simp only [after, memo_forget] at is
    split at is
    · cases is
    · exact .inr is
  | memoWithdraw other manifestId =>
    simp only [after] at is
    split at is
    · rw [memo_forget] at is
      split at is
      · cases is
      · exact .inr is
    · exact .inr is
  | renew offered => rcases result with error | renewed | renewed <;> exact .inr is
  | commitIfAbsent offered =>
    rcases result with error | winner
    · exact .inr is
    · exact .inr (by simpa [after] using is)
  | discard other manifestId | withdraw other manifestId =>
    rcases result with error | removed
    · exact .inr is
    · exact .inr (by simpa [after] using is)
  | elsewhere change => cases change <;> exact .inr is
  | _ => exact .inr is

theorem found_invalidate {manifestId other}
    (is : (shared.invalidate key manifestId).2.found other = some manifest)
    : shared.found other = some manifest ∧ ¬ (other = key ∧ manifest.manifestId = manifestId) := by
  unfold invalidate at is
  split at is
  · rw [found_remove] at is
    split at is
    · cases is
    next ne => exact ⟨is, fun same => ne same.1⟩
  next absent =>
    refine ⟨is, ?_⟩
    rintro ⟨rfl, same⟩
    refine absent ?_
    unfold holdsId
    simp only [show shared.found other = some manifest from is, Option.any_some, same, decide_true]

/-- A manifest is found that was found before, or that was committed, renewed or put there. -/
theorem found_after (is : (shared.after policy event).found key = some manifest)
    : shared.found key = some manifest
      ∨ manifest.cacheKey = key
        ∧ ((shared.found key = none
            ∧ ∃ call winner, event = ⟨call, .commitIfAbsent manifest, .ok winner⟩)
          ∨ (∃ call old, event = ⟨call, .renew old, .ok (some manifest)⟩)
          ∨ ∃ call result, event = ⟨call, .elsewhere (.put manifest), result⟩) := by
  obtain ⟨call, op, result⟩ := event
  cases op with
  | remember other offered =>
    refine .inl ?_
    simp only [after, remember] at is
    split at is <;> exact is
  | memoWithdraw other manifestId =>
    refine .inl ?_
    simp only [after] at is
    split at is <;> exact is
  | renew old =>
    rcases result with error | renewed | renewed
    · exact .inl is
    · exact .inl is
    · simp only [after, found_put] at is
      split at is
      next same =>
        cases is
        exact .inr ⟨same.symm, .inr (.inl ⟨call, old, rfl⟩)⟩
      · exact .inl is
  | commitIfAbsent offered =>
    rcases result with error | winner
    · exact .inl is
    · simp only [after, commitIfAbsent] at is
      split at is
      · exact .inl is
      next absent =>
        rw [found_put] at is
        split at is
        next same =>
          cases is
          subst same
          exact .inr ⟨rfl, .inl ⟨absent, call, winner, rfl⟩⟩
        · exact .inl is
  | discard other manifestId | withdraw other manifestId =>
    rcases result with error | removed
    · exact .inl is
    · exact .inl (found_invalidate is).1
  | elsewhere change =>
    cases change with
    | put offered =>
      simp only [after, found_put] at is
      split at is
      next same =>
        cases is
        exact .inr ⟨same.symm, .inr (.inr ⟨call, result, rfl⟩)⟩
      · exact .inl is
    | remove other =>
      simp only [after, found_remove] at is
      split at is
      · cases is
      · exact .inl is
  | _ => exact .inl is

/-- A renewal returns the manifest that is found for the key then; it has the id of the one
that was found before.
-/
theorem renewal_spec {old renewed offered} (is : shared.renewal old offered = some renewed)
    : renewed.cacheKey = old.cacheKey
      ∧ ∃ winner, shared.found old.cacheKey = some winner
        ∧ winner.manifestId = renewed.manifestId := by
  unfold renewal at is
  repeat' split at is
  all_goals cases is
  next found fits =>
    exact ⟨fits.2.2.trans (cacheKey_of_found _ _ found), _, found, fits.2.1.symm⟩
  next found _ => exact ⟨cacheKey_of_found _ _ found, _, found, rfl⟩

end Shared

end Vgi.Snapshot
