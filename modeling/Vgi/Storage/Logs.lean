import Vgi.Storage.Ideal

/-! The logs of a backend, whatever keeps them: an append puts its value behind those of its
log under a greater id, a scan of one row answers the first one above its cursor, and any
other operation leaves a log alone or drops it.
-/

namespace Vgi.Storage

open List Function Memory

def StorageOp.isAppend : StorageOp → Bool
  | .append .. => true
  | _ => false

/-- A backend whose states show their logs. -/
structure LogStorage {σ : Type} (store : FunctionStorage σ) where
  entries : σ → Bytes × Bytes × Bytes → List (Int × Bytes)
  Sound : σ → Prop
  increasing : ∀ {state}, Sound state → ∀ log, ((entries state log).map Prod.fst).Pairwise (· < ·)
  nonneg : ∀ {state}, Sound state → ∀ log, ∀ entry ∈ entries state log, 0 ≤ entry.1
  append_sound : ∀ {state}, Sound state → ∀ scope ns key value,
    Sound (store.append scope ns key value state).2
  append_entries : ∀ {state}, Sound state → ∀ scope ns key value,
    entries (store.append scope ns key value state).2
      = update (entries state) (scope, ns, key)
          (entries state (scope, ns, key) ++ [((store.append scope ns key value state).1, value)])
  scan_first : ∀ {state}, Sound state → ∀ scope ns key after,
    store.scan scope ns key after 1 state
      = (((entries state (scope, ns, key)).filter (after < ·.1)).take 1, state)
  other_sound : ∀ {state}, Sound state → ∀ op, op.isAppend = false →
    Sound (applyOp store op state).2
  other_entries : ∀ {state}, Sound state → ∀ op, op.isAppend = false →
    ∀ log, entries (applyOp store op state).2 log = entries state log
      ∨ entries (applyOp store op state).2 log = []

/-- The cursor behind the first entries of a log. -/
def cursorAfter (entries : List (Int × Bytes)) : Nat → Int
  | 0 => -1
  | position + 1 => ((entries[position]?).map Prod.fst).getD (-1)

/-- The entries above such a cursor are the others. -/
theorem filter_cursorAfter {entries : List (Int × Bytes)}
    (increasing : (entries.map Prod.fst).Pairwise (· < ·))
    (nonneg : ∀ entry ∈ entries, 0 ≤ entry.1) {position} (within : position ≤ entries.length)
    : entries.filter (fun entry => cursorAfter entries position < entry.1)
      = entries.drop position := by
  cases position with
  | zero =>
    refine filter_eq_self.mpr fun entry member => ?_
    have := nonneg entry member
    exact decide_eq_true (show -1 < entry.1 by omega)
  | succ position =>
    have inside : position < entries.length := within
    have here : cursorAfter entries (position + 1) = entries[position].1 := by
      simp [cursorAfter, inside]
    rw [here]
    exact View.filter_above increasing inside

namespace Memory

def entries (inner : Inner) (log : Bytes × Bytes × Bytes) : List (Int × Bytes) :=
  (inner.log log).getD []

/-- Every log is in the order of its ids, which are below the next one. -/
structure Sound (inner : Inner) : Prop where
  increasing : ∀ log, ((entries inner log).map Prod.fst).Pairwise (· < ·)
  issued : ∀ log, ∀ entry ∈ entries inner log, 0 ≤ entry.1 ∧ entry.1 < inner.nextId
  nextId : 0 ≤ inner.nextId

theorem append_entries (inner scope ns key value)
    : entries (append scope ns key value inner).2
      = update (entries inner) (scope, ns, key)
          (entries inner (scope, ns, key) ++ [(inner.nextId, value)]) := by
  funext log
  by_cases here : log = (scope, ns, key)
  · subst here
    simp [entries, append_eq]
  · simp [entries, append_eq, here]

variable {inner : Inner}

theorem Sound.append (sound : Sound inner) (scope ns key value)
    : Sound (append scope ns key value inner).2 where
  nextId := by
    have := sound.nextId
    change 0 ≤ inner.nextId + 1
    omega
  increasing := by
    intro log
    rw [append_entries]
    by_cases here : log = (scope, ns, key)
    · subst here
      rw [update_self, map_append, pairwise_append]
      refine ⟨sound.increasing _, by simp, ?_⟩
      intro id earlier last is
      obtain ⟨entry, member, rfl⟩ := mem_map.mp earlier
      simp only [map_cons, map_nil, mem_singleton] at is
      rw [is]
      exact (sound.issued _ entry member).2
    · rw [update_of_ne here]
      exact sound.increasing log
  issued := by
    intro log entry member
    have next := sound.nextId
    change 0 ≤ entry.1 ∧ entry.1 < inner.nextId + 1
    rw [append_entries] at member
    by_cases here : log = (scope, ns, key)
    · subst here
      rw [update_self, mem_append, mem_singleton] at member
      rcases member with old | rfl
      · have := sound.issued _ entry old
        omega
      · omega
    · rw [update_of_ne here] at member
      have := sound.issued log entry member
      omega

/-- An operation that leaves each log alone or drops it, and gives out no ids. -/
theorem Sound.other {next} (sound : Sound inner) (ids : next.nextId = inner.nextId)
    (logs : ∀ log, entries next log = entries inner log ∨ entries next log = [])
    : Sound next where
  nextId := by
    rw [ids]
    exact sound.nextId
  increasing := by
    intro log
    rcases logs log with same | dropped
    · rw [same]
      exact sound.increasing log
    · simp [dropped]
  issued := by
    intro log entry member
    rcases logs log with same | dropped
    · rw [same] at member
      rw [ids]
      exact sound.issued log entry member
    · simp [dropped] at member

theorem other_logs (inner op) (other : op.isAppend = false)
    : ((applyOp memoryFunctions op inner).2).nextId = inner.nextId
      ∧ ∀ log, entries (applyOp memoryFunctions op inner).2 log = entries inner log
        ∨ entries (applyOp memoryFunctions op inner).2 log = [] := by
  cases op with
  | append scope ns key value => cases other
  | scan scope ns key after limit =>
    have run : (applyOp memoryFunctions (.scan scope ns key after limit) inner).2 = inner :=
      congrArg Prod.snd (scan_eq inner scope ns key after (min limit (2 ^ 64 - 1)))
    rw [run]
    exact ⟨rfl, fun _ => .inl rfl⟩
  | queuePop scope =>
    have run : (applyOp memoryFunctions (.queuePop scope) inner).2 = (queuePop scope inner).2 := rfl
    rw [run, queuePop_eq]
    split <;> exact ⟨rfl, fun _ => .inl rfl⟩
  | clear scope =>
    refine ⟨rfl, fun log => ?_⟩
    change (if log.1 = scope then none else inner.log log).getD [] = _
      ∨ (if log.1 = scope then none else inner.log log).getD [] = []
    split
    · exact .inr rfl
    · exact .inl rfl
  | _ => exact ⟨rfl, fun _ => .inl rfl⟩

end Memory

/-- The logs of the in-process backend. -/
def memoryLogs : LogStorage memoryFunctions where
  entries := entries
  Sound := Sound
  increasing := fun sound => sound.increasing
  nonneg := fun sound log entry member => (sound.issued log entry member).1
  append_sound := fun sound => sound.append
  append_entries := fun _ => append_entries _
  scan_first := by
    intro inner sound scope ns key after
    rw [← dropWhile_eq_filter (sound.increasing _)]
    exact scan_eq inner scope ns key after 1
  other_sound := fun sound op other =>
    sound.other (other_logs _ op other).1 (other_logs _ op other).2
  other_entries := fun _ op other => (other_logs _ op other).2

namespace Sqlite

def LogRow.inLog (log : Bytes × Bytes × Bytes) (row : LogRow) : Bool :=
  row.scope = log.1 ∧ row.ns = log.2.1 ∧ row.key = log.2.2

def entries (t : Tables) (log : Bytes × Bytes × Bytes) : List (Int × Bytes) :=
  (t.functionLog.filter (LogRow.inLog log)).map fun row => (row.id, row.value)

variable {t next : Tables} (now : Int)

theorem append_entries (t scope ns key value)
    : entries (append now scope ns key value t).2
      = update (entries t) (scope, ns, key)
          (entries t (scope, ns, key) ++ [(t.lastLogId + 1, value)]) := by
  have rows : (append now scope ns key value t).2.functionLog
      = t.functionLog ++ [⟨t.lastLogId + 1, scope, ns, key, value⟩] := rfl
  funext log
  rw [entries, rows, filter_append, map_append]
  by_cases here : log = (scope, ns, key)
  · subst here
    simp [entries, LogRow.inLog]
  · have other : ¬(scope = log.1 ∧ ns = log.2.1 ∧ key = log.2.2) := by
      rintro ⟨rfl, rfl, rfl⟩
      exact here rfl
    rw [update_of_ne here]
    simp [entries, LogRow.inLog, other]

/-- No ids are given out, and each log stays or is dropped. -/
def Keeps (t next : Tables) : Prop :=
  next.lastLogId = t.lastLogId
  ∧ ∀ log, entries next log = entries t log ∨ entries next log = []

theorem Keeps.of_rows (ids : next.lastLogId = t.lastLogId)
    (rows : next.functionLog = t.functionLog) : Keeps t next :=
  ⟨ids, fun log => .inl (by rw [entries, entries, rows])⟩

theorem Keeps.trans {last} (first : Keeps t next) (second : Keeps next last) : Keeps t last := by
  refine ⟨second.1.trans first.1, fun log => ?_⟩
  rcases second.2 log with same | dropped
  · rw [same]
    exact first.2 log
  · exact .inr dropped

theorem keeps_deleteScope (t scope) : Keeps t (deleteScope t scope) := by
  refine ⟨rfl, fun log => ?_⟩
  by_cases here : log.1 = scope
  · refine .inr ?_
    simp +contextual [entries, deleteScope, LogRow.inLog, here]
  · refine .inl (congrArg (map _) ?_)
    rw [deleteScope, filter_filter]
    refine filter_congr fun row _ => ?_
    by_cases inside : row.scope = log.1 <;> simp [LogRow.inLog, inside, here]

theorem other_keeps (t op) (other : op.isAppend = false)
    : Keeps t (applyOp (SqliteStorage now) op t).2 := by
  have same : Keeps t t := .of_rows rfl rfl
  cases op with
  | append scope ns key value => cases other
  | queuePush scope items =>
    have pushed : Keeps t (items.foldl (fun t item => insertQueue t scope item) t) :=
      foldlRecOn items _ same fun _ kept _ _ => kept.trans (.of_rows rfl rfl)
    exact pushed.trans (.of_rows rfl rfl)
  | queuePop scope =>
    change Keeps t (queuePop scope t).2
    simp only [queuePop, bind, StateT.bind, MonadState.get, getThe, MonadStateOf.get, StateT.get,
      pure]
    cases t.workQueue.find? fun row => row.scope = scope with
    | some row | none => exact .of_rows rfl rfl
  | clear scope => exact keeps_deleteScope t scope
  | gc ttlSecs => exact foldlRecOn _ _ same fun _ kept _ _ => kept.trans (keeps_deleteScope _ _)
  | _ => exact .of_rows rfl rfl

/-- Calls at their times, each with its answer. -/
def answers : List (Int × StorageOp) → Tables → List (StorageOp × StorageReply) × Tables
  | [], t => ([], t)
  | (now, op) :: rest, t =>
    let call := applyOp (SqliteStorage now) op t
    let later := answers rest call.2
    ((op, call.1) :: later.1, later.2)

/-- The id of an append, with its log and its value. -/
def appended : StorageOp × StorageReply → Option ((Bytes × Bytes × Bytes) × Int × Bytes)
  | (.append scope ns key value, .id id) => some ((scope, ns, key), id, value)
  | _ => none

theorem appended_other {op} (other : op.isAppend = false) (reply)
    : appended (op, reply) = none := by
  cases op with
  | append scope ns key value => cases other
  | _ => rfl

/-- The ids go on from the last one, and a log gains nothing but what is appended to it. -/
theorem answers_logs (calls : List (Int × StorageOp)) (t : Tables)
    : (((answers calls t).1.filterMap appended).map (·.2.1)).Pairwise (· < ·)
      ∧ (∀ call ∈ (answers calls t).1.filterMap appended, t.lastLogId < call.2.1)
      ∧ ∀ log, entries (answers calls t).2 log <+ entries t log
        ++ (((answers calls t).1.filterMap appended).filter (·.1 = log)).map Prod.snd := by
  induction calls generalizing t with
  | nil => simp [answers]
  | cons call rest ih =>
    obtain ⟨now, op⟩ := call
    obtain ⟨ordered, above, logs⟩ := ih (applyOp (SqliteStorage now) op t).2
    simp only [answers]
    cases other : op.isAppend with
    | false =>
      have kept := other_keeps now t op other
      rw [filterMap_cons_none (appended_other other _)]
      refine ⟨ordered, fun call member => kept.1 ▸ above call member, fun log => ?_⟩
      refine (logs log).trans (Sublist.append_right ?_ _)
      rcases kept.2 log with same | dropped
      · exact same ▸ Sublist.refl _
      · exact dropped ▸ nil_sublist _
    | true =>
      cases op with
      | append scope ns key value =>
        have first : appended (.append scope ns key value,
            (applyOp (SqliteStorage now) (.append scope ns key value) t).1)
          = some ((scope, ns, key), t.lastLogId + 1, value) := rfl
        rw [filterMap_cons_some first]
        refine ⟨pairwise_cons.mpr ⟨?_, ordered⟩, forall_mem_cons.mpr ⟨Int.lt_succ _, ?_⟩, ?_⟩
        · exact forall_mem_map.mpr above
        · exact fun call member => Int.lt_trans (Int.lt_succ _) (above call member)
        · intro log
          refine (logs log).trans ?_
          change entries (append now scope ns key value t).2 log ++ _ <+ _
          rw [append_entries]
          by_cases here : log = (scope, ns, key)
          · subst here
            simp
          · simp [here, Ne.symm here]
      | _ => cases other

end Sqlite

end Vgi.Storage
