import Vgi.Lib.Transducer
import Vgi.Storage.Memory

/-! What a storage backend is for: the last value written to each key, the values appended to
each log in their order, and one queue for each scope. A client that uses a backend knows log
ids only as what it was given, so that its answers name them by their position in their log.
The in-process backend answers every client as the ideal store does.
-/

namespace Vgi.Storage

open Lib List Memory Function

/-- A call of a client. A scan starts from the beginning or after an entry whose id the client
was given since the scope was last cleared.
-/
inductive Call where
  | kvGet (scope key : Bytes)
  | kvPut (scope key value : Bytes)
  | kvDel (scope key : Bytes)
  | append (scope ns key value : Bytes)
  | appendMany (scope ns key : Bytes) (values : List Bytes)
  | scan (scope ns key : Bytes) (after : Option Nat) (limit : Nat)
  | queuePush (scope : Bytes) (items : List Bytes)
  | queuePop (scope : Bytes)
  | clear (scope : Bytes)
deriving DecidableEq

/-- An answer, with each log id as its position among those given out. -/
inductive Answer where
  | done
  | value (bytes : Option Bytes)
  | positions (positions : List (Option Nat))
  | entries (entries : List (Option Nat × Bytes))
deriving DecidableEq

/-- The ids given out for each log since its scope was last cleared. -/
abbrev Ledger := Bytes × Bytes × Bytes → List Int

structure Client (σ : Type) where
  store : σ
  issued : Ledger

/-- The cursor of a scan. An entry that was not given out stands for the beginning. -/
def cursor (issued : List Int) : Option Nat → Int
  | none => -1
  | some position => issued.getD position (-1)

@[simp]
def Client.give {σ : Type} (client : Client σ) (store : σ) (log : Bytes × Bytes × Bytes)
    (ids : List Int) : Answer × Client σ :=
  let issued := update client.issued log (client.issued log ++ ids)
  (.positions (ids.map fun id => (issued log).idxOf? id), { store, issued })

def Call.run {σ : Type} (store : BatchStorage σ) (client : Client σ) : Call → Answer × Client σ
  | .kvGet scope key =>
    let (value, next) := store.kvGet scope key client.store
    (.value value, { client with store := next })
  | .kvPut scope key value =>
    (.done, { client with store := (store.kvPut scope key value client.store).2 })
  | .kvDel scope key => (.done, { client with store := (store.kvDel scope key client.store).2 })
  | .append scope ns key value =>
    let (id, next) := store.append scope ns key value client.store
    client.give next (scope, ns, key) [id]
  | .appendMany scope ns key values =>
    let (ids, next) := store.appendMany scope ns key values client.store
    client.give next (scope, ns, key) ids
  | .scan scope ns key after limit =>
    let issued := client.issued (scope, ns, key)
    let (entries, next) := store.scan scope ns key (cursor issued after) limit client.store
    (.entries (entries.map fun entry => (issued.idxOf? entry.1, entry.2)),
      { client with store := next })
  | .queuePush scope items =>
    (.done, { client with store := (store.queuePush scope items client.store).2 })
  | .queuePop scope =>
    let (value, next) := store.queuePop scope client.store
    (.value value, { client with store := next })
  | .clear scope =>
    (.done,
      { store := (store.clear scope client.store).2
        issued := fun log => if log.1 = scope then [] else client.issued log })

/-- A backend as a machine that answers calls. -/
def BatchStorage.machine {σ : Type} (store : BatchStorage σ)
    : Transducer Call Answer (Client σ) where
  step := fun call client => call.run store client

structure Ideal where
  kv : Bytes × Bytes → Option Bytes
  log : Bytes × Bytes × Bytes → List Bytes
  queue : Bytes → List Bytes

namespace Ideal

def empty : Ideal where
  kv := fun _ => none
  log := fun _ => []
  queue := fun _ => []

@[simp]
def appendLog (ideal : Ideal) (log : Bytes × Bytes × Bytes) (values : List Bytes) : Ideal :=
  { ideal with log := update ideal.log log (ideal.log log ++ values) }

def start (values : List Bytes) : Option Nat → Nat
  | none => 0
  | some position => if position < values.length then position + 1 else 0

def scan (values : List Bytes) (after : Option Nat) (limit : Nat) : List (Option Nat × Bytes) :=
  ((values.zipIdx.map fun entry => (some entry.2, entry.1)).drop (start values after)).take limit

/-- Everything a scope has, and nothing else, is dropped. -/
def clear (ideal : Ideal) (scope : Bytes) : Ideal where
  kv := fun entry => if entry.1 = scope then none else ideal.kv entry
  log := fun log => if log.1 = scope then [] else ideal.log log
  queue := update ideal.queue scope []

def run (ideal : Ideal) : Call → Answer × Ideal
  | .kvGet scope key => (.value (ideal.kv (scope, key)), ideal)
  | .kvPut scope key value =>
    (.done, { ideal with kv := update ideal.kv (scope, key) (some value) })
  | .kvDel scope key => (.done, { ideal with kv := update ideal.kv (scope, key) none })
  | .append scope ns key value =>
    (.positions [some (ideal.log (scope, ns, key)).length],
      ideal.appendLog (scope, ns, key) [value])
  | .appendMany scope ns key values =>
    (.positions ((range' (ideal.log (scope, ns, key)).length values.length).map some),
      ideal.appendLog (scope, ns, key) values)
  | .scan scope ns key after limit =>
    (.entries (Ideal.scan (ideal.log (scope, ns, key)) after limit), ideal)
  | .queuePush scope items =>
    (.done, { ideal with queue := update ideal.queue scope (ideal.queue scope ++ items) })
  | .queuePop scope =>
    (.value (ideal.queue scope).head?,
      { ideal with queue := update ideal.queue scope (ideal.queue scope).tail })
  | .clear scope => (.done, ideal.clear scope)

def machine : Transducer Call Answer Ideal where
  step := fun call ideal => ideal.run call

end Ideal

/-- The entries of a log are its values under the ids that were given out, in increasing
order.
-/
structure View (issued : List Int) (values : List Bytes) (entries : List (Int × Bytes))
    : Prop where
  ids : entries.map Prod.fst = issued
  values : entries.map Prod.snd = values
  increasing : issued.Pairwise (· < ·)
  nonneg : ∀ id ∈ issued, 0 ≤ id

namespace View

variable {issued : List Int} {values : List Bytes} {entries : List (Int × Bytes)}

theorem empty : View [] [] [] := ⟨rfl, rfl, .nil, by simp⟩

theorem idxOf?_getElem (increasing : issued.Pairwise (· < ·)) {position}
    (inside) : issued.idxOf? issued[position] = some position := by
  rw [idxOf?_eq_some_iff]
  refine ⟨inside, rfl, fun earlier before same => ?_⟩
  have less := pairwise_iff_getElem.mp increasing earlier position (by omega) inside before
  omega

variable (view : View issued values entries)

include view

theorem length : issued.length = values.length := by
  rw [← view.ids, ← view.values]
  simp

/-- By their positions, the entries are the values in their order. -/
theorem positions : entries.map (fun entry => (issued.idxOf? entry.1, entry.2))
      = values.zipIdx.map fun entry => (some entry.2, entry.1) := by
  obtain ⟨rfl, rfl, increasing, _⟩ := view
  refine ext_getElem (by simp) fun position inside _ => ?_
  have inEntries : position < entries.length := by simpa using inside
  have first := idxOf?_getElem increasing (show position < _ by simpa using inEntries)
  rw [getElem_map] at first
  simp [first]

omit view in
/-- The entries above an entry are those after it. -/
theorem filter_above {entries : List (Int × Bytes)}
    (increasing : (entries.map Prod.fst).Pairwise (· < ·)) {position}
    (inside : position < entries.length)
    : entries.filter (fun entry => entries[position].1 < entry.1)
      = entries.drop (position + 1) := by
  have less : ∀ {i j : Nat} (first : i < entries.length) (second : j < entries.length), i < j →
      entries[i].1 < entries[j].1 := by
    intro i j first second before
    have pair := pairwise_iff_getElem.mp increasing i j (by simpa) (by simpa) before
    simpa using pair
  have before : (entries.take (position + 1)).filter (fun entry => entries[position].1 < entry.1)
      = [] := by
    refine filter_eq_nil_iff.mpr fun entry member => ?_
    obtain ⟨place, early, rfl⟩ := getElem_of_mem member
    rw [length_take] at early
    rcases Nat.lt_or_eq_of_le (show place ≤ position by omega) with lower | rfl
    · have := less (show place < entries.length by omega) inside lower
      simp
      omega
    · simp
  have after : (entries.drop (position + 1)).filter (fun entry => entries[position].1 < entry.1)
      = entries.drop (position + 1) := by
    refine filter_eq_self.mpr fun entry member => ?_
    obtain ⟨place, late, rfl⟩ := getElem_of_mem member
    rw [length_drop] at late
    simpa using less inside (by omega) (by omega)
  have whole := congrArg₂ (· ++ ·) before after
  simp only [← filter_append, take_append_drop] at whole
  exact whole

/-- The ids above a cursor are those after its entry. -/
theorem filter_eq (after)
    : entries.filter (fun entry => cursor issued after < entry.1)
      = entries.drop (Ideal.start values after) := by
  have all : entries.filter (fun entry => -1 < entry.1) = entries := by
    refine filter_eq_self.mpr fun entry member => ?_
    have nonneg := view.nonneg entry.1 (view.ids ▸ mem_map_of_mem member)
    simp
    omega
  cases after with
  | none => exact all
  | some position =>
    by_cases inside : position < values.length
    · have place : position < entries.length := by rwa [← view.values, length_map] at inside
      have here : cursor issued (some position) = entries[position].1 := by
        simp [cursor, ← view.ids, place]
      rw [here, Ideal.start, if_pos inside]
      exact filter_above (view.ids ▸ view.increasing) place
    · have outside : cursor issued (some position) = -1 := by
        have long := view.length
        simp [cursor, show ¬position < issued.length by omega]
      rw [outside, all, Ideal.start, if_neg inside, drop_zero]

/-- A scan through the ids is a scan by positions. -/
theorem scan (after limit)
    : ((entries.filter fun entry => cursor issued after < entry.1).take limit).map
        (fun entry => (issued.idxOf? entry.1, entry.2))
      = Ideal.scan values after limit := by
  rw [view.filter_eq, Ideal.scan, ← view.positions, ← map_drop, ← map_take]

/-- Further values under ids above those given out. -/
theorem append {more : List (Int × Bytes)}
    (increasing : (more.map Prod.fst).Pairwise (· < ·))
    (above : ∀ id ∈ issued, ∀ entry ∈ more, id < entry.1) (nonneg : ∀ entry ∈ more, 0 ≤ entry.1)
    : View (issued ++ more.map Prod.fst) (values ++ more.map Prod.snd) (entries ++ more) := by
  refine ⟨by simp [view.ids], by simp [view.values], ?_, ?_⟩
  · refine pairwise_append.mpr ⟨view.increasing, increasing, ?_⟩
    intro id given next member
    obtain ⟨entry, inMore, rfl⟩ := mem_map.mp member
    exact above id given entry inMore
  · intro id member
    rcases mem_append.mp member with old | new
    · exact view.nonneg id old
    · obtain ⟨entry, inMore, rfl⟩ := mem_map.mp new
      exact nonneg entry inMore

omit view

/-- The positions of new ids follow those of the old ones. -/
theorem give {given} (increasing : (issued ++ given).Pairwise (· < ·))
    : given.map (fun id => (issued ++ given).idxOf? id)
      = (range' issued.length given.length).map some := by
  refine ext_getElem (by simp) fun position inside _ => ?_
  have inGiven : position < given.length := by simpa using inside
  have long : issued.length + position < (issued ++ given).length := by
    rw [length_append]
    omega
  have place := idxOf?_getElem increasing long
  simpa using place

end View

/-- The answer to an append that gave out increasing ids. -/
theorem Client.give_positions {σ : Type} (client : Client σ) (store log)
    {ids} (increasing : (client.issued log ++ ids).Pairwise (· < ·))
    : (client.give store log ids).1
      = .positions ((range' (client.issued log).length ids.length).map some) := by
  simp [View.give increasing]

namespace Memory

/-- The backend holds what the ideal store holds, under ids below the next one. -/
structure Holds (client : Client Inner) (ideal : Ideal) : Prop where
  kv : client.store.kv = ideal.kv
  log : ∀ log, View (client.issued log) (ideal.log log) ((client.store.log log).getD [])
  below : ∀ log, ∀ id ∈ client.issued log, id < client.store.nextId
  queue : ∀ scope, (client.store.queue scope).getD [] = ideal.queue scope
  nonneg : 0 ≤ client.store.nextId

def start : Client Inner where
  store := .default
  issued := fun _ => []

theorem Holds.start : Holds start .empty where
  kv := rfl
  log := fun _ => .empty
  below := by simp [Memory.start]
  queue := fun _ => rfl
  nonneg := Int.le_refl 0

/-- Entries in increasing order above a cursor are those from its partition point on. -/
theorem dropWhile_eq_filter {entries : List (Int × Bytes)}
    (increasing : (entries.map Prod.fst).Pairwise (· < ·)) (after)
    : entries.dropWhile (·.1 ≤ after) = entries.filter fun entry => after < entry.1 := by
  induction entries with
  | nil => rfl
  | cons entry rest ih =>
    obtain ⟨above, later⟩ := pairwise_cons.mp increasing
    by_cases below : entry.1 ≤ after
    · rw [dropWhile_cons_of_pos (by simpa using below), ih later,
        filter_cons_of_neg (by simpa using below)]
    · have rest : rest.filter (fun entry => after < entry.1) = rest := by
        refine filter_eq_self.mpr fun next member => ?_
        have := above next.1 (mem_map_of_mem member)
        simp
        omega
      rw [dropWhile_cons_of_neg (by simpa using below),
        filter_cons_of_pos (by simpa using below), rest]

variable {client : Client Inner} {ideal : Ideal} (holds : Holds client ideal)

include holds

/-- An append puts the value under the next id. -/
theorem Holds.append (scope ns key value)
    : Holds
        (client.give (append scope ns key value client.store).2 (scope, ns, key)
          [client.store.nextId]).2
        (ideal.appendLog (scope, ns, key) [value]) where
  kv := holds.kv
  queue := holds.queue
  nonneg := by
    have := holds.nonneg
    change 0 ≤ client.store.nextId + 1
    omega
  log := by
    intro log
    by_cases here : log = (scope, ns, key)
    · subst here
      have view : View (client.issued (scope, ns, key) ++ [client.store.nextId]) _ _ :=
        (holds.log (scope, ns, key)).append (by simp)
          (fun id given entry member => by
            rw [mem_singleton.mp member]
            exact holds.below _ id given)
          (fun entry member => by
            rw [mem_singleton.mp member]
            exact holds.nonneg : ∀ entry ∈ [(client.store.nextId, value)], _)
      simpa [append_eq] using view
    · simpa [append_eq, here] using holds.log log
  below := by
    intro log id member
    change id < client.store.nextId + 1
    by_cases here : log = (scope, ns, key)
    · subst here
      simp only [Client.give, update_self, mem_append, mem_singleton] at member
      rcases member with old | rfl
      · have := holds.below _ id old
        omega
      · exact Int.lt_succ _
    · simp only [Client.give, update_of_ne here] at member
      have := holds.below log id member
      omega

/-- Several appends in a row, by induction on the values. -/
theorem Holds.appendEach (scope ns key values)
    : let run := memoryFunctions.appendEach scope ns key values client.store
      run.1.length = values.length
      ∧ Holds (client.give run.2 (scope, ns, key) run.1).2
          (ideal.appendLog (scope, ns, key) values) := by
  induction values generalizing client ideal with
  | nil =>
    refine ⟨rfl, ?_⟩
    change Holds (client.give client.store (scope, ns, key) []).2 _
    simpa using holds
  | cons value rest ih =>
    obtain ⟨long, later⟩ := ih (holds.append scope ns key value)
    have run : memoryFunctions.appendEach scope ns key (value :: rest) client.store
        = let next := memoryFunctions.appendEach scope ns key rest
            (Memory.append scope ns key value client.store).2
          (client.store.nextId :: next.1, next.2) := by
      rw [FunctionStorage.appendEach, mapM_cons]
      rfl
    refine ⟨by rw [run]; exact congrArg (· + 1) long, ?_⟩
    rw [run]
    simpa using later

theorem Holds.clear (scope)
    : Holds ((Call.clear scope).run MemoryStorage client).2 (ideal.clear scope) where
  kv := by
    funext entry
    change (if entry.1 = scope then none else client.store.kv entry) = _
    rw [holds.kv]
    rfl
  log := by
    intro log
    change View (if log.1 = scope then [] else client.issued log)
      (if log.1 = scope then [] else ideal.log log)
      ((if log.1 = scope then none else client.store.log log).getD [])
    split
    · exact .empty
    · exact holds.log log
  below := by
    intro log id member
    change id ∈ (if log.1 = scope then [] else client.issued log) at member
    split at member
    · cases member
    · exact holds.below log id member
  queue := by
    intro other
    change (update client.store.queue scope none other).getD [] = update ideal.queue scope [] other
    by_cases here : other = scope
    · subst here
      simp
    · simp [here, holds.queue]
  nonneg := holds.nonneg

omit holds

/-- The in-process backend answers as the ideal store does. -/
theorem simulates : MemoryStorage.machine.Simulates Ideal.machine (fun _ _ => True) Holds := by
  intro call client ideal holds _
  cases call with
  | kvGet scope key =>
    refine ⟨?_, holds⟩
    change Answer.value (client.store.kv (scope, key)) = .value (ideal.kv (scope, key))
    rw [holds.kv]
  | kvPut scope key value | kvDel scope key =>
    exact ⟨rfl, { holds with kv := congrArg (update · _ _) holds.kv }⟩
  | append scope ns key value =>
    have next := holds.append scope ns key value
    have view := next.log (scope, ns, key)
    refine ⟨?_, next⟩
    have given := client.give_positions (append scope ns key value client.store).2
      (scope, ns, key) (by simpa using view.increasing)
    rw [(holds.log (scope, ns, key)).length] at given
    exact given
  | appendMany scope ns key values =>
    obtain ⟨long, next⟩ := holds.appendEach scope ns key values
    have view := next.log (scope, ns, key)
    refine ⟨?_, next⟩
    have given := client.give_positions
      (memoryFunctions.appendEach scope ns key values client.store).2 (scope, ns, key)
      (by simpa using view.increasing)
    rw [(holds.log (scope, ns, key)).length, long] at given
    exact given
  | scan scope ns key after limit =>
    have view := holds.log (scope, ns, key)
    have answered := view.scan after limit
    rw [← dropWhile_eq_filter (view.ids ▸ view.increasing)] at answered
    have run := scan_eq client.store scope ns key (cursor (client.issued (scope, ns, key)) after)
    constructor
    · change Answer.entries ((scan scope ns key _ limit client.store).1.map _) = _
      rw [run, answered]
      rfl
    · change Holds { client with store := (scan scope ns key _ limit client.store).2 } _
      rw [run]
      exact holds
  | queuePush scope items =>
    refine ⟨rfl, { holds with queue := fun other => ?_ }⟩
    change (update client.store.queue scope _ other).getD [] = update ideal.queue scope _ other
    by_cases here : other = scope
    · subst here
      simp [holds.queue]
    · simp [here, holds.queue]
  | queuePop scope =>
    have run := queuePop_eq client.store scope
    constructor
    · change Answer.value (queuePop scope client.store).1 = _
      rw [run, holds.queue]
      rfl
    · change Holds { client with store := (queuePop scope client.store).2 } _
      rw [run]
      have held := holds.queue scope
      rcases waiting : client.store.queue scope with _ | _ | ⟨item, rest⟩
      all_goals
        refine { holds with queue := fun other => ?_ }
        change _ = update ideal.queue scope (ideal.queue scope).tail other
        rw [← held]
        by_cases here : other = scope
        · subst here
          simp [waiting]
        · simp [here, holds.queue]
  | clear scope => exact ⟨rfl, holds.clear scope⟩

end Memory

end Vgi.Storage
