import Vgi.Lib.Machine
import Vgi.Rpc
import Vgi.Window.Cache

/-! The window calls of one process as steps on the shared store and the partition cache. A
partition is kept under three store keys, written and read one at a time, and none of the
calls holds a lock from one step to the next.
-/

namespace Vgi.Window

open Lib Function

/-- The three parts a partition is stored as. -/
inductive Suffix where
  | p
  | o
  | m
deriving DecidableEq

def Suffix.text : Suffix → String
  | .p => "p"
  | .o => "o"
  | .m => "m"

def winKey (partition : Int) (suffix : Suffix) : Bytes :=
  utf8 ("win_" ++ toString partition ++ "_" ++ suffix.text)

/-- The request of an init. -/
structure WindowInit where
  partitionBatch : Bytes
  outputSchema : Bytes
  filterMask : Bytes
deriving DecidableEq

/-- What an init leaves under each of the three keys. An empty mask is not stored. -/
def WindowInit.stored (dto : WindowInit) : Suffix → Option Bytes
  | .p => some dto.partitionBatch
  | .o => some dto.outputSchema
  | .m => if dto.filterMask = [] then none else some dto.filterMask

/-- The reader of Arrow IPC streams. -/
structure Ipc (Batch Schema : Type) where
  readBatch : Bytes → Result Batch
  readSchema : Bytes → Result Schema
  numRows : Batch → Nat

section

variable {Batch Schema : Type}

variable (ipc : Ipc Batch Schema)

/-- Rows beyond the end of the mask pass. -/
def decodeWindowPartition (pb os : Bytes) (mask : Option Bytes)
    : Result (CachedWindowPartition Batch Schema) := do
  let partition ← ipc.readBatch pb
  let outputSchema ← ipc.readSchema os
  let mask := (mask.filter (· ≠ [])).map fun bytes =>
    (List.range (ipc.numRows partition)).map fun i =>
      match bytes[i / 8]? with
      | some byte => byte &&& ((1 : UInt8) <<< (i % 8).toUInt8) ≠ 0
      | none => true
  return { partition, outputSchema, mask }

def WindowInit.decode (dto : WindowInit)
    : Result (CachedWindowPartition Batch Schema) :=
  decodeWindowPartition ipc dto.partitionBatch dto.outputSchema (some dto.filterMask)

/-- What is stored decodes to what the init decoded. -/
theorem decode_stored (dto : WindowInit)
    : decodeWindowPartition ipc dto.partitionBatch dto.outputSchema (dto.stored .m)
      = dto.decode ipc := by
  unfold WindowInit.decode WindowInit.stored
  by_cases empty : dto.filterMask = []
  · simp [empty, decodeWindowPartition, Option.filter]
  · simp [empty]

inductive Kind where
  | init (key : Key) (dto : WindowInit)
  | load (key : Key)
  | windowDestructor (key : Key)
  | aggregateDestructor (exec : Bytes)
deriving DecidableEq

def Kind.changes : Kind → Key → Bool
  | .init own _, key => own = key
  | .load _, _ => false
  | .windowDestructor own, key => own = key
  | .aggregateDestructor exec, key => key.exec = exec

def Kind.isInit : Kind → Bool
  | .init .. => true
  | _ => false

/-- The next step of a call, with what it holds in its local variables. -/
inductive Phase (Batch Schema : Type) where
  | lookup
  | snapshot
  | check (todo : List (Key × Nat))
  | expel (key : Key) (owner : Nat) (todo : List (Key × Nat))
  | remove
  | write (suffix : Suffix) (generation : Nat) (content : CachedWindowPartition Batch Schema)
  | takeGeneration
  | readP (generation : Nat)
  | readO (generation : Nat) (pb : Bytes)
  | readM (generation : Nat) (pb os : Bytes)
  | insert (generation : Nat) (content : CachedWindowPartition Batch Schema)
  | delete (suffix : Suffix)
  | clear
  | clearExecution
  | done (result : Result (Option (CachedWindowPartition Batch Schema)))
deriving DecidableEq

def Phase.isDone : Phase Batch Schema → Bool
  | .done _ => true
  | _ => false

/-- A call in progress. `due` is an observation of a load: the init that had returned when the
load started, as long as no other call that changes the key has started since.
-/
structure Call (Batch Schema : Type) where
  kind : Kind
  phase : Phase Batch Schema
  due : Option WindowInit
deriving DecidableEq

/-- The store, the cache and the calls of a process. `current` and `settled` are observations:
the init that invalidated a key last, with the number of parts it has written, and the init
that returned last. Both are forgotten when another call that changes the key starts.
-/
structure Process (Batch Schema : Type) where
  kv : Bytes → Bytes → Option Bytes
  cache : Inner (CachedWindowPartition Batch Schema)
  calls : Nat → Option (Call Batch Schema)
  current : Key → Option (WindowInit × Nat)
  settled : Key → Option WindowInit

inductive Action where
  | start (index : Nat) (kind : Kind)
  | advance (index : Nat)
deriving DecidableEq

variable (process : Process Batch Schema)

def Process.stored (key : Key) (suffix : Suffix) : Option Bytes :=
  process.kv key.exec (winKey key.partition suffix)

def Process.store (key : Key) (suffix : Suffix) (value : Option Bytes) : Process Batch Schema :=
  { process with
    kv := update process.kv key.exec
      (update (process.kv key.exec) (winKey key.partition suffix) value) }

def Process.setPhase (index : Nat) (call : Call Batch Schema) (phase : Phase Batch Schema)
    : Process Batch Schema :=
  { process with calls := update process.calls index (some { call with phase }) }

/-- Where a call goes on after its prune. -/
def Kind.afterPrune : Kind → Phase Batch Schema
  | .init .. => .remove
  | .load _ => .takeGeneration
  | .windowDestructor _ | .aggregateDestructor _ => .done (.ok none)

def Kind.prune (kind : Kind) : List (Key × Nat) → Phase Batch Schema
  | [] => kind.afterPrune
  | todo => .check todo

def Kind.first : Kind → Phase Batch Schema
  | .init .. => .snapshot
  | .load _ => .lookup
  | .windowDestructor _ => .delete .p
  | .aggregateDestructor _ => .clear

/-- A load whose key another call is about to change is no longer due its init. -/
def Call.release (kind : Kind) (call : Call Batch Schema) : Call Batch Schema :=
  match call.kind with
  | .load key => if kind.changes key ∧ ¬call.phase.isDone then { call with due := none } else call
  | _ => call

def Process.start (index : Nat) (kind : Kind) : Process Batch Schema :=
  let due := match kind with
    | .load key => process.settled key
    | _ => none
  { process with
    calls := update (fun other => (process.calls other).map (Call.release kind)) index
      (some ⟨kind, kind.first, due⟩)
    current := fun key => if kind.changes key then none else process.current key
    settled := fun key => if kind.changes key then none else process.settled key }

variable (limits : Limits (CachedWindowPartition Batch Schema))

/-- The prune's check of one entry, outside the cache's lock: alive as long as its output
schema is stored.
-/
def Process.check (index : Nat) (call : Call Batch Schema) (key : Key) (owner : Nat)
    (todo : List (Key × Nat)) : Process Batch Schema :=
  if (process.stored key .o).isSome then process.setPhase index call (call.kind.prune todo)
  else process.setPhase index call (.expel key owner todo)

def Process.expel (index : Nat) (call : Call Batch Schema) (key : Key) (owner : Nat)
    (todo : List (Key × Nat)) : Process Batch Schema :=
  let cache := if process.cache.isStill key owner then process.cache.bump.removeKey key
    else process.cache
  { process.setPhase index call (call.kind.prune todo) with cache }

variable (process : Process Batch Schema)

/-- Invalidates the key and decodes the request. A request that does not decode ends the
call.
-/
def Process.removeForInit (index : Nat)
    (call : Call Batch Schema) (key : Key) (dto : WindowInit) : Process Batch Schema :=
  let removed := process.cache.remove key
  match dto.decode ipc with
  | .ok content =>
    { process.setPhase index call (.write .p removed.1 content) with
      cache := removed.2
      current := update process.current key (some (dto, 0)) }
  | .error e => { process.setPhase index call (.done (.error e)) with cache := removed.2 }

def Suffix.index : Suffix → Nat
  | .p => 0
  | .o => 1
  | .m => 2

def Process.write (process : Process Batch Schema) (index : Nat) (call : Call Batch Schema)
    (key : Key) (dto : WindowInit) (suffix : Suffix) (generation : Nat)
    (content : CachedWindowPartition Batch Schema) : Process Batch Schema :=
  let phase := match suffix with
    | .p => .write .o generation content
    | .o => .write .m generation content
    | .m => .insert generation content
  { (process.store key suffix (dto.stored suffix)).setPhase index call phase with
    current := update process.current key (some (dto, suffix.index + 1)) }

def Process.insert (index : Nat) (call : Call Batch Schema)
    (key : Key) (generation : Nat) (content : CachedWindowPartition Batch Schema)
    (result : Option (CachedWindowPartition Batch Schema)) : Process Batch Schema :=
  { process.setPhase index call (.done (.ok result)) with
    cache := process.cache.insertIfCurrent limits key index content generation }

def Process.stepLoad (index : Nat) (call : Call Batch Schema)
    (key : Key) : Phase Batch Schema → Option (Process Batch Schema)
  | .lookup =>
    let (found, cache) := process.cache.lookup key
    match found with
    | some slot => some { process.setPhase index call (.done (.ok (some slot.content))) with cache }
    | none => some { process.setPhase index call .snapshot with cache }
  | .takeGeneration =>
    let (_, cache) := process.cache.lookup key
    some { process.setPhase index call (.readP process.cache.generation) with cache }
  | .readP generation =>
    match process.stored key .p with
    | some pb => some (process.setPhase index call (.readO generation pb))
    | none => some (process.setPhase index call (.done (.error (runtimeError
        s!"aggregate_window: unknown partition_id={key.partition}"))))
  | .readO generation pb =>
    match process.stored key .o with
    | some os => some (process.setPhase index call (.readM generation pb os))
    | none => some (process.setPhase index call (.done (.error
        (runtimeError "aggregate_window: missing output schema"))))
  | .readM generation pb os =>
    match decodeWindowPartition ipc pb os (process.stored key .m) with
    | .ok content => some (process.setPhase index call (.insert generation content))
    | .error e => some (process.setPhase index call (.done (.error e)))
  | .insert generation content =>
    some (process.insert limits index call key generation content (some content))
  | _ => none

def Process.stepInit (index : Nat) (call : Call Batch Schema)
    (key : Key) (dto : WindowInit) : Phase Batch Schema → Option (Process Batch Schema)
  | .remove => some (process.removeForInit ipc index call key dto)
  | .write suffix generation content =>
    some (process.write index call key dto suffix generation content)
  | .insert generation content =>
    some { process.insert limits index call key generation content none with
      settled := update process.settled key (some dto) }
  | _ => none

def Process.stepWindowDestructor (index : Nat) (call : Call Batch Schema) (key : Key)
    : Phase Batch Schema → Option (Process Batch Schema)
  | .delete suffix =>
    let phase := match suffix with
      | .p => .delete .o
      | .o => .delete .m
      | .m => .remove
    some ((process.store key suffix none).setPhase index call phase)
  | .remove =>
    some { process.setPhase index call .snapshot with cache := (process.cache.remove key).2 }
  | _ => none

def Process.stepAggregateDestructor (index : Nat) (call : Call Batch Schema) (exec : Bytes)
    : Phase Batch Schema → Option (Process Batch Schema)
  | .clear =>
    some { process.setPhase index call .clearExecution with
      kv := update process.kv exec fun _ => none }
  | .clearExecution =>
    some { process.setPhase index call (.done (.ok none)) with
      cache := process.cache.clearExecution exec }
  | _ => none

/-- One step of what only this kind of call does. -/
def Process.stepKind (index : Nat) (call : Call Batch Schema)
    : Option (Process Batch Schema) :=
  match call.kind with
  | .load key => process.stepLoad ipc limits index call key call.phase
  | .init key dto => process.stepInit ipc limits index call key dto call.phase
  | .windowDestructor key => process.stepWindowDestructor index call key call.phase
  | .aggregateDestructor exec => process.stepAggregateDestructor index call exec call.phase

/-- One step of a call: of its prune, or of what only its kind does. -/
def Process.advance (index : Nat) (call : Call Batch Schema)
    : Option (Process Batch Schema) :=
  match call.phase with
  | .snapshot => some (process.setPhase index call (call.kind.prune process.cache.snapshot))
  | .check ((key, owner) :: todo) => some (process.check index call key owner todo)
  | .expel key owner todo => some (process.expel index call key owner todo)
  | _ => process.stepKind ipc limits index call

def Process.next : Action → Option (Process Batch Schema)
  | .start index kind =>
    match process.calls index with
    | some _ => none
    | none => some (process.start index kind)
  | .advance index => (process.calls index).bind (process.advance ipc limits index)

/-- A process starts on any store with an empty cache. -/
structure Process.Initial (process : Process Batch Schema) : Prop where
  cache : process.cache = .empty
  calls : ∀ index, process.calls index = none
  current : ∀ key, process.current key = none
  settled : ∀ key, process.settled key = none

def windowMachine : Machine (Process Batch Schema) Action where
  initial := Process.Initial
  next := Process.next ipc limits

end

end Vgi.Window
