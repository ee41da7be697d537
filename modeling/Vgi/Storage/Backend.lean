import Mathlib.Algebra.Group.Nat.Defs

/-! The backend contract of the worker's state storage, the operations the storage service
speaks on the wire, and the SQLite backend the service runs on.
-/

namespace Vgi

abbrev Bytes := List UInt8

def utf8 (text : String) : Bytes := text.toUTF8.data.toList

theorem utf8_eq_iff {s t} : utf8 s = utf8 t ↔ s = t := by
  refine ⟨fun same => ?_, congrArg utf8⟩
  exact String.toByteArray_inj.mp (ByteArray.ext (Array.toList_inj.mp same))

namespace Storage

/-- Backend contract for cross-process worker state. The methods take a shared reference and
change the backend behind it, so each one is a transition of the backend's state.
-/
structure FunctionStorage (σ : Type) where
  kvGet (scope key : Bytes) : StateM σ (Option Bytes)
  kvPut (scope key value : Bytes) : StateM σ Unit
  kvDel (scope key : Bytes) : StateM σ Unit
  append (scope ns key value : Bytes) : StateM σ Int
  scan (scope ns key : Bytes) (afterId : Int) (limit : Nat) : StateM σ (List (Int × Bytes))
  queuePush (scope : Bytes) (items : List Bytes) : StateM σ Unit
  queuePop (scope : Bytes) : StateM σ (Option Bytes)
  clear (scope : Bytes) : StateM σ Unit
  gc (ttlSecs : Nat) : StateM σ Unit

/-- One storage operation. Shared by the client and the service. -/
inductive StorageOp where
  | kvGet (scope key : Bytes)
  | kvPut (scope key value : Bytes)
  | kvDel (scope key : Bytes)
  | append (scope ns key value : Bytes)
  | scan (scope ns key : Bytes) (afterId : Int) (limit : Nat)
  | queuePush (scope : Bytes) (items : List Bytes)
  | queuePop (scope : Bytes)
  | clear (scope : Bytes)
  | gc (ttlSecs : Nat)
deriving DecidableEq

/-- An op plus an optional idempotency key. -/
structure StorageRequest where
  idempotencyKey : Option String
  op : StorageOp
deriving DecidableEq

/-- An op result, shaped to each op's return type. -/
inductive StorageReply where
  | unit
  | maybeBytes (bytes : Option Bytes)
  | id (id : Int)
  | entries (entries : List (Int × Bytes))
deriving DecidableEq

def applyOp {σ : Type} (store : FunctionStorage σ) : StorageOp → StateM σ StorageReply
  | .kvGet scope key => return .maybeBytes (← store.kvGet scope key)
  | .kvPut scope key value => do
    store.kvPut scope key value
    return .unit
  | .kvDel scope key => do
    store.kvDel scope key
    return .unit
  | .append scope ns key value => return .id (← store.append scope ns key value)
  | .scan scope ns key afterId limit =>
    return .entries (← store.scan scope ns key afterId (min limit (2 ^ 64 - 1)))
  | .queuePush scope items => do
    store.queuePush scope items
    return .unit
  | .queuePop scope => return .maybeBytes (← store.queuePop scope)
  | .clear scope => do
    store.clear scope
    return .unit
  | .gc ttlSecs => do
    store.gc ttlSecs
    return .unit

/-- The bincode frames of requests and replies. Encoding a reply can be refused, decoding
can fail on any bytes.
-/
structure Wire where
  encodeRequest : StorageRequest → Bytes
  decodeRequest : Bytes → Except String StorageRequest
  encodeReply : StorageReply → Except String Bytes
  decodeReply : Bytes → Except String StorageReply

/-- What bincode documents for these types: everything encodes, and decoding inverts it. -/
structure Wire.Lawful (wire : Wire) : Prop where
  request : ∀ request, wire.decodeRequest (wire.encodeRequest request) = .ok request
  encodes : ∀ reply, ∃ bytes, wire.encodeReply reply = .ok bytes
  reply : ∀ {reply bytes}, wire.encodeReply reply = .ok bytes → wire.decodeReply bytes = .ok reply

namespace Sqlite

structure StateRow where
  scope : Bytes
  key : Bytes
  value : Bytes
deriving DecidableEq

structure LogRow where
  id : Int
  scope : Bytes
  ns : Bytes
  key : Bytes
  value : Bytes
deriving DecidableEq

structure QueueRow where
  id : Int
  scope : Bytes
  value : Bytes
deriving DecidableEq

structure TouchRow where
  scope : Bytes
  touchedAt : Int
deriving DecidableEq

/-- The four tables. Log and queue rows stand in the order of their AUTOINCREMENT ids; the
last id given out outlives the rows.
-/
structure Tables where
  functionState : List StateRow
  functionLog : List LogRow
  lastLogId : Int
  workQueue : List QueueRow
  lastQueueId : Int
  scopeTouch : List TouchRow
deriving DecidableEq

def Tables.empty : Tables where
  functionState := []
  functionLog := []
  lastLogId := 0
  workQueue := []
  lastQueueId := 0
  scopeTouch := []

/-- The LIMIT value of a row limit; `none` is unlimited. -/
def limitParam (limit : Nat) : Option Nat :=
  if limit ≥ 2 ^ 63 - 1 then none else some limit

def touch (now : Int) (scope : Bytes) : StateM Tables Unit :=
  modify fun t => { t with
    scopeTouch := t.scopeTouch.filter (·.scope ≠ scope) ++ [⟨scope, now⟩] }

/-- The statements that drop one scope from every table. -/
def deleteScope (t : Tables) (scope : Bytes) : Tables :=
  { t with
    functionState := t.functionState.filter (·.scope ≠ scope)
    functionLog := t.functionLog.filter (·.scope ≠ scope)
    workQueue := t.workQueue.filter (·.scope ≠ scope)
    scopeTouch := t.scopeTouch.filter (·.scope ≠ scope) }

def insertQueue (t : Tables) (scope item : Bytes) : Tables :=
  { t with
    workQueue := t.workQueue ++ [⟨t.lastQueueId + 1, scope, item⟩]
    lastQueueId := t.lastQueueId + 1 }

def kvGet (scope key : Bytes) : StateM Tables (Option Bytes) := do
  let rows := (← get).functionState
  return (rows.find? fun row => row.scope = scope ∧ row.key = key).map (·.value)

def kvPut (now : Int) (scope key value : Bytes) : StateM Tables Unit := do
  modify fun t => { t with
    functionState :=
      t.functionState.filter (fun row => ¬(row.scope = scope ∧ row.key = key))
        ++ [⟨scope, key, value⟩] }
  touch now scope

def kvDel (scope key : Bytes) : StateM Tables Unit :=
  modify fun t => { t with
    functionState := t.functionState.filter fun row => ¬(row.scope = scope ∧ row.key = key) }

def append (now : Int) (scope ns key value : Bytes) : StateM Tables Int := do
  let id := (← get).lastLogId + 1
  modify fun t => { t with
    functionLog := t.functionLog ++ [⟨id, scope, ns, key, value⟩]
    lastLogId := id }
  touch now scope
  return id

def scan (scope ns key : Bytes) (afterId : Int) (limit : Nat)
    : StateM Tables (List (Int × Bytes)) := do
  let rows := (← get).functionLog.filter fun row =>
    row.scope = scope ∧ row.ns = ns ∧ row.key = key ∧ row.id > afterId
  let page := match limitParam limit with
    | some count => rows.take count
    | none => rows
  return page.map fun row => (row.id, row.value)

def queuePush (now : Int) (scope : Bytes) (items : List Bytes) : StateM Tables Unit := do
  modify fun t => items.foldl (fun t item => insertQueue t scope item) t
  touch now scope

/-- Deletes the row of the scope with the lowest id and returns its value. -/
def queuePop (scope : Bytes) : StateM Tables (Option Bytes) := do
  match (← get).workQueue.find? fun row => row.scope = scope with
  | some row =>
    modify fun t => { t with workQueue := t.workQueue.filter (·.id ≠ row.id) }
    return some row.value
  | none => return none

def clear (scope : Bytes) : StateM Tables Unit := modify fun t => deleteScope t scope

/-- The age limit is cast from `u64` to `i64` and the subtraction wraps. -/
def gc (now : Int) (ttlSecs : Nat) : StateM Tables Unit := do
  let cutoff := (now - (ttlSecs : Int).bmod (2 ^ 64)).bmod (2 ^ 64)
  let stale := (← get).scopeTouch.filter (·.touchedAt < cutoff)
  modify fun t => stale.foldl (fun t row => deleteScope t row.scope) t

end Sqlite

/-- The backend at the time `now`, with every statement succeeding. -/
def SqliteStorage (now : Int) : FunctionStorage Sqlite.Tables where
  kvGet := Sqlite.kvGet
  kvPut := Sqlite.kvPut now
  kvDel := Sqlite.kvDel
  append := Sqlite.append now
  scan := Sqlite.scan
  queuePush := Sqlite.queuePush now
  queuePop := Sqlite.queuePop
  clear := Sqlite.clear
  gc := Sqlite.gc now

end Storage

end Vgi
