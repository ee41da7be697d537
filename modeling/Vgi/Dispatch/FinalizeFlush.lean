import Vgi.Dispatch.Continuation
import Vgi.Storage.Logs

/-! The FINALIZE flush of a table-in-out function over HTTP. Its batches are put into a log of
the shared store, one row each, and a producer reads them back one at a time; the position of
the reader rides the continuation token.
-/

namespace Vgi.Dispatch

open Arrow Lib Pushdown Storage

/-- The bytes of a flushed batch and of a reader's position. -/
structure FlushCodec where
  encodeBatch : RecordBatch → Schema → Result Bytes
  decodeBatch : Bytes → Result RecordBatch
  encodeResume : Bytes × Int × Int → Bytes
  decodeResume : Bytes → Option (Bytes × Int × Int)

/-- What Arrow IPC and bincode document: reading inverts writing, and a position takes some
bytes.
-/
structure FlushCodec.Lawful (codec : FlushCodec) : Prop where
  batches : ∀ {batch schema bytes}, codec.encodeBatch batch schema = .ok bytes →
    codec.decodeBatch bytes = .ok batch
  positions : ∀ position, codec.decodeResume (codec.encodeResume position) = some position
  some_bytes : ∀ position, codec.encodeResume position ≠ []

def tioFinalizeNs : Bytes := utf8 "_vgi/tio_finalize_flush"

structure FinalizeFlushProducer where
  scope : Bytes
  key : Bytes
  /-- The log id of the last batch emitted. -/
  cursor : Int
  /-- The batches still owed. -/
  remaining : Int
  functionName : String

namespace FinalizeFlushProducer

variable {σ : Type}

def rowsGone (producer : FinalizeFlushProducer) : RpcError :=
  runtimeError (s!"cannot resume the FINALIZE flush for '{producer.functionName}': "
    ++ s!"{producer.remaining} of its persisted batches are "
    ++ "gone from storage. The continuation is served by whichever worker "
    ++ "instance receives it, so the storage backend must be shared across "
    ++ "every instance behind the endpoint (and must outlive a single "
    ++ "request); an in-memory store cannot serve HTTP continuations.")

/-- Reads one row. The position moves before the row is decoded. -/
def nextBatch (codec : FlushCodec) (store : FunctionStorage σ) (producer : FinalizeFlushProducer)
    : StateM σ (Result (Option RecordBatch) × FinalizeFlushProducer) :=
  if producer.remaining ≤ 0 then return (.ok none, producer)
  else do
    let rows ← store.scan producer.scope tioFinalizeNs producer.key producer.cursor 1
    match rows.head? with
    | none => return (.error producer.rowsGone, producer)
    | some (id, value) =>
      return ((codec.decodeBatch value).map some,
        { producer with cursor := id, remaining := producer.remaining - 1 })

def encodeResume (codec : FlushCodec) (producer : FinalizeFlushProducer) : Bytes :=
  codec.encodeResume (producer.key, producer.cursor, producer.remaining)

def restoreResume (codec : FlushCodec) (producer : FinalizeFlushProducer) (bytes : Bytes)
    : FinalizeFlushProducer :=
  if bytes = [] then producer
  else
    match codec.decodeResume bytes with
    | some (key, cursor, remaining) => { producer with key, cursor, remaining }
    | none => producer

/-- The producer's methods; the others are the trait's defaults. -/
def ops (codec : FlushCodec) (store : FunctionStorage σ)
    : TableProducer FinalizeFlushProducer σ where
  nextBatch := nextBatch codec store
  encodeResume := encodeResume codec
  restoreResume := restoreResume codec
  resumeSupported := fun _ => true
  lastMetadata := fun _ => none
  onDynamicFilters := fun producer _ => producer
  onConditionalRequest := fun producer _ => producer

end FinalizeFlushProducer

variable {P σ : Type}

/-- A flushed batch as it goes out: filtered and projected like any other. -/
def Batches.flushed (out : Batches) (filters : Option PushdownFilters) (schema : Schema)
    (batch : RecordBatch) : Result RecordBatch := do
  let batch ← match filters with
    | some filters => out.applyFilters filters batch
    | none => .ok batch
  out.projectBatch batch schema

/-- The FINALIZE part of `handle_init` up to its writes: the call, the batches it flushes and
their rows. `finished` is what the function's `finish` returned.
-/
def Dispatcher.openFlush (d : Dispatcher P) (env : Env) (codec : FlushCodec) (out : Batches)
    (ctx : CallContext) (fresh : Bytes) (dto : InitRequest) (finished : List RecordBatch)
    : Result (InitCall × List RecordBatch × List Bytes) := do
  let init ← d.readInit env ctx fresh dto
  let target ← d.target init.call init.bound dto.phase
  match target with
  | .tableInOut index arguments => do
    let name := init.bound.request.functionName
    let f ← okOr (unknownFunction name) ((d.tableinouts name)[index]?)
    let handling ← f.function.metadata.filterHandling
    let params ← init.filteredParams env dto arguments handling
    rejectIf (dto.phase.getD "" ≠ "FINALIZE") (valueError "the call is not finalized")
    let filters := if handling = .sdk then params.currentPushdownFilters else none
    let batches ← finished.mapM (out.flushed filters init.outputSchema)
    let rows ← batches.mapM (codec.encodeBatch · init.outputSchema)
    return (init, batches, rows)
  | _ => .error (valueError "the call is not for a table-in-out function")

def flushStream (producer : FinalizeFlushProducer) (blob : Bytes)
    : TableProducerState FinalizeFlushProducer where
  inner := producer
  currentFilters := none
  filters := none
  projectTo := none
  resumeBlob := some blob
  conditionalChecked := false
  filterHistory := .empty

/-- The stream that the init starts once the rows are in the store. -/
def Dispatcher.startFlush (d : Dispatcher P) (env : Env) (bincode : Bincode) (dto : InitRequest)
    (init : InitCall) (key : Bytes) (count : Nat)
    : Result (TableProducerState FinalizeFlushProducer) := do
  let blob ← d.exchangeBlob env .tableInOutFinalize init init.bound.params.inputSchema dto false []
  let bytes ← bincode.encode blob
  return flushStream
    { scope := init.executionId
      key
      cursor := -1
      remaining := count
      functionName := init.bound.request.functionName } bytes

def noCursor (name : String) : RpcError :=
  runtimeError (s!"cannot resume the FINALIZE flush for '{name}': the continuation carries no "
    ++ "flush cursor. The cursor is written by the producer when the token is "
    ++ "minted, so a token without one was either minted by a worker build that "
    ++ "stored the flush differently or truncated in transit.")

/-- `decode_init_exchange_state` at the token of a flush. -/
def decodeFlush (env : Env) (bincode : Bincode) (codec : FlushCodec) (bytes : Bytes)
    : Result (TableProducerState FinalizeFlushProducer) := do
  let read ← readBlob env bincode bytes
  let producer := FinalizeFlushProducer.restoreResume codec
    { scope := read.blob.executionId
      key := []
      cursor := -1
      remaining := 0
      functionName := read.blob.functionName } read.blob.innerResume
  rejectIf (producer.key = []) (noCursor read.blob.functionName)
  return flushStream producer bytes

/-- The stream as another worker rebuilds it. -/
def rebuildFlush (env : Env) (bincode : Bincode) (codec : FlushCodec)
    (store : FunctionStorage σ) (state : TableProducerState FinalizeFlushProducer)
    : Result (TableProducerState FinalizeFlushProducer) := do
  let token ← state.encodeState (FinalizeFlushProducer.ops codec store) bincode
  decodeFlush env bincode codec token

/-- A FINALIZE init: what it flushes, and the rows it has yet to append. -/
structure Flush where
  dto : InitRequest
  init : InitCall
  key : Bytes
  batches : List RecordBatch
  pending : List Bytes

def Flush.log (flush : Flush) : Bytes × Bytes × Bytes :=
  (flush.init.executionId, tioFinalizeNs, flush.key)

inductive DrainStatus where
  | running
  | finished
  | failed (error : RpcError)

/-- One client's way through a flush, from a position on: what it was sent so far. -/
structure Drain where
  flush : Nat
  start : Nat
  state : TableProducerState FinalizeFlushProducer
  outputs : List RecordBatch
  status : DrainStatus

def Drain.position (drain : Drain) : Nat := drain.start + drain.outputs.length

/-- The drain after a turn with this answer. -/
def Drain.take (drain : Drain) (state : TableProducerState FinalizeFlushProducer)
    : Result Produced → Drain
  | .error error => { drain with state, status := .failed error }
  | .ok produced =>
    { drain with
      state
      outputs := drain.outputs ++ produced.batches.map Emission.batch
      status := if produced.finished then .finished else drain.status }

/-- The store, the flushes into it and the clients reading them. -/
structure Flushes (σ : Type) where
  store : σ
  flushes : List Flush
  drains : List Drain

/-- A flush is opened, appends its next row, starts its stream; a stream takes a turn, is
rebuilt from its token, or its token is used once more; somebody uses the store.
-/
inductive FlushAction where
  | openFlush (ctx : CallContext) (fresh key : Bytes) (dto : InitRequest)
      (finished : List RecordBatch)
  | append (flush : Nat)
  | begin (flush : Nat)
  | turn (drain : Nat) (ctx : TurnContext)
  | rebuild (drain : Nat)
  | replay (drain : Nat)
  | other (op : StorageOp)

structure FlushEnv (P σ : Type) where
  dispatcher : Dispatcher P
  env : Env
  bincode : Bincode
  codec : FlushCodec
  out : Batches
  store : FunctionStorage σ
  logs : LogStorage store

namespace FlushEnv

variable (world : FlushEnv P σ)

def openFlush (state : Flushes σ) (ctx : CallContext) (fresh key : Bytes) (dto : InitRequest)
    (finished : List RecordBatch) : Option (Flushes σ) :=
  match world.dispatcher.openFlush world.env world.codec world.out ctx fresh dto finished with
  | .error _ => none
  | .ok (init, batches, rows) =>
    let flush : Flush := { dto, init, key, batches, pending := rows }
    -- A single batch is not persisted; the key of a flush is new and takes some bytes.
    if batches.length > 1 ∧ key ≠ [] ∧ (∀ other ∈ state.flushes, other.key ≠ key)
        ∧ world.logs.entries state.store flush.log = [] then
      some { state with flushes := state.flushes ++ [flush] }
    else none

def append (state : Flushes σ) (index : Nat) : Option (Flushes σ) :=
  match state.flushes[index]? with
  | none => none
  | some flush =>
    match flush.pending with
    | [] => none
    | row :: rest =>
      some { state with
        store := (world.store.append flush.init.executionId tioFinalizeNs flush.key row
          state.store).2
        flushes := state.flushes.set index { flush with pending := rest } }

variable (state : Flushes σ)

def begin (index : Nat) : Option (Flushes σ) :=
  match state.flushes[index]? with
  | none => none
  | some flush =>
    if flush.pending ≠ [] then none
    else
      match world.dispatcher.startFlush world.env world.bincode flush.dto flush.init flush.key
          flush.batches.length with
      | .error _ => none
      | .ok stream =>
        some { state with
          drains := state.drains
            ++ [{ flush := index, start := 0, state := stream, outputs := [],
                  status := .running }] }

def running (state : Flushes σ) (index : Nat) : Option Drain :=
  (state.drains[index]?).filter fun drain =>
    match drain.status with
    | .running => true
    | _ => false

def turn (index : Nat) (ctx : TurnContext) : Option (Flushes σ) :=
  (running state index).map fun drain =>
    let ((answer, stream), store) := drain.state.produce
      (FinalizeFlushProducer.ops world.codec world.store) world.out world.env.decoders
      world.bincode ctx state.store
    { state with store, drains := state.drains.set index (drain.take stream answer) }

def rebuild (index : Nat) : Option (Flushes σ) :=
  (running state index).map fun drain =>
    match rebuildFlush world.env world.bincode world.codec world.store drain.state with
    | .ok stream => { state with drains := state.drains.set index { drain with state := stream } }
    | .error error =>
      { state with drains := state.drains.set index { drain with status := .failed error } }

/-- A token is used by another client, from where the drain stands on. -/
def replay (index : Nat) : Option (Flushes σ) :=
  (running state index).map fun drain =>
    match rebuildFlush world.env world.bincode world.codec world.store drain.state with
    | .ok stream =>
      { state with
        drains := state.drains
          ++ [{ flush := drain.flush, start := drain.position, state := stream, outputs := [],
                status := .running }] }
    | .error _ => state

/-- The operation does not append, or to a log that is not one of the flushes'. -/
def foreign : StorageOp → Bool
  | .append _ ns _ _ => ns ≠ tioFinalizeNs
  | _ => true

/-- Another use of the store, which does not drop a flush that is still being written. -/
def other (op : StorageOp) : Option (Flushes σ) :=
  let store := (applyOp world.store op state.store).2
  if foreign op ∧ ∀ flush ∈ state.flushes, flush.pending ≠ [] →
      world.logs.entries store flush.log = world.logs.entries state.store flush.log then
    some { state with store }
  else none

def machine : Machine (Flushes σ) FlushAction where
  initial state := world.logs.Sound state.store ∧ state.flushes = [] ∧ state.drains = []
  next
    | state, .openFlush ctx fresh key dto finished =>
      world.openFlush state ctx fresh key dto finished
    | state, .append index => world.append state index
    | state, .begin index => world.begin state index
    | state, .turn index ctx => world.turn state index ctx
    | state, .rebuild index => world.rebuild state index
    | state, .replay index => world.replay state index
    | state, .other op => world.other state op

end FlushEnv

end Vgi.Dispatch
