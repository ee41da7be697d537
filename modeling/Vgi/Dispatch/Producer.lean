import Vgi.Dispatch.Init
import Vgi.Pushdown.Eval

/-! Streams of batches that a producer makes, one batch for each turn: the turn itself, the
state a token carries, and the two ways such a stream is opened for a table function, from the
request and from a token.
-/

namespace Vgi.Dispatch

open Arrow Lib Pushdown

variable {P ω : Type}

/-- What lies outside a turn: the kernels that evaluate filters, the one that keeps the rows
of a mask, and the construction of a batch from columns.
-/
structure Batches where
  kernels : Kernels
  filterRecordBatch : RecordBatch → BooleanArray → Except String RecordBatch
  tryNew : Schema → List ArrayRef → Nat → Except String RecordBatch

def Batches.applyFilters (out : Batches) (filters : PushdownFilters) (batch : RecordBatch)
    : Result RecordBatch := do
  let keep ← filters.evaluate out.kernels batch
  (out.filterRecordBatch batch keep).mapError runtimeError

def projectColumns (batch : RecordBatch) (fields : List Field) : Result (List ArrayRef) :=
  fields.mapM fun field =>
    match batch.entries.find? fun entry => entry.1.name = field.name with
    | some (_, column) => .ok column
    | none => .error (runtimeError s!"projection column '{field.name}' not found in input")

/-- Projects a batch to the columns of a schema, by name. -/
def Batches.projectBatch (out : Batches) (batch : RecordBatch) (schema : Schema)
    : Result RecordBatch :=
  if batch.schema.fields = schema.fields then .ok batch
  else do
    let columns ← projectColumns batch schema.fields
    (out.tryNew schema columns batch.numRows).mapError fun e => runtimeError s!"project batch: {e}"

inductive TransportKind where
  | http
  | byteStream
deriving DecidableEq

structure TurnContext extends CallContext where
  kind : Option TransportKind := none
  tickMetadata : String → Option String := fun _ => none
  transportMetadata : String → Option String := fun _ => none

/-- A validator of a conditional request; an empty one is none. -/
def TurnContext.condValidator (ctx : TurnContext) (key : String) : Option String :=
  ((ctx.tickMetadata key).or (ctx.transportMetadata key)).filter nonempty

def pushdownFiltersKey : String := "vgi_pushdown_filters"

def cacheIfNoneMatchKey : String := "vgi.cache.if_none_match"

def cacheIfModifiedSinceKey : String := "vgi.cache.if_modified_since"

structure ConditionalRequest where
  ifNoneMatch : Option String
  ifModifiedSince : Option String
deriving DecidableEq

def ConditionalRequest.isConditional (request : ConditionalRequest) : Bool :=
  request.ifNoneMatch.isSome || request.ifModifiedSince.isSome

/-- The code of a producer; `ω` is the world it works in, its storage included. -/
structure TableProducer (P ω : Type) where
  nextBatch : P → StateM ω (Result (Option RecordBatch) × P)
  encodeResume : P → Bytes
  restoreResume : P → Bytes → P
  resumeSupported : P → Bool
  lastMetadata : P → Option Metadata
  onDynamicFilters : P → Option PushdownFilters → P
  onConditionalRequest : P → ConditionalRequest → P

structure TableProducerState (P : Type) where
  inner : P
  currentFilters : Option PushdownFilters
  filters : Option PushdownFilters
  projectTo : Option Schema
  resumeBlob : Option Bytes
  conditionalChecked : Bool
  filterHistory : DeltaHistory String

structure Emission where
  batch : RecordBatch
  metadata : Option Metadata

/-- The answer of a turn: the batches, and whether the stream is finished. -/
structure Produced where
  batches : List Emission
  finished : Bool

namespace TableProducerState

variable (ops : TableProducer P ω) (out : Batches)

/-- The filter delta of a tick. Where its bookkeeping fails, the filters have moved. -/
def takeDelta (dec : Decoders String Bytes) (state : TableProducerState P) (encoded : String)
    : Result Unit × TableProducerState P :=
  match state.currentFilters with
  | none => (.error (valueError "filter delta requires an initial snapshot"), state)
  | some current =>
    let (answer, history, current) := state.filterHistory.record dec current encoded
    let state := { state with currentFilters := some current, filterHistory := history }
    match answer with
    | .error error => (.error error, state)
    | .ok () => (.ok (), { state with filters := state.filters.map fun _ => current })

def takeTick (dec : Decoders String Bytes) (state : TableProducerState P) (ctx : TurnContext)
    : Result Unit × TableProducerState P :=
  match ctx.tickMetadata pushdownFiltersKey with
  | some encoded => state.takeDelta dec encoded
  | none => (.ok (), state)

variable (state : TableProducerState P)

/-- The producer is told of its filters and, once, of a conditional request. -/
def notify (ctx : TurnContext) : TableProducerState P :=
  let inner := ops.onDynamicFilters state.inner state.currentFilters
  if state.conditionalChecked then { state with inner }
  else
    let conditional : ConditionalRequest :=
      { ifNoneMatch := ctx.condValidator cacheIfNoneMatchKey
        ifModifiedSince := ctx.condValidator cacheIfModifiedSinceKey }
    { state with
      conditionalChecked := true
      inner := if conditional.isConditional then ops.onConditionalRequest inner conditional
        else inner }

def drainsInOneTurn : Bool := state.resumeBlob.isNone || !ops.resumeSupported state.inner

def shape (batch : RecordBatch) : Result RecordBatch := do
  let batch ← match state.filters with
    | some filters => out.applyFilters filters batch
    | none => .ok batch
  match state.projectTo with
  | some schema => out.projectBatch batch schema
  | none => .ok batch

/-- Pulls one batch: `none` is the end of the scan. -/
def emitNext : StateM ω (Result (Option Emission) × TableProducerState P) := do
  let (pulled, inner) ← ops.nextBatch state.inner
  let state := { state with inner }
  match pulled with
  | .error error => return (.error error, state)
  | .ok none => return (.ok none, state)
  | .ok (some batch) =>
    let shaped := state.shape out batch
    return (shaped.map fun batch => some ⟨batch, ops.lastMetadata inner⟩, state)

/-- A batch for each turn, and the end when there is none. -/
def emitTurn : StateM ω (Result Produced × TableProducerState P) := do
  let (emitted, state) ← state.emitNext ops out
  match emitted with
  | .error error => return (.error error, state)
  | .ok none => return (.ok ⟨[], true⟩, state)
  | .ok (some emission) => return (.ok ⟨[emission], false⟩, state)

def moreThanOneBatch (label : String) : RpcError :=
  runtimeError (s!"producer for '{label}' emits more than one batch but cannot serve an "
    ++ "HTTP continuation: it does not serialize a scan position, so "
    ++ "resuming would restart it at row 0 and repeat rows already sent. "
    ++ "vgi-rpc's lock-step producer protocol allows one batch per "
    ++ "response. Make the producer resumable — add "
    ++ "`vgi::resume_fields!(cursor, ...)` naming the fields that "
    ++ "advance, or implement resume_supported/encode_resume/"
    ++ "restore_resume — or use a byte-stream transport "
    ++ "(pipe / unix / tcp).")

/-- The function's name as far as the blob tells it. -/
def producerLabel (bincode : Bincode) (state : TableProducerState P) : String :=
  match state.resumeBlob.map bincode.decode with
  | some (.ok blob) => blob.functionName
  | _ => "<unknown>"

/-- A producer that cannot be resumed has to be at its end after its only batch. -/
def drainTurn (bincode : Bincode) (state : TableProducerState P)
    : StateM ω (Result Produced × TableProducerState P) := do
  let (emitted, state) ← state.emitNext ops out
  match emitted with
  | .error error => return (.error error, state)
  | .ok none => return (.ok ⟨[], true⟩, state)
  | .ok (some emission) => do
    let (second, inner) ← ops.nextBatch state.inner
    let state := { state with inner }
    match second with
    | .error error => return (.error error, state)
    | .ok none => return (.ok ⟨[emission], true⟩, state)
    | .ok (some _) => return (.error (moreThanOneBatch (state.producerLabel bincode)), state)

def produce (dec : Decoders String Bytes) (bincode : Bincode) (ctx : TurnContext)
    (state : TableProducerState P) : StateM ω (Result Produced × TableProducerState P) :=
  match state.takeTick dec ctx with
  | (.error error, state) => return (.error error, state)
  | (.ok (), state) =>
    let state := state.notify ops ctx
    if state.drainsInOneTurn ops ∧ ctx.kind = some .http then state.drainTurn ops out bincode
    else state.emitTurn ops out

def cannotResume : RpcError :=
  runtimeError ("this producer cannot be resumed across an HTTP continuation: it was "
    ++ "built without a rebuild blob, and vgi-rpc's lock-step producer protocol "
    ++ "requires one for any stream that emits more than a single batch. Use a "
    ++ "byte-stream transport, or give the producer a resume blob.")

def cannotContinue : RpcError :=
  runtimeError ("this producer cannot serve an HTTP continuation: it does not serialize "
    ++ "a scan position, so resuming would restart it at row 0 and repeat rows "
    ++ "already sent. vgi-rpc's lock-step producer protocol requires a resumable "
    ++ "producer for any stream emitting more than one batch. Use a byte-stream "
    ++ "transport (pipe / unix / tcp), or make the producer resumable with "
    ++ "`vgi::resume_fields!(cursor, ...)` (or resume_supported/encode_resume/"
    ++ "restore_resume).")

/-- The blob with the position of the producer and the deltas of the stream. -/
def suspend (blob : ExchangeBlob) : ExchangeBlob :=
  { blob with
    innerResume := ops.encodeResume state.inner
    filterDeltas := state.filterHistory.deltas
    filterPredicateOrder := state.filterHistory.order }

def encodeState (bincode : Bincode) (state : TableProducerState P) : Result Bytes :=
  match state.resumeBlob with
  | none => .error cannotResume
  | some bytes =>
    if ops.resumeSupported state.inner then do
      let blob ← bincode.decode bytes
      bincode.encode (state.suspend ops blob)
    else .error cannotContinue

end TableProducerState

structure TableCall (P : Type) where
  index : Nat
  function : TableFunction P
  params : ProcessParams

variable (d : Dispatcher P)

/-- The table path of `handle_init` up to the function's own code, with the filter handling. -/
def Dispatcher.openTable (env : Env) (init : InitCall) (dto : InitRequest)
    : Result (TableCall P × FilterHandling) := do
  let target ← d.target init.call init.bound dto.phase
  match target with
  | .table index f arguments => do
    let handling ← f.metadata.filterHandling
    let params ← init.filteredParams env dto arguments handling
    return (⟨index, f, params⟩, handling)
  | _ => .error (valueError "the call is not for a table function")

/-- A hook that is only run in some cases. -/
def runIf (condition : Bool) (hook : Result Unit) : Result Unit :=
  if condition then hook else .ok ()

/-- The table path of `handle_init`: the call it serves and the stream it starts. -/
def Dispatcher.initTable (env : Env) (bincode : Bincode) (ctx : CallContext)
    (fresh : Bytes) (dto : InitRequest) : Result (TableCall P × TableProducerState P) := do
  let init ← d.readInit env ctx fresh dto
  let (call, handling) ← d.openTable env init dto
  runIf dto.executionId.isNone (call.function.onInit call.params)
  runIf call.params.splitPayloads.isSome (call.function.onSplit call.params)
  let producer ← call.function.producer call.params
  let blob ← d.exchangeBlob env .table init none dto (handling = .sdk) (init.splitPayloads.getD [])
  let bytes ← bincode.encode blob
  return (call, {
    inner := producer
    currentFilters := call.params.currentPushdownFilters
    filters := if handling = .sdk then call.params.currentPushdownFilters else none
    projectTo := some init.outputSchema
    resumeBlob := some bytes
    conditionalChecked := false
    filterHistory := .empty })

/-- The call that a token of a table function's stream stands for, and its history. -/
def Dispatcher.resumeTable (env : Env) (call : BlobCall)
    : Result (TableCall P × DeltaHistory String) := do
  let (index, f) ← d.resolveTable call.blob.functionName call.arguments call.inputSchema call.scope
  let (params, history) ← call.filteredParams env (call.arguments.remapPositional f.argumentSpecs)
  return (⟨index, f, params⟩, history)

/-- `decode_init_exchange_state` at the token of a table function's stream. -/
def Dispatcher.decodeTable (ops : TableProducer P ω) (env : Env)
    (bincode : Bincode) (bytes : Bytes) : Result (TableCall P × TableProducerState P) := do
  let read ← readBlob env bincode bytes
  let (call, history) ← d.resumeTable env read
  let producer ← call.function.producer call.params
  return (call, {
    inner := ops.restoreResume producer read.blob.innerResume
    currentFilters := call.params.currentPushdownFilters
    filters := if read.blob.autoApply then call.params.currentPushdownFilters else none
    projectTo := some read.outputSchema
    resumeBlob := some bytes
    conditionalChecked := false
    filterHistory := history })

end Vgi.Dispatch
