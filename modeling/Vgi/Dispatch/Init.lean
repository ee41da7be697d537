import Vgi.Dispatch.Plan

/-! Opening a stream: what an init reads from its request, the parameters its function is
handed, and the blob from which another worker can rebuild both.
-/

namespace Vgi.Dispatch

open Arrow Lib Pushdown

variable {P : Type}

def parseFilters (dec : Decoders String Bytes) (bytes : Bytes) (joinKeys : List Bytes)
    (outputSchema : Option Schema) : Result PushdownFilters := do
  rejectIf (dec.len bytes > maxPayload) (valueError "filter payload exceeds 16 MiB")
  let schema ← dec.readSchema bytes
  validateWireSchema schema
  let batch ← dec.readBatch bytes
  let keys ← joinKeys.mapM dec.readBatch
  parseSnapshotBatch dec batch keys outputSchema

def FilterHandling.validateFilters (handling : FilterHandling) (filters : Option PushdownFilters)
    : Result Unit :=
  rejectIf (handling = .disabled ∧ (filters.any fun filters => filters.requiredIds ≠ ∅))
    (valueError "function with FilterHandling::Disabled cannot accept required pushed filters")

def ProcessParams.parsedFilters (params : ProcessParams) (dec : Decoders String Bytes)
    (schema : Schema) : Result (Option PushdownFilters) :=
  match params.pushdownFilters with
  | some bytes => (parseFilters dec bytes params.joinKeys (some schema)).map some
  | none => .ok none

/-- Narrows a schema to the projected columns. An id that is no position is skipped. -/
def projectSchema (full : Schema) : Option (List Int) → Schema
  | some ids =>
    if ids = [] then full
    else
      { fields := ids.filterMap fun id => if 0 ≤ id then full.fields[id.toNat]? else none
        metadata := [] }
  | none => full

/-- An init as it was read from its request, before it looks for the function. -/
structure InitCall where
  bound : BoundCall
  bindOutputSchema : Schema
  outputSchema : Schema
  executionId : Bytes
  call : CallScope
  splitPayloads : Option (List Bytes)

/-- The first part of `handle_init`; `fresh` is the id of a new execution. -/
def Dispatcher.readInit (d : Dispatcher P) (env : Env) (ctx : CallContext) (fresh : Bytes)
    (dto : InitRequest) : Result InitCall := do
  let bound ← readBoundCall env ctx dto.bindCall
  let bindOutputSchema ← env.ipc.readSchema dto.outputSchema
  let call ← d.bindScope bound
  let splitPayloads ← openSplits env.crypto bound.request dto.splitTokens
  return {
    bound
    bindOutputSchema
    outputSchema := projectSchema bindOutputSchema dto.projectionIds
    executionId := dto.executionId.getD fresh
    call
    splitPayloads }

def nonempty (text : String) : Bool := text ≠ ""

def InitCall.buildParams (init : InitCall) (dto : InitRequest) (arguments : Arguments)
    : ProcessParams where
  outputSchema := init.outputSchema
  bindOutputSchema := init.bindOutputSchema
  currentPushdownFilters := none
  inputSchema := init.bound.params.inputSchema
  executionId := init.executionId
  substreamId := dto.substreamId
  bindOpaqueData := dto.bindOpaqueData.getD []
  initOpaqueData := dto.initOpaqueData.getD []
  arguments
  settings := init.bound.params.settings
  secrets := init.bound.params.secrets
  authPrincipal := init.bound.params.authPrincipal
  projectionIds := dto.projectionIds
  pushdownFilters := dto.pushdownFilters
  joinKeys := dto.joinKeys.getD []
  orderByColumn := dto.orderByColumnName
  orderByDirection := dto.orderByDirection
  orderByNullOrder := dto.orderByNullOrder
  orderByLimit := dto.orderByLimit
  tablesamplePercentage := dto.tablesamplePercentage
  tablesampleSeed := dto.tablesampleSeed
  attachOpaqueData := init.bound.request.attachOpaqueData
  atUnit := init.bound.request.atUnit.filter nonempty
  atValue := init.bound.request.atValue.filter nonempty
  copyFrom := init.bound.copyFrom
  ifNoneMatch := none
  ifModifiedSince := none
  splitPayloads := init.splitPayloads

/-- The parameters of a function that takes filters: those it is handed carry the parsed
snapshot.
-/
def InitCall.filteredParams (init : InitCall) (env : Env) (dto : InitRequest)
    (arguments : Arguments) (handling : FilterHandling) : Result ProcessParams := do
  let params := init.buildParams dto arguments
  let parsed ← params.parsedFilters env.decoders init.bindOutputSchema
  handling.validateFilters parsed
  return { params with currentPushdownFilters := parsed }

inductive StreamKind where
  | scalar
  | tableInOut
  | tableInOutFinalize
  | bufferingFinalize
  | table
deriving DecidableEq

/-- Where the output of a table-in-out exchange continues. -/
structure TioContinuation where
  morePending : Bool := false
  resumeState : Bytes := []
  inputRows : Nat := 0
deriving DecidableEq

/-- What a continuation token carries. Empty bytes and lists stand for absent ones. -/
structure ExchangeBlob where
  kind : StreamKind
  functionName : String
  outputSchema : Bytes
  filterSchema : Bytes
  inputSchema : Bytes
  arguments : Bytes
  settings : Bytes
  secrets : Bytes
  executionId : Bytes
  substreamId : Bytes
  initOpaque : Bytes
  pushdownFilters : Bytes
  joinKeys : List Bytes
  autoApply : Bool
  innerResume : Bytes
  atUnit : String
  atValue : String
  catalogName : String
  schemaPath : List String
  splitPayloads : List Bytes
  attachOpaqueData : Bytes
  finalizeStateId : Bytes
  planInitOpaque : Bytes
  filterDeltas : List String
  filterPredicateOrder : List String
  continuation : TioContinuation
deriving DecidableEq

structure Bincode where
  encode : ExchangeBlob → Result Bytes
  decode : Bytes → Result ExchangeBlob

/-- What bincode documents: a blob encodes, and decoding inverts that. -/
structure Bincode.Lawful (bincode : Bincode) : Prop where
  encodes : ∀ blob, ∃ bytes, bincode.encode blob = .ok bytes
  decodes : ∀ {blob bytes}, bincode.encode blob = .ok bytes → bincode.decode bytes = .ok blob

/-- What Arrow IPC documents for schemas: reading inverts writing, and no schema is read from
an empty stream.
-/
structure Ipc.Lawful (ipc : Ipc) : Prop where
  reads : ∀ {schema bytes}, ipc.writeSchema schema = .ok bytes → ipc.readSchema bytes = .ok schema
  empty : ∀ schema, ipc.readSchema [] ≠ .ok schema

def Ipc.writeOptional (ipc : Ipc) : Option Schema → Result Bytes
  | some schema => ipc.writeSchema schema
  | none => .ok []

def Dispatcher.exchangeBlob (d : Dispatcher P) (env : Env) (kind : StreamKind)
    (init : InitCall) (inputSchema : Option Schema) (dto : InitRequest) (autoApply : Bool)
    (splitPayloads : List Bytes) : Result ExchangeBlob := do
  let request := init.bound.request
  let outputSchema ← env.ipc.writeSchema init.outputSchema
  let inputSchema ← env.ipc.writeOptional inputSchema
  return {
    kind
    functionName := request.functionName
    outputSchema
    filterSchema := dto.outputSchema
    inputSchema
    arguments := request.arguments
    settings := request.settings.getD []
    secrets := request.secrets.getD []
    executionId := init.executionId
    substreamId := dto.substreamId.getD []
    splitPayloads
    attachOpaqueData := request.attachOpaqueData.getD []
    finalizeStateId := dto.finalizeStateId.getD []
    initOpaque := dto.bindOpaqueData.getD []
    planInitOpaque := dto.initOpaqueData.getD []
    pushdownFilters := dto.pushdownFilters.getD []
    joinKeys := dto.joinKeys.getD []
    autoApply
    innerResume := []
    atUnit := request.atUnit.getD ""
    atValue := request.atValue.getD ""
    catalogName := d.callCatalog request.attachOpaqueData
    schemaPath := request.schemaPath.getD []
    filterDeltas := []
    filterPredicateOrder := []
    continuation := {} }

/-- Bytes or a list in a blob, with the empty one read as absent. -/
def present {α : Type} (items : List α) : Option (List α) :=
  if items.isEmpty then none else some items

/-- Reads bytes of a blob, with the empty ones read as a default. -/
def readOr {α : Type} (default : α) (read : Bytes → Result α) (bytes : Bytes) : Result α :=
  if bytes = [] then .ok default else read bytes

structure BlobCall where
  blob : ExchangeBlob
  outputSchema : Schema
  filterSchema : Schema
  inputSchema : Option Schema
  settings : Settings
  secrets : Secrets
  pushdown : Option Bytes
  arguments : Arguments

/-- The first part of `decode_init_exchange_state`. -/
def readBlob (env : Env) (bincode : Bincode) (bytes : Bytes) : Result BlobCall := do
  let blob ← bincode.decode bytes
  let outputSchema ← env.ipc.readSchema blob.outputSchema
  let filterSchema ← readOr outputSchema env.ipc.readSchema blob.filterSchema
  let inputSchema ← readOr none (fun bytes => (env.ipc.readSchema bytes).map some) blob.inputSchema
  let settings ← readOr [] (Settings.parse env.ipc) blob.settings
  let secrets ← readOr [] (Secrets.parse env) blob.secrets
  let arguments ← Arguments.parse env.ipc blob.arguments
  return {
    blob
    outputSchema
    filterSchema
    inputSchema
    settings
    secrets
    pushdown := present blob.pushdownFilters
    arguments }

def BlobCall.makeParams (call : BlobCall) (arguments : Arguments) : ProcessParams where
  outputSchema := call.outputSchema
  bindOutputSchema := call.filterSchema
  currentPushdownFilters := none
  inputSchema := call.inputSchema
  executionId := call.blob.executionId
  substreamId := present call.blob.substreamId
  splitPayloads := present call.blob.splitPayloads
  bindOpaqueData := call.blob.initOpaque
  initOpaqueData := call.blob.planInitOpaque
  arguments
  settings := call.settings
  secrets := call.secrets
  authPrincipal := none
  projectionIds := none
  pushdownFilters := call.pushdown
  joinKeys := call.blob.joinKeys
  orderByColumn := none
  orderByDirection := none
  orderByNullOrder := none
  orderByLimit := none
  tablesamplePercentage := none
  tablesampleSeed := none
  attachOpaqueData := present call.blob.attachOpaqueData
  atUnit := (some call.blob.atUnit).filter nonempty
  atValue := (some call.blob.atValue).filter nonempty
  copyFrom := none
  ifNoneMatch := none
  ifModifiedSince := none

def BlobCall.scope (call : BlobCall) : CallScope :=
  if call.blob.schemaPath = [] then ⟨call.blob.catalogName, .copyHandler⟩
  else ⟨call.blob.catalogName, .schema call.blob.schemaPath⟩

/-- `replay_filter_history`: the history of a token, and the filters it leads to. -/
def replayFilterHistory (dec : Decoders String Bytes) (blob : ExchangeBlob)
    (filters : Option PushdownFilters)
    : Result (DeltaHistory String × Option PushdownFilters) := do
  let history := DeltaHistory.fromParts blob.filterDeltas blob.filterPredicateOrder
  if history.deltas.isEmpty then return (history, filters)
  else
    let filters ← okOr (valueError "filter delta requires an initial snapshot") filters
    let replayed ← history.replay dec filters
    return (history, some replayed)

/-- The parameters of a rebuilt function that takes filters, with its history of deltas. -/
def BlobCall.filteredParams (call : BlobCall) (env : Env) (arguments : Arguments)
    : Result (ProcessParams × DeltaHistory String) := do
  let params := call.makeParams arguments
  let parsed ← params.parsedFilters env.decoders call.filterSchema
  let (history, current) ← replayFilterHistory env.decoders call.blob parsed
  return ({ params with currentPushdownFilters := current }, history)

end Vgi.Dispatch
