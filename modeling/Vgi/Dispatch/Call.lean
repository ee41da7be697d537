import Vgi.Dispatch.Registry
import Vgi.Dispatch.SplitToken
import Vgi.Pushdown.Filters

/-! The calls a dispatcher serves: the requests of a scan, the parameters a function is handed,
the registries, and the resolution of a bind call to one of the registered functions.
-/

namespace Vgi.Dispatch

open Arrow Lib Pushdown

structure CopyFromContext where
  format : String
  filePath : String
  expectedSchema : Bytes
deriving DecidableEq

structure CopyToContext where
  format : String
  filePath : String
deriving DecidableEq

structure BindRequest where
  functionName : String
  arguments : Bytes
  functionType : String
  inputSchema : Option Bytes
  settings : Option Bytes
  secrets : Option Bytes
  attachOpaqueData : Option Bytes
  transactionOpaqueData : Option Bytes
  resolvedSecretsProvided : Bool
  atUnit : Option String
  atValue : Option String
  schemaPath : Option (List String)
  argumentNames : Option (List (Option String))
deriving DecidableEq

/-- The sample percentage is kept as the bits of its `f64`. -/
structure InitRequest where
  bindCall : Bytes
  outputSchema : Bytes
  bindOpaqueData : Option Bytes
  projectionIds : Option (List Int)
  pushdownFilters : Option Bytes
  joinKeys : Option (List Bytes)
  splitTokens : Option (List Bytes)
  phase : Option String
  finalizeStateId : Option Bytes
  executionId : Option Bytes
  initOpaqueData : Option Bytes
  substreamId : Option Bytes
  orderByColumnName : Option String
  orderByDirection : Option String
  orderByNullOrder : Option String
  orderByLimit : Option Int
  tablesamplePercentage : Option UInt64
  tablesampleSeed : Option Int
deriving DecidableEq

structure TableFunctionPlanRequest where
  bindCall : Bytes
  bindOpaqueData : Option Bytes
  projectionIds : Option (List Int)
  pushdownFilters : Option Bytes
  joinKeys : Option (List Bytes)
  rowLimit : Option Int
  targetSplitBytes : Option Int
  minSplits : Option Int
  maxSplitsPerResponse : Option Int
  cursor : Option Bytes
  refinedFilters : Option Bytes
  filtersComplete : Bool
  startPosition : Option Bytes
  endPosition : Option Bytes
  orderByColumnName : Option String
  orderByDirection : Option String
  orderByNullOrder : Option String
  orderByLimit : Option Int
  tablesamplePercentage : Option UInt64
  tablesampleSeed : Option Int
deriving DecidableEq

structure CallContext where
  authenticated : Bool
  principal : String
deriving DecidableEq

def CallContext.authPrincipal (ctx : CallContext) : Option String :=
  if ctx.authenticated ∨ ctx.principal ≠ "" then some ctx.principal else none

/-- What lies outside the dispatcher: Arrow IPC, the decoding of request batches, the text of
secret values, cryptography, base64 and the JSON of filters. A bind request is read with the
note that its schema column was missing.
-/
structure Env where
  ipc : Ipc
  bindRequest : Bytes → Result (BindRequest × Bool)
  copyFrom : Bytes → Result (Option CopyFromContext)
  copyTo : Bytes → Result (Option CopyToContext)
  render : ArrayRef → String
  crypto : Crypto
  b64Decode : String → Option Bytes
  documentFromStr : String → Except String Document
  wireExprFromValue : Value → Except String WireExpr

def Env.decoders (env : Env) : Decoders String Bytes where
  b64Decode := env.b64Decode
  len := List.length
  readSchema := env.ipc.readSchema
  readBatch := env.ipc.readBatch
  documentFromStr := env.documentFromStr
  wireExprFromValue := env.wireExprFromValue

abbrev Settings := Values

def Settings.parse (ipc : Ipc) (bytes : Bytes) : Result Settings :=
  if bytes = [] then .ok []
  else do
    let batch ← ipc.readBatch bytes
    return batch.entries.foldl (fun values (field, column) => values.insert field.name column) []

abbrev Secrets := List (String × List (String × String))

def Secrets.parse (env : Env) (bytes : Bytes) : Result Secrets :=
  if bytes = [] then .ok []
  else do
    let batch ← env.ipc.readBatch bytes
    return batch.entries.foldl
      (fun secrets (field, column) =>
        let fields := match column.dataType with
          | .struct fields =>
            (structEntries column fields).map fun (field, column) => (field.name, env.render column)
          | _ => [(field.name, env.render column)]
        (field.name, fields) :: secrets.filter (·.1 ≠ field.name))
      []

def optSchema (ipc : Ipc) : Option Bytes → Result (Option Schema)
  | some bytes => if bytes = [] then .ok none else (ipc.readSchema bytes).map some
  | none => .ok none

structure BindParams where
  inputSchema : Option Schema
  arguments : Arguments
  argumentNames : Option (List (Option String))
  settings : Settings
  secrets : Secrets
  resolvedSecretsProvided : Bool
  authPrincipal : Option String
  attachOpaqueData : Option Bytes
  transactionOpaqueData : Option Bytes
  copyFrom : Option CopyFromContext := none
  copyTo : Option CopyToContext := none

def bindParams (env : Env) (dto : BindRequest) (ctx : CallContext) : Result BindParams := do
  let inputSchema ← optSchema env.ipc dto.inputSchema
  let arguments ← Arguments.parse env.ipc dto.arguments
  let settings ← Settings.parse env.ipc (dto.settings.getD [])
  let secrets ← Secrets.parse env (dto.secrets.getD [])
  return {
    inputSchema
    arguments
    argumentNames := dto.argumentNames
    settings
    secrets
    resolvedSecretsProvided := dto.resolvedSecretsProvided
    authPrincipal := ctx.authPrincipal
    attachOpaqueData := dto.attachOpaqueData
    transactionOpaqueData := dto.transactionOpaqueData
  }

structure ProcessParams where
  outputSchema : Schema
  bindOutputSchema : Schema
  currentPushdownFilters : Option PushdownFilters
  inputSchema : Option Schema
  executionId : Bytes
  substreamId : Option Bytes
  bindOpaqueData : Bytes
  initOpaqueData : Bytes
  arguments : Arguments
  settings : Settings
  secrets : Secrets
  authPrincipal : Option String
  projectionIds : Option (List Int)
  pushdownFilters : Option Bytes
  joinKeys : List Bytes
  orderByColumn : Option String
  orderByDirection : Option String
  orderByNullOrder : Option String
  orderByLimit : Option Int
  tablesamplePercentage : Option UInt64
  tablesampleSeed : Option Int
  attachOpaqueData : Option Bytes
  atUnit : Option String
  atValue : Option String
  copyFrom : Option CopyFromContext
  ifNoneMatch : Option String
  ifModifiedSince : Option String
  splitPayloads : Option (List Bytes)

structure PlannedSplit where
  payload : Bytes
  estimatedRows : Option Int := none
  rowsExact : Bool := false
  estimatedBytes : Option Int := none
  keyValue : Option Bytes := none
  rangeIndex : Option Int := none
  columnBounds : Option Bytes := none
  partitionBounds : Option Bytes := none
  columnStatistics : Option Bytes := none
  locationIds : Option (List Int) := none
  startPosition : Option Bytes := none
  endPosition : Option Bytes := none
deriving DecidableEq

/-- The answer of a function to a plan request. The partitioning is in its wire form. -/
structure PlanOutcome where
  splits : List PlannedSplit
  nextCursors : List Bytes := []
  maxWorkers : Option Int := none
  estimatedTotalSplits : Option Int := none
  estimatedTotalRows : Option Int := none
  estimatedTotalBytes : Option Int := none
  catalogVersion : Option Int64 := none
  scope : Option String := none
  executionId : Option Bytes := none
  initOpaqueData : Option Bytes := none
  locations : Option (List String) := none
  partitioning : Option (List Bytes) := none
  cacheMaxAgeSeconds : Option Int := none
  startPosition : Option Bytes := none
  endPosition : Option Bytes := none
deriving DecidableEq

inductive FilterHandling where
  | disabled
  | sdk
  | worker
deriving DecidableEq

structure FunctionMetadata where
  filterPushdown : Bool := false
  autoApplyFilters : Bool := false
  filtersExactlyApplied : Bool := false
  inputFromArgs : Bool := false
deriving DecidableEq

def FunctionMetadata.filterHandling (metadata : FunctionMetadata) : Result FilterHandling :=
  if !metadata.filterPushdown then
    if metadata.autoApplyFilters || metadata.filtersExactlyApplied then
      .error (valueError "filter ownership requires filter_pushdown; use with_filter_handling")
    else .ok .disabled
  else if metadata.autoApplyFilters then .ok .sdk
  else if metadata.filtersExactlyApplied then .ok .worker
  else .error (valueError ("filter_pushdown requires an exact-filtering owner; use "
    ++ "with_filter_handling(FilterHandling::Sdk) or FilterHandling::Worker"))

/-- A table function with its own code; `P` is the producer it makes. -/
structure TableFunction (P : Type) where
  argumentSpecs : List ArgSpec
  metadata : FunctionMetadata
  onPlan : BindParams → TableFunctionPlanRequest → Result (Option PlanOutcome)
  onInit : ProcessParams → Result Unit
  onSplit : ProcessParams → Result Unit
  producer : ProcessParams → Result P

/-- The other kinds of functions, as far as their resolution looks at them. -/
structure Signature where
  argumentSpecs : List ArgSpec
  metadata : FunctionMetadata

/-- The registries hold, for each name, its overloads in the order of their registration. -/
structure Dispatcher (P : Type) where
  catalogName : String
  catalogModelName : String
  secondary : List String
  hiddenFunctions : List String
  scalars : String → List (Registered Signature)
  tables : String → List (Registered (TableFunction P))
  tableinouts : String → List (Registered Signature)
  buffering : String → List (Registered Signature)

def secMarker : Bytes := [0, 115, 101, 99, 0]

/-- The name of the secondary catalog an attachment belongs to. -/
def decodeSecondaryOpaque (bytes : Bytes) : Option String := do
  let rest ← secMarker.isPrefixOf? bytes
  let sep ← rest.findIdx? (· = 0)
  String.fromUTF8? ⟨(rest.take sep).toArray⟩

variable {P : Type} (d : Dispatcher P)

def Dispatcher.callCatalog (attach : Option Bytes) : String :=
  let primary := if d.catalogModelName = "" then d.catalogName else d.catalogModelName
  match (attach.bind decodeSecondaryOpaque).bind fun name => d.secondary.find? (· = name) with
  | some name => name
  | none => primary

def normalizeFunctionType (functionType : String) : Option String :=
  if functionType = "" then none
  else
    let lower := functionType.toLower
    match "_function".toList.reverse.isPrefixOf? lower.toList.reverse with
    | some short => some (String.ofList short.reverse)
    | none => some lower

structure BoundCall where
  request : BindRequest
  legacyPeer : Bool
  copyFrom : Option CopyFromContext
  copyTo : Option CopyToContext
  params : BindParams

def readBoundCall (env : Env) (ctx : CallContext) (bytes : Bytes) : Result BoundCall := do
  let (request, legacyPeer) ← env.bindRequest bytes
  let copyFrom ← env.copyFrom bytes
  let copyTo ← env.copyTo bytes
  let params ← bindParams env request ctx
  return { request, legacyPeer, copyFrom, copyTo, params := { params with copyFrom, copyTo } }

def Dispatcher.bindScope (bound : BoundCall) : Result CallScope :=
  CallScope.forBind (d.callCatalog bound.request.attachOpaqueData) bound.request.schemaPath
    bound.request.functionName (bound.copyFrom.isSome || bound.copyTo.isSome)
    (d.hiddenFunctions.contains bound.request.functionName) bound.legacyPeer

def Dispatcher.resolveTable (name : String) (args : Arguments) (inputSchema : Option Schema)
    (call : CallScope) : Result (Nat × TableFunction P) :=
  resolve TableFunction.argumentSpecs name (d.tables name) args inputSchema call

/-- The function a call is for, by its place among those registered under the name, with the
arguments at their declared positions.
-/
inductive Target (P : Type) where
  | buffering (index : Nat) (arguments : Arguments)
  | tableInOut (index : Nat) (arguments : Arguments)
  | table (index : Nat) (function : TableFunction P) (arguments : Arguments)
  | scalar (index : Nat) (arguments : Arguments)

/-- The call goes to a table function, if not to a buffering or a table-in-out one. -/
def Dispatcher.isTableCall (request : BindRequest) : Bool :=
  let ft := (normalizeFunctionType request.functionType).getD ""
  (ft = "table" || ft = "table_buffering")
    || ((d.scalars request.functionName).isEmpty && !(d.tables request.functionName).isEmpty)

/-- The resolution of an init. A table-in-out function needs input, unless it is finalized; a
plain one takes none.
-/
def Dispatcher.target (call : CallScope) (bound : BoundCall) (phase : Option String)
    : Result (Target P) :=
  let name := bound.request.functionName
  let args := bound.params.arguments
  let inputSchema := bound.params.inputSchema
  if !(d.buffering name).isEmpty && bound.copyFrom.isNone then do
    let (index, f) ← resolveFirst name (d.buffering name) call
    return .buffering index (args.remapPositional f.argumentSpecs)
  else if !(d.tableinouts name).isEmpty then do
    rejectIf (phase.getD "" ≠ "FINALIZE" ∧ inputSchema.isNone)
      (valueError (s!"'{name}' is a table-in-out function (it requires an input row stream) but "
        ++ "no input schema was supplied -- call it via `bind_with_input` + `open_exchange`, not "
        ++ "`bind` + `scan`."))
    let (index, f) ← resolveBlended Signature.argumentSpecs (·.metadata.inputFromArgs) name
      (d.tableinouts name) args inputSchema call
    return .tableInOut index (args.remapPositional f.argumentSpecs)
  else if d.isTableCall bound.request then do
    rejectIf (phase.isSome ∨ inputSchema.isSome)
      (valueError (s!"'{name}' is a plain table function (it takes no input row stream) but was "
        ++ "called with a table-in-out init phase and/or input schema set -- call it via `bind` + "
        ++ "`scan`, not `bind_with_input` + `open_exchange`."))
    let (index, f) ← d.resolveTable name args inputSchema call
    return .table index f (args.remapPositional f.argumentSpecs)
  else do
    let (index, f) ← resolve Signature.argumentSpecs name (d.scalars name) args inputSchema call
    return .scalar index (args.remapPositional f.argumentSpecs)

end Vgi.Dispatch
