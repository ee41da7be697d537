import Vgi.Dispatch.Continuation
import Vgi.Lib.Keyed

/-! The exchange of a table-in-out function: each input batch is answered by one reply, and a
reply may say that there is more, which the client asks for with continuation ticks. Between
any two turns the exchange can be put into a token and rebuilt from it.
-/

namespace Vgi.Dispatch

open Arrow Lib Pushdown List

variable {P ω : Type}

def entry (key : String) (metadata : Metadata) : Option String :=
  (metadata.find? fun pair => pair.1 = key).map Prod.snd

def withoutEntry (key : String) (metadata : Metadata) : Metadata :=
  metadata.filter fun pair => pair.1 ≠ key

def withEntry (key value : String) (metadata : Metadata) : Metadata :=
  (key, value) :: withoutEntry key metadata

def extendMetadata (metadata more : Metadata) : Metadata :=
  more.foldl (fun metadata pair => withEntry pair.1 pair.2 metadata) metadata

def statusMetadataKey : String := "vgi.status"

def statusHaveMoreOutput : String := "HAVE_MORE_OUTPUT"

def statusContinue : String := "CONTINUE"

def parentRowMetadataKey : String := "vgi_rpc.parent_row#b64"

structure CacheControl where
  ttlSeconds : Option Int := none
  expires : Option String := none
  scope : String := "catalog"
  noStore : Bool := false
  etag : Option String := none
  lastModified : Option String := none
  revalidatable : Bool := false
  staleWhileRevalidate : Option Int := none
  staleIfError : Option Int := none
  notModified : Bool := false
  partitionScope : Bool := false
  perValue : Bool := false
deriving DecidableEq

def flag (set : Bool) : Option String := if set then some "1" else none

/-- The directives of cache control, those that are not set included. -/
def CacheControl.directives (control : CacheControl) : List (String × Option String) :=
  [("ttl", control.ttlSeconds.map toString),
    ("expires", control.expires),
    ("no_store", flag control.noStore),
    ("scope", some control.scope),
    ("etag", control.etag),
    ("last_modified", control.lastModified),
    ("revalidatable", flag control.revalidatable),
    ("stale_while_revalidate", control.staleWhileRevalidate.map toString),
    ("stale_if_error", control.staleIfError.map toString),
    ("not_modified", flag control.notModified),
    ("partition_scope", flag control.partitionScope),
    ("per_value", flag control.perValue)]

def CacheControl.toMetadata (control : CacheControl) : Metadata :=
  control.directives.filterMap fun directive =>
    directive.2.map fun value => ("vgi.cache." ++ directive.1, value)

def hasCacheControl (metadata : Option Metadata) : Bool :=
  (metadata.getD []).any fun pair => "vgi.cache.".isPrefixOf pair.1

structure Base64 where
  encode : Bytes → String
  decode : String → Option Bytes

def int32Bytes (value : Int32) : Bytes := leBytes 4 value.toBitVec.toNat

def int32OfBytes (bytes : Bytes) : Int32 :=
  Int32.ofBitVec (BitVec.ofNat 32 (bytes.foldr (fun byte rest => byte.toNat + 256 * rest) 0))

structure EmitOptions where
  metadata : Option Metadata := none
  cacheControl : Option CacheControl := none
  parentRows : Option (List Int32) := none
  more : Bool := false

theorem entry_withoutEntry {key other} (apart : key ≠ other) (metadata)
    : entry other (withoutEntry key metadata) = entry other metadata := by
  unfold entry withoutEntry
  rw [find?_filter_ne, if_neg apart.symm]

theorem entry_withEntry (key value other metadata)
    : entry other (withEntry key value metadata)
      = if key = other then some value else entry other metadata := by
  unfold entry withEntry withoutEntry
  rw [find?_replace Prod.fst metadata (key, value)]
  by_cases same : key = other <;> simp [same, eq_comm]

theorem entry_extendMetadata {key more} (none_more : ∀ pair ∈ more, pair.1 ≠ key) (metadata)
    : entry key (extendMetadata metadata more) = entry key metadata := by
  unfold extendMetadata
  induction more generalizing metadata with
  | nil => rfl
  | cons pair rest ih =>
    rw [foldl_cons, ih fun other member => none_more other (mem_cons_of_mem _ member),
      entry_withEntry, if_neg (none_more pair mem_cons_self)]

/-- Cache control has keys of its own. -/
theorem entry_cacheControl {key : String} (apart : key.toList[4]? ≠ some 'c') (metadata)
    (control : CacheControl)
    : entry key (extendMetadata metadata control.toMetadata) = entry key metadata := by
  refine entry_extendMetadata (fun pair member same => apart ?_) metadata
  obtain ⟨⟨name, value⟩, -, made⟩ := mem_filterMap.mp member
  obtain ⟨value, -, rfl⟩ := Option.map_eq_some_iff.mp made
  simp [← same]

/-- The output of one call of a function. Only the methods below fill it, so that whoever
said more emitted a batch, and no batch carries a status of its own.
-/
structure TableInOutOutput where
  items : List (RecordBatch × Option Metadata) := []
  more : List Nat := []
  resumeState : Option Bytes := none
  more_lt : ∀ index ∈ more, index < items.length := by simp
  plain : ∀ item ∈ items, entry statusMetadataKey (item.2.getD []) = none := by simp

namespace TableInOutOutput

variable (out : TableInOutOutput)

/-- One more batch, with metadata that has no status. -/
def push (batch : RecordBatch) (metadata : Option Metadata)
    (more : Bool) (plain : entry statusMetadataKey (metadata.getD []) = none)
    : TableInOutOutput where
  items := out.items ++ [(batch, metadata)]
  more := if more then out.more ++ [out.items.length] else out.more
  resumeState := out.resumeState
  more_lt := by
    intro index member
    rw [length_append, length_singleton]
    split at member
    · rcases mem_append.mp member with old | last
      · exact Nat.lt_succ_of_lt (out.more_lt index old)
      · rw [mem_singleton.mp last]
        exact Nat.lt_succ_self _
    · exact Nat.lt_succ_of_lt (out.more_lt index member)
  plain := by
    intro item member
    rcases mem_append.mp member with old | last
    · exact out.plain item old
    · rw [mem_singleton.mp last]
      exact plain

def derive (b64 : Base64) (metadata : Metadata) (opts : EmitOptions) : Metadata :=
  let metadata := match opts.parentRows with
    | some (row :: rest) =>
      withEntry parentRowMetadataKey (b64.encode ((row :: rest).flatMap int32Bytes)) metadata
    | _ => metadata
  match opts.cacheControl with
  | some control => extendMetadata metadata control.toMetadata
  | none => metadata

theorem entry_derive (b64 metadata opts)
    : entry statusMetadataKey (derive b64 metadata opts) = entry statusMetadataKey metadata := by
  have apart : parentRowMetadataKey ≠ statusMetadataKey := by decide
  have other := entry_cacheControl (show statusMetadataKey.toList[4]? ≠ some 'c' by decide)
  unfold derive
  rcases opts.parentRows with _ | _ | ⟨row, rest⟩ <;> rcases opts.cacheControl with _ | control <;>
    simp [other, entry_withEntry, apart]

def statusRefused : RpcError :=
  runtimeError (s!"emit_with(metadata=...) may not carry `{statusMetadataKey}`; say there is "
    ++ "more output with EmitOptions::more")

def parentRowsRefused (given rows : Nat) : RpcError :=
  runtimeError (s!"emit_with(parent_rows=...) length {given} != batch.num_rows {rows}; parent_rows "
    ++ "must carry exactly one input-row index per emitted output row")

def emitWith (b64 : Base64) (out : TableInOutOutput) (batch : RecordBatch) (opts : EmitOptions)
    : Result TableInOutOutput :=
  let metadata := opts.metadata.getD []
  if carried : (entry statusMetadataKey metadata).isSome then .error statusRefused
  else
    match opts.parentRows.filter fun rows => rows.length ≠ batch.numRows with
    | some rows => .error (parentRowsRefused rows.length batch.numRows)
    | none =>
      let derived := derive b64 metadata opts
      .ok (out.push batch (if derived.isEmpty then none else some derived) opts.more (by
        have plain : entry statusMetadataKey derived = none := by
          rw [entry_derive]
          simpa using carried
        split
        · rfl
        · exact plain))

theorem items_emitWith {b64 out batch opts next} (emitted : emitWith b64 out batch opts = .ok next)
    : ∃ metadata, next.items = out.items ++ [(batch, metadata)]
      ∧ metadata.getD [] = derive b64 (opts.metadata.getD []) opts := by
  unfold emitWith at emitted
  by_cases carried : (entry statusMetadataKey (opts.metadata.getD [])).isSome
  · cases (dif_pos carried).symm.trans emitted
  · rw [dif_neg carried] at emitted
    split at emitted
    · cases emitted
    · cases emitted
      refine ⟨_, rfl, ?_⟩
      split
      next nothing => exact (isEmpty_iff.mp nothing).symm
      · rfl

end TableInOutOutput

/-- The code of a table-in-out function; `ω` is the world it works in. -/
structure TableInOutFunction (ω : Type) where
  name : String
  resumeSupported : Bool
  processOut : ProcessParams → RecordBatch → StateM ω (Result TableInOutOutput)
  resume : ProcessParams → Bytes → StateM ω (Result TableInOutOutput)

def chunks (bytes : Bytes) : List Bytes :=
  (range (bytes.length / 4)).map fun index => (bytes.drop (4 * index)).take 4

/-- The parents that a batch names, one for each of its rows. -/
def readParents (b64 : Base64) (rows inputRows : Nat) (encoded : String) : Result (List Int32) := do
  let bytes ← okOr (valueError "invalid parent_rows base64") (b64.decode encoded)
  rejectIf (bytes.length % 4 ≠ 0 ∨ bytes.length / 4 ≠ rows)
    (valueError "parent_rows length differs from unfiltered output")
  let parents := (chunks bytes).map int32OfBytes
  rejectIf (parents.any fun parent => parent < 0 || parent.toInt ≥ inputRows)
    (valueError "parent_rows index outside input batch")
  return parents

def readOptional {α β : Type} (read : α → Result β) : Option α → Result (Option β)
  | some value => (read value).map some
  | none => .ok none

/-- The parent of a row that stays: the one it names, or the row itself. -/
def parentOf (parents : Option (List Int32)) (index : Nat) : Result Int32 :=
  match parents with
  | some parents => .ok (parents.getD index 0)
  | none =>
    if index ≥ 2 ^ 31 then .error (valueError "parent_rows index exceeds int32")
    else .ok (Int32.ofNat index)

def ambiguousRows : RpcError :=
  valueError ("SDK filtering changes an unannotated table-in-out batch with non-identity "
    ++ "cardinality; emit explicit parent_rows with TableInOutOutput::emit_with")

/-- `filter_parent_rows`: the provenance of the rows that a filter keeps. -/
def filterParentRows (b64 : Base64) (metadata : Option Metadata) (keep : BooleanArray)
    (inputRows : Nat) : Result (Option Metadata) := do
  let selected := (range keep.length).filter fun index => keep[index]? = some (some true)
  let parents ← readOptional (readParents b64 keep.length inputRows)
    (metadata.bind (entry parentRowMetadataKey))
  if selected.isEmpty then return metadata.map (withoutEntry parentRowMetadataKey)
  else if selected.length = keep.length then return metadata
  else do
    rejectIf (parents.isNone ∧ keep.length ≠ inputRows) ambiguousRows
    let rows ← selected.mapM (parentOf parents)
    return some (withEntry parentRowMetadataKey (b64.encode (rows.flatMap int32Bytes))
      (metadata.getD []))

/-- The rows of an emitted batch that the filters of the call keep, with their provenance. -/
def Batches.keepRows (out : Batches) (b64 : Base64) (filters : Option PushdownFilters)
    (inputRows : Nat) (item : RecordBatch × Option Metadata)
    : Result (RecordBatch × Option Metadata) :=
  match filters with
  | none => .ok item
  | some filters => do
    let keep ← filters.evaluate out.kernels item.1
    let metadata ← filterParentRows b64 item.2 keep inputRows
    let batch ← (out.filterRecordBatch item.1 keep).mapError runtimeError
    return (batch, metadata)

/-- An emitted batch as it goes out; a reply that has more after it says so. -/
def Batches.shapeReply (out : Batches) (b64 : Base64) (filters : Option PushdownFilters)
    (schema : Schema) (inputRows : Nat) (more : Bool) (item : RecordBatch × Option Metadata)
    : Result Emission := do
  let (batch, metadata) ← out.keepRows b64 filters inputRows item
  let batch ← out.projectBatch batch schema
  return ⟨batch, if more then
    some (withEntry statusMetadataKey statusHaveMoreOutput (metadata.getD [])) else metadata⟩

def emptyBatch (schema : Schema) : RecordBatch where
  schema
  columns := schema.fields.map fun field => ⟨field.dataType, []⟩
  numRows := 0
  types := by simp
  lengths := by
    intro column member
    obtain ⟨field, -, rfl⟩ := mem_map.mp member
    rfl
  nonNull := by
    intro pair member _
    obtain ⟨field, -, same⟩ := mem_map.mp (of_mem_zip member).2
    rw [← same]
    rfl

structure TableInOutExchangeState (ω : Type) where
  func : TableInOutFunction ω
  params : ProcessParams
  filters : Option PushdownFilters
  blob : Bytes
  filterHistory : DeltaHistory String
  continuation : TioContinuation

def TurnContext.isContinuationTick (ctx : TurnContext) : Bool :=
  (ctx.tickMetadata statusMetadataKey).or (ctx.transportMetadata statusMetadataKey)
    = some statusContinue

/-- Whether an input is in order: a tick while output is pending, and only then. -/
def TioContinuation.accept (continuation : TioContinuation) (name : String) (tick : Bool)
    (rows : Nat) : Result Unit := do
  rejectIf (tick ∧ !continuation.morePending)
    (runtimeError s!"{name}: continuation tick received, but no output is pending")
  rejectIf (tick ∧ rows ≠ 0)
    (runtimeError s!"{name}: a continuation tick must have no rows, got {rows}")
  rejectIf (!tick ∧ continuation.morePending)
    (runtimeError s!"{name}: input received while output is pending; expected a continuation tick")

theorem accept_eq_ok {continuation : TioContinuation} {name tick rows}
    : continuation.accept name tick rows = .ok ()
      ↔ tick = continuation.morePending ∧ (tick = true → rows = 0) := by
  simp only [TioContinuation.accept]
  cases tick <;> cases continuation.morePending <;> simp

inductive FunctionCall where
  | process (params : ProcessParams) (input : RecordBatch)
  | resume (params : ProcessParams) (state : Bytes)

def FunctionCall.run (func : TableInOutFunction ω)
    : FunctionCall → StateM ω (Result TableInOutOutput)
  | .process params input => func.processOut params input
  | .resume params state => func.resume params state

/-- What a turn did: whether its input was a tick and how many rows it had, whether the filter
delta was taken, how the function was called and with which bound on parent rows, what resume
state that recorded, and the answer.
-/
structure ExchangeTurn where
  tick : Bool
  rows : Nat
  delta : Result Unit
  call : Option FunctionCall
  inputRows : Nat
  recorded : Option Bytes
  answer : Result (List Emission)

namespace TableInOutExchangeState

def signed (ctx : TurnContext) (state : TableInOutExchangeState ω) : TableInOutExchangeState ω :=
  { state with params := { state.params with authPrincipal := ctx.authPrincipal } }

/-- The filter delta of a turn, if it has one. Where its bookkeeping fails, the filters have
moved.
-/
def takeDelta (dec : Decoders String Bytes) (ctx : TurnContext) (state : TableInOutExchangeState ω)
    : Result Unit × TableInOutExchangeState ω :=
  match ctx.tickMetadata pushdownFiltersKey with
  | none => (.ok (), state)
  | some encoded =>
    match state.params.currentPushdownFilters with
    | none => (.error (valueError "filter delta requires an initial snapshot"), state)
    | some current =>
      let (answer, history, current) := state.filterHistory.record dec current encoded
      let state := { state with
        params := { state.params with currentPushdownFilters := some current }
        filterHistory := history }
      match answer with
      | .error error => (.error error, state)
      | .ok () => (.ok (), { state with filters := state.filters.map fun _ => current })

/-- The call of a turn. A tick takes the resume state out; an input sets the bound for the
parent rows of all its replies.
-/
def call (ctx : TurnContext) (input : RecordBatch) (state : TableInOutExchangeState ω)
    : FunctionCall × TableInOutExchangeState ω :=
  if ctx.isContinuationTick then
    let params := { state.params with ifNoneMatch := none, ifModifiedSince := none }
    (.resume params state.continuation.resumeState,
      { state with params, continuation := { state.continuation with resumeState := [] } })
  else
    let params := { state.params with
      ifNoneMatch := ctx.condValidator cacheIfNoneMatchKey
      ifModifiedSince := ctx.condValidator cacheIfModifiedSinceKey }
    (.process params input,
      { state with
        params
        continuation := { state.continuation with inputRows := input.numRows } })

variable (name : String)

def tooMany (count : Nat) : RpcError :=
  runtimeError (s!"{name}: a table-in-out turn must emit at most one batch, got {count}; "
    ++ "combine them, or emit one with EmitOptions::more and the rest from resume()")

def noReply : RpcError :=
  runtimeError (s!"{name}: resume() emitted no batch for a continuation tick; every tick "
    ++ "must be answered with exactly one batch")

def noResume : RpcError :=
  runtimeError (s!"{name}: emitted more output but does not implement resume() "
    ++ "(resume_supported() is false)")

def noResumeState : RpcError :=
  runtimeError (s!"{name}: emitted more output without set_resume_state(); resume() "
    ++ "would have nothing to continue from")

def lateCacheControl : RpcError :=
  runtimeError (s!"{name}: cache control is only valid on an input's first reply, "
    ++ "not on one answering a continuation tick")

/-- The reply made from what the function emitted, and where its output continues. -/
def reply (out : Batches) (b64 : Base64) (schema : Schema) (tick : Bool)
    (state : TableInOutExchangeState ω) (collected : TableInOutOutput)
    : Result (List Emission × TioContinuation) := do
  let name := state.func.name
  rejectIf (collected.items.length > 1) (tooMany name collected.items.length)
  rejectIf (tick ∧ collected.items.isEmpty) (noReply name)
  let more := !collected.more.isEmpty
  rejectIf (more ∧ !state.func.resumeSupported) (noResume name)
  rejectIf (more ∧ collected.resumeState.isNone) (noResumeState name)
  rejectIf (tick ∧ collected.items.any fun item => hasCacheControl item.2) (lateCacheControl name)
  if collected.items.isEmpty then
    return ([⟨emptyBatch schema, none⟩], { inputRows := state.continuation.inputRows })
  else do
    let replies ← collected.items.mapM
      (out.shapeReply b64 state.filters schema state.continuation.inputRows more)
    return (replies, { state.continuation with
      morePending := more
      resumeState := if more then collected.resumeState.getD [] else [] })

/-- The part of a turn that calls the function and answers. -/
def serve (out : Batches) (b64 : Base64) (schema : Schema) (input : RecordBatch)
    (ctx : TurnContext) (turn : ExchangeTurn) (state : TableInOutExchangeState ω)
    : StateM ω (ExchangeTurn × TableInOutExchangeState ω) := do
  let (call, state) := state.call ctx input
  let turn := { turn with call := some call, inputRows := state.continuation.inputRows }
  let collected ← call.run state.func
  match collected with
  | .error error => return ({ turn with answer := .error error }, state)
  | .ok collected =>
    let turn := { turn with recorded := collected.resumeState }
    match state.reply out b64 schema turn.tick collected with
    | .error error => return ({ turn with answer := .error error }, state)
    | .ok (replies, continuation) =>
      return ({ turn with answer := .ok replies }, { state with continuation })

def exchange (dec : Decoders String Bytes) (out : Batches) (b64 : Base64) (schema : Schema)
    (input : RecordBatch) (ctx : TurnContext) (state : TableInOutExchangeState ω)
    : StateM ω (ExchangeTurn × TableInOutExchangeState ω) :=
  let state := state.signed ctx
  let turn : ExchangeTurn :=
    { tick := ctx.isContinuationTick
      rows := input.numRows
      delta := .ok ()
      call := none
      inputRows := state.continuation.inputRows
      recorded := none
      answer := .ok [] }
  match state.takeDelta dec ctx with
  | (.error error, state) =>
    return ({ turn with delta := .error error, answer := .error error }, state)
  | (.ok (), state) =>
    match state.continuation.accept state.func.name turn.tick input.numRows with
    | .error error => return ({ turn with answer := .error error }, state)
    | .ok () => state.serve out b64 schema input ctx turn

def encodeState (bincode : Bincode) (state : TableInOutExchangeState ω) : Result Bytes := do
  let blob ← bincode.decode state.blob
  bincode.encode { blob with
    filterDeltas := state.filterHistory.deltas
    filterPredicateOrder := state.filterHistory.order
    continuation := state.continuation }

end TableInOutExchangeState

/-- A worker: its registries, and the code of its table-in-out functions by name and place. -/
structure InOutWorker (P ω : Type) where
  dispatcher : Dispatcher P
  code : String → Nat → TableInOutFunction ω

variable (worker : InOutWorker P ω)

/-- The table-in-out path of `handle_init`, for inputs: the call it serves, its first blob and
the exchange it starts.
-/
def InOutWorker.initExchange (env : Env) (bincode : Bincode)
    (ctx : CallContext) (fresh : Bytes) (dto : InitRequest)
    : Result (InitCall × TableInOutExchangeState ω) := do
  let init ← worker.dispatcher.readInit env ctx fresh dto
  let name := init.bound.request.functionName
  let target ← worker.dispatcher.target init.call init.bound dto.phase
  match target with
  | .tableInOut index arguments => do
    let f ← okOr (unknownFunction name) ((worker.dispatcher.tableinouts name)[index]?)
    let handling ← f.function.metadata.filterHandling
    let params ← init.filteredParams env dto arguments handling
    rejectIf (dto.phase.getD "" = "FINALIZE") (valueError "the call is finalized")
    let blob ← worker.dispatcher.exchangeBlob env .tableInOut init init.bound.params.inputSchema
      dto (handling = .sdk) (init.splitPayloads.getD [])
    let bytes ← bincode.encode blob
    return (init, {
      func := worker.code name index
      params
      filters := if handling = .sdk then params.currentPushdownFilters else none
      blob := bytes
      filterHistory := .empty
      continuation := {} })
  | _ => .error (valueError "the call is not for a table-in-out function")

/-- `decode_init_exchange_state` at the token of such an exchange. -/
def InOutWorker.decodeExchange (env : Env) (bincode : Bincode)
    (bytes : Bytes) : Result (TableInOutExchangeState ω) := do
  let read ← readBlob env bincode bytes
  let name := read.blob.functionName
  let (index, f) ← resolveBlended Signature.argumentSpecs (·.metadata.inputFromArgs) name
    (worker.dispatcher.tableinouts name) read.arguments read.inputSchema read.scope
  let (params, history) ← read.filteredParams env (read.arguments.remapPositional f.argumentSpecs)
  return {
    func := worker.code name index
    params
    filters := if read.blob.autoApply then params.currentPushdownFilters else none
    blob := bytes
    filterHistory := history
    continuation := read.blob.continuation }

/-- The exchange as another worker rebuilds it. -/
def InOutWorker.reencode (env : Env) (bincode : Bincode)
    (state : TableInOutExchangeState ω) : Result (TableInOutExchangeState ω) := do
  let token ← state.encodeState bincode
  worker.decodeExchange env bincode token

end Vgi.Dispatch
