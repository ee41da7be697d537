import Vgi.Dispatch.InOut
import Vgi.Storage.Fs

/-! The client's side of an exchange: it sends inputs and continuation ticks, checks every
answer, and closes or cancels the stream at the end. The answers of the stream are arbitrary,
those the client refuses included.
-/

namespace Vgi.Client

open Arrow Lib Dispatch List

/-- `CacheControl::from_metadata`. -/
def cacheControl (metadata : Metadata) : Option CacheControl :=
  let text (key : String) := (entry ("vgi.cache." ++ key) metadata).filter (· ≠ "")
  let int (key : String) : Option Int :=
    ((entry ("vgi.cache." ++ key) metadata).bind fun value =>
      Storage.Fs.parseNumber value.toList).filter fun value =>
        Int64.minValue.toInt ≤ value ∧ value ≤ Int64.maxValue.toInt
  let flag (key : String) : Bool :=
    (entry ("vgi.cache." ++ key) metadata).any (· ∈ ["1", "true", "True"])
  if hasCacheControl (some metadata) then
    some {
      ttlSeconds := (int "ttl").map (max · 0)
      expires := text "expires"
      scope := (text "scope").getD "catalog"
      noStore := flag "no_store"
      etag := text "etag"
      lastModified := text "last_modified"
      revalidatable := flag "revalidatable"
      staleWhileRevalidate := int "stale_while_revalidate"
      staleIfError := int "stale_if_error"
      notModified := flag "not_modified"
      partitionScope := flag "partition_scope"
      perValue := flag "per_value" }
  else none

def base64Value (byte : UInt8) : Option Nat :=
  let c := Char.ofNat byte.toNat
  if c.isUpper then some (c.toNat - 'A'.toNat)
  else if c.isLower then some (c.toNat - 'a'.toNat + 26)
  else if c.isDigit then some (c.toNat - '0'.toNat + 52)
  else if c = '+' ∨ c = '-' then some 62
  else if c = '/' ∨ c = '_' then some 63
  else none

/-- The loop of the decoder: the bits that have not made a byte yet, and how many they are. -/
def base64Bytes : (bits acc : Nat) → Bytes → Option Bytes
  | _, _, [] => some []
  | bits, acc, byte :: rest => do
    let acc := acc * 64 + (← base64Value byte)
    let bits := bits + 6
    if bits < 8 then base64Bytes bits acc rest
    else do
      let bytes ← base64Bytes (bits - 8) (acc % 2 ^ (bits - 8)) rest
      return UInt8.ofNat (acc / 2 ^ (bits - 8)) :: bytes

def isAsciiWhitespace (byte : UInt8) : Bool := byte ∈ [9, 10, 12, 13, 32]

/-- The client's own decoder, which reads up to the padding. -/
def base64Decode (text : String) : Option Bytes :=
  base64Bytes 0 0 (((utf8 text).filter fun byte => !isAsciiWhitespace byte).takeWhile (· ≠ 61))

def parseParentRows (metadata : Metadata) : Result (Option (List Int32)) :=
  readOptional (fun encoded => do
    let raw ← okOr (typeError "vgi_rpc.parent_row is not valid base64") (base64Decode encoded)
    rejectIf (raw.length % 4 ≠ 0)
      (typeError s!"vgi_rpc.parent_row is {raw.length} bytes, not a whole number of int32")
    return (chunks raw).map int32OfBytes) (entry parentRowMetadataKey metadata)

def saysMore (metadata : Metadata) : Bool :=
  entry statusMetadataKey metadata = some statusHaveMoreOutput

def checkContinuedReply (function : String) (metadata : Metadata) (more tick : Bool)
    : Result Unit := do
  rejectIf (tick ∧ hasCacheControl (some metadata))
    (protocolError (s!"function `{function}`: cache control on a reply to a continuation tick; "
      ++ "it is only valid on an input's first reply"))
  rejectIf ((cacheControl metadata).any CacheControl.notModified ∧ more)
    (protocolError (s!"function `{function}`: not_modified on a continued reply (one that says "
      ++ "HAVE_MORE_OUTPUT); a 304 must be its input's only reply"))

/-- The columns of a batch are those that were resolved; `display` prints a type. -/
def checkBatchSchema (display : DataType → String) (function : String) (expected : Schema)
    (batch : RecordBatch) : Result Unit := do
  let got := batch.schema.fields
  rejectIf (got.length ≠ expected.fields.length)
    (typeError (s!"function `{function}` emitted a batch with {got.length} column(s) but its "
      ++ s!"bind resolved {expected.fields.length}: every batch must match the schema the scan "
      ++ "declared"))
  match (expected.fields.zip got).zipIdx.find? fun column =>
      column.1.1.name ≠ column.1.2.name ∨ column.1.1.dataType ≠ column.1.2.dataType with
  | some ((want, arrived), index) =>
    .error (typeError (s!"function `{function}` emitted a batch that does not match the schema "
      ++ s!"its bind resolved: column {index} arrived as `{arrived.name}: "
      ++ s!"{display arrived.dataType}` but the schema declares `{want.name}: "
      ++ s!"{display want.dataType}`"))
  | none => .ok ()

def keepColumns (count : Nat) (batch : RecordBatch) : Except String RecordBatch :=
  if batch.columns.length < count then
    .error (s!"Schema error: project index {batch.columns.length} out of bounds, max field "
      ++ s!"{batch.columns.length}")
  else
    .ok {
      schema := { batch.schema with fields := batch.schema.fields.take count }
      columns := batch.columns.take count
      numRows := batch.numRows
      types := by rw [map_take, map_take, batch.types]
      lengths := fun column member => batch.lengths column (mem_of_mem_take member)
      nonNull := by
        intro pair member
        have inside : pair ∈ (batch.schema.fields.zip batch.columns).take count := by
          simpa [zip, take_zipWith] using member
        exact batch.nonNull pair (mem_of_mem_take inside) }

/-- `conditional_request_metadata`: the validators of the first input. -/
def conditionalRequestMetadata (ifNoneMatch ifModifiedSince : Option String) : Option Metadata :=
  let metadata := (ifNoneMatch.map fun value => (cacheIfNoneMatchKey, value)).toList
    ++ (ifModifiedSince.map fun value => (cacheIfModifiedSinceKey, value)).toList
  if metadata.isEmpty then none else some metadata

structure Exchange where
  function : String
  schema : Schema
  emittedSchema : Schema
  parentRows : Option (List Int32) := none
  lastCacheControl : Option CacheControl := none
  firstInputMetadata : Option Metadata
  /-- The last input's schema while its output continues. -/
  pendingMore : Option Schema := none
  connectionReusable : Bool
  closed : Bool := false

/-- What the stream answers to a message; `none` is its end. -/
abbrev Answer := Result (Option (RecordBatch × Metadata))

/-- What the client did on the stream: a turn, with the answer and what the client made of it
(the batch and whether there is more), or the end of the input.
-/
inductive StreamEvent where
  | turn (input : RecordBatch) (metadata : Option Metadata) (answer : Answer)
      (outcome : Result (Option RecordBatch × Bool))
  | close (answer : Result Unit)
  | cancel (answer : Result Unit)

namespace Exchange

/-- A failure after which the connection is not pooled again. -/
def spoil (exchange : Exchange) : Exchange := { exchange with connectionReusable := false }

def spoilIf {α : Type} (exchange : Exchange) : Result α → Exchange
  | .ok _ => exchange
  | .error _ => exchange.spoil

/-- The batch of an answer without the columns that only filters needed. -/
def trim (exchange : Exchange) (batch : RecordBatch) : Result RecordBatch :=
  let keep := exchange.schema.fields.length
  if keep = batch.columns.length then .ok batch
  else
    (keepColumns keep batch).mapError fun error =>
      runtimeError (s!"function `{exchange.function}`: could not drop filter-only exchange "
        ++ s!"columns: {error}")

variable (display : DataType → String)

def check (tick : Bool) (batch : RecordBatch) (metadata : Metadata)
    (exchange : Exchange) : Result RecordBatch × Exchange :=
  let checked : Result (Option (List Int32)) := do
    checkContinuedReply exchange.function metadata (saysMore metadata) tick
    checkBatchSchema display exchange.function exchange.emittedSchema batch
    parseParentRows metadata
  match checked with
  | .error error => (.error error, exchange)
  | .ok parentRows =>
    (exchange.trim batch, { exchange with
      parentRows
      lastCacheControl := (cacheControl metadata).or exchange.lastCacheControl })

def truncated (function : String) : RpcError :=
  protocolError (s!"function `{function}`: the worker ended the stream in answer to a "
    ++ "continuation tick; its output for the last input was truncated")

def receive (tick : Bool) (answer : Answer) (exchange : Exchange)
    : Result (Option RecordBatch × Bool) × Exchange :=
  match answer with
  | .error error => (.error error, exchange.spoil)
  | .ok none =>
    if tick then (.error (truncated exchange.function), exchange.spoil)
    else (.ok (none, false), exchange)
  | .ok (some (batch, metadata)) =>
    let (result, exchange) := exchange.check display tick batch metadata
    (result.map fun batch => (some batch, saysMore metadata), exchange.spoilIf result)

/-- One turn: nothing is sent once the exchange is closed. -/
def turn (display : DataType → String) (input : RecordBatch) (metadata : Option Metadata)
    (tick : Bool) (answer : Answer) (exchange : Exchange)
    : Result (Option RecordBatch × Bool) × Exchange × List StreamEvent :=
  if exchange.closed then (.error (protocolError "send after close"), exchange, [])
  else
    let (outcome, exchange) := { exchange with pendingMore := none }.receive display tick answer
    (outcome, exchange, [.turn input metadata answer outcome])

def await (schema : Schema) (exchange : Exchange) : Result (Option RecordBatch × Bool) → Exchange
  | .ok (_, more) => { exchange with pendingMore := if more then some schema else none }
  | .error _ => exchange

def send (display : DataType → String) (input : RecordBatch) (answer : Answer)
    (exchange : Exchange) : Result (Option RecordBatch) × Exchange × List StreamEvent :=
  if exchange.pendingMore.isSome then
    (.error (protocolError
      "send while the last input's output is pending; call continue_output()"), exchange, [])
  else
    let metadata := exchange.firstInputMetadata
    let (outcome, exchange, events) :=
      { exchange with firstInputMetadata := none }.turn display input metadata false answer
    (outcome.map Prod.fst, exchange.await input.schema outcome, events)

def tickMetadata : Metadata := [(statusMetadataKey, statusContinue)]

def continueOutput (answer : Answer) (exchange : Exchange)
    : Result (Option RecordBatch) × Exchange × List StreamEvent :=
  match exchange.pendingMore with
  | none => (.error (protocolError "continue_output with no output pending"), exchange, [])
  | some schema =>
    let (outcome, exchange, events) :=
      exchange.turn display (emptyBatch schema) (some tickMetadata) true answer
    (outcome.map Prod.fst, exchange.await schema outcome, events)

def close (answer : Result Unit) (exchange : Exchange)
    : Result Unit × Exchange × List StreamEvent :=
  if exchange.closed then (.ok (), exchange, [])
  else
    (answer, { exchange with closed := true, pendingMore := none }.spoilIf answer, [.close answer])

def cancel (answer : Result Unit) (exchange : Exchange)
    : Result Unit × Exchange × List StreamEvent :=
  if exchange.closed then (.ok (), exchange, [])
  else
    (answer, { exchange with closed := true, pendingMore := none }.spoilIf answer, [.cancel answer])

def drop (answer : Result Unit) (exchange : Exchange) : Exchange × List StreamEvent :=
  if exchange.closed then (exchange, [])
  else ({ exchange with closed := true }.spoilIf answer, [.cancel answer])

end Exchange

/-- A call of the exchange, with what the stream answers if it is asked. -/
inductive ClientCall where
  | send (input : RecordBatch) (answer : Answer)
  | continueOutput (answer : Answer)
  | close (answer : Result Unit)
  | cancel (answer : Result Unit)
  | drop (answer : Result Unit)

structure Session where
  exchange : Exchange
  dropped : Bool := false
  log : List StreamEvent := []

def Session.after (session : Session) (exchange : Exchange) (events : List StreamEvent)
    : Session :=
  { session with exchange, log := session.log ++ events }

def Session.call (display : DataType → String) (session : Session) : ClientCall → Session
  | .send input answer =>
    let (_, exchange, events) := session.exchange.send display input answer
    session.after exchange events
  | .continueOutput answer =>
    let (_, exchange, events) := session.exchange.continueOutput display answer
    session.after exchange events
  | .close answer =>
    let (_, exchange, events) := session.exchange.close answer
    session.after exchange events
  | .cancel answer =>
    let (_, exchange, events) := session.exchange.cancel answer
    session.after exchange events
  | .drop answer =>
    let (exchange, events) := session.exchange.drop answer
    { session.after exchange events with dropped := true }

/-- `open_exchange`, once the worker accepted the init. -/
def Exchange.opened (function : String) (schema emittedSchema : Schema)
    (ifNoneMatch ifModifiedSince : Option String) (connectionReusable : Bool) : Exchange where
  function
  schema
  emittedSchema
  firstInputMetadata := conditionalRequestMetadata ifNoneMatch ifModifiedSince
  connectionReusable

def sessions (display : DataType → String) : Machine Session ClientCall where
  initial session := ∃ function schema emittedSchema ifNoneMatch ifModifiedSince reusable,
    session.exchange = .opened function schema emittedSchema ifNoneMatch ifModifiedSince reusable
    ∧ session.dropped = false ∧ session.log = []
  next session call := if session.dropped then none else some (session.call display call)

end Vgi.Client
