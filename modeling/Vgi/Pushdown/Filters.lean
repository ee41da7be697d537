import Mathlib.Data.Finmap
import Vgi.Pushdown.Parser

/-! The per-scan filter state: reading a snapshot, applying deltas, and the compacted history
that a continuation carries.
-/

namespace Vgi.Pushdown

open Arrow Lib

structure EvaluationContext where
  profile : String
  timeZone : Option String
  calendar : Option String
  defaultCollation : Option String
  ieeeFloatingPointOps : Option Bool
  integerDivision : Option Bool
  providerFingerprint : Option String
deriving DecidableEq

/-- The revision last applied for each predicate ID, removed ones included. -/
abbrev Revisions := Finmap fun _ : String => Nat

structure PushdownFilters where
  predicates : List Predicate
  revisions : Revisions
  requiredIds : Finset String
  context : EvaluationContext
  joinKeys : List RecordBatch
  outputSchema : Schema

/-- A payload name is its kind and a decimal index without leading zeros. -/
def canonicalPayloadName (name : String) : Bool :=
  ["value_", "type_", "artifact_"].any fun kind =>
    match name.toList.dropPrefix? kind.toList with
    | none => false
    | some index => index = ['0'] || (index.head? ≠ some '0' && index.all Char.isDigit)

def metadataValue (metadata : Metadata) (key : String) : Result String :=
  okOr (valueError s!"missing schema metadata {key}") (metadata.lookup key)

def sessionKeys : List String :=
  ["vgi_time_zone", "vgi_calendar", "vgi_default_collation", "vgi_ieee_floating_point_ops",
    "vgi_integer_division"]

def parseContext (schema : Schema) : Result EvaluationContext := do
  let encoding ← metadataValue schema.metadata "vgi_filter_encoding"
  rejectIf (encoding ≠ encodingName) (valueError "unsupported filter encoding/version")
  let version ← metadataValue schema.metadata "vgi_filter_version"
  rejectIf (version ≠ versionName) (valueError "unsupported filter encoding/version")
  let profile ← metadataValue schema.metadata "vgi_evaluation_context"
  if profile = noContext then
    rejectIf
      (sessionKeys.any (fun key => (schema.metadata.lookup key).isSome)
        ∨ (schema.metadata.lookup "vgi_context_provider_fingerprint").isSome)
      (valueError "vgi.none.v1 forbids session context metadata")
    pure
      { profile
        timeZone := none
        calendar := none
        defaultCollation := none
        ieeeFloatingPointOps := none
        integerDivision := none
        providerFingerprint := none }
  else if profile ≠ sessionContext then
    .error (valueError "unknown evaluation context")
  else
    .error (valueError "vgi.duckdb.session.v1 evaluation context was not advertised")

/-- The payload fields after `filter_spec`: canonical, pairwise distinct, and NULL where they
only carry a type.
-/
def validatePayloads : List (Field × ArrayRef) → List String → Result Unit
  | [], _ => pure ()
  | (field, column) :: rest, names => do
    rejectIf (field.name ∈ names ∨ ¬canonicalPayloadName field.name)
      (valueError "noncanonical or duplicate payload field name")
    rejectIf ("type_".toList <+: field.name.toList ∧ ¬column.isNull 0)
      (valueError "type payload must contain NULL")
    validatePayloads rest (field.name :: names)

def validateWireSchema (schema : Schema) : Result Unit := do
  let first ← okOr (valueError "filter RecordBatch has no filter_spec") schema.fields.head?
  rejectIf (first.name ≠ "filter_spec" ∨ first.dataType ≠ .utf8 ∨ first.isNullable)
    (valueError "first field must be filter_spec: utf8 not null")

def validateHeader (encoding semantics : String) : Result Unit := do
  rejectIf (encoding ≠ encodingName) (valueError "document encoding must be vgi.filters.v2")
  rejectIf (semantics ≠ semanticsName) (valueError "unsupported filter semantics")

section

variable {Text Bytes : Type} (dec : Decoders Text Bytes)

def validateBatch (batch : RecordBatch) : Result (EvaluationContext × Document) := do
  rejectIf (batch.numRows ≠ 1) (valueError "filter RecordBatch must contain exactly one row")
  let first ← okOr (valueError "filter RecordBatch has no filter_spec") batch.schema.fields.head?
  rejectIf (first.name ≠ "filter_spec" ∨ first.dataType ≠ .utf8)
    (valueError "first field must be filter_spec: utf8 not null")
  let strings ← okOr (valueError "filter_spec is not utf8")
    (batch.columns.head?.bind ArrayRef.asString?)
  let raw ← okOr (valueError "filter_spec must not be NULL") (strings.head?.getD none)
  rejectIf (raw.utf8ByteSize > maxJson) (valueError "filter JSON exceeds 1 MiB")
  validatePayloads ((batch.schema.fields.zip batch.columns).drop 1) []
  let context ← parseContext batch.schema
  let document ← (dec.documentFromStr raw).mapError jsonError
  pure (context, document)

structure SnapshotState where
  predicates : List Predicate
  revisions : Revisions
  requiredIds : Finset String
  nodes : Nat

def snapshotPredicate (parser : Parser) (state : SnapshotState) (raw : Value)
    : Result SnapshotState := do
  let wire ← (WirePredicate.fromValue dec raw).mapError jsonError
  let (predicate, nodes) ← parser.predicate wire false state.nodes
  rejectIf (predicate.revision ≠ 0) (valueError "snapshot predicate revisions must be zero")
  rejectIf (state.revisions.lookup predicate.id).isSome (valueError "duplicate predicate ID")
  pure
    { predicates := state.predicates ++ [predicate]
      revisions := state.revisions.insert predicate.id 0
      requiredIds :=
        if predicate.mode = .required then insert predicate.id state.requiredIds
        else state.requiredIds
      nodes }

def parseSnapshotBatch (batch : RecordBatch) (joinKeys : List RecordBatch)
    (outputSchema : Option Schema) : Result PushdownFilters := do
  let (context, document) ← validateBatch dec batch
  match document with
  | .delta .. => .error (valueError "initial filter document must be a snapshot")
  | .snapshot encoding semantics predicates =>
    validateHeader encoding semantics
    rejectIf (predicates.length > maxPredicates) (valueError "snapshot exceeds predicate limit")
    rejectIf (¬predicates.isEmpty ∧ outputSchema.isNone)
      (valueError "Filter Encoding v2 requires the authoritative unprojected bind output schema")
    let outputSchema := outputSchema.getD { fields := [], metadata := [] }
    let parser : Parser := { batch, joinKeys, outputSchema }
    let parsed ← predicates.foldlM (snapshotPredicate dec parser)
      { predicates := [], revisions := ∅, requiredIds := ∅, nodes := 0 }
    pure
      { predicates := parsed.predicates
        revisions := parsed.revisions
        requiredIds := parsed.requiredIds
        context
        joinKeys
        outputSchema }

/-- What an update asks for once its properties are checked. -/
inductive DeltaOperation where
  | remove
  | upsert (wire : WirePredicate)

/-- A removal carries no predicate; an upsert carries a complete advisory one, so the
source's second look at its parts cannot fail.
-/
def deltaOperation (update : WireUpdate) : Result DeltaOperation :=
  match update.operation with
  | "remove" => do
    rejectIf (update.mode.isSome ∨ update.source.isSome ∨ update.expression.isSome)
      (valueError "remove update has predicate properties")
    pure .remove
  | "upsert" =>
    match update.mode, update.source, update.expression with
    | some mode, some source, some expression => do
      rejectIf (mode ≠ "advisory" ∨ ¬isPredicateSource source)
        (valueError "invalid delta upsert properties")
      pure (.upsert { id := update.id, revision := update.revision, mode, source, expression })
    | _, _, _ => .error (valueError "invalid delta upsert properties")
  | _ => .error (valueError "delta operation must be remove or upsert")

/-- The accumulators of the delta loop: the next state's moving parts, the IDs seen, whether
anything changed, and the node count.
-/
structure DeltaState where
  predicates : List Predicate
  revisions : Revisions
  seen : Finset String
  changed : Bool
  nodes : Nat

def retainOthers (predicates : List Predicate) (id : String) : List Predicate :=
  predicates.filter fun predicate => predicate.id ≠ id

/-- An update at or below the revision already applied for its ID is stale. -/
def isStale (revisions : Revisions) (update : WireUpdate) : Bool :=
  (revisions.lookup update.id).any fun old => update.revision ≤ old

def applyOperation (parser : Parser) (state : DeltaState) (update : WireUpdate)
    : DeltaOperation → Result DeltaState
  | .remove =>
    pure
      { state with
        predicates := retainOthers state.predicates update.id
        revisions := state.revisions.insert update.id update.revision
        changed := true }
  | .upsert wire => do
    let (predicate, nodes) ← parser.predicate wire true state.nodes
    pure
      { state with
        predicates := retainOthers state.predicates update.id ++ [predicate]
        revisions := state.revisions.insert update.id update.revision
        changed := true
        nodes }

def applyUpdate (parser : Parser) (requiredIds : Finset String) (state : DeltaState)
    (raw : Value) : Result DeltaState := do
  let update ← (WireUpdate.fromValue dec raw).mapError jsonError
  validateId update.id
  rejectIf (update.id ∈ state.seen) (valueError "duplicate delta predicate ID")
  rejectIf (update.id ∈ requiredIds) (valueError "delta targets required predicate")
  let operation ← deltaOperation update
  let state := { state with seen := insert update.id state.seen }
  if isStale state.revisions update then pure state
  else applyOperation parser state update operation

/-- The batch and the updates of a delta that passed every check before its loop. -/
def deltaUpdates (context : EvaluationContext) (bytes : Bytes)
    : Result (RecordBatch × List Value) := do
  rejectIf (dec.len bytes > maxPayload) (valueError "filter payload exceeds 16 MiB")
  let schema ← dec.readSchema bytes
  validateWireSchema schema
  let batch ← dec.readBatch bytes
  let (found, document) ← validateBatch dec batch
  rejectIf (found ≠ context) (valueError "evaluation context changed within one scan")
  match document with
  | .snapshot .. => .error (valueError "dynamic filter document must be a delta")
  | .delta encoding semantics updates =>
    validateHeader encoding semantics
    pure (batch, updates)

namespace PushdownFilters

variable (filters : PushdownFilters)

def deltaParser (batch : RecordBatch) : Parser :=
  { batch, joinKeys := filters.joinKeys, outputSchema := filters.outputSchema }

def deltaStart : DeltaState :=
  { predicates := filters.predicates
    revisions := filters.revisions
    seen := ∅
    changed := false
    nodes := 0 }

/-- `apply_delta`: the next state and whether it changed. A rejected delta returns no state,
so the caller's stays as it was.
-/
def applyDelta (bytes : Bytes) : Result (PushdownFilters × Bool) := do
  let (batch, updates) ← deltaUpdates dec filters.context bytes
  let next ← updates.foldlM
    (applyUpdate dec (filters.deltaParser batch) filters.requiredIds) filters.deltaStart
  rejectIf (next.revisions.keys.card > maxIds) (valueError "delta exceeds predicate-ID limit")
  pure
    ({ filters with predicates := next.predicates, revisions := next.revisions },
      next.changed)

def applyDeltaB64 (encoded : Text) : Result (PushdownFilters × Bool) := do
  let bytes ← okOr (valueError "invalid base64 filter delta") (dec.b64Decode encoded)
  filters.applyDelta dec bytes

/-- The live predicate IDs, in evaluation order. -/
def predicateOrder : List String := filters.predicates.map Predicate.id

def orderMismatch : RpcError :=
  valueError "recorded predicate order does not match the replayed filter state"

/-- Take the predicates out of `byId` in the given order. A later predicate of an ID shadows
an earlier one, as in a map built by insertion.
-/
def takeInOrder : (byId : List Predicate) → (order : List String) → Result (List Predicate)
  | byId, [] => do
    rejectIf (¬byId.isEmpty) orderMismatch
    pure []
  | byId, id :: order => do
    let predicate ← okOr orderMismatch (byId.reverse.find? fun p => p.id = id)
    let rest ← takeInOrder (retainOthers byId id) order
    pure (predicate :: rest)

def restorePredicateOrder (order : List String) : Result PushdownFilters :=
  if filters.predicateOrder = order then .ok filters
  else do
    let reordered ← takeInOrder filters.predicates order
    pure { filters with predicates := reordered }

end PushdownFilters

/-- The `(id, revision)` of every update a delta carries, read structurally. -/
def deltaRevisionsB64 (encoded : Text) : Result (List (String × Nat)) := do
  let bytes ← okOr (valueError "invalid base64 filter delta") (dec.b64Decode encoded)
  let batch ← dec.readBatch bytes
  let (_, document) ← validateBatch dec batch
  match document with
  | .snapshot .. => .error (valueError "dynamic filter document must be a delta")
  | .delta _ _ updates =>
    updates.mapM fun update =>
      match (update.get "id").bind Value.asStr, (update.get "revision").bind Value.asU64 with
      | some id, some revision => .ok (id, revision)
      | _, _ => .error (valueError "delta update is missing its id or revision")

end

structure DeltaHistory (Text : Type) where
  deltas : List Text
  order : List String

namespace DeltaHistory

variable {Text Bytes : Type} (dec : Decoders Text Bytes)

def empty : DeltaHistory Text := { deltas := [], order := [] }

/-- Rebuild a history from the two lists a continuation token carries. -/
def fromParts (deltas : List Text) (order : List String) : DeltaHistory Text := { deltas, order }

def wantedPairs (revisions : Revisions) : Finset (String × Nat) :=
  revisions.keys.image fun id => (id, (revisions.lookup id).getD 0)

/-- Remove the pairs a delta carries from the wanted ones, and say whether one was wanted. -/
def claimPairs : List (String × Nat) → (needed : Bool) → Finset (String × Nat)
    → Bool × Finset (String × Nat)
  | [], needed, wanted => (needed, wanted)
  | pair :: rest, needed, wanted => claimPairs rest (needed || pair ∈ wanted) (wanted.erase pair)

/-- The compaction loop: keep each delta that is the first to carry a wanted pair. -/
def compact : List Text → Finset (String × Nat) → Result (List Text)
  | [], _ => pure []
  | delta :: rest, wanted => do
    let pairs ← deltaRevisionsB64 dec delta
    let (needed, wanted) := claimPairs pairs false wanted
    let kept ← compact rest wanted
    pure (if needed then delta :: kept else kept)

/-- `record`: the answer, the history and the filters afterwards. When the bookkeeping read
fails, the filters have already moved and the taken deltas are gone.
-/
def record (history : DeltaHistory Text) (filters : PushdownFilters) (encoded : Text)
    : Result Unit × DeltaHistory Text × PushdownFilters :=
  match filters.applyDeltaB64 dec encoded with
  | .error error => (.error error, history, filters)
  | .ok (next, false) => (.ok (), history, next)
  | .ok (next, true) =>
    match compact dec (history.deltas ++ [encoded]) (wantedPairs next.revisions) with
    | .error error => (.error error, { history with deltas := [] }, next)
    | .ok kept => (.ok (), { deltas := kept, order := next.predicateOrder }, next)

/-- `replay` on a copy of the snapshot filters. -/
def replay (history : DeltaHistory Text) (filters : PushdownFilters)
    : Result PushdownFilters :=
  if history.deltas.isEmpty then .ok filters
  else do
    let replayed ← history.deltas.foldlM
      (fun filters delta => (filters.applyDeltaB64 dec delta).map Prod.fst) filters
    replayed.restorePredicateOrder history.order

end DeltaHistory

end Vgi.Pushdown
