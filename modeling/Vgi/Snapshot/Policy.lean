import Vgi.Lib.Process
import Vgi.Snapshot.Gate
import Vgi.Snapshot.Manifest
import Vgi.Storage.Backend

/-! The snapshot policy of a catalog: `serve`, `import` and `invalidate` as programs whose calls
of hooks, repository and object storage and whose locked sections are one operation each.
Whatever runs beside them may act between any two operations.
-/

namespace Vgi.Snapshot

open Lib Storage

def protocolName : String := "vgi.v3"

/-- `WIRE`. -/
def wireRevision : String := "3.0"

/-- `CODEC`. -/
def codecRevision : String := "catalog-collections-1"

structure SnapshotIdentity where
  catalogNamespace : String
  sourceRevision : String
  /-- Without one, the scope is the attachment's own. -/
  visibilityScope : Option String
  catalogVersion : Int
deriving DecidableEq

structure SnapshotRequest where
  attachmentScope : Bytes
  attachOpaqueData : Bytes
  catalogVersion : Int
deriving DecidableEq

structure CatalogContentsResponse where
  catalogVersion : Int
  etag : Option String
  notModified : Bool
  schemas : Option Bytes
  tables : Option Bytes
  views : Option Bytes
  functions : Option Bytes
  macros : Option Bytes
  indexes : Option Bytes
deriving DecidableEq

namespace CatalogContentsResponse

def unchanged (catalogVersion : Int) (etag : String) : CatalogContentsResponse where
  catalogVersion
  etag := some etag
  notModified := true
  schemas := none
  tables := none
  views := none
  functions := none
  macros := none
  indexes := none

def streams (response : CatalogContentsResponse) : List (Option Bytes) :=
  [response.schemas, response.tables, response.views, response.functions, response.macros,
    response.indexes]

end CatalogContentsResponse

structure PublicationLocation where
  objectId : Option String
  expiresAt : Option Stamp
  retainUntil : Option Stamp
  stable : Bool
deriving DecidableEq

structure ExternalRef where
  url : String
  sha256 : Option String
deriving DecidableEq

/-- What `publish_external` reports: the reference, with its digest, and the sizes that the
bounded storage has seen.
-/
structure Upload where
  url : String
  sha256 : String
  rawSize : Nat
  storedSize : Nat
deriving DecidableEq

structure KeyMaterial where
  protocolName : String
  wireRevision : String
  contractHash : String
  codecRevision : String
  catalogNamespace : String
  sourceRevision : String
  scope : String
  catalogVersion : Int
  profile : String
  compression : String
deriving DecidableEq

/-- The settings of a policy, with the functions of other crates that it calls. -/
structure CatalogSnapshotPolicy where
  /-- A validator hook is installed. -/
  validator : Bool
  ordinaryOnFailure : Bool
  maxRawBytes : Nat
  maxStoredBytes : Nat
  expiryMargin : Stamp
  maxCachedManifests : Nat
  profile : String
  compression : String
  contractHash : String
  /-- The digest of a byte string, in hex. -/
  hex : Bytes → String
  /-- The digest of the encoded key material, in hex. -/
  keyDigest : KeyMaterial → String
  responseDigest : CatalogContentsResponse → String
  /-- `ExternalRef::new`. -/
  newRef : String → Option String → Result ExternalRef
  schemaContents : CatalogContentsResponse → Result Unit

/-- Later than the deadline; a number that is not finite is not, and nothing is later than one. -/
def Stamp.isAfter : (deadline stamp : Stamp) → Bool
  | .finite deadline, .finite nanos => deadline < nanos
  | _, _ => false

def Stamp.deadline (now : Clock) : (margin : Stamp) → Stamp
  | .finite nanos => .finite (now + nanos)
  | .notFinite => .notFinite

namespace CatalogPublicationManifest

variable (manifest : Manifest)

def usable (margin : Stamp) (now : Clock) : Bool :=
  (manifest.stable || manifest.expiresAt.isSome)
    && (manifest.expiresAt.map (margin.deadline now).isAfter).getD true
    && (manifest.retainUntil.map (margin.deadline now).isAfter).getD true

/-- A manifest as a JSON value: a number that is not finite becomes null. -/
def toValue : Manifest :=
  { manifest with
    expiresAt := manifest.expiresAt.filter (· ≠ .notFinite)
    retainUntil := manifest.retainUntil.filter (· ≠ .notFinite) }

end CatalogPublicationManifest

def validateRenewal (old new : Manifest) : Result Unit :=
  rejectIf
    (old.manifestId = new.manifestId ∧ old.toValue ≠ (new.relocate old.url old.expiresAt).toValue)
    (valueError "catalog URL renewal changed immutable publication metadata")

namespace CatalogSnapshotPolicy

variable (policy : CatalogSnapshotPolicy)

variable (request : SnapshotRequest) (identity : SnapshotIdentity)

def scope : String := identity.visibilityScope.getD (policy.hex request.attachmentScope)

def keyMaterial : KeyMaterial where
  protocolName
  wireRevision
  contractHash := policy.contractHash
  codecRevision
  catalogNamespace := identity.catalogNamespace
  sourceRevision := identity.sourceRevision
  scope := policy.scope request identity
  catalogVersion := identity.catalogVersion
  profile := policy.profile
  compression := policy.compression

def cacheKey : Result String := do
  rejectIf
    (identity.catalogNamespace = "" ∨ identity.sourceRevision = ""
      ∨ identity.catalogVersion ≠ request.catalogVersion)
    (valueError "publication needs a nonempty namespace, revision and matching catalog version")
  pure (policy.keyDigest (policy.keyMaterial request identity))

def reference (manifest : Manifest) : Result ExternalRef :=
  policy.newRef manifest.url (some manifest.sha256)

/-- The checks of `read` on the manifest itself. -/
def Acceptable (key : String) (identity : SnapshotIdentity)
    (manifest : Manifest) (now : Clock) : Prop :=
  manifest.cacheKey = key
  ∧ manifest.catalogVersion = identity.catalogVersion
  ∧ manifest.protocolName = Snapshot.protocolName
  ∧ manifest.wireRevision = Snapshot.wireRevision
  ∧ manifest.contractHash = policy.contractHash
  ∧ manifest.codecRevision = Snapshot.codecRevision
  ∧ manifest.formatVersion = 1
  ∧ manifest.validatorRevision = 1
  ∧ manifest.rawSize ≤ policy.maxRawBytes
  ∧ manifest.storedSize ≤ policy.maxStoredBytes
  ∧ manifest.rawSize ≠ 0
  ∧ manifest.storedSize ≠ 0
  ∧ manifest.sha256.utf8ByteSize = 64
  ∧ manifest.usable policy.expiryMargin now

instance (key : String) (identity : SnapshotIdentity) (manifest : Manifest)
    (now : Clock) : Decidable (policy.Acceptable key identity manifest now) :=
  inferInstanceAs (Decidable (_ ∧ _))

/-- The checks of `read` on what was fetched. -/
def Agrees (manifest : Manifest) (response : CatalogContentsResponse) : Prop :=
  response.notModified = false
  ∧ response.catalogVersion = manifest.catalogVersion
  ∧ response.etag = manifest.etag

instance (manifest : Manifest) (response : CatalogContentsResponse)
    : Decidable (Agrees manifest response) :=
  inferInstanceAs (Decidable (_ ∧ _))

end CatalogSnapshotPolicy

inductive SnapshotDelivery where
  | inline (response : CatalogContentsResponse)
  | published (reference : ExternalRef)
deriving DecidableEq

/-- What an answer was made from; the code does not keep it. -/
inductive Origin where
  | validator (request : SnapshotRequest)
  | manifest (request : SnapshotRequest) (identity : SnapshotIdentity) (key : String)
      (manifest : Manifest)
  | built (request : SnapshotRequest) (identity : SnapshotIdentity)
      (response : CatalogContentsResponse)
deriving DecidableEq

structure Answer where
  origin : Origin
  delivery : SnapshotDelivery
deriving DecidableEq

/-- What another process does to the repository. -/
inductive Change where
  | put (manifest : Manifest)
  | remove (key : String)
deriving DecidableEq

inductive SnapshotOp where
  /-- A call begins; the result is its index at the gates. -/
  | enter (kind : CallKind)
  | gate (action : GateAction)
  | identity (request : SnapshotRequest)
  | validator (request : SnapshotRequest)
  | now
  | memoGet (key : String)
  | remember (key : String) (manifest : Manifest)
  | memoRemove (key : String)
  /-- Removes the entry of the key if it has this id. -/
  | memoWithdraw (key manifestId : String)
  | lookup (key : String)
  | renew (manifest : Manifest)
  | commitIfAbsent (manifest : Manifest)
  /-- The manager invalidates a manifest it cannot use. -/
  | discard (key manifestId : String)
  /-- The repository's part of `invalidate`. -/
  | withdraw (key manifestId : String)
  | build
  | publish (response : CatalogContentsResponse)
  | location (reference : ExternalRef)
  | randomId
  /-- Resolves the reference of the manifest and decodes what it finds. -/
  | fetch (manifest : Manifest)
  | deliver (answer : Answer)
  | invalidated (key manifestId : String) (result : Result Bool)
  | elsewhere (change : Change)

abbrev SnapshotOp.Value : SnapshotOp → Type
  | .enter _ => Nat
  | .identity _ => SnapshotIdentity
  | .validator _ => Option String
  | .now => Clock
  | .memoGet _ | .lookup _ | .renew _ => Option Manifest
  | .commitIfAbsent _ => Manifest
  | .discard _ _ | .withdraw _ _ => Bool
  | .build | .fetch _ => CatalogContentsResponse
  | .publish _ => Upload
  | .location _ => PublicationLocation
  | .randomId => String
  | .gate _ | .remember _ _ | .memoRemove _ | .memoWithdraw _ _ | .deliver _ | .invalidated _ _ _
  | .elsewhere _ => Unit

abbrev SnapshotOp.Res (op : SnapshotOp) : Type := Result op.Value

abbrev SnapshotEvent := Performed SnapshotOp SnapshotOp.Res

abbrev SnapshotTrace := List SnapshotEvent

structure Shared where
  gates : GateState
  /-- The map `validated`. -/
  validated : List (String × Manifest)
  /-- The manifests that the repository finds, at most one for each key. -/
  live : List Manifest

namespace Shared

def empty : Shared := ⟨⟨[], [], 0⟩, [], []⟩

variable (shared : Shared)

def memo (key : String) : Option Manifest :=
  (shared.validated.find? (·.1 = key)).map Prod.snd

def found (key : String) : Option Manifest := shared.live.find? (·.cacheKey = key)

def holdsId (key manifestId : String) : Bool := (shared.found key).any (·.manifestId = manifestId)

def forget (key : String) : Shared :=
  { shared with validated := shared.validated.filter (·.1 ≠ key) }

def remember (policy : CatalogSnapshotPolicy) (key : String)
    (manifest : Manifest) : Shared :=
  if max policy.maxCachedManifests 1 ≤ shared.validated.length then
    { shared with validated := [(key, manifest)] }
  else
    { shared with validated := (key, manifest) :: shared.validated.filter (·.1 ≠ key) }

def remove (key : String) : Shared := { shared with live := shared.live.filter (·.cacheKey ≠ key) }

def put (manifest : Manifest) : Shared :=
  { shared with
    live := manifest :: shared.live.filter (·.cacheKey ≠ manifest.cacheKey) }

def commitIfAbsent (manifest : Manifest)
    : Manifest × Shared :=
  match shared.found manifest.cacheKey with
  | some winner => (winner, shared)
  | none => (manifest, shared.put manifest)

def invalidate (key manifestId : String) : Bool × Shared :=
  if shared.holdsId key manifestId then (true, shared.remove key) else (false, shared)

/-- What an operation leaves behind; one that failed leaves everything as it was. -/
def after (policy : CatalogSnapshotPolicy) (event : SnapshotEvent) : Shared :=
  match event with
  | ⟨_, .enter kind, _⟩ =>
    { shared with gates := (shared.gates.next (.begin kind)).getD shared.gates }
  | ⟨_, .gate action, _⟩ => { shared with gates := (shared.gates.next action).getD shared.gates }
  | ⟨_, .remember key manifest, _⟩ => shared.remember policy key manifest
  | ⟨_, .memoRemove key, _⟩ => shared.forget key
  | ⟨_, .memoWithdraw key manifestId, _⟩ =>
    if (shared.memo key).map (·.manifestId) = some manifestId then shared.forget key
    else shared
  | ⟨_, .renew _, .ok (some renewed)⟩ => shared.put renewed
  | ⟨_, .commitIfAbsent manifest, .ok _⟩ => (shared.commitIfAbsent manifest).2
  | ⟨_, .discard key manifestId, .ok _⟩ => (shared.invalidate key manifestId).2
  | ⟨_, .withdraw key manifestId, .ok _⟩ => (shared.invalidate key manifestId).2
  | ⟨_, .elsewhere (.put manifest), _⟩ => shared.put manifest
  | ⟨_, .elsewhere (.remove key), _⟩ => shared.remove key
  | _ => shared

end Shared

/-- What is shared after the operations of a trace. -/
def CatalogSnapshotPolicy.shared (policy : CatalogSnapshotPolicy) (trace : SnapshotTrace)
    : Shared :=
  trace.foldl (Shared.after · policy) .empty

/-- What the hooks, the clock, the storage and the repository come up with at one operation. -/
structure Surroundings where
  identity : Result SnapshotIdentity
  validator : Result (Option String)
  now : Clock
  /-- The repository fails. -/
  failure : Option RpcError
  /-- What a renewal turns the live manifest into, if the repository renews at all. -/
  renewed : Option Manifest
  built : Result CatalogContentsResponse
  upload : Result Upload
  location : Result PublicationLocation
  randomId : String
  fetched : Result CatalogContentsResponse

/-- A repository operation that fails, or returns this. -/
def Surroundings.repository {α : Type} (surroundings : Surroundings) (value : α) : Result α :=
  match surroundings.failure with
  | some error => .error error
  | none => .ok value

/-- `renew` returns the descriptor that is current after it. -/
def Shared.renewal (shared : Shared) (manifest : Manifest)
    (renewed : Option Manifest) : Option Manifest :=
  match renewed, shared.found manifest.cacheKey with
  | some descriptor, some winner =>
    if winner.manifestId = manifest.manifestId ∧ descriptor.manifestId = winner.manifestId
        ∧ descriptor.cacheKey = winner.cacheKey then
      some descriptor
    else some winner
  | _, _ => none

def CatalogSnapshotPolicy.world (policy : CatalogSnapshotPolicy)
    : World SnapshotOp SnapshotOp.Res Surroundings where
  answer trace _ op surroundings :=
    match op with
    | .enter _ => some (.ok (policy.shared trace).gates.calls.length)
    | .gate action => ((policy.shared trace).gates.next action).map fun _ => .ok ()
    | .identity _ => some surroundings.identity
    | .validator _ => some surroundings.validator
    | .now => some (.ok surroundings.now)
    | .memoGet key => some (.ok ((policy.shared trace).memo key))
    | .lookup key => some (surroundings.repository ((policy.shared trace).found key))
    | .renew manifest =>
      some (surroundings.repository ((policy.shared trace).renewal manifest surroundings.renewed))
    | .commitIfAbsent manifest =>
      some (surroundings.repository ((policy.shared trace).commitIfAbsent manifest).1)
    | .discard key manifestId | .withdraw key manifestId =>
      some (surroundings.repository ((policy.shared trace).invalidate key manifestId).1)
    | .build => some surroundings.built
    | .publish _ => some surroundings.upload
    | .location _ => some surroundings.location
    | .randomId => some (.ok surroundings.randomId)
    | .fetch _ => some surroundings.fetched
    | .remember _ _ | .memoRemove _ | .memoWithdraw _ _ | .deliver _ | .invalidated _ _ _
    | .elsewhere _ => some (.ok ())

/-- A part of a call, which may fail. -/
abbrev Act (α : Type) := ExceptT RpcError (Prog SnapshotOp SnapshotOp.Res) α

/-- One operation; its failure ends the call. -/
def perform (op : SnapshotOp) : Act op.Value := .attempt op

/-- The body of the loop in `serve` returns, or goes on with the next round. -/
inductive Round where
  | finished (answer : Answer)
  | again
deriving DecidableEq

def Round.goesOn : Round → Bool
  | .finished _ => false
  | .again => true

/-- Runs the body under the gate of the key; however it ends, the guard and the lease are
dropped.
-/
def withGate {α : Type} (index : Nat) (key : String) (goesOn : α → Bool) (body : Act α)
    : Act α := do
  perform (.gate (.lease index key))
  perform (.gate (.lock index))
  let result ← ExceptT.lift body.run
  perform (.gate (.unlock index))
  perform (.gate (.check index))
  perform (.gate (.release index ((result.map goesOn).toOption.getD false)))
  liftM result

namespace CatalogSnapshotPolicy

variable (policy : CatalogSnapshotPolicy)

def isUsable (manifest : Manifest) : Act Bool := do
  let now ← perform .now
  pure (manifest.usable policy.expiryMargin now)

def read (key : String) (identity : SnapshotIdentity) (manifest : Manifest)
    : Act CatalogContentsResponse := do
  let now ← perform .now
  liftM (rejectIf (¬ policy.Acceptable key identity manifest now)
    (valueError "invalid or expired catalog publication manifest"))
  let _ ← liftM (policy.reference manifest)
  let response ← perform (.fetch manifest)
  liftM (rejectIf (¬ Agrees manifest response) (valueError "catalog publication metadata mismatch"))
  liftM (policy.schemaContents response)
  pure response

def validate (key : String) (identity : SnapshotIdentity) (manifest : Manifest)
    : Act Unit := do
  let _ ← policy.read key identity manifest
  pure ()

/-- A manifest from the repository, renewed if it would not last. -/
def renewed (found : Manifest) : Act Manifest := do
  if ← policy.isUsable found then pure found
  else
    match ← perform (.renew found) with
    | some renewed => do
      liftM (validateRenewal found renewed)
      pure renewed
    | none => pure found

/-- The manifest from the memo, or a valid one from the repository. -/
def locate (key : String) (identity : SnapshotIdentity)
    : Act (Option Manifest) := do
  match ← perform (.memoGet key) with
  | some manifest => pure (some manifest)
  | none =>
    match ← perform (.lookup key) with
    | none => pure none
    | some found => do
      let found ← policy.renewed found
      match ← ExceptT.lift (policy.validate key identity found).run with
      | .ok _ => pure (some found)
      | .error _ => do
        let _ ← perform (.discard key found.manifestId)
        pure none

variable (request : SnapshotRequest)

/-- The reference of a manifest, as the answer of the call. -/
def handOut (identity : SnapshotIdentity) (key : String) (manifest : Manifest)
    : Act Round := do
  let reference ← liftM (policy.reference manifest)
  pure (.finished ⟨.manifest request identity key manifest, .published reference⟩)

variable (ifNoneMatch : Option String)

def serveFound (identity : SnapshotIdentity) (key : String)
    (found : Manifest) : Act Round := do
  let observed ← perform (.identity request)
  if observed ≠ identity then pure .again
  else do
    perform (.remember key found)
    match found.etag with
    | some etag =>
      if some etag = ifNoneMatch then
        pure (.finished ⟨.manifest request identity key found,
          .inline (.unchanged found.catalogVersion etag)⟩)
      else policy.handOut request identity key found
    | none => policy.handOut request identity key found

/-- The manifest of a fresh upload. -/
def manifestOf (key manifestId : String) (value : CatalogContentsResponse) (upload : Upload)
    (location : PublicationLocation) : Manifest where
  cacheKey := key
  manifestId
  protocolName
  wireRevision
  contractHash := policy.contractHash
  codecRevision
  catalogVersion := value.catalogVersion
  etag := value.etag
  sha256 := upload.sha256
  rawSize := upload.rawSize
  storedSize := upload.storedSize
  url := upload.url
  objectId := location.objectId
  expiresAt := location.expiresAt
  retainUntil := location.retainUntil
  stable := location.stable
  formatVersion := 1
  validatorRevision := 1

/-- The winner of a commit, which is read back unless it has the id that was offered. -/
def commit (key : String) (identity : SnapshotIdentity) (manifest : Manifest)
    : Act Manifest := do
  let winner ← perform (.commitIfAbsent manifest)
  if winner.manifestId ≠ manifest.manifestId then do
    policy.validate key identity winner
    pure winner
  else pure winner

def publish (request : SnapshotRequest) (identity : SnapshotIdentity) (key : String)
    (value : CatalogContentsResponse) : Act Round := do
  let upload ← perform (.publish value)
  let location ← perform (.location ⟨upload.url, some upload.sha256⟩)
  let manifestId ← perform .randomId
  let manifest := policy.manifestOf key manifestId value upload location
  let readback ← policy.read key identity manifest
  liftM (rejectIf
    (readback.catalogVersion ≠ value.catalogVersion ∨ readback.etag ≠ value.etag
      ∨ readback.streams ≠ value.streams)
    (valueError "published catalog differs from collected snapshot"))
  let observed ← perform (.identity request)
  if observed ≠ identity then pure .again
  else do
    let winner ← policy.commit key identity manifest
    let observed ← perform (.identity request)
    if observed ≠ identity then pure .again
    else do
      perform (.remember key winner)
      policy.handOut request identity key winner

/-- Builds a snapshot, and publishes it unless the client has it. -/
def buildAndPublish (identity : SnapshotIdentity) (key : String)
    : Act Round := do
  let value ← perform .build
  liftM (rejectIf value.notModified
    (valueError "publication build must return a complete snapshot"))
  liftM (policy.schemaContents value)
  if value.catalogVersion ≠ identity.catalogVersion then pure .again
  else do
    let observed ← perform (.identity request)
    if observed ≠ identity then pure .again
    else do
      let etag := value.etag.getD (policy.responseDigest value)
      if some etag = ifNoneMatch then
        pure (.finished ⟨.built request identity value,
          .inline (.unchanged value.catalogVersion etag)⟩)
      else policy.publish request identity key { value with etag := some etag }

/-- One round under the gate. -/
def underGate (identity : SnapshotIdentity) (key : String)
    : Act Round := do
  match ← policy.locate key identity with
  | none => policy.buildAndPublish request ifNoneMatch identity key
  | some found => do
    if ← policy.isUsable found then
      policy.serveFound request ifNoneMatch identity key found
    else
      match ← perform (.renew found) with
      | some renewed => do
        liftM (validateRenewal found renewed)
        policy.validate key identity renewed
        perform (.remember key renewed)
        pure .again
      | none => do
        let _ ← perform (.discard key found.manifestId)
        perform (.memoRemove key)
        policy.buildAndPublish request ifNoneMatch identity key

/-- `CatalogSnapshotManager::serve`. -/
def managerServe (index : Nat) (request : SnapshotRequest) (ifNoneMatch : Option String)
    : (rounds : Nat) → Act Answer
  | 0 => throw (runtimeError "catalog revision or publication changed repeatedly")
  | rounds + 1 => do
    let identity ← perform (.identity request)
    let key ← liftM (policy.cacheKey request identity)
    match ← withGate index key Round.goesOn
        (policy.underGate request ifNoneMatch identity key) with
    | .finished answer => pure answer
    | .again => managerServe index request ifNoneMatch rounds

def LimitsValid : Prop :=
  policy.maxRawBytes ≠ 0
  ∧ policy.maxStoredBytes ≠ 0
  ∧ policy.maxCachedManifests ≠ 0
  ∧ match policy.expiryMargin with
    | .finite nanos => 0 ≤ nanos
    | .notFinite => False

instance : Decidable policy.LimitsValid := by
  unfold LimitsValid
  cases policy.expiryMargin <;> infer_instance

/-- What the validator hook answers for the client's tag. -/
def validatorAnswer : Act (Option Answer) := do
  if policy.validator then
    match ← perform (.validator request) with
    | some etag =>
      if some etag = ifNoneMatch then
        pure (some ⟨.validator request, .inline (.unchanged request.catalogVersion etag)⟩)
      else pure none
    | none => pure none
  else pure none

/-- Delivers the snapshot inline after publication has failed with `error`. -/
def ordinary (error : RpcError) : Act Answer := do
  let before ← perform (.identity request)
  let value ← perform .build
  let after ← perform (.identity request)
  if before ≠ after ∨ value.catalogVersion ≠ before.catalogVersion then throw error
  else do
    liftM (policy.schemaContents value)
    let observed ← perform (.identity request)
    if observed ≠ before then throw error
    else
      match value.etag with
      | some etag =>
        if some etag = ifNoneMatch then
          pure ⟨.built request before value, .inline (.unchanged value.catalogVersion etag)⟩
        else pure ⟨.built request before value, .inline value⟩
      | none => pure ⟨.built request before value, .inline value⟩

def serve (index : Nat) (request : SnapshotRequest) (ifNoneMatch : Option String)
    : Act Answer := do
  liftM (rejectIf (¬ policy.LimitsValid) (valueError "invalid catalog snapshot policy limits"))
  match ← policy.validatorAnswer request ifNoneMatch with
  | some answer => pure answer
  | none =>
    match ← ExceptT.lift
        (policy.managerServe index request ifNoneMatch CallKind.serve.rounds).run with
    | .ok answer => pure answer
    | .error error =>
      if policy.ordinaryOnFailure then policy.ordinary request ifNoneMatch error
      else throw error

def importManifest (index : Nat) (request : SnapshotRequest)
    (manifest : Manifest) : Act Unit := do
  let identity ← perform (.identity request)
  let key ← liftM (policy.cacheKey request identity)
  withGate index key (fun _ => false) do
    policy.validate key identity manifest
    let observed ← perform (.identity request)
    if observed ≠ identity then throw (valueError "catalog changed during publication import")
    else do
      let winner ← policy.commit key identity manifest
      let observed ← perform (.identity request)
      if observed ≠ identity then throw (valueError "catalog changed during publication import")
      else perform (.remember key winner)

end CatalogSnapshotPolicy

def invalidate (index : Nat) (key manifestId : String) : Act Bool :=
  withGate index key (fun _ => false) do
    perform (.memoWithdraw key manifestId)
    perform (.withdraw key manifestId)

/-- What may be started: a call of the policy, or a change by another process. -/
inductive SnapshotCall where
  | serve (request : SnapshotRequest) (ifNoneMatch : Option String)
  | importing (request : SnapshotRequest) (manifest : Manifest)
  | invalidate (key manifestId : String)
  | elsewhere (change : Change)

/-- A call from its beginning to its return. -/
def CatalogSnapshotPolicy.program (policy : CatalogSnapshotPolicy)
    : SnapshotCall → Act Unit
  | .serve request ifNoneMatch => do
    let index ← perform (.enter .serve)
    let answer ← policy.serve index request ifNoneMatch
    perform (.deliver answer)
  | .importing request manifest => do
    let index ← perform (.enter .importing)
    policy.importManifest index request manifest
  | .invalidate key manifestId => do
    let index ← perform (.enter .invalidate)
    let result ← ExceptT.lift (invalidate index key manifestId).run
    perform (.invalidated key manifestId result)
  | .elsewhere change => perform (.elsewhere change)

def CatalogSnapshotPolicy.calls (policy : CatalogSnapshotPolicy)
    : Machine (Crowd SnapshotOp SnapshotOp.Res) (CrowdAction Surroundings SnapshotCall) :=
  policy.world.crowd fun call => .whole (policy.program call)

end Vgi.Snapshot
