import Vgi.Lib.Linear
import Vgi.Lib.Machine
import Vgi.Snapshot.Manifest
import Vgi.Storage.Backend

/-! The publication repository on S3: each call reads the manifest object of a key and then writes
it under the condition that it has not changed. Any number of processes take these steps in any
order; the versions of objects are those of their contents.
-/

namespace Vgi.Snapshot

open Lib

/-- A manifest as JSON keeps it: a time that is not finite would be written as null. -/
abbrev JsonManifest := CatalogPublicationManifest Clock

/-- What the manifest object of a withdrawn publication holds. -/
def tombstone : Bytes := utf8 "\x7b\"tombstone\":true\x7d"

/-- JSON of manifests. Decoding gives no manifest for an object that is marked as a tombstone. -/
structure ManifestJson where
  encode : JsonManifest → Bytes
  decode : Bytes → Except String (Option JsonManifest)

structure ManifestJson.Lawful (json : ManifestJson) : Prop where
  manifest : ∀ manifest, json.decode (json.encode manifest) = .ok (some manifest)
  tombstone : json.decode tombstone = .ok none

structure S3Repository where
  root : String
  urlTtlSeconds : Nat
  json : ManifestJson
  /-- The version of an object with the given content. -/
  etag : Bytes → String

abbrev Objects := String → Option Bytes

inductive S3WriteCondition where
  | unconditional
  | absent
  | matches (etag : String)
deriving DecidableEq

inductive S3Op where
  | lookup (key : String)
  | commitIfAbsent (manifest : JsonManifest)
  | invalidate (key manifestId : String)
  | renew (manifest : JsonManifest)

def S3Op.key : S3Op → String
  | .lookup key | .invalidate key _ => key
  | .commitIfAbsent manifest | .renew manifest => manifest.cacheKey

/-- The answer of a completed call; a renewal's comes with the time it was decided at. -/
inductive S3Answer where
  | found (manifest : Option JsonManifest)
  | committed (manifest : JsonManifest)
  | invalidated (done : Bool)
  | renewed (manifest : Option JsonManifest) (now : Clock)
deriving DecidableEq

/-- A conditional write, and what the call answers if it succeeds. -/
structure S3Put where
  name : String
  bytes : Bytes
  condition : S3WriteCondition
  answer : S3Answer

namespace S3Repository

variable (repo : S3Repository)

def manifestKey (key : String) : String := repo.root ++ "manifests/" ++ key ++ ".json"

def load (objects : Objects) (key : String) : Result (Option JsonManifest × Option String) :=
  match objects (repo.manifestKey key) with
  | none => .ok (none, none)
  | some bytes => do
    rejectIf (bytes.length > 1024 * 1024)
      (valueError "catalog publication manifest exceeds size limit")
    let manifest ← (repo.json.decode bytes).mapError fun error =>
      valueError s!"invalid catalog publication manifest: {error}"
    return (manifest, some (repo.etag bytes))

/-- The time that the object of a manifest is still kept, if it is worth renewing. -/
def remaining? (manifest : JsonManifest) (now : Clock) : Option Int :=
  match manifest.objectId, manifest.retainUntil with
  | some _, some retainUntil =>
    if retainUntil - now ≤ 60 * nanosPerSecond then none else some (retainUntil - now)
  | _, _ => none

def putManifest (manifest : JsonManifest) (condition : S3WriteCondition) (answer : S3Answer)
    : S3Put :=
  ⟨repo.manifestKey manifest.cacheKey, repo.json.encode manifest, condition, answer⟩

/-- What a call does with the manifest it has read: it answers, or it writes. The clock is read
twice; `presigned` is the answer of `presign_get`.
-/
def afterLoad (op : S3Op) (now later : Clock) (presigned : Result String)
    (loaded : Option JsonManifest × Option String) : Result (S3Answer ⊕ S3Put) :=
  match op with
  | .lookup _ => .ok (.inl (.found loaded.1))
  | .commitIfAbsent manifest =>
    match loaded with
    | (some current, _) => .ok (.inl (.committed current))
    | (none, some etag) =>
      .ok (.inr (repo.putManifest manifest (.matches etag) (.committed manifest)))
    | (none, none) => .ok (.inr (repo.putManifest manifest .absent (.committed manifest)))
  | .invalidate key manifestId =>
    if loaded.1.map (·.manifestId) ≠ some manifestId then .ok (.inl (.invalidated false))
    else
      .ok (.inr ⟨repo.manifestKey key, tombstone, .matches (loaded.2.getD ""), .invalidated true⟩)
  | .renew manifest =>
    match loaded.1 with
    | none => .ok (.inl (.renewed none now))
    | some current =>
      if current.manifestId ≠ manifest.manifestId then
        .ok (.inl (.renewed (some current) now))
      else
        match remaining? current now with
        | none => .ok (.inl (.renewed none now))
        | some remaining => do
          let url ← presigned
          let lifetime : Int := min repo.urlTtlSeconds (remaining / nanosPerSecond)
          let current := current.relocate url (some (later + lifetime * nanosPerSecond))
          return .inr (repo.putManifest current (.matches (loaded.2.getD ""))
            (.renewed (some current) now))

/-- `put_object` writes if the condition holds. -/
def accepts (objects : Objects) (put : S3Put) : Bool :=
  match put.condition with
  | .unconditional => true
  | .absent => (objects put.name).isNone
  | .matches etag => (objects put.name).map repo.etag = some etag

end S3Repository

def Objects.write (objects : Objects) (put : S3Put) : Objects :=
  Function.update objects put.name (some put.bytes)

inductive S3Stage where
  /-- About to read, for as many times. -/
  | reading (tries : Nat)
  | writing (tries : Nat) (put : S3Put)
  | returned (answer : S3Answer)
  | failed (error : RpcError)

structure S3Call where
  op : S3Op
  stage : S3Stage

/-- The rounds of a call before it gives up. -/
def S3Op.tries : S3Op → Nat
  | .lookup _ | .invalidate _ _ => 1
  | .commitIfAbsent _ | .renew _ => 8

structure S3State where
  objects : Objects
  calls : List S3Call
  history : List (CallEvent S3Op S3Answer)

inductive S3Action where
  | invoke (op : S3Op)
  | get (call : Nat) (now later : Clock) (presigned : Result String)
  | put (call : Nat)
  /-- The client reports an error; a write may still have been made. -/
  | fail (call : Nat) (error : RpcError)
  | putLost (call : Nat) (error : RpcError)

namespace S3State

def setCall (state : S3State) (call : Nat) (op : S3Op) (stage : S3Stage) : S3State :=
  { state with calls := state.calls.set call ⟨op, stage⟩ }

def complete (state : S3State) (call : Nat) (op : S3Op) (answer : S3Answer) : S3State :=
  { state.setCall call op (.returned answer) with
    history := state.history ++ [.respond call answer] }

def contention : S3Op → RpcError
  | .renew _ => runtimeError "catalog reference renewal contention"
  | _ => runtimeError "catalog publication manifest contention"

/-- A write that met another version: invalidation says so, the others read again. -/
def conflict (state : S3State) (call : Nat) (op : S3Op) (tries : Nat) : S3State :=
  match op, tries with
  | .invalidate _ _, _ => state.complete call op (.invalidated false)
  | _, 0 => state.setCall call op (.failed (contention op))
  | _, tries + 1 => state.setCall call op (.reading (tries + 1))

def next (repo : S3Repository) (state : S3State) : S3Action → Option S3State
  | .invoke op =>
    some { state with
      calls := state.calls ++ [⟨op, .reading op.tries⟩]
      history := state.history ++ [.invoke state.calls.length op] }
  | .get call now later presigned =>
    match state.calls[call]? with
    | some ⟨op, .reading (tries + 1)⟩ =>
      match (repo.load state.objects op.key).bind (repo.afterLoad op now later presigned) with
      | .ok (.inl answer) => some (state.complete call op answer)
      | .ok (.inr put) => some (state.setCall call op (.writing tries put))
      | .error error => some (state.setCall call op (.failed error))
    | _ => none
  | .put call =>
    match state.calls[call]? with
    | some ⟨op, .writing tries put⟩ =>
      if repo.accepts state.objects put then
        some ({ state with objects := state.objects.write put }.complete call op put.answer)
      else some (state.conflict call op tries)
    | _ => none
  | .fail call error =>
    match state.calls[call]? with
    | some ⟨op, .reading _⟩ | some ⟨op, .writing _ _⟩ =>
      some (state.setCall call op (.failed error))
    | _ => none
  | .putLost call error =>
    match state.calls[call]? with
    | some ⟨op, .writing _ put⟩ =>
      if repo.accepts state.objects put then
        some ({ state with objects := state.objects.write put }.setCall call op (.failed error))
      else none
    | _ => none

end S3State

def s3Machine (repo : S3Repository) : Machine S3State S3Action where
  initial state := state.objects = (fun _ => none) ∧ state.calls = [] ∧ state.history = []
  next := S3State.next repo

end Vgi.Snapshot
