import Vgi.Rpc

/-! Manifests of published catalog snapshots. -/

namespace Vgi.Snapshot

/-- A time stamp in seconds since the epoch, an `f64`; finite ones are counted in
nanoseconds.
-/
inductive Stamp where
  | finite (nanos : Int)
  | notFinite
deriving DecidableEq

def nanosPerSecond : Int := 1000000000

/-- A time that was read off the clock. -/
abbrev Clock := Int

/-- A manifest, with the times it holds. -/
structure CatalogPublicationManifest (Time : Type := Stamp) where
  cacheKey : String
  manifestId : String
  protocolName : String
  wireRevision : String
  contractHash : String
  codecRevision : String
  catalogVersion : Int
  etag : Option String
  sha256 : String
  rawSize : Nat
  storedSize : Nat
  url : String
  objectId : Option String
  expiresAt : Option Time
  retainUntil : Option Time
  stable : Bool
  formatVersion : Nat
  validatorRevision : Nat
deriving DecidableEq

/-- A manifest as a policy handles it. -/
abbrev Manifest := CatalogPublicationManifest

/-- The same publication under another URL. -/
def CatalogPublicationManifest.relocate {Time} (manifest : CatalogPublicationManifest Time)
    (url : String) (expiresAt : Option Time) : CatalogPublicationManifest Time :=
  { manifest with url, expiresAt }

end Vgi.Snapshot
