import Mathlib.Data.List.Nodup
import Vgi.Lib.JsonText
import Vgi.Snapshot.Policy

/-! Which publications share a cache key: the key is the digest of a JSON array, and two arrays
that differ have different digests.
-/

namespace Vgi.Snapshot

open Lib List

/-- The tuple that a cache key is the digest of. -/
def KeyMaterial.items (material : KeyMaterial) : List JsonItem :=
  [.text material.protocolName, .text material.wireRevision, .text material.contractHash,
    .text material.codecRevision, .text material.catalogNamespace, .text material.sourceRevision,
    .text material.scope, .number material.catalogVersion, .text material.profile,
    .text material.compression]

def KeyMaterial.text (material : KeyMaterial) : String := .ofList (Json.array material.items)

theorem KeyMaterial.text_injective : Function.Injective KeyMaterial.text := by
  intro left right same
  have arrays : Json.array left.items = Json.array right.items := by
    simpa only [KeyMaterial.text, String.ofList_inj] using same
  have items := Json.array_inj (by rfl) arrays
  cases left
  cases right
  simpa [KeyMaterial.items] using items

/-- The policy's digests are those of one hash function, and its keys are digests of JSON. -/
structure Digests (sha : Bytes → String) (policy : CatalogSnapshotPolicy) : Prop where
  hex : policy.hex = sha
  keyDigest : ∀ material, policy.keyDigest material = sha (utf8 material.text)

/-- Whom a publication is for. -/
inductive Audience where
  | shared (scope : String)
  | attachment (scope : Bytes)
deriving DecidableEq

structure Publication where
  policy : CatalogSnapshotPolicy
  request : SnapshotRequest
  identity : SnapshotIdentity

namespace Publication

variable {sha : Bytes → String} {one other : Publication} {key key' : String}

def audience (publication : Publication) : Audience :=
  match publication.identity.visibilityScope with
  | some scope => .shared scope
  | none => .attachment publication.request.attachmentScope

def cacheKey (publication : Publication) : Result String :=
  publication.policy.cacheKey publication.request publication.identity

/-- The publications agree in all but their audience. -/
structure Alike (one other : Publication) : Prop where
  catalogNamespace : one.identity.catalogNamespace = other.identity.catalogNamespace
  sourceRevision : one.identity.sourceRevision = other.identity.sourceRevision
  catalogVersion : one.identity.catalogVersion = other.identity.catalogVersion
  profile : one.policy.profile = other.policy.profile
  compression : one.policy.compression = other.policy.compression

/-- The scope that the one is shared under reads as the digest of the attachment that the other is
for.
-/
def Names (sha : Bytes → String) (one other : Publication) : Prop :=
  ∃ attachment, one.audience = .shared (sha attachment) ∧ other.audience = .attachment attachment

variable (digests : Digests sha one.policy)

include digests

theorem scope_eq : one.policy.scope one.request one.identity
      = match one.audience with
        | .shared scope => scope
        | .attachment scope => sha scope := by
  unfold CatalogSnapshotPolicy.scope audience
  rw [digests.hex]
  cases one.identity.visibilityScope <;> rfl

/-- Scopes are the same for the same audience, and for a shared one that names the other. -/
theorem scope_eq_iff (collisionFree : Function.Injective sha) (digests' : Digests sha other.policy)
    : one.policy.scope one.request one.identity = other.policy.scope other.request other.identity
      ↔ one.audience = other.audience ∨ Names sha one other ∨ Names sha other one := by
  rw [scope_eq digests, scope_eq digests']
  unfold Names
  cases one.audience with
  | shared scope =>
    cases other.audience with
    | shared scope' => simp
    | attachment scope' => simp
  | attachment scope =>
    cases other.audience with
    | shared scope' => simp [eq_comm]
    | attachment scope' => simp [collisionFree.eq_iff]

theorem key_eq_iff (collisionFree : Function.Injective sha) (digests' : Digests sha other.policy)
    (contract : one.policy.contractHash = other.policy.contractHash)
    (keyed : one.cacheKey = .ok key) (keyed' : other.cacheKey = .ok key')
    : key = key' ↔ Alike one other
      ∧ one.policy.scope one.request one.identity
        = other.policy.scope other.request other.identity := by
  simp only [cacheKey, CatalogSnapshotPolicy.cacheKey, bind_eq_ok, pure_eq_ok] at keyed keyed'
  obtain ⟨_, _, rfl⟩ := keyed
  obtain ⟨_, _, rfl⟩ := keyed'
  rw [digests.keyDigest, digests'.keyDigest, collisionFree.eq_iff, utf8_eq_iff,
    KeyMaterial.text_injective.eq_iff]
  simp only [CatalogSnapshotPolicy.keyMaterial, KeyMaterial.mk.injEq, contract, true_and]
  constructor
  · rintro ⟨catalogNamespace, sourceRevision, scope, catalogVersion, profile, compression⟩
    exact ⟨⟨catalogNamespace, sourceRevision, catalogVersion, profile, compression⟩, scope⟩
  · rintro ⟨⟨catalogNamespace, sourceRevision, catalogVersion, profile, compression⟩, scope⟩
    exact ⟨catalogNamespace, sourceRevision, scope, catalogVersion, profile, compression⟩

end Publication

/-- Publications have one key only if they are alike and for one audience, exactly if they are not
alike with one of them shared under a scope that reads as the digest of the other's attachment.
-/
theorem publication_keys_separate_iff (sha : Bytes → String)
    (collisionFree : Function.Injective sha) (one other : Publication)
    (digests : Digests sha one.policy) (digests' : Digests sha other.policy)
    (contract : one.policy.contractHash = other.policy.contractHash) (key key' : String)
    (keyed : one.cacheKey = .ok key) (keyed' : other.cacheKey = .ok key')
    : (key = key' → one.Alike other ∧ one.audience = other.audience)
      ↔ ¬ (one.Alike other ∧ (one.Names sha other ∨ other.Names sha one)) := by
  rw [Publication.key_eq_iff digests collisionFree digests' contract keyed keyed',
    Publication.scope_eq_iff digests collisionFree digests']
  constructor
  · rintro separate ⟨alike, names⟩
    have same := (separate ⟨alike, .inr names⟩).2
    rcases names with ⟨attachment, shared, own⟩ | ⟨attachment, shared, own⟩
    · rw [shared, own] at same
      cases same
    · rw [shared, own] at same
      cases same
  · rintro apart ⟨alike, same | names⟩
    · exact ⟨alike, same⟩
    · exact absurd ⟨alike, names⟩ apart

namespace AudienceSample

/-- The digest of the attachment scope 01. -/
def attachmentDigest : String := "4bf5122f344554c53bde2ebb8cd2b7e3d1600ad631c385a5d7cce23c7785459a"

def contractHash : String := "1d12ce672b43ca1510721f89637bb374d27693b100d357ac2ead99fcddc27e9f"

def material (scope : String) : KeyMaterial :=
  ⟨protocolName, wireRevision, contractHash, codecRevision, "space", "r1", scope, 1, "memory",
    "None"⟩

/-- The key of the catalog for one attachment. -/
def attachmentKey : String := "92a5edb315f0e0d4a9466ae5697578f65948a2377066b4912d431803d3c977a2"

/-- The key of the catalog that is shared with a tenant. -/
def tenantKey : String := "69ee89411fb6809e302cbff41d4e8a551d4a72f9e1f591b90533fd4eb14312bc"

/-- SHA-256 where the publications below need it. -/
def known : List (Bytes × String) :=
  [([1], attachmentDigest), (utf8 (material attachmentDigest).text, attachmentKey),
    (utf8 (material "tenant").text, tenantKey)]

/-- A digest without collisions. -/
@[irreducible]
def sha (bytes : Bytes) : String :=
  match known.find? (·.1 = bytes) with
  | some entry => entry.2
  | none => .ofList ('x' :: bytes.map fun byte => Char.ofNat byte.toNat)

theorem sha_injective : Function.Injective sha := by
  have distinct : (known.map Prod.snd).Nodup := by decide +kernel
  have apart : ∀ entry ∈ known, entry.2.toList.head? ≠ some 'x' := by decide +kernel
  have chars : Function.Injective fun byte : UInt8 => Char.ofNat byte.toNat := by
    have back : ∀ n < 256, (Char.ofNat n).toNat = n := by decide +kernel
    intro byte byte' same
    have numbers := congrArg Char.toNat same
    rw [back _ byte.toNat_lt, back _ byte'.toNat_lt] at numbers
    exact UInt8.toNat_inj.mp numbers
  intro left right same
  unfold sha at same
  split at same
  next entry found =>
    have first : entry.1 = left := by simpa using find?_some found
    split at same
    next entry' found' =>
      have second : entry'.1 = right := by simpa using find?_some found'
      rw [← first, ← second, inj_on_of_nodup_map distinct (mem_of_find?_eq_some found)
        (mem_of_find?_eq_some found') same]
    · refine absurd ?_ (apart entry (mem_of_find?_eq_some found))
      rw [same, String.toList_ofList]
      rfl
  · split at same
    next entry' found' =>
      refine absurd ?_ (apart entry' (mem_of_find?_eq_some found'))
      rw [← same, String.toList_ofList]
      rfl
    · have lists := String.ofList_inj.mp same
      exact chars.list_map (cons.inj lists).2

/-- The digest of a material: the texts of the known ones need not be written out. -/
def keyOf (other : KeyMaterial) : String :=
  if other = material attachmentDigest then attachmentKey
  else if other = material "tenant" then tenantKey
  else sha (utf8 other.text)

theorem keyOf_eq (other : KeyMaterial) : keyOf other = sha (utf8 other.text) := by
  have long : [1] ≠ utf8 other.text := by
    intro same
    have texts : String.ofList [.ofNat 1] = other.text := utf8_eq_iff.mp same
    cases String.ofList_inj.mp texts
  have apart : utf8 (material attachmentDigest).text ≠ utf8 (material "tenant").text := by
    rw [Ne, utf8_eq_iff, KeyMaterial.text_injective.eq_iff]
    decide +kernel
  unfold keyOf sha known
  rw [find?_cons_of_neg (by simpa only [decide_eq_true_eq] using long)]
  split_ifs with attachment tenant
  · rw [attachment, find?_cons_of_pos (by simp only [decide_true])]
  · rw [tenant, find?_cons_of_neg (by simpa only [decide_eq_true_eq] using apart),
      find?_cons_of_pos (by simp only [decide_true])]
  · rfl

def policy : CatalogSnapshotPolicy where
  validator := false
  ordinaryOnFailure := false
  maxRawBytes := 100
  maxStoredBytes := 100
  expiryMargin := .finite 0
  maxCachedManifests := 2
  profile := "memory"
  compression := "None"
  contractHash := contractHash
  hex := sha
  keyDigest := keyOf
  responseDigest := fun _ => ""
  newRef := fun url digest => .ok ⟨url, digest⟩
  schemaContents := fun _ => .ok ()

def publication (visibilityScope : Option String) : Publication :=
  ⟨policy, ⟨[1], [], 1⟩, ⟨"space", "r1", visibilityScope, 1⟩⟩

end AudienceSample

open AudienceSample in
/-- A catalog that is shared with a tenant, and the same catalog for one attachment: neither names
the other, so their keys differ.
-/
theorem publication_keys_separate_sample : (publication none).cacheKey = .ok attachmentKey
      ∧ (publication (some "tenant")).cacheKey = .ok tenantKey
      ∧ attachmentKey ≠ tenantKey := by
  have digests : Digests sha policy := ⟨rfl, keyOf_eq⟩
  have keyed : (publication none).cacheKey = .ok attachmentKey := by decide +kernel
  have keyed' : (publication (some "tenant")).cacheKey = .ok tenantKey := by decide +kernel
  have separate := publication_keys_separate_iff sha sha_injective (publication none)
    (publication (some "tenant")) digests digests rfl _ _ keyed keyed'
  refine ⟨keyed, keyed', fun same => ?_⟩
  have unnamed : ¬ (Publication.Alike (publication none) (publication (some "tenant"))
      ∧ (Publication.Names sha (publication none) (publication (some "tenant"))
        ∨ Publication.Names sha (publication (some "tenant")) (publication none))) := by
    rintro ⟨-, ⟨_, shared, -⟩ | ⟨attachment, shared, own⟩⟩
    · cases shared
    · cases own
      exact absurd shared (by decide +kernel)
  cases (separate.mpr unnamed same).2

open AudienceSample in
/-- The catalog that is shared under a scope which reads as the digest of an attachment has the key
of the one that is for this attachment alone.
-/
theorem publication_keys_shared
    : (publication (some attachmentDigest)).cacheKey = (publication none).cacheKey
      ∧ (publication (some attachmentDigest)).cacheKey = .ok attachmentKey
      ∧ (publication (some attachmentDigest)).audience ≠ (publication none).audience := by
  decide +kernel

end Vgi.Snapshot
