import Vgi.Client.StableKey
import Vgi.Storage.FsLayout

/-! The digests that serve as etags of a catalog's contents. What is hashed tells the contents:
every list stands behind its length, every byte string too, and a tag tells an absent stream.
-/

namespace Vgi.Catalog.Digest

open Lib Client.StableKey List

/-- One schema with its items as they go over the wire. -/
structure SchemaContents where
  path : Vector Text
  schema : Vector UInt8
  (tables views scalarFunctions aggregateFunctions tableFunctions scalarMacros tableMacros
    indexes : Vector (Vector UInt8))

/-- The fields of a response that its digest reads. -/
structure CatalogContentsResponse where
  catalogVersion : Int64
  (schemas tables views functions macros indexes : Option (Vector UInt8))

def vector {α : Type} (write : α → Bytes) (items : Vector α) : Bytes :=
  lengthBytes items.1.length ++ items.1.flatMap write

namespace SchemaContents

variable (entry : SchemaContents)

def kinds : List (Vector (Vector UInt8)) :=
  [entry.tables, entry.views, entry.scalarFunctions, entry.aggregateFunctions,
    entry.tableFunctions, entry.scalarMacros, entry.tableMacros, entry.indexes]

def hashed : Bytes :=
  vector string entry.path ++ (bytes entry.schema ++ entry.kinds.flatMap (vector bytes))

end SchemaContents

namespace CatalogContentsResponse

variable (response : CatalogContentsResponse)

def streams : List (Option (Vector UInt8)) :=
  [response.schemas, response.tables, response.views, response.functions, response.macros,
    response.indexes]

def hashed : Bytes :=
  utf8 "vgi.catalog.contents.2.2\x00"
    ++ (int64Bytes response.catalogVersion ++ response.streams.flatMap optionalBytes)

end CatalogContentsResponse

section

variable (sha256 : Bytes → Bytes)

def catalogContentsDigest (schemas : Vector SchemaContents) : String :=
  Storage.Fs.hex (sha256 (vector SchemaContents.hashed schemas))

def catalogResponseDigest (response : CatalogContentsResponse) : String :=
  Storage.Fs.hex (sha256 response.hashed)

end

theorem vector_delimited {α : Type} {write : α → Bytes} (delimited : Delimited write)
    : Delimited (vector write) :=
  delimited.counted lengthBytes_delimited

theorem SchemaContents.hashed_delimited : Delimited hashed := by
  refine ⟨fun {entry other rest rest'} same => ?_⟩
  simp only [hashed, append_assoc] at same
  obtain ⟨path, same⟩ := (vector_delimited string_delimited).tells same
  obtain ⟨schema, same⟩ := bytes_delimited.tells same
  -- Both have the eight kinds, so their number need not be told.
  obtain ⟨kinds, after⟩ := flatMap_append_inj (vector_delimited bytes_delimited) (by rfl) same
  refine ⟨?_, after⟩
  cases entry
  cases other
  simp_all [SchemaContents.kinds]

theorem CatalogContentsResponse.hashed_delimited : Delimited hashed := by
  refine ⟨fun {response other rest rest'} same => ?_⟩
  simp only [hashed, append_assoc] at same
  obtain ⟨catalogVersion, same⟩ := int64Bytes_delimited.tells (append_cancel_left same)
  obtain ⟨streams, after⟩ := flatMap_append_inj (optional_delimited bytes_delimited) (by rfl) same
  refine ⟨?_, after⟩
  cases response
  cases other
  simp_all [CatalogContentsResponse.streams]

/-- Different contents hash different bytes, and so do different responses; under a hash without
collisions an equal etag means equal contents.
-/
theorem digests_distinguish (sha256 : Bytes → Bytes)
    : Function.Injective (vector SchemaContents.hashed)
      ∧ Function.Injective CatalogContentsResponse.hashed
      ∧ (Function.Injective sha256 → Function.Injective (catalogContentsDigest sha256)
        ∧ Function.Injective (catalogResponseDigest sha256)) := by
  have contents := (vector_delimited SchemaContents.hashed_delimited).injective
  have response := CatalogContentsResponse.hashed_delimited.injective
  refine ⟨contents, response, fun collisionFree => ⟨?_, ?_⟩⟩
  · exact fun _ _ same => contents (collisionFree (Storage.Fs.hex_injective same))
  · exact fun _ _ same => response (collisionFree (Storage.Fs.hex_injective same))

end Vgi.Catalog.Digest
