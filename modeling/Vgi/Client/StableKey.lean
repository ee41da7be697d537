import Vgi.Dispatch.SplitToken
import Vgi.Lib.Delimited

/-! The key of a persistent result, in full, and the bytes it is stored under. Every field is
written so that its end can be told, so the bytes tell the key.
-/

namespace Vgi.Client.StableKey

open Lib Dispatch List

/-- The length of a vector or a string. An allocation has at most `isize::MAX` bytes. -/
def Fits (length : Nat) : Prop := length < 2 ^ 63

abbrev Vector (α : Type) := { items : List α // Fits items.length }

abbrev Text := { text : String // Fits (utf8 text).length }

/-- Everything that makes one scan's result different from another's. -/
structure CacheKey where
  catalog : Text
  identityScope : Text
  workerLabel : Text
  function : Text
  arguments : Vector UInt8
  projection : Option (Vector Int64)
  filters : Option (Vector UInt8)
  catalogVersion : Int64
  «at» : Option (Text × Text)
  settings : Vector UInt8
  attachOptions : Vector UInt8
  rowLimit : Option Int64
  ordering : Option (Vector UInt8)
  sample : Option (Vector UInt8)
  plan : Option (Vector UInt8)

def domain : Bytes := utf8 "vgi-client-result-cache-key\x00v1"

def lengthBytes (length : Nat) : Bytes := leBytes 8 length

def int64Bytes (value : Int64) : Bytes := leBytes 8 value.toUInt64.toNat

def bytes (value : Vector UInt8) : Bytes := lengthBytes value.1.length ++ value.1

def string (value : Text) : Bytes := bytes ⟨utf8 value.1, value.2⟩

/-- A tag tells whether there is a value. -/
def optional {α : Type} (write : α → Bytes) : Option α → Bytes
  | some value => 1 :: write value
  | none => [0]

def optionalBytes : Option (Vector UInt8) → Bytes := optional bytes

def optionalInt64 : Option Int64 → Bytes := optional int64Bytes

def projectionBytes (values : Vector Int64) : Bytes :=
  lengthBytes values.1.length ++ values.1.flatMap int64Bytes

def coordinateBytes (value : Text × Text) : Bytes := string value.1 ++ string value.2

/-- `stable_bytes`: the fields one after the other, behind the name of the format. -/
def CacheKey.stableBytes (key : CacheKey) : Bytes :=
  domain
    ++ (string key.catalog
    ++ (string key.identityScope
    ++ (string key.workerLabel
    ++ (string key.function
    ++ (bytes key.arguments
    ++ (optional projectionBytes key.projection
    ++ (optionalBytes key.filters
    ++ (int64Bytes key.catalogVersion
    ++ (optional coordinateBytes key.at
    ++ (bytes key.settings
    ++ (bytes key.attachOptions
    ++ (optionalInt64 key.rowLimit
    ++ (optionalBytes key.ordering
    ++ (optionalBytes key.sample
    ++ optionalBytes key.plan))))))))))))))

theorem int64Bytes_delimited : Delimited int64Bytes :=
  .of_width 8 (fun _ => leBytes_length 8 _) fun _ _ same => splitAnchor_injective same

theorem lengthBytes_delimited
    : Delimited fun length : { length // Fits length } => lengthBytes length.1 := by
  refine .of_width 8 (fun _ => leBytes_length 8 _) ?_
  rintro ⟨length, fits⟩ ⟨other, fits'⟩ same
  -- A length that fits is far below the range of the eight bytes.
  have below : ∀ length, Fits length → length < 256 ^ 8 := fun length fits =>
    Nat.lt_trans fits (by decide)
  exact Subtype.ext (leBytes_inj (below length fits) (below other fits') same)

theorem bytes_delimited : Delimited bytes := by
  have single : Delimited fun byte : UInt8 => [byte] :=
    .of_width 1 (fun _ => rfl) fun _ _ same => (cons.inj same).1
  have written : bytes = fun value : Vector UInt8 =>
      lengthBytes value.1.length ++ value.1.flatMap fun byte => [byte] := by
    funext value
    rw [bytes, flatMap_singleton']
  rw [written]
  exact single.counted lengthBytes_delimited

theorem string_delimited : Delimited string := by
  refine bytes_delimited.comap fun value other same => ?_
  exact Subtype.ext (utf8_eq_iff.mp (congrArg Subtype.val same))

theorem optional_delimited {α : Type} {write : α → Bytes} (delimited : Delimited write)
    : Delimited (optional write) := by
  refine ⟨fun {value other rest rest'} same => ?_⟩
  cases value with
  | none =>
    cases other with
    | none => exact ⟨rfl, (cons.inj same).2⟩
    | some other => cases (cons.inj same).1
  | some value =>
    cases other with
    | none => cases (cons.inj same).1
    | some other =>
      obtain ⟨rfl, after⟩ := delimited.tells (cons.inj same).2
      exact ⟨rfl, after⟩

theorem projection_delimited : Delimited projectionBytes :=
  int64Bytes_delimited.counted lengthBytes_delimited

theorem coordinate_delimited : Delimited coordinateBytes := string_delimited.append string_delimited

/-- Two keys have the same stable bytes only if they are the same in every field. -/
theorem stable_bytes_injective (key other : CacheKey)
    : key.stableBytes = other.stableBytes ↔ key = other := by
  refine ⟨fun same => ?_, congrArg CacheKey.stableBytes⟩
  -- Each field is told off the front, and what follows it is the same again.
  have same := append_cancel_left same
  obtain ⟨catalog, same⟩ := string_delimited.tells same
  obtain ⟨identityScope, same⟩ := string_delimited.tells same
  obtain ⟨workerLabel, same⟩ := string_delimited.tells same
  obtain ⟨function, same⟩ := string_delimited.tells same
  obtain ⟨arguments, same⟩ := bytes_delimited.tells same
  obtain ⟨projection, same⟩ := (optional_delimited projection_delimited).tells same
  obtain ⟨filters, same⟩ := (optional_delimited bytes_delimited).tells same
  obtain ⟨catalogVersion, same⟩ := int64Bytes_delimited.tells same
  obtain ⟨coordinate, same⟩ := (optional_delimited coordinate_delimited).tells same
  obtain ⟨settings, same⟩ := bytes_delimited.tells same
  obtain ⟨attachOptions, same⟩ := bytes_delimited.tells same
  obtain ⟨rowLimit, same⟩ := (optional_delimited int64Bytes_delimited).tells same
  obtain ⟨ordering, same⟩ := (optional_delimited bytes_delimited).tells same
  obtain ⟨sample, same⟩ := (optional_delimited bytes_delimited).tells same
  have plan := (optional_delimited bytes_delimited).injective same
  cases key
  cases other
  congr

end Vgi.Client.StableKey
