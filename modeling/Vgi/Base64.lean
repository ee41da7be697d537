import Vgi.Client.Exchange
import Vgi.Dispatch.Provenance

/-! The base64 codecs of the client and of the worker, written by hand on either side, read what
the other side writes.
-/

namespace Vgi.Base64

open Arrow Lib Dispatch List

def table : List Char := "ABCDEFGHIJKLMNOPQRSTUVWXYZabcdefghijklmnopqrstuvwxyz0123456789+/".toList

/-- The six bits of a group above the lowest `shift`. -/
def digit (bits shift : Nat) : Char := table.getD (bits / 2 ^ shift % 64) '='

/-- The characters of a chunk of `length` bytes, the missing ones zero. -/
def writeChunk (b0 b1 b2 : UInt8) (length : Nat) : List Char :=
  let bits := b0.toNat * 2 ^ 16 + b1.toNat * 2 ^ 8 + b2.toNat
  [digit bits 18, digit bits 12, if 1 < length then digit bits 6 else '=',
    if 2 < length then digit bits 0 else '=']

def writeChunks : Bytes → List Char
  | [] => []
  | [b0] => writeChunk b0 0 0 1
  | [b0, b1] => writeChunk b0 b1 0 2
  | b0 :: b1 :: b2 :: rest => writeChunk b0 b1 b2 3 ++ writeChunks rest

def encode (data : Bytes) : String := .ofList (writeChunks data)

/-- The client's. -/
def Scan.base64Encode : Bytes → String := encode

/-- The worker's, of the same text. -/
def Partition.base64Encode : Bytes → String := encode

def code (byte : UInt8) : Option Nat :=
  let c := Char.ofNat byte.toNat
  if c.isUpper then some (c.toNat - 'A'.toNat)
  else if c.isLower then some (c.toNat - 'a'.toNat + 26)
  else if c.isDigit then some (c.toNat - '0'.toNat + 52)
  else if c = '+' then some 62
  else if c = '/' then some 63
  else none

def readChunk (chunk : Bytes) : Option Bytes := do
  let bits ← chunk.foldlM (fun bits byte => (code byte).map (bits * 64 + ·)) 0
  let bits := bits * 64 ^ (4 - chunk.length)
  return (range (chunk.length - 1)).map fun index => (bits / 2 ^ (16 - index * 8)).toUInt8

def readChunks : Bytes → Option Bytes
  | a :: b :: c :: d :: rest => do return (← readChunk [a, b, c, d]) ++ (← readChunks rest)
  | chunk => readChunk chunk

def clean (value : String) : Bytes :=
  (utf8 value).filter fun c => !Client.isAsciiWhitespace c && c ≠ 61

def b64Decode (value : String) : Option Bytes :=
  if (clean value).length % 4 = 1 then none else readChunks (clean value)

@[simp] theorem digit_read (bits shift)
    : code (digit bits shift).toNat.toUInt8 = some (bits / 2 ^ shift % 64)
      ∧ Client.base64Value (digit bits shift).toNat.toUInt8 = some (bits / 2 ^ shift % 64)
      ∧ String.utf8EncodeChar (digit bits shift) = [(digit bits shift).toNat.toUInt8]
      ∧ Client.isAsciiWhitespace (digit bits shift).toNat.toUInt8 = false
      ∧ (digit bits shift).toNat.toUInt8 ≠ 61 := by
  have small : bits / 2 ^ shift % 64 < 64 := Nat.mod_lt _ (by decide)
  unfold digit
  generalize bits / 2 ^ shift % 64 = n at small ⊢
  revert n
  decide +kernel

@[simp] theorem pad_read
    : String.utf8EncodeChar '=' = [61] ∧ Client.isAsciiWhitespace 61 = false := by decide

theorem utf8_encode (data)
    : utf8 (encode data) = (writeChunks data).flatMap String.utf8EncodeChar := by
  simp [utf8, encode, List.utf8Encode]

theorem ofNat_eq {n} {b : UInt8} (low : n % 256 = b.toNat) : UInt8.ofNat n = b :=
  UInt8.toNat_inj.mp (by simpa using low)

theorem b64Decode_encode (data) : b64Decode (encode data) = some data := by
  have reads : readChunks (clean (encode data)) = some data
      ∧ (clean (encode data)).length % 4 ≠ 1 := by
    rw [clean, utf8_encode]
    fun_induction writeChunks data with
    | case1 => simp [readChunks, readChunk]
    | case2 b0 =>
      have := b0.toNat_lt
      simp [writeChunk, readChunks, readChunk, -UInt8.ofNat_add]
      exact ofNat_eq (by omega)
    | case3 b0 b1 =>
      have := b0.toNat_lt
      have := b1.toNat_lt
      simp [writeChunk, readChunks, readChunk, range_succ, -UInt8.ofNat_add]
      exact ⟨ofNat_eq (by omega), ofNat_eq (by omega)⟩
    | case4 b0 b1 b2 rest ih =>
      have := b0.toNat_lt
      have := b1.toNat_lt
      have := b2.toNat_lt
      simp only [ne_eq, decide_not] at ih
      simp [writeChunk, readChunks, readChunk, range_succ, ih.1, -UInt8.ofNat_add]
      exact ⟨⟨ofNat_eq (by omega), ofNat_eq (by omega), ofNat_eq (by omega)⟩, by omega⟩
  rw [b64Decode, if_neg reads.2]
  exact reads.1

theorem base64Decode_encode (data) : Client.base64Decode (encode data) = some data := by
  rw [Client.base64Decode, utf8_encode]
  fun_induction writeChunks data with
  | case1 => rfl
  | case2 b0 =>
    have := b0.toNat_lt
    simp [writeChunk, Client.base64Bytes, -UInt8.ofNat_add]
    exact ofNat_eq (by omega)
  | case3 b0 b1 =>
    have := b0.toNat_lt
    have := b1.toNat_lt
    simp [writeChunk, Client.base64Bytes, -UInt8.ofNat_add]
    exact ⟨ofNat_eq (by omega), ofNat_eq (by omega)⟩
  | case4 b0 b1 b2 rest ih =>
    have := b0.toNat_lt
    have := b1.toNat_lt
    have := b2.toNat_lt
    simp only [ne_eq, decide_not] at ih
    simp [writeChunk, Client.base64Bytes, Nat.mod_one, ih, -UInt8.ofNat_add]
    exact ⟨ofNat_eq (by omega), ofNat_eq (by omega), ofNat_eq (by omega)⟩

/-- Each side decodes what the other one encodes, and the client reads the parents that a worker
names for the rows of a reply.
-/
theorem base64_interoperates (bytes : Bytes) (rows : List Int32) (metadata : Metadata)
    : b64Decode (Scan.base64Encode bytes) = some bytes
      ∧ Client.base64Decode (Partition.base64Encode bytes) = some bytes
      ∧ Client.parseParentRows (withEntry parentRowMetadataKey
          (Partition.base64Encode (rows.flatMap int32Bytes)) metadata) = .ok (some rows) := by
  refine ⟨b64Decode_encode bytes, base64Decode_encode bytes, ?_⟩
  obtain ⟨width, same⟩ := parents_of_bytes rows
  rw [Client.parseParentRows, entry_withEntry, if_pos rfl]
  simp only [readOptional, Partition.base64Encode, base64Decode_encode, map_eq_ok, bind_eq_ok,
    okOr_eq_ok, rejectIf_eq_ok, pure_eq_ok]
  exact ⟨rows, ⟨_, rfl, (), by omega, same⟩, rfl⟩

open TableInOutOutput

/-- The client reads the parents that a function emits, whatever goes with them. -/
theorem emitWith_parents_read (out : TableInOutOutput) (batch opts) {next parent rest}
    (given : opts.parentRows = some (parent :: rest))
    (emitted : emitWith ⟨Partition.base64Encode, b64Decode⟩ out batch opts = .ok next)
    : ∃ metadata, next.items = out.items ++ [(batch, metadata)]
      ∧ Client.parseParentRows (metadata.getD []) = .ok (some (parent :: rest)) := by
  obtain ⟨metadata, items, derived⟩ := items_emitWith emitted
  have named : entry parentRowMetadataKey (metadata.getD [])
      = some (encode ((parent :: rest).flatMap int32Bytes)) := by
    have other := entry_cacheControl (show parentRowMetadataKey.toList[4]? ≠ some 'c' by decide)
    rw [derived, derive, given]
    cases opts.cacheControl <;> simp [other, entry_withEntry, Partition.base64Encode]
  obtain ⟨width, same⟩ := parents_of_bytes (parent :: rest)
  refine ⟨metadata, items, ?_⟩
  simp only [Client.parseParentRows, named, readOptional, base64Decode_encode, map_eq_ok,
    bind_eq_ok, okOr_eq_ok, rejectIf_eq_ok, pure_eq_ok]
  exact ⟨_, ⟨_, rfl, (), by omega, same⟩, rfl⟩

open Pushdown.TypingSample in
/-- Two rows of output with their parents in the opposite order. -/
theorem emitWith_two_parents_read
    : ∃ out next, emitWith ⟨Partition.base64Encode, b64Decode⟩ out batch
          { parentRows := some [1, 0] }
        = .ok next
      ∧ ∃ metadata, next.items = out.items ++ [(batch, metadata)]
        ∧ Client.parseParentRows (metadata.getD []) = .ok (some [1, 0]) :=
  ⟨⟨[], [], none, forall_mem_nil _, forall_mem_nil _⟩, _, rfl,
    emitWith_parents_read _ batch { parentRows := some [1, 0] } rfl rfl⟩

end Vgi.Base64
