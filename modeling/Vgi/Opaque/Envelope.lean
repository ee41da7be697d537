import Vgi.Lib.Aead
import Vgi.Dispatch.SplitToken

/-! Sealed envelopes: authenticated encryption under a key of any length, bound to additional data
and a version byte.
-/

namespace Vgi.Opaque

open Lib

/-- The cipher, and what it makes of a key of any length. -/
structure Envelope (Key : Type) where
  aead : Aead Bytes Key (Bytes × UInt8) Bytes Bytes String
  normalize : Bytes → Key

structure Digest where
  sha256 : Bytes → Bytes
  sha256_length : ∀ bytes, (sha256 bytes).length = 32

/-- A digest that tells nothing apart. -/
def Digest.zeros : Digest := ⟨fun _ => List.replicate 32 0, fun _ => List.length_replicate⟩

namespace Envelope

variable {Key : Type} (envelope : Envelope Key)

/-- Seals under a nonce that is drawn for the purpose. -/
def sealBytes (nonce plaintext key aad : Bytes) (version : UInt8) : Bytes :=
  envelope.aead.encrypt nonce (envelope.normalize key) (aad, version) plaintext

def openBytes (sealed key aad : Bytes) (version : UInt8) : Except String Bytes :=
  envelope.aead.decrypt (envelope.normalize key) (aad, version) sealed

variable {envelope} {nonce nonce' plaintext plaintext' key key' aad aad' sealed : Bytes}
  {version version' : UInt8}

theorem openBytes_sealBytes
    : envelope.openBytes (envelope.sealBytes nonce plaintext key aad version) key aad version
      = .ok plaintext :=
  envelope.aead.decrypt_encrypt ..

theorem sealBytes_of_openBytes (opened : envelope.openBytes sealed key aad version = .ok plaintext)
    : ∃ nonce, sealed = envelope.sealBytes nonce plaintext key aad version :=
  envelope.aead.genuine opened

/-- What opens under additional data was sealed under them. -/
theorem openBytes_sealBytes_eq_ok
    (opened : envelope.openBytes (envelope.sealBytes nonce plaintext key aad version) key' aad'
      version' = .ok plaintext')
    : envelope.normalize key' = envelope.normalize key ∧ aad' = aad ∧ version' = version
      ∧ plaintext' = plaintext := by
  obtain ⟨sameKey, context, plain⟩ := Aead.decrypt_encrypt_eq_ok opened
  cases context
  exact ⟨sameKey, rfl, rfl, plain⟩

/-- The envelope with one nonce, and a digest, as the codec of split tokens takes them. -/
def crypto (envelope : Envelope Key) (digest : Digest) (nonce : Bytes) : Dispatch.Crypto where
  sealBytes := envelope.sealBytes nonce
  openBytes := envelope.openBytes
  sha256 := digest.sha256
  sha256_length := digest.sha256_length

/-- An envelope that shows what was sealed, and under what. -/
def plain : Envelope Bytes where
  aead := Aead.ofPacking
    { pack := fun (nonce, key, (aad, version), plaintext) =>
        version :: delimit 1 0 nonce (delimit 1 0 key (delimit 1 0 aad plaintext))
      unpack := fun
        | version :: rest => do
          let (nonce, rest) ← undelimit 1 0 rest
          let (key, rest) ← undelimit 1 0 rest
          let (aad, plaintext) ← undelimit 1 0 rest
          return (nonce, key, (aad, version), plaintext)
        | [] => none
      unpack_pack := by
        rintro ⟨nonce, key, ⟨aad, version⟩, plaintext⟩
        simp [undelimit_delimit]
      pack_of_unpack := by
        intro text value unpacked
        split at unpacked
        · simp only [Option.bind_eq_bind, Option.bind_eq_some_iff, Prod.exists] at unpacked
          obtain ⟨nonce, afterNonce, readNonce, key, afterKey, readKey, aad, plaintext, readAad,
            is⟩ := unpacked
          cases is
          rw [delimit_of_undelimit readNonce, delimit_of_undelimit readKey,
            delimit_of_undelimit readAad]
        · cases unpacked }
    "authentication failed"
  normalize := id

end Envelope

end Vgi.Opaque
