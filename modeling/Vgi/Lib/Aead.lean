/-! Ideal authenticated encryption with associated data: what was sealed opens under the same key
and context, and nothing opens but what was sealed under them.
-/

namespace Vgi.Lib

/-- Authenticated encryption as an ideal. The context is what is authenticated beside the
plaintext.
-/
structure Aead (Nonce Key Context Plain Sealed Failure : Type) where
  encrypt : Nonce → Key → Context → Plain → Sealed
  decrypt : Key → Context → Sealed → Except Failure Plain
  decrypt_encrypt : ∀ nonce key context plain,
    decrypt key context (encrypt nonce key context plain) = .ok plain
  genuine : ∀ {key context sealed plain}, decrypt key context sealed = .ok plain →
    ∃ nonce, sealed = encrypt nonce key context plain
  binding : ∀ {nonce key context plain nonce' key' context' plain'},
    encrypt nonce key context plain = encrypt nonce' key' context' plain' →
    key = key' ∧ context = context'

namespace Aead

variable {Nonce Key Context Plain Sealed Failure : Type}
  {aead : Aead Nonce Key Context Plain Sealed Failure}

/-- What was sealed opens only under its key and its context, and to what was sealed. -/
theorem decrypt_encrypt_eq_ok {nonce key key' context context' plain plain'}
    (opened : aead.decrypt key' context' (aead.encrypt nonce key context plain) = .ok plain')
    : key' = key ∧ context' = context ∧ plain' = plain := by
  obtain ⟨nonce', same⟩ := aead.genuine opened
  obtain ⟨rfl, rfl⟩ := aead.binding same
  rw [aead.decrypt_encrypt] at opened
  cases opened
  exact ⟨rfl, rfl, rfl⟩

end Aead

/-- Values written as others, such that what is read back is what was written. -/
structure Packing (Value Text : Type) where
  pack : Value → Text
  unpack : Text → Option Value
  unpack_pack : ∀ value, unpack (pack value) = some value
  pack_of_unpack : ∀ {text value}, unpack text = some value → text = pack value

/-- An ideal instance: whoever seals writes down all there is to it, and whoever opens compares. -/
def Aead.ofPacking {Nonce Key Context Plain Sealed Failure : Type} [DecidableEq Key]
    [DecidableEq Context] (packing : Packing (Nonce × Key × Context × Plain) Sealed)
    (failure : Failure) : Aead Nonce Key Context Plain Sealed Failure where
  encrypt nonce key context plain := packing.pack (nonce, key, context, plain)
  decrypt key context sealed :=
    match packing.unpack sealed with
    | some (_, key', context', plain) =>
      if key' = key ∧ context' = context then .ok plain else .error failure
    | none => .error failure
  decrypt_encrypt nonce key context plain := by simp [packing.unpack_pack]
  genuine {key context sealed plain} opened := by
    split at opened
    next nonce key' context' plain' unpacked =>
      split at opened
      next same =>
        cases opened
        obtain ⟨rfl, rfl⟩ := same
        exact ⟨nonce, packing.pack_of_unpack unpacked⟩
      · cases opened
    · cases opened
  binding {nonce key context plain nonce' key' context' plain'} same := by
    have values := congrArg packing.unpack same
    rw [packing.unpack_pack, packing.unpack_pack] at values
    cases values
    exact ⟨rfl, rfl⟩

section

variable {α : Type} [DecidableEq α] (more last : α)

/-- Every element after a mark, and another mark at the end. -/
def delimit : List α → List α → List α
  | [], rest => last :: rest
  | a :: list, rest => more :: a :: delimit list rest

def undelimit : List α → Option (List α × List α)
  | mark :: a :: rest =>
    if mark = last then some ([], a :: rest)
    else if mark = more then (undelimit rest).map fun (list, rest) => (a :: list, rest)
    else none
  | [mark] => if mark = last then some ([], []) else none
  | [] => none

variable {more last}

theorem undelimit_delimit (differ : more ≠ last) (list rest)
    : undelimit more last (delimit more last list rest) = some (list, rest) := by
  induction list with
  | nil => cases rest <;> simp [delimit, undelimit]
  | cons a list ih => simp [delimit, undelimit, differ, ih]

theorem delimit_of_undelimit {text list rest} (read : undelimit more last text = some (list, rest))
    : text = delimit more last list rest := by
  induction text using undelimit.induct more last generalizing list rest with
  | case1 a tail =>
    simp only [undelimit] at read
    obtain ⟨rfl, rfl⟩ := read
    rfl
  | case2 a tail differ ih =>
    simp only [undelimit, if_neg differ, if_true, Option.map_eq_some_iff, Prod.exists] at read
    obtain ⟨list', rest', more', rfl, rfl⟩ := read
    rw [ih more', delimit]
  | case3 mark a tail notLast notMore =>
    simp [undelimit, notLast, notMore] at read
  | case4 =>
    simp only [undelimit] at read
    obtain ⟨rfl, rfl⟩ := read
    rfl
  | case5 mark notLast => simp [undelimit, notLast] at read
  | case6 => cases read

end

end Vgi.Lib
