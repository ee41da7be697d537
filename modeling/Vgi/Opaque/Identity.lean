import Vgi.Dispatch.SplitCodec
import Vgi.Lib.Separator

/-! The caller that is bound into sealed values: what the additional data of attach values,
transaction values and split tokens tell about the caller.
-/

namespace Vgi.Opaque

open Lib Dispatch List

/-- The caller of a request, as the transport authenticated it. -/
structure AuthContext where
  authenticated : Bool
  domain : String
  principal : String
deriving DecidableEq

variable (auth : AuthContext)

/-- Who the caller is. Without authentication the texts mean nothing. -/
def AuthContext.caller : Option (String × String) :=
  if auth.authenticated then some (auth.domain, auth.principal) else none

def attachAadPrefixBytes : Bytes := utf8 "vgi.attach_opaque_data.v1" ++ [0]

def transactionAadPrefixBytes : Bytes := utf8 "vgi.transaction_opaque_data.v1" ++ [0]

/-- The caller-identity part of both additional data. -/
def identityTail : Bytes :=
  if ¬ auth.authenticated then [0] ++ utf8 "anonymous"
  else [1] ++ utf8 auth.domain ++ [0] ++ utf8 auth.principal

def attachAad : Bytes := attachAadPrefixBytes ++ identityTail auth

def transactionAad (attachEnvelope : Bytes) : Bytes :=
  transactionAadPrefixBytes ++ identityTail auth ++ [0] ++ attachEnvelope

/-- Both are authenticated, and what follows a NUL in the domain of the one begins the principal of
the other.
-/
def Shifted : Option (String × String) → Option (String × String) → Prop
  | some (domain, principal), some (domain', principal') =>
    Shifts 0 (utf8 domain) (utf8 principal) (utf8 domain') (utf8 principal')
  | _, _ => False

/-- Both are authenticated, and the domain and the principal of the one with a NUL between them and
a NUL after them begin those of the other.
-/
def Continued : Option (String × String) → Option (String × String) → Prop
  | some (domain, principal), some (domain', principal') =>
    Extends 0 (utf8 domain ++ 0 :: utf8 principal) (utf8 domain' ++ 0 :: utf8 principal')
  | _, _ => False

variable {auth} {other : AuthContext} {caller caller' : Option (String × String)}

theorem not_shifted_self (caller) : ¬ Shifted caller caller := by
  rcases caller with _ | ⟨domain, principal⟩
  · exact id
  · rintro ⟨middle, is, _⟩
    simp at is

theorem not_continued_self (caller) : ¬ Continued caller caller := by
  rcases caller with _ | ⟨domain, principal⟩
  · exact id
  · rintro ⟨rest, is⟩
    simp at is

theorem identityTail_eq (auth) : identityTail auth = Dispatch.identityTail auth.caller := by
  cases on : auth.authenticated <;> simp [identityTail, AuthContext.caller, on,
    Dispatch.identityTail]

theorem tail_eq_iff : Dispatch.identityTail caller = Dispatch.identityTail caller'
      ↔ caller = caller' ∨ Shifted caller caller' ∨ Shifted caller' caller := by
  rcases caller with _ | ⟨domain, principal⟩ <;> rcases caller' with _ | ⟨domain', principal'⟩
  · simp
  · simp [Dispatch.identityTail, Shifted]
  · simp [Dispatch.identityTail, Shifted]
  · simp only [Dispatch.identityTail, append_assoc, cons_append, cons.injEq, true_and,
      Option.some.injEq, Prod.mk.injEq, ← utf8_eq_iff]
    exact joined_eq_iff

/-- Two tails with something behind them. -/
theorem tail_append_ne_iff (ne : caller ≠ caller')
    : (∀ envelope envelope', Dispatch.identityTail caller ++ 0 :: envelope
        ≠ Dispatch.identityTail caller' ++ 0 :: envelope')
      ↔ ¬ Shifted caller caller' ∧ ¬ Shifted caller' caller
        ∧ ¬ Continued caller caller' ∧ ¬ Continued caller' caller := by
  rcases caller with _ | ⟨domain, principal⟩ <;> rcases caller' with _ | ⟨domain', principal'⟩
  · exact absurd rfl ne
  · simp [Dispatch.identityTail, Shifted, Continued]
  · simp [Dispatch.identityTail, Shifted, Continued]
  · have differ : utf8 domain ++ 0 :: utf8 principal ≠ utf8 domain' ++ 0 :: utf8 principal'
        ↔ ¬ Shifted (some (domain, principal)) (some (domain', principal'))
          ∧ ¬ Shifted (some (domain', principal')) (some (domain, principal)) := by
      rw [Ne, joined_eq_iff, utf8_eq_iff, utf8_eq_iff, not_or, not_or]
      refine and_iff_right ?_
      rintro ⟨rfl, rfl⟩
      exact ne rfl
    have tails : (∀ envelope envelope',
        Dispatch.identityTail (some (domain, principal)) ++ 0 :: envelope
          ≠ Dispatch.identityTail (some (domain', principal')) ++ 0 :: envelope')
        ↔ ∀ envelope envelope', (utf8 domain ++ 0 :: utf8 principal) ++ 0 :: envelope
          ≠ (utf8 domain' ++ 0 :: utf8 principal') ++ 0 :: envelope' := by
      simp [Dispatch.identityTail]
    rw [tails, joined_ne_iff, differ, and_assoc]
    rfl

/-- Attach values and split tokens, under any headers, are bound to the caller. -/
structure SeparatesCallers (auth other : AuthContext) : Prop where
  attach : attachAad auth = attachAad other → auth.caller = other.caller
  split : ∀ header header' : SplitHeader,
    splitTokenAad header.bytes auth.caller = splitTokenAad header'.bytes other.caller →
    auth.caller = other.caller

/-- Transaction values are bound to the caller and to the attach envelope. -/
def SeparatesTransactions (auth other : AuthContext) : Prop :=
  ∀ envelope envelope', transactionAad auth envelope = transactionAad other envelope' →
    auth.caller = other.caller ∧ envelope = envelope'

theorem attachAad_eq_iff : attachAad auth = attachAad other
      ↔ Dispatch.identityTail auth.caller = Dispatch.identityTail other.caller := by
  rw [attachAad, attachAad, append_cancel_left_eq, identityTail_eq, identityTail_eq]

theorem transactionAad_eq_iff {envelope envelope'}
    : transactionAad auth envelope = transactionAad other envelope'
      ↔ Dispatch.identityTail auth.caller ++ 0 :: envelope
        = Dispatch.identityTail other.caller ++ 0 :: envelope' := by
  simp only [transactionAad, append_assoc, append_cancel_left_eq, identityTail_eq, singleton_append]

theorem tail_eq_of_splitTokenAad_eq {header header' : SplitHeader}
    (same : splitTokenAad header.bytes caller = splitTokenAad header'.bytes caller')
    : header.bytes = header'.bytes ∧ Dispatch.identityTail caller = Dispatch.identityTail caller' :=
  SplitHeader.bytes_append_inj same

theorem separatesCallers_iff : SeparatesCallers auth other
      ↔ ¬ Shifted auth.caller other.caller ∧ ¬ Shifted other.caller auth.caller := by
  constructor
  · intro separates
    rw [← not_or]
    intro shifted
    have same := separates.attach (attachAad_eq_iff.mpr (tail_eq_iff.mpr (.inr shifted)))
    rw [same, or_self] at shifted
    exact not_shifted_self _ shifted
  · rintro ⟨forth, back⟩
    have callers (same : Dispatch.identityTail auth.caller = Dispatch.identityTail other.caller)
        : auth.caller = other.caller :=
      (tail_eq_iff.mp same).resolve_right (not_or.mpr ⟨forth, back⟩)
    exact ⟨fun same => callers (attachAad_eq_iff.mp same),
      fun _ _ same => callers (tail_eq_of_splitTokenAad_eq same).2⟩

theorem separatesTransactions_iff : SeparatesTransactions auth other
      ↔ ¬ Shifted auth.caller other.caller ∧ ¬ Shifted other.caller auth.caller
        ∧ ¬ Continued auth.caller other.caller ∧ ¬ Continued other.caller auth.caller := by
  by_cases same : auth.caller = other.caller
  · refine iff_of_true ?_ ?_
    · intro envelope envelope' equal
      rw [transactionAad_eq_iff, same, append_cancel_left_eq] at equal
      exact ⟨same, (cons.inj equal).2⟩
    · rw [same]
      exact ⟨not_shifted_self _, not_shifted_self _, not_continued_self _, not_continued_self _⟩
  · rw [← tail_append_ne_iff same]
    constructor
    · intro separates envelope envelope' equal
      exact same (separates envelope envelope' (transactionAad_eq_iff.mpr equal)).1
    · intro differ envelope envelope' equal
      exact absurd (transactionAad_eq_iff.mp equal) (differ envelope envelope')

/-- The additional data of attach values and split tokens tell two callers apart unless the two are
shifted against each other at a NUL; those of transactions also unless the one is continued by the
other.
-/
theorem caller_binding_separates_iff (auth other : AuthContext)
    : (SeparatesCallers auth other
        ↔ ¬ Shifted auth.caller other.caller ∧ ¬ Shifted other.caller auth.caller)
      ∧ (SeparatesTransactions auth other
        ↔ ¬ Shifted auth.caller other.caller ∧ ¬ Shifted other.caller auth.caller
          ∧ ¬ Continued auth.caller other.caller ∧ ¬ Continued other.caller auth.caller) :=
  ⟨separatesCallers_iff, separatesTransactions_iff⟩

/-- A NUL in a domain stands for the end of a shorter one; a NUL in a principal for the beginning of
another attach envelope.
-/
theorem callers_share_binding : attachAad ⟨true, "a\x00b", "c"⟩ = attachAad ⟨true, "a", "b\x00c"⟩
      ∧ splitTokenAad (splitHeader flagPayloadSealed (replicate 16 0) [])
          (some ("a\x00b", "c"))
        = splitTokenAad (splitHeader flagPayloadSealed (replicate 16 0) []) (some ("a", "b\x00c"))
      ∧ transactionAad ⟨true, "d", "p\x00q"⟩ [7] = transactionAad ⟨true, "d", "p"⟩ [113, 0, 7] := by
  decide +kernel

end Vgi.Opaque
