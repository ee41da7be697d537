import Mathlib.Logic.Equiv.List
import Mathlib.Tactic.DeriveEncodable

/-! Byte frames for the messages of an encodable type, and the fixed-width numbers that real
frames begin with. A frame starts with a byte that leaves room for others beside it.
-/

namespace Vgi.Lib

open List

instance encodableByte : Encodable UInt8 :=
  Encodable.ofEquiv (Fin 256) ⟨UInt8.toFin, UInt8.ofFin, fun _ => rfl, fun _ => rfl⟩

instance encodableChar : Encodable Char :=
  Encodable.ofLeftInjection Char.toNat (fun n => some (Char.ofNat n)) fun c => by simp

instance encodableString : Encodable String :=
  Encodable.ofEquiv (List Char) ⟨String.toList, String.ofList, fun _ => by simp, fun _ => by simp⟩

def fixint (width : Nat) (n : UInt8) : List UInt8 := n :: replicate (width - 1) 0

/-- The frames of messages whose real ones do not matter. -/
def otherFrame {α : Type} [Encodable α] (message : α) : List UInt8 :=
  255 :: replicate (Encodable.encode message) 0

def decodeOther {α : Type} [Encodable α] : List UInt8 → Except String α
  | 255 :: rest =>
    match Encodable.decode rest.length with
    | some message => .ok message
    | none => .error "unexpected variant"
  | _ => .error "unexpected variant"

theorem decodeOther_otherFrame {α : Type} [Encodable α] (message : α)
    : decodeOther (otherFrame message) = .ok message := by
  simp [decodeOther, otherFrame]

theorem otherFrame_ne {α : Type} [Encodable α] (message : α) {bytes}
    (other : bytes.head? ≠ some 255) : otherFrame message ≠ bytes := by
  intro same
  subst same
  exact other rfl

section

variable {α : Type} [DecidableEq α] [Encodable α]

/-- The frames of a codec of which the real ones of some messages are known. -/
def frameOf (known : List (α × List UInt8)) (message : α) : List UInt8 :=
  match known.find? fun pair => pair.1 = message with
  | some pair => pair.2
  | none => otherFrame message

def readFrame (known : List (α × List UInt8)) (frame : List UInt8) : Except String α :=
  match known.find? fun pair => pair.2 = frame with
  | some pair => .ok pair.1
  | none => decodeOther frame

/-- Such frames are read back if the known ones differ and leave room for the others. -/
theorem readFrame_frameOf {known}
    (room : ∀ pair ∈ known, pair.2.head? ≠ some 255) (apart : (known.map Prod.snd).Nodup)
    (message : α)
    : readFrame known (frameOf known message) = .ok message := by
  unfold frameOf
  cases found : known.find? (fun pair => pair.1 = message) with
  | none =>
    have unknown : known.find? (fun pair => pair.2 = otherFrame message) = none := by
      rw [find?_eq_none]
      intro pair member same
      exact otherFrame_ne message (room pair member) (of_decide_eq_true same).symm
    simp only [readFrame, unknown, decodeOther_otherFrame]
  | some pair =>
    have member := mem_of_find?_eq_some found
    have is : pair.1 = message := by simpa using find?_some found
    have again : known.find? (fun other => other.2 = pair.2) = some pair := by
      cases refound : known.find? (fun other => other.2 = pair.2) with
      | none =>
        rw [find?_eq_none] at refound
        exact absurd (decide_eq_true rfl) (refound pair member)
      | some other =>
        have same : other.2 = pair.2 := by simpa using find?_some refound
        rw [inj_on_of_nodup_map apart (mem_of_find?_eq_some refound) member same]
    simp only [readFrame, again, is]

theorem frameOf_ne_nil {known} (given : ∀ pair ∈ known, pair.2 ≠ []) (message : α)
    : frameOf known message ≠ [] := by
  unfold frameOf
  split
  next pair found => exact given pair (mem_of_find?_eq_some found)
  · exact cons_ne_nil _ _

end

end Vgi.Lib
