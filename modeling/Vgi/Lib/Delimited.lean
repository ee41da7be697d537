import Mathlib.Data.List.Basic

/-! Writers whose values can be told off the front of a longer text: of fixed width, behind a count,
or one after the other. What such a writer writes can be written next to anything.
-/

namespace Vgi.Lib

open List

variable {α β γ : Type}

/-- Where a written value ends can be told, whatever follows it. -/
structure Delimited (write : α → List γ) : Prop where
  tells : ∀ {value other rest rest'}, write value ++ rest = write other ++ rest' →
    value = other ∧ rest = rest'

variable {write : α → List γ} (delimited : Delimited write)

include delimited in
theorem Delimited.injective : Function.Injective write := by
  intro value other same
  have both : write value ++ [] = write other ++ [] := by rw [same]
  exact (delimited.tells both).1

/-- A writer of one width needs no mark for the end. -/
theorem Delimited.of_width (width)
    (length : ∀ value, (write value).length = width) (injective : Function.Injective write)
    : Delimited write := by
  refine ⟨fun {value other rest rest'} same => ?_⟩
  have widths : (write value).length = (write other).length := by rw [length, length]
  obtain ⟨written, after⟩ := append_inj same widths
  exact ⟨injective written, after⟩

/-- Writing another form of the value, from which it can be told. -/
theorem Delimited.comap {write : β → List γ} (delimited : Delimited write) {view : α → β}
    (injective : Function.Injective view) : Delimited fun value => write (view value) := by
  refine ⟨fun {value other rest rest'} same => ?_⟩
  obtain ⟨views, after⟩ := delimited.tells same
  exact ⟨injective views, after⟩

theorem Delimited.append {first : α → List γ} {second} (left : Delimited first)
    (right : Delimited second) : Delimited fun pair : α × β => first pair.1 ++ second pair.2 := by
  constructor
  rintro ⟨value, next⟩ ⟨other, next'⟩ rest rest' same
  rw [append_assoc, append_assoc] at same
  obtain ⟨rfl, remaining⟩ := left.tells same
  obtain ⟨rfl, after⟩ := right.tells remaining
  exact ⟨rfl, after⟩

include delimited

/-- Lists of one length, element by element. -/
theorem flatMap_append_inj {items others : List α} {rest rest'}
    (lengths : items.length = others.length)
    (same : items.flatMap write ++ rest = others.flatMap write ++ rest')
    : items = others ∧ rest = rest' := by
  induction items generalizing others with
  | nil =>
    have nothing : others = [] := length_eq_zero_iff.mp lengths.symm
    subst nothing
    exact ⟨rfl, same⟩
  | cons item items ih =>
    cases others with
    | nil => cases lengths
    | cons other others =>
      rw [flatMap_cons, flatMap_cons, append_assoc, append_assoc] at same
      obtain ⟨rfl, remaining⟩ := delimited.tells same
      obtain ⟨rfl, after⟩ := ih (Nat.succ.inj lengths) remaining
      exact ⟨rfl, after⟩

/-- A list behind its length. The length has to be told only for the lists that are written. -/
theorem Delimited.counted {Fits : Nat → Prop} {count : Nat → List γ}
    (counts : Delimited fun length : { length // Fits length } => count length.1)
    : Delimited fun items : { items : List α // Fits items.length } =>
        count items.1.length ++ items.1.flatMap write := by
  constructor
  rintro ⟨items, fits⟩ ⟨others, fits'⟩ rest rest' same
  rw [append_assoc, append_assoc] at same
  obtain ⟨lengths, remaining⟩ := @counts.tells ⟨items.length, fits⟩ ⟨others.length, fits'⟩ _ _ same
  obtain ⟨items, after⟩ := flatMap_append_inj delimited (congrArg Subtype.val lengths) remaining
  exact ⟨Subtype.ext items, after⟩

end Vgi.Lib
