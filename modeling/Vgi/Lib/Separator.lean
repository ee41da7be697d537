import Mathlib.Data.List.Basic

/-! Two lists written one after the other with a mark between them: when the whole does not tell
where the first ends. The texts of numbers hold no mark but a sign.
-/

namespace Vgi.Lib

open List

variable {α : Type} {mark : α} {left right left' right' : List α}

/-- The second list goes on where the first ends, after a mark. -/
def Extends (mark : α) (left left' : List α) : Prop := ∃ rest, left' = left ++ mark :: rest

/-- What stands after the mark in `left'` begins `right`. -/
def Shifts (mark : α) (left right left' right' : List α) : Prop :=
  ∃ middle, left' = left ++ mark :: middle ∧ right = middle ++ mark :: right'

variable (shifts : Shifts mark left right left' right')

include shifts

theorem Shifts.extends : Extends mark left left' :=
  let ⟨middle, is, _⟩ := shifts
  ⟨middle, is⟩

theorem Shifts.joined : left ++ mark :: right = left' ++ mark :: right' := by
  obtain ⟨middle, rfl, rfl⟩ := shifts
  simp

omit shifts

/-- Two joined lists are the same only if their parts are, or if one is the other shifted. -/
theorem joined_eq_iff : left ++ mark :: right = left' ++ mark :: right'
      ↔ (left = left' ∧ right = right') ∨ Shifts mark left right left' right'
        ∨ Shifts mark left' right' left right := by
  constructor
  · intro same
    rcases append_eq_append_iff.mp same with ⟨more, is, rest⟩ | ⟨more, is, rest⟩
    · cases more with
      | nil => exact .inl ⟨by simpa using is.symm, (cons.inj rest).2⟩
      | cons head middle =>
        obtain ⟨rfl, after⟩ := cons.inj rest
        exact .inr (.inl ⟨middle, is, after⟩)
    · cases more with
      | nil => exact .inl ⟨by simpa using is, (cons.inj rest).2.symm⟩
      | cons head middle =>
        obtain ⟨rfl, after⟩ := cons.inj rest
        exact .inr (.inr ⟨middle, is, after⟩)
  · rintro (⟨rfl, rfl⟩ | shifts | shifts)
    · rfl
    · exact shifts.joined
    · exact shifts.joined.symm

/-- Lists that do not hold the mark can be read back. -/
theorem joined_inj (clean : mark ∉ left) (clean' : mark ∉ left')
    (same : left ++ mark :: right = left' ++ mark :: right') : left = left' ∧ right = right' := by
  rcases joined_eq_iff.mp same with parts | ⟨_, rfl, _⟩ | ⟨_, rfl, _⟩
  · exact parts
  · exact absurd (mem_append_right _ mem_cons_self) clean'
  · exact absurd (mem_append_right _ mem_cons_self) clean

/-- Whatever may follow, two lists that are not the same are told apart if neither extends the
other.
-/
theorem joined_ne_iff : (∀ right right', left ++ mark :: right ≠ left' ++ mark :: right')
      ↔ left ≠ left' ∧ ¬ Extends mark left left' ∧ ¬ Extends mark left' left := by
  constructor
  · intro differ
    refine ⟨?_, ?_, ?_⟩
    · rintro rfl
      exact differ [] [] rfl
    · rintro ⟨rest, rfl⟩
      exact differ (rest ++ [mark]) [] (by simp)
    · rintro ⟨rest, rfl⟩
      exact differ [] (rest ++ [mark]) (by simp)
  · rintro ⟨ne, noExtension, noExtension'⟩ right right' same
    rcases joined_eq_iff.mp same with ⟨is, _⟩ | shifts | shifts
    · exact ne is
    · exact noExtension shifts.extends
    · exact noExtension' shifts.extends

theorem toList_negSucc (n)
    : (toString (Int.negSucc n)).toList = '-' :: (toString (n + 1)).toList := by
  have text : toString (Int.negSucc n) = "-" ++ toString (n + 1) := rfl
  rw [text, String.toList_append]
  rfl

theorem isDigit_of_mem_nat {n : Nat} {c} (member : c ∈ (toString n).toList) : c.isDigit = true := by
  rw [Nat.toString_eq_repr, Nat.toList_repr] at member
  exact Nat.isDigit_of_mem_toDigits (by decide) (by decide) member

theorem isDigit_of_mem_int {n : Int} {c} (member : c ∈ (toString n).toList)
    : c = '-' ∨ c.isDigit = true := by
  cases n with
  | ofNat n => exact .inr (isDigit_of_mem_nat member)
  | negSucc n =>
    rw [toList_negSucc] at member
    rcases mem_cons.mp member with dash | digit
    · exact .inl dash
    · exact .inr (isDigit_of_mem_nat digit)

theorem toString_nat_inj {m n : Nat} (same : (toString m).toList = (toString n).toList)
    : m = n := by
  rw [Nat.toString_eq_repr, Nat.toString_eq_repr, Nat.toList_repr, Nat.toList_repr] at same
  have digits := congrArg (Nat.ofDigitChars 10 · 0) same
  simpa only [Nat.ofDigitChars_ten_toDigits] using digits

theorem toString_int_inj {m n : Int} (same : (toString m).toList = (toString n).toList)
    : m = n := by
  have signs (m n : Nat) : (toString (Int.ofNat m)).toList ≠ (toString (Int.negSucc n)).toList := by
    intro same
    have dash : '-' ∈ (toString m).toList := by
      rw [show (toString m).toList = _ from same, toList_negSucc]
      exact mem_cons_self
    exact absurd (isDigit_of_mem_nat dash) (by decide)
  cases m with
  | ofNat m =>
    cases n with
    | ofNat n => exact congrArg Int.ofNat (toString_nat_inj same)
    | negSucc n => exact absurd same (signs m n)
  | negSucc m =>
    cases n with
    | ofNat n => exact absurd same.symm (signs n m)
    | negSucc n =>
      rw [toList_negSucc, toList_negSucc] at same
      exact congrArg Int.negSucc (Nat.succ.inj (toString_nat_inj (cons.inj same).2))

end Vgi.Lib
