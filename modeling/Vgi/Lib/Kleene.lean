import Mathlib.Tactic.Common

/-! Strong three-valued logic, where `none` is the undetermined value, and folds whose items
may have several outcomes.
-/

namespace Vgi.Lib.Kleene

def and : Option Bool → Option Bool → Option Bool
  | some false, _ => some false
  | _, some false => some false
  | some true, some true => some true
  | _, _ => none

def or : Option Bool → Option Bool → Option Bool
  | some true, _ => some true
  | _, some true => some true
  | some false, some false => some false
  | _, _ => none

def not : Option Bool → Option Bool
  | some value => some !value
  | none => none

variable {left right start : Option Bool} {values : List (Option Bool)}

@[simp] theorem and_eq_true
    : and left right = some true ↔ left = some true ∧ right = some true := by
  rcases left with _ | _ | _ <;> rcases right with _ | _ | _ <;> simp [and]

theorem and_right_comm (first second third)
    : and (and first second) third = and (and first third) second := by
  rcases first with _ | _ | _ <;> rcases second with _ | _ | _ <;>
    rcases third with _ | _ | _ <;> rfl

@[simp] theorem not_not (value) : not (not value) = value := by
  rcases value with _ | _ <;> simp [not]

theorem foldl_and_eq_true : values.foldl and start = some true
      ↔ start = some true ∧ ∀ value ∈ values, value = some true := by
  induction values generalizing start with
  | nil => simp
  | cons value values ih => simp [ih, and_assoc]

theorem and_eq_false : and left right = some false ↔ left = some false ∨ right = some false := by
  rcases left with _ | _ | _ <;> rcases right with _ | _ | _ <;> simp [and]

theorem foldl_and_eq_false
    : values.foldl and start = some false ↔ start = some false ∨ some false ∈ values := by
  induction values generalizing start with
  | nil => simp
  | cons value values ih =>
    rw [List.foldl_cons, ih, and_eq_false, List.mem_cons, or_assoc, @eq_comm _ (some false)]

/-- A conjunction is undetermined if no member is false and some member is undetermined. -/
theorem foldl_and_eq_none
    : values.foldl and (some true) = none ↔ some false ∉ values ∧ none ∈ values := by
  have valid : values.foldl and (some true) = some true ↔ ∀ value ∈ values, value = some true := by
    simp [foldl_and_eq_true]
  have refuted : values.foldl and (some true) = some false ↔ some false ∈ values := by
    simp [foldl_and_eq_false]
  constructor
  · intro unknown
    rw [unknown] at valid refuted
    have unrefuted : some false ∉ values := fun member => nomatch refuted.mpr member
    refine ⟨unrefuted, ?_⟩
    by_contra known
    have all : ∀ value ∈ values, value = some true := by
      intro value member
      rcases value with _ | _ | _
      · exact absurd member known
      · exact absurd member unrefuted
      · rfl
    cases valid.mpr all
  · rintro ⟨unrefuted, unknown⟩
    rcases folded : values.foldl and (some true) with _ | _ | _
    · rfl
    · exact absurd (refuted.mp folded) unrefuted
    · cases valid.mp folded none unknown

/-- A conjunction stays the same with further members if each of them is true, or absorbed by
an old one.
-/
theorem foldl_and_eq_iff {others} (sub : values ⊆ others)
    : others.foldl and (some true) = values.foldl and (some true)
      ↔ ∀ other ∈ others, other = some true ∨ some false ∈ values
          ∨ other = none ∧ none ∈ values := by
  constructor
  · intro same other member
    by_cases refuted : some false ∈ others
    · rw [foldl_and_eq_false.mpr (.inr refuted), eq_comm, foldl_and_eq_false] at same
      exact .inr (.inl (same.resolve_left nofun))
    · rcases other with _ | _ | _
      · rw [foldl_and_eq_none.mpr ⟨refuted, member⟩, eq_comm, foldl_and_eq_none] at same
        exact .inr (.inr ⟨rfl, same.2⟩)
      · exact absurd member refuted
      · exact .inl rfl
  · intro absorbed
    by_cases refuted : some false ∈ values
    · rw [foldl_and_eq_false.mpr (.inr refuted), foldl_and_eq_false.mpr (.inr (sub refuted))]
    · by_cases unknown : none ∈ values
      · rw [foldl_and_eq_none.mpr ⟨refuted, unknown⟩, foldl_and_eq_none]
        exact ⟨fun member => by simpa [refuted] using absorbed _ member, sub unknown⟩
      · have valid : ∀ other ∈ others, other = some true := fun other member => by
          simpa [refuted, unknown] using absorbed other member
        rw [foldl_and_eq_true.mpr ⟨rfl, valid⟩,
          foldl_and_eq_true.mpr ⟨rfl, fun value member => valid value (sub member)⟩]

end Vgi.Lib.Kleene

namespace Vgi.Lib

/-- A fold over items that each have some of several outcomes can end in this state. -/
def FoldsTo {α β σ : Type*} (step : σ → β → σ) (can : α → β → Prop) : List α → σ → σ → Prop
  | [], state, final => final = state
  | item :: rest, state, final =>
    ∃ outcome, can item outcome ∧ FoldsTo step can rest (step state outcome) final

namespace FoldsTo

variable {α β σ : Type*} {step : σ → β → σ} {can could : α → β → Prop} {items : List α}

theorem mono {state final} (wider : ∀ item ∈ items, ∀ outcome, can item outcome
      → could item outcome) (folds : FoldsTo step can items state final)
    : FoldsTo step could items state final := by
  induction items generalizing state with
  | nil => exact folds
  | cons item rest ih =>
    obtain ⟨outcome, first, later⟩ := folds
    exact ⟨outcome, wider item (List.mem_cons_self ..) outcome first,
      ih (fun item member => wider item (List.mem_cons_of_mem _ member)) later⟩

/-- Some fold exists exactly when every item has an outcome. -/
theorem exists_iff {state}
    : (∃ final, FoldsTo step can items state final)
      ↔ ∀ item ∈ items, ∃ outcome, can item outcome := by
  induction items generalizing state with
  | nil => simp [FoldsTo]
  | cons item rest ih =>
    simp only [List.mem_cons, forall_eq_or_imp]
    constructor
    · rintro ⟨final, outcome, first, later⟩
      exact ⟨⟨outcome, first⟩, ih.mp ⟨final, later⟩⟩
    · rintro ⟨⟨outcome, first⟩, others⟩
      obtain ⟨final, later⟩ := ih.mpr others
      exact ⟨final, outcome, first, later⟩

end FoldsTo

end Vgi.Lib
