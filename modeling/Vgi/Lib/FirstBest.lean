import Vgi.Lib.Machine
import Mathlib.Data.List.Induction
import Mathlib.Order.Lattice

/-! The choice of the first candidate with the greatest score, as one pass over the candidates
that keeps the best one so far.
-/

namespace Vgi.Lib

variable {S : Type*} [LinearOrder S]

/-- Keeps the earlier of two candidates with one score. -/
def better (best : Option (Nat × S)) (index : Nat) (score : S) : Option (Nat × S) :=
  match best with
  | some (_, reached) => if reached < score then some (index, score) else best
  | none => some (index, score)

/-- The first best candidate; one without a score is out. -/
def firstBest (scores : List (Option S)) : Option (Nat × S) :=
  scores.zipIdx.foldl
    (fun best entry => match entry.1 with
      | some score => better best entry.2 score
      | none => best)
    none

/-- The candidate at this index has this score, none has a greater one, and every earlier
one has a smaller one.
-/
structure IsFirstBest (scores : List (Option S)) (index : Nat) (score : S) : Prop where
  at_index : scores[index]? = some (some score)
  greatest : ∀ (other : Nat) reached, scores[other]? = some (some reached) → reached ≤ score
  first : ∀ earlier < index, ∀ reached, scores[earlier]? = some (some reached) → reached < score

theorem firstBest_concat (scores : List (Option S)) (last : Option S)
    : firstBest (scores ++ [last])
      = match last with
        | some score => better (firstBest scores) scores.length score
        | none => firstBest scores := by
  simp [firstBest, List.zipIdx_append]

variable {scores : List (Option S)} {score : S} {index : Nat}

/-- A candidate that is no better changes nothing. -/
theorem IsFirstBest.keep {last} (best : IsFirstBest scores index score)
    (worse : ∀ reached, last = some reached → reached ≤ score)
    : IsFirstBest (scores ++ [last]) index score where
  at_index := by
    rw [List.getElem?_append_left (List.getElem?_eq_some_iff.mp best.at_index).1, best.at_index]
  greatest := by
    intro other reached is
    rcases getElem?_concat_cases is with was | ⟨-, new⟩
    · exact best.greatest other reached was
    · exact worse reached new.symm
  first := by
    intro earlier before reached is
    rcases getElem?_concat_cases is with was | ⟨here, -⟩
    · exact best.first earlier before reached was
    · have inside := (List.getElem?_eq_some_iff.mp best.at_index).1
      omega

/-- A candidate that is better than all before it is the first best one. -/
theorem isFirstBest_last
    (better : ∀ (other : Nat) reached, scores[other]? = some (some reached) → reached < score)
    : IsFirstBest (scores ++ [some score]) scores.length score where
  at_index := by simp
  greatest := by
    intro other reached is
    rcases getElem?_concat_cases is with was | ⟨-, new⟩
    · exact (better other reached was).le
    · exact (Option.some.inj new).le
  first := by
    intro earlier before reached is
    rcases getElem?_concat_cases is with was | ⟨here, -⟩
    · exact better earlier reached was
    · omega

/-- The pass ends with the first best candidate, and with none only if none has a score; by
induction on the candidates seen.
-/
theorem firstBest_spec (scores : List (Option S))
    : match firstBest scores with
      | some (index, score) => IsFirstBest scores index score
      | none => ∀ (other : Nat) reached, scores[other]? ≠ some (some reached) := by
  induction scores using List.reverseRecOn with
  | nil => simp [firstBest]
  | append_singleton scores last ih =>
    rw [firstBest_concat]
    cases best : firstBest scores with
    | none =>
      rw [best] at ih
      cases last with
      | none =>
        intro other reached is
        rcases getElem?_concat_cases is with was | ⟨-, new⟩
        · exact ih other reached was
        · cases new
      | some score => exact isFirstBest_last fun other reached is => absurd is (ih other reached)
    | some kept =>
      obtain ⟨index, reached⟩ := kept
      rw [best] at ih
      cases last with
      | none => exact ih.keep nofun
      | some score =>
        simp only [better]
        by_cases greater : reached < score
        · rw [if_pos greater]
          exact isFirstBest_last fun other earlier is =>
            (ih.greatest other earlier is).trans_lt greater
        · rw [if_neg greater]
          refine ih.keep fun new is => ?_
          cases is
          exact not_lt.mp greater

theorem firstBest_eq_some_iff
    : firstBest scores = some (index, score) ↔ IsFirstBest scores index score := by
  have spec := firstBest_spec scores
  constructor
  · intro is
    rwa [is] at spec
  · intro best
    cases is : firstBest scores with
    | none =>
      rw [is] at spec
      exact absurd best.at_index (spec index score)
    | some kept =>
      obtain ⟨other, reached⟩ := kept
      rw [is] at spec
      -- Neither of the two can come before the other.
      rcases lt_trichotomy other index with before | same | after
      · have less := best.first other before reached spec.at_index
        exact absurd (spec.greatest index score best.at_index) (not_le.mpr less)
      · subst same
        have scores := spec.at_index.symm.trans best.at_index
        rw [Option.some.inj (Option.some.inj scores)]
      · have less := spec.first index after score best.at_index
        exact absurd (best.greatest other reached spec.at_index) (not_le.mpr less)

end Vgi.Lib
