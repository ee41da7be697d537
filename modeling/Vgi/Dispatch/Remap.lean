import Mathlib.Data.List.Nodup
import Vgi.Dispatch.Arguments

/-! Where the constants of a call end up. They are sent one after the other, and `remap_positional`
has to put each at the position declared for it, together with its field.
-/

namespace Vgi.Dispatch

open Arrow List Option

/-- The positions declared for the constants of a call, in the order in which they are sent: those
of the parameters, and behind them the values of a variadic one, from its position on.
-/
def declaredPlaces (specs : List ArgSpec) (count : Nat) : List Nat :=
  let fixed := constPositions (specs.filter fun spec => !spec.isVarargs)
  match specs.find? fun spec => spec.position ≥ 0 ∧ spec.isConst ∧ spec.isVarargs with
  | some tail => fixed ++ (range (count - fixed.length)).map (tail.position.toNat + ·)
  | none => fixed

/-- The call has the constants of these parameters, each with its field. -/
structure Sent (specs : List ArgSpec) (args : Arguments) : Prop where
  constants : (declaredPlaces specs args.positional.length).length = args.positional.length
  given : ∀ value ∈ args.positional, value.isSome
  fields : args.positionalFields.length = args.positional.length

/-- Every constant and its field are at their position, and stay there. -/
structure PutInPlace (specs : List ArgSpec) (args : Arguments) : Prop where
  values : ∀ index place : Nat, (declaredPlaces specs args.positional.length)[index]? = some place →
    (args.remapPositional specs).positional[place]? = args.positional[index]?
  fields : ∀ index place : Nat, (declaredPlaces specs args.positional.length)[index]? = some place →
    (args.remapPositional specs).positionalFields[place]? = args.positionalFields[index]?
  again : (args.remapPositional specs).remapPositional specs = args.remapPositional specs

/-- So many constants are declared in the order in which they are sent, and nothing else, and they
are left there or moved to where they are.
-/
structure InOrder (specs : List ArgSpec) (count : Nat) : Prop where
  places : declaredPlaces specs count = range count
  moved : (constPositions specs).length = specs.length
    ∨ (count : Int).bmod (2 ^ 32) > maxPosition specs
    ∨ (constPositions specs).take count = range count

/-- The constants that are put at a position, one after the other. -/
def putAt (specs : List ArgSpec) (positional : List (Option ArrayRef)) (place : Nat)
    : List ArrayRef :=
  (constPositions specs).zipIdx.filterMap fun entry =>
    if entry.1 = place then (positional[entry.2]?).join else none

section

variable {specs : List ArgSpec} {positional : List (Option ArrayRef)} {place : Nat}

theorem mem_putAt {array}
    : array ∈ putAt specs positional place
      ↔ ∃ index : Nat, (constPositions specs)[index]? = some place
        ∧ (positional[index]?).join = some array := by
  simp only [putAt, mem_filterMap, Prod.exists, mem_zipIdx_iff_getElem?]
  constructor
  · rintro ⟨position, index, at_index, put⟩
    split at put
    next same => exact ⟨index, same ▸ at_index, put⟩
    · cases put
  · rintro ⟨index, at_index, put⟩
    exact ⟨place, index, at_index, by rw [if_pos rfl, put]⟩

/-- The last constant that is put at a position stays. -/
theorem join_expand (specs positional place)
    : (expand specs positional).length = (maxPosition specs).toNat + 1
      ∧ ((expand specs positional)[place]?).join
        = if place < (maxPosition specs).toNat + 1 then (putAt specs positional place).getLast?
          else none := by
  unfold expand putAt
  induction (constPositions specs).zipIdx using reverseRecOn with
  | nil => simp [getElem?_replicate, apply_ite join]
  | append_singleton entries last ih =>
    obtain ⟨long, ih⟩ := ih
    cases put : (positional[last.2]?).join with
    | none => simp [put, long, ih]
    | some array =>
      by_cases same : last.1 = place
      · simp [put, long, same, getElem?_set, apply_ite join]
      · simp [put, long, same, ih]

theorem le_maxPosition {spec} (member : spec ∈ specs) : spec.position ≤ maxPosition specs := by
  induction specs using reverseRecOn with
  | nil => cases member
  | append_singleton specs last ih =>
    unfold maxPosition at ih ⊢
    rw [foldl_append, foldl_cons, foldl_nil]
    rcases mem_append.mp member with earlier | here
    · have := ih earlier
      split <;> omega
    · rw [mem_singleton.mp here]
      split <;> omega

/-- Constants that are declared where they are sent stay where they are. -/
theorem join_expand_of_take (taken : (constPositions specs).take positional.length
      = range positional.length) (given : ∀ value ∈ positional, value.isSome) (place : Nat)
    : ((expand specs positional)[place]?).join = (positional[place]?).join := by
  have own : ∀ index < positional.length, (constPositions specs)[index]? = some index := by
    intro index inside
    rw [← getElem?_take_of_lt inside, taken, getElem?_range inside]
  have only : ∀ array ∈ putAt specs positional place,
      place < positional.length ∧ (positional[place]?).join = some array := by
    intro array put
    obtain ⟨index, at_index, found⟩ := mem_putAt.mp put
    have within : index < positional.length := by
      by_contra outside
      simp [Nat.not_lt.mp outside] at found
    cases at_index.symm.trans (own index within)
    exact ⟨within, found⟩
  rw [(join_expand ..).2]
  by_cases inside : place < positional.length
  · obtain ⟨array, is⟩ := isSome_iff_exists.mp (given _ (getElem_mem inside))
    have some : putAt specs positional place ≠ [] :=
      ne_nil_of_mem (mem_putAt.mpr ⟨place, own place inside, by simp [inside, is]; rfl⟩)
    have low : place < (maxPosition specs).toNat + 1 := by
      obtain ⟨spec, member, at_place⟩ := mem_filterMap.mp (mem_of_getElem? (own place inside))
      have := le_maxPosition member
      split at at_place
      · cases at_place
        omega
      · cases at_place
    rw [if_pos low, getLast?_eq_some_getLast some, (only _ (getLast_mem some)).2]
  · have nothing := eq_nil_iff_forall_not_mem.mpr fun array put => inside (only array put).1
    simp [nothing, Nat.not_lt.mp inside]

variable {args : Arguments}

theorem remapPositional_cases (args : Arguments) (specs)
    : args.remapPositional specs = args
      ∨ args.remapPositional specs = { args with positional := expand specs args.positional }
        ∧ (constPositions specs).length ≠ specs.length
        ∧ ¬(args.positional.length : Int).bmod (2 ^ 32) > maxPosition specs := by
  unfold Arguments.remapPositional
  split_ifs with none constant enough
  · exact .inl rfl
  · exact .inl rfl
  · exact .inl rfl
  · exact .inr ⟨rfl, constant, enough⟩

theorem putInPlace_of_inOrder (sent : Sent specs args)
    (order : InOrder specs args.positional.length) : PutInPlace specs args := by
  have same : ∀ {index place},
      (declaredPlaces specs args.positional.length)[index]? = some place →
      index < args.positional.length ∧ index = place := by
    intro index place at_index
    rw [order.places] at at_index
    obtain ⟨inside, is⟩ := List.getElem?_eq_some_iff.mp at_index
    exact ⟨by simpa using inside, by simpa using is⟩
  rcases remapPositional_cases args specs with kept | ⟨moved, mixed, few⟩
  · constructor
    case again => rw [kept, kept]
    all_goals
      rw [kept]
      intro index place at_index
      rw [(same at_index).2]
  · have taken := (order.moved.resolve_left mixed).resolve_left few
    have joins := join_expand_of_take taken sent.given
    constructor
    case values =>
      rw [moved]
      intro index place at_index
      obtain ⟨inside, rfl⟩ := same at_index
      obtain ⟨array, is⟩ := isSome_iff_exists.mp (sent.given _ (getElem_mem inside))
      have put := joins index
      rw [getElem?_eq_getElem inside, is] at put ⊢
      exact join_eq_some_iff.mp put
    case fields =>
      rw [moved]
      intro index place at_index
      rw [(same at_index).2]
    case again =>
      rcases remapPositional_cases (args.remapPositional specs) specs with kept | ⟨twice, -⟩
      · exact kept
      · have again : expand specs (expand specs args.positional)
            = expand specs args.positional := by
          rw [expand]
          simp only [joins]
          rfl
        rw [twice, moved]
        simp only [again]

end

/-- Constants that are told apart by their values and fields. -/
def numbered (count : Nat) : Arguments where
  positional := (range count).map fun index : Nat => some ⟨.int64, [.int index]⟩
  positionalFields := (range count).map fun index =>
    some (.mk (String.ofList (replicate index 'a')) .int64 true)

/-- A value that is found is found at its own place only. -/
theorem own_place {α : Type} {value : Nat → α} (distinct : Function.Injective value)
    {count index place} (inside : index < count)
    (found : ((range count).map value)[place]? = ((range count).map value)[index]?)
    : place = index :=
  ((getElem?_inj (by simpa using inside) (List.Nodup.map distinct nodup_range)).mp found.symm).symm

theorem take_of_putInPlace {specs count}
    (places : declaredPlaces specs count = range count)
    (put : PutInPlace specs (numbered count))
    (moved : ((numbered count).remapPositional specs).positional
      = expand specs (numbered count).positional)
    : (constPositions specs).take count = range count := by
  have long : (numbered count).positional.length = count := by simp [numbered]
  have own : ∀ index < count, (constPositions specs)[index]? = some index := by
    intro index inside
    have is := put.values index index (by rw [long, places, getElem?_range inside])
    rw [moved] at is
    have last := (join_expand specs (numbered count).positional index).2
    rw [is] at last
    have value : ((numbered count).positional[index]?).join = some ⟨.int64, [.int index]⟩ := by
      simp only [numbered, getElem?_map, getElem?_range inside, map_some, join_some]
    rw [value] at last
    split at last
    · obtain ⟨sent, declared, same⟩ := mem_putAt.mp (mem_of_getLast? last.symm)
      have found : (numbered count).positional[sent]? = (numbered count).positional[index]? := by
        rw [join_eq_some_iff.mp same, join_eq_some_iff.mp value]
      have same := own_place (fun _ _ same => Int.ofNat_inj.mp (by simpa using same)) inside found
      rwa [same] at declared
    · cases last
  refine ext_getElem? fun index => ?_
  by_cases inside : index < count
  · rw [getElem?_take_of_lt inside, own index inside, getElem?_range inside]
  · rw [getElem?_take, if_neg inside, getElem?_eq_none (by simpa using inside)]

/-- So many constants always end up in place, with their fields, exactly if they are declared in
the order in which they are sent and nothing moves them.
-/
theorem remap_in_place_iff (specs : List ArgSpec) (count : Nat)
    : (∀ args, args.positional.length = count → Sent specs args → PutInPlace specs args)
      ↔ ((declaredPlaces specs count).length = count → InOrder specs count) := by
  constructor
  · intro holds fits
    have long : (numbered count).positional.length = count := by simp [numbered]
    have put := holds (numbered count) long
      ⟨by rw [long, fits], by simp [numbered], by simp [numbered]⟩
    have places : declaredPlaces specs count = range count := by
      refine ext_getElem (by simp [fits]) fun index inside _ => ?_
      have is := put.fields index _ (by rw [long]; exact getElem?_eq_getElem inside)
      have fields : ((numbered count).remapPositional specs).positionalFields
          = (numbered count).positionalFields := by
        rcases remapPositional_cases (numbered count) specs with kept | ⟨moved, -⟩
        · rw [kept]
        · rw [moved]
      rw [fields] at is
      rw [fits] at inside
      rw [getElem_range]
      refine own_place (fun one other same => ?_) inside is
      simpa using congrArg (fun field => field.map fun field => field.name.length) same
    refine ⟨places, ?_⟩
    by_contra moves
    simp only [not_or] at moves
    refine moves.2.2 (take_of_putInPlace places put ?_)
    rcases remapPositional_cases (numbered count) specs with kept | ⟨moved, -⟩
    · rw [kept]
      rcases remapPositional_eq_self_iff.mp kept with none | constant | enough | same
      · refine absurd ?_ moves.2.2
        rw [← long, none]
        rfl
      · exact absurd constant moves.1
      · exact absurd (long ▸ enough) moves.2.1
      · exact same.symm
    · rw [moved]
  · rintro order args rfl sent
    exact putInPlace_of_inOrder sent (order sent.constants)

/-- Two constants with a column between them: the second one moves behind the column, and its field
does not.
-/
theorem field_stays_behind : let parameter (position : Int) (isConst : Bool) : ArgSpec :=
        ⟨"", position, "int64", isConst, false, none⟩
      let specs := [parameter 0 true, parameter 1 false, parameter 2 true]
      Sent specs (numbered 2)
      ∧ ((numbered 2).remapPositional specs).positional
        = [some ⟨.int64, [.int 0]⟩, none, some ⟨.int64, [.int 1]⟩]
      ∧ ¬PutInPlace specs (numbered 2) := by
  refine ⟨⟨rfl, by decide, rfl⟩, rfl, fun put => ?_⟩
  have behind := put.fields 1 2 rfl
  exact absurd behind (by decide)

end Vgi.Dispatch
