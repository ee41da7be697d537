import Vgi.Dispatch.Registry

/-! Calls that name no schema. The homes of a name in the caller's catalog are told apart by the
text of their paths, while a call that names a schema compares paths part by part and ignores
case.
-/

namespace Vgi.Dispatch

open Lib List

/-- Erasing repetitions leaves one text exactly if all are the same, by induction with the text
that is repeated and those before it.
-/
theorem length_eraseReps_loop (text) (texts erased : List String)
    : erased.length + 1 ≤ (eraseRepsBy.loop (· == ·) text texts erased).length
      ∧ ((eraseRepsBy.loop (· == ·) text texts erased).length = erased.length + 1
        ↔ ∀ other ∈ texts, other = text) := by
  induction texts generalizing text erased with
  | nil => simp [eraseRepsBy.loop]
  | cons next texts ih =>
    unfold eraseRepsBy.loop
    by_cases same : text = next
    · subst same
      simpa using ih text erased
    · have more := (ih next (text :: erased)).1
      rw [length_cons] at more
      simp only [beq_false_of_ne same]
      refine ⟨by omega, ⟨fun one => by omega, fun all => ?_⟩⟩
      exact absurd (all next mem_cons_self).symm same

theorem length_sortedNames_le_one {names}
    : (sortedNames names).length ≤ 1 ↔ ∀ name ∈ names, ∀ other ∈ names, name = other := by
  have sorted : ∀ name, name ∈ names.mergeSort (fun a b => a ≤ b) ↔ name ∈ names := by simp
  simp only [← sorted]
  unfold sortedNames eraseReps
  cases names.mergeSort fun a b => a ≤ b with
  | nil => simp [eraseRepsBy]
  | cons first rest =>
    obtain ⟨some, one⟩ := length_eraseReps_loop first rest []
    simp only [eraseRepsBy]
    constructor
    · intro few name member other member'
      have all := one.mp (by simp only [length_nil] at some ⊢; omega)
      simp only [mem_cons] at member member'
      have here : name = first := member.elim id (all name)
      exact here.trans (member'.elim id (all other)).symm
    · intro all
      have same : ∀ other ∈ rest, other = first := fun other member =>
        all other (mem_cons_of_mem _ member) first mem_cons_self
      exact (one.mpr same).le

/-- The paths of two homes, compared as `matches` compares them. -/
def FunctionScope.samePath (home other : FunctionScope) : Bool :=
  home.matches home.catalog other.schemaPath

/-- The homes of the name in the caller's catalog. -/
def ownHomes (homes : List FunctionScope) (call : CallScope) : List FunctionScope :=
  homes.filter (·.inCatalog call.catalog)

/-- The ambiguity error. -/
def Ambiguous (answer : Result (List Nat)) : Prop :=
  ∃ message, answer = .error (invalidArgument message)

/-- What a call without a schema should get. -/
structure StaysHome (name : String) (homes : List FunctionScope) (call : CallScope) : Prop where
  found : ∀ indices, scopedIndices name homes call = .ok indices →
    ∀ i ∈ indices, ∃ home ∈ ownHomes homes call, homes[i]? = some home
      ∧ ∀ j ∈ indices, ∃ other ∈ ownHomes homes call, homes[j]? = some other ∧ home.samePath other
  ambiguous : ∀ home ∈ ownHomes homes call, ∀ other ∈ ownHomes homes call,
    home.samePath other = false → Ambiguous (scopedIndices name homes call)
  unambiguous : (∀ home ∈ ownHomes homes call, ∀ other ∈ ownHomes homes call,
    home.samePath other) → ¬Ambiguous (scopedIndices name homes call)

/-- All paths match each other exactly if all have one text. -/
def TextsTell (own : List FunctionScope) : Prop :=
  (∀ home ∈ own, ∀ other ∈ own, home.samePath other)
    ↔ ∀ home ∈ own, ∀ other ∈ own, dotted home.schemaPath = dotted other.schemaPath

section

variable {name : String} {homes : List FunctionScope} {call : CallScope}
  (schemaless : ∀ path, call.kind ≠ .schema path)

include schemaless

theorem reaches_schemaless : call.reaches = (·.inCatalog call.catalog) := by
  unfold CallScope.reaches
  split
  · exact absurd ‹_› (schemaless _)
  · rfl

/-- What is read at the places that the call reaches is read from the homes in its catalog. -/
theorem filterMap_reached {β : Type} (homes) (make : FunctionScope → β)
    : ((range homes.length).filter fun index => (homes[index]?).any call.reaches).filterMap
        (fun index => (homes[index]?).map make)
      = (ownHomes homes call).map make := by
  rw [filterMap_range_filter homes call.reaches fun _ => make, ownHomes,
    ← reaches_schemaless schemaless]
  conv_rhs => rw [← zipIdx_map_fst 0 homes, filter_map, map_map]
  rfl

theorem getElem?_of_reached {index} (member : index ∈ (range homes.length).filter
      fun index => (homes[index]?).any call.reaches)
    : ∃ home ∈ ownHomes homes call, homes[index]? = some home := by
  obtain ⟨home, is, own⟩ := (Option.any_eq_true ..).mp (mem_filter.mp member).2
  rw [reaches_schemaless schemaless] at own
  exact ⟨home, mem_filter.mpr ⟨mem_of_getElem? is, own⟩, is⟩

/-- The answer is not the ambiguity error exactly if the homes have one text. -/
theorem not_ambiguous_iff : ¬Ambiguous (scopedIndices name homes call)
      ↔ ∀ home ∈ ownHomes homes call, ∀ other ∈ ownHomes homes call,
        dotted home.schemaPath = dotted other.schemaPath := by
  have one : (sortedNames ((ownHomes homes call).map (dotted ·.schemaPath))).length ≤ 1 ↔ _ :=
    length_sortedNames_le_one
  have read := filterMap_reached schemaless homes (dotted ·.schemaPath)
  obtain ⟨catalog, kind⟩ := call
  cases kind with
  | schema path => exact absurd rfl (schemaless path)
  | _ =>
    simp only [scopedIndices, read]
    split
    · -- Nothing is reached, and that is another error.
      rename_i nothing
      rw [nothing] at read
      have none := map_eq_nil_iff.mp read.symm
      simp [Ambiguous, notFound, invalidArgument, none]
    · split
      next more => simpa [Ambiguous] using (not_congr one).mp (Nat.not_le.mpr more)
      next few => simpa [Ambiguous] using one.mp (Nat.not_lt.mp few)

end

/-- A call without a schema gets the overloads of one path, or the ambiguity error where there are
several, exactly if the texts of the paths tell apart what `matches` tells apart.
-/
theorem schemaless_stays_home_iff (name : String) (homes : List FunctionScope) (call : CallScope)
    (schemaless : ∀ path, call.kind ≠ .schema path)
    : StaysHome name homes call ↔ TextsTell (ownHomes homes call) := by
  have texts : ¬Ambiguous (scopedIndices name homes call) ↔ _ := not_ambiguous_iff schemaless
  rw [TextsTell, ← texts]
  constructor
  · intro stays
    refine ⟨stays.unambiguous, fun clear home own other own' => ?_⟩
    by_contra differ
    exact clear (stays.ambiguous home own other own' (by simpa using differ))
  · intro tell
    constructor
    case found =>
      intro indices is i member
      have clear : ¬Ambiguous (scopedIndices name homes call) := by simp [Ambiguous, is]
      rw [scopedIndices_eq_ok is] at member ⊢
      obtain ⟨home, own, here⟩ := getElem?_of_reached schemaless member
      refine ⟨home, own, here, fun j member' => ?_⟩
      obtain ⟨other, own', there⟩ := getElem?_of_reached schemaless member'
      exact ⟨other, own', there, tell.mpr clear home own other own'⟩
    case ambiguous =>
      intro home own other own' differ
      by_contra clear
      rw [tell.mpr clear home own other own'] at differ
      cases differ
    case unambiguous => exact tell.mp

/-- Two overloads of one nested schema. -/
theorem schemaless_stays_home_sample
    : StaysHome "f" [⟨"c", ["a", "b"]⟩, ⟨"c", ["a", "b"]⟩] ⟨"c", .legacyPeer⟩ :=
  (schemaless_stays_home_iff "f" _ ⟨"c", .legacyPeer⟩ (by simp)).mpr
    (iff_of_true (by decide) (by decide))

/-- A schema whose name has a dot, and a nested one with the same text: both overloads are found.
-/
theorem schemaless_crosses_homes
    : ¬StaysHome "f" [⟨"c", ["a.b"]⟩, ⟨"c", ["a", "b"]⟩] ⟨"c", .legacyPeer⟩ := by
  intro stays
  have several :=
    stays.ambiguous ⟨"c", ["a.b"]⟩ (by decide) ⟨"c", ["a", "b"]⟩ (by decide) (by decide)
  exact (not_ambiguous_iff (by simp)).mpr (by decide) several

end Vgi.Dispatch
