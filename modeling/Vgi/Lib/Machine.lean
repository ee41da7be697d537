/-! Labelled transition systems whose steps are computed, and the rule that carries an
invariant from the initial states along every run. A run may be limited to the steps that
meet a condition on the state before them.
-/

namespace Vgi.Lib

open List

/-- A system that starts in an initial state and moves by actions. `next` answers `none`
where the action cannot be taken.
-/
structure Machine (State Action : Type) where
  initial : State → Prop
  next : State → Action → Option State

namespace Machine

variable {State Action : Type} {machine : Machine State Action} {allowed : State → Action → Prop}

/-- The states of the runs all of whose steps meet the condition `allowed`. -/
inductive Reaches (machine : Machine State Action) (allowed : State → Action → Prop)
    : State → Prop where
  | start {state : State} (initial : machine.initial state) : Reaches machine allowed state
  | step {state after : State} {action : Action} (before : Reaches machine allowed state)
      (meets : allowed state action) (moves : machine.next state action = some after)
      : Reaches machine allowed after

/-- An invariant of the initial states that every allowed step keeps holds along every
run.
-/
theorem Reaches.invariant {state} (reached : Reaches machine allowed state) (holds : State → Prop)
    (start : ∀ state, machine.initial state → holds state)
    (keep : ∀ {state after action}, holds state → allowed state action →
      machine.next state action = some after → holds after)
    : holds state := by
  induction reached with
  | start initial => exact start _ initial
  | step _ meets moves ih => exact keep ih meets moves

def exec (machine : Machine State Action) : State → List Action → Option State
  | state, [] => some state
  | state, action :: rest => (machine.next state action).bind (machine.exec · rest)

theorem exec_nil {state} : machine.exec state [] = some state := rfl

/-- The first step is taken before the others are looked at. -/
theorem exec_cons {state action rest}
    : machine.exec state (action :: rest) = match machine.next state action with
      | some after => machine.exec after rest
      | none => none := by
  rw [exec]
  cases machine.next state action with
  | none | some after => rfl

/-- Every action of the list meets the condition in the state it is taken in. -/
def Meets (machine : Machine State Action) (allowed : State → Action → Prop)
    : State → List Action → Prop
  | _, [] => True
  | state, action :: rest =>
    allowed state action
    ∧ match machine.next state action with
      | some after => machine.Meets allowed after rest
      | none => True

instance decidableMeets [∀ state action, Decidable (allowed state action)]
    : (state : State) → (actions : List Action) → Decidable (machine.Meets allowed state actions)
  | _, [] => isTrue trivial
  | state, action :: rest =>
    match taken : machine.next state action with
    | some after =>
      have := decidableMeets after rest
      decidable_of_iff (allowed state action ∧ machine.Meets allowed after rest)
        (by rw [Meets, taken])
    | none => decidable_of_iff (allowed state action) (by rw [Meets, taken, and_true])

theorem meets_true (state actions) : machine.Meets (fun _ _ => True) state actions := by
  induction actions generalizing state with
  | nil => trivial
  | cons action rest ih =>
    refine ⟨trivial, ?_⟩
    cases machine.next state action with
    | none => trivial
    | some after => exact ih after

/-- Executing allowed actions from a reached state reaches the state they end in. -/
theorem Reaches.exec {actions state after} (reached : Reaches machine allowed state)
    (meets : machine.Meets allowed state actions) (ends : machine.exec state actions = some after)
    : Reaches machine allowed after := by
  induction actions generalizing state with
  | nil =>
    cases ends
    exact reached
  | cons action rest ih =>
    obtain ⟨next, moves, ends⟩ := Option.bind_eq_some_iff.mp ends
    obtain ⟨first, later⟩ := meets
    rw [moves] at later
    exact ih (.step reached first moves) later ends

/-- A property that a step keeps exactly if it meets the condition holds after a run exactly if it
held before and every step met the condition.
-/
theorem exec_iff {holds : State → Prop}
    (step : ∀ {state after action}, machine.next state action = some after →
      (holds after ↔ holds state ∧ allowed state action)) {actions state after}
    (ends : machine.exec state actions = some after)
    : holds after ↔ holds state ∧ machine.Meets allowed state actions := by
  induction actions generalizing state with
  | nil =>
    cases ends
    exact (and_iff_left trivial).symm
  | cons action rest ih =>
    obtain ⟨next, moves, ends⟩ := Option.bind_eq_some_iff.mp ends
    rw [ih ends, step moves, Meets, moves, and_assoc]

end Machine

/-- In a table of processes of which one has moved, every other is as it was. -/
theorem getElem?_set_cases {α : Type} {table : List α} {index other entry next}
    (found : (table.set index next)[other]? = some entry)
    : (other = index ∧ entry = next) ∨ (other ≠ index ∧ table[other]? = some entry) := by
  rw [getElem?_set] at found
  split at found
  next same =>
    split at found
    · cases found
      exact .inl ⟨same.symm, rfl⟩
    · cases found
  next ne => exact .inr ⟨fun same => ne same.symm, found⟩

/-- In a table with a process more, every other is as it was. -/
theorem getElem?_concat_cases {α : Type _} {items : List α} {last found index}
    (is : (items ++ [last])[index]? = some found)
    : items[index]? = some found ∨ (index = items.length ∧ found = last) := by
  rw [getElem?_append] at is
  split at is
  · exact .inl is
  next beyond =>
    have inside := (List.getElem?_eq_some_iff.mp is).1
    have here : index = items.length := by
      simp only [length_singleton] at inside
      omega
    subst here
    simp only [Nat.sub_self, getElem?_cons_zero, Option.some.injEq] at is
    exact .inr ⟨rfl, is.symm⟩

end Vgi.Lib
