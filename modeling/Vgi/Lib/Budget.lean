import Mathlib.Order.Nat
import Vgi.Lib.Except

/-! Fallible computations that draw on a shared counter. A computation that succeeds late in
a document succeeds from any earlier count as well, with the same result.
-/

namespace Vgi.Lib

variable {ε : Type*} {α β : Type}

/-- The counter never goes back, and a success from one count is the same success from every
smaller count, which ends at a smaller count too.
-/
def Budgeted (x : StateT Nat (Except ε) α) : Prop :=
  ∀ count result count', x count = .ok (result, count')
    → count ≤ count' ∧ ∀ less ≤ count, ∃ less' ≤ count', x less = .ok (result, less')

theorem Budgeted.pure (a) : Budgeted (Pure.pure a : StateT Nat (Except ε) α) := by
  rintro count result count' h
  cases h
  exact ⟨le_rfl, fun less le => ⟨less, le, rfl⟩⟩

/-- A computation that ignores the counter. -/
theorem Budgeted.lift (x : Except ε α) : Budgeted (liftM x : StateT Nat (Except ε) α) := by
  rintro count result count' h
  cases x with
  | error e => cases h
  | ok a =>
    cases h
    exact ⟨le_rfl, fun less le => ⟨less, le, rfl⟩⟩

theorem StateT.bind_eq_ok {σ : Type} {x}
    {f : α → StateT σ (Except ε) β} {s s'' b}
    : (x >>= f) s = .ok (b, s'') ↔ ∃ a s', x s = .ok (a, s') ∧ f a s' = .ok (b, s'') := by
  constructor
  · intro h
    obtain ⟨⟨a, s'⟩, first, second⟩ := Lib.bind_eq_ok.mp h
    exact ⟨a, s', first, second⟩
  · rintro ⟨a, s', first, second⟩
    exact Lib.bind_eq_ok.mpr ⟨(a, s'), first, second⟩

theorem StateT.liftM_eq_ok {σ : Type} {x : Except ε α} {s s' a}
    : (liftM x : StateT σ (Except ε) α) s = .ok (a, s') ↔ x = .ok a ∧ s' = s := by
  cases x with
  | error e => simp [liftM, monadLift, MonadLift.monadLift, StateT.lift]
  | ok b => simp [liftM, monadLift, MonadLift.monadLift, StateT.lift, eq_comm]

theorem StateT.get_eq_ok {σ : Type} {s s' t}
    : (get : StateT σ (Except ε) σ) s = .ok (t, s') ↔ t = s ∧ s' = s := by
  simp [get, getThe, MonadStateOf.get, StateT.get, pure, Except.pure, eq_comm]

theorem StateT.set_eq_ok {σ : Type} {s s' t u}
    : (set t : StateT σ (Except ε) PUnit) s = .ok (u, s') ↔ s' = t := by
  change Except.ok (PUnit.unit, t) = .ok (u, s') ↔ _
  simp [eq_comm]

theorem Budgeted.bind {x} {f : α → StateT Nat (Except ε) β}
    (first : Budgeted x) (second : ∀ a, Budgeted (f a))
    : Budgeted (x >>= f) := by
  intro count result count'' h
  obtain ⟨a, count', hx, hf⟩ := StateT.bind_eq_ok.mp h
  obtain ⟨le, replay⟩ := first _ _ _ hx
  obtain ⟨le', replay'⟩ := second a _ _ _ hf
  refine ⟨le.trans le', fun less small => ?_⟩
  obtain ⟨less', small', hx'⟩ := replay less small
  obtain ⟨less'', small'', hf'⟩ := replay' less' small'
  exact ⟨less'', small'', StateT.bind_eq_ok.mpr ⟨a, less', hx', hf'⟩⟩

end Vgi.Lib
