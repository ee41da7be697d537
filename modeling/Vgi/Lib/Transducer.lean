import Mathlib.Tactic.Common

/-! Deterministic machines that answer every input, and simulations between them. -/

namespace Vgi.Lib

/-- A machine that answers each input and goes to its next state. -/
structure Transducer (ι ο σ : Type*) where
  step : ι → σ → ο × σ

namespace Transducer

variable {ι ο σ τ : Type*}

def outputs (machine : Transducer ι ο σ) : List ι → σ → List ο
  | [], _ => []
  | input :: rest, state =>
    (machine.step input state).1 :: machine.outputs rest (machine.step input state).2

def final (machine : Transducer ι ο σ) : List ι → σ → σ
  | [], state => state
  | input :: rest, state => machine.final rest (machine.step input state).2

/-- Every input of the sequence is allowed in the state it meets. -/
def Permits (machine : Transducer ι ο σ) (allowed : ι → σ → Prop) : List ι → σ → Prop
  | [], _ => True
  | input :: rest, state =>
    allowed input state ∧ machine.Permits allowed rest (machine.step input state).2

theorem permits_true (machine : Transducer ι ο σ) (inputs : List ι) (state)
    : machine.Permits (fun _ _ => True) inputs state := by
  induction inputs generalizing state with
  | nil => trivial
  | cons input rest ih => exact ⟨trivial, ih _⟩

/-- Related states give the same answer to an allowed input and stay related. -/
def Simulates (machine : Transducer ι ο σ) (model : Transducer ι ο τ) (allowed : ι → τ → Prop)
    (related : σ → τ → Prop) : Prop :=
  ∀ input state abstract, related state abstract → allowed input abstract →
    (machine.step input state).1 = (model.step input abstract).1
    ∧ related (machine.step input state).2 (model.step input abstract).2

/-- From related states, allowed inputs are answered alike throughout, by induction on the
inputs.
-/
theorem Simulates.run {machine : Transducer ι ο σ} {model}
    {allowed : ι → τ → Prop} {related}
    (simulates : machine.Simulates model allowed related) {inputs state abstract}
    (start : related state abstract)
    (permitted : model.Permits allowed inputs abstract)
    : machine.outputs inputs state = model.outputs inputs abstract
      ∧ related (machine.final inputs state) (model.final inputs abstract) := by
  induction inputs generalizing state abstract with
  | nil => exact ⟨rfl, start⟩
  | cons input rest ih =>
    obtain ⟨answer, next⟩ := simulates input state abstract start permitted.1
    obtain ⟨later, final⟩ := ih next permitted.2
    exact ⟨by rw [outputs, outputs, answer, later], final⟩

end Transducer

end Vgi.Lib
