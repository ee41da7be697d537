import Mathlib.Data.List.Forall2
import Mathlib.Data.List.Induction

/-! Inversion rules for computations that may fail. A successful run of a sequence is split
into the successful runs of its parts, so that proofs never unfold the monad.
-/

namespace Vgi.Lib

open List

universe u

variable {ε : Type*} {α β : Type u}

/-- (rejectIf c e) is the early return of an error when the check fails. -/
def rejectIf (rejected : Prop) [Decidable rejected] (error : ε) : Except ε Unit :=
  if rejected then .error error else .ok ()

variable {rejected : Prop} {error : ε}

@[simp] theorem rejectIf_eq_ok [Decidable rejected] {u}
    : rejectIf rejected error = .ok u ↔ ¬rejected := by
  unfold rejectIf
  split <;> simp_all

/-- (okOr e x) is the source's `ok_or_else`: an absent value becomes the error. -/
def okOr (error : ε) : Option α → Except ε α
  | some value => .ok value
  | none => .error error

variable {a : α} {x : Except ε α} {γ : Type u} {f : γ → Except ε β} {results : List β}
  {related : γ → β → Prop} {step : β → γ → Except ε β}

@[simp] theorem okOr_eq_ok {x} : okOr error x = .ok a ↔ x = some a := by
  cases x <;> simp [okOr]

@[simp] theorem bind_eq_ok {f : α → Except ε β} {b}
    : (x >>= f) = .ok b ↔ ∃ a, x = .ok a ∧ f a = .ok b := by
  cases x <;> simp [bind, Except.bind]

@[simp] theorem pure_eq_ok {b} : (pure a : Except ε α) = .ok b ↔ a = b := by
  simp [pure, Except.pure]

@[simp] theorem ok_bind (a) (f : α → Except ε β) : (Except.ok a >>= f) = f a := rfl

@[simp] theorem error_bind (e) (f : α → Except ε β) : (Except.error e >>= f) = .error e := rfl

theorem map_eq_ok {f : α → β} {b} : x.map f = .ok b ↔ ∃ a, x = .ok a ∧ f a = b := by
  cases x <;> simp [Except.map]

variable {ε' : Type*}

@[simp] theorem mapError_eq_ok {f : ε → ε'} : x.mapError f = .ok a ↔ x = .ok a := by
  cases x <;> simp [Except.mapError]

/-- A fallible map succeeds on each of its items. -/
theorem mapM_zip {items : List γ} (run : items.mapM f = .ok results)
    : results.length = items.length ∧ ∀ pair ∈ items.zip results, f pair.1 = .ok pair.2 := by
  induction items generalizing results with
  | nil =>
    cases run
    simp
  | cons item items ih =>
    rw [mapM_cons] at run
    obtain ⟨first, made, run⟩ := bind_eq_ok.mp run
    obtain ⟨rest, later, same⟩ := bind_eq_ok.mp run
    cases same
    obtain ⟨length, each⟩ := ih later
    refine ⟨by simp [length], fun pair member => ?_⟩
    rcases mem_cons.mp member with rfl | tail
    · exact made
    · exact each pair tail

theorem mapM_ok_of_mem {items : List γ} (run : items.mapM f = .ok results) {item}
    (member : item ∈ items)
    : ∃ result, f item = .ok result := by
  obtain ⟨long, each⟩ := mapM_zip run
  obtain ⟨place, inside, rfl⟩ := getElem_of_mem member
  have pair : (items[place], results[place]) ∈ items.zip results :=
    mem_iff_getElem.mpr ⟨place, by simp [long, inside], by simp⟩
  exact ⟨results[place], each _ pair⟩

/-- A fallible map that succeeds drops nothing. -/
theorem eq_filterMap_of_mapM {items : List γ} (run : items.mapM f = .ok results)
    : results = items.filterMap fun item => (f item).toOption := by
  induction items generalizing results with
  | nil =>
    cases run
    rfl
  | cons item items ih =>
    simp only [mapM_cons, bind_eq_ok, pure_eq_ok] at run
    obtain ⟨result, first, rest, run, rfl⟩ := run
    rw [filterMap_cons, first, ih run]
    rfl

/-- A map that succeeds on each item succeeds. -/
theorem exists_mapM {items}
    (each : ∀ item ∈ items, ∃ result, f item = .ok result ∧ related item result)
    : ∃ results, items.mapM f = .ok results ∧ List.Forall₂ related items results := by
  induction items with
  | nil => exact ⟨[], rfl, .nil⟩
  | cons item items ih =>
    obtain ⟨result, made, holds⟩ := each item mem_cons_self
    obtain ⟨results, rest, all⟩ := ih fun other member => each other (mem_cons_of_mem _ member)
    refine ⟨result :: results, ?_, .cons holds all⟩
    rw [mapM_cons, made, ok_bind, rest]
    rfl

theorem exists_of_forall₂ {items} (all : List.Forall₂ related items results) {result}
    (member : result ∈ results) : ∃ item ∈ items, related item result := by
  induction all with
  | nil => cases member
  | cons first _ ih =>
    rcases mem_cons.mp member with rfl | later
    · exact ⟨_, mem_cons_self, first⟩
    · obtain ⟨item, inside, holds⟩ := ih later
      exact ⟨item, mem_cons_of_mem _ inside, holds⟩

theorem mapM_eq_ok_map {g} {items : List γ} (each : ∀ item ∈ items, f item = .ok (g item))
    : items.mapM f = .ok (items.map g) := by
  induction items with
  | nil => rfl
  | cons item items ih =>
    rw [mapM_cons, each item mem_cons_self,
      ih fun other member => each other (mem_cons_of_mem _ member)]
    rfl

section

@[simp] theorem toOption_ok (a) : (Except.ok a : Except ε α).toOption = some a := rfl

@[simp] theorem toOption_error (e) : (Except.error e : Except ε α).toOption = none := rfl

@[simp] theorem toOption_pure (a) : (pure a : Except ε α).toOption = some a := rfl

@[simp] theorem toOption_bind (x) (f : α → Except ε β)
    : (x >>= f).toOption = x.toOption.bind fun a => (f a).toOption := by
  cases x <;> rfl

@[simp] theorem toOption_map (x : Except ε α) (f : α → β)
    : (x.map f).toOption = x.toOption.map f := by
  cases x <;> rfl

@[simp] theorem toOption_mapError (x : Except ε α) (f : ε → ε')
    : (x.mapError f).toOption = x.toOption := by
  cases x <;> rfl

@[simp] theorem toOption_okOr (error : ε) (x : Option α) : (okOr error x).toOption = x := by
  cases x <;> rfl

@[simp] theorem toOption_rejectIf [Decidable rejected] (error : ε)
    : (rejectIf rejected error).toOption = if rejected then none else some () := by
  unfold rejectIf
  split <;> rfl

theorem toOption_eq_some {x : Except ε α} {a} : x.toOption = some a ↔ x = .ok a := by
  cases x <;> simp

theorem toOption_eq_none {x : Except ε α} (failed : x.isOk = false) : x.toOption = none := by
  cases x with
  | ok a => cases failed
  | error e => rfl

end

variable {start : β}

/-- What each step of a fallible loop preserves holds after the loop. -/
theorem foldlM_invariant {items : List γ} {final} (holds : β → Prop)
    (preserved : ∀ state item next, holds state → step state item = .ok next → holds next)
    (initially : holds start) (run : items.foldlM step start = .ok final)
    : holds final := by
  induction items generalizing start with
  | nil =>
    cases run
    exact initially
  | cons item items ih =>
    obtain ⟨next, first, rest⟩ := bind_eq_ok.mp run
    exact ih (preserved start item next initially first) rest

theorem foldlM_congr {other} {items : List γ} {state}
    (same : ∀ item ∈ items, ∀ state, step state item = other state item)
    : items.foldlM step state = items.foldlM other state := by
  induction items generalizing state with
  | nil => rfl
  | cons item rest ih =>
    rw [foldlM_cons, foldlM_cons, same item mem_cons_self]
    exact bind_congr fun next => ih fun item member => same item (mem_cons_of_mem _ member)

/-- A fallible loop whose steps may be exchanged does not depend on the order of its items. -/
theorem foldlM_perm {items items' : List γ} (perm : items.Perm items')
    (swap : ∀ first ∈ items, ∀ second ∈ items, ∀ state,
      (step state first >>= (step · second)) = (step state second >>= (step · first)))
    : items.foldlM step start = items'.foldlM step start := by
  induction perm generalizing start with
  | nil => rfl
  | cons item perm ih =>
    refine bind_congr fun next => ih fun first inFirst second inSecond =>
      swap first (mem_cons_of_mem _ inFirst) second (mem_cons_of_mem _ inSecond)
  | swap first second items =>
    simp only [foldlM_cons, ← bind_assoc]
    rw [swap second (by simp) first (by simp)]
  | trans early late ihEarly ihLate =>
    rw [ihEarly swap]
    exact ihLate fun first inFirst second inSecond =>
      swap first (early.mem_iff.mpr inFirst) second (early.mem_iff.mpr inSecond)

/-- A fallible loop over positions that never fails on encoded states is a plain fold over
the items, by taking the last item off.
-/
theorem foldlM_range_eq_ok {γ δ : Type*} {step : α → Nat → Except ε α} {items : List γ}
    (encode : δ → α) (next)
    (steps : ∀ state index item, items[index]? = some item
      → step (encode state) index = .ok (encode (next state item)))
    (start)
    : (range items.length).foldlM step (encode start) = .ok (encode (items.foldl next start)) := by
  induction items using reverseRecOn with
  | nil => rfl
  | append_singleton items last ih =>
    have before := ih fun state index item found =>
      steps state index item (by rw [getElem?_append_left
        (List.getElem?_eq_some_iff.mp found).1, found])
    have final := steps (items.foldl next start) items.length last (by simp)
    simp [range_succ, before, final]

end Vgi.Lib
