import Mathlib.Tactic.Common

/-! Intervals with optional, inclusive or exclusive endpoints over a comparison function.
Intersections keep every common member; unions are hulls and keep every member of either side.
-/

namespace Vgi.Lib

open Std (TransCmp OrientedCmp)

inductive Bound (α : Type*) where
  | unbounded
  | included (value : α)
  | excluded (value : α)
deriving DecidableEq

namespace Bound

variable {α : Type*}

def value? : Bound α → Option α
  | unbounded => none
  | included value => some value
  | excluded value => some value

def isExcluded : Bound α → Bool
  | excluded _ => true
  | _ => false

def Forall (holds : α → Prop) (bound : Bound α) : Prop := ∀ value ∈ bound.value?, holds value

variable (cmp : α → α → Ordering)

/-- The value lies above this lower bound. -/
def Below (x : α) : Bound α → Prop
  | unbounded => True
  | included value => (cmp value x).isLE = true
  | excluded value => cmp value x = .lt

/-- The value lies below this upper bound. -/
def Above (x : α) : Bound α → Prop
  | unbounded => True
  | included value => (cmp x value).isLE = true
  | excluded value => cmp x value = .lt

/-- Compare two endpoints of one side. At the same value an exclusive lower bound comes after
an inclusive one, and an exclusive upper bound before it.
-/
def order (lower : Bool) (left right : Bound α) : Ordering :=
  match left.value?, right.value? with
  | none, none => .eq
  | none, some _ => if lower then .lt else .gt
  | some _, none => if lower then .gt else .lt
  | some l, some r =>
    (cmp l r).then
      (if lower then compare left.isExcluded right.isExcluded
        else (compare left.isExcluded right.isExcluded).swap)

def choose (lower maximum : Bool) (left right : Bound α) : Bound α :=
  if (order cmp lower left right == .gt) == maximum then left else right

variable {left right : Bound α}

/-- What holds of both bounds holds of the chosen one. -/
theorem choose_of {holds : Bound α → Prop} (inLeft : holds left) (inRight : holds right)
    (lower maximum) : holds (choose cmp lower maximum left right) := by
  unfold choose
  split
  · exact inLeft
  · exact inRight

/-- Upper bounds are the lower bounds of the opposite order. -/
theorem above_iff {x bound} : Above cmp x bound ↔ Below (fun a b => cmp b a) x bound := by
  cases bound <;> rfl

theorem order_opposite
    : order cmp false left right = order (fun a b => cmp b a) true right left := by
  unfold order
  cases left.value? <;> cases right.value? <;> try rfl
  cases left.isExcluded <;> cases right.isExcluded <;> rfl

variable {cmp} [TransCmp cmp]

/-- A value above the later lower bound is above the earlier one. -/
theorem Below.of_isLE {x} (le : (order cmp true left right).isLE = true) (below : Below cmp x right)
    : Below cmp x left := by
  cases left with
  | unbounded => trivial
  | included l =>
    cases right with
    | unbounded => simp [order, value?] at le
    | included r =>
      have le : (cmp l r).isLE = true := by simpa [order, value?, isExcluded] using le
      exact TransCmp.isLE_trans le below
    | excluded r =>
      have le : (cmp l r).isLE = true := by
        cases comparison : cmp l r <;> simp_all [order, value?]
      have less : cmp l x = .lt := TransCmp.lt_of_isLE_of_lt le below
      simp [Below, less]
  | excluded l =>
    cases right with
    | unbounded => simp [order, value?] at le
    | included r =>
      have less : cmp l r = .lt := by
        cases comparison : cmp l r <;>
          simp_all [order, value?, isExcluded, compare]
      exact TransCmp.lt_of_lt_of_isLE less below
    | excluded r =>
      have le : (cmp l r).isLE = true := by simpa [order, value?, isExcluded] using le
      exact TransCmp.lt_of_isLE_of_lt le below

/-- A value below the earlier upper bound is below the later one. -/
theorem Above.of_isLE {x} (le : (order cmp false left right).isLE = true) (above : Above cmp x left)
    : Above cmp x right := by
  rw [order_opposite] at le
  rw [above_iff] at above ⊢
  exact above.of_isLE le

theorem order_swap (lower left right)
    : order cmp lower right left = (order cmp lower left right).swap := by
  unfold order
  cases left.value? with
  | none => cases right.value? <;> cases lower <;> rfl
  | some l =>
    cases right.value? with
    | none => cases lower <;> rfl
    | some r =>
      have values : cmp r l = (cmp l r).swap := OrientedCmp.eq_swap
      simp only [Ordering.swap_then, ← values]
      cases lower <;> cases left.isExcluded <;> cases right.isExcluded <;> rfl

theorem isLE_or_swap (cmp : α → α → Ordering) [TransCmp cmp] (lower left right)
    : order cmp lower left right ≠ .gt ∧ (order cmp lower left right).isLE = true
      ∨ order cmp lower left right = .gt ∧ (order cmp lower right left).isLE = true := by
  rw [order_swap lower left right]
  cases order cmp lower left right <;> simp

/-- The bound that is chosen admits what either of the two admits, if the order of the bounds
says which one admits more.
-/
theorem choose_of_or {admits : Bound α → Prop} {lower maximum}
    (wider : ∀ {left right}, (order cmp lower left right).isLE = true →
      admits (if maximum then left else right) → admits (if maximum then right else left))
    (either : admits left ∨ admits right) : admits (choose cmp lower maximum left right) := by
  unfold choose
  rcases isLE_or_swap cmp lower left right with ⟨notGt, le⟩ | ⟨gt, le⟩
  · have first : (order cmp lower left right == .gt) = false := by simpa using notGt
    have more := wider le
    cases maximum <;> simp_all <;> tauto
  · have more := wider le
    cases maximum <;> simp_all <;> tauto

theorem Below.choose {x} (either : Below cmp x left ∨ Below cmp x right)
    : Below cmp x (choose cmp true false left right) :=
  choose_of_or (fun le below => below.of_isLE le) either

theorem Above.choose {x} (either : Above cmp x left ∨ Above cmp x right)
    : Above cmp x (choose cmp false true left right) :=
  choose_of_or (fun le above => above.of_isLE le) either

end Bound

/-- A set of values given by two endpoints, or nothing, or everything. -/
inductive Interval (α : Type*) where
  | empty
  | all
  | range (lower upper : Bound α)
deriving DecidableEq

namespace Interval

def Forall {α : Type*} (holds : α → Prop) : Interval α → Prop
  | range lower upper => lower.Forall holds ∧ upper.Forall holds
  | _ => True

variable {α : Type*} (cmp : α → α → Ordering)

def Contains (x : α) : Interval α → Prop
  | empty => False
  | all => True
  | range lower upper => lower.Below cmp x ∧ upper.Above cmp x

/-- No value fits between these endpoints. -/
def crossed (lower upper : Bound α) : Bool :=
  match lower.value?, upper.value? with
  | some l, some u => cmp l u == .gt || (cmp l u == .eq && (lower.isExcluded || upper.isExcluded))
  | _, _ => false

/-- The interval of two endpoints, in the shape that shows when it is trivial. -/
def ofBounds (lower upper : Bound α) : Interval α :=
  match lower, upper with
  | .unbounded, .unbounded => all
  | lower, upper => if crossed cmp lower upper then empty else range lower upper

def combine (intersection : Bool) : Interval α → Interval α → Interval α
  | empty, right => if intersection then empty else right
  | left, empty => if intersection then empty else left
  | all, right => if intersection then right else all
  | left, all => if intersection then left else all
  | range l1 u1, range l2 u2 =>
    ofBounds cmp (.choose cmp true intersection l1 l2) (.choose cmp false (!intersection) u1 u2)

variable {cmp} {x : α}

variable {holds : α → Prop} {lower upper : Bound α} {left right : Interval α}

theorem Forall.ofBounds (inLower : lower.Forall holds) (inUpper : upper.Forall holds)
    : (ofBounds cmp lower upper).Forall holds := by
  unfold Interval.ofBounds
  split
  · trivial
  · split
    · trivial
    · exact ⟨inLower, inUpper⟩

theorem Forall.combine (inLeft : left.Forall holds) (inRight : right.Forall holds)
    (intersection)
    : (combine cmp intersection left right).Forall holds := by
  cases left with
  | empty => cases intersection <;> trivial
  | all => cases right <;> cases intersection <;> trivial
  | range l1 u1 =>
    cases right with
    | empty | all => cases intersection <;> trivial
    | range l2 u2 =>
      exact .ofBounds (Bound.choose_of cmp inLeft.1 inRight.1 _ _)
        (Bound.choose_of cmp inLeft.2 inRight.2 _ _)

variable [TransCmp cmp]

theorem not_crossed (below : lower.Below cmp x) (above : upper.Above cmp x)
    : crossed cmp lower upper = false := by
  cases lower with
  | unbounded => rfl
  | included l =>
    cases upper with
    | unbounded => rfl
    | included u =>
      have le : (cmp l u).isLE = true := TransCmp.isLE_trans below above
      cases comparison : cmp l u <;>
        simp_all [crossed, Bound.value?, Bound.isExcluded]
    | excluded u =>
      have less : cmp l u = .lt := TransCmp.lt_of_isLE_of_lt below above
      simp [crossed, Bound.value?, less]
  | excluded l =>
    cases upper with
    | unbounded => rfl
    | included u =>
      have less : cmp l u = .lt := TransCmp.lt_of_lt_of_isLE below above
      simp [crossed, Bound.value?, less]
    | excluded u =>
      have less : cmp l u = .lt := TransCmp.lt_trans below above
      simp [crossed, Bound.value?, less]

theorem contains_ofBounds (below : lower.Below cmp x) (above : upper.Above cmp x)
    : (ofBounds cmp lower upper).Contains cmp x := by
  unfold ofBounds
  split
  · trivial
  · rw [not_crossed below above]
    exact ⟨below, above⟩

/-- An intersection keeps every common value. -/
theorem Contains.inter (inLeft : left.Contains cmp x) (inRight : right.Contains cmp x)
    : (combine cmp true left right).Contains cmp x := by
  cases left with
  | empty => exact inLeft.elim
  | all => cases right <;> exact inRight
  | range l1 u1 =>
    cases right with
    | empty => exact inRight.elim
    | all => exact inLeft
    | range l2 u2 =>
      exact contains_ofBounds (Bound.choose_of cmp inLeft.1 inRight.1 _ _)
        (Bound.choose_of cmp inLeft.2 inRight.2 _ _)

/-- A hull keeps every value of either side. -/
theorem Contains.union (either : left.Contains cmp x ∨ right.Contains cmp x)
    : (combine cmp false left right).Contains cmp x := by
  cases left with
  | empty => exact either.resolve_left id
  | all => cases right <;> trivial
  | range l1 u1 =>
    cases right with
    | empty => exact either.resolve_right id
    | all => trivial
    | range l2 u2 =>
      exact contains_ofBounds (.choose (either.imp And.left And.left))
        (.choose (either.imp And.right And.right))

end Interval

end Vgi.Lib
