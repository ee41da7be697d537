import Mathlib.Algebra.Group.Int.Defs
import Vgi.Arrow.DataType

/-! Addition of two columns, and doubling of one, in a common type that is chosen from the types of
the inputs. Columns of integers are their values, NULL where there is none.
-/

namespace Vgi.Numeric

open Arrow Lib List

/-- The bits of an integer type, and whether it is signed. -/
def intInfo : DataType → Option (Nat × Bool)
  | .flat .int8 => some (8, true)
  | .flat .int16 => some (16, true)
  | .flat .int32 => some (32, true)
  | .flat .int64 => some (64, true)
  | .flat .uint8 => some (8, false)
  | .flat .uint16 => some (16, false)
  | .flat .uint32 => some (32, false)
  | .flat .uint64 => some (64, false)
  | _ => none

def promoteForAddition : DataType → DataType
  | .flat .float16 | .flat .float32 => .flat .float64
  | .flat .int8 => .flat .int16
  | .flat .int16 => .flat .int32
  | .flat .int32 => .flat .int64
  | .flat .uint8 => .flat .uint16
  | .flat .uint16 => .flat .uint32
  | .flat .uint32 => .flat .uint64
  | .flat (.decimal128 p s) => .flat (.decimal128 (min (p + 1) 38) s)
  | other => other

def isFloat : DataType → Bool
  | .flat .float16 | .flat .float32 | .flat .float64 => true
  | _ => false

def commonNumeric (a b : DataType) : DataType :=
  if a = b then a
  else if isFloat a ∨ isFloat b then .flat .float64
  else match a, b with
    | .flat (.decimal128 pa sa), .flat (.decimal128 pb sb) =>
      .flat (.decimal128 (max pa pb) (max sa sb))
    | _, _ => match intInfo a, intInfo b with
      | some (ba, sgna), some (bb, sgnb) =>
        if sgna = sgnb then if ba ≥ bb then a else b else .flat .int64
      | _, _ => .flat .int64

def commonTypeForAddition (a b : DataType) : DataType := promoteForAddition (commonNumeric a b)

variable (type : DataType)

def fits (value : Int) : Bool :=
  match intInfo type with
  | some (bits, true) => -2 ^ (bits - 1) ≤ value ∧ value < 2 ^ (bits - 1)
  | some (bits, false) => 0 ≤ value ∧ value < 2 ^ bits
  | none => false

/-- `arrow_cast::cast`: what does not fit is NULL. -/
def cast (cell : Option Int) : Option Int := cell.filter (fits type)

/-- One row of Arrow's `add`, which is checked. -/
def add (call : String) : Option Int → Option Int → Result (Option Int)
  | some a, some b =>
    if fits type (a + b) then .ok (some (a + b))
    else .error (runtimeError s!"{call}: Arithmetic overflow: Overflow happened on: {a} + {b}")
  | _, _ => .ok none

def addCast (call : String) (row : Option Int × Option Int)
    : Result (Option Int) :=
  return cast type (← add type call (cast type row.1) (cast type row.2))

/-- Adds two columns of one batch, in the type that the call was bound with. -/
def addTwo (rows : List (Option Int × Option Int))
    : Result (List (Option Int)) :=
  rows.mapM (addCast type "add")

def doubleFirst (column : List (Option Int)) : Result (List (Option Int)) :=
  (column.map fun cell => (cell, cell)).mapM (addCast type "double add")

/-- The row's sum, NULL if an operand is. -/
def sum (row : Option Int × Option Int) : Option Int := row.1.bind fun a => row.2.map fun b => a + b

def integers : List DataType :=
  [.flat .int8, .flat .int16, .flat .int32, .flat .int64,
    .flat .uint8, .flat .uint16, .flat .uint32, .flat .uint64]

/-- An array of the type has the cell. -/
def Typed (cell : Option Int) : Prop := ∀ value ∈ cell, fits type value = true

/-- Both operands are there and fit, and their sum does not. -/
def Overflows (row : Option Int × Option Int) : Prop :=
  ∃ a b, row = (some a, some b) ∧ fits type a = true ∧ fits type b = true
    ∧ fits type (a + b) = false

/-- Both operands are there, and one of the largest unsigned type meets a signed one and is too
large for it.
-/
def Lost (a b : DataType) (row : Option Int × Option Int) : Prop :=
  ∃ x y, row = (some x, some y)
    ∧ (a = .flat .uint64 ∧ (intInfo b).any (·.2) = true ∧ 2 ^ 63 ≤ x
      ∨ b = .flat .uint64 ∧ (intInfo a).any (·.2) = true ∧ 2 ^ 63 ≤ y)

theorem addCast_eq {type call row}
    : (¬Overflows type row
        → addCast type call row = .ok (sum (cast type row.1, cast type row.2)))
      ∧ (Overflows type row → ∀ out, addCast type call row ≠ .ok out) := by
  obtain ⟨_ | x, _ | y⟩ := row
  any_goals simp [addCast, add, cast, sum, Overflows]
  by_cases one : fits type x <;> by_cases other : fits type y <;> by_cases both : fits type (x + y)
  all_goals simp [one, other, both, Option.filter]

theorem mapM_addCast {type call} {rows : List (Option Int × Option Int)} {out}
    : rows.mapM (addCast type call) = .ok out
      ↔ (∀ row ∈ rows, ¬Overflows type row)
        ∧ out = rows.map fun row => sum (cast type row.1, cast type row.2) := by
  have all (each : ∀ row ∈ rows, ¬Overflows type row) : rows.mapM (addCast type call) = _ :=
    mapM_eq_ok_map fun row there => addCast_eq.1 (each row there)
  constructor
  · intro run
    have each : ∀ row ∈ rows, ¬Overflows type row := fun row there overflows => by
      obtain ⟨_, made⟩ := mapM_ok_of_mem run there
      exact addCast_eq.2 overflows _ made
    exact ⟨each, Except.ok.inj (run.symm.trans (all each))⟩
  · rintro ⟨each, rfl⟩
    exact all each

theorem sum_cast {type row}
    : sum (cast type row.1, cast type row.2) = sum row
      ↔ ∀ x y, row = (some x, some y) → fits type x = true ∧ fits type y = true := by
  obtain ⟨_ | x, _ | y⟩ := row
  all_goals try simp [cast, sum]
  by_cases one : fits type x <;> by_cases other : fits type y
  all_goals simp [one, Option.filter]

/-- Every value fits in the common type, unless a signed column meets the largest unsigned one. -/
theorem fits_common {a b} (first : a ∈ integers) (second : b ∈ integers) {value}
    (fit : fits a value = true)
    : (fits (commonTypeForAddition a b) value = true
        ↔ (a = .flat .uint64 → (intInfo b).any (·.2) = true → value < 2 ^ 63))
      ∧ (fits (commonTypeForAddition b a) value = true
        ↔ (a = .flat .uint64 → (intInfo b).any (·.2) = true → value < 2 ^ 63)) := by
  simp only [integers, mem_cons, not_mem_nil, or_false] at first second
  rcases first with rfl | rfl | rfl | rfl | rfl | rfl | rfl | rfl <;>
  rcases second with rfl | rfl | rfl | rfl | rfl | rfl | rfl | rfl <;>
  simp [fits, intInfo, commonTypeForAddition, commonNumeric, promoteForAddition, isFloat]
    at fit ⊢ <;>
  omega

/-- The sums are exact, or the call fails, exactly if no operand is lost; doubling is always so. -/
theorem sums_exact_iff (a b : DataType) (rows : List (Option Int × Option Int))
    : (a ∈ integers → b ∈ integers → (∀ row ∈ rows, Typed a row.1 ∧ Typed b row.2) →
        ((∀ out, addTwo (commonTypeForAddition a b) rows = .ok out → out = rows.map sum)
        ↔ (∃ row ∈ rows, Overflows (commonTypeForAddition a b) row) ∨ ∀ row ∈ rows, ¬Lost a b row))
      ∧ (a ∈ integers → ∀ column, (∀ cell ∈ column, Typed a cell) →
        ∀ out, doubleFirst (promoteForAddition a) column = .ok out →
          out = column.map (·.map (2 * ·))) := by
  constructor
  · intro first second typed
    -- An overflow fails the whole call, so there is no result to be wrong.
    by_cases past : ∃ row ∈ rows, Overflows (commonTypeForAddition a b) row
    · obtain ⟨row, there, overflows⟩ := past
      refine iff_of_true ?_ (.inl ⟨row, there, overflows⟩)
      intro out run
      exact ((mapM_addCast.mp run).1 row there overflows).elim
    · have none : ∀ row ∈ rows, ¬Overflows (commonTypeForAddition a b) row :=
        fun row there overflows => past ⟨row, there, overflows⟩
      have answer {out} : addTwo (commonTypeForAddition a b) rows = .ok out ↔ out = _ :=
        mapM_addCast.trans (and_iff_right none)
      simp only [answer, forall_eq, map_inj_left, sum_cast, past, false_or]
      refine forall₂_congr fun row there => ?_
      obtain ⟨one, other⟩ := typed row there
      constructor
      · rintro fit ⟨x, y, rfl, lost⟩
        have ⟨fitx, fity⟩ := fit x y rfl
        rw [(fits_common first second (one x rfl)).1] at fitx
        rw [(fits_common second first (other y rfl)).2] at fity
        rcases lost with ⟨unsigned, signed, large⟩ | ⟨unsigned, signed, large⟩
        · exact absurd (fitx unsigned signed) (Int.not_lt.mpr large)
        · exact absurd (fity unsigned signed) (Int.not_lt.mpr large)
      · rintro kept x y rfl
        rw [(fits_common first second (one x rfl)).1, (fits_common second first (other y rfl)).2]
        refine ⟨fun unsigned signed => ?_, fun unsigned signed => ?_⟩ <;> by_contra large
        · exact kept ⟨x, y, rfl, .inl ⟨unsigned, signed, Int.not_lt.mp large⟩⟩
        · exact kept ⟨x, y, rfl, .inr ⟨unsigned, signed, Int.not_lt.mp large⟩⟩
  · intro int column typed out run
    have same : commonTypeForAddition a a = promoteForAddition a := by
      simp [commonTypeForAddition, commonNumeric]
    rw [(mapM_addCast.mp run).2, map_map]
    refine map_congr_left fun cell there => ?_
    have fit : ∀ value ∈ cell, fits (promoteForAddition a) value = true := by
      intro value here
      rw [← same, (fits_common int int (typed cell there value here)).1]
      rintro rfl signed
      cases signed
    cases cell with
    | none => rfl
    | some value => simp [sum, cast, Option.filter, fit value rfl, Int.two_mul]

/-- The largest unsigned value and one are no sum, but NULL. -/
theorem sum_turns_null
    : addTwo (commonTypeForAddition (.flat .uint64) (.flat .int8)) [(some (2 ^ 64 - 1), some 1)]
      = .ok [none] := by
  decide

end Vgi.Numeric
