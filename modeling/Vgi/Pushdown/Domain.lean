import Vgi.Lib.Interval
import Vgi.Pushdown.Pruning

/-! The domain of one column: a conservative set of the values it can have in a row that
satisfies the filters, as an interval of non-NULL values and a separate flag for NULL.
-/

namespace Vgi.Pushdown

open Arrow Lib

/-- A conservative set of non-NULL values; endpoints are one-element arrays. -/
abbrev NonNullDomain := Interval ArrayRef

structure ColumnDomain where
  dataType : DataType
  nonNull : NonNullDomain
  mayBeNull : Bool

def valueAt (values : BooleanArray) (index : Nat) : Bool := ((values[index]?).getD none).getD false

section

variable (kernels : Kernels)

def scalarOrder (left right : ArrayRef) : Result Ordering := do
  let equal ← compareArrays kernels left right .eq
  if valueAt equal 0 then pure .eq
  else
    let less ← compareArrays kernels left right .lt
    pure (if valueAt less 0 then .lt else .gt)

def boundOrder (left right : Bound ArrayRef) (lower : Bool) : Result Ordering :=
  match left.value?, right.value? with
  | none, none => pure .eq
  | none, some _ => pure (if lower then .lt else .gt)
  | some _, none => pure (if lower then .gt else .lt)
  | some l, some r => do
    let order ← scalarOrder kernels l r
    let excluded := compare left.isExcluded right.isExcluded
    pure (order.then (if lower then excluded else excluded.swap))

def chooseBound (left right : Bound ArrayRef) (lower maximum : Bool)
    : Result (Bound ArrayRef) := do
  let order ← boundOrder kernels left right lower
  pure (if (order == .gt) == maximum then left else right)

def rangeOf (lower upper : Bound ArrayRef) : Result NonNullDomain :=
  match lower.value?, upper.value? with
  | none, none => pure .all
  | some l, some u => do
    let order ← scalarOrder kernels l u
    pure (if order == .gt || (order == .eq && (lower.isExcluded || upper.isExcluded)) then
        .empty
      else .range lower upper)
  | _, _ => pure (.range lower upper)

def combineNonNull (intersection : Bool) : NonNullDomain → NonNullDomain → Result NonNullDomain
  | .empty, right => pure (if intersection then .empty else right)
  | left, .empty => pure (if intersection then .empty else left)
  | .all, right => pure (if intersection then right else .all)
  | left, .all => pure (if intersection then left else .all)
  | .range l1 u1, .range l2 u2 => do
    let lower ← chooseBound kernels l1 l2 true intersection
    let upper ← chooseBound kernels u1 u2 false !intersection
    rangeOf kernels lower upper

namespace ColumnDomain

variable (domain : ColumnDomain)

/-- No row can match if any column has an empty domain. -/
def isEmpty : Bool :=
  (match domain.nonNull with
    | .empty => true
    | _ => false) && !domain.mayBeNull

def boundMask (values : ArrayRef) (bound : Bound ArrayRef) (inclusive exclusive : CompareOp)
    : Result BooleanArray :=
  match bound with
  | .unbounded => .ok (allTrue values.len)
  | .included value => compareArrays kernels values value inclusive
  | .excluded value => compareArrays kernels values value exclusive

def nonNullMask (values : ArrayRef) : Result BooleanArray :=
  match domain.nonNull with
  | .empty => .ok (allFalse values.len)
  | .all => .ok (allTrue values.len)
  | .range lower upper => do
    let above ← boundMask kernels values lower .ge .gt
    let below ← boundMask kernels values upper .le .lt
    (andKleene above below).mapError cvt

def mayContain (values : ArrayRef) : Result BooleanArray := do
  let values ← dictionaryValues kernels values
  rejectIf (values.dataType ≠ domain.dataType)
    (valueError "candidate type differs from column domain")
  let nonNull ← domain.nonNullMask kernels values
  pure (values.cells.zipIdx.map fun (cell, index) =>
    some (if cell.isLogicalNull values.dataType then domain.mayBeNull
      else valueAt nonNull index))

def empty (domain : ColumnDomain) : ColumnDomain :=
  { domain with nonNull := .empty, mayBeNull := false }

def onlyNull : ColumnDomain := { domain with nonNull := .empty }

def withoutNull : ColumnDomain := { domain with mayBeNull := false }

def range (domain : ColumnDomain) (lower upper : Bound ArrayRef) : ColumnDomain :=
  { domain with nonNull := .range lower upper, mayBeNull := false }

def combine (other : ColumnDomain) (intersection : Bool) : Result ColumnDomain := do
  let nonNull ← combineNonNull kernels intersection domain.nonNull other.nonNull
  pure
    { dataType := domain.dataType
      nonNull
      mayBeNull :=
        if intersection then domain.mayBeNull && other.mayBeNull
        else domain.mayBeNull || other.mayBeNull }

end ColumnDomain

/-- The values of the column for each outcome of a predicate. -/
abbrev Domains := Outcome → ColumnDomain

/-- Nothing is known of the column. -/
def anyDomains (whole : ColumnDomain) : Domains := fun _ => whole

/-- The outcome does not depend on the column; without one, no outcome is possible. -/
def constantDomains (outcome : Option Outcome) (whole : ColumnDomain) : Domains :=
  fun index => if some index = outcome then whole else whole.empty

def swapDomains (result : Domains) : Domains := fun outcome => result (Kleene.not outcome)

/-- One pair of outcomes adds its common values to the domain of its truth. -/
def combinePair (left right : Domains) (and : Bool) (result : Domains)
    (pair : Outcome × Outcome) : Result Domains := do
  let common ← (left pair.1).combine kernels (right pair.2) true
  let outcome := truth pair.1 pair.2 and
  let merged ← (result outcome).combine kernels common false
  pure (Function.update result outcome merged)

def combineDomains (left right : Domains) (and : Bool) (whole : ColumnDomain)
    : Result Domains :=
  (outcomes ×ˢ outcomes).foldlM (combinePair kernels left right and) (constantDomains none whole)

def target (expression : Expr) (column : String) : Bool :=
  match expression with
  | .column _ name _ => name = column
  | _ => false

/-- The operator with its operands exchanged. -/
def reversed : CompareOp → CompareOp
  | .lt => .gt
  | .le => .ge
  | .gt => .lt
  | .ge => .le
  | other => other

variable (op : CompareOp)

/-- The domains for a comparison of the column with a non-NULL value. -/
def pointDomains (scalar : ArrayRef) (whole : ColumnDomain) : Domains :=
  let point := whole.range (.included scalar) (.included scalar)
  let lower := fun included : Bool =>
    whole.range (if included then .included scalar else .excluded scalar) .unbounded
  let upper := fun included : Bool =>
    whole.range .unbounded (if included then .included scalar else .excluded scalar)
  let (yes, no) := match op with
    | .eq | .notDistinctFrom => (point, whole.withoutNull)
    | .ne | .distinctFrom => (whole.withoutNull, point)
    | .lt => (upper false, lower true)
    | .le => (upper true, lower false)
    | .gt => (lower false, upper true)
    | .ge => (lower true, upper false)
  -- a NULL column decides the null-safe operators and makes the others NULL
  match op with
  | .distinctFrom => fun
      | some true => { yes with mayBeNull := whole.mayBeNull }
      | some false => no
      | none => whole.empty
  | .notDistinctFrom => fun
      | some true => yes
      | some false => { no with mayBeNull := whole.mayBeNull }
      | none => whole.empty
  | _ => fun
      | some true => yes
      | some false => no
      | none => whole.onlyNull

/-- The domains for a comparison of the column with NULL. -/
def nullDomains (whole : ColumnDomain) : Domains :=
  match op with
  | .distinctFrom => fun
      | some true => whole.withoutNull
      | some false => whole.onlyNull
      | none => whole.empty
  | .notDistinctFrom => fun
      | some true => whole.onlyNull
      | some false => whole.withoutNull
      | none => whole.empty
  | _ => constantDomains (some none) whole

def comparisonDomains (value : ArrayRef) (whole : ColumnDomain)
    : Result Domains := do
  let value ← dictionaryValues kernels value
  if value.len ≠ 1 ∨ value.dataType ≠ whole.dataType ∨ ¬ordered value.dataType then
    pure (anyDomains whole)
  else if value.isNull 0 then
    pure (nullDomains op whole)
  else
    pure (pointDomains op value whole)

def literalDomains (other : Expr) (whole : ColumnDomain)
    : Result Domains :=
  match other with
  | .literal value => comparisonDomains kernels op value whole
  | _ => pure (anyDomains whole)

def nullTestDomains (negated : Bool) (whole : ColumnDomain) : Domains :=
  let result : Domains := fun
    | some true => whole.onlyNull
    | some false => whole.withoutNull
    | none => whole.empty
  if negated then swapDomains result else result

def inDomains (values : ArrayRef) (negated : Bool) (whole : ColumnDomain)
    : Result Domains := do
  let result ← (List.range values.len).foldlM
    (fun result index => do
      let equal ← comparisonDomains kernels .eq (values.slice index 1) whole
      combineDomains kernels result equal false whole)
    (constantDomains (some (some false)) whole)
  pure (if negated then swapDomains result else result)

/-- The connectives combine their children's domains one after the other. -/
def foldDomains (children : List (Result Domains)) (and : Bool) (whole : ColumnDomain)
    : Result Domains :=
  children.foldlM
    (fun result child => do
      let domains ← child
      combineDomains kernels result domains and whole)
    (constantDomains (some (some and)) whole)

mutual

def domains (kernels : Kernels) (column : String) (whole : ColumnDomain)
    : Expr → Result Domains
  | .and children => foldDomains kernels (allDomains kernels column whole children) true whole
  | .or children => foldDomains kernels (allDomains kernels column whole children) false whole
  | .not child => (domains kernels column whole child).map swapDomains
  | .comparison op left right =>
    if target left column then literalDomains kernels op right whole
    else if target right column then literalDomains kernels (reversed op) left whole
    else pure (anyDomains whole)
  | .isNull expression negated =>
    if target expression column then pure (nullTestDomains negated whole)
    else pure (anyDomains whole)
  | .inSet expression values negated =>
    if target expression column then inDomains kernels values negated whole
    else pure (anyDomains whole)
  | .column _ name _ =>
    if name = column ∧ whole.dataType = .boolean then
      comparisonDomains kernels .eq (.ofBool [some true]) whole
    else pure (anyDomains whole)
  | .literal value =>
    if value.dataType = .boolean ∧ value.len = 1 then
      pure (constantDomains (some (Cell.toBool ((value.cells[0]?).getD .null))) whole)
    else pure (anyDomains whole)
  | _ => pure (anyDomains whole)

def allDomains (kernels : Kernels) (column : String) (whole : ColumnDomain)
    : List Expr → List (Result Domains)
  | [] => []
  | child :: rest => domains kernels column whole child :: allDomains kernels column whole rest

end

/-- Arrays of these types can have NULL values without a physical null bit, even under a
nonnullable field.
-/
def encodesNull : DataType → Bool
  | .null => true
  | .dictionary .. => true
  | .union .. => true
  | .runEndEncoded .. => true
  | _ => false

/-- All values the field admits. -/
def universeOf (field : Field) : ColumnDomain where
  dataType := field.dataType.logicalValueType
  nonNull := if field.dataType = .null then .empty else .all
  mayBeNull := field.isNullable || encodesNull field.dataType

/-- One predicate's turn: its TRUE domain restricts the result unless it is an unsupported
advisory predicate or has no domains.
-/
def restrictDomain (column : String) (whole result : ColumnDomain) (predicate : Predicate)
    : Result ColumnDomain :=
  if predicate.mode = .advisory ∧ ¬supported predicate.expression then .ok result
  else
    match domains kernels column whole predicate.expression with
    | .ok domains => result.combine kernels (domains (some true)) true
    | .error _ => .ok result

def PushdownFilters.columnDomain (filters : PushdownFilters) (column : String)
    : Result ColumnDomain := do
  let field ← filters.pruningField column
  filters.predicates.foldlM (restrictDomain kernels column (universeOf field)) (universeOf field)

end

@[simp] theorem allDomains_eq_map (kernels column whole children)
    : allDomains kernels column whole children = children.map (domains kernels column whole) := by
  induction children with
  | nil => simp [allDomains]
  | cons child rest ih => simp [allDomains, ih]

end Vgi.Pushdown
