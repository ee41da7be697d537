import Vgi.Pushdown.Domain
import Vgi.Pushdown.RowEval

/-! Combining column domains. The fallible combinations of the source agree with the interval
library on scalar endpoints, and the triples of domains cover the outcomes of comparisons and
connectives.
-/

namespace Vgi.Pushdown

open Arrow Lib CompareOp ColumnDomain Function List

section

variable {kernels : Kernels} {order : FlatType → Cell → Cell → Ordering}

/-- The order of one-element arrays of a type; types without a SQL order have one class. -/
def scalarCmp (order : FlatType → Cell → Cell → Ordering) (type : DataType)
    (left right : ArrayRef) : Ordering :=
  match type with
  | .flat flat =>
    if flat.ordered then
      valueOrder order flat ((left.cells[0]?).getD .null) ((right.cells[0]?).getD .null)
    else .eq
  | _ => .eq

variable (lawful : kernels.Lawful order)

include lawful

theorem scalarCmp_trans (type) : Std.TransCmp (scalarCmp order type) := by
  have flat : ∀ (f : ArrayRef → Cell) (cmp), Std.TransCmp cmp
      → Std.TransCmp fun left right => cmp (f left) (f right) :=
    fun f cmp total => { eq_swap := total.eq_swap, isLE_trans := total.isLE_trans }
  have constant : Std.TransCmp fun _ _ : ArrayRef => Ordering.eq :=
    { eq_swap := rfl, isLE_trans := fun _ _ => rfl }
  cases type with
  | flat type =>
    by_cases orders : type.ordered = true
    · have same : scalarCmp order (.flat type) = fun left right =>
          valueOrder order type ((left.cells[0]?).getD .null) ((right.cells[0]?).getD .null) := by
        funext left right
        simp [scalarCmp, orders]
      rw [same]
      exact flat _ _ (valueOrder_trans lawful orders)
    · have same : scalarCmp order (.flat type) = fun _ _ => .eq := by
        funext left right
        simp [scalarCmp, orders]
      rw [same]
      exact constant
  | _ => exact constant

/-- A one-element array of this ordered type that is not NULL. -/
def IsScalar (type : DataType) (array : ArrayRef) : Prop :=
  ∃ flat cell, type = .flat flat ∧ flat.ordered = true ∧ array = ⟨.flat flat, [cell]⟩
    ∧ cell.isNull = false

omit lawful in
/-- Comparing two non-NULL values reads their order. -/
theorem compareCells_of_values {cmp op left right}
    (leftValue : left.isNull = false) (rightValue : right.isNull = false)
    : compareCells cmp op left right = some (op.holds (cmp left right)) := by
  cases op <;> simp [compareCells, withNulls, leftValue, rightValue]

variable {type : DataType}

theorem scalarOrder_eq {left right} (isLeft : IsScalar type left) (isRight : IsScalar type right)
    : scalarOrder kernels left right = .ok (scalarCmp order type left right) := by
  obtain ⟨flat, l, rfl, orders, rfl, leftValue⟩ := isLeft
  obtain ⟨_, r, same, _, rfl, rightValue⟩ := isRight
  cases same
  have compared : ∀ op, compareArrays kernels ⟨.flat flat, [l]⟩ ⟨.flat flat, [r]⟩ op
      = .ok [some (op.holds (valueOrder order flat l r))] := by
    intro op
    rw [compareArrays_singleton lawful orders rfl rfl, Cell.unpack_flat, Cell.unpack_flat,
      compareCells_of_values leftValue rightValue]
  cases comparison : valueOrder order flat l r <;>
    simp [scalarOrder, compared, comparison, holds, valueAt, scalarCmp, orders]

variable {right left : Bound ArrayRef}

theorem boundOrder_eq (isLeft : left.Forall (IsScalar type))
    (isRight : right.Forall (IsScalar type)) (lower)
    : boundOrder kernels left right lower
      = .ok (Bound.order (scalarCmp order type) lower left right) := by
  unfold boundOrder Bound.order
  cases l : left.value? with
  | none => cases right.value? <;> rfl
  | some leftValue =>
    cases r : right.value? with
    | none => rfl
    | some rightValue =>
      simp only [scalarOrder_eq lawful (isLeft leftValue l) (isRight rightValue r)]
      rfl

theorem chooseBound_eq (isLeft : left.Forall (IsScalar type))
    (isRight : right.Forall (IsScalar type)) (lower maximum)
    : chooseBound kernels left right lower maximum
      = .ok (Bound.choose (scalarCmp order type) lower maximum left right) := by
  rw [chooseBound, boundOrder_eq lawful isLeft isRight, ok_bind]
  rfl

theorem rangeOf_eq {lower upper} (isLower : lower.Forall (IsScalar type))
    (isUpper : upper.Forall (IsScalar type))
    : rangeOf kernels lower upper = .ok (Interval.ofBounds (scalarCmp order type) lower upper) := by
  have both : ∀ l u, lower.value? = some l → upper.value? = some u
      → scalarOrder kernels l u = .ok (scalarCmp order type l u) := by
    intro l u atLower atUpper
    exact scalarOrder_eq lawful (isLower l atLower) (isUpper u atUpper)
  cases lower <;> cases upper <;>
    simp_all [rangeOf, Interval.ofBounds, Interval.crossed, Bound.value?]

/-- On valid endpoints the fallible combination is the interval combination. -/
theorem combineNonNull_eq {left right} (isLeft : left.Forall (IsScalar type))
    (isRight : right.Forall (IsScalar type)) (intersection)
    : combineNonNull kernels intersection left right
      = .ok (Interval.combine (scalarCmp order type) intersection left right) := by
  cases left with
  | empty | all => cases right <;> rfl
  | range l1 u1 =>
    cases right with
    | empty => rfl
    | all => rfl
    | range l2 u2 =>
      have lower := chooseBound_eq lawful isLeft.1 isRight.1 true intersection
      have upper := chooseBound_eq lawful isLeft.2 isRight.2 false !intersection
      simp only [combineNonNull, lower, upper]
      exact rangeOf_eq lawful (Bound.choose_of _ isLeft.1 isRight.1 _ _)
        (Bound.choose_of _ isLeft.2 isRight.2 _ _)

/-- The domain is one of columns of this logical type, with scalar endpoints. -/
structure ColumnDomain.Valid (type : DataType) (domain : ColumnDomain) : Prop where
  typed : domain.dataType = type
  endpoints : domain.nonNull.Forall (IsScalar type)

/-- The domain has this value of the logical type. -/
def ColumnDomain.Admits (order : FlatType → Cell → Cell → Ordering) (type : DataType)
    (cell : Cell) (domain : ColumnDomain) : Prop :=
  if cell.isLogicalNull type then domain.mayBeNull = true
  else domain.nonNull.Contains (scalarCmp order type) ⟨type, [cell]⟩

variable {left right : ColumnDomain} {result : Domains} {can canLeft canRight : Outcome → Prop}
  (validLeft : left.Valid type)

include validLeft

/-- Combining valid domains succeeds; what an intersection or a union of them admits is said
below.
-/
theorem ColumnDomain.combine_eq (validRight : right.Valid type) (intersection)
    : left.combine kernels right intersection = .ok
      { dataType := left.dataType
        nonNull := .combine (scalarCmp order type) intersection left.nonNull right.nonNull
        mayBeNull :=
          if intersection then left.mayBeNull && right.mayBeNull
          else left.mayBeNull || right.mayBeNull } := by
  simp only [combine,
    combineNonNull_eq lawful validLeft.endpoints validRight.endpoints intersection]
  rfl

theorem ColumnDomain.combined (validRight : right.Valid type) (intersection)
    : ∃ result, left.combine kernels right intersection = .ok result ∧ result.Valid type
      ∧ ∀ cell, (if intersection then left.Admits order type cell ∧ right.Admits order type cell
          else left.Admits order type cell ∨ right.Admits order type cell)
        → result.Admits order type cell := by
  have total := scalarCmp_trans lawful type
  refine ⟨_, combine_eq lawful validLeft validRight intersection,
    ⟨validLeft.typed, .combine validLeft.endpoints validRight.endpoints intersection⟩, ?_⟩
  intro cell
  unfold ColumnDomain.Admits
  cases cell.isLogicalNull type with
  | false =>
    cases intersection with
    | true => exact fun both => Interval.Contains.inter both.1 both.2
    | false => exact fun either => Interval.Contains.union either
  | true => cases intersection <;> simp_all

/-- Every outcome's domain is valid and admits the value wherever the outcome is possible. -/
structure Covers (order : FlatType → Cell → Cell → Ordering) (type : DataType) (cell : Cell)
    (result : Domains) (can : Outcome → Prop) : Prop where
  valid : ∀ outcome, (result outcome).Valid type
  admits : ∀ outcome, can outcome → (result outcome).Admits order type cell

variable {cell : Cell}

omit validLeft

omit lawful in
theorem Covers.mono {could : Outcome → Prop}
    (covers : Covers order type cell result can) (fewer : ∀ outcome, could outcome → can outcome)
    : Covers order type cell result could :=
  ⟨covers.valid, fun outcome possible => covers.admits outcome (fewer outcome possible)⟩

omit lawful in
theorem Covers.swap (covers : Covers order type cell result can)
    : Covers order type cell (swapDomains result) fun outcome => can (Kleene.not outcome) :=
  ⟨fun _ => covers.valid _, fun _ possible => covers.admits _ possible⟩

variable {right start left : Domains} (coversRight : Covers order type cell right canRight)

include coversRight

variable (coversLeft : Covers order type cell left canLeft)

include coversLeft

/-- The loop over pairs succeeds, keeps what was admitted and adds every pair's common value,
by induction on the pairs.
-/
theorem combinePairs_covers (and) (pairs : List (Outcome × Outcome))
    (covers : Covers order type cell start can)
    : ∃ result, pairs.foldlM (combinePair kernels left right and) start = .ok result
      ∧ Covers order type cell result fun outcome => can outcome
        ∨ ∃ pair ∈ pairs, canLeft pair.1 ∧ canRight pair.2 ∧ truth pair.1 pair.2 and = outcome := by
  induction pairs generalizing start can with
  | nil => exact ⟨start, rfl, covers.mono fun outcome possible => by simpa using possible⟩
  | cons pair rest ih =>
    obtain ⟨common, intersected, commonValid, commonAdmits⟩ :=
      combined lawful (coversLeft.valid pair.1) (coversRight.valid pair.2) true
    obtain ⟨merged, united, mergedValid, mergedAdmits⟩ :=
      combined lawful (covers.valid (truth pair.1 pair.2 and)) commonValid false
    have next : Covers order type cell
        (update start (truth pair.1 pair.2 and) merged) fun outcome =>
          can outcome ∨ canLeft pair.1 ∧ canRight pair.2 ∧ truth pair.1 pair.2 and = outcome := by
      constructor
      · intro outcome
        by_cases same : outcome = truth pair.1 pair.2 and
        · rw [same, update_self]
          exact mergedValid
        · rw [update_of_ne same]
          exact covers.valid outcome
      · intro outcome possible
        by_cases same : outcome = truth pair.1 pair.2 and
        · subst same
          rw [update_self]
          apply mergedAdmits
          rcases possible with before | ⟨inLeft, inRight, _⟩
          · exact .inl (covers.admits _ before)
          · exact .inr (commonAdmits cell
              ⟨coversLeft.admits _ inLeft, coversRight.admits _ inRight⟩)
        · rw [update_of_ne same]
          rcases possible with before | ⟨_, _, here⟩
          · exact covers.admits outcome before
          · exact absurd here.symm same
    obtain ⟨result, run, final⟩ := ih next
    refine ⟨result, ?_, final.mono ?_⟩
    · simp only [foldlM_cons, combinePair, intersected, united, ok_bind]
      exact run
    · intro outcome possible
      simpa [or_assoc] using possible

theorem combineDomains_covers (and) {whole} (valid : whole.Valid type)
    : ∃ result, combineDomains kernels left right and whole = .ok result
      ∧ Covers order type cell result fun outcome =>
        ∃ l r, canLeft l ∧ canRight r ∧ truth l r and = outcome := by
  have nothing : Covers order type cell (constantDomains none whole) fun _ => False := by
    refine ⟨fun outcome => ?_, fun _ impossible => impossible.elim⟩
    exact ⟨valid.typed, trivial⟩
  obtain ⟨result, run, covers⟩ :=
    combinePairs_covers lawful coversRight coversLeft and (outcomes ×ˢ outcomes) nothing
  refine ⟨result, run, covers.mono ?_⟩
  rintro outcome ⟨l, r, possible⟩
  exact .inr ⟨(l, r), mem_product.mpr ⟨mem_outcomes l, mem_outcomes r⟩, possible⟩

omit coversRight coversLeft

section

variable {literal : Cell} {whole : ColumnDomain} {flat : FlatType} (orders : flat.ordered = true)

include orders

omit lawful in
theorem isLogicalNull_of_ordered (cell : Cell) : cell.isLogicalNull (.flat flat) = cell.isNull := by
  cases flat <;> first | rfl | cases orders

omit lawful in
/-- A comparison with NULL, by the column's own NULL. -/
theorem nullDomains_covers (valid : whole.Valid (.flat flat))
    (inWhole : whole.Admits order (.flat flat) cell) (missing : literal.isNull = true) (op)
    : Covers order (.flat flat) cell (nullDomains op whole) fun outcome =>
      outcome = compareCells (valueOrder order flat) op cell literal := by
  have nullable := isLogicalNull_of_ordered orders cell
  constructor
  · intro outcome
    cases op <;> rcases outcome with _ | _ | _ <;>
      first | exact ⟨valid.typed, valid.endpoints⟩ | exact ⟨valid.typed, trivial⟩
  · rintro outcome rfl
    cases absent : cell.isNull <;> cases op <;>
      simp_all [nullDomains, constantDomains, compareCells, withNulls,
        ColumnDomain.Admits, onlyNull, withoutNull]

theorem pointDomains_covers (valid : whole.Valid (.flat flat))
    (inWhole : whole.Admits order (.flat flat) cell) (present : literal.isNull = false) (op)
    : Covers order (.flat flat) cell (pointDomains op ⟨.flat flat, [literal]⟩ whole) fun outcome =>
      outcome = compareCells (valueOrder order flat) op cell literal := by
  have nullable := isLogicalNull_of_ordered orders cell
  have total := valueOrder_trans lawful orders
  have swapped : valueOrder order flat literal cell
      = (valueOrder order flat cell literal).swap := Std.OrientedCmp.eq_swap
  constructor
  · intro outcome
    have scalar : IsScalar (.flat flat) ⟨.flat flat, [literal]⟩ :=
      ⟨flat, literal, rfl, orders, rfl, present⟩
    cases op <;> rcases outcome with _ | _ | _ <;>
      first
      | exact ⟨valid.typed, valid.endpoints⟩
      | exact ⟨valid.typed, trivial⟩
      | exact ⟨valid.typed, by simp [Interval.Forall, Bound.Forall, Bound.value?, pointDomains,
          ColumnDomain.range, scalar]⟩
  · rintro outcome rfl
    cases absent : cell.isNull <;> cases comparison : valueOrder order flat cell literal <;>
      cases op <;>
      simp_all [pointDomains, compareCells, CompareOp.withNulls, CompareOp.holds,
        ColumnDomain.Admits, ColumnDomain.onlyNull, ColumnDomain.withoutNull,
        ColumnDomain.range, Interval.Contains, Bound.Below, Bound.Above, scalarCmp]

/-- The outcome of comparing the column's value with a literal, where the literal is an ordered
scalar of the column's logical type.
-/
def ComparedWith (order : FlatType → Cell → Cell → Ordering) (type : DataType) (cell : Cell)
    (op : CompareOp) (value : ArrayRef) (outcome : Outcome) : Prop :=
  ∀ flat literal, type = .flat flat → flat.ordered = true
    → value.unpacked = ⟨.flat flat, [literal]⟩
    → outcome = compareCells (valueOrder order flat) op cell literal

variable (valid : whole.Valid type) (inWhole : whole.Admits order type cell)

include valid inWhole

omit orders

omit lawful in
theorem anyDomains_covers : Covers order type cell (anyDomains whole) fun _ => True :=
  ⟨fun _ => valid, fun _ _ => inWhole⟩

omit lawful in
theorem constantDomains_covers (constant)
    : Covers order type cell (constantDomains (some constant) whole) fun outcome =>
      outcome = constant := by
  constructor
  · intro outcome
    unfold constantDomains
    split
    · exact valid
    · exact ⟨valid.typed, trivial⟩
  · rintro outcome rfl
    simpa [constantDomains] using inWhole

omit lawful in
theorem nullTestDomains_covers (negated : Bool)
    : Covers order type cell (nullTestDomains negated whole) fun outcome =>
      outcome = some (negated ^^ cell.isLogicalNull type) := by
  have positive : Covers order type cell (nullTestDomains false whole) fun outcome =>
      outcome = some (cell.isLogicalNull type) := by
    constructor
    · intro outcome
      rcases outcome with _ | _ | _
      · exact ⟨valid.typed, trivial⟩
      · exact ⟨valid.typed, valid.endpoints⟩
      · exact ⟨valid.typed, trivial⟩
    · rintro outcome rfl
      cases missing : cell.isLogicalNull type <;>
        simpa [nullTestDomains, ColumnDomain.Admits, missing, onlyNull, withoutNull] using inWhole
  cases negated with
  | false => simpa using positive
  | true =>
    refine positive.swap.mono ?_
    rintro outcome rfl
    simp [Kleene.not]

theorem comparisonDomains_covers (op value)
    : ∃ result, comparisonDomains kernels op value whole = .ok result
      ∧ Covers order type cell result (ComparedWith order type cell op value) := by
  unfold comparisonDomains
  rw [dictionaryValues_eq lawful, ok_bind]
  split
  next => exact ⟨_, rfl, (anyDomains_covers valid inWhole).mono fun _ _ => trivial⟩
  next scalar =>
    push Not at scalar
    obtain ⟨single, sameType, orders⟩ := scalar
    rw [valid.typed] at sameType
    obtain ⟨flat, logical, total⟩ := logicalValueType_of_ordered orders
    have idem : value.unpacked.dataType.logicalValueType = value.unpacked.dataType :=
      value.dataType.logicalValueType_idem
    rw [idem, sameType] at logical
    subst logical
    have whole_ := ArrayRef.eq_singleton single
    rw [sameType] at whole_
    generalize literal_ : (value.unpacked.cells[0]?).getD .null = literal at whole_
    have fewer : ∀ outcome, ComparedWith order (.flat flat) cell op value outcome
        → outcome = compareCells (valueOrder order flat) op cell literal :=
      fun outcome compared => compared flat literal rfl total whole_
    rw [whole_]
    split
    next missing =>
      exact ⟨_, rfl, (nullDomains_covers total valid inWhole missing op).mono fewer⟩
    next present =>
      have present : literal.isNull = false := by simpa [ArrayRef.isNull] using present
      exact ⟨_, rfl, (pointDomains_covers lawful total valid inWhole present op).mono fewer⟩

omit inWhole in
/-- A loop that combines the domains of its items covers the folds of their outcomes, by
induction on the items with the outcomes so far.
-/
theorem foldDomains_covers
    {ι : Type} {items domainsOf} {can : ι → Outcome → Prop} (and : Bool)
    (each : ∀ item ∈ items, ∃ result, domainsOf item = .ok result
      ∧ Covers order type cell result (can item))
    {before : Outcome → Prop} (covers : Covers order type cell start before)
    : ∃ result, (items.map domainsOf).foldlM
        (fun result child => do
          let domains ← child
          combineDomains kernels result domains and whole) start = .ok result
      ∧ Covers order type cell result fun outcome =>
        ∃ first, before first ∧ FoldsTo (truth · · and) can items first outcome := by
  induction items generalizing start before with
  | nil => exact ⟨start, rfl, covers.mono fun outcome ⟨_, possible, same⟩ => same ▸ possible⟩
  | cons item rest ih =>
    obtain ⟨itemDomains, itemRun, itemCovers⟩ := each item (mem_cons_self ..)
    obtain ⟨next, combined, nextCovers⟩ := combineDomains_covers lawful itemCovers covers and valid
    obtain ⟨result, run, final⟩ :=
      ih (fun item member => each item (mem_cons_of_mem _ member)) nextCovers
    refine ⟨result, ?_, final.mono ?_⟩
    · simp only [map_cons, foldlM_cons, itemRun, ok_bind, combined]
      exact run
    · rintro outcome ⟨first, possible, itemOutcome, can, folds⟩
      exact ⟨_, ⟨first, itemOutcome, possible, can, rfl⟩, folds⟩

/-- The listed values, each as the one-element array the loop compares with. -/
def listedValues (values : ArrayRef) : List ArrayRef :=
  values.cells.map fun cell => ⟨values.dataType, [cell]⟩

theorem inDomains_covers (values negated)
    : ∃ result, inDomains kernels values negated whole = .ok result
      ∧ Covers order type cell result fun outcome =>
        FoldsTo (truth · · false) (ComparedWith order type cell .eq) (listedValues values)
          (some false) (if negated then Kleene.not outcome else outcome) := by
  obtain ⟨result, run, covers⟩ := foldDomains_covers lawful valid false
    (fun item (_ : item ∈ listedValues values) =>
      comparisonDomains_covers lawful valid inWhole .eq item)
    (constantDomains_covers valid inWhole (some false))
  rw [listedValues, ← ArrayRef.slices, map_map, foldlM_map] at run
  have folds := covers.mono fun outcome (folds) => ⟨_, rfl, folds⟩
  cases negated with
  | false => exact ⟨_, bind_eq_ok.mpr ⟨result, run, rfl⟩, folds⟩
  | true => exact ⟨_, bind_eq_ok.mpr ⟨result, run, rfl⟩, folds.swap⟩

end

end

end Vgi.Pushdown
