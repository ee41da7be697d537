import Vgi.Pushdown.Binding
import Vgi.Pushdown.Eval

/-! Pruning by known columns: sets of SQL outcomes that a partly known row can still have. -/

namespace Vgi.Pushdown

open Arrow Lib List

/-- The three outcomes of a SQL predicate; `none` is NULL. -/
abbrev Outcome := Option Bool

def outcomeBit : Outcome → Nat
  | some true => 0
  | some false => 1
  | none => 2

def outcomes : List Outcome := [some true, some false, none]

def hasOutcome (set : Nat) (outcome : Outcome) : Bool := set.testBit (outcomeBit outcome)

def unknownOutcome : Nat := 0b111

def truth (left right : Outcome) (and : Bool) : Outcome :=
  if and then
    if left = some false ∨ right = some false then some false
    else if left = none ∨ right = none then none
    else some true
  else if left = some true ∨ right = some true then some true
  else if left = none ∨ right = none then none
  else some false

/-- One turn of the inner loop: a possible pair of outcomes adds its result. -/
def addTruth (left right : Nat) (and : Bool) (result : Nat) (pair : Outcome × Outcome) : Nat :=
  if hasOutcome left pair.1 && hasOutcome right pair.2 then
    result ||| 1 <<< outcomeBit (truth pair.1 pair.2 and)
  else
    result

def truthSets (left right : Nat) (and : Bool) : Nat :=
  (outcomes ×ˢ outcomes).foldl (addTruth left right and) 0

def negateSet (value : Nat) : Nat := (value &&& 1) <<< 1 ||| (value &&& 2) >>> 1 ||| (value &&& 4)

/-- The types whose values have a SQL order, through dictionaries. -/
def ordered (dataType : DataType) : Bool :=
  match dataType.logicalValueType with
  | .flat type => type.ordered
  | _ => false

def simpleValue : Expr → Bool
  | .column .. => true
  | .literal _ => true
  | .field expression .. => simpleValue expression
  | _ => false

mutual

def supported : Expr → Bool
  | .and children => allSupported children
  | .or children => allSupported children
  | .not child => supported child
  | .comparison _ left right => simpleValue left && simpleValue right && left.exprType.any ordered
  | .inSet expression _ _ => simpleValue expression && expression.exprType.any ordered
  | .isNull expression _ => simpleValue expression
  | .column _ _ dataType => dataType.logicalValueType = .boolean
  | .field expression _ _ dataType => simpleValue expression && dataType.logicalValueType = .boolean
  | .literal value => value.dataType.logicalValueType = .boolean
  | _ => false

def allSupported : List Expr → Bool
  | [] => true
  | child :: rest => supported child && allSupported rest

end

def available (known : RecordBatch) : Expr → Bool
  | .column _ name _ => (known.columnByName name).isSome
  | .literal _ => true
  | .field expression .. => available known expression
  | .isNull expression _ => available known expression
  | .inSet expression _ _ => available known expression
  | .comparison _ left right => available known left && available known right
  | _ => false

/-- Update the rows that have a value; later rows stay as they are. -/
def updateRows {α β : Type} (f : α → β → α) : List α → List β → List α
  | row :: rows, value :: values => f row value :: updateRows f rows values
  | rows, _ => rows

/-- The connectives combine the outcome sets of their children row by row. -/
def foldSets (children : List (Result (List Nat))) (count : Nat) (and : Bool)
    : Result (List Nat) :=
  children.foldlM
    (fun result child => do
      let values ← child
      pure (updateRows (truthSets · · and) result values))
    (replicate count (1 <<< outcomeBit (some and)))

/-- An expression that is neither a connective nor a negation is evaluated when everything it
reads is known.
-/
def partialAtom (kernels : Kernels) (known : RecordBatch) (expression : Expr)
    : Result (List Nat) :=
  if supported expression && available known expression then do
    let values ← evalBool kernels known expression
    pure (values.map (1 <<< outcomeBit ·))
  else
    .ok (replicate known.numRows unknownOutcome)

mutual

def partialSets (kernels : Kernels) (known : RecordBatch) : Expr → Result (List Nat)
  | .and children => foldSets (partialAll kernels known children) known.numRows true
  | .or children => foldSets (partialAll kernels known children) known.numRows false
  | .not child => (partialSets kernels known child).map (map negateSet)
  | atom => partialAtom kernels known atom

def partialAll (kernels : Kernels) (known : RecordBatch)
    : List Expr → List (Result (List Nat))
  | [] => []
  | child :: rest => partialSets kernels known child :: partialAll kernels known rest

end

namespace PushdownFilters

variable (filters : PushdownFilters)

def pruningField (name : String) : Result Field :=
  match filters.outputSchema.fields.filter (·.name = name) with
  | [] => .error (valueError s!"unknown pruning column: {name}")
  | [field] => .ok field
  | _ => .error (valueError s!"ambiguous pruning column: {name}")

/-- The checks on the supplied columns, in order, with the names met so far. -/
def checkKnown : List (Field × ArrayRef) → List String → Result Unit
  | [], _ => .ok ()
  | (field, values) :: rest, names => do
    rejectIf (field.name ∈ names) (valueError "duplicate column in pruning input")
    let authoritative ← filters.pruningField field.name
    rejectIf (authoritative.dataType ≠ field.dataType)
      (valueError "pruning input type differs from bind schema")
    rejectIf (¬authoritative.isNullable ∧ values.nullCount > 0)
      (valueError "NULL pruning input violates nonnullable bind field")
    checkKnown rest (field.name :: names)

/-- One predicate's turn: unsupported advisory predicates and failures restrict nothing. -/
def prunePredicate (kernels : Kernels) (known : RecordBatch) (possible : List Nat)
    (predicate : Predicate) : List Nat :=
  if predicate.mode = .advisory ∧ ¬supported predicate.expression then possible
  else
    match partialSets kernels known predicate.expression with
    | .ok current => updateRows (truthSets · · true) possible current
    | .error _ => possible

def mayMatch (kernels : Kernels) (known : RecordBatch) : Result BooleanArray := do
  filters.checkKnown known.entries []
  let possible := filters.predicates.foldl (prunePredicate kernels known)
    (replicate known.numRows (1 <<< outcomeBit (some true)))
  pure (possible.map fun set => some (set &&& 1 ≠ 0))

end PushdownFilters

theorem truth_true (left right) : truth left right true = Kleene.and left right := by
  rcases left with _ | _ | _ <;> rcases right with _ | _ | _ <;> rfl

theorem truth_false (left right) : truth left right false = Kleene.or left right := by
  rcases left with _ | _ | _ <;> rcases right with _ | _ | _ <;> rfl

theorem mem_outcomes (outcome) : outcome ∈ outcomes := by
  rcases outcome with _ | _ | _ <;> decide

@[simp] theorem hasOutcome_singleton (actual outcome)
    : hasOutcome (1 <<< outcomeBit actual) outcome = true ↔ actual = outcome := by
  rcases actual with _ | _ | _ <;> rcases outcome with _ | _ | _ <;> decide

@[simp] theorem hasOutcome_unknown (outcome) : hasOutcome unknownOutcome outcome = true := by
  rcases outcome with _ | _ | _ <;> rfl

theorem hasOutcome_true (set) : hasOutcome set (some true) = decide (set &&& 1 ≠ 0) := by
  simp [hasOutcome, outcomeBit]

/-- The loop over pairs collects the truth of every possible pair. -/
theorem hasOutcome_foldl_addTruth (left right and outcome)
    (pairs : List (Outcome × Outcome)) (start)
    : hasOutcome (pairs.foldl (addTruth left right and) start) outcome = true
      ↔ hasOutcome start outcome = true
        ∨ ∃ pair ∈ pairs, hasOutcome left pair.1 = true ∧ hasOutcome right pair.2 = true
          ∧ truth pair.1 pair.2 and = outcome := by
  induction pairs generalizing start with
  | nil => simp
  | cons pair rest ih =>
    have one : hasOutcome (addTruth left right and start pair) outcome = true
        ↔ hasOutcome start outcome = true
          ∨ (hasOutcome left pair.1 = true ∧ hasOutcome right pair.2 = true
            ∧ truth pair.1 pair.2 and = outcome) := by
      unfold addTruth
      split
      next possible =>
        have single := hasOutcome_singleton (truth pair.1 pair.2 and) outcome
        simp_all [hasOutcome]
      next impossible => simp_all
    rw [foldl_cons, ih, one]
    simp only [mem_cons, exists_eq_or_imp, or_assoc]

theorem hasOutcome_truthSets (left right and outcome)
    : hasOutcome (truthSets left right and) outcome = true
      ↔ ∃ l r, hasOutcome left l = true ∧ hasOutcome right r = true ∧ truth l r and = outcome := by
  unfold truthSets
  rw [hasOutcome_foldl_addTruth]
  have nothing : hasOutcome 0 outcome = false := by simp [hasOutcome]
  simp only [nothing, Bool.false_eq_true, false_or]
  constructor
  · rintro ⟨pair, _, possible⟩
    exact ⟨pair.1, pair.2, possible⟩
  · rintro ⟨l, r, possible⟩
    exact ⟨(l, r), mem_product.mpr ⟨mem_outcomes l, mem_outcomes r⟩, possible⟩

theorem hasOutcome_negateSet (set outcome)
    : hasOutcome (negateSet set) outcome = hasOutcome set (Kleene.not outcome) := by
  have masks : Nat.testBit 4 2 = true ∧ Nat.testBit 2 1 = true ∧ Nat.testBit 4 1 = false
      ∧ Nat.testBit 2 3 = false ∧ Nat.testBit 2 2 = false := by
    decide
  have low : (set % 2).testBit 1 = false := by simpa using Nat.testBit_mod_two_pow set 1 1
  unfold hasOutcome negateSet
  rcases outcome with _ | _ | _ <;>
    simp [outcomeBit, Kleene.not, masks, low]

@[simp] theorem allSupported_iff (children)
    : allSupported children = true ↔ ∀ child ∈ children, supported child = true := by
  induction children with
  | nil => simp [allSupported]
  | cons child rest ih => simp [allSupported, ih]

@[simp] theorem partialAll_eq_map (kernels known children)
    : partialAll kernels known children = children.map (partialSets kernels known) := by
  induction children with
  | nil => simp [partialAll]
  | cons child rest ih => simp [partialAll, ih]

theorem partialSets_atom {expression} (atom : expression.isAtom = true) (kernels known)
    : partialSets kernels known expression = partialAtom kernels known expression := by
  cases expression <;> first | (simp only [partialSets]; done) | cases atom

end Vgi.Pushdown
