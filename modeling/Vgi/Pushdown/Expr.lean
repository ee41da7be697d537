import Vgi.Arrow.Kernels
import Vgi.Pushdown.Wire

/-! Parsed filter expressions, their static types, and the expressions whose meaning depends
on the session.
-/

namespace Vgi.Pushdown

open Arrow

inductive PredicateMode where
  | required
  | advisory
deriving DecidableEq

def compareOp : String → Option CompareOp
  | "eq" => some .eq
  | "ne" => some .ne
  | "lt" => some .lt
  | "le" => some .le
  | "gt" => some .gt
  | "ge" => some .ge
  | "distinct_from" => some .distinctFrom
  | "not_distinct_from" => some .notDistinctFrom
  | _ => none

def arithmeticOp : String → Option ArithmeticOp
  | "add" => some .add
  | "subtract" => some .subtract
  | "multiply" => some .multiply
  | "divide" => some .divide
  | "modulo" => some .modulo
  | _ => none

inductive StandardFunction where
  | startsWith
  | endsWith
  | contains
  | listContains
deriving DecidableEq

def standardFunctionOf : String → Option StandardFunction
  | "starts_with" => some .startsWith
  | "ends_with" => some .endsWith
  | "contains" => some .contains
  | "list_contains" => some .listContains
  | _ => none

inductive Expr where
  | column (index : Nat) (name : String) (dataType : DataType)
  | field (expression : Expr) (index : Nat) (name : String) (dataType : DataType)
  | literal (value : ArrayRef)
  | comparison (op : CompareOp) (left right : Expr)
  | and (children : List Expr)
  | or (children : List Expr)
  | not (child : Expr)
  | isNull (expression : Expr) (negated : Bool)
  | inSet (expression : Expr) (values : ArrayRef) (negated : Bool)
  | cast (expression : Expr) (target : DataType)
  | arithmetic (op : ArithmeticOp) (left right : Expr)
  | negate (expression : Expr)
  | call (function : StandardFunction) (arguments : List Expr)
  | runtimeFilter

structure Predicate where
  id : String
  revision : Nat
  mode : PredicateMode
  expression : Expr

namespace Expr

def isRuntimeFilter : Expr → Bool
  | runtimeFilter => true
  | _ => false

def exprType : Expr → Option DataType
  | column _ _ dataType => some dataType
  | field _ _ _ dataType => some dataType
  | literal value => some value.dataType
  | comparison .. => some .boolean
  | and _ => some .boolean
  | or _ => some .boolean
  | not _ => some .boolean
  | isNull .. => some .boolean
  | inSet .. => some .boolean
  | call .. => some .boolean
  | runtimeFilter => some .boolean
  | cast _ target => some target
  | arithmetic _ left _ => left.exprType
  | negate value => value.exprType

end Expr

def numericType : DataType → Bool
  | .flat .int8 | .flat .int16 | .flat .int32 | .flat .int64
  | .flat .uint8 | .flat .uint16 | .flat .uint32 | .flat .uint64
  | .flat .float16 | .flat .float32 | .flat .float64
  | .flat (.decimal128 ..) | .flat (.decimal256 ..) => true
  | _ => false

def contextualType : DataType → Bool
  | .flat .utf8 | .flat .largeUtf8 | .flat .date32 | .flat .date64
  | .flat (.time32 _) | .flat (.time64 _) | .flat (.timestamp ..) => true
  | _ => false

mutual

/-- The expression's value depends on session settings. -/
def Expr.requiresContext : Expr → Bool
  | .arithmetic op left right =>
    op = .divide || op = .modulo || left.requiresContext || right.requiresContext
  | .cast expression target =>
    (expression.exprType.any contextualType && contextualType target)
      || expression.requiresContext
  | .field expression _ _ _ => expression.requiresContext
  | .not child => child.requiresContext
  | .negate expression => expression.requiresContext
  | .isNull expression _ => expression.requiresContext
  | .inSet expression _ _ => expression.requiresContext
  | .comparison _ left right => left.requiresContext || right.requiresContext
  | .and children => Expr.anyRequiresContext children
  | .or children => Expr.anyRequiresContext children
  | .call _ arguments => Expr.anyRequiresContext arguments
  | .column .. => false
  | .literal _ => false
  | .runtimeFilter => false

def Expr.anyRequiresContext : List Expr → Bool
  | [] => false
  | child :: rest => child.requiresContext || Expr.anyRequiresContext rest

end

end Vgi.Pushdown
