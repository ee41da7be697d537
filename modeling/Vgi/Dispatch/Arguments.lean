import Vgi.Arrow.Array
import Vgi.Storage.Backend

/-! The arguments of a call as they arrive on the wire, and their expansion to the positions
the function declares.
-/

namespace Vgi.Dispatch

open Arrow

structure Ipc where
  readBatch : Bytes → Result RecordBatch
  readSchema : Bytes → Result Schema
  writeSchema : Schema → Result Bytes

/-- A parameter of a function. A position of `-1` is a named parameter. -/
structure ArgSpec where
  name : String
  position : Int
  arrowType : String
  isConst : Bool
  isVarargs : Bool
  arrowDataType : Option DataType
deriving DecidableEq

abbrev Values := List (String × ArrayRef)

def Values.insert (values : Values) (name : String) (array : ArrayRef) : Values :=
  (name, array) :: values.filter (·.1 ≠ name)

/-- Positional arguments are indexed by position, each with its field. -/
structure Arguments where
  positional : List (Option ArrayRef) := []
  named : Values := []
  schema : Option Schema := none
  positionalFields : List (Option Field) := []

/-- `usize::from_str`: a sign is allowed, and the number has to fit. -/
def parseUsize (text : List Char) : Option Nat :=
  let digits := match text with
    | '+' :: rest => rest
    | _ => text
  if digits = [] ∨ ¬digits.all Char.isDigit then none
  else
    let value := digits.foldl (fun value digit => 10 * value + (digit.toNat - '0'.toNat)) 0
    if value < 2 ^ 64 then some value else none

def stripName (text : String) (name : String) : Option (List Char) :=
  text.toList.isPrefixOf? name.toList

def structEntries (column : ArrayRef) (fields : List Field) : List (Field × ArrayRef) :=
  fields.zipIdx.map fun (field, index) =>
    (field, ⟨field.dataType, column.cells.map (Cell.child index)⟩)

/-- A positional field is also reachable by its full name, a named one with and without its
marker.
-/
def insertNamed (named : Values) (field : Field) (column : ArrayRef) : Values :=
  match stripName "positional_" field.name, stripName "named_" field.name with
  | none, some actual => (named.insert (String.ofList actual) column).insert field.name column
  | _, _ => named.insert field.name column

def Arguments.ofStruct (entries : List (Field × ArrayRef)) : Arguments :=
  let positions := entries.filterMap fun (field, column) =>
    ((stripName "positional_" field.name).bind parseUsize).map fun index => (index, field, column)
  let named := entries.foldl (fun named (field, column) => insertNamed named field column) []
  match (positions.map (·.1)).max? with
  | none => { named }
  | some last =>
    { positional := positions.foldl (fun slots (index, _, column) => slots.set index (some column))
        (List.replicate (last + 1) none)
      named
      schema := some
        { fields := (positions.mergeSort fun a b => a.1 ≤ b.1).map (·.2.1), metadata := [] }
      positionalFields := positions.foldl
        (fun slots (index, field, _) => slots.set index (some field))
        (List.replicate (last + 1) none) }

/-- Columns without the struct around them are positional in their order. -/
def Arguments.ofColumns (batch : RecordBatch) : Arguments :=
  { positional := batch.columns.map some
    named := batch.entries.foldl (fun named (field, column) => named.insert field.name column) []
    schema := some batch.schema }

/-- Parses the arguments of a call. Empty input means no arguments. -/
def Arguments.parse (ipc : Ipc) (bytes : Bytes) : Result Arguments :=
  if bytes = [] then .ok {}
  else do
    let batch ← ipc.readBatch bytes
    match batch.entries with
    | [(field, column)] =>
      if field.name = "args" then
        match column.dataType with
        | .struct fields => return Arguments.ofStruct (structEntries column fields)
        | _ => .error (typeError "'args' column is not a struct")
      else return Arguments.ofColumns batch
    | _ => return Arguments.ofColumns batch

def Arguments.arg (args : Arguments) (position : Nat) : Option ArrayRef :=
  (args.positional[position]?).join

def Arguments.numPositional (args : Arguments) : Nat := args.positional.length

variable (specs : List ArgSpec)

def constPositions : List Nat :=
  specs.filterMap fun spec =>
    if spec.position ≥ 0 ∧ spec.isConst then some spec.position.toNat else none

def maxPosition : Int :=
  specs.foldl (fun last spec => if spec.position > last then spec.position else last) 0

/-- The constant arguments, sent one after the other, at the positions declared for them. -/
def expand (positional : List (Option ArrayRef))
    : List (Option ArrayRef) :=
  (constPositions specs).zipIdx.foldl
    (fun expanded (position, index) =>
      match (positional[index]?).join with
      | some array => expanded.set position (some array)
      | none => expanded)
    (List.replicate ((maxPosition specs).toNat + 1) none)

/-- The number of arguments is compared as an `i32`. -/
def Arguments.remapPositional (args : Arguments) (specs : List ArgSpec) : Arguments :=
  if args.positional = [] ∨ specs = [] then args
  else if (constPositions specs).length = specs.length then args
  else if (args.positional.length : Int).bmod (2 ^ 32) > maxPosition specs then args
  else { args with positional := expand specs args.positional }

/-- The arguments are where the function declares them: there are none, every parameter is a
constant, there are as many as positions, or the expansion puts each where it is.
-/
def Placed (args : Arguments) : Prop :=
  args.positional = [] ∨ (constPositions specs).length = specs.length
  ∨ (args.positional.length : Int).bmod (2 ^ 32) > maxPosition specs
  ∨ expand specs args.positional = args.positional

theorem remapPositional_eq_self_iff {args} {specs}
    : args.remapPositional specs = args ↔ Placed specs args := by
  unfold Arguments.remapPositional Placed
  split
  next none =>
    refine iff_of_true rfl ?_
    rcases none with none | none
    · exact .inl none
    · exact .inr (.inl (by simp [none, constPositions]))
  next some =>
    have given : args.positional ≠ [] := fun none => some (.inl none)
    split
    next constant => exact iff_of_true rfl (.inr (.inl constant))
    next mixed =>
      split
      next enough => exact iff_of_true rfl (.inr (.inr (.inl enough)))
      next few =>
        constructor
        · intro same
          exact .inr (.inr (.inr (congrArg Arguments.positional same)))
        · rintro (none | constant | enough | same)
          · exact absurd none given
          · exact absurd constant mixed
          · exact absurd enough few
          · rw [same]

end Vgi.Dispatch
