import Vgi.Arrow.DataType

/-! Arrow arrays and record batches as columns of cells. A cell keeps the difference between
the validity bit of its slot and a NULL that only its encoding shows.
-/

namespace Vgi.Arrow

open List

/-- One slot of an array. `null` is a slot whose validity bit is clear; `encoded` is a slot
that is physically valid and stands for another value (a dictionary key, a run, a union
member, or an entry of the all-NULL type). Numbers, dates and decimals are their stored
integers, floats their bit patterns.
-/
inductive Cell where
  | null
  | bool (value : Bool)
  | int (value : Int)
  | float (bits : Nat)
  | string (value : String)
  | bytes (value : List UInt8)
  | struct (fields : List Cell)
  | list (items : List Cell)
  | encoded (value : Cell)

namespace Cell

/-- The validity bit of the slot is clear. -/
def isNull : Cell → Bool
  | null => true
  | _ => false

/-- The innermost value of an encoded slot is missing. -/
def isEncodedNull : Cell → Bool
  | null => true
  | encoded value => value.isEncodedNull
  | _ => false

/-- The slot of an array of this type is SQL NULL: through its validity bit, or, where the
type has one, through its encoding (`Array::logical_nulls`).
-/
def isLogicalNull : DataType → Cell → Bool
  | .flat .null, _ => true
  | .dictionary _ value, encoded inner => isLogicalNull value inner
  | .dictionary _ _, _ => true
  | .union .., cell => cell.isEncodedNull
  | .runEndEncoded .., cell => cell.isEncodedNull
  | _, cell => cell.isNull

/-- The value a dictionary slot stands for; other slots stand for themselves. -/
def unpack : DataType → Cell → Cell
  | .dictionary _ value, encoded inner => unpack value inner
  | .dictionary _ _, _ => null
  | _, cell => cell

/-- A struct slot's child; a NULL struct has no readable children. -/
def child (index : Nat) : Cell → Cell
  | struct fields => fields.getD index null
  | _ => null

def boolValue : Cell → Bool
  | bool value => value
  | _ => false

def stringValue : Cell → String
  | string value => value
  | _ => ""

def floatBits : Cell → Nat
  | float bits => bits
  | _ => 0

/-- A Boolean slot as it is read: `none` is NULL. -/
def toBool (cell : Cell) : Option Bool :=
  if cell.isNull then none else some cell.boolValue

def ofOption : Option Bool → Cell
  | some value => bool value
  | none => null

@[simp] theorem toBool_ofOption (value) : (ofOption value).toBool = value := by
  cases value <;> rfl

@[simp] theorem unpack_flat (type cell) : unpack (.flat type) cell = cell := by
  simp [unpack]

theorem isLogicalNull_null : ∀ type : DataType, isLogicalNull type null = true
  | .flat type => by cases type <;> rfl
  | .listLike .. => rfl
  | .struct _ => rfl
  | .union .. => rfl
  | .dictionary .. => rfl
  | .runEndEncoded .. => rfl

/-- Unpacking a dictionary keeps what is NULL. -/
theorem isLogicalNull_unpack (type cell)
    : isLogicalNull type.logicalValueType (unpack type cell) = isLogicalNull type cell := by
  fun_induction unpack type cell with
  | case1 key value inner ih => exact ih
  | case2 key value cell notEncoded =>
    rw [isLogicalNull_null, isLogicalNull]
    simpa using notEncoded
  | case3 type cell _ notDictionary =>
    have same : type.logicalValueType = type := by
      cases type with
      | dictionary key value => exact absurd rfl (notDictionary key value)
      | _ => rfl
    rw [same]

end Cell

structure ArrayRef where
  dataType : DataType
  cells : List Cell

/-- A Boolean array: `none` is NULL. -/
abbrev BooleanArray := List (Option Bool)

namespace ArrayRef

variable (array : ArrayRef)

def len : Nat := array.cells.length

/-- `Array::is_null`, which reads the validity bitmap. -/
def isNull (array : ArrayRef) (index : Nat) : Bool := (array.cells[index]?).any Cell.isNull

def nullCount : Nat := array.cells.countP Cell.isNull

def slice (offset length : Nat) : ArrayRef :=
  { array with cells := (array.cells.drop offset).take length }

def ofBool (values : BooleanArray) : ArrayRef :=
  { dataType := .boolean, cells := values.map Cell.ofOption }

def asBoolean? : Option BooleanArray :=
  if array.dataType = .boolean then some (array.cells.map Cell.toBool) else none

def asString? : Option (List (Option String)) :=
  if array.dataType = .utf8 then
    some (array.cells.map fun cell => if cell.isNull then none else some cell.stringValue)
  else
    none

theorem eq_singleton {array : ArrayRef} (single : array.len = 1)
    : array = { array with cells := [(array.cells[0]?).getD .null] } := by
  obtain ⟨type, cells⟩ := array
  obtain ⟨cell, rfl⟩ := length_eq_one_iff.mp single
  rfl

theorem slice_one {array : ArrayRef} {index cell} (found : array.cells[index]? = some cell)
    : array.slice index 1 = ⟨array.dataType, [cell]⟩ := by
  obtain ⟨inside, rfl⟩ := List.getElem?_eq_some_iff.mp found
  simp [slice, take_one]

theorem slices : (range array.len).map (array.slice · 1)
      = array.cells.map fun cell => ⟨array.dataType, [cell]⟩ := by
  refine ext_getElem (by simp [len]) fun index _ inside => ?_
  have inside : index < array.cells.length := by simpa using inside
  simp [slice_one (getElem?_eq_getElem inside)]

@[simp] theorem asBoolean?_ofBool (values) : (ofBool values).asBoolean? = some values := by
  simp [asBoolean?, ofBool, Function.comp_def]

end ArrayRef

/-- A record batch is built only when its columns have the schema's types, one length, and
no NULL slot under a nonnullable field.
-/
structure RecordBatch where
  schema : Schema
  columns : List ArrayRef
  numRows : Nat
  types : columns.map ArrayRef.dataType = schema.fields.map Field.dataType
  lengths : ∀ column ∈ columns, column.len = numRows
  nonNull : ∀ pair ∈ schema.fields.zip columns, pair.1.isNullable = false → pair.2.nullCount = 0

namespace RecordBatch

variable (batch : RecordBatch)

theorem columns_length : batch.columns.length = batch.schema.fields.length := by
  simpa using congrArg length batch.types

def entries : List (Field × ArrayRef) := batch.schema.fields.zip batch.columns

theorem dataType_of_mem_entries {entry} (member : entry ∈ batch.entries)
    : entry.2.dataType = entry.1.dataType := by
  obtain ⟨index, here⟩ := getElem?_of_mem member
  obtain ⟨field, column⟩ := getElem?_zip_eq_some.mp here
  have types := congrArg (·[index]?) batch.types
  simpa [field, column] using types

theorem zip_entries (entries : List (Field × ArrayRef))
    : (entries.map Prod.fst).zip (entries.map Prod.snd) = entries := by
  induction entries with
  | nil => rfl
  | cons entry rest ih => simp [ih]

def select (name : String) : RecordBatch where
  schema :=
    { batch.schema with
      fields := (batch.entries.filter (·.1.name = name)).map Prod.fst }
  columns := (batch.entries.filter (·.1.name = name)).map Prod.snd
  numRows := batch.numRows
  types := by
    simp only [map_map]
    exact map_congr_left fun entry member =>
      batch.dataType_of_mem_entries (mem_of_mem_filter member)
  lengths := by
    intro column member
    obtain ⟨entry, inEntries, rfl⟩ := mem_map.mp member
    exact batch.lengths _ (of_mem_zip (mem_of_mem_filter inEntries)).2
  nonNull := by
    rw [zip_entries]
    exact fun entry member => batch.nonNull entry (mem_of_mem_filter member)

def indexOf? (schema : Schema) (name : String) : Option Nat :=
  schema.fields.findIdx? (·.name = name)

def columnByName (name : String) : Option ArrayRef :=
  (indexOf? batch.schema name).bind fun index => batch.columns[index]?

theorem getElem?_columns {index : Nat} {field}
    (found : batch.schema.fields[index]? = some field)
    : ∃ column, batch.columns[index]? = some column ∧ column.dataType = field.dataType := by
  have types := congrArg (·[index]?) batch.types
  simp only [getElem?_map, found] at types
  obtain ⟨column, at_index, type⟩ := Option.map_eq_some_iff.mp types
  exact ⟨column, at_index, type⟩

end RecordBatch

end Vgi.Arrow
