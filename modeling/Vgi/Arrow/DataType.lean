import Vgi.Rpc

/-! Arrow data types, fields and schemas, as far as the filter module looks at them. -/

namespace Vgi.Arrow

inductive TimeUnit where
  | second
  | millisecond
  | microsecond
  | nanosecond
deriving DecidableEq

inductive IntervalUnit where
  | yearMonth
  | dayTime
  | monthDayNano
deriving DecidableEq

inductive FlatType where
  | null
  | boolean
  | int8
  | int16
  | int32
  | int64
  | uint8
  | uint16
  | uint32
  | uint64
  | float16
  | float32
  | float64
  | timestamp (unit : TimeUnit) (timeZone : Option String)
  | date32
  | date64
  | time32 (unit : TimeUnit)
  | time64 (unit : TimeUnit)
  | duration (unit : TimeUnit)
  | interval (unit : IntervalUnit)
  | binary
  | fixedSizeBinary (size : Nat)
  | largeBinary
  | binaryView
  | utf8
  | largeUtf8
  | utf8View
  | decimal32 (precision : Nat) (scale : Int)
  | decimal64 (precision : Nat) (scale : Int)
  | decimal128 (precision : Nat) (scale : Int)
  | decimal256 (precision : Nat) (scale : Int)
deriving DecidableEq

/-- The list layouts, which share one child field. -/
inductive ListLayout where
  | list
  | largeList
  | listView
  | largeListView
  | fixedSizeList (size : Nat)
  | map (sorted : Bool)
deriving DecidableEq

inductive UnionMode where
  | sparse
  | dense
deriving DecidableEq

mutual

inductive DataType where
  | flat (type : FlatType)
  | listLike (layout : ListLayout) (item : Field)
  | struct (fields : List Field)
  | union (mode : UnionMode) (typeIds : List Nat) (fields : List Field)
  | dictionary (key value : DataType)
  | runEndEncoded (runEnds values : Field)

inductive Field where
  | mk (name : String) (dataType : DataType) (nullable : Bool)

end

/-- Key-value metadata; a key occurs at most once. -/
abbrev Metadata := List (String × String)

structure Schema where
  fields : List Field
  metadata : Metadata

namespace Field

def name : Field → String
  | mk name _ _ => name

def dataType : Field → DataType
  | mk _ dataType _ => dataType

def isNullable : Field → Bool
  | mk _ _ nullable => nullable

@[simp] theorem name_mk (n t b) : (mk n t b).name = n := rfl

@[simp] theorem dataType_mk (n t b) : (mk n t b).dataType = t := rfl

@[simp] theorem isNullable_mk (n t b) : (mk n t b).isNullable = b := rfl

end Field

namespace DataType

/-- A dictionary-encoded column stands for the values behind its keys. -/
def logicalValueType : DataType → DataType
  | dictionary _ value => value.logicalValueType
  | other => other

theorem logicalValueType_idem : ∀ type : DataType,
    type.logicalValueType.logicalValueType = type.logicalValueType
  | dictionary _ value => logicalValueType_idem value
  | flat _ => rfl
  | listLike .. => rfl
  | struct _ => rfl
  | union .. => rfl
  | runEndEncoded .. => rfl

/-- `DataType::is_nested`: lists, structs, unions, maps, and encodings of such values. -/
def isNested : DataType → Bool
  | flat _ => false
  | listLike .. => true
  | struct _ => true
  | union .. => true
  | dictionary _ value => value.isNested
  | runEndEncoded _ (.mk _ values _) => values.isNested

/-- The layouts that have no validity bitmap of their own: an array of such a type refuses
a null mask.
-/
def canContainNullMask : DataType → Bool
  | flat .null => false
  | union .. => false
  | runEndEncoded .. => false
  | _ => true

end DataType

mutual

def DataType.decEq : (left right : DataType) → Decidable (left = right)
  | .flat s, .flat t => decidable_of_iff (s = t) (by simp)
  | .listLike k f, .listLike l g =>
    @decidable_of_iff _ (f = g ∧ k = l) (by simp; tauto)
      (@instDecidableAnd _ _ (f.decEq g) inferInstance)
  | .struct fs, .struct gs => @decidable_of_iff _ (fs = gs) (by simp) (Field.decEqs fs gs)
  | .union m i fs, .union n j gs =>
    @decidable_of_iff _ (fs = gs ∧ m = n ∧ i = j) (by simp; tauto)
      (@instDecidableAnd _ _ (Field.decEqs fs gs) inferInstance)
  | .dictionary j u, .dictionary k v =>
    @decidable_of_iff _ (j = k ∧ u = v) (by simp) (@instDecidableAnd _ _ (j.decEq k) (u.decEq v))
  | .runEndEncoded r v, .runEndEncoded s w =>
    @decidable_of_iff _ (r = s ∧ v = w) (by simp) (@instDecidableAnd _ _ (r.decEq s) (v.decEq w))
  | .flat _, .listLike .. | .flat _, .struct _ | .flat _, .union .. | .flat _, .dictionary ..
  | .flat _, .runEndEncoded .. | .listLike .., .flat _ | .listLike .., .struct _
  | .listLike .., .union .. | .listLike .., .dictionary .. | .listLike .., .runEndEncoded ..
  | .struct _, .flat _ | .struct _, .listLike .. | .struct _, .union ..
  | .struct _, .dictionary .. | .struct _, .runEndEncoded .. | .union .., .flat _
  | .union .., .listLike .. | .union .., .struct _ | .union .., .dictionary ..
  | .union .., .runEndEncoded .. | .dictionary .., .flat _ | .dictionary .., .listLike ..
  | .dictionary .., .struct _ | .dictionary .., .union .. | .dictionary .., .runEndEncoded ..
  | .runEndEncoded .., .flat _ | .runEndEncoded .., .listLike .. | .runEndEncoded .., .struct _
  | .runEndEncoded .., .union .. | .runEndEncoded .., .dictionary .. => isFalse (by simp)

def Field.decEq : (left right : Field) → Decidable (left = right)
  | .mk m t a, .mk n u b =>
    @decidable_of_iff _ (t = u ∧ m = n ∧ a = b) (by simp; tauto)
      (@instDecidableAnd _ _ (t.decEq u) inferInstance)

def Field.decEqs : (left right : List Field) → Decidable (left = right)
  | [], [] => isTrue rfl
  | [], _ :: _ => isFalse (by simp)
  | _ :: _, [] => isFalse (by simp)
  | f :: fs, g :: gs =>
    @decidable_of_iff _ (f = g ∧ fs = gs) (by simp)
      (@instDecidableAnd _ _ (f.decEq g) (Field.decEqs fs gs))

end

instance : DecidableEq DataType := DataType.decEq

instance : DecidableEq Field := Field.decEq

deriving instance DecidableEq for Schema

@[match_pattern] abbrev DataType.null : DataType := .flat .null

@[match_pattern] abbrev DataType.boolean : DataType := .flat .boolean

@[match_pattern] abbrev DataType.int64 : DataType := .flat .int64

@[match_pattern] abbrev DataType.float64 : DataType := .flat .float64

@[match_pattern] abbrev DataType.utf8 : DataType := .flat .utf8

@[match_pattern] abbrev DataType.list (item : Field) : DataType := .listLike .list item

@[match_pattern] abbrev DataType.largeList (item : Field) : DataType := .listLike .largeList item

end Vgi.Arrow
