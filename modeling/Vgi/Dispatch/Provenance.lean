import Vgi.Dispatch.InOut
import Vgi.Lib.Frame
import Vgi.Pushdown.Typing

/-! The parents of a reply's rows, through the filters and the projection of the call: what is named
for a row that stays is the parent of that row.
-/

namespace Vgi.Dispatch

open Arrow Lib Pushdown List

/-- The places that a mask keeps. -/
def keptPlaces (keep : BooleanArray) : List Nat :=
  (range keep.length).filter fun index => keep[index]? = some (some true)

/-- The items at those places, in order. -/
def keptItems {α : Type} (keep : BooleanArray) (items : List α) : List α :=
  (keptPlaces keep).filterMap (items[·]?)

/-- Where every place is kept, every item is. -/
theorem keptItems_eq_self {α : Type} {keep} {items : List α}
    (same : items.length = keep.length) (all : (keptPlaces keep).length = keep.length)
    : keptItems keep items = items := by
  have every : keptPlaces keep = range items.length := by
    rw [same]
    refine filter_eq_self.mpr (length_filter_eq_length_iff.mp ?_)
    rwa [length_range]
  have places : (range items.length).map (items[·]?) = items.map some := by
    apply ext_getElem <;> simp +contextual
  calc (keptPlaces keep).filterMap (items[·]?)
      = ((range items.length).map (items[·]?)).filterMap id := by
        rw [every, filterMap_map]
        rfl
    _ = items := by
        rw [places, filterMap_map]
        exact filterMap_some

/-- The batch consists of the kept rows of another. -/
structure KeptRows (batch : RecordBatch) (keep : BooleanArray) (kept : RecordBatch) : Prop where
  schema : kept.schema = batch.schema
  columns : kept.columns.map ArrayRef.cells = batch.columns.map (keptItems keep ·.cells)
  numRows : kept.numRows = (keptPlaces keep).length

/-- What Arrow documents: a filter keeps the rows of its mask, and a batch has the number of rows
it is made with.
-/
structure LawfulBatches extends Batches where
  kept_of_filter : ∀ {batch keep kept}, filterRecordBatch batch keep = .ok kept →
    KeptRows batch keep kept
  numRows_of_tryNew : ∀ {schema columns rows batch}, tryNew schema columns rows = .ok batch →
    batch.numRows = rows

structure LawfulBase64 extends Base64 where
  decode_encode : ∀ bytes, decode (encode bytes) = some bytes

/-- The parents that the metadata of a batch names, if it names any. -/
def parentsOf (b64 : Base64) (rows inputRows : Nat) (metadata : Option Metadata)
    : Result (Option (List Int32)) :=
  readOptional (readParents b64 rows inputRows) (metadata.bind (entry parentRowMetadataKey))

/-- The parents of all rows: those that are named, or the rows of the input at the same places. -/
def allParents (rows : Nat) (parents : Option (List Int32)) : List Int32 :=
  parents.getD ((range rows).map Int32.ofNat)

/-- The parents of the kept rows are named, where a batch that names none has to stand for the whole
input. Nothing is named if no row is left, or if nothing was and all rows are.
-/
def Follows (b64 : Base64) (inputRows : Nat) (keep : BooleanArray) (parents : Option (List Int32))
    (metadata : Option Metadata) : Prop :=
  let named := parentsOf b64 (keptPlaces keep).length inputRows metadata
  named = .ok none
      ∧ (keptPlaces keep = [] ∨ parents = none ∧ (keptPlaces keep).length = keep.length)
  ∨ (parents = none → keep.length = inputRows)
    ∧ named = .ok (some (keptItems keep (allParents keep.length parents)))

theorem int32OfBytes_int32Bytes (value) : int32OfBytes (int32Bytes value) = value := by
  have read : (int32Bytes value).foldr (fun byte rest => byte.toNat + 256 * rest) 0
      = value.toBitVec.toNat := by
    simp [int32Bytes, leBytes, range_succ]
    omega
  rw [int32OfBytes, read, BitVec.ofNat_toNat, BitVec.setWidth_eq]
  rfl

theorem parents_of_bytes (parents)
    : (parents.flatMap int32Bytes).length = 4 * parents.length
      ∧ (chunks (parents.flatMap int32Bytes)).map int32OfBytes = parents := by
  induction parents with
  | nil => exact ⟨rfl, rfl⟩
  | cons first rest ih =>
    obtain ⟨long, same⟩ := ih
    have width : (int32Bytes first).length = 4 := leBytes_length _ _
    have quarter : (4 + 4 * rest.length) / 4 = rest.length + 1 := by omega
    refine ⟨by simp [long]; omega, ?_⟩
    have skip : ∀ index, (int32Bytes first).drop (4 * index + 4) = [] := fun index =>
      drop_eq_nil_of_le (by omega)
    rw [chunks, long] at same
    rw [chunks, flatMap_cons, length_append, width, long, quarter, range_succ_eq_map]
    simpa [width, skip, int32OfBytes_int32Bytes, drop_append, Nat.mul_add,
      take_of_length_le width.le, Function.comp_def] using same

section

variable {b64 : LawfulBase64} {rows inputRows : Nat} {metadata kept : Option Metadata}
  {parents : Option (List Int32)} {named : List Int32} {keep : BooleanArray}

theorem parentsOf_eq_ok (read : parentsOf b64.toBase64 rows inputRows metadata = .ok (some named))
    : named.length = rows ∧ ∀ parent ∈ named, 0 ≤ parent ∧ parent.toInt < inputRows := by
  unfold parentsOf readOptional at read
  split at read
  · simp only [map_eq_ok, readParents, bind_eq_ok, rejectIf_eq_ok, pure_eq_ok] at read
    obtain ⟨_, ⟨bytes, -, _, sized, _, inside, rfl⟩, ⟨⟩⟩ := read
    refine ⟨by simp [chunks]; omega, by simpa using inside⟩
  · cases read

variable (read : parentsOf b64.toBase64 keep.length inputRows metadata = .ok parents)
  (whole : parents = none → keep.length = inputRows)

include whole read in
/-- A row that stays has the parent at its place, within the input. -/
theorem parentOf_eq_ok {index parent} (within : index < keep.length)
    (found : parentOf parents index = .ok parent)
    : (allParents keep.length parents)[index]? = some parent
      ∧ 0 ≤ parent ∧ parent.toInt < inputRows := by
  cases parents with
  | some named =>
    cases found
    obtain ⟨long, inside⟩ := parentsOf_eq_ok read
    have here : named[index]? = some (named.getD index 0) := by simp [long ▸ within]
    exact ⟨here, inside _ (mem_of_getElem? here)⟩
  | none =>
    unfold parentOf at found
    simp only at found
    split at found
    · cases found
    · cases found
      have place : (Int32.ofNat index).toInt = index := Int32.toInt_ofNat_of_lt (by omega)
      rw [Int32.le_iff_toInt_le, place, ← whole rfl]
      exact ⟨by simp [allParents, within], Int.natCast_nonneg _, by exact_mod_cast within⟩

theorem readParents_encode (inside : ∀ parent ∈ named, 0 ≤ parent ∧ parent.toInt < inputRows)
    : readParents b64.toBase64 named.length inputRows (b64.encode (named.flatMap int32Bytes))
      = .ok named := by
  obtain ⟨width, same⟩ := parents_of_bytes named
  simp only [readParents, bind_eq_ok, rejectIf_eq_ok, pure_eq_ok, b64.decode_encode]
  refine ⟨_, rfl, (), by omega, (), ?_, same⟩
  rw [same]
  simpa using inside

include whole read in
theorem follows_encoded (each : (keptPlaces keep).mapM (parentOf parents) = .ok named)
    : Follows b64.toBase64 inputRows keep parents (some (withEntry parentRowMetadataKey
        (b64.encode (named.flatMap int32Bytes)) (metadata.getD []))) := by
  have rule : ∀ index ∈ keptPlaces keep, ∃ parent, parentOf parents index = .ok parent
      ∧ (allParents keep.length parents)[index]? = some parent
      ∧ 0 ≤ parent ∧ parent.toInt < inputRows := by
    intro index member
    obtain ⟨parent, found⟩ := mapM_ok_of_mem each member
    have within := mem_range.mp (mem_filter.mp member).1
    exact ⟨parent, found, parentOf_eq_ok read whole within found⟩
  have same : named = keptItems keep (allParents keep.length parents) := by
    rw [eq_filterMap_of_mapM each]
    refine filterMap_congr fun index member => ?_
    obtain ⟨parent, found, here, -⟩ := rule index member
    rw [found, here, toOption_ok]
  have inside : ∀ parent ∈ named, 0 ≤ parent ∧ parent.toInt < inputRows := by
    intro parent member
    obtain ⟨index, place, here⟩ := mem_filterMap.mp (same ▸ member)
    obtain ⟨_, -, here', inside⟩ := rule index place
    cases here.symm.trans here'
    exact inside
  have coded : readParents b64.toBase64 _ inputRows _ = .ok named := readParents_encode inside
  rw [(mapM_zip each).1] at coded
  refine .inr ⟨whole, ?_⟩
  simp [← same, parentsOf, entry_withEntry, readOptional, coded, Except.map]

theorem follows_filterParentRows
    (filtered : filterParentRows b64.toBase64 metadata keep inputRows = .ok kept)
    : ∃ parents, parentsOf b64.toBase64 keep.length inputRows metadata = .ok parents
      ∧ Follows b64.toBase64 inputRows keep parents kept := by
  obtain ⟨parents, read, filtered⟩ := bind_eq_ok.mp filtered
  refine ⟨parents, read, ?_⟩
  split at filtered
  next nothing =>
    cases filtered
    refine .inl ⟨?_, .inl (isEmpty_iff.mp nothing)⟩
    have removed : ∀ metadata, entry parentRowMetadataKey
        (withoutEntry parentRowMetadataKey metadata) = none := by
      simp [entry, withoutEntry]
    cases metadata <;> simp [parentsOf, removed, readOptional]
  · split at filtered
    next all =>
      have all : (keptPlaces keep).length = keep.length := all
      cases filtered
      cases parents with
      | none => exact .inl ⟨by rwa [all], .inr ⟨rfl, all⟩⟩
      | some named =>
        refine .inr ⟨by simp, ?_⟩
        rw [allParents, Option.getD_some, keptItems_eq_self (parentsOf_eq_ok read).1 all, all]
        exact read
    · obtain ⟨_, whole, filtered⟩ := bind_eq_ok.mp filtered
      obtain ⟨named, each, filtered⟩ := bind_eq_ok.mp filtered
      cases filtered
      exact follows_encoded read (by simpa using whole) each

theorem length_evaluate {kernels} {filters : PushdownFilters} {batch}
    (mask : filters.evaluate kernels batch = .ok keep) : keep.length = batch.numRows := by
  refine foldlM_invariant (·.length = batch.numRows) ?_ length_replicate mask
  intro result predicate next long run
  simp only [evaluatePredicate, andKleene, zipBoolean] at run
  grind [mapError_eq_ok]

theorem projectBatch_numRows {out : LawfulBatches} {batch projected schema}
    (run : out.projectBatch batch schema = .ok projected)
    : projected.numRows = batch.numRows := by
  unfold Batches.projectBatch at run
  split at run
  · cases run
    rfl
  · obtain ⟨columns, -, made⟩ := bind_eq_ok.mp run
    exact out.numRows_of_tryNew (mapError_eq_ok.mp made)

end

/-- What goes out for an emitted batch: its kept rows, in order and projected, with their parents.
-/
def NamesParents (out : Batches) (b64 : Base64) (filters : PushdownFilters) (schema : Schema)
    (inputRows : Nat) (more : Bool) (batch : RecordBatch) (metadata : Option Metadata) : Prop :=
  ∀ emission, out.shapeReply b64 (some filters) schema inputRows more (batch, metadata)
    = .ok emission →
  ∃ keep parents kept, filters.evaluate out.kernels batch = .ok keep
    ∧ keep.length = batch.numRows
    ∧ parentsOf b64 batch.numRows inputRows metadata = .ok parents
    ∧ KeptRows batch keep kept ∧ out.projectBatch kept schema = .ok emission.batch
    ∧ emission.batch.numRows = (keptPlaces keep).length
    ∧ Follows b64 inputRows keep parents emission.metadata

/-- A filtered reply says of each of its rows which row of the input it comes from. -/
theorem reply_names_parents (out : LawfulBatches) (b64 : LawfulBase64) (filters : PushdownFilters)
    (schema : Schema) (inputRows : Nat) (more : Bool) (batch : RecordBatch)
    (metadata : Option Metadata)
    : NamesParents out.toBatches b64.toBase64 filters schema inputRows more batch metadata := by
  intro emission shaped
  simp only [Batches.shapeReply, Batches.keepRows, bind_eq_ok, pure_eq_ok, mapError_eq_ok] at shaped
  obtain ⟨_, ⟨keep, mask, kept, filtered, rows, found, rfl⟩, projected, project, rfl⟩ := shaped
  obtain ⟨parents, read, follows⟩ := follows_filterParentRows filtered
  have whole := length_evaluate mask
  have keeps := out.kept_of_filter found
  refine ⟨keep, parents, rows, mask, whole, whole ▸ read, keeps, project, ?_, ?_⟩
  · rw [projectBatch_numRows project, keeps.numRows]
  · -- The status that more output adds is another entry.
    have same : ∀ rows, parentsOf b64.toBase64 rows inputRows (if more then
        some (withEntry statusMetadataKey statusHaveMoreOutput (kept.getD [])) else kept)
        = parentsOf b64.toBase64 rows inputRows kept := by
      have apart : statusMetadataKey ≠ parentRowMetadataKey := by decide
      have nothing : entry parentRowMetadataKey [] = none := rfl
      cases more <;> cases kept <;> simp [parentsOf, entry_withEntry, apart, nothing]
    simpa only [Follows, same] using follows

namespace ProvenanceSample

def out : LawfulBatches where
  kernels := TypingSample.rows.kernels
  filterRecordBatch := fun batch keep =>
    if keep.length = batch.numRows ∧ (keptPlaces keep).length = keep.length then .ok batch
    else .error ""
  tryNew := fun _ _ _ => .error ""
  kept_of_filter := by
    intro batch keep kept is
    split at is
    next whole =>
      cases is
      refine ⟨rfl, map_congr_left fun column member => ?_, (whole.2.trans whole.1).symm⟩
      exact (keptItems_eq_self ((batch.lengths column member).trans whole.1.symm) whole.2).symm
    · cases is
  numRows_of_tryNew := nofun

/-- Stands for base64. -/
def texts : LawfulBase64 where
  encode := fun bytes => String.ofList (replicate (Encodable.encode bytes) 'A')
  decode := fun text => Encodable.decode text.toList.length
  decode_encode := by simp

end ProvenanceSample

open ProvenanceSample TypingSample in
/-- Two rows for an input of five, all of which are kept, go out without parents. -/
theorem parents_stay_unnamed : ∃ emission, out.shapeReply texts.toBase64
        (some { filters .required sumExpr with predicates := [] }) schema 5 false (batch, none)
        = .ok emission
      ∧ emission.batch.numRows = 2 ∧ emission.metadata = none :=
  ⟨_, rfl, rfl, rfl⟩

end Vgi.Dispatch
