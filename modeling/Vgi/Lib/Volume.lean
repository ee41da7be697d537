import Mathlib.Data.List.Nodup

/-! A directory of files as processes share it: names lead to inodes, and an inode keeps its bytes
when its name changes or goes away, so that a process that has a file open goes on writing to it.
-/

namespace Vgi.Lib

open List

/-- There are no links: an inode has at most one name. -/
structure Volume (Name : Type) where
  names : List (Name × Nat)
  inodes : List (List UInt8)
  distinct : (names.map Prod.fst).Nodup
  single : (names.map Prod.snd).Nodup
  within : ∀ file ∈ names, file.2 < inodes.length
deriving DecidableEq

namespace Volume

variable {Name : Type} [DecidableEq Name]

def empty : Volume Name := ⟨[], [], .nil, .nil, nofun⟩

def find? (volume : Volume Name) (name : Name) : Option Nat :=
  (volume.names.find? (·.1 = name)).map Prod.snd

variable {volume : Volume Name} {name other source target : Name} {inode : Nat}

theorem find?_eq_some : volume.find? name = some inode ↔ (name, inode) ∈ volume.names := by
  unfold find?
  constructor
  · intro found
    obtain ⟨file, is, rfl⟩ := Option.map_eq_some_iff.mp found
    have same : file.1 = name := by simpa using find?_some is
    exact same ▸ mem_of_find?_eq_some is
  · intro member
    have some_ : (volume.names.find? (·.1 = name)).isSome = true :=
      find?_isSome.mpr ⟨_, member, decide_eq_true rfl⟩
    obtain ⟨file, is⟩ := Option.isSome_iff_exists.mp some_
    have same : file.1 = name := by simpa using find?_some is
    have equal := inj_on_of_nodup_map volume.distinct (mem_of_find?_eq_some is) member same
    rw [is, equal]
    rfl

/-- An inode has one name. -/
theorem find?_injective (found : volume.find? name = some inode)
    (again : volume.find? other = some inode) : name = other := by
  have equal := inj_on_of_nodup_map volume.single (find?_eq_some.mp found)
    (find?_eq_some.mp again) rfl
  exact congrArg Prod.fst equal

theorem find?_lt (found : volume.find? name = some inode) : inode < volume.inodes.length :=
  volume.within _ (find?_eq_some.mp found)

theorem find?_eq_iff {found}
    : volume.find? name = found ↔ ∀ inode, (name, inode) ∈ volume.names ↔ found = some inode := by
  simp only [← find?_eq_some]
  exact ⟨fun same inode => by rw [same], fun same => Option.ext same⟩

/-- Opens a file that was not there, and is empty; `none` if it is there. -/
def createNew (volume : Volume Name) (name : Name) : Option (Volume Name) :=
  match missing : volume.find? name with
  | some _ => none
  | none => some {
      names := (name, volume.inodes.length) :: volume.names
      inodes := volume.inodes ++ [[]]
      distinct := by
        refine nodup_cons.mpr ⟨fun member => ?_, volume.distinct⟩
        obtain ⟨file, is, rfl⟩ := mem_map.mp member
        rw [find?_eq_some.mpr is] at missing
        cases missing
      single := by
        refine nodup_cons.mpr ⟨fun member => ?_, volume.single⟩
        obtain ⟨file, is, same⟩ := mem_map.mp member
        exact Nat.lt_irrefl _ (same ▸ volume.within file is)
      within := by
        intro file is
        rw [length_append, length_singleton]
        rcases mem_cons.mp is with rfl | before
        · exact Nat.lt_succ_self _
        · exact Nat.lt_succ_of_lt (volume.within file before) }

/-- Puts bytes in an inode, whatever its name is by now. -/
def writeTo (volume : Volume Name) (inode : Nat) (bytes : List UInt8) : Volume Name :=
  { volume with
    inodes := volume.inodes.set inode bytes
    within := fun file is => by rw [length_set]; exact volume.within file is }

def remove (volume : Volume Name) (name : Name) : Volume Name :=
  { volume with
    names := volume.names.filter (·.1 ≠ name)
    distinct := (filter_sublist.map _).nodup volume.distinct
    single := (filter_sublist.map _).nodup volume.single
    within := fun file is => volume.within file (mem_of_mem_filter is) }

/-- Moves a file, in the place of what has the name; `none` if there is no such file. -/
def rename (volume : Volume Name) (source target : Name) : Option (Volume Name) :=
  match found : volume.find? source with
  | none => none
  | some inode => some {
      names := (target, inode) :: volume.names.filter fun file => file.1 ≠ source ∧ file.1 ≠ target
      inodes := volume.inodes
      distinct := by
        refine nodup_cons.mpr ⟨fun member => ?_, (filter_sublist.map _).nodup volume.distinct⟩
        obtain ⟨file, is, same⟩ := mem_map.mp member
        exact (of_decide_eq_true (mem_filter.mp is).2).2 same
      single := by
        refine nodup_cons.mpr ⟨fun member => ?_, (filter_sublist.map _).nodup volume.single⟩
        obtain ⟨file, is, rfl⟩ := mem_map.mp member
        obtain ⟨before, others⟩ := mem_filter.mp is
        exact (of_decide_eq_true others).1 (find?_injective (find?_eq_some.mpr before) found)
      within := by
        intro file is
        rcases mem_cons.mp is with rfl | before
        · exact find?_lt found
        · exact volume.within file (mem_of_mem_filter before) }

@[simp] theorem find?_remove
    : (volume.remove name).find? other = if other = name then none else volume.find? other := by
  refine find?_eq_iff.mpr fun inode => ?_
  rw [remove, mem_filter]
  split
  next same => simp [same]
  next differs => simp [differs, find?_eq_some]

theorem createNew_eq_some {after} (created : volume.createNew name = some after)
    : volume.find? name = none ∧ after.inodes = volume.inodes ++ [[]]
      ∧ ∀ other, after.find? other
        = if other = name then some volume.inodes.length else volume.find? other := by
  unfold createNew at created
  split at created
  · cases created
  next missing =>
    cases created
    refine ⟨missing, rfl, fun other => find?_eq_iff.mpr fun inode => ?_⟩
    rw [mem_cons, Prod.mk.injEq, ← find?_eq_some]
    split
    next same =>
      rw [same, missing]
      simp [eq_comm]
    next differs => simp [differs]

theorem createNew_eq_none (failed : volume.createNew name = none)
    : (volume.find? name).isSome = true := by
  unfold createNew at failed
  split at failed
  next found =>
    rw [found]
    rfl
  · cases failed

theorem rename_eq_some {after} (renamed : volume.rename source target = some after)
    : ∃ inode, volume.find? source = some inode ∧ after.inodes = volume.inodes
      ∧ ∀ other, after.find? other
        = if other = target then some inode
          else if other = source then none else volume.find? other := by
  unfold rename at renamed
  split at renamed
  · cases renamed
  next inode found =>
    cases renamed
    refine ⟨inode, found, rfl, fun other => find?_eq_iff.mpr fun given => ?_⟩
    split
    next same => simp [same, eq_comm]
    next notTarget =>
      split
      next same =>
        subst same
        simp [notTarget]
      next notSource => simp [notTarget, notSource, find?_eq_some]

theorem rename_eq_none (failed : volume.rename source target = none)
    : volume.find? source = none := by
  unfold rename at failed
  split at failed
  · assumption
  · cases failed

end Volume

end Vgi.Lib
