import Vgi.Lib.Machine
import Vgi.Lib.Volume
import Vgi.Storage.FsLayout

/-! The work queue of one scope in the file system backend, by its file operations. One process
pushes, any number of processes pop, and each operation on the queue's directory is one step.
-/

namespace Vgi.Storage.QueueFiles

open Lib List

/-- What makes the claims of a call differ from those of all other ones. -/
structure Tag where
  pid : Nat
  seq : Nat
deriving DecidableEq

inductive QueueFile where
  | item (id : Nat)
  | claimed (tag : Tag) (id : Nat)
deriving DecidableEq

namespace QueueFile

def fileName : QueueFile → String
  | .item id => Fs.idFile id
  | .claimed tag id =>
    "claimed_" ++ (toString tag.pid ++ "_" ++ toString tag.seq ++ "_" ++ Fs.idFile id)

def itemId? : QueueFile → Option Nat
  | .item id => some id
  | .claimed _ _ => none

/-- No number starts with the first letter. -/
theorem parseId_claimed (text) : Fs.parseId ("claimed_" ++ text) = none := by
  have notNumber : ∀ count, Fs.parseNumber (("claimed_" ++ text).toList.take count) = none := by
    intro count
    rw [String.toList_append]
    cases count <;> rfl
  rw [Fs.parseId, notNumber, ite_self]

/-- The ids that are read from the names are those of the items. -/
theorem parseId_fileName (file : QueueFile)
    : Fs.parseId file.fileName = file.itemId?.map Int.ofNat := by
  cases file with
  | item id => exact Fs.parseId_idFile id
  | claimed tag id => exact parseId_claimed _

end QueueFile

variable (volume : Volume QueueFile)

/-- The ids of the items that nobody has claimed, as they are listed. -/
def itemIds : List Nat := volume.names.filterMap (·.1.itemId?)

/-- What the listing reads from the names in the directory. -/
theorem parseId_names
    : (volume.names.map (·.1.fileName)).filterMap Fs.parseId = (itemIds volume).map Int.ofNat := by
  rw [itemIds, filterMap_map, map_filterMap]
  exact filterMap_congr fun file _ => file.1.parseId_fileName

/-- `max_id` and one more. -/
def firstId : Nat :=
  match (itemIds volume).max? with
  | some id => id + 1
  | none => 0

/-- Where the pusher is: between calls, or before its next file operation. -/
inductive Pusher where
  | idle
  | listing (items : List Bytes)
  | creating (id : Nat) (item : Bytes) (rest : List Bytes)
  | writing (inode id : Nat) (item : Bytes) (rest : List Bytes)
deriving DecidableEq

def Pusher.loop (id : Nat) : List Bytes → Pusher
  | [] => .idle
  | item :: rest => .creating id item rest

/-- What was read from a file, with the inode it came from. -/
structure Contents where
  inode : Nat
  bytes : Bytes
deriving DecidableEq

/-- Where a `queue_pop` is: before its next file operation, or at its end. -/
inductive PopStage where
  | listing
  | trying (id : Nat) (rest : List Nat)
  | reading (id : Nat) (rest : List Nat)
  | removing (id : Nat) (rest : List Nat) (data : Option Contents)
  | returned (data : Option Contents)
deriving DecidableEq

def PopStage.loop : List Nat → PopStage
  | [] => .returned none
  | id :: rest => .trying id rest

def PopStage.inProgress : PopStage → Bool
  | .returned _ => false
  | _ => true

structure PopCall where
  tag : Tag
  stage : PopStage
  /-- At some moment of the call there was no item that nobody had claimed. -/
  sawEmpty : Bool
deriving DecidableEq

structure QueueState where
  volume : Volume QueueFile
  pusher : Pusher
  calls : List PopCall
  /-- The items of all calls of `queue_push`. -/
  given : List Bytes
  /-- The items that files were created for, each at its inode. -/
  pushed : List Bytes
deriving DecidableEq

namespace QueueState

variable (state : QueueState)

def pushStep : Option QueueState :=
  match state.pusher with
  | .idle => none
  | .listing items => some { state with pusher := .loop (firstId state.volume) items }
  | .creating id item rest =>
    match state.volume.createNew (.item id) with
    | some volume =>
      some { state with
        volume
        pusher := .writing state.volume.inodes.length id item rest
        pushed := state.pushed ++ [item] }
    | none => some { state with pusher := .loop (id + 1) rest }
  | .writing inode id item rest =>
    some { state with
      volume := state.volume.writeTo inode item
      pusher := .loop (id + 1) rest }

/-- The next file operation of a `queue_pop`, on the directory and on its own stage. -/
def popOperation (volume : Volume QueueFile) (tag : Tag)
    : PopStage → Option (Volume QueueFile × PopStage)
  | .listing => some (volume, .loop ((itemIds volume).insertionSort (· ≤ ·)))
  | .trying id rest =>
    match volume.rename (.item id) (.claimed tag id) with
    | some volume => some (volume, .reading id rest)
    | none => some (volume, .loop rest)
  | .reading id rest =>
    let data := (volume.find? (.claimed tag id)).bind fun inode =>
      volume.inodes[inode]?.map (Contents.mk inode)
    some (volume, .removing id rest data)
  | .removing id rest data =>
    some (volume.remove (.claimed tag id),
      if data.isSome then .returned data else .loop rest)
  | .returned _ => none

def popStep (index : Nat) : Option QueueState :=
  match state.calls[index]? with
  | none => none
  | some call =>
    (popOperation state.volume call.tag call.stage).map fun (volume, stage) =>
      { state with volume, calls := state.calls.set index { call with stage } }

/-- The calls in progress see whether there is an item that nobody has claimed. -/
def observe : QueueState :=
  { state with
    calls := state.calls.map fun call =>
      if call.stage.inProgress then
        { call with sawEmpty := call.sawEmpty || (itemIds state.volume).isEmpty }
      else call }

end QueueState

inductive QueueAction where
  | push (items : List Bytes)
  | pushStep
  /-- The counter of a process never gives the same number twice. -/
  | pop (tag : Tag)
  | popStep (index : Nat)
deriving DecidableEq

namespace QueueState

variable (state : QueueState)

def move : QueueAction → Option QueueState
  | .push items =>
    match state.pusher with
    | .idle => some { state with pusher := .listing items, given := state.given ++ items }
    | _ => none
  | .pushStep => state.pushStep
  | .pop tag =>
    if ∃ call ∈ state.calls, call.tag = tag then none
    else some { state with calls := state.calls ++ [⟨tag, .listing, false⟩] }
  | .popStep index => state.popStep index

def next (action : QueueAction) : Option QueueState := (state.move action).map observe

end QueueState

def queueMachine : Machine QueueState QueueAction where
  initial state := state = ⟨.empty, .idle, [], [], []⟩
  next := QueueState.next

end Vgi.Storage.QueueFiles
