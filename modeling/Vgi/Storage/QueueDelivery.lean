import Vgi.Storage.QueueFiles

/-! When items are only created while no `queue_pop` is about to claim one, and claimed files are
only read once they are written, the queue of the file system backend delivers every item whole
and once.
-/

namespace Vgi.Storage.QueueFiles

open Lib Option List Volume Pusher

variable {volume : Volume QueueFile} {id : Nat}

theorem mem_itemIds : id ∈ itemIds volume ↔ (volume.find? (.item id)).isSome = true := by
  rw [isSome_iff_exists]
  simp only [itemIds, mem_filterMap, find?_eq_some]
  constructor
  · rintro ⟨⟨file, inode⟩, member, is⟩
    cases file with
    | item =>
      cases is
      exact ⟨inode, member⟩
    | claimed => cases is
  · rintro ⟨inode, member⟩
    exact ⟨_, member, rfl⟩

theorem lt_firstId (member : id ∈ itemIds volume) : id < firstId volume := by
  unfold firstId
  split
  next largest is => exact Nat.lt_succ_of_le ((max?_eq_some_iff.mp is).2 id member)
  next none_ =>
    rw [max?_eq_none_iff.mp none_] at member
    cases member

namespace Pusher

def remaining : Pusher → List Bytes
  | .idle => []
  | .listing items => items
  | .creating _ item rest => item :: rest
  | .writing _ _ _ rest => rest

def unwritten : Pusher → Option Nat
  | .writing inode _ _ _ => some inode
  | _ => none

def creates : Pusher → Bool
  | .creating _ _ _ => true
  | _ => false

def nextId : Pusher → Option Nat
  | .creating id _ _ => some id
  | .writing _ id _ _ => some (id + 1)
  | _ => none

@[simp] theorem remaining_loop (id items) : (loop id items).remaining = items := by
  cases items <;> rfl

@[simp] theorem unwritten_loop (id items) : (loop id items).unwritten = none := by
  cases items <;> rfl

theorem nextId_loop {next items} (is : next ∈ (loop id items).nextId) : next = id := by
  cases items with
  | nil => cases is
  | cons => cases is; rfl

end Pusher

def PopStage.holds : PopStage → Option Nat
  | .reading id _ => some id
  | .removing id _ _ => some id
  | _ => none

def PopStage.reads : PopStage → Option Nat
  | .reading id _ => some id
  | _ => none

/-- The call has listed files and is about to claim one. -/
def PopStage.tries : PopStage → Bool
  | .trying _ _ => true
  | _ => false

namespace QueueState

/-- An item is in the queue, or a call in progress has claimed it, or it was returned. -/
inductive Whereabouts (state : QueueState) (inode : Nat) : Prop where
  | queued (id : Nat) (found : state.volume.find? (.item id) = some inode)
  | claimed (index : Nat) (call : PopCall) (is : state.calls[index]? = some call) (id : Nat)
      (holds : call.stage.holds = some id)
      (found : state.volume.find? (.claimed call.tag id) = some inode)
  | returned (index : Nat) (call : PopCall) (is : state.calls[index]? = some call)
      (bytes : Bytes) (ends : call.stage = .returned (some ⟨inode, bytes⟩))

/-- The queue delivers every item whole and once. -/
structure Delivers (state : QueueState) : Prop where
  /-- No item is dropped when it is pushed. -/
  given : state.given = state.pushed ++ state.pusher.remaining
  kept : ∀ inode < state.pushed.length, state.Whereabouts inode
  whole : ∀ {index : Nat} {call data}, state.calls[index]? = some call →
    call.stage = .returned (some data) → state.pushed[data.inode]? = some data.bytes
  once : ∀ {one other : Nat} {first second data again},
    state.calls[one]? = some first → state.calls[other]? = some second →
    first.stage = .returned (some data) → second.stage = .returned (some again) →
    data.inode = again.inode → one = other
  empty : ∀ {index : Nat} {call}, state.calls[index]? = some call →
    call.stage = .returned none → call.sawEmpty = true

/-- A file is created while no call is about to claim one that it has listed, and a claimed file
is written before it is read.
-/
def Undisturbed (state : QueueState) : QueueAction → Prop
  | .pushStep => state.pusher.creates = true → ∀ call ∈ state.calls, call.stage.tries = false
  | .popStep index =>
    ∀ call ∈ state.calls[index]?, ∀ id ∈ call.stage.reads, ∀ inode ∈ state.pusher.unwritten,
      state.volume.find? (.claimed call.tag id) ≠ some inode
  | _ => True

instance decidableUndisturbed (state : QueueState)
    : (action : QueueAction) → Decidable (state.Undisturbed action)
  | .push _ | .pop _ => isTrue trivial
  | .pushStep =>
    inferInstanceAs (Decidable (state.pusher.creates = true →
      ∀ call ∈ state.calls, call.stage.tries = false))
  | .popStep index =>
    inferInstanceAs (Decidable (∀ call ∈ state.calls[index]?, ∀ id ∈ call.stage.reads,
      ∀ inode ∈ state.pusher.unwritten, state.volume.find? (.claimed call.tag id) ≠ some inode))

/-- What a call knows of the directory. -/
def CallSound (volume : Volume QueueFile) (pushed : List Bytes) (call : PopCall) : Prop :=
  match call.stage with
  | .listing => True
  | .trying id rest => ∀ other ∈ itemIds volume, other ∈ id :: rest
  | .reading id _ => ∃ inode, volume.find? (.claimed call.tag id) = some inode
  | .removing id _ data => ∃ inode bytes, volume.find? (.claimed call.tag id) = some inode
      ∧ pushed[inode]? = some bytes ∧ data = some ⟨inode, bytes⟩
  | .returned (some data) => pushed[data.inode]? = some data.bytes
      ∧ ∀ file, volume.find? file ≠ some data.inode
  | .returned none => call.sawEmpty = true

variable {call : PopCall} {index : Nat} {tag : Tag} {stage : PopStage} {rest : List Nat}
  {sawEmpty : Bool} {pushed : List Bytes}

/-- What the others do to the directory leaves a call's knowledge. -/
theorem CallSound.mono {after more}
    (sound : CallSound volume pushed call) (items : ∀ id rest, call.stage = .trying id rest →
      ∀ id ∈ itemIds after, id ∈ itemIds volume)
    (claims : ∀ id, after.find? (.claimed call.tag id) = volume.find? (.claimed call.tag id))
    (names : ∀ file inode, after.find? file = some inode → inode < pushed.length →
      ∃ file, volume.find? file = some inode)
    : CallSound after (pushed ++ more) call := by
  have found {inode : Nat} {bytes : Bytes} (is : pushed[inode]? = some bytes)
      : (pushed ++ more)[inode]? = some bytes := by
    rw [List.getElem?_append_left (List.getElem?_eq_some_iff.mp is).1]
    exact is
  unfold CallSound at sound ⊢
  split
  · trivial
  next id rest is =>
    rw [is] at sound
    exact fun other member => sound other (items id rest is other member)
  next id rest is =>
    rw [is] at sound
    rw [claims]
    exact sound
  next id rest data is =>
    rw [is] at sound
    obtain ⟨inode, bytes, holds, item, same⟩ := sound
    exact ⟨inode, bytes, (claims id).trans holds, found item, same⟩
  next data is =>
    rw [is] at sound
    refine ⟨found sound.1, fun file named => ?_⟩
    obtain ⟨earlier, before⟩ := names file _ named (List.getElem?_eq_some_iff.mp sound.1).1
    exact sound.2 earlier before
  next is =>
    rw [is] at sound
    exact sound

structure Sound (state : QueueState) : Prop where
  given : state.given = state.pushed ++ state.pusher.remaining
  length : state.volume.inodes.length = state.pushed.length
  content : ∀ inode, state.pusher.unwritten ≠ some inode →
    state.volume.inodes[inode]? = state.pushed[inode]?
  written : ∀ {inode id item rest},
    state.pusher = .writing inode id item rest → state.pushed[inode]? = some item
  fresh : ∀ next ∈ state.pusher.nextId, ∀ id ∈ itemIds state.volume, id < next
  tags : ∀ {one other : Nat} {first second}, state.calls[one]? = some first →
    state.calls[other]? = some second → first.tag = second.tag → one = other
  claims : ∀ {tag id inode}, state.volume.find? (.claimed tag id) = some inode →
    ∃ (index : Nat) (call : PopCall), state.calls[index]? = some call ∧ call.tag = tag
      ∧ call.stage.holds = some id
  calls : ∀ {index : Nat} {call}, state.calls[index]? = some call →
    CallSound state.volume state.pushed call
  kept : ∀ inode < state.pushed.length, state.Whereabouts inode
  once : ∀ {one other : Nat} {first second data again},
    state.calls[one]? = some first → state.calls[other]? = some second →
    first.stage = .returned (some data) → second.stage = .returned (some again) →
    data.inode = again.inode → one = other

variable {inode : Nat}

/-- An item is where it was while no name of it is taken and every call keeps its stage. -/
theorem Whereabouts.mono {state after : QueueState} (here : state.Whereabouts inode)
    (names : ∀ file, state.volume.find? file = some inode → after.volume.find? file = some inode)
    (calls : ∀ {index : Nat} {call}, state.calls[index]? = some call →
      ∃ held, after.calls[index]? = some held ∧ held.tag = call.tag ∧ held.stage = call.stage)
    : after.Whereabouts inode := by
  cases here with
  | queued id found => exact .queued id (names _ found)
  | claimed index call is id holds found =>
    obtain ⟨held, is, tag, stage⟩ := calls is
    exact .claimed index held is id (stage ▸ holds) (tag ▸ names _ found)
  | returned index call is bytes ends =>
    obtain ⟨held, is, _, stage⟩ := calls is
    exact .returned index held is bytes (stage.trans ends)

/-- The calls in progress have seen what the queue is like now. -/
def Watched (state : QueueState) : Prop :=
  ∀ {index : Nat} {call : PopCall}, state.calls[index]? = some call →
    call.stage.inProgress = true → itemIds state.volume = [] → call.sawEmpty = true

variable {state after : QueueState} (sound : state.Sound)

include sound

theorem Sound.delivers : state.Delivers := by
  refine ⟨sound.given, sound.kept, fun found ends => ?_, sound.once, fun found ends => ?_⟩
  all_goals
    have known := sound.calls found
    rw [CallSound, ends] at known
  · exact known.1
  · exact known

/-- A step of the pusher that is no file operation on names. -/
theorem Sound.setPusher {pusher given}
    (same : given = state.pushed ++ pusher.remaining) (unwritten : state.pusher.unwritten = none)
    (writes : pusher.unwritten = none)
    (fresh : ∀ next ∈ pusher.nextId, ∀ id ∈ itemIds state.volume, id < next)
    : { state with pusher, given }.Sound :=
  { sound with
    given := same
    content := fun inode _ => sound.content inode (by rw [unwritten]; exact nofun)
    written := fun is => by
      change pusher = _ at is
      rw [is] at writes
      cases writes
    fresh
    kept := fun inode within => (sound.kept inode within).mono (fun _ named => named)
      fun is => ⟨_, is, rfl, rfl⟩ }

variable {item : Bytes}

/-- A new file takes the next inode, and its item moves from the pusher to the directory; no call
is about to claim from an older listing.
-/
theorem Sound.creates {rest} (is : state.pusher = .creating id item rest)
    (calm : ∀ call ∈ state.calls, call.stage.tries = false)
    (created : state.volume.createNew (.item id) = some volume)
    : { state with
        volume
        pusher := .writing state.volume.inodes.length id item rest
        pushed := state.pushed ++ [item] }.Sound := by
  obtain ⟨missing, inodes, find⟩ := createNew_eq_some created
  have claims (tag : Tag) (id : Nat)
      : volume.find? (.claimed tag id) = state.volume.find? (.claimed tag id) := by
    rw [find, if_neg nofun]
  refine { sound with
    given := ?_, length := ?_, content := ?_, written := ?_, fresh := ?_, claims := ?_, calls := ?_,
    kept := ?_ }
  · simpa [is, remaining] using sound.given
  · simp [inodes, sound.length]
  · intro inode other
    have other : inode ≠ state.pushed.length := by
      rintro rfl
      exact other (by simp [unwritten, sound.length])
    rw [inodes]
    rcases Nat.lt_or_gt_of_ne other with before | after
    · rw [getElem?_append_left (sound.length ▸ before), getElem?_append_left before]
      exact sound.content inode (by rw [is]; exact nofun)
    · rw [getElem?_eq_none (by simp [sound.length]; omega), getElem?_eq_none (by simp; omega)]
  · intro inode id item rest same
    cases same
    simp [sound.length]
  · intro next isNext other member
    cases isNext
    rw [mem_itemIds, find] at member
    split at member
    next same =>
      cases same
      exact Nat.lt_succ_self _
    · exact Nat.lt_succ_of_lt (sound.fresh id (by rw [is]; rfl) other (mem_itemIds.mpr member))
  · intro tag id inode found
    exact sound.claims ((claims tag id).symm.trans found)
  · intro index call found
    refine (sound.calls found).mono (fun id rest tries => ?_) (claims call.tag) ?_
    · have calm := calm call (mem_of_getElem? found)
      rw [tries] at calm
      cases calm
    · intro file inode named within
      rw [find] at named
      split at named
      · cases named
        exact absurd within (by simp [sound.length])
      · exact ⟨file, named⟩
  · intro inode within
    rw [length_append, length_singleton] at within
    rcases Nat.lt_succ_iff_lt_or_eq.mp within with before | rfl
    · refine (sound.kept inode before).mono (fun file named => (find file).trans ?_)
        fun is => ⟨_, is, rfl, rfl⟩
      rw [if_neg]
      · exact named
      · rintro rfl
        cases missing.symm.trans named
    · exact .queued id ((find _).trans (by rw [if_pos rfl, sound.length]))

/-- Writing gives the file its item, whatever name it has by then. -/
theorem Sound.writes {rest} (is : state.pusher = .writing inode id item rest)
    : { state with
        volume := state.volume.writeTo inode item
        pusher := .loop (id + 1) rest }.Sound := by
  refine { sound with
    given := ?_, length := ?_, content := ?_, written := ?_, fresh := ?_, kept := ?_ }
  · rw [remaining_loop]
    exact sound.given.trans (by rw [is]; rfl)
  · simpa [writeTo] using sound.length
  · intro other _
    by_cases same : inode = other
    · subst same
      have item := sound.written is
      have within := (List.getElem?_eq_some_iff.mp item).1
      rw [item]
      exact getElem?_set_self (sound.length ▸ within)
    · rw [writeTo, getElem?_set_ne same]
      refine sound.content other ?_
      rw [is]
      exact fun equal => same (some.inj equal)
  · intro other next bytes later loops
    have none_ := unwritten_loop (id + 1) rest
    rw [show loop (id + 1) rest = _ from loops] at none_
    cases none_
  · intro next isNext other member
    rw [nextId_loop isNext]
    exact sound.fresh (id + 1) (by rw [is]; rfl) other member
  · exact fun other within => (sound.kept other within).mono (fun _ named => named)
      fun is => ⟨_, is, rfl, rfl⟩

theorem Sound.pushStep (calm : state.Undisturbed .pushStep)
    (steps : state.pushStep = some after) : after.Sound := by
  unfold QueueState.pushStep at steps
  split at steps
  · cases steps
  next items is =>
    cases steps
    refine sound.setPusher ?_ (by rw [is]; rfl) (unwritten_loop _ _) ?_
    · rw [remaining_loop]
      exact sound.given.trans (by rw [is]; rfl)
    · intro next isNext id member
      rw [nextId_loop isNext]
      exact lt_firstId member
  next id item rest is =>
    have calm := calm (by rw [is]; rfl)
    split at steps
    next volume created =>
      cases steps
      exact sound.creates is calm created
    · -- The next id is above those of all files.
      rename_i failed
      have member := mem_itemIds.mpr (createNew_eq_none failed)
      exact absurd (sound.fresh id (by rw [is]; rfl) id member) (Nat.lt_irrefl id)
  next is =>
    cases steps
    exact sound.writes is

theorem Sound.starts (unused : ¬ ∃ call ∈ state.calls, call.tag = tag)
    : { state with calls := state.calls ++ [PopCall.mk tag .listing false] }.Sound := by
  have keep {index : Nat} {call : PopCall} (found : state.calls[index]? = some call)
      : (state.calls ++ [PopCall.mk tag .listing false])[index]? = some call := by
    rw [List.getElem?_append_left (List.getElem?_eq_some_iff.mp found).1]
    exact found
  refine { sound with tags := ?_, claims := ?_, calls := ?_, kept := ?_, once := ?_ }
  · intro one other first second is isOther same
    rcases getElem?_concat_cases is with old | ⟨atEnd, rfl⟩
    · rcases getElem?_concat_cases isOther with oldOther | ⟨_, rfl⟩
      · exact sound.tags old oldOther same
      · exact (unused ⟨first, mem_of_getElem? old, same⟩).elim
    · rcases getElem?_concat_cases isOther with oldOther | ⟨otherAtEnd, _⟩
      · exact (unused ⟨second, mem_of_getElem? oldOther, same.symm⟩).elim
      · exact atEnd.trans otherAtEnd.symm
  · intro tag id inode found
    obtain ⟨index, call, is, facts⟩ := sound.claims found
    exact ⟨index, call, keep is, facts⟩
  · intro index call is
    rcases getElem?_concat_cases is with old | ⟨_, rfl⟩
    · exact sound.calls old
    · trivial
  · exact fun inode within => (sound.kept inode within).mono (fun _ named => named)
      fun is => ⟨_, keep is, rfl, rfl⟩
  · intro one other first second data again is isOther ends endsToo same
    rcases getElem?_concat_cases is with old | ⟨_, rfl⟩
    · rcases getElem?_concat_cases isOther with oldOther | ⟨_, rfl⟩
      · exact sound.once old oldOther ends endsToo same
      · cases endsToo
    · cases ends

/-- What an operation of a call may do: it takes names away from items, changes claims of its own,
and loses no file that it does not return.
-/
structure Takes (state : QueueState) (call : PopCall) (volume : Volume QueueFile)
    (stage : PopStage) : Prop where
  inodes : volume.inodes = state.volume.inodes
  items : ∀ id ∈ itemIds volume, id ∈ itemIds state.volume
  others : ∀ {tag}, tag ≠ call.tag → ∀ id,
    volume.find? (.claimed tag id) = state.volume.find? (.claimed tag id)
  names : ∀ {file inode}, volume.find? file = some inode →
    ∃ file, state.volume.find? file = some inode
  own : ∀ {id inode}, volume.find? (.claimed call.tag id) = some inode → stage.holds = some id
  knows : CallSound volume state.pushed { call with stage }
  moved : ∀ {inode}, (∃ id, state.volume.find? (.item id) = some inode)
      ∨ (∃ id, call.stage.holds = some id
        ∧ state.volume.find? (.claimed call.tag id) = some inode) →
    (∃ id, volume.find? (.item id) = some inode)
      ∨ (∃ id, stage.holds = some id ∧ volume.find? (.claimed call.tag id) = some inode)
      ∨ ∃ bytes, stage = .returned (some ⟨inode, bytes⟩)
  held : ∀ {data}, stage = .returned (some data) → ∃ file, state.volume.find? file = some data.inode

variable (found : state.calls[index]? = some call)

include found

/-- One step of a running call, by what it leaves of the directory: every file that is not its own
stays where it was.
-/
theorem Sound.takes (running : call.stage.inProgress = true) (takes : state.Takes call volume stage)
    : { state with volume, calls := state.calls.set index { call with stage } }.Sound := by
  have inside := (List.getElem?_eq_some_iff.mp found).1
  have here : (state.calls.set index { call with stage })[index]? = some { call with stage } :=
    getElem?_set_self inside
  have keep {other : Nat} {held : PopCall} (differs : other ≠ index)
      (is : state.calls[other]? = some held)
      : (state.calls.set index { call with stage })[other]? = some held := by
    rw [getElem?_set_ne differs.symm]
    exact is
  have apart {other : Nat} {held : PopCall} (differs : other ≠ index)
      (is : state.calls[other]? = some held) : held.tag ≠ call.tag :=
    fun same => differs (sound.tags is found same)
  refine { sound with
    length := ?_, content := ?_, fresh := ?_, tags := ?_, claims := ?_, calls := ?_, kept := ?_,
    once := ?_ }
  · exact (congrArg List.length takes.inodes).trans sound.length
  · intro inode other
    rw [takes.inodes]
    exact sound.content inode other
  · exact fun next isNext id member => sound.fresh next isNext id (takes.items id member)
  · intro one other first second is isOther same
    have before {at_ : Nat} {held : PopCall}
        (is : (state.calls.set index { call with stage })[at_]? = some held)
        : ∃ earlier, state.calls[at_]? = some earlier ∧ earlier.tag = held.tag := by
      rcases getElem?_set_cases is with ⟨rfl, rfl⟩ | ⟨_, old⟩
      · exact ⟨call, found, rfl⟩
      · exact ⟨held, old, rfl⟩
    obtain ⟨one, isOne, tag⟩ := before is
    obtain ⟨two, isTwo, tagToo⟩ := before isOther
    exact sound.tags isOne isTwo (tag.trans (same.trans tagToo.symm))
  · intro tag id inode named
    -- A claim under another tag belongs to another call, which has not moved.
    by_cases mine : tag = call.tag
    · subst mine
      exact ⟨index, _, here, rfl, takes.own named⟩
    · have named := (takes.others mine id).symm.trans named
      obtain ⟨other, held, is, isTag, holds⟩ := sound.claims named
      refine ⟨other, held, keep ?_ is, isTag, holds⟩
      rintro rfl
      rw [found] at is
      cases is
      exact mine isTag.symm
  · intro other held is
    rcases getElem?_set_cases is with ⟨rfl, rfl⟩ | ⟨differs, old⟩
    · exact takes.knows
    · have known : CallSound volume (state.pushed ++ []) held :=
        (sound.calls old).mono (fun _ _ _ => takes.items) (takes.others (apart differs old))
          fun _ _ named _ => takes.names named
      rwa [append_nil] at known
  · intro inode within
    -- What this call could have taken is queued, claimed or returned by it now.
    have mine (taken : (∃ id, state.volume.find? (.item id) = some inode)
        ∨ (∃ id, call.stage.holds = some id
          ∧ state.volume.find? (.claimed call.tag id) = some inode))
        : Whereabouts { state with
          volume, calls := state.calls.set index { call with stage } } inode := by
      rcases takes.moved taken with ⟨id, item⟩ | ⟨id, holds, claim⟩ | ⟨bytes, ends⟩
      · exact .queued id item
      · exact .claimed index _ here id holds claim
      · exact .returned index _ here bytes ends
    cases sound.kept inode within with
    | queued id item => exact mine (.inl ⟨id, item⟩)
    | claimed other held is id holds claim =>
      by_cases differs : other = index
      · subst differs
        rw [found] at is
        cases is
        exact mine (.inr ⟨id, holds, claim⟩)
      · exact .claimed other held (keep differs is) id holds
          ((takes.others (apart differs is) id).trans claim)
    | returned other held is bytes ends =>
      refine .returned other held (keep ?_ is) bytes ends
      rintro rfl
      rw [found] at is
      cases is
      rw [ends] at running
      cases running
  · intro one other first second data again is isOther ends endsToo same
    -- A file that is returned now had a name, and one that was returned before had none.
    have gone {at_ : Nat} {held : PopCall} {old new : Contents}
        (is : state.calls[at_]? = some held) (ends : held.stage = .returned (some old))
        (returns : stage = .returned (some new)) (same : old.inode = new.inode) : False := by
      obtain ⟨file, named⟩ := takes.held returns
      have known := sound.calls is
      rw [CallSound, ends] at known
      exact known.2 file (same ▸ named)
    rcases getElem?_set_cases is with ⟨rfl, rfl⟩ | ⟨_, old⟩
    · rcases getElem?_set_cases isOther with ⟨rfl, rfl⟩ | ⟨_, oldOther⟩
      · rfl
      · exact (gone oldOther endsToo ends same.symm).elim
    · rcases getElem?_set_cases isOther with ⟨rfl, rfl⟩ | ⟨_, oldOther⟩
      · exact (gone old ends endsToo same).elim
      · exact sound.once old oldOther ends endsToo same

omit found sound in
/-- The loop goes on, or ends: then the queue holds nothing that the call has not seen. -/
theorem callSound_loop {ids} (listed : ∀ id ∈ itemIds volume, id ∈ ids)
    (watched : itemIds volume = [] → call.sawEmpty = true)
    : CallSound volume pushed { call with stage := .loop ids } := by
  cases ids with
  | nil =>
    refine watched (eq_nil_iff_forall_not_mem.mpr fun id member => ?_)
    cases listed id member
  | cons id rest => exact listed

/-- The call has no claim but the one it holds. -/
theorem Sound.claims_none {other} (holds : call.stage.holds ≠ some id)
    : state.volume.find? (.claimed call.tag id) ≠ some other := by
  intro named
  obtain ⟨at_, owner, is, tag, owns⟩ := sound.claims named
  cases sound.tags is found tag
  rw [found] at is
  cases is
  exact holds owns

/-- The operation changes no name, and the call holds what it held. -/
theorem Sound.takesNothing (same : stage.holds = call.stage.holds)
    (knows : CallSound state.volume state.pushed { call with stage })
    (held : ∀ data, stage ≠ .returned (some data))
    : state.Takes call state.volume stage where
  inodes := rfl
  items _ member := member
  others _ _ := rfl
  names {file _} named := ⟨file, named⟩
  own named := by
    by_contra differs
    exact sound.claims_none found (same ▸ differs) named
  knows := knows
  moved taken := taken.imp_right fun ⟨id, holds, named⟩ => .inl ⟨id, same.trans holds, named⟩
  held returns := (held _ returns).elim

omit found

omit sound in
theorem holds_loop (ids) : (PopStage.loop ids).holds = none := by
  cases ids <;> rfl

omit sound in
theorem loop_ne_returned (ids data) : PopStage.loop ids ≠ .returned (some data) := by
  cases ids <;> exact nofun

/-- The rename succeeds for one call only, because it removes the name that the others look for. -/
theorem Sound.renames (found : state.calls[index]? = some ⟨tag, .trying id rest, sawEmpty⟩)
    (renamed : state.volume.rename (.item id) (.claimed tag id) = some volume)
    : state.Takes ⟨tag, .trying id rest, sawEmpty⟩ volume (.reading id rest) := by
  obtain ⟨inode, item, inodes, find⟩ := rename_eq_some renamed
  have mine : volume.find? (.claimed tag id) = some inode := by rw [find, if_pos rfl]
  constructor
  case inodes => exact inodes
  case items =>
    intro other member
    rw [mem_itemIds, find, if_neg (by simp)] at member
    split at member
    · cases member
    · exact mem_itemIds.mpr member
  case others =>
    intro other differs given
    rw [find, if_neg (fun same => differs (by cases same; rfl)), if_neg (by simp)]
  case names =>
    intro file given named
    rw [find] at named
    split at named
    · cases named
      exact ⟨_, item⟩
    · split at named
      · cases named
      · exact ⟨file, named⟩
  case own =>
    intro given other named
    rw [find] at named
    split at named
    next same =>
      cases same
      rfl
    · exact (sound.claims_none found (by simp [PopStage.holds]) named).elim
  case knows => exact ⟨inode, mine⟩
  case moved =>
    rintro given (⟨other, named⟩ | ⟨_, holds, _⟩)
    · by_cases same : other = id
      · subst same
        cases item.symm.trans named
        exact .inr (.inl ⟨other, rfl, mine⟩)
      · refine .inl ⟨other, ?_⟩
        rw [find, if_neg (by simp), if_neg (fun equal => same (by cases equal; rfl))]
        exact named
    · cases holds
  case held => simp

/-- What is read from a claimed file is the whole item, since the file was written before. -/
theorem Sound.reads (found : state.calls[index]? = some ⟨tag, .reading id rest, sawEmpty⟩)
    (written : ∀ inode ∈ state.pusher.unwritten, state.volume.find? (.claimed tag id) ≠ some inode)
    : state.Takes ⟨tag, .reading id rest, sawEmpty⟩ state.volume (.removing id rest
        ((state.volume.find? (.claimed tag id)).bind fun inode =>
          state.volume.inodes[inode]?.map (Contents.mk inode))) := by
  obtain ⟨inode, named⟩ := sound.calls found
  -- The file is written, so it holds the item that was pushed.
  have content := sound.content inode fun unwritten => written inode unwritten named
  obtain ⟨bytes, is⟩ : ∃ bytes, state.pushed[inode]? = some bytes :=
    ⟨_, getElem?_eq_getElem (sound.length ▸ find?_lt named)⟩
  refine sound.takesNothing found rfl ⟨inode, bytes, named, is, ?_⟩ nofun
  rw [named, bind_some, content, is]
  rfl

/-- A claimed file is removed after it was read, so its item is on its way to the caller. -/
theorem Sound.removes {data}
    (found : state.calls[index]? = some ⟨tag, .removing id rest data, sawEmpty⟩)
    : state.Takes ⟨tag, .removing id rest data, sawEmpty⟩
        (state.volume.remove (.claimed tag id))
        (if data.isSome then .returned data else .loop rest) := by
  obtain ⟨inode, bytes, named, is, rfl⟩ := sound.calls found
  constructor
  case inodes => rfl
  case items =>
    intro other member
    rw [mem_itemIds, find?_remove, if_neg nofun] at member
    exact mem_itemIds.mpr member
  case others =>
    intro other differs given
    rw [find?_remove, if_neg (fun same => differs (by cases same; rfl))]
  case names =>
    intro file given mine
    rw [find?_remove] at mine
    split at mine
    · cases mine
    · exact ⟨file, mine⟩
  case own =>
    intro given other mine
    rw [find?_remove] at mine
    split at mine
    · cases mine
    next differs =>
      refine (sound.claims_none found (fun holds => differs ?_) mine).elim
      cases holds
      rfl
  case knows =>
    refine ⟨is, fun file mine => ?_⟩
    rw [find?_remove] at mine
    split at mine
    · cases mine
    next differs => exact differs (find?_injective mine named)
  case moved =>
    rintro given (⟨other, item⟩ | ⟨other, holds, mine⟩)
    · refine .inl ⟨other, ?_⟩
      rw [find?_remove, if_neg nofun]
      exact item
    · cases holds
      cases named.symm.trans mine
      exact .inr (.inr ⟨bytes, rfl⟩)
  case held =>
    intro data returns
    cases returns
    exact ⟨_, named⟩

theorem Sound.popStep (watched : state.Watched)
    (calm : state.Undisturbed (.popStep index)) (steps : state.popStep index = some after)
    : after.Sound := by
  unfold QueueState.popStep at steps
  split at steps
  · cases steps
  next call found =>
    obtain ⟨⟨volume, stage⟩, operation, rfl⟩ := map_eq_some_iff.mp steps
    obtain ⟨tag, before, sawEmpty⟩ := call
    have saw := watched found
    cases before with
    | listing =>
      cases operation
      refine sound.takes found rfl (sound.takesNothing found (holds_loop _) ?_ (loop_ne_returned _))
      exact callSound_loop (fun _ member => (mem_insertionSort _).mpr member) (saw rfl)
    | trying id rest =>
      simp only [popOperation] at operation
      split at operation
      next renamed =>
        cases operation
        exact sound.takes found rfl (sound.renames found renamed)
      next failed =>
        cases operation
        refine sound.takes found rfl
          (sound.takesNothing found (holds_loop _) ?_ (loop_ne_returned _))
        refine callSound_loop (fun other member => ?_) (saw rfl)
        rcases mem_cons.mp (sound.calls found other member) with rfl | later
        · rw [mem_itemIds, rename_eq_none failed] at member
          cases member
        · exact later
    | reading id rest =>
      cases operation
      exact sound.takes found rfl (sound.reads found (calm _ found id rfl))
    | removing id rest data =>
      cases operation
      exact sound.takes found rfl (sound.removes found)
    | returned => cases operation

omit sound in
/-- Observing changes what calls in progress have seen, and nothing else. -/
theorem observe_cases (found : state.observe.calls[index]? = some call)
    : ∃ before, state.calls[index]? = some before ∧ call.tag = before.tag
      ∧ call.stage = before.stage ∧ (before.sawEmpty = true → call.sawEmpty = true)
      ∧ (call.stage.inProgress = true → itemIds state.volume = [] → call.sawEmpty = true) := by
  rw [observe, getElem?_map] at found
  obtain ⟨before, is, rfl⟩ := map_eq_some_iff.mp found
  refine ⟨before, is, ?_⟩
  split
  · refine ⟨rfl, rfl, fun saw => by simp [saw], fun _ empty => by simp [empty]⟩
  next ended => exact ⟨rfl, rfl, id, fun running => (ended running).elim⟩

include found in
omit sound in
theorem observe_of_calls : ∃ after, state.observe.calls[index]? = some after ∧ after.tag = call.tag
      ∧ after.stage = call.stage := by
  refine ⟨_, by rw [observe, getElem?_map, found]; rfl, ?_⟩
  dsimp only
  split <;> exact ⟨rfl, rfl⟩

theorem Sound.observe : state.observe.Sound := by
  refine { sound with tags := ?_, claims := ?_, calls := ?_, kept := ?_, once := ?_ }
  · intro one other first second is isOther same
    obtain ⟨_, before, tag, _⟩ := observe_cases is
    obtain ⟨_, beforeToo, tagToo, _⟩ := observe_cases isOther
    exact sound.tags before beforeToo (tag.symm.trans (same.trans tagToo))
  · intro tag id inode named
    obtain ⟨index, call, is, isTag, holds⟩ := sound.claims named
    obtain ⟨after, isAfter, sameTag, sameStage⟩ := observe_of_calls is
    exact ⟨index, after, isAfter, sameTag.trans isTag, sameStage ▸ holds⟩
  · intro index call is
    obtain ⟨before, isBefore, tag, stage, saw, _⟩ := observe_cases is
    have known := sound.calls isBefore
    unfold CallSound at known ⊢
    rw [stage, tag]
    revert known
    split <;> first | exact saw | exact id
  · exact fun inode within => (sound.kept inode within).mono (fun _ named => named) observe_of_calls
  · intro one other first second data again is isOther ends endsToo same
    obtain ⟨_, before, _, stage, _⟩ := observe_cases is
    obtain ⟨_, beforeToo, _, stageToo, _⟩ := observe_cases isOther
    exact sound.once before beforeToo (stage.symm.trans ends) (stageToo.symm.trans endsToo) same

omit sound in
theorem watched_observe (state : QueueState) : state.observe.Watched := by
  intro index call found running empty
  obtain ⟨_, _, _, _, _, saw⟩ := observe_cases found
  exact saw running empty

/-- Every step keeps the invariant, by the lemma for its kind. -/
theorem Sound.move {action} (watched : state.Watched)
    (calm : state.Undisturbed action) (moves : state.move action = some after) : after.Sound := by
  cases action with
  | push items =>
    simp only [QueueState.move] at moves
    split at moves
    next is =>
      cases moves
      refine sound.setPusher ?_ (by rw [is]; rfl) rfl (nofun)
      have given := sound.given
      rw [is] at given
      simpa [remaining] using given
    · cases moves
  | pushStep => exact sound.pushStep calm moves
  | pop tag =>
    simp only [QueueState.move] at moves
    split at moves
    · cases moves
    next unused =>
      cases moves
      exact sound.starts unused
  | popStep index => exact sound.popStep watched calm moves

omit sound

theorem sound_of_reaches (reached : queueMachine.Reaches Undisturbed state)
    : state.Sound ∧ state.Watched := by
  refine reached.invariant (fun state => state.Sound ∧ state.Watched) ?_ ?_
  · rintro _ rfl
    exact ⟨⟨rfl, rfl, fun _ _ => rfl, nofun, nofun, nofun, nofun, nofun, nofun, nofun⟩, nofun⟩
  · rintro before after action ⟨sound, watched⟩ calm steps
    obtain ⟨moved, moves, rfl⟩ := map_eq_some_iff.mp steps
    exact ⟨(sound.move watched calm moves).observe, watched_observe _⟩

end QueueState

/-- In every interleaving of a pusher and any number of popping processes: what was pushed is in
the directory, held by one call or returned by one, whole and once; and a call returns nothing only
if it has seen the queue empty.
-/
theorem queue_delivers_once (state : QueueState)
    (reached : queueMachine.Reaches QueueState.Undisturbed state) : state.Delivers :=
  (QueueState.sound_of_reaches reached).1.delivers

namespace QueueSample

def fresh : QueueState := ⟨.empty, .idle, [], [], []⟩

/-- The steps of a `queue_pop` that claims the first file it has listed. -/
def pops (index : Nat) : List QueueAction := replicate 4 (.popStep index)

/-- The steps of a `queue_push` of one item. -/
def pushes (item : Bytes) : List QueueAction := .push [item] :: replicate 3 .pushStep

/-- Two items, popped by two processes, one of which has listed the file that the other takes. -/
def actions : List QueueAction :=
  pushes [7] ++ pushes [8] ++ [.pop ⟨1, 0⟩, .pop ⟨2, 0⟩, .popStep 0] ++ pops 1
    ++ [.popStep 0, .popStep 0, .popStep 0, .popStep 0]

/-- A file is claimed and read before it is written. -/
def early : List QueueAction := [.push [[7]], .pushStep, .pushStep, .pop ⟨1, 0⟩] ++ pops 0

/-- The call has listed the first item when the second one comes, and the other process takes the
first one.
-/
def overtaken : List QueueAction :=
  pushes [7] ++ [.pop ⟨1, 0⟩, .popStep 0] ++ pushes [8] ++ [.pop ⟨2, 0⟩] ++ pops 1 ++ [.popStep 0]

end QueueSample

open QueueSample

/-- Each of two processes gets one of two items, although one has listed the file that the other
takes.
-/
theorem queue_delivers_once_sample : ∃ state, queueMachine.Reaches QueueState.Undisturbed state
      ∧ state.calls = [⟨⟨1, 0⟩, .returned (some ⟨1, [8]⟩), true⟩,
        ⟨⟨2, 0⟩, .returned (some ⟨0, [7]⟩), false⟩]
      ∧ state.Delivers := by
  have ends : (queueMachine.exec fresh actions).map QueueState.calls
      = some [⟨⟨1, 0⟩, .returned (some ⟨1, [8]⟩), true⟩,
        ⟨⟨2, 0⟩, .returned (some ⟨0, [7]⟩), false⟩] := by
    decide +kernel
  obtain ⟨state, run, calls⟩ := map_eq_some_iff.mp ends
  have reached : queueMachine.Reaches QueueState.Undisturbed state :=
    (Machine.Reaches.start rfl).exec (by decide +kernel) run
  exact ⟨state, reached, calls, queue_delivers_once state reached⟩

/-- An item is returned empty and lost, and a call returns nothing while an item is there. -/
theorem queue_item_lost
    : (∃ state, queueMachine.exec fresh early = some state
        ∧ state.given = [[7]]
        ∧ state.calls = [⟨⟨1, 0⟩, .returned (some ⟨0, []⟩), true⟩]
        ∧ ¬ state.Delivers)
      ∧ ∃ state, queueMachine.exec fresh overtaken = some state
        ∧ state.calls = [⟨⟨1, 0⟩, .returned none, false⟩,
          ⟨⟨2, 0⟩, .returned (some ⟨0, [7]⟩), false⟩]
        ∧ itemIds state.volume = [1]
        ∧ ¬ state.Delivers := by
  constructor
  · have ends : (queueMachine.exec fresh early).map
        (fun state => (state.given, state.calls, state.pushed))
        = some ([[7]], [⟨⟨1, 0⟩, .returned (some ⟨0, []⟩), true⟩], [[7]]) := by
      decide +kernel
    obtain ⟨state, run, is⟩ := map_eq_some_iff.mp ends
    simp only [Prod.mk.injEq] at is
    obtain ⟨given, calls, pushed⟩ := is
    refine ⟨state, run, given, calls, fun delivers => ?_⟩
    have whole := delivers.whole (show state.calls[0]? = some _ by rw [calls]; rfl) rfl
    rw [pushed] at whole
    cases whole
  · have ends : (queueMachine.exec fresh overtaken).map
        (fun state => (state.calls, itemIds state.volume))
        = some ([⟨⟨1, 0⟩, .returned none, false⟩,
          ⟨⟨2, 0⟩, .returned (some ⟨0, [7]⟩), false⟩], [1]) := by
      decide +kernel
    obtain ⟨state, run, is⟩ := map_eq_some_iff.mp ends
    simp only [Prod.mk.injEq] at is
    obtain ⟨calls, items⟩ := is
    refine ⟨state, run, calls, items, fun delivers => ?_⟩
    cases delivers.empty (show state.calls[0]? = some _ by rw [calls]; rfl) rfl

end Vgi.Storage.QueueFiles
