import Mathlib.Algebra.Group.Int.Defs
import Vgi.Rpc

/-! The frames of a batched window evaluation. The client flattens them, and the worker splits them
again by the counts that cross the wire as signed integers.
-/

namespace Vgi.Window

open List Option

abbrev Frame := Int64 × Int64

/-- A call of the client, on slices that fit in memory. -/
structure WindowCall where
  framesPerRow : List Int64
  frames : List Frame
  fits : framesPerRow.length < 2 ^ 63 ∧ frames.length < 2 ^ 63

structure AggregateWindowBatchRequest where
  count : Int64
  framesPerRow : List Int64
  frameStarts : List Int64
  frameEnds : List Int64

/-- The sum wraps in a release build. -/
def WindowCall.accepted (call : WindowCall) : Bool :=
  call.framesPerRow.sum = Int64.ofNat call.frames.length

def WindowCall.request (call : WindowCall) : AggregateWindowBatchRequest where
  count := Int64.ofNat call.framesPerRow.length
  framesPerRow := call.framesPerRow
  frameStarts := call.frames.map Prod.fst
  frameEnds := call.frames.map Prod.snd

/-- A negative number is at least `2 ^ 63`. -/
def asUsize (value : Int64) : Nat := (value.toInt % 2 ^ 64).toNat

/-- The frames that the caller assigned to each row. -/
def assigned : List Int64 → List Frame → List (List Frame)
  | [], _ => []
  | n :: rows, frames => frames.take (asUsize n) :: assigned rows (frames.drop (asUsize n))

/-- `Vec::with_capacity`, with the bytes it takes. It panics above `isize::MAX`. -/
def withCapacity (size capacity : Nat) : Option Nat :=
  if size * capacity < 2 ^ 63 then some (size * capacity) else none

structure FrameSplit where
  frames : List (List Frame)
  off : Nat
  allocated : Nat

section

variable (dto : AggregateWindowBatchRequest)

def subs (n off : Nat) : List Frame :=
  (range n).map fun i => (dto.frameStarts.getD (off + i) 0, dto.frameEnds.getD (off + i) 0)

/-- The loop over the counts of the rows. -/
def splitRows : List Int64 → FrameSplit → Option FrameSplit
  | [], split => some split
  | n :: rows, split => do
    let n := asUsize n
    let bytes ← withCapacity 16 n
    splitRows rows ⟨split.frames ++ [subs dto n split.off], split.off + n, split.allocated + bytes⟩

/-- The counts that the loop reads: a row without one has none. -/
def AggregateWindowBatchRequest.counts : List Int64 :=
  (range (asUsize dto.count)).map (dto.framesPerRow.getD · 0)

def splitFrames : Option FrameSplit := do
  let bytes ← withCapacity 24 (asUsize dto.count)
  splitRows dto dto.counts ⟨[], 0, bytes⟩

/-- The handler, given the function on the partition that it resolved and loaded. No result is a
panic.
-/
def handleAggregateWindowBatch {Batch : Type} (window : Result (List (List Frame) → Result Batch))
    : Option (Result Batch) :=
  match window with
  | .error e => some (.error e)
  | .ok window => (splitFrames dto).map fun split => window split.frames

/-- The bytes of the request's counts and lists. -/
def AggregateWindowBatchRequest.size : Nat :=
  8 * (1 + dto.framesPerRow.length + dto.frameStarts.length + dto.frameEnds.length)

/-- The rows, each with its share of the flattened frames from the offset on. -/
def shares : List Int64 → Nat → List (List Frame)
  | [], _ => []
  | n :: rows, off => subs dto (asUsize n) off :: shares rows (off + asUsize n)

/-- Every count, as it is read, is one that a vector of frames can have. -/
def Countable (rows : List Int64) : Prop := ∀ n ∈ rows, 16 * asUsize n < 2 ^ 63

theorem splitRows_eq_some {rows split after}
    : splitRows dto rows split = some after
      ↔ Countable rows ∧ after = ⟨split.frames ++ shares dto rows split.off,
          split.off + (rows.map asUsize).sum,
          split.allocated + 16 * (rows.map asUsize).sum⟩ := by
  induction rows generalizing split with
  | nil => simp [splitRows, shares, Countable, eq_comm]
  | cons n rows ih =>
    rw [splitRows, withCapacity, Countable, forall_mem_cons]
    by_cases room : 16 * asUsize n < 2 ^ 63
    · rw [if_pos room]
      simp only [bind_eq_bind, bind_some, ih, room]
      simp [shares, Countable, Nat.add_assoc, Nat.mul_add]
    · rw [if_neg room]
      exact iff_of_false nofun fun fits => room fits.1.1

theorem splitFrames_eq_some {split}
    : splitFrames dto = some split
      ↔ 24 * asUsize dto.count < 2 ^ 63 ∧ Countable dto.counts
        ∧ split = ⟨shares dto dto.counts 0, (dto.counts.map asUsize).sum,
          24 * asUsize dto.count + 16 * (dto.counts.map asUsize).sum⟩ := by
  rw [splitFrames, withCapacity]
  split
  next room =>
    simp only [bind_eq_bind, bind_some, splitRows_eq_some, room, true_and, nil_append, Nat.zero_add]
  next full => exact iff_of_false nofun fun fits => full fits.1

end

variable (call : WindowCall)

theorem subs_eq_take_iff {n off} (inside : off ≤ call.frames.length)
    : subs call.request n off = (call.frames.drop off).take n ↔ off + n ≤ call.frames.length := by
  constructor
  · intro same
    have lengths := congrArg length same
    simp only [subs, length_map, length_range, length_take, length_drop] at lengths
    omega
  · intro enough
    apply ext_getElem
    · simp [subs]
      omega
    · intro i here there
      simp only [subs, length_map, length_range] at here
      simp [subs, WindowCall.request,
        getElem?_eq_getElem (show off + i < call.frames.length by omega)]

theorem shares_eq_assigned_iff (rows) {off} (inside : off ≤ call.frames.length)
    : shares call.request rows off = assigned rows (call.frames.drop off)
      ↔ off + (rows.map asUsize).sum ≤ call.frames.length := by
  induction rows generalizing off with
  | nil => simpa [shares, assigned]
  | cons n rows ih =>
    rw [shares, assigned, cons.injEq, subs_eq_take_iff call inside, drop_drop, map_cons, sum_cons,
      ← Nat.add_assoc]
    constructor
    · rintro ⟨enough, rest⟩
      exact (ih enough).mp rest
    · intro enough
      have first : off + asUsize n ≤ call.frames.length := by omega
      exact ⟨first, (ih first).mpr enough⟩

theorem asUsize_count : asUsize call.request.count = call.framesPerRow.length := by
  simp only [asUsize, WindowCall.request, Int64.toInt_ofNat_of_lt call.fits.1]
  have := call.fits.1
  omega

theorem counts_request : call.request.counts = call.framesPerRow := by
  apply ext_getElem
  · simp [AggregateWindowBatchRequest.counts, asUsize_count]
  · intro r _ there
    simp [AggregateWindowBatchRequest.counts, WindowCall.request, there]

/-- A call's frames arrive as they were assigned exactly if no count is negative or too large, and
they are no more than were sent; and the worker answers a request, within any multiple of its
size, exactly if the counts that it reads ask for no more.
-/
theorem frames_arrive_iff (call : WindowCall) (dto : AggregateWindowBatchRequest) (factor : Nat)
    : ((∀ {Batch : Type} (window : List (List Frame) → Result Batch),
          handleAggregateWindowBatch call.request (.ok window)
            = some (window (assigned call.framesPerRow call.frames)))
        ↔ 24 * call.framesPerRow.length < 2 ^ 63 ∧ Countable call.framesPerRow
          ∧ (call.framesPerRow.map asUsize).sum ≤ call.frames.length)
      ∧ ((∃ split, splitFrames dto = some split ∧ split.allocated ≤ factor * dto.size)
        ↔ 24 * asUsize dto.count < 2 ^ 63 ∧ Countable dto.counts
          ∧ 24 * asUsize dto.count + 16 * (dto.counts.map asUsize).sum ≤ factor * dto.size) := by
  constructor
  · have shared := shares_eq_assigned_iff call call.framesPerRow (Nat.zero_le _)
    rw [drop_zero, Nat.zero_add] at shared
    have split {split} := @splitFrames_eq_some call.request split
    simp only [asUsize_count, counts_request] at split
    constructor
    · intro arrives
      obtain ⟨after, some, same⟩ := Option.map_eq_some_iff.mp (arrives .ok)
      obtain ⟨room, countable, rfl⟩ := split.mp some
      exact ⟨room, countable, shared.mp (Except.ok.inj same)⟩
    · rintro ⟨room, countable, enough⟩ Batch window
      simp only [handleAggregateWindowBatch, split.mpr ⟨room, countable, rfl⟩, Option.map_some,
        shared.mpr enough]
  · simp only [splitFrames_eq_some]
    constructor
    · rintro ⟨_, ⟨room, countable, rfl⟩, within⟩
      exact ⟨room, countable, within⟩
    · rintro ⟨room, countable, within⟩
      exact ⟨_, ⟨room, countable, rfl⟩, within⟩

/-- Two counts that cancel are accepted, and the worker panics on the second. -/
theorem negative_count_panics : let call : WindowCall := ⟨[1, -1], [], by decide⟩
      call.accepted = true ∧ splitFrames call.request = none
        ∧ splitFrames ⟨-1, [], [], []⟩ = none := by
  decide

end Vgi.Window
