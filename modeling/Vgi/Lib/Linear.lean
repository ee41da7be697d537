import Mathlib.Data.List.Nodup

/-! Linearizable objects: one order of all operations that explains every answer and agrees with
the order of calls in time. Operations that change nothing may be put into the order late, at any
earlier moment of their call.
-/

namespace Vgi.Lib

open List Option

/-- What an operation does at once: it may give an answer or not, and the answer fixes the
effect.
-/
structure Atomic (State Op Answer : Type) where
  apply : State → Op → Answer → Option State

/-- A call is invoked and responded to. -/
inductive CallEvent (Op Answer : Type) where
  | invoke (call : Nat) (op : Op)
  | respond (call : Nat) (answer : Answer)

/-- An operation in the order, with its call. -/
structure Placed (Op Answer : Type) where
  call : Nat
  op : Op
  answer : Answer

variable {State Op Answer : Type} {object : Atomic State Op Answer}

namespace Atomic

def replay (object : Atomic State Op Answer) : State → List (Placed Op Answer) → Option State
  | state, [] => some state
  | state, placed :: rest =>
    (object.apply state placed.op placed.answer).bind (object.replay · rest)

theorem replay_append (state front back)
    : object.replay state (front ++ back)
      = (object.replay state front).bind (object.replay · back) := by
  induction front generalizing state with
  | nil => rfl
  | cons placed front ih =>
    simp only [cons_append, replay]
    cases object.apply state placed.op placed.answer with
    | none => rfl
    | some next => exact ih next

end Atomic

/-- The call `first` was responded to before `second` was invoked. -/
def CallEvent.Before (history : List (CallEvent Op Answer)) (first second : Nat) : Prop :=
  ∃ front back answer op, history = front ++ back
    ∧ .respond first answer ∈ front ∧ .invoke second op ∈ back

/-- The call `first` stands before `second` in the order. -/
def Placed.Precedes (order : List (Placed Op Answer)) (first second : Nat) : Prop :=
  ∃ front back, order = front ++ back
    ∧ first ∈ front.map Placed.call ∧ second ∈ back.map Placed.call

/-- The order explains the history: it can be applied one operation at a time and ends in
`state`, has each invoked call at most once and every answer that was given, and keeps the order
in time.
-/
structure Linearizes (object : Atomic State Op Answer) (start : State)
    (history : List (CallEvent Op Answer)) (order : List (Placed Op Answer)) (state : State)
    : Prop where
  legal : object.replay start order = some state
  once : (order.map Placed.call).Nodup
  invoked : ∀ placed ∈ order, .invoke placed.call placed.op ∈ history
  answered : ∀ call answer, .respond call answer ∈ history → ∃ op, ⟨call, op, answer⟩ ∈ order
  realTime : ∀ first second, CallEvent.Before history first second →
    second ∈ order.map Placed.call → Placed.Precedes order first second

namespace Linearizes

variable {start state : State} {history : List (CallEvent Op Answer)}
  {order : List (Placed Op Answer)}

variable {second first : Nat}

/-- A later event that does not invoke the second call orders nothing new. -/
theorem before_of_append {event} (other : ∀ op, event ≠ .invoke second op)
    (before : CallEvent.Before (history ++ [event]) first second)
    : CallEvent.Before history first second := by
  obtain ⟨front, back, answer, op, split, responded, invoked⟩ := before
  rcases eq_nil_or_concat' back with rfl | ⟨most, last, rfl⟩
  · exact absurd invoked not_mem_nil
  · rw [← append_assoc] at split
    obtain ⟨same, lastIs⟩ := append_inj' split rfl
    cases lastIs
    rcases mem_append.mp invoked with inside | here
    · exact ⟨front, most, answer, op, same, responded, inside⟩
    · exact absurd (mem_singleton.mp here).symm (other op)

/-- A call that was responded to before another was responded to. -/
theorem responded_of_before (before : CallEvent.Before history first second)
    : ∃ answer, .respond first answer ∈ history := by
  obtain ⟨front, back, answer, op, rfl, responded, -⟩ := before
  exact ⟨answer, mem_append_left _ responded⟩

variable (linear : Linearizes object start history order state)

include linear

variable {call : Nat}

/-- A new call is invoked. -/
theorem invoke (op)
    (fresh : call ∉ order.map Placed.call)
    : Linearizes object start (history ++ [.invoke call op]) order state where
  legal := linear.legal
  once := linear.once
  invoked placed member := mem_append_left _ (linear.invoked placed member)
  answered other answer responded := by
    rcases mem_append.mp responded with earlier | here
    · exact linear.answered other answer earlier
    · cases mem_singleton.mp here
  realTime first second before member := by
    refine linear.realTime first second (before_of_append (fun op same => ?_) before) member
    cases same
    exact fresh member

variable {answer : Answer} {op : Op}

/-- A call in the order is responded to. -/
theorem respond (placed : ⟨call, op, answer⟩ ∈ order)
    : Linearizes object start (history ++ [.respond call answer]) order state where
  legal := linear.legal
  once := linear.once
  invoked other member := mem_append_left _ (linear.invoked other member)
  answered other otherAnswer responded := by
    rcases mem_append.mp responded with earlier | here
    · exact linear.answered other otherAnswer earlier
    · cases mem_singleton.mp here
      exact ⟨op, placed⟩
  realTime first second before :=
    linear.realTime first second (before_of_append (fun _ same => by cases same) before)

/-- A pending call takes effect now. -/
theorem takeEffect {after} (invoked : .invoke call op ∈ history)
    (fresh : call ∉ order.map Placed.call) (applies : object.apply state op answer = some after)
    : Linearizes object start history (order ++ [⟨call, op, answer⟩]) after where
  legal := by
    rw [Atomic.replay_append, linear.legal, bind_some]
    simp only [Atomic.replay, applies, bind_some]
  once := by
    rw [map_append, nodup_append]
    refine ⟨linear.once, nodup_singleton _, fun other member own last same => ?_⟩
    rw [map_singleton, mem_singleton] at last
    rw [same, last] at member
    exact fresh member
  invoked placed member := by
    rcases mem_append.mp member with earlier | last
    · exact linear.invoked placed earlier
    · cases mem_singleton.mp last
      exact invoked
  answered other otherAnswer responded := by
    obtain ⟨otherOp, member⟩ := linear.answered other otherAnswer responded
    exact ⟨otherOp, mem_append_left _ member⟩
  realTime first second before member := by
    rw [map_append, mem_append] at member
    rcases member with earlier | last
    · obtain ⟨front, back, rfl, inFront, inBack⟩ := linear.realTime first second before earlier
      refine ⟨front, back ++ [_], append_assoc .., inFront, ?_⟩
      rw [map_append]
      exact mem_append_left _ inBack
    · obtain ⟨earlierAnswer, responded⟩ := responded_of_before before
      obtain ⟨firstOp, placed⟩ := linear.answered first earlierAnswer responded
      exact ⟨order, [_], rfl, mem_map_of_mem placed, last⟩

/-- A moment of a call: a prefix of the order that ends in `moment` and has every call that was
responded to before the call was invoked.
-/
def Moment (object : Atomic State Op Answer) (start : State) (history : List (CallEvent Op Answer))
    (order : List (Placed Op Answer)) (call : Nat) (moment : State) : Prop :=
  ∃ front back, order = front ++ back ∧ object.replay start front = some moment
    ∧ ∀ first, CallEvent.Before history first call → first ∈ front.map Placed.call

/-- The present is a moment of every call. -/
theorem now (call) : Moment object start history order call state := by
  refine ⟨order, [], (append_nil _).symm, linear.legal, fun first before => ?_⟩
  obtain ⟨answer, responded⟩ := responded_of_before before
  obtain ⟨op, placed⟩ := linear.answered first answer responded
  exact mem_map_of_mem placed

variable {moment : State}

omit linear in
/-- A moment stays one, whatever other calls do. -/
theorem Moment.event {event} (is : Moment object start history order call moment)
    (other : ∀ op, event ≠ .invoke call op)
    : Moment object start (history ++ [event]) order call moment := by
  obtain ⟨front, back, split, ends, seen⟩ := is
  exact ⟨front, back, split, ends, fun first before => seen first (before_of_append other before)⟩

omit linear in
theorem Moment.append (placed) (is : Moment object start history order call moment)
    : Moment object start history (order ++ [placed]) call moment := by
  obtain ⟨front, back, rfl, ends, seen⟩ := is
  exact ⟨front, back ++ [placed], append_assoc .., ends, seen⟩

omit linear in
/-- An operation without effect that is put into the order leaves every moment. -/
theorem Moment.insert {front back placed between}
    (ends : object.replay start front = some between)
    (applies : object.apply between placed.op placed.answer = some between)
    (is : Moment object start history (front ++ back) call moment)
    : Moment object start history (front ++ placed :: back) call moment := by
  obtain ⟨left, right, split, endsLeft, seen⟩ := is
  rcases append_eq_append_iff.mp split with ⟨middle, rfl, rfl⟩ | ⟨middle, rfl, rfl⟩
  · -- The operation comes before the moment.
    refine ⟨front ++ placed :: middle, right, by simp, ?_, fun first before => ?_⟩
    · rw [Atomic.replay_append, ends, bind_some] at endsLeft ⊢
      simp only [Atomic.replay, applies]
      exact endsLeft
    · have inside := seen first before
      simp only [map_append, mem_append] at inside ⊢
      tauto
  · exact ⟨left, middle ++ placed :: back, by simp, endsLeft, seen⟩

/-- A pending call whose operation has no effect at a moment of its own is put there. -/
theorem place (invoked : .invoke call op ∈ history) (fresh : call ∉ order.map Placed.call)
    (is : Moment object start history order call moment)
    (applies : object.apply moment op answer = some moment)
    : ∃ placed, Linearizes object start history placed state ∧ ⟨call, op, answer⟩ ∈ placed
      ∧ (∀ other, other ∈ placed.map Placed.call → other = call ∨ other ∈ order.map Placed.call)
      ∧ ∀ other moment', Moment object start history order other moment' →
        Moment object start history placed other moment' := by
  obtain ⟨front, back, rfl, ends, seen⟩ := is
  refine ⟨front ++ ⟨call, op, answer⟩ :: back, ⟨?_, ?_, ?_, ?_, ?_⟩, by simp, ?_,
    fun _ _ is => Moment.insert ends applies is⟩
  · have legal := linear.legal
    rw [Atomic.replay_append, ends, bind_some] at legal ⊢
    simp only [Atomic.replay, applies]
    exact legal
  · have once := linear.once
    rw [map_append, map_cons, nodup_middle, ← map_append]
    exact nodup_cons.mpr ⟨fresh, once⟩
  · intro placed member
    rcases mem_append.mp member with inFront | inBack
    · exact linear.invoked placed (mem_append_left _ inFront)
    · rcases mem_cons.mp inBack with rfl | inBack
      · exact invoked
      · exact linear.invoked placed (mem_append_right _ inBack)
  · intro other otherAnswer responded
    obtain ⟨otherOp, member⟩ := linear.answered other otherAnswer responded
    refine ⟨otherOp, ?_⟩
    simp only [mem_append] at member ⊢
    tauto
  · intro first second before member
    -- What returned before this call is in front of its moment; the others keep their order.
    by_cases own : second = call
    · subst own
      exact ⟨front, _, rfl, seen first before, by simp⟩
    · have inOrder : second ∈ (front ++ back).map Placed.call := by
        simp only [map_append, map_cons, mem_append, mem_cons] at member ⊢
        tauto
      obtain ⟨left, right, split, inLeft, inRight⟩ := linear.realTime first second before inOrder
      rcases append_eq_append_iff.mp split with ⟨middle, rfl, rfl⟩ | ⟨middle, rfl, rfl⟩
      · refine ⟨front ++ ⟨call, op, answer⟩ :: middle, right, by simp, ?_, inRight⟩
        simp only [map_append, mem_append] at inLeft ⊢
        tauto
      · refine ⟨left, middle ++ ⟨call, op, answer⟩ :: back, by simp, inLeft, ?_⟩
        simp only [map_append, mem_append] at inRight ⊢
        tauto
  · intro other member
    simp only [map_append, map_cons, mem_append, mem_cons] at member ⊢
    tauto

end Linearizes

end Vgi.Lib
