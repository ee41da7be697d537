import Vgi.Client.Exchange

/-! The client follows the turn protocol, as long as its caller stops after a turn that failed
or that ended the stream: nothing is sent behind such a turn, ticks and inputs come as the
answers ask for them, the stream is closed or cancelled once, and the connection is given up
whenever the two sides may stand at different places.
-/

namespace Vgi.Client

open Arrow Lib Dispatch List Session

def isTick (metadata : Option Metadata) : Bool :=
  entry statusMetadataKey (metadata.getD []) = some statusContinue

namespace StreamEvent

/-- The turn failed, or the worker ended the stream. -/
def spent : StreamEvent → Bool
  | .turn _ _ _ (.error _) => true
  | .turn _ _ (.ok none) _ => true
  | _ => false

def isEnd : StreamEvent → Bool
  | .turn .. => false
  | _ => true

/-- Something on the stream did not go as the client asked. -/
def troubled : StreamEvent → Bool
  | .turn _ _ _ (.error _) => true
  | .close (.error _) => true
  | .cancel (.error _) => true
  | _ => false

/-- What an answer that the client accepted said about more output. -/
def accepted? : StreamEvent → Option Bool
  | .turn _ _ _ (.ok (some _, more)) => some more
  | _ => none

/-- What an answer of the worker said about more output, whatever the client made of it. -/
def replied? : StreamEvent → Option Bool
  | .turn _ _ (.ok (some (_, metadata))) _ => some (saysMore metadata)
  | _ => none

end StreamEvent

/-- The last answer that the client accepted said that there is more. -/
def acceptedMore (log : List StreamEvent) : Bool :=
  ((log.filterMap StreamEvent.accepted?).getLast?).getD false

/-- The worker's last reply said that there is more. -/
def workerMore (log : List StreamEvent) : Bool :=
  ((log.filterMap StreamEvent.replied?).getLast?).getD false

/-- An event in its place: a message comes behind no failed turn, no end of the stream and no
close; it is a tick exactly if the last answer asked for one, and the worker takes it as in
order. A close or cancel is the only one.
-/
def StreamEvent.InOrder (before : List StreamEvent) : StreamEvent → Prop
  | .turn input metadata _ _ =>
    (∀ earlier ∈ before, earlier.spent = false ∧ earlier.isEnd = false)
      ∧ isTick metadata = acceptedMore before
      ∧ ∀ name (continuation : TioContinuation),
        continuation.morePending = workerMore before →
        continuation.accept name (isTick metadata) input.numRows = .ok ()
  | .close _ | .cancel _ => ∀ earlier ∈ before, earlier.isEnd = false

/-- The two sides may stand at different places: something failed, or, while the stream is
open, the client expects something else than the worker's last reply said.
-/
def Session.Disagree (session : Session) : Prop :=
  (∃ event ∈ session.log, event.troubled = true)
    ∨ (session.exchange.closed = false
      ∧ session.exchange.pendingMore.isSome ≠ workerMore session.log)

/-- The caller sends nothing behind a turn that failed or that ended the stream. -/
def Stops (session : Session) : ClientCall → Prop
  | .send .. | .continueOutput _ => ∀ event ∈ session.log, event.spent = false
  | _ => True

/-- What a turn on an open stream leaves. -/
inductive TurnResult (exchange : Exchange) (tick : Bool)
    : Answer → Result (Option RecordBatch × Bool) → Exchange → Prop where
  | failed {answer : Answer} {next : Exchange} (error : RpcError)
      (closed : next.closed = exchange.closed)
      (first : next.firstInputMetadata = exchange.firstInputMetadata)
      (idle : next.pendingMore = exchange.pendingMore)
      (spoiled : next.connectionReusable = false)
      : TurnResult exchange tick answer (.error error) next
  | ended (real : tick = false) : TurnResult exchange tick (.ok none) (.ok (none, false)) exchange
  | answered {batch kept : RecordBatch} {metadata : Metadata} {next : Exchange}
      (closed : next.closed = exchange.closed)
      (first : next.firstInputMetadata = exchange.firstInputMetadata)
      (reusable : next.connectionReusable = exchange.connectionReusable)
      : TurnResult exchange tick (.ok (some (batch, metadata)))
          (.ok (some kept, saysMore metadata)) next

/-- How the client reads an answer, one case for each way a turn can end. -/
theorem receive_turnResult (display exchange tick answer)
    : TurnResult exchange tick answer (exchange.receive display tick answer).1
        (exchange.receive display tick answer).2 := by
  unfold Exchange.receive
  rcases answer with error | _ | ⟨batch, metadata⟩
  · exact .failed error rfl rfl rfl rfl
  · cases tick with
    | true => exact .failed _ rfl rfl rfl rfl
    | false => exact .ended rfl
  · have kept : (exchange.check display tick batch metadata).2.closed = exchange.closed
        ∧ (exchange.check display tick batch metadata).2.firstInputMetadata
          = exchange.firstInputMetadata
        ∧ (exchange.check display tick batch metadata).2.pendingMore = exchange.pendingMore
        ∧ (exchange.check display tick batch metadata).2.connectionReusable
          = exchange.connectionReusable := by
      simp only [Exchange.check]
      split <;> exact ⟨rfl, rfl, rfl, rfl⟩
    rcases checked : exchange.check display tick batch metadata with ⟨result, next⟩
    rw [checked] at kept
    obtain ⟨closed, first, idle, reusable⟩ := kept
    simp only [checked]
    cases result with
    | error error => exact .failed error closed first idle rfl
    | ok batch => exact .answered closed first reusable

/-- What holds between any two calls. -/
structure Follows (session : Session) : Prop where
  plain : entry statusMetadataKey (session.exchange.firstInputMetadata.getD []) = none
  closed : session.exchange.closed = session.log.any StreamEvent.isEnd
  pending : (∀ event ∈ session.log, event.spent = false) → session.exchange.closed = false →
    session.exchange.pendingMore.isSome = acceptedMore session.log
      ∧ acceptedMore session.log = workerMore session.log
  troubled : ∀ event ∈ session.log, event.troubled = true →
    session.exchange.connectionReusable = false
  apart : session.exchange.closed = false →
    session.exchange.pendingMore.isSome ≠ workerMore session.log →
    session.exchange.connectionReusable = false
  order : ∀ before event, before ++ [event] <+: session.log → event.InOrder before

section

variable {display : DataType → String} {session : Session}

theorem acceptedMore_append (log event)
    : acceptedMore (log ++ [event]) = event.accepted?.getD (acceptedMore log) := by
  unfold acceptedMore
  cases said : event.accepted? <;> simp [said]

theorem workerMore_append (log event)
    : workerMore (log ++ [event]) = event.replied?.getD (workerMore log) := by
  unfold workerMore
  cases said : event.replied? <;> simp [said]

theorem Follows.none_ended (follows : Follows session) (isOpen : session.exchange.closed = false)
    : ∀ event ∈ session.log, event.isEnd = false := by
  rw [follows.closed, any_eq_false] at isOpen
  intro event member
  simpa using isOpen event member

/-- A log with one more event in its place is in order. -/
theorem Follows.order_append (follows : Follows session) {event}
    (inOrder : event.InOrder session.log)
    : ∀ before other, before ++ [other] <+: session.log ++ [event] → other.InOrder before := by
  intro before other inside
  rcases prefix_concat_iff.mp inside with whole | inside
  · obtain ⟨rfl, is⟩ := append_inj' whole rfl
    cases is
    exact inOrder
  · exact follows.order before other inside

section Await

variable {schema : Schema} {exchange : Exchange} (outcome : Result (Option RecordBatch × Bool))

@[simp]
theorem await_closed : (exchange.await schema outcome).closed = exchange.closed := by
  cases outcome <;> rfl

@[simp]
theorem await_firstInputMetadata
    : (exchange.await schema outcome).firstInputMetadata = exchange.firstInputMetadata := by
  cases outcome <;> rfl

@[simp]
theorem await_connectionReusable
    : (exchange.await schema outcome).connectionReusable = exchange.connectionReusable := by
  cases outcome <;> rfl

/-- The awaited schema stands for the word of the answer. -/
theorem await_ok_isSome (batch more)
    : (exchange.await schema (.ok (batch, more))).pendingMore.isSome = more := by
  cases more <;> rfl

end Await

variable (follows : Follows session)

include follows

/-- A turn that is taken when it is due. -/
theorem Follows.turn (isOpen : session.exchange.closed = false)
    (stops : ∀ event ∈ session.log, event.spent = false)
    {input metadata answer outcome exchange next}
    (schema)
    (due : isTick metadata = session.exchange.pendingMore.isSome)
    (rows : isTick metadata = true → input.numRows = 0)
    (plain : entry statusMetadataKey (exchange.firstInputMetadata.getD []) = none)
    (closed : exchange.closed = session.exchange.closed)
    (reusable : exchange.connectionReusable = session.exchange.connectionReusable)
    (turn : TurnResult exchange (isTick metadata) answer outcome next)
    : Follows (session.after (next.await schema outcome)
        [.turn input metadata answer outcome]) := by
  obtain ⟨expected, agreed⟩ := follows.pending stops isOpen
  have inOrder : (StreamEvent.turn input metadata answer outcome).InOrder session.log := by
    refine ⟨fun earlier member => ⟨stops earlier member, follows.none_ended isOpen earlier member⟩,
      due.trans expected, fun name continuation more => ?_⟩
    refine accept_eq_ok.mpr ⟨?_, rows⟩
    rw [more, ← agreed, ← expected, due]
  have stillOpen : next.closed = false := by
    cases turn with
    | failed error same _ _ _ => exact (same.trans closed).trans isOpen
    | ended _ => exact closed.trans isOpen
    | answered same _ _ => exact (same.trans closed).trans isOpen
  have spoiled : session.exchange.connectionReusable = false → next.connectionReusable = false := by
    intro before
    cases turn with
    | failed error _ _ _ spoiled => exact spoiled
    | ended _ => exact reusable.trans before
    | answered _ _ same => exact (same.trans reusable).trans before
  refine ⟨?_, ?_, fun stops' _ => ?_, fun event member trouble => ?_, fun _ apart => ?_,
    follows.order_append inOrder⟩
  · simp only [Session.after, await_firstInputMetadata]
    cases turn with
    | failed error _ first _ _ => rwa [first]
    | ended _ => exact plain
    | answered _ first _ => rwa [first]
  · simp only [Session.after, await_closed, stillOpen, any_append]
    rw [← follows.closed, isOpen]
    rfl
  · have unspent := stops' _ (mem_append_right _ (mem_singleton_self _))
    simp only [Session.after, acceptedMore_append, workerMore_append]
    cases turn with
    | failed error _ _ _ _ | ended _ => cases unspent
    | answered _ _ _ => exact ⟨await_ok_isSome _ _, rfl⟩
  · simp only [Session.after, await_connectionReusable] at member ⊢
    rcases mem_append.mp member with earlier | last
    · exact spoiled (follows.troubled event earlier trouble)
    · cases mem_singleton.mp last
      cases turn with
      | failed error _ _ _ spoiled => exact spoiled
      | ended _ | answered _ _ _ => cases trouble
  · simp only [Session.after, workerMore_append] at apart ⊢
    cases turn with
    | failed error _ _ _ spoiled => exact spoiled
    | ended real =>
      -- The stream ended behind an input, so the worker had nothing pending.
      rw [real, expected, agreed] at due
      exact absurd due apart
    | answered _ _ _ => exact absurd (await_ok_isSome _ _) apart

/-- The end of the input, which is the only one. -/
theorem Follows.finish (isOpen : session.exchange.closed = false) {event} (answer pendingMore)
    (ends : event = .close answer ∨ event = .cancel answer)
    : Follows (session.after
        ({ session.exchange with closed := true, pendingMore }.spoilIf answer) [event]) := by
  have inOrder : event.InOrder session.log := by
    rcases ends with rfl | rfl <;> exact follows.none_ended isOpen
  have isEnd : event.isEnd = true := by rcases ends with rfl | rfl <;> rfl
  have closed : (({ session.exchange with closed := true, pendingMore }).spoilIf
      answer).closed = true := by cases answer <;> rfl
  refine ⟨?_, ?_, fun _ stillOpen => ?_, fun other member trouble => ?_, fun stillOpen => ?_,
    follows.order_append inOrder⟩
  · cases answer <;> exact follows.plain
  · simp only [Session.after, closed, any_append, any_cons, isEnd, Bool.true_or, Bool.or_true]
  · exact absurd (closed.symm.trans stillOpen) (by decide)
  · cases answer with
    | error error => rfl
    | ok _ =>
      rcases mem_append.mp member with earlier | last
      · exact follows.troubled other earlier trouble
      · cases mem_singleton.mp last
        rcases ends with rfl | rfl <;> cases trouble
  · exact absurd (closed.symm.trans stillOpen) (by decide)

theorem Follows.unchanged : Follows (session.after session.exchange []) := by
  simpa only [Session.after, append_nil] using follows

theorem Follows.dropped : Follows { session with dropped := true } := { follows with }

/-- The validators of the first input never make it a tick. -/
theorem Follows.first_real : isTick session.exchange.firstInputMetadata = false := by
  simp only [isTick, follows.plain]
  rfl

/-- What a turn makes of the session, at the place where it is due. -/
theorem Follows.sends (display)
    (exchange : Exchange) (input metadata answer schema)
    (stops : ∀ event ∈ session.log, event.spent = false)
    (due : session.exchange.closed = false → isTick metadata = session.exchange.pendingMore.isSome)
    (rows : isTick metadata = true → input.numRows = 0)
    (plain : entry statusMetadataKey (exchange.firstInputMetadata.getD []) = none)
    (closed : exchange.closed = session.exchange.closed)
    (reusable : exchange.connectionReusable = session.exchange.connectionReusable)
    : Follows (session.after
        ((exchange.turn display input metadata (isTick metadata) answer).2.1.await schema
          (exchange.turn display input metadata (isTick metadata) answer).1)
        (exchange.turn display input metadata (isTick metadata) answer).2.2) := by
  unfold Exchange.turn
  by_cases isClosed : exchange.closed = true
  · simp only [if_pos isClosed, Session.after, append_nil]
    refine ⟨plain, closed.trans follows.closed, ?_, ?_, ?_, follows.order⟩
    · intro _ stillOpen
      cases isClosed.symm.trans stillOpen
    · exact fun event member trouble => reusable.trans (follows.troubled event member trouble)
    · intro stillOpen
      cases isClosed.symm.trans stillOpen
  · simp only [if_neg isClosed]
    have isOpen : session.exchange.closed = false := closed ▸ Bool.eq_false_iff.mpr isClosed
    refine follows.turn isOpen stops schema (due isOpen) rows ?_ ?_ ?_
      (receive_turnResult display { exchange with pendingMore := none } (isTick metadata) answer)
    · exact plain
    · exact closed
    · exact reusable

theorem Follows.send (input answer) (stops : Stops session (.send input answer))
    : Follows (session.call display (.send input answer)) := by
  simp only [call, Exchange.send]
  by_cases pending : session.exchange.pendingMore.isSome = true
  · simp only [if_pos pending]
    exact follows.unchanged
  · simp only [if_neg pending]
    have real := follows.first_real
    have due : isTick session.exchange.firstInputMetadata = session.exchange.pendingMore.isSome :=
      real.trans (Bool.eq_false_iff.mpr pending).symm
    have sent := follows.sends display { session.exchange with firstInputMetadata := none } input
      session.exchange.firstInputMetadata answer input.schema stops (fun _ => due)
      (fun tick => absurd (real.symm.trans tick) (by decide)) rfl rfl rfl
    rw [real] at sent
    exact sent

theorem Follows.continueOutput (answer) (stops : Stops session (.continueOutput answer))
    : Follows (session.call display (.continueOutput answer)) := by
  simp only [call, Exchange.continueOutput]
  cases pending : session.exchange.pendingMore with
  | none => exact follows.unchanged
  | some schema =>
    exact follows.sends display session.exchange (emptyBatch schema)
      (some Exchange.tickMetadata) answer schema stops (fun _ => by rw [pending]; rfl)
      (fun _ => rfl) follows.plain rfl rfl

/-- Each call of the session keeps what the protocol allows, by the lemma for its kind. -/
theorem Follows.call (call) (stops : Stops session call) : Follows (session.call display call) := by
  cases call with
  | send input answer => exact follows.send input answer stops
  | continueOutput answer => exact follows.continueOutput answer stops
  | close answer =>
    simp only [Session.call, Exchange.close]
    cases isOpen : session.exchange.closed with
    | true => exact follows.unchanged
    | false => exact follows.finish isOpen answer none (.inl rfl)
  | cancel answer =>
    simp only [Session.call, Exchange.cancel]
    cases isOpen : session.exchange.closed with
    | true => exact follows.unchanged
    | false => exact follows.finish isOpen answer none (.inr rfl)
  | drop answer =>
    simp only [Session.call, Exchange.drop]
    cases isOpen : session.exchange.closed with
    | true => exact follows.unchanged.dropped
    | false =>
      exact (follows.finish isOpen answer session.exchange.pendingMore (.inr rfl)).dropped

end

/-- In every session whose caller stops after a turn that failed or that ended the stream, every
message is in its place, there is one close or cancel at most, and the connection is not reused
once the two sides may disagree.
-/
theorem client_follows_protocol (display : DataType → String) (session : Session)
    (reached : (sessions display).Reaches Stops session)
    : (∀ before event, before ++ [event] <+: session.log → event.InOrder before)
      ∧ (session.Disagree → session.exchange.connectionReusable = false) := by
  have follows : Follows session := by
    refine reached.invariant Follows ?_ ?_
    · rintro ⟨exchange, dropped, log⟩
        ⟨function, schema, emittedSchema, ifNoneMatch, ifModifiedSince, reusable, rfl, rfl, rfl⟩
      refine ⟨?_, rfl, fun _ _ => ⟨rfl, rfl⟩, fun _ member => absurd member not_mem_nil,
        fun _ apart => absurd rfl apart, fun before event inside => ?_⟩
      · cases ifNoneMatch <;> cases ifModifiedSince <;> rfl
      · simp only [prefix_nil, append_eq_nil_iff, cons_ne_nil, and_false] at inside
    · intro session next call follows stops taken
      simp only [sessions] at taken
      split at taken
      · cases taken
      · cases taken
        exact follows.call call stops
  refine ⟨follows.order, fun disagree => ?_⟩
  rcases disagree with ⟨event, member, trouble⟩ | ⟨isOpen, apart⟩
  · exact follows.troubled event member trouble
  · exact follows.apart isOpen apart

namespace ClientSample

def display (_ : DataType) : String := ""

def schema : Schema := { fields := [], metadata := [] }

def input : RecordBatch where
  schema
  columns := []
  numRows := 3
  types := by simp [schema]
  lengths := fun _ member => absurd member not_mem_nil
  nonNull := fun _ member => absurd member not_mem_nil

def opened : Session where
  exchange := .opened "f" schema schema (some "v1") none true

def more : Metadata := [(statusMetadataKey, statusHaveMoreOutput)]

/-- A reply that has more behind it and claims that nothing changed. -/
def refused : Answer := .ok (some (input, ("vgi.cache.not_modified", "1") :: more))

theorem opened_initial : (sessions display).initial opened :=
  ⟨"f", schema, schema, some "v1", none, true, rfl, rfl, rfl⟩

/-- An input in two pages, another one, and the end. -/
def calls : List ClientCall := [
  .send input (.ok (some (input, more))), .continueOutput (.ok (some (input, []))),
  .send input (.ok (some (input, []))), .close (.ok ())]

theorem unspent {log : List StreamEvent} (none : log.any StreamEvent.spent = false)
    : ∀ event ∈ log, event.spent = false := by
  simpa using none

end ClientSample

open ClientSample in
/-- An input whose answer takes two pages, another input, and the close: two inputs and one tick
between them.
-/
theorem client_follows_protocol_sample
    : ∃ session, (sessions display).Reaches Stops session ∧ session.log.length = 4
      ∧ (∀ before event, before ++ [event] <+: session.log → event.InOrder before)
      ∧ (session.Disagree → session.exchange.connectionReusable = false) := by
  have reached : ∃ session, (sessions display).exec opened calls = some session
      ∧ session.log.length = 4 := by
    apply Exists.intro
    refine ⟨?_, ?_⟩
    all_goals with_unfolding_all rfl
  obtain ⟨session, ends, length⟩ := reached
  have meets : (sessions display).Meets Stops opened calls := by
    refine ⟨unspent ?_, unspent ?_, unspent ?_, trivial, trivial⟩
    all_goals with_unfolding_all rfl
  have reaches := (Machine.Reaches.start opened_initial).exec meets ends
  exact ⟨session, reaches, length, client_follows_protocol display session reaches⟩

open ClientSample in
/-- The client refuses a reply that has more behind it; the next input goes out all the same, and
a worker that still has that output refuses it. So does an input behind the worker's end of the
stream.
-/
theorem client_sends_behind_failure
    : (∃ session, (sessions display).exec opened [.send input refused, .send input (.ok none)]
          = some session
        ∧ session.log.map StreamEvent.spent = [true, true]
        ∧ workerMore (session.log.take 1) = true
        ∧ ∃ error, ({ morePending := true } : TioContinuation).accept "f" (isTick none) 3
          = .error error)
      ∧ ∃ session, (sessions display).exec opened
            [.send input (.ok none), .send input (.ok (some (input, [])))] = some session
          ∧ session.log.map StreamEvent.spent = [true, false]
          ∧ ¬ ∀ before event, before ++ [event] <+: session.log → event.InOrder before := by
  refine ⟨?_, ?_⟩
  · apply Exists.intro
    refine ⟨?_, ?_, ?_, ?_⟩
    · with_unfolding_all rfl
    · with_unfolding_all rfl
    · with_unfolding_all rfl
    · exact ⟨_, rfl⟩
  · apply Exists.intro
    refine ⟨?_, ?_, fun order => ?_⟩
    · with_unfolding_all rfl
    · with_unfolding_all rfl
    · have behind := (order [_] _ (prefix_refl _)).1 _ (mem_singleton_self _)
      exact absurd behind.1 (by decide)

end Vgi.Client
