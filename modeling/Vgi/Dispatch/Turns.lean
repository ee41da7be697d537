import Vgi.Dispatch.InOut
import Vgi.Dispatch.TableStream

/-! The turns of a table-in-out exchange. Each is answered by one reply or by an error, ticks
and inputs alternate as the replies say, a tick continues where the last reply left off, and an
exchange that is rebuilt from its token between the turns goes on as if it had not been.
-/

namespace Vgi.Dispatch

open Arrow Lib Pushdown List Option

section

open TableInOutExchangeState

variable {P ω : Type}

/-- The reply says that there is more output for the same input. -/
def Emission.saysMore (reply : Emission) : Bool :=
  entry statusMetadataKey (reply.metadata.getD []) = some statusHaveMoreOutput

def ExchangeTurn.Due (continuation : TioContinuation) (turn : ExchangeTurn) : Prop :=
  turn.tick = continuation.morePending ∧ (turn.tick = true → turn.rows = 0)

/-- The call that the turn makes, and the continuation while it runs. -/
inductive ExchangeTurn.Calls (continuation : TioContinuation) (turn : ExchangeTurn)
    : TioContinuation → Prop where
  | resume (params : ProcessParams) (tick : turn.tick = true)
      (call : turn.call = some (.resume params continuation.resumeState))
      (bound : turn.inputRows = continuation.inputRows)
      : Calls continuation turn { continuation with resumeState := [] }
  | process (params : ProcessParams) (input : RecordBatch) (tick : turn.tick = false)
      (call : turn.call = some (.process params input)) (rows : input.numRows = turn.rows)
      (bound : turn.inputRows = turn.rows)
      : Calls continuation turn { continuation with inputRows := turn.rows }

/-- What a turn does to the continuation of its exchange. -/
inductive TioStep (continuation : TioContinuation) (turn : ExchangeTurn)
    : TioContinuation → Prop where
  | refused (uncalled : turn.call = none) (failed : turn.answer.isOk = false)
      (order : turn.delta = .ok () → ¬turn.Due continuation)
      : TioStep continuation turn continuation
  | failed {called : TioContinuation} (due : turn.Due continuation)
      (calls : turn.Calls continuation called) (failed : turn.answer.isOk = false)
      : TioStep continuation turn called
  | answered {called next : TioContinuation} {reply : Emission} (due : turn.Due continuation)
      (calls : turn.Calls continuation called) (answer : turn.answer = .ok [reply])
      (more : next.morePending = reply.saysMore)
      (state : next.morePending = true → turn.recorded = some next.resumeState)
      (rows : next.inputRows = called.inputRows) : TioStep continuation turn next

variable {out : Batches} {b64 : Base64} {schema : Schema} {inputRows : Nat}

/-- The status of a batch is not touched on its way out. -/
theorem filterParentRows_status {metadata kept keep}
    (filtered : filterParentRows b64 metadata keep inputRows = .ok kept)
    : entry statusMetadataKey (kept.getD []) = entry statusMetadataKey (metadata.getD []) := by
  have apart : parentRowMetadataKey ≠ statusMetadataKey := by decide
  obtain ⟨parents, -, filtered⟩ := bind_eq_ok.mp filtered
  split at filtered
  · rw [← pure_eq_ok.mp filtered]
    cases metadata with
    | none => rfl
    | some metadata => exact entry_withoutEntry apart metadata
  · split at filtered
    · rw [← pure_eq_ok.mp filtered]
    · obtain ⟨_, -, filtered⟩ := bind_eq_ok.mp filtered
      obtain ⟨rows, -, filtered⟩ := bind_eq_ok.mp filtered
      rw [← pure_eq_ok.mp filtered, getD_some, entry_withEntry, if_neg apart]

theorem shapeReply_saysMore {filters more item reply}
    (plain : entry statusMetadataKey (item.2.getD []) = none)
    (shaped : out.shapeReply b64 filters schema inputRows more item = .ok reply)
    : reply.saysMore = more := by
  obtain ⟨⟨batch, metadata⟩, kept, shaped⟩ := bind_eq_ok.mp shaped
  obtain ⟨projected, -, shaped⟩ := bind_eq_ok.mp shaped
  rw [← pure_eq_ok.mp shaped]
  have status : entry statusMetadataKey (metadata.getD []) = none := by
    cases filters with
    | none =>
      cases kept
      exact plain
    | some filters =>
      obtain ⟨keep, -, kept⟩ := bind_eq_ok.mp kept
      obtain ⟨metadata', filtered, kept⟩ := bind_eq_ok.mp kept
      obtain ⟨batch', -, kept⟩ := bind_eq_ok.mp kept
      cases pure_eq_ok.mp kept
      rw [filterParentRows_status filtered]
      exact plain
  cases more with
  | true => simp [Emission.saysMore, entry_withEntry]
  | false => simp [Emission.saysMore, status]

variable {state : TableInOutExchangeState ω}

/-- A turn that is answered sends one batch, which says whether there is more. -/
theorem reply_eq_ok {tick collected replies next}
    (made : state.reply out b64 schema tick collected = .ok (replies, next))
    : ∃ reply, replies = [reply] ∧ next.morePending = reply.saysMore
      ∧ (next.morePending = true → collected.resumeState = some next.resumeState)
      ∧ next.inputRows = state.continuation.inputRows := by
  obtain ⟨_, single, made⟩ := bind_eq_ok.mp made
  obtain ⟨_, -, made⟩ := bind_eq_ok.mp made
  obtain ⟨_, -, made⟩ := bind_eq_ok.mp made
  obtain ⟨_, recorded, made⟩ := bind_eq_ok.mp made
  obtain ⟨_, -, made⟩ := bind_eq_ok.mp made
  split at made
  · cases pure_eq_ok.mp made
    exact ⟨_, rfl, rfl, nofun, rfl⟩
  next emitted =>
    obtain ⟨shaped, each, made⟩ := bind_eq_ok.mp made
    cases pure_eq_ok.mp made
    obtain ⟨item, items⟩ : ∃ item, collected.items = [item] := by
      have one : collected.items.length = 1 := by
        have most := rejectIf_eq_ok.mp single
        have least : collected.items.length ≠ 0 := by
          simpa using emitted
        omega
      exact length_eq_one_iff.mp one
    rw [items] at each
    simp only [mapM_cons, mapM_nil, bind_eq_ok, pure_eq_ok] at each
    obtain ⟨reply, made', _, rfl, rfl⟩ := each
    have status := shapeReply_saysMore (collected.plain item (by simp [items])) made'
    refine ⟨reply, rfl, status.symm, fun more => ?_, rfl⟩
    have given := rejectIf_eq_ok.mp recorded
    have more : (!collected.more.isEmpty) = true := more
    simp only [more, true_and, isNone_iff_eq_none] at given
    obtain ⟨state, is⟩ := ne_none_iff_exists'.mp given
    simp [more, is]

variable {dec : Decoders String Bytes}

/-- A filter delta leaves the continuation alone. -/
theorem takeDelta_same (ctx) (state : TableInOutExchangeState ω)
    : (state.takeDelta dec ctx).2.continuation = state.continuation := by
  unfold takeDelta
  cases ctx.tickMetadata pushdownFiltersKey with
  | none => rfl
  | some encoded =>
    cases state.params.currentPushdownFilters with
    | none => rfl
    | some current =>
      simp only
      split <;> rfl

variable {input : RecordBatch} {turn : ExchangeTurn} {ctx : TurnContext}
  (tick : turn.tick = ctx.isContinuationTick)

include tick

/-- The call of a turn is the one the protocol asks for. -/
theorem call_calls (rows : turn.rows = input.numRows)
    (call : turn.call = some (state.call ctx input).1)
    (bound : turn.inputRows = (state.call ctx input).2.continuation.inputRows)
    : turn.Calls state.continuation (state.call ctx input).2.continuation := by
  unfold TableInOutExchangeState.call at call bound ⊢
  cases is : ctx.isContinuationTick with
  | true =>
    rw [is] at tick
    simp only [is] at call bound ⊢
    exact .resume _ tick call bound
  | false =>
    rw [is] at tick
    simp only [is] at call bound ⊢
    rw [← rows]
    exact .process _ input tick call rows.symm (bound.trans rows.symm)

/-- A turn whose input is due is a step of the protocol. -/
theorem serve_tioStep (rows : turn.rows = input.numRows) (due : turn.Due state.continuation)
    (world)
    : let result := state.serve out b64 schema input ctx turn world
      TioStep state.continuation result.1.1 result.1.2.continuation := by
  rcases ran : (state.call ctx input).1.run (state.call ctx input).2.func world
    with ⟨collected, after⟩
  simp only [serve, bind, StateT.bind, ran]
  cases collected with
  | error error => exact .failed due (call_calls tick rows rfl rfl) rfl
  | ok collected =>
    simp only
    cases made : (state.call ctx input).2.reply out b64 schema turn.tick collected with
    | error error => exact .failed due (call_calls tick rows rfl rfl) rfl
    | ok result =>
      obtain ⟨replies, continuation⟩ := result
      obtain ⟨reply, rfl, more, recorded, bound⟩ := reply_eq_ok made
      exact .answered due (call_calls tick rows rfl rfl) rfl more recorded bound

omit tick

/-- Every turn is a step of the protocol. -/
theorem exchange_tioStep (dec out b64 schema input ctx)
    (state : TableInOutExchangeState ω) (world)
    : let result := state.exchange dec out b64 schema input ctx world
      TioStep state.continuation result.1.1 result.1.2.continuation := by
  simp only [exchange]
  have same := @takeDelta_same ω dec ctx (state.signed ctx)
  rcases taken : (state.signed ctx).takeDelta dec ctx with ⟨delta, next⟩
  rw [taken] at same
  have same : next.continuation = state.continuation := same
  rw [← same]
  cases delta with
  | error error => exact .refused rfl rfl nofun
  | ok done =>
    simp only
    cases order : next.continuation.accept next.func.name ctx.isContinuationTick input.numRows with
    | error error =>
      refine .refused rfl rfl fun _ due => ?_
      have admitted : next.continuation.accept next.func.name ctx.isContinuationTick
          input.numRows = .ok () := accept_eq_ok.mpr due
      cases admitted.symm.trans order
    | ok done => exact serve_tioStep rfl rfl (accept_eq_ok.mp order) world

variable (log : List ExchangeTurn)

def lastReply : Option ExchangeTurn := (log.filter (·.answer.isOk)).getLast?

def ExchangeTurn.saysMore (turn : ExchangeTurn) : Bool :=
  match turn.answer with
  | .ok replies => replies.any Emission.saysMore
  | .error _ => false

/-- The last reply said that there is more. -/
def saidMore : Bool := (lastReply log).any ExchangeTurn.saysMore

def ExchangeTurn.input? (turn : ExchangeTurn) : Option Nat :=
  match turn.call with
  | some (.process _ input) => some input.numRows
  | _ => none

/-- The rows of the last input that a function was called with. -/
def lastInput : Option Nat := (log.filterMap ExchangeTurn.input?).getLast?

/-- A tick that took the resume state and then failed. -/
def ExchangeTurn.lost (turn : ExchangeTurn) : Bool :=
  match turn.call, turn.answer with
  | some (.resume _ _), .error _ => true
  | _, _ => false

/-- A turn in its place behind others: it is answered with one batch or refused, its function
is called exactly if its input was due, and a tick is called with the state that the last reply
recorded and bounded by the last input.
-/
structure ExchangeTurn.InOrder (before : List ExchangeTurn) (turn : ExchangeTurn) : Prop where
  single : ∀ replies, turn.answer = .ok replies → replies.length = 1
  due : turn.delta = .ok () →
    (turn.call.isSome ↔ turn.tick = saidMore before ∧ (turn.tick = true → turn.rows = 0))
  refused : turn.call = none → turn.answer.isOk = false
  resumed : ∀ params state, turn.call = some (.resume params state) →
    (lastReply before).bind ExchangeTurn.recorded = some state
      ∧ lastInput before = some turn.inputRows

/-- The continuation stands where the replies so far say. -/
structure Synced (log : List ExchangeTurn) (continuation : TioContinuation) : Prop where
  pending : continuation.morePending = saidMore log
  position : continuation.morePending = true → (∀ turn ∈ log, turn.lost = false) →
    (lastReply log).bind ExchangeTurn.recorded = some continuation.resumeState
  rows : continuation.morePending = true → lastInput log = some continuation.inputRows

variable {log} {continuation next : TioContinuation}

theorem lastReply_append (log turn)
    : lastReply (log ++ [turn]) = if turn.answer.isOk then some turn else lastReply log := by
  unfold lastReply
  by_cases ok : turn.answer.isOk = true
  · simp [ok]
  · simp [ok]

theorem lastInput_append (log turn)
    : lastInput (log ++ [turn]) = turn.input?.or (lastInput log) := by
  unfold lastInput
  cases input : turn.input? with
  | none | some rows => simp [input]

theorem Synced.start : Synced [] {} := ⟨rfl, nofun, nofun⟩

variable (synced : Synced log continuation)

include synced

/-- A turn of the protocol is in order, unless it is a tick behind one that failed. -/
theorem Synced.inOrder (step : TioStep continuation turn next)
    (kept : turn.tick = true → ∀ earlier ∈ log, earlier.lost = false)
    : turn.InOrder log := by
  -- A call is made in every case but a refusal, and then the input is the one that is due.
  have called : ∀ {during}, turn.Due continuation →
      turn.Calls continuation during → turn.call.isSome
        ∧ (turn.tick = saidMore log ∧ (turn.tick = true → turn.rows = 0))
        ∧ ∀ params state, turn.call = some (.resume params state) →
          (lastReply log).bind ExchangeTurn.recorded = some state
            ∧ lastInput log = some turn.inputRows := by
    intro during due calls
    have order : turn.tick = saidMore log := due.1.trans synced.pending
    cases calls with
    | resume params tick call bound =>
      have pending : continuation.morePending = true := due.1.symm.trans tick
      refine ⟨by rw [call]; rfl, ⟨order, due.2⟩, fun params state is => ?_⟩
      rw [call] at is
      cases is
      rw [bound]
      exact ⟨synced.position pending (kept tick), synced.rows pending⟩
    | process params input tick call rows bound =>
      refine ⟨by rw [call]; rfl, ⟨order, due.2⟩, fun params state is => ?_⟩
      rw [call] at is
      cases is
  cases step with
  | refused uncalled failed order =>
    refine ⟨fun replies answer => ?_, fun taken => ?_, fun _ => failed, fun params state is => ?_⟩
    · rw [answer] at failed
      cases failed
    · rw [uncalled, ← synced.pending]
      exact ⟨nofun, fun due => absurd due (order taken)⟩
    · rw [uncalled] at is
      cases is
  | failed due calls failed =>
    obtain ⟨calls, order, resumed⟩ := called due calls
    refine ⟨fun replies answer => ?_, fun _ => ⟨fun _ => order, fun _ => calls⟩,
      fun _ => failed, resumed⟩
    rw [answer] at failed
    cases failed
  | answered due calls answer more state rows =>
    obtain ⟨calls, order, resumed⟩ := called due calls
    refine ⟨fun replies is => ?_, fun _ => ⟨fun _ => order, fun _ => calls⟩,
      fun uncalled => ?_, resumed⟩
    · rw [answer] at is
      cases is
      rfl
    · rw [uncalled] at calls
      cases calls

/-- A turn that is not answered leaves the last reply, and takes its resume state at most. -/
theorem Synced.unanswered (failed : turn.answer.isOk = false)
    (pending : next.morePending = continuation.morePending)
    (rows : continuation.morePending = true →
      turn.input? = none ∧ next.inputRows = continuation.inputRows)
    (position : turn.lost = false → next.resumeState = continuation.resumeState)
    : Synced (log ++ [turn]) next := by
  have last : lastReply (log ++ [turn]) = lastReply log := by
    rw [lastReply_append, failed]
    rfl
  refine ⟨?_, fun more none_lost => ?_, fun more => ?_⟩
  · rw [pending, saidMore, last]
    exact synced.pending
  · rw [pending] at more
    rw [last, position (none_lost turn (by simp))]
    exact synced.position more fun earlier member => none_lost earlier (by simp [member])
  · rw [pending] at more
    rw [lastInput_append, (rows more).1, (rows more).2]
    exact synced.rows more

theorem Synced.step (step : TioStep continuation turn next) : Synced (log ++ [turn]) next := by
  cases step with
  | refused uncalled failed order =>
    refine synced.unanswered failed rfl (fun _ => ⟨?_, rfl⟩) fun _ => rfl
    simp [ExchangeTurn.input?, uncalled]
  | failed due calls failed =>
    cases calls with
    | resume params tick call bound =>
      refine synced.unanswered failed rfl (fun _ => ⟨?_, rfl⟩) fun kept => ?_
      · simp [ExchangeTurn.input?, call]
      · cases answer : turn.answer with
        | error error => simp [ExchangeTurn.lost, call, answer] at kept
        | ok replies =>
          rw [answer] at failed
          cases failed
    | process params input tick call rows bound =>
      refine synced.unanswered failed rfl (fun pending => ?_) fun _ => rfl
      cases due.1.symm.trans tick ▸ pending
  | @answered called next reply due calls answer more state rows =>
    have last : lastReply (log ++ [turn]) = some turn := by
      rw [lastReply_append, answer]
      rfl
    refine ⟨?_, fun pending _ => ?_, fun pending => ?_⟩
    · rw [more, saidMore, last]
      simp [ExchangeTurn.saysMore, answer]
    · rw [last]
      exact state pending
    · rw [lastInput_append, rows]
      cases calls with
      | resume params tick call bound =>
        have input : turn.input? = none := by simp [ExchangeTurn.input?, call]
        rw [input]
        exact synced.rows (due.1.symm.trans tick)
      | process params input tick call given bound =>
        have input : turn.input? = some turn.rows := by
          simp [ExchangeTurn.input?, call, given]
        rw [input]
        rfl

omit synced

/-- The caller and the validators, which every turn sets anew. -/
structure Visit where
  authPrincipal : Option String
  ifNoneMatch : Option String
  ifModifiedSince : Option String

abbrev ProcessParams.at (params : ProcessParams) (visit : Visit) : ProcessParams :=
  { params with
    authPrincipal := visit.authPrincipal
    ifNoneMatch := visit.ifNoneMatch
    ifModifiedSince := visit.ifModifiedSince }

namespace TableInOutExchangeState

/-- Another visit and another blob. -/
def touch (visit : Visit) (blob : Bytes) (state : TableInOutExchangeState ω)
    : TableInOutExchangeState ω :=
  { state with params := state.params.at visit, blob }

/-- The states differ in what every turn sets anew, and in their blobs. -/
def Touched (state other : TableInOutExchangeState ω) : Prop :=
  ∃ visit blob, other = state.touch visit blob

theorem Touched.refl (state : TableInOutExchangeState ω) : state.Touched state :=
  ⟨⟨_, _, _⟩, _, rfl⟩

/-- Two states that differ so from a third one do from each other. -/
theorem Touched.euclid {left right} (first : state.Touched left) (second : state.Touched right)
    : left.Touched right := by
  obtain ⟨_, _, rfl⟩ := first
  obtain ⟨_, _, rfl⟩ := second
  exact ⟨_, _, rfl⟩

theorem takeDelta_touch (ctx visit blob) (state : TableInOutExchangeState ω)
    : (state.touch visit blob).takeDelta dec ctx
      = ((state.takeDelta dec ctx).1, (state.takeDelta dec ctx).2.touch visit blob) := by
  have current : (state.touch visit blob).params.currentPushdownFilters
      = state.params.currentPushdownFilters := rfl
  have history : (state.touch visit blob).filterHistory = state.filterHistory := rfl
  unfold takeDelta
  cases ctx.tickMetadata pushdownFiltersKey with
  | none => rfl
  | some encoded =>
    rw [current, history]
    cases state.params.currentPushdownFilters with
    | none => rfl
    | some current =>
      rcases recorded : state.filterHistory.record dec current encoded with ⟨answer, history, next⟩
      simp only [recorded]
      cases answer <;> rfl

/-- The function is called with what the turn set, and the reply does not read the blob. -/
theorem serve_touch (input ctx turn blob) {visit}
    (own : state.params.authPrincipal = visit.authPrincipal) (world)
    : let served := state.serve out b64 schema input ctx turn world
      (state.touch visit blob).serve out b64 schema input ctx turn world
        = ((served.1.1, { served.1.2 with blob }), served.2) := by
  have called : (state.touch visit blob).call ctx input
      = ((state.call ctx input).1, { (state.call ctx input).2 with blob }) := by
    simp only [call, touch, ProcessParams.at, ← own]
    split <;> rfl
  simp only [serve, called, bind, StateT.bind]
  rcases ran : (state.call ctx input).1.run (state.call ctx input).2.func world
    with ⟨collected, after⟩
  cases collected with
  | error error => rfl
  | ok collected =>
    have same : ({ (state.call ctx input).2 with blob } : TableInOutExchangeState ω).reply out b64
        schema turn.tick collected
        = (state.call ctx input).2.reply out b64 schema turn.tick collected := rfl
    simp only [same]
    cases (state.call ctx input).2.reply out b64 schema turn.tick collected <;> rfl

/-- States that differ so answer a turn alike. -/
theorem Touched.exchange {other} (touched : state.Touched other)
    (dec out b64 schema input ctx world)
    : let answered := state.exchange dec out b64 schema input ctx world
      ∃ next, other.exchange dec out b64 schema input ctx world
          = ((answered.1.1, next), answered.2)
        ∧ answered.1.2.Touched next := by
  obtain ⟨visit, blob, rfl⟩ := touched
  have signed : (state.touch visit blob).signed ctx
      = (state.signed ctx).touch { visit with authPrincipal := ctx.authPrincipal } blob := rfl
  simp only [TableInOutExchangeState.exchange, signed, takeDelta_touch]
  have caller : ((state.signed ctx).takeDelta dec ctx).2.params.authPrincipal
      = ctx.authPrincipal := by
    simp only [takeDelta]
    split
    · rfl
    · split
      · rfl
      · split <;> rfl
  rcases taken : (state.signed ctx).takeDelta dec ctx with ⟨delta, next⟩
  rw [taken] at caller
  cases delta with
  | error error => exact ⟨_, rfl, _, _, rfl⟩
  | ok done =>
    have order (visit) : (next.touch visit blob).continuation = next.continuation := rfl
    have func (visit) : (next.touch visit blob).func = next.func := rfl
    simp only [order, func]
    cases next.continuation.accept next.func.name ctx.isContinuationTick input.numRows with
    | error error => exact ⟨_, rfl, _, _, rfl⟩
    | ok done => exact ⟨_, serve_touch input ctx _ blob caller world, ⟨_, _, _⟩, _, rfl⟩

end TableInOutExchangeState

structure ExchangeEnv (P ω : Type) where
  worker : InOutWorker P ω
  env : Env
  bincode : Bincode
  out : Batches
  b64 : Base64

structure ExchangeEnv.Lawful (world : ExchangeEnv P ω) : Prop where
  ipc : world.env.ipc.Lawful
  bincode : world.bincode.Lawful

variable {world : ExchangeEnv P ω} {ctx : CallContext} {fresh : Bytes} {dto : InitRequest}

/-- What an accepted init of an exchange settled. -/
structure ExchangeCall where
  init : InitCall
  index : Nat
  signature : Signature
  params : ProcessParams
  first : ExchangeBlob
  autoApply : Bool

structure ExchangeOpened (world : ExchangeEnv P ω) (ctx : CallContext) (fresh : Bytes)
    (dto : InitRequest) (call : ExchangeCall) : Prop where
  opened : world.worker.dispatcher.readInit world.env ctx fresh dto = .ok call.init
  resolved : resolveBlended Signature.argumentSpecs (·.metadata.inputFromArgs)
      call.init.bound.request.functionName
      (world.worker.dispatcher.tableinouts call.init.bound.request.functionName)
      call.init.bound.params.arguments call.init.bound.params.inputSchema call.init.call
    = .ok (call.index, call.signature)
  made : ∃ handling, call.init.filteredParams world.env dto
      (call.init.bound.params.arguments.remapPositional call.signature.argumentSpecs) handling
    = .ok call.params
  built : world.worker.dispatcher.exchangeBlob world.env .tableInOut call.init
      call.init.bound.params.inputSchema dto call.autoApply (call.init.splitPayloads.getD [])
    = .ok call.first

def ExchangeCall.func (call : ExchangeCall) (worker : InOutWorker P ω) : TableInOutFunction ω :=
  worker.code call.init.bound.request.functionName call.index

variable {d : Dispatcher P}

theorem target_tableInOut {scope bound phase index arguments}
    (resolved : d.target scope bound phase = .ok (.tableInOut index arguments))
    : ∃ signature, resolveBlended Signature.argumentSpecs (·.metadata.inputFromArgs)
        bound.request.functionName (d.tableinouts bound.request.functionName)
        bound.params.arguments bound.params.inputSchema scope = .ok (index, signature)
      ∧ arguments = bound.params.arguments.remapPositional signature.argumentSpecs := by
  simp only [Dispatcher.target] at resolved
  split at resolved
  · obtain ⟨found, -, made⟩ := bind_eq_ok.mp resolved
    cases pure_eq_ok.mp made
  · split at resolved
    · obtain ⟨-, -, resolved⟩ := bind_eq_ok.mp resolved
      obtain ⟨⟨place, signature⟩, found, made⟩ := bind_eq_ok.mp resolved
      cases pure_eq_ok.mp made
      exact ⟨signature, found, rfl⟩
    · split at resolved
      · obtain ⟨_, -, resolved⟩ := bind_eq_ok.mp resolved
        obtain ⟨found, -, made⟩ := bind_eq_ok.mp resolved
        cases pure_eq_ok.mp made
      · obtain ⟨found, -, made⟩ := bind_eq_ok.mp resolved
        cases pure_eq_ok.mp made

/-- The exchange before its first turn. -/
def ExchangeCall.start (call : ExchangeCall) (worker : InOutWorker P ω) (blob : Bytes)
    : TableInOutExchangeState ω where
  func := call.func worker
  params := call.params
  filters := if call.autoApply then call.params.currentPushdownFilters else none
  blob := blob
  filterHistory := .empty
  continuation := {}

variable {init : InitCall}

theorem initExchange_eq_ok {start}
    (accepted : world.worker.initExchange world.env world.bincode ctx fresh dto = .ok (init, start))
    : ∃ call, ExchangeOpened world ctx fresh dto call ∧ call.init = init
      ∧ ∃ bytes, world.bincode.encode call.first = .ok bytes
        ∧ start = call.start world.worker bytes := by
  simp only [InOutWorker.initExchange, bind_eq_ok] at accepted
  obtain ⟨init', opened, target, meant, accepted⟩ := accepted
  cases target with
  | tableInOut index arguments =>
    simp only [bind_eq_ok, pure_eq_ok, Prod.mk.injEq] at accepted
    obtain ⟨f, -, handling, -, params, made, -, -, first, built, bytes, encoded, rfl, rfl⟩ :=
      accepted
    obtain ⟨signature, resolved, rfl⟩ := target_tableInOut meant
    refine ⟨⟨init', index, signature, params, first, decide (handling = .sdk)⟩,
      ⟨opened, resolved, ⟨handling, made⟩, built⟩, rfl, bytes, encoded, ?_⟩
    simp [ExchangeCall.start, ExchangeCall.func]
  | _ => cases accepted

/-- The exchange still stands for the call that opened it. -/
structure Stands (world : ExchangeEnv P ω) (call : ExchangeCall)
    (state : TableInOutExchangeState ω) : Prop where
  func : state.func = call.func world.worker
  blob : ∃ blob, world.bincode.decode state.blob = .ok blob ∧ blob.Continues call.first
  tracked : Tracked world.env.decoders state.filterHistory call.params.currentPushdownFilters
    state.params.currentPushdownFilters
  filters : state.filters = if call.autoApply then state.params.currentPushdownFilters else none
  params : ∃ live visit,
    state.params = { call.params.at visit with currentPushdownFilters := live }

variable {call : ExchangeCall} {state : TableInOutExchangeState ω} (lawful : world.Lawful)
  (opened : ExchangeOpened world ctx fresh dto call) (named : call.init.bound.request.Named)
  (carried : Carried call.init.bound dto)

include lawful opened in
theorem Stands.start {bytes} (encoded : world.bincode.encode call.first = .ok bytes)
    : Stands world call (call.start world.worker bytes) := by
  obtain ⟨handling, made⟩ := opened.made
  exact ⟨rfl, ⟨call.first, lawful.bincode.decodes encoded, .refl call.first⟩,
    (filteredParams_eq_ok lawful.ipc made).2.2.2, rfl, _, ⟨_, _, _⟩, rfl⟩

theorem Stands.touch (stands : Stands world call state) (visit)
    : Stands world call (state.touch visit state.blob) := by
  obtain ⟨live, _, params⟩ := stands.params
  refine ⟨stands.func, stands.blob, stands.tracked, stands.filters, live, visit, ?_⟩
  simp only [TableInOutExchangeState.touch, params]

/-- A filter delta that the exchange accepts stands on its own. -/
def Filtered (dec : Decoders String Bytes) (ctx : TurnContext) (filters : Option PushdownFilters)
    : Prop :=
  ∀ encoded current, ctx.tickMetadata pushdownFiltersKey = some encoded → filters = some current →
    (!(current.applyDeltaB64 dec encoded).isOk || current.selfContained dec encoded) = true

variable {turn : TurnContext}

/-- Such a delta keeps the history, the live filters and those of the replies in step. -/
theorem Stands.takeDelta (stands : Stands world call state)
    (filtered : Filtered world.env.decoders turn state.params.currentPushdownFilters)
    : Stands world call (state.takeDelta world.env.decoders turn).2 := by
  unfold TableInOutExchangeState.takeDelta
  cases sent : turn.tickMetadata pushdownFiltersKey with
  | none => exact stands
  | some encoded =>
    cases live : state.params.currentPushdownFilters with
    | none => exact stands
    | some current =>
      have tracked := stands.tracked
      rw [live] at tracked
      have contained := filtered encoded current sent live
      have moved := tracked.record contained
      obtain ⟨_, visit, params⟩ := stands.params
      rcases tracked.record_cases contained with ⟨error, recorded⟩ | ⟨history, next, recorded⟩
      · simp only [recorded]
        refine ⟨stands.func, stands.blob, tracked, ?_, some current, visit, by simp only [params]⟩
        rw [← live]
        exact stands.filters
      · rw [recorded] at moved
        simp only [recorded]
        refine ⟨stands.func, stands.blob, moved, ?_, some next, visit, by simp only [params]⟩
        simp only [stands.filters, live]
        cases call.autoApply <;> rfl

/-- Behind its delta a turn moves the continuation only, and is logged as the tick it is. -/
theorem exchange_keeps (dec out b64 schema input turn)
    (state : TableInOutExchangeState ω) (before)
    : ∃ visit continuation,
      let taken := ((state.signed turn).takeDelta dec turn).2
      (state.exchange dec out b64 schema input turn before).1.2
        = { taken.touch visit taken.blob with continuation }
      ∧ (state.exchange dec out b64 schema input turn before).1.1.tick
        = turn.isContinuationTick := by
  simp only [exchange]
  rcases (state.signed turn).takeDelta dec turn with ⟨delta, next⟩
  cases delta with
  | error error => exact ⟨⟨_, _, _⟩, _, rfl, rfl⟩
  | ok done =>
    simp only
    cases next.continuation.accept next.func.name turn.isContinuationTick input.numRows with
    | error error => exact ⟨⟨_, _, _⟩, _, rfl, rfl⟩
    | ok done =>
      have called : ∃ visit continuation, (next.call turn input).2
            = { next.touch visit next.blob with continuation } := by
        unfold TableInOutExchangeState.call
        split
        · exact ⟨⟨next.params.authPrincipal, none, none⟩,
            { next.continuation with resumeState := [] }, rfl⟩
        · exact ⟨⟨next.params.authPrincipal, turn.condValidator cacheIfNoneMatchKey,
              turn.condValidator cacheIfModifiedSinceKey⟩,
            { next.continuation with inputRows := input.numRows }, rfl⟩
      obtain ⟨visit, continuation, called⟩ := called
      rcases ran : (next.call turn input).1.run (next.call turn input).2.func before
        with ⟨collected, after⟩
      simp only [serve, bind, StateT.bind, ran]
      cases collected with
      | error error => exact ⟨_, _, called, rfl⟩
      | ok collected =>
        simp only
        cases (next.call turn input).2.reply out b64 schema turn.isContinuationTick
            collected with
        | error error => exact ⟨_, _, called, rfl⟩
        | ok replied =>
          refine ⟨visit, replied.2, ?_, rfl⟩
          simp only [called]
          rfl

theorem Stands.exchange (stands : Stands world call state)
    (filtered : Filtered world.env.decoders turn state.params.currentPushdownFilters)
    (schema input before)
    : Stands world call (state.exchange world.env.decoders world.out world.b64 schema input turn
        before).1.2 := by
  obtain ⟨visit, continuation, kept, -⟩ := exchange_keeps world.env.decoders world.out world.b64
    schema input turn state before
  have signed : Stands world call (state.signed turn) := stands.touch ⟨_, _, _⟩
  have taken := @Stands.takeDelta P ω world call _ turn signed filtered
  rw [kept]
  obtain ⟨func, blob, tracked, filters, params⟩ := taken.touch visit
  exact ⟨func, blob, tracked, filters, params⟩

variable {blob : ExchangeBlob}

include lawful opened named in
/-- A token of the exchange, and the exchange that a worker rebuilds from it. -/
theorem decodeExchange_continues {token history live}
    (tracked : Tracked world.env.decoders history call.params.currentPushdownFilters live)
    (continues : blob.Continues call.first) (decodes : world.bincode.decode token = .ok blob)
    (deltas : blob.filterDeltas = history.deltas)
    (order : blob.filterPredicateOrder = history.order)
    : world.worker.decodeExchange world.env world.bincode token = .ok {
        func := call.func world.worker
        params := { (call.init.asBlob dto call.init.bound.params.inputSchema blob).makeParams
            (call.init.bound.params.arguments.remapPositional call.signature.argumentSpecs) with
          currentPushdownFilters := live }
        filters := if call.autoApply then live else none
        blob := token
        filterHistory := history
        continuation := blob.continuation } := by
  obtain ⟨handling, made⟩ := opened.made
  obtain ⟨given, -, parse, -⟩ := filteredParams_eq_ok lawful.ipc made
  obtain ⟨names, -, apply⟩ := names_of_continues opened.built continues
  have within := (readInit_eq_ok opened.opened).2.2.1
  have alike : call.init.call.Alike
      (call.init.asBlob dto call.init.bound.params.inputSchema blob).scope :=
    bindScope_alike named within names.catalogName names.schemaPath
  have read := readBlob_continues lawful.ipc opened.opened opened.built continues decodes
  have resolved := opened.resolved
  rw [alike.resolveBlended, ← names.functionName] at resolved
  have filtered : (call.init.asBlob dto call.init.bound.params.inputSchema blob).filteredParams
      world.env (call.init.bound.params.arguments.remapPositional call.signature.argumentSpecs)
      = _ := filteredParams_continues parse given tracked names.joinKeys deltas order
  have func : call.func world.worker = world.worker.code blob.functionName call.index := by
    rw [names.functionName]
    rfl
  rw [func, ← apply]
  refine bind_eq_ok.mpr ⟨_, read, bind_eq_ok.mpr ⟨_, resolved, bind_eq_ok.mpr ⟨_, filtered, ?_⟩⟩⟩
  rfl

include lawful opened named carried in
/-- An exchange that is rebuilt from its token goes on as it stood, if its request set nothing
that the token does not keep.
-/
theorem Stands.reencode (stands : Stands world call state)
    : ∃ next, world.worker.reencode world.env world.bincode state = .ok next
      ∧ Stands world call next ∧ state.Touched next
      ∧ next.continuation = state.continuation := by
  obtain ⟨blob, decodes, continues⟩ := stands.blob
  let suspended : ExchangeBlob := { blob with
    filterDeltas := state.filterHistory.deltas
    filterPredicateOrder := state.filterHistory.order
    continuation := state.continuation }
  obtain ⟨token, encoded⟩ := lawful.bincode.encodes suspended
  have moved : suspended.Continues call.first := by
    obtain ⟨innerResume, deltas, order, continuation, rfl⟩ := continues
    exact ⟨_, _, _, _, rfl⟩
  have rebuilt := decodeExchange_continues lawful opened named stands.tracked moved
    (lawful.bincode.decodes encoded) rfl rfl
  have encodes : state.encodeState world.bincode = .ok token := by
    rw [encodeState, decodes, ok_bind, encoded]
  obtain ⟨handling, made⟩ := opened.made
  obtain ⟨given, same, -, -⟩ := filteredParams_eq_ok lawful.ipc made
  -- The parameters come back as the request set them, with the live filters and no caller.
  have params := (makeParams_eq_iff
    (call.init.bound.params.arguments.remapPositional call.signature.argumentSpecs)
    state.params.currentPushdownFilters opened.opened opened.built moved given).mpr carried
  rw [params] at rebuilt
  refine ⟨_, bind_eq_ok.mpr ⟨token, encodes, rebuilt⟩, ⟨rfl, ?_, stands.tracked, rfl, ?_⟩, ?_, rfl⟩
  · exact ⟨_, lawful.bincode.decodes encoded, moved⟩
  · refine ⟨state.params.currentPushdownFilters, ⟨none, none, none⟩, ?_⟩
    rw [same]
    rfl
  · refine ⟨⟨none, none, none⟩, token, ?_⟩
    obtain ⟨live, _, is⟩ := stands.params
    simp only [TableInOutExchangeState.touch, ← stands.func, ← stands.filters]
    rw [is, same]
    rfl

/-- The client sends an input or a tick, or the exchange is rebuilt from its token. -/
inductive ExchangeStep where
  | turn (input : RecordBatch) (ctx : TurnContext)
  | reencode

structure ExchangeRun (ω : Type) where
  state : TableInOutExchangeState ω
  world : ω
  log : List ExchangeTurn

def ExchangeEnv.take (world : ExchangeEnv P ω) (schema : Schema) (input : RecordBatch)
    (ctx : TurnContext) (run : ExchangeRun ω) : ExchangeRun ω :=
  let ((turn, state), after) := run.state.exchange world.env.decoders world.out world.b64 schema
    input ctx run.world
  ⟨state, after, run.log ++ [turn]⟩

/-- One exchange twice: rebuilt between its turns, and not. -/
structure ExchangePair (ω : Type) where
  live : ExchangeRun ω
  plain : ExchangeRun ω

def ExchangeEnv.machine (world : ExchangeEnv P ω) (schema : Schema)
    (start : TableInOutExchangeState ω) : Machine (ExchangePair ω) ExchangeStep where
  initial pair := ∃ before, pair = ⟨⟨start, before, []⟩, ⟨start, before, []⟩⟩
  next
    | pair, .turn input ctx =>
      some ⟨world.take schema input ctx pair.live, world.take schema input ctx pair.plain⟩
    | pair, .reencode =>
      match world.worker.reencode world.env world.bincode pair.live.state with
      | .ok state => some { pair with live := { pair.live with state } }
      | .error _ => none

variable {next : TableInOutExchangeState ω}

theorem ExchangeEnv.next_reencode {start pair}
    (rebuilt : world.worker.reencode world.env world.bincode pair.live.state = .ok next)
    : (world.machine schema start).next pair .reencode
      = some { pair with live := { pair.live with state := next } } := by
  simp only [ExchangeEnv.machine, rebuilt]

/-- A filter delta that is accepted stands on its own, and there is no tick behind one that
failed after it was admitted.
-/
def ExchangeEnv.Steady (world : ExchangeEnv P ω) (pair : ExchangePair ω) : ExchangeStep → Prop
  | .turn _ ctx =>
    Filtered world.env.decoders ctx pair.live.state.params.currentPushdownFilters
      ∧ (ctx.isContinuationTick = true → ∀ turn ∈ pair.live.log, turn.lost = false)
  | .reencode => True

/-- What holds of both runs after any step. -/
structure InStep (world : ExchangeEnv P ω) (call : ExchangeCall) (pair : ExchangePair ω)
    : Prop where
  stands : Stands world call pair.live.state
  touched : pair.live.state.Touched pair.plain.state
  worlds : pair.plain.world = pair.live.world
  logs : pair.plain.log = pair.live.log
  synced : Synced pair.live.log pair.live.state.continuation
  order : ∀ before turn, before ++ [turn] <+: pair.live.log → turn.InOrder before

variable {pair : ExchangePair ω}

theorem InStep.take
    (inStep : InStep world call pair) (steady : world.Steady pair (.turn input turn))
    : InStep world call
        ⟨world.take schema input turn pair.live, world.take schema input turn pair.plain⟩ := by
  obtain ⟨filtered, kept⟩ := steady
  obtain ⟨next, same, still⟩ := inStep.touched.exchange world.env.decoders world.out world.b64
    schema input turn pair.live.world
  have step := exchange_tioStep world.env.decoders world.out world.b64 schema input turn
    pair.live.state pair.live.world
  obtain ⟨_, _, _, tick⟩ := exchange_keeps world.env.decoders world.out world.b64 schema input
    turn pair.live.state pair.live.world
  have plain : world.take schema input turn pair.plain
      = { world.take schema input turn pair.live with state := next } := by
    simp only [ExchangeEnv.take, inStep.worlds, inStep.logs, same]
    rfl
  rw [plain]
  refine ⟨inStep.stands.exchange filtered schema input pair.live.world, still, rfl, rfl,
    inStep.synced.step step, fun before last inside => ?_⟩
  rcases prefix_concat_iff.mp inside with whole | inside
  · obtain ⟨rfl, is⟩ := append_inj' whole rfl
    cases is
    exact inStep.synced.inOrder step fun isTick => kept (tick.symm.trans isTick)
  · exact inStep.order before last inside

include lawful opened named carried in
theorem InStep.reencode (inStep : InStep world call pair)
    (rebuilt : world.worker.reencode world.env world.bincode pair.live.state = .ok next)
    : InStep world call { pair with live := { pair.live with state := next } } := by
  obtain ⟨next', rebuilt', stands, touched, continuation⟩ :=
    inStep.stands.reencode lawful opened named carried
  obtain rfl := Except.ok.inj (rebuilt'.symm.trans rebuilt)
  refine ⟨stands, touched.euclid inStep.touched, inStep.worlds, inStep.logs, ?_, inStep.order⟩
  rw [continuation]
  exact inStep.synced

/-- However the inputs and ticks of an exchange come and wherever it is rebuilt between them,
every turn that is answered sends one batch, an input is taken exactly when it is due, a tick
goes on with the state of the last reply, and all is as if the exchange had not been rebuilt,
which can be done at any time. The request sets nothing that a token does not keep, the filter
deltas stand on their own, and no tick comes behind one that failed.
-/
theorem exchange_turns_in_order {init : InitCall} {start : TableInOutExchangeState ω}
    (lawful : world.Lawful)
    (accepted : world.worker.initExchange world.env world.bincode ctx fresh dto = .ok (init, start))
    (named : init.bound.request.Named) (carried : Carried init.bound dto)
    (reached : (world.machine init.outputSchema start).Reaches world.Steady pair)
    : pair.live.log = pair.plain.log ∧ pair.live.world = pair.plain.world
      ∧ (∃ next, world.worker.reencode world.env world.bincode pair.live.state = .ok next)
      ∧ ∀ before turn, before ++ [turn] <+: pair.live.log → turn.InOrder before := by
  obtain ⟨call, opened, rfl, bytes, encoded, rfl⟩ := initExchange_eq_ok accepted
  have inStep : InStep world call pair := by
    refine reached.invariant (InStep world call) ?_ ?_
    · rintro _ ⟨before, rfl⟩
      exact ⟨.start lawful opened encoded, .refl _, rfl, rfl, .start, by simp⟩
    · intro pair after action inStep steady moves
      cases action with
      | turn input turn =>
        cases moves
        exact inStep.take steady
      | reencode =>
        simp only [ExchangeEnv.machine] at moves
        cases rebuilt : world.worker.reencode world.env world.bincode pair.live.state with
        | error error => simp [rebuilt] at moves
        | ok next =>
          simp only [rebuilt, some.injEq] at moves
          rw [← moves]
          exact inStep.reencode lawful opened named carried rebuilt
  obtain ⟨next, rebuilt, -⟩ := inStep.stands.reencode lawful opened named carried
  exact ⟨inStep.logs.symm, inStep.worlds.symm, ⟨next, rebuilt⟩, inStep.order⟩

end

namespace TurnSample

open PlanSample ResumeSample

/-- A call with an input that has no columns. -/
def inputRequest : BindRequest := { request with inputSchema := some schemaStream }

def env : Env :=
  { ResumeSample.env with
    bindRequest := fun bytes =>
      if bytes = stream then .ok (inputRequest, false)
      else .error (runtimeError "ipc stream error") }

/-- As many rows as the call is limited to, with or without more behind them. -/
def page (params : ProcessParams) (more : Bool) : TableInOutOutput where
  items := [(rows (params.orderByLimit.getD 3).toNat, none)]
  more := if more then [0] else []
  resumeState := if more then some [1] else none
  more_lt := by
    intro index member
    split at member <;> simp_all
  plain := by simp [entry]

variable (failures : Nat)

/-- A page for each input and one more behind it, which the source fails to give `failures`
times.
-/
def function : TableInOutFunction Nat where
  name := "f"
  resumeSupported := true
  processOut := fun params _ => pure (.ok (page params true))
  resume := fun params _ asked =>
    (if asked < failures then .error (runtimeError "no page") else .ok (page params false),
      asked + 1)

def blob : ExchangeBlob :=
  { ResumeSample.blob with kind := .tableInOut, inputSchema := schemaStream }

/-- The blob behind the first page. -/
def pagedBlob : ExchangeBlob := { blob with continuation := ⟨true, [1], 2⟩ }

def token (continuation : Bytes) : Bytes := tokenOf "table_in_out" schemaStream [] continuation

def firstToken : Bytes := token noContinuation

def pagedToken : Bytes := token ([1] ++ counted [1] ++ fixint 8 2)

def bincode : Bincode := bincodeOf [(blob, firstToken), (pagedBlob, pagedToken)]

def world : ExchangeEnv Unit Nat where
  worker := { dispatcher := inOuts, code := fun _ _ => function failures }
  env
  bincode
  out
  b64 := { encode := fun _ => "", decode := fun _ => none }

theorem lawful : (world failures).Lawful where
  ipc := ipc_lawful
  bincode := bincodeOf_lawful (by decide +kernel) (by decide +kernel)

def input : TurnContext := { toCallContext := ctx }

def tick : TurnContext :=
  { toCallContext := ctx
    tickMetadata := fun key => if key = statusMetadataKey then some statusContinue else none }

def sentRows (log : List ExchangeTurn) : List (Option Nat) :=
  log.map fun turn =>
    match turn.answer with
    | .ok [reply] => some reply.batch.numRows
    | _ => none

def resumedWith (log : List ExchangeTurn) : List Bytes :=
  log.filterMap fun turn =>
    match turn.call with
    | some (.resume _ state) => some state
    | _ => none

def params : ProcessParams := { plainParams with inputSchema := some emptySchema }

def start (params : ProcessParams) : TableInOutExchangeState Nat where
  func := function failures
  params
  filters := none
  blob := firstToken
  filterHistory := .empty
  continuation := {}

def initCall : InitCall where
  bound := ⟨inputRequest, false, none, none, { bp with inputSchema := some emptySchema }⟩
  bindOutputSchema := emptySchema
  outputSchema := emptySchema
  executionId := [7]
  call := ⟨"memory", .schema ["data"]⟩
  splitPayloads := none

/-- The call with a limit, which tokens do not keep. -/
def limited : ProcessParams := { params with orderByLimit := some 10 }

theorem accepted : (world 0).worker.initExchange env bincode ctx [7] init
    = .ok (initCall, start 0 params) := by
  with_unfolding_all rfl

def paged : TableInOutExchangeState Nat := { start 0 params with continuation := ⟨true, [1], 2⟩ }

theorem decode_firstToken : bincode.decode firstToken = .ok blob := by
  have encoded : bincode.encode blob = .ok firstToken := by with_unfolding_all rfl
  exact (lawful 0).bincode.decodes encoded

theorem reencoded : (world 0).worker.reencode env bincode paged
    = .ok { paged with blob := pagedToken } := by
  have encoded : bincode.encode pagedBlob = .ok pagedToken := by with_unfolding_all rfl
  have decoded : bincode.decode pagedToken = .ok pagedBlob := (lawful 0).bincode.decodes encoded
  have suspended : paged.encodeState bincode = bincode.encode pagedBlob := by
    rw [TableInOutExchangeState.encodeState, show paged.blob = firstToken from rfl,
      decode_firstToken]
    rfl
  rw [InOutWorker.reencode, suspended, encoded, ok_bind]
  simp only [InOutWorker.decodeExchange, readBlob, decoded]
  with_unfolding_all rfl

/-- A rebuild before the first turn finds a call without a limit. -/
theorem reencoded_limited
    : (world 0).worker.reencode env bincode (start 0 limited) = .ok (start 0 params) := by
  have suspended : (start 0 limited).encodeState bincode = bincode.encode blob := by
    rw [TableInOutExchangeState.encodeState, show (start 0 limited).blob = firstToken from rfl,
      decode_firstToken]
    rfl
  have encoded : bincode.encode blob = .ok firstToken := by with_unfolding_all rfl
  rw [InOutWorker.reencode, suspended, encoded, ok_bind]
  simp only [InOutWorker.decodeExchange, readBlob, decode_firstToken]
  with_unfolding_all rfl

/-- The exchange before its first turn, twice. -/
def opened (params : ProcessParams) : ExchangePair Nat :=
  ⟨⟨start failures params, 0, []⟩, ⟨start failures params, 0, []⟩⟩

/-- Its run up to the first page. -/
def answered : ExchangeRun Nat := (world 0).take emptySchema (rows 2) input ⟨start 0 params, 0, []⟩

/-- The page behind it. -/
def continued (blob : Bytes) : ExchangeRun Nat :=
  (world 0).take emptySchema (rows 0) tick { answered with state := { paged with blob } }

theorem unfiltered {turn} (plain : turn.tickMetadata pushdownFiltersKey = none) (filters)
    : Filtered (world 0).env.decoders turn filters := by
  intro encoded current sent
  rw [plain] at sent
  cases sent

/-- An input, a rebuild and a tick. -/
theorem reached : ((world 0).machine emptySchema (start 0 params)).Reaches (world 0).Steady
    ⟨continued pagedToken, continued firstToken⟩ := by
  have first : ((world 0).machine emptySchema (start 0 params)).Reaches (world 0).Steady
      ⟨answered, answered⟩ :=
    .step (.start ⟨0, rfl⟩) (show (world 0).Steady (opened 0 params) (.turn (rows 2) input) from
      ⟨unfiltered rfl _, nofun⟩) rfl
  have second : ((world 0).machine emptySchema (start 0 params)).Reaches (world 0).Steady
      ⟨{ answered with state := { paged with blob := pagedToken } }, answered⟩ := by
    refine .step first (show (world 0).Steady ⟨answered, answered⟩ .reencode from trivial)
      (ExchangeEnv.next_reencode ?_)
    exact reencoded
  refine .step second (show (world 0).Steady _ (.turn (rows 0) tick) from
    ⟨unfiltered (by decide) _, fun _ => ?_⟩) rfl
  intro turn member
  rw [mem_singleton.mp member]
  rfl

end TurnSample

open TurnSample PlanSample ResumeSample in
/-- An input is answered by a page, the exchange is rebuilt, and a tick gets the other page. -/
theorem exchange_turns_in_order_sample
    : (world 0).worker.initExchange TurnSample.env TurnSample.bincode ctx [7] init
        = .ok (initCall, TurnSample.start 0 params)
      ∧ ∃ pair, ((world 0).machine emptySchema (TurnSample.start 0 params)).Reaches
          (world 0).Steady pair
        ∧ sentRows pair.live.log = [some 3, some 3] ∧ resumedWith pair.live.log = [[1]]
        ∧ pair.live.log = pair.plain.log
        ∧ ∀ before turn, before ++ [turn] <+: pair.live.log → turn.InOrder before := by
  have named : initCall.bound.request.Named := by
    unfold BindRequest.Named
    decide
  have carried : Carried initCall.bound init := by
    constructor <;> decide
  obtain ⟨same, -, -, order⟩ := exchange_turns_in_order (lawful 0) accepted named carried reached
  refine ⟨accepted, _, reached, ?_, ?_, same, order⟩
  all_goals with_unfolding_all rfl

open TurnSample PlanSample ResumeSample in
/-- A limit is gone once the exchange is rebuilt; and a tick behind one that failed starts from
an empty state, although the last reply recorded another one.
-/
theorem exchange_turns_disturbed
    : (world 0).worker.initExchange TurnSample.env TurnSample.bincode ctx [7]
          { init with orderByLimit := some 10 }
        = .ok (initCall, TurnSample.start 0 limited)
      ∧ (∃ pair, ((world 0).machine emptySchema (TurnSample.start 0 limited)).exec
            (opened 0 limited) [.reencode, .turn (rows 2) TurnSample.input] = some pair
        ∧ sentRows pair.live.log = [some 3] ∧ sentRows pair.plain.log = [some 10])
      ∧ ∃ pair, ((world 1).machine emptySchema (TurnSample.start 1 params)).exec (opened 1 params)
          [.turn (rows 2) TurnSample.input, .turn (rows 0) tick, .turn (rows 0) tick] = some pair
        ∧ sentRows pair.live.log = [some 3, none, some 3]
        ∧ resumedWith pair.live.log = [[1], []] := by
  refine ⟨by with_unfolding_all rfl, ?_, ?_⟩
  · have rebuilt : ((world 0).machine emptySchema (TurnSample.start 0 limited)).next
        (opened 0 limited) .reencode
        = some ⟨⟨TurnSample.start 0 params, 0, []⟩, ⟨TurnSample.start 0 limited, 0, []⟩⟩ :=
      ExchangeEnv.next_reencode reencoded_limited
    rw [Machine.exec, rebuilt]
    apply Exists.intro
    refine ⟨?_, ?_, ?_⟩
    all_goals with_unfolding_all rfl
  · apply Exists.intro
    refine ⟨?_, ?_, ?_⟩
    all_goals with_unfolding_all rfl

end Vgi.Dispatch
