import Vgi.Dispatch.Turns

/-! Turns that are refused. By the last check of a turn its filter delta is recorded, the resume
state is taken out and the rows of the input are counted, and an error puts none of it back.
-/

namespace Vgi.Dispatch

open Arrow Lib Pushdown

variable {ω : Type}

/-- The exchange stands where it did, with the same filters. -/
@[mk_iff]
structure SamePosition (before after : TableInOutExchangeState ω) : Prop where
  continuation : after.continuation = before.continuation
  filters : after.filters = before.filters
  current : after.params.currentPushdownFilters = before.params.currentPushdownFilters
  history : after.filterHistory = before.filterHistory

/-- The call of the turn leaves the continuation as it is: there is no resume state to take out, or
the input has as many rows as the one before.
-/
def Unseen (input : RecordBatch) (ctx : TurnContext) (continuation : TioContinuation) : Prop :=
  if ctx.isContinuationTick then continuation.resumeState = []
  else continuation.inputRows = input.numRows

/-- What a turn does before its last check changes nothing: it records its delta and, if its input
is due, takes the resume state out or counts the rows of the input.
-/
@[mk_iff]
structure LeavesPosition (dec : Decoders String Bytes) (input : RecordBatch) (ctx : TurnContext)
    (state : TableInOutExchangeState ω) : Prop where
  delta : SamePosition state (state.takeDelta dec ctx).2
  call : (state.takeDelta dec ctx).1 = .ok () →
    ctx.isContinuationTick = state.continuation.morePending
      ∧ (ctx.isContinuationTick = true → input.numRows = 0) →
    Unseen input ctx state.continuation

/-- A call moves the exchange by what it does to the continuation. -/
theorem samePosition_call_iff {before after : TableInOutExchangeState ω} {input ctx}
    (same : after.continuation = before.continuation)
    : SamePosition before (after.call ctx input).2
      ↔ SamePosition before after ∧ Unseen input ctx before.continuation := by
  rw [samePosition_iff, samePosition_iff, TableInOutExchangeState.call, Unseen, same]
  generalize before.continuation = continuation
  obtain ⟨pending, state, rows⟩ := continuation
  cases ctx.isContinuationTick with
  | true | false => simp [and_comm, eq_comm]

/-- A turn whose call fails, or whose output is refused, stands where the call left it. -/
theorem serve_refused {out b64 schema input ctx turn} {state : TableInOutExchangeState ω} {world}
    (failed : (state.serve out b64 schema input ctx turn world).1.1.answer.isOk = false)
    : (state.serve out b64 schema input ctx turn world).1.2 = (state.call ctx input).2 := by
  rcases ran : (state.call ctx input).1.run (state.call ctx input).2.func world with ⟨collected, _⟩
  simp only [TableInOutExchangeState.serve, bind, StateT.bind, ran] at failed ⊢
  cases collected with
  | error error => rfl
  | ok collected =>
    simp only at failed ⊢
    cases made : (state.call ctx input).2.reply out b64 schema turn.tick collected with
    | error error => rfl
    | ok result =>
      rw [made] at failed
      cases failed

/-- A refused turn leaves the exchange where it was exactly if nothing that it did before its last
check shows.
-/
theorem refused_turn_position_iff (dec : Decoders String Bytes) (out : Batches) (b64 : Base64)
    (schema : Schema) (input : RecordBatch) (ctx : TurnContext)
    (state : TableInOutExchangeState ω) (world : ω)
    : let result := (state.exchange dec out b64 schema input ctx world).1
      (result.1.answer.isOk = false → SamePosition state result.2)
        ↔ (result.1.answer.isOk = false → LeavesPosition dec input ctx (state.signed ctx)) := by
  refine imp_congr_right fun failed => ?_
  have unsigned (after : TableInOutExchangeState ω)
      : SamePosition state after ↔ SamePosition (state.signed ctx) after := by
    rw [samePosition_iff, samePosition_iff]
    rfl
  simp only [TableInOutExchangeState.exchange] at failed ⊢
  rw [unsigned]
  have same := @takeDelta_same ω dec ctx (state.signed ctx)
  rw [← same] at failed
  rw [leavesPosition_iff, ← same]
  rcases taken : (state.signed ctx).takeDelta dec ctx with ⟨delta, next⟩
  rw [taken] at failed same
  rw [← @accept_eq_ok _ next.func.name]
  cases delta with
  | error error =>
    simp only [reduceCtorEq, false_implies, and_true]
    rfl
  | ok done =>
    cases order : next.continuation.accept next.func.name ctx.isContinuationTick input.numRows with
    | error error =>
      simp only [order, reduceCtorEq, false_implies, implies_true, and_true]
      rfl
    | ok done =>
      simp only [order] at failed ⊢
      rw [serve_refused failed, samePosition_call_iff same, ← same]
      simp

open TurnSample PlanSample ResumeSample in
/-- A tick that fails leaves the pending output without its resume state. -/
theorem refused_turn_moves
    : let behind := (world 1).take emptySchema (rows 2) TurnSample.input
        ⟨TurnSample.start 1 params, 0, []⟩
      let failed := (world 1).take emptySchema (rows 0) tick behind
      failed.log.map (·.answer.isOk) = [true, false]
        ∧ behind.state.continuation = ⟨true, [1], 2⟩
        ∧ failed.state.continuation = ⟨true, [], 2⟩ := by
  refine ⟨?_, ?_, ?_⟩
  all_goals with_unfolding_all rfl

end Vgi.Dispatch
