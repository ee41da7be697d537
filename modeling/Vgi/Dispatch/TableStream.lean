import Vgi.Dispatch.Continuation
import Vgi.Lib.Frame

/-! The stream of a table function over continuations. Whatever turns it took and however often
it was rebuilt from a token, a token stands for the call that opened the stream exactly if the
request set nothing that the token does not keep.
-/

namespace Vgi.Dispatch

open Arrow Lib Pushdown List Dispatcher

section

variable {P ω : Type} {d : Dispatcher P} {env : Env} {bincode : Bincode} {ops : TableProducer P ω}
  {out : Batches} {ctx : CallContext} {fresh : Bytes} {dto : InitRequest}

/-- What happens to a stream: a turn, or a worker rebuilds it from its token. -/
inductive StreamAction where
  | tick (ctx : TurnContext)
  | resume

/-- The stream as another worker rebuilds it. -/
def Dispatcher.rebuildTable (d : Dispatcher P) (ops : TableProducer P ω) (env : Env)
    (bincode : Bincode) (state : TableProducerState P) : Result (TableProducerState P) := do
  let token ← state.encodeState ops bincode
  let (_, state) ← d.decodeTable ops env bincode token
  return state

/-- The turns of a stream, also those after a failed one. -/
def Dispatcher.tableStream (d : Dispatcher P) (ops : TableProducer P ω) (out : Batches)
    (env : Env) (bincode : Bincode) (start : TableProducerState P)
    : Machine (TableProducerState P × ω) StreamAction where
  initial stream := stream.1 = start
  next
    | (state, world), .tick ctx =>
      let ((_, state), world) := state.produce ops out env.decoders bincode ctx world
      some (state, world)
    | (state, world), .resume =>
      match d.rebuildTable ops env bincode state with
      | .ok state => some (state, world)
      | .error _ => none

/-- A filter delta that the stream accepts stands on its own. -/
def Contained (dec : Decoders String Bytes) (stream : TableProducerState P × ω)
    : StreamAction → Prop
  | .tick ctx =>
    ∀ encoded filters, ctx.tickMetadata pushdownFiltersKey = some encoded →
      stream.1.currentFilters = some filters →
      (!(filters.applyDeltaB64 dec encoded).isOk || filters.selfContained dec encoded) = true
  | .resume => True

/-- What an init on the table path went through. -/
structure TableOpened (d : Dispatcher P) (env : Env) (ctx : CallContext) (fresh : Bytes)
    (dto : InitRequest) (init : InitCall) (call : TableCall P) (first : ExchangeBlob) : Prop where
  opened : d.readInit env ctx fresh dto = .ok init
  noInput : init.bound.params.inputSchema = none
  resolved : d.resolveTable init.bound.request.functionName init.bound.params.arguments none
    init.call = .ok (call.index, call.function)
  made : ∃ handling, init.filteredParams env dto
      (init.bound.params.arguments.remapPositional call.function.argumentSpecs) handling
    = .ok call.params
  built : ∃ autoApply, d.exchangeBlob env .table init init.bound.params.inputSchema dto autoApply
    (init.splitPayloads.getD []) = .ok first

theorem target_table {call bound phase index f arguments}
    (resolved : d.target call bound phase = .ok (.table index f arguments))
    : bound.params.inputSchema = none
      ∧ d.resolveTable bound.request.functionName bound.params.arguments none call = .ok (index, f)
      ∧ arguments = bound.params.arguments.remapPositional f.argumentSpecs := by
  rcases target_cases resolved with ⟨_, _, -, -, -, noInput, found, is⟩ | ⟨other, -⟩
  · cases is
    rw [noInput] at found
    exact ⟨noInput, found, rfl⟩
  · cases other

variable {call : TableCall P}

theorem initTable_eq_ok {start}
    (accepted : d.initTable env bincode ctx fresh dto = .ok (call, start))
    : ∃ init first bytes, TableOpened d env ctx fresh dto init call first
      ∧ bincode.encode first = .ok bytes ∧ start.resumeBlob = some bytes
      ∧ start.currentFilters = call.params.currentPushdownFilters
      ∧ start.filterHistory = .empty := by
  simp only [initTable, bind_eq_ok] at accepted
  obtain ⟨init, opened, ⟨found, handling⟩, table, -, -, -, -, producer, -, first, built, bytes,
    encoded, rfl, rfl⟩ := accepted
  refine ⟨init, first, bytes, ?_, encoded, rfl, rfl, rfl⟩
  obtain ⟨target, meant, table⟩ := bind_eq_ok.mp table
  cases target with
  | table index f arguments =>
    simp only [bind_eq_ok, pure_eq_ok, Prod.mk.injEq] at table
    obtain ⟨handling', -, params, made, rfl, rfl⟩ := table
    obtain ⟨noInput, resolved, rfl⟩ := target_table meant
    refine ⟨opened, noInput, resolved, ⟨_, made⟩, ⟨decide (handling' = .sdk), ?_⟩⟩
    rw [noInput]
    exact built
  | _ => cases table

variable {bytes : Bytes}

/-- The function and the parameters that a token of the stream stands for. -/
theorem resumeTable_continues (lawful : env.ipc.Lawful) {init}
    {first blob : ExchangeBlob} {history live}
    (opened : TableOpened d env ctx fresh dto init call first) (named : init.bound.request.Named)
    (continues : blob.Continues first) (decodes : bincode.decode bytes = .ok blob)
    (tracked : Tracked env.decoders history call.params.currentPushdownFilters live)
    (deltas : blob.filterDeltas = history.deltas)
    (order : blob.filterPredicateOrder = history.order)
    : ∃ read params, readBlob env bincode bytes = .ok read ∧ read.blob = blob
      ∧ d.resumeTable env read = .ok (⟨call.index, call.function, params⟩, history)
      ∧ params.currentPushdownFilters = live
      ∧ (params = { call.params with currentPushdownFilters := live }
        ↔ Carried init.bound dto ∧ call.params.authPrincipal = none) := by
  obtain ⟨handling, made⟩ := opened.made
  obtain ⟨autoApply, built⟩ := opened.built
  obtain ⟨given, same, parse, -⟩ := filteredParams_eq_ok lawful made
  obtain ⟨names, -⟩ := names_of_continues built continues
  have within := (readInit_eq_ok opened.opened).2.2.1
  have alike : init.call.Alike (init.asBlob dto init.bound.params.inputSchema blob).scope :=
    bindScope_alike named within names.catalogName names.schemaPath
  have resolved : d.resolveTable blob.functionName init.bound.params.arguments
      init.bound.params.inputSchema
      (init.asBlob dto init.bound.params.inputSchema blob).scope
      = .ok (call.index, call.function) := by
    rw [names.functionName, ← alike.resolveTable, opened.noInput, opened.resolved]
  refine ⟨_, _, readBlob_continues lawful opened.opened built continues decodes, rfl,
    bind_eq_ok.mpr ⟨_, resolved, bind_eq_ok.mpr
      ⟨_, filteredParams_continues parse given tracked names.joinKeys deltas order, rfl⟩⟩, rfl, ?_⟩
  rw [same]
  have kept := makeParams_eq_iff
    (init.bound.params.arguments.remapPositional call.function.argumentSpecs) live opened.opened
    built continues given
  constructor
  · intro rebuilt
    have anonymous := (congrArg ProcessParams.authPrincipal rebuilt).symm
    refine ⟨kept.mp (rebuilt.trans ?_), anonymous⟩
    simp only [ProcessParams.mk.injEq, and_true, true_and]
    exact anonymous
  · rintro ⟨carried, anonymous⟩
    refine (kept.mpr carried).trans ?_
    simp only [ProcessParams.mk.injEq, and_true, true_and]
    exact anonymous.symm

/-- The stream still stands for the call that opened it: its blob continues the first one, and
its history leads from the filters of the call to its live ones.
-/
structure Serves (env : Env) (bincode : Bincode) (call : TableCall P) (first : ExchangeBlob)
    (state : TableProducerState P) : Prop where
  blob : ∃ bytes blob, state.resumeBlob = some bytes ∧ bincode.decode bytes = .ok blob
    ∧ blob.Continues first
  tracked : Tracked env.decoders state.filterHistory call.params.currentPushdownFilters
    state.currentFilters

variable {init : InitCall} {first : ExchangeBlob} {state : TableProducerState P}
  {next : TableProducerState P} (serves : Serves env bincode call first state)

include serves

theorem Serves.same (same : SameStream state next) : Serves env bincode call first next := by
  constructor
  · rw [same.blob]
    exact serves.blob
  · rw [same.history, same.current]
    exact serves.tracked

/-- A delta that stands on its own keeps the history in step with the filters. -/
theorem Serves.takeTick {world : ω} {turn}
    (contained : Contained env.decoders (state, world) (.tick turn))
    : Serves env bincode call first (state.takeTick env.decoders turn).2 := by
  unfold TableProducerState.takeTick
  cases sent : turn.tickMetadata pushdownFiltersKey with
  | none => exact serves
  | some encoded =>
    have tracked := serves.tracked
    simp only [TableProducerState.takeDelta]
    cases live : state.currentFilters with
    | none => exact serves
    | some filters =>
      rw [live] at tracked
      have moved := tracked.record (contained encoded filters sent live)
      simp only
      split <;> exact ⟨serves.blob, moved⟩

variable (lawful : bincode.Lawful)

include lawful

/-- A token of the stream, as it is read back. -/
theorem Serves.token {token} (suspended : state.encodeState ops bincode = .ok token)
    : ∃ blob, bincode.decode token = .ok blob ∧ blob.Continues first
      ∧ blob.filterDeltas = state.filterHistory.deltas
      ∧ blob.filterPredicateOrder = state.filterHistory.order := by
  obtain ⟨bytes, blob, carried, decodes, innerResume, deltas, order, continuation, rfl⟩ :=
    serves.blob
  simp only [TableProducerState.encodeState, carried] at suspended
  split at suspended
  · rw [decodes, ok_bind] at suspended
    exact ⟨_, lawful.decodes suspended, ⟨_, _, _, _, rfl⟩, rfl, rfl⟩
  · cases suspended

variable (opened : TableOpened d env ctx fresh dto init call first)

include opened

theorem Serves.rebuild (ipc : env.ipc.Lawful) (named : init.bound.request.Named)
    (rebuilt : d.rebuildTable ops env bincode state = .ok next)
    : Serves env bincode call first next := by
  simp only [rebuildTable, decodeTable, bind_eq_ok, pure_eq_ok] at rebuilt
  obtain ⟨token, suspended, ⟨again, made⟩,
    ⟨read, isRead, ⟨call', history⟩, resumed, producer, -, same⟩, rfl⟩ := rebuilt
  obtain ⟨blob, decodes, continues, deltas, order⟩ := serves.token lawful suspended
  obtain ⟨read', params, isRead', rfl, resumed', live, -⟩ :=
    resumeTable_continues ipc opened named continues decodes serves.tracked deltas order
  obtain rfl := Except.ok.inj (isRead'.symm.trans isRead)
  obtain ⟨rfl, rfl⟩ := Prod.mk.inj (Except.ok.inj (resumed'.symm.trans resumed))
  obtain ⟨-, rfl⟩ := Prod.mk.inj same
  constructor
  · exact ⟨token, _, rfl, decodes, continues⟩
  · rw [live]
    exact serves.tracked

omit serves

theorem Serves.start {start} (ipc : env.ipc.Lawful)
    (encoded : bincode.encode first = .ok bytes) (blob : start.resumeBlob = some bytes)
    (current : start.currentFilters = call.params.currentPushdownFilters)
    (history : start.filterHistory = .empty)
    : Serves env bincode call first start := by
  obtain ⟨handling, made⟩ := opened.made
  constructor
  · exact ⟨bytes, first, blob, lawful.decodes encoded, .refl first⟩
  · rw [current, history]
    exact (filteredParams_eq_ok ipc made).2.2.2

omit opened lawful

/-- Whatever turns the stream of a table function took and however often it was rebuilt, a
token of it stands for the function and the parameters of the call that opened it, with its
live filters, exactly if the request set nothing that the token does not keep and nobody was
authenticated. The deltas of the stream stand on their own, and its schema has no empty part.
-/
theorem continuation_resumes_call {start : TableProducerState P} {bound : BoundCall}
    {world : ω} {token : Bytes} (ipc : env.ipc.Lawful) (lawful : bincode.Lawful)
    (read : readBoundCall env ctx dto.bindCall = .ok bound)
    (accepted : d.initTable env bincode ctx fresh dto = .ok (call, start))
    (named : bound.request.Named)
    (reached : (d.tableStream ops out env bincode start).Reaches (Contained env.decoders)
      (state, world))
    (suspended : state.encodeState ops bincode = .ok token)
    : (do d.resumeTable env (← readBlob env bincode token))
        = .ok (⟨call.index, call.function,
            { call.params with currentPushdownFilters := state.currentFilters }⟩,
          state.filterHistory)
      ↔ Carried bound dto ∧ ctx.authPrincipal = none := by
  obtain ⟨init, first, bytes, opened, encoded, blob, current, history⟩ := initTable_eq_ok accepted
  have isRead := (readInit_eq_ok opened.opened).1
  obtain rfl := Except.ok.inj (isRead.symm.trans read)
  have serves : Serves env bincode call first state := by
    refine reached.invariant (fun stream => Serves env bincode call first stream.1) ?_ ?_
    · rintro ⟨_, _⟩ rfl
      exact .start lawful opened ipc encoded blob current history
    · rintro ⟨before, world⟩ ⟨after, next⟩ action serves contained moves
      cases action with
      | tick turn =>
        have same := produce_same ops out env.decoders bincode before turn world
        cases moves
        exact (serves.takeTick contained).same same
      | resume =>
        simp only [Dispatcher.tableStream] at moves
        cases rebuilt : d.rebuildTable ops env bincode before with
        | error error => simp [rebuilt] at moves
        | ok state =>
          simp only [rebuilt, Option.some.injEq, Prod.mk.injEq] at moves
          rw [← moves.1]
          exact serves.rebuild lawful opened ipc named rebuilt
  obtain ⟨blob, decodes, continues, deltas, order⟩ := serves.token lawful suspended
  obtain ⟨read, params, isRead', -, resumed, live, kept⟩ :=
    resumeTable_continues ipc opened named continues decodes serves.tracked deltas order
  have principal : call.params.authPrincipal = ctx.authPrincipal := by
    obtain ⟨handling, made⟩ := opened.made
    rw [(filteredParams_eq_ok ipc made).2.1]
    exact (readBoundCall_params isRead).2.2.2.2
  rw [isRead', ok_bind, resumed, ← principal, ← kept]
  simp only [Except.ok.injEq, Prod.mk.injEq, TableCall.mk.injEq, true_and, and_true]

end

deriving instance Encodable for StreamKind, TioContinuation, ExchangeBlob

namespace ResumeSample

open PlanSample

def ipc : Ipc where
  readBatch := fun _ => .error (runtimeError "ipc stream error")
  readSchema := fun bytes =>
    if bytes = schemaStream then .ok emptySchema else .error (runtimeError "ipc stream error")
  writeSchema := fun schema =>
    if schema.fields.isEmpty ∧ schema.metadata.isEmpty then .ok schemaStream
    else .error (runtimeError "ipc schema writer")

def env : Env := { PlanSample.env with ipc }

theorem ipc_lawful : env.ipc.Lawful where
  reads := by
    rintro ⟨fields, metadata⟩ bytes written
    simp only [env, ipc] at written ⊢
    split at written
    next empty =>
      simp only [List.isEmpty_iff] at empty
      cases written
      rw [if_pos rfl, empty.1, empty.2]
      rfl
    · cases written
  empty := by
    intro schema
    simp [env, ipc, schemaStream]

deriving instance Inhabited for StreamKind, TioContinuation, ExchangeBlob, Schema, ProcessParams

def blob := {
  (default : ExchangeBlob) with
  kind := .table
  functionName := "f"
  outputSchema := schemaStream
  filterSchema := schemaStream
  executionId := [7]
  catalogName := "memory"
  schemaPath := ["data"] }

def counted (bytes : Bytes) : Bytes := fixint 8 (UInt8.ofNat bytes.length) ++ bytes

/-- The bytes of such a blob, field by field. -/
def tokenOf (kind : String) (inputSchema innerResume continuation : Bytes) : Bytes :=
  counted (utf8 kind) ++ counted (utf8 "f") ++ counted schemaStream ++ counted schemaStream
    ++ counted inputSchema ++ (replicate 3 (counted [])).flatten ++ counted [7]
    ++ (replicate 4 (counted [])).flatten ++ [0] ++ counted innerResume
    ++ (replicate 2 (counted [])).flatten
    ++ counted (utf8 "memory") ++ fixint 8 1 ++ counted (utf8 "data")
    ++ (replicate 6 (counted [])).flatten ++ continuation

def noContinuation : Bytes := [0] ++ counted [] ++ fixint 8 0

def token : Bytes := tokenOf "table" [] [] noContinuation

/-- A bincode whose bytes are known for these blobs. -/
def bincodeOf (tokens : List (ExchangeBlob × Bytes)) : Bincode where
  encode := fun blob => .ok (frameOf tokens blob)
  decode := fun bytes => (readFrame tokens bytes).mapError runtimeError

theorem bincodeOf_lawful {tokens} (room : ∀ pair ∈ tokens, pair.2.head? ≠ some 255)
    (apart : (tokens.map Prod.snd).Nodup) : (bincodeOf tokens).Lawful where
  encodes := fun _ => ⟨_, rfl⟩
  decodes := by
    intro blob bytes encoded
    cases encoded
    simp only [bincodeOf, readFrame_frameOf room apart]
    rfl

def bincode : Bincode := bincodeOf [(blob, token)]

theorem bincode_lawful : bincode.Lawful :=
  bincodeOf_lawful (by decide +kernel) (by decide +kernel)

/-- One table-in-out function. -/
def inOuts : Dispatcher Unit :=
  { PlanSample.dispatcher [] with
    tableinouts := fun name =>
      if name = "f" then [⟨⟨[], {}⟩, ⟨"memory", ["data"]⟩⟩] else [] }

def ops : TableProducer Unit Unit where
  nextBatch := fun producer => pure (.ok none, producer)
  encodeResume := fun _ => []
  restoreResume := fun producer _ => producer
  resumeSupported := fun _ => true
  lastMetadata := fun _ => none
  onDynamicFilters := fun producer _ => producer
  onConditionalRequest := fun producer _ => producer

/-- A stream without filters meets no kernel. -/
def out : Batches where
  kernels := {
    cast := fun _ _ => .error "not cast"
    takeFirst := fun _ _ => .error "not selected"
    compare := fun _ _ _ _ _ => .error "not compared"
    makeComparator := fun _ _ => .error "not compared"
    numeric := fun _ _ _ => .error "not computed"
    negate := fun _ => .error "not negated" }
  filterRecordBatch := fun batch _ => .ok batch
  tryNew := fun _ _ _ => .error "number of columns does not match number of fields in schema"

def rows (count : Nat) : RecordBatch where
  schema := emptySchema
  columns := []
  numRows := count
  types := rfl
  lengths := nofun
  nonNull := nofun

/-- A scan for the first ten rows of a sample, claiming no split at all. -/
def hinted : InitRequest :=
  { init with
    orderByColumnName := some "n"
    orderByDirection := some "ASC"
    orderByLimit := some 10
    tablesampleSeed := some 42
    splitTokens := some [] }

def start : TableProducerState Unit where
  inner := ()
  currentFilters := none
  filters := none
  projectTo := some emptySchema
  resumeBlob := some token
  conditionalChecked := false
  filterHistory := .empty

def call (params : ProcessParams) : TableCall Unit := ⟨0, function [[7], [8]] none, params⟩

def plainParams := {
  (default : ProcessParams) with
  outputSchema := emptySchema
  bindOutputSchema := emptySchema
  executionId := [7] }

theorem plain_accepted
    : single.initTable env bincode ctx [7] init = .ok (call plainParams, start) := by
  with_unfolding_all rfl

theorem encode_blob : bincode.encode blob = .ok token := by
  with_unfolding_all rfl

theorem decode_token : bincode.decode token = .ok blob := bincode_lawful.decodes encode_blob

theorem start_suspended : start.encodeState ops bincode = .ok token := by
  change (do bincode.encode (start.suspend ops (← bincode.decode token))) = _
  rw [decode_token]
  exact encode_blob

/-- A rebuild finds a scan with nothing set. -/
theorem token_resumed : (do single.resumeTable env (← readBlob env bincode token))
      = .ok (call plainParams, .empty) := by
  simp only [readBlob, decode_token]
  with_unfolding_all rfl

/-- The parameters of the hinted scan, asked for by somebody. -/
def hintedParams : ProcessParams :=
  { plainParams with
    authPrincipal := some "alice"
    orderByColumn := some "n"
    orderByDirection := some "ASC"
    orderByLimit := some 10
    tablesampleSeed := some 42
    splitPayloads := some [] }

end ResumeSample

open PlanSample ResumeSample in
/-- A scan that sets none of these is resumed with its own parameters. -/
theorem continuation_resumes_call_sample
    : single.initTable ResumeSample.env bincode ctx [7] init = .ok (call plainParams, start)
      ∧ start.encodeState ops bincode = .ok token
      ∧ (do single.resumeTable ResumeSample.env (← readBlob ResumeSample.env bincode token))
        = .ok (call plainParams, .empty) := by
  refine ⟨plain_accepted, start_suspended, ?_⟩
  have read : readBoundCall ResumeSample.env ctx init.bindCall = .ok bound := rfl
  have named : bound.request.Named := by
    unfold BindRequest.Named
    decide
  have reached : (single.tableStream ops out ResumeSample.env bincode start).Reaches
      (Contained ResumeSample.env.decoders) (start, ()) := .start rfl
  have carried : Carried bound init := by
    constructor <;> decide
  exact (continuation_resumes_call ipc_lawful bincode_lawful read plain_accepted named reached
    start_suspended).mpr ⟨carried, rfl⟩

open PlanSample ResumeSample in
/-- The hints of a scan, the claim of no split and the caller are gone on the first token: it is
the token of a scan without them.
-/
theorem continuation_loses_hints
    : single.initTable ResumeSample.env bincode ⟨true, "alice"⟩ [7] hinted
        = .ok (call hintedParams, start)
      ∧ start.encodeState ops bincode = .ok token
      ∧ (do single.resumeTable ResumeSample.env (← readBlob ResumeSample.env bincode token))
        = .ok (call plainParams, .empty)
      ∧ hintedParams.orderByLimit = some 10 ∧ plainParams.orderByLimit = none
      ∧ hintedParams.splitPayloads = some [] ∧ plainParams.splitPayloads = none
      ∧ hintedParams.authPrincipal = some "alice" ∧ plainParams.authPrincipal = none := by
  refine ⟨?_, start_suspended, token_resumed, rfl, rfl, rfl, rfl, rfl, rfl⟩
  with_unfolding_all rfl

end Vgi.Dispatch
