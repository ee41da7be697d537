import Vgi.Dispatch.Producer
import Vgi.Pushdown.DeltaHistory

/-! What a continuation token keeps of a call. The blob carries the request's bytes and the
deltas of the stream, so the filters and the function come back as they were; the fields that
the rebuild does not read from it come back as if the request had not set them.
-/

namespace Vgi.Dispatch

open Arrow Lib Pushdown Option Dispatcher InitCall ProcessParams TableProducerState

variable {P ω : Type} {d : Dispatcher P} {env : Env} {bincode : Bincode} {ops : TableProducer P ω}
  {out : Batches}

/-- The request sets none of the fields that a rebuild leaves at their defaults, and none that
a blob cannot tell from an absent one.
-/
structure Carried (bound : BoundCall) (dto : InitRequest) : Prop where
  projectionIds : dto.projectionIds = none
  orderByColumn : dto.orderByColumnName = none
  orderByDirection : dto.orderByDirection = none
  orderByNullOrder : dto.orderByNullOrder = none
  orderByLimit : dto.orderByLimit = none
  tablesamplePercentage : dto.tablesamplePercentage = none
  tablesampleSeed : dto.tablesampleSeed = none
  copyFrom : bound.copyFrom = none
  substreamId : dto.substreamId ≠ some []
  attachOpaqueData : bound.request.attachOpaqueData ≠ some []
  splitTokens : dto.splitTokens ≠ some []

/-- The path of the request's schema has no empty part. -/
def BindRequest.Named (request : BindRequest) : Prop :=
  ∀ part ∈ request.schemaPath.getD [], part ≠ ""

theorem present_getD_eq_iff {α : Type} {items : Option (List α)}
    : present (items.getD []) = items ↔ items ≠ some [] := by
  cases items with
  | none => simp [present]
  | some items => cases items <;> simp [present]

theorem nonempty_getD (text : Option String)
    : (some (text.getD "")).filter nonempty = text.filter nonempty := by
  cases text with
  | none => rfl
  | some text => rfl

theorem openSplits_eq_some_nil_iff {crypto request tokens payloads}
    (opened : openSplits crypto request tokens = .ok payloads)
    : payloads = some [] ↔ tokens = some [] := by
  cases tokens with
  | none =>
    cases opened
    simp
  | some tokens =>
    obtain ⟨found, each, made⟩ := bind_eq_ok.mp opened
    rw [← pure_eq_ok.mp made]
    simp only [some.injEq, ← List.length_eq_zero_iff, (mapM_zip each).1]

/-- Two scopes that reach the same functions. -/
inductive CallScope.Alike : CallScope → CallScope → Prop where
  | schema (catalog : String) (path : List String)
      : Alike ⟨catalog, .schema path⟩ ⟨catalog, .schema path⟩
  | catalog {catalog : String} {kind kind' : ScopeKind} (open_ : ∀ path, kind ≠ .schema path)
      (open' : ∀ path, kind' ≠ .schema path) : Alike ⟨catalog, kind⟩ ⟨catalog, kind'⟩

variable {call call' : CallScope} (alike : call.Alike call')

include alike

theorem CallScope.Alike.scopedIndices (name homes)
    : scopedIndices name homes call = scopedIndices name homes call' := by
  cases alike with
  | schema catalog path => rfl
  | @catalog catalog kind kind' unqualified unqualified' =>
    cases kind with
    | schema path => exact absurd rfl (unqualified path)
    | _ =>
      cases kind' with
      | schema path => exact absurd rfl (unqualified' path)
      | _ => rfl

theorem CallScope.Alike.resolveBlended {F} (specs : F → List ArgSpec)
    (blended name candidates arguments inputSchema)
    : resolveBlended specs blended name candidates arguments inputSchema call
      = resolveBlended specs blended name candidates arguments inputSchema call' := by
  unfold Dispatch.resolveBlended reachable
  rw [alike.scopedIndices]

theorem CallScope.Alike.resolveTable (name arguments inputSchema)
    : d.resolveTable name arguments inputSchema call
      = d.resolveTable name arguments inputSchema call' := by
  unfold Dispatcher.resolveTable resolve
  rw [alike.resolveBlended]

omit alike

/-- A bind names the schema it sends, if that has parts and none is empty; otherwise it only
names the catalog.
-/
theorem forBind_cases {catalog name schemaPath isCopy hidden legacyPeer}
    (within : CallScope.forBind catalog schemaPath name isCopy hidden legacyPeer = .ok call)
    : (∃ path, schemaPath.filter (fun path => !path.isEmpty && path.all (· ≠ "")) = some path
        ∧ call = ⟨catalog, .schema path⟩)
      ∨ (schemaPath.filter (fun path => !path.isEmpty && path.all (· ≠ "")) = none
        ∧ ∃ kind, (∀ path, kind ≠ .schema path) ∧ call = ⟨catalog, kind⟩) := by
  unfold CallScope.forBind at within
  repeat' split at within
  all_goals cases within
  next path sent => exact .inl ⟨path, sent, rfl⟩
  all_goals exact .inr ⟨‹_›, _, by simp, rfl⟩

/-- A request whose schema has no empty part is resolved alike on a token and at first. -/
theorem bindScope_alike {bound} {read : BlobCall} (named : bound.request.Named)
    (within : d.bindScope bound = .ok call)
    (catalog : read.blob.catalogName = d.callCatalog bound.request.attachOpaqueData)
    (path : read.blob.schemaPath = bound.request.schemaPath.getD [])
    : call.Alike read.scope := by
  unfold BlobCall.scope
  rw [catalog, path]
  rcases forBind_cases within with ⟨path, sent, rfl⟩ | ⟨unsent, kind, unqualified, rfl⟩
  · obtain ⟨sent, parts⟩ := filter_eq_some_iff.mp sent
    have some_part : path ≠ [] := by
      rintro rfl
      simp at parts
    rw [sent, getD_some, if_neg some_part]
    exact .schema _ _
  · have none_sent : bound.request.schemaPath.getD [] = [] := by
      cases sent : bound.request.schemaPath with
      | none => rfl
      | some parts =>
        rw [BindRequest.Named, sent, getD_some] at named
        simp only [sent, filter_eq_none_iff, some.injEq, forall_eq',
          Bool.and_eq_true, Bool.not_eq_true', List.isEmpty_eq_false_iff, List.all_eq_true,
          decide_eq_true_eq, not_and] at unsent
        by_contra nonempty
        exact unsent nonempty named
    rw [none_sent, if_pos rfl]
    exact .catalog unqualified (by simp)

/-- The blob is the one made at first, apart from what the turns of a stream move. -/
def ExchangeBlob.Continues (blob first : ExchangeBlob) : Prop :=
  ∃ innerResume filterDeltas filterPredicateOrder continuation,
    blob = { first with innerResume, filterDeltas, filterPredicateOrder, continuation }

theorem ExchangeBlob.Continues.refl (blob : ExchangeBlob) : blob.Continues blob := ⟨_, _, _, _, rfl⟩

section

variable {ctx : CallContext} {fresh : Bytes} {dto : InitRequest} {init : InitCall}
  {kind : StreamKind} {inputSchema : Option Schema} {autoApply : Bool} {splitPayloads : List Bytes}
  {first blob : ExchangeBlob} {bytes : Bytes}

theorem readInit_eq_ok (opened : d.readInit env ctx fresh dto = .ok init)
    : readBoundCall env ctx dto.bindCall = .ok init.bound
      ∧ env.ipc.readSchema dto.outputSchema = .ok init.bindOutputSchema
      ∧ d.bindScope init.bound = .ok init.call
      ∧ openSplits env.crypto init.bound.request dto.splitTokens = .ok init.splitPayloads := by
  simp only [readInit, bind_eq_ok, pure_eq_ok] at opened
  obtain ⟨bound, read, schema, known, call, within, payloads, split, rfl⟩ := opened
  exact ⟨read, known, within, split⟩

/-- The parameters of a bind are those its request's bytes are parsed to. -/
theorem readBoundCall_params {bound} (read : readBoundCall env ctx bytes = .ok bound)
    : optSchema env.ipc bound.request.inputSchema = .ok bound.params.inputSchema
      ∧ Arguments.parse env.ipc bound.request.arguments = .ok bound.params.arguments
      ∧ Settings.parse env.ipc (bound.request.settings.getD []) = .ok bound.params.settings
      ∧ Secrets.parse env (bound.request.secrets.getD []) = .ok bound.params.secrets
      ∧ bound.params.authPrincipal = ctx.authPrincipal := by
  simp only [readBoundCall, bindParams, bind_eq_ok, pure_eq_ok] at read
  obtain ⟨⟨request, legacyPeer⟩, -, copyFrom, -, copyTo, -, params,
    ⟨inputSchema, input, arguments, parsed, settings, set, secrets, secret, rfl⟩, rfl⟩ := read
  exact ⟨input, parsed, set, secret, rfl⟩

theorem readOr_eq_of_nil {α : Type} {default : α} {read}
    (empty : read [] = .ok default) (bytes)
    : readOr default read bytes = read bytes := by
  unfold readOr
  split
  next none => rw [none, empty]
  · rfl

theorem readOr_writeOptional (lawful : env.ipc.Lawful)
    (written : env.ipc.writeOptional inputSchema = .ok bytes)
    : readOr none (fun bytes => (env.ipc.readSchema bytes).map some) bytes = .ok inputSchema := by
  unfold readOr
  cases inputSchema with
  | none =>
    cases written
    rfl
  | some schema =>
    have reads := lawful.reads written
    have some_bytes : bytes ≠ [] := by
      rintro rfl
      exact lawful.empty schema reads
    simp only [if_neg some_bytes, reads]
    rfl

/-- The blob of a stream names its function and its join keys as the request did. -/
structure ExchangeBlob.Names (d : Dispatcher P) (request : BindRequest) (dto : InitRequest)
    (blob : ExchangeBlob) : Prop where
  functionName : blob.functionName = request.functionName
  catalogName : blob.catalogName = d.callCatalog request.attachOpaqueData
  schemaPath : blob.schemaPath = request.schemaPath.getD []
  joinKeys : blob.joinKeys = dto.joinKeys.getD []

theorem names_of_continues
    (built : d.exchangeBlob env kind init inputSchema dto autoApply splitPayloads = .ok first)
    (continues : blob.Continues first)
    : blob.Names d init.bound.request dto ∧ blob.executionId = init.executionId
      ∧ blob.autoApply = autoApply := by
  obtain ⟨innerResume, deltas, order, continuation, rfl⟩ := continues
  simp only [exchangeBlob, bind_eq_ok, pure_eq_ok] at built
  obtain ⟨outputBytes, -, inputBytes, -, rfl⟩ := built
  exact ⟨⟨rfl, rfl, rfl, rfl⟩, rfl, rfl⟩

/-- The call that an init read from its request, as it is read from a blob. -/
def InitCall.asBlob (init : InitCall) (dto : InitRequest) (inputSchema : Option Schema)
    (blob : ExchangeBlob) : BlobCall where
  blob
  outputSchema := init.outputSchema
  filterSchema := init.bindOutputSchema
  inputSchema
  settings := init.bound.params.settings
  secrets := init.bound.params.secrets
  pushdown := present (dto.pushdownFilters.getD [])
  arguments := init.bound.params.arguments

/-- What a rebuild reads from a blob of the stream is what the init read from its request. -/
theorem readBlob_continues (lawful : env.ipc.Lawful)
    (opened : d.readInit env ctx fresh dto = .ok init)
    (built : d.exchangeBlob env kind init inputSchema dto autoApply splitPayloads = .ok first)
    (continues : blob.Continues first) (decodes : bincode.decode bytes = .ok blob)
    : readBlob env bincode bytes = .ok (init.asBlob dto inputSchema blob) := by
  obtain ⟨read, known, -, -⟩ := readInit_eq_ok opened
  obtain ⟨-, arguments, settings, secrets, -⟩ := readBoundCall_params read
  obtain ⟨innerResume, deltas, order, continuation, rfl⟩ := continues
  simp only [exchangeBlob, bind_eq_ok, pure_eq_ok] at built
  obtain ⟨outputBytes, output, inputBytes, input, rfl⟩ := built
  have given : dto.outputSchema ≠ [] := by
    intro none
    rw [none] at known
    exact lawful.empty _ known
  have filterSchema : readOr init.outputSchema env.ipc.readSchema dto.outputSchema
      = .ok init.bindOutputSchema := by
    rw [readOr, if_neg given, known]
  have settings' := (@readOr_eq_of_nil _ [] (Settings.parse env.ipc) rfl _).trans settings
  have secrets' := (@readOr_eq_of_nil _ [] (Secrets.parse env) rfl _).trans secrets
  simp only [readBlob, decodes, ok_bind, lawful.reads output, filterSchema,
    readOr_writeOptional lawful input, settings', secrets', arguments]
  rfl

/-- The parameters made from a blob are those of the request, but for what the blob does not
keep.
-/
theorem makeParams_eq_iff (arguments live) (opened : d.readInit env ctx fresh dto = .ok init)
    (built : d.exchangeBlob env kind init init.bound.params.inputSchema dto autoApply
      (init.splitPayloads.getD []) = .ok first)
    (continues : blob.Continues first) (filters : dto.pushdownFilters ≠ some [])
    : { (init.asBlob dto init.bound.params.inputSchema blob).makeParams arguments with
          currentPushdownFilters := live }
        = { init.buildParams dto arguments with
            currentPushdownFilters := live
            authPrincipal := none }
      ↔ Carried init.bound dto := by
  obtain ⟨-, -, -, split⟩ := readInit_eq_ok opened
  have splits := openSplits_eq_some_nil_iff split
  obtain ⟨innerResume, deltas, order, continuation, rfl⟩ := continues
  simp only [Dispatcher.exchangeBlob, bind_eq_ok, pure_eq_ok] at built
  obtain ⟨outputBytes, -, inputBytes, -, rfl⟩ := built
  simp only [InitCall.asBlob, BlobCall.makeParams, InitCall.buildParams, ProcessParams.mk.injEq,
    nonempty_getD, present_getD_eq_iff, filters, true_and, ne_eq, not_false_eq_true, splits]
  constructor
  · rintro ⟨substream, projection, column, direction, nulls, limit, percentage, seed, attach,
      copy, tokens⟩
    exact ⟨projection.symm, column.symm, direction.symm, nulls.symm, limit.symm,
      percentage.symm, seed.symm, copy.symm, substream, attach, tokens⟩
  · intro carried
    exact ⟨carried.substreamId, carried.projectionIds.symm, carried.orderByColumn.symm,
      carried.orderByDirection.symm, carried.orderByNullOrder.symm, carried.orderByLimit.symm,
      carried.tablesamplePercentage.symm, carried.tablesampleSeed.symm, carried.attachOpaqueData,
      carried.copyFrom.symm, carried.splitTokens⟩

variable {snapshot live : Option PushdownFilters} {history : DeltaHistory String}

/-- The history of a stream leads from the filters of its init to its live ones. -/
inductive Tracked (dec : Decoders String Bytes) (history : DeltaHistory String)
    : Option PushdownFilters → Option PushdownFilters → Prop where
  | unfiltered (untouched : history.deltas = []) : Tracked dec history none none
  | filtered {snapshot live : PushdownFilters} (holds : FilterInvariant snapshot snapshot)
      (tracks : Scan.Tracks dec snapshot ⟨history, live⟩)
      : Tracked dec history (some snapshot) (some live)

theorem Tracked.replay (tracked : Tracked env.decoders history snapshot live)
    (deltas : blob.filterDeltas = history.deltas)
    (order : blob.filterPredicateOrder = history.order)
    : replayFilterHistory env.decoders blob snapshot = .ok (history, live) := by
  have parts : DeltaHistory.fromParts blob.filterDeltas blob.filterPredicateOrder = history := by
    rw [deltas, order]
    rfl
  simp only [replayFilterHistory, parts]
  cases tracked with
  | unfiltered untouched =>
    simp only [untouched]
    rfl
  | @filtered snapshot live holds tracks =>
    split
    next empty =>
      obtain rfl : live = snapshot := tracks.untouched (List.isEmpty_iff.mp empty)
      rfl
    · simp only [okOr, ok_bind, tracks.replay holds]
      rfl

variable {dec : Decoders String Bytes} {filters : PushdownFilters} {encoded : String}
  {arguments : Arguments} (tracked : Tracked dec history snapshot (some filters))

include tracked

/-- A delta that stands on its own keeps the history in step with the filters. -/
theorem Tracked.record
    (contained : (!(filters.applyDeltaB64 dec encoded).isOk
      || filters.selfContained dec encoded) = true)
    : Tracked dec (history.record dec filters encoded).2.1 snapshot
        (some (history.record dec filters encoded).2.2) := by
  cases tracked with
  | filtered holds tracks => exact .filtered holds (tracks.step contained)

/-- The bookkeeping of such a delta fails only if the delta is refused, and then nothing moved. -/
theorem Tracked.record_cases
    (contained : (!(filters.applyDeltaB64 dec encoded).isOk
      || filters.selfContained dec encoded) = true)
    : (∃ error, history.record dec filters encoded = (.error error, history, filters))
      ∨ ∃ next live, history.record dec filters encoded = (.ok (), next, live) := by
  cases tracked with
  | filtered holds tracks =>
    cases accepted : filters.applyDeltaB64 dec encoded with
    | error error => exact .inl ⟨error, by simp only [DeltaHistory.record, accepted]⟩
    | ok result =>
      obtain ⟨next, changed⟩ := result
      cases changed with
      | false => exact .inr ⟨history, next, by simp only [DeltaHistory.record, accepted]⟩
      | true =>
        rw [accepted] at contained
        obtain ⟨kept, compacted, -⟩ := tracks.recorded contained accepted
        refine .inr ⟨{ deltas := kept, order := next.predicateOrder }, next, ?_⟩
        simp only [DeltaHistory.record, accepted, compacted]

omit tracked

/-- An init that hands filters to its function has a document to parse, if any. -/
theorem filteredParams_eq_ok (lawful : env.ipc.Lawful) {handling params}
    (made : init.filteredParams env dto arguments handling = .ok params)
    : dto.pushdownFilters ≠ some []
      ∧ params = { init.buildParams dto arguments with
          currentPushdownFilters := params.currentPushdownFilters }
      ∧ (init.buildParams dto arguments).parsedFilters env.decoders init.bindOutputSchema
        = .ok params.currentPushdownFilters
      ∧ Tracked env.decoders .empty params.currentPushdownFilters
          params.currentPushdownFilters := by
  simp only [filteredParams, bind_eq_ok, pure_eq_ok] at made
  obtain ⟨parsed, parse, -, -, rfl⟩ := made
  refine ⟨?_, rfl, parse, ?_⟩
  · intro empty
    simp only [parsedFilters, buildParams, empty, map_eq_ok, parseFilters, bind_eq_ok] at parse
    obtain ⟨_, ⟨-, -, schema, reads, -⟩, -⟩ := parse
    exact lawful.empty schema reads
  · simp only [parsedFilters] at parse
    split at parse
    · obtain ⟨filters, read, rfl⟩ := map_eq_ok.mp parse
      simp only [parseFilters, bind_eq_ok] at read
      obtain ⟨-, -, -, -, -, -, batch, -, keys, -, parsed⟩ := read
      have holds := parseSnapshotBatch_invariant parsed
      exact .filtered holds (Scan.tracks_start holds)
    · cases parse
      exact .unfiltered rfl

/-- The filters of a rebuilt stream are its live ones. -/
theorem filteredParams_continues
    (parse : (init.buildParams dto arguments).parsedFilters env.decoders init.bindOutputSchema
      = .ok snapshot) (filters : dto.pushdownFilters ≠ some [])
    (tracked : Tracked env.decoders history snapshot live)
    (joinKeys : blob.joinKeys = dto.joinKeys.getD []) (deltas : blob.filterDeltas = history.deltas)
    (order : blob.filterPredicateOrder = history.order)
    : (init.asBlob dto inputSchema blob).filteredParams env arguments
      = .ok ({ (init.asBlob dto inputSchema blob).makeParams arguments with
          currentPushdownFilters := live }, history) := by
  have same : ((init.asBlob dto inputSchema blob).makeParams arguments).parsedFilters env.decoders
      init.bindOutputSchema = .ok snapshot := by
    rw [← parse]
    simp only [parsedFilters, BlobCall.makeParams, buildParams,
      asBlob, joinKeys, present_getD_eq_iff.mpr filters]
  have replayed : replayFilterHistory env.decoders (init.asBlob dto inputSchema blob).blob snapshot
      = .ok (history, live) := tracked.replay deltas order
  simp only [BlobCall.filteredParams, same, ok_bind, replayed,
    show (init.asBlob dto inputSchema blob).filterSchema = init.bindOutputSchema from rfl]
  rfl

end

/-- The blob and the filters of a stream are as they were. -/
structure SameStream (before after : TableProducerState P) : Prop where
  blob : after.resumeBlob = before.resumeBlob
  current : after.currentFilters = before.currentFilters
  history : after.filterHistory = before.filterHistory

theorem SameStream.trans {first second third : TableProducerState P}
    (left : SameStream first second) (right : SameStream second third)
    : SameStream first third :=
  ⟨right.blob.trans left.blob, right.current.trans left.current,
    right.history.trans left.history⟩

theorem notify_same (state ctx) : SameStream state (state.notify ops ctx) := by
  simp only [notify]
  split <;> exact ⟨rfl, rfl, rfl⟩

variable (state : TableProducerState P)

include state

theorem emitNext_same (ops : TableProducer P ω) (out world)
    : SameStream state (state.emitNext ops out world).1.2 := by
  rcases pulls : ops.nextBatch state.inner world with ⟨⟨pulled, inner⟩, after⟩
  simp only [emitNext, bind, StateT.bind, pulls]
  rcases pulled with error | _ | batch <;> exact ⟨rfl, rfl, rfl⟩

theorem emitTurn_same (world) : SameStream state (state.emitTurn ops out world).1.2 := by
  have same := emitNext_same state ops out world
  rcases emits : state.emitNext ops out world with ⟨⟨emitted, next⟩, after⟩
  rw [emits] at same
  simp only [emitTurn, bind, StateT.bind, emits]
  rcases emitted with error | _ | emission <;> exact same

theorem drainTurn_same (world) : SameStream state (state.drainTurn ops out bincode world).1.2 := by
  have same := emitNext_same state ops out world
  rcases emits : state.emitNext ops out world with ⟨⟨emitted, next⟩, after⟩
  rw [emits] at same
  simp only [drainTurn, bind, StateT.bind, emits]
  rcases emitted with error | _ | emission
  · exact same
  · exact same
  · rcases pulls : ops.nextBatch next.inner after with ⟨⟨second, inner⟩, last⟩
    simp only [StateT.bind, pulls]
    rcases second with error | _ | batch <;> exact same.trans ⟨rfl, rfl, rfl⟩

omit state

/-- A turn moves the filters of its stream by its delta only. -/
theorem produce_same (ops out dec bincode) (state : TableProducerState P) (ctx) (world : ω)
    : SameStream (state.takeTick dec ctx).2 (state.produce ops out dec bincode ctx world).1.2 := by
  unfold produce
  rcases taken : state.takeTick dec ctx with ⟨answer, next⟩
  cases answer with
  | error error => exact ⟨rfl, rfl, rfl⟩
  | ok done =>
    simp only
    split
    · exact (notify_same next ctx).trans (drainTurn_same _ world)
    · exact (notify_same next ctx).trans (emitTurn_same _ world)

end Vgi.Dispatch
