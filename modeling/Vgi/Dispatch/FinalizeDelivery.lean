import Vgi.Dispatch.FinalizeFlush
import Vgi.Dispatch.TableStream

/-! A persisted flush is delivered batch by batch, in order and to the end, to every client
that reads it, whatever other flushes are written meanwhile and wherever its stream is rebuilt;
if its rows are lost, reading on is an error.
-/

namespace Vgi.Dispatch

open Arrow Lib Pushdown Storage List FinalizeFlushProducer TableProducerState

section

variable {P σ : Type} {world : FlushEnv P σ}

/-- The rows in the store, if they are there, are those of the batches. -/
structure Holds (codec : FlushCodec) (entries : List (Int × Bytes)) (batches : List RecordBatch)
    : Prop where
  increasing : (entries.map Prod.fst).Pairwise (· < ·)
  nonneg : ∀ entry ∈ entries, 0 ≤ entry.1
  rows : entries = [] ∨ entries.map (fun entry => codec.decodeBatch entry.2) = batches.map .ok

/-- The producer stands before the batch at this position. -/
structure StandsAt (entries : List (Int × Bytes)) (count position : Nat)
    (producer : FinalizeFlushProducer) : Prop where
  remaining : producer.remaining = count - position
  cursor : entries = [] ∨ producer.cursor = cursorAfter entries position

variable {entries : List (Int × Bytes)} {batches finished : List RecordBatch} {d : Dispatcher P}
  {init : InitCall} {dto : InitRequest} {first : ExchangeBlob} {flush : Flush} {fresh : Bytes}
  {drain : Drain} {index : Nat} {op : StorageOp} {producer : FinalizeFlushProducer}
  {codec : FlushCodec} {position : Nat} (stands : StandsAt entries batches.length position producer)

include stands

/-- The row at the position of a producer that has not lost its rows. -/
theorem StandsAt.row (holds : Holds codec entries batches) (kept : entries ≠ [])
    (before : position < batches.length)
    : ∃ batch cursor value, batches[position]? = some batch
      ∧ (entries.filter (producer.cursor < ·.1)).take 1 = [(cursor, value)]
      ∧ codec.decodeBatch value = .ok batch
      ∧ cursorAfter entries (position + 1) = cursor := by
  have rows := holds.rows.resolve_left kept
  have long : entries.length = batches.length := by
    simpa using congrArg length rows
  have inside : position < entries.length := by omega
  refine ⟨batches[position], entries[position].1, entries[position].2, by simp, ?_, ?_, ?_⟩
  · rw [stands.cursor.resolve_left kept,
      filter_cursorAfter holds.increasing holds.nonneg (Nat.le_of_lt inside)]
    simp [take_one]
  · have here := congrArg (·[position]?) rows
    simpa [inside, before] using here
  · simp [cursorAfter, inside]

/-- What reading one batch does. -/
theorem nextBatch_standsAt {store : FunctionStorage σ} (logs : LogStorage store) {state}
    (sound : logs.Sound state)
    (here : logs.entries state (producer.scope, tioFinalizeNs, producer.key) = entries)
    (holds : Holds codec entries batches) (within : position ≤ batches.length)
    : (position = batches.length
        ∧ producer.nextBatch codec store state = ((.ok none, producer), state))
      ∨ (entries = [] ∧ position < batches.length
        ∧ producer.nextBatch codec store state = ((.error producer.rowsGone, producer), state))
      ∨ ∃ batch cursor, batches[position]? = some batch
        ∧ producer.nextBatch codec store state
          = ((.ok (some batch),
              { producer with cursor, remaining := producer.remaining - 1 }), state)
        ∧ StandsAt entries batches.length (position + 1)
            { producer with cursor, remaining := producer.remaining - 1 } := by
  rcases Nat.lt_or_eq_of_le within with before | rfl
  · have owed : ¬producer.remaining ≤ 0 := by
      rw [stands.remaining]
      omega
    have scanned := logs.scan_first sound producer.scope tioFinalizeNs producer.key producer.cursor
    rw [here] at scanned
    by_cases lost : entries = []
    · refine .inr (.inl ⟨lost, before, ?_⟩)
      rw [lost] at scanned
      simp only [nextBatch, if_neg owed, bind, StateT.bind, scanned]
      rfl
    · obtain ⟨batch, cursor, value, found, row, decodes, next⟩ := stands.row holds lost before
      rw [row] at scanned
      refine .inr (.inr ⟨batch, cursor, found, ?_, ?_, .inr next.symm⟩)
      · simp only [nextBatch, if_neg owed, bind, StateT.bind, scanned, head?_cons, decodes]
        rfl
      · simp only [stands.remaining]
        omega
  · refine .inl ⟨rfl, ?_⟩
    have none_owed : producer.remaining ≤ 0 := by
      rw [stands.remaining]
      omega
    rw [nextBatch, if_pos none_owed]
    rfl

def flushStreamAt (producer : FinalizeFlushProducer) (blob : Bytes) (checked : Bool)
    : TableProducerState FinalizeFlushProducer :=
  { flushStream producer blob with conditionalChecked := checked }

def answerOf : Result (Option RecordBatch) → Result Produced
  | .error error => .error error
  | .ok none => .ok ⟨[], true⟩
  | .ok (some batch) => .ok ⟨[⟨batch, none⟩], false⟩

omit stands

section

variable (codec) (store : FunctionStorage σ) (out : Batches) (dec : Decoders String Bytes)
  (bincode : Bincode) (ctx : TurnContext) (producer : FinalizeFlushProducer) (blob : Bytes)
  (checked : Bool) (state : σ)

/-- A filter delta finds no filters on a flush. -/
theorem produce_flush_delta {encoded} (sent : ctx.tickMetadata pushdownFiltersKey = some encoded)
    : (flushStreamAt producer blob checked).produce (ops codec store) out dec
        bincode ctx state
      = ((.error (valueError "filter delta requires an initial snapshot"),
          flushStreamAt producer blob checked), state) := by
  simp only [produce, takeTick, sent]
  rfl

theorem notify_flush : (flushStreamAt producer blob checked).notify (ops codec store) ctx
      = flushStreamAt producer blob true := by
  cases checked with
  | true => rfl
  | false =>
    simp only [notify, flushStreamAt, ops, ite_self, Bool.false_eq_true, if_false]

/-- Otherwise a turn reads one batch and sends it as it is. -/
theorem produce_flush (plain : ctx.tickMetadata pushdownFiltersKey = none)
    : (flushStreamAt producer blob checked).produce (ops codec store) out dec
        bincode ctx state
      = let read := producer.nextBatch codec store state
        ((answerOf read.1.1, flushStreamAt read.1.2 blob true), read.2) := by
  simp only [produce, takeTick, plain, notify_flush]
  rw [if_neg (by simp [drainsInOneTurn, flushStreamAt, flushStream, ops])]
  rcases read : producer.nextBatch codec store state with ⟨⟨pulled, next⟩, after⟩
  have pulls : (ops codec store).nextBatch producer state = ((pulled, next), after) := read
  simp only [emitTurn, emitNext, bind, StateT.bind, flushStreamAt, flushStream, pulls]
  rcases pulled with error | _ | batch <;> rfl

end

/-- The laws of the encodings between the workers. -/
structure FlushEnv.Lawful (world : FlushEnv P σ) : Prop where
  ipc : world.env.ipc.Lawful
  bincode : world.bincode.Lawful
  codec : world.codec.Lawful

/-- The bytes are a blob of this flush's stream. -/
def FlushEnv.Carries (world : FlushEnv P σ) (flush : Flush) (bytes : Bytes) : Prop :=
  ∃ first blob, world.dispatcher.exchangeBlob world.env .tableInOutFinalize flush.init
      flush.init.bound.params.inputSchema flush.dto false [] = .ok first
    ∧ world.bincode.decode bytes = .ok blob ∧ blob.Continues first

/-- The producer reads the log of this flush. -/
structure Reads (flush : Flush) (producer : FinalizeFlushProducer) : Prop where
  scope : producer.scope = flush.init.executionId
  key : producer.key = flush.key
  functionName : producer.functionName = flush.init.bound.request.functionName

variable {blob : ExchangeBlob} {env : Env}

variable {ctx : CallContext} (lawful : world.Lawful)
  (opened : world.dispatcher.readInit world.env ctx fresh flush.dto = .ok flush.init)

include lawful opened

/-- A token with the position of a reader is read back as that reader. -/
theorem decodeFlush_eq {token}
    (built : world.dispatcher.exchangeBlob world.env .tableInOutFinalize flush.init
      flush.init.bound.params.inputSchema flush.dto false [] = .ok first)
    (continues : blob.Continues first) (decodes : world.bincode.decode token = .ok blob)
    (position : blob.innerResume = producer.encodeResume world.codec) (reads : Reads flush producer)
    (some_key : flush.key ≠ [])
    : decodeFlush world.env world.bincode world.codec token
      = .ok (flushStreamAt producer token false) := by
  obtain ⟨names, execution, -⟩ := names_of_continues built continues
  have restored : restoreResume world.codec
      { scope := blob.executionId
        key := []
        cursor := -1
        remaining := 0
        functionName := blob.functionName } blob.innerResume = producer := by
    rw [position, restoreResume, encodeResume, if_neg (lawful.codec.some_bytes _),
      lawful.codec.positions, execution, names.functionName, ← reads.scope, ← reads.functionName]
  have kept : producer.key ≠ [] := reads.key ▸ some_key
  simp only [decodeFlush, readBlob_continues lawful.ipc opened built continues decodes, ok_bind,
    InitCall.asBlob, restored, rejectIf, if_neg kept]
  rfl

/-- A token of the stream rebuilds the reader where it stands. -/
theorem rebuildFlush_eq {bytes checked} (carries : world.Carries flush bytes)
    (reads : Reads flush producer) (some_key : flush.key ≠ [])
    : ∃ token, rebuildFlush world.env world.bincode world.codec world.store
        (flushStreamAt producer bytes checked) = .ok (flushStreamAt producer token false)
      ∧ world.Carries flush token := by
  obtain ⟨first, blob, built, decodes, continues⟩ := carries
  let suspended := (flushStreamAt producer bytes checked).suspend (ops world.codec world.store) blob
  have encodes : (flushStreamAt producer bytes checked).encodeState
      (ops world.codec world.store) world.bincode = world.bincode.encode suspended := by
    change (do world.bincode.encode ((flushStreamAt producer bytes checked).suspend
      (ops world.codec world.store) (← world.bincode.decode bytes))) = _
    rw [decodes, ok_bind]
  have moved : suspended.Continues first := by
    obtain ⟨innerResume, deltas, order, continuation, rfl⟩ := continues
    exact ⟨_, _, _, _, rfl⟩
  obtain ⟨token, encoded⟩ := lawful.bincode.encodes suspended
  have token_decodes := lawful.bincode.decodes encoded
  refine ⟨token, ?_, first, _, built, token_decodes, moved⟩
  rw [rebuildFlush, encodes, encoded, ok_bind]
  exact decodeFlush_eq lawful opened built moved token_decodes rfl reads some_key

/-- The log of a flush holds what was written of it, in order, or, once it is complete, was
dropped as a whole.
-/
structure FlushOk (world : FlushEnv P σ) (store : σ) (flush : Flush) : Prop where
  opened : ∃ ctx fresh, world.dispatcher.readInit world.env ctx fresh flush.dto = .ok flush.init
  some_key : flush.key ≠ []
  rows : ∃ written, (written ++ flush.pending).map world.codec.decodeBatch
      = flush.batches.map .ok
    ∧ ((world.logs.entries store flush.log).map Prod.snd = written
      ∨ (flush.pending = [] ∧ world.logs.entries store flush.log = []))

/-- A drain was sent the batches of its flush from its start on, and while it runs its stream
stands before the next one.
-/
structure DrainOk (world : FlushEnv P σ) (store : σ) (flush : Flush) (drain : Drain) : Prop where
  complete : flush.pending = []
  sent : drain.outputs = (flush.batches.drop drain.start).take drain.outputs.length
  within : drain.position ≤ flush.batches.length
  finished : drain.status = .finished → drain.position = flush.batches.length
  running : drain.status = .running → ∃ producer bytes checked,
    drain.state = flushStreamAt producer bytes checked ∧ world.Carries flush bytes
    ∧ Reads flush producer
    ∧ StandsAt (world.logs.entries store flush.log) flush.batches.length drain.position producer

variable {next : σ}

omit lawful opened

theorem FlushOk.store {store} (ok : FlushOk world store flush)
    (logs : world.logs.entries next flush.log = world.logs.entries store flush.log
      ∨ (flush.pending = [] ∧ world.logs.entries next flush.log = []))
    : FlushOk world next flush := by
  obtain ⟨written, decodes, rows⟩ := ok.rows
  refine ⟨ok.opened, ok.some_key, written, decodes, ?_⟩
  rcases logs with same | dropped
  · rw [same]
    exact rows
  · exact .inr dropped

theorem DrainOk.store {store} (ok : DrainOk world store flush drain)
    (logs : world.logs.entries next flush.log = world.logs.entries store flush.log
      ∨ world.logs.entries next flush.log = [])
    : DrainOk world next flush drain := by
  refine { ok with running := fun running => ?_ }
  obtain ⟨producer, bytes, checked, is, carries, reads, stands⟩ := ok.running running
  refine ⟨producer, bytes, checked, is, carries, reads, stands.remaining, ?_⟩
  rcases logs with same | dropped
  · rw [same]
    exact stands.cursor
  · exact .inl dropped

/-- The rows of a complete flush. -/
theorem FlushOk.holds {store} (ok : FlushOk world store flush) (sound : world.logs.Sound store)
    (complete : flush.pending = [])
    : Holds world.codec (world.logs.entries store flush.log) flush.batches := by
  refine ⟨world.logs.increasing sound _, world.logs.nonneg sound _, ?_⟩
  obtain ⟨written, decodes, rows | ⟨-, lost⟩⟩ := ok.rows
  · refine .inr ?_
    rw [← decodes, ← rows, complete, append_nil, map_map]
    rfl
  · exact .inl lost

/-- The answer of a turn: an error, the next batch, or the end after the last one. -/
inductive TurnAnswer (flush : Flush) (drain : Drain) (lost : Prop) : Result Produced → Prop where
  | failed (error : RpcError) (why : lost) : TurnAnswer flush drain lost (.error error)
  | next {batch : RecordBatch} (here : flush.batches[drain.position]? = some batch)
      : TurnAnswer flush drain lost (.ok ⟨[⟨batch, none⟩], false⟩)
  | finished (all : drain.position = flush.batches.length)
      : TurnAnswer flush drain lost (.ok ⟨[], true⟩)

/-- A drain that was sent its next batch. -/
theorem DrainOk.sentNext {store batch stream} (ok : DrainOk world store flush drain)
    (running : drain.status = .running) (found : flush.batches[drain.position]? = some batch)
    (stands : ∃ producer bytes checked, stream = flushStreamAt producer bytes checked
      ∧ world.Carries flush bytes ∧ Reads flush producer
      ∧ StandsAt (world.logs.entries store flush.log) flush.batches.length (drain.position + 1)
          producer)
    : DrainOk world store flush (drain.take stream (.ok ⟨[⟨batch, none⟩], false⟩)) := by
  have inside := (List.getElem?_eq_some_iff.mp found).1
  have moved : (drain.take stream (.ok ⟨[⟨batch, none⟩], false⟩)).position
      = drain.position + 1 := by
    simp [Drain.take, Drain.position]
    omega
  have more : (flush.batches.drop drain.start).take (drain.outputs.length + 1)
      = drain.outputs ++ [batch] := by
    have next : (flush.batches.drop drain.start)[drain.outputs.length]? = some batch := by
      rw [getElem?_drop]
      exact found
    rw [take_add_one, next, ← ok.sent]
    rfl
  refine ⟨ok.complete, ?_, by rw [moved]; exact inside, fun finished => ?_, fun _ => ?_⟩
  · simp only [Drain.take, length_append]
    exact more.symm
  · have status : drain.status = .finished := finished
    rw [running] at status
    cases status
  · rw [moved]
    exact stands

/-- A drain that was told of the end. -/
theorem DrainOk.sentAll {store} (ok : DrainOk world store flush drain)
    (all : drain.position = flush.batches.length) (stream)
    : DrainOk world store flush (drain.take stream (.ok ⟨[], true⟩)) := by
  have same : (drain.take stream (.ok ⟨[], true⟩)).outputs = drain.outputs := append_nil _
  have stays : (drain.take stream (.ok ⟨[], true⟩)).position = drain.position :=
    congrArg (drain.start + length ·) same
  refine ⟨ok.complete, ?_, by rw [stays]; exact ok.within, fun _ => by rw [stays]; exact all, nofun⟩
  rw [same]
  exact ok.sent

/-- A turn of a running drain leaves the store as it is and moves by one batch. -/
theorem DrainOk.turn {store} (ctx) (ok : DrainOk world store flush drain)
    (written : FlushOk world store flush) (sound : world.logs.Sound store)
    (running : drain.status = .running)
    : ∃ answer stream, drain.state.produce (ops world.codec world.store)
          world.out world.env.decoders world.bincode ctx store = ((answer, stream), store)
      ∧ DrainOk world store flush (drain.take stream answer)
      ∧ TurnAnswer flush drain ((ctx.tickMetadata pushdownFiltersKey).isSome
          ∨ world.logs.entries store flush.log = []) answer := by
  obtain ⟨producer, bytes, checked, is, carries, reads, stands⟩ := ok.running running
  have failed : ∀ error stream, DrainOk world store flush (drain.take stream (.error error)) :=
    fun _ _ => ⟨ok.complete, ok.sent, ok.within, nofun, nofun⟩
  rw [is]
  cases sent : ctx.tickMetadata pushdownFiltersKey with
  | some encoded =>
    have turn := produce_flush_delta world.codec world.store world.out world.env.decoders
      world.bincode ctx producer bytes checked store sent
    exact ⟨_, _, turn, failed _ _, .failed _ (.inl rfl)⟩
  | none =>
    have here : world.logs.entries store (producer.scope, tioFinalizeNs, producer.key)
        = world.logs.entries store flush.log := by
      rw [reads.scope, reads.key]
      rfl
    have turn := produce_flush world.codec world.store world.out world.env.decoders
      world.bincode ctx producer bytes checked store sent
    rcases nextBatch_standsAt stands world.logs sound here (written.holds sound ok.complete)
      ok.within with ⟨all, read⟩ | ⟨lost, before, read⟩ | ⟨batch, cursor, found, read, moved⟩
    · rw [read] at turn
      exact ⟨_, _, turn, ok.sentAll all _, .finished all⟩
    · rw [read] at turn
      exact ⟨_, _, turn, failed _ _, .failed _ (.inr lost)⟩
    · rw [read] at turn
      exact ⟨_, _, turn, ok.sentNext running found ⟨_, _, _, rfl, carries, { reads with }, moved⟩,
        .next found⟩

/-- What holds between any two steps of the workers. -/
structure AllOk (world : FlushEnv P σ) (state : Flushes σ) : Prop where
  sound : world.logs.Sound state.store
  flushes : ∀ flush ∈ state.flushes, FlushOk world state.store flush
  keys : (state.flushes.map Flush.key).Nodup
  drains : ∀ drain ∈ state.drains, ∃ flush, state.flushes[drain.flush]? = some flush
    ∧ DrainOk world state.store flush drain

variable {state next : Flushes σ}

theorem openFlush_rows {out rows} (lawful : codec.Lawful)
    (opened : d.openFlush env codec out ctx fresh dto finished = .ok (init, batches, rows))
    : d.readInit env ctx fresh dto = .ok init ∧ rows.map codec.decodeBatch = batches.map .ok := by
  obtain ⟨init', read, opened⟩ := bind_eq_ok.mp opened
  obtain ⟨target, -, opened⟩ := bind_eq_ok.mp opened
  cases target with
  | tableInOut index arguments =>
    simp only [bind_eq_ok, pure_eq_ok, Prod.mk.injEq] at opened
    obtain ⟨-, -, -, -, -, -, -, -, batches', -, rows', encoded, rfl, rfl, rfl⟩ := opened
    refine ⟨read, ?_⟩
    obtain ⟨long, each⟩ := mapM_zip encoded
    refine ext_getElem (by simp [long]) fun place inRows inBatches => ?_
    have inRows : place < rows'.length := by simpa using inRows
    have inBatches : place < batches'.length := by simpa using inBatches
    have pair : (batches'[place], rows'[place]) ∈ batches'.zip rows' :=
      mem_iff_getElem.mpr ⟨place, by simp [inRows, inBatches], by simp⟩
    simpa using lawful.batches (each _ pair)
  | _ => cases opened

variable (ok : AllOk world state)

include ok

theorem AllOk.openFlush (lawful : world.Lawful)
    {key} (moves : world.openFlush state ctx fresh key dto finished = some next)
    : AllOk world next := by
  simp only [FlushEnv.openFlush] at moves
  split at moves
  · cases moves
  next init batches rows opened =>
    split at moves
    next allowed =>
      obtain ⟨-, some_key, new, empty⟩ := allowed
      cases moves
      obtain ⟨read, decodes⟩ := openFlush_rows lawful.codec opened
      refine ⟨ok.sound, forall_mem_append.mpr ⟨ok.flushes, forall_mem_singleton.mpr ?_⟩, ?_, ?_⟩
      · exact ⟨⟨ctx, fresh, read⟩, some_key, [], decodes, .inl (by rw [empty]; rfl)⟩
      · rw [map_append, nodup_append]
        refine ⟨ok.keys, by simp, ?_⟩
        intro first old second last
        obtain ⟨flush, member, rfl⟩ := mem_map.mp old
        simp only [map_cons, map_nil, mem_singleton] at last
        rw [last]
        exact new flush member
      · intro drain member
        obtain ⟨flush, found, drainOk⟩ := ok.drains drain member
        refine ⟨flush, ?_, drainOk⟩
        rw [List.getElem?_append_left (List.getElem?_eq_some_iff.mp found).1]
        exact found
    · cases moves

/-- Two flushes with one key are the same. -/
theorem AllOk.same_key {first second : Nat} {other}
    (here : state.flushes[first]? = some flush) (there : state.flushes[second]? = some other)
    (same : flush.key = other.key)
    : first = second := by
  refine (getElem?_inj ?_ ok.keys).mp ?_
  · simpa using (List.getElem?_eq_some_iff.mp here).1
  · simp [here, there, same]

theorem AllOk.append (moves : world.append state index = some next) : AllOk world next := by
  simp only [FlushEnv.append] at moves
  split at moves
  · cases moves
  next flush here =>
    split at moves
    · cases moves
    next row rest left =>
      cases moves
      have inside := (List.getElem?_eq_some_iff.mp here).1
      have flushOk := ok.flushes flush (mem_of_getElem? here)
      have logs := world.logs.append_entries ok.sound flush.init.executionId tioFinalizeNs flush.key
      -- The key is this flush's alone, so no other log is written.
      have others : ∀ {place other}, state.flushes[place]? = some other →
          place ≠ index → world.logs.entries
            (world.store.append flush.init.executionId tioFinalizeNs flush.key row state.store).2
            other.log = world.logs.entries state.store other.log := by
        intro place other there apart
        rw [logs, Function.update_of_ne]
        intro same
        exact apart (ok.same_key there here (Prod.mk.inj (Prod.mk.inj same).2).2)
      refine ⟨world.logs.append_sound ok.sound _ _ _ _, ?_, ?_, ?_⟩
      · intro other member
        obtain ⟨place, there⟩ := getElem?_of_mem member
        rw [getElem?_set] at there
        split at there
        · cases there
          obtain ⟨written, decodes, rows⟩ := flushOk.rows
          refine ⟨flushOk.opened, flushOk.some_key, written ++ [row], ?_, .inl ?_⟩
          · rw [← decodes, left, append_assoc]
            rfl
          · rcases rows with rows | ⟨none_left, -⟩
            · have written : (world.logs.entries state.store
                  (flush.init.executionId, tioFinalizeNs, flush.key)).map Prod.snd = written := rows
              rw [logs]
              simp [Flush.log, written]
            · rw [left] at none_left
              cases none_left
        next apart =>
          exact (ok.flushes other (mem_of_getElem? there)).store
            (.inl (others there (Ne.symm apart)))
      · have unchanged : (state.flushes.map Flush.key).set index flush.key
            = state.flushes.map Flush.key := by
          obtain ⟨inside, rfl⟩ := List.getElem?_eq_some_iff.mp here
          rw [← getElem_map (h := by simpa using inside) Flush.key, set_getElem_self]
        rw [map_set, unchanged]
        exact ok.keys
      · intro drain member
        obtain ⟨other, there, drainOk⟩ := ok.drains drain member
        have apart : drain.flush ≠ index := by
          intro same
          rw [same, here] at there
          cases there
          rw [drainOk.complete] at left
          cases left
        refine ⟨other, ?_, drainOk.store (.inl (others there apart))⟩
        rw [getElem?_set_ne (Ne.symm apart)]
        exact there

theorem AllOk.begin (lawful : world.Lawful)
    (moves : world.begin state index = some next)
    : AllOk world next := by
  simp only [FlushEnv.begin] at moves
  split at moves
  · cases moves
  next flush here =>
    split at moves
    · cases moves
    next complete =>
      have complete : flush.pending = [] := not_not.mp complete
      split at moves
      · cases moves
      next stream started =>
        cases moves
        refine { ok with drains := forall_mem_append.mpr ⟨ok.drains, forall_mem_singleton.mpr ?_⟩ }
        refine ⟨flush, here, complete, by simp, by simp [Drain.position], nofun, fun _ => ?_⟩
        obtain ⟨blob, built, started⟩ := bind_eq_ok.mp started
        obtain ⟨bytes, encoded, started⟩ := bind_eq_ok.mp started
        rw [← pure_eq_ok.mp started]
        have carries : world.Carries flush bytes :=
          ⟨blob, blob, built, lawful.bincode.decodes encoded, .refl blob⟩
        exact ⟨_, bytes, false, rfl, carries, ⟨rfl, rfl, rfl⟩, rfl, .inr rfl⟩

omit ok

/-- A running drain, and its flush. -/
theorem AllOk.running (ok : AllOk world state)
    (found : FlushEnv.running state index = some drain)
    : drain.status = .running ∧ ∃ flush, state.flushes[drain.flush]? = some flush
      ∧ FlushOk world state.store flush ∧ DrainOk world state.store flush drain := by
  obtain ⟨there, status⟩ := Option.filter_eq_some_iff.mp found
  obtain ⟨flush, here, drainOk⟩ := ok.drains drain (mem_of_getElem? there)
  refine ⟨?_, flush, here, ok.flushes flush (mem_of_getElem? here), drainOk⟩
  cases is : drain.status <;> simp_all

/-- A step that only replaces one drain. -/
theorem AllOk.setDrain (ok : AllOk world state) (here : state.flushes[drain.flush]? = some flush)
    (drainOk : DrainOk world state.store flush drain)
    : AllOk world { state with drains := state.drains.set index drain } := by
  refine { ok with drains := fun other member => ?_ }
  rcases mem_or_eq_of_mem_set member with old | rfl
  · exact ok.drains other old
  · exact ⟨flush, here, drainOk⟩

theorem AllOk.turn (ok : AllOk world state) {ctx} (moves : world.turn state index ctx = some next)
    : AllOk world next := by
  obtain ⟨drain, found, rfl⟩ := Option.map_eq_some_iff.mp moves
  obtain ⟨running, flush, here, flushOk, drainOk⟩ := ok.running found
  obtain ⟨answer, stream, turn, moved, -⟩ := drainOk.turn ctx flushOk ok.sound running
  simp only [turn]
  have same : (drain.take stream answer).flush = drain.flush := by
    cases answer <;> rfl
  exact ok.setDrain (by rw [same]; exact here) moved

include lawful

/-- The stream of a running drain can be rebuilt, and stands where it stood. -/
theorem DrainOk.rebuilt {store} (ok : DrainOk world store flush drain)
    (flushOk : FlushOk world store flush) (running : drain.status = .running)
    : ∃ stream, rebuildFlush world.env world.bincode world.codec world.store drain.state
        = .ok stream ∧ DrainOk world store flush { drain with state := stream } := by
  obtain ⟨producer, bytes, checked, is, carries, reads, stands⟩ := ok.running running
  obtain ⟨ctx, fresh, opened⟩ := flushOk.opened
  rw [is]
  obtain ⟨token, rebuilt, carried⟩ := rebuildFlush_eq lawful opened carries reads flushOk.some_key
  exact ⟨_, rebuilt, { ok with
    running := fun _ => ⟨producer, token, false, rfl, carried, reads, stands⟩ }⟩

include ok

theorem AllOk.rebuild (moves : world.rebuild state index = some next) : AllOk world next := by
  obtain ⟨drain, found, rfl⟩ := Option.map_eq_some_iff.mp moves
  obtain ⟨running, flush, here, flushOk, drainOk⟩ := ok.running found
  obtain ⟨stream, rebuilt, moved⟩ := drainOk.rebuilt lawful flushOk running
  simp only [rebuilt]
  exact ok.setDrain here moved

theorem AllOk.replay (moves : world.replay state index = some next) : AllOk world next := by
  obtain ⟨drain, found, rfl⟩ := Option.map_eq_some_iff.mp moves
  obtain ⟨running, flush, here, flushOk, drainOk⟩ := ok.running found
  obtain ⟨stream, rebuilt, moved⟩ := drainOk.rebuilt lawful flushOk running
  simp only [rebuilt]
  refine { ok with drains := forall_mem_append.mpr ⟨ok.drains, forall_mem_singleton.mpr ?_⟩ }
  exact ⟨flush, here, drainOk.complete, by simp, drainOk.within, nofun,
    fun _ => moved.running running⟩

omit lawful

/-- What an operation of somebody else does to the logs of the flushes. -/
theorem AllOk.foreign (foreign : FlushEnv.foreign op = true)
    : world.logs.Sound (applyOp world.store op state.store).2
      ∧ ∀ flush : Flush, world.logs.entries (applyOp world.store op state.store).2 flush.log
            = world.logs.entries state.store flush.log
          ∨ world.logs.entries (applyOp world.store op state.store).2 flush.log = [] := by
  cases appends : op.isAppend with
  | false =>
    exact ⟨world.logs.other_sound ok.sound op appends,
      fun flush => world.logs.other_entries ok.sound op appends flush.log⟩
  | true =>
    cases op with
    | append scope ns key value =>
      refine ⟨world.logs.append_sound ok.sound scope ns key value, fun flush => .inl ?_⟩
      have apart : flush.log ≠ (scope, ns, key) := by
        intro same
        have elsewhere : ns ≠ tioFinalizeNs := by simpa [FlushEnv.foreign] using foreign
        exact elsewhere (Prod.mk.inj (Prod.mk.inj same).2).1.symm
      have logs := world.logs.append_entries ok.sound scope ns key value
      exact (congrFun logs flush.log).trans (Function.update_of_ne apart _ _)
    | _ => cases appends

theorem AllOk.other (moves : world.other state op = some next) : AllOk world next := by
  simp only [FlushEnv.other] at moves
  split at moves
  next allowed =>
    obtain ⟨foreign, unwritten⟩ := allowed
    cases moves
    obtain ⟨sound, logs⟩ := ok.foreign foreign
    refine ⟨sound, fun flush member => ?_, ok.keys, fun drain member => ?_⟩
    · refine (ok.flushes flush member).store ?_
      by_cases complete : flush.pending = []
      · rcases logs flush with same | dropped
        · exact .inl same
        · exact .inr ⟨complete, dropped⟩
      · exact .inl (unwritten flush member complete)
    · obtain ⟨flush, here, drainOk⟩ := ok.drains drain member
      exact ⟨flush, here, drainOk.store (logs flush)⟩
  · cases moves

omit ok

include lawful in
/-- Every state the workers come to is in order. -/
theorem reaches_allOk (reached : world.machine.Reaches (fun _ _ => True) state)
    : AllOk world state := by
  refine reached.invariant (AllOk world) ?_ ?_
  · rintro start ⟨sound, none_opened, none_drained⟩
    refine ⟨sound, ?_, ?_, ?_⟩
    · simp [none_opened]
    · simp [none_opened]
    · simp [none_drained]
  · intro before after action ok _ moves
    cases action with
    | openFlush ctx fresh key dto finished => exact ok.openFlush lawful moves
    | append index => exact ok.append moves
    | begin index => exact ok.begin lawful moves
    | turn index ctx => exact ok.turn moves
    | rebuild index => exact ok.rebuild lawful moves
    | replay index => exact ok.replay lawful moves
    | other op => exact ok.other moves

/-- However the flushes are written, read, rebuilt from their tokens and read again: a
stream has been sent the batches of its own flush from its start on, in order, and once it
ended all of them. While it runs its next turn sends the next batch, ends after the last one,
or fails because the rows are gone or a filter was sent; and a token can be used again, which
starts at the batch the stream stands before.
-/
theorem finalize_flush_delivered (lawful : world.Lawful)
    (reached : world.machine.Reaches (fun _ _ => True) state) {drain : Drain}
    (member : drain ∈ state.drains)
    : ∃ flush, state.flushes[drain.flush]? = some flush
      ∧ drain.outputs = (flush.batches.drop drain.start).take drain.outputs.length
      ∧ (drain.status = .finished → drain.outputs = flush.batches.drop drain.start)
      ∧ (drain.status = .running →
          ∃ rebuilt, rebuildFlush world.env world.bincode world.codec world.store drain.state
              = .ok rebuilt
            ∧ ∀ stream ∈ [drain.state, rebuilt], ∀ ctx, ∃ answer next,
              stream.produce (FinalizeFlushProducer.ops world.codec world.store) world.out
                  world.env.decoders world.bincode ctx state.store = ((answer, next), state.store)
              ∧ TurnAnswer flush drain ((ctx.tickMetadata pushdownFiltersKey).isSome
                  ∨ world.logs.entries state.store flush.log = []) answer) := by
  have ok := reaches_allOk lawful reached
  obtain ⟨flush, here, drainOk⟩ := ok.drains drain member
  have flushOk := ok.flushes flush (mem_of_getElem? here)
  refine ⟨flush, here, drainOk.sent, fun finished => ?_, fun running => ?_⟩
  · have all : drain.outputs.length = (flush.batches.drop drain.start).length := by
      have ends : drain.start + drain.outputs.length = flush.batches.length :=
        drainOk.finished finished
      rw [length_drop]
      omega
    rw [drainOk.sent, all, take_length]
  · obtain ⟨rebuilt, rebuilds, moved⟩ := drainOk.rebuilt lawful flushOk running
    refine ⟨rebuilt, rebuilds, fun stream listed ctx => ?_⟩
    rcases mem_pair.mp listed with rfl | rfl
    · obtain ⟨answer, next, turn, -, answers⟩ := drainOk.turn ctx flushOk ok.sound running
      exact ⟨answer, next, turn, answers⟩
    · obtain ⟨answer, next, turn, -, answers⟩ := moved.turn ctx flushOk ok.sound running
      refine ⟨answer, next, turn, ?_⟩
      cases answers with
      | failed error why => exact .failed error why
      | next found => exact .next found
      | finished all => exact .finished all

end

namespace FlushSample

open PlanSample ResumeSample

/-- Stands for the Arrow stream of such a batch. -/
def rowsStream (count : Nat) : Bytes := replicate count 1

def positionBytes : Bytes := counted [5] ++ fixint 8 0 ++ fixint 8 1

def positions : List ((Bytes × Int × Int) × Bytes) := [(([5], 0, 1), positionBytes)]

def codec : FlushCodec where
  encodeBatch := fun batch _ =>
    if batch.schema.fields.isEmpty ∧ batch.schema.metadata.isEmpty then
      .ok (rowsStream batch.numRows)
    else .error (runtimeError "ipc writer error")
  decodeBatch := fun bytes => .ok (rows bytes.length)
  encodeResume := frameOf positions
  decodeResume := fun bytes => (readFrame positions bytes).toOption

theorem codec_lawful : codec.Lawful where
  batches := by
    rintro ⟨⟨fields, metadata⟩, columns, numRows, types, lengths, nonNull⟩ schema bytes encoded
    simp only [codec] at encoded ⊢
    split at encoded
    next empty =>
      simp only [List.isEmpty_iff] at empty
      obtain ⟨rfl, rfl⟩ := empty
      cases encoded
      have none_left : columns = [] := map_eq_nil_iff.mp types
      subst none_left
      simp [rows, rowsStream, emptySchema]
    · cases encoded
  positions := by
    intro other
    simp only [codec]
    rw [readFrame_frameOf (by decide +kernel) (by decide +kernel)]
    rfl
  some_bytes := fun other => frameOf_ne_nil (by decide +kernel) other

def flushBlob : ExchangeBlob := { blob with kind := .tableInOutFinalize }

def movedBlob : ExchangeBlob := { flushBlob with innerResume := positionBytes }

def flushToken (innerResume : Bytes) : Bytes :=
  tokenOf "table_in_out_finalize" [] innerResume noContinuation

def bincode : Bincode :=
  bincodeOf [(flushBlob, flushToken []), (movedBlob, flushToken positionBytes)]

theorem bincode_lawful : bincode.Lawful :=
  bincodeOf_lawful (by decide +kernel) (by decide +kernel)

def world : FlushEnv Unit Memory.Inner where
  dispatcher := inOuts
  env := ResumeSample.env
  bincode
  codec
  out
  store := memoryFunctions
  logs := memoryLogs

theorem world_lawful : world.Lawful := ⟨ipc_lawful, bincode_lawful, codec_lawful⟩

def finalize : InitRequest := { init with phase := some "FINALIZE" }

/-- A turn of a client that sends nothing along. -/
def turn : TurnContext where
  toCallContext := ctx
  kind := some .http

def actions : List FlushAction :=
  [.openFlush ctx [7] [5] finalize [rows 1, rows 2], .append 0, .append 0, .begin 0, .turn 0 turn]

def start : Flushes Memory.Inner := ⟨.default, [], []⟩

theorem start_initial : world.machine.initial start := by
  refine ⟨⟨fun _ => .nil, nofun, ?_⟩, rfl, rfl⟩
  decide

end FlushSample

open FlushSample in
/-- Two batches are written, and one is read: the other one is next, for the stream and for
whoever uses its token.
-/
theorem finalize_flush_delivered_sample
    : ∃ state drain flush, world.machine.exec start actions = some state
      ∧ state.drains = [drain] ∧ drain.status = .running
      ∧ state.flushes[drain.flush]? = some flush ∧ flush.batches = [1, 2].map ResumeSample.rows
      ∧ drain.outputs = [ResumeSample.rows 1]
      ∧ drain.outputs = (flush.batches.drop drain.start).take drain.outputs.length
      ∧ ∃ rebuilt, rebuildFlush world.env bincode codec memoryFunctions drain.state = .ok rebuilt
        ∧ ∀ stream ∈ [drain.state, rebuilt], ∃ answer next,
          stream.produce (FinalizeFlushProducer.ops codec memoryFunctions) world.out
              world.env.decoders bincode turn state.store = ((answer, next), state.store)
          ∧ TurnAnswer flush drain ((turn.tickMetadata pushdownFiltersKey).isSome
              ∨ memoryLogs.entries state.store flush.log = []) answer := by
  obtain ⟨state, drain, flush, ran, drains, running, here, batches, outputs⟩ :
      ∃ state drain flush, world.machine.exec start actions = some state
        ∧ state.drains = [drain] ∧ drain.status = .running
        ∧ state.flushes[drain.flush]? = some flush ∧ flush.batches = [1, 2].map ResumeSample.rows
        ∧ drain.outputs = [ResumeSample.rows 1] := by
    apply Exists.intro
    apply Exists.intro
    apply Exists.intro
    refine ⟨?_, ?_, ?_, ?_, ?_, ?_⟩
    all_goals with_unfolding_all rfl
  have reached : world.machine.Reaches (fun _ _ => True) state :=
    Machine.Reaches.exec (.start start_initial) (Machine.meets_true _ _) ran
  obtain ⟨flush', there, sent, -, turns⟩ := finalize_flush_delivered world_lawful reached
    (show drain ∈ state.drains by rw [drains]; exact mem_singleton_self drain)
  rw [here] at there
  cases there
  obtain ⟨rebuilt, is, answers⟩ := turns running
  exact ⟨state, drain, flush, ran, drains, running, here, batches, outputs, sent, rebuilt, is,
    fun stream listed => answers stream listed turn⟩

end Vgi.Dispatch
