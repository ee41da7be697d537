import Vgi.Lib.Machine
import Vgi.Stored.WellFormed

/-! Any number of calls on one session of a stored catalog. A call loads the session's log in one
step and appends to it in another, so that an event may be appended to a log that it was not
validated against.
-/

namespace Vgi.Stored

open Lib List Option

variable {state : State}

/-- What `State::apply` refuses or ignores leaves the state alone, in place too. -/
theorem applyInPlace_unchanged {after event result}
    (run : (applyInPlace event).run.run state = (result, after)) (other : result ≠ .ok true)
    : after = state := by
  rw [run_applyInPlace] at run
  cases applied : state.apply event with
  | error e =>
    rw [applied] at run
    cases run
    rfl
  | ok pair =>
    obtain ⟨changes, next⟩ := pair
    rw [applied] at run
    cases run
    cases applied_apply applied with
    | ignored => rfl
    | _ => exact (other rfl).elim

/-- The loop of `load` over one event, with the state changed in place. -/
def replayInPlace (state : State) (event : Event) : State :=
  match (applyInPlace event).run.run state with
  | (.ok true, after) => { after with version := after.version + 1 }
  | (_, after) => after

theorem replayInPlace_eq (state event) : replayInPlace state event = state.replay event := by
  unfold replayInPlace State.replay
  rw [run_applyInPlace]
  cases applied : state.apply event with
  | error e => rfl
  | ok pair =>
    obtain ⟨changes, next⟩ := pair
    cases changes with
    | true => rfl
    | false =>
      cases applied_apply applied
      rfl

/-- `load` may change its state in place. -/
theorem foldlM_replayInPlace (events : List (Result Event)) (state : State)
    : events.foldlM (fun state event => return replayInPlace state (← event)) state
      = events.foldlM (fun state event => return state.replay (← event)) state := by
  simp only [replayInPlace_eq]

/-- A replayed event is skipped, or gives the next version. -/
theorem replay_cases (state : State) (event)
    : state.replay event = state ∨ (state.replay event).version = state.version + 1 := by
  unfold State.replay
  split
  next after applied => cases applied_apply applied <;> exact .inr rfl
  · exact .inl rfl

theorem State.WellFormed.replay (formed : state.WellFormed) (event)
    : (state.replay event).WellFormed := by
  unfold State.replay
  split
  next after applied =>
    obtain ⟨distinct, nonempty, parents, main, names⟩ := formed.applied (applied_apply applied)
    exact ⟨distinct, nonempty, parents, main, names⟩
  · exact formed

/-- A later state of the same log. -/
structure State.Below (earlier later : State) : Prop where
  le : earlier.version ≤ later.version
  eq : earlier.version = later.version → earlier = later

theorem State.Below.refl (state : State) : state.Below state := ⟨Int.le_refl _, fun _ => rfl⟩

variable {earlier later : State}

theorem State.Below.replay (below : earlier.Below later) (event)
    : earlier.Below (later.replay event) := by
  rcases replay_cases later event with same | next
  · rw [same]
    exact below
  · have le := below.le
    exact ⟨by omega, fun equal => by omega⟩

section

variable {Batch TableInfo Contents : Type} (sur : Surroundings Batch TableInfo Contents)
  (catalog : StoredCatalog)

/-- `load`, on the bytes of the log. -/
def loadLog (log : List Bytes) : Result State :=
  replayLog catalog (log.map fun bytes =>
    (sur.decodeEvent bytes).mapError fun e => runtimeError s!"{catalog.name}: corrupt DDL log: {e}")

/-- Where a call is: before its next operation on the log, or at its end. -/
inductive CallStage where
  /-- A read loads the log; a `mutate` loads it for its event. -/
  | load (mutation : Option Event)
  | append (event : Event) (attaching : Bool)
  | clear (attaching : Bool)
  | finished (answer : Result (Option State))
deriving DecidableEq

structure SessionState where
  log : List Bytes
  calls : List CallStage
  /-- The states that were loaded since the log was last cleared. -/
  loads : List State
deriving DecidableEq

inductive SessionAction where
  | read
  | mutate (event : Event)
  | attach
  | detach
  | step (index : Nat)
deriving DecidableEq

/-- The operation on the log that a call does next, and where that leaves it. -/
def SessionState.operate (state : SessionState) : CallStage → Option (SessionState × CallStage)
  | .load mutation =>
    match loadLog sur catalog state.log with
    | .error e => some (state, .finished (.error e))
    | .ok loaded =>
      let state := { state with loads := state.loads ++ [loaded] }
      match mutation with
      | none => some (state, .finished (.ok (some loaded)))
      | some event =>
        match loaded.apply event with
        | .ok (true, _) => some (state, .append event false)
        | .ok (false, _) => some (state, .finished (.ok none))
        | .error e => some (state, .finished (.error e))
  | .append event attaching =>
    match sur.encodeEvent event with
    | .error e =>
      some (state, .finished (.error (runtimeError s!"{catalog.name}: encode DDL: {e}")))
    | .ok bytes =>
      some ({ state with log := state.log ++ [bytes] },
        if attaching then .load none else .finished (.ok none))
  | .clear attaching =>
    some ({ state with log := [], loads := [] },
      if attaching then .append .attached true else .finished (.ok none))
  | .finished _ => none

def SessionState.next (state : SessionState) : SessionAction → Option SessionState
  | .read => some { state with calls := state.calls ++ [.load none] }
  | .mutate event => some { state with calls := state.calls ++ [.load (some event)] }
  | .attach => some { state with calls := state.calls ++ [.clear true] }
  | .detach => some { state with calls := state.calls ++ [.clear false] }
  | .step index =>
    (state.calls[index]?).bind fun stage =>
      (state.operate sur catalog stage).map fun (after, stage) =>
        { after with calls := after.calls.set index stage }

def sessionMachine : Machine SessionState SessionAction where
  initial state := state = ⟨[], [], []⟩
  next := SessionState.next sur catalog

variable {sur catalog}

variable {loaded : State} {events : List (Result Event)}

theorem foldl_replay {start} (below : earlier.Below start)
    (folds : events.foldlM (fun state event => return state.replay (← event)) start
      = (.ok loaded : Result State))
    : earlier.Below loaded ∧ (start.WellFormed → loaded.WellFormed) := by
  induction events generalizing start with
  | nil =>
    cases folds
    exact ⟨below, id⟩
  | cons first rest ih =>
    obtain ⟨next, replayed, folds⟩ := Vgi.Lib.bind_eq_ok.mp folds
    obtain ⟨event, _, replayed⟩ := Vgi.Lib.bind_eq_ok.mp replayed
    cases replayed
    obtain ⟨below, formed⟩ := ih (below.replay event) folds
    exact ⟨below, fun start => formed (start.replay event)⟩

/-- A log that can be replayed starts with the attachment. -/
theorem replayLog_eq_ok (replays : replayLog catalog events = .ok loaded)
    : ∃ rest, events = .ok .attached :: rest
      ∧ rest.foldlM (fun state event => return state.replay (← event)) State.new
        = (.ok loaded : Result State) := by
  cases events with
  | nil => cases replays
  | cons first rest =>
    obtain ⟨event, is, replays⟩ := Vgi.Lib.bind_eq_ok.mp replays
    cases event with
    | attached => exact ⟨rest, by rw [is], replays⟩
    | _ => cases replays

variable {log : List Bytes}

theorem wellFormed_of_loadLog
    (loads : loadLog sur catalog log = .ok loaded) : loaded.WellFormed := by
  obtain ⟨rest, _, folds⟩ := replayLog_eq_ok loads
  exact (foldl_replay (.refl _) folds).2 wellFormed_new

/-- What is appended to a log gives a later state of it. -/
theorem below_of_loadLog {more} (before : loadLog sur catalog log = .ok earlier)
    (now : loadLog sur catalog (log ++ more) = .ok later) : earlier.Below later := by
  obtain ⟨rest, is, folds⟩ := replayLog_eq_ok before
  rw [loadLog, map_append, is, cons_append] at now
  obtain ⟨all, same, foldsAll⟩ := replayLog_eq_ok now
  cases same
  rw [foldlM_append] at foldsAll
  obtain ⟨middle, first, second⟩ := Vgi.Lib.bind_eq_ok.mp foldsAll
  cases folds.symm.trans first
  exact (foldl_replay (.refl _) second).1

/-- Every load came from a first part of the log there is now. -/
structure SessionState.Sound (sur : Surroundings Batch TableInfo Contents)
    (catalog : StoredCatalog) (state : SessionState) : Prop where
  source : ∀ loaded ∈ state.loads, ∃ first more, state.log = first ++ more
    ∧ loadLog sur catalog first = .ok loaded
  ordered : state.loads.Pairwise State.Below

variable {state after : SessionState}

/-- One operation of a call on the log: what it loads was written before, and later loads see more.
-/
theorem SessionState.Sound.operate {stage next} (sound : state.Sound sur catalog)
    (operates : state.operate sur catalog stage = some (after, next))
    : after.Sound sur catalog := by
  cases stage with
  | load mutation =>
    simp only [SessionState.operate] at operates
    split at operates
    · cases operates
      exact sound
    next loaded loads =>
      have grown : SessionState.Sound sur catalog
          { state with loads := state.loads ++ [loaded] } := by
        refine ⟨forall_mem_append.mpr ⟨sound.source, forall_mem_singleton.mpr ?_⟩,
          pairwise_append.mpr ⟨sound.ordered, pairwise_singleton _ _, ?_⟩⟩
        · exact ⟨state.log, [], (append_nil _).symm, loads⟩
        · intro earlier member later new
          cases mem_singleton.mp new
          obtain ⟨first, more, is, before⟩ := sound.source earlier member
          rw [is] at loads
          exact below_of_loadLog before loads
      repeat' split at operates
      all_goals
        cases operates
        exact grown
  | append event attaching =>
    simp only [SessionState.operate] at operates
    split at operates
    · cases operates
      exact sound
    · cases operates
      refine ⟨fun loaded member => ?_, sound.ordered⟩
      obtain ⟨first, more, is, before⟩ := sound.source loaded member
      exact ⟨first, more ++ _, by rw [is, append_assoc], before⟩
  | clear attaching =>
    cases operates
    exact ⟨nofun, List.Pairwise.nil⟩
  | finished => cases operates

theorem sound_of_reaches {allowed}
    (reached : (sessionMachine sur catalog).Reaches allowed state)
    : state.Sound sur catalog := by
  refine reached.invariant (SessionState.Sound sur catalog) ?_ ?_
  · rintro _ rfl
    exact ⟨nofun, List.Pairwise.nil⟩
  · intro before after action sound _ steps
    cases action with
    | step index =>
      obtain ⟨stage, _, steps⟩ := bind_eq_some_iff.mp steps
      obtain ⟨⟨next, stage⟩, operates, rfl⟩ := map_eq_some_iff.mp steps
      exact ⟨(sound.operate operates).source, (sound.operate operates).ordered⟩
    | _ =>
      cases steps
      exact ⟨sound.source, sound.ordered⟩

/-- Whatever calls overlap, a session loads well-formed catalogs only. What an event leaves undone
leaves no trace, and versions never go back; with versions, one of them stands for one state.
-/
theorem stored_catalog_wellFormed (sur : Surroundings Batch TableInfo Contents)
    (catalog : StoredCatalog) (state : SessionState)
    (reached : (sessionMachine sur catalog).Reaches (fun _ _ => True) state)
    : (∀ loaded ∈ state.loads, loaded.WellFormed)
      ∧ (∀ (before after : State) (event : Event) (result : Result Bool),
        (applyInPlace event).run.run before = (result, after) → result ≠ .ok true →
        after = before)
      ∧ state.loads.Pairwise (fun earlier later =>
        reportedVersion catalog earlier ≤ reportedVersion catalog later
        ∧ (catalog.versioned = true →
          reportedVersion catalog earlier = reportedVersion catalog later → earlier = later)) := by
  have sound := sound_of_reaches reached
  refine ⟨fun loaded member => ?_, fun before after event result run other => ?_, ?_⟩
  · obtain ⟨first, _, _, loads⟩ := sound.source loaded member
    exact wellFormed_of_loadLog loads
  · exact applyInPlace_unchanged run other
  · refine sound.ordered.imp fun {earlier later} below => ?_
    cases versioned : catalog.versioned with
    | true => simpa [reportedVersion, versioned] using ⟨below.le, below.eq⟩
    | false => simp [reportedVersion, versioned]

end

namespace SessionSample

def create (path : SchemaPath) : Event := .schemaCreate path none [] .error

def quoted (name : String) : String := "\"" ++ name ++ "\""

def json (path : SchemaPath) (onConflict : String := "Error") : Bytes :=
  utf8 ("\x7b\"SchemaCreate\":\x7b\"path\":[" ++ ",".intercalate (path.map quoted)
    ++ "],\"comment\":null,\"tags\":[],\"on_conflict\":" ++ quoted onConflict ++ "\x7d\x7d")

/-- The events that occur with attaching, and their JSON. -/
def texts (others : List (Event × Bytes)) : List (Event × Bytes) :=
  (.attached, utf8 "\"Attached\"") :: others

def missing {α : Type} : Result α := .error (valueError "missing column")

/-- The log holds the JSON of the events that occur; no requests are read. -/
def logging {Batch : Type} (others : List (Event × Bytes)) : Surroundings Batch Unit Unit where
  path := fun _ => missing
  get := fun _ => missing
  ifNoneMatch := fun _ => .ok none
  schemaCreate := fun _ => missing
  schemaDrop := fun _ => missing
  tableCreate := fun _ => missing
  drop := fun _ => missing
  viewCreate := fun _ => missing
  viewCommentSet := fun _ => missing
  viewColumnCommentSet := fun _ => missing
  encodeEvent := fun event => okOr "unsupported" ((texts others).lookup event)
  decodeEvent := fun bytes =>
    okOr "expected value" (((texts others).find? (·.2 = bytes)).map (·.1))
  validateColumns := fun _ _ => .ok ()
  tableInfo := fun _ _ => .ok ()
  contents := fun _ _ => .ok ()

def surroundings : Surroundings Unit Unit Unit :=
  logging [(create ["s"], json ["s"]), (create ["S"], json ["S"])]

def scratch (versioned : Bool) : StoredCatalog := ⟨"scratch", versioned⟩

/-- Two calls create the same schema in different case, each on the state before the other. -/
def actions : List SessionAction :=
  [.attach, .step 0, .step 0, .step 0, .mutate (create ["s"]), .mutate (create ["S"]),
    .step 1, .step 2, .step 2, .step 1, .read, .step 3]

def created : State := ⟨2, [.empty ["main"], .empty ["S"]]⟩

end SessionSample

open SessionSample

/-- Two calls that create one schema under two spellings leave a catalog with one of them. -/
theorem stored_catalog_wellFormed_sample
    : ∃ state, (sessionMachine surroundings (scratch true)).Reaches (fun _ _ => True) state
      ∧ state.loads = [.new, .new, .new, created]
      ∧ (∀ loaded ∈ state.loads, loaded.WellFormed)
      ∧ state.loads.Pairwise (fun earlier later =>
        reportedVersion (scratch true) earlier ≤ reportedVersion (scratch true) later
        ∧ ((scratch true).versioned = true →
          reportedVersion (scratch true) earlier = reportedVersion (scratch true) later →
          earlier = later)) := by
  have ends : ((sessionMachine surroundings (scratch true)).exec ⟨[], [], []⟩ actions).map
      SessionState.loads = some [.new, .new, .new, created] := by
    decide +kernel
  obtain ⟨state, run, loads⟩ := map_eq_some_iff.mp ends
  have reached : (sessionMachine surroundings (scratch true)).Reaches (fun _ _ => True) state :=
    (Machine.Reaches.start rfl).exec (Machine.meets_true _ actions) run
  obtain ⟨formed, _, ordered⟩ := stored_catalog_wellFormed surroundings (scratch true) state reached
  exact ⟨state, reached, loads, formed, ordered⟩

/-- A catalog without versions reports the same one for different states. -/
theorem unversioned_loads_differ
    : ∃ state, (sessionMachine surroundings (scratch false)).exec
        ⟨[], [], []⟩ actions = some state
      ∧ state.loads = [.new, .new, .new, created]
      ∧ reportedVersion (scratch false) .new = reportedVersion (scratch false) created
      ∧ State.new ≠ created := by
  have ends : ((sessionMachine surroundings (scratch false)).exec
      ⟨[], [], []⟩ actions).map SessionState.loads
      = some [.new, .new, .new, created] := by
    decide +kernel
  obtain ⟨state, run, loads⟩ := map_eq_some_iff.mp ends
  exact ⟨state, run, loads, rfl, by decide⟩

end Vgi.Stored
