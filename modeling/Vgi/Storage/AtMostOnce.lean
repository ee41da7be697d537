import Vgi.Lib.Frame
import Vgi.Storage.Server

/-! Idempotency keys in the storage service. As long as no delivery looks its key up while
another one with that key stands between its look-up and its record, or after the reply of the
key was thrown out of the table, every key is applied once and answered alike.
-/

namespace Vgi.Storage

open Lib Service AppState Finmap Option

section

variable {σ ι Moment : Type}

/-- The handler looked the key up, found nothing and has not recorded its reply yet. -/
def Phase.Holds (key : String) : Phase → Prop
  | .apply request | .record request _ => request.idempotencyKey = some key
  | .lookUp _ | .answered _ => False

variable (service : Service σ ι Moment)

def Service.Busy (key : String) : Prop :=
  ∃ index handler, service.handlers index = some handler ∧ handler.phase.Holds key

def Service.LooksUp (key : String) : Action ι Moment → Prop
  | .deliver .. => False
  | .advance index _ =>
    ∃ call request, service.handlers index = some ⟨call, .lookUp request⟩
      ∧ request.idempotencyKey = some key

variable (action : Action ι Moment)

/-- A look-up finds no other handler at work on its key. -/
def Service.Undisturbed : Prop := ∀ key, service.LooksUp key action → ¬service.Busy key

/-- The service has not thrown out the reply that a look-up asks for. -/
def Service.Remembers : Prop := ∀ key, service.LooksUp key action → key ∉ service.dropped

def Service.Orderly : Prop := service.Undisturbed action ∧ service.Remembers action

/-- The applications of the calls with this key, in order. -/
def Service.applications (calls : Calls ι) (service : Service σ ι Moment) (key : String)
    : List (Application ι Moment) :=
  service.applied.filter fun application =>
    (calls.request application.call).idempotencyKey = some key

/-- The key was applied once, and `bytes` is the reply of that application. -/
def Service.Kept (wire : Wire) (calls : Calls ι) (service : Service σ ι Moment)
    (key : String) (bytes : Bytes) : Prop :=
  ∃ application, service.applications calls key = [application]
    ∧ wire.encodeReply application.reply = .ok bytes

/-- The store results from the applications in their order, each with the reply it gave. -/
inductive History (backend : Moment → FunctionStorage σ) (store : σ)
    : List (Application ι Moment) → σ → Prop where
  | nil : History backend store [] store
  | snoc {applied : List (Application ι Moment)} {before after : σ} {call : ι}
      {op : StorageOp} {moment : Moment} {reply : StorageReply}
      (earlier : History backend store applied before)
      (applies : (applyOp (backend moment) op).run before = (reply, after))
      : History backend store (applied ++ [⟨call, op, moment, reply⟩]) after

/-- What a handler in this phase may rely on. -/
def PhaseOk (wire : Wire) (calls : Calls ι) (service : Service σ ι Moment) (call : ι)
    : Phase → Prop
  | .lookUp request => request = calls.request call
  | .apply request =>
    request = calls.request call
    ∧ ∀ key, request.idempotencyKey = some key → service.applications calls key = []
  | .record request bytes =>
    request = calls.request call
    ∧ ∀ key, request.idempotencyKey = some key → service.Kept wire calls key bytes
  | .answered (.ok bytes) =>
    ∀ key, (calls.request call).idempotencyKey = some key → service.Kept wire calls key bytes
  | .answered (.error ..) => True

structure Coherent (wire : Wire) (calls : Calls ι) (service : Service σ ι Moment) : Prop where
  phases : ∀ {index handler}, service.handlers index = some handler →
    PhaseOk wire calls service handler.call handler.phase
  alone : ∀ {key index other handler handler'}, service.handlers index = some handler →
    service.handlers other = some handler' → handler.phase.Holds key →
    handler'.phase.Holds key → index = other
  recorded : ∀ {key bytes}, service.app.idem.lookup key = some bytes →
    service.Kept wire calls key bytes
  once : ∀ key, (service.applications calls key).length ≤ 1
  settled : ∀ {key}, service.applications calls key ≠ [] →
    service.Busy key ∨ key ∈ service.app.idem ∨ key ∈ service.dropped

variable {wire : Wire} {calls : Calls ι} {service} {index : Nat} {call : ι} {phase : Phase}

/-- A running handler of the changed service is the changed one or was there before. -/
theorem Service.setPhase_cases {other handler}
    (running : (service.setPhase index call phase).handlers other = some handler)
    : (other = index ∧ handler = ⟨call, phase⟩)
      ∨ (other ≠ index ∧ service.handlers other = some handler) := by
  simp only [setPhase, Function.update_apply] at running
  split at running
  next same => exact .inl ⟨same, (some.inj running).symm⟩
  next ne => exact .inr ⟨ne, running⟩

/-- A change of phase that does not give the key up keeps it busy. -/
theorem Service.Busy.setPhase {key} (busy : service.Busy key)
    (holding : ∀ handler, service.handlers index = some handler → handler.phase.Holds key →
      phase.Holds key)
    : (service.setPhase index call phase).Busy key := by
  obtain ⟨other, handler, running, holds⟩ := busy
  by_cases same : other = index
  · subst same
    exact ⟨other, ⟨call, phase⟩, by simp, holding handler running holds⟩
  · exact ⟨other, handler, by simp [same, running], holds⟩

/-- A handler that comes to hold no key of another one leaves each key with one holder. -/
theorem Coherent.alone_setPhase (coherent : Coherent wire calls service)
    (apart : ∀ {other handler key}, service.handlers other = some handler →
      handler.phase.Holds key → phase.Holds key → other = index)
    {key first second handler handler'}
    (running : (service.setPhase index call phase).handlers first = some handler)
    (running' : (service.setPhase index call phase).handlers second = some handler')
    (holds : handler.phase.Holds key) (holds' : handler'.phase.Holds key)
    : first = second := by
  rcases setPhase_cases running with ⟨rfl, rfl⟩ | ⟨-, was⟩
  · rcases setPhase_cases running' with ⟨rfl, -⟩ | ⟨-, was'⟩
    · rfl
    · exact (apart was' holds' holds).symm
  · rcases setPhase_cases running' with ⟨rfl, rfl⟩ | ⟨-, was'⟩
    · exact apart was holds holds'
    · exact coherent.alone was was' holds holds'

/-- A handler that starts, is answered from the table or goes on to apply its operation. The
key it comes to hold was free, and it gives none up.
-/
theorem Coherent.setPhase (coherent : Coherent wire calls service)
    (ok : PhaseOk wire calls service call phase)
    (free : ∀ key, phase.Holds key → ¬service.Busy key)
    (idle : ∀ handler key, service.handlers index = some handler → ¬handler.phase.Holds key)
    : Coherent wire calls (service.setPhase index call phase) where
  phases := by
    intro other handler running
    rcases setPhase_cases running with ⟨-, rfl⟩ | ⟨-, running⟩
    · exact ok
    · exact coherent.phases running
  alone := coherent.alone_setPhase fun {other handler key} was held holds =>
    absurd ⟨other, handler, was, held⟩ (free key holds)
  recorded := coherent.recorded
  once := coherent.once
  settled := by
    intro key applied
    rcases coherent.settled applied with busy | known
    · refine .inl (busy.setPhase ?_)
      intro handler running holds
      exact absurd holds (idle handler key running)
    · exact .inr known

variable {application : Application ι Moment} {after : Service σ ι Moment} {key : String}
  {bytes : Bytes} {request : StorageRequest} {moment : Moment}
  {backend : Moment → FunctionStorage σ}
  (applied : after.applied = service.applied ++ [application])

include applied

theorem applications_snoc : after.applications calls key
      = if (calls.request application.call).idempotencyKey = some key
        then service.applications calls key ++ [application]
        else service.applications calls key := by
  simp only [applications, applied]
  by_cases mine : (calls.request application.call).idempotencyKey = some key <;> simp [mine]

variable (first : ∀ key, (calls.request application.call).idempotencyKey = some key →
  service.applications calls key = [])

include first

/-- An application of a key that had none leaves every kept reply as it is. -/
theorem Service.Kept.snoc (kept : service.Kept wire calls key bytes)
    : after.Kept wire calls key bytes := by
  obtain ⟨earlier, single, encoded⟩ := kept
  refine ⟨earlier, ?_, encoded⟩
  rw [applications_snoc applied, if_neg, single]
  intro mine
  rw [first key mine] at single
  cases single

theorem PhaseOk.snoc (ok : PhaseOk wire calls service call phase)
    (other : ∀ key, phase.Holds key → (calls.request application.call).idempotencyKey ≠ some key)
    : PhaseOk wire calls after call phase := by
  cases phase with
  | lookUp request => exact ok
  | apply request =>
    refine ⟨ok.1, fun key keyed => ?_⟩
    rw [applications_snoc applied, if_neg (other key keyed)]
    exact ok.2 key keyed
  | record request bytes => exact ⟨ok.1, fun key keyed => (ok.2 key keyed).snoc applied first⟩
  | answered response =>
    cases response with
    | ok bytes => exact fun key keyed => (ok key keyed).snoc applied first
    | error status message => trivial

omit applied first

/-- Applying the operation of a handler whose key was never applied. -/
theorem Coherent.apply (lawful : wire.Lawful) (coherent : Coherent wire calls service)
    (running : service.handlers index = some ⟨call, .apply request⟩)
    : Coherent wire calls (service.apply wire backend index call request moment) := by
  obtain ⟨same, first⟩ := coherent.phases running
  obtain rfl : request = calls.request call := same
  generalize outcome : (applyOp (backend moment) (calls.request call).op).run service.app.store
    = result
  obtain ⟨reply, store⟩ := result
  obtain ⟨bytes, encoded⟩ := lawful.encodes reply
  -- The handler goes on to record the reply of the application it just made.
  have steps : service.apply wire backend index call (calls.request call) moment
      = { service.setPhase index call (.record (calls.request call) bytes) with
          app := { service.app with store }
          applied := service.applied ++ [⟨call, (calls.request call).op, moment, reply⟩] } := by
    simp only [apply, outcome, encoded]
  rw [steps]
  have made : ∀ key, (calls.request call).idempotencyKey = some key →
      (Phase.apply (calls.request call)).Holds key := fun _ keyed => keyed
  refine ⟨?_, ?_, ?_, ?_, ?_⟩
  · intro other handler runs
    rcases setPhase_cases runs with ⟨-, rfl⟩ | ⟨ne, was⟩
    · refine ⟨rfl, fun key keyed => ⟨⟨call, (calls.request call).op, moment, reply⟩, ?_, encoded⟩⟩
      rw [applications_snoc rfl, if_pos keyed, first key keyed]
      rfl
    · refine (coherent.phases was).snoc rfl first ?_
      intro key holds keyed
      exact ne (coherent.alone was running holds (made key keyed))
  · refine coherent.alone_setPhase fun was held holds => ?_
    exact coherent.alone was running held (made _ holds)
  · intro key kept lookup
    exact (coherent.recorded lookup).snoc rfl first
  · intro key
    rw [applications_snoc rfl]
    split
    next keyed => simp [first key keyed]
    · exact coherent.once key
  · intro key applied
    -- The handler that has applied still holds its key; of another key nothing has changed.
    by_cases keyed : (calls.request call).idempotencyKey = some key
    · exact .inl ⟨index, ⟨call, .record (calls.request call) bytes⟩,
        by simp [Service.setPhase], keyed⟩
    · rw [applications_snoc rfl, if_neg keyed] at applied
      rcases coherent.settled applied with busy | known
      · refine .inl (Busy.setPhase busy ?_)
        intro handler runs holds
        rw [running] at runs
        cases runs
        exact holds
      · exact .inr known

variable {other : String}

/-- A table after recording holds the new reply, and of the others none or all. -/
theorem lookup_recordReply {known}
    (found : (service.app.recordReply request bytes).idem.lookup other = some known)
    : (request.idempotencyKey = some other ∧ known = bytes)
      ∨ service.app.idem.lookup other = some known := by
  unfold recordReply at found
  cases keyed : request.idempotencyKey with
  | none =>
    rw [keyed] at found
    exact .inr found
  | some key =>
    rw [keyed] at found
    by_cases same : other = key
    · subst same
      rw [lookup_insert] at found
      exact .inl ⟨rfl, (some.inj found).symm⟩
    · rw [lookup_insert_of_ne _ same] at found
      split at found
      · simp at found
      · exact .inr found

/-- A recorded reply stays in the table until it is counted as dropped. -/
theorem mem_recordReply (known : other ∈ service.app.idem)
    : other ∈ (service.app.recordReply request bytes).idem ∨ other ∈ service.evicts request := by
  unfold recordReply evicts
  cases request.idempotencyKey with
  | none => exact .inl known
  | some key =>
    by_cases full : service.app.idem.keys.card ≥ idemCap
    · simp only [full]
      exact .inr (mem_keys.mpr known)
    · simp only [full]
      exact .inl (mem_insert.mpr (.inr known))

theorem mem_recordReply_self (keyed : request.idempotencyKey = some key)
    : key ∈ (service.app.recordReply request bytes).idem := by
  unfold recordReply
  rw [keyed]
  exact mem_insert.mpr (.inl rfl)

variable (coherent : Coherent wire calls service)

include coherent

/-- Recording the reply of the application the handler made. -/
theorem Coherent.record (running : service.handlers index = some ⟨call, .record request bytes⟩)
    : Coherent wire calls (service.record index call request bytes) := by
  obtain ⟨same, kept⟩ := coherent.phases running
  obtain rfl : request = calls.request call := same
  refine ⟨?_, ?_, ?_, coherent.once, ?_⟩
  · intro other handler runs
    rcases setPhase_cases runs with ⟨-, rfl⟩ | ⟨-, was⟩
    · exact kept
    · exact coherent.phases was
  · exact coherent.alone_setPhase fun _ _ => False.elim
  · intro key known found
    rcases lookup_recordReply found with ⟨keyed, rfl⟩ | found
    · exact kept key keyed
    · exact coherent.recorded found
  · intro key applied
    rcases coherent.settled applied with busy | known | dropped
    · obtain ⟨other, handler, runs, holds⟩ := busy
      by_cases same : other = index
      · subst same
        rw [running] at runs
        cases runs
        exact .inr (.inl (mem_recordReply_self holds))
      · exact .inl ⟨other, handler, (Function.update_of_ne same ..).trans runs, holds⟩
    · rcases mem_recordReply known with kept | evicted
      · exact .inr (.inl kept)
      · exact .inr (.inr (Finset.mem_union_right _ evicted))
    · exact .inr (.inr (Finset.mem_union_left _ dropped))

theorem Coherent.lookUp (running : service.handlers index = some ⟨call, .lookUp request⟩)
    (orderly : ∀ key, request.idempotencyKey = some key → ¬service.Busy key ∧ key ∉ service.dropped)
    : Coherent wire calls (service.lookUp index call request) := by
  obtain rfl : request = calls.request call := coherent.phases running
  have idle : ∀ handler key, service.handlers index = some handler → ¬handler.phase.Holds key := by
    intro handler key runs holds
    rw [running] at runs
    cases runs
    exact holds
  unfold lookUp
  cases cached : service.app.cached (calls.request call) with
  | some bytes =>
    refine coherent.setPhase ?_ (fun _ holds => holds.elim) idle
    intro key keyed
    rw [AppState.cached, keyed] at cached
    exact coherent.recorded cached
  | none =>
    refine coherent.setPhase ⟨rfl, ?_⟩ (fun key keyed => (orderly key keyed).1) idle
    intro key keyed
    rw [AppState.cached, keyed] at cached
    by_contra applied
    rcases coherent.settled applied with busy | known | dropped
    · exact (orderly key keyed).1 busy
    · exact lookup_eq_none.mp cached known
    · exact (orderly key keyed).2 dropped

variable {action}

/-- Every orderly step keeps the service coherent. -/
theorem Coherent.next (lawful : wire.Lawful)
    (orderly : service.Orderly action)
    (moves : service.next wire backend calls action = some after)
    : Coherent wire calls after := by
  cases action with
  | deliver index call authorization =>
    simp only [next] at moves
    split at moves
    · cases moves
    next vacant =>
      have idle : ∀ handler key, service.handlers index = some handler →
          ¬handler.phase.Holds key := by
        intro handler key runs
        rw [vacant] at runs
        cases runs
      split at moves
      all_goals
        cases moves
        rename_i answer
        refine coherent.setPhase ?_ (fun _ holds => holds.elim) idle
        simp only [accept, lawful.request] at answer
        split at answer
        all_goals cases answer
      · rfl
      · trivial
  | advance index moment =>
    simp only [next] at moves
    split at moves
    · cases moves
    next call phase running =>
      cases phase with
      | lookUp request =>
        cases moves
        refine coherent.lookUp running fun key keyed => ?_
        have looksUp : service.LooksUp key (.advance index moment) :=
          ⟨call, request, running, keyed⟩
        exact ⟨orderly.1 key looksUp, orderly.2 key looksUp⟩
      | apply request =>
        cases moves
        exact coherent.apply lawful running
      | record request bytes =>
        cases moves
        exact coherent.record running
      | answered response => cases moves

omit coherent

variable {store : σ}

theorem coherent_start {token}
    : Coherent wire calls (start store token : Service σ ι Moment) where
  phases := nofun
  alone := nofun
  recorded := fun found => by simp [start] at found
  once := fun key => by simp [start, applications]
  settled := fun applied => by simp [start, applications] at applied

/-- Every step leaves the store at the result of the applications so far. -/
theorem History.next (history : History backend store service.applied service.app.store)
    (moves : service.next wire backend calls action = some after)
    : History backend store after.applied after.app.store := by
  cases action with
  | deliver index call authorization =>
    simp only [next] at moves
    split at moves
    · cases moves
    · split at moves <;>
      · cases moves
        exact history
  | advance index moment =>
    simp only [next] at moves
    split at moves
    · cases moves
    next call phase running =>
      cases phase with
      | lookUp request =>
        cases moves
        unfold lookUp
        split <;> exact history
      | apply request =>
        cases moves
        exact history.snoc rfl
      | record request bytes =>
        cases moves
        have same : (service.app.recordReply request bytes).store = service.app.store := by
          unfold recordReply
          split <;> rfl
        exact same ▸ history
      | answered response => cases moves

variable {token : Option String}
  (reached : (serviceMachine wire backend calls store token).Reaches Service.Orderly service)

include reached

theorem coherent_of_reaches (lawful : wire.Lawful) : Coherent wire calls service := by
  refine reached.invariant (Coherent wire calls) ?_ ?_
  · rintro _ rfl
    exact coherent_start
  · intro before after action coherent orderly moves
    exact coherent.next lawful orderly moves

theorem history_of_reaches : History backend store service.applied service.app.store := by
  refine reached.invariant
    (fun service => History backend store service.applied service.app.store) ?_ ?_
  · rintro _ rfl
    exact .nil
  · intro before after action history _ moves
    exact history.next moves

omit reached

/-- In every orderly run each key is applied at most once and all its successful replies are
equal. The store is what the applications made of it, and a call that got a reply was applied
exactly once, with that reply.
-/
theorem service_applies_once (lawful : wire.Lawful)
    (reached : (serviceMachine wire backend calls store token).Reaches Service.Orderly service)
    : History backend store service.applied service.app.store
      ∧ (∀ key, (service.applications calls key).length ≤ 1)
      ∧ (∀ call key, (calls.request call).idempotencyKey = some key → ∀ {first second bytes bytes'},
            service.handlers first = some ⟨call, .answered (.ok bytes)⟩ →
            service.handlers second = some ⟨call, .answered (.ok bytes')⟩ →
            bytes = bytes')
      ∧ (∀ call key, (calls.request call).idempotencyKey = some key → ∀ endpoint attempts reply,
            (∀ attempt bytes, attempts attempt = .body bytes →
              ∃ index, service.handlers index = some ⟨call, .answered (.ok bytes)⟩) →
            Storage.call wire endpoint attempts = .ok reply →
            ∃ application, service.applications calls key = [application]
              ∧ application.call = call ∧ application.reply = reply) := by
  have coherent := coherent_of_reaches reached lawful
  refine ⟨history_of_reaches reached, coherent.once, ?_, ?_⟩
  · intro call key keyed first second bytes bytes' answered answered'
    obtain ⟨application, single, encoded⟩ := coherent.phases answered key keyed
    obtain ⟨other, single', encoded'⟩ := coherent.phases answered' key keyed
    rw [single] at single'
    cases single'
    rw [encoded] at encoded'
    exact Except.ok.inj encoded'
  · intro call key keyed endpoint attempts reply sent returns
    obtain ⟨attempt, bytes, body, decoded⟩ := callFrom_eq_ok returns
    obtain ⟨index, answered⟩ := sent attempt bytes body
    obtain ⟨application, single, encoded⟩ := coherent.phases answered key keyed
    refine ⟨application, single, ?_, ?_⟩
    · have member : application ∈ service.applications calls key := by simp [single]
      have theirs := (List.mem_filter.mp member).2
      exact Calls.eq_of_key (of_decide_eq_true theirs) keyed
    · rw [lawful.reply encoded] at decoded
      exact Except.ok.inj decoded

/-- What is left of a service by a handler that ran from delivery to answer and missed. -/
structure Service.Served (service : Service σ ι Moment) (index : Nat) (call : ι)
    (request : StorageRequest) (after : Service σ ι Moment) : Prop where
  others : ∀ other ≠ index, after.handlers other = service.handlers other
  answered : ∃ bytes, after.handlers index = some ⟨call, .answered (.ok bytes)⟩
    ∧ after.app.idem = (service.app.recordReply request bytes).idem
  applied : ∃ application, application.call = call
    ∧ after.applied = service.applied ++ [application]
  token : after.app.token = service.app.token
  dropped : after.dropped = service.dropped ∪ service.evicts request

theorem recordReply_token (app : AppState σ)
    : (app.recordReply request bytes).token = app.token := by
  unfold recordReply
  split <;> rfl

theorem recordReply_idem {app other : AppState σ} (same : app.idem = other.idem)
    : (app.recordReply request bytes).idem = (other.recordReply request bytes).idem := by
  unfold recordReply
  split
  · exact same
  · simp only [same]

/-- A handler that nothing interrupts and whose key is not in the table serves its call. Only
its look-up has to be allowed.
-/
theorem serve_reaches {machine : Machine (Service σ ι Moment) (Action ι Moment)}
    {allowed} (lawful : wire.Lawful)
    (steps : machine.next = next wire backend calls)
    (reached : machine.Reaches allowed service) (vacant : service.handlers index = none)
    (unguarded : service.app.token = none)
    (absent : service.app.cached (calls.request call) = none)
    (others : ∀ service action, (∀ key, ¬LooksUp service key action) → allowed service action)
    (look : allowed (service.setPhase index call (.lookUp (calls.request call)))
      (.advance index moment))
    : ∃ after, machine.Reaches allowed after
      ∧ service.Served index call (calls.request call) after := by
  generalize request_eq : calls.request call = request at absent look ⊢
  have delivered : machine.Reaches allowed (service.setPhase index call (.lookUp request)) := by
    refine .step reached (others _ (.deliver index call none) fun key looks => looks) ?_
    simp only [steps, next, vacant, accept, authorized, unguarded,
      lawful.request, request_eq, if_true]
  have missed : machine.Reaches allowed (service.setPhase index call (.apply request)) := by
    refine .step delivered look ?_
    simp [steps, next, lookUp, absent]
  generalize outcome : (applyOp (backend moment) request.op).run service.app.store = result
  obtain ⟨reply, store⟩ := result
  obtain ⟨bytes, encoded⟩ := lawful.encodes reply
  have applied : machine.Reaches allowed
      { service.setPhase index call (.record request bytes) with
        app := { service.app with store }
        applied := service.applied ++ [⟨call, request.op, moment, reply⟩] } := by
    refine .step missed (others _ (.advance index moment) ?_) ?_
    · rintro key ⟨call', request', running, -⟩
      simp at running
    · simp [steps, next, apply, outcome, encoded]
  refine ⟨_, .step applied (others _ (.advance index moment) ?_)
    (by simp [steps, next]; rfl), ?_⟩
  · rintro key ⟨call', request', running, -⟩
    simp at running
  · exact {
      others := fun other ne => by simp [record, ne]
      answered := ⟨bytes, by simp [record], recordReply_idem rfl⟩
      applied := ⟨⟨call, request.op, moment, reply⟩, rfl, rfl⟩
      token := recordReply_token _
      dropped := rfl
    }

end

namespace ServiceSample

deriving instance Encodable for StorageOp, StorageReply, StorageRequest

/-- Every call appends the same row. -/
def calls : Calls Nat where
  op := fun _ => .append [1] [2] [3] [4]
  stamp := fun call => ⟨some 0, 1, call, call⟩
  distinct := fun _ _ same => (Stamp.mk.inj same).2.2.1

/-- The frame of the first call: its key, the variant of the op and four byte strings. -/
def frame : Bytes :=
  [1] ++ fixint 8 7 ++ [48, 45, 49, 45, 48, 45, 48] ++ fixint 4 3
    ++ fixint 8 1 ++ [1] ++ fixint 8 1 ++ [2] ++ fixint 8 1 ++ [3] ++ fixint 8 1 ++ [4]

def idFrame (id : UInt8) : Bytes := fixint 4 2 ++ fixint 8 id

def requests : List (StorageRequest × Bytes) := [(calls.request 0, frame)]

def replies : List (StorageReply × Bytes) := [(.id 1, idFrame 1), (.id 2, idFrame 2)]

def wire : Wire where
  encodeRequest := frameOf requests
  decodeRequest := readFrame requests
  encodeReply := fun reply => .ok (frameOf replies reply)
  decodeReply := readFrame replies

theorem wire_lawful : wire.Lawful where
  request := readFrame_frameOf (by decide +kernel) (by decide +kernel)
  encodes := fun _ => ⟨_, rfl⟩
  reply := by
    intro reply bytes encoded
    cases encoded
    exact readFrame_frameOf (by decide +kernel) (by decide +kernel) reply

abbrev machine : Machine (Service Sqlite.Tables Nat Int) (Action Nat Int) :=
  serviceMachine wire SqliteStorage calls Sqlite.Tables.empty none

/-- Two deliveries of one call that take turns. -/
def overlapping : List (Action Nat Int) :=
  [.deliver 0 0 none, .deliver 1 0 none, .advance 0 0, .advance 1 0, .advance 0 0,
    .advance 1 0, .advance 0 0, .advance 1 0]

theorem overlapping_applies_twice : (machine.exec (start Sqlite.Tables.empty none) overlapping).map
        (fun service => (service.applied, service.handlers 0, service.handlers 1))
      = some ([⟨0, calls.op 0, 0, .id 1⟩, ⟨0, calls.op 0, 0, .id 2⟩],
          some ⟨0, .answered (.ok (idFrame 1))⟩, some ⟨0, .answered (.ok (idFrame 2))⟩) := by
  decide +kernel

abbrev key (call : Nat) : String := idemKey (calls.stamp call)

theorem request_key (call) : (calls.request call).idempotencyKey = some (key call) :=
  rfl

theorem key_injective : Function.Injective key := by
  intro call other same
  exact (Stamp.mk.inj (idemKey_injective same)).2.2.1

/-- The first `count` calls were served one after the other, by handlers of their own. -/
structure Quiet (count : Nat) (service : Service Sqlite.Tables Nat Int) : Prop where
  vacant : ∀ index ≥ count, service.handlers index = none
  idle : ∀ key, ¬service.Busy key
  token : service.app.token = none

variable {service : Service Sqlite.Tables Nat Int} {count call : Nat}

/-- A delivery to a quiet service is looked up undisturbed. -/
theorem Quiet.undisturbed {request} (quiet : Quiet count service)
    : (service.setPhase count call (.lookUp request)).Undisturbed (.advance count 0) := by
  intro key _ busy
  obtain ⟨other, handler, running, holds⟩ := busy
  rcases setPhase_cases running with ⟨-, rfl⟩ | ⟨-, was⟩
  · exact holds
  · exact quiet.idle key ⟨other, handler, was, holds⟩

/-- A call whose key is not in the table is served next. -/
theorem Quiet.serve {allowed}
    (quiet : Quiet count service) (reached : machine.Reaches allowed service)
    (absent : key call ∉ service.app.idem)
    (others : ∀ service action, (∀ key, ¬LooksUp service key action) → allowed service action)
    (look : allowed (service.setPhase count call (.lookUp (calls.request call))) (.advance count 0))
    : ∃ after, machine.Reaches allowed after ∧ Quiet (count + 1) after
      ∧ service.Served count call (calls.request call) after := by
  have missing : service.app.cached (calls.request call) = none := lookup_eq_none.mpr absent
  obtain ⟨after, reaches, served⟩ := serve_reaches wire_lawful rfl reached
    (quiet.vacant count (le_refl _)) quiet.token missing others look
  refine ⟨after, reaches, ⟨?_, ?_, served.token.trans quiet.token⟩, served⟩
  · intro index le
    rw [served.others index (by omega)]
    exact quiet.vacant index (by omega)
  · intro key busy
    obtain ⟨other, handler, running, holds⟩ := busy
    by_cases same : other = count
    · subst same
      obtain ⟨bytes, answered, -⟩ := served.answered
      rw [answered] at running
      cases running
      exact holds
    · rw [served.others other same] at running
      exact quiet.idle key ⟨other, handler, running, holds⟩

theorem quiet_start : Quiet 0 (start Sqlite.Tables.empty none) where
  vacant := fun _ _ => rfl
  idle := by
    rintro key ⟨index, handler, running, -⟩
    cases running
  token := rfl

theorem undisturbed_of_never {action} (never : ∀ key, ¬service.LooksUp key action)
    : service.Undisturbed action :=
  fun key looks => absurd looks (never key)

/-- A table of the first replies has no other, and as many as there were calls. -/
theorem key_absent (keys : service.app.idem.keys = (Finset.range count).image key)
    : key count ∉ service.app.idem ∧ service.app.idem.keys.card = count := by
  constructor
  · rw [← mem_keys, keys, Finset.mem_image]
    rintro ⟨earlier, inRange, same⟩
    cases key_injective same
    exact Finset.notMem_range_self inRange
  · rw [keys, Finset.card_image_of_injective _ key_injective, Finset.card_range]

/-- The table holds one reply for each call while it is not full. -/
theorem fills (count) (within : count ≤ idemCap)
    : ∃ service, machine.Reaches Undisturbed service ∧ Quiet count service
      ∧ service.app.idem.keys = (Finset.range count).image key
      ∧ (0 < count → service.applications calls (key 0) ≠ []) := by
  induction count with
  | zero =>
    exact ⟨start Sqlite.Tables.empty none, .start rfl, quiet_start, rfl, by simp⟩
  | succ count ih =>
    obtain ⟨service, reached, quiet, keys, first⟩ := ih (by omega)
    obtain ⟨absent, card⟩ := key_absent keys
    obtain ⟨after, reaches, quiet', served⟩ := quiet.serve reached absent
      (fun _ _ => undisturbed_of_never) quiet.undisturbed
    have room : ¬service.app.idem.keys.card ≥ idemCap := by omega
    refine ⟨after, reaches, quiet', ?_, ?_⟩
    · obtain ⟨bytes, -, idem⟩ := served.answered
      rw [idem, recordReply, request_key]
      simp only [room, Finset.range_add_one, Finset.image_insert, ← keys]
      ext other
      simp [mem_keys]
    · intro _
      obtain ⟨application, made, applied⟩ := served.applied
      rw [applications_snoc applied, made, request_key]
      split
      · simp
      next other =>
        refine first (Nat.pos_of_ne_zero ?_)
        rintro rfl
        exact other rfl

/-- The late redelivery of a call, after the table was emptied for another one. -/
theorem late_applies_twice : ∃ service, machine.Reaches Undisturbed service
      ∧ 1 < (service.applications calls (key 0)).length := by
  obtain ⟨full, reached, quiet, keys, first⟩ := fills idemCap (le_refl _)
  obtain ⟨absent, card⟩ := key_absent keys
  have capped := card.ge
  have other : key 0 ≠ key idemCap := fun same => absurd (key_injective same) (by decide)
  obtain ⟨emptied, reached, quiet, served⟩ := quiet.serve reached absent
    (fun _ _ => undisturbed_of_never) quiet.undisturbed
  have forgotten : key 0 ∉ emptied.app.idem := by
    obtain ⟨bytes, -, idem⟩ := served.answered
    rw [idem, recordReply, request_key]
    simp [capped, other, notMem_empty]
  obtain ⟨after, reached, -, again⟩ := quiet.serve reached forgotten
    (fun _ _ => undisturbed_of_never) quiet.undisturbed
  refine ⟨after, reached, ?_⟩
  obtain ⟨application, made, applied⟩ := served.applied
  obtain ⟨second, made', applied'⟩ := again.applied
  rw [applications_snoc applied', made', request_key, if_pos rfl, applications_snoc applied,
    made, request_key, if_neg (fun same => other (some.inj same).symm)]
  have := List.length_pos_iff.mpr (first (by decide))
  simp only [List.length_append, List.length_singleton]
  omega

/-- A call that is served, and delivered again when the first handler is done. -/
theorem redelivered_reaches : ∃ service bytes, machine.Reaches Orderly service
      ∧ service.handlers 0 = some ⟨0, .answered (.ok bytes)⟩
      ∧ service.handlers 1 = some ⟨0, .answered (.ok bytes)⟩ := by
  have others : ∀ (service : Service Sqlite.Tables Nat Int) (action),
      (∀ key, ¬service.LooksUp key action) → service.Orderly action :=
    fun service action never =>
      ⟨undisturbed_of_never never, fun key looks => absurd looks (never key)⟩
  obtain ⟨served, reached, quiet, first⟩ := quiet_start.serve (.start rfl)
    (notMem_empty (a := key 0)) others
    ⟨quiet_start.undisturbed, fun _ _ => Finset.notMem_empty _⟩
  obtain ⟨bytes, answered, idem⟩ := first.answered
  have none_dropped : served.dropped = ∅ := by
    rw [first.dropped]
    rfl
  have cached : served.app.cached (calls.request 0) = some bytes := by
    rw [cached, request_key, idem, recordReply, request_key]
    exact lookup_insert _
  have delivered : machine.Reaches Orderly (served.setPhase 1 0 (.lookUp (calls.request 0))) := by
    refine .step reached (others _ (.deliver 1 0 none) fun key looks => looks) ?_
    simp only [serviceMachine, next, quiet.vacant 1 (le_refl _), accept,
      authorized, quiet.token, wire_lawful.request, if_true]
  have orderly : (served.setPhase 1 0 (.lookUp (calls.request 0))).Orderly (.advance 1 0) := by
    refine ⟨quiet.undisturbed, fun key _ => ?_⟩
    rw [setPhase, none_dropped]
    exact Finset.notMem_empty key
  have replayed : machine.Reaches Orderly (served.setPhase 1 0 (.answered (.ok bytes))) := by
    refine .step delivered orderly ?_
    simp [serviceMachine, next, lookUp, cached]
  exact ⟨_, bytes, replayed, by simp [answered], by simp⟩

end ServiceSample

open ServiceSample

/-- A served call that is delivered again gets the reply of its one application. -/
theorem service_applies_once_sample
    : ∃ service bytes, machine.Reaches Service.Orderly service
      ∧ service.handlers 0 = some ⟨0, .answered (.ok bytes)⟩
      ∧ service.handlers 1 = some ⟨0, .answered (.ok bytes)⟩
      ∧ (service.applications calls (key 0)).length ≤ 1 := by
  obtain ⟨service, bytes, reached, first, second⟩ := redelivered_reaches
  have once := service_applies_once wire_lawful reached
  exact ⟨service, bytes, reached, first, second, once.2.1 (key 0)⟩

/-- Two deliveries of one append that overlap append two rows and answer different ids. A
redelivery that overlaps with nothing appends a second row once the table was emptied.
-/
theorem service_applies_twice : (∃ service, machine.Reaches (fun _ _ => True) service
        ∧ (service.applications calls (key 0)).length = 2
        ∧ ∃ bytes bytes', bytes ≠ bytes'
          ∧ service.handlers 0 = some ⟨0, .answered (.ok bytes)⟩
          ∧ service.handlers 1 = some ⟨0, .answered (.ok bytes')⟩)
      ∧ ∃ service, machine.Reaches Service.Undisturbed service
        ∧ 1 < (service.applications calls (key 0)).length := by
  refine ⟨?_, late_applies_twice⟩
  obtain ⟨service, ends, seen⟩ := Option.map_eq_some_iff.mp overlapping_applies_twice
  simp only [Prod.mk.injEq] at seen
  obtain ⟨applied, first, second⟩ := seen
  refine ⟨service, ?_, ?_, _, _, by decide, first, second⟩
  · refine (Machine.Reaches.start rfl).exec ?_ ends
    exact Machine.meets_true _ _
  · simp [Service.applications, applied, request_key]

end Vgi.Storage
