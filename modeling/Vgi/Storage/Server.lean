import Mathlib.Data.Finmap
import Vgi.Lib.Machine
import Vgi.Storage.Client

/-! The storage service. Requests are handled concurrently: each handler looks its key up,
applies the operation and records the reply in steps of its own, and takes the lock of the
reply table anew for every step that needs it.
-/

namespace Vgi.Storage

open Lib

/-- Cap on the idempotency cache; cleared wholesale when exceeded. -/
def idemCap : Nat := 100000

structure AppState (σ : Type) where
  store : σ
  token : Option String
  idem : Finmap fun _ : String => Bytes

inductive Response where
  | ok (bytes : Bytes)
  | error (status : Nat) (message : String)
deriving DecidableEq

/-- The bearer token is asked for only when the service has one. -/
def AppState.authorized {σ : Type} (state : AppState σ) (authorization : Option String)
    : Bool :=
  match state.token with
  | none => true
  | some expected =>
    match authorization with
    | some header => header = "Bearer " ++ expected
    | none => false

/-- The part of a handler that comes before it touches the shared state. -/
def AppState.accept {σ : Type} (state : AppState σ) (wire : Wire)
    (authorization : Option String) (body : Bytes)
    : Except Response StorageRequest :=
  if state.authorized authorization then
    match wire.decodeRequest body with
    | .ok request => .ok request
    | .error e => .error (.error 400 s!"decode request: {e}")
  else
    .error (.error 401 "missing or invalid bearer token")

def AppState.cached {σ : Type} (state : AppState σ) (request : StorageRequest)
    : Option Bytes :=
  request.idempotencyKey.bind state.idem.lookup

/-- A full table is emptied before the reply goes in. -/
def AppState.recordReply {σ : Type} (state : AppState σ) (request : StorageRequest)
    (bytes : Bytes) : AppState σ :=
  match request.idempotencyKey with
  | none => state
  | some key =>
    let idem := if state.idem.keys.card ≥ idemCap then ∅ else state.idem
    { state with idem := idem.insert key bytes }

/-- Where a handler stands: what it does next, or what it answered. -/
inductive Phase where
  | lookUp (request : StorageRequest)
  | apply (request : StorageRequest)
  | record (request : StorageRequest) (bytes : Bytes)
  | answered (response : Response)
deriving DecidableEq

structure Handler (ι : Type) where
  call : ι
  phase : Phase
deriving DecidableEq

structure Application (ι Moment : Type) where
  call : ι
  op : StorageOp
  moment : Moment
  reply : StorageReply
deriving DecidableEq

/-- The service with its handlers. `applied` and `dropped` are observations: the applications
so far, and the keys whose replies were lost when the table was emptied.
-/
structure Service (σ ι Moment : Type) where
  app : AppState σ
  handlers : Nat → Option (Handler ι)
  applied : List (Application ι Moment)
  dropped : Finset String

/-- A delivery of a request starts a handler, and handlers take their steps in any order.
The moment of a step is what the store reads from its surroundings, such as the clock.
-/
inductive Action (ι Moment : Type) where
  | deliver (handler : Nat) (call : ι) (authorization : Option String)
  | advance (handler : Nat) (moment : Moment)
deriving DecidableEq

section

variable {σ ι Moment : Type} (service : Service σ ι Moment)

@[simp]
def Service.setPhase (handler : Nat) (call : ι) (phase : Phase) : Service σ ι Moment :=
  { service with handlers := Function.update service.handlers handler (some ⟨call, phase⟩) }

/-- The keys that recording a reply for `request` throws out. -/
def Service.evicts (request : StorageRequest) : Finset String :=
  match request.idempotencyKey with
  | none => ∅
  | some _ => if service.app.idem.keys.card ≥ idemCap then service.app.idem.keys else ∅

def Service.lookUp (handler : Nat) (call : ι) (request : StorageRequest) : Service σ ι Moment :=
  match service.app.cached request with
  | some bytes => service.setPhase handler call (.answered (.ok bytes))
  | none => service.setPhase handler call (.apply request)

def Service.apply (wire : Wire) (backend : Moment → FunctionStorage σ)
    (service : Service σ ι Moment) (handler : Nat) (call : ι) (request : StorageRequest)
    (moment : Moment) : Service σ ι Moment :=
  let (reply, store) := (applyOp (backend moment) request.op).run service.app.store
  let phase := match wire.encodeReply reply with
    | .ok bytes => .record request bytes
    | .error e => .answered (.error 500 s!"encode reply: {e}")
  { service.setPhase handler call phase with
    app := { service.app with store }
    applied := service.applied ++ [⟨call, request.op, moment, reply⟩] }

def Service.record (handler : Nat) (call : ι) (request : StorageRequest) (bytes : Bytes)
    : Service σ ι Moment :=
  { service.setPhase handler call (.answered (.ok bytes)) with
    app := service.app.recordReply request bytes
    dropped := service.dropped ∪ service.evicts request }

/-- The steps of the service under the client operations `calls`. -/
def Service.next (wire : Wire) (backend : Moment → FunctionStorage σ) (calls : Calls ι)
    (service : Service σ ι Moment) : Action ι Moment → Option (Service σ ι Moment)
  | .deliver handler call authorization =>
    match service.handlers handler with
    | some _ => none
    | none =>
      match service.app.accept wire authorization
          (wire.encodeRequest (calls.request call)) with
      | .ok request => some (service.setPhase handler call (.lookUp request))
      | .error response => some (service.setPhase handler call (.answered response))
  | .advance handler moment =>
    match service.handlers handler with
    | none => none
    | some ⟨call, phase⟩ =>
      match phase with
      | .lookUp request => some (service.lookUp handler call request)
      | .apply request => some (service.apply wire backend handler call request moment)
      | .record request bytes => some (service.record handler call request bytes)
      | .answered _ => none

/-- The service starts on a store with no reply kept and no handler running. -/
def Service.start (store : σ) (token : Option String) : Service σ ι Moment where
  app := { store, token, idem := ∅ }
  handlers := fun _ => none
  applied := []
  dropped := ∅

/-- The storage service over a given store, token and set of client operations. -/
def serviceMachine (wire : Wire) (backend : Moment → FunctionStorage σ) (calls : Calls ι)
    (store : σ) (token : Option String)
    : Machine (Service σ ι Moment) (Action ι Moment) where
  initial := fun service => service = Service.start store token
  next := Service.next wire backend calls

end

end Vgi.Storage
