import Vgi.Lib.Separator
import Vgi.Storage.Backend

/-! The client of the storage service: how a call makes its request, and the loop that sends
it again after a transport failure.
-/

namespace Vgi.Storage

open Lib

/-- Owner of the store: the uid on unix, a fixed word elsewhere. -/
def processUid : Option Nat → String
  | some uid => toString uid
  | none => "user"

/-- What a call stamps its key with: the owner, the process, the client's counter and the
clock.
-/
structure Stamp where
  uid : Option Nat
  pid : Nat
  seq : Nat
  nanos : Nat
deriving DecidableEq

/-- A per-call idempotency key, stable across retries of the same logical op. -/
def idemKey (stamp : Stamp) : String :=
  processUid stamp.uid ++ "-" ++ toString stamp.pid ++ "-" ++ toString stamp.seq
    ++ "-" ++ toString stamp.nanos

theorem dash_notMem_toString (n : Nat) : '-' ∉ (toString n).toList := by
  intro member
  exact absurd (isDigit_of_mem_nat member) (by decide)

theorem dash_notMem_processUid (uid) : '-' ∉ (processUid uid).toList := by
  cases uid with
  | none => decide
  | some uid => exact dash_notMem_toString uid

theorem processUid_injective {uid other}
    (same : (processUid uid).toList = (processUid other).toList)
    : uid = other := by
  have word (n : Nat) : (toString n).toList ≠ "user".toList := by
    intro same
    have member : 'u' ∈ (toString n).toList := by
      rw [same]
      decide
    exact absurd (isDigit_of_mem_nat member) (by decide)
  cases uid with
  | none =>
    cases other with
    | none => rfl
    | some n => exact absurd same.symm (word n)
  | some m =>
    cases other with
    | none => exact absurd same (word m)
    | some n => rw [toString_nat_inj same]

/-- Two calls with the same key were stamped alike: none of the four parts holds the dash
between them.
-/
theorem idemKey_injective {stamp other} (same : idemKey stamp = idemKey other) : stamp = other := by
  have chars := congrArg String.toList same
  simp only [idemKey, String.toList_append, List.append_assoc] at chars
  obtain ⟨uid, chars⟩ := joined_inj (dash_notMem_processUid _) (dash_notMem_processUid _) chars
  obtain ⟨pid, chars⟩ := joined_inj (dash_notMem_toString _) (dash_notMem_toString _) chars
  obtain ⟨seq, nanos⟩ := joined_inj (dash_notMem_toString _) (dash_notMem_toString _) chars
  cases stamp
  cases other
  simp only [Stamp.mk.injEq]
  exact ⟨processUid_injective uid, toString_nat_inj pid, toString_nat_inj seq,
    toString_nat_inj nanos⟩

/-- The flag each client method passes for its op. -/
def idempotent : StorageOp → Bool
  | .append .. | .queuePush .. | .queuePop .. => false
  | _ => true

/-- The request of a call, made once and sent as it is on every attempt. -/
def requestOf (stamp : Stamp) (op : StorageOp) : StorageRequest where
  idempotencyKey := if idempotent op then none else some (idemKey stamp)
  op := op

/-- The client operations of a run, of any number of clients and processes. No two calls that
need a key read the same counter, in the same process, at the same instant.
-/
structure Calls (ι : Type) where
  op : ι → StorageOp
  stamp : ι → Stamp
  distinct : ∀ {call other}, idempotent (op call) = false → idempotent (op other) = false →
    stamp call = stamp other → call = other

def Calls.request {ι : Type} (calls : Calls ι) (call : ι) : StorageRequest :=
  requestOf (calls.stamp call) (calls.op call)

/-- A key belongs to one call. -/
theorem Calls.eq_of_key {ι : Type} {calls : Calls ι} {call other key}
    (mine : (calls.request call).idempotencyKey = some key)
    (theirs : (calls.request other).idempotencyKey = some key)
    : call = other := by
  simp only [Calls.request, requestOf] at mine theirs
  split at mine
  · cases mine
  · split at theirs
    · cases theirs
    next keyed otherKeyed =>
      have same : idemKey (calls.stamp call) = idemKey (calls.stamp other) := by
        rw [Option.some.inj mine, Option.some.inj theirs]
      exact calls.distinct (by simpa using keyed) (by simpa using otherKeyed)
        (idemKey_injective same)

/-- Number of attempts before the client gives up (and panics). -/
def maxAttempts : Nat := 5

/-- What one attempt comes to. -/
inductive Attempt where
  | body (bytes : Bytes)
  | readFailed (error : String)
  | status (code : Nat)
  | transport (error : String)
deriving DecidableEq

def callFrom (wire : Wire) (endpoint : String) (attempts : Nat → Attempt)
    : Nat → Nat → String → Except String StorageReply
  | 0, _, lastErr =>
    .error s!"vgi storage: {endpoint} unreachable after {maxAttempts} attempts: {lastErr}"
  | left + 1, attempt, _ =>
    match attempts attempt with
    | .body buf =>
      match wire.decodeReply buf with
      | .ok reply => .ok reply
      | .error e => callFrom wire endpoint attempts left (attempt + 1) s!"decode reply: {e}"
    | .readFailed e => callFrom wire endpoint attempts left (attempt + 1) s!"read body: {e}"
    | .status code => .error s!"vgi storage server returned HTTP {code}"
    | .transport e => callFrom wire endpoint attempts left (attempt + 1) s!"transport: {e}"

/-- Sends a request, retrying transient failures. An error is a panic of the client. -/
def call (wire : Wire) (endpoint : String) (attempts : Nat → Attempt)
    : Except String StorageReply :=
  callFrom wire endpoint attempts maxAttempts 0 ""

/-- The reply a call returns is one that the service sent. -/
theorem callFrom_eq_ok {wire endpoint attempts left attempt lastErr reply}
    (returns : callFrom wire endpoint attempts left attempt lastErr = .ok reply)
    : ∃ at' bytes, attempts at' = .body bytes ∧ wire.decodeReply bytes = .ok reply := by
  induction left generalizing attempt lastErr with
  | zero => cases returns
  | succ left ih =>
    simp only [callFrom] at returns
    split at returns
    next buf sent =>
      split at returns
      next decoded =>
        cases returns
        exact ⟨attempt, buf, sent, decoded⟩
      · exact ih returns
    · exact ih returns
    · cases returns
    · exact ih returns

end Vgi.Storage
