import Mathlib.Order.Nat
import Vgi.Rpc

/-! The client's retry policy: how a failed call is classified, how long the client waits
before the next attempt, and when it gives up. Times are in nanoseconds.
-/

namespace Vgi.Client

/-- What one HTTP status means for whether the call can be tried again. -/
inductive StatusClass where
  | success
  | throttled
  | transient
  | fatal
deriving DecidableEq

def StatusClass.isRetryable : StatusClass → Bool
  | .throttled | .transient => true
  | .success | .fatal => false

def classifyStatus (status : Nat) : StatusClass :=
  if 200 ≤ status ∧ status ≤ 299 then .success
  else if status = 429 then .throttled
  else if 502 ≤ status ∧ status ≤ 504 then .transient
  else .fatal

/-- The text after the first place where the pattern stands. -/
def afterFirst (pattern : List Char) : List Char → Option (List Char)
  | [] => if pattern = [] then some [] else none
  | c :: rest =>
    if pattern.isPrefixOf (c :: rest) then some ((c :: rest).drop pattern.length)
    else afterFirst pattern rest

/-- Pulls an HTTP status out of a transport error message. A second "HTTP " further on ends
the run of digits like any other letter.
-/
def statusInMessage (message : String) : Option Nat := do
  let rest ← afterFirst "HTTP ".toList message.toList
  let digits := rest.takeWhile Char.isDigit
  if digits.length ≠ 3 then none
  else some (digits.foldl (fun n c => 10 * n + (c.toNat - '0'.toNat)) 0)

def second : Nat := 10 ^ 9

/-- Best-effort classification of a failed call, with the wait its server asked for. -/
def classifyError (err : RpcError) : StatusClass × Option Nat :=
  let after := err.retryAfterSeconds.map (· * second)
  if err.kind = .authUnavailable then (.transient, after)
  else
    match statusInMessage err.message with
    | some status =>
      if (classifyStatus status).isRetryable then (classifyStatus status, after)
      else (.fatal, none)
    | none => (.fatal, none)

/-- The longest duration there is; sums and products stop at it. -/
def Duration.max : Nat := (2 ^ 64 - 1) * second + (second - 1)

def saturatingAdd (a b : Nat) : Nat := min (a + b) Duration.max

def saturatingMul (a b : Nat) : Nat := min (a * b) Duration.max

structure RetryPolicy where
  maxAttempts : Nat
  maxElapsed : Nat
  baseDelay : Nat
  maxDelay : Nat
deriving DecidableEq

def RetryPolicy.default : RetryPolicy where
  maxAttempts := 5
  maxElapsed := 60 * second
  baseDelay := second / 5
  maxDelay := 5 * second

inductive StopReason where
  | notRetryable
  | attemptsExhausted
  | deadlineExceeded
deriving DecidableEq

inductive RetryDecision where
  | retry (delay : Nat)
  | stop (reason : StopReason)
deriving DecidableEq

/-- The backoff window for the `attempt`-th failure, before jitter. -/
def RetryPolicy.window (policy : RetryPolicy) (attempt : Nat) : Nat :=
  min (saturatingMul policy.baseDelay (2 ^ min (attempt - 1) 16)) policy.maxDelay

/-- A jitter fraction in [0, 1), as the number of its 53-bit steps. -/
abbrev Jitter := Fin (2 ^ 53)

/-- The sleep after the `attempt`-th failure: the server's floor and a share of the window. -/
def RetryPolicy.delay (policy : RetryPolicy) (attempt : Nat) (retryAfter : Option Nat)
    (jitter : Jitter) : Nat :=
  saturatingAdd (retryAfter.getD 0) (policy.window attempt * jitter / 2 ^ 53)

/-- Decides what to do after an attempt that ended in `status`. The budget is checked before
the sleep.
-/
def RetryPolicy.decide (policy : RetryPolicy) (status : StatusClass) (attempt elapsed : Nat)
    (retryAfter : Option Nat) (jitter : Jitter) : RetryDecision :=
  if ¬status.isRetryable then .stop .notRetryable
  else if attempt ≥ policy.maxAttempts then .stop .attemptsExhausted
  else
    let delay := policy.delay attempt retryAfter jitter
    if saturatingAdd elapsed delay ≥ policy.maxElapsed then .stop .deadlineExceeded
    else .retry delay

/-- A duration as seconds with one digit after the point. -/
def tenths (duration : Nat) : String :=
  let rounded := (duration + second / 20) / (second / 10)
  s!"{rounded / 10}.{rounded % 10}"

def StopReason.why : StopReason → String
  | .attemptsExhausted => "attempt cap reached"
  | .deadlineExceeded => "retry budget exhausted"
  | .notRetryable => "not retryable"

/-- The error a breached cap produces. `shown` is how the last failure prints. -/
def gaveUp (endpoint : String) (attempts elapsed : Nat) (reason : StopReason) (shown : String)
    : RpcError where
  kind := .transportError
  message := s!"{endpoint}: giving up after {attempts} attempt(s) over {tenths elapsed}s "
    ++ s!"({reason.why}); last failure: {shown}"

section

variable {σ α : Type} (policy : RetryPolicy) (endpoint : String) (shown : RpcError → String)

/-- What the clock and the jitter source give after an attempt. -/
structure Draw where
  elapsed : Nat
  jitter : Jitter

/-- The loop from a given number of attempts made. It answers with the result and with how
often it called the operation. `op n` is the `n`-th call.
-/
def RetryPolicy.runFrom (draws : Nat → Draw) (op : Nat → StateM σ (Result α))
    : Nat → Nat → StateM σ (Result α × Nat)
  | 0, made => return (.error (gaveUp endpoint made 0 .attemptsExhausted ""), made)
  | left + 1, made => do
    let attempt := made + 1
    match ← op attempt with
    | .ok v => return (.ok v, attempt)
    | .error err =>
      let (status, retryAfter) := classifyError err
      let draw := draws attempt
      match policy.decide status attempt draw.elapsed retryAfter draw.jitter with
      | .retry _ => RetryPolicy.runFrom draws op left attempt
      | .stop .notRetryable => return (.error err, attempt)
      | .stop reason =>
        return (.error (gaveUp endpoint attempt draw.elapsed reason (shown err)), attempt)

/-- Runs `op` under the policy. One attempt is always made, and the attempt cap bounds the
loop.
-/
def RetryPolicy.run (draws : Nat → Draw) (op : Nat → StateM σ (Result α))
    : StateM σ (Result α × Nat) :=
  policy.runFrom endpoint shown draws op (max 1 policy.maxAttempts) 0

/-- Whether a unary method may be sent twice. -/
def methodIsRetryable (method : String) : Bool :=
  method ∈ ["bind", "table_function_plan", "catalog_catalogs", "catalog_version",
    "catalog_contents"]
  ∨ "catalog_schema".toList.isPrefixOf method.toList
  ∨ "catalog_table_".toList.isPrefixOf method.toList

/-- `RetryTransport::call_unary`, over the calls of the inner transport. -/
def callUnary (method : String) (draws : Nat → Draw) (inner : Nat → StateM σ (Result α))
    : StateM σ (Result α × Nat) :=
  if methodIsRetryable method then policy.run method shown draws inner
  else do
    let answer ← inner 1
    return (answer, 1)

end

section

variable {σ α : Type} {policy : RetryPolicy} {endpoint : String} {shown : RpcError → String}
  {draws : Nat → Draw} {op : Nat → StateM σ (Result α)}

theorem decide_retry {status attempt elapsed retryAfter jitter delay}
    (retries : policy.decide status attempt elapsed retryAfter jitter = .retry delay)
    : status.isRetryable ∧ attempt < policy.maxAttempts
      ∧ saturatingAdd elapsed delay < policy.maxElapsed := by
  unfold RetryPolicy.decide at retries
  simp only at retries
  repeat' split at retries
  all_goals cases retries
  next retryable within budget => exact ⟨by simpa using retryable, by omega, by omega⟩

/-- What the loop does with the outcome of one attempt. -/
theorem runFrom_succ (left made before)
    : (policy.runFrom endpoint shown draws op (left + 1) made).run before
      = match (op (made + 1)).run before with
        | (.ok v, after) => ((.ok v, made + 1), after)
        | (.error err, after) =>
          match policy.decide (classifyError err).1 (made + 1) (draws (made + 1)).elapsed
              (classifyError err).2 (draws (made + 1)).jitter with
          | .retry _ => (policy.runFrom endpoint shown draws op left (made + 1)).run after
          | .stop .notRetryable => ((.error err, made + 1), after)
          | .stop reason =>
            ((.error (gaveUp endpoint (made + 1) (draws (made + 1)).elapsed reason
              (shown err)), made + 1), after) := by
  simp only [RetryPolicy.runFrom, StateT.run_bind]
  generalize (op (made + 1)).run before = outcome
  obtain ⟨result, after⟩ := outcome
  cases result with
  | ok v => rfl
  | error err =>
    simp only [bind]
    generalize policy.decide _ _ _ _ _ = decision
    cases decision with
    | retry delay => rfl
    | stop reason => cases reason <;> rfl

/-- Every round of the loop sends. -/
theorem runFrom_sends (left made before)
    : made + min left 1 ≤ ((policy.runFrom endpoint shown draws op left made).run before).1.2 := by
  induction left generalizing made before with
  | zero => exact Nat.le_refl made
  | succ left ih =>
    rw [runFrom_succ]
    generalize (op (made + 1)).run before = outcome
    obtain ⟨result, after⟩ := outcome
    cases result with
    | ok v => simp
    | error err =>
      simp only
      generalize policy.decide _ _ _ _ _ = decision
      cases decision with
      | retry delay =>
        have rest := ih (made + 1) after
        simp only
        omega
      | stop reason => cases reason <;> simp

end

end Vgi.Client
