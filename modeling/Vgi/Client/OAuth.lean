import Vgi.Lib.Machine
import Vgi.Rpc

/-! The shared OAuth state of one attached catalog. Every section under the lock is a step, and so
is every answer of the identity provider, with the lock released; calls may interleave between
any two of them.
-/

namespace Vgi.Client

open Lib

/-- A time of the monotonic clock, in seconds. -/
abbrev Instant := Nat

/-- Refresh this far before a token expires. -/
def skew : Nat := 45

structure TokenSet where
  accessToken : String
  idToken : Option String
  refreshToken : Option String
  expiresAt : Option Instant
  useIdToken : Bool
deriving DecidableEq

namespace TokenSet

def bearer (tokens : TokenSet) : String :=
  if tokens.useIdToken then tokens.idToken.getD tokens.accessToken else tokens.accessToken

def isValidAt (tokens : TokenSet) (now : Instant) (skew : Nat) : Bool :=
  match tokens.expiresAt with
  | none => true
  | some expiry => now + skew < expiry

end TokenSet

inductive Phase where
  | idle
  | inProgress
  | complete
  | failed
deriving DecidableEq

/-- Tokens with the exchange they come from, which the code does not keep: the call that led it,
and how often `clear` had been called when it began.
-/
structure Held where
  tokens : TokenSet
  leader : Nat
  began : Nat
deriving DecidableEq

/-- Where a call of `handle_unauthorized` stands. -/
inductive AuthStage (Endpoints : Type) where
  | arriving
  | waiting
  /-- Leads an exchange, about to read what `acquire` starts from. -/
  | reading
  | discovering (seeded : Option String)
  | storing (seeded : Option String) (endpoints : Endpoints)
  | refreshing (seeded : String) (endpoints : Endpoints)
  /-- The refresh token is dead. -/
  | dropping (endpoints : Endpoints)
  | polling (endpoints : Endpoints)
  | publishing (outcome : Result TokenSet)
  | returned (outcome : Result Held)
deriving DecidableEq

/-- The call leads an exchange that is in progress. -/
def AuthStage.leads {Endpoints : Type} : AuthStage Endpoints → Bool
  | .arriving | .waiting | .returned _ => false
  | _ => true

structure AuthCall (Challenge Endpoints : Type) where
  challenge : Option Challenge
  stage : AuthStage Endpoints
  /-- How often `clear` had been called when the call arrived. -/
  arrived : Nat
  /-- How often it had been called when the call became the leader. -/
  began : Nat
deriving DecidableEq

structure AuthState (Challenge Endpoints : Type) where
  phase : Phase
  tokens : Option Held
  refreshToken : Option String
  endpoints : Option Endpoints
  error : Option RpcError
  calls : List (AuthCall Challenge Endpoints)
  /-- How often `clear` was called. -/
  cleared : Nat
  /-- What `bearer_token` returned, with the number of `clear` calls before it. -/
  presented : List (Nat × Held)
deriving DecidableEq

inductive AuthEvent (Endpoints : Type) where
  | enter (now : Instant)
  | wake (timedOut : Bool) (now : Instant)
  | read
  | discover (result : Result Endpoints)
  | store
  | refresh (result : Result TokenSet)
  | dropRefresh
  | deviceCodeFlow (result : Result TokenSet)
  | publish
deriving DecidableEq

inductive AuthAction (Challenge Endpoints : Type) where
  | handleUnauthorized (challenge : Option Challenge)
  | step (index : Nat) (event : AuthEvent Endpoints)
  | bearerToken (now : Instant)
  | clear
deriving DecidableEq

namespace AuthState

variable {Challenge Endpoints : Type} (state : AuthState Challenge Endpoints)

def setCall (index : Nat) (call : AuthCall Challenge Endpoints) : AuthState Challenge Endpoints :=
  { state with calls := state.calls.set index call }

def arrive (challenge : Option Challenge) : AuthState Challenge Endpoints :=
  { state with calls := state.calls ++ [⟨challenge, .arriving, state.cleared, 0⟩] }

/-- `bearer_token` returns the tokens. -/
def present (held : Held) : AuthState Challenge Endpoints :=
  { state with presented := (state.cleared, held) :: state.presented }

def validTokens (now : Instant) : Option Held := state.tokens.filter (·.tokens.isValidAt now skew)

def lead (index : Nat) (call : AuthCall Challenge Endpoints) : AuthState Challenge Endpoints :=
  { state with phase := .inProgress }.setCall index
    { call with stage := .reading, began := state.cleared }

/-- The body of the loop in `handle_unauthorized`, under the lock, up to the next wait. -/
def look (index : Nat) (call : AuthCall Challenge Endpoints) (now : Instant)
    : AuthState Challenge Endpoints :=
  match state.phase with
  | .inProgress => state.setCall index { call with stage := .waiting }
  | .complete =>
    match state.validTokens now with
    | some held => state.setCall index { call with stage := .returned (.ok held) }
    | none => state.lead index call
  | .idle | .failed => state.lead index call

/-- What follows once the endpoints are known. -/
def exchange (seeded : Option String) (endpoints : Endpoints) : AuthStage Endpoints :=
  match seeded with
  | some token => .refreshing token endpoints
  | none => .polling endpoints

def publish (index : Nat) (call : AuthCall Challenge Endpoints)
    : Result TokenSet → AuthState Challenge Endpoints
  | .ok tokens =>
    let held : Held := ⟨tokens, index, call.began⟩
    { state with
      refreshToken := tokens.refreshToken <|> state.refreshToken
      tokens := some held
      phase := .complete
      error := none }.setCall index { call with stage := .returned (.ok held) }
  | .error failure =>
    { state with phase := .failed, error := some failure }.setCall index
      { call with stage := .returned (.error failure) }

def clear : AuthState Challenge Endpoints :=
  { state with
    phase := .idle
    tokens := none
    refreshToken := none
    error := none
    cleared := state.cleared + 1 }

def noChallenge : RpcError :=
  authError ("no OAuth challenge and no cached endpoints — the server did not advertise "
    ++ "WWW-Authenticate, so there is nothing to discover. Seed a refresh token or supply a bearer "
    ++ "token.")

def waitTimedOut : RpcError :=
  authError "timed out waiting for another thread to finish authenticating"

/-- One step of a call; `invalidGrant` says whether an error is about a dead refresh token. -/
def move (invalidGrant : RpcError → Bool) (state : AuthState Challenge Endpoints) (index : Nat)
    (call : AuthCall Challenge Endpoints) (event : AuthEvent Endpoints)
    : Option (AuthState Challenge Endpoints) :=
  match event, call.stage with
  | .enter now, .arriving => some (state.look index call now)
  | .wake timedOut now, .waiting =>
    if timedOut ∧ state.phase = .inProgress then
      some (state.setCall index { call with stage := .returned (.error waitTimedOut) })
    else some (state.look index call now)
  | .read, .reading =>
    match state.endpoints, call.challenge with
    | some endpoints, _ =>
      some (state.setCall index { call with stage := exchange state.refreshToken endpoints })
    | none, some _ =>
      some (state.setCall index { call with stage := .discovering state.refreshToken })
    | none, none =>
      some (state.setCall index { call with stage := .publishing (.error noChallenge) })
  | .discover (.ok endpoints), .discovering seeded =>
    some (state.setCall index { call with stage := .storing seeded endpoints })
  | .discover (.error failure), .discovering _ =>
    some (state.setCall index { call with stage := .publishing (.error failure) })
  | .store, .storing seeded endpoints =>
    some ({ state with endpoints := some endpoints }.setCall index
      { call with stage := exchange seeded endpoints })
  | .refresh (.ok tokens), .refreshing _ _ =>
    some (state.setCall index { call with stage := .publishing (.ok tokens) })
  | .refresh (.error failure), .refreshing _ endpoints =>
    if invalidGrant failure then
      some (state.setCall index { call with stage := .dropping endpoints })
    else some (state.setCall index { call with stage := .publishing (.error failure) })
  | .dropRefresh, .dropping endpoints =>
    some ({ state with refreshToken := none }.setCall index
      { call with stage := .polling endpoints })
  | .deviceCodeFlow result, .polling _ =>
    some (state.setCall index { call with stage := .publishing result })
  | .publish, .publishing outcome => some (state.publish index call outcome)
  | _, _ => none

def next (invalidGrant : RpcError → Bool) (state : AuthState Challenge Endpoints)
    : AuthAction Challenge Endpoints → Option (AuthState Challenge Endpoints)
  | .handleUnauthorized challenge => some (state.arrive challenge)
  | .step index event =>
    state.calls[index]?.bind fun call => state.move invalidGrant index call event
  | .bearerToken now =>
    match state.validTokens now with
    | some held => some (state.present held)
    | none => some state
  | .clear => some state.clear

end AuthState

/-- One `OAuthAuth`, perhaps with a refresh token to start with. -/
def oauthMachine (Challenge Endpoints : Type) (invalidGrant : RpcError → Bool)
    : Machine (AuthState Challenge Endpoints) (AuthAction Challenge Endpoints) where
  initial state := ∃ refreshToken, state = ⟨.idle, none, refreshToken, none, none, [], 0, []⟩
  next := AuthState.next invalidGrant

end Vgi.Client
