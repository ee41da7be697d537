import Vgi.Client.OAuthIdentity

/-! Requests that present the credential of an `OAuthAuth`. A request that is refused is run again
with the credential that was recovered, while others go on using the same `OAuthAuth`.
-/

namespace Vgi.Client

open Lib Option

structure HttpError where
  authReason : Option String
  errorType : String
deriving DecidableEq

/-- A 401, in either of its two representations. -/
def HttpError.isUnauthorized (error : HttpError) : Bool :=
  error.authReason.isSome || error.errorType = "AuthenticationError"

/-- What a call of `with_retry` has done. -/
inductive RetryEntry (α : Type) where
  /-- The operation was run by a client with this Authorization header. -/
  | ran (header : Option String) (answer : Except HttpError α)
  | asked (index : Nat)
  | recovered (outcome : Result Held)
deriving DecidableEq

inductive RetryStage where
  | first
  | refused
  | recovering (index : Nat)
  | again (held : Held)
  | ended
deriving DecidableEq

def authorization (token : String) : String := "Bearer " ++ token

structure AuthenticatedHttpTransport (Challenge Endpoints α : Type) where
  auth : AuthState Challenge Endpoints
  /-- The header of the client that is at hand. -/
  client : Option (Option String)
  builtWith : Option String
  stage : RetryStage
  log : List (RetryEntry α)
deriving DecidableEq

inductive RetryAction (Challenge Endpoints α : Type) where
  | call
  /-- `ensure_client`, where building a client may fail, and the operation with its answer. -/
  | run (now : Instant) (builds : Bool) (answer : Except HttpError α)
  /-- The challenge is fetched, and `handle_unauthorized` called. -/
  | recover (challenge : Option Challenge)
  | resume
  /-- A step of `handle_unauthorized`, or anybody's use of the `OAuthAuth`. -/
  | shared (action : AuthAction Challenge Endpoints)
deriving DecidableEq

variable {Challenge Endpoints α : Type} {invalidGrant : RpcError → Bool}

namespace AuthenticatedHttpTransport

variable (transport : AuthenticatedHttpTransport Challenge Endpoints α)

/-- Rebuilds the client if the credential has changed since it was made. -/
def ensureClient (now : Instant)
    (builds : Bool) : Option (AuthenticatedHttpTransport Challenge Endpoints α) :=
  let token := transport.auth.bearerToken now
  if transport.client.isNone ∨ transport.builtWith ≠ token then
    if builds then
      some { transport with client := some (token.map authorization), builtWith := token }
    else none
  else some transport

def run (now : Instant)
    (builds : Bool) (answer : Except HttpError α)
    : AuthenticatedHttpTransport Challenge Endpoints α :=
  match transport.ensureClient now builds with
  | none => { transport with stage := .ended }
  | some built =>
    let stage : RetryStage :=
      match transport.stage, answer with
      | .first, .error error => if error.isUnauthorized then .refused else .ended
      | _, _ => .ended
    { built with stage, log := built.log ++ [.ran (built.client.getD none) answer] }

/-- One step of `with_retry`, or of the `OAuthAuth` beside it. -/
def next (invalidGrant : RpcError → Bool)
    (transport : AuthenticatedHttpTransport Challenge Endpoints α)
    : RetryAction Challenge Endpoints α → Option (AuthenticatedHttpTransport Challenge Endpoints α)
  | .call =>
    if transport.stage = .ended then some { transport with stage := .first, log := [] } else none
  | .run now builds answer =>
    match transport.stage with
    | .first | .again _ => some (transport.run now builds answer)
    | _ => none
  | .recover challenge =>
    match transport.stage with
    | .refused =>
      let index := transport.auth.calls.length
      some { transport with
        auth := transport.auth.arrive challenge
        stage := .recovering index
        log := transport.log ++ [.asked index] }
    | _ => none
  | .resume =>
    match transport.stage with
    | .recovering index =>
      match transport.auth.calls[index]?.map AuthCall.stage with
      | some (.returned (.ok held)) =>
        some { transport with
          stage := .again held
          builtWith := none
          log := transport.log ++ [.recovered (.ok held)] }
      | some (.returned (.error failure)) =>
        some { transport with
          stage := .ended
          log := transport.log ++ [.recovered (.error failure)] }
      | _ => none
    | _ => none
  | .shared action =>
    (transport.auth.next invalidGrant action).map fun auth => { transport with auth }

end AuthenticatedHttpTransport

/-- A new transport with an `OAuthAuth` in any state. -/
def httpMachine (Challenge Endpoints α : Type) (invalidGrant : RpcError → Bool)
    : Machine (AuthenticatedHttpTransport Challenge Endpoints α)
      (RetryAction Challenge Endpoints α) where
  initial transport := ∃ auth, transport = ⟨auth, none, none, .ended, []⟩
  next := AuthenticatedHttpTransport.next invalidGrant

/-- At most two runs and one recovery; the second run comes after a 401 whose recovery succeeded,
and, if `carried` is asked for, carries what was recovered.
-/
def Retried (carried : Bool) : List (RetryEntry α) → Prop
  | [] | [.ran _ _] => True
  | [.ran _ (.error error), .asked _] | [.ran _ (.error error), .asked _, .recovered _] =>
    error.isUnauthorized = true
  | [.ran _ (.error error), .asked _, .recovered (.ok held), .ran header _] =>
    error.isUnauthorized = true
      ∧ (carried = true → header = some (authorization held.tokens.bearer))
  | _ => False

namespace AuthenticatedHttpTransport

variable {transport after : AuthenticatedHttpTransport Challenge Endpoints α}

/-- The tokens that are usable now have the recovered credential, or there are none and the client
at hand was built with it.
-/
def Presents (transport : AuthenticatedHttpTransport Challenge Endpoints α) (held : Held)
    (now : Instant) : Prop :=
  match transport.auth.validTokens now with
  | some other => other.tokens.bearer = held.tokens.bearer
  | none => transport.client = some (some (authorization held.tokens.bearer))

/-- What has been done at each stage. -/
def Stands (log : List (RetryEntry α)) (builtWith : Option String) : RetryStage → Prop
  | .first => log = []
  | .refused => ∃ header error, error.isUnauthorized = true ∧ log = [.ran header (.error error)]
  | .recovering index => ∃ header error, error.isUnauthorized = true
      ∧ log = [.ran header (.error error), .asked index]
  | .again held => (∃ header error index, error.isUnauthorized = true
      ∧ log = [.ran header (.error error), .asked index, .recovered (.ok held)])
      ∧ builtWith = none
  | .ended => Retried false log

structure Sound (transport : AuthenticatedHttpTransport Challenge Endpoints α) : Prop where
  stands : Stands transport.log transport.builtWith transport.stage
  /-- The client is there once the operation has been run. -/
  built : transport.log ≠ [] → transport.client.isSome

theorem Stands.retried {log : List (RetryEntry α)} {builtWith stage}
    (stands : Stands log builtWith stage) : Retried false log := by
  cases stage with
  | first =>
    cases stands
    trivial
  | refused =>
    obtain ⟨_, _, _, rfl⟩ := stands
    trivial
  | recovering index =>
    obtain ⟨_, _, unauthorized, rfl⟩ := stands
    exact unauthorized
  | again held =>
    obtain ⟨⟨_, _, _, unauthorized, rfl⟩, _⟩ := stands
    exact unauthorized
  | ended => exact stands

theorem ensureClient_eq_some {now builds} (built : transport.ensureClient now builds = some after)
    : after.client.isSome ∧ after.log = transport.log := by
  simp only [ensureClient] at built
  split at built
  · obtain ⟨_, made⟩ := ite_none_right_eq_some.mp built
    cases made
    exact ⟨rfl, rfl⟩
  next same =>
    cases built
    rw [not_or, isNone_iff_eq_none] at same
    exact ⟨isSome_iff_ne_none.mpr same.1, rfl⟩

variable (sound : transport.Sound)

include sound

theorem Sound.run {now builds answer}
    (due : transport.stage = .first ∨ ∃ held, transport.stage = .again held)
    : (transport.run now builds answer).Sound := by
  have stands := sound.stands
  unfold AuthenticatedHttpTransport.run
  split
  · exact ⟨stands.retried, sound.built⟩
  next built ensured =>
    obtain ⟨client, log⟩ := ensureClient_eq_some ensured
    refine ⟨?_, fun _ => client⟩
    rw [log]
    rcases due with stage | ⟨held, stage⟩
    · rw [stage] at stands ⊢
      rw [show transport.log = [] from stands]
      cases answer with
      | ok value => trivial
      | error error =>
        by_cases unauthorized : error.isUnauthorized = true
        · simp only [if_pos unauthorized]
          exact ⟨_, _, unauthorized, rfl⟩
        · simp only [if_neg unauthorized]
          trivial
    · rw [stage] at stands ⊢
      obtain ⟨⟨_, _, _, unauthorized, log⟩, _⟩ := stands
      rw [log]
      exact ⟨unauthorized, nofun⟩

theorem Sound.next {action} (moves : transport.next invalidGrant action = some after)
    : after.Sound := by
  have stands := sound.stands
  cases action
  case shared =>
    obtain ⟨auth, _, rfl⟩ := map_eq_some_iff.mp moves
    exact ⟨stands, sound.built⟩
  all_goals simp only [AuthenticatedHttpTransport.next] at moves
  all_goals repeat' split at moves
  all_goals cases moves
  · exact ⟨rfl, absurd rfl⟩
  · exact sound.run (.inl ‹_›)
  · exact sound.run (.inr ⟨_, ‹_›⟩)
  next stage => -- `recover`
    rw [stage] at stands
    obtain ⟨header, error, unauthorized, log⟩ := stands
    exact ⟨⟨header, error, unauthorized, by rw [log]; rfl⟩,
      fun _ => sound.built (by rw [log]; exact nofun)⟩
  all_goals -- `resume`
    rw [‹transport.stage = _›] at stands
    obtain ⟨header, error, unauthorized, log⟩ := stands
    have client := sound.built (by rw [log]; exact nofun)
  · exact ⟨⟨⟨header, error, _, unauthorized, by rw [log]; rfl⟩, rfl⟩, fun _ => client⟩
  · refine ⟨?_, fun _ => client⟩
    simp only [log]
    exact unauthorized

/-- The second run carries what was recovered exactly if it is presented. -/
theorem Sound.carried_iff {held now answer} (stage : transport.stage = .again held)
    : Retried true (transport.run now true answer).log ↔ transport.Presents held now := by
  have stands := sound.stands
  rw [stage] at stands
  obtain ⟨⟨_, _, _, unauthorized, log⟩, unbuilt⟩ := stands
  obtain ⟨header, client⟩ := isSome_iff_exists.mp (sound.built (by rw [log]; exact nofun))
  unfold Presents AuthenticatedHttpTransport.run ensureClient AuthState.bearerToken
  cases valid : transport.auth.validTokens now with
  | some other =>
    simp [unbuilt, log, Retried, unauthorized, authorization]
  | none =>
    simp [unbuilt, client, log, Retried, unauthorized]

end AuthenticatedHttpTransport

/-- In every run, for any answers of the workers and of the identity provider and any times: the
operation is run at most twice, with at most one recovery, and again only after a 401 whose
recovery succeeded. The second run carries the recovered credential exactly if that is presented
when the client is built again.
-/
theorem refused_request_retried (Challenge Endpoints α : Type) (invalidGrant : RpcError → Bool)
    (transport : AuthenticatedHttpTransport Challenge Endpoints α)
    (reached : (httpMachine Challenge Endpoints α invalidGrant).Reaches (fun _ _ => True) transport)
    : Retried false transport.log
      ∧ ∀ held, transport.stage = .again held → ∀ now answer,
        Retried true (transport.run now true answer).log ↔ transport.Presents held now := by
  have sound : transport.Sound := by
    refine reached.invariant AuthenticatedHttpTransport.Sound ?_ fun sound _ moves =>
      sound.next moves
    rintro _ ⟨auth, rfl⟩
    exact ⟨trivial, absurd rfl⟩
  exact ⟨sound.stands.retried, fun held stage now answer => sound.carried_iff stage⟩

namespace OAuthSample

abbrev http := httpMachine Unit Unit Unit fun _ => false

def refusal : HttpError := ⟨none, "AuthenticationError"⟩

/-- A refused request, and a login that gives these tokens. -/
def login (tokens : TokenSet) : List (RetryAction Unit Unit Unit) :=
  [.call, .run 0 true (.error refusal), .recover (some ())]
    ++ [.enter 0, .read, .discover (.ok ()), .store, .deviceCodeFlow (.ok tokens), .publish].map
      (.shared ∘ .step 0)
    ++ [.resume]

/-- Tokens of half a minute, which is less than `skew`. -/
def brief : TokenSet := { plain with expiresAt := some 30 }

def started : AuthenticatedHttpTransport Unit Unit Unit := ⟨fresh, none, none, .ended, []⟩

def recovered : AuthenticatedHttpTransport Unit Unit Unit where
  auth := completed
  client := some none
  builtWith := none
  stage := .again ⟨plain, 0, 0⟩
  log := [.ran none (.error refusal), .asked 0, .recovered (.ok ⟨plain, 0, 0⟩)]

end OAuthSample

open OAuthSample in
/-- A request that was refused is run again with the recovered credential. -/
theorem refused_request_retried_sample
    : http.Reaches (fun _ _ => True) recovered
      ∧ Retried true (recovered.run 0 true (.ok ())).log := by
  have ends : http.exec started (login plain) = some recovered := by decide
  have reached : http.Reaches (fun _ _ => True) recovered := by
    have start : http.initial started := ⟨fresh, rfl⟩
    exact (Machine.Reaches.start start).exec (Machine.meets_true _ _) ends
  exact ⟨reached, ((refused_request_retried Unit Unit Unit _ recovered reached).2 _ rfl 0
    (.ok ())).mpr rfl⟩

open OAuthSample in
/-- The credential is recovered, and the request is run again without any. -/
theorem recovered_credential_lost
    : ∃ transport, http.exec started (login brief ++ [.run 0 true (.error refusal)])
        = some transport
      ∧ transport.log = [.ran none (.error refusal), .asked 0, .recovered (.ok ⟨brief, 0, 0⟩),
          .ran none (.error refusal)]
      ∧ ¬ Retried true transport.log := by
  have ends : (http.exec started (login brief ++ [.run 0 true (.error refusal)])).map
      AuthenticatedHttpTransport.log
      = some [.ran none (.error refusal), .asked 0, .recovered (.ok ⟨brief, 0, 0⟩),
        .ran none (.error refusal)] := by decide
  obtain ⟨transport, run, log⟩ := map_eq_some_iff.mp ends
  refine ⟨transport, run, log, fun retried => ?_⟩
  rw [log] at retried
  cases retried.2 rfl

end Vgi.Client
