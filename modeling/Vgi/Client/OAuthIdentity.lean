import Vgi.Client.OAuthFlight
import Vgi.Storage.FsLayout
import Vgi.Lib.Separator

/-! The identity that an `OAuthAuth` reports beside the token that it presents, as time goes on. -/

namespace Vgi.Client

open Lib Option

inductive Identity where
  | anonymous
  | oauth (issuer subject : String)
  | bearer (token : String)
  | unresolved
deriving DecidableEq

/-- The cache-isolation fingerprint; `hash` joins its parts and digests them under a salt. -/
def Identity.fingerprint (hash : List String → Bytes → String) (salt : Bytes) : Identity → String
  | .anonymous => "anon"
  | .oauth issuer subject => "oauth:" ++ hash ["vgi-cache-oauth:v1", issuer, subject] []
  | .bearer token => "bearer:" ++ hash ["vgi-cache-principal:v1", token] salt
  | .unresolved => ""

def identityScope (hash : List String → Bytes → String) (catalog : String) (identity : Identity)
    (salt : Bytes) : Option String :=
  let fp := identity.fingerprint hash salt
  if fp = "" then none else some (catalog ++ "\x1f" ++ fp)

variable {Challenge Endpoints : Type} {invalidGrant : RpcError → Bool}
  {claims : String → Option (String × String)} {now later : Instant}

/-- The issuer and subject of an id token, which `claims` reads from its payload. -/
def TokenSet.identity (claims : String → Option (String × String)) (tokens : TokenSet)
    : Option (String × String) :=
  tokens.idToken.bind claims

namespace AuthState

variable {state after : AuthState Challenge Endpoints}

def bearerToken (state : AuthState Challenge Endpoints) (now : Instant) : Option String :=
  (state.validTokens now).map (·.tokens.bearer)

def identity (claims : String → Option (String × String)) (state : AuthState Challenge Endpoints)
    : Identity :=
  if ¬ (state.refreshToken.isSome ∨ state.phase = .complete) then .anonymous
  else
    match state.tokens.bind (·.tokens.identity claims) with
    | some (issuer, subject) => .oauth issuer subject
    | none => .unresolved

/-- Whoever presents a token is taken for the principal of that token, or for none yet, and their
results are not kept where those without a token find them.
-/
structure Recognised (claims : String → Option (String × String))
    (state : AuthState Challenge Endpoints) (now : Instant) : Prop where
  principal : ∀ later ≥ now, ∀ token, state.bearerToken later = some token →
    ∃ held, state.tokens = some held ∧ held.tokens.bearer = token
      ∧ ((∃ issuer subject, held.tokens.identity claims = some (issuer, subject)
          ∧ state.identity claims = .oauth issuer subject)
        ∨ (held.tokens.identity claims = none ∧ state.identity claims = .unresolved))
  apart : ∀ later ≥ now, (state.bearerToken later).isSome → ∀ hash catalog salt,
    identityScope hash catalog (state.identity claims) salt
      ≠ identityScope hash catalog .anonymous salt

end AuthState

def AuthAction.clock : AuthAction Challenge Endpoints → Option Instant
  | .step _ event => AuthState.clock event
  | .bearerToken now => some now
  | _ => none

def clockedMachine (Challenge Endpoints : Type) (invalidGrant : RpcError → Bool)
    : Machine (AuthState Challenge Endpoints × Instant)
      (Instant × AuthAction Challenge Endpoints) where
  initial state := (oauthMachine Challenge Endpoints invalidGrant).initial state.1
  next state action :=
    if state.2 ≤ action.1 ∧ ∀ now ∈ action.2.clock, now = action.1 then
      (state.1.next invalidGrant action.2).map (·, action.1)
    else none

namespace AuthState

variable {state after : AuthState Challenge Endpoints}

/-- Unless the last exchange was completed, there is no usable token, and there will be none. -/
def Dormant (state : AuthState Challenge Endpoints) (now : Instant) : Prop :=
  state.phase ≠ .complete → ∀ later ≥ now, state.validTokens later = none

theorem validTokens_later (none_ : state.validTokens now = none) (order : now ≤ later)
    : state.validTokens later = none := by
  unfold validTokens at none_ ⊢
  rw [filter_eq_none_iff] at none_ ⊢
  intro held is valid
  refine none_ held is ?_
  unfold TokenSet.isValidAt at valid ⊢
  split at valid
  · rfl
  next expiry _ =>
    have usable : later + skew < expiry := of_decide_eq_true valid
    exact decide_eq_true (Nat.lt_of_le_of_lt (Nat.add_le_add_right order skew) usable)

variable (dormant : state.Dormant now)

include dormant

theorem Dormant.same (order : now ≤ later)
    (tokens : after.tokens = state.tokens) (phase : after.phase = state.phase)
    : after.Dormant later := by
  intro incomplete time after_
  unfold validTokens
  rw [tokens]
  exact dormant (phase ▸ incomplete) time (Nat.le_trans order after_)

/-- A call leads only if the tokens are no longer usable. -/
theorem Dormant.look (order : now ≤ later) (index call)
    : (state.look index call later).Dormant later := by
  unfold AuthState.look
  split
  · exact dormant.same order rfl rfl
  · split
    · exact dormant.same order rfl rfl
    next none_ => exact fun _ _ => validTokens_later none_
  all_goals
    rename_i phase
    exact fun _ time after_ => dormant (by rw [phase]; exact nofun) time (Nat.le_trans order after_)

theorem Dormant.next {action}
    (sound : state.Sound) (order : now ≤ later) (reads : ∀ now ∈ action.clock, now = later)
    (moved : state.next invalidGrant action = some after) : after.Dormant later := by
  cases action with
  | handleUnauthorized challenge =>
    cases moved
    exact dormant.same order rfl rfl
  | step index event =>
    obtain ⟨call, found, moved⟩ := bind_eq_some_iff.mp moved
    rcases move_cases moved with ⟨_, time, read, rfl⟩ | ⟨_, _, rfl⟩ | ⟨_, _, _, _, _, rfl⟩ |
      ⟨outcome, publishing, rfl⟩
    · cases reads time read
      exact dormant.look order index call
    · exact dormant.same order rfl rfl
    · exact dormant.same order rfl rfl
    · cases outcome with
      | ok tokens => exact fun incomplete => absurd rfl incomplete
      | error failure =>
        -- The exchange began when there was no usable token.
        have leading := (sound.leading found (by rw [publishing]; rfl)).1
        exact fun _ time after_ =>
          dormant (by rw [leading]; exact nofun) time (Nat.le_trans order after_)
  | bearerToken time =>
    simp only [AuthState.next] at moved
    split at moved <;> cases moved <;> exact dormant.same order rfl rfl
  | clear =>
    cases moved
    exact fun _ _ _ => rfl

/-- Without a completed exchange no token is presented, so whoever presents one is recognised. -/
theorem Dormant.recognised : state.Recognised claims now := by
  have configured : ∀ later ≥ now, ∀ held, state.validTokens later = some held →
      state.tokens = some held ∧ state.identity claims
        = match held.tokens.identity claims with
          | some (issuer, subject) => .oauth issuer subject
          | none => .unresolved := by
    intro later after_ held valid
    have complete : state.phase = .complete := by
      by_contra incomplete
      rw [dormant incomplete later after_] at valid
      cases valid
    have is := (filter_eq_some_iff.mp valid).1
    refine ⟨is, ?_⟩
    rw [identity, if_neg (not_not.mpr (.inr complete)), is]
    rfl
  constructor
  case principal =>
    intro later after_ token presented
    obtain ⟨held, valid, rfl⟩ := map_eq_some_iff.mp presented
    obtain ⟨is, identity⟩ := configured later after_ held valid
    refine ⟨held, is, rfl, ?_⟩
    cases principal : held.tokens.identity claims with
    | none =>
      rw [principal] at identity
      exact .inr ⟨rfl, identity⟩
    | some pair =>
      rw [principal] at identity
      exact .inl ⟨pair.1, pair.2, rfl, identity⟩
  case apart =>
    intro later after_ presented hash catalog salt same
    obtain ⟨token, presented⟩ := isSome_iff_exists.mp presented
    obtain ⟨held, valid, _⟩ := map_eq_some_iff.mp presented
    rw [(configured later after_ held valid).2] at same
    split at same
    · simp only [identityScope, Identity.fingerprint] at same
      have first := congrArg (fun text => text.toList.head?) (show _ = "anon" by simpa using same)
      simp at first
    · simp [identityScope, Identity.fingerprint] at same

end AuthState

/-- In every state of every run in which `clear` is not called while an exchange is in progress, and
at every time from then on.
-/
theorem oauth_caller_recognised (Challenge Endpoints : Type) (invalidGrant : RpcError → Bool)
    (claims : String → Option (String × String))
    (state : AuthState Challenge Endpoints × Instant)
    (reached : (clockedMachine Challenge Endpoints invalidGrant).Reaches
      (fun state action => state.1.Undisturbed action.2) state)
    : state.1.Recognised claims state.2 := by
  have holds : state.1.Sound ∧ state.1.Dormant state.2 := by
    refine reached.invariant (fun state => state.1.Sound ∧ state.1.Dormant state.2) ?_ ?_
    · rintro ⟨_, now⟩ ⟨refreshToken, rfl⟩
      exact ⟨sound_initial refreshToken, fun _ _ _ => rfl⟩
    · rintro ⟨before, now⟩ after ⟨time, action⟩ ⟨sound, dormant⟩ undisturbed moves
      obtain ⟨clock, moves⟩ := ite_none_right_eq_some.mp moves
      obtain ⟨next, moved, rfl⟩ := map_eq_some_iff.mp moves
      exact ⟨sound.next undisturbed moved, dormant.next sound clock.1 clock.2 moved⟩
  exact holds.2.recognised

namespace OAuthSample

abbrev clocked := clockedMachine Unit Unit fun _ => false

/-- Tokens of the subject `s`, without a refresh token. -/
def plain : TokenSet := ⟨"token", some "jwt", none, none, false⟩

def jwtClaims (jwt : String) : Option (String × String) :=
  if jwt = "jwt" then some ("i", "s") else none

def completes : List (AuthAction Unit Unit) := [
  .handleUnauthorized (some ()), .step 0 (.enter 0), .step 0 .read, .step 0 (.discover (.ok ())),
  .step 0 .store, .step 0 (.deviceCodeFlow (.ok plain)), .step 0 .publish]

def completed : AuthState Unit Unit :=
  { fresh with
    phase := .complete
    tokens := some ⟨plain, 0, 0⟩
    endpoints := some ()
    calls := [⟨some (), .returned (.ok ⟨plain, 0, 0⟩), 0, 0⟩] }

/-- The first exchange ends after the logout, and then the second one fails. -/
def overtaken : List (AuthAction Unit Unit) := disturbed ++ [
  .step 0 (.deviceCodeFlow (.ok plain)), .step 0 .publish, .step 1 .read,
  .step 1 (.deviceCodeFlow (.error AuthState.waitTimedOut)), .step 1 .publish]

end OAuthSample

open OAuthSample in
/-- A caller whose tokens name a subject is that subject. -/
theorem oauth_caller_recognised_sample
    : clocked.Reaches (fun state action => state.1.Undisturbed action.2) (completed, 0)
      ∧ completed.bearerToken 0 = some "token" ∧ completed.identity jwtClaims = .oauth "i" "s"
      ∧ completed.Recognised jwtClaims 0 := by
  have ends : clocked.exec (fresh, 0) (completes.map (0, ·)) = some (completed, 0) := by decide
  have reached : clocked.Reaches (fun state action => state.1.Undisturbed action.2)
      (completed, 0) := by
    have start : clocked.initial (fresh, 0) := ⟨none, rfl⟩
    exact (Machine.Reaches.start start).exec (by decide) ends
  exact ⟨reached, rfl, rfl, oauth_caller_recognised Unit Unit _ jwtClaims (completed, 0) reached⟩

open OAuthSample in
/-- A token is presented, and whoever presents it is taken for anonymous. -/
theorem oauth_caller_anonymous
    : ∃ state, clocked.exec (fresh, 0) (overtaken.map (0, ·)) = some (state, 0)
      ∧ state.bearerToken 0 = some "token" ∧ state.identity jwtClaims = .anonymous := by
  have ends : (clocked.exec (fresh, 0) (overtaken.map (0, ·))).map (fun state =>
      (state.2, state.1.bearerToken 0, state.1.identity jwtClaims))
      = some (0, some "token", .anonymous) := by decide
  obtain ⟨⟨state, time⟩, run, is⟩ := map_eq_some_iff.mp ends
  simp only [Prod.mk.injEq] at is
  obtain ⟨rfl, token, identity⟩ := is
  exact ⟨state, run, token, identity⟩

/-- `hash`: the parts with marks between them, under the salt if there is one. -/
def hashParts (sha256 : Bytes → Bytes) (parts : List String) (salt : Bytes) : String :=
  Storage.Fs.hex (sha256
    ((if salt = [] then [] else salt ++ [31]) ++ utf8 ("\x1f".intercalate parts)))

/-- What is digested of a principal does not tell the issuer from the subject. -/
def Identity.joined : Identity → Identity
  | .oauth issuer subject => .oauth (issuer ++ "\x1f" ++ subject) ""
  | identity => identity

section

variable {sha256 : Bytes → Bytes} {salt : Bytes} {identity identity' : Identity}

theorem mark_notMem_fingerprint
    : '\x1f' ∉ (identity.fingerprint (hashParts sha256) salt).toList := by
  have hex (bytes) : '\x1f' ∉ (Storage.Fs.hex bytes).toList := fun member =>
    absurd (List.all_eq_true.mp (Storage.Fs.isHexChar_hex bytes) _ member) (by decide)
  cases identity <;> simp [Identity.fingerprint, hashParts, hex]

theorem fingerprint_eq_iff (injective : Function.Injective sha256)
    : identity.fingerprint (hashParts sha256) salt = identity'.fingerprint (hashParts sha256) salt
      ↔ identity.joined = identity'.joined := by
  have inj {salt} {parts parts' : List String} : hashParts sha256 parts salt
      = hashParts sha256 parts' salt ↔ "\x1f".intercalate parts = "\x1f".intercalate parts' := by
    refine ⟨fun same => ?_, fun same => by rw [hashParts, same, hashParts]⟩
    exact utf8_eq_iff.mp (List.append_cancel_left (injective (Storage.Fs.hex_injective same)))
  cases identity <;> cases identity'
  all_goals simp [Identity.fingerprint, Identity.joined, inj]
  all_goals
    intro same
    have first := congrArg (fun text => text.toList.head?) same
    simp at first

/-- Where the catalog ends is told by the last mark. -/
theorem identityScope_eq_iff {catalog catalog'} (cacheable : identity ≠ .unresolved)
    (cacheable' : identity' ≠ .unresolved)
    : identityScope (hashParts sha256) catalog identity salt
        = identityScope (hashParts sha256) catalog' identity' salt
      ↔ catalog = catalog' ∧ identity.fingerprint (hashParts sha256) salt
        = identity'.fingerprint (hashParts sha256) salt := by
  have scope {identity : Identity} (cacheable : identity ≠ .unresolved) (catalog)
      : identityScope (hashParts sha256) catalog identity salt
        = some (catalog ++ "\x1f" ++ identity.fingerprint (hashParts sha256) salt) := by
    cases identity <;> simp_all [identityScope, Identity.fingerprint]
  have apart {identity identity' : Identity} {left left'} : ¬ Shifts '\x1f' left
      (identity.fingerprint (hashParts sha256) salt).toList left'
      (identity'.fingerprint (hashParts sha256) salt).toList := by
    rintro ⟨_, -, is⟩
    exact mark_notMem_fingerprint (is ▸ List.mem_append_right _ List.mem_cons_self)
  rw [scope cacheable, scope cacheable', some.injEq, ← String.toList_inj]
  simp [joined_eq_iff, String.toList_inj, apart]

end

/-- Two principals are in different scopes, unless their issuers and subjects are the same text when
they are joined, in one catalog.
-/
theorem identity_scopes_separate_iff {sha256 : Bytes → Bytes}
    (injective : Function.Injective sha256) (salt : Bytes) (catalog catalog' : String)
    {identity identity' : Identity} (cacheable : identity ≠ .unresolved)
    (cacheable' : identity' ≠ .unresolved)
    : (identityScope (hashParts sha256) catalog identity salt
          = identityScope (hashParts sha256) catalog' identity' salt →
        catalog = catalog' ∧ identity = identity')
      ↔ (catalog = catalog' → identity.joined = identity'.joined → identity = identity') := by
  rw [identityScope_eq_iff cacheable cacheable', fingerprint_eq_iff injective]
  tauto

/-- Two subjects of one issuer. -/
theorem identity_scopes_separate_sample
    : identityScope (hashParts id) "c" (.oauth "i" "s") []
      ≠ identityScope (hashParts id) "c" (.oauth "i" "t") [] := by
  have separate := (identity_scopes_separate_iff Function.injective_id [] "c" "c"
    (nofun : Identity.oauth "i" "s" ≠ .unresolved)
    (nofun : Identity.oauth "i" "t" ≠ .unresolved)).mpr (by decide)
  exact fun same => absurd (separate same) (by decide)

/-- The mark in an issuer and in a subject. -/
theorem shifted_principals_share_scope
    : identityScope (hashParts id) "c" (.oauth "i\x1fj" "s") []
      = identityScope (hashParts id) "c" (.oauth "i" "j\x1fs") [] := by
  decide

end Vgi.Client
