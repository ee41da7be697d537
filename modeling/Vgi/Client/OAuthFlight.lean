import Vgi.Client.OAuth

/-! One exchange at a time, and no token outlives a logout. -/

namespace Vgi.Client

open Lib Option

namespace AuthState

variable {Challenge Endpoints : Type} {invalidGrant : RpcError → Bool}
  {state after : AuthState Challenge Endpoints} {index : Nat} {call : AuthCall Challenge Endpoints}
  {event : AuthEvent Endpoints}

theorem leads_exchange (seeded) (endpoints : Endpoints)
    : (exchange seeded endpoints).leads = true := by
  cases seeded <;> rfl

/-- A look at the phase: wait, take the valid tokens, or lead. -/
theorem look_cases (state : AuthState Challenge Endpoints) (index call now)
    : (state.phase = .inProgress
        ∧ state.look index call now = state.setCall index { call with stage := .waiting })
      ∨ (∃ held, state.tokens = some held ∧ state.look index call now
          = state.setCall index { call with stage := .returned (.ok held) })
      ∨ (state.phase ≠ .inProgress ∧ state.look index call now = state.lead index call) := by
  unfold look
  split
  · exact .inl ⟨‹_›, rfl⟩
  next complete =>
    split
    next held valid => exact .inr (.inl ⟨held, (filter_eq_some_iff.mp valid).1, rfl⟩)
    · exact .inr (.inr ⟨by rw [complete]; decide, rfl⟩)
  next idle => exact .inr (.inr ⟨by rw [idle]; decide, rfl⟩)
  next failed => exact .inr (.inr ⟨by rw [failed]; decide, rfl⟩)

/-- A step within an exchange: nothing that the others see of the exchange changes. -/
def Proceeds (state : AuthState Challenge Endpoints) (index : Nat)
    (call : AuthCall Challenge Endpoints) (after : AuthState Challenge Endpoints) : Prop :=
  call.stage.leads = true ∧ ∃ refreshToken endpoints stage, stage.leads = true
    ∧ after = { state with refreshToken, endpoints }.setCall index { call with stage }

def clock : AuthEvent Endpoints → Option Instant
  | .enter now | .wake _ now => some now
  | _ => none

/-- Everything that a step of a call can do. -/
theorem move_cases (moved : state.move invalidGrant index call event = some after)
    : ((call.stage = .arriving ∨ call.stage = .waiting)
        ∧ ∃ now, clock event = some now ∧ after = state.look index call now)
      ∨ (call.stage = .waiting ∧ state.phase = .inProgress
        ∧ after = state.setCall index { call with stage := .returned (.error waitTimedOut) })
      ∨ state.Proceeds index call after
      ∨ ∃ outcome, call.stage = .publishing outcome ∧ after = state.publish index call outcome := by
  unfold move at moved
  repeat' split at moved
  all_goals cases moved
  next now arriving => exact .inl ⟨.inl arriving, now, rfl, rfl⟩
  next timedOut now waiting both => exact .inr (.inl ⟨waiting, both.2, rfl⟩)
  next timedOut now waiting _ => exact .inl ⟨.inr waiting, now, rfl, rfl⟩
  on_goal -1 => exact .inr (.inr (.inr ⟨_, ‹_›, rfl⟩))
  -- The other steps are from one stage of an exchange to the next.
  all_goals
    refine .inr (.inr (.inl ⟨by simp [*, AuthStage.leads], _, _, _, ?_, rfl⟩))
    first | rfl | exact leads_exchange _ _

def Published (state : AuthState Challenge Endpoints) (held : Held) : Prop :=
  ∃ call, state.calls[held.leader]? = some call ∧ call.stage = .returned (.ok held)

structure Sound (state : AuthState Challenge Endpoints) : Prop where
  leading : ∀ {index : Nat} {call},
    state.calls[index]? = some call → call.stage.leads = true →
    state.phase = .inProgress ∧ call.began = state.cleared
  alone : ∀ {first second : Nat} {one other},
    state.calls[first]? = some one → state.calls[second]? = some other →
    one.stage.leads = true → other.stage.leads = true → first = second
  arrived : ∀ {index : Nat} {call}, state.calls[index]? = some call → call.arrived ≤ state.cleared
  held : ∀ {held}, state.tokens = some held → held.began = state.cleared ∧ state.Published held
  returned : ∀ {index : Nat} {call held},
    state.calls[index]? = some call → call.stage = .returned (.ok held) →
    call.arrived ≤ held.began ∧ state.Published held
  presented : ∀ {count held}, (count, held) ∈ state.presented →
    count ≤ held.began ∧ state.Published held

theorem Published.setCall {next held}
    (published : state.Published held) (found : state.calls[index]? = some call)
    (open_ : ∀ outcome, call.stage ≠ .returned outcome)
    (calls : after.calls = state.calls.set index next) : after.Published held := by
  obtain ⟨leader, is, returned⟩ := published
  refine ⟨leader, ?_, returned⟩
  rw [calls, List.getElem?_set_ne]
  · exact is
  · rintro rfl
    cases found.symm.trans is
    exact open_ _ returned

variable (sound : state.Sound)

include sound

variable (found : state.calls[index]? = some call)

include found

/-- A step of one call keeps the invariant if the call leads alone, and takes and leaves tokens
of the time since the last `clear` only.
-/
theorem Sound.change {next} (open_ : ∀ outcome, call.stage ≠ .returned outcome)
    (calls : after.calls = state.calls.set index next) (cleared : after.cleared = state.cleared)
    (presented : after.presented = state.presented) (arrived : next.arrived = call.arrived)
    (others : ∀ {other beside}, other ≠ index →
      state.calls[other]? = some beside → beside.stage.leads = true →
      after.phase = .inProgress ∧ next.stage.leads = false)
    (leads : next.stage.leads = true → after.phase = .inProgress ∧ next.began = state.cleared)
    (tokens : ∀ {held}, after.tokens = some held → state.tokens = some held
        ∨ (held.leader = index ∧ held.began = state.cleared ∧ next.stage = .returned (.ok held)))
    (returned : ∀ {held}, next.stage = .returned (.ok held) →
      state.tokens = some held ∨ (held.leader = index ∧ held.began = state.cleared))
    : after.Sound := by
  have inside : (state.calls.set index next)[index]? = some next :=
    List.getElem?_set_self (List.getElem?_eq_some_iff.mp found).1
  have own {held : Held} (is : next.stage = .returned (.ok held)) (leader : held.leader = index)
      : after.Published held := ⟨next, by rw [calls, leader]; exact inside, is⟩
  have kept {held : Held} (published : state.Published held) : after.Published held :=
    published.setCall found open_ calls
  refine ⟨fun {other beside} is lead => ?_, ?_, fun {other beside} is => ?_, fun {held} is => ?_,
    fun {other beside held} is back => ?_, fun {count held} is => ?_⟩
  · rw [calls] at is
    rw [cleared]
    rcases getElem?_set_cases is with ⟨rfl, rfl⟩ | ⟨ne, is⟩
    · exact leads lead
    · exact ⟨(others ne is lead).1, (sound.leading is lead).2⟩
  · -- Whoever leads besides the call that moved led before, and was alone.
    intro first second one other firstIs secondIs oneLeads otherLeads
    rw [calls] at firstIs secondIs
    rcases getElem?_set_cases firstIs with ⟨rfl, rfl⟩ | ⟨ne, before⟩
    · rcases getElem?_set_cases secondIs with ⟨rfl, rfl⟩ | ⟨ne, beside⟩
      · rfl
      · rw [(others ne beside otherLeads).2] at oneLeads
        cases oneLeads
    · rcases getElem?_set_cases secondIs with ⟨rfl, rfl⟩ | ⟨_, beside⟩
      · rw [(others ne before oneLeads).2] at otherLeads
        cases otherLeads
      · exact sound.alone before beside oneLeads otherLeads
  · rw [calls] at is
    rw [cleared]
    rcases getElem?_set_cases is with ⟨rfl, rfl⟩ | ⟨_, is⟩
    · rw [arrived]
      exact sound.arrived found
    · exact sound.arrived is
  · rw [cleared]
    rcases tokens is with before | ⟨leader, began, back⟩
    · exact ⟨(sound.held before).1, kept (sound.held before).2⟩
    · exact ⟨began, own back leader⟩
  · rw [calls] at is
    rcases getElem?_set_cases is with ⟨rfl, rfl⟩ | ⟨_, is⟩
    · rw [arrived]
      have early := sound.arrived found
      rcases returned back with before | ⟨leader, began⟩
      · exact ⟨(sound.held before).1 ▸ early, kept (sound.held before).2⟩
      · exact ⟨began ▸ early, own back leader⟩
    · exact ⟨(sound.returned is back).1, kept (sound.returned is back).2⟩
  · rw [presented] at is
    exact ⟨(sound.presented is).1, kept (sound.presented is).2⟩

variable (outside : call.stage = .arriving ∨ call.stage = .waiting)

include outside

/-- A call that does not lead, and waits, returns tokens that are held, or returns an error. -/
theorem Sound.stays {stage}
    (still : stage.leads = false)
    (returned : ∀ {held}, stage = .returned (.ok held) → state.tokens = some held)
    : (state.setCall index { call with stage }).Sound := by
  refine sound.change found ?_ rfl rfl rfl rfl
    (fun _ is leads => ⟨(sound.leading is leads).1, still⟩) ?_ .inl fun is => .inl (returned is)
  · rintro outcome is
    rcases outside with at_ | at_ <;> cases at_.symm.trans is
  · intro leads
    cases still.symm.trans leads

theorem Sound.lead (free : state.phase ≠ .inProgress) : (state.lead index call).Sound := by
  refine sound.change found ?_ rfl rfl rfl rfl
    (fun _ is leads => (free (sound.leading is leads).1).elim) (fun _ => ⟨rfl, rfl⟩) .inl ?_
  · rintro outcome is
    rcases outside with at_ | at_ <;> cases at_.symm.trans is
  · intro held is
    cases is

theorem Sound.look (now) : (state.look index call now).Sound := by
  rcases look_cases state index call now with ⟨_, is⟩ | ⟨held, tokens, is⟩ | ⟨free, is⟩
  · rw [is]
    exact sound.stays found outside rfl nofun
  · rw [is]
    refine sound.stays found outside rfl fun back => ?_
    cases back
    exact tokens
  · rw [is]
    exact sound.lead found outside free

omit outside

theorem Sound.proceeds (proceeds : state.Proceeds index call after) : after.Sound := by
  obtain ⟨leads, refreshToken, endpoints, stage, still, rfl⟩ := proceeds
  have inProgress := sound.leading found leads
  refine sound.change found ?_ rfl rfl rfl rfl ?_ (fun _ => inProgress) .inl ?_
  · intro outcome is
    rw [is] at leads
    cases leads
  · intro other beside ne is lead
    exact (ne (sound.alone is found lead leads)).elim
  · intro held is
    rw [show stage = _ from is] at still
    cases still

/-- The leader returns what its exchange ended with, and publishes tokens of its own epoch. -/
theorem Sound.publish {outcome} (publishing : call.stage = .publishing outcome)
    : (state.publish index call outcome).Sound := by
  have leads : call.stage.leads = true := by
    rw [publishing]
    rfl
  have began := (sound.leading found leads).2
  have open_ (result : Result Held) : call.stage ≠ .returned result := by
    rw [publishing]
    exact nofun
  have lonely {other : Nat} {beside : AuthCall Challenge Endpoints} (ne : other ≠ index)
      (is : state.calls[other]? = some beside) (lead : beside.stage.leads = true) : False :=
    ne (sound.alone is found lead leads)
  cases outcome with
  | ok tokens =>
    refine sound.change found open_ rfl rfl rfl rfl
      (fun ne is lead => (lonely ne is lead).elim) (nofun) ?_ ?_
    · intro held is
      cases is
      exact .inr ⟨rfl, began, rfl⟩
    · intro held is
      cases is
      exact .inr ⟨rfl, began⟩
  | error failure =>
    exact sound.change found open_ rfl rfl rfl rfl
      (fun ne is lead => (lonely ne is lead).elim) (nofun) .inl
      nofun

omit found

/-- `clear` while no exchange is in progress. -/
theorem Sound.clear (idle : state.phase ≠ .inProgress) : state.clear.Sound := by
  have none_ {index : Nat} {call : AuthCall Challenge Endpoints}
      (is : state.calls[index]? = some call) (leads : call.stage.leads = true) : False :=
    idle (sound.leading is leads).1
  refine ⟨fun is leads => (none_ is leads).elim, fun is _ leads => (none_ is leads).elim,
    fun is => ?_, fun is => ?_, sound.returned, sound.presented⟩
  · exact Nat.le_succ_of_le (sound.arrived is)
  · cases is

/-- A call comes, in the epoch that the last logout began; nothing else changes. -/
theorem Sound.arrive (challenge) : (state.arrive challenge).Sound := by
  have split_ {index : Nat} {call : AuthCall Challenge Endpoints}
      (is : (state.arrive challenge).calls[index]? = some call)
      : state.calls[index]? = some call ∨ call = ⟨challenge, .arriving, state.cleared, 0⟩ :=
    (getElem?_concat_cases is).imp_right And.right
  have kept {held : Held} (published : state.Published held)
      : (state.arrive challenge).Published held := by
    obtain ⟨call, is, returned⟩ := published
    refine ⟨call, ?_, returned⟩
    unfold AuthState.arrive
    rw [List.getElem?_append_left (List.getElem?_eq_some_iff.mp is).1]
    exact is
  refine ⟨fun is leads => ?_, fun is beside leads lead => ?_, fun is => ?_, fun is => ?_,
    fun is back => ?_, fun is => ?_⟩
  · rcases split_ is with is | rfl
    · exact sound.leading is leads
    · cases leads
  · rcases split_ is with is | rfl
    · rcases split_ beside with beside | rfl
      · exact sound.alone is beside leads lead
      · cases lead
    · cases leads
  · rcases split_ is with is | rfl
    · exact sound.arrived is
    · exact Nat.le_refl _
  · exact ⟨(sound.held is).1, kept (sound.held is).2⟩
  · rcases split_ is with is | rfl
    · exact ⟨(sound.returned is back).1, kept (sound.returned is back).2⟩
    · cases back
  · exact ⟨(sound.presented is).1, kept (sound.presented is).2⟩

theorem Sound.present {held} (is : state.tokens = some held) : (state.present held).Sound := by
  refine { sound with presented := ?_ }
  intro count other member
  rcases List.mem_cons.mp member with now | earlier
  · cases now
    exact ⟨Nat.le_of_eq (sound.held is).1.symm, (sound.held is).2⟩
  · exact sound.presented earlier

/-- The condition on runs: `clear` is not called while an exchange is in progress. -/
def Undisturbed (state : AuthState Challenge Endpoints)
    (action : AuthAction Challenge Endpoints) : Prop :=
  action = .clear → state.phase ≠ .inProgress

instance [DecidableEq Challenge] [DecidableEq Endpoints]
    (state : AuthState Challenge Endpoints) (action : AuthAction Challenge Endpoints)
    : Decidable (state.Undisturbed action) :=
  inferInstanceAs (Decidable (action = .clear → state.phase ≠ .inProgress))

theorem Sound.next {action} (undisturbed : state.Undisturbed action)
    (moved : state.next invalidGrant action = some after) : after.Sound := by
  cases action with
  | handleUnauthorized challenge =>
    cases moved
    exact sound.arrive challenge
  | step index event =>
    obtain ⟨call, found, moved⟩ := bind_eq_some_iff.mp moved
    rcases move_cases moved with ⟨outside, now, _, rfl⟩ | ⟨waiting, _, rfl⟩ | proceeds |
      ⟨outcome, publishing, rfl⟩
    · exact sound.look found outside now
    · exact sound.stays found (.inr waiting) rfl nofun
    · exact sound.proceeds found proceeds
    · exact sound.publish found publishing
  | bearerToken now =>
    simp only [AuthState.next] at moved
    split at moved
    next held valid =>
      cases moved
      exact sound.present (filter_eq_some_iff.mp valid).1
    · cases moved
      exact sound
  | clear =>
    cases moved
    exact sound.clear (undisturbed rfl)

/-- One exchange at a time, waits that end, and tokens no older than the last `clear` that their
taker came after.
-/
structure SingleFlight (invalidGrant : RpcError → Bool) (state : AuthState Challenge Endpoints)
    : Prop where
  alone : ∀ {first second : Nat} {one other : AuthCall Challenge Endpoints},
    state.calls[first]? = some one → state.calls[second]? = some other →
    one.stage.leads = true → other.stage.leads = true → first = second
  /-- A wait ends with the tokens that a leader published and returned, with an error or as the
  next leader; it goes on only before its time is out, while an exchange is in progress.
  -/
  waits : ∀ {index} {call : AuthCall Challenge Endpoints} (timedOut) (now),
    state.calls[index]? = some call → call.stage = .waiting →
    ∃ after stage, state.next invalidGrant (.step index (.wake timedOut now)) = some after
      ∧ after.calls[index]?.map (·.stage) = some stage
      ∧ ((∃ held, stage = .returned (.ok held) ∧ state.tokens = some held ∧ after.Published held)
        ∨ (∃ failure, stage = .returned (.error failure))
        ∨ stage = .reading
        ∨ (stage = .waiting ∧ timedOut = false ∧ state.phase = .inProgress))
  /-- The exchange began after every `clear` before the call arrived. -/
  returned : ∀ {index : Nat} {call held},
    state.calls[index]? = some call → call.stage = .returned (.ok held) →
    call.arrived ≤ held.began
  /-- The exchange began after every `clear` before `bearer_token`. -/
  presented : ∀ {count held}, (count, held) ∈ state.presented → count ≤ held.began

/-- What the invariant says of all calls together. -/
theorem Sound.singleFlight : state.SingleFlight invalidGrant := by
  refine ⟨sound.alone, ?_, fun is back => (sound.returned is back).1,
    fun is => (sound.presented is).1⟩
  intro index call timedOut now found waiting
  have inside (next : AuthCall Challenge Endpoints)
      : (state.calls.set index next)[index]?.map (·.stage) = some next.stage := by
    rw [List.getElem?_set_self (List.getElem?_eq_some_iff.mp found).1]
    rfl
  have open_ (outcome : Result Held) : call.stage ≠ .returned outcome := by
    rw [waiting]
    exact nofun
  by_cases out : timedOut = true ∧ state.phase = .inProgress
  · refine ⟨state.setCall index { call with stage := .returned (.error waitTimedOut) }, _, ?_,
      inside _, .inr (.inl ⟨waitTimedOut, rfl⟩)⟩
    simp only [AuthState.next, found, bind_some, move, waiting, if_pos out]
  · have moved : state.next invalidGrant (.step index (.wake timedOut now))
        = some (state.look index call now) := by
      simp only [AuthState.next, found, bind_some, move, waiting, if_neg out]
    rcases look_cases state index call now with ⟨busy, is⟩ | ⟨held, tokens, is⟩ | ⟨_, is⟩
    · refine ⟨_, .waiting, moved, by rw [is]; exact inside _, .inr (.inr (.inr ⟨rfl, ?_, busy⟩))⟩
      cases timedOut with
      | false => rfl
      | true => exact (out ⟨rfl, busy⟩).elim
    · refine ⟨_, .returned (.ok held), moved, by rw [is]; exact inside _,
        .inl ⟨held, rfl, tokens, ?_⟩⟩
      rw [is]
      exact (sound.held tokens).2.setCall found open_ rfl
    · exact ⟨_, .reading, moved, by rw [is]; exact inside _, .inr (.inr (.inl rfl))⟩

omit sound

variable (refused : Nat → Option String)

/-- No call was given the token for whose refusal it was made. -/
def Renewed (state : AuthState Challenge Endpoints) : Prop :=
  ∀ {index : Nat} {call : AuthCall Challenge Endpoints} {held : Held},
    state.calls[index]? = some call → call.stage = .returned (.ok held) →
    refused index ≠ some held.tokens.bearer

/-- The tokens that a call finds valid, or that its exchange ends with, are not the refused ones. -/
def Renews (state : AuthState Challenge Endpoints) : AuthAction Challenge Endpoints → Prop
  | .step index event => ∀ call ∈ state.calls[index]?,
    match call.stage, clock event with
    | .arriving, some now | .waiting, some now => state.phase = .complete →
      ∀ held ∈ state.validTokens now, refused index ≠ some held.tokens.bearer
    | .publishing (.ok tokens), _ => refused index ≠ some tokens.bearer
    | _, _ => True
  | _ => True

variable {refused}

theorem renewed_change {next} (found : state.calls[index]? = some call)
    (open_ : ∀ outcome, call.stage ≠ .returned outcome)
    (calls : after.calls = state.calls.set index next)
    : after.Renewed refused ↔ state.Renewed refused
      ∧ ∀ held, next.stage = .returned (.ok held) → refused index ≠ some held.tokens.bearer := by
  constructor
  · intro renewed
    refine ⟨fun {other beside held} is back => renewed ?_ back, fun held => renewed ?_⟩
    · rw [calls, List.getElem?_set_ne]
      · exact is
      · rintro rfl
        cases found.symm.trans is
        exact open_ _ back
    · rw [calls, List.getElem?_set_self (List.getElem?_eq_some_iff.mp found).1]
  · rintro ⟨renewed, own⟩ other beside held is back
    rw [calls] at is
    rcases getElem?_set_cases is with ⟨rfl, rfl⟩ | ⟨_, is⟩
    · exact own held back
    · exact renewed is back

/-- No refused token was returned after a step exactly if none was before and the step returns
none.
-/
theorem renewed_next {action} (moved : state.next invalidGrant action = some after)
    : after.Renewed refused ↔ state.Renewed refused ∧ state.Renews refused action := by
  cases action with
  | handleUnauthorized challenge =>
    cases moved
    refine ⟨fun renewed => ⟨fun is => ?_, trivial⟩, fun renewed _ _ _ is back => ?_⟩
    · refine renewed ((List.getElem?_append_left ?_).trans is)
      exact (List.getElem?_eq_some_iff.mp is).1
    · rcases getElem?_concat_cases is with is | ⟨_, rfl⟩
      · exact renewed.1 is back
      · cases back
  | step index event =>
    obtain ⟨call, found, moved⟩ := bind_eq_some_iff.mp moved
    have goesOn (seeded) (endpoints : Endpoints) (outcome)
        : exchange seeded endpoints ≠ .returned outcome := by
      cases seeded <;> exact nofun
    unfold move look lead publish at moved
    repeat' split at moved
    all_goals cases moved
    all_goals
      rw [renewed_change found (by simp [*]) rfl]
      simp_all [Renews, clock]
  | bearerToken now =>
    simp only [AuthState.next] at moved
    split at moved <;> cases moved <;> exact (and_iff_left trivial).symm
  | clear =>
    cases moved
    exact (and_iff_left trivial).symm

end AuthState

theorem sound_initial {Challenge Endpoints} (refreshToken)
    : AuthState.Sound (⟨.idle, none, refreshToken, none, none, [], 0, []⟩
      : AuthState Challenge Endpoints) := by
  refine ⟨?_, ?_, ?_, ?_, ?_, ?_⟩
  all_goals
    intros
    contradiction

/-- In every state of every run in which `clear` is not called while an exchange is in
progress, for any answers of the provider and any times.
-/
theorem oauth_single_flight (Challenge Endpoints : Type) (invalidGrant : RpcError → Bool)
    (state : AuthState Challenge Endpoints)
    (reached : (oauthMachine Challenge Endpoints invalidGrant).Reaches AuthState.Undisturbed state)
    : state.SingleFlight invalidGrant := by
  have sound : state.Sound := by
    refine reached.invariant AuthState.Sound ?_ fun sound undisturbed moved =>
      sound.next undisturbed moved
    rintro _ ⟨refreshToken, rfl⟩
    exact sound_initial refreshToken
  exact sound.singleFlight

/-- In every run, for any answers of the provider and any times, a call gets another token than the
refused one exactly if it finds no valid tokens with it, and leads to no new ones with it.
-/
theorem refused_tokens_replaced_iff (Challenge Endpoints : Type) (invalidGrant : RpcError → Bool)
    (refused : Nat → Option String) {start state : AuthState Challenge Endpoints} {actions}
    (initial : (oauthMachine Challenge Endpoints invalidGrant).initial start)
    (ends : (oauthMachine Challenge Endpoints invalidGrant).exec start actions = some state)
    : state.Renewed refused
      ↔ (oauthMachine Challenge Endpoints invalidGrant).Meets (AuthState.Renews refused) start
        actions := by
  rw [Machine.exec_iff AuthState.renewed_next ends, and_iff_right]
  obtain ⟨refreshToken, rfl⟩ := initial
  exact nofun

namespace OAuthSample

abbrev machine := oauthMachine Unit Unit fun _ => false

def fresh : AuthState Unit Unit := ⟨.idle, none, none, none, none, [], 0, []⟩

def tokens : TokenSet := ⟨"token", none, some "again", none, false⟩

/-- The second call waits for the first, whose exchange goes through the device flow. -/
def actions : List (AuthAction Unit Unit) := [
  .handleUnauthorized (some ()), .handleUnauthorized none, .step 0 (.enter 0), .step 1 (.enter 0),
  .step 0 .read, .step 0 (.discover (.ok ())), .step 0 .store,
  .step 0 (.deviceCodeFlow (.ok tokens)), .step 0 .publish, .step 1 (.wake false 10),
  .bearerToken 20, .clear, .handleUnauthorized none, .step 2 (.enter 30)]

def last : AuthState Unit Unit :=
  { fresh with
    phase := .inProgress
    endpoints := some ()
    calls := [⟨some (), .returned (.ok ⟨tokens, 0, 0⟩), 0, 0⟩,
      ⟨none, .returned (.ok ⟨tokens, 0, 0⟩), 0, 0⟩, ⟨none, .reading, 1, 1⟩]
    cleared := 1
    presented := [(0, ⟨tokens, 0, 0⟩)] }

/-- A logout while the first call polls; another call comes. -/
def disturbed : List (AuthAction Unit Unit) := [
  .handleUnauthorized (some ()), .step 0 (.enter 0), .step 0 .read, .step 0 (.discover (.ok ())),
  .step 0 .store, .clear, .handleUnauthorized none, .step 1 (.enter 0)]

def published : List (AuthAction Unit Unit) := [
  .step 0 (.deviceCodeFlow (.ok tokens)), .step 0 .publish, .bearerToken 20]

def busy : AuthState Unit Unit :=
  { last with
    calls := [⟨some (), .polling (), 0, 0⟩, ⟨none, .reading, 1, 1⟩]
    presented := [] }

def stale : AuthState Unit Unit :=
  { last with
    phase := .complete
    tokens := some ⟨tokens, 0, 0⟩
    refreshToken := some "again"
    calls := [⟨some (), .returned (.ok ⟨tokens, 0, 0⟩), 0, 0⟩, ⟨none, .reading, 1, 1⟩]
    presented := [(1, ⟨tokens, 0, 0⟩)] }

/-- A token is presented, and the next call comes because it was refused. -/
def repeats : List (AuthAction Unit Unit) :=
  disturbed.take 5 ++ published ++ [.handleUnauthorized none, .step 1 (.enter 30)]

end OAuthSample

open OAuthSample

/-- One exchange serves two calls; after a logout another call starts the next one. -/
theorem oauth_single_flight_sample
    : machine.Reaches AuthState.Undisturbed last ∧ last.SingleFlight fun _ => false := by
  have ends : machine.exec fresh actions = some last := by decide
  have reached : machine.Reaches AuthState.Undisturbed last := by
    have start : machine.initial fresh := ⟨none, rfl⟩
    exact (Machine.Reaches.start start).exec (by decide) ends
  exact ⟨reached, oauth_single_flight Unit Unit _ last reached⟩

/-- The second call leads another exchange while the first one is in progress. When the first
one ends, its tokens are presented although its exchange began before the logout.
-/
theorem oauth_logout_undone
    : (∃ state, machine.exec fresh disturbed = some state
        ∧ ¬ state.SingleFlight fun _ => false)
      ∧ ∃ state, machine.exec fresh (disturbed ++ published) = some state
        ∧ state.presented = [(1, ⟨tokens, 0, 0⟩)]
        ∧ ¬ state.SingleFlight fun _ => false := by
  constructor
  · refine ⟨busy, by decide, fun flight => ?_⟩
    exact absurd (flight.alone (show busy.calls[0]? = some _ from rfl)
      (show busy.calls[1]? = some _ from rfl) rfl rfl) (by decide)
  · refine ⟨stale, by decide, rfl, fun flight => ?_⟩
    exact absurd (flight.presented (List.mem_singleton.mpr rfl)) (by decide)

/-- Calls that were made for a refused token return another one. -/
theorem refused_tokens_replaced_sample
    : last.Renewed (fun _ => some "old")
      ∧ machine.Meets (AuthState.Renews fun _ => some "old") fresh actions := by
  have renewed : last.Renewed fun _ => some "old" := by
    intro index call held is back
    rcases index with _ | _ | _ | _ <;> cases is <;> cases back <;> decide
  exact ⟨renewed, (refused_tokens_replaced_iff Unit Unit _ _ ⟨none, rfl⟩ (by decide)).mp renewed⟩

/-- The call that is made for the refusal of the token returns it. -/
theorem refused_token_returned
    : ∃ state, machine.exec fresh repeats = some state
      ∧ state.presented = [(0, ⟨tokens, 0, 0⟩)]
      ∧ ¬ state.Renewed fun index => if index = 1 then some "token" else none := by
  have ends : (machine.exec fresh repeats).map (fun state => (state.presented, state.calls[1]?))
      = some ([(0, ⟨tokens, 0, 0⟩)], some ⟨none, .returned (.ok ⟨tokens, 0, 0⟩), 0, 0⟩) := by
    decide
  obtain ⟨state, run, is⟩ := map_eq_some_iff.mp ends
  simp only [Prod.mk.injEq] at is
  exact ⟨state, run, is.1, fun renewed => renewed is.2 rfl rfl⟩

end Vgi.Client
