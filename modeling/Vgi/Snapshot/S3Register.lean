import Mathlib.Data.List.Permutation
import Vgi.Lib.Frame
import Vgi.Snapshot.S3
import Vgi.Storage.FsLayout

/-! The repository on S3 is a register for each key: as long as no manifest is renewed while an
invalidation of it is between its read and its write, every completed call has the answer and the
effect of an operation that is done at once, in an order that agrees with time.
-/

namespace Vgi.Snapshot

open Lib S3Repository Option Function Objects List S3State Placed

/-- At most one live manifest for each key. -/
abbrev Register := String → Option JsonManifest

/-- The operations on the register, each at once. -/
def register : Atomic Register S3Op S3Answer where
  apply live
    | .lookup key, .found found => if found = live key then some live else none
    | .commitIfAbsent manifest, .committed winner =>
      match live manifest.cacheKey with
      | some current => if winner = current then some live else none
      | none =>
        if winner = manifest then
          some (update live manifest.cacheKey (some manifest))
        else none
    | .invalidate key manifestId, .invalidated done =>
      if (live key).map (·.manifestId) = some manifestId then
        if done then some (update live key none) else none
      else if done then none else some live
    | .renew manifest, .renewed result now =>
      match live manifest.cacheKey with
      | none => if result = none then some live else none
      | some current =>
        if current.manifestId ≠ manifest.manifestId then
          if result = some current then some live else none
        else
          match result with
          | none => if (remaining? current now).isNone then some live else none
          | some renewed =>
            if (remaining? current now).isSome
                ∧ renewed = current.relocate renewed.url renewed.expiresAt then
              some (update live manifest.cacheKey (some renewed))
            else none
    | _, _ => none

/-- The live manifests in a bucket. -/
def S3Repository.live (repo : S3Repository) (objects : Objects) : Register := fun key =>
  (objects (repo.manifestKey key)).bind fun bytes => (repo.json.decode bytes).toOption.join

section

variable {repo : S3Repository} {objects : Objects} {key : String} {put : S3Put}

theorem manifestKey_injective (repo : S3Repository) {other}
    (same : repo.manifestKey key = repo.manifestKey other) : key = other := by
  exact (String.append_right_inj _).mp ((String.append_left_inj _).mp same)

/-- Every manifest object is absent, a tombstone, or a manifest of its own key. -/
structure Stored (repo : S3Repository) (objects : Objects) : Prop where
  content : ∀ key bytes, objects (repo.manifestKey key) = some bytes →
    bytes = tombstone ∨ ∃ manifest : JsonManifest, manifest.cacheKey = key
      ∧ bytes = repo.json.encode manifest

theorem live_of_absent (is : objects (repo.manifestKey key) = none)
    : repo.live objects key = none := by
  simp only [live, is, bind_none]

section Contents

variable (lawful : repo.json.Lawful)
include lawful

theorem encode_ne_tombstone (manifest) : repo.json.encode manifest ≠ tombstone := by
  intro same
  have decoded := lawful.manifest manifest
  rw [same, lawful.tombstone] at decoded
  cases decoded

variable {manifest : JsonManifest}

theorem encode_injective {other}
    (same : repo.json.encode manifest = repo.json.encode other) : manifest = other := by
  have decoded := lawful.manifest manifest
  rw [same, lawful.manifest other] at decoded
  cases decoded
  rfl

variable {loaded : Option JsonManifest × Option String}

theorem live_of_encode (is : objects (repo.manifestKey key) = some (repo.json.encode manifest))
    : repo.live objects key = some manifest := by
  simp only [live, is, bind_some, lawful.manifest]
  rfl

theorem live_of_tombstone (is : objects (repo.manifestKey key) = some tombstone)
    : repo.live objects key = none := by
  simp only [live, is, bind_some, lawful.tombstone]
  rfl

variable (loads : repo.load objects key = .ok loaded)

include loads

variable (stored : Stored repo objects)

include stored

/-- What a call reads: nothing, a tombstone, or a manifest of the key, with its version. -/
theorem load_eq_ok : (loaded = (none, none) ∧ objects (repo.manifestKey key) = none)
      ∨ (loaded = (none, some (repo.etag tombstone))
        ∧ objects (repo.manifestKey key) = some tombstone)
      ∨ ∃ manifest, manifest.cacheKey = key
        ∧ loaded = (some manifest, some (repo.etag (repo.json.encode manifest)))
        ∧ objects (repo.manifestKey key) = some (repo.json.encode manifest) := by
  unfold load at loads
  split at loads
  next absent =>
    cases loads
    exact .inl ⟨rfl, absent⟩
  next bytes present =>
    obtain ⟨_, -, loads⟩ := bind_eq_ok.mp loads
    obtain ⟨found, decoded, is⟩ := bind_eq_ok.mp loads
    cases is
    rcases stored.content key bytes present with rfl | ⟨manifest, own, rfl⟩
    · rw [lawful.tombstone] at decoded
      cases decoded
      exact .inr (.inl ⟨rfl, present⟩)
    · rw [lawful.manifest] at decoded
      cases decoded
      exact .inr (.inr ⟨manifest, own, rfl, present⟩)

theorem load_live : repo.live objects key = loaded.1 := by
  rcases load_eq_ok lawful loads stored with ⟨rfl, is⟩ | ⟨rfl, is⟩ | ⟨manifest, -, rfl, is⟩
  · exact live_of_absent is
  · exact live_of_tombstone lawful is
  · exact live_of_encode lawful is

end Contents

theorem manifestKey_ne {other} (name : put.name = repo.manifestKey key) (different : other ≠ key)
    : repo.manifestKey other ≠ put.name := by
  rw [name]
  exact fun equal => different (manifestKey_injective repo equal)

/-- A write changes the register at its key only. -/
theorem live_write (name : put.name = repo.manifestKey key)
    : repo.live (objects.write put)
      = update (repo.live objects) key (repo.json.decode put.bytes).toOption.join := by
  funext other
  unfold live write
  by_cases same : other = key
  · subst same
    rw [name, update_self, update_self, bind_some]
  · rw [update_of_ne same, update_of_ne (manifestKey_ne name same)]

/-- A write of a tombstone or of a manifest of its key. -/
theorem Stored.write (stored : Stored repo objects) (name : put.name = repo.manifestKey key)
    (content : put.bytes = tombstone ∨ ∃ manifest, manifest.cacheKey = key
      ∧ put.bytes = repo.json.encode manifest)
    : Stored repo (objects.write put) := by
  constructor
  intro other bytes is
  unfold Objects.write at is
  by_cases same : other = key
  · subst same
    rw [name, update_self] at is
    cases is
    exact content
  · rw [update_of_ne (manifestKey_ne name same)] at is
    exact stored.content other bytes is

/-- The manifest of an invalidation is still there, or there was a moment of the call at which
the key had no live manifest of that id.
-/
def Awaits (repo : S3Repository) (state : S3State) (order : List (Placed S3Op S3Answer))
    (call : Nat) (manifest : JsonManifest) : Prop :=
  state.objects (repo.manifestKey manifest.cacheKey) = some (repo.json.encode manifest)
    ∨ ∃ moment, Linearizes.Moment register (fun _ => none) state.history order call moment
      ∧ (moment manifest.cacheKey).map (·.manifestId) ≠ some manifest.manifestId

/-- What a pending write is, and which content it replaces; `awaits` is said of the manifest that
an invalidation replaces.
-/
def Planned (repo : S3Repository) (awaits : JsonManifest → Prop) (op : S3Op) (put : S3Put) : Prop :=
  match op with
  | .lookup _ => False
  | .commitIfAbsent manifest =>
    put = repo.putManifest manifest put.condition (.committed manifest)
      ∧ (put.condition = .absent ∨ put.condition = .matches (repo.etag tombstone))
  | .invalidate key manifestId =>
    ∃ manifest : JsonManifest, manifest.cacheKey = key ∧ manifest.manifestId = manifestId
      ∧ put = ⟨repo.manifestKey key, tombstone, .matches (repo.etag (repo.json.encode manifest)),
        .invalidated true⟩
      ∧ awaits manifest
  | .renew manifest =>
    ∃ (current : JsonManifest) (url : String) (expiresAt : Option Clock) (now : Clock),
      current.cacheKey = manifest.cacheKey ∧ current.manifestId = manifest.manifestId
      ∧ (remaining? current now).isSome
      ∧ put = repo.putManifest (current.relocate url expiresAt)
        (.matches (repo.etag (repo.json.encode current)))
        (.renewed (some (current.relocate url expiresAt)) now)

variable {op : S3Op} {awaits : JsonManifest → Prop}

theorem Planned.mono {awaits'}
    (planned : Planned repo awaits op put)
    (weaker : ∀ {key manifestId manifest}, op = .invalidate key manifestId →
      manifest.cacheKey = key → manifest.manifestId = manifestId → awaits manifest →
      awaits' manifest)
    : Planned repo awaits' op put := by
  cases op with
  | lookup key | commitIfAbsent manifest | renew manifest => exact planned
  | invalidate key manifestId =>
    obtain ⟨manifest, own, id, is, held⟩ := planned
    exact ⟨manifest, own, id, is, weaker rfl own id held⟩

section Decisions

variable (lawful : repo.json.Lawful)
include lawful

variable {presigned : Result String} {later now : Clock} (stored : Stored repo objects)

include stored

/-- A call that answers what it has read answers for the present register. -/
theorem afterLoad_answers {answer}
    (decided : (repo.load objects op.key).bind (repo.afterLoad op now later presigned)
      = .ok (.inl answer))
    : register.apply (repo.live objects) op answer = some (repo.live objects) := by
  obtain ⟨loaded, loads, decided⟩ := bind_eq_ok.mp decided
  have live := load_live lawful loads stored
  cases op with
  | lookup key =>
    cases decided
    simp only [register, S3Op.key] at live ⊢
    rw [live, if_pos rfl]
  | commitIfAbsent manifest =>
    rcases loaded with ⟨_ | current, _ | etag⟩
    · cases decided
    · cases decided
    all_goals
      cases decided
      simp only [S3Op.key] at live
      simp only [register, live, if_true]
  | invalidate key manifestId =>
    simp only [afterLoad] at decided
    split at decided
    next other =>
      cases decided
      simp only [S3Op.key] at live
      simp only [register, live, if_neg other, Bool.false_eq_true, if_false]
    · cases decided
  | renew manifest =>
    simp only [S3Op.key] at live
    simp only [afterLoad] at decided
    split at decided
    next absent =>
      cases decided
      simp only [register, live, absent, if_true]
    next current present =>
      split at decided
      next other =>
        cases decided
        simp only [register, live, present, if_pos other, if_true]
      next same =>
        split at decided
        next expired =>
          cases decided
          simp only [register, live, present, if_neg same, expired, isNone_none, if_true]
        · obtain ⟨url, -, decided⟩ := bind_eq_ok.mp decided
          cases decided

/-- A call that goes on to write replaces the content that it has read. -/
theorem afterLoad_plans
    (decided : (repo.load objects op.key).bind (repo.afterLoad op now later presigned)
      = .ok (.inr put))
    : Planned repo (fun manifest => objects (repo.manifestKey manifest.cacheKey)
        = some (repo.json.encode manifest)) op put := by
  obtain ⟨loaded, loads, decided⟩ := bind_eq_ok.mp decided
  rcases load_eq_ok lawful loads stored with ⟨rfl, is⟩ | ⟨rfl, is⟩ | ⟨current, own, rfl, is⟩
  · cases op with
    | commitIfAbsent manifest =>
      cases decided
      exact ⟨rfl, .inl rfl⟩
    | _ => cases decided
  · cases op with
    | commitIfAbsent manifest =>
      cases decided
      exact ⟨rfl, .inr rfl⟩
    | _ => cases decided
  · cases op with
    | lookup key | commitIfAbsent manifest => cases decided
    | invalidate key manifestId =>
      simp only [afterLoad] at decided
      split at decided
      · cases decided
      next same =>
        cases decided
        exact ⟨current, own, by simpa using same, rfl,
          (congrArg (fun key => objects (repo.manifestKey key)) own).trans is⟩
    | renew manifest =>
      simp only [afterLoad] at decided
      split at decided
      · cases decided
      next same =>
        split at decided
        · cases decided
        next remaining left =>
          obtain ⟨url, -, decided⟩ := bind_eq_ok.mp decided
          cases decided
          exact ⟨current, _, _, now, own, not_not.mp same, by rw [left]; rfl, rfl⟩

/-- A write that is accepted does what its operation does on the register. -/
theorem write_applies (etags : Injective repo.etag) (planned : Planned repo awaits op put)
    (accepted : repo.accepts objects put = true)
    : register.apply (repo.live objects) op put.answer = some (repo.live (objects.write put))
      ∧ Stored repo (objects.write put) := by
  have replaces : ∀ {bytes}, put.condition = .matches (repo.etag bytes) →
      objects put.name = some bytes := by
    intro bytes condition
    simp only [accepts, condition, decide_eq_true_eq] at accepted
    obtain ⟨content, is, same⟩ := map_eq_some_iff.mp accepted
    rw [is, etags same]
  cases op with
  | lookup key => exact planned.elim
  | commitIfAbsent manifest =>
    obtain ⟨is, condition⟩ := planned
    have name : put.name = repo.manifestKey manifest.cacheKey := by rw [is]; rfl
    have bytes : put.bytes = repo.json.encode manifest := by rw [is]; rfl
    have answer : put.answer = .committed manifest := by rw [is]; rfl
    -- The put was accepted, so the object is absent, or the tombstone that was read.
    have vacant : repo.live objects manifest.cacheKey = none := by
      rcases condition with condition | condition
      · simp only [accepts, condition, isNone_iff_eq_none] at accepted
        exact live_of_absent (name ▸ accepted)
      · exact live_of_tombstone lawful (name ▸ replaces condition)
    refine ⟨?_, stored.write name (.inr ⟨manifest, rfl, bytes⟩)⟩
    simp only [answer, register, vacant, live_write name, bytes, lawful.manifest]
    rfl
  | invalidate key manifestId =>
    obtain ⟨manifest, own, id, rfl, -⟩ := planned
    have present := live_of_encode lawful (replaces rfl)
    refine ⟨?_, stored.write rfl (.inl rfl)⟩
    rw [live_write rfl]
    simp only [register, present, map_some, id, lawful.tombstone]
    rfl
  | renew manifest =>
    obtain ⟨current, url, expiresAt, now, own, id, left, rfl⟩ := planned
    have name : (repo.putManifest (current.relocate url expiresAt)
        (.matches (repo.etag (repo.json.encode current)))
        (.renewed (some (current.relocate url expiresAt)) now)).name
        = repo.manifestKey manifest.cacheKey := by rw [← own]; rfl
    have present := live_of_encode lawful (name ▸ replaces rfl)
    refine ⟨?_, stored.write name (.inr ⟨current.relocate url expiresAt, own, rfl⟩)⟩
    rw [live_write name]
    have same : ¬ current.manifestId ≠ manifest.manifestId := not_not.mpr id
    simp only [putManifest, register, present, if_neg same, left, true_and, lawful.manifest]
    exact if_pos rfl

end Decisions

/-- The call is an invalidation of the manifest between its read and its write. -/
def S3Call.invalidates (manifest : JsonManifest) : S3Call → Bool
  | ⟨.invalidate key manifestId, .writing _ _⟩ =>
    key = manifest.cacheKey ∧ manifestId = manifest.manifestId
  | _ => false

/-- The manifest that the call renews with its put, if the store accepts it. -/
def S3Call.renews (repo : S3Repository) (objects : Objects) : S3Call → Option JsonManifest
  | ⟨.renew manifest, .writing _ put⟩ => if repo.accepts objects put then some manifest else none
  | _ => none

/-- No renewal of a manifest writes while an invalidation of it is between its read and its
write; a put that the store refuses may come at any time.
-/
def Undisturbed (repo : S3Repository) (state : S3State) : S3Action → Prop
  | .put call | .putLost call _ =>
    ∀ manifest ∈ state.calls[call]?.bind (S3Call.renews repo state.objects),
      ∀ other ∈ state.calls, other.invalidates manifest = false
  | _ => True

instance (repo state) : (action : S3Action) → Decidable (Undisturbed repo state action)
  | .put _ | .putLost .. => inferInstanceAs (Decidable (∀ manifest ∈ _, _))
  | .invoke _ | .get .. | .fail .. => .isTrue trivial

def S3Stage.pending : S3Stage → Bool
  | .reading _ | .writing _ _ => true
  | .returned _ | .failed _ => false

/-- What holds between any two steps, with the order of the operations so far. -/
structure Explained (repo : S3Repository) (state : S3State) (order : List (Placed S3Op S3Answer))
    : Prop where
  linear : Linearizes register (fun _ => none) state.history order (repo.live state.objects)
  stored : Stored repo state.objects
  begun : ∀ {call op}, .invoke call op ∈ state.history → call < state.calls.length
  invoked : ∀ {call op stage}, state.calls[call]? = some ⟨op, stage⟩ →
    .invoke call op ∈ state.history
  unplaced : ∀ {call op stage}, state.calls[call]? = some ⟨op, stage⟩ →
    stage.pending = true → call ∉ order.map Placed.call
  planned : ∀ {call op tries put},
    state.calls[call]? = some ⟨op, .writing tries put⟩ →
    Planned repo (Awaits repo state order call) op put

section Steps

variable {state after : S3State} {order placed : List (Placed S3Op S3Answer)} {call : Nat}
  {stage next : S3Stage} (explained : Explained repo state order)

include explained

/-- A step of one call keeps the invariant if the order still explains the history, nothing else
enters the order, and what the other calls wait for is kept.
-/
theorem Explained.step (is : state.calls[call]? = some ⟨op, stage⟩)
    (calls : after.calls = state.calls.set call ⟨op, next⟩)
    (events : ∀ other otherOp, .invoke other otherOp ∈ after.history
      ↔ .invoke other otherOp ∈ state.history)
    (linear : Linearizes register (fun _ => none) after.history placed (repo.live after.objects))
    (stored : Stored repo after.objects)
    (onlyOwn : ∀ other ∈ placed.map Placed.call, other = call ∨ other ∈ order.map Placed.call)
    (own : next.pending = true → call ∉ placed.map Placed.call)
    (others : ∀ {other key manifestId tries put manifest}, other ≠ call →
      state.calls[other]? = some ⟨.invalidate key manifestId, .writing tries put⟩ →
      manifest.cacheKey = key → manifest.manifestId = manifestId →
      Awaits repo state order other manifest → Awaits repo after placed other manifest)
    (plan : ∀ {tries put}, next = .writing tries put →
      Planned repo (Awaits repo after placed call) op put)
    : Explained repo after placed := by
  have found : ∀ {other entry}, after.calls[other]? = some entry →
      (other = call ∧ entry = ⟨op, next⟩) ∨ (other ≠ call ∧ state.calls[other]? = some entry) :=
    fun is => getElem?_set_cases (calls ▸ is)
  refine ⟨linear, stored, fun begun => ?_, fun at_ => ?_, fun at_ waits => ?_, fun at_ => ?_⟩
  · rw [calls, length_set]
    exact explained.begun ((events _ _).mp begun)
  · refine (events _ _).mpr ?_
    rcases found at_ with ⟨rfl, is_⟩ | ⟨-, at_⟩
    · cases is_
      exact explained.invoked is
    · exact explained.invoked at_
  · rcases found at_ with ⟨rfl, is_⟩ | ⟨ne, at_⟩
    · cases is_
      exact own waits
    · intro inside
      rcases onlyOwn _ inside with same | inside
      · exact ne same
      · exact explained.unplaced at_ waits inside
  · rcases found at_ with ⟨rfl, is_⟩ | ⟨ne, at_⟩
    · cases is_
      exact plan rfl
    · refine (explained.planned at_).mono fun opIs own id waits => ?_
      rw [opIs] at at_
      exact others ne at_ own id waits

variable {answer : S3Answer} {tries : Nat} {manifest : JsonManifest} {other : Nat}

omit explained in
/-- A moment of another call survives a response and a longer order. -/
theorem Awaits.later
    (waits : Awaits repo state order other manifest) (objects : after.objects = state.objects)
    (history : after.history = state.history ∨ after.history
      = state.history ++ [.respond call answer])
    (moments : ∀ moment, Linearizes.Moment register (fun _ => none) state.history order other moment
      → Linearizes.Moment register (fun _ => none) state.history placed other moment)
    : Awaits repo after placed other manifest := by
  rcases waits with there | ⟨moment, is, gone⟩
  · exact .inl (objects ▸ there)
  · refine .inr ⟨moment, ?_, gone⟩
    rcases history with same | more
    · rw [same]
      exact moments moment is
    · rw [more]
      exact (moments moment is).event nofun

/-- A pending call ends without effect: with an error, or to read again. -/
theorem Explained.quiet
    (is : state.calls[call]? = some ⟨op, stage⟩) (pending : stage.pending = true)
    (plan : ∀ {tries put}, next = .writing tries put →
      Planned repo (Awaits repo (state.setCall call op next) order call) op put)
    : Explained repo (state.setCall call op next) order :=
  explained.step is rfl (fun _ _ => Iff.rfl) explained.linear explained.stored
    (fun _ inside => .inr inside) (fun _ => explained.unplaced is pending)
    (fun _ _ _ _ waits => waits) plan

/-- A pending call returns an answer that is right at a moment of it and has no effect there. -/
theorem Explained.answers
    (is : state.calls[call]? = some ⟨op, stage⟩) (pending : stage.pending = true) {moment}
    (at_ : Linearizes.Moment register (fun _ => none) state.history order call moment)
    (applies : register.apply moment op answer = some moment)
    : ∃ placed, Explained repo (state.complete call op answer) placed := by
  obtain ⟨placed, linear, member, onlyOwn, moments⟩ :=
    explained.linear.place (explained.invoked is) (explained.unplaced is pending) at_ applies
  refine ⟨placed, explained.step is rfl (fun other otherOp => ?_) (linear.respond member)
    explained.stored onlyOwn (nofun) (fun ne _ _ _ waits => ?_)
    (nofun)⟩
  · simp [complete]
  · exact waits.later rfl (.inr rfl) (moments _)

variable (lawful : repo.json.Lawful) (etags : Function.Injective repo.etag)
  (is : state.calls[call]? = some ⟨op, .writing tries put⟩)

include is

section

variable (accepted : repo.accepts state.objects put = true)
  (undisturbed : Undisturbed repo state (.put call))

include lawful etags accepted undisturbed

/-- A write leaves the content that an invalidation waits for, or makes a moment of it. -/
theorem Explained.write_keeps {otherTries otherPut}
    (at_ : state.calls[other]? = some ⟨.invalidate manifest.cacheKey manifest.manifestId,
      .writing otherTries otherPut⟩)
    (there : state.objects (repo.manifestKey manifest.cacheKey) = some (repo.json.encode manifest))
    : state.objects.write put (repo.manifestKey manifest.cacheKey)
        = some (repo.json.encode manifest)
      ∨ repo.live (state.objects.write put) manifest.cacheKey = none := by
  by_cases elsewhere : repo.manifestKey manifest.cacheKey = put.name
  · refine .inr ?_
    have replaces : ∀ {bytes}, put.condition = .matches (repo.etag bytes) →
        bytes = repo.json.encode manifest := by
      intro bytes condition
      simp only [accepts, condition, decide_eq_true_eq, ← elsewhere, there,
        map_some, some_inj] at accepted
      exact (etags accepted).symm
    have planned := explained.planned is
    cases op with
    | lookup key => exact planned.elim
    | commitIfAbsent own =>
      -- The content is neither absent nor a tombstone.
      obtain ⟨-, condition | condition⟩ := planned
      · simp [accepts, condition, ← elsewhere, there] at accepted
      · exact absurd (replaces condition).symm (encode_ne_tombstone lawful manifest)
    | invalidate key manifestId =>
      obtain ⟨_, -, -, putIs, -⟩ := planned
      refine live_of_tombstone lawful ?_
      rw [elsewhere, write, update_self, putIs]
    | renew own =>
      obtain ⟨current, url, expiresAt, now, sameKey, sameId, -, rfl⟩ := planned
      cases encode_injective lawful (replaces rfl)
      rw [sameKey, sameId] at at_
      have quiet := undisturbed own (by rw [is]; exact if_pos accepted) _ (mem_of_getElem? at_)
      simp [S3Call.invalidates] at quiet
  · refine .inl ?_
    rw [write, update_of_ne elsewhere]
    exact there

/-- An accepted write takes effect, whether its answer arrives or not. -/
theorem Explained.effect
    (ended : next.pending = false) (objects : after.objects = state.objects.write put)
    (calls : after.calls = state.calls.set call ⟨op, next⟩) (history : after.history = state.history
      ∨ after.history = state.history ++ [.respond call put.answer])
    : Explained repo after (order ++ [⟨call, op, put.answer⟩]) := by
  obtain ⟨applies, stored⟩ := write_applies lawful explained.stored etags (explained.planned is)
    accepted
  have linear := explained.linear.takeEffect (explained.invoked is) (explained.unplaced is rfl)
    applies
  have linear' : Linearizes register (fun _ => none) after.history
      (order ++ [⟨call, op, put.answer⟩]) (repo.live after.objects) := by
    rw [objects]
    rcases history with same | more
    · rw [same]
      exact linear
    · rw [more]
      exact linear.respond (mem_append_right _ (mem_singleton_self _))
  refine explained.step is calls (fun other otherOp => ?_) linear' (objects ▸ stored)
    (fun other inside => ?_) (fun waits => ?_) ?_ (fun writes => ?_)
  · rcases history with same | more
    · rw [same]
    · rw [more]
      simp
  · rw [map_append, mem_append] at inside
    rcases inside with inside | last
    · exact .inr inside
    · exact .inl (mem_singleton.mp last)
  · rw [ended] at waits
    cases waits
  · intro other key manifestId otherTries otherPut manifest ne at_ own id waits
    subst own id
    rcases waits with there | ⟨moment, wasMoment, gone⟩
    · rcases explained.write_keeps lawful etags is accepted undisturbed at_ there with
        kept | vacant
      · exact .inl (objects ▸ kept)
      · refine .inr ⟨_, linear'.now other, ?_⟩
        rw [objects, vacant]
        exact nofun
    · refine .inr ⟨moment, ?_, gone⟩
      rcases history with same | more
      · rw [same]
        exact wasMoment.append _
      · rw [more]
        exact (wasMoment.append _).event nofun
  · rw [writes] at ended
    cases ended

end

/-- An invalidation that meets another version has had a moment without its manifest. -/
theorem Explained.conflict (refused : repo.accepts state.objects put = false)
    : ∃ placed, Explained repo (state.conflict call op tries) placed := by
  have again : ∀ next, (∀ tries put, next ≠ .writing tries put) →
      ∃ placed, Explained repo (state.setCall call op next) placed := fun next idle =>
    ⟨order, explained.quiet is rfl fun writes => absurd writes (idle _ _)⟩
  have planned := explained.planned is
  cases op with
  | lookup key => exact planned.elim
  | invalidate key manifestId =>
    obtain ⟨manifest, rfl, rfl, rfl, there | ⟨moment, at_, gone⟩⟩ := planned
    · simp [accepts, there] at refused
    · refine explained.answers is rfl at_ ?_
      simp only [register, if_neg gone, Bool.false_eq_true, if_false]
  | commitIfAbsent manifest | renew manifest =>
    cases tries <;> exact again _ fun _ _ same => by cases same

omit is

theorem Explained.invoke (op)
    : Explained repo { state with
        calls := state.calls ++ [⟨op, .reading op.tries⟩]
        history := state.history ++ [.invoke state.calls.length op] } order := by
  have fresh : state.calls.length ∉ order.map call := by
    intro inside
    obtain ⟨placed, member, is⟩ := mem_map.mp inside
    exact absurd (is ▸ explained.begun (explained.linear.invoked placed member)) (lt_irrefl _)
  refine ⟨explained.linear.invoke op fresh, explained.stored, fun begun => ?_, fun at_ => ?_,
    fun at_ waits => ?_, fun at_ => ?_⟩
  · rw [length_append, length_singleton]
    rcases mem_append.mp begun with earlier | last
    · exact Nat.lt_succ_of_lt (explained.begun earlier)
    · cases mem_singleton.mp last
      exact Nat.lt_succ_self _
  · rcases getElem?_concat_cases at_ with at_ | ⟨rfl, is⟩
    · exact mem_append_left _ (explained.invoked at_)
    · cases is
      exact mem_append_right _ (mem_singleton_self _)
  · rcases getElem?_concat_cases at_ with at_ | ⟨rfl, -⟩
    · exact explained.unplaced at_ waits
    · exact fresh
  · rcases getElem?_concat_cases at_ with at_ | ⟨-, writes⟩
    · refine (explained.planned at_).mono fun _ _ _ waits => ?_
      rcases waits with there | ⟨moment, is, gone⟩
      · exact .inl there
      · refine .inr ⟨moment, is.event fun otherOp same => ?_, gone⟩
        -- A call that writes was invoked before.
        cases same
        exact absurd (explained.begun (explained.invoked at_)) (lt_irrefl _)
    · cases writes

include lawful etags in
/-- Every step of an undisturbed run leaves an order that explains what was answered. -/
theorem Explained.keeps {action} (undisturbed : Undisturbed repo state action)
    (taken : state.next repo action = some after)
    : ∃ placed, Explained repo after placed := by
  cases action <;> simp only [S3State.next] at taken
  all_goals repeat' split at taken
  all_goals cases taken
  next op => exact ⟨order, explained.invoke op⟩
  next is _ answer decided => -- A `get` that answers.
    exact explained.answers is rfl (explained.linear.now _)
      (afterLoad_answers lawful explained.stored decided)
  next is _ put decided => -- A `get` before a write.
    refine ⟨order, explained.quiet is rfl fun writes => ?_⟩
    cases writes
    exact (afterLoad_plans lawful explained.stored decided).mono fun _ _ _ there => .inl there
  · exact ⟨order, explained.quiet ‹_› rfl fun writes => by cases writes⟩
  next is accepted => -- `put`
    exact ⟨_, explained.effect lawful etags is accepted undisturbed rfl rfl rfl (.inr rfl)⟩
  next is refused => exact explained.conflict is (Bool.eq_false_iff.mpr refused)
  · exact ⟨order, explained.quiet ‹_› rfl fun writes => by cases writes⟩
  · exact ⟨order, explained.quiet ‹_› rfl fun writes => by cases writes⟩
  next is accepted => -- A `put` whose answer is lost.
    exact ⟨_, explained.effect lawful etags is accepted undisturbed rfl rfl rfl (.inl rfl)⟩

end Steps

end

deriving instance Encodable for CatalogPublicationManifest

namespace S3Sample

def manifest : JsonManifest where
  cacheKey := "k"
  manifestId := "m1"
  protocolName := "vgi.v3"
  wireRevision := "3.0"
  contractHash := "c"
  codecRevision := "catalog-collections-1"
  catalogVersion := 1
  etag := none
  sha256 := "s"
  rawSize := 1
  storedSize := 1
  url := "u1"
  objectId := some "o"
  expiresAt := some (100 * nanosPerSecond)
  retainUntil := some (1000 * nanosPerSecond)
  stable := false
  formatVersion := 1
  validatorRevision := 1

def renewed : JsonManifest := manifest.relocate "u2" (some (120 * nanosPerSecond))

def json (url expiresAt : String) : Bytes :=
  utf8 "\x7b\"cache_key\":\"k\",\"manifest_id\":\"m1\",\"protocol_name\":\"vgi.v3\","
    ++ utf8 "\"wire_revision\":\"3.0\",\"contract_hash\":\"c\","
    ++ utf8 "\"codec_revision\":\"catalog-collections-1\",\"catalog_version\":1,\"etag\":null,"
    ++ utf8 "\"sha256\":\"s\",\"raw_size\":1,\"stored_size\":1,\"url\":\"" ++ utf8 url
    ++ utf8 "\",\"object_id\":\"o\",\"expires_at\":" ++ utf8 expiresAt
    ++ utf8 ",\"retain_until\":1000.0,\"stable\":false,\"format_version\":1,"
    ++ utf8 "\"validator_revision\":1\x7d"

def contents : List (Option JsonManifest × Bytes) := [
  (none, tombstone), (some manifest, json "u1" "100.0"), (some renewed, json "u2" "120.0")]

def repo : S3Repository where
  root := "p/"
  urlTtlSeconds := 100
  json := ⟨fun manifest => frameOf contents (some manifest), readFrame contents⟩
  etag := Storage.Fs.hex

theorem lawful : repo.json.Lawful where
  manifest other := by
    have known := @readFrame_frameOf _ _ _ contents (by decide +kernel) (by decide +kernel)
    exact known (some other)
  tombstone := by decide +kernel

def start : S3State := ⟨fun _ => none, [], []⟩

theorem etags : Injective repo.etag := fun _ _ same => Storage.Fs.hex_injective same

theorem short : (repo.json.encode manifest).length ≤ 1048576 := by decide +kernel

theorem start_initial : (s3Machine repo).initial start := ⟨rfl, rfl, rfl⟩

/-- Two invalidations and a renewal read the manifest. The second invalidation writes first; the
puts of the renewal and of the first one are refused.
-/
def actions : List S3Action := [
  .invoke (.commitIfAbsent manifest), .get 0 0 0 (.ok ""), .put 0,
  .invoke (.invalidate "k" "m1"), .invoke (.invalidate "k" "m1"), .invoke (.renew manifest),
  .get 1 0 0 (.ok ""), .get 2 0 0 (.ok ""),
  .get 3 (20 * nanosPerSecond) (20 * nanosPerSecond) (.ok "u2"), .put 2, .put 3, .put 1]

def raceHistory : List (CallEvent S3Op S3Answer) := [
  .invoke 0 (.commitIfAbsent manifest), .respond 0 (.committed manifest),
  .invoke 1 (.invalidate "k" "m1"), .invoke 2 (.invalidate "k" "m1"), .invoke 3 (.renew manifest),
  .respond 2 (.invalidated true), .respond 1 (.invalidated false)]

/-- The manifest is renewed while an invalidation has read it. -/
def disturbed : List S3Action := [
  .invoke (.commitIfAbsent manifest), .get 0 0 0 (.ok ""), .put 0,
  .invoke (.invalidate "k" "m1"), .get 1 0 0 (.ok ""),
  .invoke (.renew manifest), .get 2 (20 * nanosPerSecond) (20 * nanosPerSecond) (.ok "u2"),
  .put 2, .put 1]

def commitFirst : Placed S3Op S3Answer := ⟨0, .commitIfAbsent manifest, .committed manifest⟩

def invalidateLast : Placed S3Op S3Answer := ⟨1, .invalidate "k" "m1", .invalidated false⟩

def renewBetween : Placed S3Op S3Answer :=
  ⟨2, .renew manifest, .renewed (some renewed) (20 * nanosPerSecond)⟩

def refusedHistory : List (CallEvent S3Op S3Answer) := [
  .invoke 0 commitFirst.op, .respond 0 commitFirst.answer, .invoke 1 invalidateLast.op,
  .invoke 2 renewBetween.op, .respond 2 renewBetween.answer, .respond 1 invalidateLast.answer]

/-- Both runs, in any repository with versions that change with the content and room for the
manifest.
-/
theorem runs {repo} (lawful : repo.json.Lawful)
    (etags : Function.Injective repo.etag)
    (short : (repo.json.encode manifest).length ≤ 1048576) (ttl : repo.urlTtlSeconds = 100)
    : ((s3Machine repo).exec start actions).map history = some raceHistory
      ∧ (s3Machine repo).Meets (Undisturbed repo) start actions
      ∧ ((s3Machine repo).exec start disturbed).map history = some refusedHistory := by
  have gone : repo.etag tombstone ≠ repo.etag (repo.json.encode manifest) := fun same =>
    encode_ne_tombstone lawful manifest (etags same).symm
  have replaced : repo.etag (repo.json.encode renewed) ≠ repo.etag (repo.json.encode manifest) :=
    fun same => absurd (encode_injective lawful (etags same)) (by decide)
  have key : manifest.cacheKey = "k" := rfl
  have id : manifest.manifestId = "m1" := rfl
  have later : manifest.relocate "u2" (some (20 * nanosPerSecond
      + min (repo.urlTtlSeconds : Int) (980 * nanosPerSecond / nanosPerSecond) * nanosPerSecond))
      = renewed := by
    rw [ttl]
    rfl
  have newKey : renewed.cacheKey = "k" := rfl
  have remaining : remaining? manifest (20 * nanosPerSecond)
      = some (980 * nanosPerSecond) := by decide
  refine ⟨?_, ?_, ?_⟩
  all_goals
    simp [Machine.exec_nil, Machine.exec_cons, Machine.Meets, s3Machine, S3State.next, setCall,
      complete, conflict, load, afterLoad, accepts, putManifest, write, S3Op.key, S3Op.tries,
      actions, disturbed, start, key, id, lawful.manifest, gone, rejectIf, Nat.not_lt.mpr short,
      Except.mapError, pure, Except.pure, bind, Except.bind, Undisturbed, S3Call.renews, remaining,
      later, newKey, replaced, raceHistory, refusedHistory, commitFirst, invalidateLast,
      renewBetween]

end S3Sample

namespace S3Sample

def answered : List (Placed S3Op S3Answer) := [commitFirst, invalidateLast, renewBetween]

end S3Sample

end Vgi.Snapshot
