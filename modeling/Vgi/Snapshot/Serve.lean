import Vgi.Snapshot.Sharing

/-! What the answers and the commits of a snapshot policy rest on, whatever runs beside them. -/

namespace Vgi.Snapshot

open Lib List Shared Option Bool

variable (key manifestId : String)

def withdraws : SnapshotEvent → Bool
  | ⟨_, .withdraw other id, .ok true⟩ => other = key && id = manifestId
  | _ => false

/-- The manifest was put into the repository, by a commit or by another process. -/
def commits : SnapshotEvent → Bool
  | ⟨_, .commitIfAbsent manifest, .ok winner⟩ =>
    winner = manifest && manifest.cacheKey = key && manifest.manifestId = manifestId
  | ⟨_, .elsewhere (.put manifest), _⟩ =>
    manifest.cacheKey = key && manifest.manifestId = manifestId
  | _ => false

/-- Withdrawn, and not committed again since. -/
def withdrawn (trace : SnapshotTrace) : Bool :=
  trace.foldl (fun was event =>
    withdraws key manifestId event || was && !commits key manifestId event) false

theorem Surroundings.repository_eq_ok {α : Type} {surroundings : Surroundings} {value result : α}
    (is : surroundings.repository value = .ok result) : result = value := by
  unfold repository at is
  split at is
  · cases is
  · exact (Except.ok.inj is).symm

namespace CatalogSnapshotPolicy

variable (policy : CatalogSnapshotPolicy) (trace : SnapshotTrace)

variable (call : Nat)

/-- The call has read the manifest back and found it valid for the identity. -/
def ReadBack (key : String) (identity : SnapshotIdentity)
    (manifest : Manifest) : Prop :=
  ∃ now response, ⟨call, .now, .ok now⟩ ∈ trace ∧ ⟨call, .fetch manifest, .ok response⟩ ∈ trace
    ∧ policy.Acceptable key identity manifest now ∧ Agrees manifest response
    ∧ policy.schemaContents response = .ok ()

/-- The manifest, perhaps at another address, was read back for an identity with this key. -/
def Proved (material : KeyMaterial) (manifest : Manifest) : Prop :=
  ∃ call request identity original url expiresAt, ⟨call, .identity request, .ok identity⟩ ∈ trace
    ∧ policy.keyMaterial request identity = material
    ∧ policy.ReadBack trace call (policy.keyDigest material) identity original
    ∧ manifest = original.relocate url expiresAt

/-- The snapshot of the origin was built, or read back, for the identity that the answer is
keyed by, and the call observed that identity again afterwards.
-/
def Grounded : Origin → Prop
  | .validator request => ∃ etag, ⟨call, .validator request, .ok (some etag)⟩ ∈ trace
  | .manifest request identity key manifest =>
    policy.cacheKey request identity = .ok key
    ∧ ∃ early later, trace = early ++ later
      ∧ policy.Proved early (policy.keyMaterial request identity) manifest
      ∧ ⟨call, .identity request, .ok identity⟩ ∈ later
  | .built request identity value =>
    value.notModified = false
    ∧ value.catalogVersion = identity.catalogVersion
    ∧ policy.schemaContents value = .ok ()
    ∧ ∃ early middle later, trace = early ++ middle ++ later
      ∧ ⟨call, .identity request, .ok identity⟩ ∈ early
      ∧ ⟨call, .build, .ok value⟩ ∈ middle
      ∧ ⟨call, .identity request, .ok identity⟩ ∈ later

/-- The answer is the reference of its manifest, the tag of its snapshot, or the snapshot. -/
def Fits (answer : Answer) : Prop :=
  match answer.origin, answer.delivery with
  | .validator request, .inline response =>
    ∃ etag, response = .unchanged request.catalogVersion etag
  | .manifest _ _ _ manifest, .published reference => policy.reference manifest = .ok reference
  | .manifest _ _ _ manifest, .inline response =>
    ∃ etag, manifest.etag = some etag ∧ response = .unchanged manifest.catalogVersion etag
  | .built _ _ value, .inline response =>
    response = value
    ∨ response = .unchanged value.catalogVersion (value.etag.getD (policy.responseDigest value))
  | _, _ => False

/-- The call has read the manifest back, and every identity that it observed since then is the
one the manifest is keyed by.
-/
def Committable (manifest : Manifest) : Prop :=
  ∃ request identity early later, trace = early ++ later
    ∧ policy.cacheKey request identity = .ok manifest.cacheKey
    ∧ policy.ReadBack early call manifest.cacheKey identity manifest
    ∧ ⟨call, .identity request, .ok identity⟩ ∈ later
    ∧ ∀ other result, ⟨call, .identity other, result⟩ ∈ later → result = .ok identity

/-- Neither mixed nor withdrawn snapshots are handed out. -/
structure Trustworthy (trace : SnapshotTrace) : Prop where
  answers : ∀ {before after : SnapshotTrace} {call : Nat} {answer : Answer},
    trace = before ++ ⟨call, .deliver answer, .ok ()⟩ :: after →
    policy.Fits answer ∧ policy.Grounded before call answer.origin
  commits : ∀ {before after : SnapshotTrace} {call : Nat} {manifest : Manifest}
    {result : Result Manifest},
    trace = before ++ ⟨call, .commitIfAbsent manifest, result⟩ :: after →
    policy.Committable before call manifest
  /-- A manifest that a call hands out after `invalidate` has returned was committed again. -/
  withdrawals : ∀ {before between after : SnapshotTrace} {caller server : Nat}
    {request : SnapshotRequest} {identity : SnapshotIdentity} {key : String}
    {manifest : Manifest} {delivery : SnapshotDelivery},
    trace = before ++ ⟨caller, .invalidated key manifest.manifestId (.ok true), .ok ()⟩ :: between
      ++ ⟨server, .deliver ⟨.manifest request identity key manifest, delivery⟩, .ok ()⟩ :: after →
    (∀ event ∈ before, event.call ≠ server) →
    ∃ first second,
      before = first ++ ⟨caller, .withdraw key manifest.manifestId, .ok true⟩ :: second
      ∧ ∃ event ∈ second ++ between, Snapshot.commits key manifest.manifestId event = true

def Owns (call index : Nat) : Prop := ∃ kind, ⟨call, .enter kind, .ok index⟩ ∈ trace

def stage (trace : SnapshotTrace) (index : Nat) : Option GateStage :=
  (policy.shared trace).gates.calls[index]?.map (·.stage)

/-- The call works under the gate of the key. -/
def Holds (key : String) : Prop :=
  ∃ index gate, Owns trace call index ∧ policy.stage trace index = some (.working key gate)

/-- A commit meets a live manifest of its own id only if that is the same publication, perhaps
at another address, and what is built is complete.
-/
def Steady (op : SnapshotOp) (surroundings : Surroundings) : Prop :=
  match op with
  | .commitIfAbsent manifest =>
    ∀ winner ∈ (policy.shared trace).found manifest.cacheKey,
      winner.manifestId = manifest.manifestId →
      winner = manifest.relocate winner.url winner.expiresAt
  | .build => ∀ value ∈ surroundings.built.toOption, value.notModified = false
  | _ => True

/-- What each operation of a call needs. -/
def Allowed : SnapshotOp → Prop
  | .gate action => ∃ index, action.index? = some index ∧ Owns trace call index
  | .remember key manifest =>
    policy.Holds trace call key
    ∧ (∃ material, policy.keyDigest material = key ∧ policy.Proved trace material manifest)
    ∧ withdrawn key manifest.manifestId trace = false
  | .withdraw key manifestId =>
    policy.Holds trace call key
    ∧ ∀ manifest ∈ (policy.shared trace).memo key, manifest.manifestId ≠ manifestId
  | .commitIfAbsent manifest => policy.Committable trace call manifest
  | .deliver answer =>
    policy.Fits answer ∧ policy.Grounded trace call answer.origin
    ∧ ∀ request identity key manifest, answer.origin = .manifest request identity key manifest →
      ∃ early later, trace = early ++ later ∧ (∃ event ∈ early, event.call = call)
        ∧ withdrawn key manifest.manifestId early = false
  | .invalidated key manifestId result =>
    result = .ok true → ⟨call, .withdraw key manifestId, .ok true⟩ ∈ trace
  | _ => True

/-- The others leave the stage of a call at its gate alone, and what a gate protects. -/
def rules : Rules SnapshotOp SnapshotOp.Res where
  may trace call op result :=
    ∃ surroundings, policy.world.answer trace call op surroundings = some result
      ∧ policy.Steady trace op surroundings
  allowed := policy.Allowed
  calm trace call event :=
    (∀ index, Owns trace call index →
      policy.stage (trace ++ [event]) index = policy.stage trace index)
    ∧ ∀ key, policy.Holds trace call key →
      ∀ other, (∀ manifest, event.op ≠ .remember key manifest) ∧ event.op ≠ .withdraw key other

variable {policy}

theorem withdrawn_concat (key manifestId trace event)
    : withdrawn key manifestId (trace ++ [event])
      = (withdraws key manifestId event
        || withdrawn key manifestId trace && !Snapshot.commits key manifestId event) := by
  simp only [withdrawn, foldl_append, foldl_cons, foldl_nil]

variable {key} {later : SnapshotTrace} {call} {manifest : Manifest}
  {event : SnapshotEvent}

theorem withdraws_eq_true {manifestId} (is : withdraws key manifestId event = true)
    : event = ⟨event.call, .withdraw key manifestId, .ok true⟩ := by
  unfold withdraws at is
  split at is
  · simp only [and_eq_true, decide_eq_true_eq] at is
    obtain ⟨rfl, rfl⟩ := is
    rfl
  · cases is

theorem ReadBack.mono {trace identity}
    (read : policy.ReadBack trace call key identity manifest) (grew : trace <+: later)
    : policy.ReadBack later call key identity manifest := by
  obtain ⟨now, response, clock, fetched, facts⟩ := read
  exact ⟨now, response, grew.subset clock, grew.subset fetched, facts⟩

theorem Proved.mono {trace material}
    (proved : policy.Proved trace material manifest) (grew : trace <+: later)
    : policy.Proved later material manifest := by
  obtain ⟨call, request, identity, original, url, expiresAt, observed, keyed, read, is⟩ := proved
  exact ⟨call, request, identity, original, url, expiresAt, grew.subset observed, keyed,
    read.mono grew, is⟩

theorem Owns.mono {trace index} (owns : Owns trace call index)
    (grew : trace <+: later) : Owns later call index :=
  owns.imp fun _ entered => grew.subset entered

/-- The invariants of the shared state. -/
structure Ordered (policy : CatalogSnapshotPolicy) (trace : SnapshotTrace) : Prop where
  gates : (policy.shared trace).gates.Sound
  owned : ∀ {call index : Nat}, Owns trace call index →
    index < (policy.shared trace).gates.calls.length
  owner : ∀ {call other index : Nat}, Owns trace call index → Owns trace other index → call = other
  memo : ∀ {key : String} {manifest : Manifest},
    (policy.shared trace).memo key = some manifest →
    (∃ material, policy.keyDigest material = key ∧ policy.Proved trace material manifest)
    ∧ withdrawn key manifest.manifestId trace = false
  live : ∀ {key : String} {manifest : Manifest},
    (policy.shared trace).found key = some manifest →
    withdrawn key manifest.manifestId trace = false

namespace Ordered

variable {trace}

theorem empty : Ordered policy [] where
  gates := ⟨fun found => by simp [shared, Shared.empty] at found,
    fun found => by simp [shared, Shared.empty] at found⟩
  owned owns := absurd owns.choose_spec not_mem_nil
  owner owns := absurd owns.choose_spec not_mem_nil
  memo found := by simp [shared, Shared.empty, Shared.memo] at found
  live found := by simp [shared, Shared.empty, Shared.found] at found

theorem gates_concat (ordered : Ordered policy trace)
    : (policy.shared (trace ++ [event])).gates.Sound := by
  have taken (action : GateAction)
      : (((policy.shared trace).gates.next action).getD (policy.shared trace).gates).Sound := by
    cases next : (policy.shared trace).gates.next action with
    | none => exact ordered.gates
    | some after => exact ordered.gates.next next
  rw [shared_concat, gates_after]
  split
  · exact taken _
  · exact taken _
  · exact ordered.gates

variable {index : Nat}

/-- An operation keeps the stages at the gates, except that of the call which acts there. -/
theorem calls_concat (inside : index < (policy.shared trace).gates.calls.length)
    (other : ∀ action, event.op = .gate action → action.index? ≠ some index)
    : (policy.shared (trace ++ [event])).gates.calls[index]?
      = (policy.shared trace).gates.calls[index]? := by
  rw [shared_concat, gates_after]
  split
  · simp only [GateState.next, getD_some, getElem?_append_left inside]
  next action is =>
    cases next : (policy.shared trace).gates.next action with
    | none => rfl
    | some after =>
      rw [getD_some]
      rcases GateState.calls_next next with ⟨kind, _, calls⟩ | ⟨acting, call, by_, calls⟩
      · rw [calls, getElem?_append_left inside]
      · rw [calls, getElem?_set_ne]
        rintro rfl
        exact other action is by_
  · rfl

theorem length_le_concat (trace event)
    : (policy.shared trace).gates.calls.length
      ≤ (policy.shared (trace ++ [event])).gates.calls.length := by
  rw [shared_concat, gates_after]
  split
  · simp [GateState.next]
  next action _ =>
    cases next : (policy.shared trace).gates.next action with
    | none => exact Nat.le_refl _
    | some after =>
      rcases GateState.calls_next next with ⟨kind, _, calls⟩ | ⟨acting, call, _, calls⟩
      · simp [calls]
      · simp [calls]
  · exact Nat.le_refl _

theorem owns_concat (owns : Owns (trace ++ [event]) call index)
    : Owns trace call index ∨ ∃ kind, event = ⟨call, .enter kind, .ok index⟩ := by
  obtain ⟨kind, entered⟩ := owns
  rcases mem_append.mp entered with earlier | last
  · exact .inl ⟨kind, earlier⟩
  · exact .inr ⟨kind, (mem_singleton.mp last).symm⟩

variable (ordered : Ordered policy trace)

include ordered

variable (may : policy.rules.may trace event.call event.op event.result)

include may

theorem owned_concat (owns : Owns (trace ++ [event]) call index)
    : index < (policy.shared (trace ++ [event])).gates.calls.length := by
  rcases owns_concat owns with earlier | ⟨kind, rfl⟩
  · exact Nat.lt_of_lt_of_le (ordered.owned earlier) (length_le_concat trace event)
  · obtain ⟨_, answer, _⟩ := may
    cases answer
    simp [gates_after, GateState.next]

theorem owner_concat {other} (owns : Owns (trace ++ [event]) call index)
    (owned : Owns (trace ++ [event]) other index)
    : call = other := by
  -- An index that a call enters with is the number of calls before it.
  have fresh {call other : Nat} {kind : CallKind} (earlier : Owns trace call index)
      (is : event = ⟨other, .enter kind, .ok index⟩) : False := by
    subst is
    obtain ⟨_, answer, _⟩ := may
    cases answer
    exact Nat.lt_irrefl _ (ordered.owned earlier)
  rcases owns_concat owns with earlier | ⟨kind, is⟩
  · rcases owns_concat owned with before | ⟨_, last⟩
    · exact ordered.owner earlier before
    · exact (fresh earlier last).elim
  · rcases owns_concat owned with before | ⟨_, last⟩
    · exact (fresh before is).elim
    · cases is.symm.trans last
      rfl

omit may in
/-- Only what was proved comes into the memo, and a withdrawal takes it out under the gate. -/
theorem memo_concat (allowed : policy.Allowed trace event.call event.op)
    (found : (policy.shared (trace ++ [event])).memo key = some manifest)
    : (∃ material, policy.keyDigest material = key
        ∧ policy.Proved (trace ++ [event]) material manifest)
      ∧ withdrawn key manifest.manifestId (trace ++ [event]) = false := by
  have grew : trace <+: trace ++ [event] := prefix_append _ _
  rw [shared_concat] at found
  rcases memo_after found with remembered | before
  · rw [remembered] at allowed
    obtain ⟨_, ⟨material, is, proved⟩, current⟩ := allowed
    refine ⟨⟨material, is, proved.mono grew⟩, ?_⟩
    rw [withdrawn_concat, current, Bool.false_and, Bool.or_false, Bool.eq_false_iff]
    intro withdrawing
    rw [withdraws_eq_true withdrawing] at remembered
    cases remembered
  · obtain ⟨⟨material, is, proved⟩, current⟩ := ordered.memo before
    refine ⟨⟨material, is, proved.mono grew⟩, ?_⟩
    rw [withdrawn_concat, current, Bool.false_and, Bool.or_false, Bool.eq_false_iff]
    intro withdrawing
    rw [withdraws_eq_true withdrawing] at allowed
    exact allowed.2 manifest before rfl

/-- A manifest that is live was not withdrawn, or was put back since. -/
theorem live_concat (found : (policy.shared (trace ++ [event])).found key = some manifest)
    : withdrawn key manifest.manifestId (trace ++ [event]) = false := by
  have kept (current : withdrawn key manifest.manifestId trace = false)
      : withdrawn key manifest.manifestId (trace ++ [event]) = false := by
    rw [withdrawn_concat, current, Bool.false_and, Bool.or_false, eq_false_iff]
    intro withdrawing
    rw [shared_concat, withdraws_eq_true withdrawing] at found
    exact (found_invalidate found).2 ⟨rfl, rfl⟩
  rw [shared_concat] at found
  rcases found_after found with before | ⟨rfl, source⟩
  · exact kept (ordered.live before)
  · rcases source with ⟨absent, call, winner, rfl⟩ | ⟨call, old, rfl⟩ | ⟨call, result, rfl⟩
    · obtain ⟨surroundings, answer, _⟩ := may
      have committed := Surroundings.repository_eq_ok (some.inj answer)
      simp only [commitIfAbsent, absent] at committed
      simp [withdrawn_concat, withdraws, commits, committed]
    · obtain ⟨surroundings, answer, _⟩ := may
      have renewed := Surroundings.repository_eq_ok (some.inj answer)
      obtain ⟨sameKey, winner, before, sameId⟩ := renewal_spec renewed.symm
      refine kept ?_
      rw [sameKey, ← sameId]
      exact ordered.live before
    · simp [withdrawn_concat, withdraws, commits]

end Ordered

theorem ordered {trace} (orderly : policy.rules.Orderly trace) : Ordered policy trace := by
  induction orderly with
  | nil => exact .empty
  | snoc _ allowed may ih =>
    exact ⟨ih.gates_concat, ih.owned_concat may, ih.owner_concat may, ih.memo_concat allowed,
      ih.live_concat may⟩

/-- Two calls do not work under the gate of one key. -/
theorem Ordered.exclusive {trace} (ordered : Ordered policy trace) {other}
    (holds : policy.Holds trace call key) (held : policy.Holds trace other key)
    : call = other := by
  obtain ⟨index, gate, owns, works⟩ := holds
  obtain ⟨otherIndex, otherGate, owned, working⟩ := held
  obtain ⟨one, found, oneWorks⟩ := map_eq_some_iff.mp works
  obtain ⟨second, secondFound, secondWorks⟩ := map_eq_some_iff.mp working
  have first := ordered.gates.current found (by rw [oneWorks]; rfl)
  have current := ordered.gates.current secondFound (by rw [secondWorks]; rfl)
  cases first.symm.trans current
  cases ordered.gates.alone found secondFound oneWorks secondWorks
  exact ordered.owner owns owned

/-- What a call may do is calm to every other. -/
theorem calm_of_allowed {trace} (orderly : policy.rules.Orderly trace) (ne : event.call ≠ call)
    (allowed : policy.rules.allowed trace event.call event.op)
    : policy.rules.calm trace call event := by
  have ordered := ordered orderly
  refine ⟨fun index owns => ?_, fun key holds manifestId => ⟨fun manifest is => ?_, fun is => ?_⟩⟩
  · unfold stage
    rw [Ordered.calls_concat (ordered.owned owns)]
    intro action is acting
    simp only [is] at allowed
    obtain ⟨other, by_, owned⟩ := allowed
    cases by_.symm.trans acting
    exact ne (ordered.owner owned owns)
  · simp only [is] at allowed
    exact ne (ordered.exclusive allowed.1 holds)
  · simp only [is] at allowed
    exact ne (ordered.exclusive allowed.1 holds)

end CatalogSnapshotPolicy

end Vgi.Snapshot
