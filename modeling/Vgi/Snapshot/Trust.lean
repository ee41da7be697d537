import Vgi.Snapshot.Audience
import Vgi.Snapshot.Serve

/-! The calls of a snapshot policy follow its rules, so that no mixed or withdrawn snapshot is
handed out.
-/

namespace Vgi.Snapshot

open Lib List Option Rules.Runs Shared

namespace CatalogSnapshotPolicy

variable {policy : CatalogSnapshotPolicy} {trace later : SnapshotTrace} {call index : Nat}
  {key : String}

/-- The call works under the gate of the key. -/
structure Inside (policy : CatalogSnapshotPolicy) (call index : Nat) (key : String)
    (trace : SnapshotTrace) : Prop where
  owns : Owns trace call index
  working : ∃ gate, policy.stage trace index = some (.working key gate)

variable (inside : Inside policy call index key trace)

include inside

theorem Inside.holds : policy.Holds trace call key :=
  inside.working.elim fun gate works => ⟨index, gate, inside.owns, works⟩

/-- The call has gone on under its gate; no manifest of the key was withdrawn. -/
structure Grows (policy : CatalogSnapshotPolicy) (call index : Nat) (key : String)
    (trace later : SnapshotTrace) : Prop where
  grew : trace <+: later
  inside : Inside policy call index key later
  current : ∀ {manifestId}, withdrawn key manifestId trace = false →
    withdrawn key manifestId later = false

theorem Grows.refl : Grows policy call index key trace trace := ⟨prefix_refl _, inside, id⟩

omit inside in
theorem Grows.trans {latest} (first : Grows policy call index key trace later)
    (second : Grows policy call index key later latest)
    : Grows policy call index key trace latest :=
  ⟨first.grew.trans second.grew, second.inside, fun before => second.current (first.current before)⟩

variable {event : SnapshotEvent} {op : SnapshotOp} {found : Manifest}
  {delivery : SnapshotDelivery} {state after : GateState} {manifestId : String}
  {before : SnapshotTrace}

omit inside in
/-- One more operation, which changes neither the stage of the call nor withdraws. -/
theorem Grows.concat (grows : Grows policy call index key trace later)
    (stage : policy.stage (later ++ [event]) index = policy.stage later index)
    (keeps : ∀ manifestId, event.op ≠ .withdraw key manifestId)
    : Grows policy call index key trace (later ++ [event]) := by
  have grew : later <+: later ++ [event] := prefix_append _ _
  refine ⟨grows.grew.trans grew, ⟨grows.inside.owns.mono grew, ?_⟩, fun {manifestId} before => ?_⟩
  · rw [stage]
    exact grows.inside.working
  · rw [withdrawn_concat, grows.current before, Bool.false_and, Bool.or_false, Bool.eq_false_iff]
    intro withdrawing
    exact keeps manifestId (by rw [withdraws_eq_true withdrawing])

theorem Grows.quiet
    (quiet : policy.rules.Quiet call trace later) : Grows policy call index key trace later := by
  refine quiet.keeps (Grows policy call index key trace) ?_ (.refl inside)
  intro later event grows _ _ calm
  exact grows.concat (calm.1 index grows.inside.owns) fun manifestId =>
    (calm.2 key grows.inside.holds manifestId).2

/-- Operations that neither act at a gate nor withdraw a manifest. -/
def Plain : SnapshotOp → Prop
  | .gate _ | .withdraw _ _ => False
  | _ => True

omit inside in
theorem Grows.own {result} (grows : Grows policy call index key trace later) (plain : Plain op)
    : Grows policy call index key trace (later ++ [⟨call, op, result⟩]) := by
  obtain ⟨gate, works⟩ := grows.inside.working
  refine grows.concat ?_ ?_
  · unfold stage at works ⊢
    obtain ⟨own, found, _⟩ := map_eq_some_iff.mp works
    rw [Ordered.calls_concat (List.getElem?_eq_some_iff.mp found).1]
    rintro action rfl
    exact plain.elim
  · rintro manifestId rfl
    exact plain

/-- One operation under a gate, which may fail. -/
theorem Inside.perform {good bad}
    (ok : ∀ later value, policy.rules.Orderly later → policy.rules.Quiet call trace later →
      Grows policy call index key later (later ++ [⟨call, op, .ok value⟩]) →
      Grows policy call index key trace (later ++ [⟨call, op, .ok value⟩]) →
      policy.rules.may later call op (.ok value) → good value (later ++ [⟨call, op, .ok value⟩]))
    (allowed : ∀ later, policy.rules.Quiet call trace later →
      Grows policy call index key trace later → policy.Allowed later call op)
    (fails : ∀ later error, Grows policy call index key trace later → bad error later)
    (plain : Plain op)
    : policy.rules.Runs call good bad (perform op) trace := by
  have own {later} (quiet : policy.rules.Quiet call trace later) (result : op.Res)
      : Grows policy call index key later (later ++ [⟨call, op, result⟩]) :=
    (Grows.refl (Grows.quiet inside quiet).inside).own plain
  refine attempt (fun later orderly quiet => ?_) fun later error quiet => ?_
  · have grows := Grows.quiet inside quiet
    exact ⟨allowed later quiet grows, fun value may =>
      ok later value orderly quiet (own quiet _) (grows.trans (own quiet _)) may⟩
  · exact fails _ error ((Grows.quiet inside quiet).trans (own quiet _))

/-- One operation that is allowed anywhere, where nothing is asked of a failure. -/
theorem perform_runs {good} (plain : Plain op) (free : ∀ later, policy.Allowed later call op)
    (ok : ∀ later value, policy.rules.Orderly later → policy.rules.Quiet call trace later →
      Grows policy call index key later (later ++ [⟨call, op, .ok value⟩]) →
      Grows policy call index key trace (later ++ [⟨call, op, .ok value⟩]) →
      policy.rules.may later call op (.ok value) → good value (later ++ [⟨call, op, .ok value⟩]))
    : policy.rules.Runs call good (fun _ _ => True) (perform op) trace :=
  inside.perform ok (fun later _ _ => free later) (fun _ _ _ => trivial) plain

/-- Reading the clock. -/
theorem isUsable_runs (manifest)
    : policy.rules.Runs call (fun _ later => Grows policy call index key trace later)
        (fun _ later => Grows policy call index key trace later)
        (policy.isUsable manifest) trace := by
  refine .bind (inside.perform ?_ (fun _ _ _ => trivial) (fun _ _ grows => grows) trivial)
  intro later now _ _ _ grows _
  exact .done grows

/-- A manifest that `read` accepts is read back. -/
theorem read_runs (identity manifest)
    : policy.rules.Runs call
        (fun _ later => Grows policy call index key trace later
          ∧ policy.ReadBack later call key identity manifest)
        (fun _ later => Grows policy call index key trace later)
        (policy.read key identity manifest) trace := by
  refine .bind (inside.perform ?_ (fun _ _ _ => trivial) (fun _ _ grows => grows) trivial)
  intro later now _ _ _ grows _
  refine .bind (.given (fun _ accepted => ?_) fun _ => grows)
  refine .bind (.given (fun _ _ => ?_) fun _ => grows)
  refine .bind (grows.inside.perform ?_ (fun _ _ _ => trivial)
    (fun _ _ more => grows.trans more) trivial)
  intro latest response _ _ _ more _
  refine .bind (.given (fun _ agrees => ?_) fun _ => grows.trans more)
  refine .bind (.given (fun _ opened => ?_) fun _ => grows.trans more)
  rw [rejectIf_eq_ok, not_not] at accepted agrees
  refine .done ⟨grows.trans more, now, response, more.grew.subset ?_, ?_, accepted, agrees, opened⟩
  · exact mem_concat_self
  · exact mem_concat_self

theorem validate_runs (identity manifest)
    : policy.rules.Runs call
        (fun _ later => Grows policy call index key trace later
          ∧ policy.ReadBack later call key identity manifest)
        (fun _ later => Grows policy call index key trace later)
        (policy.validate key identity manifest) trace := by
  refine .bind ((read_runs inside identity manifest).mono (fun _ _ holds => ?_) fun _ _ => id)
  exact .done holds

omit inside

variable {request : SnapshotRequest} {identity : SnapshotIdentity}
  {manifest : Manifest} (keyed : policy.cacheKey request identity = .ok key)

include keyed

theorem eq_keyDigest : key = policy.keyDigest (policy.keyMaterial request identity) := by
  simp only [cacheKey, bind_eq_ok, pure_eq_ok] at keyed
  exact keyed.choose_spec.2.symm

theorem ReadBack.proved (read : policy.ReadBack trace call key identity manifest)
    (observed : ⟨call, .identity request, .ok identity⟩ ∈ trace)
    : policy.Proved trace (policy.keyMaterial request identity) manifest :=
  ⟨call, request, identity, manifest, manifest.url, manifest.expiresAt, observed, rfl,
    eq_keyDigest keyed ▸ read, rfl⟩

theorem Proved.cacheKey_eq
    (proved : policy.Proved trace (policy.keyMaterial request identity) manifest)
    : manifest.cacheKey = key := by
  obtain ⟨_, _, _, original, _, _, _, _, ⟨_, _, _, _, accepted, _⟩, rfl⟩ := proved
  exact accepted.1.trans (eq_keyDigest keyed).symm

/-- A manifest that the call may hand out for the identity. -/
structure Valid (policy : CatalogSnapshotPolicy) (request : SnapshotRequest)
    (identity : SnapshotIdentity) (key : String) (trace : SnapshotTrace)
    (manifest : Manifest) : Prop where
  proved : policy.Proved trace (policy.keyMaterial request identity) manifest
  current : withdrawn key manifest.manifestId trace = false

omit keyed

theorem Valid.grows (valid : Valid policy request identity key trace manifest)
    (grows : Grows policy call index key trace later)
    : Valid policy request identity key later manifest :=
  ⟨valid.proved.mono grows.grew, grows.current valid.current⟩

/-- A renewal returns a manifest that is not withdrawn. -/
theorem renew_current {renewed} (orderly : policy.rules.Orderly trace) (is : found.cacheKey = key)
    (may : policy.rules.may trace call (.renew found) (.ok (some renewed)))
    : withdrawn key renewed.manifestId trace = false := by
  obtain ⟨surroundings, answer, _⟩ := may
  have renewal := Surroundings.repository_eq_ok (some.inj answer)
  obtain ⟨_, winner, before, sameId⟩ := renewal_spec renewal.symm
  rw [← is, ← sameId]
  exact (ordered orderly).live before

/-- A manifest that is about to expire is renewed; what comes of it is not withdrawn. -/
theorem renewed_runs (inside : Inside policy call index key trace) (is : found.cacheKey = key)
    (current : withdrawn key found.manifestId trace = false)
    : policy.rules.Runs call
        (fun renewed later => Grows policy call index key trace later
          ∧ withdrawn key renewed.manifestId later = false)
        (fun _ _ => True) (policy.renewed found) trace := by
  refine .bind ((isUsable_runs inside found).mono ?_ fun _ _ _ => trivial)
  intro usable later grows
  cases usable with
  | true => exact .done ⟨grows, grows.current current⟩
  | false =>
    refine .bind (perform_runs grows.inside trivial (fun _ => trivial) ?_)
    intro latest result orderly _ own more may
    cases result with
    | none => exact .done ⟨grows.trans more, (grows.trans more).current current⟩
    | some renewed =>
      refine .bind (.given (fun _ _ => ?_) fun _ => trivial)
      exact .done ⟨grows.trans more, own.current (renew_current orderly is may)⟩

section

variable (injective : Function.Injective policy.keyDigest)
include injective keyed

theorem memo_valid (orderly : policy.rules.Orderly trace)
    (found : (policy.shared trace).memo key = some manifest)
    : Valid policy request identity key trace manifest := by
  obtain ⟨⟨material, is, proved⟩, current⟩ := (ordered orderly).memo found
  rw [eq_keyDigest keyed] at is
  exact ⟨injective is ▸ proved, current⟩

/-- What is found in the memo or in the repository was proved for the identity; what cannot be read
is discarded.
-/
theorem locate_runs (inside : Inside policy call index key trace)
    (observed : ⟨call, .identity request, .ok identity⟩ ∈ trace)
    : policy.rules.Runs call
        (fun found later => Grows policy call index key trace later
          ∧ ∀ manifest ∈ found, Valid policy request identity key later manifest)
        (fun _ _ => True) (policy.locate key identity) trace := by
  refine .bind (perform_runs inside trivial (fun _ => trivial) ?_)
  intro later memo orderly _ own grows may
  obtain ⟨_, answer, _⟩ := may
  cases answer
  split
  next manifest found =>
    refine .done ⟨grows, fun _ is => ?_⟩
    cases is
    exact (memo_valid keyed injective orderly found).grows own
  · refine .bind (perform_runs grows.inside trivial (fun _ => trivial) ?_)
    intro latest looked orderly _ own more may
    have soFar := grows.trans more
    cases looked with
    | none => exact .done ⟨soFar, nofun⟩
    | some found =>
      obtain ⟨surroundings, answer, _⟩ := may
      have live := (Surroundings.repository_eq_ok (some.inj answer)).symm
      refine .bind ((renewed_runs soFar.inside (cacheKey_of_found _ _ live)
        (own.current ((ordered orderly).live live))).mono ?_ fun _ _ _ => trivial)
      rintro renewed afterRenewal ⟨still, current⟩
      refine .bind (.lift ((validate_runs still.inside identity renewed).mono ?_ ?_))
      · rintro _ afterRead ⟨read, valid⟩
        refine .done ⟨soFar.trans (still.trans read), fun _ is => ?_⟩
        cases is
        exact ⟨valid.proved keyed ((soFar.trans (still.trans read)).grew.subset observed),
          read.current current⟩
      · intro error afterRead read
        refine .bind (perform_runs read.inside trivial (fun _ => trivial) ?_)
        intro last _ _ _ _ discarded _
        exact .done ⟨soFar.trans (still.trans (read.trans discarded)), nofun⟩

end

/-- The call may return the answer. -/
def Answerable (policy : CatalogSnapshotPolicy) (call : Nat) (answer : Answer)
    (trace : SnapshotTrace) : Prop :=
  policy.Allowed trace call (.deliver answer)

theorem Grounded.mono {origin} (grounded : policy.Grounded trace call origin)
    (grew : trace <+: later) : policy.Grounded later call origin := by
  obtain ⟨rest, rfl⟩ := grew
  cases origin with
  | validator request => exact grounded.imp fun _ => mem_append_left _
  | manifest request identity key manifest =>
    obtain ⟨keyed, early, after, rfl, proved, observed⟩ := grounded
    exact ⟨keyed, early, after ++ rest, append_assoc _ _ _, proved, mem_append_left _ observed⟩
  | built request identity value =>
    obtain ⟨complete, version, opened, early, middle, after, rfl, first, built, second⟩ := grounded
    exact ⟨complete, version, opened, early, middle, after ++ rest, append_assoc _ _ _,
      first, built, mem_append_left _ second⟩

theorem Answerable.mono {answer} (answerable : Answerable policy call answer trace)
    (grew : trace <+: later) : Answerable policy call answer later := by
  obtain ⟨fits, grounded, fresh⟩ := answerable
  refine ⟨fits, grounded.mono grew, fun request identity key manifest is => ?_⟩
  obtain ⟨early, after, rfl, facts⟩ := fresh request identity key manifest is
  obtain ⟨rest, rfl⟩ := grew
  exact ⟨early, after ++ rest, append_assoc _ _ _, facts⟩

/-- A valid manifest is an answer once the identity has been observed again. -/
theorem Valid.answerable (valid : Valid policy request identity key trace manifest)
    (keyed : policy.cacheKey request identity = .ok key) (owns : Owns trace call index)
    (grew : trace ++ [⟨call, .identity request, .ok identity⟩] <+: later)
    (fits : policy.Fits ⟨.manifest request identity key manifest, delivery⟩)
    : Answerable policy call ⟨.manifest request identity key manifest, delivery⟩ later := by
  obtain ⟨rest, rfl⟩ := grew
  have splits : trace ++ [⟨call, .identity request, .ok identity⟩] ++ rest
      = trace ++ (⟨call, .identity request, .ok identity⟩ :: rest) := by
    rw [append_assoc, singleton_append]
  refine ⟨fits, ⟨keyed, trace, _, splits, valid.proved, mem_cons_self⟩, ?_⟩
  rintro _ _ _ _ ⟨⟩
  obtain ⟨kind, entered⟩ := owns
  exact ⟨trace, _, splits, ⟨_, entered, rfl⟩, valid.current⟩

/-- What a round ends with: an answer that the call may return, or nothing. -/
def Concludes (policy : CatalogSnapshotPolicy) (call : Nat) (round : Round)
    (trace : SnapshotTrace) : Prop :=
  match round with
  | .finished answer => Answerable policy call answer trace
  | .again => True

theorem Concludes.mono {round} (concludes : Concludes policy call round trace)
    (grew : trace <+: later) : Concludes policy call round later := by
  cases round with
  | finished answer => exact Answerable.mono concludes grew
  | again => trivial

/-- The program is a round of the call. -/
abbrev Rounds (policy : CatalogSnapshotPolicy) (call : Nat)
    : Act Round → SnapshotTrace → Prop :=
  policy.rules.Runs call (Concludes policy call) fun _ _ => True

theorem handOut_runs
    (answer : ∀ {delivery}, policy.Fits ⟨.manifest request identity key manifest, delivery⟩ →
      Answerable policy call ⟨.manifest request identity key manifest, delivery⟩ trace)
    : Rounds policy call (policy.handOut request identity key manifest) trace :=
  .bind (.given (fun _ is => .done (answer is)) fun _ => trivial)

section

include keyed

include inside

variable (valid : Valid policy request identity key trace manifest)

include valid

/-- Remembering a valid manifest is allowed under the gate. -/
theorem Valid.remember : policy.Allowed trace call (.remember key manifest) :=
  ⟨inside.holds, ⟨_, (eq_keyDigest keyed).symm, valid.proved⟩, valid.current⟩

/-- The end of a round: if the identity is still the same, the manifest is remembered, and may
be handed out.
-/
theorem observedAgain_runs {next}
    (rest : ∀ later,
      (∀ {delivery}, policy.Fits ⟨.manifest request identity key manifest, delivery⟩ →
        Answerable policy call ⟨.manifest request identity key manifest, delivery⟩ later) →
      Rounds policy call next later)
    : Rounds policy call (do
        let observed ← perform (.identity request)
        if observed ≠ identity then pure .again
        else do
          perform (.remember key manifest)
          next) trace := by
  refine .bind (perform_runs inside trivial (fun _ => trivial) ?_)
  intro later observed _ quiet own grows _
  split
  · exact .done trivial
  next same =>
    obtain rfl := Classical.not_not.mp same
    have before := Grows.quiet inside quiet
    have still := valid.grows before
    refine .bind (grows.inside.perform ?_ (fun latest _ more => ?_) (fun _ _ _ => trivial) trivial)
    · intro latest _ _ _ _ more _
      exact rest _ fun fits => still.answerable keyed before.inside.owns more.grew fits
    · exact (still.grows (own.trans more)).remember more.inside keyed

omit valid

theorem serveFound_runs {found} (ifNoneMatch)
    (valid : Valid policy request identity key trace found)
    : Rounds policy call (policy.serveFound request ifNoneMatch identity key found) trace := by
  refine observedAgain_runs inside keyed valid fun later answer => ?_
  split
  next etag is =>
    split
    · exact .done (answer ⟨etag, is, rfl⟩)
    · exact handOut_runs answer
  · exact handOut_runs answer

variable (read : policy.ReadBack trace call key identity manifest)

include read

omit inside in
/-- What was read back may be committed once the identity has been observed again. -/
theorem ReadBack.committable {before after} (quiet : policy.rules.Quiet call trace before)
    (still : policy.rules.Quiet call (before ++ [⟨call, .identity request, .ok identity⟩]) after)
    : policy.Committable after call manifest := by
  obtain ⟨rest, rfl, others⟩ := quiet.others
  obtain ⟨more, rfl, beside⟩ := still.others
  have is : manifest.cacheKey = key := by
    obtain ⟨_, _, _, _, accepted, _⟩ := read
    exact accepted.1
  subst is
  refine ⟨request, identity, trace,
    rest ++ (⟨call, .identity request, .ok identity⟩ :: more), ?_, keyed, read, ?_, ?_⟩
  · simp only [append_assoc, singleton_append]
  · exact mem_append_right _ mem_cons_self
  · intro other result member
    rcases mem_append.mp member with earlier | member
    · exact absurd rfl (others _ earlier)
    · rcases mem_cons.mp member with last | later
      · cases last
        rfl
      · exact absurd rfl (beside _ later)

variable (observed : ⟨call, .identity request, .ok identity⟩ ∈ trace)

include observed in
/-- The winner of a commit is valid: it is the manifest itself, has its id and therefore its
contents, or is read back.
-/
theorem commit_runs
    (committable : ∀ later, policy.rules.Quiet call trace later →
      policy.Committable later call manifest)
    : policy.rules.Runs call
        (fun winner later => Grows policy call index key trace later
          ∧ Valid policy request identity key later winner)
        (fun _ _ => True) (policy.commit key identity manifest) trace := by
  refine .bind (inside.perform ?_ (fun later quiet _ => committable later quiet)
    (fun _ _ _ => trivial) trivial)
  intro later winner orderly quiet own grows may
  have before := Grows.quiet inside quiet
  have is : manifest.cacheKey = key := by
    obtain ⟨_, _, _, _, accepted, _⟩ := read
    exact accepted.1
  have proved : policy.Proved later (policy.keyMaterial request identity) manifest :=
    (read.proved keyed observed).mono before.grew
  obtain ⟨surroundings, answer, steady⟩ := may
  have won := Surroundings.repository_eq_ok (some.inj answer)
  -- The winner was live before, or it is the manifest itself.
  have current : withdrawn key winner.manifestId
      (later ++ [⟨call, .commitIfAbsent manifest, .ok winner⟩]) = false := by
    unfold commitIfAbsent at won
    split at won
    next live found =>
      subst won
      rw [is] at found
      exact own.current ((ordered orderly).live found)
    · simp [withdrawn_concat, withdraws, Snapshot.commits, won, is]
  have same (id : winner.manifestId = manifest.manifestId)
      : policy.Proved later (policy.keyMaterial request identity) winner := by
    unfold commitIfAbsent at won
    split at won
    next live found =>
      subst won
      obtain ⟨by_, asked, seen, original, url, expiresAt, facts, sameKey, valid, rfl⟩ := proved
      exact ⟨by_, asked, seen, original, _, _, facts, sameKey, valid, steady _ found id⟩
    · exact won ▸ proved
  split
  · refine .bind ((validate_runs grows.inside identity winner).mono ?_ fun _ _ _ => trivial)
    rintro _ latest ⟨more, valid⟩
    exact .done ⟨grows.trans more,
      valid.proved keyed ((grows.trans more).grew.subset observed), more.current current⟩
  next id => exact .done ⟨grows, (same (Classical.not_not.mp id)).mono own.grew, current⟩

omit read

/-- After a commit: the identity is observed once more, and the winner handed out. -/
theorem publish_runs (value)
    : Rounds policy call (policy.publish request identity key value) trace := by
  refine .bind (perform_runs inside trivial (fun _ => trivial) ?_)
  intro uploaded upload _ _ _ grows _
  refine .bind (perform_runs grows.inside trivial (fun _ => trivial) ?_)
  intro located location _ _ _ grows _
  refine .bind (perform_runs grows.inside trivial (fun _ => trivial) ?_)
  intro named manifestId _ _ _ grows _
  refine .bind ((read_runs grows.inside identity _).mono ?_ fun _ _ _ => trivial)
  rintro readback afterRead ⟨more, read⟩
  refine .bind (.given (fun _ _ => ?_) fun _ => trivial)
  refine .bind (perform_runs more.inside trivial (fun _ => trivial) ?_)
  intro later observed _ quiet own grows _
  split
  · exact .done trivial
  rename_i same
  obtain rfl := Classical.not_not.mp same
  refine .bind ((commit_runs grows.inside keyed
    (read.mono grows.grew) mem_concat_self
    fun latest still => read.committable keyed quiet still).mono ?_ fun _ _ _ => trivial)
  rintro winner committed ⟨more, valid⟩
  exact observedAgain_runs more.inside keyed valid fun _ answer => handOut_runs answer

include observed in
theorem buildAndPublish_runs (ifNoneMatch)
    : Rounds policy call (policy.buildAndPublish request ifNoneMatch identity key) trace := by
  refine .bind (perform_runs inside trivial (fun _ => trivial) ?_)
  intro built value _ quiet _ grows _
  refine .bind (.given (fun _ complete => ?_) fun _ => trivial)
  refine .bind (.given (fun _ opened => ?_) fun _ => trivial)
  split
  · exact .done trivial
  rename_i version
  refine .bind (perform_runs grows.inside trivial (fun _ => trivial) ?_)
  intro later seen _ still _ more _
  split
  · exact .done trivial
  rename_i same
  obtain rfl := Classical.not_not.mp same
  dsimp only
  split
  · refine .done ⟨.inr rfl, ⟨?_, Classical.not_not.mp version, opened, ?_⟩, ?_⟩
    · simpa using complete
    · obtain ⟨rest, rfl⟩ := (Grows.quiet grows.inside still).grew
      obtain ⟨before, rfl⟩ := quiet.isPrefix
      refine ⟨trace ++ before, ⟨call, .build, .ok value⟩ :: rest, _, ?_,
        mem_append_left _ observed, mem_cons_self, mem_singleton.mpr rfl⟩
      simp only [append_assoc, singleton_append]
    · rintro _ _ _ _ ⟨⟩
  · exact publish_runs more.inside keyed _

omit inside

/-- One round under the gate, by what is found: a usable manifest, one to renew, or none. -/
theorem underGate_runs (injective : Function.Injective policy.keyDigest)
    (ifNoneMatch) (inside : Inside policy call index key trace)
    (observed : ⟨call, .identity request, .ok identity⟩ ∈ trace)
    : Rounds policy call (policy.underGate request ifNoneMatch identity key) trace := by
  refine .bind ((locate_runs keyed injective inside observed).mono ?_ fun _ _ _ => trivial)
  rintro found later ⟨grows, valid⟩
  cases found with
  | none => exact buildAndPublish_runs grows.inside keyed (grows.grew.subset observed) ifNoneMatch
  | some found =>
    have valid := valid found rfl
    refine .bind ((isUsable_runs grows.inside found).mono ?_ fun _ _ _ => trivial)
    intro usable latest more
    split
    · exact serveFound_runs more.inside keyed ifNoneMatch (valid.grows more)
    refine .bind (perform_runs more.inside trivial (fun _ => trivial) ?_)
    intro asked result orderly _ own still may
    cases result with
    | some renewed =>
      have current := renew_current orderly (valid.proved.cacheKey_eq keyed) may
      refine .bind (.given (fun _ _ => ?_) fun _ => trivial)
      refine .bind ((validate_runs still.inside identity renewed).mono ?_ fun _ _ _ => trivial)
      rintro _ afterRead ⟨read, proved⟩
      have whole := grows.trans (more.trans (still.trans read))
      have ready : Valid policy request identity key afterRead renewed :=
        ⟨proved.proved keyed (whole.grew.subset observed), read.current (own.current current)⟩
      refine .bind (read.inside.perform (fun _ _ _ _ _ _ _ => .done trivial)
        (fun last _ going => ?_) (fun _ _ _ => trivial) trivial)
      exact (ready.grows going).remember going.inside keyed
    | none =>
      refine .bind (perform_runs still.inside trivial (fun _ => trivial) ?_)
      intro _ _ _ _ _ discarded _
      refine .bind (perform_runs discarded.inside trivial (fun _ => trivial) ?_)
      intro _ _ _ _ _ removed _
      have whole := grows.trans (more.trans (still.trans (discarded.trans removed)))
      exact buildAndPublish_runs removed.inside keyed (whole.grew.subset observed) ifNoneMatch

end

variable (owns : Owns trace call index)

include owns

theorem stage_quiet (quiet : policy.rules.Quiet call trace later)
    : policy.stage later index = policy.stage trace index := by
  refine (quiet.keeps (fun later => trace <+: later
    ∧ policy.stage later index = policy.stage trace index) ?_ ⟨prefix_refl _, rfl⟩).2
  rintro later event ⟨grew, same⟩ _ _ calm
  exact ⟨grew.trans (prefix_append _ _), (calm.1 index (owns.mono grew)).trans same⟩

/-- An action of the call at its gate. -/
theorem gate_runs {action good}
    (acting : action.index? = some index)
    (ok : ∀ later after, trace <+: later ++ [⟨call, .gate action, .ok ()⟩] →
      policy.stage later index = policy.stage trace index →
      (policy.shared later).gates.next action = some after →
      (policy.shared (later ++ [⟨call, .gate action, .ok ()⟩])).gates = after →
      good () (later ++ [⟨call, .gate action, .ok ()⟩]))
    : policy.rules.Runs call good (fun _ _ => True) (perform (.gate action)) trace := by
  refine attempt (fun later _ quiet => ⟨⟨index, acting, owns.mono quiet.isPrefix⟩,
    fun _ may => ?_⟩) fun _ _ _ => trivial
  obtain ⟨_, answer, _⟩ := may
  obtain ⟨after, next, _⟩ := map_eq_some_iff.mp answer
  refine ok later after (quiet.isPrefix.trans (prefix_append _ _)) (stage_quiet owns quiet)
    next ?_
  rw [shared_concat, gates_after]
  simp only [next, getD_some]

omit owns in
theorem stage_lease (next : state.next (.lease index key) = some after)
    : ∃ gate, after.calls[index]?.map (·.stage) = some (.leased key gate) := by
  simp only [GateState.next] at next
  split at next
  next rounds found =>
    cases next
    refine ⟨(state.entry key).1, ?_⟩
    simp only [GateState.setCall, (GateState.entry_spec state key).2.1]
    rw [List.getElem?_set_self (List.getElem?_eq_some_iff.mp found).1]
    rfl
  · cases next

omit owns in
theorem stage_lock {gate} (leased : state.calls[index]?.map (·.stage) = some (.leased key gate))
    (next : state.next (.lock index) = some after)
    : after.calls[index]?.map (·.stage) = some (.working key gate) := by
  simp only [GateState.next] at next
  repeat' split at next
  all_goals cases next
  next found _ =>
    rw [found] at leased
    cases leased
    simp only [GateState.setCall]
    rw [List.getElem?_set_self (List.getElem?_eq_some_iff.mp found).1]
    rfl

/-- The body runs under the gate, and what it leaves is left behind the gate. -/
theorem withGate_runs {α : Type} {goesOn body} (good : α → SnapshotTrace → Prop)
    (mono : ∀ {value trace later}, good value trace → trace <+: later → good value later)
    (runs : ∀ later, trace <+: later → Inside policy call index key later →
      policy.rules.Runs call good (fun _ _ => True) body later)
    : policy.rules.Runs call good (fun _ _ => True) (withGate index key goesOn body) trace := by
  refine .bind (gate_runs owns rfl fun before state begun _ leased gates => ?_)
  obtain ⟨gate, stage⟩ := stage_lease leased
  refine .bind (gate_runs (owns.mono begun) rfl fun waiting state grew same locked gates' => ?_)
  have inside : Inside policy call index key
      (waiting ++ [⟨call, .gate (.lock index), .ok ()⟩]) := by
    refine ⟨owns.mono (begun.trans grew), gate, ?_⟩
    unfold CatalogSnapshotPolicy.stage at same ⊢
    rw [gates']
    refine stage_lock ?_ locked
    rw [same, gates]
    exact stage
  have leave {result : Except RpcError α} {ended : SnapshotTrace}
      (grown : waiting ++ [⟨call, .gate (.lock index), .ok ()⟩] <+: ended)
      (holds : ∀ value, result = .ok value → good value ended)
      : policy.rules.Runs call good (fun _ _ => True) (do
          perform (.gate (.unlock index))
          perform (.gate (.check index))
          perform (.gate (.release index ((result.map goesOn).toOption.getD false)))
          liftM result) ended := by
    have owns := inside.owns.mono grown
    refine .bind (gate_runs owns rfl fun unlocked _ first _ _ _ => ?_)
    refine .bind (gate_runs (owns.mono first) rfl fun checked _ second _ _ _ => ?_)
    refine .bind (gate_runs (owns.mono (first.trans second)) rfl fun released _ third _ _ _ => ?_)
    refine .given (fun value is => ?_) fun _ => trivial
    exact mono (holds value is) (first.trans (second.trans third))
  refine .bind (.lift ((runs _ (begun.trans grew) inside).extends.mono ?_ ?_))
  · rintro value ended ⟨holds, grown⟩
    refine leave grown fun _ is => ?_
    cases is
    exact holds
  · rintro error ended ⟨_, grown⟩
    exact leave grown nofun

/-- Rounds follow each other until one is finished, by induction on the rounds that are left. -/
theorem managerServe_runs (injective : Function.Injective policy.keyDigest)
    (request ifNoneMatch rounds)
    : policy.rules.Runs call (Answerable policy call) (fun _ _ => True)
        (policy.managerServe index request ifNoneMatch rounds) trace := by
  induction rounds generalizing trace with
  | zero => exact .failed trivial
  | succ rounds ih =>
    refine .bind (.attempt (fun later _ quiet => ⟨trivial, fun identity _ => ?_⟩)
      fun _ _ _ => trivial)
    refine .bind (.given (fun key keyed => ?_) fun _ => trivial)
    have grew := quiet.isPrefix.trans
      (prefix_append later [⟨call, .identity request, .ok identity⟩])
    refine .bind ((withGate_runs (owns.mono grew) (Concludes policy call) Concludes.mono
      fun inner begun inside => ?_).extends.mono ?_ fun _ _ _ => trivial)
    · exact underGate_runs keyed injective ifNoneMatch inside (begun.subset mem_concat_self)
    · rintro round ended ⟨concludes, more⟩
      cases round with
      | finished answer => exact .done concludes
      | again => exact ih (owns.mono (grew.trans more))

/-- An import reads the manifest back and commits it with the identity observed before and after. -/
theorem importManifest_runs (request manifest)
    : policy.rules.Runs call (fun _ _ => True) (fun _ _ => True)
        (policy.importManifest index request manifest) trace := by
  refine .bind (.attempt (fun later _ quiet => ⟨trivial, fun identity _ => ?_⟩)
    fun _ _ _ => trivial)
  refine .bind (.given (fun key keyed => ?_) fun _ => trivial)
  have grew := quiet.isPrefix.trans (prefix_append later [⟨call, .identity request, .ok identity⟩])
  refine withGate_runs (owns.mono grew) _ (fun _ _ => trivial) fun inner begun inside => ?_
  refine .bind ((validate_runs inside identity manifest).mono ?_ fun _ _ _ => trivial)
  rintro _ afterRead ⟨grows, read⟩
  refine .bind (perform_runs grows.inside trivial (fun _ => trivial) ?_)
  intro before seen _ quiet own more _
  split
  · exact .failed trivial
  rename_i same
  obtain rfl := Classical.not_not.mp same
  refine .bind ((commit_runs more.inside keyed
    (read.mono more.grew) mem_concat_self
    fun latest still => read.committable keyed quiet still).mono ?_ fun _ _ _ => trivial)
  rintro winner committed ⟨still, valid⟩
  refine .bind (perform_runs still.inside trivial (fun _ => trivial) ?_)
  intro _ seen _ _ _ last _
  split
  · exact .failed trivial
  · refine last.inside.perform (fun _ _ _ _ _ _ _ => trivial) (fun latest _ going => ?_)
      (fun _ _ _ => trivial) trivial
    exact (valid.grows (last.trans going)).remember going.inside keyed

omit owns in
include inside in
/-- While the call holds the gate, an id that is not in the memo does not come there. -/
theorem memo_quiet
    (absent : ∀ manifest ∈ (policy.shared trace).memo key, manifest.manifestId ≠ manifestId)
    (quiet : policy.rules.Quiet call trace later)
    : ∀ manifest ∈ (policy.shared later).memo key, manifest.manifestId ≠ manifestId := by
  refine (quiet.keeps (fun later => policy.Holds later call key ∧ ∀ manifest ∈
    (policy.shared later).memo key, manifest.manifestId ≠ manifestId) ?_ ⟨inside.holds, absent⟩).2
  rintro later event ⟨⟨index, gate, owns, works⟩, absent⟩ _ _ calm
  have apart := calm.2 key ⟨index, gate, owns, works⟩ manifestId
  refine ⟨⟨index, gate, owns.mono (prefix_append _ _), (calm.1 index owns).trans works⟩,
    fun manifest found => ?_⟩
  rw [shared_concat] at found
  rcases memo_after found with remembered | before
  · exact (apart.1 manifest remembered).elim
  · exact absent manifest before

/-- A removal that is reported was a withdrawal from the repository. -/
theorem invalidate_runs : policy.rules.Runs call
        (fun removed later => removed = true → ⟨call, .withdraw key manifestId, .ok true⟩ ∈ later)
        (fun _ _ => True) (invalidate index key manifestId) trace := by
  refine withGate_runs owns _ (fun holds grew is => grew.subset (holds is)) fun inner _ inside => ?_
  refine .bind (perform_runs inside trivial (fun _ => trivial) ?_)
  intro before _ _ _ _ grows _
  refine Rules.Runs.attempt (fun later _ quiet => ⟨⟨(Grows.quiet grows.inside quiet).inside.holds,
    ?_⟩, fun removed _ is => ?_⟩) fun _ _ _ => trivial
  · refine memo_quiet grows.inside (fun manifest found same => ?_) quiet
    rw [shared_concat] at found
    simp only [Shared.after] at found
    split at found
    · rw [Shared.memo_forget, if_pos rfl] at found
      cases found
    next ne =>
      rw [mem_def.mp found] at ne
      exact ne (congrArg some same)
  · subst is
    exact mem_concat_self

omit owns

/-- Inline delivery observes the identity before and after it builds. -/
theorem ordinary_runs (request ifNoneMatch error)
    : policy.rules.Runs call (Answerable policy call) (fun _ _ => True)
        (policy.ordinary request ifNoneMatch error) trace := by
  refine .bind (.attempt (fun later _ quiet => ⟨trivial, fun identity _ => ?_⟩)
    fun _ _ _ => trivial)
  refine .bind (.attempt (fun building _ first => ⟨trivial, fun value may => ?_⟩)
    fun _ _ _ => trivial)
  refine .bind (.attempt (fun built _ second => ⟨trivial, fun after _ => ?_⟩) fun _ _ _ => trivial)
  split
  · exact .failed trivial
  rename_i same
  rw [not_or, not_not, not_not] at same
  obtain ⟨rfl, version⟩ := same
  refine .bind (.given (fun _ opened => ?_) fun _ => trivial)
  refine .bind (.attempt (fun last _ third => ⟨trivial, fun seen _ => ?_⟩) fun _ _ _ => trivial)
  split
  · exact .failed trivial
  have complete : value.notModified = false := by
    obtain ⟨surroundings, answer, steady⟩ := may
    refine steady value ?_
    rw [some.inj answer]
    rfl
  have answer {delivery : SnapshotDelivery}
      (fits : policy.Fits ⟨.built request identity value, delivery⟩)
      : Answerable policy call ⟨.built request identity value, delivery⟩
          (last ++ [⟨call, .identity request, .ok seen⟩]) := by
    refine ⟨fits, ⟨complete, version, opened, ?_⟩, by rintro _ _ _ _ ⟨⟩⟩
    obtain ⟨one, rfl⟩ := first.isPrefix
    obtain ⟨two, rfl⟩ := second.isPrefix
    obtain ⟨three, rfl⟩ := third.isPrefix
    refine ⟨later ++ [⟨call, .identity request, .ok identity⟩] ++ one,
      ⟨call, .build, .ok value⟩ :: two,
      ⟨call, .identity request, .ok identity⟩ :: three ++ [⟨call, .identity request, .ok seen⟩],
      ?_, ?_, mem_cons_self, mem_cons_self⟩
    · simp only [append_assoc, cons_append, nil_append]
    · exact mem_append_left _ mem_concat_self
  split
  next etag is =>
    split
    · exact .done (answer (.inr (by rw [is]; rfl)))
    · exact .done (answer (.inl rfl))
  · exact .done (answer (.inl rfl))

theorem validatorAnswer_runs (request ifNoneMatch)
    : policy.rules.Runs call
        (fun answer later => ∀ given ∈ answer, Answerable policy call given later)
        (fun _ _ => True) (policy.validatorAnswer request ifNoneMatch) trace := by
  unfold validatorAnswer
  split
  · refine .bind (.attempt (fun later _ _ => ⟨trivial, fun etag _ => ?_⟩) fun _ _ _ => trivial)
    cases etag with
    | none => exact .done fun _ is => by cases is
    | some etag =>
      dsimp only
      split
      · refine .done fun _ is => ?_
        cases is
        refine ⟨⟨etag, rfl⟩, ⟨etag, ?_⟩, by rintro _ _ _ _ ⟨⟩⟩
        exact mem_concat_self
      · exact .done fun _ is => by cases is
  · exact .done fun _ is => by cases is

include owns in
theorem serve_runs (injective : Function.Injective policy.keyDigest) (request ifNoneMatch)
    : policy.rules.Runs call (Answerable policy call) (fun _ _ => True)
        (policy.serve index request ifNoneMatch) trace := by
  refine .bind (.given (fun _ _ => ?_) fun _ => trivial)
  refine .bind ((validatorAnswer_runs request ifNoneMatch).extends.mono ?_ fun _ _ _ => trivial)
  rintro answer later ⟨given, grew⟩
  cases answer with
  | some answer => exact .done (given answer rfl)
  | none =>
    refine .bind (.lift ((managerServe_runs (owns.mono grew) injective request ifNoneMatch
      _).mono (fun answer _ holds => .done holds) fun error _ _ => ?_))
    split
    next is => cases is
    · split
      · exact ordinary_runs request ifNoneMatch _
      · exact .failed trivial

/-- Every call follows the rules from its start. -/
theorem program_safe (injective : Function.Injective policy.keyDigest) (started)
    : policy.rules.Safe call (fun _ _ => True) (.whole (policy.program started)) trace := by
  refine whole ?_
  have entered {kind : CallKind} {before : SnapshotTrace} {index : Nat}
      : Owns (before ++ [⟨call, .enter kind, .ok index⟩]) call index :=
    ⟨kind, mem_concat_self⟩
  cases started with
  | serve request ifNoneMatch =>
    refine .bind (.attempt (fun later _ _ => ⟨trivial, fun index _ => ?_⟩) fun _ _ _ => trivial)
    refine .bind ((serve_runs entered injective request ifNoneMatch).mono ?_ fun _ _ _ => trivial)
    intro answer ended answerable
    exact .attempt (fun latest _ quiet => ⟨answerable.mono quiet.isPrefix, fun _ _ => trivial⟩)
      fun _ _ _ => trivial
  | importing request manifest =>
    refine .bind (.attempt (fun later _ _ => ⟨trivial, fun index _ => ?_⟩) fun _ _ _ => trivial)
    exact importManifest_runs entered request manifest
  | invalidate key manifestId =>
    refine .bind (.attempt (fun later _ _ => ⟨trivial, fun index _ => ?_⟩) fun _ _ _ => trivial)
    refine .bind (.lift ((invalidate_runs entered).mono ?_ ?_))
    · intro removed ended holds
      refine .attempt (fun latest _ quiet => ⟨fun is => ?_, fun _ _ => trivial⟩)
        fun _ _ _ => trivial
      exact quiet.isPrefix.subset (holds (Except.ok.inj is))
    · intro error ended _
      refine .attempt (fun latest _ _ => ⟨fun is => ?_, fun _ _ => trivial⟩) fun _ _ _ => trivial
      cases is
  | elsewhere change =>
    exact .attempt (fun later _ _ => ⟨trivial, fun _ _ => trivial⟩) fun _ _ _ => trivial

/-- A manifest is committed between a trace where it is withdrawn and a later one where it is
not.
-/
theorem exists_commit {rest} (before : withdrawn key manifestId trace = true)
    (after : withdrawn key manifestId (trace ++ rest) = false)
    : ∃ event ∈ rest, Snapshot.commits key manifestId event = true := by
  induction rest using reverseRecOn with
  | nil =>
    rw [append_nil, before] at after
    cases after
  | append_singleton rest event ih =>
    rw [← append_assoc, withdrawn_concat, Bool.or_eq_false_iff] at after
    by_cases still : withdrawn key manifestId (trace ++ rest) = true
    · refine ⟨event, mem_concat_self, ?_⟩
      simpa [still] using after.2
    · obtain ⟨earlier, member, commits⟩ := ih (Bool.eq_false_iff.mpr still)
      exact ⟨earlier, mem_append_left _ member, commits⟩

variable (orderly : policy.rules.Orderly trace)

include orderly

theorem allowed_of_orderly {after} (is : trace = before ++ event :: after)
    : policy.Allowed before event.call event.op := by
  have inside : before ++ [event] <+: trace := ⟨after, by rw [is, append_assoc, singleton_append]⟩
  exact (orderly.at_prefix inside).2.1

/-- A manifest that is handed out after `invalidate` has returned was committed in between. -/
theorem withdrawals_of_orderly {between after caller server}
    (is : trace = before
      ++ ⟨caller, .invalidated key manifest.manifestId (.ok true), .ok ()⟩ :: between
      ++ ⟨server, .deliver ⟨.manifest request identity key manifest, delivery⟩, .ok ()⟩ :: after)
    (later : ∀ event ∈ before, event.call ≠ server)
    : ∃ first second,
        before = first ++ ⟨caller, .withdraw key manifest.manifestId, .ok true⟩ :: second
        ∧ ∃ event ∈ second ++ between, Snapshot.commits key manifest.manifestId event = true := by
  obtain ⟨_, _, fresh⟩ := allowed_of_orderly orderly is
  obtain ⟨early, rest, splits, ⟨own, member, byServer⟩, current⟩ := fresh _ _ _ _ rfl
  rw [append_assoc] at is
  obtain ⟨first, second, rfl⟩ := append_of_mem (allowed_of_orderly orderly is rfl)
  refine ⟨first, second, rfl, ?_⟩
  -- The server has an event in `early`, which therefore reaches behind the return.
  obtain ⟨part, rfl, tail⟩ | ⟨part, inner, _⟩ := append_eq_append_iff.mp splits
  · cases part with
    | nil =>
      rw [append_nil] at member
      exact (later own member byServer).elim
    | cons returned part =>
      cases tail
      have removed : withdrawn key manifest.manifestId
          (first ++ [⟨caller, .withdraw key manifest.manifestId, .ok true⟩]) = true := by
        simp [withdrawn_concat, withdraws]
      rw [append_assoc, cons_append, append_cons] at current
      obtain ⟨event, among, commits⟩ := exists_commit removed current
      refine ⟨event, ?_, commits⟩
      rcases mem_append.mp among with among | among
      · exact mem_append_left _ among
      · rcases mem_cons.mp among with rfl | among
        · cases commits
        · exact mem_append_right _ (mem_append_left _ among)
  · exact (later own (inner ▸ mem_append_left _ member) byServer).elim

end CatalogSnapshotPolicy

section

variable (policy : CatalogSnapshotPolicy)

/-- What the next operation meets is steady. -/
def CatalogSnapshotPolicy.Undisturbed (crowd : Crowd SnapshotOp SnapshotOp.Res)
    : CrowdAction Surroundings SnapshotCall → Prop
  | .perform call surroundings =>
    match crowd.running[call]? with
    | some (.step op _) => policy.Steady crowd.trace op surroundings
    | _ => True
  | .start _ | .stop _ => True

/-- In every interleaving of calls and of changes by other processes, with hooks, storage and
clock that answer anything: what is handed out was built or read back for the identity it is
keyed by, with that identity observed again; what is committed was read back with no other
identity observed since; and what was withdrawn is handed out only if it was committed again.
-/
theorem snapshots_trustworthy (injective : Function.Injective policy.keyDigest)
    (crowd : Crowd SnapshotOp SnapshotOp.Res)
    (reached : policy.calls.Reaches policy.Undisturbed crowd)
    : policy.Trustworthy crowd.trace := by
  have orderly : policy.rules.Orderly crowd.trace := by
    refine Rules.orderly_of_reaches ?_ ?_ ?_ reached
    · rintro crowd call choice op result steady ⟨next, found⟩ answer
      simp only [CatalogSnapshotPolicy.Undisturbed, found] at steady
      exact ⟨choice, answer, steady⟩
    · exact fun started _ _ _ _ => CatalogSnapshotPolicy.program_safe injective started
    · exact fun orderly ne allowed _ => CatalogSnapshotPolicy.calm_of_allowed orderly ne allowed
  refine ⟨fun is => ?_, fun is => ?_, fun is later => ?_⟩
  · obtain ⟨fits, grounded, _⟩ := CatalogSnapshotPolicy.allowed_of_orderly orderly is
    exact ⟨fits, grounded⟩
  · exact CatalogSnapshotPolicy.allowed_of_orderly orderly is
  · exact CatalogSnapshotPolicy.withdrawals_of_orderly orderly is later

instance decidableSteady (crowd : Crowd SnapshotOp SnapshotOp.Res) (op : SnapshotOp)
    (surroundings : Surroundings) : Decidable (policy.Steady crowd.trace op surroundings) :=
  match op with
  | .commitIfAbsent manifest =>
    inferInstanceAs (Decidable (∀ winner ∈ (policy.shared crowd.trace).found manifest.cacheKey,
      winner.manifestId = manifest.manifestId →
      winner = manifest.relocate winner.url winner.expiresAt))
  | .build =>
    inferInstanceAs (Decidable (∀ value ∈ surroundings.built.toOption, value.notModified = false))
  | .enter _ | .gate _ | .identity _ | .validator _ | .now | .memoGet _ | .remember _ _
  | .memoRemove _ | .memoWithdraw _ _ | .lookup _ | .renew _ | .discard _ _ | .withdraw _ _
  | .publish _ | .location _ | .randomId | .fetch _ | .deliver _ | .invalidated _ _ _
  | .elsewhere _ => .isTrue trivial

instance decidableUndisturbed (crowd : Crowd SnapshotOp SnapshotOp.Res)
    (action : CrowdAction Surroundings SnapshotCall)
    : Decidable (policy.Undisturbed crowd action) :=
  match action with
  | .perform call surroundings =>
    match running : crowd.running[call]? with
    | some (.step op _) =>
      decidable_of_iff (policy.Steady crowd.trace op surroundings)
        (by simp only [CatalogSnapshotPolicy.Undisturbed, running])
    | some (.done _) => .isTrue (by simp only [CatalogSnapshotPolicy.Undisturbed, running])
    | none => .isTrue (by simp only [CatalogSnapshotPolicy.Undisturbed, running])
  | .start _ => .isTrue trivial
  | .stop _ => .isTrue trivial

end

namespace TrustSample

open AudienceSample

theorem keyDigest_injective : Function.Injective policy.keyDigest := fun material other same =>
  KeyMaterial.text_injective (utf8_eq_iff.mp (sha_injective
    ((keyOf_eq material).symm.trans (same.trans (keyOf_eq other)))))

def identity : SnapshotIdentity := ⟨"space", "r1", some "tenant", 1⟩

def request : SnapshotRequest := ⟨[1], [], 1⟩

def response : CatalogContentsResponse where
  catalogVersion := 1
  etag := some "tag"
  notModified := false
  schemas := some [1]
  tables := some []
  views := some []
  functions := some []
  macros := some []
  indexes := some []

def upload : Upload where
  url := "https://store/1"
  sha256 := "0123456789abcdef0123456789abcdef0123456789abcdef0123456789abcdef"
  rawSize := 1
  storedSize := 1

def location : PublicationLocation := ⟨none, none, none, true⟩

def surroundings : Surroundings where
  identity := .ok identity
  validator := .ok none
  now := 0
  failure := none
  renewed := none
  built := .ok response
  upload := .ok upload
  location := .ok location
  randomId := "m1"
  fetched := .ok response

def nobody : Crowd SnapshotOp SnapshotOp.Res := ⟨[], []⟩

def steps (call count : Nat) : List (CrowdAction Surroundings SnapshotCall) :=
  replicate count (.perform call surroundings)

/-- A snapshot is published, served again from the memo, withdrawn, and published anew. -/
def actions : List (CrowdAction Surroundings SnapshotCall) :=
  .start (.serve request none) :: steps 0 21
    ++ .start (.serve request none) :: steps 1 12
    ++ .start (.invalidate tenantKey "m1") :: steps 2 9
    ++ .start (.serve request none) :: steps 3 21

/-- The references that were handed out, with the calls they were handed to. -/
def references (trace : SnapshotTrace) : List (Nat × String) :=
  trace.filterMap fun event =>
    match event with
    | ⟨call, .deliver ⟨_, .published reference⟩, _⟩ => some (call, reference.url)
    | _ => none

/-- The last event hands out a manifest with a digest that was never read back. -/
def handsOutUnread (trace : SnapshotTrace) : Bool :=
  match trace.getLast? with
  | some ⟨_, .deliver ⟨.manifest _ _ _ manifest, _⟩, .ok ()⟩ =>
    trace.all fun event =>
      match event with
      | ⟨_, .fetch read, _⟩ => read.sha256 ≠ manifest.sha256
      | _ => true
  | _ => false

theorem not_trustworthy_of_unread {policy : CatalogSnapshotPolicy} {trace}
    (unread : handsOutUnread trace = true) : ¬ policy.Trustworthy trace := by
  intro trustworthy
  unfold handsOutUnread at unread
  split at unread
  next call request identity key manifest delivery last =>
    obtain ⟨before, rfl⟩ := getLast?_eq_some_iff.mp last
    obtain ⟨_, _, early, later, rfl, proved, _⟩ := trustworthy.answers rfl
    obtain ⟨reader, _, _, original, _, _, _, _, ⟨_, _, _, fetched, _⟩, rfl⟩ := proved
    have differs := all_eq_true.mp unread _ (mem_append_left _ (mem_append_left later fetched))
    simp [CatalogPublicationManifest.relocate] at differs
  · cases unread

/-- What another process put under the key, with the id of the manifest that is imported. -/
def forged : Manifest :=
  { policy.manifestOf tenantKey "m1" response upload location with
    sha256 := "other"
    url := "https://elsewhere/1" }

/-- The manifest is imported and a snapshot served after the other process. -/
def disturbed : List (CrowdAction Surroundings SnapshotCall) :=
  .start (.elsewhere (.put forged)) :: steps 0 1
    ++ .start (.importing request (policy.manifestOf tenantKey "m1" response upload location))
      :: steps 1 13
    ++ .start (.serve request none) :: steps 2 12

end TrustSample

open AudienceSample TrustSample

/-- The snapshot is handed out three times, the last time after it was withdrawn and committed
again.
-/
theorem snapshots_trustworthy_sample
    : ∃ crowd, policy.calls.exec nobody actions = some crowd
      ∧ references crowd.trace
        = [(0, "https://store/1"), (1, "https://store/1"), (3, "https://store/1")]
      ∧ policy.Trustworthy crowd.trace := by
  have ends : (policy.calls.exec nobody actions).map
      (references ·.trace)
      = some [(0, "https://store/1"), (1, "https://store/1"), (3, "https://store/1")] := by
    decide +kernel
  obtain ⟨crowd, is, references⟩ := map_eq_some_iff.mp ends
  refine ⟨crowd, is, references, ?_⟩
  refine snapshots_trustworthy policy keyDigest_injective crowd (.exec (.start ⟨rfl, rfl⟩) ?_ is)
  decide +kernel

/-- Import takes the manifest that another process has put under the same id, unread; it is
handed out, and nobody has ever read it back.
-/
theorem forged_manifest_served
    : ∃ crowd, policy.calls.exec nobody disturbed = some crowd
      ∧ ¬ policy.Trustworthy crowd.trace := by
  have ends : (policy.calls.exec nobody disturbed).map (handsOutUnread ·.trace) = some true := by
    decide +kernel
  obtain ⟨crowd, is, unread⟩ := map_eq_some_iff.mp ends
  exact ⟨crowd, is, not_trustworthy_of_unread unread⟩

end Vgi.Snapshot
