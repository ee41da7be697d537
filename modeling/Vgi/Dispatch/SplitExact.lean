import Vgi.Opaque.Identity

/-! The split-token envelope is an exact codec, and under a key it tells callers apart as far as
their bound identities do.
-/

namespace Vgi.Dispatch

open Opaque SplitHeader

variable {Key : Type} {envelope : Envelope Key} {digest : Digest}

/-- What opening does to the byte strings that minting can produce, and to all others. A sealed
token is minted under a nonce.
-/
structure ExactSplitTokens (envelope : Envelope Key) (digest : Digest) : Prop where
  builds : ∀ nonce payload fingerprint anchor key auth,
    fingerprint.length = fingerprintLen → anchor.length ≤ 65535 →
    ∃ token, buildSplitToken (envelope.crypto digest nonce) payload fingerprint anchor key
      auth = .ok token
  roundTrip : ∀ nonce nonce' payload fingerprint anchor key auth token,
    buildSplitToken (envelope.crypto digest nonce) payload fingerprint anchor key auth = .ok token →
    openSplitToken (envelope.crypto digest nonce') token key auth (some fingerprint)
      (some anchor) = .ok payload
  accepts : ∀ nonce token auth auth' expectedFingerprint currentAnchor payload,
    openSplitToken (envelope.crypto digest nonce) token none auth expectedFingerprint
      currentAnchor = .ok payload
    ↔ ∃ fingerprint anchor, Admits expectedFingerprint fingerprint ∧ Admits currentAnchor anchor
      ∧ buildSplitToken (envelope.crypto digest nonce) payload fingerprint anchor none auth'
        = .ok token
  expires : ∀ nonce token auth auth' expectedFingerprint currentAnchor,
    (∃ message, openSplitToken (envelope.crypto digest nonce) token none auth
      expectedFingerprint currentAnchor = .error (.snapshotExpired message))
    ↔ ∃ payload fingerprint anchor, Admits expectedFingerprint fingerprint
      ∧ ¬ Admits currentAnchor anchor
      ∧ buildSplitToken (envelope.crypto digest nonce) payload fingerprint anchor none auth'
        = .ok token
  invalid : ∀ nonce token auth auth' expectedFingerprint currentAnchor,
    (∃ message, openSplitToken (envelope.crypto digest nonce) token none auth
      expectedFingerprint currentAnchor = .error (.invalid message))
    ↔ ¬ ∃ payload fingerprint anchor, Admits expectedFingerprint fingerprint
      ∧ buildSplitToken (envelope.crypto digest nonce) payload fingerprint anchor none auth'
        = .ok token
  sealed : ∀ nonce token key auth expectedFingerprint currentAnchor payload,
    openSplitToken (envelope.crypto digest nonce) token (some key) auth expectedFingerprint
      currentAnchor = .ok payload
    ↔ ∃ nonce' fingerprint anchor, Admits expectedFingerprint fingerprint
      ∧ Admits currentAnchor anchor
      ∧ buildSplitToken (envelope.crypto digest nonce') payload fingerprint anchor (some key)
        auth = .ok token
  unsealed : ∀ nonce token key auth auth' expectedFingerprint currentAnchor payload payload'
    fingerprint anchor,
    buildSplitToken (envelope.crypto digest nonce) payload fingerprint anchor none auth
      = .ok token →
    openSplitToken (envelope.crypto digest nonce) token (some key) auth' expectedFingerprint
      currentAnchor ≠ .ok payload'
  total : ∀ nonce token key auth expectedFingerprint currentAnchor,
    openSplitTokenIndexed (envelope.crypto digest nonce) token key auth expectedFingerprint
      currentAnchor
    = some (openSplitToken (envelope.crypto digest nonce) token key auth expectedFingerprint
      currentAnchor)

/-- A token that is sealed for `caller` opens for `other` only if they are the same, and only under
the key it was sealed with.
-/
def OpensApart (envelope : Envelope Key) (digest : Digest)
    (caller other : Option (String × String)) : Prop :=
  ∀ nonce nonce' payload payload' fingerprint anchor key key' token expectedFingerprint
    currentAnchor,
    buildSplitToken (envelope.crypto digest nonce) payload fingerprint anchor (some key) caller
      = .ok token →
    openSplitToken (envelope.crypto digest nonce') token (some key') other expectedFingerprint
      currentAnchor = .ok payload' →
    envelope.normalize key' = envelope.normalize key ∧ caller = other

variable {fingerprint anchor : Bytes} {crypto : Crypto}

theorem exists_build {payload key auth} (wide : fingerprint.length = fingerprintLen)
    (short : anchor.length ≤ 65535)
    : ∃ token, buildSplitToken crypto payload fingerprint anchor key auth = .ok token := by
  unfold buildSplitToken
  rw [if_neg (not_not.mpr wide), if_neg (Nat.not_lt.mpr short)]
  cases key <;> exact ⟨_, rfl⟩

theorem admits_self (bytes) : Admits (some bytes) bytes := by
  rintro _ ⟨⟩
  rfl

section

variable {crypto' : Crypto} {token payload : Bytes} {auth auth' : Option (String × String)}
  {expectedFingerprint currentAnchor : Option Bytes}

/-- Without a key, a token is judged by the header it was minted with. -/
theorem openSplitToken_of_build
    (built : buildSplitToken crypto' payload fingerprint anchor none auth' = .ok token)
    : openSplitToken crypto token none auth expectedFingerprint currentAnchor
      = if expectedFingerprint.any (· ≠ fingerprint) then
          .error (.invalid "split token was minted for a different bind (fingerprint mismatch)")
        else if currentAnchor.any (· ≠ anchor) then
          .error (.snapshotExpired "split snapshot expired; re-run the query")
        else .ok payload := by
  obtain ⟨header, plain, rfl, rfl, rfl⟩ := buildSplitToken_none_iff.mp built
  exact openSplitToken_plain header payload plain

/-- Without a key, what is not invalid was minted, for all that is known of it. -/
theorem exists_build_of_not_invalid
    (valid : ∀ message, openSplitToken crypto token none auth expectedFingerprint currentAnchor
      ≠ .error (.invalid message))
    : ∃ payload fingerprint anchor, Admits expectedFingerprint fingerprint
      ∧ ∀ crypto' auth', buildSplitToken crypto' payload fingerprint anchor none auth'
        = .ok token := by
  have cases : (∃ (header : SplitHeader) (rest : Bytes), header.flags = 0
      ∧ token = header.bytes ++ rest) ∨ _ ∧ ∃ message, openSplitToken crypto token none auth
        expectedFingerprint currentAnchor = .error (.invalid message) := openSplitToken_none_cases
  rcases cases with ⟨header, rest, plain, rfl⟩ | ⟨_, message, is⟩
  · have fits : Admits expectedFingerprint header.fingerprint := by
      by_contra other
      refine valid "split token was minted for a different bind (fingerprint mismatch)" ?_
      rw [openSplitToken_plain header rest plain, if_pos (any_ne_iff.mpr other)]
    exact ⟨rest, header.fingerprint, header.anchor, fits, fun _ _ =>
      buildSplitToken_none_iff.mpr ⟨header, plain, rfl, rfl, rfl⟩⟩
  · exact absurd is (valid message)

theorem openSplitToken_none_eq_ok_iff (auth')
    : openSplitToken crypto token none auth expectedFingerprint currentAnchor = .ok payload
      ↔ ∃ fingerprint anchor, Admits expectedFingerprint fingerprint ∧ Admits currentAnchor anchor
        ∧ buildSplitToken crypto payload fingerprint anchor none auth' = .ok token := by
  constructor
  · intro opened
    obtain ⟨minted, fingerprint, anchor, fits, built⟩ := exists_build_of_not_invalid
      (fun message is => by rw [opened] at is; cases is)
    rw [openSplitToken_of_build (built crypto auth), if_neg (by rwa [any_ne_iff, not_not])]
      at opened
    split at opened
    · cases opened
    next live =>
      rw [any_ne_iff, not_not] at live
      cases opened
      exact ⟨fingerprint, anchor, fits, live, built crypto auth'⟩
  · rintro ⟨fingerprint, anchor, fits, live, built⟩
    rw [openSplitToken_of_build built, if_neg (by rwa [any_ne_iff, not_not]),
      if_neg (by rwa [any_ne_iff, not_not])]

theorem openSplitToken_none_expired_iff
    : (∃ message, openSplitToken crypto token none auth expectedFingerprint currentAnchor
        = .error (.snapshotExpired message))
      ↔ ∃ payload fingerprint anchor, Admits expectedFingerprint fingerprint
        ∧ ¬ Admits currentAnchor anchor
        ∧ buildSplitToken crypto payload fingerprint anchor none auth' = .ok token := by
  constructor
  · rintro ⟨message, expired⟩
    obtain ⟨minted, fingerprint, anchor, fits, built⟩ := exists_build_of_not_invalid
      (fun message is => by rw [expired] at is; cases is)
    rw [openSplitToken_of_build (built crypto auth), if_neg (by rwa [any_ne_iff, not_not])]
      at expired
    split at expired
    next other => exact ⟨minted, fingerprint, anchor, fits, any_ne_iff.mp other, built crypto auth'⟩
    · cases expired
  · rintro ⟨payload, fingerprint, anchor, fits, other, built⟩
    rw [openSplitToken_of_build built, if_neg (by rwa [any_ne_iff, not_not]),
      if_pos (any_ne_iff.mpr other)]
    exact ⟨_, rfl⟩

theorem openSplitToken_none_invalid_iff
    : (∃ message, openSplitToken crypto token none auth expectedFingerprint currentAnchor
        = .error (.invalid message))
      ↔ ¬ ∃ payload fingerprint anchor, Admits expectedFingerprint fingerprint
        ∧ buildSplitToken crypto payload fingerprint anchor none auth' = .ok token := by
  constructor
  · rintro ⟨message, invalid⟩ ⟨payload, fingerprint, anchor, fits, built⟩
    rw [openSplitToken_of_build built, if_neg (by rwa [any_ne_iff, not_not])] at invalid
    split at invalid <;> cases invalid
  · intro unminted
    by_contra valid
    obtain ⟨payload, fingerprint, anchor, fits, built⟩ := exists_build_of_not_invalid
      (fun message is => valid ⟨message, is⟩)
    exact unminted ⟨payload, fingerprint, anchor, fits, built crypto auth'⟩

end

section

variable {token payload key nonce : Bytes} {auth : Option (String × String)}
  {expectedFingerprint currentAnchor : Option Bytes}

/-- A sealed token with a header that is expected opens as the seal in it does. -/
theorem openSplitToken_sealed {header : SplitHeader} {rest}
    (sealed : header.flags = flagPayloadSealed)
    (fits : Admits expectedFingerprint header.fingerprint)
    (live : Admits currentAnchor header.anchor)
    (opened : crypto.openBytes rest key (splitTokenAad header.bytes auth) sealVersion = .ok payload)
    : openSplitToken crypto (header.bytes ++ rest) (some key) auth expectedFingerprint currentAnchor
      = .ok payload := by
  rw [openSplitToken_header (by rw [sealed]; decide) (iff_of_true rfl (by rw [sealed]; decide)),
    if_neg (by rwa [any_ne_iff, not_not]), if_neg (by rwa [any_ne_iff, not_not])]
  exact Lib.mapError_eq_ok.mpr opened

theorem openSplitToken_some_eq_ok_iff
    : openSplitToken (envelope.crypto digest nonce) token (some key) auth expectedFingerprint
        currentAnchor = .ok payload
      ↔ ∃ nonce' fingerprint anchor, Admits expectedFingerprint fingerprint
        ∧ Admits currentAnchor anchor
        ∧ buildSplitToken (envelope.crypto digest nonce') payload fingerprint anchor (some key)
          auth = .ok token := by
  constructor
  · intro opened
    obtain ⟨header, rest, sealed, fits, live, rfl, unsealed⟩ := openSplitToken_some_eq_ok opened
    obtain ⟨nonce', rfl⟩ := Envelope.sealBytes_of_openBytes unsealed
    refine ⟨nonce', header.fingerprint, header.anchor, fits, live, ?_⟩
    unfold buildSplitToken
    rw [if_neg (not_not.mpr header.width), if_neg (Nat.not_lt.mpr header.short)]
    simp only [bytes, sealed]
    rfl
  · rintro ⟨nonce', fingerprint, anchor, fits, live, built⟩
    obtain ⟨header, sealed, rfl, rfl, rfl⟩ := buildSplitToken_some built
    exact openSplitToken_sealed sealed fits live Envelope.openBytes_sealBytes

/-- A worker with a key opens no token that was minted without one. -/
theorem openSplitToken_some_ne_ok {crypto' payload' auth'}
    (built : buildSplitToken crypto' payload fingerprint anchor none auth = .ok token)
    : openSplitToken crypto token (some key) auth' expectedFingerprint currentAnchor
      ≠ .ok payload' := by
  intro opened
  obtain ⟨header, plain, _, _, rfl⟩ := buildSplitToken_none_iff.mp built
  obtain ⟨header', rest, sealed, _, _, same, _⟩ := openSplitToken_some_eq_ok opened
  have flags := (ext_bytes (bytes_append_inj same).1).1
  rw [plain, sealed] at flags
  cases flags

end

theorem exactSplitTokens : ExactSplitTokens envelope digest := by
  constructor
  case builds => exact fun _ _ _ _ _ _ wide short => exists_build wide short
  case roundTrip =>
    intro nonce nonce' payload fingerprint anchor key auth token built
    cases key with
    | none =>
      rw [openSplitToken_of_build built]
      simp
    | some key =>
      exact openSplitToken_some_eq_ok_iff.mpr
        ⟨nonce, fingerprint, anchor, admits_self _, admits_self _, built⟩
  case accepts => exact fun _ _ _ auth' _ _ _ => openSplitToken_none_eq_ok_iff auth'
  case expires => exact fun _ _ _ _ _ _ => openSplitToken_none_expired_iff
  case invalid => exact fun _ _ _ _ _ _ => openSplitToken_none_invalid_iff
  case sealed => exact fun _ _ _ _ _ _ _ => openSplitToken_some_eq_ok_iff
  case unsealed => exact fun _ _ _ _ _ _ _ _ _ _ _ built => openSplitToken_some_ne_ok built
  case total => exact fun _ _ _ _ _ _ => openSplitTokenIndexed_eq ..

/-- Sealed tokens tell callers apart as their additional data do. -/
theorem opensApart_iff {caller other}
    : OpensApart envelope digest caller other
      ↔ ¬ Shifted caller other ∧ ¬ Shifted other caller := by
  constructor
  · intro apart
    rw [← not_or]
    intro shifted
    have tails := tail_eq_iff.mpr (.inr shifted)
    have built : ∃ token, buildSplitToken (envelope.crypto digest []) [] (List.replicate 16 0) []
        (some []) caller = .ok token := exists_build rfl (by decide)
    obtain ⟨token, built⟩ := built
    obtain ⟨header, sealed, _, _, rfl⟩ := buildSplitToken_some built
    have unsealed : (envelope.crypto digest []).openBytes ((envelope.crypto digest []).sealBytes []
        [] (splitTokenAad header.bytes caller) sealVersion) [] (splitTokenAad header.bytes other)
        sealVersion = .ok [] := by
      rw [splitTokenAad, splitTokenAad, tails]
      exact Envelope.openBytes_sealBytes
    have opened := openSplitToken_sealed sealed (show Admits none _ by simp [Admits])
      (show Admits none _ by simp [Admits]) unsealed
    obtain ⟨_, rfl⟩ := apart _ _ _ _ _ _ _ _ _ _ _ built opened
    exact not_shifted_self _ (or_self_iff.mp shifted)
  · rintro ⟨forth, back⟩ nonce nonce' payload payload' fingerprint anchor key key' token
      expectedFingerprint currentAnchor built opened
    obtain ⟨header, _, _, _, rfl⟩ := buildSplitToken_some built
    obtain ⟨header', rest, _, _, _, same, unsealed⟩ := openSplitToken_some_eq_ok opened
    obtain ⟨headers, rfl⟩ := bytes_append_inj same
    obtain ⟨keys, aads, _⟩ := Envelope.openBytes_sealBytes_eq_ok unsealed
    refine ⟨keys, ?_⟩
    have tails := (tail_eq_of_splitTokenAad_eq aads).2
    exact ((tail_eq_iff.mp tails).resolve_right (not_or.mpr ⟨back, forth⟩)).symm

/-- The split-token envelope is an exact codec, except that under a key a token that was sealed for
one caller opens for another exactly if the two are shifted against each other at a NUL.
-/
theorem split_token_codec_exact_iff (Key : Type) (envelope : Envelope Key) (digest : Digest)
    : ExactSplitTokens envelope digest
      ∧ ∀ caller other, OpensApart envelope digest caller other
        ↔ ¬ Shifted caller other ∧ ¬ Shifted other caller :=
  ⟨exactSplitTokens, fun _ _ => opensApart_iff⟩

/-- A token that is sealed for one caller and opened for another. -/
theorem split_token_opens_for_other
    : ((buildSplitToken (Envelope.plain.crypto .zeros [5]) [42] (List.replicate 16 3) [7]
          (some [9]) (some ("a\x00b", "c"))).bind fun token =>
        openSplitToken (Envelope.plain.crypto .zeros [5]) token (some [9]) (some ("a", "b\x00c"))
          (some (List.replicate 16 3)) (some [7])).toOption = some [42] := by
  decide +kernel

end Vgi.Dispatch
