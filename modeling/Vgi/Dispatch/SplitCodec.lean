import Vgi.Opaque.Envelope

/-! Exactness of the split-token envelope: every byte string either has the layout that
`build_split_token` writes, and is judged by what stands in its header, or is invalid.
-/

namespace Vgi.Dispatch

open Opaque List SplitHeader

/-- A range of a slice. Outside of the slice the code panics. -/
def slice (bytes : Bytes) (start stop : Nat) : Option Bytes :=
  if start ≤ stop ∧ stop ≤ bytes.length then some ((bytes.take stop).drop start) else none

/-- `open_split_token` with its indices and ranges. A panic has no result. -/
def openSplitTokenIndexed (crypto : Crypto) (token : Bytes) (signingKey : Option Bytes)
    (auth : Option (String × String)) (expectedFingerprint currentAnchor : Option Bytes)
    : Option (Except SplitTokenError Bytes) := do
  if token.length < headerLen then
    return .error
      (.invalid s!"split token too short: {token.length} bytes, need at least {headerLen}")
  let version ← token[0]?
  let flags ← token[1]?
  let anchorLen := (← token[2]?).toNat + 256 * (← token[3]?).toNat
  if version ≠ splitTokenFormatVersion then
    return .error
      (.invalid (s!"unsupported split-token format_version {version}; this worker speaks "
        ++ s!"{splitTokenFormatVersion}"))
  if flags &&& reservedFlagsMask ≠ 0 then
    return .error (.invalid ("split token sets reserved flag bits (flags=0x"
      ++ String.ofList [hexDigit (flags / 16), hexDigit (flags % 16)] ++ ")"))
  let sealed : Bool := flags &&& flagPayloadSealed ≠ 0
  if signingKey.isSome ∧ ¬sealed then
    return .error
      (.invalid ("split token is unsealed but this worker holds a signing key; refusing. "
        ++ "An unsealed token cannot be authenticated, so accepting one here would let any "
        ++ "caller forge a split (alg:none)."))
  if signingKey.isNone ∧ sealed then
    return .error
      (.invalid "split token is sealed but this worker holds no signing key; cannot open it")
  let endOfAnchor := headerLen + anchorLen
  if token.length < endOfAnchor then
    return .error (.invalid (s!"split token truncated: anchor_len={anchorLen} exceeds token length "
      ++ s!"{token.length}"))
  let fingerprint ← slice token 4 headerLen
  let anchor ← slice token headerLen endOfAnchor
  let body ← slice token 0 endOfAnchor
  let rest ← slice token endOfAnchor token.length
  if expectedFingerprint.any (· ≠ fingerprint) then
    return .error (.invalid "split token was minted for a different bind (fingerprint mismatch)")
  if currentAnchor.any (· ≠ anchor) then
    return .error (.snapshotExpired "split snapshot expired; re-run the query")
  match signingKey with
  | none => return .ok rest
  | some key =>
    return (crypto.openBytes rest key (splitTokenAad body auth) sealVersion).mapError fun e =>
      .invalid s!"split token failed authentication: {e}"

theorem slice_eq {bytes start stop} (order : start ≤ stop)
    (inside : stop ≤ bytes.length) : slice bytes start stop = some ((bytes.take stop).drop start) :=
  if_pos ⟨order, inside⟩

/-- A test that both sides make, with the same answer where it succeeds. -/
theorem ite_eq_some {α : Type} {test} [Decidable test] {answer fails : α}
    {continues} (rest : ¬ test → continues = some fails)
    : (if test then some answer else continues) = some (if test then answer else fails) := by
  by_cases met : test
  · rw [if_pos met, if_pos met]
  · rw [if_neg met, if_neg met, rest met]

/-- No index and no range lies outside of the token. -/
theorem openSplitTokenIndexed_eq (crypto token signingKey auth expectedFingerprint currentAnchor)
    : openSplitTokenIndexed crypto token signingKey auth expectedFingerprint currentAnchor
      = some (openSplitToken crypto token signingKey auth expectedFingerprint currentAnchor) := by
  match token with
  | [] | [_] | [_, _] | [_, _, _] => rfl
  | version :: flags :: low :: high :: tail =>
    -- The two run through the same tests; the ranges are read after the last test of a length.
    simp only [openSplitTokenIndexed, decide_eq_true_eq]
    refine ite_eq_some fun long => ite_eq_some fun _ => ite_eq_some fun _ =>
      ite_eq_some fun _ => ite_eq_some fun _ => ite_eq_some fun covered => ?_
    rw [slice_eq (by decide) (by omega), slice_eq (by omega) (by omega),
      slice_eq (by omega) (by omega), slice_eq (by omega) (by omega)]
    simp only [take_length]
    refine ite_eq_some fun _ => ite_eq_some fun _ => ?_
    cases signingKey <;> rfl

variable {flags : UInt8}

/-- A byte string that is long enough has a header, if its version is right. -/
theorem exists_header {version low high tail}
    (long : headerLen + (low.toNat + 256 * high.toNat)
      ≤ (version :: flags :: low :: high :: tail).length)
    (speaks : version = splitTokenFormatVersion)
    : ∃ (header : SplitHeader) (rest : Bytes), header.flags = flags
      ∧ version :: flags :: low :: high :: tail = header.bytes ++ rest := by
  subst speaks
  have lowBound := low.toNat_lt
  have highBound := high.toNat_lt
  simp only [length_cons, headerLen, fingerprintLen] at long
  let anchorLen := low.toNat + 256 * high.toNat
  have anchorLength : ((tail.drop 16).take anchorLen).length = anchorLen := by
    rw [length_take, length_drop]
    omega
  let header : SplitHeader :=
    { flags := flags
      fingerprint := tail.take 16
      anchor := (tail.drop 16).take anchorLen
      width := by
        rw [length_take, fingerprintLen]
        omega
      short := by
        omega }
  refine ⟨header, (tail.drop 16).drop anchorLen, rfl, ?_⟩
  have lowIs : anchorLen.toUInt8 = low := by
    simp [anchorLen]
  have highIs : (anchorLen / 256).toUInt8 = high := by
    apply UInt8.toNat_inj.mp
    simp
    omega
  have starts : header.start = [splitTokenFormatVersion, flags, low, high] := by
    simp only [start, header, anchorLength, lowIs, highIs]
  rw [bytes_eq, starts]
  simp only [header, append_assoc, take_append_drop, cons_append, nil_append]

variable {expectedFingerprint currentAnchor signingKey : Option Bytes}
  {auth : Option (String × String)} {crypto : Crypto}

/-- Unknown flags, or flags that do not say whether there is a key, are invalid. -/
theorem openSplitToken_flags {header : SplitHeader} {rest}
    (wrong : header.flags &&& reservedFlagsMask ≠ 0
      ∨ ¬ (signingKey.isSome = true ↔ header.flags &&& flagPayloadSealed ≠ 0))
    : ∃ message, openSplitToken crypto (header.bytes ++ rest) signingKey auth expectedFingerprint
      currentAnchor = .error (.invalid message) := by
  unfold openSplitToken
  rw [header.parts rest]
  simp only [← header.parts rest]
  rw [if_neg (by have := header.long rest; omega), if_neg (by simp)]
  split
  · exact ⟨_, rfl⟩
  next known =>
    split
    · exact ⟨_, rfl⟩
    next unsealed =>
      rw [if_pos (by cases signingKey <;> simp_all)]
      exact ⟨_, rfl⟩

/-- Whatever has no header is invalid. -/
theorem openSplitToken_headless {token}
    (headless : ¬ ∃ (header : SplitHeader) (rest : Bytes), token = header.bytes ++ rest)
    : ∃ message, openSplitToken crypto token signingKey auth expectedFingerprint currentAnchor
      = .error (.invalid message) := by
  match token with
  | [] | [_] | [_, _] | [_, _, _] => exact ⟨_, rfl⟩
  | version :: flags :: low :: high :: tail =>
    unfold openSplitToken
    dsimp only
    split
    · exact ⟨_, rfl⟩
    · split
      · exact ⟨_, rfl⟩
      next speaks =>
        split
        · exact ⟨_, rfl⟩
        · split
          · exact ⟨_, rfl⟩
          · split
            · exact ⟨_, rfl⟩
            · split
              · exact ⟨_, rfl⟩
              next long =>
                obtain ⟨header, rest, _, is⟩ := exists_header (Nat.le_of_not_lt long)
                  (not_not.mp speaks)
                exact absurd ⟨header, rest, is⟩ headless

/-- What an optional expectation admits. -/
def Admits (expected : Option Bytes) (value : Bytes) : Prop :=
  ∀ bytes, expected = some bytes → bytes = value

theorem any_ne_iff {expected : Option Bytes} {value}
    : expected.any (· ≠ value) = true ↔ ¬ Admits expected value := by
  cases expected <;> simp [Admits]

theorem flags_cases (plain : ¬ flags &&& reservedFlagsMask ≠ 0)
    : flags = 0 ∨ flags = flagPayloadSealed := by
  have all : ∀ bits : BitVec 8, ¬ bits &&& 0xFE ≠ 0 → bits = 0 ∨ bits = 1 := by decide
  rcases all flags.toBitVec (fun ne => plain fun eq => ne (congrArg UInt8.toBitVec eq)) with is | is
  · exact .inl (UInt8.toBitVec_inj.mp is)
  · exact .inr (UInt8.toBitVec_inj.mp is)

section

variable {payload fingerprint anchor token : Bytes} {auth' : Option (String × String)}

variable {key : Bytes}

/-- The tokens that are built with a key. -/
theorem buildSplitToken_some
    (built : buildSplitToken crypto payload fingerprint anchor (some key) auth = .ok token)
    : ∃ header : SplitHeader, header.flags = flagPayloadSealed
      ∧ header.fingerprint = fingerprint ∧ header.anchor = anchor
      ∧ token = header.bytes ++ crypto.sealBytes payload key (splitTokenAad header.bytes auth)
        sealVersion := by
  unfold buildSplitToken at built
  split at built
  · cases built
  next width =>
    split at built
    · cases built
    next short =>
      cases built
      exact ⟨⟨flagPayloadSealed, fingerprint, anchor, not_not.mp width, by omega⟩, rfl, rfl, rfl,
        rfl⟩

/-- Without a key, a token is invalid unless it has a header without flags. -/
theorem openSplitToken_none_cases
    : (∃ (header : SplitHeader) (rest : Bytes), header.flags = 0 ∧ token = header.bytes ++ rest)
      ∨ (¬ ∃ (header : SplitHeader) (rest : Bytes), header.flags = 0 ∧ token = header.bytes ++ rest)
        ∧ ∃ message, openSplitToken crypto token none auth expectedFingerprint currentAnchor
          = .error (.invalid message) := by
  by_cases headed : ∃ (header : SplitHeader) (rest : Bytes), token = header.bytes ++ rest
  · obtain ⟨header, rest, rfl⟩ := headed
    by_cases plain : header.flags = 0
    · exact .inl ⟨header, rest, plain, rfl⟩
    · refine .inr ⟨?_, ?_⟩
      · rintro ⟨header', rest', plain', same⟩
        have := (ext_bytes (bytes_append_inj same).1).1
        exact plain (this.trans plain')
      · refine openSplitToken_flags (or_iff_not_imp_left.mpr fun known => ?_)
        rw [(flags_cases known).resolve_left plain]
        decide
  · refine .inr ⟨?_, openSplitToken_headless headed⟩
    rintro ⟨header, rest, _, is⟩
    exact headed ⟨header, rest, is⟩

/-- What a worker with a key opens was sealed under the key, its header and the caller. -/
theorem openSplitToken_some_eq_ok
    (opened : openSplitToken crypto token (some key) auth expectedFingerprint currentAnchor
      = .ok payload)
    : ∃ (header : SplitHeader) (rest : Bytes), header.flags = flagPayloadSealed
      ∧ Admits expectedFingerprint header.fingerprint ∧ Admits currentAnchor header.anchor
      ∧ token = header.bytes ++ rest
      ∧ crypto.openBytes rest key (splitTokenAad header.bytes auth) sealVersion = .ok payload := by
  have valid : ∀ message, openSplitToken crypto token (some key) auth expectedFingerprint
      currentAnchor ≠ .error (.invalid message) := by
    rw [opened]
    simp
  by_cases headed : ∃ (header : SplitHeader) (rest : Bytes), token = header.bytes ++ rest
  · obtain ⟨header, rest, rfl⟩ := headed
    have right : header.flags &&& reservedFlagsMask = 0
        ∧ ((some key).isSome = true ↔ header.flags &&& flagPayloadSealed ≠ 0) := by
      by_contra wrong
      obtain ⟨message, is⟩ := openSplitToken_flags (by rwa [Decidable.not_and_iff_or_not] at wrong)
      exact valid message is
    have sealed := (flags_cases (not_not.mpr right.1)).resolve_left fun plain => by
      simp [plain] at right
    rw [openSplitToken_header right.1 right.2] at opened
    split at opened
    · cases opened
    next fits =>
      split at opened
      · cases opened
      next live =>
        rw [any_ne_iff, not_not] at fits live
        exact ⟨header, rest, sealed, fits, live, rfl, Lib.mapError_eq_ok.mp opened⟩
  · obtain ⟨message, is⟩ := openSplitToken_headless headed
    exact absurd is (valid message)

end

end Vgi.Dispatch
