import Vgi.Storage.Backend
import Vgi.Rpc

/-! The envelope around the payload of a split: a plain header that names the bind call and the
catalog version the split was planned for, followed by the payload, sealed where the worker
has a key.
-/

namespace Vgi.Dispatch

open List Nat

inductive SplitTokenError where
  | invalid (message : String)
  | snapshotExpired (message : String)
  | transactionEnded (message : String)
deriving DecidableEq

def SplitTokenError.kind : SplitTokenError → String
  | .invalid _ => "SPLIT_TOKEN_INVALID"
  | .snapshotExpired _ => "SPLIT_SNAPSHOT_EXPIRED"
  | .transactionEnded _ => "SPLIT_TRANSACTION_ENDED"

def SplitTokenError.message : SplitTokenError → String
  | .invalid message | .snapshotExpired message | .transactionEnded message => message

/-- Authenticated encryption, and the digest of a bind call. -/
structure Crypto where
  sealBytes (payload key aad : Bytes) (version : UInt8) : Bytes
  openBytes (sealed key aad : Bytes) (version : UInt8) : Except String Bytes
  sha256 : Bytes → Bytes
  sha256_length : ∀ bytes, (sha256 bytes).length = 32

def splitTokenFormatVersion : UInt8 := 1

def flagPayloadSealed : UInt8 := 0x01

def reservedFlagsMask : UInt8 := 0xFE

def fingerprintLen : Nat := 16

def headerLen : Nat := 4 + fingerprintLen

def sealVersion : UInt8 := 1

/-- The low `width` bytes of a number, least significant first. -/
def leBytes (width n : Nat) : Bytes := (range width).map fun index => (n / 256 ^ index).toUInt8

theorem leBytes_length (width n) : (leBytes width n).length = width := by
  simp [leBytes]

theorem leBytes_succ (width n) : leBytes (width + 1) n = n.toUInt8 :: leBytes width (n / 256) := by
  unfold leBytes
  rw [range_succ_eq_map, map_cons, map_map, Nat.pow_zero, Nat.div_one]
  congr 1
  refine map_congr_left fun index _ => ?_
  rw [Function.comp_apply, pow_succ', Nat.div_div_eq_div_mul]

/-- The consistency anchor: the catalog version as an `i64`. -/
def splitAnchor (catalogVersion : Int64) : Bytes := leBytes 8 catalogVersion.toUInt64.toNat

/-- Who may open a sealed payload. -/
def identityTail : Option (String × String) → Bytes
  | none => [0] ++ utf8 "anonymous"
  | some (domain, principal) => [1] ++ utf8 domain ++ [0] ++ utf8 principal

def splitTokenAad (header : Bytes) (auth : Option (String × String)) : Bytes :=
  header ++ identityTail auth

def splitHeader (flags : UInt8) (fingerprint anchor : Bytes) : Bytes :=
  [splitTokenFormatVersion, flags] ++ leBytes 2 anchor.length ++ fingerprint ++ anchor

/-- The identity of a bind call: its labelled parts under SHA-256, cut to 16 bytes. -/
def bindFingerprint (crypto : Crypto) (schemaPath : List String) (functionName : String)
    (arguments settings projection : Bytes) : Bytes :=
  let feed (label : String) (value : Bytes) : Bytes := utf8 label ++ [0] ++ value ++ [0]
  let text := utf8 "vgi.split_token.v1" ++ [0]
    ++ schemaPath.flatMap (fun component => feed "schema_path_component" (utf8 component))
    ++ feed "function_name" (utf8 functionName) ++ feed "arguments" arguments
    ++ feed "settings" settings ++ feed "projection_ids" projection
  (crypto.sha256 text).take fingerprintLen

theorem bindFingerprint_length (crypto schemaPath functionName arguments settings projection)
    : (bindFingerprint crypto schemaPath functionName arguments settings projection).length
      = fingerprintLen := by
  simp [bindFingerprint, crypto.sha256_length, fingerprintLen]

section

variable (crypto : Crypto)

/-- Stamps, and with a key seals, the payload of a split. -/
def buildSplitToken (payload fingerprint anchor : Bytes) (signingKey : Option Bytes)
    (auth : Option (String × String)) : Except SplitTokenError Bytes :=
  if fingerprint.length ≠ fingerprintLen then
    .error (.invalid s!"bind_fingerprint must be {fingerprintLen} bytes, got {fingerprint.length}")
  else if anchor.length > 65535 then
    .error (.invalid s!"consistency_anchor too long: {anchor.length} bytes exceeds u16")
  else
    match signingKey with
    | none => .ok (splitHeader 0 fingerprint anchor ++ payload)
    | some key =>
      let header := splitHeader flagPayloadSealed fingerprint anchor
      .ok (header ++ crypto.sealBytes payload key (splitTokenAad header auth) sealVersion)

def hexDigit (n : UInt8) : Char := "0123456789abcdef".toList.getD n.toNat '0'

/-- Checks a token and returns the payload in it. `none` skips the check of the bind call or of
the anchor.
-/
def openSplitToken (token : Bytes) (signingKey : Option Bytes) (auth : Option (String × String))
    (expectedFingerprint currentAnchor : Option Bytes) : Except SplitTokenError Bytes :=
  match token with
  | version :: flags :: low :: high :: _ =>
    let anchorLen := low.toNat + 256 * high.toNat
    let endOfAnchor := headerLen + anchorLen
    let sealed := flags &&& flagPayloadSealed ≠ 0
    if token.length < headerLen then
      .error (.invalid s!"split token too short: {token.length} bytes, need at least {headerLen}")
    else if version ≠ splitTokenFormatVersion then
      .error (.invalid (s!"unsupported split-token format_version {version}; this worker speaks "
        ++ s!"{splitTokenFormatVersion}"))
    else if flags &&& reservedFlagsMask ≠ 0 then
      .error (.invalid ("split token sets reserved flag bits (flags=0x"
        ++ String.ofList [hexDigit (flags / 16), hexDigit (flags % 16)] ++ ")"))
    else if signingKey.isSome ∧ ¬sealed then
      .error (.invalid ("split token is unsealed but this worker holds a signing key; refusing. "
        ++ "An unsealed token cannot be authenticated, so accepting one here would let any "
        ++ "caller forge a split (alg:none)."))
    else if signingKey.isNone ∧ sealed then
      .error (.invalid "split token is sealed but this worker holds no signing key; cannot open it")
    else if token.length < endOfAnchor then
      .error (.invalid (s!"split token truncated: anchor_len={anchorLen} exceeds token length "
        ++ s!"{token.length}"))
    else if expectedFingerprint.any (· ≠ (token.take headerLen).drop 4) then
      .error (.invalid "split token was minted for a different bind (fingerprint mismatch)")
    else if currentAnchor.any (· ≠ (token.take endOfAnchor).drop headerLen) then
      .error (.snapshotExpired "split snapshot expired; re-run the query")
    else
      match signingKey with
      | none => .ok (token.drop endOfAnchor)
      | some key =>
        (crypto.openBytes (token.drop endOfAnchor) key
          (splitTokenAad (token.take endOfAnchor) auth) sealVersion).mapError fun e =>
            .invalid s!"split token failed authentication: {e}"
  | _ =>
    .error (.invalid s!"split token too short: {token.length} bytes, need at least {headerLen}")

end

structure SplitHeader where
  flags : UInt8
  fingerprint : Bytes
  anchor : Bytes
  width : fingerprint.length = fingerprintLen
  short : anchor.length ≤ 65535

namespace SplitHeader

variable (header : SplitHeader)

def bytes : Bytes := splitHeader header.flags header.fingerprint header.anchor

variable {header} {header' : SplitHeader} {tail tail' : Bytes}

def start : Bytes :=
  [splitTokenFormatVersion, header.flags, header.anchor.length.toUInt8,
    (header.anchor.length / 256).toUInt8]

theorem bytes_eq : header.bytes = (header.start ++ header.fingerprint) ++ header.anchor := by
  simp [bytes, start, splitHeader, leBytes, range_succ]

theorem named_length : (header.start ++ header.fingerprint).length = headerLen := by
  rw [length_append, header.width]
  rfl

theorem bytes_length : header.bytes.length = headerLen + header.anchor.length := by
  rw [bytes_eq, length_append, named_length]

theorem anchorLen_eq
    : (header.anchor.length.toUInt8).toNat + 256 * ((header.anchor.length / 256).toUInt8).toNat
      = header.anchor.length := by
  have short := header.short
  simp
  omega

/-- A header tells where it ends. -/
theorem bytes_append_inj (same : header.bytes ++ tail = header'.bytes ++ tail')
    : header.bytes = header'.bytes ∧ tail = tail' := by
  have lengths : header.anchor.length = header'.anchor.length := by
    have starts := congrArg (fun bytes => bytes.take 4) same
    simp only [bytes_eq] at starts
    have starts : header.start = header'.start := starts
    simp only [start, cons.injEq] at starts
    rw [← header.anchorLen_eq, starts.2.2.1, starts.2.2.2.1, header'.anchorLen_eq]
  exact append_inj same (by rw [bytes_length, bytes_length, lengths])

theorem ext_bytes (same : header.bytes = header'.bytes)
    : header.flags = header'.flags ∧ header.fingerprint = header'.fingerprint
      ∧ header.anchor = header'.anchor := by
  rw [bytes_eq, bytes_eq] at same
  obtain ⟨named, anchors⟩ := append_inj same (by rw [named_length, named_length])
  obtain ⟨starts, fingerprints⟩ := append_inj named rfl
  simp only [start, cons.injEq] at starts
  exact ⟨starts.2.1, fingerprints, anchors⟩

theorem parts (rest)
    : header.bytes ++ rest
      = splitTokenFormatVersion :: header.flags :: header.anchor.length.toUInt8
        :: (header.anchor.length / 256).toUInt8
        :: (header.fingerprint ++ header.anchor ++ rest) := by
  simp [bytes_eq, start]

theorem long (rest) : headerLen + header.anchor.length ≤ (header.bytes ++ rest).length := by
  rw [length_append, header.bytes_length]
  omega

variable {rest : Bytes}

theorem named : ((header.bytes ++ rest).take headerLen).drop 4 = header.fingerprint := by
  rw [bytes_eq, append_assoc, take_left' header.named_length]
  rfl

theorem body : (header.bytes ++ rest).take (headerLen + header.anchor.length) = header.bytes :=
  take_left' header.bytes_length

theorem anchored : ((header.bytes ++ rest).take (headerLen + header.anchor.length)).drop headerLen
      = header.anchor := by
  rw [body, bytes_eq, drop_left' header.named_length]

theorem payload : (header.bytes ++ rest).drop (headerLen + header.anchor.length) = rest :=
  drop_left' header.bytes_length

end SplitHeader

/-- The bytes of a number that fits tell it, by taking the lowest one off. -/
theorem leBytes_inj {width m n} (fits : m < 256 ^ width) (fits' : n < 256 ^ width)
    (same : leBytes width m = leBytes width n) : m = n := by
  induction width generalizing m n with
  | zero => omega
  | succ width ih =>
    rw [leBytes_succ, leBytes_succ] at same
    obtain ⟨low, high⟩ := cons.inj same
    have digit : m % 256 = n % 256 := by simpa using congrArg UInt8.toNat low
    have rest : m / 256 = n / 256 :=
      ih (Nat.div_lt_of_lt_mul (by rwa [pow_succ'] at fits))
        (Nat.div_lt_of_lt_mul (by rwa [pow_succ'] at fits')) high
    omega

/-- Catalog versions have different anchors. -/
theorem splitAnchor_injective {v w} (same : splitAnchor v = splitAnchor w) : v = w := by
  have numbers : v.toUInt64.toNat = w.toUInt64.toNat :=
    leBytes_inj v.toUInt64.toNat_lt w.toUInt64.toNat_lt same
  cases v
  cases w
  exact congrArg Int64.ofUInt64 (UInt64.toNat_inj.mp numbers)

/-- How a token with a header is judged whose flags are known and say whether there is a key. -/
theorem openSplitToken_header {crypto} {header : SplitHeader} {rest}
    {signingKey : Option Bytes} {auth expectedFingerprint currentAnchor}
    (known : header.flags &&& reservedFlagsMask = 0)
    (agrees : signingKey.isSome = true ↔ header.flags &&& flagPayloadSealed ≠ 0)
    : openSplitToken crypto (header.bytes ++ rest) signingKey auth expectedFingerprint currentAnchor
      = if expectedFingerprint.any (· ≠ header.fingerprint) then
          .error (.invalid "split token was minted for a different bind (fingerprint mismatch)")
        else if currentAnchor.any (· ≠ header.anchor) then
          .error (.snapshotExpired "split snapshot expired; re-run the query")
        else
          match signingKey with
          | none => .ok rest
          | some key =>
            (crypto.openBytes rest key (splitTokenAad header.bytes auth) sealVersion).mapError
              fun e => .invalid s!"split token failed authentication: {e}" := by
  unfold openSplitToken
  rw [header.parts rest]
  simp only [header.anchorLen_eq, ← header.parts rest]
  rw [if_neg (by have := header.long rest; omega), if_neg (by simp), if_neg (not_not.mpr known),
    if_neg (fun wrong => wrong.2 (agrees.mp wrong.1)),
    if_neg (fun wrong => by rw [← agrees] at wrong; cases signingKey <;> simp at wrong),
    if_neg (Nat.not_lt.mpr (header.long rest)), header.named, header.anchored, header.body,
    header.payload]
  cases signingKey <;> rfl

section

variable {crypto : Crypto} {payload fingerprint anchor token : Bytes}
  {auth auth' : Option (String × String)} {expectedFingerprint currentAnchor : Option Bytes}

/-- The tokens that are built without a key. -/
theorem buildSplitToken_none_iff
    : buildSplitToken crypto payload fingerprint anchor none auth = .ok token
      ↔ ∃ header : SplitHeader, header.flags = 0 ∧ header.fingerprint = fingerprint
        ∧ header.anchor = anchor ∧ token = header.bytes ++ payload := by
  unfold buildSplitToken
  constructor
  · intro built
    split at built
    · cases built
    next width =>
      split at built
      · cases built
      next short =>
        cases built
        exact ⟨⟨0, fingerprint, anchor, not_not.mp width, by omega⟩, rfl, rfl, rfl, rfl⟩
  · rintro ⟨⟨flags, _, _, width, short⟩, rfl, rfl, rfl, rfl⟩
    rw [if_neg (not_not.mpr width), if_neg (Nat.not_lt.mpr short)]
    rfl

/-- How a token with a header is judged without a key. -/
theorem openSplitToken_plain (header : SplitHeader) (rest) (plain : header.flags = 0)
    : openSplitToken crypto (header.bytes ++ rest) none auth expectedFingerprint currentAnchor
      = if expectedFingerprint.any (· ≠ header.fingerprint) then
          .error (.invalid "split token was minted for a different bind (fingerprint mismatch)")
        else if currentAnchor.any (· ≠ header.anchor) then
          .error (.snapshotExpired "split snapshot expired; re-run the query")
        else .ok rest :=
  openSplitToken_header (by rw [plain]; decide) (by rw [plain]; decide)

end

/-- A plain token opens for the same bind call to its payload while the anchor is the live one,
and is refused as expired otherwise.
-/
theorem openSplitToken_build {crypto payload fingerprint anchor live token auth auth'}
    (built : buildSplitToken crypto payload fingerprint anchor none auth = .ok token)
    : openSplitToken crypto token none auth' (some fingerprint) (some live)
      = if anchor = live then .ok payload
        else .error (.snapshotExpired "split snapshot expired; re-run the query") := by
  obtain ⟨header, plain, rfl, rfl, rfl⟩ := buildSplitToken_none_iff.mp built
  rw [openSplitToken_plain header payload plain, if_neg (by simp)]
  by_cases same : header.anchor = live
  · rw [if_pos same, if_neg (by simp [same])]
  · rw [if_neg same, if_pos (by simpa using Ne.symm same)]

end Vgi.Dispatch
