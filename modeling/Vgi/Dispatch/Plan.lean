import Vgi.Dispatch.Call

/-! Planning against redemption. A plan consults the function registered first under the name
of the call and stamps its splits with the version it answers; an init resolves the call by
home and signature, moves the arguments to their declared positions, and compares with the
worker's own version.
-/

namespace Vgi.Dispatch

open Arrow Lib Dispatcher Option List

variable {P : Type}

/-- A split as it is answered: its payload is in the token only. -/
structure ScanSplit where
  payload : Bytes := []
  token : Bytes := []
  estimatedRows : Option Int := none
  rowsExact : Bool := false
  estimatedBytes : Option Int := none
  keyValue : Option Bytes := none
  rangeIndex : Option Int := none
  columnBounds : Option Bytes := none
  partitionBounds : Option Bytes := none
  columnStatistics : Option Bytes := none
  locationIds : Option (List Int) := none
  startPosition : Option Bytes := none
  endPosition : Option Bytes := none
deriving DecidableEq

structure PlanResponse where
  splits : List ScanSplit
  nextCursors : Option (List Bytes)
  executionId : Option Bytes
  initOpaqueData : Option Bytes
  maxWorkers : Option Int
  estimatedTotalSplits : Option Int
  estimatedTotalRows : Option Int
  estimatedTotalBytes : Option Int
  catalogVersion : Option Int64
  scope : String
  locations : Option (List String)
  partitioning : Option (List Bytes)
  cacheMaxAgeSeconds : Option Int
  startPosition : Option Bytes
  endPosition : Option Bytes
deriving DecidableEq

/-- The version a worker reports, and checks split tokens against. -/
def catalogVersion : Int64 := 1

def splitLiveAnchor : Bytes := splitAnchor catalogVersion

/-- Workers hold no signing key for splits. -/
def splitSigningKey : Option Bytes := none

def splitBindFingerprint (crypto : Crypto) (bindCall : BindRequest) : Bytes :=
  bindFingerprint crypto (bindCall.schemaPath.getD []) bindCall.functionName bindCall.arguments
    (bindCall.settings.getD []) []

def splitTokenError (e : SplitTokenError) : RpcError := runtimeError s!"[{e.kind}] {e.message}"

variable (outcome : PlanOutcome)

def checkLocations : Result Unit :=
  match outcome.locations with
  | some locations =>
    outcome.splits.zipIdx.forM fun (split, splitIndex) =>
      (split.locationIds.getD []).forM fun locationId =>
        rejectIf (¬(0 ≤ locationId ∧ locationId < locations.length))
          (valueError (s!"split {splitIndex} refers to location id {locationId}, but the plan has "
            ++ s!"{locations.length} location(s)"))
  | none =>
    match outcome.splits.zipIdx.find? fun entry => entry.1.locationIds.isSome with
    | some (_, splitIndex) => .error (valueError
        s!"split {splitIndex} has location_ids but the plan has no locations")
    | none => .ok ()

def checkPartitioning : Result Unit :=
  rejectIf ((outcome.partitioning.any fun partitioning => !partitioning.isEmpty)
      ∧ outcome.splits.any fun split => split.partitionBounds.isNone)
    (valueError "a partitioned plan requires partition_bounds on every split")

/-- The anchor of a plan: the version the function names, or else the live one. -/
def planAnchor : Bytes :=
  match outcome.catalogVersion with
  | some version => splitAnchor version
  | none => splitLiveAnchor

def stampSplit (crypto : Crypto) (fingerprint anchor : Bytes) (split : PlannedSplit)
    : Result ScanSplit := do
  let token ←
    (buildSplitToken crypto split.payload fingerprint anchor splitSigningKey none).mapError
      splitTokenError
  return {
    token
    estimatedRows := split.estimatedRows
    rowsExact := split.rowsExact
    estimatedBytes := split.estimatedBytes
    keyValue := split.keyValue
    rangeIndex := split.rangeIndex
    columnBounds := split.columnBounds
    partitionBounds := split.partitionBounds
    columnStatistics := split.columnStatistics
    locationIds := split.locationIds
    startPosition := split.startPosition
    endPosition := split.endPosition
  }

/-- The plan of a function that does not plan: the whole scan is one split without a token. -/
def defaultPlan : PlanResponse where
  splits := [{}]
  nextCursors := some []
  executionId := none
  initOpaqueData := some []
  maxWorkers := none
  estimatedTotalSplits := none
  estimatedTotalRows := none
  estimatedTotalBytes := none
  catalogVersion := none
  scope := "catalog"
  locations := none
  partitioning := some []
  cacheMaxAgeSeconds := none
  startPosition := some []
  endPosition := some []

def planResponse (splits : List ScanSplit) : PlanResponse where
  splits
  nextCursors := some outcome.nextCursors
  executionId := outcome.executionId
  initOpaqueData := outcome.initOpaqueData
  maxWorkers := outcome.maxWorkers
  estimatedTotalSplits := outcome.estimatedTotalSplits
  estimatedTotalRows := outcome.estimatedTotalRows
  estimatedTotalBytes := outcome.estimatedTotalBytes
  catalogVersion := outcome.catalogVersion
  scope := outcome.scope.getD "catalog"
  locations := outcome.locations
  partitioning := outcome.partitioning
  cacheMaxAgeSeconds := outcome.cacheMaxAgeSeconds
  startPosition := outcome.startPosition
  endPosition := outcome.endPosition

variable (d : Dispatcher P)

/-- The answer of the function that a plan consults. -/
def Dispatcher.planned (bindCall : BindRequest) (bp : BindParams)
    (dto : TableFunctionPlanRequest) : Result (Option PlanOutcome) :=
  match (d.tables bindCall.functionName).head? with
  | some first => first.function.onPlan bp dto
  | none => .ok none

/-- The place of the consulted function among those registered under the name, and the
arguments it is consulted with.
-/
def Dispatcher.consulted (bindCall : BindRequest) (bp : BindParams)
    : Option (Nat × Arguments) :=
  if (d.tables bindCall.functionName).isEmpty then none else some (0, bp.arguments)

def Dispatcher.handleTableFunctionPlan (env : Env) (ctx : CallContext)
    (dto : TableFunctionPlanRequest) : Result PlanResponse := do
  let (bindCall, _) ← env.bindRequest dto.bindCall
  let bp ← bindParams env bindCall ctx
  let outcome ← d.planned bindCall bp dto
  match outcome with
  | none => return defaultPlan
  | some outcome => do
    checkLocations outcome
    checkPartitioning outcome
    let splits ← outcome.splits.mapM
      (stampSplit env.crypto (splitBindFingerprint env.crypto bindCall) (planAnchor outcome))
    return planResponse outcome splits

/-- The payloads of the tokens an init brings along. -/
def openSplits (crypto : Crypto) (bindCall : BindRequest) (tokens : Option (List Bytes))
    : Result (Option (List Bytes)) :=
  match tokens with
  | none => .ok none
  | some tokens => do
    let payloads ← tokens.mapM fun token =>
      (openSplitToken crypto token splitSigningKey none
        (some (splitBindFingerprint crypto bindCall)) (some splitLiveAnchor)).mapError
        splitTokenError
    return some payloads

/-- An init up to the point where it knows its function and its splits. -/
def Dispatcher.openInit (env : Env) (ctx : CallContext) (dto : InitRequest)
    : Result (Target P × Option (List Bytes)) := do
  let bound ← readBoundCall env ctx dto.bindCall
  let _ ← env.ipc.readSchema dto.outputSchema
  let call ← d.bindScope bound
  let splitPayloads ← openSplits env.crypto bound.request dto.splitTokens
  let target ← d.target call bound dto.phase
  return (target, splitPayloads)

def Target.table? : Target P → Option (Nat × Arguments)
  | .table index _ arguments => some (index, arguments)
  | _ => none

/-- What is planned is what is redeemed: the plan consults the function that the init resolves,
with the same arguments, and any selection of the plan's tokens brings the init the payloads
the function returned for these splits.
-/
structure Redeems (d : Dispatcher P) (env : Env) (ctx : CallContext)
    (dto : TableFunctionPlanRequest) (response : PlanResponse) (init : InitRequest)
    (bindCall : BindRequest) (bp : BindParams) (target : Target P) : Prop where
  function : d.consulted bindCall bp = target.table?
  splits : ∀ outcome, d.planned bindCall bp dto = .ok (some outcome) →
    ∀ picked ⊆ outcome.splits.zip response.splits,
      d.openInit env ctx { init with splitTokens := some (picked.map (·.2.token)) }
        = .ok (target, some (picked.map (·.1.payload)))

/-- The call is for the table function registered first: no buffering or table-in-out function
takes it, the call reaches the home of the first one and prefers it to the others it reaches,
and the arguments are where it declares them.
-/
structure ForFirst (d : Dispatcher P) (call : CallScope) (bound : BoundCall)
    (first : Registered (TableFunction P)) : Prop where
  buffering : (d.buffering bound.request.functionName).isEmpty ∨ bound.copyFrom.isSome
  inOut : (d.tableinouts bound.request.functionName).isEmpty
  table : d.isTableCall bound.request
  reached : call.reaches first.home
  preferred : Preferred
    (((d.tables bound.request.functionName).filter (call.reaches ·.home)).map
      (·.function.argumentSpecs))
    bound.params.arguments bound.params.inputSchema 0
  placed : Placed first.function.argumentSpecs bound.params.arguments

section

variable {d} {call : CallScope} {bound : BoundCall} {phase : Option String} {target : Target P}
  (resolved : d.target call bound phase = .ok target)

include resolved

/-- A resolved call is one for a table function, and then found among these, or one for
another kind.
-/
theorem target_cases
    : (∃ index f, ((d.buffering bound.request.functionName).isEmpty ∨ bound.copyFrom.isSome)
        ∧ (d.tableinouts bound.request.functionName).isEmpty ∧ d.isTableCall bound.request
        ∧ bound.params.inputSchema = none
        ∧ d.resolveTable bound.request.functionName bound.params.arguments
            bound.params.inputSchema call = .ok (index, f)
        ∧ target = .table index f (bound.params.arguments.remapPositional f.argumentSpecs))
      ∨ (target.table? = none
        ∧ ¬(((d.buffering bound.request.functionName).isEmpty ∨ bound.copyFrom.isSome)
          ∧ (d.tableinouts bound.request.functionName).isEmpty
          ∧ d.isTableCall bound.request)) := by
  simp only [Dispatcher.target] at resolved
  split at resolved
  next buffered =>
    obtain ⟨found, -, made⟩ := bind_eq_ok.mp resolved
    refine .inr ⟨?_, fun other => ?_⟩
    · rw [← pure_eq_ok.mp made]
      rfl
    · simp only [Bool.and_eq_true, isNone_iff_eq_none] at buffered
      rcases other.1 with empty | copies
      · simp [empty] at buffered
      · simp [buffered.2] at copies
  next unbuffered =>
    have first : (d.buffering bound.request.functionName).isEmpty ∨ bound.copyFrom.isSome := by
      by_contra neither
      simp only [not_or, Bool.not_eq_true, isSome_eq_false_iff] at neither
      exact unbuffered (by simp [neither.1, neither.2])
    split at resolved
    next streamed =>
      obtain ⟨-, -, resolved⟩ := bind_eq_ok.mp resolved
      obtain ⟨found, -, made⟩ := bind_eq_ok.mp resolved
      refine .inr ⟨?_, fun other => ?_⟩
      · rw [← pure_eq_ok.mp made]
        rfl
      · simp [other.2.1] at streamed
    next unstreamed =>
      have second : (d.tableinouts bound.request.functionName).isEmpty := by
        simpa using unstreamed
      split at resolved
      next table =>
        obtain ⟨_, plain, resolved⟩ := bind_eq_ok.mp resolved
        obtain ⟨⟨index, f⟩, found, made⟩ := bind_eq_ok.mp resolved
        have plain := rejectIf_eq_ok.mp plain
        simp only [not_or, Bool.not_eq_true, isSome_eq_false_iff, isNone_iff_eq_none] at plain
        exact .inl ⟨index, f, first, second, table, plain.2, found, (pure_eq_ok.mp made).symm⟩
      next scalar =>
        obtain ⟨found, -, made⟩ := bind_eq_ok.mp resolved
        refine .inr ⟨?_, fun other => scalar other.2.2⟩
        rw [← pure_eq_ok.mp made]
        rfl

variable {bp : BindParams}

theorem consulted_eq_table_iff (arguments : bp.arguments = bound.params.arguments)
    : d.consulted bound.request bp = target.table?
      ↔ ∀ first, (d.tables bound.request.functionName).head? = some first →
          ForFirst d call bound first := by
  unfold consulted
  cases registered : d.tables bound.request.functionName with
  | nil =>
    rcases target_cases resolved with ⟨index, f, -, -, -, -, found, -⟩ | ⟨other, -⟩
    · have place := resolve_registered found
      simp [registered] at place
    · simp [other]
  | cons first rest =>
    simp only [isEmpty_cons, Bool.false_eq_true, if_false, head?_cons, some.injEq, forall_eq']
    rcases target_cases resolved with ⟨index, f, unbuffered, unstreamed, table, -, found, rfl⟩ |
      ⟨other, not_table⟩
    · have first_iff := resolve_first_iff found
      have place := resolve_registered found
      rw [registered] at place
      constructor
      · intro same
        obtain ⟨rfl, unmoved⟩ := Prod.mk.inj (some.inj same)
        cases place
        obtain ⟨reached, preferred⟩ := first_iff.mp rfl
        rw [registered] at reached
        rw [arguments] at unmoved
        exact ⟨unbuffered, unstreamed, table, reached, preferred,
          remapPositional_eq_self_iff.mp unmoved.symm⟩
      · intro meant
        have zero : index = 0 := by
          refine first_iff.mpr ⟨?_, meant.preferred⟩
          rw [registered]
          exact meant.reached
        subst zero
        cases place
        rw [arguments, Target.table?, remapPositional_eq_self_iff.mpr meant.placed]
    · refine iff_of_false ?_ fun first => ?_
      · rw [other]
        exact some_ne_none _
      · exact not_table ⟨first.buffering, first.inOut, first.table⟩

variable {env : Env} {ctx ctx' : CallContext} {dto : TableFunctionPlanRequest} {init : InitRequest}
  {response : PlanResponse} {outcome} {bindCall : BindRequest}

omit resolved

/-- The plan's anchor is the live one exactly if the function named no version or the live
one.
-/
theorem planAnchor_eq_live_iff : planAnchor outcome = splitLiveAnchor
      ↔ outcome.catalogVersion = none ∨ outcome.catalogVersion = some catalogVersion := by
  unfold planAnchor
  cases named : outcome.catalogVersion with
  | none => simp
  | some version =>
    simp only [reduceCtorEq, some.injEq, false_or]
    exact ⟨splitAnchor_injective, fun same => by rw [same]; rfl⟩

/-- Each token of an answer is the one built for its split. -/
theorem answered_token {legacyPeer}
    (answered : d.handleTableFunctionPlan env ctx dto = .ok response)
    (read : env.bindRequest dto.bindCall = .ok (bindCall, legacyPeer))
    (made : bindParams env bindCall ctx = .ok bp)
    (planned : d.planned bindCall bp dto = .ok (some outcome))
    : response.splits.length = outcome.splits.length
      ∧ ∀ pair ∈ outcome.splits.zip response.splits,
        buildSplitToken env.crypto pair.1.payload (splitBindFingerprint env.crypto bindCall)
          (planAnchor outcome) none none = .ok pair.2.token := by
  simp only [handleTableFunctionPlan, read, made, planned, ok_bind, bind_eq_ok,
    pure_eq_ok] at answered
  obtain ⟨-, -, -, -, splits, stamped, rfl⟩ := answered
  obtain ⟨length, each⟩ := mapM_zip stamped
  refine ⟨length, fun pair member => ?_⟩
  have stamp := each pair member
  simp only [stampSplit, bind_eq_ok, pure_eq_ok, mapError_eq_ok] at stamp
  obtain ⟨token, built, made⟩ := stamp
  rw [← made]
  exact built

/-- An init that resolves its call answers with what it opens. -/
theorem openInit_tokens {tokens payloads} (read : readBoundCall env ctx init.bindCall = .ok bound)
    (within : d.bindScope bound = .ok call)
    (resolved : d.openInit env ctx { init with splitTokens := none } = .ok (target, none))
    : d.openInit env ctx { init with splitTokens := some tokens } = .ok (target, some payloads)
      ↔ openSplits env.crypto bound.request (some tokens) = .ok (some payloads) := by
  simp only [openInit, read, within, ok_bind, bind_eq_ok, pure_eq_ok] at resolved ⊢
  obtain ⟨schema, known, payloads', -, found, is, same⟩ := resolved
  obtain ⟨rfl, rfl⟩ := Prod.mk.inj same
  simp only [known, Except.ok.injEq, exists_eq_left', is, Prod.mk.injEq, true_and, exists_eq_right]

theorem openSplits_picked {picked : List (PlannedSplit × ScanSplit)}
    (live : planAnchor outcome = splitLiveAnchor) (built : ∀ pair ∈ picked,
      buildSplitToken env.crypto pair.1.payload (splitBindFingerprint env.crypto bindCall)
        (planAnchor outcome) none none = .ok pair.2.token)
    : openSplits env.crypto bindCall (some (picked.map (·.2.token)))
      = .ok (some (picked.map (·.1.payload))) := by
  have opened : (picked.map (·.2.token)).mapM (fun token =>
      (openSplitToken env.crypto token splitSigningKey none
        (some (splitBindFingerprint env.crypto bindCall)) (some splitLiveAnchor)).mapError
        splitTokenError) = .ok (picked.map (·.1.payload)) := by
    rw [mapM_map]
    refine mapM_eq_ok_map fun pair member => ?_
    rw [Function.comp_apply, splitSigningKey, openSplitToken_build (built pair member), if_pos live]
    rfl
  simp only [openSplits, opened]
  rfl

variable (read : readBoundCall env ctx' init.bindCall = .ok bound)

include read

/-- The arguments of a call depend on its request only. -/
theorem bindParams_arguments (made : bindParams env bound.request ctx = .ok bp)
    : bp.arguments = bound.params.arguments := by
  simp only [readBoundCall, bindParams, bind_eq_ok, pure_eq_ok] at read made
  obtain ⟨⟨request, legacy⟩, -, from?, -, to?, -, params,
    ⟨_, -, arguments, parsed, _, -, _, -, rfl⟩, rfl⟩ := read
  obtain ⟨_, -, arguments', parsed', _, -, _, -, rfl⟩ := made
  exact Except.ok.inj (parsed'.symm.trans parsed)

/-- A token of a plan opens only while its anchor is the live one. -/
theorem live_of_redeems (within : d.bindScope bound = .ok call)
    (resolved : d.openInit env ctx' { init with splitTokens := none } = .ok (target, none))
    (planned : d.planned bound.request bp dto = .ok (some outcome))
    (length : response.splits.length = outcome.splits.length)
    (built : ∀ pair ∈ outcome.splits.zip response.splits,
      buildSplitToken env.crypto pair.1.payload (splitBindFingerprint env.crypto bound.request)
        (planAnchor outcome) none none = .ok pair.2.token)
    (redeems : Redeems d env ctx' dto response init bound.request bp target)
    (some_split : outcome.splits ≠ [])
    : planAnchor outcome = splitLiveAnchor := by
  obtain ⟨pair, rest, splits⟩ : ∃ pair rest, outcome.splits.zip response.splits = pair :: rest := by
    refine exists_cons_of_ne_nil fun none => ?_
    rcases zip_eq_nil_iff.mp none with none | none
    · exact some_split none
    · rw [none] at length
      exact some_split (length_eq_zero_iff.mp length.symm)
  have member : pair ∈ outcome.splits.zip response.splits := by
    rw [splits]
    exact mem_cons_self
  have opened := (openInit_tokens read within resolved).mp
    (redeems.splits outcome planned [pair] (cons_subset.mpr ⟨member, nil_subset _⟩))
  by_contra other
  simp only [map_cons, openSplits, mapM_cons, splitSigningKey,
    openSplitToken_build (built pair member), if_neg other] at opened
  cases opened

omit read

/-- For a call that an init resolves, what is planned is what is redeemed exactly if the call is
for the table function registered first under its name, and the plan names no catalog version
but the worker's own.
-/
theorem plan_redeemed_iff {bp : BindParams}
    (same : init.bindCall = dto.bindCall)
    (read : readBoundCall env ctx' init.bindCall = .ok bound)
    (made : bindParams env bound.request ctx = .ok bp)
    (within : d.bindScope bound = .ok call)
    (resolved : d.openInit env ctx' { init with splitTokens := none } = .ok (target, none))
    (answered : d.handleTableFunctionPlan env ctx dto = .ok response)
    : Redeems d env ctx' dto response init bound.request bp target
      ↔ (∀ first, (d.tables bound.request.functionName).head? = some first →
            ForFirst d call bound first)
        ∧ ∀ outcome, d.planned bound.request bp dto = .ok (some outcome) →
            outcome.splits = [] ∨ outcome.catalogVersion = none
              ∨ outcome.catalogVersion = some catalogVersion := by
  have arguments := bindParams_arguments read made
  have found : d.target call bound init.phase = .ok target := by
    simp only [Dispatcher.openInit, read, within, ok_bind, bind_eq_ok, pure_eq_ok] at resolved
    obtain ⟨_, -, _, -, _, found, same⟩ := resolved
    exact (Prod.mk.inj same).1 ▸ found
  have request : ∃ legacy, env.bindRequest dto.bindCall = .ok (bound.request, legacy) := by
    simp only [readBoundCall, bind_eq_ok, pure_eq_ok] at read
    obtain ⟨⟨request, legacy⟩, decoded, _, -, _, -, _, -, rfl⟩ := read
    exact ⟨legacy, same ▸ decoded⟩
  obtain ⟨legacy, decoded⟩ := request
  constructor
  · intro redeems
    refine ⟨(consulted_eq_table_iff found arguments).mp redeems.function, fun outcome planned => ?_⟩
    obtain ⟨length, built⟩ := answered_token answered decoded made planned
    -- One split is enough to tell that the anchor is the live one.
    by_cases none : outcome.splits = []
    · exact .inl none
    · exact .inr (planAnchor_eq_live_iff.mp
        (live_of_redeems read within resolved planned length built redeems none))
  · rintro ⟨first, versions⟩
    refine ⟨(consulted_eq_table_iff found arguments).mpr first,
      fun outcome planned picked part => ?_⟩
    obtain ⟨length, built⟩ := answered_token answered decoded made planned
    refine (openInit_tokens read within resolved).mpr ?_
    rcases versions outcome planned with none | named
    · have nothing : picked = [] := by
        rw [none, zip_nil_left] at part
        exact eq_nil_of_subset_nil part
      rw [nothing]
      rfl
    · exact openSplits_picked (planAnchor_eq_live_iff.mpr named) fun pair member =>
        built pair (part member)

end

namespace PlanSample

deriving instance Inhabited for BindRequest, InitRequest, TableFunctionPlanRequest, Arguments,
  BindParams

def request := {
  (default : BindRequest) with
  functionName := "f"
  functionType := "table"
  schemaPath := some ["data"] }

/-- Stands for the Arrow stream of the request. -/
def stream : Bytes := utf8 "f"

def emptySchema : Schema := { fields := [], metadata := [] }

/-- The Arrow stream of a schema without fields. -/
def schemaStream : Bytes :=
  [255, 255, 255, 255, 48, 0, 0, 0, 16, 0, 0, 0, 0, 0, 10, 0, 12, 0, 10, 0, 9, 0, 4, 0, 10, 0, 0,
    0, 16, 0, 0, 0, 0, 1, 4, 0, 8, 0, 8, 0, 0, 0, 4, 0, 8, 0, 0, 0, 4, 0, 0, 0, 0, 0, 0, 0, 255,
    255, 255, 255, 0, 0, 0, 0]

/-- SHA-256 at the text of the request. -/
def digest (text : Bytes) : Bytes :=
  if text = utf8 "vgi.split_token.v1" ++ [0] ++ utf8 "schema_path_component" ++ [0] ++ utf8 "data"
      ++ [0] ++ utf8 "function_name" ++ [0] ++ utf8 "f" ++ [0] ++ utf8 "arguments" ++ [0, 0]
      ++ utf8 "settings" ++ [0, 0] ++ utf8 "projection_ids" ++ [0, 0] then
    [168, 215, 111, 20, 217, 172, 205, 56, 134, 51, 93, 27, 252, 195, 115, 103,
      13, 168, 17, 183, 194, 143, 227, 0, 109, 39, 160, 123, 202, 182, 51, 240]
  else replicate 32 0

def env : Env where
  ipc := {
    readBatch := fun _ => .error (runtimeError "ipc stream error")
    readSchema := fun bytes =>
      if bytes = schemaStream then .ok emptySchema else .error (runtimeError "ipc stream error")
    writeSchema := fun _ => .ok schemaStream }
  bindRequest := fun bytes =>
    if bytes = stream then .ok (request, false) else .error (runtimeError "ipc stream error")
  copyFrom := fun _ => .ok none
  copyTo := fun _ => .ok none
  render := fun _ => ""
  crypto := {
    sealBytes := fun payload _ _ _ => payload
    openBytes := fun sealed _ _ _ => .ok sealed
    sha256 := digest
    sha256_length := fun text => by unfold digest; split <;> rfl }
  b64Decode := fun _ => none
  documentFromStr := fun _ => .error "expected value at line 1 column 1"
  wireExprFromValue := fun _ => .error "expected an expression"

def ctx : CallContext := ⟨false, ""⟩

def bp : BindParams := default

def bound : BoundCall := ⟨request, false, none, none, bp⟩

def call : CallScope := ⟨"memory", .schema ["data"]⟩

def plan := { (default : TableFunctionPlanRequest) with bindCall := stream }

def init := { (default : InitRequest) with bindCall := stream, outputSchema := schemaStream }

/-- A function that plans one split for each payload. -/
def function (payloads : List Bytes) (version : Option Int64) : TableFunction Unit where
  argumentSpecs := []
  metadata := {}
  onPlan := fun _ _ =>
    .ok (some { splits := payloads.map fun payload => { payload }, catalogVersion := version })
  onInit := fun _ => .ok ()
  onSplit := fun _ => .ok ()
  producer := fun _ => .ok ()

def dispatcher (tables : List (Registered (TableFunction Unit))) : Dispatcher Unit where
  catalogName := "memory"
  catalogModelName := ""
  secondary := []
  hiddenFunctions := []
  scalars := fun _ => []
  tables := fun name => if name = "f" then tables else []
  tableinouts := fun _ => []
  buffering := fun _ => []

/-- One function, planning without a version. -/
def single : Dispatcher Unit := dispatcher [⟨function [[7], [8]] none, ⟨"memory", ["data"]⟩⟩]

/-- The name in two schemas. -/
def double : Dispatcher Unit :=
  dispatcher [⟨function [[7], [8]] none, ⟨"memory", ["main"]⟩⟩,
    ⟨function [[9]] none, ⟨"memory", ["data"]⟩⟩]

/-- One function, planning for version 7 of its data. -/
def versioned : Dispatcher Unit := dispatcher [⟨function [[7], [8]] (some 7), ⟨"memory", ["data"]⟩⟩]

def target : Target Unit := .table 0 (function [[7], [8]] none) {}

end PlanSample

open PlanSample

/-- With one function that names no version, any of its splits in any order are redeemed. -/
theorem plan_redeemed_single
    : ∃ response, single.handleTableFunctionPlan env ctx plan = .ok response
      ∧ Redeems single env ctx plan response init request bp target := by
  obtain ⟨response, answered⟩ :
      ∃ response, single.handleTableFunctionPlan env ctx plan = .ok response := ⟨_, rfl⟩
  refine ⟨response, answered, ?_⟩
  have read : readBoundCall env ctx init.bindCall = .ok bound := rfl
  have made : bindParams env bound.request ctx = .ok bp := rfl
  have within : single.bindScope bound = .ok call := rfl
  have opened : single.openInit env ctx { init with splitTokens := none } = .ok (target, none) := by
    with_unfolding_all rfl
  have reached : call.reaches ⟨"memory", ["data"]⟩ = true := by decide +kernel
  have table : single.isTableCall request = true := by decide +kernel
  refine (plan_redeemed_iff rfl read made within opened answered).mpr ⟨?_, ?_⟩
  · intro first registered
    cases registered
    refine ⟨.inl rfl, rfl, table, reached, ?_, .inl rfl⟩
    exact resolveOverload_eq_some_iff.mp (by with_unfolding_all rfl)
  · intro outcome planned
    cases planned
    exact .inr (.inl rfl)

/-- A plan of the name in schema `data` asks the function of schema `main`, which was registered
first, while the init scans that of `data`; and a plan for version 7 is refused at the init.
-/
theorem plan_not_redeemed : (double.handleTableFunctionPlan env ctx plan).isOk
      ∧ (double.consulted request bp).map (·.1) = some 0
      ∧ (double.openInit env ctx init).map (fun opened => opened.1.table?.map (·.1)) = .ok (some 1)
      ∧ ((versioned.handleTableFunctionPlan env ctx plan).bind fun response =>
          versioned.openInit env ctx
            { init with splitTokens := some (response.splits.map (·.token)) }).map (fun _ => ())
        = .error (runtimeError
            "[SPLIT_SNAPSHOT_EXPIRED] split snapshot expired; re-run the query") := by
  decide +kernel

end Vgi.Dispatch
