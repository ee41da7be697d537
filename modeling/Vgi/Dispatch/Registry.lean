import Vgi.Dispatch.Overload

/-! Where functions are declared, how a call names the one it wants, and the resolution of a
name: first by its home, then by its signature.
-/

namespace Vgi.Dispatch

open Arrow Lib List

structure FunctionScope where
  catalog : String
  schemaPath : List String
deriving DecidableEq

def eqIgnoreAsciiCase (a b : String) : Bool := a.toList.map Char.toLower = b.toList.map Char.toLower

def FunctionScope.matches (scope : FunctionScope) (catalog : String) (schemaPath : List String)
    : Bool :=
  eqIgnoreAsciiCase scope.catalog catalog
    && scope.schemaPath.length = schemaPath.length
    && (scope.schemaPath.zip schemaPath).all fun (left, right) => eqIgnoreAsciiCase left right

def FunctionScope.inCatalog (scope : FunctionScope) (catalog : String) : Bool :=
  eqIgnoreAsciiCase scope.catalog catalog

/-- How a call names the function it wants. -/
inductive ScopeKind where
  | schema (path : List String)
  | copyHandler
  | bound
  | unlistedScanFunction
  | legacyPeer
deriving DecidableEq

structure CallScope where
  catalog : String
  kind : ScopeKind
deriving DecidableEq

/-- The scope a bind names. Without a schema it is a COPY handler's, that of a peer from before
the field, or that of a hidden function.
-/
def CallScope.forBind (catalog : String) (schemaPath : Option (List String))
    (functionName : String) (isCopy hidden legacyPeer : Bool) : Result CallScope :=
  match schemaPath.filter fun path => !path.isEmpty && path.all (· ≠ "") with
  | some path => .ok ⟨catalog, .schema path⟩
  | none =>
    if isCopy then .ok ⟨catalog, .copyHandler⟩
    else if legacyPeer then .ok ⟨catalog, .legacyPeer⟩
    else if hidden then .ok ⟨catalog, .unlistedScanFunction⟩
    else .error (valueError (s!"bind for '{functionName}' carries no schema_path. Every function "
      ++ "is declared in exactly one catalog schema, and the extension sends the "
      ++ "owning schema on every bind as of VGI protocol 1.1.0. Only a COPY "
      ++ "handler bind (advertised at catalog level) or a function hidden from "
      ++ "the catalog listing may omit it."))

/-- The home is one that the call may reach. -/
def CallScope.reaches (call : CallScope) (home : FunctionScope) : Bool :=
  match call.kind with
  | .schema path => home.matches call.catalog path
  | _ => home.inCatalog call.catalog

def sortedNames (names : List String) : List String := (names.mergeSort fun a b => a ≤ b).eraseReps

def dotted (path : List String) : String := ".".intercalate path

/-- The overloads the call may reach. A schema has to match exactly; without one, the name must
not be declared in two schemas of the catalog.
-/
def scopedIndices (name : String) (homes : List FunctionScope) (call : CallScope)
    : Result (List Nat) :=
  let reached := (range homes.length).filter fun index => (homes[index]?).any call.reaches
  match call.kind with
  | .schema path =>
    if reached ≠ [] then .ok reached
    else
      let elsewhere := homes.map fun home => s!"{home.catalog}.{dotted home.schemaPath}"
      .error (notFound (s!"Function '{name}' is not declared in schema '{dotted path}' "
        ++ s!"of catalog '{call.catalog}'. It is declared in: "
        ++ ", ".intercalate (sortedNames elsewhere)))
  | _ =>
    if reached = [] then
      .error (notFound s!"Function '{name}' is not declared in catalog '{call.catalog}'")
    else
      let schemas := sortedNames (reached.filterMap fun index =>
        (homes[index]?).map fun home => dotted home.schemaPath)
      if schemas.length > 1 then
        .error (invalidArgument (s!"Ambiguous function call '{name}': declared in more than one "
          ++ s!"schema of catalog '{call.catalog}' (" ++ ", ".intercalate schemas
          ++ ") — qualify the call with a schema to disambiguate"))
      else .ok reached

/-- What is returned is what the call reaches, in the order of registration. -/
theorem scopedIndices_eq_ok {name homes call indices}
    (found : scopedIndices name homes call = .ok indices)
    : indices = (range homes.length).filter fun index => (homes[index]?).any call.reaches := by
  simp only [scopedIndices] at found
  repeat' split at found
  all_goals cases found
  all_goals rfl

structure Registered (F : Type) where
  function : F
  home : FunctionScope

section

variable {F : Type}

def unknownFunction (name : String) : RpcError := notFound s!"Unknown function: '{name}'"

/-- The overloads of one name that the call reaches, by their place in the order of
registration.
-/
def reachable (name : String) (candidates : List (Registered F)) (call : CallScope)
    : Result (List (Nat × F)) := do
  if candidates = [] then .error (unknownFunction name)
  let indices ← scopedIndices name (candidates.map Registered.home) call
  return indices.filterMap fun index =>
    (candidates[index]?).map fun found => (index, found.function)

/-- The resolution of a kind of function that has no overloads within a home. -/
def resolveFirst (name : String) (candidates : List (Registered F)) (call : CallScope)
    : Result (Nat × F) := do
  let reached ← reachable name candidates call
  okOr (unknownFunction name) reached.head?

/-- The resolution of a kind of function with overloads. -/
def resolveBlended (specs : F → List ArgSpec) (blended : F → Bool) (name : String)
    (candidates : List (Registered F)) (args : Arguments) (inputSchema : Option Schema)
    (call : CallScope) : Result (Nat × F) := do
  let reached ← reachable name candidates call
  let pick := resolveOverloadBlended
    (reached.map fun entry => (specs entry.2, blended entry.2)) args inputSchema
  okOr (invalidArgument s!"No matching overload for '{name}'") (pick.bind (reached[·]?))

def resolve (specs : F → List ArgSpec) (name : String) (candidates : List (Registered F))
    (args : Arguments) (inputSchema : Option Schema) (call : CallScope) : Result (Nat × F) :=
  resolveBlended specs (fun _ => false) name candidates args inputSchema call

variable {name : String} {candidates : List (Registered F)} {call : CallScope}

/-- Picking positions and then the entries there is filtering the numbered list, by taking the
last entry off.
-/
theorem filterMap_range_filter {α β : Type} (items : List α) (keep)
    (make : Nat → α → β)
    : ((range items.length).filter fun index => (items[index]?).any keep).filterMap
        (fun index => (items[index]?).map (make index))
      = (items.zipIdx.filter fun entry => keep entry.1).map fun entry => make entry.2 entry.1 := by
  induction items using reverseRecOn with
  | nil => rfl
  | append_singleton items last ih =>
    have before : ∀ index ∈ range items.length, (items ++ [last])[index]? = items[index]? := by
      intro index inside
      exact getElem?_append_left (mem_range.mp inside)
    have earlier : ((range items.length).filter fun index =>
          ((items ++ [last])[index]?).any keep).filterMap
            (fun index => ((items ++ [last])[index]?).map (make index))
        = (items.zipIdx.filter fun entry => keep entry.1).map
            fun entry => make entry.2 entry.1 := by
      rw [← ih, filter_congr fun index inside => by rw [before index inside]]
      refine filterMap_congr fun index inside => ?_
      rw [before index (mem_filter.mp inside).1]
    rw [length_append, length_singleton, range_succ, filter_append,
      filterMap_append, earlier, zipIdx_append, filter_append, map_append]
    by_cases kept : keep last <;> simp [kept]

variable {reached : List (Nat × F)} {function : F} {specs : F → List ArgSpec} {args : Arguments}
  {inputSchema : Option Schema}

variable (found : reachable name candidates call = .ok reached)

include found

theorem reachable_eq
    : reached = (candidates.zipIdx.filter fun entry => call.reaches entry.1.home).map
        fun entry => (entry.2, entry.1.function) := by
  unfold reachable at found
  split at found
  · cases found
  · obtain ⟨indices, within, found⟩ := bind_eq_ok.mp found
    rw [← pure_eq_ok.mp found, scopedIndices_eq_ok within]
    simp only [length_map, getElem?_map, Option.any_map]
    exact filterMap_range_filter candidates (call.reaches ·.home) fun index found =>
      (index, found.function)

/-- The candidates the call reaches, without their places. -/
theorem reachable_functions : reached.map Prod.snd
      = (candidates.filter (call.reaches ·.home)).map Registered.function := by
  rw [reachable_eq found, map_map]
  conv_rhs => rw [← zipIdx_map_fst 0 candidates, filter_map, map_map]
  rfl

/-- The first candidate is found first, if at all. -/
theorem reachable_first {pick} (is : reached[pick]? = some (0, function)) : pick = 0 := by
  have places : (reached.map Prod.fst).Pairwise (· < ·) := by
    rw [reachable_eq found, map_map]
    have sorted : (candidates.zipIdx.map Prod.snd).Pairwise (· < ·) := by
      rw [zipIdx_map_snd]
      exact pairwise_lt_range'
    exact sorted.sublist ((filter_sublist).map Prod.snd)
  obtain ⟨inside, here⟩ := List.getElem?_eq_some_iff.mp is
  by_contra later
  have first := pairwise_iff_getElem.mp places 0 pick (by simp; omega) (by simpa using inside)
    (Nat.pos_of_ne_zero later)
  simp [here] at first

omit found

theorem resolve_eq_ok {found} (is : resolve specs name candidates args inputSchema call = .ok found)
    : ∃ reached pick, reachable name candidates call = .ok reached
      ∧ resolveOverload ((candidates.filter (call.reaches ·.home)).map (specs ·.function)) args
          inputSchema = some pick
      ∧ reached[pick]? = some found := by
  obtain ⟨reached, reaches, is⟩ := bind_eq_ok.mp is
  obtain ⟨pick, picked, there⟩ := Option.bind_eq_some_iff.mp (okOr_eq_ok.mp is)
  refine ⟨reached, pick, reaches, ?_, there⟩
  have functions : (candidates.filter (call.reaches ·.home)).map (specs ·.function)
      = reached.map (specs ·.2) := by
    have same := congrArg (map specs) (reachable_functions reaches)
    simpa only [map_map, Function.comp_def] using same.symm
  rw [functions, resolveOverload, map_map]
  exact picked

/-- What is resolved is registered under the name, at the place named. -/
theorem resolve_registered {index}
    (is : resolve specs name candidates args inputSchema call = .ok (index, function))
    : (candidates[index]?).map Registered.function = some function := by
  obtain ⟨reached, pick, reaches, -, there⟩ := resolve_eq_ok is
  have member := mem_of_getElem? there
  rw [reachable_eq reaches] at member
  obtain ⟨⟨candidate, place⟩, kept, same⟩ := mem_map.mp member
  cases same
  rw [mk_mem_zipIdx_iff_getElem?.mp (mem_filter.mp kept).1]
  rfl

/-- The function registered first under a name is the one a call resolves to exactly if the
call reaches its home and, of the candidates it reaches, prefers the first.
-/
theorem resolve_first_iff {index}
    (is : resolve specs name candidates args inputSchema call = .ok (index, function))
    : index = 0
      ↔ (candidates.head?).any (call.reaches ·.home)
        ∧ Preferred ((candidates.filter (call.reaches ·.home)).map (specs ·.function)) args
            inputSchema 0 := by
  obtain ⟨reached, pick, reaches, picked, there⟩ := resolve_eq_ok is
  have entries := reachable_eq reaches
  constructor
  · intro first
    subst first
    have none_before := reachable_first reaches there
    subst none_before
    refine ⟨?_, resolveOverload_eq_some_iff.mp picked⟩
    have member := mem_of_getElem? there
    rw [entries] at member
    obtain ⟨⟨candidate, place⟩, kept, same⟩ := mem_map.mp member
    obtain ⟨numbered, within⟩ := mem_filter.mp kept
    cases same
    have head := mk_mem_zipIdx_iff_getElem?.mp numbered
    rw [head?_eq_getElem?, head]
    exact within
  · rintro ⟨within, preferred⟩
    rw [resolveOverload_eq_some_iff.mpr preferred] at picked
    cases picked
    cases candidates with
    | nil => cases within
    | cons candidate rest =>
      have kept : call.reaches candidate.home := within
      rw [entries, zipIdx_cons, filter_cons, if_pos kept] at there
      exact congrArg Prod.fst (Option.some.inj there).symm

end

end Vgi.Dispatch
