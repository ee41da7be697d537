import Vgi.Client.Retry
import Vgi.Stored.Sessions

/-! Catalog DDL through the retrying transport. A reply that is lost after the worker applied
the request reads as a failure, so a method that is sent again may be applied again.
-/

namespace Vgi.Client

open Storage Stored

/-- What becomes of one request: the worker's answer arrives, the worker applies the request
and the answer is lost, or the request does not get to the worker.
-/
inductive Outcome where
  | answered
  | lost (failure : RpcError)
  | refused (failure : RpcError)

section

variable {σ α : Type}

def deliver (worker : StateM σ (Result α)) : Outcome → StateM σ (Result α)
  | .answered => worker
  | .lost failure => do
    let _ ← worker
    return .error failure
  | .refused failure => return .error failure

/-- The call behaved as the one attempt `outcome`: it was sent at most once, the session is
the one after that attempt, and the answer is that of the attempt. A failure may be reported
as the last one before giving up.
-/
structure SingleApplication (shown : RpcError → String) (method : String)
    (worker : StateM σ (Result α)) (outcome : Outcome) (before : σ)
    (call : (Result α × Nat) × σ) : Prop where
  sends : call.1.2 ≤ 1
  session : call.2 = ((deliver worker outcome).run before).2
  answer : call.1.1 = ((deliver worker outcome).run before).1
    ∨ ∃ err elapsed reason, ((deliver worker outcome).run before).1 = .error err
      ∧ call.1.1 = .error (gaveUp method 1 elapsed reason (shown err))

variable {policy : RetryPolicy} {shown : RpcError → String} {method : String}
  {worker : StateM σ (Result α)} {outcomes : Nat → Outcome} {draws : Nat → Draw}

/-- A loop that never decides to retry after the first attempt is that attempt. -/
theorem run_single (before)
    (never : ∀ status elapsed retryAfter jitter delay,
      policy.decide status 1 elapsed retryAfter jitter ≠ .retry delay)
    : SingleApplication shown method worker (outcomes 1) before
        ((policy.run method shown draws fun n => deliver worker (outcomes n)).run before) := by
  obtain ⟨left, cap⟩ : ∃ left, max 1 policy.maxAttempts = left + 1 :=
    ⟨max 1 policy.maxAttempts - 1, by omega⟩
  rw [RetryPolicy.run, cap, runFrom_succ]
  generalize first : (deliver worker (outcomes (0 + 1))).run before = result
  obtain ⟨answer, after⟩ := result
  cases answer with
  | ok v => exact ⟨Nat.le_refl _, by rw [first], .inl (by rw [first])⟩
  | error err =>
    simp only
    cases decision : policy.decide (classifyError err).1 (0 + 1) (draws (0 + 1)).elapsed
        (classifyError err).2 (draws (0 + 1)).jitter with
    | retry delay => exact absurd decision (never _ _ _ _ delay)
    | stop reason =>
      cases reason with
      | notRetryable => exact ⟨Nat.le_refl _, by rw [first], .inl (by rw [first])⟩
      | attemptsExhausted | deadlineExceeded =>
        exact ⟨Nat.le_refl _, by rw [first], .inr ⟨err, _, _, by rw [first], rfl⟩⟩

def gatewayLost : RpcError where
  kind := .transportError
  message := "HTTP 503"

theorem classifyError_gatewayLost : classifyError gatewayLost = (.transient, none) := by
  decide +kernel

/-- A retryable method is sent again after a lost reply, if the caps leave room for that. -/
theorem run_resends (before) (attempts : 1 < policy.maxAttempts)
    (budget : 0 < policy.maxElapsed)
    : 2 ≤ ((policy.run method shown (fun _ => ⟨0, 0⟩) fun _ =>
        deliver worker (.lost gatewayLost)).run before).1.2 := by
  obtain ⟨left, cap⟩ : ∃ left, max 1 policy.maxAttempts = left + 2 :=
    ⟨max 1 policy.maxAttempts - 2, by omega⟩
  have lost : ((deliver worker (.lost gatewayLost)).run before).1 = .error gatewayLost := rfl
  have retries : policy.decide .transient (0 + 1) 0 none 0 = .retry 0 := by
    have now : ¬saturatingAdd 0 0 ≥ policy.maxElapsed := by
      simp only [saturatingAdd]
      omega
    have within : ¬0 + 1 ≥ policy.maxAttempts := by omega
    simp [RetryPolicy.decide, RetryPolicy.delay, StatusClass.isRetryable, within]
    simpa [saturatingAdd] using now
  rw [RetryPolicy.run, cap, runFrom_succ]
  generalize first : (deliver worker (.lost gatewayLost)).run before = result at lost
  obtain ⟨answer, after⟩ := result
  subst lost
  simp only [classifyError_gatewayLost, retries]
  refine Nat.le_trans ?_ (runFrom_sends (left + 1) (0 + 1) after)
  omega

end

section

variable {Batch TableInfo Contents : Type} (sur : Surroundings Batch TableInfo Contents)

include sur

/-- A replay reads the log and leaves the store alone. -/
theorem load_reads (now catalog session tables)
    : ((load sur (SqliteStorage now) catalog session).run.run tables).2 = tables := by
  rfl

theorem readState_reads (now catalog session tables answer)
    : ((readState sur (SqliteStorage now) catalog session answer).run.run tables).2 = tables := by
  simp only [readState, ExceptT.run_bind, StateT.run_bind]
  generalize loaded : (load sur (SqliteStorage now) catalog session).run.run tables = result
  have kept := load_reads sur now catalog session tables
  rw [loaded] at kept
  obtain ⟨state, after⟩ := result
  subst kept
  cases state with
  | error e => rfl
  | ok state =>
    change ((do return some (← liftM (answer state))
      : Effect Sqlite.Tables (Option (Reply TableInfo Contents))).run.run after).2 = after
    generalize answer state = reply
    cases reply <;> rfl

/-- Some request with this method changes what the store holds. -/
def ChangesSession (method : String) : Prop :=
  ∃ (Batch TableInfo Contents : Type) (sur : Surroundings Batch TableInfo Contents)
    (catalog : StoredCatalog) (session : Bytes) (batch : Batch) (now : Int)
    (tables : Sqlite.Tables),
    ((handle sur (SqliteStorage now) catalog session ⟨method, batch⟩).run.run tables).2 ≠ tables

omit sur

/-- The methods that the allowlist names in full leave every session as it is. -/
theorem notMem_of_changesSession {method} (changes : ChangesSession method)
    : method ∉ ["bind", "table_function_plan", "catalog_catalogs", "catalog_version",
      "catalog_contents"] := by
  obtain ⟨Batch, TableInfo, Contents, sur, catalog, session, batch, now, tables, changed⟩ := changes
  intro member
  simp only [List.mem_cons, List.not_mem_nil, or_false] at member
  rcases member with rfl | rfl | rfl | rfl | rfl
  · exact changed rfl
  · exact changed rfl
  · exact changed rfl
  · exact changed (readState_reads ..)
  · refine changed ?_
    change ((do
      let tag ← liftM (sur.ifNoneMatch batch)
      readState sur (SqliteStorage now) catalog session fun state =>
        return .contents (← sur.contents state tag)
      : Effect Sqlite.Tables (Option (Reply TableInfo Contents))).run.run tables).2 = tables
    generalize sur.ifNoneMatch batch = tag
    cases tag with
    | error e => rfl
    | ok tag => exact readState_reads sur now catalog session tables _

/-- The protocol's methods that create, drop, rename or alter schemas, tables, columns, views
and comments.
-/
def ddlMethods : List String :=
  ["catalog_schema_create", "catalog_schema_drop", "catalog_schema_alter_options",
    "catalog_schema_alter_metadata", "catalog_table_create", "catalog_table_drop",
    "catalog_table_rename", "catalog_table_comment_set", "catalog_table_not_null_set",
    "catalog_table_not_null_drop", "catalog_table_constraints_apply",
    "catalog_table_alter_options", "catalog_table_alter_layout", "catalog_table_column_add",
    "catalog_table_column_drop", "catalog_table_column_rename",
    "catalog_table_column_type_change", "catalog_table_column_default_set",
    "catalog_table_column_default_drop", "catalog_table_column_comment_set",
    "catalog_view_create", "catalog_view_drop", "catalog_view_rename",
    "catalog_view_comment_set", "catalog_view_column_comment_set"]

/-- The name falls under one of the two families the allowlist names by how they start. -/
def schemaOrTableMethod (method : String) : Prop :=
  "catalog_schema".toList.isPrefixOf method.toList
  ∨ "catalog_table_".toList.isPrefixOf method.toList

theorem methodIsRetryable_iff {method} (changes : ChangesSession method ∨ method ∈ ddlMethods)
    : methodIsRetryable method = true ↔ schemaOrTableMethod method := by
  have unnamed : method ∉ ["bind", "table_function_plan", "catalog_catalogs",
      "catalog_version", "catalog_contents"] := by
    rcases changes with changes | member
    · exact notMem_of_changesSession changes
    · intro named
      have apart : ∀ name ∈ ddlMethods, name ∉ ["bind", "table_function_plan",
        "catalog_catalogs", "catalog_version", "catalog_contents"] := by decide
      exact apart method member named
  simp only [methodIsRetryable, decide_eq_true_eq]
  constructor
  · intro retryable
    rcases retryable with named | family
    · exact absurd named unnamed
    · exact family
  · exact .inr

/-- A method that changes a session is applied as if it was sent once, whatever becomes of
its requests, exactly if it is not one of the schema and table methods or the policy never
retries.
-/
theorem ddl_single_application_iff {σ : Type} (sur : Surroundings Batch TableInfo Contents)
    (store : FunctionStorage σ) (catalog : StoredCatalog) (session : Bytes) (batch : Batch)
    (before : σ) (shown : RpcError → String) (policy : RetryPolicy) {method : String}
    (changes : ChangesSession method ∨ method ∈ ddlMethods)
    : (∀ (outcomes : Nat → Outcome) (draws : Nat → Draw),
        SingleApplication shown method (handle sur store catalog session ⟨method, batch⟩).run
          (outcomes 1) before
          ((callUnary policy shown method draws fun n =>
            deliver (handle sur store catalog session ⟨method, batch⟩).run
              (outcomes n)).run before))
      ↔ ¬schemaOrTableMethod method ∨ policy.maxAttempts ≤ 1 ∨ policy.maxElapsed = 0 := by
  constructor
  · intro single
    by_contra fails
    simp only [not_or, not_not] at fails
    obtain ⟨family, attempts, budget⟩ := fails
    have retryable := (methodIsRetryable_iff changes).mpr family
    have sends := (single (fun _ => .lost gatewayLost) (fun _ => ⟨0, 0⟩)).sends
    simp only [callUnary, retryable] at sends
    exact absurd (Nat.le_trans (run_resends before (by omega) (by omega)) sends) (by decide)
  · intro holds outcomes draws
    by_cases retryable : methodIsRetryable method = true
    · have family := (methodIsRetryable_iff changes).mp retryable
      simp only [callUnary, retryable]
      apply run_single
      intro status elapsed retryAfter jitter delay retries
      obtain ⟨-, attempts, budget⟩ := decide_retry retries
      rcases holds with other | few | none
      · exact other family
      · omega
      · omega
    · simp only [callUnary, retryable]
      exact ⟨Nat.le_refl 1, rfl, .inl rfl⟩

end

namespace RetrySample

open SessionSample

def create (onConflict : String) : SchemaCreateParams := ⟨["s"], onConflict, none, none, none⟩

def event (onConflict : OnConflict) : Event := .schemaCreate ["s"] none [] onConflict

/-- The requests hold the parameters as they are, and the log holds the JSON of the three
events that occur.
-/
def surroundings : Surroundings SchemaCreateParams Unit Unit :=
  { logging [(event .error, json ["s"]), (event .replace, json ["s"] "Replace")] with
    path := fun params => .ok params.path
    schemaCreate := .ok
    drop := fun params => .ok ⟨params.path, "v", true⟩ }

def catalog : StoredCatalog := scratch true

def session : Bytes := [7]

def attached : Sqlite.Tables :=
  ((append surroundings (SqliteStorage 0) catalog session .attached).run.run .empty).2

def version (tables : Sqlite.Tables) : Result Int :=
  ((load surroundings (SqliteStorage 0) catalog session).run.run tables).1.map State.version

def worker (method onConflict : String)
    : StateM Sqlite.Tables (Result (Option (Reply Unit Unit))) :=
  (handle surroundings (SqliteStorage 0) catalog session ⟨method, create onConflict⟩).run

/-- The reply of the first attempt is lost, the second attempt is answered. -/
def outcomes : Nat → Outcome
  | 1 => .lost gatewayLost
  | _ => .answered

def call (method onConflict : String)
    : (Result (Option (Reply Unit Unit)) × Nat) × Sqlite.Tables :=
  (callUnary .default RpcError.message method (fun _ => ⟨0, 0⟩) fun n =>
    deliver (worker method onConflict) (outcomes n)).run attached

end RetrySample

open RetrySample

/-- The schema is created by the first request, whose reply is lost. Sent again, the call
fails because its own schema is in the way, or replaces it and bumps the version once more.
-/
theorem ddl_applied_twice : ((call "catalog_schema_create" "error").1
          = (.error (valueError "Schema with name 's' already exists"), 2)
        ∧ ((worker "catalog_schema_create" "error").run attached).1 = .ok none)
      ∧ (call "catalog_schema_create" "replace").1 = (.ok none, 2)
      ∧ version (call "catalog_schema_create" "replace").2 = .ok 3
      ∧ version ((worker "catalog_schema_create" "replace").run attached).2 = .ok 2 := by
  decide +kernel

/-- A view is dropped once under the default policy, with its failure reported. -/
theorem ddl_single_application_sample
    : SingleApplication RpcError.message "catalog_view_drop" (worker "catalog_view_drop" "")
        (.lost gatewayLost) attached (call "catalog_view_drop" "") := by
  have listed : "catalog_view_drop" ∈ ddlMethods := by decide
  have other : ¬schemaOrTableMethod "catalog_view_drop" := by
    unfold schemaOrTableMethod
    decide
  have single := (ddl_single_application_iff surroundings (SqliteStorage 0) catalog session
    (create "") attached RpcError.message .default (.inr listed)).mpr (.inl other)
  exact single outcomes fun _ => ⟨0, 0⟩

end Vgi.Client
