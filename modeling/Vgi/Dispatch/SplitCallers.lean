import Vgi.Dispatch.Init
import Vgi.Dispatch.SplitExact

/-! Who may redeem a split: the worker mints and opens split tokens without a key and without a
caller, so a token is as good as its layout.
-/

namespace Vgi.Dispatch

open Lib

variable {P : Type} {d : Dispatcher P} {env : Env} {ctx : CallContext} {fresh token : Bytes}
  {tokens : List Bytes} {request : BindRequest} {dto : InitRequest}

/-- A plan that was made, and for whom. -/
structure PlanCall where
  ctx : CallContext
  request : TableFunctionPlanRequest

def Dispatcher.Mints (d : Dispatcher P) (env : Env) (plan : PlanCall) (token : Bytes) : Prop :=
  ∃ response, d.handleTableFunctionPlan env plan.ctx plan.request = .ok response
    ∧ ∃ split ∈ response.splits, split.token = token

/-- The tokens were handed out by the plans, and to nobody but the caller. -/
def Dispatcher.Rightful (d : Dispatcher P) (env : Env) (plans : List PlanCall) (ctx : CallContext)
    (tokens : List Bytes) : Prop :=
  ∀ token ∈ tokens, (∃ plan ∈ plans, d.Mints env plan token)
    ∧ ∀ plan ∈ plans, d.Mints env plan token → plan.ctx.authPrincipal = ctx.authPrincipal

/-- Version 1 without flags, the fingerprint of the bind call and the live anchor, and then
anything.
-/
def PlainEnvelope (crypto : Crypto) (request : BindRequest) (token : Bytes) : Prop :=
  ∃ payload, token = splitHeader 0 (splitBindFingerprint crypto request) splitLiveAnchor ++ payload

/-- The parts of an init that come before its tokens can be read. -/
def Dispatcher.Readable (d : Dispatcher P) (env : Env) (ctx : CallContext) (dto : InitRequest)
    (request : BindRequest) : Prop :=
  ∃ bound schema call, readBoundCall env ctx dto.bindCall = .ok bound ∧ bound.request = request
    ∧ env.ipc.readSchema dto.outputSchema = .ok schema ∧ d.bindScope bound = .ok call

theorem openSplitToken_plainEnvelope_iff {crypto}
    : (∃ payload, openSplitToken crypto token splitSigningKey none
        (some (splitBindFingerprint crypto request)) (some splitLiveAnchor) = .ok payload)
      ↔ PlainEnvelope crypto request token := by
  have wide := bindFingerprint_length crypto (request.schemaPath.getD []) request.functionName
    request.arguments (request.settings.getD []) []
  have short : splitLiveAnchor.length ≤ 65535 := by decide
  constructor
  · rintro ⟨payload, opened⟩
    obtain ⟨fingerprint, anchor, fits, live, built⟩ :=
      (openSplitToken_none_eq_ok_iff none).mp opened
    obtain ⟨header, plain, rfl, rfl, rfl⟩ := buildSplitToken_none_iff.mp built
    refine ⟨payload, ?_⟩
    rw [SplitHeader.bytes, plain, fits _ rfl, live _ rfl]
  · rintro ⟨payload, rfl⟩
    refine ⟨payload, (openSplitToken_none_eq_ok_iff none).mpr
      ⟨_, _, admits_self _, admits_self _, buildSplitToken_none_iff.mpr
        ⟨⟨0, _, _, wide, short⟩, rfl, rfl, rfl, rfl⟩⟩⟩

theorem openSplits_iff {crypto}
    : (∃ payloads, openSplits crypto request (some tokens) = .ok payloads)
      ↔ ∀ token ∈ tokens, PlainEnvelope crypto request token := by
  constructor
  · rintro ⟨payloads, opened⟩ token member
    obtain ⟨found, each, _⟩ := bind_eq_ok.mp opened
    obtain ⟨payload, one⟩ := mapM_ok_of_mem each member
    exact openSplitToken_plainEnvelope_iff.mp ⟨payload, mapError_eq_ok.mp one⟩
  · intro plain
    have each : ∀ token ∈ tokens, ∃ payload, (openSplitToken crypto token splitSigningKey none
        (some (splitBindFingerprint crypto request)) (some splitLiveAnchor)).mapError
          splitTokenError = .ok payload ∧ True := by
      intro token member
      obtain ⟨payload, opened⟩ := openSplitToken_plainEnvelope_iff.mpr (plain token member)
      exact ⟨payload, mapError_eq_ok.mpr opened, trivial⟩
    obtain ⟨payloads, all, _⟩ := exists_mapM each
    exact ⟨some payloads, by simp only [openSplits, all]; rfl⟩

/-- An init gets at its splits if everything before them can be read and all tokens are plain
envelopes.
-/
theorem readInit_iff
    : (∃ init, d.readInit env ctx fresh { dto with splitTokens := some tokens } = .ok init)
      ↔ ∃ request, d.Readable env ctx dto request
        ∧ ∀ token ∈ tokens, PlainEnvelope env.crypto request token := by
  constructor
  · rintro ⟨init, opened⟩
    simp only [Dispatcher.readInit, bind_eq_ok] at opened
    obtain ⟨bound, read, schema, known, call, within, payloads, split, _⟩ := opened
    exact ⟨bound.request, ⟨bound, schema, call, read, rfl, known, within⟩,
      openSplits_iff.mp ⟨payloads, split⟩⟩
  · rintro ⟨_, ⟨bound, schema, call, read, rfl, known, within⟩, plain⟩
    obtain ⟨payloads, split⟩ := openSplits_iff.mpr plain
    exact ⟨_, by simp only [Dispatcher.readInit, read, known, within, split, ok_bind]; rfl⟩

/-- Whatever was planned for whom, an init opens no tokens but the caller's own exactly if it
presents no others, or cannot be read, or presents one that is not a plain envelope for its bind
call and the live anchor.
-/
theorem split_tokens_rightful_iff (P : Type) (d : Dispatcher P) (env : Env) (plans : List PlanCall)
    (ctx : CallContext) (fresh : Bytes) (dto : InitRequest) (tokens : List Bytes)
    : ((∃ init, d.readInit env ctx fresh { dto with splitTokens := some tokens } = .ok init) →
        d.Rightful env plans ctx tokens)
      ↔ (∀ request, d.Readable env ctx dto request →
          ∃ token ∈ tokens, ¬ PlainEnvelope env.crypto request token)
        ∨ d.Rightful env plans ctx tokens := by
  rw [readInit_iff]
  constructor
  · intro safe
    by_contra neither
    obtain ⟨opens, wrong⟩ := not_or.mp neither
    push Not at opens
    exact wrong (safe opens)
  · rintro (refused | rightful) ⟨request, readable, plain⟩
    · obtain ⟨token, member, not⟩ := refused request readable
      exact absurd (plain token member) not
    · exact rightful

namespace SplitSample

def alice : CallContext := ⟨true, "alice"⟩

def bob : CallContext := ⟨true, "bob"⟩

/-- A token that no plan of the function makes: its payload is 99. -/
def forged : Bytes :=
  splitHeader 0 (splitBindFingerprint PlanSample.env.crypto PlanSample.request) splitLiveAnchor
    ++ [99]

end SplitSample

open SplitSample in
/-- Bob redeems the splits that were planned for Alice, and one that nobody planned. -/
theorem split_tokens_cross_callers
    : ((PlanSample.single.handleTableFunctionPlan PlanSample.env alice PlanSample.plan).bind
        fun response => PlanSample.single.readInit PlanSample.env bob [] { PlanSample.init with
          splitTokens := some (response.splits.map (·.token)) }).map (·.splitPayloads)
        = .ok (some [[7], [8]])
      ∧ (PlanSample.single.readInit PlanSample.env bob [] { PlanSample.init with
          splitTokens := some [forged] }).map (·.splitPayloads) = .ok (some [[99]]) := by
  decide +kernel

end Vgi.Dispatch
