import Vgi.Client.ResultCache
import Vgi.Client.Retry

/-! How long a result may be served. Lifetimes come from the worker as full-range integers and are
added to readings of the clock. Where an operation of the source panics, there is no result.
-/

namespace Vgi.Client

open Dispatch

inductive Ineligible where
  | notCacheable
  | noFreshness
  | identityUnresolved
  | entryTooLarge
  | transactionScoped
  | unsupportedScope
deriving DecidableEq

structure CacheFreshness where
  expiresAt : Int
  receivedAt : Nat
  lifetime : Nat

/-- An instant or a system time, whose seconds are an `i64`. -/
def checkedAdd (time : Int) (duration : Nat) : Option Int :=
  if time + duration < 2 ^ 63 * second then some (time + duration) else none

/-- The wall clock as a chrono date. -/
def toUtc (wall : Int) : Option Int :=
  if -8334601228800 * second ≤ wall ∧ wall < 8210266876800 * second then some wall else none

def validated (cc : CacheControl) : Bool :=
  cc.revalidatable && (cc.etag.isSome || cc.lastModified.isSome)

/-- The checks of the control that come before its lifetime. -/
def admitted (control : Option CacheControl) (identityScope : Option String)
    : Except Ineligible CacheControl :=
  match identityScope, control with
  | none, _ => .error .identityUnresolved
  | some _, none => .error .notCacheable
  | some _, some cc =>
    if cc.noStore then .error .notCacheable
    else if cc.scope = "transaction" then .error .transactionScoped
    else if cc.scope ≠ "catalog" then .error .unsupportedScope
    else .ok cc

section

variable (parse : String → Option Int) (defaultTtl : Nat)

/-- The lifetime that the control gives, with the reader of RFC 3339 dates, or the default. -/
def freshnessLifetimeAt (cc : CacheControl) (receivedAt : Int) : Option (Except Ineligible Nat) :=
  let ttl : Option (Except Ineligible Nat) :=
    if cc.ttlSeconds.any (0 < ·) then some (.ok ((cc.ttlSeconds.getD 0).toNat * second))
    else if cc.ttlSeconds = some 0 then some (.ok 0)
    else match cc.expires with
      | some text => match parse text with
        | some expires => (toUtc receivedAt).map fun now => .ok (expires - now).toNat
        | none => some (.error .noFreshness)
      | none => some (if defaultTtl = 0 then .error .noFreshness else .ok defaultTtl)
  ttl.map (·.bind fun ttl => if ttl = 0 ∧ ¬validated cc then .error .noFreshness else .ok ttl)

def eligibility (limits : CacheLimits) (control : Option CacheControl)
    (identityScope : Option String) (bytes : Nat) (now : Int) : Option (Except Ineligible Nat) :=
  match admitted control identityScope with
  | .error e => some (.error e)
  | .ok cc =>
    if bytes > limits.maxEntryBytes then some (.error .entryTooLarge)
    else freshnessLifetimeAt parse defaultTtl cc now

def freshnessAt (control : Option CacheControl) (identityScope : Option String)
    (receivedWall : Int) (receivedMonotonic : Nat) : Option (Except Ineligible CacheFreshness) :=
  match admitted control identityScope with
  | .error e => some (.error e)
  | .ok cc => (freshnessLifetimeAt parse defaultTtl cc receivedWall).map fun lifetime => do
    let lifetime ← lifetime
    match checkedAdd receivedWall lifetime with
    | some expiresAt => .ok ⟨expiresAt, receivedMonotonic, lifetime⟩
    | none => .error .noFreshness

end

namespace CachedEntry

variable {Batch : Type} (entry : CachedEntry Batch) (now : Nat)

def staleAgeAt : Option (Option Nat) :=
  match entry.ttl with
  | none => some none
  | some ttl => (checkedAdd entry.storedAt ttl).map fun stale : Int =>
    if stale ≤ now then some (now - stale : Int).toNat else none

def mayServeWithinAt (window : Nat) : Option Bool := (entry.staleAgeAt now).map (·.any (· ≤ window))

def mayServeWhileRevalidateAt : Option Bool := entry.mayServeWithinAt now entry.staleWhileRevalidate

def mayServeOnErrorAt : Option Bool := entry.mayServeWithinAt now entry.staleIfError

/-- The query answers, and says yes exactly in the window after the lifetime. -/
def Exact (ttl window : Nat) (answer : Option Bool) : Prop :=
  answer = some (decide (entry.storedAt + ttl ≤ now ∧ now ≤ entry.storedAt + ttl + window))

theorem exact_iff {entry : CachedEntry Batch} {now ttl window} (lives : entry.ttl = some ttl)
    : entry.Exact now ttl window (entry.mayServeWithinAt now window)
      ↔ entry.storedAt + ttl < 2 ^ 63 * second := by
  simp only [Exact, mayServeWithinAt, staleAgeAt, lives, checkedAdd]
  split
  next fits =>
    refine iff_of_true ?_ (by omega)
    by_cases stale : entry.storedAt + ttl ≤ now
    · have : (entry.storedAt + ttl : Int) ≤ now := by omega
      simp [this, stale]
      omega
    · have : ¬(entry.storedAt + ttl : Int) ≤ now := by omega
      simp [this, stale]
  next overflows => exact iff_of_false (by simp) (by omega)

end CachedEntry

/-- The lifetime is that of a date, which is compared with the clock. -/
def dated (parse : String → Option Int) (cc : CacheControl) : Prop :=
  ¬cc.ttlSeconds.any (0 < ·) ∧ cc.ttlSeconds ≠ some 0 ∧ (cc.expires.bind parse).isSome

theorem isSome_freshnessLifetimeAt {parse defaultTtl cc wall}
    : (freshnessLifetimeAt parse defaultTtl cc wall).isSome
      ↔ (dated parse cc → (toUtc wall).isSome) := by
  simp only [freshnessLifetimeAt, dated]
  split
  next given => simp [given]
  next absent =>
    split
    next zero => simp [zero]
    next other =>
      cases cc.expires with
      | none => simp
      | some text => cases read : parse text <;> simp [read, absent, other]

/-- Admission answers exactly if the clock is a date where one is compared with it, and the queries
answer as they should exactly if the end of the lifetime is an instant; nothing is served as fresh
after its lifetime.
-/
theorem freshness_exact_iff (parse : String → Option Int) (defaultTtl : Nat)
    : (∀ limits control scope bytes wall now,
        (eligibility parse defaultTtl limits control scope bytes wall).isSome
          ∧ (freshnessAt parse defaultTtl control scope wall now).isSome
        ↔ ∀ cc, admitted control scope = .ok cc → dated parse cc → (toUtc wall).isSome)
      ∧ (∀ {Batch : Type} (entry : CachedEntry Batch) now ttl, entry.ttl = some ttl →
        (entry.Exact now ttl entry.staleWhileRevalidate (entry.mayServeWhileRevalidateAt now)
          ∧ entry.Exact now ttl entry.staleIfError (entry.mayServeOnErrorAt now)
        ↔ entry.storedAt + ttl < 2 ^ 63 * second))
      ∧ ∀ {Query Batch : Type} [DecidableEq Query] (inner after : CacheInner Query Batch) key now
        entry ttl, inner.get key now = some (some entry, after) → entry.ttl = some ttl →
          now - entry.storedAt < ttl := by
  refine ⟨?_, fun entry now ttl lives => ?_, ?_⟩
  · intro limits control scope bytes wall now
    simp only [eligibility, freshnessAt]
    cases admitted control scope with
    | error e => simp
    | ok cc =>
      simp only [Option.isSome_map, isSome_freshnessLifetimeAt, Except.ok.injEq, forall_eq']
      refine and_iff_right_of_imp fun answers => ?_
      split
      · rfl
      · exact isSome_freshnessLifetimeAt.mpr answers
  · exact (and_congr (CachedEntry.exact_iff lives) (CachedEntry.exact_iff lives)).trans and_self_iff
  · intro Query Batch _ inner after key now entry ttl served lives
    simp only [CacheInner.get] at served
    split at served
    · cases served
    next slot found =>
      split at served
      · split at served
        · cases served
        · obtain ⟨_, -, same⟩ := Option.bind_eq_some_iff.mp served
          cases same
      next fresh =>
        cases served
        have lives : slot.entry.ttl = some ttl := lives
        simpa [CachedEntry.isStaleAt, lives] using fresh

/-- The longest lifetime that a worker can send is admitted, and then the queries panic. -/
theorem longest_lifetime_panics : let cc : CacheControl := { ttlSeconds := some (2 ^ 63 - 1) }
      let ttl := (2 ^ 63 - 1) * second
      let entry := CacheInner.newEntry ⟨fun _ : Unit => 0, fun _ => 0⟩ [] 1 ttl (some cc) second
      eligibility (fun _ => none) 0 ⟨0, 0, 0⟩ (some cc) (some "") 0 0 = some (.ok ttl)
        ∧ entry.mayServeOnErrorAt (2 * second) = none := by
  decide

end Vgi.Client
