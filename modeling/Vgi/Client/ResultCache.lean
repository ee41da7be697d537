import Vgi.Dispatch.InOut
import Vgi.Lib.Ledger

/-! The in-memory result cache: a map with two counters kept by hand beside it. An operation that
would take a counter below zero has no result.
-/

namespace Vgi.Client

open Lib Dispatch

/-- What makes one scan's result different from another's. Of the query, the cache only asks
whether two are the same.
-/
structure CacheKey (Query : Type) where
  catalog : String
  identityScope : String
  query : Query
deriving DecidableEq

/-- A stored result. Instants and durations are in nanoseconds. -/
structure CachedEntry (Batch : Type) where
  batches : List Batch
  numSubstreams : Nat
  rows : Nat
  bytes : Nat
  storedAt : Nat
  ttl : Option Nat
  etag : Option String
  lastModified : Option String
  revalidatable : Bool
  staleWhileRevalidate : Nat
  staleIfError : Nat
  hits : Nat
deriving DecidableEq

/-- An earlier instant than that of the store has no age. -/
def CachedEntry.isStaleAt {Batch : Type} (entry : CachedEntry Batch) (now : Nat) : Bool :=
  match entry.ttl with
  | none => false
  | some ttl => now - entry.storedAt ≥ ttl

structure CacheLimits where
  maxEntryBytes : Nat
  maxTotalBytes : Nat
  maxEntries : Nat
deriving DecidableEq

structure CacheStats where
  hits : Nat
  misses : Nat
  inserts : Nat
  evictionsLru : Nat
  evictionsTtl : Nat
  refusals : Nat
  revalidations : Nat
  entries : Nat
  totalBytes : Nat
deriving DecidableEq

structure CacheSlot (Batch : Type) where
  entry : CachedEntry Batch
  lastUsed : Nat
deriving DecidableEq

structure CacheInner (Query Batch : Type) where
  map : Ledger (CacheKey Query) (CacheSlot Batch)
  stats : CacheStats
  tick : Nat

structure BatchSizes (Batch : Type) where
  numRows : Batch → Nat
  approxBytes : Batch → Nat

/-- A grace window in seconds; a negative one is none. -/
def graceWindow (seconds : Option Int) : Nat :=
  match seconds with
  | some value => value.toNat * 1000000000
  | none => 0

def CacheStats.zero : CacheStats := ⟨0, 0, 0, 0, 0, 0, 0, 0, 0⟩

def CacheStats.discharge (stats : CacheStats) (bytes : Nat) : Option CacheStats :=
  if bytes ≤ stats.totalBytes ∧ 1 ≤ stats.entries then
    some { stats with totalBytes := stats.totalBytes - bytes, entries := stats.entries - 1 }
  else none

namespace CacheInner

variable {Query Batch : Type} [DecidableEq Query]

def empty : CacheInner Query Batch := ⟨∅, .zero, 0⟩

/-- Removes the entry of a key, if there is one, from the map and from the books; `count` is what
else is counted.
-/
def drop (inner : CacheInner Query Batch) (key : CacheKey Query) (count : CacheStats → CacheStats)
    : Option (CacheInner Query Batch) :=
  match inner.map.lookup key with
  | some slot => do
    let stats ← inner.stats.discharge slot.entry.bytes
    return { inner with map := inner.map.erase key, stats := count stats }
  | none => some inner

/-- Removes the entries of several keys, one after the other. -/
def dropAll (count : CacheStats → CacheStats)
    : List (CacheKey Query) → CacheInner Query Batch → Option (CacheInner Query Batch)
  | [], inner => some inner
  | key :: rest, inner => do dropAll count rest (← inner.drop key count)

variable (limits : CacheLimits)

def oversized (slot : CacheSlot Batch) : Bool := slot.entry.bytes > limits.maxEntryBytes

variable (inner : CacheInner Query Batch)

def hasOversized : Bool := inner.map.entries.any fun entry => oversized limits entry.2

def overCaps : Bool :=
  inner.hasOversized limits || inner.stats.entries > limits.maxEntries
    || inner.stats.totalBytes > limits.maxTotalBytes

def victim : Option (CacheKey Query) :=
  ((inner.map.entries.filter fun entry =>
    ¬ inner.hasOversized limits ∨ oversized limits entry.2).argmin (·.2.lastUsed)).map (·.1)

def countLru (stats : CacheStats) : CacheStats :=
  { stats with evictionsLru := stats.evictionsLru + 1 }

def countTtl (stats : CacheStats) : CacheStats :=
  { stats with evictionsTtl := stats.evictionsTtl + 1 }

/-- The loop of `enforce_caps`, for at most so many rounds: without a result if it would go on. -/
def enforceCaps (limits : CacheLimits)
    : (rounds : Nat) → CacheInner Query Batch → Option (CacheInner Query Batch)
  | 0, inner => if inner.overCaps limits then none else some inner
  | rounds + 1, inner =>
    if inner.overCaps limits then
      match inner.victim limits with
      | some key => do enforceCaps limits rounds (← inner.drop key countLru)
      | none => some inner
    else some inner

/-- One round for each entry that is there. -/
def withinCaps : Option (CacheInner Query Batch) := inner.enforceCaps limits (Ledger.size inner.map)

/-- The evictions of `enforce_caps`: what each found, and whom it chose. -/
def evictions (limits : CacheLimits) : (rounds : Nat) → CacheInner Query Batch
    → List (CacheInner Query Batch × CacheKey Query)
  | 0, _ => []
  | rounds + 1, inner =>
    if inner.overCaps limits then
      match inner.victim limits with
      | some key => (inner, key) :: match inner.drop key countLru with
          | some next => evictions limits rounds next
          | none => []
      | none => []
    else []

def ticked : CacheInner Query Batch := { inner with tick := inner.tick + 1 }

def missed : CacheInner Query Batch :=
  { inner with stats := { inner.stats with misses := inner.stats.misses + 1 } }

variable (key : CacheKey Query) (entry : CachedEntry Batch)

def hit : CacheInner Query Batch :=
  { inner with
    map := inner.map.insert key ⟨entry, inner.tick⟩
    stats := { inner.stats with hits := inner.stats.hits + 1 } }

/-- Looks up a fresh entry. A stale one is dropped unless it can be revalidated. -/
def get (now : Nat)
    : Option (Option (CachedEntry Batch) × CacheInner Query Batch) := do
  let inner := inner.ticked
  match inner.map.lookup key with
  | none => return (none, inner.missed)
  | some slot =>
    if slot.entry.isStaleAt now then
      if slot.entry.revalidatable then return (none, inner.missed)
      else return (none, (← inner.drop key countTtl).missed)
    else
      let entry := { slot.entry with hits := slot.entry.hits + 1 }
      return (some entry, inner.hit key entry)

def newEntry (sizes : BatchSizes Batch) (batches : List Batch) (numSubstreams ttl : Nat)
    (control : Option CacheControl) (now : Nat) : CachedEntry Batch where
  batches := batches
  numSubstreams := max numSubstreams 1
  rows := (batches.map sizes.numRows).sum
  bytes := (batches.map sizes.approxBytes).sum
  storedAt := now
  -- The source takes zero apart for a control that can be revalidated, to the same effect.
  ttl := some ttl
  etag := control.bind (·.etag)
  lastModified := control.bind (·.lastModified)
  revalidatable := control.any (·.revalidatable)
  staleWhileRevalidate := graceWindow (control.bind (·.staleWhileRevalidate))
  staleIfError := graceWindow (control.bind (·.staleIfError))
  hits := 0

/-- The new entry in the map and in the books, before the caps are looked at. -/
def store : Option (CacheInner Query Batch) := do
  let inner ← inner.ticked.drop key id
  return { inner with
    map := inner.map.insert key ⟨entry, inner.tick⟩
    stats := { inner.stats with
      totalBytes := inner.stats.totalBytes + entry.bytes
      entries := inner.stats.entries + 1
      inserts := inner.stats.inserts + 1 } }

def refused : CacheInner Query Batch :=
  { inner with stats := { inner.stats with refusals := inner.stats.refusals + 1 } }

/-- `insert_with_substreams`, of which `insert` is the case of one substream. -/
def insert (key : CacheKey Query) (entry : CachedEntry Batch)
    : Option (CacheInner Query Batch) :=
  if entry.bytes > limits.maxEntryBytes then
    some inner.refused
  else do withinCaps limits (← inner.store key entry)

/-- What a conditional response changes of an entry. -/
def revalidated (ttl : Nat) (control : Option CacheControl)
    (now : Nat) : CachedEntry Batch :=
  let entry := { entry with storedAt := now, ttl := some ttl }
  match control with
  | none => entry
  | some control =>
    { entry with
      etag := control.etag
      lastModified := control.lastModified
      revalidatable := control.revalidatable && (control.etag.isSome || control.lastModified.isSome)
      staleWhileRevalidate := graceWindow control.staleWhileRevalidate
      staleIfError := graceWindow control.staleIfError }

def slid : CacheInner Query Batch :=
  { inner with
    map := inner.map.insert key ⟨entry, inner.tick⟩
    stats := { inner.stats with revalidations := inner.stats.revalidations + 1 } }

/-- `slide_inner`: without a control it is `slide`, with one `slide_with_control`. -/
def slideInner (ttl : Nat) (control : Option CacheControl) (now : Nat)
    : Bool × CacheInner Query Batch :=
  let inner := inner.ticked
  match inner.map.lookup key with
  | some slot => (true, inner.slid key (revalidated slot.entry ttl control now))
  | none => (false, inner)

/-- The only removal whose subtractions saturate. -/
def removed (slot : CacheSlot Batch) : CacheInner Query Batch :=
  { inner with
    map := inner.map.erase key
    stats := { inner.stats with
      totalBytes := inner.stats.totalBytes - slot.entry.bytes
      entries := inner.stats.entries - 1 } }

def remove : Bool × CacheInner Query Batch :=
  match inner.map.lookup key with
  | none => (false, inner)
  | some slot => (true, inner.removed key slot)

/-- Drops the doomed keys and answers how many they were. -/
def flush (count : CacheStats → CacheStats) (doomed : List (CacheKey Query))
    (inner : CacheInner Query Batch) : Option (Nat × CacheInner Query Batch) := do
  return (doomed.length, ← dropAll count doomed inner)

def flushScope (identityScope : String) : Option (Nat × CacheInner Query Batch) :=
  flush id (inner.map.keys.filter (·.identityScope = identityScope)) inner

def flushCatalog (catalog : String) : Option (Nat × CacheInner Query Batch) :=
  flush id (inner.map.keys.filter (·.catalog = catalog)) inner

def flushAll : Nat × CacheInner Query Batch :=
  (Ledger.size inner.map,
    { inner with map := ∅, stats := { inner.stats with entries := 0, totalBytes := 0 } })

/-- Drops every stale entry that cannot be revalidated. -/
def reap (now : Nat) : Option (Nat × CacheInner Query Batch) :=
  flush countTtl ((inner.map.entries.filter fun entry =>
    entry.2.entry.isStaleAt now && !entry.2.entry.revalidatable).map (·.1)) inner

/-- Enforces new limits and answers by how many entries there are less. -/
def setLimits (limits : CacheLimits) : Option (Nat × CacheInner Query Batch) := do
  let after ← inner.withinCaps limits
  return (inner.stats.entries - after.stats.entries, after)

end CacheInner

/-- A cache with its limits, and the keys it holds from the last used to the first, which the code
does not keep.
-/
structure ResultCache (Query Batch : Type) where
  limits : CacheLimits
  inner : CacheInner Query Batch
  recency : List (CacheKey Query)

/-- A call, with the reading of the clock where it reads it. -/
inductive CacheAction (Query Batch : Type) where
  | get (key : CacheKey Query) (now : Nat)
  | insert (key : CacheKey Query) (batches : List Batch) (numSubstreams ttl : Nat)
      (control : Option CacheControl) (now : Nat)
  | slide (key : CacheKey Query) (ttl : Nat) (control : Option CacheControl) (now : Nat)
  | remove (key : CacheKey Query)
  | flushScope (identityScope : String)
  | flushCatalog (catalog : String)
  | flushAll
  | reap (now : Nat)
  | setLimits (limits : CacheLimits)

namespace ResultCache

variable {Query Batch : Type} [DecidableEq Query] (sizes : BatchSizes Batch)
  (cache : ResultCache Query Batch)

/-- Where a call comes to look at the caps: the limits, and what it finds. -/
def uncapped : CacheAction Query Batch
    → Option (CacheLimits × CacheInner Query Batch)
  | .insert key batches numSubstreams ttl control now => do
    let entry := CacheInner.newEntry sizes batches numSubstreams ttl control now
    if entry.bytes > cache.limits.maxEntryBytes then none
    else return (cache.limits, ← cache.inner.store key entry)
  | .setLimits limits => some (limits, cache.inner)
  | _ => none

/-- What a call leaves, and the limits in force after it. -/
def act : CacheAction Query Batch
    → Option (CacheLimits × CacheInner Query Batch)
  | .get key now => do return (cache.limits, (← cache.inner.get key now).2)
  | .insert key batches numSubstreams ttl control now => do
    return (cache.limits, ← cache.inner.insert cache.limits key
      (CacheInner.newEntry sizes batches numSubstreams ttl control now))
  | .slide key ttl control now =>
    some (cache.limits, (cache.inner.slideInner key ttl control now).2)
  | .remove key => some (cache.limits, (cache.inner.remove key).2)
  | .flushScope identityScope => do
    return (cache.limits, (← cache.inner.flushScope identityScope).2)
  | .flushCatalog catalog => do return (cache.limits, (← cache.inner.flushCatalog catalog).2)
  | .flushAll => some (cache.limits, cache.inner.flushAll.2)
  | .reap now => do return (cache.limits, (← cache.inner.reap now).2)
  | .setLimits limits => do return (limits, (← cache.inner.setLimits limits).2)

/-- The key that a call uses: one that it finds fresh, slides or stores. -/
def used : CacheAction Query Batch → Option (CacheKey Query)
  | .get key now =>
    if (cache.inner.map.lookup key).any fun slot => !slot.entry.isStaleAt now then some key
    else none
  | .slide key _ _ _ => if (cache.inner.map.lookup key).isSome then some key else none
  | .insert key batches _ _ _ _ =>
    if (batches.map sizes.approxBytes).sum > cache.limits.maxEntryBytes then none
    else some key
  | _ => none

/-- The keys in their order of use, with the one that the call uses. -/
def order (action : CacheAction Query Batch) : List (CacheKey Query) :=
  match cache.used sizes action with
  | some key => Ledger.touch key cache.recency
  | none => cache.recency

def next (action : CacheAction Query Batch) : Option (ResultCache Query Batch) := do
  let (limits, inner) ← cache.act sizes action
  return ⟨limits, inner, Ledger.retain inner.map (cache.order sizes action)⟩

def evictions (cache : ResultCache Query Batch) (action : CacheAction Query Batch)
    : List (CacheInner Query Batch × CacheKey Query) :=
  match cache.uncapped sizes action with
  | some (limits, inner) => inner.evictions limits (Ledger.size inner.map)
  | none => []

end ResultCache

/-- One cache, empty to start with. -/
def cacheMachine {Query Batch : Type} [DecidableEq Query] (sizes : BatchSizes Batch)
    : Machine (ResultCache Query Batch) (CacheAction Query Batch) where
  initial cache := ∃ limits, cache = ⟨limits, .empty, []⟩
  next := ResultCache.next sizes

end Vgi.Client
