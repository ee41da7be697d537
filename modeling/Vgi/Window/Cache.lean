import Vgi.Lib.Keyed
import Vgi.Storage.Backend

/-! The cache of decoded window partitions. The store stays authoritative on a miss; a global
generation keeps a fill that was overtaken by an invalidation out of the cache.
-/

namespace Vgi.Window

open List Option Nat Lib

structure Key where
  exec : Bytes
  partition : Int
deriving DecidableEq

structure CachedWindowPartition (Batch Schema : Type) where
  partition : Batch
  outputSchema : Schema
  mask : Option (List Bool)
deriving DecidableEq

/-- An entry with the bytes it is charged. `owner` is the identity of the allocation: the call
that made it.
-/
structure Slot (α : Type) where
  content : α
  owner : Nat
  bytes : Nat
deriving DecidableEq

structure Inner (α : Type) where
  entries : List (Key × Slot α)
  order : List Key
  bytes : Nat
  generation : Nat
deriving DecidableEq

def Inner.empty {α : Type} : Inner α where
  entries := []
  order := []
  bytes := 0
  generation := 0

structure Limits (α : Type) where
  maxEntries : Nat
  maxBytes : Nat
  accountedBytes : α → Nat

section

variable {α : Type} (inner : Inner α)

variable (key : Key)

def Inner.get : Option (Slot α) := (inner.entries.find? fun entry => entry.1 = key).map Prod.snd

/-- The generation is a `u64` and wraps. -/
def Inner.bump : Inner α := { inner with generation := (inner.generation + 1) % 2 ^ 64 }

def Inner.dropEntry : Inner α :=
  match inner.get key with
  | some slot =>
    { inner with
      entries := inner.entries.filter (·.1 ≠ key)
      bytes := inner.bytes - slot.bytes }
  | none => inner

def Inner.removeKey : Inner α := { inner.dropEntry key with order := inner.order.filter (· ≠ key) }

/-- The hit moves to the end of the order. -/
def Inner.lookup : Option (Slot α) × Inner α :=
  match inner.get key with
  | some slot => (some slot, { inner with order := inner.order.filter (· ≠ key) ++ [key] })
  | none => (none, inner)

/-- Evicts the oldest entries until there is room for `bytes` more. -/
def Inner.evict (limits : Limits α) (bytes : Nat) : List Key → Inner α → Inner α
  | [], inner => { inner with order := [] }
  | oldest :: order, inner =>
    if inner.entries.length ≥ limits.maxEntries ∨ bytes > limits.maxBytes - inner.bytes then
      evict limits bytes order (inner.dropEntry oldest)
    else { inner with order := oldest :: order }

/-- Keeps a fill only if nothing was invalidated since its generation was read. -/
def Inner.insertIfCurrent (limits : Limits α) (inner : Inner α) (key : Key) (owner : Nat)
    (content : α) (generation : Nat) : Inner α :=
  let bytes := limits.accountedBytes content + key.exec.length
  if generation ≠ inner.generation ∨ limits.maxEntries = 0 ∨ bytes > limits.maxBytes then
    inner
  else
    let inner := inner.removeKey key
    let inner := inner.evict limits bytes inner.order
    { inner with
      entries := inner.entries.filter (·.1 ≠ key) ++ [(key, ⟨content, owner, bytes⟩)]
      order := inner.order ++ [key]
      bytes := inner.bytes + bytes }

/-- Invalidates one key, and answers with the new generation. -/
def Inner.remove : Nat × Inner α :=
  let inner := inner.bump.removeKey key
  (inner.generation, inner)

def Inner.clearExecution (exec : Bytes) : Inner α :=
  let keys := (inner.entries.map Prod.fst).filter (·.exec = exec)
  keys.foldl removeKey inner.bump

/-- What a prune looks at: every key with the identity of its entry. -/
def Inner.snapshot : List (Key × Nat) := inner.entries.map fun (key, slot) => (key, slot.owner)

/-- The entry is still the one that the prune found dead. -/
def Inner.isStill (owner : Nat) : Bool := (inner.get key).map Slot.owner = some owner

/-- Whatever is found in `after` was there before. -/
def Shrinks (before after : Inner α) : Prop :=
  ∀ key slot, after.get key = some slot → before.get key = some slot

theorem get_dropEntry (removed key)
    : (inner.dropEntry removed).get key = if key = removed then none else inner.get key := by
  unfold Inner.dropEntry
  cases found : inner.get removed with
  | some slot =>
    simp only [Inner.get, find?_filter_ne]
    split <;> simp
  | none =>
    simp only
    split
    next same => rw [same, found]
    · rfl

@[simp] theorem get_removeKey (removed key)
    : (inner.removeKey removed).get key = if key = removed then none else inner.get key :=
  get_dropEntry inner removed key

@[simp] theorem get_bump : inner.bump.get key = inner.get key :=
  rfl

theorem shrinks_dropEntry (removed) : Shrinks inner (inner.dropEntry removed) := by
  intro key slot found
  rw [get_dropEntry] at found
  split at found
  · cases found
  · exact found

@[simp] theorem generation_dropEntry : (inner.dropEntry key).generation = inner.generation := by
  unfold Inner.dropEntry
  split <;> rfl

@[simp] theorem generation_removeKey
    : (inner.removeKey key).generation = inner.generation :=
  generation_dropEntry inner key

@[simp] theorem get_lookup (looked key) : (inner.lookup looked).2.get key = inner.get key := by
  unfold Inner.lookup
  split <;> rfl

@[simp] theorem generation_lookup : (inner.lookup key).2.generation = inner.generation := by
  unfold Inner.lookup
  split <;> rfl

@[simp] theorem lookup_fst : (inner.lookup key).1 = inner.get key := by
  unfold Inner.lookup
  split
  next found => exact found.symm
  next missing => exact missing.symm

theorem evict_spec (limits : Limits α) (bytes order inner)
    : Shrinks inner (inner.evict limits bytes order)
      ∧ (inner.evict limits bytes order).generation = inner.generation := by
  induction order generalizing inner with
  | nil => exact ⟨fun _ _ found => found, rfl⟩
  | cons oldest order ih =>
    unfold Inner.evict
    split
    · obtain ⟨shrinks, generation⟩ := ih (inner.dropEntry oldest)
      refine ⟨fun key slot found => ?_, by rw [generation, generation_dropEntry]⟩
      exact shrinks_dropEntry inner oldest key slot (shrinks key slot found)
    · exact ⟨fun _ _ found => found, rfl⟩

/-- A fill puts its own content under its key, if anything, and does so only under the
generation it was read with.
-/
theorem get_insertIfCurrent {limits} {inner : Inner α} {filled owner content generation key slot}
    (found : (inner.insertIfCurrent limits filled owner content generation).get key = some slot)
    : inner.get key = some slot
      ∨ (key = filled ∧ slot.content = content ∧ generation = inner.generation) := by
  simp only [Inner.insertIfCurrent] at found
  split at found
  · exact .inl found
  next current =>
    simp only [not_or, Decidable.not_not] at current
    obtain ⟨shrinks, -⟩ := evict_spec limits (limits.accountedBytes content + filled.exec.length)
      (inner.removeKey filled).order (inner.removeKey filled)
    by_cases same : key = filled
    · subst same
      simp only [Inner.get, find?_append, find?_filter_ne, if_true, none_or,
        find?_singleton, decide_true, map_some, some.injEq] at found
      exact .inr ⟨rfl, by rw [← found], current.1⟩
    · simp only [Inner.get, find?_append, find?_filter_ne, same, if_false, find?_singleton,
        Ne.symm same, decide_false, Bool.false_eq_true, or_none] at found
      have earlier := shrinks key slot found
      rw [get_removeKey, if_neg same] at earlier
      exact .inl earlier

@[simp] theorem generation_insertIfCurrent (limits) (inner : Inner α) (key owner content generation)
    : (inner.insertIfCurrent limits key owner content generation).generation
      = inner.generation := by
  simp only [Inner.insertIfCurrent]
  split
  · rfl
  · exact (evict_spec ..).2.trans (generation_removeKey inner key)

theorem removeKeys_spec (keys : List Key) (inner : Inner α)
    : Shrinks inner (keys.foldl Inner.removeKey inner)
      ∧ (keys.foldl Inner.removeKey inner).generation = inner.generation := by
  induction keys generalizing inner with
  | nil => exact ⟨fun _ _ found => found, rfl⟩
  | cons key keys ih =>
    obtain ⟨shrinks, generation⟩ := ih (inner.removeKey key)
    refine ⟨fun other slot found => ?_, by rw [foldl_cons, generation]; simp⟩
    exact shrinks_dropEntry inner key other slot (shrinks other slot found)

end

end Vgi.Window
