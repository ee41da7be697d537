import Vgi.Client.ResultCache

/-! The books of the result cache balance and its caps hold along every run: each call uses at most
one key and then only drops entries, and every drop is booked.
-/

namespace Vgi.Client

open Lib Dispatch Ledger CacheInner Option List Nat

variable {Query Batch : Type} [DecidableEq Query]

namespace CacheInner

variable {inner after last : CacheInner Query Batch} {key : CacheKey Query}
  {count : CacheStats → CacheStats} {limits : CacheLimits}

def bytes (slot : CacheSlot Batch) : Nat := slot.entry.bytes

/-- The counters say what the map holds, and no entry was used after the last tick. -/
structure Balanced (inner : CacheInner Query Batch) : Prop where
  entries : inner.stats.entries = size inner.map
  totalBytes : inner.stats.totalBytes = weight bytes inner.map
  stamped : ∀ key slot, inner.map.lookup key = some slot → slot.lastUsed ≤ inner.tick

structure Within (limits : CacheLimits) (inner : CacheInner Query Batch) : Prop where
  entry : ∀ key slot, inner.map.lookup key = some slot → slot.entry.bytes ≤ limits.maxEntryBytes
  count : size inner.map ≤ limits.maxEntries
  total : weight bytes inner.map ≤ limits.maxTotalBytes

/-- Nothing happened but drops. -/
structure Shrinks (inner after : CacheInner Query Batch) : Prop where
  balanced : after.Balanced
  kept : ∀ key slot, after.map.lookup key = some slot → inner.map.lookup key = some slot
  size : size after.map ≤ size inner.map
  weight : weight bytes after.map ≤ weight bytes inner.map

theorem Balanced.shrinks (balanced : inner.Balanced) : Shrinks inner inner :=
  ⟨balanced, fun _ _ found => found, le_refl _, le_refl _⟩

theorem Shrinks.trans (first : Shrinks inner after) (second : Shrinks after last)
    : Shrinks inner last :=
  ⟨second.balanced, fun key slot found => first.kept key slot (second.kept key slot found),
    second.size.trans first.size, second.weight.trans first.weight⟩

theorem Within.shrinks (within : inner.Within limits) (shrinks : Shrinks inner after)
    : after.Within limits :=
  ⟨fun key slot found => within.entry key slot (shrinks.kept key slot found),
    shrinks.size.trans within.count, shrinks.weight.trans within.total⟩

/-- The entry of a key is gone from the map, and the counters are less by it. -/
theorem Balanced.erase {slot} (balanced : inner.Balanced) (found : inner.map.lookup key = some slot)
    (map : after.map = inner.map.erase key) (tick : after.tick = inner.tick)
    (entries : after.stats.entries = inner.stats.entries - 1)
    (totalBytes : after.stats.totalBytes = inner.stats.totalBytes - slot.entry.bytes)
    : Shrinks inner after := by
  have size := size_erase found
  have weight : weight bytes inner.map
      = slot.entry.bytes + weight bytes (inner.map.erase key) :=
    weight_erase found
  have kept : ∀ other held, after.map.lookup other = some held →
      inner.map.lookup other = some held := fun other held is =>
    (lookup_of_erase (map ▸ is)).2
  constructor
  case kept => exact kept
  case size =>
    rw [map]
    omega
  case weight =>
    rw [map]
    omega
  case balanced =>
    constructor
    case entries =>
      rw [entries, map, balanced.entries]
      omega
    case totalBytes =>
      rw [totalBytes, map, balanced.totalBytes]
      omega
    case stamped =>
      intro other held is
      rw [tick]
      exact balanced.stamped other held (kept other held is)

/-- Counts nothing but other things than the entries and their bytes. -/
def Neutral (count : CacheStats → CacheStats) : Prop :=
  ∀ stats, (count stats).entries = stats.entries ∧ (count stats).totalBytes = stats.totalBytes

theorem neutral_id : Neutral id := fun _ => ⟨rfl, rfl⟩

theorem neutral_countLru : Neutral countLru := fun _ => ⟨rfl, rfl⟩

theorem neutral_countTtl : Neutral countTtl := fun _ => ⟨rfl, rfl⟩

variable (balanced : inner.Balanced)

include balanced

/-- The counters are never less than the entry that a drop takes from them. -/
theorem Balanced.drop (neutral : Neutral count) (key)
    : ∃ after, inner.drop key count = some after ∧ Shrinks inner after
      ∧ after.map = inner.map.erase key ∧ after.tick = inner.tick := by
  cases found : inner.map.lookup key with
  | none =>
    refine ⟨inner, by simp only [CacheInner.drop, found], balanced.shrinks, ?_, rfl⟩
    exact (erase_absent found).symm
  | some slot =>
    have enough : slot.entry.bytes ≤ inner.stats.totalBytes ∧ 1 ≤ inner.stats.entries := by
      rw [balanced.entries, balanced.totalBytes, size_erase found]
      have covered : bytes slot ≤ _ := measure_le_weight found
      exact ⟨covered, le_add_left _ _⟩
    have dropped : inner.drop key count = some { inner with
        map := inner.map.erase key
        stats := count { inner.stats with
          totalBytes := inner.stats.totalBytes - slot.entry.bytes
          entries := inner.stats.entries - 1 } } := by
      simp only [CacheInner.drop, found, CacheStats.discharge, if_pos enough]
      rfl
    exact ⟨_, dropped, balanced.erase found rfl rfl (neutral _).1 (neutral _).2, rfl, rfl⟩

theorem Balanced.dropAll (neutral : Neutral count) (doomed)
    : ∃ after, dropAll count doomed inner = some after ∧ Shrinks inner after := by
  induction doomed generalizing inner with
  | nil => exact ⟨inner, rfl, balanced.shrinks⟩
  | cons key rest ih =>
    obtain ⟨next, dropped, shrinks, _⟩ := balanced.drop neutral key
    obtain ⟨after, is, more⟩ := ih shrinks.balanced
    exact ⟨after, by simp only [dropAll, dropped, bind_eq_bind, bind_some, is], shrinks.trans more⟩

theorem Balanced.flush (neutral : Neutral count) (doomed)
    : ∃ after, flush count doomed inner = some (doomed.length, after) ∧ Shrinks inner after := by
  obtain ⟨after, is, shrinks⟩ := balanced.dropAll neutral doomed
  exact ⟨after, by simp [CacheInner.flush, is], shrinks⟩

omit balanced in
theorem hasOversized_iff : inner.hasOversized limits = true
      ↔ ∃ key slot, inner.map.lookup key = some slot ∧ limits.maxEntryBytes < slot.entry.bytes := by
  simp only [hasOversized, oversized, List.any_eq_true, decide_eq_true_eq, Sigma.exists,
    Ledger.mem_entries_iff]

theorem within_of_not_overCaps (fits : inner.overCaps limits = false) : inner.Within limits := by
  simp only [overCaps, Bool.or_eq_false_iff, decide_eq_false_iff_not, not_lt] at fits
  obtain ⟨⟨noneOver, count⟩, total⟩ := fits
  constructor
  case entry =>
    intro key slot found
    by_contra past
    have := hasOversized_iff.mpr ⟨key, slot, found, Nat.lt_of_not_le past⟩
    rw [noneOver] at this
    cases this
  case count => rwa [← balanced.entries]
  case total => rwa [← balanced.totalBytes]

/-- The loop goes on only while there is an entry. -/
theorem exists_entry_of_overCaps
    (past : inner.overCaps limits = true) : ∃ entry, entry ∈ inner.map.entries := by
  refine exists_mem_of_ne_nil _ fun none => ?_
  have noEntries : inner.stats.entries = 0 := by
    rw [balanced.entries, Ledger.size, none]
    rfl
  have noBytes : inner.stats.totalBytes = 0 := by
    rw [balanced.totalBytes, weight, none]
    rfl
  simp [overCaps, hasOversized, none, noEntries, noBytes] at past

omit balanced in
/-- The victim is held, no candidate was used before it, and if it fits then all entries are
candidates.
-/
theorem victim_spec (chosen : inner.victim limits = some key)
    : ∃ slot, inner.map.lookup key = some slot
      ∧ (slot.entry.bytes ≤ limits.maxEntryBytes →
        ∀ other held, inner.map.lookup other = some held → slot.lastUsed ≤ held.lastUsed) := by
  obtain ⟨entry, least, rfl⟩ := map_eq_some_iff.mp chosen
  obtain ⟨member, candidate⟩ := mem_filter.mp (argmin_mem least)
  refine ⟨entry.2, mem_entries_iff.mp member, fun fits other held found => ?_⟩
  have small : oversized limits entry.2 = false := by
    simpa only [oversized, decide_eq_false_iff_not, not_lt] using fits
  have noneOver : inner.hasOversized limits = false := by
    simpa only [small, Bool.false_eq_true, or_false, decide_eq_true_eq, Bool.not_eq_true]
      using candidate
  refine le_of_mem_argmin (a := ⟨other, held⟩) ?_ least
  refine mem_filter.mpr ⟨mem_entries_iff.mpr found, ?_⟩
  simp only [noneOver, Bool.false_eq_true, not_false_eq_true, true_or, decide_true]

/-- Past the caps there is something to evict, since an empty cache is within them. -/
theorem exists_victim (past : inner.overCaps limits = true)
    : ∃ key, inner.victim limits = some key := by
  have candidates : (inner.map.entries.filter fun entry =>
      ¬ inner.hasOversized limits ∨ oversized limits entry.2) ≠ [] := by
    cases big : inner.hasOversized limits with
    | false =>
      obtain ⟨entry, member⟩ := exists_entry_of_overCaps balanced past
      exact ne_nil_of_mem (mem_filter.mpr ⟨member, by simp⟩)
    | true =>
      obtain ⟨key, slot, found, large⟩ := hasOversized_iff.mp big
      refine ne_nil_of_mem (a := ⟨key, slot⟩) (mem_filter.mpr ⟨mem_entries_iff.mpr found, ?_⟩)
      simpa [oversized] using large
  cases least : (inner.map.entries.filter fun entry =>
      ¬ inner.hasOversized limits ∨ oversized limits entry.2).argmin (·.2.lastUsed) with
  | none => exact absurd (argmin_eq_none.mp least) candidates
  | some entry => exact ⟨entry.1, by rw [victim, least]; rfl⟩

variable {rounds : Nat}

/-- With a round for each entry the loop ends within the caps. -/
theorem Balanced.enforceCaps (enough : size inner.map ≤ rounds)
    : ∃ after, inner.enforceCaps limits rounds = some after ∧ Shrinks inner after
      ∧ after.Within limits := by
  induction rounds generalizing inner with
  | zero =>
    have fits : inner.overCaps limits = false := by
      rw [← Bool.not_eq_true]
      intro past
      obtain ⟨entry, member⟩ := exists_entry_of_overCaps balanced past
      have : 0 < size inner.map := length_pos_of_mem member
      omega
    exact ⟨inner, by simp [enforceCaps, fits], balanced.shrinks,
      within_of_not_overCaps balanced fits⟩
  | succ rounds ih =>
    cases past : inner.overCaps limits with
    | false =>
      exact ⟨inner, by simp [enforceCaps, past], balanced.shrinks,
        within_of_not_overCaps balanced past⟩
    | true =>
      obtain ⟨key, chosen⟩ := exists_victim balanced past
      obtain ⟨slot, found, _⟩ := victim_spec chosen
      obtain ⟨next, dropped, shrinks, map, _⟩ := balanced.drop neutral_countLru key
      have fewer : size next.map ≤ rounds := by
        rw [map]
        have := size_erase found
        omega
      obtain ⟨after, is, more, within⟩ := ih shrinks.balanced fewer
      exact ⟨after, by simp [enforceCaps, past, chosen, dropped, is], shrinks.trans more, within⟩

theorem Balanced.withinCaps (limits)
    : ∃ after, inner.withinCaps limits = some after ∧ Shrinks inner after ∧ after.Within limits :=
  balanced.enforceCaps (le_refl _)

/-- Every eviction is of the victim of what the evictions before it left. -/
theorem Balanced.evictions {found} (member : (found, key) ∈ inner.evictions limits rounds)
    : Shrinks inner found ∧ found.victim limits = some key := by
  induction rounds generalizing inner with
  | zero => cases member
  | succ rounds ih =>
    cases past : inner.overCaps limits with
    | false => simp [evictions, past] at member
    | true =>
      obtain ⟨first, chosen⟩ := exists_victim balanced past
      obtain ⟨next, dropped, shrinks, _⟩ := balanced.drop neutral_countLru first
      simp only [evictions, past, chosen, dropped] at member
      rcases mem_cons.mp member with same | later
      · cases same
        exact ⟨balanced.shrinks, chosen⟩
      · obtain ⟨more, is⟩ := ih shrinks.balanced later
        exact ⟨shrinks.trans more, is⟩

/-- The evictions are all that the loop does to the map. -/
theorem map_of_enforceCaps (is : inner.enforceCaps limits rounds = some after)
    : after.map = (inner.evictions limits rounds).foldl (fun map evicted =>
      map.erase evicted.2) inner.map := by
  induction rounds generalizing inner with
  | zero =>
    cases past : inner.overCaps limits with
    | true => simp [enforceCaps, past] at is
    | false =>
      simp only [enforceCaps, past] at is
      cases is
      rfl
  | succ rounds ih =>
    cases past : inner.overCaps limits with
    | false =>
      simp only [enforceCaps, past] at is
      cases is
      simp [evictions, past]
    | true =>
      obtain ⟨key, chosen⟩ := exists_victim balanced past
      obtain ⟨next, dropped, shrinks, map, _⟩ := balanced.drop neutral_countLru key
      simp only [enforceCaps, past, chosen, dropped] at is
      rw [ih shrinks.balanced is]
      simp only [evictions, past, if_true, chosen, dropped, foldl_cons, map]

end CacheInner

def lastUsed (slot : CacheSlot Batch) : Nat := slot.lastUsed

namespace CacheInner

variable {inner after : CacheInner Query Batch} {key : CacheKey Query}
  {order : List (CacheKey Query)} (balanced : inner.Balanced)

include balanced

variable (totalBytes : after.stats.totalBytes = inner.stats.totalBytes)
  (entries : after.stats.entries = inner.stats.entries)

include entries totalBytes in
/-- Nothing happened but a tick and counts of other things. -/
theorem Balanced.bump (map : after.map = inner.map) (tick : inner.tick ≤ after.tick)
    : after.Balanced := by
  constructor
  case entries => rw [entries, map, balanced.entries]
  case totalBytes => rw [totalBytes, map, balanced.totalBytes]
  case stamped =>
    intro key slot found
    rw [map] at found
    exact (balanced.stamped key slot found).trans tick

theorem Balanced.ticked : inner.ticked.Balanced := balanced.bump rfl rfl rfl (le_succ _)

theorem Balanced.missed : inner.missed.Balanced := balanced.bump rfl rfl rfl (le_refl _)

theorem Balanced.refused : inner.refused.Balanced := balanced.bump rfl rfl rfl (le_refl _)

variable {new : CacheSlot Batch}

include entries totalBytes in
/-- A held entry is used: what it weighs stays. -/
theorem Balanced.refresh {slot} (found : inner.map.lookup key = some slot)
    (same : new.entry.bytes = slot.entry.bytes) (map : after.map = inner.map.insert key new)
    (stamp : new.lastUsed = after.tick) (tick : inner.tick ≤ after.tick)
    : after.Balanced := by
  constructor
  case entries => rw [entries, map, size_insert_same found, balanced.entries]
  case totalBytes =>
    rw [totalBytes, map, weight_insert_same found same, balanced.totalBytes]
  case stamped =>
    intro other held is
    rcases lookup_of_insert (map ▸ is) with ⟨rfl, rfl⟩ | ⟨_, was⟩
    · exact Nat.le_of_eq stamp
    · exact (balanced.stamped other held was).trans tick

/-- The tick of a use is greater than those of all uses before it. -/
theorem Balanced.touch
    (recent : Recent lastUsed inner.map order) (stamp : new.lastUsed = inner.tick + 1)
    : Recent lastUsed (inner.map.insert key new) (touch key order) := by
  refine recent.touch fun other old found => ?_
  have := balanced.stamped other old found
  change old.lastUsed < new.lastUsed
  omega

theorem Balanced.store (key entry)
    : ∃ after, inner.store key entry = some after ∧ after.Balanced
      ∧ after.map = inner.map.insert key ⟨entry, inner.tick + 1⟩ := by
  obtain ⟨next, dropped, shrinks, map, tick⟩ := balanced.ticked.drop neutral_id key
  refine ⟨_, by simp only [CacheInner.store, dropped]; rfl, ?_, ?_⟩
  · constructor
    case entries =>
      rw [map, insert_erase, size_insert, shrinks.balanced.entries, map]
    case totalBytes =>
      rw [map, insert_erase, weight_insert, shrinks.balanced.totalBytes, map]
      exact add_comm _ _
    case stamped =>
      intro other held is
      rcases lookup_of_insert is with ⟨_, rfl⟩ | ⟨_, was⟩
      · exact le_refl _
      · exact shrinks.balanced.stamped other held was
  · rw [map, tick, insert_erase]
    rfl

end CacheInner

namespace ResultCache

variable {sizes : BatchSizes Batch} {cache : ResultCache Query Batch}
  {action : CacheAction Query Batch}

structure Sound (cache : ResultCache Query Batch) : Prop where
  balanced : cache.inner.Balanced
  within : cache.inner.Within cache.limits
  recent : Recent lastUsed cache.inner.map cache.recency

/-- A call uses at most one key, which gives `middle`, and then drops entries. -/
def Serves (sizes : BatchSizes Batch) (cache : ResultCache Query Batch)
    (action : CacheAction Query Batch) : Prop :=
  ∃ middle limits after, cache.act sizes action = some (limits, after)
    ∧ Recent lastUsed middle.map (cache.order sizes action)
    ∧ Shrinks middle after ∧ after.Within limits

variable (sound : cache.Sound)

include sound

/-- A call that uses no key, and loses entries if anything. -/
theorem Sound.serves_drop (inner after)
    (map : inner.map = cache.inner.map) (quiet : cache.used sizes action = none)
    (acts : cache.act sizes action = some (cache.limits, after)) (shrinks : Shrinks inner after)
    : Serves sizes cache action := by
  refine ⟨inner, cache.limits, after, acts, ?_, shrinks, ?_⟩
  · rw [order, quiet, map]
    exact sound.recent
  · have within : inner.Within cache.limits := by
      obtain ⟨entry, count, total⟩ := sound.within
      constructor <;> rw [map] <;> assumption
    exact within.shrinks shrinks

/-- A call that uses a key that is held. -/
theorem Sound.serves_use {key slot entry} (after)
    (found : cache.inner.map.lookup key = some slot) (uses : cache.used sizes action = some key)
    (acts : cache.act sizes action = some (cache.limits, after))
    (map : after.map = cache.inner.map.insert key ⟨entry, cache.inner.tick + 1⟩)
    (same : entry.bytes = slot.entry.bytes) (tick : after.tick = cache.inner.tick + 1)
    (entries : after.stats.entries = cache.inner.stats.entries)
    (totalBytes : after.stats.totalBytes = cache.inner.stats.totalBytes)
    : Serves sizes cache action := by
  have balanced : after.Balanced :=
    sound.balanced.refresh totalBytes entries found same map tick.symm (by omega)
  refine ⟨after, cache.limits, after, acts, ?_, balanced.shrinks, ?_⟩
  · rw [order, uses, map]
    exact sound.balanced.touch sound.recent rfl
  · constructor
    case entry =>
      intro other held is
      rcases lookup_of_insert (map ▸ is) with ⟨rfl, rfl⟩ | ⟨_, was⟩
      · exact same ▸ sound.within.entry _ _ found
      · exact sound.within.entry other held was
    case count =>
      rw [map, size_insert_same found]
      exact sound.within.count
    case total =>
      rw [map, weight_insert_same found same]
      exact sound.within.total

variable {inner : CacheInner Query Batch} {limits : CacheLimits}
  (is : cache.uncapped sizes action = some (limits, inner))

include is

/-- What a call finds that looks at the caps. -/
theorem Sound.uncapped
    : inner.Balanced ∧ Recent lastUsed inner.map (cache.order sizes action)
      ∧ cache.act sizes action = do return (limits, ← inner.withinCaps limits) := by
  cases action with
  | insert key batches numSubstreams ttl control now =>
    simp only [uncapped] at is
    split at is
    · cases is
    next fits =>
      obtain ⟨stored, stores, balanced, map⟩ := sound.balanced.store key
        (newEntry sizes batches numSubstreams ttl control now)
      rw [stores] at is
      cases is
      refine ⟨balanced, ?_, ?_⟩
      · have uses : cache.used sizes (.insert key batches numSubstreams ttl control now)
            = some key := if_neg fits
        rw [order, uses, map]
        exact sound.balanced.touch sound.recent rfl
      · simp only [act, CacheInner.insert, if_neg fits, stores, bind_eq_bind, bind_some]
  | setLimits limits =>
    cases is
    refine ⟨sound.balanced, sound.recent, ?_⟩
    simp only [act, setLimits, bind_eq_bind, bind_assoc]
    rfl
  | _ => cases is

theorem Sound.serves_capped : Serves sizes cache action := by
  obtain ⟨balanced, recent, acts⟩ := sound.uncapped is
  obtain ⟨after, capped, shrinks, within⟩ := balanced.withinCaps limits
  refine ⟨inner, limits, after, ?_, recent, shrinks, within⟩
  rw [acts, capped]
  rfl

omit is

theorem Sound.serves_get (key now) : Serves sizes cache (.get key now) := by
  cases found : cache.inner.map.lookup key with
  | none =>
    have is : cache.inner.get key now = some (none, cache.inner.ticked.missed) := by
      simp [CacheInner.get, ticked, found]
    refine sound.serves_drop cache.inner.ticked.missed cache.inner.ticked.missed rfl ?_
      (by rw [act, is]; rfl) sound.balanced.ticked.missed.shrinks
    simp [used, found]
  | some slot =>
    cases stale : slot.entry.isStaleAt now with
    | false =>
      let entry := { slot.entry with hits := slot.entry.hits + 1 }
      have is : cache.inner.get key now = some (some entry, cache.inner.ticked.hit key entry) := by
        simp [CacheInner.get, ticked, found, stale, entry]
      refine sound.serves_use (cache.inner.ticked.hit key entry) found ?_
        (by rw [act, is]; rfl) rfl rfl rfl rfl rfl
      simp [used, found, stale]
    | true =>
      have quiet : cache.used sizes (.get key now) = none := by simp [used, found, stale]
      cases again : slot.entry.revalidatable with
      | true =>
        have is : cache.inner.get key now = some (none, cache.inner.ticked.missed) := by
          simp [CacheInner.get, ticked, found, stale, again]
        exact sound.serves_drop cache.inner.ticked.missed cache.inner.ticked.missed rfl quiet
          (by rw [act, is]; rfl) sound.balanced.ticked.missed.shrinks
      | false =>
        obtain ⟨next, dropped, shrinks, _⟩ := sound.balanced.ticked.drop neutral_countTtl key
        have is : cache.inner.get key now = some (none, next.missed) := by
          simp only [ticked] at dropped
          simp [CacheInner.get, ticked, found, stale, again, dropped]
        exact sound.serves_drop cache.inner.ticked next.missed rfl quiet (by rw [act, is]; rfl)
          ⟨shrinks.balanced.missed, shrinks.kept, shrinks.size, shrinks.weight⟩

theorem Sound.serves_slide (key ttl control now)
    : Serves sizes cache (.slide key ttl control now) := by
  cases found : cache.inner.map.lookup key with
  | none =>
    refine sound.serves_drop cache.inner.ticked cache.inner.ticked rfl ?_
      (by simp only [act, slideInner, ticked, found]) sound.balanced.ticked.shrinks
    simp [used, found]
  | some slot =>
    refine sound.serves_use
      (cache.inner.ticked.slid key (revalidated slot.entry ttl control now)) found ?_
      (by simp only [act, slideInner, ticked, found]) rfl ?_ rfl rfl rfl
    · simp [used, found]
    · cases control <;> rfl

theorem Sound.serves_remove (key) : Serves sizes cache (.remove key) := by
  cases found : cache.inner.map.lookup key with
  | none =>
    exact sound.serves_drop cache.inner cache.inner rfl rfl
      (by simp only [act, remove, found]) sound.balanced.shrinks
  | some slot =>
    exact sound.serves_drop cache.inner (cache.inner.removed key slot) rfl rfl
      (by simp only [act, remove, found])
      (sound.balanced.erase found rfl rfl rfl rfl)

theorem Sound.serves_flush {count doomed}
    (neutral : Neutral count) (quiet : cache.used sizes action = none)
    (acts : cache.act sizes action = do return (cache.limits, (← flush count doomed cache.inner).2))
    : Serves sizes cache action := by
  obtain ⟨after, is, shrinks⟩ := sound.balanced.flush neutral doomed
  exact sound.serves_drop cache.inner after rfl quiet (by rw [acts, is]; rfl) shrinks

theorem Sound.serves_flushAll : Serves sizes cache .flushAll := by
  refine sound.serves_drop cache.inner cache.inner.flushAll.2 rfl rfl rfl
    ⟨⟨rfl, rfl, ?_⟩, ?_, zero_le _, zero_le _⟩
  · intro key slot found
    cases found
  · intro key slot found
    cases found

/-- Every call has a result. -/
theorem Sound.serves (sizes action) : Serves sizes cache action := by
  cases action with
  | get key now => exact sound.serves_get key now
  | insert key batches numSubstreams ttl control now =>
    by_cases large : (newEntry sizes batches numSubstreams ttl control now).bytes
        > cache.limits.maxEntryBytes
    · refine sound.serves_drop cache.inner.refused cache.inner.refused rfl (if_pos large) ?_
        sound.balanced.refused.shrinks
      simp only [act, CacheInner.insert, if_pos large]
      rfl
    · obtain ⟨stored, stores, _⟩ := sound.balanced.store key
        (newEntry sizes batches numSubstreams ttl control now)
      exact sound.serves_capped (by simp only [ResultCache.uncapped, if_neg large, stores]; rfl)
  | slide key ttl control now => exact sound.serves_slide key ttl control now
  | remove key => exact sound.serves_remove key
  | flushScope identityScope | flushCatalog catalog => exact sound.serves_flush neutral_id rfl rfl
  | flushAll => exact sound.serves_flushAll
  | reap now => exact sound.serves_flush neutral_countTtl rfl rfl
  | setLimits limits => exact sound.serves_capped rfl

theorem Sound.next (sizes action)
    : ∃ after, cache.next sizes action = some after ∧ after.Sound := by
  obtain ⟨middle, limits, after, acts, recent, shrinks, within⟩ := sound.serves sizes action
  refine ⟨_, by simp only [ResultCache.next, acts]; rfl, shrinks.balanced, within, ?_⟩
  exact recent.retain shrinks.kept

/-- An eviction takes an entry that is held and, if it fits, the one used least recently of all
that are held then.
-/
def EvictsLeastRecent (limits : CacheLimits) (order : List (CacheKey Query))
    (found : CacheInner Query Batch) (key : CacheKey Query) : Prop :=
  ∃ slot, found.map.lookup key = some slot
    ∧ (slot.entry.bytes ≤ limits.maxEntryBytes → (retain found.map order).getLast? = some key)

/-- What a call that looks at the caps does to the map: evictions, each of which is right. -/
structure Capped (sizes : BatchSizes Batch) (cache : ResultCache Query Batch)
    (action : CacheAction Query Batch) (limits : CacheLimits)
    (inner : CacheInner Query Batch) (after : ResultCache Query Batch) : Prop where
  inForce : after.limits = limits
  map : after.inner.map = (cache.evictions sizes action).foldl
    (fun map evicted => map.erase evicted.2) inner.map
  evicted : ∀ found key, (found, key) ∈ cache.evictions sizes action →
    EvictsLeastRecent limits (cache.order sizes action) found key

include is

theorem Sound.capped {after} (moves : cache.next sizes action = some after)
    : Capped sizes cache action limits inner after := by
  obtain ⟨balanced, recent, acts⟩ := sound.uncapped is
  obtain ⟨last, capped, _⟩ := balanced.withinCaps limits
  have ends : after = ⟨limits, last, retain last.map (cache.order sizes action)⟩ := by
    simp only [ResultCache.next, acts, capped] at moves
    exact (some.inj moves).symm
  subst ends
  constructor
  case inForce => rfl
  case map =>
    simp only [evictions, is]
    exact map_of_enforceCaps balanced capped
  case evicted =>
    intro found key evicted
    simp only [evictions, is] at evicted
    obtain ⟨shrinks, chosen⟩ := balanced.evictions evicted
    obtain ⟨slot, held, least⟩ := victim_spec chosen
    exact ⟨slot, held, fun fits => (recent.retain shrinks.kept).getLast?_eq held (least fits)⟩

end ResultCache

open ResultCache in
/-- The books balance in every state of every run, by induction on the calls. -/
theorem sound_of_reaches {sizes : BatchSizes Batch} {cache : ResultCache Query Batch}
    (reached : (cacheMachine sizes).Reaches (fun _ _ => True) cache) : cache.Sound := by
  refine reached.invariant Sound ?_ ?_
  · rintro _ ⟨limits, rfl⟩
    refine ⟨⟨rfl, rfl, ?_⟩, ⟨?_, Nat.zero_le _, Nat.zero_le _⟩, ⟨.nil, ?_, .nil⟩⟩
    · intro key slot found
      cases found
    · intro key slot found
      cases found
    · intro key
      change key ∈ [] ↔ ((∅ : Ledger (CacheKey Query) (CacheSlot Batch)).lookup key).isSome = true
      simp
  · intro cache after action sound _ moves
    obtain ⟨next, is, sound⟩ := sound.next sizes action
    cases is.symm.trans moves
    exact sound

/-- In every state of every run the books balance and the caps hold, every call has a result, and
the calls that look at the caps evict nothing but the least recently used of the entries that fit.
-/
theorem result_cache_within_caps (Query Batch : Type) [DecidableEq Query]
    (sizes : BatchSizes Batch) (cache : ResultCache Query Batch)
    (reached : (cacheMachine sizes).Reaches (fun _ _ => True) cache)
    : cache.inner.Balanced ∧ cache.inner.Within cache.limits
      ∧ ∀ action, ∃ after, cache.next sizes action = some after
        ∧ ∀ limits inner, cache.uncapped sizes action = some (limits, inner) →
          cache.Capped sizes action limits inner after := by
  have sound := sound_of_reaches reached
  refine ⟨sound.balanced, sound.within, fun action => ?_⟩
  obtain ⟨after, moves, _⟩ := sound.next sizes action
  exact ⟨after, moves, fun limits inner is => sound.capped is moves⟩

namespace CacheSample

def sizes : BatchSizes Nat := ⟨id, id⟩

def fresh : ResultCache Nat Nat := ⟨⟨10, 20, 5⟩, .empty, []⟩

def key (query : Nat) : CacheKey Nat := ⟨"c", "anon", query⟩

/-- Three entries of 9, 4 and 3 bytes; the second is used again. -/
def actions : List (CacheAction Nat Nat) :=
  [.insert (key 0) [9] 1 60 none 0, .insert (key 1) [4] 1 60 none 0,
    .insert (key 2) [1, 2] 1 60 none 0, .get (key 1) 1]

/-- The first entry is too large now, and of the others there is room for one. -/
def shrink : CacheAction Nat Nat := .setLimits ⟨5, 20, 1⟩

def last : ResultCache Nat Nat := ((cacheMachine sizes).exec fresh actions).getD fresh

end CacheSample

open CacheSample in
/-- Lower limits evict the entry that has become too large and the one that was not used again. -/
theorem result_cache_within_caps_sample : last.inner.Balanced ∧ last.inner.Within last.limits
      ∧ (last.evictions sizes shrink).map (·.2) = [key 0, key 2]
      ∧ ∃ after, last.next sizes shrink = some after
        ∧ last.Capped sizes shrink ⟨5, 20, 1⟩ last.inner after := by
  have runs : ((cacheMachine sizes).exec fresh actions).isSome = true := by decide +kernel
  have ends : (cacheMachine sizes).exec fresh actions = some last := by
    obtain ⟨state, is⟩ := isSome_iff_exists.mp runs
    rfl
  have start : (cacheMachine sizes).initial fresh := ⟨_, rfl⟩
  have reached : (cacheMachine sizes).Reaches (fun _ _ => True) last :=
    (Machine.Reaches.start start).exec (Machine.meets_true _ _) ends
  obtain ⟨balanced, within, calls⟩ := result_cache_within_caps Nat Nat sizes last reached
  obtain ⟨after, moves, capped⟩ := calls shrink
  exact ⟨balanced, within, by decide +kernel, after, moves, capped _ _ rfl⟩

end Vgi.Client
