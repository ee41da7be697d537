import Mathlib.Logic.Function.Basic
import Vgi.Dispatch.SplitToken

/-! The states of a streaming aggregate as the store keeps them. The decoder takes whatever it
finds there, so it stops at the first length that does not fit.
-/

namespace Vgi.Dispatch.Streaming

open List Option

/-- `HashMap<Vec<u8>, Vec<u8>>`. -/
abbrev StateMap := Bytes → Option Bytes

def StateMap.insert (m : StateMap) (entry : Bytes × Bytes) : StateMap :=
  Function.update m entry.1 (some entry.2)

def writeEntry (entry : Bytes × Bytes) : Bytes :=
  leBytes 8 entry.1.length ++ (entry.1 ++ (leBytes 8 entry.2.length ++ entry.2))

/-- The entries stand in the order in which the map iterates. -/
def serStateMap (entries : List (Bytes × Bytes)) : Bytes :=
  leBytes 8 entries.length ++ entries.flatMap writeEntry

section

variable (b : Bytes) (off : Nat)

/-- The next `n` bytes and the offset behind them, a `usize`. -/
def rd (n : Nat) : Option (Bytes × Nat) :=
  if off + n < 2 ^ 64 ∧ off + n ≤ b.length then some ((b.drop off).take n, off + n) else none

def rdLen : Option (Nat × Nat) :=
  (rd b off 8).map fun (raw, next) => (raw.foldr (fun byte rest => byte.toNat + 256 * rest) 0, next)

def readEntry : Option ((Bytes × Bytes) × Nat) := do
  let (kl, off) ← rdLen b off
  let (k, off) ← rd b off kl
  let (vl, off) ← rdLen b off
  let (v, off) ← rd b off vl
  return ((k, v), off)

/-- The entries that the loop inserts. -/
def readEntries : Nat → Nat → List (Bytes × Bytes)
  | 0, _ => []
  | count + 1, off =>
    match readEntry b off with
    | none => []
    | some (entry, off) => entry :: readEntries count off

def readAll : List (Bytes × Bytes) :=
  match rdLen b 0 with
  | none => []
  | some (count, off) => readEntries b count off

def deStateMap : StateMap := (readAll b).foldl StateMap.insert fun _ => none

end

/-- The entries of a map in some order; their encoding is in memory. -/
structure Listing (m : StateMap) where
  entries : List (Bytes × Bytes)
  distinct : (entries.map Prod.fst).Nodup
  mem_iff : ∀ k v, (k, v) ∈ entries ↔ m k = some v
  fits : (serStateMap entries).length < 2 ^ 63

theorem length_le_serStateMap (entries) : entries.length ≤ (serStateMap entries).length := by
  have written : entries.length ≤ (entries.flatMap writeEntry).length := by
    induction entries with
    | nil => exact Nat.le_refl _
    | cons entry rest ih =>
      simp only [length_cons, flatMap_cons, writeEntry, length_append, leBytes_length]
      omega
  rw [serStateMap, length_append]
  omega

variable {b : Bytes} {off : Nat}

/-- The rest of the bytes behind the offset. -/
structure Stands (b : Bytes) (off : Nat) (rest : Bytes) : Prop where
  fits : b.length < 2 ^ 63
  inside : off ≤ b.length
  rest : b.drop off = rest

theorem Stands.rd {part rest} (stands : Stands b off (part ++ rest))
    : rd b off part.length = some (part, off + part.length)
      ∧ Stands b (off + part.length) rest := by
  obtain ⟨fits, inside, is⟩ := stands
  have lengths := congrArg length is
  simp only [length_drop, length_append] at lengths
  refine ⟨?_, fits, by omega, ?_⟩
  · rw [Streaming.rd, if_pos (by omega), is, take_left]
  · rw [← drop_drop, is, drop_left]

theorem Stands.rdLen {n rest} (stands : Stands b off (leBytes 8 n ++ rest)) (small : n < 2 ^ 63)
    : rdLen b off = some (n, off + 8) ∧ Stands b (off + 8) rest := by
  obtain ⟨read, stands⟩ := stands.rd
  rw [leBytes_length] at read stands
  refine ⟨?_, stands⟩
  simp only [Streaming.rdLen, read, map_some, some.injEq, Prod.mk.injEq, and_true]
  simp [leBytes, range_succ]
  omega

theorem Stands.readEntries {entries : List (Bytes × Bytes)}
    (stands : Stands b off (entries.flatMap writeEntry))
    : readEntries b entries.length off = entries := by
  induction entries generalizing off with
  | nil => rfl
  | cons entry rest ih =>
    have fits := stands.fits
    have lengths := congrArg length stands.rest
    simp only [flatMap_cons, writeEntry, length_drop, length_append, append_assoc] at lengths stands
    obtain ⟨kl, stands⟩ := stands.rdLen (by omega)
    obtain ⟨k, stands⟩ := stands.rd
    obtain ⟨vl, stands⟩ := stands.rdLen (by omega)
    obtain ⟨v, stands⟩ := stands.rd
    simp [Streaming.readEntries, readEntry, kl, k, vl, v, ih stands]

theorem rd_take {size n read} (reads : rd (b.take size) off n = some read)
    : rd b off n = some read := by
  unfold rd at reads ⊢
  split at reads
  next inside =>
    rw [length_take] at inside
    rw [← reads, if_pos (by omega), drop_take, take_take, Nat.min_eq_left (by omega)]
  · cases reads

theorem rdLen_take {size read} (reads : rdLen (b.take size) off = some read)
    : rdLen b off = some read := by
  obtain ⟨raw, taken, rfl⟩ := map_eq_some_iff.mp reads
  exact map_eq_some_iff.mpr ⟨raw, rd_take taken, rfl⟩

theorem readEntry_take {size read} (reads : readEntry (b.take size) off = some read)
    : readEntry b off = some read := by
  simp only [readEntry, bind_eq_bind, bind_eq_some_iff] at reads ⊢
  obtain ⟨kl, first, k, second, vl, third, v, fourth, is⟩ := reads
  exact ⟨kl, rdLen_take first, k, rd_take second, vl, rdLen_take third, v, rd_take fourth, is⟩

theorem readEntries_take (b size count off)
    : readEntries (b.take size) count off <+: readEntries b count off := by
  induction count generalizing off with
  | zero => exact prefix_refl _
  | succ count ih =>
    simp only [readEntries]
    split
    · exact nil_prefix
    next read =>
      rw [readEntry_take read]
      exact cons_prefix_cons.mpr ⟨rfl, ih _⟩

theorem readAll_take (b size) : readAll (b.take size) <+: readAll b := by
  unfold readAll
  split
  · exact nil_prefix
  next read =>
    rw [rdLen_take read]
    exact readEntries_take _ _ _ _

theorem readEntry_inside {entry next} (reads : readEntry b off = some (entry, next))
    : off + 16 ≤ next ∧ next ≤ b.length := by
  simp only [readEntry, rdLen, rd, bind_eq_bind, bind_eq_some_iff, map_eq_some_iff] at reads
  grind

theorem readEntries_length (b count off)
    : 16 * (readEntries b count off).length ≤ b.length - off := by
  induction count generalizing off with
  | zero => simp [readEntries]
  | succ count ih =>
    simp only [readEntries]
    split
    · simp
    next next read =>
      have inside := readEntry_inside read
      have := ih next
      rw [length_cons]
      omega

theorem foldl_insert {entries : List (Bytes × Bytes)} (distinct : (entries.map Prod.fst).Nodup)
    (m k v)
    : entries.foldl StateMap.insert m k = some v
      ↔ (k, v) ∈ entries ∨ k ∉ entries.map Prod.fst ∧ m k = some v := by
  induction entries generalizing m with
  | nil => simp
  | cons entry rest ih =>
    obtain ⟨apart, distinct⟩ := nodup_cons.mp distinct
    rw [foldl_cons, ih distinct, StateMap.insert, Function.update_apply]
    grind

theorem deStateMap_iff (distinct : ((readAll b).map Prod.fst).Nodup) (k v)
    : deStateMap b k = some v ↔ (k, v) ∈ readAll b := by
  simp [deStateMap, foldl_insert distinct]

/-- A map comes back from its encoding in any order, and part of it from a truncation. Of any bytes
the decoder reads those that there are, in at most a sixteenth of as many turns.
-/
theorem state_map_survives (m : StateMap) (listing : Listing m)
    : deStateMap (serStateMap listing.entries) = m
      ∧ (∀ size k v, deStateMap ((serStateMap listing.entries).take size) k = some v → m k = some v)
      ∧ ∀ b : Bytes, (∀ off entry next, readEntry b off = some (entry, next) →
          off + 16 ≤ next ∧ next ≤ b.length)
        ∧ 16 * (readAll b).length ≤ b.length := by
  have whole : readAll (serStateMap listing.entries) = listing.entries := by
    have few := Nat.lt_of_le_of_lt (length_le_serStateMap listing.entries) listing.fits
    obtain ⟨read, stands⟩ := Stands.rdLen ⟨listing.fits, Nat.zero_le _, rfl⟩ few
    rw [readAll, read]
    exact stands.readEntries
  have distinct := listing.distinct
  rw [← whole] at distinct
  refine ⟨?_, fun size k v is => ?_, fun b => ⟨fun _ _ _ => readEntry_inside, ?_⟩⟩
  · funext k
    refine Option.ext fun v => ?_
    rw [deStateMap_iff distinct, whole, listing.mem_iff]
  · have part := readAll_take (serStateMap listing.entries) size
    rw [deStateMap_iff (distinct.sublist (part.sublist.map _))] at is
    exact (listing.mem_iff k v).mp (whole ▸ part.subset is)
  · unfold readAll
    split
    · simp
    · exact Nat.le_trans (readEntries_length b _ _) (Nat.sub_le _ _)

/-- Two states, the later one first. -/
def twoStates
    : Listing (StateMap.insert (StateMap.insert (fun _ => none) ([1], [2])) ([], [3])) where
  entries := [([], [3]), ([1], [2])]
  distinct := by decide
  mem_iff := by
    intro k v
    simp only [StateMap.insert, Function.update_apply]
    grind
  fits := by decide

example : (deStateMap (serStateMap twoStates.entries) [1],
      deStateMap ((serStateMap twoStates.entries).take 20) [1]) = (some [2], none) := by
  decide

end Vgi.Dispatch.Streaming
