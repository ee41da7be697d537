import Mathlib.Data.List.AList
import Mathlib.Data.List.MinMax
import Mathlib.Algebra.BigOperators.Group.List.Basic
import Mathlib.Algebra.GroupWithZero.Nat

/-! Finite maps whose entries have a weight and a stamp of their last use: what erasing and
inserting do to the weight of the whole, and the keys in the order of their last use.
-/

namespace Vgi.Lib

open AList List Option

variable {K V : Type} [DecidableEq K]

abbrev Ledger (K V : Type) := AList fun _ : K => V

namespace Ledger

variable {ledger after : Ledger K V} {key other : K} {value : V}

theorem mem_entries_iff {entry}
    : entry ∈ ledger.entries ↔ ledger.lookup entry.1 = some entry.2 :=
  mem_lookup_iff.symm

/-- The entry of a key, and those that are left without it. -/
theorem perm_erase (found : ledger.lookup key = some value)
    : ledger.entries.Perm (⟨key, value⟩ :: (ledger.erase key).entries) := by
  have here : key ∈ ledger.keys := by
    rw [← AList.mem_keys, ← AList.lookup_isSome, found]
    rfl
  obtain ⟨held, before, rest, _, is, erased⟩ := exists_of_kerase here
  have same : held = value := by
    have := mem_entries_iff.mp (is ▸ mem_append_right before mem_cons_self
      : (⟨key, held⟩ : Sigma fun _ : K => V) ∈ ledger.entries)
    exact some.inj (this.symm.trans found)
  rw [show (ledger.erase key).entries = before ++ rest from erased, is, same]
  exact perm_middle

theorem erase_absent (absent : ledger.lookup key = none) : ledger.erase key = ledger := by
  have missing : key ∉ ledger.keys := fun here => lookup_eq_none.mp absent (mem_keys.mpr here)
  exact ext (kerase_of_notMem_keys missing)

/-- What is left after an erasure was there before. -/
theorem lookup_of_erase (found : (ledger.erase key).lookup other = some value)
    : other ≠ key ∧ ledger.lookup other = some value := by
  by_cases same : other = key
  · subst same
    rw [lookup_erase] at found
    cases found
  · rw [lookup_erase_ne same] at found
    exact ⟨same, found⟩

theorem lookup_of_insert {new} (found : (ledger.insert key new).lookup other = some value)
    : (other = key ∧ value = new) ∨ (other ≠ key ∧ ledger.lookup other = some value) := by
  by_cases same : other = key
  · subst same
    rw [lookup_insert] at found
    exact .inl ⟨rfl, (some.inj found).symm⟩
  · rw [lookup_insert_ne same] at found
    exact .inr ⟨same, found⟩

theorem insert_erase (ledger : Ledger K V) (key value)
    : (ledger.erase key).insert key value = ledger.insert key value := by
  refine ext ?_
  rw [entries_insert, entries_insert]
  congr 1
  exact kerase_of_notMem_keys (notMem_keys_kerase key ledger.nodupKeys)

def size (ledger : Ledger K V) : Nat := ledger.entries.length

def weight (measure : V → Nat) (ledger : Ledger K V) : Nat :=
  (ledger.entries.map fun entry => measure entry.2).sum

variable {measure : V → Nat} (found : ledger.lookup key = some value)

include found

theorem size_erase : size ledger = size (ledger.erase key) + 1 := by
  unfold size
  rw [(perm_erase found).length_eq, length_cons]

theorem weight_erase
    : weight measure ledger = measure value + weight measure (ledger.erase key) := by
  unfold weight
  rw [((perm_erase found).map _).sum_eq, map_cons, sum_cons]

omit found in
theorem size_insert (ledger : Ledger K V) (key : K) (value : V)
    : size (ledger.insert key value) = size (ledger.erase key) + 1 := by
  rfl

omit found in
theorem weight_insert (ledger : Ledger K V) (key : K) (value : V)
    : weight measure (ledger.insert key value)
      = measure value + weight measure (ledger.erase key) := by
  rfl

/-- A new value of the same measure leaves the weight as it was. -/
theorem weight_insert_same {new} (same : measure new = measure value)
    : weight measure (ledger.insert key new) = weight measure ledger := by
  rw [weight_insert, weight_erase found, same]

theorem size_insert_same {new} : size (ledger.insert key new) = size ledger := by
  rw [size_insert, size_erase found]

theorem measure_le_weight : measure value ≤ weight measure ledger := by
  rw [weight_erase found]
  exact Nat.le_add_right _ _

omit found

/-- The key is used: it goes to the front. -/
def touch (key : K) (order : List K) : List K := key :: order.filter (· ≠ key)

/-- The keys that are still there. -/
def retain (ledger : Ledger K V) (order : List K) : List K :=
  order.filter fun key => (ledger.lookup key).isSome

/-- The keys from the last used to the first, as the stamps of their values tell it. -/
structure Recent (stamp : V → Nat) (ledger : Ledger K V) (order : List K) : Prop where
  distinct : order.Nodup
  held : ∀ key, key ∈ order ↔ (ledger.lookup key).isSome = true
  sorted : order.Pairwise fun newer older => ∀ new old, ledger.lookup newer = some new →
    ledger.lookup older = some old → stamp old < stamp new

variable {stamp : V → Nat} {order : List K} (recent : Recent stamp ledger order)

include recent

/-- Stamping a key with a greater stamp than all others makes it the last used one. -/
theorem Recent.touch
    (greatest : ∀ other old, ledger.lookup other = some old → stamp old < stamp value)
    : Recent stamp (ledger.insert key value) (Ledger.touch key order) := by
  constructor
  case distinct =>
    refine nodup_cons.mpr ⟨?_, recent.distinct.filter _⟩
    simp
  case held =>
    intro other
    unfold Ledger.touch
    by_cases same : other = key
    · subst same
      simp
    · rw [lookup_insert_ne same, ← recent.held other]
      simp [same]
  case sorted =>
    refine pairwise_cons.mpr ⟨?_, ?_⟩
    · intro older member new old newIs oldIs
      have other : older ≠ key := by simpa using (mem_filter.mp member).2
      rw [lookup_insert] at newIs
      rw [lookup_insert_ne other] at oldIs
      cases newIs
      exact greatest older old oldIs
    · refine (recent.sorted.filter _).imp_of_mem ?_
      intro newer older newerIn olderIn earlier new old newIs oldIs
      have newerNe : newer ≠ key := by simpa using (mem_filter.mp newerIn).2
      have olderNe : older ≠ key := by simpa using (mem_filter.mp olderIn).2
      rw [lookup_insert_ne newerNe] at newIs
      rw [lookup_insert_ne olderNe] at oldIs
      exact earlier new old newIs oldIs

/-- Losing entries leaves the order of the others. -/
theorem Recent.retain
    (kept : ∀ key value, after.lookup key = some value → ledger.lookup key = some value)
    : Recent stamp after (Ledger.retain after order) := by
  constructor
  case distinct => exact recent.distinct.filter _
  case held =>
    intro key
    unfold Ledger.retain
    rw [mem_filter, recent.held]
    refine ⟨And.right, fun here => ⟨?_, here⟩⟩
    obtain ⟨value, is⟩ := isSome_iff_exists.mp here
    rw [kept key value is]
    rfl
  case sorted =>
    refine (recent.sorted.filter _).imp ?_
    intro newer older earlier new old newIs oldIs
    exact earlier new old (kept newer new newIs) (kept older old oldIs)

/-- The key with the least stamp is the last of the order. -/
theorem Recent.getLast?_eq (found : ledger.lookup key = some value)
    (least : ∀ other old, ledger.lookup other = some old → stamp value ≤ stamp old)
    : order.getLast? = some key := by
  have member : key ∈ order := by
    rw [recent.held, found]
    rfl
  obtain ⟨before, last, rfl⟩ := eq_nil_or_concat order |>.resolve_left (ne_nil_of_mem member)
  rw [concat_eq_append, getLast?_concat]
  rw [concat_eq_append] at member recent
  rcases mem_append.mp member with earlier | here
  · -- Everything before the last key has a greater stamp than the last one.
    have lastHeld := (recent.held last).mp (by simp)
    obtain ⟨old, is⟩ := isSome_iff_exists.mp lastHeld
    have less := (pairwise_append.mp recent.sorted).2.2 key earlier last
      (mem_singleton.mpr rfl) value old found is
    exact absurd (least last old is) (by omega)
  · rw [mem_singleton.mp here]

end Ledger

end Vgi.Lib
