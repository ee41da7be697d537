/-! Lists of which an item is looked up by its key. -/

namespace Vgi.Lib

open List

variable {α κ : Type} [DecidableEq κ] (keyOf : α → κ) (items : List α)

/-- Looking for a key among the items whose keys are kept. -/
theorem find?_filter_key (keep : κ → Bool) (key)
    : (items.filter fun item => keep (keyOf item)).find? (keyOf · = key)
      = if keep key then items.find? (keyOf · = key) else none := by
  rw [find?_filter]
  split
  next kept =>
    congr 1
    funext item
    by_cases is : keyOf item = key <;> simp [is, kept]
  next dropped =>
    refine find?_eq_none.mpr fun item _ => ?_
    by_cases is : keyOf item = key <;> simp [is, dropped]

theorem find?_filter_ne (removed key)
    : (items.filter (keyOf · ≠ removed)).find? (keyOf · = key)
      = if key = removed then none else items.find? (keyOf · = key) := by
  rw [find?_filter_key keyOf items (· ≠ removed)]
  by_cases same : key = removed <;> simp [same]

theorem find?_replace (item key)
    : (item :: items.filter (keyOf · ≠ keyOf item)).find? (keyOf · = key)
      = if key = keyOf item then some item else items.find? (keyOf · = key) := by
  by_cases same : key = keyOf item
  · simp [same]
  · rw [find?_cons_of_neg (by simpa using Ne.symm same), find?_filter_ne]
    simp [same]

end Vgi.Lib
