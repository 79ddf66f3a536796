/-!
# Association lists

Lists of keys and values, read by `List.lookup`, which takes the first pair of a key. `Assoc.put`
gives a key a value: it changes the first pair of that key, or adds a pair at the end.

## Main statements

* `Assoc.lookup_put`: a lookup after an update.
-/

namespace GraphQuery.Assoc

variable {α β : Type} [DecidableEq α]

theorem lookup_cons_if (k a : α) (b : β) (rest : List (α × β)) :
    ((a, b) :: rest).lookup k = if k = a then some b else rest.lookup k := by
  rw [List.lookup_cons]
  by_cases h : k = a
  · rw [if_pos h, beq_iff_eq.mpr h]
  · rw [if_neg h, beq_eq_false_iff_ne.mpr h]

/-- The list in which `key` has the value `value`. -/
def put (key : α) (value : β) : List (α × β) → List (α × β)
  | [] => [(key, value)]
  | (k, v) :: rest => if key = k then (k, value) :: rest else (k, v) :: put key value rest

/-- **A lookup after an update** finds the new value at its key and the old ones elsewhere. -/
theorem lookup_put (key : α) (value : β) (k : α) (entries : List (α × β)) :
    (put key value entries).lookup k = if k = key then some value else entries.lookup k := by
  induction entries with
  | nil => rw [put, lookup_cons_if]
  | cons entry rest ih =>
    obtain ⟨a, b⟩ := entry
    rw [put]
    split
    case isTrue h =>
      subst h
      rw [lookup_cons_if, lookup_cons_if]
      by_cases hk : k = key
      · rw [if_pos hk, if_pos hk]
      · rw [if_neg hk, if_neg hk, if_neg hk]
    case isFalse h =>
      rw [lookup_cons_if, lookup_cons_if, ih]
      by_cases hk : k = key
      · rw [if_pos hk, if_pos hk, if_neg (hk ▸ h)]
      · rw [if_neg hk, if_neg hk]

end GraphQuery.Assoc
