/-!
# Ordered sets

A finite set that remembers the order in which its elements came in: a list without duplicates. The
invariant is part of the type, so every set is duplicate-free by construction.

* `OrderedSet.insert` puts a new element last and leaves an old one where it is;
* `OrderedSet.union` is the elements of the first set, then the new ones of the second;
* `OrderedSet.same` compares contents and ignores the order.

## Main statements

* `OrderedSet.toList_insert`, `OrderedSet.toList_union`: the operations on the list of elements.
* `OrderedSet.mem_insertAll`: what is in a set after several insertions.
-/

namespace GraphQuery

/-- A finite set in the order of insertion. -/
structure OrderedSet (α : Type) where
  /-- The elements, in the order in which they were inserted. -/
  toList : List α
  /-- No element stands twice. -/
  nodup : toList.Nodup

namespace OrderedSet

variable {α : Type}

@[ext] theorem ext {s t : OrderedSet α} (h : s.toList = t.toList) : s = t := by
  cases s
  cases t
  cases h
  rfl

/-- The set without elements. -/
def empty : OrderedSet α := ⟨[], List.nodup_nil⟩

instance : Inhabited (OrderedSet α) := ⟨empty⟩

/-- The set with one element. -/
def singleton (a : α) : OrderedSet α := ⟨[a], by simp⟩

/-- The number of elements. -/
def size (s : OrderedSet α) : Nat := s.toList.length

/-- Whether there is no element. -/
def isEmpty (s : OrderedSet α) : Bool := s.toList.isEmpty

/-- The element that was inserted first. -/
def first? (s : OrderedSet α) : Option α := s.toList.head?

/-- The elements that pass a test. -/
def filter (p : α → Bool) (s : OrderedSet α) : OrderedSet α :=
  ⟨s.toList.filter p, s.nodup.filter p⟩

variable [DecidableEq α]

/-- Whether a value is an element. -/
def contains (s : OrderedSet α) (a : α) : Bool := decide (a ∈ s.toList)

/-- The set with one more element, which comes last if it is new. -/
def insert (s : OrderedSet α) (a : α) : OrderedSet α :=
  if h : a ∈ s.toList then s
  else ⟨s.toList ++ [a], by
    rw [List.nodup_append]
    refine ⟨s.nodup, by simp, ?_⟩
    intro x hx y hy hxy
    rw [List.mem_singleton] at hy
    exact h (hy ▸ hxy ▸ hx)⟩

/-- The set with more elements, inserted one after the other. -/
def insertAll (s : OrderedSet α) (as : List α) : OrderedSet α :=
  as.foldl insert s

/-- For each of several elements, inserted one after the other, whether it is new. -/
def insertions (s : OrderedSet α) : List α → List Bool
  | [] => []
  | a :: as => (!s.contains a) :: (s.insert a).insertions as

/-- The set of the members of a list, in the order of their first occurrence. -/
def ofList (as : List α) : OrderedSet α :=
  empty.insertAll as

/-- The elements of both sets, those of `s` first. -/
def union (s t : OrderedSet α) : OrderedSet α :=
  s.insertAll t.toList

/-- Whether two sets have the same elements. -/
def same (s t : OrderedSet α) : Bool :=
  s.size = t.size && s.toList.all t.contains

/-! ### The list of elements under the operations -/

theorem toList_insert (s : OrderedSet α) (a : α) :
    (s.insert a).toList = if a ∈ s.toList then s.toList else s.toList ++ [a] := by
  unfold insert
  split <;> rfl

@[simp] theorem mem_insert (s : OrderedSet α) (a b : α) :
    b ∈ (s.insert a).toList ↔ b ∈ s.toList ∨ b = a := by
  rw [toList_insert]
  split
  · constructor
    · exact Or.inl
    · rintro (h | rfl)
      · exact h
      · assumption
  · rw [List.mem_append, List.mem_singleton]

@[simp] theorem mem_insertAll (as : List α) (s : OrderedSet α) (b : α) :
    b ∈ (s.insertAll as).toList ↔ b ∈ s.toList ∨ b ∈ as := by
  induction as generalizing s with
  | nil => simp [insertAll]
  | cons a as ih =>
    change b ∈ ((s.insert a).insertAll as).toList ↔ _
    rw [ih, mem_insert, List.mem_cons, or_assoc]

/-- Inserting the elements of a list without duplicates adds those that are new, in order. -/
theorem toList_insertAll {as : List α} (h : as.Nodup) (s : OrderedSet α) :
    (s.insertAll as).toList = s.toList ++ as.filter (fun a => a ∉ s.toList) := by
  induction as generalizing s with
  | nil => simp [insertAll]
  | cons a as ih =>
    obtain ⟨ha, has⟩ := List.nodup_cons.mp h
    change ((s.insert a).insertAll as).toList = _
    rw [ih has, toList_insert]
    by_cases hs : a ∈ s.toList
    · simp [hs]
    · -- The new element goes last, and no later one equals it.
      have hfilter : as.filter (fun x => x ∉ s.toList ++ [a]) = as.filter (fun x => x ∉ s.toList) := by
        apply List.filter_congr
        intro x hx
        have hxa : x ≠ a := fun e => ha (e ▸ hx)
        simp [hxa]
      rw [if_neg hs, hfilter, List.filter_cons_of_pos (by simpa using hs), List.append_assoc]
      rfl

theorem toList_union (s t : OrderedSet α) :
    (s.union t).toList = s.toList ++ t.toList.filter (fun a => a ∉ s.toList) :=
  toList_insertAll t.nodup s

@[simp] theorem contains_iff (s : OrderedSet α) (a : α) : s.contains a = true ↔ a ∈ s.toList := by
  simp [contains]

end OrderedSet

end GraphQuery
