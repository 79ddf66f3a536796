import Mathlib.Data.Finset.Card
import GraphQuery.Proofs.Value.Equality
import GraphQuery.Value.Collection
import GraphQuery.Value.Selector

/-!
# The union of sets

Scripts add sets of nodes to each other, and sets of edges. The sum lists the elements of the first
set and then the new ones of the second, each once and in the order in which they came in.

Everything about this order follows from one fact: a list may be **collected** before it is inserted
(`OrderedSet.insertAll_ofList`). Dropping the later copies of an element from a list changes nothing,
as they would not be inserted anyway. A union is what is collected from the two lists
(`OrderedSet.union_eq_ofList`), so unions of unions are collected from several lists, however they
are bracketed.

## Main statements

* `OrderedSet.insertAll_ofList`, `OrderedSet.union_assoc`: which copy of an element stays.
* `OrderedSet.size_union`: common elements are counted once.
* `union_laws`: the laws of adding sets of nodes, and sets of edges.
-/

namespace GraphQuery

namespace OrderedSet

variable {α : Type} [DecidableEq α]

/-! ### Collecting -/

/-- Elements may be inserted in two parts. -/
theorem insertAll_append (s : OrderedSet α) (as bs : List α) :
    s.insertAll (as ++ bs) = (s.insertAll as).insertAll bs :=
  List.foldl_append ..

/-- An element that is there already is not inserted. -/
theorem insert_of_mem {s : OrderedSet α} {a : α} (h : a ∈ s.toList) : s.insert a = s := by
  rw [insert, dif_pos h]

/-- A set is collected from its own elements. -/
theorem ofList_toList (s : OrderedSet α) : ofList s.toList = s := by
  apply ext
  rw [ofList, toList_insertAll s.nodup]
  exact List.filter_eq_self.mpr fun a _ => decide_eq_true List.not_mem_nil

/-- **A list may be collected first:** its repetitions are not inserted anyway. -/
theorem insertAll_ofList (s : OrderedSet α) (as : List α) :
    s.insertAll (ofList as).toList = s.insertAll as := by
  induction as using List.reverseRecOn with
  | nil => rfl
  | append_singleton as a ih =>
    have hcollect : ofList (as ++ [a]) = (ofList as).insert a := insertAll_append empty as [a]
    have hinsert : s.insertAll (as ++ [a]) = (s.insertAll as).insert a := insertAll_append s as [a]
    rw [hcollect, hinsert, toList_insert]
    split
    case isTrue ha =>
      -- the new one is a repetition for both
      have hmem : a ∈ (s.insertAll as).toList := by
        rw [← ih, mem_insertAll]
        exact Or.inr ha
      rw [ih, insert_of_mem hmem]
    case isFalse => rw [insertAll_append, ih]; rfl

/-! ### Unions -/

/-- A collected list and a set are collected together. -/
theorem ofList_union (as : List α) (t : OrderedSet α) :
    (ofList as).union t = ofList (as ++ t.toList) :=
  (insertAll_append empty as t.toList).symm

/-- **A union** is collected from the elements of both sets. -/
theorem union_eq_ofList (s t : OrderedSet α) : s.union t = ofList (s.toList ++ t.toList) := by
  rw [← ofList_union, ofList_toList]

/-- A union has the elements of both. -/
theorem mem_union {s t : OrderedSet α} {a : α} :
    a ∈ (s.union t).toList ↔ a ∈ s.toList ∨ a ∈ t.toList :=
  mem_insertAll _ _ _

/-- **Unions may be bracketed in any way,** the order of the elements included. -/
theorem union_assoc (s t u : OrderedSet α) : (s.union t).union u = s.union (t.union u) := by
  -- both sides are collected from the three lists in a row
  rw [union_eq_ofList t u, union, union, union, insertAll_ofList, insertAll_append]

/-- A set has nothing that is new to itself. -/
theorem union_self (s : OrderedSet α) : s.union s = s := by
  apply ext
  rw [toList_union, List.filter_eq_nil_iff.mpr fun a ha => ?_, List.append_nil]
  rw [decide_eq_true_iff, not_not]
  exact ha

/-- Unions in either order have the same elements. -/
theorem same_union_comm (s t : OrderedSet α) : (s.union t).same (t.union s) = true := by
  rw [same_iff_perm, List.perm_ext_iff_of_nodup (nodup _) (nodup _)]
  intro a
  rw [mem_union, mem_union, or_comm]

/-- **Common elements** are counted once. -/
theorem size_union (s t : OrderedSet α) :
    (s.union t).size + (s.toList.toFinset ∩ t.toList.toFinset).card = s.size + t.size := by
  have hunion : (s.union t).toList.toFinset = s.toList.toFinset ∪ t.toList.toFinset := by
    ext a
    rw [Finset.mem_union, List.mem_toFinset, List.mem_toFinset, List.mem_toFinset, mem_union]
  have hsize : ∀ u : OrderedSet α, u.size = u.toList.toFinset.card := fun u =>
    (List.toFinset_card_of_nodup u.nodup).symm
  rw [hsize, hsize, hsize, hunion, Finset.card_union_add_card_inter]

end OrderedSet

open OrderedSet

/-- The laws of adding sets that stand for values. -/
structure AddsSets {α : Type} [DecidableEq α] (value : OrderedSet α → Value) : Prop where
  /-- The sum of two sets has their elements, each once: first those of the one, then the new ones of
  the other, as if they were collected in this order. Its length and the number of common elements
  add up to the lengths of both. -/
  sum (a b : OrderedSet α) : ∃ c : OrderedSet α, (value a).add (value b) = .ok (value c) ∧
    c = ofList (a.toList ++ b.toList) ∧
    c.toList = a.toList ++ b.toList.filter (fun x => x ∉ a.toList) ∧ c.toList.Nodup ∧
    (∀ x, c.contains x = (a.contains x || b.contains x)) ∧
    (∀ gs identity, (value c).select gs identity "length" = .ok (.ofNat c.size)) ∧
    c.size + (a.toList.toFinset ∩ b.toList.toFinset).card = a.size + b.size
  /-- Sums may be bracketed in any way. -/
  assoc (a b c : OrderedSet α) :
    (do (← (value a).add (value b)).add (value c)) = (do (value a).add (← (value b).add (value c)))
  /-- A set added to itself stays as it is. -/
  self (a : OrderedSet α) : (value a).add (value a) = .ok (value a)
  /-- The set without elements adds nothing. -/
  empty (a : OrderedSet α) : (value a).add (value OrderedSet.empty) = .ok (value a)
  /-- Null adds nothing. -/
  null (a : OrderedSet α) : (value a).add .null = .ok (value a)
  /-- Sums in either order are equal to a script. -/
  comm (gs : Graphs) (a b : OrderedSet α) :
    (do (← (value a).add (value b)).equals gs (← (value b).add (value a))) = .ok true

/-- Sets obey the laws if they are added by union and compared by their elements. -/
theorem AddsSets.of_union {α : Type} [DecidableEq α] {value : OrderedSet α → Value}
    (hadd : ∀ a b, (value a).add (value b) = .ok (value (a.union b)))
    (hnull : ∀ a, (value a).add .null = .ok (value a))
    (hequals : ∀ gs a b, (value a).equals gs (value b) = .ok (a.same b))
    (hlength : ∀ gs identity a, (value a).select gs identity "length" = .ok (.ofNat a.size)) :
    AddsSets value where
  sum a b := by
    refine ⟨a.union b, hadd a b, union_eq_ofList a b, toList_union a b, nodup _, fun x => ?_,
      fun gs identity => hlength gs identity _, size_union a b⟩
    -- to be contained is to be a member, on both sides
    rw [Bool.eq_iff_iff, Bool.or_eq_true, contains_iff, contains_iff, contains_iff, mem_union]
  assoc a b c := by
    rw [hadd a b, hadd b c]
    show (value (a.union b)).add (value c) = (value a).add (value (b.union c))
    rw [hadd, hadd, union_assoc]
  self a := by rw [hadd, union_self]
  empty a := hadd a OrderedSet.empty
  null := hnull
  comm gs a b := by
    rw [hadd a b, hadd b a]
    show (value (a.union b)).equals gs (value (b.union a)) = _
    rw [hequals, same_union_comm]

/-- **The union of sets.** Sets of nodes obey the laws of union, and so do sets of edges. -/
theorem union_laws : AddsSets Value.nodes ∧ AddsSets Value.edges :=
  ⟨.of_union (fun _ _ => rfl) (fun _ => rfl) (fun _ _ _ => rfl) fun _ _ _ => rfl,
    .of_union (fun _ _ => rfl) (fun _ => rfl) (fun _ _ _ => rfl) fun _ _ _ => rfl⟩

/-- Nodes at the same place in two graphs are different, whatever they are called. -/
example :
    (Value.nodes (ofList [⟨0, 0⟩, ⟨1, 0⟩])).add (.nodes (ofList [⟨1, 1⟩, ⟨0, 0⟩, ⟨0, 1⟩])) =
      .ok (.nodes (ofList [⟨0, 0⟩, ⟨1, 0⟩, ⟨1, 1⟩, ⟨0, 1⟩])) := rfl

end GraphQuery
