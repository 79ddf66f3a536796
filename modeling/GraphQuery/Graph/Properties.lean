import GraphQuery.Assoc
import GraphQuery.Text.Quoted

/-!
# Properties

The key and value pairs that a node or an edge carries. A value is a string or a set of strings. The
pairs are kept in the order of their keys, by code points, and no key occurs twice; both facts are
part of the type, so a collection of properties is determined by its contents.

Keys are searched for. What a search comes to is said by `Properties.Located`, in terms of the order of
the keys alone, and additions and lookups use nothing else of it; since sorted pairs leave no choice
(`Properties.Located.unique`), any other search would do.

## Main statements

* `Properties.located_locate`, `Properties.Located.unique`: what a search for a key comes to.
* `Properties.get?_insert`: a lookup after an insertion.
* `Properties.add_eq`: what an addition reports.
-/

namespace GraphQuery

/-- What a property holds. -/
inductive PropertyValue where
  /-- One string. -/
  | string (value : String)
  /-- Several strings. -/
  | strings (values : List String)
  deriving DecidableEq, Repr

/-- The text of a property value. -/
def PropertyValue.display : PropertyValue → String
  | .string s => quoted s
  | .strings ss => quotedList ss

/-- Pairs of keys and values, sorted by key. -/
structure Properties where
  /-- The pairs. -/
  entries : List (String × PropertyValue)
  /-- The keys increase. -/
  sorted : entries.Pairwise (fun a b => a.1 < b.1)
  deriving DecidableEq

namespace Properties

/-- No properties. -/
def empty : Properties := ⟨[], List.Pairwise.nil⟩

instance : Inhabited Properties := ⟨empty⟩

/-! ### Searching sorted pairs -/

/-- What a search for a key in sorted pairs comes to: the position of the pair with the key, or else
the position at which such a pair belongs, after all smaller keys and before all greater ones. -/
inductive Located (key : String) : List (String × PropertyValue) → Except Nat Nat → Prop where
  /-- There is a pair with the key. -/
  | found (before after : List (String × PropertyValue)) (value : PropertyValue) :
    Located key (before ++ (key, value) :: after) (.ok before.length)
  /-- There is none. -/
  | missing (before after : List (String × PropertyValue)) (smaller : ∀ entry ∈ before, entry.1 < key)
      (greater : ∀ entry ∈ after, key < entry.1) :
    Located key (before ++ after) (.error before.length)

/-- Searches sorted pairs for a key. -/
def locate (key : String) : List (String × PropertyValue) → Except Nat Nat
  | [] => .error 0
  | (k, _) :: rest =>
    if key < k then .error 0
    else if key = k then .ok 0
    else match locate key rest with
      | .ok i => .ok (i + 1)
      | .error i => .error (i + 1)

/-- The pairs with a value for a key, where a search for the key has come to a position: a pair that is
there changes its value, and otherwise a new one is inserted. -/
def putAt (key : String) (value : PropertyValue) (entries : List (String × PropertyValue)) :
    Except Nat Nat → List (String × PropertyValue)
  | .ok i => entries.modify i fun entry => (entry.1, value)
  | .error i => entries.insertIdx i (key, value)

/-- The value at the position that a search has come to. -/
def valueAt? (entries : List (String × PropertyValue)) : Except Nat Nat → Option PropertyValue
  | .ok i => entries[i]?.map (·.2)
  | .error _ => none

/-- **The search** comes to the position of the key. -/
theorem located_locate (key : String) {entries : List (String × PropertyValue)}
    (h : entries.Pairwise fun a b => a.1 < b.1) : Located key entries (locate key entries) := by
  induction entries with
  | nil => exact .missing [] [] (List.forall_mem_nil _) (List.forall_mem_nil _)
  | cons entry rest ih =>
    obtain ⟨k, v⟩ := entry
    obtain ⟨hk, hrest⟩ := List.pairwise_cons.mp h
    rw [locate]
    split
    case isTrue hlt =>
      -- the key is before `k`, hence before all that follows
      refine .missing [] _ (List.forall_mem_nil _) (List.forall_mem_cons.mpr ⟨hlt, fun e he => ?_⟩)
      exact String.lt_trans hlt (hk e he)
    case isFalse hlt =>
      split
      case isTrue heq => exact heq ▸ .found [] rest v
      case isFalse hne =>
        -- neither before `k` nor equal to it, the key is after it
        have hgt : k < key := Classical.byContradiction fun hn =>
          hne (String.le_antisymm (String.not_lt.mp hn) (String.not_lt.mp hlt))
        have hlocated := ih hrest
        generalize locate key rest = r at hlocated
        cases hlocated with
        | found before after value => exact .found ((k, v) :: before) after value
        | missing before after smaller greater =>
          exact .missing ((k, v) :: before) after (List.forall_mem_cons.mpr ⟨hgt, smaller⟩) greater

namespace Located

variable {key : String} {entries : List (String × PropertyValue)} {r r' : Except Nat Nat}

/-- Around a pair of sorted pairs there are smaller and greater keys. -/
theorem around {before after : List (String × PropertyValue)} {value : PropertyValue}
    (hsorted : (before ++ (key, value) :: after).Pairwise fun a b => a.1 < b.1) :
    (∀ entry ∈ before, entry.1 < key) ∧ ∀ entry ∈ after, key < entry.1 := by
  obtain ⟨-, hafter, hbefore⟩ := List.pairwise_append.mp hsorted
  exact ⟨fun entry hentry => hbefore entry hentry _ List.mem_cons_self,
    (List.pairwise_cons.mp hafter).1⟩

/-- How many keys are smaller, and whether there is an equal one, decides where a key is. -/
theorem eq_count (hsorted : entries.Pairwise fun a b => a.1 < b.1) (h : Located key entries r) :
    r = if key ∈ entries.map (·.1) then .ok (entries.countP (·.1 < key))
      else .error (entries.countP (·.1 < key)) := by
  -- the keys before the position are smaller, and those from it on are not
  have hcount : ∀ before after : List (String × PropertyValue), (∀ entry ∈ before, entry.1 < key) →
      (∀ entry ∈ after, ¬ entry.1 < key) →
      (before ++ after).countP (fun entry => entry.1 < key) = before.length := by
    intro before after hbefore hafter
    rw [List.countP_append, List.countP_eq_length.mpr fun entry hentry =>
        decide_eq_true (hbefore entry hentry),
      List.countP_eq_zero.mpr fun entry hentry hlt => hafter entry hentry (of_decide_eq_true hlt)]
    rfl
  cases h with
  | found before after value =>
    obtain ⟨hbefore, hafter⟩ := around hsorted
    rw [if_pos (List.mem_map_of_mem (List.mem_append_right before List.mem_cons_self)),
      hcount before _ hbefore]
    refine List.forall_mem_cons.mpr ⟨String.lt_irrefl key, fun entry hentry => ?_⟩
    exact String.lt_asymm (hafter entry hentry)
  | missing before after smaller greater =>
    rw [if_neg, hcount before after smaller fun entry hentry => String.lt_asymm (greater entry hentry)]
    intro hmem
    obtain ⟨entry, hentry, heq⟩ := List.mem_map.mp hmem
    rcases List.mem_append.mp hentry with hentry | hentry
    · exact String.lt_irrefl key (heq ▸ smaller entry hentry)
    · exact String.lt_irrefl key (heq ▸ greater entry hentry)

/-- **It does not matter how the search is done.** In sorted pairs, there is one position to come to. -/
theorem unique (hsorted : entries.Pairwise fun a b => a.1 < b.1) (h : Located key entries r)
    (h' : Located key entries r') : r = r' :=
  (h.eq_count hsorted).trans (h'.eq_count hsorted).symm

/-- What is put at the position of a key, in terms of what is around it. -/
theorem putAt_eq (value : PropertyValue) (h : Located key entries r)
    (hsorted : entries.Pairwise fun a b => a.1 < b.1) :
    ∃ before after, (∀ entry ∈ before, entry.1 < key) ∧ (∀ entry ∈ after, key < entry.1) ∧
      putAt key value entries r = before ++ (key, value) :: after ∧
      (entries = before ++ after ∨ ∃ old, entries = before ++ (key, old) :: after) := by
  cases h with
  | found before after old =>
    obtain ⟨hbefore, hafter⟩ := around hsorted
    refine ⟨before, after, hbefore, hafter, ?_, Or.inr ⟨old, rfl⟩⟩
    exact List.modifyTailIdx_add _ 0 before ((key, old) :: after)
  | missing before after smaller greater =>
    refine ⟨before, after, smaller, greater, ?_, Or.inl rfl⟩
    exact List.modifyTailIdx_add _ 0 before after

/-- **The pairs stay sorted** when one is put where it belongs. -/
theorem sorted_putAt (value : PropertyValue) (h : Located key entries r)
    (hsorted : entries.Pairwise fun a b => a.1 < b.1) :
    (putAt key value entries r).Pairwise fun a b => a.1 < b.1 := by
  obtain ⟨before, after, hbefore, hafter, hput, hentries⟩ := h.putAt_eq value hsorted
  -- what is around the key is sorted, as it has been there
  have hsub : (before ++ after).Pairwise fun a b => a.1 < b.1 := by
    rcases hentries with rfl | ⟨old, rfl⟩
    · exact hsorted
    · exact hsorted.sublist (List.Sublist.append_left (List.sublist_cons_self _ _) before)
  obtain ⟨hsortedbefore, hsortedafter, hapart⟩ := List.pairwise_append.mp hsub
  rw [hput]
  refine List.pairwise_append.mpr
    ⟨hsortedbefore, List.pairwise_cons.mpr ⟨hafter, hsortedafter⟩, fun a ha b hb => ?_⟩
  rcases List.mem_cons.mp hb with rfl | hb
  · exact hbefore a ha
  · exact hapart a ha b hb

/-- A lookup passes over smaller keys. -/
theorem lookup_append_of_smaller {before after : List (String × PropertyValue)}
    (h : ∀ entry ∈ before, entry.1 < key) : (before ++ after).lookup key = after.lookup key := by
  have hnone : before.lookup key = none := by
    refine List.lookup_eq_none_iff.mpr fun entry hentry => bne_iff_ne.mpr fun heq => ?_
    exact String.lt_irrefl key (heq ▸ h entry hentry)
  rw [List.lookup_append, hnone, Option.none_or]

/-- **What is put is found** at its key, and all else as before. -/
theorem lookup_putAt (value : PropertyValue) (h : Located key entries r)
    (hsorted : entries.Pairwise fun a b => a.1 < b.1) (k : String) :
    (putAt key value entries r).lookup k = if k = key then some value else entries.lookup k := by
  obtain ⟨before, after, hbefore, -, hput, hentries⟩ := h.putAt_eq value hsorted
  rw [hput]
  by_cases hk : k = key
  · subst hk
    rw [if_pos rfl, lookup_append_of_smaller hbefore, Assoc.lookup_cons_if, if_pos rfl]
  · rw [if_neg hk, List.lookup_append, Assoc.lookup_cons_if, if_neg hk]
    rcases hentries with rfl | ⟨old, rfl⟩
    · rw [List.lookup_append]
    · rw [List.lookup_append, Assoc.lookup_cons_if, if_neg hk]

/-- **The value at the position of a key** is the one that a lookup finds. -/
theorem valueAt?_eq (h : Located key entries r)
    (hsorted : entries.Pairwise fun a b => a.1 < b.1) : valueAt? entries r = entries.lookup key := by
  cases h with
  | found before after value =>
    rw [lookup_append_of_smaller (around hsorted).1, Assoc.lookup_cons_if, if_pos rfl, valueAt?,
      List.getElem?_append_right (Nat.le_refl _), Nat.sub_self]
    rfl
  | missing before after smaller greater =>
    rw [lookup_append_of_smaller smaller, valueAt?]
    refine (List.lookup_eq_none_iff.mpr fun entry hentry => bne_iff_ne.mpr fun heq => ?_).symm
    exact String.lt_irrefl key (heq ▸ greater entry hentry)

theorem isSome_valueAt? {i : Nat} (h : Located key entries (.ok i)) :
    (valueAt? entries (.ok i)).isSome = true := by
  cases h with
  | found before after value =>
    rw [valueAt?, List.getElem?_append_right (Nat.le_refl _), Nat.sub_self]
    rfl

end Located

/-! ### Additions and lookups -/

/-- Whether an addition is the first one with its key, and the properties after it. An addition with a
key that is there replaces the value, and is told by `.error ()`. -/
def add (p : Properties) (key : String) (value : PropertyValue) : Except Unit Unit × Properties :=
  let place := locate key p.entries
  let added : Properties := ⟨putAt key value p.entries place,
    (located_locate key p.sorted).sorted_putAt value p.sorted⟩
  match place with
  | .ok _ => (.error (), added)
  | .error _ => (.ok (), added)

/-- The properties with one more pair; a pair with the same key gives way. -/
def insert (p : Properties) (key : String) (value : PropertyValue) : Properties :=
  (p.add key value).2

/-- The value of a key. -/
def get? (p : Properties) (key : String) : Option PropertyValue :=
  valueAt? p.entries (locate key p.entries)

/-- Whether a key has a value. -/
def contains (p : Properties) (key : String) : Bool :=
  (p.get? key).isSome

/-- The keys, in order. -/
def keys (p : Properties) : List String :=
  p.entries.map (·.1)

/-- The number of keys. -/
def size (p : Properties) : Nat := p.entries.length

/-- The properties after several insertions, in order. -/
def insertAll (p : Properties) (pairs : List (String × PropertyValue)) : Properties :=
  pairs.foldl (fun p pair => p.insert pair.1 pair.2) p

/-- The keys whose value an insertion replaces, when the pairs are inserted in order. -/
def replaced (p : Properties) : List (String × PropertyValue) → List String
  | [] => []
  | (key, value) :: rest =>
    match p.add key value with
    | (.ok (), next) => next.replaced rest
    | (.error (), next) => key :: next.replaced rest

theorem get?_eq_lookup (p : Properties) (key : String) : p.get? key = p.entries.lookup key :=
  (located_locate key p.sorted).valueAt?_eq p.sorted

theorem entries_insert (p : Properties) (key : String) (value : PropertyValue) :
    (p.insert key value).entries = putAt key value p.entries (locate key p.entries) := by
  unfold insert add
  dsimp only
  split
  · rfl
  · rfl

/-- **A lookup after an insertion** finds the new value at its key and the old ones elsewhere. -/
@[simp] theorem get?_insert (p : Properties) (key : String) (value : PropertyValue) (k : String) :
    (p.insert key value).get? k = if k = key then some value else p.get? k := by
  rw [get?_eq_lookup, get?_eq_lookup, entries_insert]
  exact (located_locate key p.sorted).lookup_putAt value p.sorted k

/-- **An addition is told to replace a value** if its key has one. -/
theorem add_eq (p : Properties) (key : String) (value : PropertyValue) :
    p.add key value = (if p.contains key then .error () else .ok (), p.insert key value) := by
  have hlocated := located_locate key p.sorted
  unfold insert add
  dsimp only
  split
  case h_1 i hplace =>
    have hsome : p.contains key = true := by
      rw [contains, get?, hplace]
      exact (hplace ▸ hlocated).isSome_valueAt?
    rw [if_pos hsome]
  case h_2 i hplace =>
    have hnone : p.contains key = false := by
      rw [contains, get?, hplace]
      rfl
    rw [hnone, if_neg Bool.false_ne_true]

theorem replaced_cons (p : Properties) (key : String) (value : PropertyValue)
    (rest : List (String × PropertyValue)) :
    p.replaced ((key, value) :: rest) =
      (if p.contains key then [key] else []) ++ (p.insert key value).replaced rest := by
  rw [replaced, add_eq]
  by_cases h : p.contains key = true
  · simp only [h, if_true, List.singleton_append]
  · simp only [h, Bool.false_eq_true, if_false, List.nil_append]

/-- The properties as lines of a listing, one pair a line, indented. -/
def display (p : Properties) : String :=
  String.join (p.entries.map fun (key, value) => "  " ++ key ++ ": " ++ value.display ++ "\n")

end Properties

end GraphQuery
