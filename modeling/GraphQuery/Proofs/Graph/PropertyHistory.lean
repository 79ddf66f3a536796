import Mathlib.Data.Finset.Card
import Mathlib.Data.List.Sort
import Mathlib.Data.String.Basic
import GraphQuery.Eval.Expr

/-!
# Properties and how they came about

Properties are made by insertions, one pair of a key and a value after the other. What is left of
such a history is, for each key, the value that came last (`Properties.LastPut`), and nothing else:
neither the order of the insertions nor the values that have been replaced.

Both directions of this are about **canonicity**. The pairs are sorted by key without repetition,
and a sorted list is told by its members, so properties with the same lookups are the same
(`Properties.ext_get?`). And a lookup finds what was put last (`Properties.get?_insertAll`), by
induction on the history from its end.

Therefore all comparisons of properties compare histories: the equality of the properties
themselves, that of the host, and the comparison of scripts, for properties of nodes, of edges and
free-standing ones.

## Main statements

* `Properties.get?_insertAll`, `Properties.contains_insertAll`: lookups after a history.
* `Properties.ext_get?`: properties are determined by their lookups.
* `properties_history`: what can be told about properties from their history.
-/

namespace GraphQuery

namespace Properties

/-- Among several insertions, the last one with a key has a value. -/
def LastPut (pairs : List (String × PropertyValue)) (key : String) (value : PropertyValue) : Prop :=
  ∃ before after, pairs = before ++ (key, value) :: after ∧ key ∉ after.map (·.1)

/-! ### Lookups after a history -/

/-- The last insertion of a history comes on top of the others. -/
theorem insertAll_concat (p : Properties) (pairs : List (String × PropertyValue)) (key : String)
    (value : PropertyValue) :
    p.insertAll (pairs ++ [(key, value)]) = (p.insertAll pairs).insert key value :=
  List.foldl_concat ..

/-- One more insertion hides the earlier ones with its key, and no other. -/
theorem lastPut_concat {pairs : List (String × PropertyValue)} {key k : String}
    {value v : PropertyValue} :
    LastPut (pairs ++ [(key, value)]) k v ↔ if k = key then value = v else LastPut pairs k v := by
  constructor
  · rintro ⟨before, after, hsplit, hlast⟩
    -- the insertion in question is the new one, or the new one comes after it
    rcases List.eq_nil_or_concat after with rfl | ⟨after, ⟨key', value'⟩, rfl⟩
    · obtain ⟨-, hpair⟩ := List.append_inj' hsplit rfl
      cases hpair
      rw [if_pos rfl]
    · have hsplit : pairs ++ [(key, value)] = (before ++ (k, v) :: after) ++ [(key', value')] := by
        rw [hsplit, List.concat_eq_append, List.append_assoc, List.cons_append]
      obtain ⟨rfl, hpair⟩ := List.append_inj' hsplit rfl
      cases hpair
      rw [List.concat_eq_append, List.map_append, List.mem_append, not_or] at hlast
      rw [if_neg fun hk => hlast.2 (List.mem_singleton.mpr hk)]
      exact ⟨before, after, rfl, hlast.1⟩
  · split
    case isTrue hk =>
      rintro rfl
      exact ⟨pairs, [], by rw [hk], List.not_mem_nil⟩
    case isFalse hk =>
      rintro ⟨before, after, rfl, hlast⟩
      refine ⟨before, after ++ [(key, value)], by rw [List.append_assoc, List.cons_append], ?_⟩
      rw [List.map_append, List.mem_append, not_or]
      exact ⟨hlast, fun hmem => hk (List.mem_singleton.mp hmem)⟩

/-- **A lookup** finds what was put last. -/
theorem get?_insertAll {pairs : List (String × PropertyValue)} {k : String} {v : PropertyValue} :
    (empty.insertAll pairs).get? k = some v ↔ LastPut pairs k v := by
  induction pairs using List.reverseRecOn with
  | nil =>
    refine iff_of_false (Option.some_ne_none v ·.symm) ?_
    rintro ⟨before, after, hsplit, -⟩
    exact List.append_ne_nil_of_right_ne_nil before (List.cons_ne_nil _ _) hsplit.symm
  | append_singleton pairs pair ih =>
    obtain ⟨key, value⟩ := pair
    rw [insertAll_concat, get?_insert, lastPut_concat]
    -- the last insertion hides those before it, or it has another key
    split
    · exact Option.some_inj
    · exact ih

/-- **A key has a value** if it has been put. -/
theorem contains_insertAll (pairs : List (String × PropertyValue)) (k : String) :
    (empty.insertAll pairs).contains k = true ↔ k ∈ pairs.map (·.1) := by
  induction pairs using List.reverseRecOn with
  | nil => exact iff_of_false Bool.false_ne_true List.not_mem_nil
  | append_singleton pairs pair ih =>
    obtain ⟨key, value⟩ := pair
    rw [insertAll_concat, contains, get?_insert, List.map_append, List.mem_append]
    split
    case isTrue hk => exact iff_of_true rfl (Or.inr (List.mem_singleton.mpr hk))
    case isFalse hk => exact ih.trans (or_iff_left fun hmem => hk (List.mem_singleton.mp hmem)).symm

/-- The report on an insertion comes after those on the earlier ones. -/
theorem replaced_concat (p : Properties) (pairs : List (String × PropertyValue)) (key : String)
    (value : PropertyValue) :
    p.replaced (pairs ++ [(key, value)]) =
      p.replaced pairs ++ if (p.insertAll pairs).contains key then [key] else [] := by
  induction pairs generalizing p with
  | nil => exact (p.replaced_cons key value []).trans (List.append_nil _)
  | cons pair pairs ih =>
    obtain ⟨k, v⟩ := pair
    have hlater : ((p.insert k v).replaced (pairs ++ [(key, value)])) = (p.insert k v).replaced pairs ++
        if (p.insertAll ((k, v) :: pairs)).contains key then [key] else [] := ih (p.insert k v)
    rw [List.cons_append, replaced_cons, replaced_cons, hlater, List.append_assoc]

/-! ### Keys -/

/-- The keys are those that have a value. -/
theorem mem_keys {p : Properties} {k : String} : k ∈ p.keys ↔ p.contains k = true := by
  rw [contains, get?_eq_lookup, List.lookup_isSome_iff, keys, List.mem_map]
  simp only [beq_iff_eq, eq_comm (a := k)]

/-- **The keys increase** in the order of their code points. -/
theorem pairwise_keys (p : Properties) :
    p.keys.Pairwise fun a b => a.toList.map Char.toNat < b.toList.map Char.toNat := by
  refine List.pairwise_map.mpr (p.sorted.imp fun {a b} hlt => ?_)
  have hchars : a.1.toList < b.1.toList := String.lt_iff_toList_lt.mp hlt
  exact List.map_lt (fun x y (hxy : x < y) => (show x.toNat < y.toNat from hxy)) hchars

/-- No key is there twice. -/
theorem nodup_keys (p : Properties) : p.keys.Nodup := by
  refine p.pairwise_keys.imp fun {a b} hlt hab => ?_
  rw [hab] at hlt
  exact lt_irrefl _ hlt

/-- **As many keys** are there as different ones have been put. -/
theorem size_insertAll (pairs : List (String × PropertyValue)) :
    (empty.insertAll pairs).size = (pairs.map (·.1)).toFinset.card := by
  have hkeys : (empty.insertAll pairs).keys.toFinset = (pairs.map (·.1)).toFinset := by
    ext k
    rw [List.mem_toFinset, List.mem_toFinset, mem_keys, contains_insertAll]
  calc (empty.insertAll pairs).size
    _ = (empty.insertAll pairs).keys.length := (List.length_map ..).symm
    _ = (empty.insertAll pairs).keys.toFinset.card := (List.toFinset_card_of_nodup (nodup_keys _)).symm
    _ = (pairs.map (·.1)).toFinset.card := by rw [hkeys]

/-! ### Canonicity -/

/-- The pairs are the lookups. -/
theorem mem_entries {p : Properties} {k : String} {v : PropertyValue} :
    (k, v) ∈ p.entries ↔ p.get? k = some v := by
  rw [get?_eq_lookup, List.lookup_eq_some_iff]
  constructor
  · intro hmem
    obtain ⟨before, after, hsplit⟩ := List.append_of_mem hmem
    refine ⟨before, after, hsplit, fun entry hentry => ?_⟩
    -- the keys before are smaller
    have hsorted := p.sorted
    rw [hsplit, List.pairwise_append] at hsorted
    have hlt : entry.1 < k := hsorted.2.2 entry hentry (k, v) List.mem_cons_self
    exact bne_iff_ne.mpr fun hk => lt_irrefl entry.1 (hk ▸ hlt)
  · rintro ⟨before, after, hsplit, -⟩
    rw [hsplit]
    exact List.mem_append_right _ List.mem_cons_self

/-- **Properties are determined by their lookups.** -/
theorem ext_get? {p q : Properties} (h : ∀ k, p.get? k = q.get? k) : p = q := by
  have hentries : p.entries = q.entries := by
    have hmem : ∀ entry, entry ∈ p.entries ↔ entry ∈ q.entries := by
      rintro ⟨k, v⟩
      rw [mem_entries, mem_entries, h k]
    -- both lists are sorted by the keys, so they are one list if they have the same members
    have : Std.Antisymm fun a b : String × PropertyValue => a.1 < b.1 :=
      ⟨fun _ _ hab hba => absurd hba (lt_asymm hab)⟩
    have : Std.Irrefl fun a b : String × PropertyValue => a.1 < b.1 := ⟨fun _ => lt_irrefl _⟩
    exact p.sorted.eq_of_mem_iff q.sorted hmem
  cases p
  cases q
  cases hentries
  rfl

/-- **Equal properties have equal histories,** as far as the last values go. -/
theorem insertAll_eq_iff {pairs others : List (String × PropertyValue)} :
    empty.insertAll pairs = empty.insertAll others ↔
      ∀ k v, LastPut pairs k v ↔ LastPut others k v := by
  constructor
  · intro heq k v
    rw [← get?_insertAll, ← get?_insertAll, heq]
  · intro hlast
    refine ext_get? fun k => Option.ext fun v => ?_
    rw [get?_insertAll, get?_insertAll]
    exact hlast k v

end Properties

open Properties

/-- **Properties and their history.** After any insertions into empty properties, the keys increase
by code points, there are as many as different keys have been put, and a lookup finds the value that
was put last for its key, or nothing if the key has not been put. An addition says that it replaces a
value exactly if its key has been put before, and these are the keys that a history reports.

Two such properties are equal exactly if each key was given the same value last in both histories,
whatever the order of the insertions. So say the properties themselves, the host, and a comparison
in a script, which always has an answer, wherever the properties come from. -/
theorem properties_history (pairs : List (String × PropertyValue)) :
    ((empty.insertAll pairs).keys.Pairwise fun a b =>
      a.toList.map Char.toNat < b.toList.map Char.toNat) ∧
    (empty.insertAll pairs).size = (pairs.map (·.1)).toFinset.card ∧
    (∀ k v, (empty.insertAll pairs).get? k = some v ↔ LastPut pairs k v) ∧
    (∀ k, (empty.insertAll pairs).get? k = none ↔ k ∉ pairs.map (·.1)) ∧
    (∀ before key value, before ++ [(key, value)] <+: pairs →
      (empty.insertAll before).add key value =
        (if key ∈ before.map (·.1) then .error () else .ok (),
          empty.insertAll (before ++ [(key, value)])) ∧
      empty.replaced (before ++ [(key, value)]) =
        empty.replaced before ++ if key ∈ before.map (·.1) then [key] else []) ∧
    ∀ others : List (String × PropertyValue),
      let agree : Prop := ∀ k v, LastPut pairs k v ↔ LastPut others k v
      (empty.insertAll pairs = empty.insertAll others ↔ agree) ∧
      ∀ (gs : Graphs) (a b : PropertySource), a.resolve gs = empty.insertAll pairs →
        b.resolve gs = empty.insertAll others →
        ((Value.properties a).same gs (.properties b) = true ↔ agree) ∧
        ∃ answer : Bool, (answer = true ↔ agree) ∧
          (Value.properties a).equals gs (.properties b) = .ok answer ∧
          ∀ (call : Caller) (cx : Context) (left right : Code) (s t u : State), cx.graphs = gs →
            left.eval call cx s = some (.ok (.properties a), t) →
            right.eval call cx t = some (.ok (.properties b), u) →
            (Expr.equality left right false).eval call cx s = some (.ok (.bool answer), u) := by
  refine ⟨pairwise_keys _, size_insertAll pairs, fun k v => get?_insertAll, fun k => ?_,
    fun before key value _ => ?_, fun others => ⟨insertAll_eq_iff, fun gs a b ha hb => ?_⟩⟩
  · rw [← contains_insertAll, contains, Bool.not_eq_true, Option.isSome_eq_false_iff,
      Option.isNone_iff_eq_none]
  · constructor
    · rw [add_eq, insertAll_concat]
      simp only [contains_insertAll]
    · simp only [replaced_concat, contains_insertAll]
  · have hagree : decide (a.resolve gs = b.resolve gs) = true ↔
        ∀ k v, LastPut pairs k v ↔ LastPut others k v := by
      rw [decide_eq_true_iff, ha, hb, insertAll_eq_iff]
    have hequals : (Value.properties a).equals gs (.properties b) =
        .ok (decide (a.resolve gs = b.resolve gs)) := rfl
    refine ⟨hagree, decide (a.resolve gs = b.resolve gs), hagree, hequals, ?_⟩
    rintro call cx left right s t u rfl hleft hright
    rw [Expr.eval, Eval.bind_of_ok hleft, Eval.bind_of_ok hright, hequals]
    show some (Except.ok (Value.bool (decide _ != false)), u) = _
    rw [Bool.bne_false]

/-- The same keys in another order, one of which had another value before. The properties of a node
are compared with free-standing ones. -/
theorem properties_history_reordered :
    let tags : PropertyValue := .strings ["x", "y"]
    let pairs := [("name", .string "a"), ("tags", tags), ("name", .string "b")]
    let others := [("tags", tags), ("name", .string "b")]
    let gs : Graphs := { all := #[Graph.build [{ id := "n", properties := pairs }] []] }
    empty.replaced pairs = ["name"] ∧ (empty.insertAll pairs).size = 2 ∧
      (empty.insertAll pairs).get? "name" = some (.string "b") ∧
      (Value.properties (.node ⟨0, 0⟩)).same gs (.properties (.detached (empty.insertAll others))) = true ∧
      (Value.properties (.node ⟨0, 0⟩)).equals gs (.properties (.detached (empty.insertAll others))) =
        .ok true := by
  intro tags pairs others gs
  obtain ⟨-, hsize, hget, -, hreplaced, hequal⟩ := properties_history pairs
  -- in both histories, the two keys have these values last
  have hagree : ∀ k v, LastPut pairs k v ↔ LastPut others k v :=
    (hequal others).1.mp (by decide)
  obtain ⟨hsame, answer, hanswer, hequals, -⟩ :=
    (hequal others).2 gs (.node ⟨0, 0⟩) (.detached (empty.insertAll others)) rfl rfl
  refine ⟨?_, hsize.trans (by decide), (hget _ _).mpr ⟨[("name", .string "a"), ("tags", tags)], [], rfl,
    List.not_mem_nil⟩, hsame.mpr hagree, hequals.trans (congrArg _ (hanswer.mpr hagree))⟩
  exact (hreplaced [("name", .string "a"), ("tags", tags)] "name" (.string "b")
    (List.prefix_refl _)).2.trans (by decide)

end GraphQuery
