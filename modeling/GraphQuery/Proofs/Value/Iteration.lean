import GraphQuery.Proofs.Eval.Record
import GraphQuery.Proofs.Value.Union

/-!
# Iterating over a collection

`Value.iterate` calls a function on the elements of a collection and adds up the results. The
function may keep a state, may fail, and may not return at all; it is a `Visitor`.

The first result decides what the others have to be: from then on the sum is of its kind, and a result
**joins** it (`Value.Joins`) if it is of that kind too, or is null where sets are summed. What the sum
is can be said without adding (`Value.joined`): the members of all results in a row, and each once if
they are nodes or edges.

One round adds one more result to a sum of this form or fails to (`Value.add_joined`,
`Value.add_joined_of_not`). By induction on the elements that are left, a whole iteration succeeds
exactly if all calls do and all results join the first (`Value.accumulate_eq_ok`), and otherwise it
ends at the first element where this is not so (`Value.accumulate_eq_error`). That no call is made
beyond it is said about a visitor that enters what it is called on in a record (`Visitor.noting`).

## Main statements

* `Value.accumulate_eq_ok`, `Value.accumulate_eq_error`: how an iteration goes on from some sum.
* `iterate_exact`: which calls an iteration makes, and what it ends with.
-/

namespace GraphQuery

/-- A function that is called on elements. It changes a state, and ends with a result or an error, or
not at all. -/
abbrev Visitor (σ : Type) := Value → Run Error σ Value

namespace Visitor

variable {σ : Type} {f : Visitor σ}

/-- The visitor that also enters in a record what it is called on. -/
def noting (f : Visitor σ) : Visitor (σ × List Value) := fun e => Run.noted e (f e)

/-- Calls on elements one after the other that all succeed, and their results. -/
inductive Calls (f : Visitor σ) : σ → List Value → List Value → σ → Prop where
  /-- There are no elements. -/
  | nil (s : σ) : Calls f s [] [] s
  /-- The first call succeeds, and so do the others after it. -/
  | cons {s t u : σ} {e r : Value} {es rs : List Value} (hcall : f e s = some (.ok r, t))
      (hcalls : Calls f t es rs u) : Calls f s (e :: es) (r :: rs) u

/-- A call is entered, whatever it comes to. -/
theorem noting_eq_some {e : Value} {called called' : List Value} {s t : σ} {r : Except Error Value} :
    f.noting e (s, called) = some (r, t, called') ↔
      called' = called ++ [e] ∧ f e s = some (r, t) := by
  rw [noting, Run.noted_apply, Option.map_eq_some_iff]
  constructor
  · rintro ⟨⟨r', t'⟩, hcall, heq⟩
    cases heq
    exact ⟨rfl, hcall⟩
  · rintro ⟨rfl, hcall⟩
    exact ⟨(r, t), hcall, rfl⟩

/-- **The record of calls that succeed** is the list of their elements. -/
theorem calls_noting {es rs called called' : List Value} {s u : σ} :
    Calls f.noting (s, called) es rs (u, called') ↔ called' = called ++ es ∧ Calls f s es rs u := by
  induction es generalizing called s rs with
  | nil =>
    constructor
    · rintro ⟨⟩
      exact ⟨(List.append_nil _).symm, .nil _⟩
    · rintro ⟨rfl, ⟨⟩⟩
      rw [List.append_nil]
      exact .nil _
  | cons e es ih =>
    constructor
    · intro h
      cases h with
      | @cons _ t _ _ r _ rs hcall hcalls =>
        obtain ⟨t, called₁⟩ := t
        obtain ⟨rfl, hplain⟩ := noting_eq_some.mp hcall
        obtain ⟨rfl, hrest⟩ := ih.mp hcalls
        exact ⟨by rw [List.append_assoc, List.singleton_append], .cons hplain hrest⟩
    · rintro ⟨rfl, _ | ⟨hcall, hcalls⟩⟩
      refine .cons (noting_eq_some.mpr ⟨rfl, hcall⟩) (ih.mpr ⟨?_, hcalls⟩)
      rw [List.append_assoc, List.singleton_append]

end Visitor

namespace Value

open Visitor

/-! ### Sums of results -/

/-- The result fits a sum that starts with another one: they are collections of one kind, or it is
null and sets are summed. -/
def Joins (first result : Value) : Prop :=
  first.kind ∈ [.strings, .list, .nodes, .edges] ∧
    (result.kind = first.kind ∨ result.kind = .null ∧ first.kind ∈ [.nodes, .edges])

instance (first result : Value) : Decidable (Joins first result) :=
  inferInstanceAs (Decidable (_ ∧ _))

/-- The strings of a list of strings. -/
def stringsIn : Value → List String
  | .strings ss => ss
  | _ => []

/-- The members of a list. -/
def membersIn : Value → List Value
  | .list vs => vs
  | _ => []

/-- The nodes of a set of nodes. -/
def nodesIn : Value → List Node
  | .nodes ns => ns.toList
  | _ => []

/-- The edges of a set of edges. -/
def edgesIn : Value → List Edge
  | .edges es => es.toList
  | _ => []

/-- A result together with later ones that join it: strings and members in a row, nodes and edges
collected. -/
def joined (first : Value) (later : List Value) : Value :=
  match first with
  | .strings ss => .strings (ss ++ later.flatMap stringsIn)
  | .list vs => .list (vs ++ later.flatMap membersIn)
  | .nodes ns => .nodes (OrderedSet.ofList (ns.toList ++ later.flatMap nodesIn))
  | .edges es => .edges (OrderedSet.ofList (es.toList ++ later.flatMap edgesIn))
  | v => v

/-- The sum of results, if they have one. A single result need not be a collection. -/
def total? : List Value → Option Value
  | [] => some .null
  | [result] => some result
  | first :: later => if ∀ r ∈ later, Joins first r then some (joined first later) else none

/-- Where nothing follows, the sum is the result itself. -/
theorem joined_nil (first : Value) : joined first [] = first := by
  cases first <;> simp [joined, OrderedSet.ofList_toList]

/-- **A result that joins the sum** is added to it. -/
theorem add_joined {first r : Value} (later : List Value) (hr : Joins first r) :
    (joined first later).add r = .ok (joined first (later ++ [r])) := by
  -- a collection and a result that joins it: one case for each kind, and one more for null with sets
  cases first <;> cases r <;> simp [Joins, kind] at hr
  all_goals
    simp [joined, add, stringsIn, membersIn, nodesIn, edgesIn, OrderedSet.ofList_union]

/-- **A result that does not join the sum** cannot be added to it. -/
theorem add_joined_of_not {first r : Value} (later : List Value) (hr : ¬Joins first r) :
    ∃ cause, (joined first later).add r = .error cause := by
  -- for all other pairs of kinds, addition is not defined
  cases first <;> cases r <;> simp [Joins, kind] at hr
  all_goals exact ⟨_, rfl⟩

/-- Results have a sum if the later ones join the first. -/
theorem total?_cons {first result : Value} {later : List Value} :
    total? (first :: later) = some result ↔
      (∀ r ∈ later, Joins first r) ∧ result = joined first later := by
  cases later with
  | nil => simp [total?, joined_nil, eq_comm (a := result)]
  | cons => simp only [total?, Option.ite_none_right_eq_some, Option.some_inj, eq_comm (a := result)]

/-! ### The rounds of an iteration -/

section Rounds

variable {σ : Type} {f : Visitor σ} {first : Value} {later : List Value}

/-- **A round whose call succeeds** goes on with a greater sum, or ends the iteration. -/
theorem accumulate_of_ok {e r : Value} {es : List Value} {s t : σ}
    (hcall : f e s = some (.ok r, t)) :
    accumulate f (joined first later) (e :: es) s =
      if Joins first r then accumulate f (joined first (later ++ [r])) es t
      else some (.error .cannotAccumulate, t) := by
  rw [accumulate, Run.bind_apply, hcall]
  by_cases hr : Joins first r
  · rw [if_pos hr]
    simp only [add_joined later hr]
  · obtain ⟨cause, hadd⟩ := add_joined_of_not later hr
    rw [if_neg hr]
    simp only [hadd]
    rfl

/-- A call that fails ends the iteration. -/
theorem accumulate_of_error {total e : Value} {es : List Value} {s t : σ} {err : Error}
    (hcall : f e s = some (.error err, t)) :
    accumulate f total (e :: es) s = some (.error err, t) := by
  rw [accumulate, Run.bind_apply, hcall]

/-- A call that does not end leaves the iteration without an end. -/
theorem accumulate_of_none {total e : Value} {es : List Value} {s : σ} (hcall : f e s = none) :
    accumulate f total (e :: es) s = none := by
  rw [accumulate, Run.bind_apply, hcall]

/-- **An iteration succeeds** if all calls do and all results join the sum. -/
theorem accumulate_eq_ok {es : List Value} {s u : σ} {result : Value} :
    accumulate f (joined first later) es s = some (.ok result, u) ↔
      ∃ rs, Calls f s es rs u ∧ (∀ r ∈ rs, Joins first r) ∧ result = joined first (later ++ rs) := by
  -- on the elements; the results so far are part of the statement, as the sum grows with each round
  induction es generalizing later s with
  | nil =>
    constructor
    · intro h
      cases h
      exact ⟨[], .nil _, fun _ h => absurd h List.not_mem_nil, by rw [List.append_nil]⟩
    · rintro ⟨rs, ⟨⟩, -, rfl⟩
      rw [List.append_nil]
      rfl
  | cons e es ih =>
    constructor
    · intro h
      rcases hcall : f e s with _ | ⟨err | r, t⟩
      · cases (accumulate_of_none hcall).symm.trans h
      · cases (accumulate_of_error hcall).symm.trans h
      · rw [accumulate_of_ok hcall] at h
        split at h
        case isFalse => cases h
        case isTrue hr =>
          obtain ⟨rs, hcalls, hrs, rfl⟩ := ih.mp h
          refine ⟨r :: rs, .cons hcall hcalls, List.forall_mem_cons.mpr ⟨hr, hrs⟩, ?_⟩
          rw [List.append_assoc, List.singleton_append]
    · rintro ⟨rs, hcalls, hrs, rfl⟩
      cases hcalls with
      | cons hcall hcalls =>
        obtain ⟨hr, hrs⟩ := List.forall_mem_cons.mp hrs
        rw [accumulate_of_ok hcall, if_pos hr]
        refine ih.mpr ⟨_, hcalls, hrs, ?_⟩
        rw [List.append_assoc, List.singleton_append]

/-- **An iteration fails** at the first element whose call fails, or whose result does not join the
sum. The calls before have succeeded, and there are none after it. -/
theorem accumulate_eq_error {es : List Value} {s u : σ} {err : Error} :
    accumulate f (joined first later) es s = some (.error err, u) ↔
      ∃ done e rest rs t, es = done ++ e :: rest ∧ Calls f s done rs t ∧ (∀ r ∈ rs, Joins first r) ∧
        (f e t = some (.error err, u) ∨
          err = .cannotAccumulate ∧ ∃ r, f e t = some (.ok r, u) ∧ ¬Joins first r) := by
  have hnone : ∀ r ∈ ([] : List Value), Joins first r := fun _ h => absurd h List.not_mem_nil
  induction es generalizing later s with
  | nil =>
    constructor
    · intro h
      cases h
    · rintro ⟨done, e, rest, rs, t, hsplit, -⟩
      exact absurd hsplit (List.append_ne_nil_of_right_ne_nil done (List.cons_ne_nil _ _)).symm
  | cons e es ih =>
    constructor
    · intro h
      rcases hcall : f e s with _ | ⟨err' | r, t⟩
      · cases (accumulate_of_none hcall).symm.trans h
      · -- it ends here, with the error of the call
        cases (accumulate_of_error hcall).symm.trans h
        exact ⟨[], e, es, [], s, rfl, .nil s, hnone, Or.inl hcall⟩
      · rw [accumulate_of_ok hcall] at h
        split at h
        case isTrue hr =>
          obtain ⟨done, e', rest, rs, t', rfl, hcalls, hrs, hend⟩ := ih.mp h
          exact ⟨e :: done, e', rest, r :: rs, t', rfl, .cons hcall hcalls,
            List.forall_mem_cons.mpr ⟨hr, hrs⟩, hend⟩
        case isFalse hr =>
          -- it ends here, as the result cannot be added
          cases h
          exact ⟨[], e, es, [], s, rfl, .nil s, hnone, Or.inr ⟨rfl, r, hcall, hr⟩⟩
    · rintro ⟨done, e', rest, rs, t', hsplit, hcalls, hrs, hend⟩
      cases hcalls with
      | nil =>
        obtain ⟨rfl, rfl⟩ := List.cons.inj hsplit
        rcases hend with hcall | ⟨rfl, r, hcall, hr⟩
        · exact accumulate_of_error hcall
        · rw [accumulate_of_ok hcall, if_neg hr]
      | @cons _ _ _ _ _ done rs hcall hcalls =>
        obtain ⟨rfl, rfl⟩ := List.cons.inj hsplit
        obtain ⟨hr, hrs⟩ := List.forall_mem_cons.mp hrs
        rw [accumulate_of_ok hcall, if_pos hr]
        exact ih.mpr ⟨done, e', rest, rs, t', rfl, hcalls, hrs, hend⟩

/-- Noting the calls changes nothing else. -/
theorem accumulate_forgets (f : Visitor σ) (total : Value) (es : List Value) :
    Run.Forgets (accumulate f.noting total es) (accumulate f total es) := by
  induction es generalizing total with
  | nil => exact Run.sequential_forgets.pure total
  | cons e es ih =>
    refine Run.sequential_forgets.bind (Run.forgets_noted e (f e)) fun r => ?_
    split
    · exact ih _
    · exact fun _ _ => rfl

/-- Nor does it for a whole iteration. -/
theorem iterate_forgets (f : Visitor σ) (v : Value) :
    Run.Forgets (v.iterate f.noting) (v.iterate f) := by
  unfold iterate
  split
  · exact fun _ _ => rfl
  · exact Run.sequential_forgets.pure _
  · exact Run.sequential_forgets.bind (Run.forgets_noted _ _) fun r => accumulate_forgets f r _

/-! ### Whole iterations -/

/-- The values that can be iterated over and their elements. Sets fall apart into sets of one
element. -/
inductive ConsistsOf : Value → List Value → Prop where
  | strings (ss : List String) : ConsistsOf (.strings ss) (ss.map .string)
  | list (vs : List Value) : ConsistsOf (.list vs) vs
  | nodes (ns : OrderedSet Node) :
      ConsistsOf (.nodes ns) (ns.toList.map fun n => .nodes (OrderedSet.singleton n))
  | edges (es : OrderedSet Edge) :
      ConsistsOf (.edges es) (es.toList.map fun e => .edges (OrderedSet.singleton e))

variable {v e : Value} {es : List Value} {s t u : σ}

/-- The elements of a collection. -/
theorem elements?_of_consistsOf (hv : v.ConsistsOf es) : v.elements? = some es := by
  cases hv <;> rfl

/-- Without elements, there is no call and no sum. -/
theorem iterate_nil (hv : v.ConsistsOf []) : v.iterate f s = some (.ok .null, s) := by
  rw [iterate, elements?_of_consistsOf hv]
  rfl

/-- The first result is the sum that the rounds start with. -/
theorem iterate_cons (hv : v.ConsistsOf (e :: es)) :
    v.iterate f s =
      match f e s with
      | some (.ok r, t) => accumulate f (joined r []) es t
      | some (.error err, t) => some (.error err, t)
      | none => none := by
  rw [iterate, elements?_of_consistsOf hv]
  simp only [joined_nil]
  rw [Run.bind_apply]
  rcases f e s with _ | ⟨_ | r, t⟩ <;> rfl

/-- **An iteration succeeds** if all calls do and the results have a sum. -/
theorem iterate_eq_ok (hv : v.ConsistsOf es) {result : Value} :
    v.iterate f s = some (.ok result, u) ↔
      ∃ rs, Calls f s es rs u ∧ total? rs = some result := by
  cases es with
  | nil =>
    rw [iterate_nil hv]
    constructor
    · intro h
      cases h
      exact ⟨[], .nil s, rfl⟩
    · rintro ⟨rs, ⟨⟩, htotal⟩
      cases htotal
      rfl
  | cons e es =>
    rw [iterate_cons hv]
    constructor
    · intro h
      rcases hcall : f e s with _ | ⟨err | r, t⟩ <;> rw [hcall] at h
      · cases h
      · cases h
      · obtain ⟨rs, hcalls, hrs, rfl⟩ := accumulate_eq_ok.mp h
        exact ⟨r :: rs, .cons hcall hcalls, total?_cons.mpr ⟨hrs, rfl⟩⟩
    · rintro ⟨rs, hcalls, htotal⟩
      cases hcalls with
      | cons hcall hcalls =>
        obtain ⟨hrs, rfl⟩ := total?_cons.mp htotal
        rw [hcall]
        exact accumulate_eq_ok.mpr ⟨_, hcalls, hrs, rfl⟩

/-- **An iteration fails** at the first element whose call fails, or whose result cannot be added to the sum
of those before. -/
theorem iterate_eq_error (hv : v.ConsistsOf es) {err : Error} :
    v.iterate f s = some (.error err, u) ↔
      ∃ done e rest rs t total, es = done ++ e :: rest ∧ Calls f s done rs t ∧
        total? rs = some total ∧
        (f e t = some (.error err, u) ∨
          done ≠ [] ∧ err = .cannotAccumulate ∧
            ∃ r cause, f e t = some (.ok r, u) ∧ total.add r = .error cause) := by
  cases es with
  | nil =>
    rw [iterate_nil hv]
    constructor
    · intro h
      cases h
    · rintro ⟨done, e, rest, rs, t, total, hsplit, -⟩
      exact absurd hsplit (List.append_ne_nil_of_right_ne_nil done (List.cons_ne_nil _ _)).symm
  | cons e es =>
    rw [iterate_cons hv]
    constructor
    · intro h
      rcases hcall : f e s with _ | ⟨err' | r, t⟩ <;> rw [hcall] at h
      · cases h
      · cases h
        exact ⟨[], e, es, [], s, .null, rfl, .nil s, rfl, Or.inl hcall⟩
      · obtain ⟨done, e', rest, rs, t', rfl, hcalls, hrs, hend⟩ := accumulate_eq_error.mp h
        refine ⟨e :: done, e', rest, r :: rs, t', joined r rs, rfl, .cons hcall hcalls,
          total?_cons.mpr ⟨hrs, rfl⟩, hend.imp_right ?_⟩
        rintro ⟨rfl, r', hcall', hr'⟩
        obtain ⟨cause, hadd⟩ := add_joined_of_not rs hr'
        -- the sum of the results before is one that this result does not join
        exact ⟨List.cons_ne_nil _ _, rfl, r', cause, hcall', hadd⟩
    · rintro ⟨done, e', rest, rs, t', total, hsplit, hcalls, htotal, hend⟩
      cases hcalls with
      | nil =>
        obtain ⟨rfl, rfl⟩ := List.cons.inj hsplit
        rw [hend.resolve_right fun h => h.1 rfl]
      | @cons _ _ _ _ r done rs hcall hcalls =>
        obtain ⟨rfl, rfl⟩ := List.cons.inj hsplit
        obtain ⟨hrs, rfl⟩ := total?_cons.mp htotal
        rw [hcall]
        refine accumulate_eq_error.mpr ⟨done, e', rest, rs, t', rfl, hcalls, hrs, hend.imp_right ?_⟩
        rintro ⟨-, rfl, r', cause, hcall', hadd⟩
        refine ⟨rfl, r', hcall', fun hr' => ?_⟩
        cases (add_joined rs hr').symm.trans hadd

/-! ### The elements themselves -/

/-- A visitor that gives back what it is called on. -/
theorem calls_pure (s : σ) : ∀ es : List Value, Calls (fun e => pure e) s es es s
  | [] => .nil s
  | _ :: es => .cons rfl (calls_pure s es)

/-- A set that fell apart is put together again. -/
theorem total?_singletons {α : Type} [DecidableEq α] {value : OrderedSet α → Value}
    (elementsIn : Value → List α) (hjoins : ∀ a b, Joins (value a) (value b))
    (hjoined : ∀ a later,
      joined (value a) later = value (OrderedSet.ofList (a.toList ++ later.flatMap elementsIn)))
    (helements : ∀ a, elementsIn (value a) = a.toList) {set : OrderedSet α} (hset : set.toList ≠ []) :
    total? (set.toList.map fun a => value (OrderedSet.singleton a)) = some (value set) := by
  obtain ⟨a, rest, hlist⟩ := List.exists_cons_of_ne_nil hset
  have hrest : (rest.map fun a => value (OrderedSet.singleton a)).flatMap elementsIn = rest := by
    simp only [List.flatMap_map, helements]
    exact List.flatMap_singleton' rest
  rw [hlist, List.map_cons, total?_cons]
  constructor
  · intro r hr
    obtain ⟨b, -, rfl⟩ := List.mem_map.mp hr
    exact hjoins _ _
  · have hcollect : OrderedSet.ofList (a :: rest) = set := hlist ▸ OrderedSet.ofList_toList set
    rw [hjoined, hrest, ← hcollect]
    rfl

end Rounds

end Value

open Visitor Value

/-- **Iterating over a collection.** The visitor is called on the elements in their order.

* If all calls succeed and the results have a sum, all elements are visited, and the sum is the
  result. There is always a sum if there is at most one element. For more, the first result has to be
  a collection, and the others have to join it.
* The iteration fails if a call fails, with the error of that call, or if a result after the first one
  cannot be added to the sum of those before it. The visitor is then called on no further element.

Strings, lists, sets of nodes and sets of edges can be iterated over. A set of nodes or edges that has
an element is put together again by the visitor that gives back each element. -/
theorem iterate_exact {σ : Type} (f : Visitor σ) {v : Value} {es : List Value}
    (hv : v.ConsistsOf es) (s : σ) :
    (∀ result u called, v.iterate f.noting (s, []) = some (.ok result, u, called) ↔
      called = es ∧ ∃ rs, Calls f s es rs u ∧ total? rs = some result) ∧
    (∀ err u called, v.iterate f.noting (s, []) = some (.error err, u, called) ↔
      ∃ done e rest rs t total, es = done ++ e :: rest ∧ called = done ++ [e] ∧
        Calls f s done rs t ∧ total? rs = some total ∧
        (f e t = some (.error err, u) ∨
          done ≠ [] ∧ err = .cannotAccumulate ∧
            ∃ r cause, f e t = some (.ok r, u) ∧ total.add r = .error cause)) ∧
    v.iterate f s = (v.iterate f.noting (s, [])).map (fun p => (p.1, p.2.1)) ∧
    (v.kind = .nodes ∨ v.kind = .edges → es ≠ [] →
      v.iterate (fun e => (pure e : Run Error σ Value)) s = some (.ok v, s)) := by
  refine ⟨fun result u called => ?_, fun err u called => ?_, (iterate_forgets f v s []).symm,
    fun hkind hes => ?_⟩
  · rw [iterate_eq_ok hv]
    simp only [calls_noting, List.nil_append, and_assoc, exists_and_left]
  · rw [iterate_eq_error hv]
    constructor
    · rintro ⟨done, e, rest, rs, ⟨t, before⟩, total, hsplit, hcalls, htotal, hend⟩
      obtain ⟨rfl, hcalls⟩ := calls_noting.mp hcalls
      rcases hend with hcall | ⟨hdone, herr, r, cause, hcall, hadd⟩
      · obtain ⟨hcalled, hcall⟩ := noting_eq_some.mp hcall
        exact ⟨before, e, rest, rs, t, total, hsplit, hcalled, hcalls, htotal, Or.inl hcall⟩
      · obtain ⟨hcalled, hcall⟩ := noting_eq_some.mp hcall
        exact ⟨before, e, rest, rs, t, total, hsplit, hcalled, hcalls, htotal,
          Or.inr ⟨hdone, herr, r, cause, hcall, hadd⟩⟩
    · rintro ⟨done, e, rest, rs, t, total, hsplit, hcalled, hcalls, htotal, hend⟩
      refine ⟨done, e, rest, rs, (t, done), total, hsplit, calls_noting.mpr ⟨rfl, hcalls⟩, htotal, ?_⟩
      rcases hend with hcall | ⟨hdone, herr, r, cause, hcall, hadd⟩
      · exact Or.inl (noting_eq_some.mpr ⟨hcalled, hcall⟩)
      · exact Or.inr ⟨hdone, herr, r, cause, noting_eq_some.mpr ⟨hcalled, hcall⟩, hadd⟩
  · refine (iterate_eq_ok hv).mpr ⟨es, calls_pure s es, ?_⟩
    cases hv with
    | strings | list => exact absurd hkind (by simp [kind])
    | nodes ns =>
      exact total?_singletons nodesIn (fun _ _ => by simp [Joins, kind])
        (fun _ _ => rfl) (fun _ => rfl) fun hnil => hes (by rw [hnil]; rfl)
    | edges es =>
      exact total?_singletons edgesIn (fun _ _ => by simp [Joins, kind])
        (fun _ _ => rfl) (fun _ => rfl) fun hnil => hes (by rw [hnil]; rfl)

/-- A visitor that gives back the first node, nothing for the second and no set for the third is not
called on the fourth. One that gives back all four collects them again. -/
theorem iterate_exact_refused :
    let f : Visitor Nat := fun e => ExceptT.mk fun i =>
      some (.ok (if i = 0 then e else if i = 1 then .null else .bool true), i + 1)
    let node (i : Nat) : Value := .nodes (OrderedSet.singleton ⟨0, i⟩)
    let nodes : Value := .nodes (OrderedSet.ofList [⟨0, 0⟩, ⟨0, 1⟩, ⟨0, 2⟩, ⟨0, 3⟩])
    nodes.iterate f.noting (0, []) =
      some (.error .cannotAccumulate, 3, [node 0, node 1, node 2]) ∧
    nodes.iterate (fun e => (pure e : Run Error Nat Value)) 0 = some (.ok nodes, 0) := by
  intro f node nodes
  have hv : nodes.ConsistsOf [node 0, node 1, node 2, node 3] := .nodes _
  obtain ⟨-, hfails, -, hcollects⟩ := iterate_exact f hv 0
  refine ⟨(hfails _ _ _).mpr ⟨[node 0, node 1], node 2, [node 3], [node 0, .null], 2, node 0, rfl, rfl,
    .cons rfl (.cons rfl (.nil _)), rfl, ?_⟩, hcollects (Or.inl rfl) (List.cons_ne_nil _ _)⟩
  exact Or.inr ⟨List.cons_ne_nil _ _, rfl, .bool true, .incompatible .nodes .bool, rfl, rfl⟩

end GraphQuery
