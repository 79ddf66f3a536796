import Mathlib.Data.List.Permutation
import GraphQuery.Proofs.Eval.Compatible
import GraphQuery.Proofs.Graph.Reachability

/-!
# Where walks lead

A walk whose tests are plain functions comes to the ends of **trails**: sequences of edges, one for each
step, each of which leaves the node that the one before arrives at, such that every step accepts its edge and
the node behind it (`Graphs.Trail`).

From a node, one step **arrives** at a list of nodes, by position and perhaps with repetitions, which comes
from the accepted edges alone (`Graphs.arrivals`). From several nodes it arrives at these lists in turn, and
the set that it builds has each node where it first occurs (`ComesTo.stepFrom`). So the order of the result
is that of first occurrences in a list, and this list says where each node was discovered.

The methods have tests that are evaluations. What they come to is told by the same induction: it is carried
out for any relation between computations and values that sequencing keeps (`ComesTo`), of which equality is
one and `Eval.Computes` another.

A walk that has been made may also be continued. To take some steps and then others is to take all of them,
as computations of any lawful monad (`Graphs.walk_append`), and the arguments of the method can be cut after
every second one.

## Main statements

* `Graphs.mem_walk`, `Graphs.pairwise_stepFrom`: the ends of trails, and their order.
* `walk_exact`: walks, the steps that arguments stand for, and the method.
* `walk_split`: the method called once, and called twice.
-/

namespace GraphQuery

/-! ### The order of an ordered set -/

namespace OrderedSet

variable {α : Type} [DecidableEq α]

/-- What a list is collected to has the members of the list. -/
@[simp] theorem mem_ofList (as : List α) (a : α) : a ∈ (ofList as).toList ↔ a ∈ as := by
  rw [ofList, mem_insertAll]
  exact or_iff_right List.not_mem_nil

/-- The elements stand in the order of their first occurrences. -/
theorem pairwise_ofList (as : List α) :
    (ofList as).toList.Pairwise fun a b => as.idxOf a < as.idxOf b := by
  induction as using List.reverseRecOn with
  | nil => exact .nil
  | append_singleton as c ih =>
    have hlast : ofList (as ++ [c]) = (ofList as).insert c := List.foldl_concat ..
    -- what occurred before occurs at the same place
    have hbefore : ∀ a ∈ as, (as ++ [c]).idxOf a = as.idxOf a := fun a ha =>
      List.idxOf_append_of_mem ha
    have hold : (ofList as).toList.Pairwise fun a b => (as ++ [c]).idxOf a < (as ++ [c]).idxOf b := by
      refine ih.imp_of_mem fun ha hb hlt => ?_
      rwa [hbefore _ ((mem_ofList as _).mp ha), hbefore _ ((mem_ofList as _).mp hb)]
    rw [hlast, toList_insert]
    by_cases hc : c ∈ (ofList as).toList
    · rwa [if_pos hc]
    · rw [if_neg hc, List.pairwise_append]
      refine ⟨hold, List.pairwise_singleton _ _, fun a ha b hb => ?_⟩
      obtain rfl := List.mem_singleton.mp hb
      have ha := (mem_ofList as a).mp ha
      rw [mem_ofList] at hc
      rw [hbefore a ha, List.idxOf_append_of_notMem hc, List.idxOf_cons_self, Nat.add_zero]
      exact List.idxOf_lt_length_of_mem ha

end OrderedSet

namespace Graphs

/-! ### Trails -/

/-- **A trail:** edges that lead from one node to another, one for each step, each of which takes its edge
and the node behind it. -/
inductive Trail (gs : Graphs) : List (Step Id) → Node → List Edge → Node → Prop where
  /-- Without a step, one stays. -/
  | nil (n : Node) : gs.Trail [] n [] n
  /-- A step that takes its edge, and then the other steps. -/
  | cons {step : Step Id} {steps : List (Step Id)} {e : Edge} {es : List Edge} {v : Node}
      (edge : gs.HasEdge e) (follow : step.follow e = true) (accept : step.accept (gs.sink e) = true)
      (rest : gs.Trail steps (gs.sink e) es v) :
      gs.Trail (step :: steps) (gs.source e) (e :: es) v

/-- The nodes that one step arrives at from a node, with repetitions. -/
def arrivals (gs : Graphs) (step : Step Id) (n : Node) : List Node :=
  ((((gs.outgoing n).filter fun e => (step.follow e).run).mergeSort fun a b =>
    (gs.edge a).sink ≤ (gs.edge b).sink).map gs.sink).filter fun k => (step.accept k).run

/-- The position, among several nodes, of the first from which an accepted edge leads to a node. -/
def discoveredAt (gs : Graphs) (follow : Edge → Bool) (nodes : List Node) (v : Node) : Nat :=
  nodes.findIdx fun n => (gs.outgoing n).any fun e => follow e && gs.sink e == v

end Graphs

/-! ### Tests that come to values -/

/-- A relation between computations and the values that they come to, one after the other. -/
structure ComesTo {M : Type → Type} [Monad M] (R : (α : Type) → M α → α → Prop) : Prop where
  /-- A value comes to itself. -/
  pure : ∀ {α : Type} (a : α), R α (Pure.pure a) a
  /-- A computation that comes to a value goes on with it. -/
  bind : ∀ {α β : Type} {m : M α} {a : α} {f : α → M β} {b : β}, R α m a → R β (f a) b →
    R β (m >>= f) b

/-- Plain functions come to their values. -/
theorem comesTo_id : ComesTo (M := Id) fun _ x a => x = a where
  pure _ := rfl
  bind := by
    rintro α β _ a f b rfl hf
    exact hf

/-- Evaluations come to what they compute. -/
theorem Eval.comesTo_computes (I : State → Prop) : ComesTo fun _ x a => Eval.Computes I x a where
  pure := Eval.computes_pure
  bind := Eval.Computes.bind

namespace ComesTo

variable {M : Type → Type} [Monad M] {R : (α : Type) → M α → α → Prop} (hR : ComesTo R)

include hR

/-- A selection comes to the members that the tests accept. -/
theorem selectM {α : Type} {p : α → M Bool} {q : α → Bool} {as : List α}
    (hp : ∀ a ∈ as, R Bool (p a) (q a)) : R _ (GraphQuery.selectM p as) (as.filter q) := by
  induction as with
  | nil => exact hR.pure _
  | cons a as ih =>
    obtain ⟨ha, has⟩ := List.forall_mem_cons.mp hp
    rw [List.filter_cons]
    refine hR.bind ha ?_
    cases q a with
    | false => exact ih has
    | true => exact hR.bind (ih has) (hR.pure _)

/-- Edges lead to the insertion of the nodes that they arrive at. -/
theorem arrive {gs : Graphs} {accept : Node → M Bool} {accept' : Node → Bool} {edges : List Edge}
    (haccept : ∀ e ∈ edges, R Bool (accept (gs.sink e)) (accept' (gs.sink e)))
    (found : OrderedSet Node) :
    R _ (gs.arrive accept found edges) (found.insertAll ((edges.map gs.sink).filter accept')) := by
  induction edges generalizing found with
  | nil => exact hR.pure _
  | cons e rest ih =>
    obtain ⟨he, hrest⟩ := List.forall_mem_cons.mp haccept
    rw [List.map_cons, List.filter_cons]
    unfold Graphs.arrive
    by_cases hfound : gs.sink e ∈ found.toList
    · -- the node is there, and inserting it would change nothing
      have hinsert : found.insert (gs.sink e) = found := by
        apply OrderedSet.ext
        rw [OrderedSet.toList_insert, if_pos hfound]
      simp only [if_pos hfound]
      split
      · change R _ _ ((found.insert (gs.sink e)).insertAll _)
        rw [hinsert]
        exact ih hrest found
      · exact ih hrest found
    · simp only [if_neg hfound]
      refine hR.bind he ?_
      cases accept' (gs.sink e) with
      | false => exact ih hrest found
      | true => exact ih hrest (found.insert (gs.sink e))

/-- **A step** leads to the insertion of what it arrives at from each node in turn. -/
theorem stepFrom {gs : Graphs} {stepM : Step M} {step : Step Id} {nodes : List Node}
    (hfollow : ∀ n ∈ nodes, ∀ e ∈ gs.outgoing n, R Bool (stepM.follow e) (step.follow e))
    (haccept : ∀ n ∈ nodes, ∀ e ∈ gs.outgoing n,
      R Bool (stepM.accept (gs.sink e)) (step.accept (gs.sink e)))
    (found : OrderedSet Node) :
    R _ (gs.stepFrom stepM found nodes) (found.insertAll (nodes.flatMap (gs.arrivals step))) := by
  induction nodes generalizing found with
  | nil => exact hR.pure _
  | cons n nodes ih =>
    obtain ⟨hn, hnodes⟩ := List.forall_mem_cons.mp hfollow
    obtain ⟨hn', hnodes'⟩ := List.forall_mem_cons.mp haccept
    have hmore : found.insertAll ((n :: nodes).flatMap (gs.arrivals step)) =
        (found.insertAll (gs.arrivals step n)).insertAll (nodes.flatMap (gs.arrivals step)) := by
      rw [List.flatMap_cons]
      exact List.foldl_append
    rw [hmore]
    unfold Graphs.stepFrom
    refine hR.bind (hR.selectM hn) (hR.bind (hR.arrive (fun e he => ?_) found) (ih hnodes hnodes' _))
    exact hn' e (List.mem_filter.mp (List.mem_mergeSort.mp he)).1

end ComesTo

namespace Graphs

variable {gs : Graphs}

/-- One step, with tests that are plain functions. -/
theorem stepFrom_eq (gs : Graphs) (step : Step Id) (nodes : List Node) :
    gs.stepFrom step OrderedSet.empty nodes = OrderedSet.ofList (nodes.flatMap (gs.arrivals step)) :=
  comesTo_id.stepFrom (fun _ _ _ _ => rfl) (fun _ _ _ _ => rfl) _

section Ends

variable (hgs : gs.Consistent)

include hgs

/-! ### The ends of trails -/

/-- A step arrives at a node along an edge, if it accepts both. -/
theorem mem_arrivals {step : Step Id} {n v : Node} :
    v ∈ gs.arrivals step n ↔ gs.Leads step.follow n v ∧ step.accept v = true := by
  simp only [arrivals, List.mem_filter, List.mem_map, List.mem_mergeSort, mem_outgoing hgs]
  constructor
  · rintro ⟨⟨e, ⟨⟨hedge, hsource⟩, hfollow⟩, hsink⟩, haccept⟩
    exact ⟨⟨e, hedge, hsource, hsink, hfollow⟩, haccept⟩
  · rintro ⟨⟨e, hedge, hsource, hsink, hfollow⟩, haccept⟩
    exact ⟨⟨e, ⟨⟨hedge, hsource⟩, hfollow⟩, hsink⟩, haccept⟩

/-- A step from several nodes comes to what it arrives at from one of them. -/
theorem mem_stepFrom {step : Step Id} {nodes : List Node} {v : Node} :
    v ∈ (gs.stepFrom step OrderedSet.empty nodes).toList ↔
      ∃ n ∈ nodes, gs.Leads step.follow n v ∧ step.accept v = true := by
  rw [stepFrom_eq, OrderedSet.mem_ofList, List.mem_flatMap]
  simp only [mem_arrivals hgs]

/-- **A walk comes to the ends of trails,** by induction on its steps. -/
theorem mem_walk {steps : List (Step Id)} {start : OrderedSet Node} {v : Node} :
    v ∈ (gs.walk steps start).toList ↔ ∃ n ∈ start.toList, ∃ es, gs.Trail steps n es v := by
  induction steps generalizing start with
  -- without a step, there is one trail, which stays at its node
  | nil =>
    constructor
    · intro hv
      exact ⟨v, hv, [], .nil v⟩
    · rintro ⟨n, hn, es, htrail⟩
      cases htrail
      exact hn
  | cons step steps ih =>
    change v ∈ (gs.walk steps (gs.stepFrom step OrderedSet.empty start.toList)).toList ↔ _
    rw [ih]
    constructor
    · -- a trail from a node that the step arrives at has one edge more
      rintro ⟨k, hk, es, htrail⟩
      obtain ⟨n, hn, ⟨e, hedge, rfl, rfl, hfollow⟩, haccept⟩ := (mem_stepFrom hgs).mp hk
      exact ⟨gs.source e, hn, e :: es, .cons hedge hfollow haccept htrail⟩
    · rintro ⟨n, hn, es, htrail⟩
      cases htrail with
      | @cons _ _ e es _ hedge hfollow haccept hrest =>
        exact ⟨gs.sink e, (mem_stepFrom hgs).mpr ⟨_, hn, ⟨e, hedge, rfl, rfl, hfollow⟩, haccept⟩,
          es, hrest⟩

/-! ### The order of discovery -/

/-- One looks for a node among the ends of the edges. -/
theorem any_outgoing {follow : Edge → Bool} {n v : Node} :
    ((gs.outgoing n).any fun e => follow e && gs.sink e == v) = true ↔ gs.Leads follow n v := by
  simp only [List.any_eq_true, mem_outgoing hgs, Bool.and_eq_true, beq_iff_eq]
  constructor
  · rintro ⟨e, ⟨hedge, hsource⟩, hfollow, hsink⟩
    exact ⟨e, hedge, hsource, hsink, hfollow⟩
  · rintro ⟨e, hedge, hsource, hsink, hfollow⟩
    exact ⟨e, ⟨hedge, hsource⟩, hfollow, hsink⟩

omit hgs in
/-- From one node, a step arrives at nodes by their position. -/
theorem pairwise_arrivals (step : Step Id) (n : Node) :
    (gs.arrivals step n).Pairwise fun u v => u.index ≤ v.index := by
  apply List.Pairwise.filter
  exact List.pairwise_map.mpr (gs.pairwise_mergeSort_sink _)

/-- Two nodes to which one step leads from the same node. -/
theorem index_lt_of_idxOf_lt {step : Step Id} {n u v : Node} (hu : u ∈ gs.arrivals step n)
    (hv : v ∈ gs.arrivals step n)
    (hlt : (gs.arrivals step n).idxOf u < (gs.arrivals step n).idxOf v) : u.index < v.index := by
  have hle : u.index ≤ v.index := by
    have hpair := List.pairwise_iff_getElem.mp (gs.pairwise_arrivals step n) _ _
      (List.idxOf_lt_length_of_mem hu) (List.idxOf_lt_length_of_mem hv) hlt
    rwa [List.getElem_idxOf, List.getElem_idxOf] at hpair
  -- they are nodes of one graph, so two with one index would be the same
  obtain ⟨⟨d, -, hdsource, rfl, -⟩, -⟩ := (mem_arrivals hgs).mp hu
  obtain ⟨⟨e, -, hesource, rfl, -⟩, -⟩ := (mem_arrivals hgs).mp hv
  have hgraph : d.graph = e.graph := congrArg Node.graph (hdsource.trans hesource.symm)
  refine Nat.lt_of_le_of_ne hle fun heq => ?_
  have hindex : (gs.edge d).sink = (gs.edge e).sink := heq
  have hsame : gs.sink d = gs.sink e := by
    rw [sink, sink, hgraph, hindex]
  rw [hsame] at hlt
  exact Nat.lt_irrefl _ hlt

/-- What occurs first among all arrivals was discovered first. -/
theorem discoveredAt_of_idxOf_lt {step : Step Id} {u v : Node} (hu : step.accept u = true)
    (hv : step.accept v = true) {nodes : List Node}
    (hlt : (nodes.flatMap (gs.arrivals step)).idxOf u < (nodes.flatMap (gs.arrivals step)).idxOf v) :
    gs.discoveredAt step.follow nodes u < gs.discoveredAt step.follow nodes v ∨
      gs.discoveredAt step.follow nodes u = gs.discoveredAt step.follow nodes v ∧
        u.index < v.index := by
  induction nodes with
  | nil => exact absurd hlt (Nat.lt_irrefl _)
  | cons n nodes ih =>
    have hmem : ∀ w, step.accept w = true → (w ∈ gs.arrivals step n ↔
        ((gs.outgoing n).any fun e => step.follow e && gs.sink e == w) = true) := by
      intro w hw
      rw [mem_arrivals hgs, any_outgoing hgs]
      exact and_iff_left hw
    rw [List.flatMap_cons] at hlt
    unfold discoveredAt at ih ⊢
    rw [List.findIdx_cons, List.findIdx_cons]
    -- where the two are discovered depends on whether one of them can be reached from the first node
    by_cases hun : u ∈ gs.arrivals step n <;> by_cases hvn : v ∈ gs.arrivals step n
    · -- both come from this node
      rw [List.idxOf_append_of_mem hun, List.idxOf_append_of_mem hvn] at hlt
      rw [(hmem u hu).mp hun, (hmem v hv).mp hvn]
      exact Or.inr ⟨rfl, index_lt_of_idxOf_lt hgs hun hvn hlt⟩
    · rw [(hmem u hu).mp hun, Bool.eq_false_iff.mpr fun h => hvn ((hmem v hv).mpr h)]
      exact Or.inl (Nat.succ_pos _)
    · -- the second comes from this node, so it cannot be later than the first
      rw [List.idxOf_append_of_notMem hun, List.idxOf_append_of_mem hvn] at hlt
      have hlength := List.idxOf_lt_length_of_mem hvn
      omega
    -- none comes from this node, so the others tell
    · rw [List.idxOf_append_of_notMem hun, List.idxOf_append_of_notMem hvn] at hlt
      rw [Bool.eq_false_iff.mpr fun h => hun ((hmem u hu).mpr h),
        Bool.eq_false_iff.mpr fun h => hvn ((hmem v hv).mpr h)]
      have hrest := ih (by omega)
      simp only [cond_false]
      omega

/-- **The order of a step** is that of discovery. -/
theorem pairwise_stepFrom (step : Step Id) (nodes : List Node) :
    (gs.stepFrom step OrderedSet.empty nodes).toList.Pairwise fun u v =>
      gs.discoveredAt step.follow nodes u < gs.discoveredAt step.follow nodes v ∨
        gs.discoveredAt step.follow nodes u = gs.discoveredAt step.follow nodes v ∧
          u.index < v.index := by
  have haccept : ∀ w ∈ (gs.stepFrom step OrderedSet.empty nodes).toList, step.accept w = true := by
    intro w hw
    obtain ⟨n, -, -, hw⟩ := (mem_stepFrom hgs).mp hw
    exact hw
  rw [stepFrom_eq] at haccept ⊢
  exact (OrderedSet.pairwise_ofList _).imp_of_mem fun hu hv hlt =>
    discoveredAt_of_idxOf_lt hgs (haccept _ hu) (haccept _ hv) hlt

end Ends

/-! ### Steps in two parts -/

/-- **A walk may be continued.** -/
theorem walk_append {m : Type → Type} [Monad m] [LawfulMonad m] (gs : Graphs) (before after : List (Step m))
    (nodes : OrderedSet Node) :
    gs.walk (before ++ after) nodes = gs.walk before nodes >>= gs.walk after := by
  induction before generalizing nodes with
  | nil => exact (pure_bind _ _).symm
  | cons step steps ih =>
    rw [List.cons_append, walk, walk, bind_assoc]
    congr 1
    funext next
    exact ih next

end Graphs

/-! ### The steps that arguments stand for -/

/-- The value may be a test of nodes or edges: a closure, a string or a truth value. -/
def Value.IsTest : Value → Prop
  | .closure _ | .string _ | .bool _ => True
  | _ => False

/-- Such values stand for predicates. -/
theorem Predicate.ofValue_of_isTest {v : Value} (hv : v.IsTest) (method selector : String) :
    ∃ p, Predicate.ofValue method selector v = .ok p := by
  cases v with
  | closure c => exact ⟨_, rfl⟩
  | string s => exact ⟨_, rfl⟩
  | bool b => exact ⟨_, rfl⟩
  | _ => exact hv.elim

/-- What is computed in two parts succeeds if both parts do. -/
theorem Except.bind_eq_ok {ε α β : Type} {r : Except ε α} {f : α → Except ε β} {b : β} :
    r >>= f = .ok b ↔ ∃ a, r = .ok a ∧ f a = .ok b := by
  cases r with
  | error e => exact ⟨nofun, nofun⟩
  | ok a =>
    constructor
    · exact fun h => ⟨a, rfl, h⟩
    · rintro ⟨_, ⟨⟩, h⟩
      exact h

namespace Method

/-- The tests of a step are those of its arguments: one of edges, and one of nodes that may be missing. -/
def StandsFor (args : List Value) (i : Nat) (p : Predicate × Predicate) : Prop :=
  (∃ e, args[2 * i]? = some e ∧ Predicate.ofEdgeValue "walk" e = .ok p.1) ∧
    match args[2 * i + 1]? with
    | some n => Predicate.ofNodeValue "walk" n = .ok p.2
    | none => p.2 = .constant true

/-- **Arguments are taken in pairs.** -/
theorem walkSteps_eq_ok {args : List Value} {preds : List (Predicate × Predicate)} :
    walkSteps args = .ok preds ↔
      preds.length = (args.length + 1) / 2 ∧ ∀ i p, preds[i]? = some p → StandsFor args i p := by
  induction args using walkSteps.induct generalizing preds with
  | case1 =>
    -- the cases are those of the recursion: no argument is left, or one edge test, or a pair
    rw [walkSteps]
    constructor
    · rintro ⟨⟩
      exact ⟨rfl, nofun⟩
    · rintro ⟨hlength, -⟩
      rw [List.eq_nil_of_length_eq_zero hlength]
  | case2 e =>
    rw [walkSteps, Except.bind_eq_ok]
    constructor
    · rintro ⟨follow, hfollow, ⟨⟩⟩
      refine ⟨by simp, fun i p hp => ?_⟩
      obtain ⟨rfl, rfl⟩ : i = 0 ∧ (follow, .constant true) = p := by
        cases i with
        | zero => exact ⟨rfl, Option.some.inj hp⟩
        | succ i => exact nomatch hp
      exact ⟨⟨e, rfl, hfollow⟩, rfl⟩
    · rintro ⟨hlength, hpreds⟩
      obtain ⟨⟨follow, accept⟩, rfl⟩ := List.length_eq_one_iff.mp (hlength.trans (by simp))
      obtain ⟨⟨_, ⟨⟩, hfollow⟩, haccept⟩ := hpreds 0 _ rfl
      exact ⟨follow, hfollow, by rw [show accept = .constant true from haccept]; rfl⟩
  | case3 e n rest ih =>
    simp only [walkSteps, Except.bind_eq_ok]
    constructor
    · rintro ⟨follow, hfollow, accept, haccept, preds, hpreds, ⟨⟩⟩
      obtain ⟨hlength, hrest⟩ := ih.mp hpreds
      refine ⟨?_, fun i p hp => ?_⟩
      · rw [List.length_cons, hlength, List.length_cons, List.length_cons]
        omega
      · cases i with
        | zero =>
          cases hp
          exact ⟨⟨e, rfl, hfollow⟩, haccept⟩
        | succ i => exact hrest i p hp
    · rintro ⟨hlength, hpreds⟩
      rw [List.length_cons, List.length_cons] at hlength
      -- the predicates that are given begin with those of the first pair, by their number
      obtain ⟨⟨follow, accept⟩, preds, rfl⟩ := List.exists_cons_of_length_pos (l := preds) (by omega)
      obtain ⟨⟨_, ⟨⟩, hfollow⟩, haccept⟩ := hpreds 0 _ rfl
      refine ⟨follow, hfollow, accept, haccept, preds, ih.mpr ⟨?_, fun i p hp => ?_⟩, rfl⟩
      · rw [List.length_cons] at hlength
        omega
      · exact hpreds (i + 1) p hp

/-- Tests stand for steps. -/
theorem walkSteps_of_isTest {args : List Value} (hargs : ∀ v ∈ args, v.IsTest) :
    ∃ preds, walkSteps args = .ok preds := by
  induction args using walkSteps.induct with
  | case1 => exact ⟨[], rfl⟩
  | case2 e =>
    obtain ⟨follow, hfollow⟩ :=
      Predicate.ofValue_of_isTest (hargs e List.mem_cons_self) "walk" "label"
    exact ⟨[(follow, .constant true)], Except.bind_eq_ok.mpr ⟨follow, hfollow, rfl⟩⟩
  | case3 e n rest ih =>
    obtain ⟨he, hn, hrest⟩ : e.IsTest ∧ n.IsTest ∧ ∀ v ∈ rest, v.IsTest := by
      simpa only [List.forall_mem_cons] using hargs
    obtain ⟨follow, hfollow⟩ := Predicate.ofValue_of_isTest he "walk" "label"
    obtain ⟨accept, haccept⟩ := Predicate.ofValue_of_isTest hn "walk" "id"
    obtain ⟨preds, hpreds⟩ := ih hrest
    simp only [walkSteps, Except.bind_eq_ok]
    exact ⟨_, follow, hfollow, accept, haccept, preds, hpreds, rfl⟩

/-- Arguments that come after an even number of others stand for steps of their own. -/
theorem walkSteps_append {before after : List Value} {steps : List (Predicate × Predicate)}
    (heven : before.length % 2 = 0) (hafter : walkSteps after = .ok steps) :
    walkSteps (before ++ after) = (do return (← walkSteps before) ++ steps) := by
  induction before using walkSteps.induct with
  | case1 => exact hafter
  | case2 e => exact absurd heven (by simp)
  | case3 e n rest ih =>
    rw [List.length_cons, List.length_cons] at heven
    simp only [List.cons_append, walkSteps, ih (by omega), bind_assoc, pure_bind]

/-- The tests of a step, as evaluations. -/
def stepOf (call : Caller) (cx : Context) (p : Predicate × Predicate) : Step Eval :=
  ⟨p.1.testEdge call cx, p.2.testNode call cx⟩

/-- With arguments that stand for steps, the method is a walk. -/
theorem runWalk_of_steps {args : List Value} {preds : List (Predicate × Predicate)}
    (hargs : walkSteps args = .ok preds) (call : Caller) (cx : Context) (nodes : OrderedSet Node) :
    runWalk call cx nodes args =
      (do return .nodes (← cx.graphs.walk (preds.map (stepOf call cx)) nodes)) := by
  unfold runWalk
  rw [hargs]
  exact pure_bind preds _

/-- **The method may be called again** with the arguments that are left. -/
theorem runWalk_append (call : Caller) (cx : Context) (nodes : OrderedSet Node)
    {before after : List Value} (heven : before.length % 2 = 0) (hafter : ∀ v ∈ after, v.IsTest)
    {next : Value → Eval Value} (hnext : ∀ found, next (.nodes found) = runWalk call cx found after) :
    runWalk call cx nodes (before ++ after) = runWalk call cx nodes before >>= next := by
  obtain ⟨steps, hsteps⟩ := walkSteps_of_isTest hafter
  have happend := walkSteps_append heven hsteps
  rcases hbefore : walkSteps before with e | first
  · -- the first arguments are refused before a step is made
    rw [hbefore] at happend
    unfold runWalk
    rw [happend, hbefore]
    rfl
  · rw [hbefore] at happend
    have hboth : walkSteps (before ++ after) = .ok (first ++ steps) := happend
    rw [runWalk_of_steps hboth, runWalk_of_steps hbefore, List.map_append, Graphs.walk_append,
      bind_assoc, bind_assoc]
    congr 1
    funext found
    rw [pure_bind, hnext, runWalk_of_steps hsteps]

end Method

/-! ### What the method comes to -/

/-- The tests of a step compute those of another one, on what is in the graphs. -/
structure Method.StepComputes (I : State → Prop) (call : Caller) (cx : Context)
    (p : Predicate × Predicate) (step : Step Id) : Prop where
  /-- The test of edges. -/
  follow : ∀ e, cx.graphs.HasEdge e → Eval.Computes I (p.1.testEdge call cx e) (step.follow e)
  /-- The test of nodes. -/
  accept : ∀ n, cx.graphs.HasNode n → Eval.Computes I (p.2.testNode call cx n) (step.accept n)

/-- The method computes what its walk computes, step by step. -/
theorem Method.computes_walk {I : State → Prop} {call : Caller} {cx : Context}
    (hgs : cx.graphs.Consistent) {preds : List (Predicate × Predicate)} {steps : List (Step Id)}
    (hsteps : List.Forall₂ (Method.StepComputes I call cx) preds steps) (start : OrderedSet Node) :
    Eval.Computes I (cx.graphs.walk (preds.map (Method.stepOf call cx)) start)
      (cx.graphs.walk steps start) := by
  induction hsteps generalizing start with
  | nil => exact Eval.computes_pure _
  | @cons p step preds steps hstep _ ih =>
    have hedge : ∀ n, ∀ e ∈ cx.graphs.outgoing n, cx.graphs.HasEdge e := fun n e he =>
      ((Graphs.mem_outgoing hgs).mp he).1
    have hfirst : Eval.Computes I
        (cx.graphs.stepFrom (Method.stepOf call cx p) OrderedSet.empty start.toList)
        (OrderedSet.ofList (start.toList.flatMap (cx.graphs.arrivals step))) :=
      (Eval.comesTo_computes I).stepFrom (fun n _ e he => hstep.follow e (hedge n e he))
        (fun n _ e he => hstep.accept _ (Graphs.hasNode_sink hgs (hedge n e he))) _
    rw [← Graphs.stepFrom_eq] at hfirst
    exact hfirst.bind (ih _)

/-- **Where walks lead.** In graphs that have been built by additions, a walk with tests that are plain
functions comes to a set, in which a node stands once if a trail leads to it from a start, and not at all
otherwise. Without steps it stays where it is. The last step puts the nodes in the order of discovery: by the
position, in the set before, of the first node from which an accepted edge leads to them, and by their own
position where that is the same.

The method takes its arguments in pairs, as an edge test and a node test; a last node test that is missing
accepts all nodes. If the tests compute plain functions, it comes to what the walk with these comes to. -/
theorem walk_exact {gs : Graphs} (hgs : ∀ g ∈ gs.all, g.Built) (start : OrderedSet Node) :
    (∀ steps : List (Step Id), (gs.walk steps start).toList.Nodup ∧
      ∀ v, v ∈ (gs.walk steps start).toList ↔ ∃ n ∈ start.toList, ∃ es, gs.Trail steps n es v) ∧
    gs.walk (m := Id) [] start = start ∧
    (∀ (steps : List (Step Id)) (last : Step Id),
      (gs.walk (steps ++ [last]) start).toList.Pairwise fun u v =>
        let before : OrderedSet Node := gs.walk steps start
        gs.discoveredAt last.follow before.toList u < gs.discoveredAt last.follow before.toList v ∨
          gs.discoveredAt last.follow before.toList u = gs.discoveredAt last.follow before.toList v ∧
            u.index < v.index) ∧
    (∀ args preds, Method.walkSteps args = .ok preds ↔
      preds.length = (args.length + 1) / 2 ∧
        ∀ i p, preds[i]? = some p → Method.StandsFor args i p) ∧
    ∀ (I : State → Prop) (host : HostLibrary) (call : Caller) (cx : Context) (identity : Nat)
      (f : Value) (args : List Value) (preds : List (Predicate × Predicate)) (steps : List (Step Id)),
      cx.graphs = gs → (Value.nodes start).select gs identity "walk" = .ok f →
      Method.walkSteps args = .ok preds →
      List.Forall₂ (Method.StepComputes I call cx) preds steps →
      Eval.Computes I (f.callWith host call cx args) (.nodes (gs.walk steps start)) := by
  have hgs := Graphs.consistent_of_built hgs
  refine ⟨fun steps => ⟨OrderedSet.nodup _, fun v => Graphs.mem_walk hgs⟩, rfl, fun steps last => ?_,
    fun args preds => Method.walkSteps_eq_ok, ?_⟩
  · rw [Graphs.walk_append]
    exact Graphs.pairwise_stepFrom hgs last _
  · rintro I host call cx identity f args preds steps rfl hf hargs hsteps
    obtain rfl := Except.ok.inj hf
    change Eval.Computes I (Method.runWalk call cx start args) _
    rw [Method.runWalk_of_steps hargs]
    exact (Method.computes_walk hgs hsteps start).bind (Eval.computes_pure _)

/-- Nodes of two graphs, parallel edges and a loop. The nodes of the second graph come first, as they were
given first, and the two of the first graph by position. -/
theorem walk_exact_mixed :
    let g := (((((({} : Graph).addNode "a").addNode "b").addNode "c").addEdge 0 2 "x").addEdge 0 1
      "x").addEdge 0 2 "x"
    let h := (({} : Graph).addNode "d").addEdge 0 0 "x"
    let gs : Graphs := { all := #[g, h] }
    let start : OrderedSet Node := OrderedSet.ofList [⟨1, 0⟩, ⟨0, 0⟩]
    let steps : List (Step Id) := [⟨fun e => (gs.edge e).label == "x", fun _ => true⟩]
    g.Built ∧ h.Built ∧ (gs.walk steps start).toList = [⟨1, 0⟩, ⟨0, 1⟩, ⟨0, 2⟩] ∧
      (∃ n ∈ start.toList, ∃ es, gs.Trail steps n es ⟨0, 2⟩) ∧
      ∀ (host : HostLibrary) (call : Caller),
        Eval.Computes (fun _ => True)
          (Value.callWith host call { graphs := gs, frame := 0 }
            (.ofMethod 0 "walk" 0 none (.walk start)) [.string "x"])
          (.nodes (gs.walk steps start)) := by
  intro g h gs start steps
  have hg : g.Built := by
    refine .addEdge (.addEdge (.addEdge (.addNode (.addNode (.addNode .empty "a") "b") "c")
      ?_ ?_ "x") ?_ ?_ "x") ?_ ?_ "x" <;> decide
  have hh : h.Built := by
    refine .addEdge (.addNode .empty "d") ?_ ?_ "x" <;> decide
  have hall : ∀ k ∈ gs.all, k.Built := by
    intro k hk
    rcases List.mem_pair.mp (Array.mem_toList_iff.mpr hk) with rfl | rfl
    · exact hg
    · exact hh
  have hwalk : (gs.walk steps start).toList = [⟨1, 0⟩, ⟨0, 1⟩, ⟨0, 2⟩] := by cbv
  obtain ⟨hends, -, -, -, hmethod⟩ := walk_exact hall start
  refine ⟨hg, hh, hwalk, ((hends steps).2 ⟨0, 2⟩).mp (by rw [hwalk]; decide), fun host call => ?_⟩
  -- the missing test of nodes is made, too, and accepts them
  refine hmethod _ host call _ 0 _ [.string "x"] _ steps rfl rfl rfl (.cons ⟨?_, ?_⟩ .nil)
  · exact fun e _ => Predicate.computes_matching call rfl fun _ => rfl
  · intro n _ s _
    exact ⟨_, rfl, trivial⟩

/-- **A walk may be split.** Steps that are taken after others are steps of one walk, as computations of any
lawful monad. So a call of the method with some arguments comes to the same as a call with the first of them,
an even number, and a call of the method of what that comes to with the others, if these may be tests: the
same value or error, with the same checks and calls on the way and the same state at the end. -/
theorem walk_split :
    (∀ (m : Type → Type) [Monad m] [LawfulMonad m] (gs : Graphs) (before after : List (Step m))
        (nodes : OrderedSet Node),
      gs.walk (before ++ after) nodes = gs.walk before nodes >>= gs.walk after) ∧
    ∀ (host : HostLibrary) (depth : Nat) (cx : Context) (nodes : OrderedSet Node)
      (before after : List Value), before.length % 2 = 0 → (∀ v ∈ after, v.IsTest) →
      ∀ (identity identity' : Nat) (f : Value),
        (Value.nodes nodes).select cx.graphs identity "walk" = .ok f →
        Value.call host depth cx f (before ++ after) = (do
          let found ← Value.call host depth cx f before
          let g ← Eval.result (found.select cx.graphs identity' "walk")
          Value.call host depth cx g after) := by
  refine ⟨fun m _ _ => Graphs.walk_append, ?_⟩
  intro host depth cx nodes before after heven hafter identity identity' f hf
  obtain rfl := Except.ok.inj hf
  cases depth with
  | zero => rfl
  | succ depth => exact Method.runWalk_append _ cx nodes heven hafter fun found => rfl

/-- After a step that succeeds, a closure assigns a variable and fails. -/
theorem walk_split_failing :
    let g := ((({} : Graph).addNode "a").addNode "b").addEdge 0 1 "x"
    let h := g.addEdge 1 0 "y"
    let cx : Context := { graphs := { all := #[h] }, frame := 0 }
    let failing : Value := .closure ⟨0, some "e",
      .statements [.assign (.target "y" ()) (.variable "e" ()) (), .variable "z" ()], some 0⟩
    let f : Value := .ofMethod 0 "walk" 0 none (.walk (OrderedSet.singleton ⟨0, 0⟩))
    ∀ host : HostLibrary,
      (Value.call host 1 cx f [.string "x", .bool true, failing] {}).map Prod.fst =
        some (.error (.unknownIdentifier "z")) ∧
      Value.call host 1 cx f ([.string "x", .bool true] ++ [failing]) = (do
        let found ← Value.call host 1 cx f [.string "x", .bool true]
        let g ← Eval.result (found.select cx.graphs 1 "walk")
        Value.call host 1 cx g [failing]) := by
  intro g h cx failing f host
  -- no function of the host is called, and calls are nested no deeper
  have hmethod : Value.call host 1 cx f [.string "x", .bool true, failing] {} =
      Method.run (fun _ _ _ => Eval.exhausted) cx [.string "x", .bool true, failing]
        (.walk (OrderedSet.singleton ⟨0, 0⟩)) {} := rfl
  have hends : (Method.run (fun _ _ _ => Eval.exhausted) cx [.string "x", .bool true, failing]
      (.walk (OrderedSet.singleton ⟨0, 0⟩)) {}).map (fun q => q.1.map fun _ => ()) =
        some (.error (.unknownIdentifier "z")) := by decide +kernel
  constructor
  · obtain ⟨⟨r, t⟩, hrun, hr⟩ := Option.map_eq_some_iff.mp hends
    rw [hmethod, hrun, Option.map_some]
    cases r with
    | error e => rw [Except.error.inj hr]
    | ok v => exact Except.noConfusion rfl rfl (heq_of_eq hr)
  · exact walk_split.2 host 1 cx (OrderedSet.singleton ⟨0, 0⟩) [.string "x", .bool true] [failing] rfl
      (List.forall_mem_cons.mpr ⟨trivial, List.forall_mem_nil _⟩) 0 1 f rfl

end GraphQuery
