import Mathlib.Logic.Relation
import GraphQuery.Eval.Method
import GraphQuery.Proofs.Graph.Representation

/-!
# The first reachable node

A depth-first search with a test for nodes and a test for edges finds a node exactly if there is one to
be found: a node that the first test accepts, at the end of a path of edges that the second one accepts.

The search goes through an agenda of edges and remembers the nodes that it has tested. Every edge that
leaves such a node is still on the agenda, or the second test refuses it, or it leads to such a node
again (`SearchInv.expanded`). So when the agenda is empty, the nodes that have been tested are all that
can be reached, and none of them was accepted. The agenda does become empty within as many rounds as the
graph has edges, because each edge comes onto it once, when its source is tested
(`length_outgoingBySink_add_unopened`).

All this is about tests that are plain functions. A test of a method is an evaluation, which makes
checks and frames. It is a plain function as far as its answer goes if from all states of some kind it
comes to this answer, and to a state of the same kind (`Eval.Computes`); then the search is one, too.

## Main statements

* `Graphs.search_answers`: what the search answers, from the invariant of the agenda.
* `Eval.computes_firstReachable`: a search with evaluations that compute tests.
* `firstReachable_exact`: the search, and the method that starts it from each node of a set.
-/

namespace GraphQuery

namespace Graphs

/-- An edge that a test accepts leads from one node to another. -/
def Leads (gs : Graphs) (follow : Edge → Bool) (n k : Node) : Prop :=
  ∃ e, gs.HasEdge e ∧ gs.source e = n ∧ gs.sink e = k ∧ follow e = true

/-- A path of edges that a test accepts leads from one node to another; it may have no edge. -/
def Reaches (gs : Graphs) (follow : Edge → Bool) : Node → Node → Prop :=
  Relation.ReflTransGen (gs.Leads follow)

/-- What a search for a node from a start may answer. -/
def Answers (gs : Graphs) (accept : Node → Bool) (follow : Edge → Bool) (start : Node) :
    Option Node → Prop
  | some n => accept n = true ∧ gs.Reaches follow start n
  | none => ∀ n, gs.Reaches follow start n → accept n = false

variable {gs : Graphs} {accept : Node → Bool} {follow : Edge → Bool} {start : Node}

/-- Paths stay in one graph. -/
theorem Reaches.graph_eq {n : Node} (h : gs.Reaches follow start n) : n.graph = start.graph := by
  induction h with
  | refl => rfl
  | tail _ hlead ih =>
    obtain ⟨e, -, rfl, rfl, -⟩ := hlead
    exact ih

/-! ### Rounds -/

/-- The number of edges of a graph whose source is not among some nodes. -/
def unopened (gs : Graphs) (i : Nat) (seen : List Node) : Nat :=
  (List.range (gs.graph i).edges.size).countP fun p => ⟨i, (gs.edge ⟨i, p⟩).source⟩ ∉ seen

/-- At first, all edges are unopened. -/
theorem unopened_nil (gs : Graphs) (i : Nat) : gs.unopened i [] = (gs.graph i).edges.size := by
  simp [unopened]

/-- When a node is opened, its edges move from those that are unopened to the agenda. -/
theorem length_outgoingBySink_add_unopened (hgs : gs.Consistent) {n : Node} {seen : List Node}
    (hn : n ∉ seen) :
    (gs.outgoingBySink n).length + gs.unopened n.graph (n :: seen) = gs.unopened n.graph seen := by
  obtain ⟨i, v⟩ := n
  -- among the edges with an unopened source, those of this node are told from the others
  have hsplit : ∀ ps : List Nat,
      ps.countP (fun p => (gs.edge ⟨i, p⟩).source = v) +
        ps.countP (fun p => ⟨i, (gs.edge ⟨i, p⟩).source⟩ ∉ (⟨i, v⟩ : Node) :: seen) =
      ps.countP (fun p => ⟨i, (gs.edge ⟨i, p⟩).source⟩ ∉ seen) := by
    intro ps
    induction ps with
    | nil => rfl
    | cons p ps ih =>
      simp only [List.countP_cons]
      by_cases hp : (gs.edge ⟨i, p⟩).source = v
      · simp only [hp, List.mem_cons, true_or, not_true, decide_true, decide_false, hn, not_false_eq_true,
          if_true, Bool.false_eq_true, if_false]
        simp only [List.mem_cons] at ih
        omega
      · simp only [hp, List.mem_cons, Node.mk.injEq, true_and, false_or, decide_false,
          Bool.false_eq_true, if_false]
        simp only [List.mem_cons, Node.mk.injEq, true_and] at ih
        omega
  have hlength : (gs.outgoingBySink ⟨i, v⟩).length =
      (List.range (gs.graph i).edges.size).countP fun p => (gs.edge ⟨i, p⟩).source = v := by
    rw [outgoingBySink, List.length_mergeSort, outgoing_eq hgs, List.length_map, Graph.positions,
      List.countP_eq_length_filter]
    rfl
  rw [hlength]
  exact hsplit _

/-! ### The invariant of the agenda -/

/-- Where a search stands: the nodes that have been tested, and the edges that are left. -/
structure SearchInv (gs : Graphs) (accept : Node → Bool) (follow : Edge → Bool) (start : Node)
    (seen : List Node) (agenda : List Edge) : Prop where
  /-- The start has been tested. -/
  start_mem : start ∈ seen
  /-- What has been tested can be reached. -/
  reached : ∀ n ∈ seen, gs.Reaches follow start n
  /-- It was not accepted. -/
  refused : ∀ n ∈ seen, accept n = false
  /-- The edges that are left come from nodes that have been tested. -/
  opened : ∀ e ∈ agenda, gs.HasEdge e ∧ gs.source e ∈ seen
  /-- An accepted edge from a node that has been tested leads to one, or it is left. -/
  expanded : ∀ e, gs.HasEdge e → gs.source e ∈ seen → follow e = true →
    gs.sink e ∈ seen ∨ e ∈ agenda

namespace SearchInv

variable {seen : List Node} {agenda : List Edge} {e : Edge}

/-- At the start, only the edges of the first node are on the agenda. -/
theorem init (hgs : gs.Consistent) (hstart : accept start = false) :
    gs.SearchInv accept follow start [start] (gs.outgoingBySink start) where
  start_mem := List.mem_singleton.mpr rfl
  reached n hn := List.mem_singleton.mp hn ▸ .refl
  refused n hn := List.mem_singleton.mp hn ▸ hstart
  opened e he := by
    obtain ⟨hedge, rfl⟩ := (mem_outgoingBySink hgs).mp he
    exact ⟨hedge, List.mem_singleton.mpr rfl⟩
  expanded e he hsource _ :=
    Or.inr ((mem_outgoingBySink hgs).mpr ⟨he, List.mem_singleton.mp hsource⟩)

/-- An edge may be passed over if it leads nowhere new, or is refused. -/
theorem skip (h : gs.SearchInv accept follow start seen (e :: agenda))
    (he : gs.sink e ∈ seen ∨ follow e = false) : gs.SearchInv accept follow start seen agenda where
  start_mem := h.start_mem
  reached := h.reached
  refused := h.refused
  opened d hd := h.opened d (List.mem_cons_of_mem e hd)
  expanded d hd hsource hfollow := by
    rcases h.expanded d hd hsource hfollow with hsink | hmem
    · exact Or.inl hsink
    · rcases List.mem_cons.mp hmem with rfl | hmem
      · rcases he with hsink | hrefused
        · exact Or.inl hsink
        · rw [hfollow] at hrefused
          exact nomatch hrefused
      · exact Or.inr hmem

/-- What an edge of the agenda leads to can be reached. -/
theorem reaches_sink (h : gs.SearchInv accept follow start seen (e :: agenda))
    (hfollow : follow e = true) : gs.Reaches follow start (gs.sink e) := by
  obtain ⟨hedge, hsource⟩ := h.opened e List.mem_cons_self
  exact (h.reached _ hsource).tail ⟨e, hedge, rfl, rfl, hfollow⟩

/-- An edge that is accepted leads to a node, whose edges come onto the agenda if it is refused. -/
theorem expand (hgs : gs.Consistent) (h : gs.SearchInv accept follow start seen (e :: agenda))
    (hfollow : follow e = true) (hsink : accept (gs.sink e) = false) :
    gs.SearchInv accept follow start (gs.sink e :: seen)
      (gs.outgoingBySink (gs.sink e) ++ agenda) where
  start_mem := List.mem_cons_of_mem _ h.start_mem
  reached := List.forall_mem_cons.mpr ⟨h.reaches_sink hfollow, h.reached⟩
  refused := List.forall_mem_cons.mpr ⟨hsink, h.refused⟩
  opened d hd := by
    rcases List.mem_append.mp hd with hd | hd
    · obtain ⟨hedge, hsource⟩ := (mem_outgoingBySink hgs).mp hd
      exact ⟨hedge, hsource ▸ List.mem_cons_self⟩
    · obtain ⟨hedge, hsource⟩ := h.opened d (List.mem_cons_of_mem e hd)
      exact ⟨hedge, List.mem_cons_of_mem _ hsource⟩
  expanded d hd hsource hd' := by
    rcases List.mem_cons.mp hsource with hsource | hsource
    · exact Or.inr (List.mem_append_left _ ((mem_outgoingBySink hgs).mpr ⟨hd, hsource⟩))
    · rcases h.expanded d hd hsource hd' with hseen | hmem
      · exact Or.inl (List.mem_cons_of_mem _ hseen)
      -- the edge that is opened leads to the node that is marked
      · rcases List.mem_cons.mp hmem with rfl | hmem
        · exact Or.inl List.mem_cons_self
        · exact Or.inr (List.mem_append_right _ hmem)

/-- With an empty agenda, everything that can be reached has been tested. -/
theorem answers_none (h : gs.SearchInv accept follow start seen []) :
    gs.Answers accept follow start none := by
  intro n hn
  refine h.refused n ?_
  -- along a path, each node that has been tested passes it on to the next one
  induction hn with
  | refl => exact h.start_mem
  | tail _ hlead ih =>
    obtain ⟨e, hedge, rfl, rfl, hfollow⟩ := hlead
    rcases h.expanded e hedge ih hfollow with hsink | hmem
    · exact hsink
    · exact absurd hmem List.not_mem_nil

end SearchInv

/-! ### What a search answers -/

/-- One round of a search whose tests are plain functions. -/
theorem search_cons (gs : Graphs) (accept : Node → Bool) (follow : Edge → Bool) (k : Nat)
    (seen : List Node) (e : Edge) (agenda : List Edge) :
    gs.search (m := Id) accept follow (k + 1) seen (e :: agenda) =
      if gs.sink e ∈ seen ∨ follow e = false then gs.search (m := Id) accept follow k seen agenda
      else if accept (gs.sink e) = true then some (gs.sink e)
      else gs.search (m := Id) accept follow k (gs.sink e :: seen)
        (gs.outgoingBySink (gs.sink e) ++ agenda) := by
  rw [search]
  by_cases hseen : gs.sink e ∈ seen
  · rw [if_pos hseen, if_pos (Or.inl hseen)]
  · rw [if_neg hseen]
    change (if follow e = true then
      if accept (gs.sink e) = true then some (gs.sink e) else _ else _) = _
    -- what is left to tell is whether the edge is accepted
    cases hfollow : follow e with
    | true => simp [hseen]
    | false => simp

/-- **A search answers** within as many rounds as there are edges left and edges unopened. -/
theorem search_answers (hgs : gs.Consistent) {k : Nat} {seen : List Node} {agenda : List Edge}
    (h : gs.SearchInv accept follow start seen agenda)
    (hk : agenda.length + gs.unopened start.graph seen ≤ k) :
    gs.Answers accept follow start (gs.search (m := Id) accept follow k seen agenda) := by
  -- the induction is on the rounds; an edge is skipped or its node opened, and both take one round
  induction k generalizing seen agenda with
  | zero =>
    cases agenda with
    | nil => exact h.answers_none
    | cons e agenda =>
      rw [List.length_cons] at hk
      omega
  | succ k ih =>
    cases agenda with
    | nil => exact h.answers_none
    | cons e agenda =>
      rw [List.length_cons] at hk
      rw [search_cons]
      split
      · next hskip => exact ih (h.skip hskip) (by omega)
      · next hnew =>
        obtain ⟨hseen, hfollow⟩ := not_or.mp hnew
        have hfollow : follow e = true := by simpa using hfollow
        have hreach := h.reaches_sink hfollow
        split
        · next haccept => exact ⟨haccept, hreach⟩
        · next hrefuse =>
          refine ih (h.expand hgs hfollow (by simpa using hrefuse)) ?_
          -- the edges of the node are unopened before and on the agenda after
          have hmove := length_outgoingBySink_add_unopened hgs hseen
          rw [hreach.graph_eq] at hmove
          rw [List.length_append]
          omega

/-- **The first reachable node** is one, and if there is none, no node can be reached that is accepted. -/
theorem firstReachable_answers (hgs : gs.Consistent) (accept : Node → Bool) (follow : Edge → Bool)
    (start : Node) :
    gs.Answers accept follow start (gs.firstReachable (m := Id) accept follow start) := by
  change gs.Answers accept follow start (if accept start = true then some start else _)
  split
  · next haccept => exact ⟨haccept, .refl⟩
  · next hrefuse =>
    refine search_answers hgs (.init hgs (by simpa using hrefuse)) ?_
    have hmove := length_outgoingBySink_add_unopened hgs (List.not_mem_nil : start ∉ [])
    rw [unopened_nil] at hmove
    exact Nat.le_of_eq hmove

end Graphs

/-! ### Tests that are evaluations -/

/-- From all states of some kind, the evaluation comes to one result and to a state of that kind. -/
def Eval.Computes {α : Type} (I : State → Prop) (m : Eval α) (a : α) : Prop :=
  ∀ s, I s → ∃ t, m s = some (.ok a, t) ∧ I t

namespace Eval

variable {α β : Type} {I : State → Prop}

theorem computes_pure (a : α) : Computes I (pure a) a := fun s hs => ⟨s, rfl, hs⟩

/-- Evaluations in sequence compute one after the other. -/
theorem Computes.bind {m : Eval α} {a : α} {f : α → Eval β} {b : β} (hm : Computes I m a)
    (hf : Computes I (f a) b) : Computes I (m >>= f) b := by
  intro s hs
  obtain ⟨t, ht, hIt⟩ := hm s hs
  rw [bind_apply, ht]
  exact hf t hIt

section Tests

variable {gs : Graphs} {accept : Node → Bool} {follow : Edge → Bool} {acceptM : Node → Eval Bool}
  {followM : Edge → Eval Bool} (hgs : gs.Consistent)
  (haccept : ∀ n, gs.HasNode n → Computes I (acceptM n) (accept n))
  (hfollow : ∀ e, gs.HasEdge e → Computes I (followM e) (follow e))

include hgs haccept hfollow

/-- The rounds of both searches are the same: each test that is made has the answer of the function. -/
theorem computes_search (k : Nat) (seen : List Node) {agenda : List Edge}
    (hagenda : ∀ e ∈ agenda, gs.HasEdge e) :
    Computes I (gs.search acceptM followM k seen agenda)
      (gs.search (m := Id) accept follow k seen agenda) := by
  induction k generalizing seen agenda with
  | zero => cases agenda <;> exact computes_pure _
  | succ k ih =>
    cases agenda with
    | nil => exact computes_pure _
    | cons e agenda =>
      obtain ⟨he, hrest⟩ := List.forall_mem_cons.mp hagenda
      have hsink : gs.HasNode (gs.sink e) := Graphs.hasNode_sink hgs he
      have hopened : ∀ d ∈ gs.outgoingBySink (gs.sink e) ++ agenda, gs.HasEdge d := by
        intro d hd
        rcases List.mem_append.mp hd with hd | hd
        · exact ((Graphs.mem_outgoingBySink hgs).mp hd).1
        · exact hrest d hd
      -- both searches look at the marks first, then at the edge and then at its node
      rw [Graphs.search_cons, Graphs.search]
      by_cases hseen : gs.sink e ∈ seen
      · rw [if_pos hseen, if_pos (Or.inl hseen)]
        exact ih seen hrest
      · rw [if_neg hseen]
        refine (hfollow e he).bind ?_
        cases hfollowed : follow e with
        | false =>
          rw [if_pos (Or.inr rfl)]
          exact ih seen hrest
        | true =>
          have hnew : ¬ (gs.sink e ∈ seen ∨ true = false) := by simp [hseen]
          rw [if_neg hnew, if_pos rfl]
          refine (haccept _ hsink).bind ?_
          cases accept (gs.sink e) with
          | false => exact ih _ hopened
          | true => exact computes_pure _

/-- **A search with evaluations** that compute tests computes the search with these tests. -/
theorem computes_firstReachable {start : Node} (hstart : gs.HasNode start) :
    Computes I (gs.firstReachable acceptM followM start)
      (gs.firstReachable (m := Id) accept follow start) := by
  refine (haccept start hstart).bind ?_
  change Computes I _ (if accept start = true then some start else _)
  cases accept start with
  | true => exact computes_pure _
  | false =>
    exact computes_search hgs haccept hfollow _ _ fun e he =>
      ((Graphs.mem_outgoingBySink hgs).mp he).1

end Tests

/-- From several starts, the first answer counts. -/
theorem computes_firstFrom {find : Node → Eval (Option Node)} {answer : Node → Option Node}
    {starts : List Node} (h : ∀ n ∈ starts, Computes I (find n) (answer n)) :
    Computes I (Method.firstFrom find starts)
      (.nodes ((starts.findSome? answer).elim OrderedSet.empty OrderedSet.singleton)) := by
  induction starts with
  | nil => exact computes_pure _
  | cons start starts ih =>
    obtain ⟨hstart, hstarts⟩ := List.forall_mem_cons.mp h
    rw [Method.firstFrom, List.findSome?_cons]
    refine hstart.bind ?_
    cases answer start with
    | some n => exact computes_pure _
    | none => exact ih hstarts

end Eval

/-! ### The method of sets of nodes -/

/-- The second argument of the method, a predicate on edges; without it all edges are accepted. -/
def Method.edgeArgument : List Value → Except Error Predicate
  | [] => .ok (.constant true)
  | w :: _ => Predicate.ofEdgeValue "firstReachable" w

/-- The method tries the nodes of the set one after the other. -/
theorem Method.computes_runFirstReachable {I : State → Prop} {call : Caller} {cx : Context}
    (hgs : cx.graphs.Consistent) {accept : Node → Bool} {follow : Edge → Bool} {v : Value}
    {rest : List Value} {nodeTest edgeTest : Predicate}
    (hv : Predicate.ofNodeValue "firstReachable" v = .ok nodeTest)
    (hrest : Method.edgeArgument rest = .ok edgeTest)
    (haccept : ∀ n, cx.graphs.HasNode n → Eval.Computes I (nodeTest.testNode call cx n) (accept n))
    (hfollow : ∀ e, cx.graphs.HasEdge e → Eval.Computes I (edgeTest.testEdge call cx e) (follow e))
    {nodes : OrderedSet Node} (hnodes : ∀ n ∈ nodes.toList, cx.graphs.HasNode n) :
    Eval.Computes I (Method.run call cx (v :: rest) (.firstReachable nodes))
      (.nodes ((nodes.toList.findSome? (cx.graphs.firstReachable (m := Id) accept follow)).elim
        OrderedSet.empty OrderedSet.singleton)) := by
  have hfirst := Eval.computes_firstFrom fun n hn =>
    Eval.computes_firstReachable hgs haccept hfollow (hnodes n hn)
  change Eval.Computes I (Method.runFirstReachable call cx nodes (v :: rest)) _
  unfold Method.runFirstReachable
  refine (Eval.computes_pure (v, rest)).bind ?_
  dsimp only
  rw [hv]
  refine (Eval.computes_pure nodeTest).bind ?_
  -- without a second argument, all edges are accepted
  cases rest with
  | nil =>
    obtain rfl := Except.ok.inj hrest
    exact (Eval.computes_pure _).bind hfirst
  | cons w rest =>
    have hw : Predicate.ofEdgeValue "firstReachable" w = .ok edgeTest := hrest
    dsimp only
    rw [hw]
    exact (Eval.computes_pure edgeTest).bind hfirst

/-- The test that a string stands for compares it with a field of its argument. -/
theorem Predicate.computes_matching (call : Caller) {cx : Context}
    (hcx : cx.cancellation = Cancellation.never) {selector text found : String} {v : Value}
    (hv : ∀ identity, v.select cx.graphs identity selector = .ok (.string found)) :
    Eval.Computes (fun _ => True) ((Predicate.closure (.matching selector text)).test call cx v)
      (found == text) := by
  intro s _
  let s₁ : State := { s with log := ⟨.check "predicate", cx.watch s.store⟩ :: s.log }
  have hcheck : Eval.check cx "predicate" s = some (.ok (), s₁) := by
    rw [Eval.check_apply, hcx]
    rfl
  have hselect : ∀ t : State, Eval.select cx v selector t =
      some (.ok (.string found), { t with functions := t.functions + 1 }) := by
    intro t
    unfold Eval.select
    rw [Eval.bind_apply, Eval.newFunction_apply]
    dsimp only
    rw [hv]
    rfl
  let s₂ : State :=
    { s₁ with store := (s₁.store.nest cx.frame).2.declare (s₁.store.nest cx.frame).1 "n" v }
  refine ⟨{ s₂ with functions := s₂.functions + 1 }, ?_, trivial⟩
  unfold Predicate.test
  rw [Eval.bind_apply, hcheck]
  dsimp only
  rw [Eval.bind_apply, Closure.invoke_matching, Eval.bind_apply, hselect]
  -- what is left is the comparison of two strings
  change some (Except.ok ((found == text) != false), _) = _
  rw [Bool.bne_false]

/-! ### Soundness and completeness -/

open Graphs in
/-- **The first reachable node.** In graphs that have been built by additions, a search comes back with a
node only if the test accepts it and it is the start or at the end of a path of accepted edges from
there; and it comes back without one exactly if no node that can be reached so is accepted.

The method of a set of nodes, which may belong to several graphs, has tests that are evaluations. If
these are plain functions as far as their answers go, it comes to a set with one node at most. The set
is empty exactly if such a node can be reached from no receiver; otherwise its node is one that the
first receiver from which one can be reached leads to. -/
theorem firstReachable_exact {gs : Graphs} (hgs : ∀ g ∈ gs.all, g.Built) (accept : Node → Bool)
    (follow : Edge → Bool) :
    (∀ start,
      (∀ n, gs.firstReachable (m := Id) accept follow start = some n →
        accept n = true ∧ gs.Reaches follow start n) ∧
      (gs.firstReachable (m := Id) accept follow start = none ↔
        ∀ n, gs.Reaches follow start n → accept n = false)) ∧
    ∀ (I : State → Prop) (call : Caller) (cx : Context) (v : Value) (rest : List Value)
      (nodeTest edgeTest : Predicate) (nodes : OrderedSet Node), cx.graphs = gs →
      Predicate.ofNodeValue "firstReachable" v = .ok nodeTest →
      Method.edgeArgument rest = .ok edgeTest →
      (∀ n, gs.HasNode n → Eval.Computes I (nodeTest.testNode call cx n) (accept n)) →
      (∀ e, gs.HasEdge e → Eval.Computes I (edgeTest.testEdge call cx e) (follow e)) →
      (∀ n ∈ nodes.toList, gs.HasNode n) →
      ∃ found : OrderedSet Node,
        Eval.Computes I (Method.run call cx (v :: rest) (.firstReachable nodes)) (.nodes found) ∧
        found.size ≤ 1 ∧
        (found.toList = [] ↔
          ∀ n ∈ nodes.toList, ∀ k, gs.Reaches follow n k → accept k = false) ∧
        ∀ k ∈ found.toList, accept k = true ∧
          ∃ before start after, nodes.toList = before ++ start :: after ∧
            (∀ n ∈ before, ∀ k, gs.Reaches follow n k → accept k = false) ∧
            gs.Reaches follow start k := by
  have hconsistent : gs.Consistent := consistent_of_built hgs
  have hanswers := firstReachable_answers hconsistent accept follow
  have hsome : ∀ start n, gs.firstReachable (m := Id) accept follow start = some n →
      accept n = true ∧ gs.Reaches follow start n := by
    intro start n hn
    have h := hanswers start
    rw [hn] at h
    exact h
  have hnone : ∀ start, gs.firstReachable (m := Id) accept follow start = none ↔
      ∀ n, gs.Reaches follow start n → accept n = false := by
    intro start
    constructor
    · intro hstart
      have h := hanswers start
      rw [hstart] at h
      exact h
    · intro hrefused
      rcases hfound : gs.firstReachable (m := Id) accept follow start with _ | n
      · rfl
      · -- a node that came back would be accepted
        obtain ⟨haccept, hreach⟩ := hsome start n hfound
        rw [hrefused n hreach] at haccept
        exact absurd haccept Bool.false_ne_true
  refine ⟨fun start => ⟨hsome start, hnone start⟩, ?_⟩
  rintro I call cx v rest nodeTest edgeTest nodes rfl hv hrest haccept hfollow hnodes
  have hrun := Method.computes_runFirstReachable hconsistent hv hrest haccept hfollow hnodes
  refine ⟨_, hrun, ?_⟩
  -- the method comes back with the first answer that is a node
  rcases hfirst : nodes.toList.findSome? (cx.graphs.firstReachable (m := Id) accept follow) with _ | k
  · have hall := List.findSome?_eq_none_iff.mp hfirst
    exact ⟨Nat.zero_le _, iff_of_true rfl fun n hn => (hnone n).mp (hall n hn), List.forall_mem_nil _⟩
  · obtain ⟨before, start, after, hsplit, hstart, hbefore⟩ := List.findSome?_eq_some_iff.mp hfirst
    obtain ⟨hk, hreach⟩ := hsome start k hstart
    refine ⟨Nat.le_refl _, iff_of_false (List.cons_ne_nil k []) fun hall => ?_, fun k' hk' => ?_⟩
    · have hmem : start ∈ nodes.toList := hsplit ▸ List.mem_append_right _ List.mem_cons_self
      rw [hall start hmem k hreach] at hk
      exact absurd hk Bool.false_ne_true
    · obtain rfl := List.mem_singleton.mp hk'
      exact ⟨hk, before, start, after, hsplit, fun n hn => (hnone n).mp (hbefore n hn), hreach⟩

/-- A cycle of two nodes with a loop, and a third node without edges. One of two parallel edges is
refused, the other one leads to the node that is found. -/
theorem firstReachable_exact_cycle :
    let g := ((((((({} : Graph).addNode "a").addNode "b").addNode "c").addEdge 0 1 "y").addEdge 0 1
      "x").addEdge 1 0 "x").addEdge 0 0 "x"
    let gs : Graphs := { all := #[g] }
    let cx : Context := { graphs := gs, frame := 0 }
    let args : List Value := [.string "b", .string "x"]
    let receivers : OrderedSet Node := OrderedSet.ofList [⟨0, 2⟩, ⟨0, 0⟩]
    g.Built ∧ ∀ call : Caller, ∃ found : OrderedSet Node,
      Eval.Computes (fun _ => True) (Method.run call cx args (.firstReachable receivers))
        (.nodes found) ∧
      found.size = 1 ∧ ∀ k ∈ found.toList, (gs.node k).id = "b" := by
  intro g gs cx args receivers
  have hbuilt : g.Built := by
    refine .addEdge (.addEdge (.addEdge (.addEdge (.addNode (.addNode (.addNode .empty "a") "b") "c")
      ?_ ?_ "y") ?_ ?_ "x") ?_ ?_ "x") ?_ ?_ "x" <;> decide
  have hall : ∀ g ∈ gs.all, g.Built := by
    intro h hh
    rw [Array.mem_singleton.mp hh]
    exact hbuilt
  refine ⟨hbuilt, fun call => ?_⟩
  have hreceivers : ∀ n ∈ receivers.toList, gs.HasNode n := by decide
  obtain ⟨-, hmethod⟩ := firstReachable_exact hall (fun n => (gs.node n).id == "b")
    (fun e => (gs.edge e).label == "x")
  obtain ⟨found, hrun, hsize, hempty, hfound⟩ :=
    hmethod (fun _ => True) call cx (.string "b") [.string "x"] _ _ receivers rfl rfl rfl
      (fun n _ => Predicate.computes_matching call rfl fun _ => rfl)
      (fun e _ => Predicate.computes_matching call rfl fun _ => rfl) hreceivers
  refine ⟨found, hrun, ?_, fun k hk => beq_iff_eq.mp (hfound k hk).1⟩
  -- the second of the parallel edges leads to a node that is accepted
  have hlead : gs.Leads (fun e => (gs.edge e).label == "x") ⟨0, 0⟩ ⟨0, 1⟩ :=
    ⟨⟨0, 1⟩, by decide, rfl, rfl, rfl⟩
  have hne : found.toList ≠ [] := by
    intro hnil
    have hrefused := hempty.mp hnil ⟨0, 0⟩ (by decide) ⟨0, 1⟩ (.single hlead)
    exact absurd hrefused (by decide)
  have hpos : 0 < found.size := List.length_pos_iff.mpr hne
  omega

end GraphQuery
