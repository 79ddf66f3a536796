import GraphQuery.Proofs.Graph.Walks

/-!
# Instances of a class

A node is an instance of another one if edges with the label of the settings lead there, any number
of them. `Graphs.reach` collects these nodes. It takes a node off an agenda, and unless the node is
open already, it opens it: the node is found, and the nodes behind its edges come onto the agenda. A
node may be on the agenda many times, and it is only told when it is taken off that it has been
there before.

The definition has a bound on its rounds. `Graphs.Opens` is the loop without one, as a relation that
only holds of loops that come to an end. Two things are said about it apart from each other:

* it comes to an end, and the bound is large enough (`Graphs.opens_reachFrom`), because an edge
  comes onto the agenda only when its source is opened, so that the agenda and the edges that are
  unopened get fewer together;
* what it comes to is closed (`Graphs.ReachInv.closed`): what is behind an edge of a node that has
  been found has been found itself or is on the agenda, and in the end the agenda is empty.

The method goes through the receivers and keeps those from which a node with the identifier is
found. It makes a check before each of them, which may end it.

## Main statements

* `Graphs.opens_reachFrom`: the loop comes to an end.
* `Graphs.mem_reach`: what is found is what can be reached.
* `instanceOf_exact`: both, and what the method gives.
-/

namespace GraphQuery

/-! ### Selections from an ordered set -/

namespace OrderedSet

variable {α : Type} [DecidableEq α]

/-- What is selected from a set is a set already. -/
theorem ofList_filter (s : OrderedSet α) (p : α → Bool) : ofList (s.toList.filter p) = s.filter p := by
  apply ext
  calc (ofList (s.toList.filter p)).toList
    _ = [] ++ (s.toList.filter p).filter (fun a => a ∉ []) := toList_insertAll (s.nodup.filter p) empty
    _ = s.toList.filter p := by simp

end OrderedSet

namespace Graphs

/-! ### Edges with a label -/

/-- Whether an edge has a label. -/
def hasLabel (gs : Graphs) (label : String) (e : Edge) : Bool := (gs.edge e).label == label

variable {gs : Graphs} {label : String} {start : Node}

/-- The successors of a node are the nodes behind its edges with the label. -/
theorem mem_successors (hgs : gs.Consistent) {n k : Node} :
    k ∈ gs.successors label n ↔ gs.Leads (gs.hasLabel label) n k := by
  simp only [successors, List.mem_map, List.mem_filter, mem_outgoing hgs, decide_eq_true_iff, Leads,
    hasLabel, beq_iff_eq]
  constructor
  · rintro ⟨e, ⟨⟨hedge, hsource⟩, hlabel⟩, hsink⟩
    exact ⟨e, hedge, hsource, hsink, hlabel⟩
  · rintro ⟨e, hedge, hsource, hsink, hlabel⟩
    exact ⟨e, ⟨⟨hedge, hsource⟩, hlabel⟩, hsink⟩

/-- Edges stay in their graph. -/
theorem graph_of_mem_successors {n k : Node} (h : k ∈ gs.successors label n) : k.graph = n.graph := by
  obtain ⟨e, he, rfl⟩ := List.mem_map.mp h
  obtain ⟨p, -, rfl⟩ := List.mem_map.mp (List.mem_filter.mp he).1
  rfl

/-- A node has no more successors than edges. -/
theorem length_successors_le (n : Node) :
    (gs.successors label n).length ≤ (gs.outgoingBySink n).length := by
  rw [successors, List.length_map, outgoingBySink, List.length_mergeSort]
  exact List.length_filter_le _ _

/-! ### The loop comes to an end -/

/-- **The loop without a bound.** It goes through an agenda with some nodes found already, and when
the agenda is empty, all that have been found are those of the last set. -/
inductive Opens (gs : Graphs) (label : String) :
    OrderedSet Node → List Node → OrderedSet Node → Prop where
  /-- The agenda is empty. -/
  | done (found : OrderedSet Node) : gs.Opens label found [] found
  /-- The first node of the agenda has been found before. -/
  | skip {found all : OrderedSet Node} {node : Node} {agenda : List Node} (old : node ∈ found.toList)
      (rest : gs.Opens label found agenda all) : gs.Opens label found (node :: agenda) all
  /-- The first node of the agenda is opened. -/
  | expand {found all : OrderedSet Node} {node : Node} {agenda : List Node} (new : node ∉ found.toList)
      (rest : gs.Opens label (found.insert node) ((gs.successors label node).reverse ++ agenda) all) :
      gs.Opens label found (node :: agenda) all

/-- Which edges are unopened depends on the nodes that are open, and not on their order. -/
theorem unopened_insert (gs : Graphs) (i : Nat) (found : OrderedSet Node) (n : Node) :
    gs.unopened i (found.insert n).toList = gs.unopened i (n :: found.toList) := by
  unfold unopened
  congr 1
  funext p
  simp only [OrderedSet.mem_insert, List.mem_cons, or_comm]

/-- **The loop comes to an end** within as many rounds as there are nodes on the agenda and edges
unopened. -/
theorem opens_reachFrom (hgs : gs.Consistent) {i k : Nat} {found : OrderedSet Node} {agenda : List Node}
    (hagenda : ∀ n ∈ agenda, n.graph = i)
    (hk : agenda.length + gs.unopened i found.toList ≤ k) :
    gs.Opens label found agenda (gs.reachFrom label k found agenda) := by
  induction k generalizing found agenda with
  | zero =>
    obtain rfl : agenda = [] := List.eq_nil_of_length_eq_zero (by omega)
    exact .done found
  | succ k ih =>
    cases agenda with
    | nil => exact .done found
    | cons node agenda =>
      obtain ⟨rfl, hrest⟩ := List.forall_mem_cons.mp hagenda
      rw [List.length_cons] at hk
      rw [reachFrom]
      by_cases hold : node ∈ found.toList
      · rw [if_pos hold]
        exact .skip hold (ih hrest (by omega))
      · rw [if_neg hold]
        refine .expand hold (ih (fun n hn => ?_) ?_)
        · -- an edge stays in its graph
          rcases List.mem_append.mp hn with hn | hn
          · exact graph_of_mem_successors (List.mem_reverse.mp hn)
          · exact hrest n hn
        · -- the edges of the node are unopened before, and no more than they come onto the agenda
          have hmove := length_outgoingBySink_add_unopened hgs hold
          have hfew : (gs.successors label node).length ≤ (gs.outgoingBySink node).length :=
            length_successors_le node
          rw [unopened_insert, List.length_append, List.length_reverse]
          omega

/-! ### What the loop comes to -/

/-- Where the loop stands: the nodes that have been found, and those that are left. -/
structure ReachInv (gs : Graphs) (label : String) (start : Node) (found : OrderedSet Node)
    (agenda : List Node) : Prop where
  /-- The start has been found or is left. -/
  start_mem : start ∈ found.toList ∨ start ∈ agenda
  /-- What has been found or is left can be reached. -/
  reached : ∀ n, n ∈ found.toList ∨ n ∈ agenda → gs.Reaches (gs.hasLabel label) start n
  /-- An edge of a node that has been found leads to one that has been found or is left. -/
  closed : ∀ n ∈ found.toList, ∀ k, gs.Leads (gs.hasLabel label) n k → k ∈ found.toList ∨ k ∈ agenda

namespace ReachInv

variable {found : OrderedSet Node} {node : Node} {agenda : List Node}

/-- At first, only the start is left. -/
theorem init (gs : Graphs) (label : String) (start : Node) :
    gs.ReachInv label start OrderedSet.empty [start] where
  start_mem := Or.inr (List.mem_singleton.mpr rfl)
  reached n hn := by
    rcases hn with hn | hn
    · exact absurd hn List.not_mem_nil
    · rw [List.mem_singleton.mp hn]
      exact .refl
  closed n hn := absurd hn List.not_mem_nil

/-- A node that has been found before may be passed over. -/
theorem skip (h : gs.ReachInv label start found (node :: agenda)) (hold : node ∈ found.toList) :
    gs.ReachInv label start found agenda := by
  -- what is on the agenda is the node itself, which has been found, or stays there
  have hmove : ∀ k, k ∈ found.toList ∨ k ∈ node :: agenda → k ∈ found.toList ∨ k ∈ agenda := by
    rintro k (hk | hk)
    · exact Or.inl hk
    · rcases List.mem_cons.mp hk with rfl | hk
      · exact Or.inl hold
      · exact Or.inr hk
  exact
    { start_mem := hmove start h.start_mem
      reached := fun n hn => h.reached n (hn.imp_right (List.mem_cons_of_mem node))
      closed := fun n hn k hk => hmove k (h.closed n hn k hk) }

/-- A node may be opened: it is found, and what is behind its edges is left. -/
theorem expand (hgs : gs.Consistent) (h : gs.ReachInv label start found (node :: agenda)) :
    gs.ReachInv label start (found.insert node) ((gs.successors label node).reverse ++ agenda) := by
  -- what was found or left before still is
  have hmove : ∀ k, k ∈ found.toList ∨ k ∈ node :: agenda →
      k ∈ (found.insert node).toList ∨ k ∈ (gs.successors label node).reverse ++ agenda := by
    rintro k (hk | hk)
    · exact Or.inl ((OrderedSet.mem_insert _ _ _).mpr (Or.inl hk))
    · rcases List.mem_cons.mp hk with rfl | hk
      · exact Or.inl ((OrderedSet.mem_insert _ _ _).mpr (Or.inr rfl))
      · exact Or.inr (List.mem_append_right _ hk)
  have hnode : gs.Reaches (gs.hasLabel label) start node := h.reached node (Or.inr List.mem_cons_self)
  refine ⟨hmove start h.start_mem, fun n hn => ?_, fun n hn k hk => ?_⟩
  · rcases hn with hn | hn
    · rcases (OrderedSet.mem_insert _ _ _).mp hn with hn | rfl
      · exact h.reached n (Or.inl hn)
      · exact hnode
    · rcases List.mem_append.mp hn with hn | hn
      · -- one edge more than to the node itself
        exact hnode.tail ((mem_successors hgs).mp (List.mem_reverse.mp hn))
      · exact h.reached n (Or.inr (List.mem_cons_of_mem node hn))
  · rcases (OrderedSet.mem_insert _ _ _).mp hn with hn | rfl
    · exact hmove k (h.closed n hn k hk)
    · exact Or.inr (List.mem_append_left _ (List.mem_reverse.mpr ((mem_successors hgs).mpr hk)))

/-- **When nothing is left,** all that can be reached has been found. -/
theorem mem_iff (h : gs.ReachInv label start found []) {n : Node} :
    n ∈ found.toList ↔ gs.Reaches (gs.hasLabel label) start n := by
  refine ⟨fun hn => h.reached n (Or.inl hn), fun hn => ?_⟩
  -- along a path, each node passes it on to the next one
  induction hn with
  | refl => exact h.start_mem.resolve_right List.not_mem_nil
  | tail _ hlead ih => exact (h.closed _ ih _ hlead).resolve_right List.not_mem_nil

end ReachInv

/-- The invariant holds to the end, round by round. -/
theorem Opens.reachInv (hgs : gs.Consistent) {found all : OrderedSet Node} {agenda : List Node}
    (h : gs.Opens label found agenda all) (hinv : gs.ReachInv label start found agenda) :
    gs.ReachInv label start all [] := by
  induction h with
  -- one case for each way that a round can go
  | done found => exact hinv
  | skip old _ ih => exact ih (hinv.skip old)
  | expand new _ ih => exact ih (hinv.expand hgs)

/-- The rounds that `reach` is given are enough. -/
theorem opens_reach (hgs : gs.Consistent) (label : String) (start : Node) :
    gs.Opens label OrderedSet.empty [start] (gs.reach label start) := by
  refine opens_reachFrom hgs (i := start.graph) (fun n hn => ?_) ?_
  · rw [List.mem_singleton.mp hn]
  · show 1 + gs.unopened start.graph [] ≤ _
    rw [unopened_nil, Nat.add_comm]

/-- **What is found along a label** is what can be reached along it. -/
theorem mem_reach (hgs : gs.Consistent) {n : Node} :
    n ∈ (gs.reach label start).toList ↔ gs.Reaches (gs.hasLabel label) start n :=
  ((opens_reach hgs label start).reachInv hgs (.init gs label start)).mem_iff

end Graphs

/-! ### The method -/

/-- A node is an instance if it reaches a node with the identifier. -/
theorem Method.isInstance_iff {cx : Context} (hgs : cx.graphs.Consistent) {id : String} {n : Node} :
    Method.isInstance cx id n = true ↔
      ∃ c, cx.graphs.Reaches (cx.graphs.hasLabel cx.settings.instanceOfLabel) n c ∧
        (cx.graphs.node c).id = id := by
  simp only [Method.isInstance, List.any_eq_true, Graphs.mem_reach hgs, beq_iff_eq]

/-- If the checks of the method come to an end, it comes to the instances among its receivers. -/
theorem ComesTo.runInstanceOf {R : (α : Type) → Eval α → α → Prop} (hR : ComesTo R) {cx : Context}
    (hcheck : R Unit (Eval.check cx "instanceOf") ()) {args : List Value} {id : String}
    (hargs : textArgument args = .ok id) (nodes : OrderedSet Node) :
    R Value (Method.runInstanceOf cx nodes args) (.nodes (nodes.filter (Method.isInstance cx id))) := by
  unfold Method.runInstanceOf
  rw [hargs, ← OrderedSet.ofList_filter]
  refine hR.bind (hR.pure id) (hR.bind (hR.selectM fun n _ => ?_) (hR.pure _))
  exact hR.bind hcheck (hR.pure _)

/-- The evaluation comes to a value, unless a check with a name is refused, which is the last it
does. -/
def Eval.ComesUnlessStopped (cx : Context) (name : String) (α : Type) (m : Eval α) (a : α) : Prop :=
  ∀ s, ∃ r t, m s = some (r, t) ∧
    (r = .ok a ∨ r = .error (.cancelled name) ∧ cx.cancellation t.log = true)

/-- Up to a check that is refused, evaluations come to values in sequence. -/
theorem Eval.comesTo_unlessStopped (cx : Context) (name : String) :
    ComesTo (Eval.ComesUnlessStopped cx name) where
  pure a s := ⟨.ok a, s, rfl, Or.inl rfl⟩
  bind := by
    intro α β m a f b hm hf s
    obtain ⟨r, t, hrun, rfl | ⟨rfl, hstop⟩⟩ := hm s
    · rw [bind_of_ok hrun]
      exact hf t
    · -- what was to come after the check is not evaluated
      refine ⟨.error (.cancelled name), t, ?_, Or.inr ⟨rfl, hstop⟩⟩
      rw [bind_apply, hrun]

/-- A check passes, or it is refused and ends the evaluation. -/
theorem Eval.check_unlessStopped (cx : Context) (name : String) :
    Eval.ComesUnlessStopped cx name Unit (Eval.check cx name) () := by
  intro s
  -- the log after the check is the one that the cancellation has seen
  refine ⟨_, _, check_apply cx name s, ?_⟩
  split
  case isTrue hstop => exact Or.inr ⟨rfl, hstop⟩
  case isFalse => exact Or.inl rfl

/-- **Instances of a class.** In graphs that have been built by additions, the collection of the
nodes that can be reached along a label comes to an end, also on cycles. It has no node twice, and
exactly those that a path of edges with the label leads to from the start, which may have no edge.

The method of a set of nodes is given an identifier, which several nodes may have. It comes to those
of the receivers, in their order, from which a node with the identifier can be reached along the
label of the settings, unless it is told to stop at a check. -/
theorem instanceOf_exact {gs : Graphs} (hgs : ∀ g ∈ gs.all, g.Built) :
    (∀ label start, gs.Opens label OrderedSet.empty [start] (gs.reach label start) ∧
      (gs.reach label start).toList.Nodup ∧
      ∀ n, n ∈ (gs.reach label start).toList ↔ gs.Reaches (gs.hasLabel label) start n) ∧
    ∀ (host : HostLibrary) (call : Caller) (cx : Context) (nodes : OrderedSet Node) (identity : Nat)
      (f v : Value) (id : String), cx.graphs = gs →
      (Value.nodes nodes).select gs identity "instanceOf" = .ok f → v.toText = .ok id →
      ∃ found : OrderedSet Node, found.toList.Sublist nodes.toList ∧
        (∀ n, n ∈ found.toList ↔ n ∈ nodes.toList ∧
          ∃ c, gs.Reaches (gs.hasLabel cx.settings.instanceOfLabel) n c ∧ (gs.node c).id = id) ∧
        ∀ s, ∃ r t, f.callWith host call cx [v] s = some (r, t) ∧
          (r = .ok (.nodes found) ∨
            r = .error (.cancelled "instanceOf") ∧ cx.cancellation t.log = true) := by
  have hgs := Graphs.consistent_of_built hgs
  refine ⟨fun label start => ⟨Graphs.opens_reach hgs label start, OrderedSet.nodup _,
    fun n => Graphs.mem_reach hgs⟩, ?_⟩
  rintro host call cx nodes identity f v id rfl hf hv
  obtain rfl := Except.ok.inj hf
  have hargs : textArgument [v] = .ok id := by
    show (v.toText >>= fun text => _) = _
    rw [hv]
    rfl
  refine ⟨nodes.filter (Method.isInstance cx id), List.filter_sublist, fun n => ?_, ?_⟩
  · rw [← Method.isInstance_iff hgs]
    exact List.mem_filter
  · exact (Eval.comesTo_unlessStopped cx "instanceOf").runInstanceOf (Eval.check_unlessStopped cx _)
      hargs nodes

/-- Two nodes that are instances of each other, and two with one identifier. The first of the
receivers has an edge to one of the latter, but with another label. -/
theorem instanceOf_exact_cycle :
    let g := (((((((((({} : Graph).addNode "a").addNode "b").addNode "c").addNode "c").addNode
      "d").addEdge 0 1 "I").addEdge 1 0 "I").addEdge 1 2 "I").addEdge 0 1 "I").addEdge 4 3 "x"
    let gs : Graphs := { all := #[g] }
    let cx : Context := { graphs := gs, settings := { instanceOfLabel := "I" }, frame := 0 }
    let receivers : OrderedSet Node := OrderedSet.ofList [⟨0, 4⟩, ⟨0, 3⟩, ⟨0, 0⟩]
    g.Built ∧ gs.Reaches (gs.hasLabel "I") ⟨0, 0⟩ ⟨0, 2⟩ ∧
      gs.Opens "I" OrderedSet.empty [⟨0, 0⟩] (gs.reach "I" ⟨0, 0⟩) ∧
      ∀ (host : HostLibrary) (call : Caller) (s : State), ∃ (found : OrderedSet Node) (t : State),
        Value.callWith host call cx (.ofMethod 0 "instanceOf" 1 (some 1) (.instanceOf receivers))
          [.string "c"] s = some (.ok (.nodes found), t) ∧
        found.toList.Sublist receivers.toList ∧ ⟨0, 0⟩ ∈ found.toList ∧ ⟨0, 4⟩ ∉ found.toList := by
  intro g gs cx receivers
  have hbuilt : g.Built := by
    refine .addEdge (.addEdge (.addEdge (.addEdge (.addEdge (.addNode (.addNode (.addNode (.addNode
      (.addNode .empty "a") "b") "c") "c") "d") ?_ ?_ "I") ?_ ?_ "I") ?_ ?_ "I") ?_ ?_ "I") ?_ ?_ "x" <;>
      decide
  have hall : ∀ g ∈ gs.all, g.Built := by
    intro h hh
    rw [Array.mem_singleton.mp hh]
    exact hbuilt
  obtain ⟨hreach, hmethod⟩ := instanceOf_exact hall
  have hclass : gs.Reaches (gs.hasLabel "I") ⟨0, 0⟩ ⟨0, 2⟩ :=
    ((hreach "I" ⟨0, 0⟩).2.2 ⟨0, 2⟩).mp (by decide)
  refine ⟨hbuilt, hclass, (hreach "I" ⟨0, 0⟩).1, fun host call s => ?_⟩
  obtain ⟨found, hsublist, hmem, hrun⟩ :=
    hmethod host call cx receivers 0 _ (.string "c") "c" rfl rfl rfl
  have hfound : (⟨0, 0⟩ : Node) ∈ found.toList := (hmem _).mpr ⟨by decide, _, hclass, rfl⟩
  have hother : (⟨0, 4⟩ : Node) ∉ found.toList := by
    intro hmem4
    obtain ⟨-, c, hc, hid⟩ := (hmem _).mp hmem4
    -- along the label, the first receiver reaches itself alone
    have hself : (gs.reach "I" ⟨0, 4⟩).toList = [⟨0, 4⟩] := by decide
    have hfar := ((hreach "I" ⟨0, 4⟩).2.2 c).mpr hc
    rw [hself] at hfar
    rw [List.mem_singleton.mp hfar] at hid
    exact absurd hid (by decide)
  obtain ⟨r, t, ht, rfl | ⟨-, hstop⟩⟩ := hrun s
  · exact ⟨found, t, ht, hsublist, hfound, hother⟩
  · -- nobody stops the method
    exact absurd hstop Bool.false_ne_true

end GraphQuery
