import GraphQuery.Graph.Search
import GraphQuery.Graph.Walk

/-!
# The representation of a graph

A graph stores each edge three times: in the table of edges, in the list of the edges that leave its
source, and in the list of those that arrive at its sink. Searches go from one to the other by
position and never ask whether a position is in range, so they rely on the three being in step.

A graph is **built** (`Graph.Built`) if it comes from the empty graph by adding nodes, adding edges
between nodes that are there, and filling in what does not concern the structure. It is **consistent**
(`Graph.Consistent`) if edges have their ends in the graph, and the two lists of each node are the
positions of its edges in increasing order. The second follows from the first, one addition at a time.

What is derived from an element of a consistent graph is an element of the same graph. For the two
searches with tests this holds in every lawful monad, so whatever the tests do: they are asked about
elements of the graph only, and so is the node that comes back one. What a monadic search can come
back with is told by `MonadAttach.CanReturn`.

## Main statements

* `Graph.Built.consistent`: a graph that is built is consistent.
* `Graph.built_build`: a graph that is described is built.
* `Graphs.mem_outgoing`, `Graphs.mem_incoming`: the lists of a node against the table of edges.
* `graph_representation`: consistency, and the range of all derived elements.
-/

namespace GraphQuery

namespace Graph

/-- What is stored about the node at a position. -/
def node (g : Graph) (v : Nat) : NodeData := g.nodes.getD v default

/-- What is stored about the edge at a position. -/
def edge (g : Graph) (e : Nat) : EdgeData := g.edges.getD e default

/-- The graph comes from the empty one by adding nodes and edges. Between the additions, the parts of
nodes and edges that do not concern the structure may be changed. -/
inductive Built : Graph → Prop where
  | empty : Built {}
  | addNode {g : Graph} (built : Built g) (id : String) : Built (g.addNode id)
  | addEdge {g : Graph} (built : Built g) {source sink : Nat} (source_lt : source < g.nodes.size)
      (sink_lt : sink < g.nodes.size) (label : String) : Built (g.addEdge source sink label)
  | modifyNode {g : Graph} (built : Built g) (node : Nat) {f : NodeData → NodeData}
      (outgoing : ∀ n, (f n).outgoing = n.outgoing) (incoming : ∀ n, (f n).incoming = n.incoming) :
      Built (g.modifyNode node f)
  | modifyEdge {g : Graph} (built : Built g) (edge : Nat) {f : EdgeData → EdgeData}
      (source : ∀ e, (f e).source = e.source) (sink : ∀ e, (f e).sink = e.sink) :
      Built (g.modifyEdge edge f)

/-- The positions of the edges that have a node at one end, in increasing order. -/
def positions (g : Graph) (side : EdgeData → Nat) (v : Nat) : List Nat :=
  (List.range g.edges.size).filter fun e => side (g.edge e) = v

/-- The ends of the edges are nodes, and each node knows its edges. -/
structure Consistent (g : Graph) : Prop where
  /-- An edge leaves a node of the graph. -/
  source_lt : ∀ e < g.edges.size, (g.edge e).source < g.nodes.size
  /-- An edge arrives at a node of the graph. -/
  sink_lt : ∀ e < g.edges.size, (g.edge e).sink < g.nodes.size
  /-- The edges that leave a node. -/
  outgoing : ∀ v < g.nodes.size, (g.node v).outgoing.toList = g.positions EdgeData.source v
  /-- The edges that arrive at a node. -/
  incoming : ∀ v < g.nodes.size, (g.node v).incoming.toList = g.positions EdgeData.sink v

/-- A position is that of an edge which has the node at the end in question. -/
theorem mem_positions {g : Graph} {side : EdgeData → Nat} {v e : Nat} :
    e ∈ g.positions side v ↔ e < g.edges.size ∧ side (g.edge e) = v := by
  rw [positions, List.mem_filter, List.mem_range, decide_eq_true_iff]

/-- Positions are listed in increasing order. -/
theorem pairwise_positions (g : Graph) (side : EdgeData → Nat) (v : Nat) :
    (g.positions side v).Pairwise (· < ·) :=
  List.pairwise_lt_range.filter _

/-- The positions depend only on the ends of the edges. -/
theorem positions_congr {g g' : Graph} {side : EdgeData → Nat} (hsize : g'.edges.size = g.edges.size)
    (hside : ∀ e < g.edges.size, side (g'.edge e) = side (g.edge e)) (v : Nat) :
    g'.positions side v = g.positions side v := by
  unfold positions
  rw [hsize]
  apply List.filter_congr
  intro e he
  rw [hside e (List.mem_range.mp he)]

/-! ### Additions -/

/-- A node that is added comes last and has no edges. -/
theorem node_addNode (g : Graph) (id : String) (v : Nat) :
    (g.addNode id).node v = if v = g.nodes.size then { id } else g.node v := by
  unfold node addNode
  rw [Array.getD_eq_getD_getElem?, Array.getD_eq_getD_getElem?, Array.getElem?_push]
  split
  · rfl
  · rfl

/-- An edge that is added comes last. -/
theorem edge_addEdge (g : Graph) (source sink : Nat) (label : String) (e : Nat) :
    (g.addEdge source sink label).edge e =
      if e = g.edges.size then { label, source, sink } else g.edge e := by
  unfold edge addEdge
  rw [Array.getD_eq_getD_getElem?, Array.getD_eq_getD_getElem?, Array.getElem?_push]
  split
  · rfl
  · rfl

/-- An addition puts the position of the edge at the end of two lists, which may be those of one
node. -/
theorem node_addEdge (g : Graph) (source sink : Nat) (label : String) {v : Nat}
    (hv : v < g.nodes.size) :
    (g.addEdge source sink label).node v =
      { g.node v with
        outgoing := if source = v then (g.node v).outgoing.push g.edges.size else (g.node v).outgoing
        incoming := if sink = v then (g.node v).incoming.push g.edges.size else (g.node v).incoming } := by
  unfold node addEdge
  dsimp only
  rw [Array.getD_eq_getD_getElem?, Array.getD_eq_getD_getElem?, Array.getElem?_modify,
    Array.getElem?_modify, Array.getElem?_eq_getElem hv]
  -- the two ends may be the same node, which then gets the position in both of its lists
  by_cases hsource : source = v <;> by_cases hsink : sink = v <;> simp [hsource, hsink]

/-- No node comes with an edge. -/
theorem size_addEdge (g : Graph) (source sink : Nat) (label : String) :
    (g.addEdge source sink label).nodes.size = g.nodes.size :=
  Array.size_modify.trans Array.size_modify

/-- The new edge comes last. -/
theorem positions_addEdge (g : Graph) (side : EdgeData → Nat) (source sink : Nat) (label : String)
    (v : Nat) :
    (g.addEdge source sink label).positions side v =
      g.positions side v ++ if side { label, source, sink } = v then [g.edges.size] else [] := by
  have hsize : (g.addEdge source sink label).edges.size = g.edges.size + 1 := Array.size_push _
  have hlast : (g.addEdge source sink label).edge g.edges.size = { label, source, sink } := by
    rw [edge_addEdge, if_pos rfl]
  unfold positions
  rw [hsize, List.range_succ, List.filter_append]
  congr 1
  · apply List.filter_congr
    intro e he
    rw [edge_addEdge, if_neg (Nat.ne_of_lt (List.mem_range.mp he))]
  · rw [List.filter_cons, List.filter_nil, hlast]
    by_cases h : side { label, source, sink } = v <;> simp [h]

/-- Only the node at the position is changed. -/
theorem node_modifyNode (g : Graph) (v w : Nat) (f : NodeData → NodeData) (hw : w < g.nodes.size) :
    (g.modifyNode v f).node w = if v = w then f (g.node w) else g.node w := by
  unfold node modifyNode
  rw [Array.getD_eq_getD_getElem?, Array.getD_eq_getD_getElem?, Array.getElem?_modify,
    Array.getElem?_eq_getElem hw]
  split
  · rfl
  · rfl

/-- Only the edge at the position is changed. -/
theorem edge_modifyEdge (g : Graph) (e d : Nat) (f : EdgeData → EdgeData) (hd : d < g.edges.size) :
    (g.modifyEdge e f).edge d = if e = d then f (g.edge d) else g.edge d := by
  unfold edge modifyEdge
  rw [Array.getD_eq_getD_getElem?, Array.getD_eq_getD_getElem?, Array.getElem?_modify,
    Array.getElem?_eq_getElem hd]
  split
  · rfl
  · rfl

/-! ### Consistency of what is built -/

/-- The empty graph has nothing that could be out of step. -/
theorem consistent_empty : Consistent {} where
  source_lt _ he := absurd he (Nat.not_lt_zero _)
  sink_lt _ he := absurd he (Nat.not_lt_zero _)
  outgoing _ hv := absurd hv (Nat.not_lt_zero _)
  incoming _ hv := absurd hv (Nat.not_lt_zero _)

namespace Consistent

variable {g : Graph}

/-- No edge has its end at a node that is not there. -/
theorem positions_eq_nil (h : g.Consistent) {v : Nat} (hv : g.nodes.size ≤ v) :
    g.positions EdgeData.source v = [] ∧ g.positions EdgeData.sink v = [] := by
  constructor
  · rw [List.eq_nil_iff_forall_not_mem]
    intro e he
    obtain ⟨hlt, rfl⟩ := mem_positions.mp he
    exact Nat.not_lt.mpr hv (h.source_lt e hlt)
  · rw [List.eq_nil_iff_forall_not_mem]
    intro e he
    obtain ⟨hlt, rfl⟩ := mem_positions.mp he
    exact Nat.not_lt.mpr hv (h.sink_lt e hlt)

/-- A new node has two empty lists, and no edge is at it yet. -/
theorem addNode (h : g.Consistent) (id : String) : (g.addNode id).Consistent := by
  have hsize : (g.addNode id).nodes.size = g.nodes.size + 1 := Array.size_push _
  -- a node that is new has no edges, and nothing is said about it in the table
  have hnode : ∀ v < (g.addNode id).nodes.size,
      ((g.addNode id).node v).outgoing.toList = g.positions EdgeData.source v ∧
      ((g.addNode id).node v).incoming.toList = g.positions EdgeData.sink v := by
    intro v hv
    rw [node_addNode]
    split
    · next hlast =>
      obtain ⟨hsource, hsink⟩ := h.positions_eq_nil (Nat.le_of_eq hlast.symm)
      rw [hsource, hsink]
      exact ⟨rfl, rfl⟩
    · next hne =>
      have hlt : v < g.nodes.size := by omega
      exact ⟨h.outgoing v hlt, h.incoming v hlt⟩
  exact
    { source_lt := fun e he => Nat.lt_trans (h.source_lt e he) (hsize ▸ Nat.lt_succ_self _)
      sink_lt := fun e he => Nat.lt_trans (h.sink_lt e he) (hsize ▸ Nat.lt_succ_self _)
      outgoing := fun v hv => (hnode v hv).1
      incoming := fun v hv => (hnode v hv).2 }

/-- An edge between two nodes goes to the end of one list at each. -/
theorem addEdge (h : g.Consistent) {source sink : Nat} (hsource : source < g.nodes.size)
    (hsink : sink < g.nodes.size) (label : String) : (g.addEdge source sink label).Consistent := by
  have hsize := g.size_addEdge source sink label
  have hedges : (g.addEdge source sink label).edges.size = g.edges.size + 1 := Array.size_push _
  constructor
  case source_lt =>
    intro e he
    rw [edge_addEdge, hsize]
    split
    · exact hsource
    · exact h.source_lt e (by omega)
  case sink_lt =>
    intro e he
    rw [edge_addEdge, hsize]
    split
    · exact hsink
    · exact h.sink_lt e (by omega)
  -- the list and the positions of the node both grow by the new edge, or neither does
  case outgoing =>
    intro v hv
    rw [hsize] at hv
    rw [node_addEdge g source sink label hv, positions_addEdge, ← h.outgoing v hv]
    by_cases hv : source = v <;> simp [hv]
  case incoming =>
    intro v hv
    rw [hsize] at hv
    rw [node_addEdge g source sink label hv, positions_addEdge, ← h.incoming v hv]
    by_cases hv : sink = v <;> simp [hv]

/-- The lists of a node stay as they are, so nothing is out of step. -/
theorem modifyNode (h : g.Consistent) (v : Nat) {f : NodeData → NodeData}
    (houtgoing : ∀ n, (f n).outgoing = n.outgoing) (hincoming : ∀ n, (f n).incoming = n.incoming) :
    (g.modifyNode v f).Consistent := by
  have hsize : (g.modifyNode v f).nodes.size = g.nodes.size := Array.size_modify
  constructor
  case source_lt => exact fun e he => hsize.symm ▸ h.source_lt e he
  case sink_lt => exact fun e he => hsize.symm ▸ h.sink_lt e he
  case outgoing =>
    intro w hw
    rw [hsize] at hw
    rw [node_modifyNode g v w f hw]
    refine Eq.trans ?_ (h.outgoing w hw)
    split
    · rw [houtgoing]
    · rfl
  case incoming =>
    intro w hw
    rw [hsize] at hw
    rw [node_modifyNode g v w f hw]
    refine Eq.trans ?_ (h.incoming w hw)
    split
    · rw [hincoming]
    · rfl

/-- The ends of an edge stay as they are, so nothing is out of step. -/
theorem modifyEdge (h : g.Consistent) (e : Nat) {f : EdgeData → EdgeData}
    (hsource : ∀ d, (f d).source = d.source) (hsink : ∀ d, (f d).sink = d.sink) :
    (g.modifyEdge e f).Consistent := by
  have hsize : (g.modifyEdge e f).edges.size = g.edges.size := Array.size_modify
  have hside : ∀ side : EdgeData → Nat, (∀ d, side (f d) = side d) → ∀ d < g.edges.size,
      side ((g.modifyEdge e f).edge d) = side (g.edge d) := by
    intro side hf d hd
    rw [edge_modifyEdge g e d f hd]
    split
    · exact hf _
    · rfl
  constructor
  case source_lt =>
    intro d hd
    rw [hsize] at hd
    rw [hside _ hsource d hd]
    exact h.source_lt d hd
  case sink_lt =>
    intro d hd
    rw [hsize] at hd
    rw [hside _ hsink d hd]
    exact h.sink_lt d hd
  case outgoing =>
    exact fun v hv => (h.outgoing v hv).trans (positions_congr hsize (hside _ hsource) v).symm
  case incoming =>
    exact fun v hv => (h.incoming v hv).trans (positions_congr hsize (hside _ hsink) v).symm

end Consistent

/-- **A graph that is built is consistent.** -/
theorem Built.consistent {g : Graph} (h : g.Built) : g.Consistent := by
  -- one case for each addition, which the lemmas above have settled
  induction h with
  | empty => exact consistent_empty
  | addNode _ id ih => exact ih.addNode id
  | addEdge _ hsource hsink label ih => exact ih.addEdge hsource hsink label
  | modifyNode _ v houtgoing hincoming ih => exact ih.modifyNode v houtgoing hincoming
  | modifyEdge _ e hsource hsink ih => exact ih.modifyEdge e hsource hsink

/-! ### Descriptions -/

/-- A node that is described is added and then filled in. -/
theorem built_addNodeSpec {g : Graph} (h : g.Built) (spec : NodeSpec) : (g.addNodeSpec spec).Built := by
  have htypes : ∀ (types : List String) (n : NodeData),
      (types.foldl NodeData.addType n).outgoing = n.outgoing ∧
      (types.foldl NodeData.addType n).incoming = n.incoming := by
    intro types
    induction types with
    -- the types are added one by one, and none of them touches the lists
    | nil => exact fun n => ⟨rfl, rfl⟩
    | cons type types ih =>
      intro n
      have hadd : (n.addType type).outgoing = n.outgoing ∧ (n.addType type).incoming = n.incoming := by
        unfold NodeData.addType
        split <;> exact ⟨rfl, rfl⟩
      exact ⟨(ih _).1.trans hadd.1, (ih _).2.trans hadd.2⟩
  exact .modifyNode (h.addNode spec.id) _ (fun n => (htypes spec.types n).1)
    fun n => (htypes spec.types n).2

/-- A description adds one node. -/
theorem size_addNodeSpec (g : Graph) (spec : NodeSpec) :
    (g.addNodeSpec spec).nodes.size = g.nodes.size + 1 :=
  Array.size_modify.trans (Array.size_push _)

/-- An edge that is described is added and then filled in. -/
theorem built_addEdgeSpec {g : Graph} (h : g.Built) {spec : EdgeSpec}
    (hsource : spec.source < g.nodes.size) (hsink : spec.sink < g.nodes.size) :
    (g.addEdgeSpec spec).Built :=
  .modifyEdge (h.addEdge hsource hsink spec.label) _ (fun _ => rfl) fun _ => rfl

/-- **A graph that is described is built**, if its edges are between its nodes. -/
theorem built_build (nodes : List NodeSpec) (edges : List EdgeSpec)
    (hedges : ∀ e ∈ edges, e.source < nodes.length ∧ e.sink < nodes.length) :
    (build nodes edges).Built := by
  have hnodes : ∀ (specs : List NodeSpec) (g : Graph), g.Built →
      (specs.foldl addNodeSpec g).Built ∧
      (specs.foldl addNodeSpec g).nodes.size = g.nodes.size + specs.length := by
    -- nodes are counted on the way, since the edges refer to them by position
    intro specs
    induction specs with
    | nil => exact fun g hg => ⟨hg, rfl⟩
    | cons spec specs ih =>
      intro g hg
      obtain ⟨hbuilt, hsize⟩ := ih _ (built_addNodeSpec hg spec)
      refine ⟨hbuilt, hsize.trans ?_⟩
      rw [size_addNodeSpec, List.length_cons]
      omega
  obtain ⟨hbuilt, hsize⟩ := hnodes nodes {} .empty
  have hcount : (nodes.foldl addNodeSpec {}).nodes.size = nodes.length :=
    hsize.trans (Nat.zero_add _)
  -- adding edges leaves the number of nodes as it is
  have hall : ∀ (specs : List EdgeSpec) (g : Graph), g.Built → g.nodes.size = nodes.length →
      (∀ e ∈ specs, e.source < nodes.length ∧ e.sink < nodes.length) →
      (specs.foldl addEdgeSpec g).Built := by
    intro specs
    induction specs with
    | nil => exact fun g hg _ _ => hg
    | cons spec specs ih =>
      intro g hg hsize hspecs
      obtain ⟨⟨hsource, hsink⟩, hspecs⟩ := List.forall_mem_cons.mp hspecs
      rw [← hsize] at hsource hsink
      exact ih _ (built_addEdgeSpec hg hsource hsink)
        ((size_addEdge g spec.source spec.sink spec.label).trans hsize) hspecs
  exact hall edges _ hbuilt hcount hedges

end Graph

/-! ### Elements of several graphs -/

namespace Graphs

/-- The node is in range. -/
def HasNode (gs : Graphs) (n : Node) : Prop := n.index < (gs.graph n.graph).nodes.size

/-- The edge is in range. -/
def HasEdge (gs : Graphs) (e : Edge) : Prop := e.index < (gs.graph e.graph).edges.size

instance (gs : Graphs) (n : Node) : Decidable (gs.HasNode n) := Nat.decLt _ _

instance (gs : Graphs) (e : Edge) : Decidable (gs.HasEdge e) := Nat.decLt _ _

/-- All graphs are consistent. -/
def Consistent (gs : Graphs) : Prop := ∀ i, (gs.graph i).Consistent

/-- Past the last graph there are only empty ones. -/
theorem consistent_of_built {gs : Graphs} (h : ∀ g ∈ gs.all, g.Built) : gs.Consistent := by
  intro i
  unfold graph
  rw [Array.getD_eq_getD_getElem?]
  by_cases hi : i < gs.all.size
  · rw [Array.getElem?_eq_getElem hi]
    exact (h _ (Array.getElem_mem hi)).consistent
  · rw [Array.getElem?_eq_none (Nat.le_of_not_lt hi)]
    exact Graph.consistent_empty

variable {gs : Graphs}

/-- Nothing is stored about a node that is not there. -/
theorem node_of_size_le {n : Node} (h : (gs.graph n.graph).nodes.size ≤ n.index) :
    gs.node n = default := by
  unfold node
  rw [Array.getD_eq_getD_getElem?, Array.getElem?_eq_none h, Option.getD_none]

/-- The edges that leave a node, by position. -/
theorem outgoing_eq (hgs : gs.Consistent) (n : Node) :
    gs.outgoing n = ((gs.graph n.graph).positions EdgeData.source n.index).map (⟨n.graph, ·⟩) := by
  by_cases hn : n.index < (gs.graph n.graph).nodes.size
  · exact congrArg _ ((hgs n.graph).outgoing n.index hn)
  · -- a node that is not there has no edges
    have hsize := Nat.le_of_not_lt hn
    rw [((hgs n.graph).positions_eq_nil hsize).1, outgoing, node_of_size_le hsize]
    rfl

/-- The edges that arrive at a node, by position. -/
theorem incoming_eq (hgs : gs.Consistent) (n : Node) :
    gs.incoming n = ((gs.graph n.graph).positions EdgeData.sink n.index).map (⟨n.graph, ·⟩) := by
  by_cases hn : n.index < (gs.graph n.graph).nodes.size
  · exact congrArg _ ((hgs n.graph).incoming n.index hn)
  · have hsize := Nat.le_of_not_lt hn
    rw [((hgs n.graph).positions_eq_nil hsize).2, incoming, node_of_size_le hsize]
    rfl

/-- An edge is among those at a node if the node is at the end in question. -/
theorem mem_map_positions {side : EdgeData → Nat} {n : Node} {e : Edge} :
    e ∈ ((gs.graph n.graph).positions side n.index).map (⟨n.graph, ·⟩) ↔
      gs.HasEdge e ∧ (⟨e.graph, side (gs.edge e)⟩ : Node) = n := by
  obtain ⟨i, v⟩ := n
  obtain ⟨j, p⟩ := e
  rw [List.mem_map]
  constructor
  · rintro ⟨q, hq, heq⟩
    cases heq
    obtain ⟨hlt, hside⟩ := Graph.mem_positions.mp hq
    exact ⟨hlt, congrArg (Node.mk i) hside⟩
  · rintro ⟨hlt, hside⟩
    cases hside
    exact ⟨p, Graph.mem_positions.mpr ⟨hlt, rfl⟩, rfl⟩

/-- **The edges that leave a node**, in terms of the table of edges. -/
theorem mem_outgoing (hgs : gs.Consistent) {n : Node} {e : Edge} :
    e ∈ gs.outgoing n ↔ gs.HasEdge e ∧ gs.source e = n := by
  rw [outgoing_eq hgs]
  exact mem_map_positions

/-- **The edges that arrive at a node**, in terms of the table of edges. -/
theorem mem_incoming (hgs : gs.Consistent) {n : Node} {e : Edge} :
    e ∈ gs.incoming n ↔ gs.HasEdge e ∧ gs.sink e = n := by
  rw [incoming_eq hgs]
  exact mem_map_positions

/-- Edges that are sorted by the nodes they arrive at. -/
theorem pairwise_mergeSort_sink (gs : Graphs) (edges : List Edge) :
    (edges.mergeSort fun a b => (gs.edge a).sink ≤ (gs.edge b).sink).Pairwise fun d e =>
      (gs.edge d).sink ≤ (gs.edge e).sink := by
  apply (List.pairwise_mergeSort ?_ ?_ edges).imp
  · exact fun h => of_decide_eq_true h
  · simpa using fun a b c => Nat.le_trans
  · simpa using fun a b => Nat.le_total _ _

/-- Sorting the edges of a node loses none. -/
theorem mem_outgoingBySink (hgs : gs.Consistent) {n : Node} {e : Edge} :
    e ∈ gs.outgoingBySink n ↔ gs.HasEdge e ∧ gs.source e = n := by
  unfold outgoingBySink
  rw [List.mem_mergeSort, mem_outgoing hgs]

/-- An edge in range leaves a node in range. -/
theorem hasNode_source (hgs : gs.Consistent) {e : Edge} (he : gs.HasEdge e) : gs.HasNode (gs.source e) :=
  (hgs e.graph).source_lt e.index he

/-- An edge in range arrives at a node in range. -/
theorem hasNode_sink (hgs : gs.Consistent) {e : Edge} (he : gs.HasEdge e) : gs.HasNode (gs.sink e) :=
  (hgs e.graph).sink_lt e.index he

/-! ### Elements that searches meet -/

/-- The node is in range, in one of some graphs. -/
def NodeIn (gs : Graphs) (I : Nat → Prop) (n : Node) : Prop := gs.HasNode n ∧ I n.graph

/-- The edge is in range, in one of some graphs. -/
def EdgeIn (gs : Graphs) (I : Nat → Prop) (e : Edge) : Prop := gs.HasEdge e ∧ I e.graph

/-- Two steps of a walk test the elements of some graphs in the same way. -/
structure StepsAgree {m : Type → Type} (gs : Graphs) (I : Nat → Prop) (step step' : Step m) : Prop where
  /-- Their tests of edges agree. -/
  follow : ∀ e, gs.EdgeIn I e → step.follow e = step'.follow e
  /-- Their tests of nodes agree. -/
  accept : ∀ n, gs.NodeIn I n → step.accept n = step'.accept n

section Searches

variable {I : Nat → Prop} (hgs : gs.Consistent)

include hgs

/-- An edge leads to a node of the same graph. -/
theorem nodeIn_sink {e : Edge} (he : gs.EdgeIn I e) : gs.NodeIn I (gs.sink e) :=
  ⟨hasNode_sink hgs he.1, he.2⟩

/-- The edges that leave a node belong to its graph, whether or not the node is in range. -/
theorem edgeIn_outgoing {n : Node} (hn : I n.graph) : ∀ e ∈ gs.outgoing n, gs.EdgeIn I e := by
  intro e he
  obtain ⟨hedge, rfl⟩ := (mem_outgoing hgs).mp he
  exact ⟨hedge, hn⟩

/-- Sorting the edges does not take them out of the graph. -/
theorem edgeIn_outgoingBySink {n : Node} (hn : I n.graph) : ∀ e ∈ gs.outgoingBySink n, gs.EdgeIn I e :=
  fun e he => edgeIn_outgoing hgs hn e (List.mem_mergeSort.mp he)

/-- An agenda gets edges of the same graphs when a node is opened. -/
theorem edgeIn_agenda {n : Node} (hn : I n.graph) {agenda : List Edge}
    (hagenda : ∀ e ∈ agenda, gs.EdgeIn I e) :
    ∀ e ∈ gs.outgoingBySink n ++ agenda, gs.EdgeIn I e := by
  intro e he
  rcases List.mem_append.mp he with he | he
  · exact edgeIn_outgoingBySink hgs hn e he
  · exact hagenda e he

/-! #### The first node that is accepted -/

variable {m : Type → Type} [Monad m]

section Tests

variable {accept accept' : Node → m Bool} {follow follow' : Edge → m Bool}
  (haccept : ∀ n, gs.NodeIn I n → accept n = accept' n)
  (hfollow : ∀ e, gs.EdgeIn I e → follow e = follow' e)

include haccept hfollow

/-- Only edges of the agenda are tested, and nodes that they arrive at. -/
theorem search_congr (k : Nat) (seen : List Node) {agenda : List Edge}
    (hagenda : ∀ e ∈ agenda, gs.EdgeIn I e) :
    gs.search accept follow k seen agenda = gs.search accept' follow' k seen agenda := by
  -- the induction is on the rounds; every agenda of a later round is one of the same graphs
  induction k generalizing seen agenda with
  | zero => cases agenda <;> rfl
  | succ k ih =>
    cases agenda with
    | nil => rfl
    | cons e agenda =>
      obtain ⟨he, hrest⟩ := List.forall_mem_cons.mp hagenda
      have hsink : gs.NodeIn I (gs.sink e) := nodeIn_sink hgs he
      simp only [search, hfollow e he, haccept _ hsink, ih _ hrest,
        ih _ (edgeIn_agenda hgs hsink.2 hrest)]

/-- **A search depends on the tests of its own graph** only. -/
theorem firstReachable_congr {start : Node} (hstart : gs.NodeIn I start) :
    gs.firstReachable accept follow start = gs.firstReachable accept' follow' start := by
  unfold firstReachable
  rw [haccept start hstart,
    search_congr hgs haccept hfollow _ _ (edgeIn_outgoingBySink hgs hstart.2)]

end Tests

open MonadAttach LawfulMonadAttach

variable [LawfulMonad m] [MonadAttach m] [LawfulMonadAttach m]

/-- What a search on an agenda comes back with is a node that an edge leads to. -/
theorem nodeIn_of_search {accept : Node → m Bool} {follow : Edge → m Bool} {k : Nat}
    {seen : List Node} {agenda : List Edge} (hagenda : ∀ e ∈ agenda, gs.EdgeIn I e) {found : Node}
    (h : CanReturn (gs.search accept follow k seen agenda) (some found)) : gs.NodeIn I found := by
  have hnone : ∀ {found : Node}, ¬ CanReturn (pure none : m (Option Node)) (some found) := by
    intro found h
    have heq : none = some found := eq_of_canReturn_pure h
    cases heq
  induction k generalizing seen agenda with
  | zero => cases agenda <;> exact absurd h hnone
  -- a round ends the search or goes on with an agenda of the same graphs
  | succ k ih =>
    cases agenda with
    | nil => exact absurd h hnone
    | cons e agenda =>
      obtain ⟨he, hrest⟩ := List.forall_mem_cons.mp hagenda
      have hsink : gs.NodeIn I (gs.sink e) := nodeIn_sink hgs he
      rw [search] at h
      split at h
      · exact ih hrest h
      · obtain ⟨followed, -, h⟩ := canReturn_bind_imp' h
        split at h
        · obtain ⟨accepted, -, h⟩ := canReturn_bind_imp' h
          split at h
          · -- the node that is returned is the one that the edge arrives at
            have heq : some (gs.sink e) = some found := eq_of_canReturn_pure h
            exact Option.some.inj heq ▸ hsink
          · exact ih (edgeIn_agenda hgs hsink.2 hrest) h
        · exact ih hrest h

/-- **A search comes back with nodes of its own graph** only. -/
theorem nodeIn_of_firstReachable {accept : Node → m Bool} {follow : Edge → m Bool} {start found : Node}
    (hstart : gs.NodeIn I start) (h : CanReturn (gs.firstReachable accept follow start) (some found)) :
    gs.NodeIn I found := by
  unfold firstReachable at h
  obtain ⟨accepted, -, h⟩ := canReturn_bind_imp' h
  split at h
  · have heq : some start = some found := eq_of_canReturn_pure h
    exact Option.some.inj heq ▸ hstart
  · exact nodeIn_of_search hgs (edgeIn_outgoingBySink hgs hstart.2) h

/-! #### Walks -/

omit hgs in
/-- What a computation goes on with matters for what it can come back with, and for nothing else. -/
theorem bind_congr_of_canReturn {α β : Type} {x : m α} {f g : α → m β}
    (h : ∀ a, CanReturn x a → f a = g a) : x >>= f = x >>= g := by
  calc
    x >>= f = attach x >>= fun a => f a.1 := WeaklyLawfulMonadAttach.attach_bind_val.symm
    _ = attach x >>= fun a => g a.1 := by
      congr 1
      funext a
      exact h a.1 a.2
    _ = x >>= g := WeaklyLawfulMonadAttach.attach_bind_val

omit hgs in
/-- What is selected has been there before. -/
theorem subset_of_selectM {α : Type} {p : α → m Bool} {as found : List α}
    (h : CanReturn (selectM p as) found) : ∀ a ∈ found, a ∈ as := by
  induction as generalizing found with
  | nil =>
    obtain rfl := eq_of_canReturn_pure h
    exact List.forall_mem_nil _
  | cons a as ih =>
    rw [selectM] at h
    obtain ⟨taken, -, h⟩ := canReturn_bind_imp' h
    split at h
    · obtain ⟨rest, hrest, h⟩ := canReturn_bind_imp' h
      obtain rfl := eq_of_canReturn_pure h
      exact List.forall_mem_cons.mpr
        ⟨List.mem_cons_self, fun b hb => List.mem_cons_of_mem a (ih hrest b hb)⟩
    · exact fun b hb => List.mem_cons_of_mem a (ih h b hb)

omit hgs [LawfulMonad m] [MonadAttach m] [LawfulMonadAttach m] in
/-- A selection tests its members only. -/
theorem selectM_congr {α : Type} {p p' : α → m Bool} {as : List α} (h : ∀ a ∈ as, p a = p' a) :
    selectM p as = selectM p' as := by
  induction as with
  | nil => rfl
  | cons a as ih =>
    obtain ⟨ha, has⟩ := List.forall_mem_cons.mp h
    simp only [selectM, ha, ih has]

/-- The nodes that are found at the far ends of edges belong to the graphs of the edges. -/
theorem nodeIn_of_arrive {accept : Node → m Bool} {edges : List Edge}
    (hedges : ∀ e ∈ edges, gs.EdgeIn I e) {found next : OrderedSet Node}
    (hfound : ∀ n ∈ found.toList, gs.NodeIn I n)
    (h : CanReturn (gs.arrive accept found edges) next) : ∀ n ∈ next.toList, gs.NodeIn I n := by
  induction edges generalizing found with
  | nil =>
    obtain rfl := eq_of_canReturn_pure h
    exact hfound
  | cons e edges ih =>
    obtain ⟨he, hedges⟩ := List.forall_mem_cons.mp hedges
    rw [arrive] at h
    split at h
    · exact ih hedges hfound h
    · obtain ⟨accepted, -, h⟩ := canReturn_bind_imp' h
      split at h
      · refine ih hedges (fun n hn => ?_) h
        rcases (OrderedSet.mem_insert _ _ _).mp hn with hn | rfl
        · exact hfound n hn
        · exact nodeIn_sink hgs he
      · exact ih hedges hfound h

omit [LawfulMonad m] [MonadAttach m] [LawfulMonadAttach m] in
/-- Nodes are tested at the far ends of the edges only. -/
theorem arrive_congr {accept accept' : Node → m Bool}
    (haccept : ∀ n, gs.NodeIn I n → accept n = accept' n) (found : OrderedSet Node) {edges : List Edge}
    (hedges : ∀ e ∈ edges, gs.EdgeIn I e) :
    gs.arrive accept found edges = gs.arrive accept' found edges := by
  induction edges generalizing found with
  | nil => rfl
  | cons e edges ih =>
    obtain ⟨he, hedges⟩ := List.forall_mem_cons.mp hedges
    simp only [arrive, haccept _ (nodeIn_sink hgs he), ih _ hedges]

/-- The edges that a step selects and sorts belong to the graph of the node. -/
theorem edgeIn_of_selectM {follow : Edge → m Bool} {node : Node} (hnode : I node.graph)
    {edges : List Edge} (h : CanReturn (selectM follow (gs.outgoing node)) edges)
    {le : Edge → Edge → Bool} : ∀ e ∈ edges.mergeSort le, gs.EdgeIn I e :=
  fun e he => edgeIn_outgoing hgs hnode e (subset_of_selectM h e (List.mem_mergeSort.mp he))

/-- One step of a walk stays in the graphs that it starts in. -/
theorem nodeIn_of_stepFrom {step : Step m} {found next : OrderedSet Node} {nodes : List Node}
    (hnodes : ∀ n ∈ nodes, I n.graph) (hfound : ∀ n ∈ found.toList, gs.NodeIn I n)
    (h : CanReturn (gs.stepFrom step found nodes) next) : ∀ n ∈ next.toList, gs.NodeIn I n := by
  -- the induction is on the nodes that the step goes through, with what has been found before them
  induction nodes generalizing found with
  | nil =>
    obtain rfl := eq_of_canReturn_pure h
    exact hfound
  | cons node nodes ih =>
    obtain ⟨hnode, hnodes⟩ := List.forall_mem_cons.mp hnodes
    rw [stepFrom] at h
    obtain ⟨edges, hedges, h⟩ := canReturn_bind_imp' h
    obtain ⟨more, hmore, h⟩ := canReturn_bind_imp' h
    exact ih hnodes (nodeIn_of_arrive hgs (edgeIn_of_selectM hgs hnode hedges) hfound hmore) h

/-- One step of a walk tests elements of the graphs that it starts in. -/
theorem stepFrom_congr {step step' : Step m} (hstep : gs.StepsAgree I step step')
    (found : OrderedSet Node) {nodes : List Node} (hnodes : ∀ n ∈ nodes, I n.graph) :
    gs.stepFrom step found nodes = gs.stepFrom step' found nodes := by
  induction nodes generalizing found with
  | nil => rfl
  | cons node nodes ih =>
    obtain ⟨hnode, hnodes⟩ := List.forall_mem_cons.mp hnodes
    rw [stepFrom, stepFrom, ← selectM_congr fun e he => hstep.follow e (edgeIn_outgoing hgs hnode e he)]
    apply bind_congr_of_canReturn
    intro edges hedges
    dsimp only
    -- the edges are those that the first test lets through, so the second test is not asked about others
    rw [arrive_congr hgs hstep.accept _ (edgeIn_of_selectM hgs hnode hedges)]
    congr 1
    funext next
    exact ih next hnodes

/-- **A walk stays in the graphs that it starts in,** since each of its steps does. -/
theorem nodeIn_of_walk {steps : List (Step m)} {nodes found : OrderedSet Node}
    (hnodes : ∀ n ∈ nodes.toList, gs.NodeIn I n) (h : CanReturn (gs.walk steps nodes) found) :
    ∀ n ∈ found.toList, gs.NodeIn I n := by
  induction steps generalizing nodes with
  | nil =>
    obtain rfl := eq_of_canReturn_pure h
    exact hnodes
  -- the first step leaves nodes of the same graphs, from which the other steps go on
  | cons step steps ih =>
    rw [walk] at h
    obtain ⟨next, hnext, h⟩ := canReturn_bind_imp' h
    refine ih (nodeIn_of_stepFrom hgs (fun n hn => (hnodes n hn).2) ?_ hnext) h
    exact List.forall_mem_nil _

/-- The tests of a walk may be changed outside the graphs of the nodes that it starts from. -/
theorem walk_congr {steps : List (Step m)} {change : Step m → Step m}
    (hsteps : ∀ step ∈ steps, gs.StepsAgree I step (change step)) {nodes : OrderedSet Node}
    (hnodes : ∀ n ∈ nodes.toList, gs.NodeIn I n) :
    gs.walk steps nodes = gs.walk (steps.map change) nodes := by
  induction steps generalizing nodes with
  | nil => rfl
  | cons step steps ih =>
    obtain ⟨hstep, hsteps⟩ := List.forall_mem_cons.mp hsteps
    have hgraphs : ∀ n ∈ nodes.toList, I n.graph := fun n hn => (hnodes n hn).2
    rw [List.map_cons, walk, walk, ← stepFrom_congr hgs hstep _ hgraphs]
    apply bind_congr_of_canReturn
    intro next hnext
    exact ih hsteps (nodeIn_of_stepFrom hgs hgraphs (List.forall_mem_nil _) hnext)

/-! #### Reachability along one label -/

omit [Monad m] [LawfulMonad m] [MonadAttach m] [LawfulMonadAttach m] in
/-- What is reachable along a label is in the graph. -/
theorem nodeIn_of_reachFrom {label : String} {k : Nat} {found : OrderedSet Node} {agenda : List Node}
    (hfound : ∀ n ∈ found.toList, gs.NodeIn I n) (hagenda : ∀ n ∈ agenda, gs.NodeIn I n) :
    ∀ n ∈ (gs.reachFrom label k found agenda).toList, gs.NodeIn I n := by
  -- the induction is on the rounds; the agenda changes with each
  induction k generalizing found agenda with
  | zero => cases agenda <;> exact hfound
  | succ k ih =>
    cases agenda with
    | nil => exact hfound
    | cons node agenda =>
      obtain ⟨hnode, hrest⟩ := List.forall_mem_cons.mp hagenda
      rw [reachFrom]
      split
      · exact ih hfound hrest
      · apply ih
        · intro n hn
          rcases (OrderedSet.mem_insert _ _ _).mp hn with hn | rfl
          · exact hfound n hn
          · exact hnode
        · intro n hn
          rcases List.mem_append.mp hn with hn | hn
          · -- what comes onto the agenda is behind an edge of the node
            rw [List.mem_reverse, successors, List.mem_map] at hn
            obtain ⟨e, he, rfl⟩ := hn
            exact nodeIn_sink hgs (edgeIn_outgoing hgs hnode.2 e (List.mem_filter.mp he).1)
          · exact hrest n hn

end Searches

end Graphs

/-! ### All derived elements -/

open MonadAttach Graphs in
/-- **The representation of a graph.** In graphs that have been built by additions, every edge has its
source and its sink in the graph. The edges that leave a node are those of the table which have it as
their source, each once and in increasing order, and likewise those that arrive at it; an edge from a
node to itself is in both lists.

So an element that is derived from one in range is in range, and belongs to the same graph: the edges
of a node, the ends of an edge, what is reachable along a label, the first node that a search accepts,
and the nodes that a walk leads to. Searches and walks also ask their tests about such elements only:
tests that differ elsewhere make the same search. -/
theorem graph_representation {gs : Graphs} (hgs : ∀ g ∈ gs.all, g.Built) :
    (∀ g ∈ gs.all,
      (∀ e < g.edges.size, (g.edge e).source < g.nodes.size ∧ (g.edge e).sink < g.nodes.size) ∧
      (∀ v < g.nodes.size,
        (∀ e, e ∈ (g.node v).outgoing ↔ e < g.edges.size ∧ (g.edge e).source = v) ∧
        (g.node v).outgoing.toList.Pairwise (· < ·) ∧
        (∀ e, e ∈ (g.node v).incoming ↔ e < g.edges.size ∧ (g.edge e).sink = v) ∧
        (g.node v).incoming.toList.Pairwise (· < ·)) ∧
      ∀ e < g.edges.size, (g.edge e).source = (g.edge e).sink →
        e ∈ (g.node (g.edge e).source).outgoing ∧ e ∈ (g.node (g.edge e).source).incoming) ∧
    (∀ n, gs.HasNode n → ∀ e, e ∈ gs.outgoing n ∨ e ∈ gs.incoming n → gs.EdgeIn (· = n.graph) e) ∧
    (∀ e, gs.HasEdge e →
      gs.NodeIn (· = e.graph) (gs.source e) ∧ gs.NodeIn (· = e.graph) (gs.sink e)) ∧
    (∀ label start, gs.HasNode start →
      ∀ n ∈ (gs.reach label start).toList, gs.NodeIn (· = start.graph) n) ∧
    (∀ (m : Type → Type) [Monad m] [LawfulMonad m] [MonadAttach m] [LawfulMonadAttach m],
      (∀ (accept : Node → m Bool) (follow : Edge → m Bool) (start : Node), gs.HasNode start →
        (∀ n, CanReturn (gs.firstReachable accept follow start) (some n) →
          gs.NodeIn (· = start.graph) n) ∧
        ∀ accept' follow', (∀ n, gs.NodeIn (· = start.graph) n → accept n = accept' n) →
          (∀ e, gs.EdgeIn (· = start.graph) e → follow e = follow' e) →
          gs.firstReachable accept follow start = gs.firstReachable accept' follow' start) ∧
      ∀ (steps : List (Step m)) (nodes : OrderedSet Node), (∀ n ∈ nodes.toList, gs.HasNode n) →
        let among : Nat → Prop := fun i => ∃ n ∈ nodes.toList, n.graph = i
        (∀ found, CanReturn (gs.walk steps nodes) found → ∀ n ∈ found.toList, gs.NodeIn among n) ∧
        ∀ change, (∀ step ∈ steps, gs.StepsAgree among step (change step)) →
          gs.walk steps nodes = gs.walk (steps.map change) nodes) := by
  have hconsistent : gs.Consistent := consistent_of_built hgs
  refine ⟨fun g hg => ?_, fun n _ e he => ?_, fun e he => ?_, fun label start hstart => ?_, ?_⟩
  · have h : g.Consistent := (hgs g hg).consistent
    have houtgoing : ∀ v < g.nodes.size, ∀ e,
        e ∈ (g.node v).outgoing ↔ e < g.edges.size ∧ (g.edge e).source = v := by
      intro v hv e
      rw [← Array.mem_toList_iff, h.outgoing v hv, Graph.mem_positions]
    have hincoming : ∀ v < g.nodes.size, ∀ e,
        e ∈ (g.node v).incoming ↔ e < g.edges.size ∧ (g.edge e).sink = v := by
      intro v hv e
      rw [← Array.mem_toList_iff, h.incoming v hv, Graph.mem_positions]
    refine ⟨fun e he => ⟨h.source_lt e he, h.sink_lt e he⟩, fun v hv => ?_, fun e he hself => ?_⟩
    · refine ⟨houtgoing v hv, ?_, hincoming v hv, ?_⟩
      · rw [h.outgoing v hv]
        exact g.pairwise_positions _ v
      · rw [h.incoming v hv]
        exact g.pairwise_positions _ v
    · have hv := h.source_lt e he
      exact ⟨(houtgoing _ hv e).mpr ⟨he, rfl⟩, (hincoming _ hv e).mpr ⟨he, hself.symm⟩⟩
  · rcases he with he | he
    · exact edgeIn_outgoing (I := (· = n.graph)) hconsistent rfl e he
    · obtain ⟨hedge, rfl⟩ := (mem_incoming hconsistent).mp he
      exact ⟨hedge, rfl⟩
  · exact ⟨⟨hasNode_source hconsistent he, rfl⟩, nodeIn_sink hconsistent ⟨he, rfl⟩⟩
  · refine nodeIn_of_reachFrom hconsistent (List.forall_mem_nil _) fun n hn => ?_
    obtain rfl := List.mem_singleton.mp hn
    exact ⟨hstart, rfl⟩
  · intro m _ _ _ _
    refine ⟨fun accept follow start hstart => ⟨fun n hn => ?_, fun accept' follow' haccept hfollow => ?_⟩,
      fun steps nodes hnodes => ?_⟩
    · exact nodeIn_of_firstReachable hconsistent ⟨hstart, rfl⟩ hn
    · exact firstReachable_congr hconsistent haccept hfollow ⟨hstart, rfl⟩
    · intro among
      have hamong : ∀ n ∈ nodes.toList, gs.NodeIn among n := fun n hn => ⟨hnodes n hn, n, hn, rfl⟩
      exact ⟨fun found hfound => nodeIn_of_walk hconsistent hamong hfound,
        fun change hchange => walk_congr hconsistent hchange hamong⟩

/-- Two nodes, a loop at the first one, and two edges from it to the second one. A search with tests
that may fail comes back with one of the two. -/
theorem graph_representation_parallel :
    let g := ((((({} : Graph).addNode "a").addNode "b").addEdge 0 1 "x").addEdge 0 0 "self").addEdge 0 1 "y"
    let gs : Graphs := { all := #[g] }
    g.Built ∧ (g.node 0).outgoing = #[0, 1, 2] ∧ (g.node 0).incoming = #[1] ∧
      (∀ e, e ∈ (g.node 0).outgoing ↔ e < 3 ∧ (g.edge e).source = 0) ∧
      ∀ (accept : Node → Option Bool) (follow : Edge → Option Bool) (n : Node),
        gs.firstReachable accept follow ⟨0, 0⟩ = some (some n) → n.graph = 0 ∧ n.index < 2 := by
  intro g gs
  have hbuilt : g.Built := by
    refine .addEdge (.addEdge (.addEdge (.addNode (.addNode .empty "a") "b") ?_ ?_ "x") ?_ ?_ "self")
      ?_ ?_ "y" <;> decide
  have hall : ∀ g ∈ gs.all, g.Built := by
    intro h hh
    rw [Array.mem_singleton.mp hh]
    exact hbuilt
  obtain ⟨hlists, -, -, -, hsearch⟩ := graph_representation hall
  refine ⟨hbuilt, rfl, rfl, ((hlists g (Array.mem_singleton.mpr rfl)).2.1 0 (by decide)).1, ?_⟩
  intro accept follow n hn
  have hstart : gs.HasNode ⟨0, 0⟩ := by decide
  obtain ⟨hindex, hgraph⟩ := ((hsearch Option).1 accept follow ⟨0, 0⟩ hstart).1 n hn
  have hgraph : n.graph = 0 := hgraph
  unfold Graphs.HasNode at hindex
  rw [hgraph] at hindex
  exact ⟨hgraph, hindex⟩

end GraphQuery
