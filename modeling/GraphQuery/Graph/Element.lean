import GraphQuery.Graph.Basic
import GraphQuery.OrderedSet

/-!
# Nodes and edges of several graphs

Values of the language may mix nodes of different graphs. A node is therefore named by the graph it
belongs to and its position there, and likewise an edge; two names are equal exactly when they name
the same element. All graphs in play are held together as `Graphs`, and what is stored about an
element is looked up there.
-/

namespace GraphQuery

/-- A node of one of several graphs. -/
structure Node where
  /-- The graph. -/
  graph : Nat
  /-- The position in the graph. -/
  index : Nat
  deriving DecidableEq, Repr

/-- An edge of one of several graphs. -/
structure Edge where
  /-- The graph. -/
  graph : Nat
  /-- The position in the graph. -/
  index : Nat
  deriving DecidableEq, Repr

/-- The graphs that values may refer to. -/
structure Graphs where
  /-- The graphs, each known by its position. -/
  all : Array Graph := #[]

namespace Graphs

instance : Inhabited Graphs := ⟨{}⟩

/-- One of the graphs. -/
def graph (gs : Graphs) (i : Nat) : Graph := gs.all.getD i {}

/-- What is stored about a node. -/
def node (gs : Graphs) (n : Node) : NodeData := (gs.graph n.graph).nodes.getD n.index default

/-- What is stored about an edge. -/
def edge (gs : Graphs) (e : Edge) : EdgeData := (gs.graph e.graph).edges.getD e.index default

/-- The node that an edge leaves. -/
def source (gs : Graphs) (e : Edge) : Node := ⟨e.graph, (gs.edge e).source⟩

/-- The node that an edge arrives at. -/
def sink (gs : Graphs) (e : Edge) : Node := ⟨e.graph, (gs.edge e).sink⟩

/-- The edges that leave a node, in the order in which they were added. -/
def outgoing (gs : Graphs) (n : Node) : List Edge :=
  (gs.node n).outgoing.toList.map (⟨n.graph, ·⟩)

/-- The edges that arrive at a node, in the order in which they were added. -/
def incoming (gs : Graphs) (n : Node) : List Edge :=
  (gs.node n).incoming.toList.map (⟨n.graph, ·⟩)

/-- The nodes of a graph, in the order in which they were added. -/
def nodesOf (gs : Graphs) (i : Nat) : OrderedSet Node :=
  OrderedSet.ofList ((List.range (gs.graph i).nodes.size).map (⟨i, ·⟩))

/-- The first node of a graph with an identifier. -/
def find? (gs : Graphs) (i : Nat) (id : String) : Option Node :=
  ((gs.graph i).find? id).map (⟨i, ·⟩)

end Graphs

end GraphQuery
