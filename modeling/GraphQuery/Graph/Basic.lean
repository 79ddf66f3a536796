import GraphQuery.Graph.Properties

/-!
# Property graphs

A graph is built by adding nodes and then edges between them; a node or an edge is named by its
position. Each node keeps the positions of the edges that leave it and of those that arrive at it,
in the order in which the edges were added, so that no search has to look at all edges.

* `Graph.addNode`, `Graph.addEdge` are the two ways to grow a graph;
* `Graph.modifyNode`, `Graph.modifyEdge` fill in what does not concern the structure;
* `Graph.build` makes a graph from a description of all its nodes and edges.
-/

namespace GraphQuery

/-- What a graph stores about a node. -/
structure NodeData where
  /-- The identifier, which several nodes may share. -/
  id : String
  /-- An optional label. -/
  label : Option String := none
  /-- The types, without duplicates. -/
  types : List String := []
  /-- An optional value. -/
  value : Option String := none
  /-- The properties. -/
  properties : Properties := Properties.empty
  /-- The positions of the edges that leave the node, in increasing order. -/
  outgoing : Array Nat := #[]
  /-- The positions of the edges that arrive at the node, in increasing order. -/
  incoming : Array Nat := #[]

instance : Inhabited NodeData := ⟨⟨"", none, [], none, Properties.empty, #[], #[]⟩⟩

/-- The node with one more type, unless it has it. -/
def NodeData.addType (n : NodeData) (type : String) : NodeData :=
  if type ∈ n.types then n else { n with types := n.types ++ [type] }

/-- Whether a node has a type. -/
def NodeData.hasType (n : NodeData) (type : String) : Bool :=
  n.types.contains type

/-- What a graph stores about an edge. -/
structure EdgeData where
  /-- The label. -/
  label : String
  /-- The position of the node that the edge leaves. -/
  source : Nat
  /-- The position of the node that the edge arrives at. -/
  sink : Nat
  /-- The properties. -/
  properties : Properties := Properties.empty

instance : Inhabited EdgeData := ⟨⟨"", 0, 0, Properties.empty⟩⟩

/-- A property graph. -/
structure Graph where
  /-- The nodes, in the order in which they were added. -/
  nodes : Array NodeData := #[]
  /-- The edges, in the order in which they were added. -/
  edges : Array EdgeData := #[]

namespace Graph

instance : Inhabited Graph := ⟨{}⟩

/-- The graph with one more node, whose position is the number of nodes before. -/
def addNode (g : Graph) (id : String) : Graph :=
  { g with nodes := g.nodes.push { id } }

/-- The graph with one more edge, whose position is the number of edges before. -/
def addEdge (g : Graph) (source sink : Nat) (label : String) : Graph :=
  let position := g.edges.size
  let left := g.nodes.modify source fun n => { n with outgoing := n.outgoing.push position }
  { nodes := left.modify sink fun n => { n with incoming := n.incoming.push position }
    edges := g.edges.push { label, source, sink } }

/-- The graph with what one node stores changed. -/
def modifyNode (g : Graph) (node : Nat) (f : NodeData → NodeData) : Graph :=
  { g with nodes := g.nodes.modify node f }

/-- The graph with what one edge stores changed. -/
def modifyEdge (g : Graph) (edge : Nat) (f : EdgeData → EdgeData) : Graph :=
  { g with edges := g.edges.modify edge f }

/-- The position of the first node with an identifier. -/
def find? (g : Graph) (id : String) : Option Nat :=
  g.nodes.findIdx? (·.id = id)

/-! ### Descriptions of graphs -/

/-- A node to be added. -/
structure NodeSpec where
  /-- The identifier. -/
  id : String
  /-- The label. -/
  label : Option String := none
  /-- The value. -/
  value : Option String := none
  /-- The types, added one by one. -/
  types : List String := []
  /-- The properties, inserted one by one. -/
  properties : List (String × PropertyValue) := []

/-- An edge to be added. -/
structure EdgeSpec where
  /-- The position of the node it leaves. -/
  source : Nat
  /-- The position of the node it arrives at. -/
  sink : Nat
  /-- The label. -/
  label : String
  /-- The properties, inserted one by one. -/
  properties : List (String × PropertyValue) := []

/-- The graph with a described node. -/
def addNodeSpec (g : Graph) (spec : NodeSpec) : Graph :=
  (g.addNode spec.id).modifyNode g.nodes.size fun n =>
    { spec.types.foldl NodeData.addType n with
      label := spec.label
      value := spec.value
      properties := n.properties.insertAll spec.properties }

/-- The graph with a described edge. -/
def addEdgeSpec (g : Graph) (spec : EdgeSpec) : Graph :=
  (g.addEdge spec.source spec.sink spec.label).modifyEdge g.edges.size fun e =>
    { e with properties := e.properties.insertAll spec.properties }

/-- The graph with the described nodes and edges. -/
def build (nodes : List NodeSpec) (edges : List EdgeSpec) : Graph :=
  edges.foldl addEdgeSpec (nodes.foldl addNodeSpec {})

/-- The keys of properties that a later pair of the same description replaces, nodes first. -/
def replacedKeys (nodes : List NodeSpec) (edges : List EdgeSpec) : List String :=
  nodes.flatMap (fun n => Properties.empty.replaced n.properties) ++
    edges.flatMap (fun e => Properties.empty.replaced e.properties)

end Graph

end GraphQuery
