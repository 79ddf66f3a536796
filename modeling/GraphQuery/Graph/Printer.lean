import GraphQuery.Graph.Element
import GraphQuery.Text.Json

/-!
# Printing graphs

A graph as a listing, with every node followed by the edges that leave it, and as a JSON document.
Single elements print too: a node is its identifier, and an edge shows its label between the
identifiers of its ends.
-/

namespace GraphQuery

/-- A property value as JSON. -/
def PropertyValue.toJson : PropertyValue → Json
  | .string s => .string s
  | .strings ss => Json.strings ss

/-- Properties as a JSON object, in the order of their keys. -/
def Properties.toJson (p : Properties) : Json :=
  .object (p.entries.map fun (key, value) => (key, value.toJson))

namespace Graph

/-- The identifier of the node at a position. -/
def idAt (g : Graph) (i : Nat) : String := (g.nodes.getD i default).id

/-- A node of a listing, without its edges. -/
def displayNode (n : NodeData) : String :=
  "node " ++ n.id ++ "\n" ++
    (match n.label with | some l => "  label: " ++ quoted l ++ "\n" | none => "") ++
    (if n.types.isEmpty then "" else "  types: " ++ quotedList n.types ++ "\n") ++
    (match n.value with | some v => "  value: " ++ quoted v ++ "\n" | none => "") ++
    n.properties.display

/-- An edge of a listing, under the node it leaves. -/
def displayEdge (g : Graph) (n : NodeData) (e : EdgeData) : String :=
  "edge " ++ n.id ++ " -> " ++ g.idAt e.sink ++ " " ++ quoted e.label ++ "\n" ++
    e.properties.display

/-- The listing of a graph. -/
def display (g : Graph) : String :=
  String.join (g.nodes.toList.map fun n =>
    displayNode n ++
      String.join (n.outgoing.toList.map fun i => g.displayEdge n (g.edges.getD i default)))

/-- A node as JSON; a label or value that is missing is left out. -/
def nodeJson (n : NodeData) : Json :=
  .object <|
    [("id", .string n.id)] ++
    (n.label.map fun l => ("label", Json.string l)).toList ++
    [("types", Json.strings n.types)] ++
    (n.value.map fun v => ("value", Json.string v)).toList ++
    [("properties", n.properties.toJson)]

/-- An edge as JSON, named by the identifiers of its ends. -/
def edgeJson (g : Graph) (e : EdgeData) : Json :=
  .object [("label", .string e.label), ("from", .string (g.idAt e.source)),
    ("to", .string (g.idAt e.sink)), ("properties", e.properties.toJson)]

/-- The graph as JSON. -/
def toJson (g : Graph) : Json :=
  .object [("nodes", .array (g.nodes.toList.map nodeJson)),
    ("edges", .array (g.edges.toList.map g.edgeJson))]

end Graph

namespace Graphs

/-- The identifier of a node. -/
def idOf (gs : Graphs) (n : Node) : String := (gs.node n).id

/-- An edge as text. -/
def displayEdge (gs : Graphs) (e : Edge) : String :=
  gs.idOf (gs.source e) ++ " -" ++ (gs.edge e).label ++ "-> " ++ gs.idOf (gs.sink e)

/-- A node as it is shown for inspection. -/
def debugNode (gs : Graphs) (n : Node) : String :=
  "Node(" ++ quoted (gs.idOf n) ++ ")"

/-- An edge as it is shown for inspection. -/
def debugEdge (gs : Graphs) (e : Edge) : String :=
  "Edge(" ++ quoted (gs.idOf (gs.source e)) ++ " -> " ++ quoted (gs.idOf (gs.sink e)) ++ " " ++
    quoted (gs.edge e).label ++ ")"

/-- A node as JSON. -/
def nodeJson (gs : Graphs) (n : Node) : Json := .string (gs.idOf n)

/-- An edge as JSON, without its properties. -/
def edgeJson (gs : Graphs) (e : Edge) : Json :=
  .object [("label", .string (gs.edge e).label), ("from", .string (gs.idOf (gs.source e))),
    ("to", .string (gs.idOf (gs.sink e)))]

end Graphs

end GraphQuery
