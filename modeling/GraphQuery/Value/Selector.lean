import GraphQuery.Value.Error

/-!
# Fields and methods

What may stand after a dot, for each kind of value. A field gives its value at once. A method gives
a function, which is a new one at every selection: `Value.select` takes the identity it is to have.

The fields of a node or an edge need a set with exactly one element.
-/

namespace GraphQuery

/-- The element of a set that has exactly one. -/
def OrderedSet.only {α : Type} (none many : Error) (s : OrderedSet α) : Except Error α :=
  match s.toList with
  | [] => .error none
  | [a] => .ok a
  | _ :: _ :: _ => .error many

namespace Value

/-- The only node of a set. -/
def oneNode (ns : OrderedSet Node) : Except Error Node := ns.only .noNodes .multipleNodes

/-- The only edge of a set. -/
def oneEdge (es : OrderedSet Edge) : Except Error Edge := es.only .noEdges .multipleEdges

/-- A method as a function with an identity. -/
def ofMethod (identity : Nat) (name : String) (least : Nat) (most : Option Nat) (m : Method) :
    Value :=
  .function ⟨identity, name, least, most, .method m⟩

/-- What may follow a string. -/
def selectString (identity : Nat) (s : String) : String → Option (Except Error Value)
  | "length" => some (.ok (ofNat s.length))
  | "matches" => some (.ok (ofMethod identity "matches" 1 (some 1) (.matches s)))
  | _ => none

/-- What may follow a list of strings. -/
def selectStrings (identity : Nat) (ss : List String) : String → Option (Except Error Value)
  | "length" => some (.ok (ofNat ss.length))
  | "has" => some (.ok (ofMethod identity "has" 1 (some 1) (.has ss)))
  | "hasAny" => some (.ok (ofMethod identity "hasAny" 0 none (.hasAny ss)))
  | "hasAll" => some (.ok (ofMethod identity "hasAll" 0 none (.hasAll ss)))
  | _ => none

/-- What may follow a set of nodes. -/
def selectNodes (gs : Graphs) (identity : Nat) (ns : OrderedSet Node) :
    String → Option (Except Error Value)
  | "length" => some (.ok (ofNat ns.size))
  | "id" => some (do return .string (gs.node (← oneNode ns)).id)
  | "label" => some (do return ofString? (gs.node (← oneNode ns)).label)
  | "type" => some (do return .strings (gs.node (← oneNode ns)).types)
  | "value" => some (do return ofString? (gs.node (← oneNode ns)).value)
  | "properties" => some (do return .properties (.node (← oneNode ns)))
  | "firstReachable" | "first" =>
    some (.ok (ofMethod identity "firstReachable" 1 (some 2) (.firstReachable ns)))
  | "firstDoc" => some (.ok (ofMethod identity "firstDoc" 1 (some 1) (.firstDoc ns)))
  | "instanceOf" => some (.ok (ofMethod identity "instanceOf" 1 (some 1) (.instanceOf ns)))
  | "walk" => some (.ok (ofMethod identity "walk" 0 none (.walk ns)))
  | _ => none

/-- What may follow a set of edges. -/
def selectEdges (gs : Graphs) (es : OrderedSet Edge) : String → Option (Except Error Value)
  | "length" => some (.ok (ofNat es.size))
  | "label" => some (do return .string (gs.edge (← oneEdge es)).label)
  | "from" => some (do return ofNode (gs.source (← oneEdge es)))
  | "to" => some (do return ofNode (gs.sink (← oneEdge es)))
  | "properties" => some (do return .properties (.edge (← oneEdge es)))
  | _ => none

/-- What may follow properties. -/
def selectProperties (p : Properties) : String → Option (Except Error Value)
  | "length" => some (.ok (ofNat p.size))
  | _ => none

/-- What may follow a list. -/
def selectList (vs : List Value) : String → Option (Except Error Value)
  | "length" => some (.ok (ofNat vs.length))
  | _ => none

/-- The field or method of a value with a name; a method becomes a function with the given
identity. -/
def select (gs : Graphs) (identity : Nat) (v : Value) (name : String) : Except Error Value :=
  let selected := match v with
    | .string s => selectString identity s name
    | .strings ss => selectStrings identity ss name
    | .nodes ns => selectNodes gs identity ns name
    | .edges es => selectEdges gs es name
    | .properties p => selectProperties (p.resolve gs) name
    | .list vs => selectList vs name
    | _ => none
  selected.getD (.error (.unknownSelector name v.kind))

end Value

end GraphQuery
