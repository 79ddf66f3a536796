import GraphQuery.Decimal.Layout
import GraphQuery.Graph.Printer
import GraphQuery.Script.Printer
import GraphQuery.Value.Basic

/-!
# Printing values

Three forms of a value: `Value.display` for a reader, `Value.toJson` for other programs, and
`Value.debug`, which shows the kind of everything.

A number is a JSON number if its text is one: an integer of 64 bits is written as such, a numeral as
the shortest decimal of its rounding, and any other text is a string.
-/

namespace GraphQuery

/-- A closure as text, like its literal. -/
def Closure.display (c : Closure) : String :=
  match c.parameter with
  | some p => p ++ " -> " ++ c.body.display
  | none => c.body.display

namespace Value

/-- Parts between square brackets. -/
def bracketList (parts : List String) : String :=
  "[" ++ commaSeparated parts ++ "]"

mutual

/-- The value for a reader. -/
def display (gs : Graphs) : Value → String
  | .null => "null"
  | .bool b => if b then "true" else "false"
  | .number text => text
  | .string s => quoted s
  | .strings ss => quotedList ss
  | .list vs => bracketList (displayAll gs vs)
  | .nodes ns => bracketList (ns.toList.map gs.idOf)
  | .edges es => bracketList (es.toList.map gs.displayEdge)
  | .properties p =>
    "\x7b" ++ commaSeparated ((p.resolve gs).entries.map fun (k, v) => k ++ ": " ++ v.display) ++ "\x7d"
  | .function f => "<function " ++ f.name ++ ">"
  | .closure c => "<closure " ++ c.display ++ ">"
  | .target name => "<lvalue " ++ name ++ ">"

/-- Several values for a reader. -/
def displayAll (gs : Graphs) : List Value → List String
  | [] => []
  | v :: vs => v.display gs :: displayAll gs vs

end

/-- A number as JSON. -/
def numberJson (text : String) : Json :=
  match Decimal.readInt64? text with
  | some n => .number (toString n)
  | none =>
    match Decimal.Binary64.read? text with
    | some x =>
      match Decimal.Layout.json.text? x with
      | some t => .number t
      | none => .null
    | none => .string text

mutual

/-- The value as JSON. -/
def toJson (gs : Graphs) : Value → Json
  | .null => .null
  | .bool b => .bool b
  | .number text => numberJson text
  | .string s => .string s
  | .strings ss => Json.strings ss
  | .list vs => .array (toJsonAll gs vs)
  | .nodes ns => .array (ns.toList.map gs.nodeJson)
  | .edges es => .array (es.toList.map gs.edgeJson)
  | .properties p => (p.resolve gs).toJson
  | .function f => .string ("<function " ++ f.name ++ ">")
  | .closure c => .string ("<closure " ++ c.display ++ ">")
  | .target name => .string name

/-- Several values as JSON. -/
def toJsonAll (gs : Graphs) : List Value → List Json
  | [] => []
  | v :: vs => v.toJson gs :: toJsonAll gs vs

end

/-- The value as JSON text. -/
def json (gs : Graphs) (v : Value) : String := (v.toJson gs).compact

/-! ### Everything with its kind -/

/-- A name between parentheses after a word. -/
def debugCall (word argument : String) : String := word ++ "(" ++ argument ++ ")"

/-- A property value with its kind. -/
def debugProperty : PropertyValue → String
  | .string s => debugCall "String" (quoted s)
  | .strings ss => debugCall "StringSet" (quotedList ss)

/-- Properties with the kinds of their values. -/
def debugProperties (p : Properties) : String :=
  let entries := p.entries.map fun (k, v) => "(" ++ quoted k ++ ", " ++ debugProperty v ++ ")"
  "Properties \x7b values: " ++ bracketList entries ++ " \x7d"

/-- A set of nodes. -/
def debugNodes (gs : Graphs) (ns : OrderedSet Node) : String :=
  debugCall "NodeSet" ("\x7b" ++ commaSeparated (ns.toList.map gs.debugNode) ++ "\x7d")

/-- A set of edges. -/
def debugEdges (gs : Graphs) (es : OrderedSet Edge) : String :=
  debugCall "EdgeSet" ("\x7b" ++ commaSeparated (es.toList.map gs.debugEdge) ++ "\x7d")

/-- Properties with the element they belong to. -/
def debugSource (gs : Graphs) : PropertySource → String
  | .node n => debugCall "Node" (gs.debugNode n)
  | .edge e => debugCall "Edge" (gs.debugEdge e)
  | .detached p => debugCall "Detached" (debugProperties p)

/-- A function with its bounds. -/
def debugFunction (f : Function) : String :=
  let most := match f.most with
    | some n => debugCall "Some" (toString n)
    | none => "None"
  "NativeFunction \x7b name: " ++ debugCall "Identifier" (quoted f.name) ++ ", min_args: " ++
    toString f.least ++ ", max_args: " ++ most ++ " \x7d"

mutual

/-- The value with the kinds of all its parts. -/
def debug (gs : Graphs) : Value → String
  | .null => "Null"
  | .bool b => debugCall "Bool" (if b then "true" else "false")
  | .number text => debugCall "Number" (debugCall "Number" (quoted text))
  | .string s => debugCall "String" (quoted s)
  | .strings ss => debugCall "StringSet" (quotedList ss)
  | .list vs => debugCall "List" (bracketList (debugAll gs vs))
  | .nodes ns => debugCall "NodeSet" (debugNodes gs ns)
  | .edges es => debugCall "EdgeSet" (debugEdges gs es)
  | .properties p => debugCall "PropertyMap" (debugSource gs p)
  | .function f => debugCall "Function" (debugFunction f)
  | .closure c => debugCall "Closure" (debugCall "Closure" c.display)
  | .target name => debugCall "LValue" (debugCall "Identifier" (quoted name))

/-- Several values with the kinds of all their parts. -/
def debugAll (gs : Graphs) : List Value → List String
  | [] => []
  | v :: vs => v.debug gs :: debugAll gs vs

end

end Value

end GraphQuery
