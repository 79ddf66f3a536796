import GraphQuery.Graph.Element
import GraphQuery.Script.Expr

/-!
# Values

What an expression can evaluate to. There are twelve kinds:

* **scalars**: null, booleans, numbers and strings, where a number is kept as its text;
* **collections**: lists of strings, lists of values, sets of nodes, sets of edges;
* **properties**, of a node, of an edge, or free-standing;
* **callables**: functions and closures. A closure names the frame it was created in, so values do
  not contain frames and stay finite. A function is a method of a value, with the receiver in it, or
  one that the host supplies, known by its name;
* **targets**, the names that an assignment binds.

Functions and closures have an identity. Every function carries a number of its own. Two closures
are the same when they come from the same literal and name the same frame.
-/

namespace GraphQuery

/-- Where a frame of variables is stored. -/
abbrev FrameId := Nat

/-- The kinds of values. -/
inductive Kind where
  /-- The value that is nothing. -/
  | null
  /-- Truth values. -/
  | bool
  /-- Numbers. -/
  | number
  /-- Strings. -/
  | string
  /-- Lists of strings. -/
  | strings
  /-- Lists of values. -/
  | list
  /-- Sets of nodes. -/
  | nodes
  /-- Sets of edges. -/
  | edges
  /-- Properties. -/
  | properties
  /-- Functions. -/
  | function
  /-- Closures. -/
  | closure
  /-- Assignment targets. -/
  | target
  deriving DecidableEq, Repr

/-- The words for a kind in messages. -/
def Kind.name : Kind → String
  | .null => "null"
  | .bool => "bool"
  | .number => "number"
  | .string => "string"
  | .strings => "string set"
  | .list => "list"
  | .nodes => "node set"
  | .edges => "edge set"
  | .properties => "property map"
  | .function => "function"
  | .closure => "closure"
  | .target => "lvalue"

/-- A closure: code with at most one parameter, and the frame its variables are looked up in. -/
structure Closure where
  /-- The literal that the closure comes from. -/
  site : Nat
  /-- The parameter. -/
  parameter : Option String
  /-- What a call evaluates. -/
  body : Code
  /-- The frame in which the closure was created; without one, a call runs in the caller's. -/
  frame : Option FrameId

namespace Closure

/-- Whether two closures come from the same literal and the same frame. -/
def same (a b : Closure) : Bool :=
  a.site = b.site && a.frame = b.frame

/-- The closure that compares one selector of its argument with a string. -/
def matching (selector text : String) : Closure where
  site := 0
  parameter := some "n"
  body := .equality (.select (.variable "n" ()) selector ()) (.string text) false
  frame := none

end Closure

/-- A method together with the value it belongs to. -/
inductive Method where
  /-- Whether a pattern occurs in a string. -/
  | matches (text : String)
  /-- Whether a string is among others. -/
  | has (strings : List String)
  /-- Whether one of several strings is among others. -/
  | hasAny (strings : List String)
  /-- Whether all of several strings are among others. -/
  | hasAll (strings : List String)
  /-- The first node, depth first, that a predicate accepts. -/
  | firstReachable (nodes : OrderedSet Node)
  /-- The first document node that a predicate accepts. -/
  | firstDoc (nodes : OrderedSet Node)
  /-- The nodes that are instances of a class. -/
  | instanceOf (nodes : OrderedSet Node)
  /-- The nodes that steps lead to. -/
  | walk (nodes : OrderedSet Node)

/-- What a function does. -/
inductive Action where
  /-- A method of the language. -/
  | method (method : Method)
  /-- A function that the host supplies under a name. -/
  | host (behavior : String)

/-- A function that can be called with a number of arguments within bounds. -/
structure Function where
  /-- The identity of the function. -/
  identity : Nat
  /-- The name that messages use. -/
  name : String
  /-- The least number of arguments. -/
  least : Nat
  /-- The greatest number of arguments, if there is one. -/
  most : Option Nat
  /-- What a call does. -/
  action : Action

/-- Where properties come from. -/
inductive PropertySource where
  /-- The properties of a node. -/
  | node (node : Node)
  /-- The properties of an edge. -/
  | edge (edge : Edge)
  /-- Properties that belong to no element. -/
  | detached (properties : Properties)

/-- The properties themselves. -/
def PropertySource.resolve (gs : Graphs) : PropertySource → Properties
  | .node n => (gs.node n).properties
  | .edge e => (gs.edge e).properties
  | .detached p => p

/-- A value of the language. -/
inductive Value where
  /-- Nothing. -/
  | null
  /-- A truth value. -/
  | bool (value : Bool)
  /-- A number, as it was written or converted. -/
  | number (text : String)
  /-- A string. -/
  | string (value : String)
  /-- A list of strings. -/
  | strings (values : List String)
  /-- A list of values. -/
  | list (values : List Value)
  /-- A set of nodes. -/
  | nodes (nodes : OrderedSet Node)
  /-- A set of edges. -/
  | edges (edges : OrderedSet Edge)
  /-- Properties. -/
  | properties (source : PropertySource)
  /-- A function. -/
  | function (function : Function)
  /-- A closure. -/
  | closure (closure : Closure)
  /-- An assignment target. -/
  | target (name : String)

namespace Value

instance : Inhabited Value := ⟨.null⟩

/-- The kind of a value. -/
def kind : Value → Kind
  | .null => .null
  | .bool _ => .bool
  | .number _ => .number
  | .string _ => .string
  | .strings _ => .strings
  | .list _ => .list
  | .nodes _ => .nodes
  | .edges _ => .edges
  | .properties _ => .properties
  | .function _ => .function
  | .closure _ => .closure
  | .target _ => .target

/-- An integer as a value. -/
def ofInt (n : Int) : Value := .number (toString n)

/-- A count as a value. -/
def ofNat (n : Nat) : Value := .number (toString n)

/-- A string that may be missing as a value. -/
def ofString? : Option String → Value
  | some s => .string s
  | none => .null

/-- The set of one node as a value. -/
def ofNode (n : Node) : Value := .nodes (OrderedSet.singleton n)

/-- The set of one edge as a value. -/
def ofEdge (e : Edge) : Value := .edges (OrderedSet.singleton e)

/-- A property as a value. -/
def ofProperty : PropertyValue → Value
  | .string s => .string s
  | .strings ss => .strings ss

end Value

end GraphQuery
