import GraphQuery.Session.Basic

/-!
# Descriptions of values

How a host names the values that it puts into scope. `Description.value` makes the value: a
description of a function makes a new function each time, and that of a script runs it in a root of
its own, which is empty afterwards.
-/

namespace GraphQuery

/-- A value as a host describes it. -/
inductive Description where
  /-- Null. -/
  | null
  /-- A truth value. -/
  | bool (value : Bool)
  /-- A string. -/
  | string (value : String)
  /-- An integer. -/
  | integer (value : Int)
  /-- A floating-point number, which is null unless it is finite. -/
  | float (value : Decimal.Binary64)
  /-- What a script gives. -/
  | script (source : String)
  /-- Strings. -/
  | strings (values : List String)
  /-- A list. -/
  | list (values : List Description)
  /-- Nodes. -/
  | nodes (nodes : List Node)
  /-- All nodes of a graph. -/
  | allNodes (graph : Nat)
  /-- The first node of a graph with an identifier, or null. -/
  | find (graph : Nat) (id : String)
  /-- Edges. -/
  | edges (edges : List Edge)
  /-- Properties that belong to no element. -/
  | properties (pairs : List (String × PropertyValue))
  /-- The properties of a node. -/
  | nodeProperties (node : Node)
  /-- The properties of an edge. -/
  | edgeProperties (edge : Edge)
  /-- An assignment target. -/
  | target (name : String)
  /-- A value that was kept under a name. -/
  | slot (name : String)
  /-- A function of the host. -/
  | function (behavior name : String) (least : Nat) (most : Option Nat)

namespace Description

open Session Request

/-- What a script gives in a root of its own. -/
def runAlone (source : String) : Request Value := do
  let code ← load (← read source)
  let root ← makeFrame Store.newRoot
  let report ← evaluate {} root code
  modifyStore (·.release root)
  settle report.result

/-- A new function of the host. -/
def makeFunction (behavior name : String) (least : Nat) (most : Option Nat) : Request Value :=
  modifyGet fun s =>
    let identity := s.state.functions
    (.function ⟨identity, name, least, most, .host behavior⟩,
      { s with state := { s.state with functions := identity + 1 } })

mutual

/-- The value that is described. -/
def value : Description → Request Value
  | .null => return .null
  | .bool b => return .bool b
  | .string s => return .string s
  | .integer n => return .ofInt n
  | .float x => return ((Decimal.Layout.positional.text? x).map Value.number).getD .null
  | .script source => runAlone source
  | .strings ss => return .strings ss
  | .list ds => return .list (← values ds)
  | .nodes ns => return .nodes (OrderedSet.ofList ns)
  | .allNodes g => return .nodes ((← get).graphs.nodesOf g)
  | .find g id => return (((← get).graphs.find? g id).map Value.ofNode).getD .null
  | .edges es => return .edges (OrderedSet.ofList es)
  | .properties pairs => return .properties (.detached (Properties.empty.insertAll pairs))
  | .nodeProperties n => return .properties (.node n)
  | .edgeProperties e => return .properties (.edge e)
  | .target name => return .target name
  | .slot name => do
    match (← get).slots.lookup name with
    | some v => return v
    | none => throw (.unknown "value")
  | .function behavior name least most => makeFunction behavior name least most

/-- The values that are described, made in order. -/
def values : List Description → Request (List Value)
  | [] => return []
  | d :: ds => do
    let v ← d.value
    return v :: (← values ds)

end

end Description

end GraphQuery
