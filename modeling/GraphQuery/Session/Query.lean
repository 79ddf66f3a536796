import GraphQuery.Session.Description

/-!
# Questions about a value

What a host may ask of a value without running a script.
-/

namespace GraphQuery

/-- What an iteration makes of an element. -/
inductive Conversion where
  /-- The element itself. -/
  | identity
  /-- Null. -/
  | null
  /-- True. -/
  | true
  /-- The list of the element. -/
  | list
  /-- The element as a list of one string. -/
  | strings
  /-- The element as an integer. -/
  | int

/-- Converts an element. -/
def Conversion.apply (v : Value) : Conversion → Except Error Value
  | .identity => .ok v
  | .null => .ok .null
  | .true => .ok (.bool Bool.true)
  | .list => .ok (.list [v])
  | .strings => do return .strings [← v.toText]
  | .int => do return .ofInt (← v.toInt)

/-- A question about a value. -/
inductive Query where
  /-- The value itself. -/
  | view
  /-- The value as a boolean. -/
  | bool
  /-- The value as an integer. -/
  | int
  /-- The value as a string. -/
  | string
  /-- The value with the kinds of its parts. -/
  | debug
  /-- The number of nodes, if the value is a set of nodes. -/
  | nodes
  /-- The number of edges, if the value is a set of edges. -/
  | edges
  /-- Whether the language takes it to be equal to another one. -/
  | equals (other : Description)
  /-- Whether the host takes it to be equal to another one. -/
  | same (other : Description)
  /-- A field or method. -/
  | select (name : String)
  /-- An element. -/
  | index (position : Description)
  /-- The value joined with another one. -/
  | add (other : Description)
  /-- The sum of its converted elements. The last conversion is used for all further elements. -/
  | iterate (conversions : List Conversion)

/-- The answer to a question about a value. -/
inductive Answer where
  /-- A value. -/
  | value (value : Value)
  /-- A truth value. -/
  | truth (value : Bool)
  /-- A text. -/
  | text (text : String)
  /-- A size, if there is one. -/
  | size (size : Option Nat)

namespace Query

open Session Request

/-- The conversion at a position. -/
def conversionAt (conversions : List Conversion) (i : Nat) : Conversion :=
  (conversions[i]? <|> conversions.getLast?).getD .identity

/-- Iterates over a value, and gives the elements that were visited too. -/
def runIterate (conversions : List Conversion) (v : Value) : Except Error Value × List Value :=
  let visit (e : Value) : ExceptT Error (StateM (List Value)) Value := do
    let i ← modifyGet fun seen => (seen.length, e :: seen)
    ExceptT.mk (pure ((conversionAt conversions i).apply e))
  let (r, seen) := (v.iterate visit).run.run []
  (r, seen.reverse)

/-- An identity for a function that a question may make. -/
def newIdentity : Request Nat :=
  modifyGet fun s =>
    (s.state.functions, { s with state := { s.state with functions := s.state.functions + 1 } })

/-- The answer to a question or the error, and the elements that were visited on the way. -/
def answer (v : Value) (q : Query) : Request (Except Error Answer × List Value) := do
  let gs := (← get).graphs
  match q with
  | .view => return (.ok (.value v), [])
  | .bool => return ((v.toBool gs).map Answer.truth, [])
  | .int => return (v.toInt.map fun n => .text (toString n), [])
  | .string => return (v.toText.map Answer.text, [])
  | .debug => return (.ok (.text (v.debug gs)), [])
  | .nodes => return (.ok (.size (match v with | .nodes ns => some ns.size | _ => none)), [])
  | .edges => return (.ok (.size (match v with | .edges es => some es.size | _ => none)), [])
  | .equals other => return ((v.equals gs (← other.value)).map Answer.truth, [])
  | .same other => return (.ok (.truth (v.same gs (← other.value))), [])
  | .select name => return ((v.select gs (← newIdentity) name).map Answer.value, [])
  | .index position => return ((v.index gs (← position.value)).map Answer.value, [])
  | .add other => return ((v.add (← other.value)).map Answer.value, [])
  | .iterate conversions =>
    let (r, seen) := runIterate conversions v
    return (r.map Answer.value, seen)

end Query

end GraphQuery
