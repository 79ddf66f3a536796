import GraphQuery.Decimal.Binary64
import GraphQuery.Value.Error

/-!
# Values as booleans, integers and strings

* Every value but a malformed number is a boolean: a number is true when it is not zero after
  rounding to floating point, a collection when it is not empty, a callable or a target never.
* A boolean, or a number or string that is the text of a 64-bit integer, is an integer.
* Elements of a graph, properties and callables have no string form; the others have one.
-/

namespace GraphQuery.Value

/-- Whether a number is true. -/
def numberToBool (text : String) : Except Error Bool :=
  match Decimal.Binary64.read? text with
  | some x => .ok (!x.isZero)
  | none => .error (.notANumber text)

/-- The value as a boolean. -/
def toBool (gs : Graphs) : Value → Except Error Bool
  | .null => .ok false
  | .bool b => .ok b
  | .number text => numberToBool text
  | .string s => .ok (!s.isEmpty)
  | .strings ss => .ok (!ss.isEmpty)
  | .list vs => .ok (!vs.isEmpty)
  | .nodes ns => .ok (!ns.isEmpty)
  | .edges es => .ok (!es.isEmpty)
  | .properties p => .ok (!(p.resolve gs).entries.isEmpty)
  | .function _ | .closure _ | .target _ => .ok false

/-- The integer that a text is. -/
def textToInt (text : String) : Except Error Int :=
  match Decimal.readInt64? text with
  | some n => .ok n
  | none => .error (.notANumber text)

/-- The value as an integer. -/
def toInt : Value → Except Error Int
  | .bool b => .ok (if b then 1 else 0)
  | .number text => textToInt text
  | .string s => textToInt s
  | v => .error (.notANumber v.kind.name)

/-- Strings as one string, between brackets and separated by blanks. -/
def joinStrings (ss : List String) : String :=
  "[" ++ " ".intercalate ss ++ "]"

mutual

/-- The value as a string. -/
def toText : Value → Except Error String
  | .null => .ok "null"
  | .bool b => .ok (if b then "true" else "false")
  | .number text => .ok text
  | .string s => .ok s
  | .strings ss => .ok (joinStrings ss)
  | .list vs => do return joinStrings (← toTexts vs)
  | .target name => .ok name
  | .nodes _ => .error (.notAString .nodes)
  | .edges _ => .error (.notAString .edges)
  | .properties _ => .error (.notAString .properties)
  | .function _ => .error (.notAString .function)
  | .closure _ => .error (.notAString .closure)

/-- Values as strings, up to the first that has no string form. -/
def toTexts : List Value → Except Error (List String)
  | [] => .ok []
  | v :: vs => do return (← v.toText) :: (← toTexts vs)

end

/-- The strings that a value stands for: those of a list of strings, or its own string form. -/
def toStrings : Value → Except Error (List String)
  | .strings ss => .ok ss
  | v => do return [← v.toText]

end GraphQuery.Value
