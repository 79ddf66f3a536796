/-!
# JSON documents as text

A document and its two written forms: `Json.compact` without any blank, and `Json.pretty` with one
member a line, indented by two blanks a level, where an empty list or object stays on its line. A
number is held as the text it is written as. Only quotes, backslashes and the characters below the
space are escaped.
-/

namespace GraphQuery

/-- A JSON document. -/
inductive Json where
  /-- The literal `null`. -/
  | null
  /-- The literals `true` and `false`. -/
  | bool (value : Bool)
  /-- A number, as it is written. -/
  | number (text : String)
  /-- A string. -/
  | string (value : String)
  /-- A list. -/
  | array (items : List Json)
  /-- An object, with its members in the order in which they are written. -/
  | object (members : List (String × Json))

namespace Json

/-- One character of a string. -/
def escapeChar (c : Char) : List Char :=
  if c = '"' then ['\\', '"']
  else if c = '\\' then ['\\', '\\']
  else if c = '\x08' then ['\\', 'b']
  else if c = '\x0c' then ['\\', 'f']
  else if c = '\n' then ['\\', 'n']
  else if c = '\r' then ['\\', 'r']
  else if c = '\t' then ['\\', 't']
  else if c.toNat < 0x20 then
    ['\\', 'u', '0', '0', Nat.digitChar (c.toNat / 16), Nat.digitChar (c.toNat % 16)]
  else [c]

/-- A string with its quotes. -/
def escape (s : String) : String :=
  String.ofList ('"' :: s.toList.flatMap escapeChar ++ ['"'])

/-- A list of strings. -/
def strings (values : List String) : Json :=
  .array (values.map .string)

mutual

/-- The document without blanks. -/
def compact : Json → String
  | .null => "null"
  | .bool b => if b then "true" else "false"
  | .number text => text
  | .string s => escape s
  | .array items => "[" ++ ",".intercalate (compactItems items) ++ "]"
  | .object members => "\x7b" ++ ",".intercalate (compactMembers members) ++ "\x7d"

/-- The items of a list without blanks. -/
def compactItems : List Json → List String
  | [] => []
  | j :: rest => j.compact :: compactItems rest

/-- The members of an object without blanks. -/
def compactMembers : List (String × Json) → List String
  | [] => []
  | (key, j) :: rest => (escape key ++ ":" ++ j.compact) :: compactMembers rest

end

/-- Lines between two brackets, each indented once more than `margin`; nothing if there are none. -/
def bracketed (opening closing margin : String) (lines : List String) : String :=
  if lines.isEmpty then opening ++ closing
  else
    opening ++ "\n" ++ ",\n".intercalate (lines.map (margin ++ "  " ++ ·)) ++ "\n" ++ margin ++ closing

mutual

/-- The document with one member a line, where lines after the first start with `margin`. -/
def prettyFrom (margin : String) : Json → String
  | .null => "null"
  | .bool b => if b then "true" else "false"
  | .number text => text
  | .string s => escape s
  | .array items => bracketed "[" "]" margin (prettyItems (margin ++ "  ") items)
  | .object members => bracketed "\x7b" "\x7d" margin (prettyMembers (margin ++ "  ") members)

/-- The items of a list, one a line. -/
def prettyItems (margin : String) : List Json → List String
  | [] => []
  | j :: rest => j.prettyFrom margin :: prettyItems margin rest

/-- The members of an object, one a line. -/
def prettyMembers (margin : String) : List (String × Json) → List String
  | [] => []
  | (key, j) :: rest => (escape key ++ ": " ++ j.prettyFrom margin) :: prettyMembers margin rest

end

/-- The document with one member a line. -/
def pretty (j : Json) : String := j.prettyFrom ""

end Json

end GraphQuery
