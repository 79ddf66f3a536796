import GraphQuery.Script.Location

/-!
# Why a script cannot be read

A script is refused for one cause at one place. `ParseError.message` words the cause the way it is
reported; the place is given as a reader counts it.
-/

namespace GraphQuery

/-- The part of a script that was being read when a character did not fit. -/
inductive Part where
  /-- The name on the left of an assignment. -/
  | assignment
  /-- The name after a dot. -/
  | selector
  /-- An operand. -/
  | expression
  /-- The end of a statement. -/
  | statement
  deriving DecidableEq, Repr

/-- The word that names a part in a message. -/
def Part.word : Part → String
  | .assignment => "assignment"
  | .selector => "selector"
  | .expression => "expression"
  | .statement => "statement"

/-- What is wrong at the place where reading stopped. -/
inductive ParseError.Cause where
  /-- A fixed token has to stand here. -/
  | expected (token : String)
  /-- A backslash is followed by a character that starts no escape, or by a bad code point. -/
  | invalidEscape (char : Char)
  /-- A number has an exponent mark without digits. -/
  | invalidNumber (text : String)
  /-- A character cannot stand here. -/
  | unexpectedCharacter (char : Char) (within : Part)
  /-- The text ends too early. -/
  | unexpectedEnd
  /-- A keyword stands where a variable name has to. -/
  | unexpectedKeyword (name : String)
  deriving DecidableEq, Repr

/-- A refusal: its cause and its place. -/
structure ParseError where
  /-- What is wrong. -/
  cause : ParseError.Cause
  /-- Where it is. -/
  location : Location
  deriving DecidableEq, Repr

/-- The refusal as one line of text. -/
def ParseError.message (e : ParseError) : String :=
  let place := " at " ++ e.location.display
  match e.cause with
  | .expected token => "Expected '" ++ token ++ "'" ++ place
  | .invalidEscape c => "Invalid escape sequence '\\" ++ c.toString ++ "'" ++ place
  | .invalidNumber text => "Invalid number '" ++ text ++ "'" ++ place
  | .unexpectedCharacter c within =>
    "Unexpected character '" ++ c.toString ++ "' in " ++ within.word ++ place
  | .unexpectedEnd => "Unexpected end of file" ++ place
  | .unexpectedKeyword name => "Unexpected keyword '" ++ name ++ "'" ++ place

end GraphQuery
