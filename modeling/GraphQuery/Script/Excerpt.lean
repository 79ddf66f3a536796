import GraphQuery.Script.ParseError

/-!
# Refusals with the line they point at

`ParseError.excerpt` shows a refusal together with the line of the script it is about and a caret
under the column. The caret line starts with as many blanks as the number of the line has digits,
which the logarithm of the number tells. A place behind the last line, which is where a text that ends
too early may be refused, has no line to show.
-/

namespace GraphQuery

/-- The lines of a text, where `line` holds the characters of the current line, in reverse. -/
def linesFrom (line : List Char) : List Char → List (List Char)
  | [] => if line.isEmpty then [] else [line.reverse]
  | '\n' :: rest =>
    -- A carriage return right before the line feed belongs to the line's end.
    (if line.head? = some '\r' then line.tail else line).reverse :: linesFrom [] rest
  | c :: rest => linesFrom (c :: line) rest

/-- The lines of a text. A line ends at a line feed, which a carriage return may precede; a text that
ends with a line feed has no empty line after it. -/
def textLines (text : String) : List String :=
  (linesFrom [] text.toList).map String.ofList

/-- `n` blanks. -/
def spaces (n : Nat) : String :=
  String.ofList (List.replicate n ' ')

/-- The whole part of the decimal logarithm of a number. -/
def decimalLog (n : Nat) : Nat :=
  if n < 10 then 0 else decimalLog (n / 10) + 1

/-- The room that the number of a row takes in front of its line. -/
def gutterWidth (row : Nat) : Nat := decimalLog (row + 1) + 1

/-- A refusal, the place in the file `path`, and the line of `source` with a caret under the
column. -/
def ParseError.excerpt (e : ParseError) (path source : String) : String :=
  let row := toString (e.location.row + 1)
  let column := toString (e.location.column + 1)
  let head := e.message ++ "\n  " ++ path ++ ":" ++ row ++ ":" ++ column ++ ":\n"
  match (textLines source)[e.location.row]? with
  | some line =>
    head ++ "  " ++ row ++ " | " ++ line ++ "\n" ++
      "  " ++ spaces (gutterWidth e.location.row) ++ " | " ++ spaces e.location.column ++ "^\n"
  | none => head ++ "  <end of script>\n"

end GraphQuery
