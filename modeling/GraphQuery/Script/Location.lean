/-!
# Locations in a script

Rows are counted by line feeds and columns by code points, both from zero. `Location.advance` moves
past one character and `Location.after` past a text, so the location of a position in a script is
`Location.after` of the text before it.
-/

namespace GraphQuery

/-- A place in a script, counted from zero. -/
structure Location where
  /-- The number of line feeds before the place. -/
  row : Nat := 0
  /-- The number of characters between the last line feed and the place. -/
  column : Nat := 0
  deriving DecidableEq, Repr, Inhabited

namespace Location

/-- The place after one more character. -/
def advance (l : Location) (c : Char) : Location :=
  if c = '\n' then ⟨l.row + 1, 0⟩ else ⟨l.row, l.column + 1⟩

/-- The place after a text that starts at `l`. -/
def after (l : Location) (text : List Char) : Location :=
  text.foldl advance l

/-- A place as a reader counts it, from one. -/
def display (l : Location) : String :=
  "(" ++ toString (l.row + 1) ++ ", " ++ toString (l.column + 1) ++ ")"

@[simp] theorem after_nil (l : Location) : l.after [] = l := rfl

@[simp] theorem after_cons (l : Location) (c : Char) (text : List Char) :
    l.after (c :: text) = (l.advance c).after text := rfl

theorem after_append (l : Location) (s t : List Char) :
    l.after (s ++ t) = (l.after s).after t := List.foldl_append

end Location

end GraphQuery
