import GraphQuery.Pattern.CharClass

/-!
# Reading the text of a pattern

The text of a pattern is read from left to right. A `Reader` is what is left of it together with the
names of the groups so far, and a `Reading` moves a reader or refuses the text. How a text is to be
read depends on `Flags`, which the text itself may change.
-/

namespace GraphQuery.Pattern

/-- How the text of a pattern is to be read. -/
structure Flags where
  /-- Characters match all their variants of case. -/
  caseless : Bool := false
  /-- Lines have a start and an end of their own. -/
  multiline : Bool := false
  /-- A dot matches the end of a line too. -/
  dotAll : Bool := false
  /-- White space and comments are passed over. -/
  extended : Bool := false
  /-- A carriage return ends a line too. -/
  returns : Bool := false
  /-- Classes have characters beyond ASCII. -/
  unicode : Bool := true

/-- The text left to read and the names of groups so far. -/
structure Reader where
  /-- The characters that have not been read. -/
  rest : List Char
  /-- The names that groups have. -/
  names : List String := []

/-- A step that moves a reader or refuses the text. -/
abbrev Reading := StateT Reader Option

namespace Reading

/-- The next character, if there is one. -/
def peek? : Reading (Option Char) := do return (← get).rest.head?

/-- The next character; the end of the text is refused. -/
def peek : Reading Char := do
  match ← peek? with
  | some c => return c
  | none => failure

/-- Leaves some text. -/
def leave (rest : List Char) : Reading Unit := modify fun r => { r with rest }

/-- Passes one character. -/
def advance : Reading Unit := do leave ((← get).rest.drop 1)

/-- Passes a token if it stands at the reader, and says whether it does. -/
def take (token : String) : Reading Bool := do
  let rest := (← get).rest
  if token.toList.isPrefixOf rest then
    leave (rest.drop token.length)
    return true
  else
    return false

/-- Passes a character, which must be the next one. -/
def expect (c : Char) : Reading Unit := do
  guard ((← peek) = c)
  advance

/-- The text after white space and comments. A comment runs from a number sign to the end of the
line; the first argument says that one has started. -/
def afterSpace : Bool → List Char → List Char
  | _, [] => []
  | true, c :: rest => afterSpace (c ≠ '\n') rest
  | false, c :: rest =>
    if c = '#' then afterSpace true rest
    else if isBlank c then afterSpace false rest
    else c :: rest

/-- Passes white space and comments if they do not count. -/
def space (flags : Flags) : Reading Unit := do
  if flags.extended then leave (afterSpace false (← get).rest)

/-- Passes one character and the space after it. -/
def advanceSpace (flags : Flags) : Reading Unit := do
  advance
  space flags

/-- Passes at most `n` characters that pass a test, and the space after each. -/
def runUpTo (flags : Flags) (p : Char → Bool) : Nat → Reading (List Char)
  | 0 => return []
  | n + 1 => do
    match ← peek? with
    | some c =>
      if p c then
        advanceSpace flags
        return c :: (← runUpTo flags p n)
      else
        return []
    | none => return []

/-- Passes all characters that pass a test, and the space after each. -/
def run (flags : Flags) (p : Char → Bool) : Reading (List Char) := do
  runUpTo flags p (← get).rest.length

end Reading

/-- A class with all variants of case, within ASCII if classes have nothing else. -/
def Flags.fold (flags : Flags) (k : CharClass) : CharClass :=
  if !flags.caseless then k
  else if flags.unicode then .folded k
  else
    let ascii := CharClass.range '\x00' '\x7f'
    .union k (.inter (.folded (.inter k ascii)) ascii)

/-- A class after variants of case and a possible negation. It is refused if it has characters
beyond ASCII where there are to be none. -/
def Flags.finish (flags : Flags) (negated : Bool) (k : CharClass) : Option CharClass :=
  let k := CharClass.complementIf negated (flags.fold k)
  if flags.unicode || !k.contains '\u0080' then some k else none

end GraphQuery.Pattern
