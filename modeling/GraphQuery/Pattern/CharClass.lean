import GraphQuery.Pattern.CaseFold
import GraphQuery.Pattern.Letters
import GraphQuery.Text.Blank

/-!
# Character classes

A class is a set of characters given by a term; `CharClass.contains` says which characters it has.
`CharClass.room` estimates how large an automaton for it is, in bytes.
-/

namespace GraphQuery

/-- A set of characters. -/
inductive CharClass where
  /-- The characters between two others, inclusive. -/
  | range (first last : Char)
  /-- The decimal digits. -/
  | digit
  /-- The white space. -/
  | space
  /-- The characters of words. -/
  | word
  /-- No character. -/
  | none
  /-- The characters that are not in a class. -/
  | complement (k : CharClass)
  /-- The characters of either class. -/
  | union (a b : CharClass)
  /-- The characters of both classes. -/
  | inter (a b : CharClass)
  /-- The characters that differ from one of a class in case only. -/
  | folded (k : CharClass)

namespace CharClass

/-- Whether a character is in a class. -/
def contains : CharClass → Char → Bool
  | .range first last, c => first ≤ c && c ≤ last
  | .digit, c => isDecimalDigit c
  | .space, c => isBlank c
  | .word, c => isWordChar c
  | .none, _ => false
  | .complement k, c => !k.contains c
  | .union a b, c => a.contains c || b.contains c
  | .inter a b, c => a.contains c && b.contains c
  | .folded k, c => (caseVariants c).any k.contains

/-- The class of one character. -/
def single (c : Char) : CharClass := .range c c

/-- The class of all characters. -/
def any : CharClass := .complement .none

/-- The characters of the first class that are not in the second. -/
def diff (a b : CharClass) : CharClass := .inter a (.complement b)

/-- The characters of exactly one of two classes. -/
def symmDiff (a b : CharClass) : CharClass := .union (diff a b) (diff b a)

/-- The union of several classes. -/
def unionAll (ks : List CharClass) : CharClass := ks.foldl .union .none

/-- The class of several ranges. -/
def ranges (rs : List (Char × Char)) : CharClass := unionAll (rs.map fun r => .range r.1 r.2)

/-- The complement of a class if asked for. -/
def complementIf (negated : Bool) (k : CharClass) : CharClass :=
  if negated then .complement k else k

/-- The room that a class takes, as an automaton that reads the bytes of a character. The classes of
the standard are large, since they are scattered over many ranges. -/
def room : CharClass → Nat
  | .range _ last => if last.toNat < 0x80 then 8 else 100
  | .digit => 5052
  | .space => 616
  | .word => 49772
  | .none => 0
  | .complement k => k.room + 900
  | .union a b => a.room + b.room
  | .inter a b => max a.room b.room
  | .folded k => k.room + 48

/-- The ASCII digits. -/
def asciiDigit : CharClass := .range '0' '9'

/-- The ASCII white space. -/
def asciiSpace : CharClass := ranges [('\t', '\r'), (' ', ' ')]

/-- The ASCII characters of words. -/
def asciiWord : CharClass := ranges [('0', '9'), ('A', 'Z'), ('_', '_'), ('a', 'z')]

/-- The ASCII classes that have a name. -/
def named? : String → Option CharClass
  | "alnum" => some (ranges [('0', '9'), ('A', 'Z'), ('a', 'z')])
  | "alpha" => some (ranges [('A', 'Z'), ('a', 'z')])
  | "ascii" => some (.range '\x00' '\x7f')
  | "blank" => some (ranges [('\t', '\t'), (' ', ' ')])
  | "cntrl" => some (ranges [('\x00', '\x1f'), ('\x7f', '\x7f')])
  | "digit" => some asciiDigit
  | "graph" => some (.range '!' '~')
  | "lower" => some (.range 'a' 'z')
  | "print" => some (.range ' ' '~')
  | "punct" => some (ranges [('!', '/'), (':', '@'), ('[', '\x60'), ('\x7b', '~')])
  | "space" => some asciiSpace
  | "upper" => some (.range 'A' 'Z')
  | "word" => some asciiWord
  | "xdigit" => some (ranges [('0', '9'), ('A', 'F'), ('a', 'f')])
  | _ => Option.none

end CharClass

end GraphQuery
