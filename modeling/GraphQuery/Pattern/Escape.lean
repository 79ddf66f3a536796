import GraphQuery.Pattern.Basic
import GraphQuery.Pattern.Reader

/-!
# Escapes in patterns

What may stand after a backslash: a character that would otherwise have a meaning, a character by
its code point or by a letter, a class, or a condition on the position. There are no back-references.
-/

namespace GraphQuery.Pattern

open Reading

/-- What an escape stands for. -/
inductive Escape where
  /-- A character. -/
  | char (c : Char)
  /-- A class of characters. -/
  | oneOf (k : CharClass)
  /-- A condition. -/
  | assert (a : Assertion)

/-- Whether a character is a hexadecimal digit. -/
def isHexDigit (c : Char) : Bool :=
  c.isDigit || ('a' ≤ c && c ≤ 'f') || ('A' ≤ c && c ≤ 'F')

/-- The number that hexadecimal digits stand for. -/
def hexValue (digits : List Char) : Nat :=
  digits.foldl (fun n c => n * 16 + (if c.isDigit then c.toNat - 48 else c.toLower.toNat - 87)) 0

/-- The character with a code point, if there is one. -/
def charOf? (n : Nat) : Option Char :=
  if n.isValidChar then some (Char.ofNat n) else none

/-- Reads a code point, with a number of digits or between braces. -/
def codePoint (flags : Flags) (count : Nat) : Reading Char := do
  if (← peek) = '\x7b' then
    advanceSpace flags
    let digits ← run flags isHexDigit
    guard (!digits.isEmpty)
    guard ((← peek) = '\x7d')
    advanceSpace flags
    charOf? (hexValue digits)
  else
    let digits ← runUpTo flags isHexDigit count
    guard (digits.length = count)
    let n := hexValue digits
    -- Without characters beyond ASCII, two digits name a byte.
    guard (flags.unicode || count ≠ 2 || n < 0x80)
    charOf? n

/-- Whether a character that has no meaning as an escape stands for itself. -/
def isPunctuation (c : Char) : Bool :=
  c.toNat < 0x80 && !c.isAlphanum && c ≠ '<' && c ≠ '>'

/-- The characters that letters stand for. -/
def letterChar? : Char → Option Char
  | 'a' => some '\x07'
  | 'f' => some '\x0c'
  | 't' => some '\t'
  | 'n' => some '\n'
  | 'r' => some '\r'
  | 'v' => some '\x0b'
  | _ => none

/-- The class that a lower-case letter stands for. -/
def letterClass? (flags : Flags) : Char → Option CharClass
  | 'd' => some (if flags.unicode then .digit else CharClass.asciiDigit)
  | 's' => some (if flags.unicode then .space else CharClass.asciiSpace)
  | 'w' => some (if flags.unicode then .word else CharClass.asciiWord)
  | _ => none

/-- The characters of words. -/
def Flags.letters (flags : Flags) : CharClass :=
  if flags.unicode then .word else CharClass.asciiWord

/-- Reads what follows `\b`: a name between braces, or nothing. Braces that do not start with a
letter belong to a repetition. -/
def wordCondition (flags : Flags) : Reading Assertion := do
  let letters := flags.letters
  if (← peek?) ≠ some '\x7b' then return .wordBoundary letters
  let before ← get
  advanceSpace flags
  let isNameChar (c : Char) : Bool := c.isAlpha || c = '-'
  if !isNameChar (← peek) then
    set before
    return .wordBoundary letters
  let name ← run flags isNameChar
  expect '\x7d'
  match String.ofList name with
  | "start" => return .wordStart letters
  | "end" => return .wordEnd letters
  | "start-half" => return .wordStartHalf letters
  | "end-half" => return .wordEndHalf letters
  | _ => failure

/-- Reads an escape, from its backslash on. -/
def escape (flags : Flags) : Reading Escape := do
  advance
  let c ← peek
  -- Space after the letter of a code point does not count, if any space does not.
  if c = 'x' then advanceSpace flags; return .char (← codePoint flags 2)
  if c = 'u' then advanceSpace flags; return .char (← codePoint flags 4)
  if c = 'U' then advanceSpace flags; return .char (← codePoint flags 8)
  advance
  if isPunctuation c then return .char c
  if let some d := letterChar? c then return .char d
  if let some k := letterClass? flags c then return .oneOf k
  match c with
  | 'D' | 'S' | 'W' =>
    guard flags.unicode
    return .oneOf (.complement (← letterClass? flags c.toLower))
  | 'A' => return .assert .startText
  | 'z' => return .assert .endText
  | 'b' => return .assert (← wordCondition flags)
  | 'B' => return .assert (.noWordBoundary flags.letters)
  | '<' => return .assert (.wordStart flags.letters)
  | '>' => return .assert (.wordEnd flags.letters)
  | _ => failure

end GraphQuery.Pattern
