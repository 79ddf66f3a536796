import GraphQuery.Script.Cursor

/-!
# Tokens

Names, strings and numbers, and the look-ahead that tells an assignment from an expression.

* A **name** starts with a letter, an underscore or a dollar sign and goes on with those and digits,
  all ASCII. Three names are keywords.
* A **string** stands between two equal quotes, single or double. A backslash starts an escape.
* A **number** is an optional minus sign, digits, a fraction if a digit follows the point, and an
  exponent. Its text is kept as written.
-/

namespace GraphQuery

/-- Whether a character can start a name. -/
def isNameStart (c : Char) : Bool :=
  c = '_' || c = '$' || c.isAlpha

/-- Whether a character can stand inside a name. -/
def isNamePart (c : Char) : Bool :=
  isNameStart c || c.isDigit

/-- The names that stand for literals and cannot be assigned. -/
def keywords : List String := ["false", "null", "true"]

/-- The length of the assignment operator, if the text is a name that white space alone may separate
from `:=` or from a single `=`. -/
def assignmentAhead (text : List Char) : Option Nat :=
  match text with
  | [] => none
  | c :: rest =>
    if isNameStart c then
      match (rest.dropWhile isNamePart).dropWhile isBlank with
      | ':' :: '=' :: _ => some 2
      | '=' :: '=' :: _ => none
      | '=' :: _ => some 1
      | _ => none
    else none

/-- The value of a hexadecimal digit. -/
def hexValue? (c : Char) : Option Nat :=
  if c.isDigit then some (c.toNat - '0'.toNat)
  else if 'a' ≤ c ∧ c ≤ 'f' then some (c.toNat - 'a'.toNat + 10)
  else if 'A' ≤ c ∧ c ≤ 'F' then some (c.toNat - 'A'.toNat + 10)
  else none

/-- The character with a code point, if there is one. -/
def charOfCode? (n : Nat) : Option Char :=
  if h : n.isValidChar then some (Char.ofNatAux n h) else none

/-- The character that a single letter after a backslash stands for. -/
def shortEscape? (c : Char) : Option Char :=
  match c with
  | '0' => some '\x00'
  | 'n' => some '\n'
  | 'r' => some '\r'
  | 't' => some '\t'
  | '\\' | '"' | '\'' | '/' => some c
  | _ => none

namespace Parser

/-- Reads a name; a character that starts none is reported at its own place. -/
def name (within : Part) : Parser String := do
  let place ← here
  let first ← next
  if isNameStart first then
    return String.ofList (first :: (← takeWhile isNamePart))
  fail (.unexpectedCharacter first within) place

/-- Reads `n` hexadecimal digits after `code`; one that is none spoils the escape that started at
`place`. -/
def hexDigits (place : Location) : Nat → Nat → Parser Nat
  | 0, code => return code
  | n + 1, code => do
    match hexValue? (← next) with
    | some d => hexDigits place n (code * 16 + d)
    | none => fail (.invalidEscape 'u') place

/-- Reads what follows a backslash. -/
def escape : Parser Char := do
  let place ← here
  let c ← next
  if c = 'u' then
    match charOfCode? (← hexDigits place 4 0) with
    | some x => return x
    | none => fail (.invalidEscape 'u') place
  else
    match shortEscape? c with
    | some x => return x
    | none => fail (.invalidEscape c) place

/-- Reads the characters of a string up to its closing quote, after those in `read`, which stand in
reverse. -/
def stringTail (quote : Char) : Nat → List Char → Parser (List Char)
  | 0, _ => exhausted
  | n + 1, read => do
    let c ← next
    if c = quote then
      return read.reverse
    else if c = '\\' then
      stringTail quote n ((← escape) :: read)
    else
      stringTail quote n (c :: read)

/-- Reads a string, quotes included. -/
def stringLiteral (bound : Nat) : Parser String := do
  let quote ← next
  return String.ofList (← stringTail quote bound [])

/-- Reads one character if it passes a test. -/
def takeIf (p : Char → Bool) : Parser (List Char) := do
  match ← peek? with
  | some c => if p c then return [← next] else return []
  | none => return []

/-- Reads a point and the digits after it, if a digit comes right after the point. -/
def fraction : Parser (List Char) := do
  match (← cursor).rest with
  | '.' :: d :: _ =>
    if d.isDigit then
      let point ← next
      return point :: (← takeWhile Char.isDigit)
    else return []
  | _ => return []

/-- Reads an exponent, if its mark comes next; `read` is the number so far. -/
def exponent (read : List Char) : Parser (List Char) := do
  let place ← here
  let mark ← takeIf (fun c => c = 'e' || c = 'E')
  if mark.isEmpty then return []
  let sign ← takeIf (fun c => c = '+' || c = '-')
  let digits ← takeWhile Char.isDigit
  if digits.isEmpty then
    fail (.invalidNumber (String.ofList (read ++ mark ++ sign))) place
  else
    return mark ++ sign ++ digits

/-- Reads a number. -/
def number : Parser String := do
  let sign ← takeIf (· = '-')
  let digits ← takeWhile Char.isDigit
  let fraction ← fraction
  let read := sign ++ digits ++ fraction
  return String.ofList (read ++ (← exponent read))

end Parser

end GraphQuery
