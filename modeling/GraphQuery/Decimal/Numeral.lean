import GraphQuery.Decimal.Integer

/-!
# Decimal numerals

A text is a numeral if, after a sign that may be missing, it is one of the words for infinity or for
no number, in any case of letters, or digits with a point anywhere among or around them and an
exponent. A numeral of the last kind denotes an exact number `digits * 10 ^ exponent`.
-/

namespace GraphQuery.Decimal

/-- What a numeral denotes. -/
inductive Numeral where
  /-- No number. -/
  | nan
  /-- An infinity. -/
  | infinite (negative : Bool)
  /-- The number `± digits * 10 ^ exponent`. -/
  | finite (negative : Bool) (digits : Nat) (exponent : Int)
  deriving DecidableEq, Repr

namespace Numeral

/-- Splits a sign from a text; `true` stands for minus. -/
def splitSign : List Char → Bool × List Char
  | '-' :: rest => (true, rest)
  | '+' :: rest => (false, rest)
  | text => (false, text)

/-- The exponent that a text denotes: none at all, or a mark, a sign that may be missing, and
digits. -/
def readExponent? : List Char → Option Int
  | [] => some 0
  | mark :: text =>
    if mark = 'e' ∨ mark = 'E' then
      let (negative, digits) := splitSign text
      (readDigits? digits).map fun n => if negative then -(n : Int) else (n : Int)
    else none

/-- The digits right after a point, and the text after them. -/
def splitFraction : List Char → List Char × List Char
  | '.' :: rest => (rest.takeWhile Char.isDigit, rest.dropWhile Char.isDigit)
  | text => ([], text)

/-- Reads a number without a sign. There has to be a digit before or after the point. -/
def readUnsigned? (negative : Bool) (text : List Char) : Option Numeral :=
  let whole := text.takeWhile Char.isDigit
  let (fraction, rest) := splitFraction (text.dropWhile Char.isDigit)
  if whole.isEmpty && fraction.isEmpty then none
  else (readExponent? rest).map fun e =>
    .finite negative (digitsValue (whole ++ fraction)) (e - fraction.length)

/-- The numeral that a text is. -/
def read? (text : String) : Option Numeral :=
  let (negative, body) := splitSign text.toList
  let word := body.map Char.toLower
  if word = ['n', 'a', 'n'] then some .nan
  else if word = ['i', 'n', 'f'] ∨ word = ['i', 'n', 'f', 'i', 'n', 'i', 't', 'y'] then
    some (.infinite negative)
  else readUnsigned? negative body

end Numeral

end GraphQuery.Decimal
