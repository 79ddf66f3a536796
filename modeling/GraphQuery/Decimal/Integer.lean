/-!
# Integers as text

A text is read as an integer if it is a sign, which may be missing, and at least one digit. Leading
zeros count for nothing, and so does the sign of zero. `readInt64?` accepts what fits into 64 bits
with a sign.
-/

namespace GraphQuery.Decimal

/-- The value of a decimal digit. -/
def digitValue (c : Char) : Nat := c.toNat - '0'.toNat

/-- The number that digits denote, most significant first. -/
def digitsValue (digits : List Char) : Nat :=
  digits.foldl (fun n c => n * 10 + digitValue c) 0

/-- Whether a text is one or more digits. -/
def isDigits (text : List Char) : Bool :=
  !text.isEmpty && text.all Char.isDigit

/-- The number that a text of digits denotes. -/
def readDigits? (text : List Char) : Option Nat :=
  if isDigits text then some (digitsValue text) else none

/-- The integer that a text denotes. -/
def readInteger? (text : String) : Option Int :=
  match text.toList with
  | '-' :: digits => (readDigits? digits).map fun n => -(n : Int)
  | '+' :: digits => (readDigits? digits).map fun n => (n : Int)
  | digits => (readDigits? digits).map fun n => (n : Int)

/-- The integer that a text denotes, if it lies between `-2^63` and `2^63 - 1`. -/
def readInt64? (text : String) : Option Int :=
  (readInteger? text).filter fun n =>
    -9223372036854775808 ≤ n && n ≤ 9223372036854775807

end GraphQuery.Decimal
