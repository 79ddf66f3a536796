import GraphQuery.Decimal.Numeral

/-!
# Rounding to 64-bit floating point

The numbers of the format binary64, held exactly as `± mantissa * 2 ^ exponent`, and the rounding of
a numeral to the nearest of them, where a tie goes to the even mantissa. Everything is computed with
natural numbers.

A finite number is held in the one form in which the mantissa has 53 bits, or the exponent is the
least one.
-/

namespace GraphQuery.Decimal

/-- A number of the format binary64. -/
inductive Binary64 where
  /-- No number. -/
  | nan
  /-- An infinity. -/
  | infinite (negative : Bool)
  /-- The number `± mantissa * 2 ^ exponent`. -/
  | finite (negative : Bool) (mantissa : Nat) (exponent : Int)
  deriving DecidableEq, Repr

namespace Binary64

/-- The least exponent. -/
def leastExponent : Int := -1074

/-- The greatest exponent. -/
def greatestExponent : Int := 971

/-- The quotient rounded to the nearest integer, a half to the even one. -/
def roundDiv (num den : Nat) : Nat :=
  let q := num / den
  let r := num % den
  if den < 2 * r ∨ (2 * r = den ∧ q % 2 = 1) then q + 1 else q

/-- The ratio `num / den` divided by `2 ^ e`, as a ratio. -/
def scale (num den : Nat) (e : Int) : Nat × Nat :=
  if 0 ≤ e then (num, den * Nat.pow 2 e.toNat) else (num * Nat.pow 2 (-e).toNat, den)

/-- The exponent at which a positive ratio has a mantissa of 53 bits, or the least exponent. -/
def exponentOf (num den : Nat) : Int :=
  let low := max ((num.log2 : Int) - den.log2 - 53) leastExponent
  let (n, d) := scale num den low
  if Nat.pow 2 53 ≤ n / d then low + 1 else low

/-- The number nearest to a ratio. -/
def ofRatio (negative : Bool) (num den : Nat) : Binary64 :=
  if num = 0 then .finite negative 0 leastExponent
  else
    let e := exponentOf num den
    let (n, d) := scale num den e
    let m := roundDiv n d
    -- Rounding up may need one more bit.
    let (m, e) := if m = Nat.pow 2 53 then (Nat.pow 2 52, e + 1) else (m, e)
    if greatestExponent < e then .infinite negative else .finite negative m e

/-- The number nearest to a numeral. Numerals beyond the range are settled by the count of their
digits, so that no huge power is computed. -/
def ofNumeral : Numeral → Binary64
  | .nan => .nan
  | .infinite negative => .infinite negative
  | .finite negative digits e =>
    let places := ((Nat.toDigits 10 digits).length : Int) + e
    if digits = 0 then ofRatio negative 0 1
    else if 310 < places then .infinite negative
    else if places < -330 then ofRatio negative 0 1
    else if 0 ≤ e then ofRatio negative (digits * Nat.pow 10 e.toNat) 1
    else ofRatio negative digits (Nat.pow 10 (-e).toNat)

/-- The number that a text denotes, rounded. -/
def read? (text : String) : Option Binary64 :=
  (Numeral.read? text).map ofNumeral

/-- Whether a number is zero, of either sign. -/
def isZero : Binary64 → Bool
  | .finite _ m _ => m = 0
  | _ => false

end Binary64

end GraphQuery.Decimal
