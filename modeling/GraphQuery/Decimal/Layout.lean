import GraphQuery.Decimal.Shortest

/-!
# Writing floating-point numbers

A number is written with the digits of `Decimal.shortest`. A `Layout` decides the rest: which
decimal exponents are written without an exponent mark, whether a whole number shows a fraction, and
which way ties go. The language uses two layouts:

* `Layout.json`, in JSON documents: from `10 ^ -5` up to below `10 ^ 16` without a mark, always with
  a point; beyond with a mark and a signed exponent;
* `Layout.positional`, for numbers handed in by a host: never with a mark, and whole numbers without
  a point.
-/

namespace GraphQuery.Decimal

/-- The decisions of a written form. -/
structure Layout where
  /-- Whether a number whose first digit stands at `10 ^ e` is written without an exponent mark. -/
  plain : Int → Bool
  /-- Whether a whole number shows a fraction. -/
  fraction : Bool
  /-- Which of two equally near decimals is written. -/
  tie : Tie

/-- Numbers in JSON documents. -/
def Layout.json : Layout := ⟨fun e => -5 ≤ e && e < 16, true, .even⟩

/-- Numbers handed in by a host. -/
def Layout.positional : Layout := ⟨fun _ => true, false, .up⟩

/-- `n` zeros. -/
def zeros (n : Nat) : List Char := List.replicate n '0'

/-- Digits with `before` of them before the point; zeros fill the gap to a point outside. -/
def placePoint (fraction : Bool) (digits : List Char) (before : Int) : List Char :=
  if before ≤ 0 then
    ['0', '.'] ++ zeros (-before).toNat ++ digits
  else if digits.length ≤ before then
    digits ++ zeros (before.toNat - digits.length) ++ (if fraction then ['.', '0'] else [])
  else
    digits.take before.toNat ++ ['.'] ++ digits.drop before.toNat

/-- Digits with a point after the first and an exponent with its sign. -/
def scientific (digits : List Char) (e : Int) : List Char :=
  let mantissa := match digits with
    | d :: rest => if rest.isEmpty then [d] else d :: '.' :: rest
    | [] => []
  mantissa ++ ['e', if e < 0 then '-' else '+'] ++ Nat.toDigits 10 e.natAbs

/-- A decimal `c * 10 ^ k` in a layout. -/
def Layout.write (layout : Layout) (c : Nat) (k : Int) : List Char :=
  let digits := Nat.toDigits 10 c
  let e := (digits.length : Int) - 1 + k
  if layout.plain e then placePoint layout.fraction digits (e + 1) else scientific digits e

/-- A finite number in a layout; there is no text for the others. -/
def Layout.text? (layout : Layout) : Binary64 → Option String
  | .nan | .infinite _ => none
  | .finite negative m e =>
    let (c, k) := if m = 0 then (0, 0) else shortest layout.tie m e
    let sign := if negative then ['-'] else []
    some (String.ofList (sign ++ layout.write c k))

end GraphQuery.Decimal
