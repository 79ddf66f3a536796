import GraphQuery.Decimal.Binary64

/-!
# The shortest decimal that reads back

Among the decimals that round to a given number `m * 2 ^ e`, the one with the fewest digits, and of
those the nearest. They form an interval around the number; its ends belong to it exactly when the
mantissa is even. The search goes through the grids `10 ^ k` from coarse to fine and tests the two
neighbours of the number on each, so the first hit has the fewest digits.
-/

namespace GraphQuery.Decimal

/-- Which of two equally near decimals is taken. -/
inductive Tie where
  /-- The one with the even last digit. -/
  | even
  /-- The greater one. -/
  | up
  deriving DecidableEq, Repr

/-- A power of a base with any integer exponent, as a ratio. -/
def powerRatio (base : Nat) (e : Int) : Nat × Nat :=
  if 0 ≤ e then (base.pow e.toNat, 1) else (1, base.pow (-e).toNat)

/-- Compares `a * 10 ^ k` with `b * 2 ^ e`. -/
def compareDecimal (a : Nat) (k : Int) (b : Nat) (e : Int) : Ordering :=
  let (n₁₀, d₁₀) := powerRatio 10 k
  let (n₂, d₂) := powerRatio 2 e
  compare (a * n₁₀ * d₂) (b * n₂ * d₁₀)

/-- Whether `c * 10 ^ k` rounds to the number `m * 2 ^ e`. In units of `2 ^ (e - 2)` the interval
reaches from `4 * m - 2`, or `4 * m - 1` where the spacing changes, to `4 * m + 2`. -/
def roundsTo (m : Nat) (e : Int) (c : Nat) (k : Int) : Bool :=
  let low := if m = Nat.pow 2 52 ∧ Binary64.leastExponent < e then 4 * m - 1 else 4 * m - 2
  let above := compareDecimal c k low (e - 2)
  let below := compareDecimal c k (4 * m + 2) (e - 2)
  let closed := m % 2 = 0
  (above = .gt || (closed && above = .eq)) && (below = .lt || (closed && below = .eq))

/-- The neighbour of `m * 2 ^ e` on the grid `10 ^ k` that is nearest among those that round to it. -/
def onGrid? (tie : Tie) (m : Nat) (e k : Int) : Option Nat :=
  let (n₁₀, d₁₀) := powerRatio 10 k
  let (n₂, d₂) := powerRatio 2 e
  let num := m * n₂ * d₁₀
  let den := d₂ * n₁₀
  let low := num / den
  let hits := fun c => 0 < c && roundsTo m e c k
  match hits low, hits (low + 1) with
  | true, true =>
    -- Both are possible: the nearer one, or the one that the rule for ties picks.
    match compare (2 * (num % den)) den with
    | .lt => some low
    | .gt => some (low + 1)
    | .eq => if tie = .even ∧ low % 2 = 0 then some low else some (low + 1)
  | true, false => some low
  | false, true => some (low + 1)
  | false, false => none

/-- Searches grids from `10 ^ k` downwards. -/
def shortestFrom (tie : Tie) (m : Nat) (e : Int) : Nat → Int → Nat × Int
  | 0, k => (0, k)
  | n + 1, k =>
    match onGrid? tie m e k with
    | some c => (c, k)
    | none => shortestFrom tie m e n (k - 1)

/-- The shortest decimal `c * 10 ^ k` for a number `m * 2 ^ e` with `m` positive. The first grid is
coarser than the number, and a number has at most 17 digits. -/
def shortest (tie : Tie) (m : Nat) (e : Int) : Nat × Int :=
  shortestFrom tie m e 24 (((m.log2 : Int) + 1 + e) * 30103 / 100000 + 1)

end GraphQuery.Decimal
