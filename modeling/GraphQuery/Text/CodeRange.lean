/-!
# Ranges of code points

A property of characters that a standard gives by enumeration is kept as a list of closed ranges of
code points. `CodeRange.covers` is membership in such a list, and every character table of the
project is read through it.
-/

namespace GraphQuery

/-- A closed range of code points. -/
structure CodeRange where
  /-- The least code point of the range. -/
  first : Nat
  /-- The greatest code point of the range. -/
  last : Nat
  deriving DecidableEq, Repr

namespace CodeRange

/-- Whether a character lies in one range. -/
def contains (r : CodeRange) (c : Char) : Bool :=
  r.first ≤ c.toNat && c.toNat ≤ r.last

/-- Whether a character lies in one of the ranges of a table. -/
def covers (table : List CodeRange) (c : Char) : Bool :=
  table.any (·.contains c)

theorem covers_iff {table : List CodeRange} {c : Char} :
    covers table c = true ↔ ∃ r ∈ table, r.first ≤ c.toNat ∧ c.toNat ≤ r.last := by
  simp [covers, contains]

end CodeRange

end GraphQuery
