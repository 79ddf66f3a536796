import GraphQuery.Pattern.Escape

/-!
# Bracketed classes

A class between brackets is a union of characters, ranges, escapes, named classes and further
brackets. Unions may be joined by intersection `&&`, difference `--` and symmetric difference `~~`,
which bind equally and to the left.

Reading also measures how deep the constructs nest: a bracket, a union of several members and an
operation each count as one level.
-/

namespace GraphQuery.Pattern

open Reading

/-- A class and how deep the constructs in it nest. -/
structure ClassPart where
  /-- The class. -/
  set : CharClass
  /-- The number of levels. -/
  depth : Nat := 0

/-- A union that has been read in part, and the operation that waits for it. -/
structure ClassDraft where
  /-- The operation, waiting for its right side, and the depth of its left side. -/
  pending : Option ((CharClass → CharClass) × Nat) := none
  /-- The members so far, and the depth of the deepest. -/
  members : ClassPart := ⟨.none, 0⟩
  /-- The number of members so far. -/
  count : Nat := 0

namespace ClassDraft

/-- One more member. -/
def add (d : ClassDraft) (k : ClassPart) : ClassDraft :=
  { d with
    members := ⟨.union d.members.set k.set, max d.members.depth k.depth⟩
    count := d.count + 1 }

/-- The depth of the union. -/
def unionDepth (d : ClassDraft) : Nat :=
  if d.count < 2 then d.members.depth else d.members.depth + 1

/-- The class that has been read. -/
def close (flags : Flags) (d : ClassDraft) : ClassPart :=
  match d.pending with
  | some (join, depth) => ⟨join (flags.fold d.members.set), max depth d.unionDepth + 1⟩
  | none => ⟨d.members.set, d.unionDepth⟩

/-- Starts the right side of an operation. -/
def operate (flags : Flags) (op : CharClass → CharClass → CharClass) (d : ClassDraft) :
    ClassDraft :=
  let left := d.close flags
  { pending := some (op (flags.fold left.set), left.depth) }

end ClassDraft

/-- A character in a class; beyond ASCII it must be allowed. -/
def member (flags : Flags) (c : Char) : Reading CharClass := do
  guard (flags.unicode || c.toNat < 0x80)
  return .single c

/-- Reads a character or an escape in a class. -/
def classItem (flags : Flags) : Reading Escape := do
  let c ← peek
  if c = '\\' then
    escape flags
  else
    advance
    return .char c

/-- What the next character is after a dash and the space behind it. -/
def afterDash? (flags : Flags) : Reading (Option Char) := do
  let rest := (← get).rest.drop 1
  return (if flags.extended then afterSpace false rest else rest).head?

/-- Reads an item of a class or a range. A dash at the end, or before another one, stands for
itself. -/
def classRange (flags : Flags) : Reading CharClass := do
  let first ← classItem flags
  space flags
  let next ← afterDash? flags
  if (← peek) ≠ '-' || next = some ']' || next = some '-' then
    match first with
    | .char c => member flags c
    | .oneOf k => return k
    | .assert _ => failure
  else
    advanceSpace flags
    match first, ← classItem flags with
    | .char a, .char b =>
      guard (a ≤ b && (flags.unicode || b.toNat < 0x80))
      return .range a b
    | _, _ => failure

/-- A class with a name between brackets and colons, and the text behind it. -/
def named? (text : List Char) : Option (Bool × CharClass × List Char) := do
  let '[' :: ':' :: rest := text | none
  let (negated, rest) := match rest with
    | '^' :: rest => (true, rest)
    | _ => (false, rest)
  let ':' :: ']' :: left := rest.dropWhile (· ≠ ':') | none
  let k ← CharClass.named? (String.ofList (rest.takeWhile (· ≠ ':')))
  return (negated, k, left)

/-- Reads the members of a class up to its closing bracket. -/
def classMembers (nested : Reading ClassPart) (flags : Flags) :
    Nat → ClassDraft → Reading ClassPart
  | 0, _ => failure
  | n + 1, d => do
    space flags
    let c ← peek
    if c = '[' then
      match named? (← get).rest with
      | some (negated, k, rest) =>
        leave rest
        classMembers nested flags n (d.add ⟨← flags.finish negated k, 0⟩)
      | none => classMembers nested flags n (d.add (← nested))
    else if c = ']' then
      advance
      return d.close flags
    else if ← take "&&" then classMembers nested flags n (d.operate flags .inter)
    else if ← take "--" then classMembers nested flags n (d.operate flags CharClass.diff)
    else if ← take "~~" then classMembers nested flags n (d.operate flags CharClass.symmDiff)
    else classMembers nested flags n (d.add ⟨← classRange flags, 0⟩)

/-- The members that stand for themselves right after the opening of a class: dashes, or else a
closing bracket. -/
def firstMembers (flags : Flags) : Reading ClassDraft := do
  let dashes ← run flags (· = '-')
  if !dashes.isEmpty then
    return { members := ⟨.single '-', 0⟩, count := dashes.length }
  else if (← peek) = ']' then
    advanceSpace flags
    return { members := ⟨.single ']', 0⟩, count := 1 }
  else
    return {}

/-- Reads a class from its opening bracket on; the number bounds how deep brackets may nest. -/
def bracket (flags : Flags) : Nat → Reading ClassPart
  | 0 => failure
  | n + 1 => do
    advanceSpace flags
    let negated := (← peek) = '^'
    if negated then advanceSpace flags
    let k ← classMembers (bracket flags n) flags (n + 1) (← firstMembers flags)
    return ⟨← flags.finish negated k.set, k.depth + 1⟩

end GraphQuery.Pattern
