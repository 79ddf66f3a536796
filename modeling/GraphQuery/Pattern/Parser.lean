import GraphQuery.Pattern.Bracket

/-!
# The text of patterns

`Pattern.parse?` reads the text of a regular expression, or refuses it. A text is a choice of
sequences of items; an item may be followed by repetitions. Parentheses group; `(?i)` and the like
change how the rest of a group is read.

Whether a repetition prefers many or few rounds makes no difference to whether a pattern occurs in a
text, so that mark is read and forgotten, and so are the names of groups.

Two limits keep patterns manageable. Constructs nest at most `depthLimit` levels deep, where groups,
repetitions, brackets, sequences and choices each count as one level. And the automaton for a
pattern, in which a counted repetition has a copy for every round, takes at most `roomLimit` bytes by
an estimate.
-/

namespace GraphQuery.Pattern

open Reading

/-- How deep constructs may nest. -/
def depthLimit : Nat := 250

/-- How much room an automaton may take, in bytes. -/
def roomLimit : Nat := 10485760

/-! ### Items -/

/-- A pattern with its measures. -/
structure Part where
  /-- The pattern. -/
  pattern : Pattern
  /-- How deep its constructs nest. -/
  depth : Nat
  /-- The room that its automaton takes. -/
  room : Nat

namespace Part

/-- The pattern of the empty text. -/
def empty : Part := ⟨.empty, 0, 32⟩

/-- A class of characters. -/
def ofClass (k : CharClass) (depth : Nat) : Part := ⟨.char k, depth, k.room + 64⟩

/-- A condition on the position. -/
def ofAssertion (a : Assertion) : Part := ⟨.assert a, 0, 32⟩

/-- One character, in all variants of case if they do not count. -/
def ofChar (flags : Flags) (c : Char) : Part :=
  if flags.caseless then ofClass (flags.fold (.single c)) 0
  else ⟨.char (.single c), 0, 32 * c.utf8Size⟩

/-- Several items in a row. -/
def ofSequence : List Part → Part
  | [] => empty
  | [p] => p
  | p :: ps =>
    ps.foldl (fun q r => ⟨.seq q.pattern r.pattern, max q.depth (r.depth + 1), q.room + r.room⟩)
      { p with depth := p.depth + 1 }

/-- Several choices. -/
def ofChoices : List Part → Part
  | [] => empty
  | [p] => p
  | p :: ps =>
    ps.foldl (fun q r => ⟨.alt q.pattern r.pattern, max q.depth (r.depth + 1), q.room + r.room + 4⟩)
      { p with depth := p.depth + 1, room := p.room + 68 }

/-- A part several times: a copy for each round that must be made and for each that may be made, or
a loop if there is no bound. -/
def repeated (p : Part) (least : Nat) (most : Option Nat) : Part where
  pattern := .many p.pattern least most
  depth := p.depth + 1
  room := match most with
    | some n => p.room * n + 40 * (n - least) + 32
    | none => p.room * max least 1 + 40

end Part

/-- A pattern that has been read in part. -/
structure Draft where
  /-- The choices before the last bar, the newest first. -/
  choices : List Part := []
  /-- The items since then, the newest first. -/
  items : List Part := []
  /-- Whether the newest item can be repeated. -/
  repeatable : Bool := false

namespace Draft

/-- The sequence since the last bar. -/
def sequence (d : Draft) : Part := Part.ofSequence d.items.reverse

/-- One more item. -/
def push (d : Draft) (p : Part) : Draft := { d with items := p :: d.items, repeatable := true }

/-- An item that matches nothing and cannot be repeated. -/
def interrupt (d : Draft) : Draft :=
  { d with items := ⟨.empty, 0, 0⟩ :: d.items, repeatable := false }

/-- The pattern that has been read. -/
def close (d : Draft) : Part := Part.ofChoices (d.sequence :: d.choices).reverse

/-- The start of another choice. -/
def bar (d : Draft) : Draft := { choices := d.sequence :: d.choices }

/-- The last item several times. -/
def repeated (d : Draft) (least : Nat) (most : Option Nat) : Option Draft :=
  match d.items with
  | p :: rest =>
    if d.repeatable then some { d with items := p.repeated least most :: rest } else none
  | [] => none

end Draft

/-- The class of a dot. -/
def dot (flags : Flags) : CharClass :=
  if flags.dotAll then CharClass.any
  else if flags.returns then .complement (.union (.single '\n') (.single '\r'))
  else .complement (.single '\n')

/-- The start of the text, or of a line. -/
def startCondition (flags : Flags) : Assertion :=
  if flags.multiline then .startLine flags.returns else .startText

/-- The end of the text, or of a line. -/
def endCondition (flags : Flags) : Assertion :=
  if flags.multiline then .endLine flags.returns else .endText

/-- Reads an item that is neither a group nor a bracketed class. -/
def primitive (flags : Flags) : Reading Part := do
  let c ← peek
  if c = '\\' then
    match ← escape flags with
    | .char c => return .ofChar flags c
    | .oneOf k => return .ofClass k 0
    | .assert a => return .ofAssertion a
  advance
  match c with
  | '.' =>
    guard flags.unicode
    return .ofClass (dot flags) 0
  | '^' => return .ofAssertion (startCondition flags)
  | '$' => return .ofAssertion (endCondition flags)
  | c => return .ofChar flags c

/-! ### Repetitions -/

/-- The greatest number of rounds that can be written. -/
def countLimit : Nat := 4294967295

/-- Reads a number of rounds between blanks, if there is one. -/
def rounds? (flags : Flags) : Reading (Option Nat) := do
  leave ((← get).rest.dropWhile isBlank)
  let digits ← run flags Char.isDigit
  leave ((← get).rest.dropWhile isBlank)
  space flags
  if digits.isEmpty then return none
  let n := decimalValue digits
  guard (n ≤ countLimit)
  return some n
where
  /-- The number that decimal digits stand for. -/
  decimalValue (digits : List Char) : Nat :=
    digits.foldl (fun n c => n * 10 + (c.toNat - 48)) 0

/-- Reads the bounds of a repetition, from the opening brace on. -/
def bounds (flags : Flags) : Reading (Nat × Option Nat) := do
  advanceSpace flags
  let least ← rounds? flags
  let most ←
    if (← peek) = ',' then
      advanceSpace flags
      if (← peek) = '\x7d' then
        pure none
      else
        let some n ← rounds? flags | failure
        pure (some n)
    else
      pure least
  expect '\x7d'
  let some least := least | failure
  guard (most.all (least ≤ ·))
  space flags
  return (least, most)

/-- Reads a repetition with its mark of preference. -/
def repetition (flags : Flags) (c : Char) : Reading (Nat × Option Nat) := do
  let range ←
    if c = '\x7b' then
      bounds flags
    else
      advance
      pure (match c with
        | '?' => (0, some 1)
        | '*' => (0, none)
        | _ => (1, none))
  let _ ← take "?"
  return range

/-! ### Groups -/

/-- What an opening parenthesis starts. -/
inductive Opening where
  /-- A group with flags of its own, whose match may be wanted later. -/
  | group (flags : Flags) (captures : Bool)
  /-- A change of flags. -/
  | change (flags : Flags)

/-- The flags with one of them set or cleared. -/
def Flags.with? (flags : Flags) (letter : Char) (on : Bool) : Option Flags :=
  match letter with
  | 'i' => some { flags with caseless := on }
  | 'm' => some { flags with multiline := on }
  | 's' => some { flags with dotAll := on }
  | 'x' => some { flags with extended := on }
  | 'R' => some { flags with returns := on }
  | 'u' => some { flags with unicode := on }
  | 'U' => some flags
  | _ => none

/-- Applies the letters of a change of flags; those after a dash are cleared. No letter may occur
twice, and a dash must have one behind it. -/
def Flags.change (flags : Flags) (letters : List Char) : Option Flags := do
  guard (letters.Nodup && letters.getLast? ≠ some '-')
  let (set, cleared) := letters.span (· ≠ '-')
  let flags ← set.foldlM (fun f c => f.with? c true) flags
  (cleared.drop 1).foldlM (fun f c => f.with? c false) flags

/-- Whether a character may stand in the name of a group. -/
def isNameChar (c : Char) : Bool :=
  c = '_' || c = '.' || c = '[' || c = ']' || isAlphanumeric c

/-- Reads the name of a group up to its closing bracket. It must be new. -/
def groupName : Reading Unit := do
  let rest := (← get).rest
  let name := rest.takeWhile (· ≠ '>')
  guard (name.head?.any fun c => c = '_' || isAlphabetic c)
  guard (name.all isNameChar)
  leave (rest.drop name.length)
  expect '>'
  let name := String.ofList name
  guard (name ∉ (← get).names)
  modify fun r => { r with names := name :: r.names }

/-- Reads what follows an opening parenthesis, from the parenthesis on. -/
def opening (flags : Flags) : Reading Opening := do
  advanceSpace flags
  for token in ["?=", "?!", "?<=", "?<!"] do
    if ← take token then failure
  if (← take "?P<") || (← take "?<") then
    groupName
    return .group flags true
  else if ← take "?" then
    let rest := (← get).rest
    let letters := rest.takeWhile fun c => c ≠ ':' && c ≠ ')'
    leave (rest.drop letters.length)
    let flags ← flags.change letters
    let c ← peek
    advance
    if c = ')' then
      guard (!letters.isEmpty)
      return .change flags
    else
      return .group flags false
  else
    return .group flags true

/-- A group as an item; the ends of a match that may be wanted later take room. -/
def Part.grouped (p : Part) (captures : Bool) : Part :=
  { p with depth := p.depth + 1, room := if captures then p.room + 64 else p.room }

/-- Reads the inside of a group up to its closing parenthesis or the end of the text. -/
def choices (nested : Flags → Reading Part) (depth : Nat) : Nat → Flags → Draft → Reading Part
  | 0, _, _ => failure
  | n + 1, flags, d => do
    space flags
    match ← peek? with
    | none | some ')' => return d.close
    | some '|' =>
      advance
      choices nested depth n flags d.bar
    | some '(' =>
      match ← opening flags with
      | .change flags => choices nested depth n flags d.interrupt
      | .group inner captures =>
        let p ← nested inner
        expect ')'
        choices nested depth n flags (d.push (p.grouped captures))
    | some '[' =>
      let k ← bracket flags depth
      choices nested depth n flags (d.push (.ofClass k.set k.depth))
    | some c =>
      if c = '?' || c = '*' || c = '+' || c = '\x7b' then
        let (least, most) ← repetition flags c
        choices nested depth n flags (← d.repeated least most)
      else
        choices nested depth n flags (d.push (← primitive flags))

/-- Reads the inside of a group; the number bounds how deep groups may nest. -/
def group : Nat → Flags → Reading Part
  | 0, _ => failure
  | n + 1, flags => choices (group n) (n + 1) (n + 1) flags {}

/-- The pattern that a text stands for, if it stands for one within the limits. -/
def parse? (text : String) : Option Pattern := do
  let (p, r) ← StateT.run (group (text.length + 1) {}) ⟨text.toList, []⟩
  guard (r.rest.isEmpty && p.depth ≤ depthLimit && p.room ≤ roomLimit)
  return p.pattern

end GraphQuery.Pattern
