import GraphQuery.Pattern.CharClass

/-!
# Patterns and what they match

A regular expression as a term, and whether it matches somewhere in a text.

A set of positions of a text is kept as a number: bit `i` says whether position `i` is in it. A
pattern and a text together give a `Motion`, which says how such sets move: `Motion.ends` maps the
positions at which a match may start to those at which it may end. What depends on characters is
settled once, when the motion is made.

Since a text has finitely many positions, the repetitions of a pattern that can make a difference are
bounded by its length, which keeps every iteration finite: a longer run of repetitions contains one
that matches nothing, and leaving that one out or repeating it changes no end.
-/

namespace GraphQuery

/-- A condition on a position between two characters. -/
inductive Assertion where
  /-- The start of the text. -/
  | startText
  /-- The end of the text. -/
  | endText
  /-- The start of a line; with `returns`, a carriage return ends a line too. -/
  | startLine (returns : Bool)
  /-- The end of a line; with `returns`, a carriage return ends a line too. -/
  | endLine (returns : Bool)
  /-- A place where a word starts or ends. -/
  | wordBoundary (letters : CharClass)
  /-- A place where no word starts or ends. -/
  | noWordBoundary (letters : CharClass)
  /-- A place where a word starts. -/
  | wordStart (letters : CharClass)
  /-- A place where a word ends. -/
  | wordEnd (letters : CharClass)
  /-- A place that no word character precedes. -/
  | wordStartHalf (letters : CharClass)
  /-- A place that no word character follows. -/
  | wordEndHalf (letters : CharClass)

/-- A regular expression. -/
inductive Pattern where
  /-- Matches nothing but the empty text. -/
  | empty
  /-- Matches one character of a class. -/
  | char (k : CharClass)
  /-- Matches the empty text where a condition holds. -/
  | assert (a : Assertion)
  /-- One pattern after the other. -/
  | seq (p q : Pattern)
  /-- Either pattern. -/
  | alt (p q : Pattern)
  /-- A pattern several times. -/
  | many (p : Pattern) (least : Nat) (most : Option Nat)

/-- Whether a condition holds at a position. -/
def Assertion.holds (text : Array Char) (i : Nat) : Assertion → Bool
  | .startText => i = 0
  | .endText => i = text.size
  | .startLine false => i = 0 || text[i - 1]? = some '\n'
  | .startLine true =>
    i = 0 || text[i - 1]? = some '\n' || (text[i - 1]? = some '\r' && text[i]? ≠ some '\n')
  | .endLine false => i = text.size || text[i]? = some '\n'
  | .endLine true =>
    i = text.size || text[i]? = some '\r' ||
      (text[i]? = some '\n' && (i = 0 || text[i - 1]? ≠ some '\r'))
  | .wordBoundary w => before w != after w
  | .noWordBoundary w => before w == after w
  | .wordStart w => !before w && after w
  | .wordEnd w => before w && !after w
  | .wordStartHalf w => !before w
  | .wordEndHalf w => !after w
where
  /-- Whether a character of the class comes right before. -/
  before (w : CharClass) : Bool := 0 < i && text[i - 1]?.any w.contains
  /-- Whether a character of the class comes right after. -/
  after (w : CharClass) : Bool := text[i]?.any w.contains

/-- How sets of positions of one text move. -/
inductive Motion where
  /-- Nothing moves. -/
  | stay
  /-- The positions of a set move on by one, and the others are lost. -/
  | advance (among : Nat)
  /-- The positions of a set stay, and the others are lost. -/
  | keep (among : Nat)
  /-- One motion after the other. -/
  | seq (m n : Motion)
  /-- Either motion. -/
  | alt (m n : Motion)
  /-- A motion several times, where more than `enough` times make no difference. -/
  | many (m : Motion) (least : Nat) (most : Option Nat) (enough : Nat)

namespace Motion

/-- Applies a map of sets `n` times. -/
def times (f : Nat → Nat) : Nat → Nat → Nat
  | 0, here => here
  | n + 1, here => times f n (f here)

/-- Adds what a map of sets leads to in up to `n` rounds. -/
def upTo (f : Nat → Nat) : Nat → Nat → Nat
  | 0, here => here
  | n + 1, here =>
    let more := here ||| f here
    if more = here then here else upTo f n more

/-- The positions that are reached from those of a set. -/
def ends : Motion → Nat → Nat
  | .stay, here => here
  | .advance among, here => 2 * (here &&& among)
  | .keep among, here => here &&& among
  | .seq m n, here => n.ends (m.ends here)
  | .alt m n, here => m.ends here ||| n.ends here
  | .many m least most enough, here =>
    let first := times m.ends (min least enough) here
    match most with
    | some k => upTo m.ends (min (k - least) enough) first
    | none => upTo m.ends enough first

end Motion

namespace Pattern

/-- The number whose bits, from the lowest on, are given. -/
def bits (bs : List Bool) : Nat := bs.foldr (fun b n => 2 * n + b.toNat) 0

/-- The motion of a pattern on a text. -/
def motion (text : Array Char) : Pattern → Motion
  | .empty => .stay
  | .char k => .advance (bits (text.toList.map k.contains))
  | .assert a => .keep (bits ((List.range (text.size + 1)).map (a.holds text)))
  | .seq p q => .seq (p.motion text) (q.motion text)
  | .alt p q => .alt (p.motion text) (q.motion text)
  | .many p least most => .many (p.motion text) least most (text.size + 1)

/-- Whether a pattern matches somewhere in a text. -/
def occursIn (p : Pattern) (s : String) : Bool :=
  let text := s.toList.toArray
  (p.motion text).ends (bits (List.replicate (text.size + 1) true)) ≠ 0

end Pattern

end GraphQuery
