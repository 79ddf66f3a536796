import GraphQuery.Script.ParseError
import GraphQuery.Text.Blank

/-!
# Cursors and parsers

A **cursor** is the text that is left to read together with its place in the script. A **parser**
moves a cursor: it either is done, with a value and a later cursor, or fails for a reason.

Parsers of nested constructs are defined by recursion on a bound, which is always more than the
length of the text that is left. Running out of that bound is a third outcome, `Outcome.exhausted`,
kept apart from failures so that it can be ruled out.

`Cursor.skipBlanks` is the only way past white space and comments.

## Main statements

* `Cursor.skip_location`: moving a cursor keeps its place in step with the text it passes.
-/

namespace GraphQuery

/-- The text left to read and its place. -/
structure Cursor where
  /-- The characters that have not been read. -/
  rest : List Char
  /-- The place of the first of them. -/
  location : Location := {}
  deriving DecidableEq, Repr

namespace Cursor

/-- A cursor at the start of a text. -/
def start (source : String) : Cursor := ⟨source.toList, {}⟩

/-- The cursor `n` characters further, or at the end. -/
def skip : Nat → Cursor → Cursor
  | 0, c => c
  | _ + 1, ⟨[], l⟩ => ⟨[], l⟩
  | n + 1, ⟨x :: rest, l⟩ => skip n ⟨rest, l.advance x⟩

/-- The cursor at the first character that fails a test. -/
def skipWhile (p : Char → Bool) (c : Cursor) : Cursor :=
  ⟨c.rest.dropWhile p, c.location.after (c.rest.takeWhile p)⟩

/-- The cursor after white space and comments. A comment runs from two slashes to the end of the
line; `inComment` says that one has started. -/
def skipTrivia : Bool → List Char → Location → Cursor
  | _, [], l => ⟨[], l⟩
  | true, x :: rest, l => skipTrivia (x ≠ '\n') rest (l.advance x)
  | false, x :: rest, l =>
    if x = '/' ∧ rest.head? = some '/' then skipTrivia true rest (l.advance x)
    else if isBlank x then skipTrivia false rest (l.advance x)
    else ⟨x :: rest, l⟩

/-- The cursor at the next character that is neither white space nor part of a comment. -/
def skipBlanks (c : Cursor) : Cursor :=
  skipTrivia false c.rest c.location

/-- Whether a token stands right at the cursor. -/
def lookingAt (c : Cursor) (token : String) : Bool :=
  token.toList.isPrefixOf c.rest

theorem skip_rest (n : Nat) (c : Cursor) : (c.skip n).rest = c.rest.drop n := by
  fun_induction skip n c with
  | case1 => rfl
  | case2 => rfl
  | case3 n x rest l ih => rw [ih, List.drop_succ_cons]

theorem skip_location (n : Nat) (c : Cursor) :
    (c.skip n).location = c.location.after (c.rest.take n) := by
  fun_induction skip n c with
  | case1 => rfl
  | case2 => rfl
  | case3 n x rest l ih => rw [ih, List.take_succ_cons, Location.after_cons]

end Cursor

/-- What becomes of a parser that runs on a cursor. -/
inductive Outcome (α : Type) where
  /-- A value was read up to a later cursor. -/
  | done (value : α) (next : Cursor)
  /-- The text does not fit. -/
  | failed (error : ParseError)
  /-- The bound on the depth of the recursion was too small. -/
  | exhausted

/-- A parser for values of type `α`. -/
def Parser (α : Type) : Type := Cursor → Outcome α

namespace Parser

variable {α β : Type}

/-- The parser that reads nothing. -/
protected def pure (a : α) : Parser α := fun c => .done a c

/-- One parser, then another that may depend on its value. -/
protected def bind (p : Parser α) (f : α → Parser β) : Parser β := fun c =>
  match p c with
  | .done a next => f a next
  | .failed e => .failed e
  | .exhausted => .exhausted

instance : Monad Parser where
  pure := Parser.pure
  bind := Parser.bind

/-- Fails for a cause at a place. -/
def fail (cause : ParseError.Cause) (location : Location) : Parser α :=
  fun _ => .failed ⟨cause, location⟩

/-- The outcome when no recursion is left. -/
def exhausted : Parser α := fun _ => .exhausted

/-- The cursor itself. -/
def cursor : Parser Cursor := fun c => .done c c

/-- Moves the cursor. -/
def move (f : Cursor → Cursor) : Parser Unit := fun c => .done () (f c)

/-- The place of the cursor. -/
def here : Parser Location := fun c => .done c.location c

/-- The next character, if there is one, without reading it. -/
def peek? : Parser (Option Char) := fun c => .done c.rest.head? c

/-- The next character, without reading it. -/
def peek : Parser Char := fun c =>
  match c.rest with
  | [] => .failed ⟨.unexpectedEnd, c.location⟩
  | x :: _ => .done x c

/-- Reads one character. -/
def next : Parser Char := fun c =>
  match c.rest with
  | [] => .failed ⟨.unexpectedEnd, c.location⟩
  | x :: rest => .done x ⟨rest, c.location.advance x⟩

/-- Reads past white space and comments. -/
def blanks : Parser Unit := move Cursor.skipBlanks

/-- Reads the longest text of characters that pass a test. -/
def takeWhile (p : Char → Bool) : Parser (List Char) := fun c =>
  .done (c.rest.takeWhile p) (c.skipWhile p)

/-- Whether a token comes next. -/
def lookingAt (t : String) : Parser Bool := fun c => .done (c.lookingAt t) c

/-- Reads a token. -/
def token (t : String) : Parser Unit := fun c =>
  if c.lookingAt t then .done () (c.skip t.length) else .failed ⟨.expected t, c.location⟩

end Parser

end GraphQuery
