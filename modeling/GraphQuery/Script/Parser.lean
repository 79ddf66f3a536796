import GraphQuery.Script.Token
import GraphQuery.Script.Expr

/-!
# Reading scripts

The grammar of scripts, one parser per level. From the loosest to the tightest:

* **statements**: blocks, and expressions that end with a semicolon, with the enclosing brace or with
  the text;
* **expressions**: assignments, disjunctions, conjunctions, comparisons, negations, accesses and
  calls, primaries.

A level takes what it nests as parameters (`expression` and `block`) and a bound on the rounds of its
loop. `Parser.expression` and `Parser.block` close the recursion: of two levels of nesting at least
one has read a character, since only a closure that is a block starts where its expression starts. So
twice the number of places in a text is a bound that is never used up, and `parse` picks it.
-/

namespace GraphQuery

namespace Parser

/-! ### Operators -/

/-- Reads the rest of a chain of operands joined by the operator `op`, given the operands so far. -/
def chainTail (op : String) (join : Tree → Tree → Tree) (operand : Parser Tree) :
    Nat → Tree → Parser Tree
  | 0, _ => exhausted
  | n + 1, left => do
    blanks
    if ← lookingAt op then
      token op
      blanks
      let right ← operand
      chainTail op join operand n (join left right)
    else
      return left

/-- Reads comparisons after a first operand. -/
def equalityTail (operand : Parser Tree) : Nat → Tree → Parser Tree
  | 0, _ => exhausted
  | n + 1, left => do
    blanks
    if ← lookingAt "==" then
      token "=="
      blanks
      let right ← operand
      equalityTail operand n (.equality left right false)
    else if ← lookingAt "!=" then
      token "!="
      blanks
      let right ← operand
      equalityTail operand n (.equality left right true)
    else
      return left

/-! ### Accesses and calls -/

/-- Reads call arguments up to the closing parenthesis, which stays; `read` holds those before, in
reverse. -/
def arguments (expression : Parser Tree) : Nat → List Tree → Parser (List Tree)
  | 0, _ => exhausted
  | n + 1, read => do
    if (← peek) = ')' then
      return read.reverse
    let argument ← expression
    blanks
    if (← peek) ≠ ')' then
      token ","
      blanks
    arguments expression n (argument :: read)

/-- Reads selectors, indices and calls after a primary. -/
def accessTail (expression : Parser Tree) (bound : Nat) : Nat → Tree → Parser Tree
  | 0, _ => exhausted
  | n + 1, base => do
    blanks
    match ← peek? with
    | some '.' =>
      let _ ← next
      blanks
      let place ← here
      let selector ← name .selector
      accessTail expression bound n (.select base selector place)
    | some '[' =>
      let place ← here
      let _ ← next
      blanks
      let position ← expression
      blanks
      token "]"
      accessTail expression bound n (.index base position place)
    | some '(' =>
      let place ← here
      let _ ← next
      blanks
      let arguments ← arguments expression bound []
      token ")"
      accessTail expression bound n (.call base arguments place)
    | _ => return base

/-! ### Primaries -/

/-- Reads what a name starts: a keyword, a closure with a parameter, or a variable. -/
def named (expression : Parser Tree) (block : Parser (List Tree)) : Parser Tree := do
  let place ← here
  let name ← name .expression
  if name = "false" then return .bool false
  if name = "null" then return .null
  if name = "true" then return .bool true
  blanks
  if ← lookingAt "->" then
    token "->"
    blanks
    if (← peek) = '{' then
      return .closure () (some name) (.block (← block))
    else
      return .closure () (some name) (← expression)
  else
    return .variable name place

/-- Reads an operand without accesses and calls. -/
def primary (expression : Parser Tree) (block : Parser (List Tree)) (bound : Nat) :
    Parser Tree := do
  let c ← peek
  if c = '"' ∨ c = '\'' then
    return .string (← stringLiteral bound)
  else if c = '(' then
    let _ ← next
    blanks
    let inner ← expression
    blanks
    token ")"
    return inner
  else if c = '{' then
    return .closure () none (.block (← block))
  else if c.isDigit then
    return .number (← number)
  else if c = '-' ∧ (((← cursor).rest.drop 1).head?.any Char.isDigit) then
    return .number (← number)
  else if isNameStart c then
    named expression block
  else
    fail (.unexpectedCharacter c .expression) (← here)

/-! ### Levels of expressions -/

/-- Reads a primary with its accesses and calls. -/
def access (expression : Parser Tree) (block : Parser (List Tree)) (bound : Nat) :
    Parser Tree := do
  let base ← primary expression block bound
  accessTail expression bound bound base

/-- Reads an operand with the negations before it. -/
def negation (operand : Parser Tree) : Nat → Parser Tree
  | 0 => exhausted
  | n + 1 => do
    if (← peek) = '!' then
      let _ ← next
      blanks
      return .not (← negation operand n)
    else
      operand

/-- Reads comparisons. -/
def equality (expression : Parser Tree) (block : Parser (List Tree)) (bound : Nat) :
    Parser Tree := do
  let operand := negation (access expression block bound) bound
  equalityTail operand bound (← operand)

/-- Reads conjunctions. -/
def conjunction (expression : Parser Tree) (block : Parser (List Tree)) (bound : Nat) :
    Parser Tree := do
  let operand := equality expression block bound
  chainTail "&&" .and operand bound (← operand)

/-- Reads disjunctions. -/
def disjunction (expression : Parser Tree) (block : Parser (List Tree)) (bound : Nat) :
    Parser Tree := do
  let operand := conjunction expression block bound
  chainTail "||" .or operand bound (← operand)

/-- Reads an assignment whose operator has `width` characters. -/
def assignment (expression : Parser Tree) (width : Nat) : Parser Tree := do
  let place ← here
  let name ← name .assignment
  if name ∈ keywords then
    fail (.unexpectedKeyword name) place
  else
    blanks
    move (Cursor.skip width)
    blanks
    let value ← expression
    return .assign (.target name place) value place

/-- Reads an assignment or a disjunction, as the look-ahead tells. -/
def assignmentOrDisjunction (expression : Parser Tree) (block : Parser (List Tree))
    (bound : Nat) : Parser Tree := do
  match assignmentAhead (← cursor).rest with
  | some width => assignment expression width
  | none => disjunction expression block bound

/-! ### Statements -/

/-- Reads statements up to `close`, or to the end of the text if there is none, and leaves `close`
unread. `read` holds the statements before, in reverse; `terminated` says whether a semicolon or a
block has occurred. -/
def statementsUpTo (close : Option Char) (expression : Parser Tree) (block : Parser (List Tree)) :
    Nat → List Tree → Bool → Parser (List Tree × Bool)
  | 0, _, _ => exhausted
  | n + 1, read, terminated => do
    blanks
    match ← peek? with
    | none =>
      if close.isSome then
        fail (.expected "\x7d") (← here)
      else
        return (read.reverse, terminated)
    | some c =>
      if some c = close then
        return (read.reverse, terminated)
      else if c = ';' then
        let _ ← next
        statementsUpTo close expression block n read true
      else if c = '{' then
        let body ← block
        statementsUpTo close expression block n (.block body :: read) true
      else
        let statement ← expression
        blanks
        match ← peek? with
        | some d =>
          if d = ';' then
            let _ ← next
            statementsUpTo close expression block n (statement :: read) true
          else if some d = close then
            statementsUpTo close expression block n (statement :: read) terminated
          else
            fail (.unexpectedCharacter d .statement) (← here)
        | none => statementsUpTo close expression block n (statement :: read) terminated

/-- Reads statements between braces. -/
def braced (expression : Parser Tree) (block : Parser (List Tree)) (bound : Nat) :
    Parser (List Tree) := do
  token "\x7b"
  let (body, _) ← statementsUpTo (some '}') expression block bound [] false
  token "\x7d"
  return body

mutual

/-- Reads an expression; the bound is to be twice the number of places in the text. -/
def expression : Nat → Parser Tree
  | 0 => exhausted
  | n + 1 => fun c => assignmentOrDisjunction (expression n) (block n) (n + 1) c

/-- Reads a block; the bound may be one less than for an expression. -/
def block : Nat → Parser (List Tree)
  | 0 => exhausted
  | n + 1 => fun c => braced (expression n) (block n) (n + 1) c

end

/-- Reads a whole script. It is a bare expression if it is one statement that nothing terminates, and
a list of statements otherwise. -/
def script (bound : Nat) : Parser Tree := do
  match ← statementsUpTo none (expression bound) (block bound) bound [] false with
  | ([statement], false) => return statement
  | (body, _) => return .statements body

end Parser

/-- Reads a script. The bound is twice the number of places in the text, so the recursion is never
exhausted. -/
def parse (source : String) : Except ParseError Tree :=
  match Parser.script (2 * (source.length + 1)) (Cursor.start source) with
  | .done tree _ => .ok tree
  | .failed e => .error e
  | .exhausted => .error ⟨.unexpectedEnd, {}⟩

end GraphQuery
