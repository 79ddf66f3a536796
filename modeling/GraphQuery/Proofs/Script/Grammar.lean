import GraphQuery.Proofs.Script.Trivia
import GraphQuery.Script.Expr

/-!
# The grammar of scripts

The language that the parsers are to accept, without regard to how they do it. It comes in two
layers.

* A text is a sequence of **tokens** with gaps between them: names, numerals, string literals and
  symbols. `Spells ts s r` says that the text `s` starts with the tokens `ts`, each as far as it
  goes, and that `r` comes after them; there may be gaps anywhere.
* A sequence of tokens stands for a tree. `Derives level ts e` has one rule for each construct and
  each **level** of expressions, from the loosest, assignments, to the tightest, primaries. The left
  operand of an operator is of the level of the operator and the right one is of the next level, which
  makes operators associate to the left. Arguments and statements have relations of their own.

A brace starts a block where a statement is expected or right after an arrow, and a closure
elsewhere. So a statement or the body of a closure is an expression only if no brace comes first.

Statements are derived together with whether they are **terminated**: a semicolon or a block is among
them, at their own level. A script of one statement that is not terminated stands for that
expression, and every other one for the list of its statements (`DerivesScript`).

## Main statements

* `Spells.trans`: tokens after tokens.
* `Spells.starts`: a text that is not in a gap starts with its first token.
-/

namespace GraphQuery

/-! ### Tokens -/

/-- A token. Keywords are names. -/
inductive Token where
  /-- A name or a keyword. -/
  | name (x : String)
  /-- A numeral, as it is written. -/
  | number (text : String)
  /-- A string literal, by its value. -/
  | string (value : String)
  /-- An operator, a bracket or a separator. -/
  | symbol (text : String)
  deriving DecidableEq

/-- The operators, brackets and separators. -/
def symbols : List String :=
  ["=", ":=", "||", "&&", "==", "!=", "!", ".", "[", "]", "(", ")", ",", "->", "\x7b", "\x7d", ";"]

/-- The number that hexadecimal digits stand for. -/
def hexCode? (digits : List Char) : Option Nat :=
  digits.foldlM (fun code d => (hexValue? d).map (code * 16 + ·)) 0

/-- The text between two quotes that stands for characters: each is written as it is, as a short
escape, or as an escape with the four digits of its code point. -/
inductive Encodes (quote : Char) : List Char → List Char → Prop where
  /-- Nothing is written for no characters. -/
  | nil : Encodes quote [] []
  /-- Any character but the quote and a backslash stands for itself. -/
  | plain {x : Char} {t s : List Char} (hquote : x ≠ quote) (hslash : x ≠ '\\')
      (hs : Encodes quote t s) : Encodes quote (x :: t) (x :: s)
  /-- A backslash and a letter. -/
  | short {x y : Char} {t s : List Char} (hy : shortEscape? y = some x)
      (hs : Encodes quote t s) : Encodes quote ('\\' :: y :: t) (x :: s)
  /-- A backslash, `u` and four digits. -/
  | code {x : Char} {digits t s : List Char} {n : Nat} (hlength : digits.length = 4)
      (hdigits : hexCode? digits = some n) (hx : charOfCode? n = some x)
      (hs : Encodes quote t s) : Encodes quote ('\\' :: 'u' :: (digits ++ t)) (x :: s)

/-- The text is a token, and what follows does not go on with it. -/
inductive Token.Written : Token → List Char → List Char → Prop where
  /-- A name goes on with letters, digits and underscores. -/
  | name {x : String} {rest : List Char} (hx : IsName x)
      (hend : ∀ y ∈ rest.head?, isNamePart y = false) : Written (.name x) x.toList rest
  /-- A numeral goes on with digits. -/
  | number {t : String} {rest : List Char} (ht : IsNumeral t)
      (hend : ∀ y ∈ rest.head?, y.isDigit = false) : Written (.number t) t.toList rest
  /-- A string literal ends with its quote. -/
  | string {quote : Char} {body s rest : List Char} (hquote : quote = '"' ∨ quote = '\'')
      (hs : Encodes quote body s) :
      Written (.string (String.ofList s)) (quote :: (body ++ [quote])) rest
  /-- A symbol is as long as it is, whatever follows. -/
  | symbol {s : String} {rest : List Char} (hs : s ∈ symbols) : Written (.symbol s) s.toList rest

/-- The text `s` starts with the tokens, with gaps around them, and `r` comes after. -/
inductive Spells : List Token → List Char → List Char → Prop where
  /-- There are no tokens left. -/
  | done {r : List Char} : Spells [] r r
  /-- A gap may be anywhere. -/
  | gap {ts : List Token} {s t r : List Char} (hgap : Gap s t) (h : Spells ts t r) : Spells ts s r
  /-- A token, and then the others. -/
  | token {t : Token} {ts : List Token} {w s r : List Char} (hw : t.Written w s)
      (h : Spells ts s r) : Spells (t :: ts) (w ++ s) r

/-- Tokens after tokens. -/
theorem Spells.trans {ts us : List Token} {s t r : List Char} (h₁ : Spells ts s t)
    (h₂ : Spells us t r) : Spells (ts ++ us) s r := by
  induction h₁ with
  | done => exact h₂
  | gap hgap _ ih => exact .gap hgap (ih h₂)
  | token hw _ ih => exact .token hw (ih h₂)

/-- **A text that is not in a gap** starts with its first token. -/
theorem Spells.starts {t : Token} {ts : List Token} {s r : List Char} (h : Spells (t :: ts) s r)
    (hs : Settled s) : ∃ w rest, s = w ++ rest ∧ t.Written w rest := by
  -- gaps may come before the token, so the induction is on the derivation and not on the text
  generalize hus : t :: ts = us at h
  induction h with
  | done => exact nomatch hus
  -- the text is in no gap, so it does not start with one
  | gap hgap _ ih =>
    obtain rfl := hgap.eq_of_settled hs
    exact ih hs hus
  | token hw =>
    obtain ⟨rfl, -⟩ := List.cons.inj hus
    exact ⟨_, _, rfl, hw⟩

/-- Only a text with a brace in front starts with a brace. -/
theorem Spells.head?_ne_brace {ts : List Token} {s r : List Char} (h : Spells ts s r)
    (hs : Settled s) (hopen : s.head? ≠ some '\x7b') : ts.head? ≠ some (.symbol "\x7b") := by
  intro hhead
  obtain ⟨us, rfl⟩ := List.head?_eq_some_iff.mp hhead
  obtain ⟨w, rest, rfl, hw⟩ := h.starts hs
  generalize ht : Token.symbol "\x7b" = t at hw
  cases hw with
  | symbol =>
    obtain rfl := Token.symbol.inj ht
    exact hopen rfl
  | name => exact nomatch ht
  | number => exact nomatch ht
  | string => exact nomatch ht

/-! ### Derivations -/

/-- The levels of expressions, from the loosest to the tightest. -/
inductive Level where
  | expression
  | disjunction
  | conjunction
  | comparison
  | negation
  | access
  | primary

mutual

/-- The tokens stand for an expression of a level. -/
inductive Derives : Level → List Token → Expr Unit Unit → Prop where
  /-- An assignment, to a name in front of one of the two operators. -/
  | assign {x op : String} {ts : List Token} {v : Expr Unit Unit} (hx : IsVariableName x)
      (hop : op = "=" ∨ op = ":=") (hv : Derives .expression ts v) :
      Derives .expression (.name x :: .symbol op :: ts) (.assign (.target x ()) v ())
  /-- Any other expression. -/
  | ofDisjunction {ts : List Token} {e : Expr Unit Unit} (h : Derives .disjunction ts e) :
      Derives .expression ts e
  /-- A disjunction, whose left operand may be one as well. -/
  | or {ts us : List Token} {l r : Expr Unit Unit} (hl : Derives .disjunction ts l)
      (hr : Derives .conjunction us r) :
      Derives .disjunction (ts ++ .symbol "||" :: us) (.or l r)
  /-- Or no disjunction. -/
  | ofConjunction {ts : List Token} {e : Expr Unit Unit} (h : Derives .conjunction ts e) :
      Derives .disjunction ts e
  /-- A conjunction, whose left operand may be one as well. -/
  | and {ts us : List Token} {l r : Expr Unit Unit} (hl : Derives .conjunction ts l)
      (hr : Derives .comparison us r) :
      Derives .conjunction (ts ++ .symbol "&&" :: us) (.and l r)
  /-- Or no conjunction. -/
  | ofComparison {ts : List Token} {e : Expr Unit Unit} (h : Derives .comparison ts e) :
      Derives .conjunction ts e
  /-- A comparison, whose left operand may be one as well. -/
  | equality {ts us : List Token} {l r : Expr Unit Unit} (negated : Bool)
      (hl : Derives .comparison ts l) (hr : Derives .negation us r) :
      Derives .comparison (ts ++ .symbol (if negated then "!=" else "==") :: us)
        (.equality l r negated)
  /-- Or no comparison. -/
  | ofNegation {ts : List Token} {e : Expr Unit Unit} (h : Derives .negation ts e) :
      Derives .comparison ts e
  /-- A negation, of one that may be negated as well. -/
  | not {ts : List Token} {e : Expr Unit Unit} (h : Derives .negation ts e) :
      Derives .negation (.symbol "!" :: ts) (.not e)
  /-- Or no negation. -/
  | ofAccess {ts : List Token} {e : Expr Unit Unit} (h : Derives .access ts e) :
      Derives .negation ts e
  /-- A selection by a name, which may be a keyword. -/
  | select {ts : List Token} {b : Expr Unit Unit} {s : String} (hb : Derives .access ts b)
      (hs : IsName s) : Derives .access (ts ++ [.symbol ".", .name s]) (.select b s ())
  /-- An index in brackets, which may be any expression. -/
  | index {ts us : List Token} {b i : Expr Unit Unit} (hb : Derives .access ts b)
      (hi : Derives .expression us i) :
      Derives .access (ts ++ .symbol "[" :: (us ++ [.symbol "]"])) (.index b i ())
  /-- A call with arguments in parentheses. -/
  | call {ts us : List Token} {f : Expr Unit Unit} {as : List (Expr Unit Unit)}
      (hf : Derives .access ts f) (has : DerivesArguments us as) :
      Derives .access (ts ++ .symbol "(" :: (us ++ [.symbol ")"])) (.call f as ())
  /-- No access. -/
  | ofPrimary {ts : List Token} {e : Expr Unit Unit} (h : Derives .primary ts e) :
      Derives .access ts e
  /-- Null. -/
  | null : Derives .primary [.name "null"] .null
  /-- A truth value. -/
  | bool (b : Bool) : Derives .primary [.name (if b then "true" else "false")] (.bool b)
  /-- A number. -/
  | number (t : String) : Derives .primary [.number t] (.number t)
  /-- A string. -/
  | string (s : String) : Derives .primary [.string s] (.string s)
  /-- A variable, which is no keyword. -/
  | name {x : String} (hx : IsVariableName x) : Derives .primary [.name x] (.variable x ())
  /-- A closure with a parameter, the body of which is an expression. -/
  | arrow {x : String} {ts : List Token} {b : Expr Unit Unit} (hx : IsVariableName x)
      (hb : Derives .expression ts b) (hopen : ts.head? ≠ some (.symbol "\x7b")) :
      Derives .primary (.name x :: .symbol "->" :: ts) (.closure () (some x) b)
  /-- A closure with a parameter, the body of which is a block. -/
  | arrowBlock {x : String} {ts : List Token} {es : List (Expr Unit Unit)} {terminated : Bool}
      (hx : IsVariableName x) (hes : DerivesStatements ts es terminated) :
      Derives .primary (.name x :: .symbol "->" :: .symbol "\x7b" :: (ts ++ [.symbol "\x7d"]))
        (.closure () (some x) (.block es))
  /-- A block is a closure without a parameter. -/
  | block {ts : List Token} {es : List (Expr Unit Unit)} {terminated : Bool}
      (hes : DerivesStatements ts es terminated) :
      Derives .primary (.symbol "\x7b" :: (ts ++ [.symbol "\x7d"])) (.closure () none (.block es))
  /-- Parentheses leave no trace in the tree. -/
  | parenthesis {ts : List Token} {e : Expr Unit Unit} (h : Derives .expression ts e) :
      Derives .primary (.symbol "(" :: (ts ++ [.symbol ")"])) e

/-- The tokens stand for arguments. There may be a comma after the last one. -/
inductive DerivesArguments : List Token → List (Expr Unit Unit) → Prop where
  /-- No arguments. -/
  | nil : DerivesArguments [] []
  /-- The last argument. -/
  | last {ts : List Token} {e : Expr Unit Unit} (h : Derives .expression ts e) :
      DerivesArguments ts [e]
  /-- An argument with a comma after it. -/
  | cons {ts us : List Token} {e : Expr Unit Unit} {es : List (Expr Unit Unit)}
      (h : Derives .expression ts e) (hes : DerivesArguments us es) :
      DerivesArguments (ts ++ .symbol "," :: us) (e :: es)

/-- The tokens stand for statements, and the last part says whether they are terminated. An
expression needs no semicolon if it is the last statement. -/
inductive DerivesStatements : List Token → List (Expr Unit Unit) → Bool → Prop where
  /-- No statements. -/
  | nil : DerivesStatements [] [] false
  /-- A semicolon of its own. -/
  | empty {ts : List Token} {es : List (Expr Unit Unit)} {terminated : Bool}
      (hes : DerivesStatements ts es terminated) : DerivesStatements (.symbol ";" :: ts) es true
  /-- A block needs no semicolon. -/
  | block {ts us : List Token} {body es : List (Expr Unit Unit)} {inner terminated : Bool}
      (hbody : DerivesStatements ts body inner) (hes : DerivesStatements us es terminated) :
      DerivesStatements (.symbol "\x7b" :: (ts ++ .symbol "\x7d" :: us)) (.block body :: es) true
  /-- An expression with a semicolon. -/
  | ended {ts us : List Token} {e : Expr Unit Unit} {es : List (Expr Unit Unit)}
      {terminated : Bool} (he : Derives .expression ts e)
      (hopen : ts.head? ≠ some (.symbol "\x7b")) (hes : DerivesStatements us es terminated) :
      DerivesStatements (ts ++ .symbol ";" :: us) (e :: es) true
  /-- The last expression may be without one. -/
  | last {ts : List Token} {e : Expr Unit Unit} (he : Derives .expression ts e)
      (hopen : ts.head? ≠ some (.symbol "\x7b")) : DerivesStatements ts [e] false

end

/-- The tokens stand for a script. It is an expression if it is one statement that is not terminated,
and the list of its statements otherwise. -/
inductive DerivesScript : List Token → Expr Unit Unit → Prop where
  /-- One statement that is not terminated stands for itself. -/
  | bare {ts : List Token} {e : Expr Unit Unit} (h : DerivesStatements ts [e] false) :
      DerivesScript ts e
  /-- All other scripts are lists of statements. -/
  | statements {ts : List Token} {es : List (Expr Unit Unit)} {terminated : Bool}
      (h : DerivesStatements ts es terminated) (hmany : terminated = true ∨ es.length ≠ 1) :
      DerivesScript ts (.statements es)

end GraphQuery
