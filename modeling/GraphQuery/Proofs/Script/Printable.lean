import GraphQuery.Proofs.Script.Parts
import GraphQuery.Proofs.Script.Yields
import GraphQuery.Script.Printer

/-!
# Expressions that print unambiguously

Operators are printed in parentheses and nothing else is, so not every tree prints as a text that can
be read back: the text of an access on a negation is the text of a negation of an access. Whether an
expression can be told from its text depends on where it stands. There are five such **positions**:

* the **base** of an access or a call;
* the **left** operand of an operator, where an arrow or an assignment would take the operator in;
* the **right** operand, where an assignment would not be read;
* a **full** expression, in brackets, between commas or after an arrow;
* a **statement**, where a brace starts a block and no closure.

`Expr.Printable` says of an expression that it can stand in a position, and `Expr.PrintableScript`
that it is the text of a whole script. The rest is about the texts themselves: with which characters
they start, and what may follow them.

## Main statements

* `Expr.Printable.opens`: the first character of a text.
* `Expr.Printable.assignmentAhead_eq_none`: what is no assignment does not look like one.
-/

namespace GraphQuery

/-- Where an expression stands. -/
inductive Position where
  /-- Before an access or a call. -/
  | base
  /-- Before an operator. -/
  | left
  /-- After an operator. -/
  | right
  /-- Between delimiters. -/
  | full
  /-- Before a semicolon, or after an arrow. -/
  | statement

namespace Expr

variable {L S : Type}

/-- A closure without parameter whose body is a block. It prints as the block does. -/
def IsBlockClosure : Expr L S → Prop
  | .closure _ none (.block _) => True
  | _ => False

/-- The expression can be told from its text in a position. -/
inductive Printable : Position → Expr L S → Prop where
  | null : Printable .base .null
  | bool (b : Bool) : Printable .base (.bool b)
  | number {t : String} (ht : IsNumeral t) : Printable .base (.number t)
  | string {s : String} (hs : IsPlain s) : Printable .base (.string s)
  | name {x : String} (hx : IsVariableName x) (l : L) : Printable .base (.variable x l)
  | select {b : Expr L S} {s : String} (hb : Printable .base b) (hs : IsName s) (l : L) :
      Printable .base (.select b s l)
  | index {b i : Expr L S} (hb : Printable .base b) (hi : Printable .full i) (l : L) :
      Printable .base (.index b i l)
  | call {f : Expr L S} {as : List (Expr L S)} (hf : Printable .base f)
      (has : ∀ a ∈ as, Printable .full a) (l : L) : Printable .base (.call f as l)
  | and {l r : Expr L S} (hl : Printable .left l) (hr : Printable .right r) :
      Printable .base (.and l r)
  | or {l r : Expr L S} (hl : Printable .left l) (hr : Printable .right r) :
      Printable .base (.or l r)
  | equality {l r : Expr L S} (hl : Printable .left l) (hr : Printable .right r) (negated : Bool) :
      Printable .base (.equality l r negated)
  | left {e : Expr L S} (he : Printable .base e) : Printable .left e
  | leftBlock {es : List (Expr L S)} (hes : ∀ e ∈ es, Printable .statement e) (s : S) :
      Printable .left (.closure s none (.block es))
  | leftNot {e : Expr L S} (he : Printable .left e) : Printable .left (.not e)
  | right {e : Expr L S} (he : Printable .base e) : Printable .right e
  | rightBlock {es : List (Expr L S)} (hes : ∀ e ∈ es, Printable .statement e) (s : S) :
      Printable .right (.closure s none (.block es))
  | rightArrow {p : String} {b : Expr L S} (hp : IsVariableName p) (hb : Printable .statement b)
      (s : S) : Printable .right (.closure s (some p) b)
  | rightNot {e : Expr L S} (he : Printable .right e) : Printable .right (.not e)
  | full {e : Expr L S} (he : Printable .right e) : Printable .full e
  | assign {x : String} {v : Expr L S} (hx : IsVariableName x) (hv : Printable .full v) (l m : L) :
      Printable .full (.assign (.target x l) v m)
  | block {es : List (Expr L S)} (hes : ∀ e ∈ es, Printable .statement e) :
      Printable .statement (.block es)
  | statement {e : Expr L S} (he : Printable .full e) (hblock : ¬ e.IsBlockClosure) :
      Printable .statement e

/-- The expression can be told from its text as a whole script. -/
inductive PrintableScript : Expr L S → Prop where
  | bare {e : Expr L S} (he : Printable .full e) (hblock : ¬ e.IsBlockClosure) : PrintableScript e
  | statements {es : List (Expr L S)} (hes : ∀ e ∈ es, Printable .statement e) :
      PrintableScript (.statements es)

/-! ### Texts -/

/-- The characters that an expression prints. -/
def text (e : Expr L S) : List Char := e.display.toList

/-- The characters that statements print. -/
def statementsText (es : List (Expr L S)) : List Char := (displayStatements es).toList

/-- The characters that arguments print. -/
def argumentsText (as : List (Expr L S)) : List Char := (commaSeparated (displayAll as)).toList

/-- The text of an operator with its operands. -/
def operatorText (op : String) (l r : Expr L S) : List Char :=
  '(' :: (l.text ++ (' ' :: (op.toList ++ (' ' :: (r.text ++ [')'])))))

section Texts

variable (e f l r b i v : Expr L S) (es as : List (Expr L S)) (x s : String) (n m : L) (k : S)

@[simp] theorem text_null : text (.null : Expr L S) = ['n', 'u', 'l', 'l'] := by
  simp [text, display]

@[simp] theorem text_true : text (.bool true : Expr L S) = ['t', 'r', 'u', 'e'] := by
  simp [text, display]

@[simp] theorem text_false : text (.bool false : Expr L S) = ['f', 'a', 'l', 's', 'e'] := by
  simp [text, display]

@[simp] theorem text_number : text (.number s : Expr L S) = s.toList := by
  simp [text, display]

@[simp] theorem text_string : text (.string s : Expr L S) = (quoted s).toList := by
  simp [text, display]

@[simp] theorem text_variable : text (.variable x n : Expr L S) = x.toList := by
  simp [text, display]

@[simp] theorem text_assign :
    text (.assign (.target x n) v m) = x.toList ++ (" = ".toList ++ v.text) := by
  simp [text, display]

@[simp] theorem text_select : text (.select b s n) = b.text ++ ('.' :: s.toList) := by
  simp [text, display]

@[simp] theorem text_index : text (.index b i n) = b.text ++ ('[' :: (i.text ++ [']'])) := by
  simp [text, display]

@[simp] theorem text_call :
    text (.call f as n) = f.text ++ ('(' :: (argumentsText as ++ [')'])) := by
  simp [text, display, argumentsText]

@[simp] theorem text_and : text (.and l r) = operatorText "&&" l r := by
  simp [text, display, operatorText]

@[simp] theorem text_or : text (.or l r) = operatorText "||" l r := by
  simp [text, display, operatorText]

@[simp] theorem text_equality (negated : Bool) :
    text (.equality l r negated) = operatorText (if negated then "!=" else "==") l r := by
  cases negated <;> simp [text, display, operatorText]

@[simp] theorem text_not : text (.not e) = '!' :: e.text := by
  simp [text, display]

@[simp] theorem text_arrow :
    text (.closure k (some x) b) = x.toList ++ (" -> ".toList ++ b.text) := by
  simp [text, display]

/-- A closure without a parameter prints its body alone. -/
@[simp] theorem text_closure : text (.closure k none b) = b.text := by
  simp [text, display]

@[simp] theorem text_statements : text (.statements es) = statementsText es := by
  simp [text, display, statementsText]

/-- A block prints its statements in braces. -/
@[simp] theorem text_block :
    text (.block es) = '\x7b' :: ' ' :: (statementsText es ++ ['\x7d']) := by
  rw [text, display_block]
  simp [display, statementsText]

/-- Each statement is closed by a semicolon. -/
@[simp] theorem statementsText_cons :
    statementsText (e :: es) = e.text ++ (';' :: ' ' :: statementsText es) := by
  simp [statementsText, displayStatements, text]

@[simp] theorem argumentsText_singleton : argumentsText [e] = e.text := by
  simp [argumentsText, displayAll, commaSeparated, text]

/-- Arguments are separated by commas, so the last one stands alone. -/
@[simp] theorem argumentsText_cons_cons :
    argumentsText (e :: f :: as) = e.text ++ (',' :: ' ' :: argumentsText (f :: as)) := by
  simp [argumentsText, displayAll, commaSeparated, text]

end Texts

/-! ### First characters -/

/-- The characters that the text of a base starts with. -/
def opensBase (x : Char) : Bool :=
  isNameStart x || x.isDigit || x = '-' || x = '"' || x = '('

/-- No base starts with a part of a gap. -/
theorem solid_of_opensBase {x : Char} (hx : opensBase x = true) : Solid x := by
  simp only [opensBase, Bool.or_eq_true, decide_eq_true_eq, isNameStart_iff,
    Char.isDigit_iff_toNat, ← Char.toNat_inj] at hx
  refine solid_of_toNat ?_ ?_ ?_ <;> simp at hx ⊢ <;> omega

/-- A name starts as a base does. -/
theorem opensBase_of_name {x : String} (hx : IsName x) :
    ∃ y t, x.toList = y :: t ∧ opensBase y = true := by
  obtain ⟨first, rest, hx, hfirst, -⟩ := hx
  refine ⟨first, rest, hx, ?_⟩
  rw [opensBase, hfirst]
  rfl

/-- A numeral starts as a base does, and not as a name does. -/
theorem opensBase_of_numeral {t : String} (ht : IsNumeral t) :
    ∃ y rest, t.toList = y :: rest ∧ opensBase y = true ∧ isNameStart y = false := by
  obtain ⟨sign, digits, fraction, exponent, htext, hsign, hdigits, -, -⟩ := ht
  obtain ⟨x, others, rfl⟩ := List.exists_cons_of_ne_nil hdigits.1
  have hx : x.isDigit = true := hdigits.2 x List.mem_cons_self
  -- a sign comes before the first digit, if there is one
  rcases hsign with rfl | rfl
  · refine ⟨x, _, htext, by simp [opensBase, hx], ?_⟩
    exact isNameStart_eq_false_of_isDigit hx
  · exact ⟨'-', _, htext, by decide, by decide⟩

/-- **The first character of a text.** Only blocks, and the closures that print as blocks, start with
a brace. -/
theorem Printable.opens {p : Position} {e : Expr L S} (h : Printable p e) :
    ∃ x t, e.text = x :: t ∧ (opensBase x = true ∨
      p ≠ .base ∧ (x = '!' ∨ x = '\x7b' ∧ (e.IsBlockClosure ∨ ∃ es, e = .block es))) := by
  induction h with
  | null => exact ⟨'n', _, text_null, Or.inl (by decide)⟩
  | bool b =>
    cases b with
    | true => exact ⟨'t', _, text_true, Or.inl (by decide)⟩
    | false => exact ⟨'f', _, text_false, Or.inl (by decide)⟩
  | @number t ht =>
    obtain ⟨x, rest, hx, hopens, -⟩ := opensBase_of_numeral ht
    exact ⟨x, rest, (text_number t).trans hx, Or.inl hopens⟩
  | @string s hs =>
    exact ⟨'"', _, (text_string s).trans (toList_quoted s), Or.inl (by decide)⟩
  | @name x hx l =>
    obtain ⟨y, t, hy, hopens⟩ := opensBase_of_name hx.1
    exact ⟨y, t, (text_variable x l).trans hy, Or.inl hopens⟩
  -- an access starts as its base does
  | select _ _ _ ih =>
    obtain ⟨x, t, hx, hopens⟩ := ih
    refine ⟨x, _, by rw [text_select, hx, List.cons_append], ?_⟩
    exact hopens.imp_right fun h => absurd rfl h.1
  | index _ _ _ ih _ =>
    obtain ⟨x, t, hx, hopens⟩ := ih
    refine ⟨x, _, by rw [text_index, hx, List.cons_append], ?_⟩
    exact hopens.imp_right fun h => absurd rfl h.1
  | call _ _ _ ih _ =>
    obtain ⟨x, t, hx, hopens⟩ := ih
    refine ⟨x, _, by rw [text_call, hx, List.cons_append], ?_⟩
    exact hopens.imp_right fun h => absurd rfl h.1
  -- operators have parentheses around them
  | and => exact ⟨'(', _, text_and _ _, Or.inl (by decide)⟩
  | or => exact ⟨'(', _, text_or _ _, Or.inl (by decide)⟩
  | equality => exact ⟨'(', _, text_equality _ _ _, Or.inl (by decide)⟩
  | left _ ih | right _ ih =>
    obtain ⟨x, t, hx, hopens⟩ := ih
    exact ⟨x, t, hx, hopens.imp_right fun h => absurd rfl h.1⟩
  | leftBlock _ s | rightBlock _ s =>
    exact ⟨'\x7b', _, (text_closure _ s).trans (text_block _),
      Or.inr ⟨nofun, Or.inr ⟨rfl, Or.inl trivial⟩⟩⟩
  | leftNot | rightNot => exact ⟨'!', _, text_not _, Or.inr ⟨nofun, Or.inl rfl⟩⟩
  -- a closure with a parameter starts with a name, and so does an assignment
  | @rightArrow x b hp _ s _ =>
    obtain ⟨y, t, hy, hopens⟩ := opensBase_of_name hp.1
    exact ⟨y, _, by rw [text_arrow, hy, List.cons_append], Or.inl hopens⟩
  | full _ ih | statement _ _ ih =>
    obtain ⟨x, t, hx, hopens⟩ := ih
    exact ⟨x, t, hx, hopens.imp_right fun h => ⟨nofun, h.2⟩⟩
  | assign hx =>
    obtain ⟨y, t, hy, hopens⟩ := opensBase_of_name hx.1
    exact ⟨y, _, by rw [text_assign, hy, List.cons_append], Or.inl hopens⟩
  | block =>
    exact ⟨'\x7b', _, text_block _, Or.inr ⟨nofun, Or.inr ⟨rfl, Or.inr ⟨_, rfl⟩⟩⟩⟩

/-- Blocks are statements only. -/
theorem Printable.ne_block {p : Position} {e : Expr L S} (h : Printable p e) (hp : p ≠ .statement)
    (es : List (Expr L S)) : e ≠ .block es := by
  induction h with
  | left _ ih | right _ ih | full _ ih => exact ih nofun
  | block | statement => exact absurd rfl hp
  | _ => exact nofun

/-- No text starts with white space, a comment or a delimiter. -/
theorem Printable.opens_ne {p : Position} {e : Expr L S} (h : Printable p e) :
    ∃ x t, e.text = x :: t ∧ Solid x ∧ x ≠ ')' ∧ x ≠ ';' ∧ x ≠ '\x7d' := by
  obtain ⟨x, t, hx, hopens⟩ := h.opens
  refine ⟨x, t, hx, ?_⟩
  rcases hopens with hopens | ⟨-, rfl | ⟨rfl, -⟩⟩
  · refine ⟨solid_of_opensBase hopens, ?_, ?_, ?_⟩ <;> rintro rfl <;> exact absurd hopens (by decide)
  · decide
  · decide

end Expr

/-! ### What follows a text -/

/-- What follows an expression cannot be taken for a part of its last name or numeral, and does not
turn a name into a target or a parameter. -/
structure Separates (rest : List Char) : Prop where
  /-- No name goes on. -/
  name : ∀ x ∈ rest.head?, isNamePart x = false
  /-- No numeral goes on. -/
  point : ∀ x, rest.head? = some '.' → x ∈ rest.tail.head? → x.isDigit = false
  /-- No arrow follows. -/
  arrow : ¬ "->".toList <+: unblanked rest
  /-- No assignment follows. -/
  assign : assignmentAhead ('x' :: rest) = none

/-- A delimiter follows, or nothing. -/
def Closes (rest : List Char) : Prop := ∀ x ∈ rest.head?, x ∈ [')', ']', ',', ';']

theorem closes_cons {x : Char} {rest : List Char} (hx : x ∈ [')', ']', ',', ';']) :
    Closes (x :: rest) := fun _ hy => Option.some.inj hy ▸ hx

/-- The operators. -/
def operators : List String := ["&&", "||", "==", "!="]

/-- An operator follows, between blanks. -/
def Operates (rest : List Char) : Prop :=
  ∃ op ∈ operators, ∃ others, rest = ' ' :: (op.toList ++ (' ' :: others))

/-- An operator has two characters, and none of them starts an arrow. -/
theorem operators_solid {op : String} (hop : op ∈ operators) :
    ∃ x y, op.toList = [x, y] ∧ Solid x ∧ x ≠ '-' := by
  simp only [operators, List.mem_cons, List.not_mem_nil, or_false] at hop
  rcases hop with rfl | rfl | rfl | rfl <;> exact ⟨_, _, rfl, by decide, by decide⟩

/-- Without a name there is no assignment ahead. -/
theorem assignmentAhead_cons {x : Char} (hx : isNameStart x = false) (rest : List Char) :
    assignmentAhead (x :: rest) = none := by
  rw [assignmentAhead, if_neg (by rw [hx]; exact Bool.false_ne_true)]

/-! ### White space before a text -/

/-- No white space comes before a delimiter. -/
theorem unblanked_of_closes {rest : List Char} (h : Closes rest) : unblanked rest = rest := by
  cases rest with
  | nil => rfl
  | cons x rest =>
    have hx : x ∈ [')', ']', ',', ';'] := h x rfl
    simp only [List.mem_cons, List.not_mem_nil, or_false] at hx
    rcases hx with rfl | rfl | rfl | rfl <;> exact unblanked_cons (by decide) rest

/-- No white space comes before an operator. -/
theorem unblanked_operator {op : String} (hop : op ∈ operators) (rest : List Char) :
    unblanked (op.toList ++ rest) = op.toList ++ rest := by
  obtain ⟨x, y, hxy, hsolid, -⟩ := operators_solid hop
  rw [hxy, List.cons_append]
  exact unblanked_cons hsolid _

/-- No white space comes before a name. -/
theorem unblanked_name {x : String} (hx : IsName x) (rest : List Char) :
    unblanked (x.toList ++ rest) = x.toList ++ rest := by
  obtain ⟨y, t, hy, hopens⟩ := Expr.opensBase_of_name hx
  rw [hy, List.cons_append]
  exact unblanked_cons (Expr.solid_of_opensBase hopens) _

/-- **No white space comes before a text**, whatever follows it. -/
theorem Expr.Printable.unblanked_text {L S : Type} {p : Position} {e : Expr L S}
    (h : Printable p e) (rest : List Char) : unblanked (e.text ++ rest) = e.text ++ rest := by
  obtain ⟨x, t, hx, hsolid, -⟩ := h.opens_ne
  rw [hx, List.cons_append]
  exact unblanked_cons hsolid _

/-! ### Operators and delimiters -/

/-- At a delimiter there is no operator. -/
theorem Closes.not_operator {rest : List Char} (h : Closes rest) {op : String}
    (hop : op ∈ operators) : ¬ op.toList <+: rest := by
  intro hstarts
  simp only [operators, List.mem_cons, List.not_mem_nil, or_false] at hop
  rcases hop with rfl | rfl | rfl | rfl
  all_goals
    obtain ⟨others, rfl⟩ := hstarts
    exact absurd (h _ rfl) (by decide)

/-- An operator is no other operator. -/
theorem operator_eq {op op' : String} (hop : op ∈ operators) (hop' : op' ∈ operators)
    {rest : List Char} (h : op'.toList <+: op.toList ++ rest) : op' = op := by
  -- all operators have two characters, so none starts another one
  have hlength : ∀ o ∈ operators, o.toList.length = 2 := by decide
  have hsame : op'.toList.length = op.toList.length := by rw [hlength op hop, hlength op' hop']
  have hstarts : op'.toList <+: op.toList :=
    List.prefix_of_prefix_length_le h (List.prefix_append _ _) (Nat.le_of_eq hsame)
  exact String.toList_inj.mp (hstarts.eq_of_length hsame)

/-- Neither a delimiter nor an operator starts an access. -/
theorem not_access {rest : List Char} (h : Closes rest ∨ Operates rest) :
    ∀ x ∈ (unblanked rest).head?, x ∉ ['.', '[', '('] := by
  intro x hx
  rcases h with h | ⟨op, hop, others, rfl⟩
  · rw [unblanked_of_closes h] at hx
    have hx := h x hx
    simp only [List.mem_cons, List.not_mem_nil, or_false] at hx
    rcases hx with rfl | rfl | rfl | rfl <;> decide
  · rw [unblanked_space, unblanked_operator hop] at hx
    -- no operator starts with one of the three characters
    simp only [operators, List.mem_cons, List.not_mem_nil, or_false] at hop
    rcases hop with rfl | rfl | rfl | rfl <;>
      exact Option.some.inj hx ▸ by decide

/-! ### Assignments -/

/-- The look-ahead does not depend on which name it is that it passes. -/
theorem assignmentAhead_name {x : String} (hx : IsName x) (rest : List Char) :
    assignmentAhead (x.toList ++ rest) = assignmentAhead ('x' :: rest) := by
  obtain ⟨first, others, hx, hfirst, hothers⟩ := hx
  have hstart : isNameStart 'x' = true := by decide
  -- both names are skipped whole, up to the same text
  rw [hx, List.cons_append, assignmentAhead, assignmentAhead, if_pos hfirst, if_pos hstart,
    List.dropWhile_append_of_pos hothers]

namespace Separates

/-- A solid character that starts no name, assignment or arrow separates. -/
theorem cons {x : Char} {rest : List Char} (hpart : isNamePart x = false) (hsolid : Solid x)
    (hcolon : x ≠ ':') (hequals : x ≠ '=') (hdash : x ≠ '-')
    (hpoint : x = '.' → ∀ y ∈ rest.head?, y.isDigit = false) : Separates (x :: rest) where
  name y hy := Option.some.inj hy ▸ hpart
  point y hhead hy := hpoint (Option.some.inj hhead) y hy
  arrow h := by
    rw [unblanked_cons hsolid] at h
    exact hdash (List.cons_prefix_cons.mp h).1.symm
  assign := by
    have hstart : isNameStart 'x' = true := by decide
    have hname : (x :: rest).dropWhile isNamePart = x :: rest := by
      rw [List.dropWhile_cons, hpart, if_neg Bool.false_ne_true]
    have hblank : (x :: rest).dropWhile isBlank = x :: rest := by
      rw [List.dropWhile_cons, hsolid.1, if_neg Bool.false_ne_true]
    -- nothing is skipped after the name, and neither `:=` nor `=` is there
    rw [assignmentAhead, if_pos hstart, hname, hblank]
    split
    · rename_i h
      exact absurd (List.cons.inj h).1 hcolon
    · rfl
    · rename_i h
      exact absurd (List.cons.inj h).1 hequals
    · rfl

/-- A delimiter separates, and so does the end of the text. -/
theorem of_closes {rest : List Char} (h : Closes rest) : Separates rest := by
  cases rest with
  | nil =>
    refine ⟨fun _ hx => (nomatch hx), fun _ hx => (nomatch hx), ?_, by decide⟩
    rw [unblanked_nil]
    decide
  | cons x rest =>
    have hx : x ∈ [')', ']', ',', ';'] := h x rfl
    simp only [List.mem_cons, List.not_mem_nil, or_false] at hx
    rcases hx with rfl | rfl | rfl | rfl <;>
      exact cons (by decide) (by decide) (by decide) (by decide) (by decide)
        fun h => absurd h (by decide)

/-- An operator between blanks separates. -/
theorem of_operates {rest : List Char} (h : Operates rest) : Separates rest := by
  obtain ⟨op, hop, others, rfl⟩ := h
  refine ⟨fun x hx => Option.some.inj hx ▸ by decide,
    fun x hx => absurd (Option.some.inj hx) (by decide), ?_, ?_⟩
  · obtain ⟨x, y, hxy, hsolid, hdash⟩ := operators_solid hop
    rw [unblanked_space, hxy, List.cons_append, unblanked_cons hsolid]
    exact fun h => hdash (List.cons_prefix_cons.mp h).1.symm
  -- `==` is the one operator that the look-ahead has to tell from an assignment
  · simp only [operators, List.mem_cons, List.not_mem_nil, or_false] at hop
    rcases hop with rfl | rfl | rfl | rfl <;> rfl

theorem bracket (rest : List Char) : Separates ('[' :: rest) :=
  cons (by decide) (by decide) (by decide) (by decide) (by decide) fun h => absurd h (by decide)

theorem parenthesis (rest : List Char) : Separates ('(' :: rest) :=
  cons (by decide) (by decide) (by decide) (by decide) (by decide) fun h => absurd h (by decide)

/-- The selector of an access separates. -/
theorem selector {s : String} (hs : IsName s) (rest : List Char) :
    Separates ('.' :: (s.toList ++ rest)) := by
  refine cons (by decide) (by decide) (by decide) (by decide) (by decide) fun _ y hy => ?_
  -- a selector starts with no digit, so its point ends a numeral
  obtain ⟨first, others, hs, hfirst, -⟩ := hs
  rw [hs] at hy
  obtain rfl : first = y := Option.some.inj hy
  exact isDigit_eq_false_of_isNameStart hfirst

theorem endsNumeral {rest : List Char} (h : Separates rest) : EndsNumeral rest := ⟨h.name, h.point⟩

end Separates

/-- **What is no assignment does not look like one**, whatever follows it. -/
theorem Expr.Printable.assignmentAhead_eq_none {L S : Type} {p : Position} {e : Expr L S}
    (h : Printable p e) (hp : p = .base ∨ p = .left ∨ p = .right) {rest : List Char}
    (hrest : Separates rest) : assignmentAhead (e.text ++ rest) = none := by
  -- a text that starts with a name depends on what follows the name
  have hword : ∀ x : String, IsName x → ∀ {rest}, Separates rest →
      assignmentAhead (x.toList ++ rest) = none :=
    fun x hx rest hrest => (assignmentAhead_name hx rest).trans hrest.assign
  induction h generalizing rest with
  | null => exact hword "null" (by decide) hrest
  | bool b =>
    cases b with
    | true => exact hword "true" (by decide) hrest
    | false => exact hword "false" (by decide) hrest
  | number ht =>
    obtain ⟨x, t, hx, -, hstart⟩ := opensBase_of_numeral ht
    rw [text_number, hx, List.cons_append]
    exact assignmentAhead_cons hstart _
  | string hs =>
    rw [text_string, toList_quoted, List.cons_append]
    exact assignmentAhead_cons (by decide) _
  | name hx l =>
    rw [text_variable]
    exact hword _ hx.1 hrest
  | select _ hs _ ih =>
    rw [text_select, List.append_assoc]
    exact ih (Or.inl rfl) (.selector hs rest)
  | index _ _ _ ih _ =>
    rw [text_index, List.append_assoc]
    exact ih (Or.inl rfl) (.bracket _)
  | call _ _ _ ih _ =>
    rw [text_call, List.append_assoc]
    exact ih (Or.inl rfl) (.parenthesis _)
  -- the other texts start with a character that no name starts with
  | and =>
    rw [text_and]
    exact assignmentAhead_cons (by decide) _
  | or =>
    rw [text_or]
    exact assignmentAhead_cons (by decide) _
  | equality =>
    rw [text_equality]
    exact assignmentAhead_cons (by decide) _
  | left _ ih | right _ ih => exact ih (Or.inl rfl) hrest
  | leftBlock | rightBlock =>
    rw [text_closure, text_block]
    exact assignmentAhead_cons (by decide) _
  | leftNot | rightNot =>
    rw [text_not]
    exact assignmentAhead_cons (by decide) _
  -- the parameter is a name, but an arrow follows it
  | rightArrow hx =>
    rw [text_arrow, List.append_assoc, assignmentAhead_name hx.1]
    rfl
  | full | assign | block | statement =>
    rcases hp with hp | hp | hp <;> exact nomatch hp

end GraphQuery
