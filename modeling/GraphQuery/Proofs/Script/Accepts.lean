import GraphQuery.Proofs.Script.Printable
import GraphQuery.Script.Parser

/-!
# What the parsers of the grammar accept

For each parser of the grammar, the texts that it accepts in one go: one lemma for each way through
it. What the parser nests is a parameter, and so is what it is known to accept, so nothing here is
about whole expressions. The lemmas say which text has to come first and which one then has to be
accepted by what is called next.

Loops are opened round by round. A lemma about a round takes what the loop makes of the text after
it as a hypothesis (`hnext`), and the round that ends the loop has a lemma of its own, named `_stop`
or `_end`.

## Main statements

* `yields_accessTail_stop` and its neighbours: selectors, indices and calls.
* `yields_primary_named` and its neighbours: operands without accesses.
* `joins_and` and its neighbours: operators with their operands, through all levels above them.
* `yields_statementsUpTo_expression` and its neighbours: statements.
-/

namespace GraphQuery

namespace Parser

variable {L S : Type}

/-- The tree is the expression, up to annotations. -/
def Similar (e : Expr L S) (t : Tree) : Prop := t.erase = e.erase

/-- The trees are the expressions, up to annotations. -/
def AllSimilar (es : List (Expr L S)) (ts : List Tree) : Prop :=
  ts.map Expr.erase = es.map Expr.erase

/-- Blocks of similar statements are similar. -/
theorem AllSimilar.block {es : List (Expr L S)} {ts : List Tree} (h : AllSimilar es ts) :
    Similar (.block es) (.block ts) := by
  rw [Similar, Expr.erase, Expr.erase, Expr.eraseAll_eq_map, Expr.eraseAll_eq_map, h]

/-! ### Accesses -/

/-- What is left without the blanks in front is not longer. -/
theorem length_unblanked_le (text : List Char) : (unblanked text).length ≤ text.length :=
  (Cursor.reaches_skipTrivia false text {}).length_le

section Accesses

variable {ex : Parser Tree} {bound k : Nat} {t : Tree} {d : Cursor} {raw rest : List Char}
  {fits : Tree → Prop}

/-- Accesses end at a delimiter or an operator. -/
theorem yields_accessTail_stop (hraw : Closes raw ∨ Operates raw)
    (hd : unblanked d.rest = unblanked raw) (ht : fits t) :
    Yields (accessTail ex bound (k + 1) t) d fits (unblanked raw) := by
  refine yields_ahead hd fun f hf => ?_
  -- a dot, a bracket or a parenthesis would go on, and none of them is there
  split
  case h_4 => exact yields_pure ht hf
  all_goals
    rename_i hx
    exact absurd (by decide) (not_access hraw _ hx)

/-- A dot and a name go on with the selection. -/
theorem yields_accessTail_select {s : String} (hs : IsName s)
    (hraw : ∀ y ∈ raw.head?, isNamePart y = false)
    (hd : unblanked d.rest = '.' :: (s.toList ++ raw))
    (hnext : ∀ l f, f.rest = raw → Yields (accessTail ex bound k (.select t s l)) f fits rest) :
    Yields (accessTail ex bound (k + 1) t) d fits rest := by
  refine yields_ahead hd fun f hf => ?_
  refine (yields_next hf).bind fun _ g _ hg => ?_
  refine yields_blanks.bind fun _ h _ hh => ?_
  rw [hg, unblanked_name hs] at hh
  refine yields_here.bind fun l i _ hi => ?_
  -- keywords are selectors too, so the name is not tested
  refine (yields_name .selector hs hraw (hi.trans hh)).bind fun _ j hselector hj => ?_
  obtain rfl := hselector
  exact hnext l j hj

/-- An index in brackets goes on with the access. -/
theorem yields_accessTail_index {i : Expr L S} (hi : Expr.Printable .full i)
    (hd : unblanked d.rest = '[' :: (i.text ++ (']' :: raw)))
    (hex : ∀ f, f.rest = i.text ++ (']' :: raw) → Yields ex f (Similar i) (']' :: raw))
    (hnext : ∀ l u f, Similar i u → f.rest = raw →
      Yields (accessTail ex bound k (.index t u l)) f fits rest) :
    Yields (accessTail ex bound (k + 1) t) d fits rest := by
  refine yields_ahead hd fun f hf => ?_
  refine yields_here.bind fun l g _ hg => ?_
  refine (yields_next (hg.trans hf)).bind fun _ h _ hh => ?_
  refine yields_blanks.bind fun _ j _ hj => ?_
  rw [hh, hi.unblanked_text] at hj
  refine (hex j hj).bind fun u m hu hm => ?_
  refine yields_blanks.bind fun _ o _ ho => ?_
  rw [hm, unblanked_cons (by decide)] at ho
  refine (yields_token (t := "]") ho).bind fun _ q _ hq => ?_
  exact hnext l u q hu hq

/-- Arguments in parentheses go on with the call. -/
theorem yields_accessTail_call {as : List (Expr L S)}
    (hd : unblanked d.rest = '(' :: (Expr.argumentsText as ++ (')' :: raw)))
    (hargs : ∀ f, f.rest = unblanked (Expr.argumentsText as ++ (')' :: raw)) →
      Yields (arguments ex bound []) f (AllSimilar as) (')' :: raw))
    (hnext : ∀ l us f, AllSimilar as us → f.rest = raw →
      Yields (accessTail ex bound k (.call t us l)) f fits rest) :
    Yields (accessTail ex bound (k + 1) t) d fits rest := by
  refine yields_ahead hd fun f hf => ?_
  refine yields_here.bind fun l g _ hg => ?_
  refine (yields_next (hg.trans hf)).bind fun _ h _ hh => ?_
  refine yields_blanks.bind fun _ j _ hj => ?_
  rw [hh] at hj
  refine (hargs j hj).bind fun us m hus hm => ?_
  refine (yields_token (t := ")") hm).bind fun _ q _ hq => ?_
  exact hnext l us q hus hq

end Accesses

/-! ### Arguments -/

section Arguments

variable {ex : Parser Tree} {k : Nat} {c : Cursor} {read : List Tree} {text raw rest : List Char}
  {fits : List Tree → Prop}

/-- Arguments end at the closing parenthesis. -/
theorem yields_arguments_end (hc : c.rest = ')' :: raw) (hfits : fits read.reverse) :
    Yields (arguments ex (k + 1) read) c fits (')' :: raw) := by
  refine (yields_peek hc).bind fun x d hx hd => ?_
  rw [if_pos hx]
  exact yields_pure hfits hd

variable {a : Expr L S} (ha : Expr.Printable .full a)

include ha

/-- An argument is read up to the delimiter `y`, at which the parser looks next. -/
theorem yields_arguments_argument {y : Char} (hy : Solid y)
    (hc : c.rest = a.text ++ (y :: text))
    (hex : ∀ d, d.rest = a.text ++ (y :: text) → Yields ex d (Similar a) (y :: text))
    (hnext : ∀ u d, Similar a u → d.rest = y :: text →
      Yields (do
        if y ≠ ')' then
          token ","
          blanks
        arguments ex k (u :: read)) d fits rest) :
    Yields (arguments ex (k + 1) read) c fits rest := by
  obtain ⟨x, t, hx, -, hparen, -⟩ := ha.opens_ne
  rw [hx, List.cons_append] at hc
  refine (yields_peek hc).bind fun z d hz hd => ?_
  rw [if_neg (by rw [hz]; exact hparen)]
  rw [← List.cons_append, ← hx] at hd
  refine (hex d hd).bind fun u e hu he => ?_
  refine yields_blanks.bind fun _ f _ hf => ?_
  rw [he, unblanked_cons hy] at hf
  refine (yields_peek hf).bind fun z g hz hg => ?_
  obtain rfl := hz
  exact hnext u g hu hg

/-- The last argument is followed by the closing parenthesis. -/
theorem yields_arguments_last (hc : c.rest = a.text ++ (')' :: raw))
    (hex : ∀ d, d.rest = a.text ++ (')' :: raw) → Yields ex d (Similar a) (')' :: raw))
    (hnext : ∀ u d, Similar a u → d.rest = ')' :: raw →
      Yields (arguments ex k (u :: read)) d fits rest) :
    Yields (arguments ex (k + 1) read) c fits rest := by
  refine yields_arguments_argument ha (by decide) hc hex fun u d hu hd => ?_
  rw [if_neg fun h => h rfl]
  exact hnext u d hu hd

/-- Any other argument is followed by a comma and a blank. -/
theorem yields_arguments_comma (hc : c.rest = a.text ++ (',' :: ' ' :: text))
    (htext : unblanked text = text)
    (hex : ∀ d, d.rest = a.text ++ (',' :: ' ' :: text) →
      Yields ex d (Similar a) (',' :: ' ' :: text))
    (hnext : ∀ u d, Similar a u → d.rest = text →
      Yields (arguments ex k (u :: read)) d fits rest) :
    Yields (arguments ex (k + 1) read) c fits rest := by
  refine yields_arguments_argument ha (by decide) hc hex fun u d hu hd => ?_
  rw [if_pos (by decide)]
  refine (yields_token (t := ",") hd).bind fun _ e _ he => ?_
  refine yields_blanks.bind fun _ f _ hf => ?_
  rw [he, unblanked_space, htext] at hf
  exact hnext u f hu hf

end Arguments

/-! ### Primaries -/

section Primaries

variable {ex : Parser Tree} {bl : Parser (List Tree)} {bound : Nat} {c : Cursor}
  {text rest : List Char} {fits : Tree → Prop}

/-- An operand that starts like a name is read as one. -/
theorem yields_primary_named {x : Char} (hx : isNameStart x = true) (hc : c.rest = x :: text)
    (h : ∀ d, d.rest = x :: text → Yields (named ex bl) d fits rest) :
    Yields (primary ex bl bound) c fits rest := by
  -- the tests that come before the one for names all fail
  have hne : ∀ y, isNameStart y = false → x ≠ y := by
    rintro y hy rfl
    rw [hy] at hx
    exact Bool.false_ne_true hx
  refine (yields_peek hc).bind fun y d hy hd => ?_
  obtain rfl := hy
  rw [if_neg (not_or.mpr ⟨hne _ (by decide), hne _ (by decide)⟩),
    if_neg (hne _ (by decide)), if_neg (hne _ (by decide)),
    if_neg (by rw [isDigit_eq_false_of_isNameStart hx]; exact Bool.false_ne_true)]
  refine yields_cursor.bind fun a e ha he => ?_
  rw [if_neg fun h => hne _ (by decide) h.1, if_pos hx]
  exact h e (he.trans hd)

/-- A numeral is read as a number, in one of two branches by its sign. -/
theorem yields_primary_number {t : String} (ht : IsNumeral t) (hrest : EndsNumeral rest)
    (hc : c.rest = t.toList ++ rest) :
    Yields (primary ex bl bound) c (fun u => u = .number t) rest := by
  -- both branches that read a number read the whole of it
  have hnumber : ∀ d, d.rest = c.rest →
      Yields (do return .number (← number) : Parser Tree) d (fun u => u = .number t) rest :=
    fun d hd => (yields_number ht hrest (hd.trans hc)).bind fun u e hu he =>
      yields_pure (by rw [hu]) he
  obtain ⟨sign, digits, fraction, exponent, htext, hsign, hdigits, -, -⟩ := id ht
  obtain ⟨x, others, rfl⟩ := List.exists_cons_of_ne_nil hdigits.1
  have hx : x.isDigit = true := hdigits.2 x List.mem_cons_self
  have hne : ∀ y : Char, y.isDigit = false → x ≠ y := by
    rintro y hy rfl
    rw [hy] at hx
    exact Bool.false_ne_true hx
  rw [htext] at hc
  rcases hsign with rfl | rfl
  · refine (yields_peek hc).bind fun y d hy hd => ?_
    obtain rfl := hy
    rw [if_neg (not_or.mpr ⟨hne _ (by decide), hne _ (by decide)⟩),
      if_neg (hne _ (by decide)), if_neg (hne _ (by decide)), if_pos hx]
    exact hnumber d (hd.trans hc.symm)
  -- a minus sign starts a number only if a digit comes after it
  · refine (yields_peek hc).bind fun y d hy hd => ?_
    obtain rfl := hy
    rw [if_neg (by decide), if_neg (by decide), if_neg (by decide), if_neg (by decide)]
    refine yields_cursor.bind fun a e ha he => ?_
    have hnext : (a.rest.drop 1).head?.any Char.isDigit = true := by
      rw [ha, hd]
      exact hx
    rw [if_pos ⟨rfl, hnext⟩]
    exact hnumber e (he.trans (hd.trans hc.symm))

/-- A quoted text is read as the string. -/
theorem yields_primary_string {s : String} (hs : IsPlain s)
    (hc : c.rest = (quoted s).toList ++ rest) (hbound : c.rest.length < bound) :
    Yields (primary ex bl bound) c (fun u => u = .string s) rest := by
  have hopen : c.rest = '"' :: (s.toList.flatMap quotedChar ++ ['"'] ++ rest) := by
    rw [hc, toList_quoted, List.cons_append]
  refine (yields_peek hopen).bind fun y d hy hd => ?_
  obtain rfl := hy
  rw [if_pos (Or.inl rfl)]
  rw [← hopen] at hd
  refine (yields_stringLiteral hs (hd.trans hc) (hd ▸ hbound)).bind fun u e hu he => ?_
  exact yields_pure (by rw [hu]) he

/-- An expression in parentheses is read as the expression. -/
theorem yields_primary_parenthesis {e : Expr L S} (hc : c.rest = '(' :: text)
    (htext : unblanked text = text)
    (h : ∀ d, d.rest = text → Yields ex d (Similar e) (')' :: rest)) :
    Yields (primary ex bl bound) c (Similar e) rest := by
  refine (yields_peek hc).bind fun y d hy hd => ?_
  obtain rfl := hy
  rw [if_neg (by decide), if_pos rfl]
  refine (yields_next hd).bind fun _ f _ hf => ?_
  refine yields_blanks.bind fun _ g _ hg => ?_
  rw [hf, htext] at hg
  refine (h g hg).bind fun u i hu hi => ?_
  refine yields_blanks.bind fun _ j _ hj => ?_
  rw [hi, unblanked_cons (by decide)] at hj
  refine (yields_token (t := ")") hj).bind fun _ k _ hk => ?_
  exact yields_pure hu hk

/-- A block as an operand is a closure without a parameter. -/
theorem yields_primary_block {es : List (Expr L S)} (hc : c.rest = '\x7b' :: text)
    (h : ∀ d, d.rest = '\x7b' :: text → Yields bl d (AllSimilar es) rest) :
    Yields (primary ex bl bound) c
      (fun u => ∃ ts, u = .closure () none (.block ts) ∧ AllSimilar es ts) rest := by
  refine (yields_peek hc).bind fun y d hy hd => ?_
  obtain rfl := hy
  rw [if_neg (by decide), if_neg (by decide), if_pos rfl]
  refine (h d hd).bind fun ts f hts hf => ?_
  exact yields_pure ⟨ts, rfl, hts⟩ hf

/-! ### Names -/

/-- Keywords are read as the constants that they are. -/
theorem yields_named_keyword {x : String} {u : Tree} (hx : IsName x)
    (hu : x = "false" ∧ u = .bool false ∨ x = "null" ∧ u = .null ∨ x = "true" ∧ u = .bool true)
    (hrest : ∀ y ∈ rest.head?, isNamePart y = false) (hc : c.rest = x.toList ++ rest) :
    Yields (named ex bl) c (· = u) rest := by
  refine yields_here.bind fun l d _ hd => ?_
  refine (yields_name .expression hx hrest (hd.trans hc)).bind fun y e hy he => ?_
  obtain rfl := hy
  rcases hu with ⟨rfl, rfl⟩ | ⟨rfl, rfl⟩ | ⟨rfl, rfl⟩
  · rw [if_pos rfl]
    exact yields_pure rfl he
  · rw [if_neg (by decide), if_pos rfl]
    exact yields_pure rfl he
  · rw [if_neg (by decide), if_neg (by decide), if_pos rfl]
    exact yields_pure rfl he

/-- A name without an arrow is a variable. The look for the arrow has taken the blanks after it. -/
theorem yields_named_variable {x : String} (hx : IsVariableName x) (hrest : Separates rest)
    (hc : c.rest = x.toList ++ rest) :
    Yields (named ex bl) c (fun u => ∃ l, u = .variable x l) (unblanked rest) := by
  refine yields_here.bind fun l d _ hd => ?_
  refine (yields_name .expression hx.1 hrest.name (hd.trans hc)).bind fun y e hy he => ?_
  obtain rfl := hy
  -- a name that is no keyword passes the three tests for keywords
  have hkeyword : ∀ w ∈ keywords, y ≠ w := fun w hw h => hx.2 (h ▸ hw)
  rw [if_neg (hkeyword _ (by decide)), if_neg (hkeyword _ (by decide)),
    if_neg (hkeyword _ (by decide))]
  refine yields_blanks.bind fun _ f _ hf => ?_
  rw [he] at hf
  -- blanks are gone by now, so `rest` is left without them
  refine (yields_lookingAt_false (hf ▸ hrest.arrow)).bind fun b g hb hg => ?_
  rw [if_neg (by rw [hb]; exact Bool.false_ne_true)]
  exact yields_pure ⟨l, rfl⟩ (hg.trans hf)

/-- A parameter with its arrow is read up to the body. -/
theorem yields_named_arrow {p : String} (hp : IsVariableName p) {x : Char} (hx : Solid x)
    (hc : c.rest = p.toList ++ (" -> ".toList ++ (x :: text)))
    (hblock : x = '\x7b' → ∀ d, d.rest = x :: text →
      Yields (do return .closure () (some p) (.block (← bl)) : Parser Tree) d fits rest)
    (hbody : x ≠ '\x7b' → ∀ d, d.rest = x :: text →
      Yields (do return .closure () (some p) (← ex) : Parser Tree) d fits rest) :
    Yields (named ex bl) c fits rest := by
  refine yields_here.bind fun l d _ hd => ?_
  have hend : ∀ y ∈ (" -> ".toList ++ (x :: text)).head?, isNamePart y = false :=
    fun y hy => Option.some.inj hy ▸ by decide
  refine (yields_name .expression hp.1 hend (hd.trans hc)).bind fun y e hy he => ?_
  obtain rfl := hy
  have hkeyword : ∀ w ∈ keywords, y ≠ w := fun w hw h => hp.2 (h ▸ hw)
  rw [if_neg (hkeyword _ (by decide)), if_neg (hkeyword _ (by decide)),
    if_neg (hkeyword _ (by decide))]
  -- the printer puts a blank on either side of the arrow
  have harrow : unblanked e.rest = "->".toList ++ (' ' :: x :: text) := by
    rw [he]
    exact (unblanked_space _).trans (unblanked_cons (by decide) _)
  refine yields_blanks.bind fun _ f _ hf => ?_
  rw [harrow] at hf
  refine (yields_lookingAt_true (hf ▸ List.prefix_append _ _)).bind fun b g hb hg => ?_
  rw [if_pos hb]
  refine (yields_token (hg.trans hf)).bind fun _ h _ hh => ?_
  refine yields_blanks.bind fun _ i _ hi => ?_
  rw [hh, unblanked_space, unblanked_cons hx] at hi
  refine (yields_peek hi).bind fun z j hz hj => ?_
  obtain rfl := hz
  by_cases hbrace : z = '\x7b'
  · rw [if_pos hbrace]
    exact hblock hbrace j hj
  · rw [if_neg hbrace]
    exact hbody hbrace j hj

end Primaries

/-! ### Operators -/

section Operators

variable {operand : Parser Tree} {k : Nat} {t : Tree} {c : Cursor} {text rest : List Char}
  {fits mid : Tree → Prop}

/-- An operator is read together with the operand after it. -/
theorem yields_operator {op : String} {f : Tree → Parser Tree}
    (hc : c.rest = op.toList ++ (' ' :: text)) (htext : unblanked text = text)
    (hoperand : ∀ d, d.rest = text → Yields operand d mid rest)
    (hnext : ∀ u d, mid u → d.rest = rest → Yields (f u) d fits rest) :
    Yields (do token op; blanks; f (← operand)) c fits rest := by
  refine (yields_token hc).bind fun _ d _ hd => ?_
  refine yields_blanks.bind fun _ e _ he => ?_
  rw [hd, unblanked_space, htext] at he
  exact (hoperand e he).bind hnext

/-- A chain ends where its operator does not follow. -/
theorem yields_chainTail_stop {op : String} {join : Tree → Tree → Tree}
    (hop : ¬ op.toList <+: c.rest) (hblank : unblanked c.rest = c.rest) (ht : fits t) :
    Yields (chainTail op join operand (k + 1) t) c fits c.rest := by
  refine yields_blanks.bind fun _ d _ hd => ?_
  rw [hblank] at hd
  refine (yields_lookingAt_false (hd ▸ hop)).bind fun b e hb he => ?_
  rw [if_neg (by rw [hb]; exact Bool.false_ne_true)]
  exact yields_pure ht (he.trans hd)

/-- A chain goes on with its operator and an operand. -/
theorem yields_chainTail_step {op : String} {join : Tree → Tree → Tree} (hop : op ∈ operators)
    (hc : c.rest = op.toList ++ (' ' :: text)) (htext : unblanked text = text)
    (hoperand : ∀ d, d.rest = text → Yields operand d mid rest)
    (hnext : ∀ u d, mid u → d.rest = rest →
      Yields (chainTail op join operand k (join t u)) d fits rest) :
    Yields (chainTail op join operand (k + 1) t) c fits rest := by
  refine yields_blanks.bind fun _ d _ hd => ?_
  rw [hc, unblanked_operator hop] at hd
  refine (yields_lookingAt_true (hd ▸ List.prefix_append _ _)).bind fun b e hb he => ?_
  rw [if_pos hb]
  exact yields_operator (he.trans hd) htext hoperand hnext

/-- A chain of comparisons ends where neither operator follows. -/
theorem yields_equalityTail_stop (heq : ¬ "==".toList <+: c.rest) (hne : ¬ "!=".toList <+: c.rest)
    (hblank : unblanked c.rest = c.rest) (ht : fits t) :
    Yields (equalityTail operand (k + 1) t) c fits c.rest := by
  refine yields_blanks.bind fun _ d _ hd => ?_
  rw [hblank] at hd
  refine (yields_lookingAt_false (hd ▸ heq)).bind fun b e hb he => ?_
  rw [if_neg (by rw [hb]; exact Bool.false_ne_true)]
  refine (yields_lookingAt_false (he.trans hd ▸ hne)).bind fun b f hb hf => ?_
  rw [if_neg (by rw [hb]; exact Bool.false_ne_true)]
  exact yields_pure ht (hf.trans (he.trans hd))

/-- A chain of comparisons goes on with one of the two operators. -/
theorem yields_equalityTail_step {negated : Bool}
    (hc : c.rest = (if negated then "!=" else "==").toList ++ (' ' :: text))
    (htext : unblanked text = text) (hoperand : ∀ d, d.rest = text → Yields operand d mid rest)
    (hnext : ∀ u d, mid u → d.rest = rest →
      Yields (equalityTail operand k (.equality t u negated)) d fits rest) :
    Yields (equalityTail operand (k + 1) t) c fits rest := by
  have hop : (if negated then "!=" else "==") ∈ operators := by cases negated <;> decide
  refine yields_blanks.bind fun _ d _ hd => ?_
  rw [hc, unblanked_operator hop] at hd
  -- the parser looks for the two operators one after the other
  cases negated with
  | false =>
    refine (yields_lookingAt_true (hd ▸ List.prefix_append _ _)).bind fun b e hb he => ?_
    rw [if_pos hb]
    exact yields_operator (he.trans hd) htext hoperand hnext
  | true =>
    -- `==` is looked for first, and `!=` is not it
    have hother : ¬ "==".toList <+: d.rest := by
      rw [hd]
      exact fun h => absurd (operator_eq hop (by decide) h) (by decide)
    refine (yields_lookingAt_false hother).bind fun b e hb he => ?_
    rw [if_neg (by rw [hb]; exact Bool.false_ne_true)]
    refine (yields_lookingAt_true (he.trans hd ▸ List.prefix_append _ _)).bind fun b f hb hf => ?_
    rw [if_pos hb]
    exact yields_operator (hf.trans (he.trans hd)) htext hoperand hnext

end Operators

/-! ### Levels -/

section Levels

variable {ex : Parser Tree} {bl : Parser (List Tree)} {b : Nat} {c : Cursor}
  {rest : List Char} {fits : Tree → Prop}

/-- A level passes on what its operand is, if none of its operators follows. -/
theorem yields_equality_stop (h : Yields (negation (access ex bl (b + 1)) (b + 1)) c fits rest)
    (heq : ¬ "==".toList <+: rest) (hne : ¬ "!=".toList <+: rest)
    (hblank : unblanked rest = rest) : Yields (equality ex bl (b + 1)) c fits rest := by
  refine h.bind fun u d hu hd => ?_
  subst hd
  exact yields_equalityTail_stop heq hne hblank hu

/-- So does the next level. -/
theorem yields_conjunction_stop (h : Yields (equality ex bl (b + 1)) c fits rest)
    (hop : ¬ "&&".toList <+: rest) (hblank : unblanked rest = rest) :
    Yields (conjunction ex bl (b + 1)) c fits rest := by
  refine h.bind fun u d hu hd => ?_
  subst hd
  exact yields_chainTail_stop hop hblank hu

/-- So does the level of disjunctions. -/
theorem yields_disjunction_stop (h : Yields (conjunction ex bl (b + 1)) c fits rest)
    (hop : ¬ "||".toList <+: rest) (hblank : unblanked rest = rest) :
    Yields (disjunction ex bl (b + 1)) c fits rest := by
  refine h.bind fun u d hu hd => ?_
  subst hd
  exact yields_chainTail_stop hop hblank hu

/-- **The operator joins its operands.** An operand, the operator and another operand, which is up to
a delimiter, are read by all levels together. -/
def Joins (op : String) (join : Tree → Tree → Tree) : Prop :=
  ∀ {ex : Parser Tree} {bl : Parser (List Tree)} {b : Nat} {c : Cursor} {text rest : List Char}
    {left right : Tree → Prop}, unblanked text = text → Closes rest →
    Yields (negation (access ex bl (b + 2)) (b + 2)) c left (op.toList ++ (' ' :: text)) →
    (∀ d, d.rest = text → Yields (negation (access ex bl (b + 2)) (b + 2)) d right rest) →
    Yields (disjunction ex bl (b + 2)) c (fun u => ∃ v w, left v ∧ right w ∧ u = join v w) rest

/-- Comparisons are joined one level above negations, and pass through the other two. -/
theorem joins_equality (negated : Bool) :
    Joins (if negated then "!=" else "==") (.equality · · negated) := by
  intro ex bl b c text rest left right htext hrest hleft hright
  have hblank := unblanked_of_closes hrest
  have hequality : Yields (equality ex bl (b + 2)) c
      (fun u => ∃ v w, left v ∧ right w ∧ u = .equality v w negated) rest := by
    refine hleft.bind fun v d hv hd => ?_
    refine yields_equalityTail_step hd htext hright fun w e hw he => ?_
    subst he
    exact yields_equalityTail_stop (hrest.not_operator (by decide))
      (hrest.not_operator (by decide)) hblank ⟨v, w, hv, hw, rfl⟩
  -- no operator of the two levels above follows
  refine yields_disjunction_stop ?_ (hrest.not_operator (by decide)) hblank
  exact yields_conjunction_stop hequality (hrest.not_operator (by decide)) hblank

/-- Conjunctions are joined one level higher. The operands are comparisons without an operator. -/
theorem joins_and : Joins "&&" .and := by
  intro ex bl b c text rest left right htext hrest hleft hright
  have hblank := unblanked_of_closes hrest
  have hother : ∀ op ∈ operators, op ≠ "&&" → ¬ op.toList <+: "&&".toList ++ (' ' :: text) :=
    fun op hop hne h => hne (operator_eq (by decide) hop h)
  -- the right operand passes through the level below, and so does the left one
  have hoperand : ∀ d, d.rest = text → Yields (equality ex bl (b + 2)) d right rest :=
    fun d hd => yields_equality_stop (hright d hd) (hrest.not_operator (by decide))
      (hrest.not_operator (by decide)) hblank
  have hconjunction : Yields (conjunction ex bl (b + 2)) c
      (fun u => ∃ v w, left v ∧ right w ∧ u = .and v w) rest := by
    refine (yields_equality_stop hleft (hother _ (by decide) (by decide))
      (hother _ (by decide) (by decide)) (unblanked_operator (by decide) _)).bind
      fun v d hv hd => ?_
    refine yields_chainTail_step (by decide) hd htext hoperand fun w e hw he => ?_
    subst he
    exact yields_chainTail_stop (hrest.not_operator (by decide)) hblank ⟨v, w, hv, hw, rfl⟩
  exact yields_disjunction_stop hconjunction (hrest.not_operator (by decide)) hblank

/-- Disjunctions are joined at the last level. -/
theorem joins_or : Joins "||" .or := by
  intro ex bl b c text rest left right htext hrest hleft hright
  have hblank := unblanked_of_closes hrest
  have hother : ∀ op ∈ operators, op ≠ "||" → ¬ op.toList <+: "||".toList ++ (' ' :: text) :=
    fun op hop hne h => hne (operator_eq (by decide) hop h)
  -- both operands pass through the two levels below
  have hoperand : ∀ d, d.rest = text → Yields (conjunction ex bl (b + 2)) d right rest := by
    intro d hd
    refine yields_conjunction_stop ?_ (hrest.not_operator (by decide)) hblank
    exact yields_equality_stop (hright d hd) (hrest.not_operator (by decide))
      (hrest.not_operator (by decide)) hblank
  have hequality := yields_equality_stop hleft (hother _ (by decide) (by decide))
    (hother _ (by decide) (by decide)) (unblanked_operator (by decide) _)
  refine (yields_conjunction_stop hequality (hother _ (by decide) (by decide))
    (unblanked_operator (by decide) _)).bind fun v d hv hd => ?_
  refine yields_chainTail_step (by decide) hd htext hoperand fun w e hw he => ?_
  subst he
  exact yields_chainTail_stop (hrest.not_operator (by decide)) hblank ⟨v, w, hv, hw, rfl⟩

/-- An expression that is no assignment is a disjunction. -/
theorem yields_expression_of_disjunction {n : Nat} (hahead : assignmentAhead c.rest = none)
    (h : ∀ d, d.rest = c.rest → Yields (disjunction (expression n) (block n) (n + 1)) d fits rest) :
    Yields (expression (n + 1)) c fits rest := by
  -- the bound has one left, so this is what `expression` stands for
  change Yields (assignmentOrDisjunction (expression n) (block n) (n + 1)) c fits rest
  refine yields_cursor.bind fun a d ha hd => ?_
  rw [ha, hahead]
  exact h d hd

end Levels

/-! ### Statements -/

/-- Statements end at the closing brace, or at the end of a text without one. -/
def Ends (close : Option Char) (tail : List Char) : Prop :=
  close = none ∧ tail = [] ∨ close = some '\x7d' ∧ ∃ raw, tail = '\x7d' :: raw

/-- No blanks stand before the end. -/
theorem Ends.unblanked {close : Option Char} {tail : List Char} (h : Ends close tail) :
    unblanked tail = tail := by
  rcases h with ⟨-, rfl⟩ | ⟨-, raw, rfl⟩
  · rfl
  · exact unblanked_cons (by decide) raw

section Statements

variable {close : Option Char} {ex : Parser Tree} {bl : Parser (List Tree)} {k : Nat} {c : Cursor}
  {read : List Tree} {terminated : Bool} {text rest : List Char}
  {fits : List Tree × Bool → Prop}

/-- Statements end where nothing is left of them. -/
theorem yields_statementsUpTo_end (htail : Ends close rest) (hc : unblanked c.rest = rest)
    (hfits : fits (read.reverse, terminated)) :
    Yields (statementsUpTo close ex bl (k + 1) read terminated) c fits rest := by
  refine yields_ahead hc fun e he => ?_
  rcases htail with ⟨rfl, rfl⟩ | ⟨rfl, raw, rfl⟩
  · exact yields_pure hfits he
  · simp only [List.head?_cons, if_true]
    exact yields_pure hfits he

/-- A semicolon of its own is passed over. -/
theorem yields_statementsUpTo_semicolon (hclose : close ≠ some ';')
    (hc : unblanked c.rest = ';' :: text)
    (hnext : ∀ d, d.rest = text →
      Yields (statementsUpTo close ex bl k read true) d fits rest) :
    Yields (statementsUpTo close ex bl (k + 1) read terminated) c fits rest := by
  refine yields_ahead hc fun e he => ?_
  simp only [List.head?_cons, hclose.symm, if_false, if_true]
  refine (yields_next he).bind fun _ f _ hf => ?_
  exact hnext f hf

/-- A block as a statement needs no semicolon. -/
theorem yields_statementsUpTo_block {es : List (Expr L S)} (hclose : close ≠ some '\x7b')
    (hc : unblanked c.rest = '\x7b' :: text)
    (hblock : ∀ d, d.rest = '\x7b' :: text → Yields bl d (AllSimilar es) rest)
    {out : List Char}
    (hnext : ∀ ts d, AllSimilar es ts → d.rest = rest →
      Yields (statementsUpTo close ex bl k (.block ts :: read) true) d fits out) :
    Yields (statementsUpTo close ex bl (k + 1) read terminated) c fits out := by
  refine yields_ahead hc fun e he => ?_
  simp only [List.head?_cons, hclose.symm, if_false, if_true]
  -- no semicolon is needed, and a block counts as terminated
  rw [if_neg (by decide)]
  refine (hblock e he).bind fun ts f hts hf => ?_
  exact hnext ts f hts hf

/-- An expression as a statement is read together with its semicolon. -/
theorem yields_statementsUpTo_expression {s : Expr L S} {x : Char} (hclose : close ≠ some x)
    (hsemicolon : x ≠ ';') (hbrace : x ≠ '\x7b') (hx : s.text.head? = some x)
    (hc : unblanked c.rest = s.text ++ (';' :: text))
    (hex : ∀ d, d.rest = s.text ++ (';' :: text) → Yields ex d (Similar s) (';' :: text))
    (hnext : ∀ t d, Similar s t → d.rest = text →
      Yields (statementsUpTo close ex bl k (t :: read) true) d fits rest) :
    Yields (statementsUpTo close ex bl (k + 1) read terminated) c fits rest := by
  refine yields_ahead hc fun e he => ?_
  rw [List.head?_append, hx]
  simp only [Option.some_or, hclose.symm, hsemicolon, hbrace, if_false]
  refine (hex e he).bind fun t f ht hf => ?_
  -- the semicolon belongs to this round, unlike the one after a block
  have hsemi : unblanked f.rest = ';' :: text := by
    rw [hf]
    exact unblanked_cons (by decide) text
  refine yields_ahead hsemi fun h hh => ?_
  simp only [List.head?_cons, if_true]
  refine (yields_next hh).bind fun _ i _ hi => ?_
  exact hnext t i ht hi

end Statements

end Parser

end GraphQuery
