import GraphQuery.Proofs.Script.Grammar
import GraphQuery.Proofs.Script.Parts
import GraphQuery.Script.Printer

/-!
# Everything that is accepted is derived

A text that the parsers accept is made of tokens, and the grammar derives the tree that they give from
these tokens. Nothing is said here about texts that are refused, nor about the bounds of the parsers:
`Ensures p c post` speaks only of the case that `p` is done at the cursor `c`.

What is shown of a parser of the grammar is that it `Spans` a level: the text between the cursor at
which it starts and the one at which it stops spells tokens, from which its tree is derived. The loops
take a cursor that lies further back, where their first operand started, so that the left operand grows
from round to round.

## Main statements

* `ensures_name`, `ensures_number`, `ensures_stringLiteral`: what is read as a token is one.
* `ensures_nested`: expressions and blocks, for every bound.
* `parse_derives`: a tree that is read from a source is derived from the tokens of the source.
-/

namespace GraphQuery

namespace Parser

variable {α β : Type} {c : Cursor}

/-- If the parser is done at the cursor, its value and the cursor it leaves fit `post`. -/
def Ensures (p : Parser α) (c : Cursor) (post : α → Cursor → Prop) : Prop :=
  ∀ a d, p c = .done a d → post a d

/-! ### Composition -/

/-- A sequence that is done has both its parsers done, one where the other one stopped. -/
theorem bind_done {p : Parser α} {f : α → Parser β} {b : β} {e : Cursor}
    (h : (p >>= f) c = .done b e) : ∃ a d, p c = .done a d ∧ f a d = .done b e := by
  -- neither a failure nor an exhausted recursion of the first parser lets the sequence be done
  change Parser.bind p f c = .done b e at h
  unfold Parser.bind at h
  rcases hpc : p c with ⟨a, d⟩ | error | _
  · rw [hpc] at h
    exact ⟨a, d, rfl, h⟩
  · rw [hpc] at h
    exact nomatch h
  · rw [hpc] at h
    exact nomatch h

/-- After a parser that is done, a sequence is its second parser. -/
theorem bind_of_done {p : Parser α} {a : α} {d : Cursor} (h : p c = .done a d) (f : α → Parser β) :
    (p >>= f) c = f a d := by
  change Parser.bind p f c = f a d
  rw [Parser.bind, h]

/-- **One parser after the other.** -/
theorem Ensures.bind {p : Parser α} {f : α → Parser β} {mid : α → Cursor → Prop}
    {post : β → Cursor → Prop} (hp : Ensures p c mid)
    (hf : ∀ a d, mid a d → Ensures (f a) d post) : Ensures (p >>= f) c post := by
  intro b e h
  obtain ⟨a, d, hpc, hfd⟩ := bind_done h
  exact hf a d (hp a d hpc) b e hfd

theorem Ensures.mono {p : Parser α} {mid post : α → Cursor → Prop} (hp : Ensures p c mid)
    (h : ∀ a d, mid a d → post a d) : Ensures p c post := fun a d hpc => h a d (hp a d hpc)

/-- What is known of a parser at any cursor holds where it is done. -/
theorem Reads.ensures {p : Parser α} {post : α → Cursor → Prop} (h : Reads c p c post) :
    Ensures p c post := by
  intro a d hpc
  have hfits := h (Cursor.Reaches.refl c)
  rw [hpc] at hfits
  exact hfits.2

theorem ensures_pure {a : α} {post : α → Cursor → Prop} (h : post a c) :
    Ensures (pure a) c post := reads_pure h |>.ensures

theorem ensures_fail {cause : ParseError.Cause} {l : Location} {post : α → Cursor → Prop} :
    Ensures (fail cause l) c post := fun _ _ h => nomatch h

theorem ensures_exhausted {post : α → Cursor → Prop} : Ensures exhausted c post :=
  fun _ _ h => nomatch h

theorem ensures_blanks : Ensures blanks c fun _ d => d.rest = unblanked c.rest := by
  intro _ d h
  obtain ⟨-, rfl⟩ := Outcome.done.inj h
  exact skipBlanks_rest c

theorem ensures_skip (n : Nat) :
    Ensures (move (Cursor.skip n)) c fun _ d => d.rest = c.rest.drop n := by
  intro _ d h
  obtain ⟨-, rfl⟩ := Outcome.done.inj h
  exact Cursor.skip_rest n c

/-- The longest text of characters that pass a test. -/
theorem ensures_takeWhile (p : Char → Bool) :
    Ensures (takeWhile p) c fun text d => c.rest = text ++ d.rest ∧ (∀ x ∈ text, p x = true) ∧
      ∀ x ∈ d.rest.head?, p x = false := by
  intro text d h
  obtain ⟨htext, hrest⟩ := (reads_takeWhile p).ensures text d h
  obtain ⟨rfl, -⟩ := Outcome.done.inj h
  exact ⟨htext, List.all_eq_true.mp List.all_takeWhile, hrest⟩

end Parser

/-! ### Tokens -/

/-- A symbol in front of a text spells itself. -/
theorem spells_symbol {t : String} (ht : t ∈ symbols) {s r : List Char}
    (h : s = t.toList ++ r) : Spells [.symbol t] s r := by
  rw [h]
  exact .token (.symbol ht) .done

/-- Skipping a gap spells no tokens. -/
theorem spells_unblanked {s r : List Char} (h : r = unblanked s) : Spells [] s r := by
  rw [h]
  exact .gap (gap_unblanked s) .done

/-- A gap after tokens spells no more of them. -/
theorem Spells.blanks {ts : List Token} {s t r : List Char} (h : Spells ts s t)
    (hr : r = unblanked t) : Spells ts s r := by
  have htrans := h.trans (spells_unblanked hr)
  rwa [List.append_nil] at htrans

/-- A name that nothing goes on with spells itself. -/
theorem spells_name {x : String} (hx : IsName x) {s r : List Char} (h : s = x.toList ++ r)
    (hend : ∀ y ∈ r.head?, isNamePart y = false) : Spells [.name x] s r := by
  rw [h]
  exact .token (.name hx hend) .done

namespace Parser

variable {c : Cursor}

/-- **A name** is read up to where no name can go on. -/
theorem ensures_name (within : Part) :
    Ensures (name within) c fun x d => IsName x ∧ c.rest = x.toList ++ d.rest ∧
      ∀ y ∈ d.rest.head?, isNamePart y = false := by
  unfold name
  refine reads_here.ensures.bind fun _ d hd => ?_
  obtain ⟨-, rfl⟩ := hd
  refine reads_next.ensures.bind fun first e he => ?_
  split
  case isTrue hfirst =>
    refine (ensures_takeWhile isNamePart).bind fun others f hf => ensures_pure ?_
    obtain ⟨htext, hothers, hend⟩ := hf
    have hlist : (String.ofList (first :: others)).toList = first :: others :=
      String.toList_ofList
    refine ⟨⟨first, others, hlist, hfirst, hothers⟩, ?_, hend⟩
    rw [hlist, he, htext, List.cons_append]
  case isFalse => exact ensures_fail

/-! ### Strings -/

/-- One digit of a code point comes before the others. -/
theorem hexCode?_append (code : Nat) (d : Char) (digits : List Char) :
    (d :: digits).foldlM (fun code d => (hexValue? d).map (code * 16 + ·)) code =
      (hexValue? d).bind fun v =>
        digits.foldlM (fun code d => (hexValue? d).map (code * 16 + ·)) (code * 16 + v) := by
  rw [List.foldlM_cons]
  cases hexValue? d <;> rfl

/-- The digits of a code point are read, as many as there have to be. -/
theorem ensures_hexDigits (place : Location) (n code : Nat) :
    Ensures (hexDigits place n code) c fun value d => ∃ digits, digits.length = n ∧
      c.rest = digits ++ d.rest ∧
      digits.foldlM (fun code d => (hexValue? d).map (code * 16 + ·)) code = some value := by
  -- the number read so far is that of the digits before, so the induction is for all numbers
  induction n generalizing c code with
  | zero => exact ensures_pure ⟨[], rfl, rfl, rfl⟩
  | succ n ih =>
    unfold hexDigits
    refine reads_next.ensures.bind fun x d hd => ?_
    split
    case h_1 v hx =>
      refine (ih (code * 16 + v)).mono fun value e he => ?_
      obtain ⟨digits, hlength, htext, hvalue⟩ := he
      refine ⟨x :: digits, by rw [List.length_cons, hlength], ?_, ?_⟩
      · rw [hd, htext, List.cons_append]
      · rw [hexCode?_append, hx]
        exact hvalue
    case h_2 => exact ensures_fail

/-- What follows a backslash is a short escape or a code point. -/
theorem ensures_escape (quote : Char) :
    Ensures escape c fun x d => ∃ text, c.rest = text ++ d.rest ∧
      ∀ t s, Encodes quote t s → Encodes quote ('\\' :: (text ++ t)) (x :: s) := by
  unfold escape
  refine reads_here.ensures.bind fun _ d hd => ?_
  obtain ⟨-, rfl⟩ := hd
  refine reads_next.ensures.bind fun y e he => ?_
  split
  case isTrue hu =>
    subst hu
    refine (ensures_hexDigits _ 4 0).bind fun code f hf => ?_
    obtain ⟨digits, hlength, htext, hcode⟩ := hf
    -- the number has to be that of a character
    split
    case h_1 x hx =>
      refine ensures_pure ⟨'u' :: digits, by rw [he, htext, List.cons_append], fun t s hs => ?_⟩
      exact .code hlength hcode hx hs
    case h_2 => exact ensures_fail
  case isFalse =>
    split
    case h_1 x hx =>
      exact ensures_pure ⟨[y], he, fun t s hs => .short hx hs⟩
    case h_2 => exact ensures_fail

/-- The text of a string is read up to the quote that is not escaped. -/
theorem ensures_stringTail (quote : Char) (n : Nat) (read : List Char) :
    Ensures (stringTail quote n read) c fun out d => ∃ text s, c.rest = text ++ quote :: d.rest ∧
      Encodes quote text s ∧ out = read.reverse ++ s := by
  -- on the bound; each round adds the text of one character in front of what the others read
  induction n generalizing c read with
  | zero => exact ensures_exhausted
  | succ n ih =>
    unfold stringTail
    refine reads_next.ensures.bind fun x d hd => ?_
    split
    case isTrue hx =>
      subst hx
      exact ensures_pure ⟨[], [], hd, .nil, (List.append_nil _).symm⟩
    case isFalse hx =>
      split
      case isTrue hslash =>
        subst hslash
        refine (ensures_escape quote).bind fun y e he => ?_
        obtain ⟨text, htext, hencodes⟩ := he
        refine (ih (y :: read)).mono fun out f hf => ?_
        obtain ⟨t, s, ht, hs, hout⟩ := hf
        refine ⟨'\\' :: (text ++ t), y :: s, ?_, hencodes t s hs, ?_⟩
        · rw [hd, htext, ht]
          simp
        · rw [hout]
          simp
      case isFalse hslash =>
        refine (ih (x :: read)).mono fun out f hf => ?_
        obtain ⟨t, s, ht, hs, hout⟩ := hf
        refine ⟨x :: t, x :: s, ?_, .plain hx hslash hs, ?_⟩
        · rw [hd, ht, List.cons_append]
        · rw [hout]
          simp

/-- **A string** between two equal quotes is read as one token. -/
theorem ensures_stringLiteral (bound : Nat)
    (hopen : ∀ x ∈ c.rest.head?, x = '"' ∨ x = '\'') :
    Ensures (stringLiteral bound) c fun s d => Spells [.string s] c.rest d.rest := by
  unfold stringLiteral
  refine reads_next.ensures.bind fun quote d hd => ?_
  refine (ensures_stringTail quote bound []).bind fun out e he => ensures_pure ?_
  obtain ⟨text, s, htext, hs, rfl⟩ := he
  have hquote : quote = '"' ∨ quote = '\'' := hopen quote (by rw [hd]; rfl)
  have hrest : c.rest = (quote :: (text ++ [quote])) ++ e.rest := by
    rw [hd, htext]
    simp
  rw [hrest]
  exact .token (.string hquote hs) .done

/-! ### Numbers -/

/-- A character that passes a test is read, if it is there. -/
theorem ensures_takeIf (p : Char → Bool) :
    Ensures (takeIf p) c fun text d => c.rest = text ++ d.rest ∧
      ((∃ x, p x = true ∧ text = [x]) ∨ text = [] ∧ ∀ x ∈ c.rest.head?, p x = false) :=
  (reads_takeIf p).ensures

/-- A fraction is read as one, and no digit is left where there was none to start with. -/
theorem ensures_fraction :
    Ensures fraction c fun text d => c.rest = text ++ d.rest ∧ IsFraction text ∧
      ((∀ x ∈ c.rest.head?, x.isDigit = false) → ∀ x ∈ d.rest.head?, x.isDigit = false) := by
  unfold fraction
  refine reads_cursor.ensures.bind fun _ d hd => ?_
  obtain ⟨rfl, rfl⟩ := hd
  split
  case h_1 x _ hrest =>
    split
    case isTrue hx =>
      refine reads_next.ensures.bind fun point e he => ?_
      refine (ensures_takeWhile Char.isDigit).bind fun digits f hf => ensures_pure ?_
      obtain ⟨htext, hdigits, hend⟩ := hf
      rw [hrest] at he
      obtain ⟨rfl, hafter⟩ := List.cons.inj he
      -- the digit that was seen after the point is one of those that are read
      have hne : digits ≠ [] := by
        rintro rfl
        rw [List.nil_append] at htext
        have hx' := hend x (by rw [← htext, ← hafter]; rfl)
        rw [hx] at hx'
        exact absurd hx' (by decide)
      refine ⟨?_, Or.inr ⟨digits, rfl, hne, hdigits⟩, fun _ => hend⟩
      rw [hrest, hafter, htext, List.cons_append]
    case isFalse => exact ensures_pure ⟨rfl, Or.inl rfl, id⟩
  case h_2 => exact ensures_pure ⟨rfl, Or.inl rfl, id⟩

/-- An exponent is read as one, and what comes after it is no digit either. -/
theorem ensures_exponent (read : List Char) :
    Ensures (exponent read) c fun text d => c.rest = text ++ d.rest ∧ IsExponent text ∧
      ((∀ x ∈ c.rest.head?, x.isDigit = false) → ∀ x ∈ d.rest.head?, x.isDigit = false) := by
  unfold exponent
  refine reads_here.ensures.bind fun _ d hd => ?_
  obtain ⟨-, rfl⟩ := hd
  refine (ensures_takeIf _).bind fun mark e he => ?_
  rcases he with ⟨hmark, ⟨x, hx, rfl⟩ | ⟨rfl, -⟩⟩
  · rw [if_neg (by simp)]
    refine (ensures_takeIf _).bind fun sign f hf => ?_
    refine (ensures_takeWhile Char.isDigit).bind fun digits g hg => ?_
    obtain ⟨htext, hdigits, hend⟩ := hg
    split
    case isTrue => exact ensures_fail
    -- a mark without digits would have been an error
    case isFalse hne =>
      have hsign : sign = [] ∨ sign = ['+'] ∨ sign = ['-'] := by
        rcases hf.2 with ⟨y, hy, rfl⟩ | ⟨rfl, -⟩
        · rw [Bool.or_eq_true, decide_eq_true_eq, decide_eq_true_eq] at hy
          rcases hy with rfl | rfl
          · exact Or.inr (Or.inl rfl)
          · exact Or.inr (Or.inr rfl)
        · exact Or.inl rfl
      have hmark' : x = 'e' ∨ x = 'E' := by
        rw [Bool.or_eq_true, decide_eq_true_eq, decide_eq_true_eq] at hx
        exact hx
      refine ensures_pure ⟨?_, Or.inr ⟨x, sign, digits, ?_, hmark', hsign, ?_, hdigits⟩,
        fun _ => hend⟩
      · rw [hmark, hf.1, htext]
        simp
      · simp
      · rintro rfl
        exact hne rfl
  · exact ensures_pure ⟨hmark, Or.inl rfl, by rw [hmark]; exact id⟩

/-- **A number** that starts with a digit, or with a minus sign and a digit, is a numeral. -/
theorem ensures_number
    (hopen : (∃ x ∈ c.rest.head?, x.isDigit = true) ∨
      ∃ x ∈ (c.rest.drop 1).head?, c.rest.head? = some '-' ∧ x.isDigit = true) :
    Ensures number c fun t d => Spells [.number t] c.rest d.rest := by
  unfold number
  refine (ensures_takeIf _).bind fun sign d hd => ?_
  refine (ensures_takeWhile Char.isDigit).bind fun digits e he => ?_
  refine ensures_fraction.bind fun fraction f hf => ?_
  refine (ensures_exponent _).bind fun exponent g hg => ensures_pure ?_
  obtain ⟨hsign, hcases⟩ := hd
  obtain ⟨hdigits, hall, hend⟩ := he
  -- in both cases a digit comes after the sign, if there is one
  have hfirst : ∃ x ∈ d.rest.head?, x.isDigit = true := by
    rcases hcases with ⟨y, hy, rfl⟩ | ⟨rfl, hnone⟩
    · rw [hsign] at hopen
      rcases hopen with ⟨x, hx, hdigit⟩ | ⟨x, hx, -, hdigit⟩
      · obtain rfl : y = x := Option.some.inj hx
        rw [decide_eq_true_eq] at hy
        subst hy
        exact absurd hdigit (by decide)
      · exact ⟨x, hx, hdigit⟩
    · rw [List.nil_append] at hsign
      rw [hsign] at hopen hnone
      rcases hopen with h | ⟨x, -, hminus, -⟩
      · exact h
      · exact absurd (hnone '-' hminus) (by decide)
  -- the digits end where none follows, so the first one is among them
  have hne : digits ≠ [] := by
    rintro rfl
    rw [List.nil_append] at hdigits
    obtain ⟨x, hx, hdigit⟩ := hfirst
    rw [hdigits] at hx
    have hx' := hend x hx
    rw [hdigit] at hx'
    exact absurd hx' (by decide)
  have hsign' : sign = [] ∨ sign = ['-'] := by
    rcases hcases with ⟨y, hy, rfl⟩ | ⟨rfl, -⟩
    · rw [decide_eq_true_eq] at hy
      exact Or.inr (by rw [hy])
    · exact Or.inl rfl
  have hlist : (String.ofList (sign ++ digits ++ fraction ++ exponent)).toList =
      sign ++ (digits ++ (fraction ++ exponent)) := by
    rw [String.toList_ofList]
    simp only [List.append_assoc]
  have hnumeral : IsNumeral (String.ofList (sign ++ digits ++ fraction ++ exponent)) :=
    ⟨sign, digits, fraction, exponent, hlist, hsign', ⟨hne, hall⟩, hf.2.1, hg.2.1⟩
  have hrest : c.rest =
      (String.ofList (sign ++ digits ++ fraction ++ exponent)).toList ++ g.rest := by
    rw [hlist, hsign, hdigits, hf.1, hg.1]
    simp only [List.append_assoc]
  rw [hrest]
  exact .token (.number hnumeral (hg.2.2 (hf.2.2 hend))) .done

/-! ### Operators -/

/-- The text between `s` and the cursor spells an expression of the level. -/
def Spans (level : Level) (s : List Char) (e : Tree) (d : Cursor) : Prop :=
  ∃ ts, Spells ts s d.rest ∧ Derives level ts e.erase

/-- The text between `s` and the cursor spells statements between braces. -/
def SpansBlock (s : List Char) (es : List Tree) (d : Cursor) : Prop :=
  ∃ ts terminated, Spells (.symbol "\x7b" :: (ts ++ [.symbol "\x7d"])) s d.rest ∧
    DerivesStatements ts (Expr.eraseAll es) terminated

/-- What is derived on one level may be derived on another one from the same tokens. -/
theorem Spans.map {level level' : Level} {s : List Char} {e f : Tree} {d : Cursor}
    (h : Spans level s e d) (hlevel : ∀ ts, Derives level ts e.erase → Derives level' ts f.erase) :
    Spans level' s f d := by
  obtain ⟨ts, hts, he⟩ := h
  exact ⟨ts, hts, hlevel ts he⟩

/-- **A chain of operators** is derived with its left operand growing from round to round. -/
theorem ensures_chainTail {op : String} {join : Tree → Tree → Tree} {operand : Parser Tree}
    {level tighter : Level} (hop : op ∈ symbols)
    (hjoin : ∀ {ts us : List Token} {l r : Tree}, Derives level ts l.erase →
      Derives tighter us r.erase → Derives level (ts ++ .symbol op :: us) (join l r).erase)
    (hoperand : ∀ c, Ensures operand c (Spans tighter c.rest)) (n : Nat) {left : Tree}
    {s : List Char} (hleft : Spans level s left c) :
    Ensures (chainTail op join operand n left) c (Spans level s) := by
  induction n generalizing c left with
  | zero => exact ensures_exhausted
  | succ n ih =>
    unfold chainTail
    obtain ⟨ts, hts, hleft⟩ := hleft
    refine ensures_blanks.bind fun _ d hd => ?_
    have hgap : Spells ts s d.rest := hts.blanks hd
    refine (reads_lookingAt op).ensures.bind fun b e he => ?_
    obtain ⟨rfl, rfl⟩ := he
    split
    · refine (reads_token op).ensures.bind fun _ f hf => ?_
      refine ensures_blanks.bind fun _ g hg => ?_
      refine (hoperand g).bind fun right h hh => ?_
      obtain ⟨us, hus, hright⟩ := hh
      -- the operands so far are the left one of the next round
      refine ih ⟨ts ++ .symbol op :: us, ?_, hjoin hleft hright⟩
      exact hgap.trans ((spells_symbol hop hf).trans ((spells_unblanked hg).trans hus))
    · exact ensures_pure ⟨ts, hgap, hleft⟩

/-- A chain of comparisons is derived in the same way. -/
theorem ensures_equalityTail {operand : Parser Tree}
    (hoperand : ∀ c, Ensures operand c (Spans .negation c.rest)) (n : Nat) {left : Tree}
    {s : List Char} (hleft : Spans .comparison s left c) :
    Ensures (equalityTail operand n left) c (Spans .comparison s) := by
  induction n generalizing c left with
  | zero => exact ensures_exhausted
  | succ n ih =>
    unfold equalityTail
    obtain ⟨ts, hts, hleft⟩ := hleft
    refine ensures_blanks.bind fun _ d hd => ?_
    have hgap : Spells ts s d.rest := hts.blanks hd
    -- the two comparisons differ in their symbol alone
    have hstep : ∀ (op : String) (negated : Bool), op = (if negated then "!=" else "==") →
        Ensures (do
          token op
          blanks
          let right ← operand
          equalityTail operand n (.equality left right negated)) d (Spans .comparison s) := by
      intro op negated hop
      have hsymbol : op ∈ symbols := by
        rw [hop]
        cases negated <;> decide
      refine (reads_token op).ensures.bind fun _ f hf => ?_
      refine ensures_blanks.bind fun _ g hg => ?_
      refine (hoperand g).bind fun right h hh => ?_
      obtain ⟨us, hus, hright⟩ := hh
      refine ih ⟨ts ++ .symbol op :: us, ?_, ?_⟩
      · exact hgap.trans ((spells_symbol hsymbol hf).trans ((spells_unblanked hg).trans hus))
      · rw [hop]
        exact .equality negated hleft hright
    refine (reads_lookingAt "==").ensures.bind fun b e he => ?_
    obtain ⟨rfl, rfl⟩ := he
    split
    · exact hstep "==" false rfl
    · refine (reads_lookingAt "!=").ensures.bind fun b e he => ?_
      obtain ⟨rfl, rfl⟩ := he
      split
      · exact hstep "!=" true rfl
      · exact ensures_pure ⟨ts, hgap, hleft⟩

/-! ### Rounds of statements -/

/-- Goes on after an expression that is a statement, where `again` is told whether a semicolon or a
block has occurred. -/
def afterStatement {α : Type} (close : Option Char) (again : Bool → Parser α) (terminated : Bool) :
    Parser α := do
  blanks
  match ← peek? with
  | some d =>
    if d = ';' then
      let _ ← next
      again true
    else if some d = close then
      again terminated
    else
      fail (.unexpectedCharacter d .statement) (← here)
  | none => again terminated

/-- One round of the loop over statements, with what follows an expression as a function of its own. -/
theorem statementsUpTo_succ (close : Option Char) (expression : Parser Tree)
    (block : Parser (List Tree)) (n : Nat) (read : List Tree) (terminated : Bool) :
    statementsUpTo close expression block (n + 1) read terminated = (do
      blanks
      match ← peek? with
      | none =>
        if close.isSome then
          fail (.expected "\x7d") (← here)
        else
          return (read.reverse, terminated)
      | some c =>
        if some c = close then
          return (read.reverse, terminated)
        else if c = ';' then
          let _ ← next
          statementsUpTo close expression block n read true
        else if c = '{' then
          let body ← block
          statementsUpTo close expression block n (.block body :: read) true
        else
          let statement ← expression
          afterStatement close (statementsUpTo close expression block n (statement :: read))
            terminated) := rfl

/-- What may follow an expression that is a statement: a semicolon, or else no other statement. -/
theorem ensures_afterStatement {α : Type} {close : Option Char} {again : Bool → Parser α}
    {terminated : Bool} {post : α → Cursor → Prop}
    (hended : ∀ d, Spells [.symbol ";"] c.rest d.rest → Ensures (again true) d post)
    (hlast : ∀ d, d.rest = unblanked c.rest → (∀ x ∈ d.rest.head?, some x = close) →
      Ensures (again terminated) d post) : Ensures (afterStatement close again terminated) c post := by
  refine ensures_blanks.bind fun _ d hd => ?_
  refine reads_peek?.ensures.bind fun x e he => ?_
  obtain ⟨hx, rfl⟩ := he
  split
  case h_1 x =>
    split
    case isTrue hsemicolon =>
      subst hsemicolon
      refine reads_next.ensures.bind fun y f hf => hended f ?_
      obtain rfl : ';' = y := by
        rw [hf] at hx
        exact Option.some.inj hx
      exact (spells_unblanked hd).trans (spells_symbol (t := ";") (by decide) hf)
    case isFalse =>
    split
    case isTrue hclose =>
      refine hlast e hd fun z hz => ?_
      rw [← hx] at hz
      exact Option.some.inj hz ▸ hclose
    case isFalse => exact reads_here.ensures.bind fun _ _ _ => ensures_fail
  case h_2 =>
    refine hlast e hd fun z hz => ?_
    rw [← hx] at hz
    exact absurd hz (Option.not_mem_none z)

/-- The statements at `s` are read up to where they are closed, after those in `read`, and where this
comes first there are none. -/
def SpansStatements (close : Option Char) (s : List Char) (read : List Tree) (terminated : Bool)
    (out : List Tree × Bool) (d : Cursor) : Prop :=
  ∃ ts new ends, out = (read.reverse ++ new, terminated || ends) ∧ d.rest.head? = close ∧
    Spells ts s d.rest ∧ DerivesStatements ts (Expr.eraseAll new) ends ∧
    ((∀ x ∈ (unblanked s).head?, some x = close) → ts = [] ∧ new = [] ∧ ends = false)

/-- A statement that is terminated comes before others. -/
theorem SpansStatements.ended {close : Option Char} {s t : List Char} {read : List Tree}
    {terminated : Bool} {out : List Tree × Bool} {d : Cursor} {us : List Token} (added : List Tree)
    (hstarts : ¬ ∀ x ∈ (unblanked s).head?, some x = close) (hus : Spells us s t)
    (hadded : ∀ {ts new ends}, DerivesStatements ts (Expr.eraseAll new) ends →
      DerivesStatements (us ++ ts) (Expr.eraseAll (added ++ new)) true)
    (h : SpansStatements close t (added.reverse ++ read) true out d) :
    SpansStatements close s read terminated out d := by
  obtain ⟨ts, new, ends, rfl, hend, hts, hnew, -⟩ := h
  refine ⟨us ++ ts, added ++ new, true, ?_, hend, hus.trans hts, hadded hnew,
    fun h => absurd h hstarts⟩
  rw [List.reverse_append, List.reverse_reverse, List.append_assoc, Bool.true_or, Bool.or_true]

/-! ### Accesses and calls -/

section Nested

variable {expression : Parser Tree} (hexpr : ∀ c, Ensures expression c (Spans .expression c.rest))

include hexpr

/-- Arguments are read up to a closing parenthesis, and where one comes first there are none. -/
theorem ensures_arguments (n : Nat) (read : List Tree) :
    Ensures (arguments expression n read) c fun as d => ∃ ts new, as = read.reverse ++ new ∧
      Spells ts c.rest d.rest ∧ DerivesArguments ts (Expr.eraseAll new) ∧
      (c.rest.head? = some ')' → ts = [] ∧ new = []) := by
  induction n generalizing c read with
  | zero => exact ensures_exhausted
  | succ n ih =>
    unfold arguments
    refine reads_peek.ensures.bind fun x d hd => ?_
    obtain ⟨hx, rfl⟩ := hd
    split
    · exact ensures_pure ⟨[], [], (List.append_nil _).symm, .done, .nil, fun _ => ⟨rfl, rfl⟩⟩
    case isFalse hclose =>
      have hopen : d.rest.head? ≠ some ')' := by
        rw [hx]
        exact fun h => hclose (Option.some.inj h)
      refine (hexpr d).bind fun argument e he => ?_
      obtain ⟨ts, hts, hargument⟩ := he
      refine ensures_blanks.bind fun _ f hf => ?_
      refine reads_peek.ensures.bind fun y g hg => ?_
      obtain ⟨hy, rfl⟩ := hg
      have hreverse : ∀ new, (argument :: read).reverse ++ new = read.reverse ++ argument :: new := by
        intro new
        rw [List.reverse_cons, List.append_assoc, List.singleton_append]
      split
      · refine (reads_token ",").ensures.bind fun _ h hh => ?_
        refine ensures_blanks.bind fun _ i hi => ?_
        refine (ih (argument :: read)).mono fun as j hj => ?_
        obtain ⟨us, new, rfl, hus, hnew, -⟩ := hj
        refine ⟨ts ++ .symbol "," :: us, argument :: new, hreverse new, ?_, ?_, ?_⟩
        · exact (hts.blanks hf).trans
            ((spells_symbol (by decide) hh).trans ((spells_unblanked hi).trans hus))
        · exact .cons hargument hnew
        · exact fun h => absurd h hopen
      case isFalse hparen =>
        -- the parenthesis is still there in the next round, which ends the loop
        refine (ih (argument :: read)).mono fun as j hj => ?_
        obtain ⟨us, new, rfl, hus, -, hnone⟩ := hj
        obtain ⟨rfl, rfl⟩ := hnone (by rw [hy, Decidable.not_not.mp hparen])
        have hspells := (hts.blanks hf).trans hus
        rw [List.append_nil] at hspells
        exact ⟨ts, [argument], hreverse [], hspells, .last hargument, fun h => absurd h hopen⟩

/-- **Accesses and calls** are derived from the tokens of what they apply to and their own. -/
theorem ensures_accessTail (bound n : Nat) {base : Tree} {s : List Char}
    (hbase : Spans .access s base c) :
    Ensures (accessTail expression bound n base) c (Spans .access s) := by
  induction n generalizing c base with
  | zero => exact ensures_exhausted
  | succ n ih =>
    unfold accessTail
    obtain ⟨ts, hts, hbase⟩ := hbase
    refine ensures_blanks.bind fun _ d hd => ?_
    have hgap : Spells ts s d.rest := hts.blanks hd
    refine reads_peek?.ensures.bind fun x e he => ?_
    obtain ⟨hx, rfl⟩ := he
    -- the character that was seen is the one that is read
    have hopen : ∀ {y z : Char} {f : Cursor}, x = some y → e.rest = z :: f.rest →
        e.rest = y :: f.rest := by
      intro y z f hy hz
      rw [hx, hz] at hy
      rw [hz, Option.some.inj hy]
    split
    case h_1 =>
      refine reads_next.ensures.bind fun _ f hf => ?_
      refine ensures_blanks.bind fun _ g hg => ?_
      refine reads_here.ensures.bind fun _ h hh => ?_
      obtain ⟨-, rfl⟩ := hh
      refine (ensures_name .selector).bind fun selector i hi => ?_
      obtain ⟨hname, hselector, hend⟩ := hi
      refine ih ⟨ts ++ [.symbol ".", .name selector], ?_, .select hbase hname⟩
      exact hgap.trans ((spells_symbol (t := ".") (by decide) (hopen rfl hf)).trans
        ((spells_unblanked hg).trans (spells_name hname hselector hend)))
    case h_2 =>
      refine reads_here.ensures.bind fun _ f hf => ?_
      obtain ⟨-, rfl⟩ := hf
      refine reads_next.ensures.bind fun _ g hg => ?_
      refine ensures_blanks.bind fun _ h hh => ?_
      refine (hexpr h).bind fun position i hi => ?_
      obtain ⟨us, hus, hposition⟩ := hi
      refine ensures_blanks.bind fun _ j hj => ?_
      refine (reads_token "]").ensures.bind fun _ k hk => ?_
      refine ih ⟨ts ++ .symbol "[" :: (us ++ [.symbol "]"]), ?_, .index hbase hposition⟩
      exact hgap.trans ((spells_symbol (t := "[") (by decide) (hopen rfl hg)).trans
        ((spells_unblanked hh).trans (hus.trans
          ((spells_unblanked hj).trans (spells_symbol (by decide) hk)))))
    case h_3 =>
      refine reads_here.ensures.bind fun _ f hf => ?_
      obtain ⟨-, rfl⟩ := hf
      refine reads_next.ensures.bind fun _ g hg => ?_
      refine ensures_blanks.bind fun _ h hh => ?_
      refine (ensures_arguments hexpr bound []).bind fun as i hi => ?_
      obtain ⟨us, new, rfl, hus, hnew, -⟩ := hi
      refine (reads_token ")").ensures.bind fun _ j hj => ?_
      refine ih ⟨ts ++ .symbol "(" :: (us ++ [.symbol ")"]), ?_, .call hbase hnew⟩
      exact hgap.trans ((spells_symbol (t := "(") (by decide) (hopen rfl hg)).trans
        ((spells_unblanked hh).trans (hus.trans (spells_symbol (by decide) hj))))
    case h_4 => exact ensures_pure ⟨ts, hgap, hbase⟩

/-! ### Primaries -/

variable {block : Parser (List Tree)} (hblock : ∀ c, Ensures block c (SpansBlock c.rest))

include hblock

/-- **What starts with a name** is derived as a constant, as a closure or as a variable. -/
theorem ensures_named : Ensures (named expression block) c (Spans .primary c.rest) := by
  unfold named
  refine reads_here.ensures.bind fun _ d hd => ?_
  obtain ⟨-, rfl⟩ := hd
  refine (ensures_name .expression).bind fun x e he => ?_
  obtain ⟨hname, hrest, hend⟩ := he
  have hx : Spells [.name x] d.rest e.rest := spells_name hname hrest hend
  split
  case isTrue h =>
    subst h
    exact ensures_pure ⟨_, hx, .bool false⟩
  case isFalse hfalse =>
  split
  case isTrue h =>
    subst h
    exact ensures_pure ⟨_, hx, .null⟩
  case isFalse hnull =>
  split
  case isTrue h =>
    subst h
    exact ensures_pure ⟨_, hx, .bool true⟩
  case isFalse htrue =>
  -- the keywords were tried before, so the name is none of them
  have hvariable : IsVariableName x := ⟨hname, by simp [keywords, hfalse, hnull, htrue]⟩
  refine ensures_blanks.bind fun _ f hf => ?_
  have hgap : Spells [.name x] d.rest f.rest := hx.blanks hf
  refine (reads_lookingAt "->").ensures.bind fun _ g hg => ?_
  obtain ⟨rfl, rfl⟩ := hg
  split
  · refine (reads_token "->").ensures.bind fun _ h hh => ?_
    refine ensures_blanks.bind fun _ i hi => ?_
    have harrow : Spells [.name x, .symbol "->"] d.rest i.rest :=
      hgap.trans ((spells_symbol (by decide) hh).trans (spells_unblanked hi))
    refine reads_peek.ensures.bind fun y j hj => ?_
    obtain ⟨hy, rfl⟩ := hj
    split
    · refine (hblock j).bind fun body k hk => ensures_pure ?_
      obtain ⟨ts, terminated, hts, hbody⟩ := hk
      exact ⟨_, harrow.trans hts, .arrowBlock hvariable hbody⟩
    case isFalse hbrace =>
      refine (hexpr j).bind fun body k hk => ensures_pure ?_
      obtain ⟨ts, hts, hbody⟩ := hk
      -- the text after the arrow is settled, so its first token can be told from its head
      have hsettled : Settled j.rest := hi ▸ settled_unblanked _
      have hhead : j.rest.head? ≠ some '\x7b' := by
        rw [hy]
        exact fun h => hbrace (Option.some.inj h)
      exact ⟨_, harrow.trans hts, .arrow hvariable hbody (hts.head?_ne_brace hsettled hhead)⟩
  · exact ensures_pure ⟨_, hgap, .name hvariable⟩

/-- **A primary** is derived. The cases are those of its first character. -/
theorem ensures_primary (bound : Nat) :
    Ensures (primary expression block bound) c (Spans .primary c.rest) := by
  unfold primary
  refine reads_peek.ensures.bind fun x d hd => ?_
  obtain ⟨hx, rfl⟩ := hd
  split
  case isTrue hquote =>
    have hopen : ∀ y ∈ d.rest.head?, y = '"' ∨ y = '\'' := by
      intro y hy
      rw [hx] at hy
      exact Option.some.inj hy ▸ hquote
    refine (ensures_stringLiteral bound hopen).bind fun s e he => ?_
    exact ensures_pure ⟨_, he, .string s⟩
  case isFalse =>
  split
  case isTrue hparen =>
    subst hparen
    refine reads_next.ensures.bind fun y e he => ?_
    obtain rfl : '(' = y := by
      rw [he] at hx
      exact (Option.some.inj hx).symm
    refine ensures_blanks.bind fun _ f hf => ?_
    refine (hexpr f).bind fun inner g hg => ?_
    obtain ⟨ts, hts, hinner⟩ := hg
    refine ensures_blanks.bind fun _ h hh => ?_
    refine (reads_token ")").ensures.bind fun _ i hi => ensures_pure ?_
    refine ⟨_, ?_, .parenthesis hinner⟩
    exact (spells_symbol (t := "(") (by decide) he).trans ((spells_unblanked hf).trans
      (hts.trans ((spells_unblanked hh).trans (spells_symbol (by decide) hi))))
  case isFalse =>
  split
  · refine (hblock d).bind fun body e he => ensures_pure ?_
    obtain ⟨ts, terminated, hts, hbody⟩ := he
    exact ⟨_, hts, .block hbody⟩
  split
  case isTrue hdigit =>
    refine (ensures_number (Or.inl ⟨x, hx, hdigit⟩)).bind fun t e he => ?_
    exact ensures_pure ⟨_, he, .number t⟩
  case isFalse =>
  refine reads_cursor.ensures.bind fun _ e he => ?_
  obtain ⟨rfl, rfl⟩ := he
  split
  case isTrue hminus =>
    obtain ⟨hminus, hnext⟩ := hminus
    subst hminus
    obtain ⟨y, hy, hdigit⟩ : ∃ y ∈ (e.rest.drop 1).head?, y.isDigit = true := by
      rcases hnext' : (e.rest.drop 1).head? with _ | y
      · rw [hnext'] at hnext
        exact absurd hnext (by decide)
      · rw [hnext'] at hnext
        exact ⟨y, rfl, hnext⟩
    refine (ensures_number (Or.inr ⟨y, hy, hx, hdigit⟩)).bind fun t f hf => ?_
    exact ensures_pure ⟨_, hf, .number t⟩
  case isFalse =>
  split
  · exact ensures_named hexpr hblock
  · exact reads_here.ensures.bind fun _ _ _ => ensures_fail

/-! ### Levels of expressions -/

/-- An access is derived. -/
theorem ensures_access (bound : Nat) :
    Ensures (access expression block bound) c (Spans .access c.rest) := by
  unfold access
  refine (ensures_primary hexpr hblock bound).bind fun base d hd => ?_
  exact ensures_accessTail hexpr bound bound (hd.map fun ts h => .ofPrimary h)

omit hexpr hblock in
/-- A negation is derived from an exclamation mark and a negation, or from an access alone. -/
theorem ensures_negation {operand : Parser Tree}
    (hoperand : ∀ c, Ensures operand c (Spans .access c.rest)) (n : Nat) :
    Ensures (negation operand n) c (Spans .negation c.rest) := by
  induction n generalizing c with
  | zero => exact ensures_exhausted
  | succ n ih =>
    unfold negation
    refine reads_peek.ensures.bind fun x d hd => ?_
    obtain ⟨hx, rfl⟩ := hd
    split
    case isTrue hbang =>
      subst hbang
      refine reads_next.ensures.bind fun y e he => ?_
      obtain rfl : '!' = y := by
        rw [he] at hx
        exact (Option.some.inj hx).symm
      refine ensures_blanks.bind fun _ f hf => ?_
      refine ih.bind fun operand g hg => ensures_pure ?_
      obtain ⟨ts, hts, hoperand⟩ := hg
      refine ⟨_, ?_, .not hoperand⟩
      exact (spells_symbol (t := "!") (by decide) he).trans ((spells_unblanked hf).trans hts)
    case isFalse => exact (hoperand d).mono fun e f h => h.map fun ts h => .ofAccess h

/-- Comparisons are derived. -/
theorem ensures_equality (bound : Nat) :
    Ensures (equality expression block bound) c (Spans .comparison c.rest) := by
  have hoperand : ∀ c, Ensures (negation (access expression block bound) bound) c
      (Spans .negation c.rest) :=
    fun c => ensures_negation (fun c => ensures_access hexpr hblock bound) bound
  refine (hoperand c).bind fun left d hd => ?_
  exact ensures_equalityTail hoperand bound (hd.map fun ts h => .ofNegation h)

/-- Conjunctions are derived. -/
theorem ensures_conjunction (bound : Nat) :
    Ensures (conjunction expression block bound) c (Spans .conjunction c.rest) := by
  have hoperand : ∀ c, Ensures (equality expression block bound) c (Spans .comparison c.rest) :=
    fun c => ensures_equality hexpr hblock bound
  refine (hoperand c).bind fun left d hd => ?_
  exact ensures_chainTail (by decide) (fun hl hr => .and hl hr) hoperand bound
    (hd.map fun ts h => .ofComparison h)

/-- Disjunctions are derived. -/
theorem ensures_disjunction (bound : Nat) :
    Ensures (disjunction expression block bound) c (Spans .disjunction c.rest) := by
  have hoperand : ∀ c, Ensures (conjunction expression block bound) c
      (Spans .conjunction c.rest) :=
    fun c => ensures_conjunction hexpr hblock bound
  refine (hoperand c).bind fun left d hd => ?_
  exact ensures_chainTail (by decide) (fun hl hr => .or hl hr) hoperand bound
    (hd.map fun ts h => .ofConjunction h)

omit hblock in
/-- An assignment is derived, where the look-ahead has found its operator. -/
theorem ensures_assignment {width : Nat} (hahead : assignmentAhead c.rest = some width) :
    Ensures (assignment expression width) c (Spans .expression c.rest) := by
  unfold assignment
  refine reads_here.ensures.bind fun _ d hd => ?_
  obtain ⟨-, rfl⟩ := hd
  refine (ensures_name .assignment).bind fun x e he => ?_
  obtain ⟨hname, hrest, hend⟩ := he
  split
  · exact ensures_fail
  case isFalse hkeyword =>
    -- the look-ahead has seen the operator that is skipped
    rw [hrest, assignmentAhead_append hname hend] at hahead
    obtain ⟨op, hop, -, htext, -⟩ := assignOperator?_eq_some hahead
    rw [← unblanked_of_assignOperator? hahead] at htext
    have hsymbol : op ∈ symbols := by rcases hop with rfl | rfl <;> decide
    refine ensures_blanks.bind fun _ f hf => ?_
    refine (ensures_skip width).bind fun _ g hg => ?_
    refine ensures_blanks.bind fun _ h hh => ?_
    refine (hexpr h).bind fun value i hi => ensures_pure ?_
    obtain ⟨ts, hts, hvalue⟩ := hi
    have hoperator : f.rest = op.toList ++ g.rest := by rw [hg, hf, ← htext]
    refine ⟨.name x :: .symbol op :: ts, ?_, .assign ⟨hname, hkeyword⟩ hop hvalue⟩
    exact ((spells_name hname hrest hend).blanks hf).trans
      ((spells_symbol hsymbol hoperator).trans ((spells_unblanked hh).trans hts))

/-- **An expression** is an assignment where the look-ahead finds one, and a disjunction otherwise. -/
theorem ensures_assignmentOrDisjunction (bound : Nat) :
    Ensures (assignmentOrDisjunction expression block bound) c (Spans .expression c.rest) := by
  unfold assignmentOrDisjunction
  refine reads_cursor.ensures.bind fun _ d hd => ?_
  obtain ⟨rfl, rfl⟩ := hd
  split
  case h_1 width hahead => exact ensures_assignment hexpr hahead
  case h_2 =>
    exact (ensures_disjunction hexpr hblock bound).mono fun e f h =>
      h.map fun ts h => .ofDisjunction h

/-! ### Statements -/

/-- **Statements** are derived up to where they are closed. -/
theorem ensures_statementsUpTo (close : Option Char) (n : Nat) (read : List Tree)
    (terminated : Bool) :
    Ensures (statementsUpTo close expression block n read terminated) c
      (SpansStatements close c.rest read terminated) := by
  -- on the bound; what the later rounds derive comes after the statement of this one
  induction n generalizing c read terminated with
  | zero => exact ensures_exhausted
  | succ n ih =>
    rw [statementsUpTo_succ]
    refine ensures_blanks.bind fun _ d hd => ?_
    have hsettled : Settled d.rest := hd ▸ settled_unblanked _
    have hgap : Spells [] c.rest d.rest := spells_unblanked hd
    -- the loop ends here, with what was read before
    have hstop : d.rest.head? = close → Ensures (pure (read.reverse, terminated)) d
        (SpansStatements close c.rest read terminated) := by
      intro hclose
      refine ensures_pure ⟨[], [], false, ?_, hclose, hgap, .nil, fun _ => ⟨rfl, rfl, rfl⟩⟩
      rw [List.append_nil, Bool.or_false]
    refine reads_peek?.ensures.bind fun x e he => ?_
    obtain ⟨hx, rfl⟩ := he
    split
    case h_1 =>
      split
      · exact reads_here.ensures.bind fun _ _ _ => ensures_fail
      case isFalse hnone =>
        refine hstop ?_
        rw [← hx, Option.not_isSome_iff_eq_none.mp hnone]
    case h_2 x =>
      split
      case isTrue hclose => exact hstop (hx.symm.trans hclose)
      case isFalse hclose =>
      -- a statement starts here, so there is one
      have hstarts : ¬ ∀ y ∈ (unblanked c.rest).head?, some y = close :=
        fun h => hclose (h x (by rw [← hd]; exact hx.symm))
      split
      case isTrue hsemicolon =>
        subst hsemicolon
        refine reads_next.ensures.bind fun y f hf => ?_
        obtain rfl : ';' = y := by
          rw [hf] at hx
          exact Option.some.inj hx
        refine (ih read true).mono fun out g hg => ?_
        exact .ended [] hstarts (hgap.trans (spells_symbol (t := ";") (by decide) hf))
          .empty hg
      case isFalse hsemicolon =>
      split
      · refine (hblock e).bind fun body f hf => ?_
        obtain ⟨us, inner, hus, hbody⟩ := hf
        refine (ih (.block body :: read) true).mono fun out g hg => ?_
        refine .ended [.block body] hstarts (hgap.trans hus) (fun hnew => ?_) hg
        rw [List.nil_append, List.cons_append, List.append_assoc]
        exact .block hbody hnew
      case isFalse hbrace =>
      refine (hexpr e).bind fun statement f hf => ?_
      obtain ⟨us, hus, hstatement⟩ := hf
      have hopen : us.head? ≠ some (.symbol "\x7b") := by
        refine hus.head?_ne_brace hsettled ?_
        rw [← hx]
        exact fun h => hbrace (Option.some.inj h)
      refine ensures_afterStatement (fun g hg => ?_) fun g hg hlast => ?_
      · refine (ih (statement :: read) true).mono fun out h hh => ?_
        refine .ended [statement] hstarts (hgap.trans (hus.trans hg)) (fun hnew => ?_) hh
        rw [List.nil_append, List.append_assoc]
        exact .ended hstatement hopen hnew
      · -- without a semicolon the next round has to be the last one
        refine (ih (statement :: read) terminated).mono fun out h hh => ?_
        obtain ⟨ts, new, ends, rfl, hend, hts, -, hnone⟩ := hh
        obtain ⟨rfl, rfl, rfl⟩ := hnone (by rw [hg, unblanked_unblanked, ← hg]; exact hlast)
        refine ⟨us, [statement], false, ?_, hend, ?_, .last hstatement hopen,
          fun h => absurd h hstarts⟩
        · rw [List.reverse_cons, List.append_assoc, List.singleton_append]
        · have hspells := ((hgap.trans hus).blanks hg).trans hts
          rwa [List.append_nil] at hspells

/-- A block is derived from its braces and its statements. -/
theorem ensures_braced (bound : Nat) :
    Ensures (braced expression block bound) c (SpansBlock c.rest) := by
  unfold braced
  refine (reads_token "\x7b").ensures.bind fun _ d hd => ?_
  refine (ensures_statementsUpTo hexpr hblock (some '}') bound [] false).bind fun out e he => ?_
  obtain ⟨ts, new, ends, rfl, -, hts, hnew, -⟩ := he
  refine (reads_token "\x7d").ensures.bind fun _ f hf => ensures_pure ?_
  refine ⟨ts, ends, ?_, hnew⟩
  exact (spells_symbol (by decide) hd).trans (hts.trans (spells_symbol (by decide) hf))

end Nested

/-! ### Closing the recursion -/

/-- **Expressions and blocks**, by induction on the bound. -/
theorem ensures_nested (n : Nat) :
    (∀ c, Ensures (expression n) c (Spans .expression c.rest)) ∧
      ∀ c, Ensures (block n) c (SpansBlock c.rest) := by
  induction n with
  | zero => exact ⟨fun _ => ensures_exhausted, fun _ => ensures_exhausted⟩
  | succ n ih =>
    exact ⟨fun c => ensures_assignmentOrDisjunction ih.1 ih.2 (n + 1),
      fun c => ensures_braced ih.1 ih.2 (n + 1)⟩

/-- **A script** is derived from all the tokens of the text. -/
theorem ensures_script (bound : Nat) :
    Ensures (script bound) c fun e _ => ∃ ts, Spells ts c.rest [] ∧ DerivesScript ts e.erase := by
  unfold script
  obtain ⟨hexpr, hblock⟩ := ensures_nested bound
  refine (ensures_statementsUpTo hexpr hblock none bound [] false).bind fun out d hd => ?_
  obtain ⟨ts, new, ends, rfl, hend, hts, hnew, -⟩ := hd
  rw [List.head?_eq_none_iff.mp hend] at hts
  split
  case h_1 statement h =>
    obtain ⟨rfl, rfl⟩ := Prod.mk.inj h
    exact ensures_pure ⟨ts, hts, .bare hnew⟩
  case h_2 hmany h =>
    obtain ⟨rfl, rfl⟩ := Prod.mk.inj h
    refine ensures_pure ⟨ts, hts, .statements hnew ?_⟩
    rw [Expr.eraseAll_eq_map, List.length_map]
    -- a single statement is the script itself only if it was not terminated
    cases ends with
    | true => exact Or.inl rfl
    | false =>
      refine Or.inr fun hone => ?_
      obtain ⟨statement, hstatement⟩ := List.length_eq_one_iff.mp hone
      exact hmany statement hstatement rfl

end Parser

/-- A source that is accepted is one on which the parser of scripts is done. -/
theorem script_of_parse {source : String} {tree : Tree} (h : parse source = .ok tree) :
    ∃ d, Parser.script (2 * (source.length + 1)) (Cursor.start source) = .done tree d := by
  unfold parse at h
  rcases hscript : Parser.script (2 * (source.length + 1)) (Cursor.start source) with
    ⟨e, d⟩ | error | _
  · rw [hscript] at h
    obtain rfl : e = tree := Except.ok.inj h
    exact ⟨d, rfl⟩
  · rw [hscript] at h
    exact nomatch h
  · rw [hscript] at h
    exact nomatch h

/-- **Everything that is accepted is derived.** The source is a sequence of tokens with gaps between
them, and the grammar derives the tree that is read from it, up to the places of its parts. -/
theorem parse_derives {source : String} {tree : Tree} (h : parse source = .ok tree) :
    ∃ ts, Spells ts source.toList [] ∧ DerivesScript ts tree.erase := by
  obtain ⟨d, hscript⟩ := script_of_parse h
  exact Parser.ensures_script _ tree d hscript

/-- An arrow, a negation, an extra comma, single quotes and a comment at the end of the text. -/
theorem parse_derives_sample :
    ∃ tree : Tree, parse "x = y -> !f(y,) == 'a' // last" = .ok tree ∧
      tree.display = "x = y -> (!f(y) == \"a\")" ∧
      ∃ ts, Spells ts "x = y -> !f(y,) == 'a' // last".toList [] ∧
        DerivesScript ts tree.erase := by
  have hread : (parse "x = y -> !f(y,) == 'a' // last").toOption.map (·.display) =
      some "x = y -> (!f(y) == \"a\")" := by decide +kernel
  obtain ⟨tree, hparse, hdisplay⟩ := exists_tree_of_map hread
  exact ⟨tree, hparse, hdisplay, parse_derives hparse⟩

end GraphQuery
