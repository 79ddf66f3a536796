import GraphQuery.Proofs.Script.Progress

/-!
# No refusal parts a line break

A line may end with a carriage return and a line feed. A place between these two is neither on the
line, whose text ends before both, nor on the next one, so a refusal that was placed there could not be
shown in an excerpt. Here no refusal is.

A parser of the grammar starts where no line feed comes next (`Cursor.InLine`), because what is blank is
passed before it, and it passes what is blank before it looks for anything else. The exception is what
follows a backslash, where a line feed is refused at its own place. But then it is the backslash that
stands before it.

So a statement `Keeps o p c post` is enough, which is like `Reads o p c post` but for two things: what is
known of an error is where it is, and nothing is said of a bound that is too small. In return it asks
for no bounds.

## Main statements

* `Parser.keeps_nested`: expressions and blocks, for every bound.
* `partsNoBreak_of_parse`: what `parse` refuses, it refuses at a place that parts no line break.
-/

namespace GraphQuery

/-- The place is one of the text at `o`, and it does not stand between a carriage return and a line
feed. -/
def Location.PartsNoBreak (o : Cursor) (l : Location) : Prop :=
  ∃ passed rest, o.rest = passed ++ rest ∧ l = o.location.after passed ∧
    (passed.getLast? = some '\r' → rest.head? ≠ some '\n')

/-- The cursor is not at the end of a line, unless it is at the end of the text. -/
def Cursor.InLine (c : Cursor) : Prop := c.rest.head? ≠ some '\n'

/-- The cursor is right after a backslash. -/
def Cursor.Escaped (o c : Cursor) : Prop :=
  ∃ passed, o.rest = (passed ++ ['\\']) ++ c.rest ∧ c.location = o.location.after (passed ++ ['\\'])

/-- A place that is reached in a line parts no line break. -/
theorem Cursor.Reaches.partsNoBreak {o c : Cursor} (h : o.Reaches c) (hc : c.InLine) :
    c.location.PartsNoBreak o := by
  obtain ⟨passed, htext, hplace⟩ := h
  exact ⟨passed, c.rest, htext, hplace, fun _ => hc⟩

/-- The character before the place is the backslash, and no carriage return. -/
theorem Cursor.Escaped.partsNoBreak {o c : Cursor} (h : Cursor.Escaped o c) :
    c.location.PartsNoBreak o := by
  obtain ⟨passed, htext, hplace⟩ := h
  refine ⟨passed ++ ['\\'], c.rest, htext, hplace, fun hlast => ?_⟩
  rw [List.getLast?_concat] at hlast
  exact absurd hlast (by decide)

/-- To read a backslash is to get right behind it. -/
theorem Cursor.Reaches.escaped {o c d : Cursor} (h : o.Reaches c) (hd : c.rest = '\\' :: d.rest)
    (hplace : d.location = c.location.advance '\\') : Cursor.Escaped o d := by
  obtain ⟨passed, htext, hc⟩ := h
  refine ⟨passed, ?_, ?_⟩
  · rw [htext, hd, List.append_assoc, List.singleton_append]
  · rw [hplace, hc, Location.after_append, Location.after_cons, Location.after_nil]

/-- At the end of the text there is no line feed. -/
theorem Cursor.inLine_of_nil {c : Cursor} (h : c.rest = []) : c.InLine := by
  unfold Cursor.InLine
  rw [h]
  decide

theorem Cursor.inLine_of_head {c : Cursor} {x : Char} (h : c.rest.head? = some x) (hx : x ≠ '\n') :
    c.InLine := by
  unfold Cursor.InLine
  rw [h]
  exact fun hfeed => hx (Option.some.inj hfeed)

/-- What is blank is passed, line feeds included. -/
theorem Cursor.inLine_skipBlanks (c : Cursor) : c.skipBlanks.InLine := by
  intro hfeed
  rw [skipBlanks_rest] at hfeed
  have hblank := (settled_unblanked c.rest).1 '\n' hfeed
  exact absurd hblank (by decide)

/-- The outcome of reading at `c` is a value with a later cursor that fits `post`, or an error at a
place that parts no line break, or the bound was too small. -/
def Outcome.Keeps {α : Type} (o c : Cursor) (post : α → Cursor → Prop) : Outcome α → Prop
  | .done a d => c.Reaches d ∧ post a d
  | .failed e => e.location.PartsNoBreak o
  | .exhausted => True

namespace Parser

variable {α β : Type}

/-- From a cursor that `o` reaches, the parser gets to a later cursor that fits `post`, unless it fails
at a place that parts no line break. -/
def Keeps (o : Cursor) (p : Parser α) (c : Cursor) (post : α → Cursor → Prop) : Prop :=
  o.Reaches c → (p c).Keeps o c post

variable {o c : Cursor}

/-! ### Composition -/

/-- **One parser after the other.** The second starts where the first has left off. -/
theorem Keeps.bind {p : Parser α} {f : α → Parser β} {mid : α → Cursor → Prop}
    {post : β → Cursor → Prop} (hp : Keeps o p c mid)
    (hf : ∀ a d, o.Reaches d → mid a d → Keeps o (f a) d post) : Keeps o (p >>= f) c post := by
  intro ho
  have hpc := hp ho
  change (Parser.bind p f c).Keeps o c post
  unfold Parser.bind
  generalize p c = outcome at hpc
  cases outcome with
  -- only if the first succeeds, there is anything left to show
  | done a d =>
    obtain ⟨hcd, hmid⟩ := hpc
    have hfd := hf a d (ho.trans hcd) hmid (ho.trans hcd)
    change (f a d).Keeps o c post
    generalize f a d = outcome at hfd ⊢
    cases outcome with
    | done b e => exact ⟨hcd.trans hfd.1, hfd.2⟩
    | failed e => exact hfd
    | exhausted => trivial
  | failed e => exact hpc
  | exhausted => trivial

/-- What is known of a cursor that is reached may be used. -/
theorem Keeps.of_reached {p : Parser α} {post : α → Cursor → Prop}
    (h : o.Reaches c → Keeps o p c post) : Keeps o p c post := fun ho => h ho ho

theorem keeps_pure {a : α} {post : α → Cursor → Prop} (h : post a c) :
    Keeps o (pure a) c post := fun _ => ⟨Cursor.Reaches.refl c, h⟩

/-- A refusal has to be at a place that parts no line break. -/
theorem keeps_fail {cause : ParseError.Cause} {l : Location} {post : α → Cursor → Prop}
    (h : l.PartsNoBreak o) : Keeps o (fail cause l) c post := fun _ => h

/-- Nothing is said of a bound that is too small. -/
theorem keeps_exhausted {post : α → Cursor → Prop} : Keeps o exhausted c post := fun _ => trivial

/-! ### Single steps -/

theorem keeps_here : Keeps o here c fun l d => l = c.location ∧ d = c :=
  fun _ => ⟨Cursor.Reaches.refl c, rfl, rfl⟩

theorem keeps_cursor : Keeps o cursor c fun a d => a = c ∧ d = c :=
  fun _ => ⟨Cursor.Reaches.refl c, rfl, rfl⟩

/-- A look at the next character moves nothing. -/
theorem keeps_peek? : Keeps o peek? c fun x d => x = c.rest.head? ∧ d = c :=
  fun _ => ⟨Cursor.Reaches.refl c, rfl, rfl⟩

theorem keeps_lookingAt (t : String) : Keeps o (lookingAt t) c fun _ d => d = c :=
  fun _ => ⟨Cursor.Reaches.refl c, rfl⟩

/-- What is blank is passed, so no line feed comes next. -/
theorem keeps_blanks : Keeps o blanks c fun _ d => d.InLine :=
  fun _ => ⟨Cursor.reaches_skipBlanks c, Cursor.inLine_skipBlanks c⟩

theorem keeps_skip (n : Nat) : Keeps o (move (Cursor.skip n)) c fun _ _ => True :=
  fun _ => ⟨Cursor.reaches_skip n c, trivial⟩

theorem keeps_takeWhile (p : Char → Bool) : Keeps o (takeWhile p) c fun _ _ => True :=
  fun _ => ⟨Cursor.reaches_skipWhile p c, trivial⟩

/-- Where a character is missed, the text is at its end. -/
theorem keeps_peek : Keeps o peek c fun x d => c.rest.head? = some x ∧ d = c := by
  intro ho
  obtain ⟨rest, l⟩ := c
  cases rest with
  | nil => exact ho.partsNoBreak (Cursor.inLine_of_nil rfl)
  | cons x rest => exact ⟨Cursor.Reaches.refl _, rfl, rfl⟩

/-- So it is where a character is to be read. -/
theorem keeps_next : Keeps o next c fun x d => c.rest = x :: d.rest ∧
    d.location = c.location.advance x := by
  intro ho
  obtain ⟨rest, l⟩ := c
  cases rest with
  | nil => exact ho.partsNoBreak (Cursor.inLine_of_nil rfl)
  | cons x rest => exact ⟨Cursor.reaches_cons x rest l, rfl, rfl⟩

/-- A token is missed where it should stand. -/
theorem keeps_token (t : String) (hc : c.InLine) : Keeps o (token t) c fun _ _ => True := by
  intro ho
  unfold token
  by_cases h : c.lookingAt t = true
  · rw [if_pos h]
    exact ⟨Cursor.reaches_skip _ c, trivial⟩
  · rw [if_neg h]
    exact ho.partsNoBreak hc

/-! ### Tokens -/

/-- A name is missed where it should start, and what comes next is looked at again. -/
theorem keeps_name (within : Part) (hc : c.InLine) : Keeps o (name within) c fun _ _ => True := by
  refine Keeps.of_reached fun ho => ?_
  unfold name
  refine keeps_here.bind fun place d _ hd => ?_
  obtain ⟨rfl, rfl⟩ := hd
  refine keeps_next.bind fun first e _ _ => ?_
  split
  · exact (keeps_takeWhile isNamePart).bind fun _ _ _ _ => keeps_pure trivial
  · exact keeps_fail (ho.partsNoBreak hc)

/-- All digits of an escape are blamed on the place that is given. -/
theorem keeps_hexDigits {place : Location} (hplace : place.PartsNoBreak o) (n code : Nat) :
    Keeps o (hexDigits place n code) c fun _ _ => True := by
  induction n generalizing c code with
  | zero => exact keeps_pure trivial
  | succ n ih =>
    refine keeps_next.bind fun x d _ _ => ?_
    split
    · exact ih _
    · exact keeps_fail hplace

/-- Whatever is wrong with an escape is blamed on the character after the backslash. -/
theorem keeps_escape (hc : Cursor.Escaped o c) : Keeps o escape c fun _ _ => True := by
  unfold escape
  refine keeps_here.bind fun place d _ hd => ?_
  obtain ⟨rfl, rfl⟩ := hd
  refine keeps_next.bind fun x e _ _ => ?_
  split
  · refine (keeps_hexDigits hc.partsNoBreak 4 0).bind fun code f _ _ => ?_
    split
    · exact keeps_pure trivial
    · exact keeps_fail hc.partsNoBreak
  · split
    · exact keeps_pure trivial
    · exact keeps_fail hc.partsNoBreak

/-- A string has line feeds in it, and is refused at its end or at an escape only. -/
theorem keeps_stringTail (quote : Char) (n : Nat) (read : List Char) :
    Keeps o (stringTail quote n read) c fun _ _ => True := by
  induction n generalizing c read with
  | zero => exact keeps_exhausted
  | succ n ih =>
    refine Keeps.of_reached fun ho => ?_
    refine keeps_next.bind fun x d _ hd => ?_
    split
    · exact keeps_pure trivial
    · split
      case isTrue hslash =>
        subst hslash
        -- only here a line feed may come next
        have hescaped : Cursor.Escaped o d := ho.escaped hd.1 hd.2
        exact (keeps_escape hescaped).bind fun y e _ _ => ih _
      case isFalse => exact ih _

/-- So is a literal. -/
theorem keeps_stringLiteral (bound : Nat) : Keeps o (stringLiteral bound) c fun _ _ => True := by
  unfold stringLiteral
  refine keeps_next.bind fun quote d _ _ => ?_
  exact (keeps_stringTail quote bound []).bind fun _ _ _ _ => keeps_pure trivial

/-- What is taken is known to have been next. -/
theorem keeps_takeIf (p : Char → Bool) :
    Keeps o (takeIf p) c fun text _ => text = [] ∨ ∃ x, c.rest.head? = some x ∧ p x = true := by
  unfold takeIf
  refine keeps_peek?.bind fun x d _ hd => ?_
  obtain ⟨rfl, rfl⟩ := hd
  split
  case h_1 x hx =>
    split
    case isTrue hp => exact keeps_next.bind fun _ _ _ _ => keeps_pure (Or.inr ⟨x, hx, hp⟩)
    case isFalse => exact keeps_pure (Or.inl rfl)
  case h_2 => exact keeps_pure (Or.inl rfl)

/-- A fraction is never refused. -/
theorem keeps_fraction : Keeps o fraction c fun _ _ => True := by
  unfold fraction
  refine keeps_cursor.bind fun _ d _ _ => ?_
  split
  · split
    · refine keeps_next.bind fun point e _ _ => ?_
      exact (keeps_takeWhile Char.isDigit).bind fun _ _ _ _ => keeps_pure trivial
    · exact keeps_pure trivial
  · exact keeps_pure trivial

/-- An exponent without digits is blamed on its mark. -/
theorem keeps_exponent (read : List Char) : Keeps o (exponent read) c fun _ _ => True := by
  refine Keeps.of_reached fun ho => ?_
  unfold exponent
  refine keeps_here.bind fun place d _ hd => ?_
  obtain ⟨rfl, rfl⟩ := hd
  refine (keeps_takeIf _).bind fun mark e _ he => ?_
  split
  · exact keeps_pure trivial
  case isFalse hmark =>
  -- the mark is read, so it is what stands at the place
  have hinline : d.InLine := by
    rcases he with rfl | ⟨x, hx, hp⟩
    · exact absurd rfl hmark
    · refine Cursor.inLine_of_head hx ?_
      rintro rfl
      exact absurd hp (by decide)
  refine (keeps_takeIf _).bind fun sign f _ _ => ?_
  refine (keeps_takeWhile Char.isDigit).bind fun digits g _ _ => ?_
  split
  · exact keeps_fail (ho.partsNoBreak hinline)
  · exact keeps_pure trivial

/-- Only the exponent of a number may be refused. -/
theorem keeps_number : Keeps o number c fun _ _ => True := by
  unfold number
  refine (keeps_takeIf _).bind fun sign d _ _ => ?_
  refine (keeps_takeWhile Char.isDigit).bind fun digits e _ _ => ?_
  refine keeps_fraction.bind fun fraction f _ _ => ?_
  exact (keeps_exponent _).bind fun exponent g _ _ => keeps_pure trivial

/-! ### Operators -/

/-- The parser keeps to lines wherever it starts in one. -/
def KeepsInLine (o : Cursor) (p : Parser α) : Prop :=
  ∀ c, c.InLine → Keeps o p c fun _ _ => True

/-- A chain looks for its operator behind what is blank. -/
theorem keeps_chainTail {op : String} {join : Tree → Tree → Tree} {operand : Parser Tree}
    (hoperand : KeepsInLine o operand) (n : Nat) (left : Tree) :
    Keeps o (chainTail op join operand n left) c fun _ _ => True := by
  induction n generalizing c left with
  | zero => exact keeps_exhausted
  | succ n ih =>
    unfold chainTail
    refine keeps_blanks.bind fun _ d _ hd => ?_
    refine (keeps_lookingAt op).bind fun _ e _ he => ?_
    subst he
    split
    · refine (keeps_token op hd).bind fun _ f _ _ => ?_
      refine keeps_blanks.bind fun _ g _ hg => ?_
      exact (hoperand g hg).bind fun right h _ _ => ih _
    · exact keeps_pure trivial

/-- So does a chain of comparisons, for either operator. -/
theorem keeps_equalityTail {operand : Parser Tree} (hoperand : KeepsInLine o operand) (n : Nat)
    (left : Tree) : Keeps o (equalityTail operand n left) c fun _ _ => True := by
  induction n generalizing c left with
  | zero => exact keeps_exhausted
  | succ n ih =>
    -- both comparisons go on in the same way
    have hstep : ∀ (t : String) (negated : Bool) (d : Cursor), d.InLine →
        Keeps o (do
          token t
          blanks
          let right ← operand
          equalityTail operand n (.equality left right negated)) d fun _ _ => True := by
      intro t negated d hd
      refine (keeps_token t hd).bind fun _ f _ _ => ?_
      refine keeps_blanks.bind fun _ g _ hg => ?_
      exact (hoperand g hg).bind fun right h _ _ => ih _
    unfold equalityTail
    refine keeps_blanks.bind fun _ d _ hd => ?_
    refine (keeps_lookingAt "==").bind fun _ e _ he => ?_
    subst he
    split
    · exact hstep "==" false _ hd
    · refine (keeps_lookingAt "!=").bind fun _ e _ he => ?_
      subst he
      split
      · exact hstep "!=" true _ hd
      · exact keeps_pure trivial

/-! ### Accesses and calls -/

/-- Arguments are left at the parenthesis that closes them. -/
theorem keeps_arguments {expression : Parser Tree} (hexpr : KeepsInLine o expression) (n : Nat)
    (read : List Tree) (hc : c.InLine) :
    Keeps o (arguments expression n read) c fun _ d => d.InLine := by
  induction n generalizing c read with
  | zero => exact keeps_exhausted
  | succ n ih =>
    unfold arguments
    refine keeps_peek.bind fun x d _ hd => ?_
    obtain ⟨-, rfl⟩ := hd
    split
    -- nothing is read of the parenthesis, so what is known of the place before it stays
    · exact keeps_pure hc
    · refine (hexpr d hc).bind fun argument e _ _ => ?_
      refine keeps_blanks.bind fun _ f _ hf => ?_
      refine keeps_peek.bind fun y g _ hg => ?_
      obtain ⟨-, rfl⟩ := hg
      split
      · refine (keeps_token "," hf).bind fun _ h _ _ => ?_
        exact keeps_blanks.bind fun _ i _ hi => ih _ hi
      -- without a comma the next round starts where the gap after the argument ends
      · exact ih _ hf

/-- Accesses look for their next character behind what is blank. -/
theorem keeps_accessTail {expression : Parser Tree} (hexpr : KeepsInLine o expression)
    (bound n : Nat) (base : Tree) :
    Keeps o (accessTail expression bound n base) c fun _ _ => True := by
  induction n generalizing c base with
  | zero => exact keeps_exhausted
  | succ n ih =>
    unfold accessTail
    refine keeps_blanks.bind fun _ d _ _ => ?_
    refine keeps_peek?.bind fun x e _ he => ?_
    obtain ⟨-, rfl⟩ := he
    split
    -- the name of a selector may be in another line than its dot
    · refine keeps_next.bind fun _ f _ _ => ?_
      refine keeps_blanks.bind fun _ g _ hg => ?_
      refine keeps_here.bind fun place h _ hh => ?_
      obtain ⟨rfl, rfl⟩ := hh
      exact (keeps_name .selector hg).bind fun selector i _ _ => ih _
    · refine keeps_here.bind fun place f _ _ => ?_
      refine keeps_next.bind fun _ g _ _ => ?_
      refine keeps_blanks.bind fun _ h _ hh => ?_
      refine (hexpr h hh).bind fun position i _ _ => ?_
      refine keeps_blanks.bind fun _ j _ hj => ?_
      exact (keeps_token "]" hj).bind fun _ k _ _ => ih _
    · refine keeps_here.bind fun place f _ _ => ?_
      refine keeps_next.bind fun _ g _ _ => ?_
      refine keeps_blanks.bind fun _ h _ hh => ?_
      refine (keeps_arguments hexpr bound [] hh).bind fun args i _ hi => ?_
      exact (keeps_token ")" hi).bind fun _ j _ _ => ih _
    · exact keeps_pure trivial

/-! ### Levels of expressions -/

section Nested

variable {expression : Parser Tree} {block : Parser (List Tree)}
  (hexpr : KeepsInLine o expression) (hblock : KeepsInLine o block)

include hexpr hblock

/-- A name, or a closure with its parameter. -/
theorem keeps_named : KeepsInLine o (named expression block) := by
  intro c hc
  unfold named
  refine keeps_here.bind fun place d _ hd => ?_
  obtain ⟨rfl, rfl⟩ := hd
  refine (keeps_name .expression hc).bind fun x e _ _ => ?_
  split
  · exact keeps_pure trivial
  split
  · exact keeps_pure trivial
  split
  · exact keeps_pure trivial
  -- the arrow may come after what is blank
  refine keeps_blanks.bind fun _ f _ hf => ?_
  refine (keeps_lookingAt "->").bind fun _ g _ hg => ?_
  subst hg
  split
  · refine (keeps_token "->" hf).bind fun _ h _ _ => ?_
    refine keeps_blanks.bind fun _ i _ hi => ?_
    refine keeps_peek.bind fun y j _ hj => ?_
    obtain ⟨-, rfl⟩ := hj
    split
    · exact (hblock j hi).bind fun _ _ _ _ => keeps_pure trivial
    · exact (hexpr j hi).bind fun _ _ _ _ => keeps_pure trivial
  · exact keeps_pure trivial

/-- One case for each way that an operand can start. -/
theorem keeps_primary (bound : Nat) : KeepsInLine o (primary expression block bound) := by
  intro c hc
  refine Keeps.of_reached fun ho => ?_
  unfold primary
  refine keeps_peek.bind fun x d _ hd => ?_
  obtain ⟨-, rfl⟩ := hd
  split
  · exact (keeps_stringLiteral bound).bind fun _ _ _ _ => keeps_pure trivial
  split
  · refine keeps_next.bind fun _ e _ _ => ?_
    refine keeps_blanks.bind fun _ f _ hf => ?_
    refine (hexpr f hf).bind fun inner g _ _ => ?_
    refine keeps_blanks.bind fun _ h _ hh => ?_
    exact (keeps_token ")" hh).bind fun _ _ _ _ => keeps_pure trivial
  split
  · exact (hblock d hc).bind fun _ _ _ _ => keeps_pure trivial
  split
  · exact keeps_number.bind fun _ _ _ _ => keeps_pure trivial
  -- a minus sign and names are told apart by what follows, without reading it
  refine keeps_cursor.bind fun _ e _ he => ?_
  obtain ⟨rfl, rfl⟩ := he
  split
  · exact keeps_number.bind fun _ _ _ _ => keeps_pure trivial
  split
  · exact keeps_named hexpr hblock e hc
  · refine keeps_here.bind fun place f _ hf => ?_
    obtain ⟨rfl, rfl⟩ := hf
    exact keeps_fail (ho.partsNoBreak hc)

/-- An operand with its accesses. -/
theorem keeps_access (bound : Nat) : KeepsInLine o (access expression block bound) := by
  intro c hc
  refine (keeps_primary hexpr hblock bound c hc).bind fun base d _ _ => ?_
  exact keeps_accessTail hexpr bound bound base

omit hexpr hblock in
/-- Negations, by induction on the bound. -/
theorem keeps_negation {operand : Parser Tree} (hoperand : KeepsInLine o operand) (n : Nat) :
    KeepsInLine o (negation operand n) := by
  induction n with
  | zero => exact fun _ _ => keeps_exhausted
  | succ n ih =>
    intro c hc
    unfold negation
    refine keeps_peek.bind fun x d _ hd => ?_
    obtain ⟨-, rfl⟩ := hd
    split
    · refine keeps_next.bind fun _ e _ _ => ?_
      refine keeps_blanks.bind fun _ f _ hf => ?_
      exact (ih f hf).bind fun _ _ _ _ => keeps_pure trivial
    · exact hoperand d hc

/-- Comparisons. -/
theorem keeps_equality (bound : Nat) : KeepsInLine o (equality expression block bound) := by
  have hoperand := keeps_negation (keeps_access hexpr hblock bound) bound
  intro c hc
  refine (hoperand c hc).bind fun left d _ _ => ?_
  exact keeps_equalityTail hoperand bound left

omit hexpr hblock in
/-- An operand with the chain after it, for either operator. -/
theorem keeps_chain {op : String} {join : Tree → Tree → Tree} {operand : Parser Tree}
    (hoperand : KeepsInLine o operand) (bound : Nat) :
    KeepsInLine o (do chainTail op join operand bound (← operand)) := by
  intro c hc
  refine (hoperand c hc).bind fun left d _ _ => ?_
  exact keeps_chainTail hoperand bound left

/-- Conjunctions and disjunctions are chains, one of the other. -/
theorem keeps_disjunction (bound : Nat) : KeepsInLine o (disjunction expression block bound) :=
  keeps_chain (keeps_chain (keeps_equality hexpr hblock bound) bound) bound

omit hblock in
/-- An assignment is known by its operator, and then read from its name. -/
theorem keeps_assignment (width : Nat) : KeepsInLine o (assignment expression width) := by
  intro c hc
  refine Keeps.of_reached fun ho => ?_
  unfold assignment
  refine keeps_here.bind fun place d _ hd => ?_
  obtain ⟨rfl, rfl⟩ := hd
  refine (keeps_name .assignment hc).bind fun x e _ _ => ?_
  split
  -- a keyword is blamed on the place where the assignment starts
  · exact keeps_fail (ho.partsNoBreak hc)
  · refine keeps_blanks.bind fun _ f _ _ => ?_
    refine (keeps_skip width).bind fun _ g _ _ => ?_
    refine keeps_blanks.bind fun _ h _ hh => ?_
    exact (hexpr h hh).bind fun _ _ _ _ => keeps_pure trivial

/-- The look for an operator moves nothing. -/
theorem keeps_assignmentOrDisjunction (bound : Nat) :
    KeepsInLine o (assignmentOrDisjunction expression block bound) := by
  intro c hc
  unfold assignmentOrDisjunction
  refine keeps_cursor.bind fun _ d _ hd => ?_
  obtain ⟨rfl, rfl⟩ := hd
  split
  · exact keeps_assignment hexpr _ d hc
  · exact keeps_disjunction hexpr hblock bound d hc

/-! ### Statements -/

omit hexpr hblock in
/-- What comes after an expression is looked for behind what is blank. -/
theorem keeps_afterStatement {close : Option Char} {again : Bool → Parser α}
    {terminated : Bool} {post : α → Cursor → Prop}
    (hagain : ∀ terminated d, Keeps o (again terminated) d post) :
    Keeps o (afterStatement close again terminated) c post := by
  refine keeps_blanks.bind fun _ d ho hd => ?_
  refine keeps_peek?.bind fun x e _ he => ?_
  obtain ⟨-, rfl⟩ := he
  split
  · split
    · exact keeps_next.bind fun _ f _ _ => hagain true f
    split
    · exact hagain terminated e
    · refine keeps_here.bind fun place f _ hf => ?_
      obtain ⟨rfl, rfl⟩ := hf
      exact keeps_fail (ho.partsNoBreak hd)
  · exact hagain terminated e

/-- Statements are left at the brace that closes them, or at the end of the text. -/
theorem keeps_statementsUpTo (close : Option Char) (n : Nat) (read : List Tree)
    (terminated : Bool) :
    Keeps o (statementsUpTo close expression block n read terminated) c fun _ d => d.InLine := by
  induction n generalizing c read terminated with
  | zero => exact keeps_exhausted
  | succ n ih =>
    rw [statementsUpTo_succ]
    -- every way on from here starts where this gap ends, whether it refuses, stops or nests
    refine keeps_blanks.bind fun _ d ho hd => ?_
    refine keeps_peek?.bind fun x e _ he => ?_
    obtain ⟨-, rfl⟩ := he
    split
    · split
      · refine keeps_here.bind fun place f _ hf => ?_
        obtain ⟨rfl, rfl⟩ := hf
        exact keeps_fail (ho.partsNoBreak hd)
      · exact keeps_pure hd
    · split
      · exact keeps_pure hd
      split
      · exact keeps_next.bind fun _ f _ _ => ih read true
      split
      · exact (hblock e hd).bind fun body f _ _ => ih _ true
      · refine (hexpr e hd).bind fun statement f _ _ => ?_
        exact keeps_afterStatement fun terminated g => ih _ terminated

/-- A block starts at its brace. -/
theorem keeps_braced (bound : Nat) : KeepsInLine o (braced expression block bound) := by
  intro c hc
  unfold braced
  refine (keeps_token "\x7b" hc).bind fun _ d _ _ => ?_
  refine (keeps_statementsUpTo hexpr hblock (some '}') bound [] false).bind fun out e _ he => ?_
  exact (keeps_token "\x7d" he).bind fun _ _ _ _ => keeps_pure trivial

end Nested

/-! ### Closing the recursion -/

/-- **Expressions and blocks**, by induction on the bound. -/
theorem keeps_nested (o : Cursor) (n : Nat) :
    KeepsInLine o (expression n) ∧ KeepsInLine o (block n) := by
  induction n with
  | zero => exact ⟨fun _ _ => keeps_exhausted, fun _ _ => keeps_exhausted⟩
  | succ n ih =>
    exact ⟨keeps_assignmentOrDisjunction ih.1 ih.2 (n + 1), keeps_braced ih.1 ih.2 (n + 1)⟩

/-- A script starts anywhere, as what is blank is passed first. -/
theorem keeps_script (bound : Nat) : Keeps o (script bound) c fun _ _ => True := by
  unfold script
  obtain ⟨hexpr, hblock⟩ := keeps_nested o bound
  refine (keeps_statementsUpTo hexpr hblock none bound [] false).bind fun out d _ _ => ?_
  split
  · exact keeps_pure trivial
  · exact keeps_pure trivial

end Parser

/-- **No refusal parts a line break.** -/
theorem partsNoBreak_of_parse {source : String} {error : ParseError}
    (h : parse source = .error error) :
    error.location.PartsNoBreak (Cursor.start source) := by
  have hkeeps := Parser.keeps_script (o := Cursor.start source) (2 * (source.length + 1))
    (Cursor.Reaches.refl _)
  rcases Parser.parse_cases source with ⟨tree, d, hscript, hparse⟩ | ⟨e, hscript, hparse⟩
  -- an error of the parser is what the script is refused with
  · rw [h] at hparse
    exact nomatch hparse
  · rw [h] at hparse
    obtain rfl : error = e := Except.error.inj hparse
    rw [hscript] at hkeeps
    exact hkeeps

end GraphQuery
