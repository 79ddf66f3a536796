import GraphQuery.Script.Token

/-!
# What a parser does to its cursor

Everything the project proves about reading a text goes through one kind of statement. Fix the cursor
`o` at which reading began. `Reads o p c post` says what the parser `p` makes of a cursor `c` that
was reached from `o`:

* it may be done, with a value and a cursor that `c` reaches and that fit `post`;
* it may fail, with an error that is **exact** for the text at `o`;
* it does not run out of its bound.

A cursor **reaches** another one (`Cursor.Reaches`) if the text between them accounts for both the
characters that are gone and the change of place. An error is exact (`ParseError.Exact`) if its place
is the place of a cursor that `o` reaches, and the text there bears out its cause.

## Main statements

* `Reads.bind`: one parser after the other.
* `reads_name`, `reads_stringLiteral`, `reads_number`: what the parsers of tokens read.
-/

namespace GraphQuery

namespace Cursor

/-- The cursor `d` lies further on in the text of `c`, and its place is the one that the text between
them leads to. -/
def Reaches (c d : Cursor) : Prop :=
  ∃ text, c.rest = text ++ d.rest ∧ d.location = c.location.after text

theorem Reaches.refl (c : Cursor) : c.Reaches c := ⟨[], rfl, rfl⟩

/-- **Reaching is transitive**: the texts in between are put together. -/
theorem Reaches.trans {c d e : Cursor} (h₁ : c.Reaches d) (h₂ : d.Reaches e) : c.Reaches e := by
  obtain ⟨s, hs, ls⟩ := h₁
  obtain ⟨t, ht, lt⟩ := h₂
  refine ⟨s ++ t, ?_, ?_⟩
  · rw [hs, ht, List.append_assoc]
  · rw [lt, ls, Location.after_append]

/-- No text grows when it is read. -/
theorem Reaches.length_le {c d : Cursor} (h : c.Reaches d) : d.rest.length ≤ c.rest.length := by
  obtain ⟨s, hs, -⟩ := h
  rw [hs, List.length_append]
  omega

theorem reaches_cons (x : Char) (rest : List Char) (l : Location) :
    Reaches ⟨x :: rest, l⟩ ⟨rest, l.advance x⟩ := ⟨[x], rfl, rfl⟩

theorem reaches_skip (n : Nat) (c : Cursor) : c.Reaches (c.skip n) := by
  refine ⟨c.rest.take n, ?_, skip_location n c⟩
  rw [skip_rest, List.take_append_drop]

theorem reaches_skipWhile (p : Char → Bool) (c : Cursor) : c.Reaches (c.skipWhile p) :=
  ⟨c.rest.takeWhile p, List.takeWhile_append_dropWhile.symm, rfl⟩

/-- White space and comments are passed. -/
theorem reaches_skipTrivia (comment : Bool) (text : List Char) (l : Location) :
    Reaches ⟨text, l⟩ (skipTrivia comment text l) := by
  -- as the recursion goes: each character that is skipped is one that is passed
  fun_induction skipTrivia comment text l with
  | case1 => exact Reaches.refl _
  | case2 x rest l ih => exact (reaches_cons x rest l).trans ih
  | case3 x rest l _ ih => exact (reaches_cons x rest l).trans ih
  | case4 x rest l _ _ ih => exact (reaches_cons x rest l).trans ih
  | case5 => exact Reaches.refl _

/-- The gap at a cursor is passed. -/
theorem reaches_skipBlanks (c : Cursor) : c.Reaches c.skipBlanks :=
  reaches_skipTrivia false c.rest c.location

/-- A name stands at the cursor, and no character that could go on with it comes after it. -/
def HasName (c : Cursor) (name : String) : Prop :=
  ∃ rest, c.rest = name.toList ++ rest ∧ ∀ x ∈ rest.head?, isNamePart x = false

end Cursor

/-- An error whose place is a place of the text at `o` where its cause can be seen. -/
inductive ParseError.Exact (o : Cursor) : ParseError → Prop where
  /-- The text does not start with the token that has to stand there. -/
  | expected {c : Cursor} {token : String} (reached : o.Reaches c)
      (missing : ¬ token.toList <+: c.rest) : Exact o ⟨.expected token, c.location⟩
  /-- The character after a backslash stands there. -/
  | invalidEscape {c : Cursor} {x : Char} (reached : o.Reaches c)
      (found : c.rest.head? = some x) : Exact o ⟨.invalidEscape x, c.location⟩
  /-- The exponent mark of the number stands there; the number started `before` it. -/
  | invalidNumber {c : Cursor} {before after : List Char} {mark : Char} (reached : o.Reaches c)
      (found : before ++ mark :: after <+: c.rest) (isMark : mark = 'e' ∨ mark = 'E') :
      Exact o ⟨.invalidNumber (String.ofList (before ++ mark :: after)), c.location.after before⟩
  /-- The character stands there. -/
  | unexpectedCharacter {c : Cursor} {x : Char} {within : Part} (reached : o.Reaches c)
      (found : c.rest.head? = some x) : Exact o ⟨.unexpectedCharacter x within, c.location⟩
  /-- Nothing is left there. -/
  | unexpectedEnd {c : Cursor} (reached : o.Reaches c) (atEnd : c.rest = []) :
      Exact o ⟨.unexpectedEnd, c.location⟩
  /-- The keyword stands there. -/
  | unexpectedKeyword {c : Cursor} {name : String} (reached : o.Reaches c)
      (found : c.HasName name) : Exact o ⟨.unexpectedKeyword name, c.location⟩

/-- The outcome of reading at `c` is a value with a later cursor that fits `post`, or an exact
error. -/
def Outcome.Fits {α : Type} (o c : Cursor) (post : α → Cursor → Prop) : Outcome α → Prop
  | .done a d => c.Reaches d ∧ post a d
  | .failed e => e.Exact o
  | .exhausted => False

namespace Parser

variable {α β : Type}

/-- From a cursor that `o` reaches, the parser gets to a later cursor that fits `post`, or it fails
with an exact error. -/
def Reads (o : Cursor) (p : Parser α) (c : Cursor) (post : α → Cursor → Prop) : Prop :=
  o.Reaches c → (p c).Fits o c post

variable {o c : Cursor}

/-! ### Composition -/

/-- **One parser after the other.** The second one starts where the first one stopped. -/
theorem Reads.bind {p : Parser α} {f : α → Parser β} {mid : α → Cursor → Prop}
    {post : β → Cursor → Prop} (hp : Reads o p c mid)
    (hf : ∀ a d, c.Reaches d → mid a d → Reads o (f a) d post) : Reads o (p >>= f) c post := by
  intro ho
  have hpc := hp ho
  change (Parser.bind p f c).Fits o c post
  unfold Parser.bind
  generalize p c = outcome at hpc
  cases outcome with
  | done a d =>
    obtain ⟨hcd, hmid⟩ := hpc
    have hfd := hf a d hcd hmid (ho.trans hcd)
    change (f a d).Fits o c post
    -- what the second parser passes lies further on from `c` too
    generalize f a d = outcome at hfd ⊢
    cases outcome with
    | done b e => exact ⟨hcd.trans hfd.1, hfd.2⟩
    | failed e => exact hfd
    | exhausted => exact hfd
  | failed e => exact hpc
  | exhausted => exact hpc

theorem Reads.mono {p : Parser α} {mid post : α → Cursor → Prop} (hp : Reads o p c mid)
    (h : ∀ a d, c.Reaches d → mid a d → post a d) : Reads o p c post := by
  intro ho
  have hpc := hp ho
  generalize p c = outcome at hpc
  cases outcome with
  | done a d => exact ⟨hpc.1, h a d hpc.1 hpc.2⟩
  | failed e => exact hpc
  | exhausted => exact hpc

/-- That the cursor was reached may be used in showing what a parser makes of it. -/
theorem Reads.of_reached {p : Parser α} {post : α → Cursor → Prop}
    (h : o.Reaches c → Reads o p c post) : Reads o p c post := fun ho => h ho ho

theorem reads_pure {a : α} {post : α → Cursor → Prop} (h : post a c) :
    Reads o (pure a) c post := fun _ => ⟨Cursor.Reaches.refl c, h⟩

/-- An exact error may be reported. -/
theorem reads_fail {cause : ParseError.Cause} {l : Location} {post : α → Cursor → Prop}
    (h : ParseError.Exact o ⟨cause, l⟩) : Reads o (fail cause l) c post := fun _ => h

/-! ### Single steps -/

theorem reads_here : Reads o here c fun l d => l = c.location ∧ d = c :=
  fun _ => ⟨Cursor.Reaches.refl c, rfl, rfl⟩

theorem reads_cursor : Reads o cursor c fun a d => a = c ∧ d = c :=
  fun _ => ⟨Cursor.Reaches.refl c, rfl, rfl⟩

theorem reads_peek? : Reads o peek? c fun x d => x = c.rest.head? ∧ d = c :=
  fun _ => ⟨Cursor.Reaches.refl c, rfl, rfl⟩

theorem reads_lookingAt (t : String) :
    Reads o (lookingAt t) c fun b d => b = c.lookingAt t ∧ d = c :=
  fun _ => ⟨Cursor.Reaches.refl c, rfl, rfl⟩

/-- The next character is looked at. At the end of the text this fails there. -/
theorem reads_peek : Reads o peek c fun x d => c.rest.head? = some x ∧ d = c := by
  intro ho
  obtain ⟨rest, l⟩ := c
  cases rest with
  | nil => exact .unexpectedEnd ho rfl
  | cons x rest => exact ⟨Cursor.Reaches.refl _, rfl, rfl⟩

/-- The next character is read. At the end of the text this fails there. -/
theorem reads_next : Reads o next c fun x d => c.rest = x :: d.rest := by
  intro ho
  obtain ⟨rest, l⟩ := c
  cases rest with
  | nil => exact .unexpectedEnd ho rfl
  | cons x rest => exact ⟨Cursor.reaches_cons x rest l, rfl⟩

/-- **Gaps** are skipped. -/
theorem reads_blanks : Reads o blanks c fun _ d => d = c.skipBlanks :=
  fun _ => ⟨Cursor.reaches_skipBlanks c, rfl⟩

theorem reads_skip (n : Nat) : Reads o (move (Cursor.skip n)) c fun _ d => d = c.skip n :=
  fun _ => ⟨Cursor.reaches_skip n c, rfl⟩

/-- A token stands at the cursor if the text there starts with it. -/
theorem lookingAt_iff (c : Cursor) (t : String) :
    c.lookingAt t = true ↔ t.toList <+: c.rest := List.isPrefixOf_iff_prefix

/-- **Tokens** are read, or found missing at the cursor. -/
theorem reads_token (t : String) : Reads o (token t) c fun _ d => c.rest = t.toList ++ d.rest := by
  intro ho
  unfold token
  by_cases h : c.lookingAt t = true
  · rw [if_pos h]
    refine ⟨Cursor.reaches_skip _ c, ?_⟩
    obtain ⟨rest, hrest⟩ := (lookingAt_iff c t).mp h
    rw [Cursor.skip_rest, ← hrest, ← String.length_toList, List.drop_left]
  · rw [if_neg h]
    exact .expected ho fun ht => h ((lookingAt_iff c t).mpr ht)

/-- The longest run of characters that pass a test is read. -/
theorem reads_takeWhile (p : Char → Bool) :
    Reads o (takeWhile p) c fun text d =>
      c.rest = text ++ d.rest ∧ ∀ x ∈ d.rest.head?, p x = false := by
  refine fun _ => ⟨Cursor.reaches_skipWhile p c, List.takeWhile_append_dropWhile.symm, ?_⟩
  intro x hx
  rw [Option.mem_def] at hx
  -- the run is longest, so the character after it does not pass the test
  have hall := List.head?_dropWhile_not p c.rest
  change (List.dropWhile p c.rest).head? = some x at hx
  rw [hx] at hall
  simpa using hall

/-! ### Names -/

/-- **A name** is read, and it is not empty. -/
theorem reads_name (within : Part) :
    Reads o (name within) c fun x d => c.HasName x ∧ d.rest.length < c.rest.length := by
  refine Reads.of_reached fun ho => ?_
  unfold name
  refine reads_here.bind fun place d _ hd => ?_
  obtain ⟨rfl, rfl⟩ := hd
  refine reads_next.bind fun first e _ he => ?_
  split
  -- the name ends where no name character follows, which is what `HasName` asks for
  · refine (reads_takeWhile isNamePart).bind fun text f _ hf => reads_pure ⟨?_, ?_⟩
    · refine ⟨f.rest, ?_, hf.2⟩
      rw [he, hf.1, String.toList_ofList, List.cons_append]
    · rw [he, hf.1]
      simp only [List.length_cons, List.length_append]
      omega
  · exact reads_fail (.unexpectedCharacter ho (by rw [he]; rfl))

/-! ### Strings -/

/-- A digit that is none is blamed on the letter `u` that the escape started with. -/
theorem reads_hexDigits {u : Cursor} (hu : o.Reaches u) (hu' : u.rest.head? = some 'u')
    (n code : Nat) : Reads o (hexDigits u.location n code) c fun _ _ => True := by
  -- the place that is blamed stays the same, while the cursor moves on
  induction n generalizing c code with
  | zero => exact reads_pure trivial
  | succ n ih =>
    refine reads_next.bind fun x d _ _ => ?_
    split
    · exact ih _
    · exact reads_fail (.invalidEscape hu hu')

/-- An escape is read, and it is not empty. -/
theorem reads_escape : Reads o escape c fun _ d => d.rest.length < c.rest.length := by
  refine Reads.of_reached fun ho => ?_
  unfold escape
  refine reads_here.bind fun place d _ hd => ?_
  obtain ⟨rfl, rfl⟩ := hd
  refine reads_next.bind fun x e _ he => ?_
  have hlt : e.rest.length < d.rest.length := by rw [he, List.length_cons]; omega
  have hx : d.rest.head? = some x := by rw [he]; rfl
  split
  case isTrue hxu =>
    subst hxu
    -- four digits may still be no code point of a character
    refine (reads_hexDigits ho hx 4 0).bind fun code f hf _ => ?_
    split
    · exact reads_pure (Nat.lt_of_le_of_lt hf.length_le hlt)
    · exact reads_fail (.invalidEscape ho hx)
  case isFalse =>
    split
    · exact reads_pure hlt
    · exact reads_fail (.invalidEscape ho hx)

/-- **What comes after the opening quote** is read, if the bound exceeds what is left. -/
theorem reads_stringTail (quote : Char) (n : Nat) (read : List Char) (hn : c.rest.length < n) :
    Reads o (stringTail quote n read) c fun _ _ => True := by
  -- every round reads a character, so the bound and the text get shorter together
  induction n generalizing c read with
  | zero => omega
  | succ n ih =>
    refine reads_next.bind fun x d _ hd => ?_
    have hlt : d.rest.length < n := by rw [hd, List.length_cons] at hn; omega
    split
    · exact reads_pure trivial
    · split
      · refine reads_escape.bind fun y e _ he => ?_
        exact ih _ (Nat.lt_trans he hlt)
      · exact ih _ hlt

/-- A string is read with its quotes. -/
theorem reads_stringLiteral (bound : Nat) (hbound : c.rest.length ≤ bound) :
    Reads o (stringLiteral bound) c fun _ d => d.rest.length < c.rest.length := by
  unfold stringLiteral
  refine reads_next.bind fun quote d _ hd => ?_
  have hlt : d.rest.length < c.rest.length := by rw [hd, List.length_cons]; omega
  refine (reads_stringTail quote bound [] (by omega)).bind fun text e he _ => ?_
  exact reads_pure (Nat.lt_of_le_of_lt he.length_le hlt)

/-! ### Numbers -/

/-- Either the next character passes the test and is read, or nothing is read. -/
theorem reads_takeIf (p : Char → Bool) :
    Reads o (takeIf p) c fun text d => c.rest = text ++ d.rest ∧
      ((∃ x, p x = true ∧ text = [x]) ∨ text = [] ∧ ∀ x ∈ c.rest.head?, p x = false) := by
  unfold takeIf
  refine reads_peek?.bind fun x d _ hd => ?_
  obtain ⟨rfl, rfl⟩ := hd
  split
  case h_1 x hx =>
    split
    case isTrue hp =>
      refine reads_next.bind fun y e _ he => reads_pure ⟨he, Or.inl ⟨y, ?_, rfl⟩⟩
      rw [he, List.head?_cons, Option.some.injEq] at hx
      exact hx ▸ hp
    case isFalse hp =>
      refine reads_pure ⟨rfl, Or.inr ⟨rfl, fun y hy => ?_⟩⟩
      rw [hx, Option.mem_some_iff] at hy
      exact hy ▸ Bool.eq_false_iff.mpr hp
  case h_2 hx =>
    refine reads_pure ⟨rfl, Or.inr ⟨rfl, fun y hy => ?_⟩⟩
    rw [hx] at hy
    exact absurd hy (Option.not_mem_none y)

/-- The fraction of a number is read as it is written, if there is one. -/
theorem reads_fraction : Reads o fraction c fun text d => c.rest = text ++ d.rest := by
  unfold fraction
  refine reads_cursor.bind fun _ d _ hd => ?_
  obtain ⟨rfl, rfl⟩ := hd
  split
  · split
    · refine reads_next.bind fun point e _ he => ?_
      refine (reads_takeWhile Char.isDigit).bind fun digits f _ hf => reads_pure ?_
      rw [he, hf.1, List.cons_append]
    · exact reads_pure rfl
  · exact reads_pure rfl

/-- `b` is where the number started, so what is wrong with the exponent can be seen from there. -/
theorem reads_exponent {b : Cursor} (read : List Char) (hb : o.Reaches b)
    (hread : b.rest = read ++ c.rest) (hplace : c.location = b.location.after read) :
    Reads o (exponent read) c fun text d => c.rest = text ++ d.rest := by
  unfold exponent
  refine reads_here.bind fun place d _ hd => ?_
  obtain ⟨rfl, rfl⟩ := hd
  -- without a mark there is no exponent, and nothing can go wrong
  refine (reads_takeIf _).bind fun mark e _ he => ?_
  rcases he with ⟨hmark, ⟨x, hx, rfl⟩ | ⟨rfl, -⟩⟩
  · rw [if_neg (by simp)]
    refine (reads_takeIf _).bind fun sign f _ hf => ?_
    refine (reads_takeWhile Char.isDigit).bind fun digits g _ hg => ?_
    split
    case isTrue hdigits =>
      -- the text that is reported is what stands between `b` and the missing digits
      have hfound : read ++ x :: sign <+: b.rest := by
        refine ⟨f.rest, ?_⟩
        rw [hread, hmark, hf.1]
        simp
      rw [hplace, List.append_assoc, List.singleton_append]
      exact reads_fail (.invalidNumber hb hfound (by simpa using hx))
    case isFalse hdigits =>
      refine reads_pure ?_
      rw [hmark, hf.1, hg.1]
      simp
  · exact reads_pure hmark

/-- A number is read as it is written, and it is not empty if its first character is a minus sign or
a digit. -/
theorem reads_number :
    Reads o number c fun text d => c.rest = text.toList ++ d.rest ∧
      ∀ x ∈ c.rest.head?, x = '-' ∨ x.isDigit = true → d.rest.length < c.rest.length := by
  refine Reads.of_reached fun ho => ?_
  unfold number
  refine (reads_takeIf _).bind fun sign d hcd hd => ?_
  refine (reads_takeWhile Char.isDigit).bind fun digits e hde he => ?_
  refine reads_fraction.bind fun fraction f hef hf => ?_
  have hread : c.rest = (sign ++ digits ++ fraction) ++ f.rest := by
    rw [hd.1, he.1, hf, List.append_assoc, List.append_assoc]
  -- without a sign the first digit is read, since the digits go on as long as they can
  have hfirst : ∀ x ∈ c.rest.head?, x = '-' ∨ x.isDigit = true → sign ++ digits ≠ [] := by
    intro x hx hx' hnil
    obtain ⟨rfl, rfl⟩ := List.append_eq_nil_iff.mp hnil
    have hsign : ∀ y ∈ c.rest.head?, (y = '-') = False := by simpa using hd.2
    rw [hd.1, he.1, List.nil_append, List.nil_append] at hx
    have hdigit := he.2 x hx
    rcases hx' with rfl | hx'
    · exact absurd rfl (of_eq_false (hsign '-' (by rw [hd.1, he.1]; exact hx)))
    · rw [hx'] at hdigit
      exact absurd hdigit (by decide)
  -- the cursor before the exponent is `c` moved over what has been read of the number
  obtain ⟨text, htext, hplace⟩ := hcd.trans (hde.trans hef)
  obtain rfl : text = sign ++ digits ++ fraction :=
    List.append_cancel_right (htext.symm.trans hread)
  refine (reads_exponent _ ho hread hplace).bind fun exponent g hfg hg => reads_pure ⟨?_, ?_⟩
  · rw [hread, hg, String.toList_ofList, List.append_assoc (sign ++ digits ++ fraction)]
  · intro x hx hx'
    have hpos := List.length_pos_iff.mpr (hfirst x hx hx')
    have hle := hfg.length_le
    rw [hread]
    simp only [List.length_append] at hpos ⊢
    omega

end Parser

end GraphQuery
