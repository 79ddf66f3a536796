import GraphQuery.Script.Token
import GraphQuery.Text.Quoted

/-!
# Texts that parsers accept

`Reads` says what a parser makes of any text. Here the text is known, and the parser is to accept it:
`Yields p c fits rest` says that at the cursor `c` the parser `p` is done with a value that fits
`fits`, and that `rest` is the text that it leaves. Places do not matter, so the cursor that is left
is described by its text alone.

White space is skipped in many places, and a parser may or may not have skipped it before it stops.
`unblanked` is the text after white space and comments, and two texts that agree after it are the same
to a parser that starts with `blanks`.

## Main statements

* `Yields.bind`: one parser after the other.
* `yields_name`, `yields_stringLiteral`, `yields_number`: names, quoted strings and numerals are read
  back whatever follows them, as long as it cannot be taken for a part of them.
-/

namespace GraphQuery

/-! ### White space -/

/-- The text after white space and comments. -/
def unblanked (text : List Char) : List Char := (Cursor.skipTrivia false text {}).rest

/-- What is skipped does not depend on the place. -/
theorem skipTrivia_rest (comment : Bool) (text : List Char) (l m : Location) :
    (Cursor.skipTrivia comment text l).rest = (Cursor.skipTrivia comment text m).rest := by
  induction text generalizing comment l m with
  | nil => cases comment <;> rfl
  | cons x text ih =>
    cases comment with
    | true => exact ih _ _ _
    | false =>
      unfold Cursor.skipTrivia
      split
      · exact ih _ _ _
      · split
        · exact ih _ _ _
        · rfl

/-- The cursor after a gap has the text after it. -/
theorem skipBlanks_rest (c : Cursor) : c.skipBlanks.rest = unblanked c.rest :=
  skipTrivia_rest false c.rest c.location {}

@[simp] theorem unblanked_nil : unblanked [] = [] := rfl

/-- The character starts neither white space nor a comment. -/
def Solid (x : Char) : Prop := isBlank x = false ∧ x ≠ '/'

instance (x : Char) : Decidable (Solid x) := inferInstanceAs (Decidable (_ ∧ _))

/-- A solid character is not skipped. -/
theorem unblanked_cons {x : Char} (hx : Solid x) (text : List Char) :
    unblanked (x :: text) = x :: text := by
  unfold unblanked Cursor.skipTrivia
  rw [if_neg fun h => hx.2 h.1, if_neg (by rw [hx.1]; exact Bool.false_ne_true)]

/-- A space is skipped. -/
@[simp] theorem unblanked_space (text : List Char) : unblanked (' ' :: text) = unblanked text := by
  have hblank : isBlank ' ' = true := by decide
  unfold unblanked
  rw [Cursor.skipTrivia, if_neg fun h => absurd h.1 (by decide), if_pos hblank]
  exact skipTrivia_rest false text _ _

/-- **Skipping twice** is skipping once. -/
theorem unblanked_unblanked (text : List Char) : unblanked (unblanked text) = unblanked text := by
  have h : ∀ comment l, unblanked (Cursor.skipTrivia comment text l).rest =
      (Cursor.skipTrivia comment text l).rest := by
    -- inside a comment as well, since that is where the skipping may be
    induction text with
    | nil => intro comment l; cases comment <;> rfl
    | cons x text ih =>
      intro comment l
      cases comment with
      | true => exact ih _ _
      | false =>
        by_cases hcomment : x = '/' ∧ text.head? = some '/'
        · rw [Cursor.skipTrivia, if_pos hcomment]
          exact ih _ _
        · by_cases hblank : isBlank x = true
          · rw [Cursor.skipTrivia, if_neg hcomment, if_pos hblank]
            exact ih _ _
          · have hstop : ∀ l, Cursor.skipTrivia false (x :: text) l = ⟨x :: text, l⟩ := by
              intro l
              rw [Cursor.skipTrivia, if_neg hcomment, if_neg hblank]
            rw [hstop, unblanked, hstop]
  exact h false {}

/-! ### Characters -/

/-- Letters by code point. -/
theorem isAlpha_iff (x : Char) : x.isAlpha = true ↔
    (65 ≤ x.toNat ∧ x.toNat ≤ 90) ∨ (97 ≤ x.toNat ∧ x.toNat ≤ 122) := by
  change (decide (65 ≤ x.val ∧ x.val ≤ 90) ||
    decide (97 ≤ x.val) && decide (x.val ≤ 122)) = true ↔ _
  simp only [Bool.or_eq_true, Bool.and_eq_true, decide_eq_true_eq]
  exact Iff.rfl

/-- The characters that start a name, by code point. -/
theorem isNameStart_iff (x : Char) :
    isNameStart x = true ↔ x.toNat = 36 ∨ x.toNat = 95 ∨
      (65 ≤ x.toNat ∧ x.toNat ≤ 90) ∨ (97 ≤ x.toNat ∧ x.toNat ≤ 122) := by
  simp only [isNameStart, Bool.or_eq_true, decide_eq_true_eq, isAlpha_iff, ← Char.toNat_inj]
  simp
  omega

/-- A digit starts no name. -/
theorem isNameStart_eq_false_of_isDigit {x : Char} (hx : x.isDigit = true) :
    isNameStart x = false := by
  rw [Char.isDigit_iff_toNat] at hx
  rw [← Bool.not_eq_true, isNameStart_iff]
  simp at hx
  omega

/-- What starts a name is no digit. -/
theorem isDigit_eq_false_of_isNameStart {x : Char} (hx : isNameStart x = true) :
    x.isDigit = false := by
  rw [← Bool.not_eq_true]
  intro hdigit
  rw [isNameStart_eq_false_of_isDigit hdigit] at hx
  exact Bool.false_ne_true hx

/-- A digit could go on with a name. -/
theorem isDigit_of_not_isNamePart {x : Char} (h : isNamePart x = false) : x.isDigit = false :=
  (Bool.or_eq_false_iff.mp h).2

/-- The ASCII characters that show, the slash apart, are solid. -/
theorem solid_of_toNat {x : Char} (hlow : 33 ≤ x.toNat) (hhigh : x.toNat ≤ 126)
    (hslash : x.toNat ≠ 47) : Solid x := by
  refine ⟨?_, fun h => hslash (h ▸ rfl)⟩
  rw [← Bool.not_eq_true, isBlank, CodeRange.covers_iff]
  rintro ⟨r, hr, hfirst, hlast⟩
  -- by the ranges of the table of blanks, none of which meets this one
  simp only [blankTable, List.mem_cons, List.not_mem_nil, or_false] at hr
  rcases hr with rfl | rfl | rfl | rfl | rfl | rfl | rfl | rfl | rfl | rfl <;>
    simp only at hfirst hlast <;> omega

namespace Parser

variable {α β : Type} {c : Cursor} {rest : List Char}

/-- The parser is done with a value that fits `fits` and leaves the text `rest`. -/
def Yields (p : Parser α) (c : Cursor) (fits : α → Prop) (rest : List Char) : Prop :=
  ∃ a d, p c = .done a d ∧ fits a ∧ d.rest = rest

/-! ### Composition -/

/-- **One parser after the other.** -/
theorem Yields.bind {p : Parser α} {f : α → Parser β} {mid : α → Prop} {fits : β → Prop}
    {between : List Char} (hp : Yields p c mid between)
    (hf : ∀ a d, mid a → d.rest = between → Yields (f a) d fits rest) :
    Yields (p >>= f) c fits rest := by
  obtain ⟨a, d, hpc, ha, hd⟩ := hp
  obtain ⟨b, e, hfd, hb, he⟩ := hf a d ha hd
  refine ⟨b, e, ?_, hb, he⟩
  change Parser.bind p f c = .done b e
  rw [Parser.bind, hpc]
  exact hfd

theorem Yields.mono {p : Parser α} {mid fits : α → Prop} (hp : Yields p c mid rest)
    (h : ∀ a, mid a → fits a) : Yields p c fits rest := by
  obtain ⟨a, d, hpc, ha, hd⟩ := hp
  exact ⟨a, d, hpc, h a ha, hd⟩

theorem yields_pure {a : α} {fits : α → Prop} (ha : fits a) (hc : c.rest = rest) :
    Yields (pure a) c fits rest := ⟨a, c, rfl, ha, hc⟩

/-! ### Single steps -/

theorem yields_here : Yields here c (fun _ => True) c.rest := ⟨_, c, rfl, trivial, rfl⟩

theorem yields_cursor : Yields cursor c (fun a => a.rest = c.rest) c.rest := ⟨c, c, rfl, rfl, rfl⟩

theorem yields_peek? : Yields peek? c (· = c.rest.head?) c.rest := ⟨_, c, rfl, rfl, rfl⟩

/-- A token that stands there is found. -/
theorem yields_lookingAt_true {t : String} (h : t.toList <+: c.rest) :
    Yields (lookingAt t) c (· = true) c.rest :=
  ⟨_, c, rfl, List.isPrefixOf_iff_prefix.mpr h, rfl⟩

/-- A token that does not stand there is not found. -/
theorem yields_lookingAt_false {t : String} (h : ¬ t.toList <+: c.rest) :
    Yields (lookingAt t) c (· = false) c.rest := by
  have hlooking : c.lookingAt t = false := by
    rw [← Bool.not_eq_true]
    exact fun hlooking => h (List.isPrefixOf_iff_prefix.mp hlooking)
  exact ⟨_, c, rfl, hlooking, rfl⟩

/-- A gap is skipped. -/
theorem yields_blanks : Yields blanks c (fun _ => True) (unblanked c.rest) :=
  ⟨(), c.skipBlanks, rfl, trivial, skipBlanks_rest c⟩

/-- The next character past blanks decides how to go on. -/
theorem yields_ahead {f : Option Char → Parser α} {fits : α → Prop} {text : List Char}
    (hc : unblanked c.rest = text) (hf : ∀ d, d.rest = text → Yields (f text.head?) d fits rest) :
    Yields (blanks >>= fun _ => peek? >>= f) c fits rest := by
  refine yields_blanks.bind fun _ d _ hd => ?_
  refine yields_peek?.bind fun a e ha he => ?_
  rw [hd, hc] at ha he
  obtain rfl := ha
  exact hf e he

theorem yields_skip (n : Nat) : Yields (move (Cursor.skip n)) c (fun _ => True) (c.rest.drop n) :=
  ⟨(), c.skip n, rfl, trivial, Cursor.skip_rest n c⟩

theorem yields_peek {x : Char} (hc : c.rest = x :: rest) : Yields peek c (· = x) (x :: rest) := by
  refine ⟨x, c, ?_, rfl, hc⟩
  unfold peek
  rw [hc]

theorem yields_next {x : Char} (hc : c.rest = x :: rest) : Yields next c (· = x) rest := by
  refine ⟨x, ⟨rest, c.location.advance x⟩, ?_, rfl, rfl⟩
  unfold next
  rw [hc]

/-- **A token** that stands there is read. -/
theorem yields_token {t : String} (hc : c.rest = t.toList ++ rest) :
    Yields (token t) c (fun _ => True) rest := by
  have hlooking : c.lookingAt t = true := by
    rw [Cursor.lookingAt, List.isPrefixOf_iff_prefix, hc]
    exact List.prefix_append _ _
  refine ⟨(), c.skip t.length, ?_, trivial, ?_⟩
  · rw [token, if_pos hlooking]
  · rw [Cursor.skip_rest, hc, ← String.length_toList, List.drop_left]

/-- The longest text of such characters ends where one comes that is none. -/
theorem yields_takeWhile {p : Char → Bool} {text : List Char} (htext : ∀ x ∈ text, p x = true)
    (hrest : ∀ x ∈ rest.head?, p x = false) (hc : c.rest = text ++ rest) :
    Yields (takeWhile p) c (· = text) rest := by
  have hstop : rest.takeWhile p = [] ∧ rest.dropWhile p = rest := by
    cases rest with
    | nil => exact ⟨rfl, rfl⟩
    | cons x rest =>
      have hx : p x = false := hrest x rfl
      rw [List.takeWhile_cons, List.dropWhile_cons, hx]
      exact ⟨rfl, rfl⟩
  refine ⟨_, c.skipWhile p, rfl, ?_, ?_⟩
  · rw [hc, List.takeWhile_append_of_pos htext, hstop.1, List.append_nil]
  · change c.rest.dropWhile p = rest
    rw [hc, List.dropWhile_append_of_pos htext, hstop.2]

end Parser

/-! ### Names -/

/-- A name: a letter, an underscore or a dollar sign, and then those and digits. -/
def IsName (x : String) : Prop :=
  ∃ first rest, x.toList = first :: rest ∧ isNameStart first = true ∧
    ∀ y ∈ rest, isNamePart y = true

/-- Being a name can be decided from the characters. -/
theorem isName_iff (x : String) :
    IsName x ↔ x.toList.head?.any isNameStart = true ∧ x.toList.tail.all isNamePart = true := by
  constructor
  · rintro ⟨first, rest, hx, hfirst, hrest⟩
    rw [hx]
    exact ⟨hfirst, List.all_eq_true.mpr hrest⟩
  · rintro ⟨hfirst, hrest⟩
    rcases hx : x.toList with _ | ⟨first, rest⟩
    · rw [hx] at hfirst
      exact absurd hfirst (by decide)
    · rw [hx] at hfirst hrest
      exact ⟨first, rest, hx, hfirst, List.all_eq_true.mp hrest⟩

instance (x : String) : Decidable (IsName x) := decidable_of_iff _ (isName_iff x).symm

/-- A name that is no keyword. -/
def IsVariableName (x : String) : Prop := IsName x ∧ x ∉ keywords

instance (x : String) : Decidable (IsVariableName x) := inferInstanceAs (Decidable (_ ∧ _))

/-- **A name** is read back, if what follows it cannot go on with it. -/
theorem Parser.yields_name (within : Part) {c : Cursor} {x : String} {rest : List Char}
    (hx : IsName x) (hrest : ∀ y ∈ rest.head?, isNamePart y = false)
    (hc : c.rest = x.toList ++ rest) : Yields (name within) c (· = x) rest := by
  obtain ⟨first, others, hx, hfirst, hothers⟩ := hx
  rw [hx, List.cons_append] at hc
  refine yields_here.bind fun _ d _ hd => ?_
  refine (yields_next (hd.trans hc)).bind fun _ e hy he => ?_
  obtain rfl := hy
  rw [if_pos hfirst]
  -- the rest of the name is the longest text of name characters
  refine (yields_takeWhile hothers hrest he).bind fun _ f htext hf => ?_
  refine yields_pure ?_ hf
  rw [htext, ← hx, String.ofList_toList]

/-! ### Strings -/

/-- A string of characters that need no code point between quotes. -/
def IsPlain (s : String) : Prop := ∀ x ∈ s.toList, ¬ ['\\', 'u'] <+: quotedChar x

/-- A quoted string is the characters of the string, written one by one between two quotes. -/
theorem toList_quoted (s : String) :
    (quoted s).toList = '"' :: (s.toList.flatMap quotedChar ++ ['"']) := by
  rw [quoted, String.toList_ofList, List.cons_append]

/-- A character between quotes is itself, or a letter after a backslash, or a code point. -/
theorem quotedChar_cases (x : Char) :
    (quotedChar x = [x] ∧ x ≠ '"' ∧ x ≠ '\\') ∨
      (∃ y, quotedChar x = ['\\', y] ∧ y ≠ 'u' ∧ shortEscape? y = some x) ∨
      ['\\', 'u'] <+: quotedChar x := by
  unfold quotedChar
  -- the characters that have a letter of their own
  iterate 6
    split
    · rename_i h
      subst h
      exact Or.inr (Or.inl ⟨_, rfl, by decide, rfl⟩)
  split
  · exact Or.inr (Or.inr ⟨_, rfl⟩)
  · rename_i hquote hslash _ _ _ _ _
    exact Or.inl ⟨rfl, hquote, hslash⟩

/-- A letter after a backslash is read as what it stands for. -/
theorem Parser.yields_escape {c : Cursor} {x y : Char} {rest : List Char} (hu : y ≠ 'u')
    (hy : shortEscape? y = some x) (hc : c.rest = y :: rest) : Yields escape c (· = x) rest := by
  refine yields_here.bind fun _ d _ hd => ?_
  refine (yields_next (hd.trans hc)).bind fun _ e hz he => ?_
  obtain rfl := hz
  rw [if_neg hu, hy]
  exact yields_pure rfl he

/-- The characters of a quoted string are read back up to the closing quote. -/
theorem Parser.yields_stringTail {text rest read : List Char} {c : Cursor} {n : Nat}
    (htext : ∀ x ∈ text, ¬ ['\\', 'u'] <+: quotedChar x)
    (hc : c.rest = text.flatMap quotedChar ++ '"' :: rest) (hn : c.rest.length < n) :
    Yields (stringTail '"' n read) c (· = read.reverse ++ text) rest := by
  -- on the characters; one that is written with a backslash takes a round as well
  induction text generalizing c n read with
  | nil =>
    obtain ⟨n, rfl⟩ : ∃ m, n = m + 1 := ⟨n - 1, by omega⟩
    refine (yields_next hc).bind fun _ d hx hd => ?_
    obtain rfl := hx
    rw [if_pos rfl]
    exact yields_pure (List.append_nil _).symm hd
  | cons x text ih =>
    obtain ⟨n, rfl⟩ : ∃ m, n = m + 1 := ⟨n - 1, by omega⟩
    have htail : ∀ y ∈ text, ¬ ['\\', 'u'] <+: quotedChar y :=
      fun y hy => htext y (List.mem_cons_of_mem x hy)
    have hread : (x :: read).reverse ++ text = read.reverse ++ x :: text := by
      rw [List.reverse_cons, List.append_assoc, List.singleton_append]
    rw [List.flatMap_cons, List.append_assoc] at hc
    rcases quotedChar_cases x with ⟨hself, hquote, hslash⟩ | ⟨y, hshort, hu, hy⟩ | hcode
    · rw [hself, List.singleton_append] at hc
      refine (yields_next hc).bind fun _ d hz hd => ?_
      obtain rfl := hz
      rw [if_neg hquote, if_neg hslash, ← hread]
      refine ih htail hd ?_
      rw [hc, List.length_cons, ← hd] at hn
      omega
    · rw [hshort, List.cons_append, List.singleton_append] at hc
      refine (yields_next hc).bind fun _ d hz hd => ?_
      obtain rfl := hz
      rw [if_neg (by decide), if_pos rfl]
      refine (yields_escape hu hy hd).bind fun _ e hz he => ?_
      obtain rfl := hz
      rw [← hread]
      refine ih htail he ?_
      rw [hc, List.length_cons, List.length_cons, ← he] at hn
      omega
    -- there are no escapes by code point in the text
    · exact absurd hcode (htext x List.mem_cons_self)

/-- **A quoted string** is read back. -/
theorem Parser.yields_stringLiteral {s : String} {rest : List Char} {c : Cursor} {n : Nat}
    (hs : IsPlain s) (hc : c.rest = (quoted s).toList ++ rest) (hn : c.rest.length < n) :
    Yields (stringLiteral n) c (· = s) rest := by
  have htext : c.rest = '"' :: (s.toList.flatMap quotedChar ++ '"' :: rest) := by
    rw [hc, toList_quoted, List.cons_append, List.append_assoc, List.singleton_append]
  refine (yields_next htext).bind fun _ d hx hd => ?_
  obtain rfl := hx
  rw [htext, List.length_cons, ← hd] at hn
  refine (yields_stringTail hs hd (by omega)).bind fun _ e ha he => ?_
  refine yields_pure ?_ he
  rw [ha]
  exact String.ofList_toList

/-! ### Numbers -/

/-- Decimal digits, at least one. -/
def IsDigits (text : List Char) : Prop := text ≠ [] ∧ ∀ x ∈ text, x.isDigit = true

instance (text : List Char) : Decidable (IsDigits text) :=
  decidable_of_iff (text ≠ [] ∧ text.all Char.isDigit = true)
    (and_congr_right fun _ => List.all_eq_true)

/-- A point and digits, or nothing. -/
def IsFraction (text : List Char) : Prop :=
  text = [] ∨ ∃ digits, text = '.' :: digits ∧ IsDigits digits

/-- An exponent mark, perhaps a sign, and digits; or nothing. -/
def IsExponent (text : List Char) : Prop :=
  text = [] ∨ ∃ mark sign digits, text = mark :: (sign ++ digits) ∧ (mark = 'e' ∨ mark = 'E') ∧
    (sign = [] ∨ sign = ['+'] ∨ sign = ['-']) ∧ IsDigits digits

/-- A numeral: perhaps a minus sign, digits, perhaps a fraction and perhaps an exponent. -/
def IsNumeral (t : String) : Prop :=
  ∃ sign digits fraction exponent, t.toList = sign ++ (digits ++ (fraction ++ exponent)) ∧
    (sign = [] ∨ sign = ['-']) ∧ IsDigits digits ∧ IsFraction fraction ∧ IsExponent exponent

/-- What may follow a numeral: no name character, and no point with a digit. -/
def EndsNumeral (rest : List Char) : Prop :=
  (∀ x ∈ rest.head?, isNamePart x = false) ∧
    ∀ x, rest.head? = some '.' → x ∈ rest.tail.head? → x.isDigit = false

namespace Parser

variable {c : Cursor} {rest : List Char}

/-- A character that passes the test is read, if it is there. -/
theorem yields_takeIf {p : Char → Bool} {text : List Char}
    (htext : text = [] ∨ ∃ x, text = [x] ∧ p x = true)
    (hrest : text = [] → ∀ x ∈ rest.head?, p x = false) (hc : c.rest = text ++ rest) :
    Yields (takeIf p) c (· = text) rest := by
  refine yields_peek?.bind fun _ d hx hd => ?_
  obtain rfl := hx
  rcases htext with rfl | ⟨x, rfl, hx⟩
  · rw [List.nil_append] at hc
    rw [hc] at hd ⊢
    cases rest with
    | nil => exact yields_pure rfl hd
    | cons y rest =>
      have hy : p y = false := hrest rfl y rfl
      simp only [List.head?_cons, hy]
      exact yields_pure rfl hd
  · rw [List.singleton_append] at hc
    rw [hc] at hd ⊢
    simp only [List.head?_cons, hx, if_true]
    refine (yields_next hd).bind fun _ e hy he => ?_
    exact yields_pure (by rw [hy]) he

/-- Digits that something follows end there, if it does not start with a digit. -/
theorem yields_digits {digits : List Char} (hdigits : IsDigits digits)
    (hrest : ∀ x ∈ rest.head?, x.isDigit = false) (hc : c.rest = digits ++ rest) :
    Yields (takeWhile Char.isDigit) c (fun text => text = digits ∧ text.isEmpty = false) rest := by
  refine (yields_takeWhile hdigits.2 hrest hc).mono fun text htext => ⟨htext, ?_⟩
  rw [htext, List.isEmpty_eq_false_iff]
  exact hdigits.1

/-- A fraction is read back, if no digit follows it and no point with a digit follows its absence. -/
theorem yields_fraction {text : List Char} (htext : IsFraction text)
    (hpoint : text = [] → ∀ x, rest.head? = some '.' → x ∈ rest.tail.head? → x.isDigit = false)
    (hrest : ∀ x ∈ rest.head?, x.isDigit = false) (hc : c.rest = text ++ rest) :
    Yields fraction c (· = text) rest := by
  refine yields_cursor.bind fun a d ha hd => ?_
  rw [hc] at ha hd
  rw [ha]
  -- a point without a digit is left where it is
  rcases htext with rfl | ⟨digits, rfl, hdigits⟩
  · rw [List.nil_append] at hd ⊢
    split
    · rw [if_neg (by rw [hpoint rfl _ rfl rfl]; exact Bool.false_ne_true)]
      exact yields_pure rfl hd
    · exact yields_pure rfl hd
  · obtain ⟨x, others, rfl⟩ := List.exists_cons_of_ne_nil hdigits.1
    have hx : x.isDigit = true := hdigits.2 x List.mem_cons_self
    simp only [List.cons_append, hx, if_true] at hd ⊢
    refine (yields_next hd).bind fun _ e hpoint he => ?_
    refine (yields_digits hdigits hrest he).bind fun text f htext hf => ?_
    exact yields_pure (by rw [hpoint, htext.1]) hf

/-- An exponent is read back, if nothing that could be part of a name follows it. -/
theorem yields_exponent {text : List Char} (read : List Char) (htext : IsExponent text)
    (hrest : ∀ x ∈ rest.head?, isNamePart x = false) (hc : c.rest = text ++ rest) :
    Yields (exponent read) c (· = text) rest := by
  have hdigit : ∀ x ∈ rest.head?, x.isDigit = false :=
    fun x hx => isDigit_of_not_isNamePart (hrest x hx)
  refine yields_here.bind fun _ d _ hd => ?_
  rw [hc] at hd
  rcases htext with rfl | ⟨mark, sign, digits, rfl, hmark, hsign, hdigits⟩
  -- what follows is no mark, since a mark could go on with a name
  · have hnone : ∀ x ∈ rest.head?, (decide (x = 'e') || decide (x = 'E')) = false := by
      intro x hx
      have hpart := hrest x hx
      rw [Bool.or_eq_false_iff, decide_eq_false_iff_not, decide_eq_false_iff_not]
      constructor <;> rintro rfl <;> exact absurd hpart (by decide)
    refine (yields_takeIf (Or.inl rfl) (fun _ => hnone) hd).bind fun _ e ha he => ?_
    rw [ha]
    exact yields_pure rfl he
  · have hmark' : (decide (mark = 'e') || decide (mark = 'E')) = true := by
      rcases hmark with rfl | rfl <;> decide
    rw [List.cons_append, List.append_assoc] at hd
    have htaken : Yields (takeIf fun c => c = 'e' || c = 'E') d (· = [mark])
        (sign ++ (digits ++ rest)) :=
      yields_takeIf (Or.inr ⟨mark, rfl, hmark'⟩) (fun h => nomatch h) hd
    refine htaken.bind fun _ e ha he => ?_
    rw [ha]
    -- a digit is no sign
    have hnext : sign = [] →
        ∀ x ∈ (digits ++ rest).head?, (decide (x = '+') || decide (x = '-')) = false := by
      rintro - x hx
      obtain ⟨y, others, rfl⟩ := List.exists_cons_of_ne_nil hdigits.1
      obtain rfl : y = x := Option.some.inj hx
      have hy : y.isDigit = true := hdigits.2 y List.mem_cons_self
      rw [Bool.or_eq_false_iff, decide_eq_false_iff_not, decide_eq_false_iff_not]
      constructor <;> rintro rfl <;> exact absurd hy (by decide)
    have hsign' : sign = [] ∨ ∃ x, sign = [x] ∧ (decide (x = '+') || decide (x = '-')) = true := by
      rcases hsign with rfl | rfl | rfl
      · exact Or.inl rfl
      · exact Or.inr ⟨_, rfl, by decide⟩
      · exact Or.inr ⟨_, rfl, by decide⟩
    refine (yields_takeIf hsign' hnext he).bind fun _ f hb hf => ?_
    refine (yields_digits hdigits hdigit hf).bind fun text g htext hg => ?_
    rw [hb, htext.1]
    rw [htext.1] at htext
    simp only [htext.2]
    exact yields_pure rfl hg

/-- **A numeral** is read back, if what follows it cannot be taken for a part of it. -/
theorem yields_number {t : String} (ht : IsNumeral t) (hrest : EndsNumeral rest)
    (hc : c.rest = t.toList ++ rest) : Yields number c (· = t) rest := by
  obtain ⟨sign, digits, fraction, exponent, htext, hsign, hdigits, hfraction, hexponent⟩ := ht
  rw [htext] at hc
  simp only [List.append_assoc] at hc
  -- each part of the numeral ends where the next one starts, if there is one
  have hmark : ∀ x ∈ (exponent ++ rest).head?, x.isDigit = false := by
    intro x hx
    rcases hexponent with rfl | ⟨mark, sign, digits, rfl, hmark, -⟩
    · exact isDigit_of_not_isNamePart (hrest.1 x hx)
    · obtain rfl : mark = x := Option.some.inj hx
      rcases hmark with rfl | rfl <;> decide
  have hpoint : ∀ x ∈ (fraction ++ (exponent ++ rest)).head?, x.isDigit = false := by
    intro x hx
    rcases hfraction with rfl | ⟨digits, rfl, -⟩
    · exact hmark x hx
    · obtain rfl : '.' = x := Option.some.inj hx
      decide
  have hsign' : sign = [] ∨ ∃ x, sign = [x] ∧ decide (x = '-') = true := by
    rcases hsign with rfl | rfl
    · exact Or.inl rfl
    · exact Or.inr ⟨_, rfl, by decide⟩
  -- without a sign the numeral starts with a digit
  have hfirst : sign = [] →
      ∀ x ∈ (digits ++ (fraction ++ (exponent ++ rest))).head?, decide (x = '-') = false := by
    rintro - x hx
    obtain ⟨y, others, rfl⟩ := List.exists_cons_of_ne_nil hdigits.1
    obtain rfl : y = x := Option.some.inj hx
    have hy : y.isDigit = true := hdigits.2 y List.mem_cons_self
    rw [decide_eq_false_iff_not]
    rintro rfl
    exact absurd hy (by decide)
  -- without a fraction no point with a digit follows
  have hafter : fraction = [] → ∀ x, (exponent ++ rest).head? = some '.' →
      x ∈ (exponent ++ rest).tail.head? → x.isDigit = false := by
    rintro - x hhead hx
    rcases hexponent with rfl | ⟨mark, sign, digits, rfl, hmark, -⟩
    · exact hrest.2 x hhead hx
    · obtain rfl : mark = '.' := Option.some.inj hhead
      exact absurd hmark (by decide)
  refine (yields_takeIf hsign' hfirst hc).bind fun _ d ha hd => ?_
  refine (yields_digits hdigits hpoint hd).bind fun _ e hb he => ?_
  refine (yields_fraction hfraction hafter hmark he).bind fun _ f hc hf => ?_
  refine (yields_exponent _ hexponent hrest.1 hf).bind fun _ g hd hg => ?_
  refine yields_pure ?_ hg
  rw [ha, hb.1, hc, hd, ← String.ofList_toList (s := t), htext]
  simp only [List.append_assoc]

end Parser

end GraphQuery
