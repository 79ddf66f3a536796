import Mathlib.Data.List.Forall2
import Mathlib.Data.Nat.Digits.Defs
import GraphQuery.Proofs.Script.Soundness

/-!
# The literals of a string

A string has many literals. Between two equal quotes each of its characters is written by itself, and
independently of the others, in one of three ways (`Writes`): as it is, unless it is the quote or a
backslash; as a letter after a backslash, if it has one; or by the four hexadecimal digits of its code
point, if these are enough. The tables of letters and digits stand here once more as a reader of a
manual would see them, apart from the functions that the parser uses.

`Encodes` describes the text between the quotes from its start, as the grammar does. It is cut into the
texts of the characters by `encodes_iff`, and the parser follows it without a look at what comes after
the closing quote (`stringTail_of_encodes`).

## Main statements

* `hexCode?_eq_some_iff`: four digits are read as the number that they stand for.
* `encodes_iff`: the text of a string is made of the texts of its characters.
* `string_literals`: the parser reads each literal of a string as the string, and nothing else.
-/

namespace GraphQuery

/-! ### Ways to write a character -/

/-- The letters of the short escapes, and what they stand for. -/
def shortEscapes : List (Char × Char) :=
  [('0', '\x00'), ('n', '\n'), ('r', '\r'), ('t', '\t'), ('\\', '\\'), ('"', '"'), ('\'', '\''),
    ('/', '/')]

/-- The hexadecimal digits by value, in lower case. -/
def lowerDigits : List Char := "0123456789abcdef".toList

/-- The hexadecimal digits by value, in upper case. -/
def upperDigits : List Char := "0123456789ABCDEF".toList

/-- The character is the hexadecimal digit of a value, in either case. -/
def IsHexDigit (d : Char) (v : Nat) : Prop := lowerDigits[v]? = some d ∨ upperDigits[v]? = some d

instance (d : Char) (v : Nat) : Decidable (IsHexDigit d v) := inferInstanceAs (Decidable (_ ∨ _))

/-- **A way to write a character** between two quotes. -/
inductive Writes (quote x : Char) : List Char → Prop where
  | plain (hquote : x ≠ quote) (hslash : x ≠ '\\') : Writes quote x [x]
  | short {y : Char} (hy : (y, x) ∈ shortEscapes) : Writes quote x ['\\', y]
  | code {digits : List Char} {values : List Nat} (hlength : digits.length = 4)
      (hdigits : List.Forall₂ IsHexDigit digits values)
      (hx : x.toNat = Nat.ofDigits 16 values.reverse) : Writes quote x ('\\' :: 'u' :: digits)

/-! ### The tables of the parser -/

/-- The parser's short escapes are those of the table. -/
theorem shortEscape?_eq_some_iff {y x : Char} : shortEscape? y = some x ↔ (y, x) ∈ shortEscapes := by
  constructor
  · intro h
    unfold shortEscape? at h
    split at h
    -- the nine branches are the eight letters and everything else
    case h_9 => exact nomatch h
    all_goals
      obtain rfl := Option.some.inj h
      decide
  · intro h
    simp only [shortEscapes, List.mem_cons, Prod.mk.injEq, List.not_mem_nil, or_false] at h
    rcases h with ⟨rfl, rfl⟩ | ⟨rfl, rfl⟩ | ⟨rfl, rfl⟩ | ⟨rfl, rfl⟩ | ⟨rfl, rfl⟩ | ⟨rfl, rfl⟩ |
      ⟨rfl, rfl⟩ | ⟨rfl, rfl⟩ <;> rfl

/-- In a range of characters that stand for successive values, a digit is told by its distance from
the first one. -/
theorem isHexDigit_of_range {d first : Char} (count low : Nat)
    (htable : ∀ k < count, IsHexDigit (Char.ofNat (first.toNat + k)) (k + low))
    (hfirst : first.toNat ≤ d.toNat) (hlast : d.toNat < first.toNat + count) :
    IsHexDigit d (d.toNat - first.toNat + low) := by
  have hd : Char.ofNat (first.toNat + (d.toNat - first.toNat)) = d := by
    rw [Nat.add_sub_cancel' hfirst, Char.ofNat_toNat]
  -- the table has a digit at each code point of the range, and `d` is the one at its own
  have hdigit := htable (d.toNat - first.toNat) (by omega)
  rwa [hd] at hdigit

/-- The parser gives a digit its place in one of the two tables, and no value to other characters. -/
theorem hexValue?_eq_some_iff {d : Char} {v : Nat} : hexValue? d = some v ↔ IsHexDigit d v := by
  constructor
  · intro h
    -- digits, small letters and capital letters are three ranges, tried in this order
    unfold hexValue? at h
    split at h
    case isTrue hdigit =>
      obtain rfl := Option.some.inj h
      obtain ⟨hfirst, hlast⟩ := Char.isDigit_iff_toNat.mp hdigit
      exact isHexDigit_of_range 10 0 (by decide) hfirst (Nat.lt_succ_of_le hlast)
    case isFalse =>
    split at h
    case isTrue hletter =>
      obtain rfl := Option.some.inj h
      exact isHexDigit_of_range 6 10 (by decide) hletter.1 (Nat.lt_succ_of_le hletter.2)
    case isFalse =>
    split at h
    case isTrue hletter =>
      obtain rfl := Option.some.inj h
      exact isHexDigit_of_range 6 10 (by decide) hletter.1 (Nat.lt_succ_of_le hletter.2)
    case isFalse => exact nomatch h
  -- a digit of either table has its place as its value: sixteen places are all that there are to check
  · have htables : ∀ v : Fin 16, hexValue? (lowerDigits.get v) = some v.val ∧
        hexValue? (upperDigits.get v) = some v.val := by decide
    rintro (h | h)
    · obtain ⟨hv, rfl⟩ := List.getElem?_eq_some_iff.mp h
      exact (htables ⟨v, hv⟩).1
    · obtain ⟨hv, rfl⟩ := List.getElem?_eq_some_iff.mp h
      exact (htables ⟨v, hv⟩).2

/-- Digits after a number that was read before them. -/
theorem foldlM_hexValue?_eq_some_iff {digits : List Char} {code n : Nat} :
    digits.foldlM (fun code d => (hexValue? d).map (code * 16 + ·)) code = some n ↔
      ∃ values, List.Forall₂ IsHexDigit digits values ∧
        n = values.foldl (fun code v => code * 16 + v) code := by
  induction digits generalizing code with
  | nil => simp [eq_comm]
  | cons d digits ih =>
    rw [Parser.hexCode?_append, Option.bind_eq_some_iff]
    constructor
    · rintro ⟨v, hv, hrest⟩
      obtain ⟨values, hvalues, rfl⟩ := ih.mp hrest
      exact ⟨v :: values, .cons (hexValue?_eq_some_iff.mp hv) hvalues, rfl⟩
    · rintro ⟨_, hvalues, rfl⟩
      obtain ⟨v, values, hv, hvalues', rfl⟩ := List.forall₂_cons_left_iff.mp hvalues
      exact ⟨v, hexValue?_eq_some_iff.mpr hv, ih.mpr ⟨values, hvalues', rfl⟩⟩

/-- **Digits are read as the number that they stand for**, the most significant one first. -/
theorem hexCode?_eq_some_iff {digits : List Char} {n : Nat} :
    hexCode? digits = some n ↔
      ∃ values, List.Forall₂ IsHexDigit digits values ∧ n = Nat.ofDigits 16 values.reverse := by
  have hfold : ∀ values : List Nat,
      values.foldl (fun code v => code * 16 + v) 0 = Nat.ofDigits 16 values.reverse := by
    intro values
    rw [List.foldl_eq_foldr_reverse, Nat.ofDigits_eq_foldr]
    congr 1
    funext v code
    rw [Nat.cast_id, Nat.mul_comm, Nat.add_comm]
  unfold hexCode?
  rw [foldlM_hexValue?_eq_some_iff]
  simp only [hfold]

/-- Only the code points of surrogates are those of no character. -/
theorem charOfCode?_eq_some_iff {n : Nat} {x : Char} : charOfCode? n = some x ↔ x.toNat = n := by
  unfold charOfCode?
  constructor
  · intro h
    by_cases hvalid : n.isValidChar
    · rw [dif_pos hvalid] at h
      obtain rfl := Option.some.inj h
      rfl
    · rw [dif_neg hvalid] at h
      exact absurd h.symm (Option.some_ne_none x)
  · rintro rfl
    have hvalid : x.toNat.isValidChar := x.valid
    rw [dif_pos hvalid]
    rfl

/-! ### Texts of strings -/

/-- **The text of a string** is made of the texts of its characters. -/
theorem encodes_iff {quote : Char} {text s : List Char} :
    Encodes quote text s ↔ ∃ ws, List.Forall₂ (Writes quote) s ws ∧ text = ws.flatten := by
  constructor
  · intro h
    induction h with
    | nil => exact ⟨[], .nil, rfl⟩
    | @plain x t s hquote hslash _ ih =>
      obtain ⟨ws, hws, rfl⟩ := ih
      exact ⟨[x] :: ws, .cons (.plain hquote hslash) hws, rfl⟩
    | @short x y t s hy _ ih =>
      obtain ⟨ws, hws, rfl⟩ := ih
      exact ⟨['\\', y] :: ws, .cons (.short (shortEscape?_eq_some_iff.mp hy)) hws, rfl⟩
    | @code x digits t s n hlength hdigits hx _ ih =>
      obtain ⟨ws, hws, rfl⟩ := ih
      obtain ⟨values, hvalues, rfl⟩ := hexCode?_eq_some_iff.mp hdigits
      -- the parser's number of four digits is the number that they stand for, and it is the character's
      refine ⟨('\\' :: 'u' :: digits) :: ws, .cons ?_ hws, rfl⟩
      exact .code hlength hvalues (charOfCode?_eq_some_iff.mp hx)
  · rintro ⟨ws, hws, rfl⟩
    induction hws with
    | nil => exact .nil
    | cons hw _ ih =>
      cases hw with
      | plain hquote hslash => exact .plain hquote hslash ih
      | short hy => exact .short (shortEscape?_eq_some_iff.mpr hy) ih
      | code hlength hdigits hx =>
        exact .code hlength (hexCode?_eq_some_iff.mpr ⟨_, hdigits, rfl⟩)
          (charOfCode?_eq_some_iff.mpr hx) ih

namespace Parser

theorem here_apply (c : Cursor) : here c = .done c.location c := rfl

theorem next_cons (x : Char) (rest : List Char) (l : Location) :
    next ⟨x :: rest, l⟩ = .done x ⟨rest, l.advance x⟩ := rfl

/-- **The digits of a code point** are read one by one, whatever follows them. -/
theorem hexDigits_of_foldlM (place : Location) {digits : List Char} {code n : Nat}
    (h : digits.foldlM (fun code d => (hexValue? d).map (code * 16 + ·)) code = some n)
    (rest : List Char) (l : Location) :
    hexDigits place digits.length code ⟨digits ++ rest, l⟩ = .done n ⟨rest, l.after digits⟩ := by
  induction digits generalizing code l with
  | nil =>
    obtain rfl := Option.some.inj h
    rfl
  -- the number read so far is part of the recursion, so the induction is for all numbers
  | cons d digits ih =>
    rw [hexCode?_append, Option.bind_eq_some_iff] at h
    obtain ⟨v, hv, hrest⟩ := h
    rw [List.length_cons, hexDigits, List.cons_append, bind_of_done (next_cons ..), hv]
    exact ih hrest _

/-- A backslash that was read is completed by a letter of the table. -/
theorem escape_of_shortEscape? {y x : Char} (h : shortEscape? y = some x) (rest : List Char)
    (l : Location) : escape ⟨y :: rest, l⟩ = .done x ⟨rest, l.advance y⟩ := by
  -- otherwise the escape would be taken for a code point
  have hu : y ≠ 'u' := by
    rintro rfl
    exact nomatch h
  rw [escape, bind_of_done (here_apply _), bind_of_done (next_cons ..), if_neg hu, h]
  rfl

/-- A backslash that was read is completed by the four digits of a code point. -/
theorem escape_of_hexCode? {digits : List Char} {n : Nat} {x : Char} (hlength : digits.length = 4)
    (hdigits : hexCode? digits = some n) (hx : charOfCode? n = some x) (rest : List Char)
    (l : Location) :
    escape ⟨'u' :: (digits ++ rest), l⟩ = .done x ⟨rest, l.after ('u' :: digits)⟩ := by
  have hread := hexDigits_of_foldlM l hdigits rest (l.advance 'u')
  rw [hlength] at hread
  rw [escape, bind_of_done (here_apply _), bind_of_done (next_cons ..), if_pos rfl, bind_of_done hread, hx]
  rfl

/-- **What the parser makes of the text of a string.** Each round takes the text of one character, so
one round more than there are characters is enough. -/
theorem stringTail_of_encodes {quote : Char} (hquote : quote ≠ '\\') {text s : List Char}
    (h : Encodes quote text s) (rest read : List Char) (l : Location) {n : Nat}
    (hn : s.length < n) :
    stringTail quote n read ⟨text ++ quote :: rest, l⟩ =
      .done (read.reverse ++ s) ⟨rest, l.after (text ++ [quote])⟩ := by
  -- by the characters of the string; what was read before is a list in reverse that grows
  induction h generalizing read l n with
  | nil =>
    obtain ⟨n, rfl⟩ := Nat.exists_eq_add_of_lt hn
    rw [stringTail, List.nil_append, bind_of_done (next_cons ..), if_pos rfl, List.append_nil]
    rfl
  | @plain x t s hx hslash _ ih =>
    obtain ⟨n, rfl⟩ : ∃ m, n = m + 1 := ⟨n - 1, by omega⟩
    rw [stringTail, List.cons_append, bind_of_done (next_cons ..), if_neg hx, if_neg hslash,
      ih (x :: read) _ (Nat.lt_of_succ_lt_succ hn)]
    simp
  | @short x y t s hy _ ih =>
    obtain ⟨n, rfl⟩ : ∃ m, n = m + 1 := ⟨n - 1, by omega⟩
    rw [stringTail, List.cons_append, bind_of_done (next_cons ..), if_neg hquote.symm, if_pos rfl,
      List.cons_append, bind_of_done (escape_of_shortEscape? hy ..),
      ih (x :: read) _ (Nat.lt_of_succ_lt_succ hn)]
    simp
  | @code x digits t s n' hlength hdigits hx _ ih =>
    obtain ⟨n, rfl⟩ : ∃ m, n = m + 1 := ⟨n - 1, by omega⟩
    rw [stringTail, List.cons_append, bind_of_done (next_cons ..), if_neg hquote.symm, if_pos rfl,
      List.cons_append, List.append_assoc, bind_of_done (escape_of_hexCode? hlength hdigits hx ..),
      ih (x :: read) _ (Nat.lt_of_succ_lt_succ hn)]
    simp [Location.after_append]

end Parser

/-- **Every string has all its literals, and no others.** However the characters of a string are written
between two equal quotes, the parser reads the string and stops right after the closing quote, whatever
follows there. And whatever it reads as a string is a literal of that string, between the quote at which
it starts and the next one that is not escaped. -/
theorem string_literals :
    (∀ (quote : Char), quote = '"' ∨ quote = '\'' → ∀ (v : String) (ws : List (List Char)),
      List.Forall₂ (Writes quote) v.toList ws → ∀ (rest : List Char) (l : Location) (bound : Nat),
      v.length < bound →
        Parser.stringLiteral bound ⟨quote :: (ws.flatten ++ quote :: rest), l⟩ =
          .done v ⟨rest, l.after (quote :: (ws.flatten ++ [quote]))⟩) ∧
    ∀ (bound : Nat) (c d : Cursor) (v : String), Parser.stringLiteral bound c = .done v d →
      ∃ quote ws, List.Forall₂ (Writes quote) v.toList ws ∧
        c.rest = quote :: (ws.flatten ++ quote :: d.rest) := by
  constructor
  · intro quote hquote v ws hws rest l bound hbound
    have hslash : quote ≠ '\\' := by rcases hquote with rfl | rfl <;> decide
    -- a round for each character and one for the quote
    have htail := Parser.stringTail_of_encodes hslash (encodes_iff.mpr ⟨ws, hws, rfl⟩) rest []
      (l.advance quote) (n := bound) (by rwa [String.length_toList])
    rw [Parser.stringLiteral, Parser.bind_of_done (Parser.next_cons ..), Parser.bind_of_done htail]
    change Outcome.done (String.ofList ([].reverse ++ v.toList)) _ = _
    rw [List.reverse_nil, List.nil_append, String.ofList_toList]
    rfl
  · intro bound c d v h
    obtain ⟨quote, e, hnext, h⟩ := Parser.bind_done h
    obtain ⟨out, f, htail, h⟩ := Parser.bind_done h
    obtain ⟨rfl, rfl⟩ := Outcome.done.inj h
    have hopen : c.rest = quote :: e.rest := Parser.reads_next.ensures quote e hnext
    obtain ⟨text, s, hrest, hs, rfl⟩ := Parser.ensures_stringTail quote bound [] out f htail
    -- what the parser reads is a text of the grammar, which is cut into the texts of the characters
    obtain ⟨ws, hws, rfl⟩ := encodes_iff.mp hs
    refine ⟨quote, ws, ?_, ?_⟩
    · rwa [String.toList_ofList]
    · rw [hopen, hrest]

/-- A literal with an escaped quote, a raw line feed, a code point in both cases and a character that
has no escape. -/
theorem string_literals_mixed :
    List.Forall₂ (Writes '\'') "'\nû😀".toList [['\\', '\''], ['\n'], "\\u00Fb".toList, ['😀']] ∧
      Parser.stringLiteral 5 ⟨"'\\'\n\\u00Fb😀' == x".toList, {}⟩ =
        .done "'\nû😀" ⟨" == x".toList, ⟨1, 8⟩⟩ := by
  have hcode : List.Forall₂ IsHexDigit ['0', '0', 'F', 'b'] [0, 0, 15, 11] :=
    .cons (by decide) <| .cons (by decide) <| .cons (by decide) <| .cons (by decide) .nil
  have hws : List.Forall₂ (Writes '\'') "'\nû😀".toList
      [['\\', '\''], ['\n'], "\\u00Fb".toList, ['😀']] :=
    .cons (.short (by decide)) <| .cons (.plain (by decide) (by decide)) <|
      .cons (.code rfl hcode (by decide)) <| .cons (.plain (by decide) (by decide)) .nil
  exact ⟨hws, string_literals.1 '\'' (Or.inr rfl) _ _ hws " == x".toList {} 5 (by decide)⟩

end GraphQuery
