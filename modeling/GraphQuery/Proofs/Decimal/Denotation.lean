import Mathlib.Data.Nat.Digits.Defs
import Mathlib.Tactic.FieldSimp
import GraphQuery.Decimal.Numeral
import GraphQuery.Proofs.Script.Yields

/-!
# The value of a numeral

The exact number that a numeral stands for: the digits before the point and after it have their place
values, the exponent shifts the point, and a minus sign negates the whole. `Denotes` says so about the
parts of the text. The reader of the floating-point library, which is more lenient, takes the parts
off one after the other: it cuts a numeral where its parts end and comes to the same number, so a
numeral has one value only.

## Main statements

* `isNumeral_iff_denotes`: the numerals are the texts that denote a number.
* `Denotes.read?`: reading a numeral gives the number that it denotes.
* `IsNumeral.existsUnique_denotes`: a numeral denotes one number.
-/

namespace GraphQuery

open Decimal

/-! ### Values of the parts -/

/-- The number that digits stand for by their places, the most significant one first. -/
def placeValue (digits : List Char) : Nat := Nat.ofDigits 10 (digits.map digitValue).reverse

/-- The factor that a sign stands for. -/
def signFactor (sign : List Char) : Int := if sign = ['-'] then -1 else 1

/-- The exponent that a text denotes: none, or what stands behind the mark. -/
inductive DenotesExponent : List Char → Int → Prop where
  /-- There is no exponent. -/
  | missing : DenotesExponent [] 0
  /-- There is a mark, a sign that may be missing, and digits. -/
  | written {mark : Char} {sign digits : List Char} (hmark : mark = 'e' ∨ mark = 'E')
      (hsign : sign = [] ∨ sign = ['+'] ∨ sign = ['-']) (hdigits : IsDigits digits) :
      DenotesExponent (mark :: (sign ++ digits)) (signFactor sign * placeValue digits)

/-- **The exact value of a numeral.** The `n` digits of a fraction are worth their place value divided
by `10 ^ n`. -/
def Denotes (t : String) (q : ℚ) : Prop :=
  ∃ sign digits fraction exponent e, t.toList = sign ++ (digits ++ (fraction ++ exponent)) ∧
    (sign = [] ∨ sign = ['-']) ∧ IsDigits digits ∧ IsFraction fraction ∧
    DenotesExponent exponent e ∧
    q = signFactor sign *
      ((placeValue digits + placeValue fraction.tail / 10 ^ fraction.tail.length) * 10 ^ e)

/-- The exponents of numerals are those that denote one. -/
theorem isExponent_iff_denotes {text : List Char} :
    IsExponent text ↔ ∃ e, DenotesExponent text e := by
  constructor
  · rintro (rfl | ⟨mark, sign, digits, rfl, hmark, hsign, hdigits⟩)
    · exact ⟨0, .missing⟩
    · exact ⟨_, .written hmark hsign hdigits⟩
  · rintro ⟨_, _ | ⟨hmark, hsign, hdigits⟩⟩
    · exact Or.inl rfl
    · exact Or.inr ⟨_, _, _, rfl, hmark, hsign, hdigits⟩

/-- The numerals are the texts that denote a number. -/
theorem isNumeral_iff_denotes {t : String} : IsNumeral t ↔ ∃ q, Denotes t q := by
  constructor
  · rintro ⟨sign, digits, fraction, exponent, htext, hsign, hdigits, hfraction, hexponent⟩
    obtain ⟨e, he⟩ := isExponent_iff_denotes.mp hexponent
    exact ⟨_, sign, digits, fraction, exponent, e, htext, hsign, hdigits, hfraction, he, rfl⟩
  · rintro ⟨_, sign, digits, fraction, exponent, e, htext, hsign, hdigits, hfraction, he, -⟩
    exact ⟨sign, digits, fraction, exponent, htext, hsign, hdigits, hfraction,
      isExponent_iff_denotes.mpr ⟨e, he⟩⟩

/-- The reader of digits comes to their place value. -/
theorem digitsValue_eq_placeValue (digits : List Char) :
    digitsValue digits = placeValue digits := by
  rw [digitsValue, placeValue, List.foldl_eq_foldr_reverse, Nat.ofDigits_eq_foldr, ← List.map_reverse,
    List.foldr_map]
  refine congrArg (fun f => List.foldr f 0 digits.reverse) (funext fun c => funext fun n => ?_)
  rw [Nat.cast_id, Nat.mul_comm, Nat.add_comm]

/-- Digits behind others move these up by as many places. -/
theorem placeValue_append (whole fraction : List Char) :
    placeValue (whole ++ fraction) =
      placeValue whole * 10 ^ fraction.length + placeValue fraction := by
  rw [placeValue, List.map_append, List.reverse_append, Nat.ofDigits_append, List.length_reverse,
    List.length_map, Nat.mul_comm, Nat.add_comm]
  rfl

/-! ### Reading the parts -/

/-- Digits are cut off where they end. -/
theorem span_digits {digits rest : List Char} (hdigits : ∀ x ∈ digits, x.isDigit = true)
    (hrest : ∀ x ∈ rest.head?, x.isDigit = false) :
    (digits ++ rest).takeWhile Char.isDigit = digits ∧
      (digits ++ rest).dropWhile Char.isDigit = rest := by
  rw [List.takeWhile_append_of_pos hdigits, List.dropWhile_append_of_pos hdigits]
  cases rest with
  | nil => exact ⟨List.append_nil _, rfl⟩
  | cons x rest =>
    have hx : ¬ x.isDigit = true := Bool.eq_false_iff.mp (hrest x rfl)
    rw [List.takeWhile_cons_of_neg hx, List.dropWhile_cons_of_neg hx]
    exact ⟨List.append_nil _, rfl⟩

/-- An exponent does not start with a digit, so the digits before it end there. -/
theorem DenotesExponent.isDigit_head {text : List Char} {e : Int} (h : DenotesExponent text e) :
    ∀ x ∈ text.head?, x.isDigit = false := by
  intro x hx
  cases h with
  | missing => cases hx
  | written hmark =>
    obtain rfl := Option.some.inj hx
    rcases hmark with rfl | rfl <;> decide

/-- Digits are read as the number that they stand for. -/
theorem IsDigits.readDigits? {digits : List Char} (h : IsDigits digits) :
    readDigits? digits = some (placeValue digits) := by
  have hdigits : isDigits digits = true := by
    rw [isDigits, Bool.and_eq_true, Bool.not_eq_true', List.isEmpty_eq_false_iff, List.all_eq_true]
    exact h
  rw [Decimal.readDigits?, if_pos hdigits, digitsValue_eq_placeValue]

namespace Decimal.Numeral

/-- A sign that may be missing is split off digits. -/
theorem splitSign_append {sign digits : List Char} (rest : List Char)
    (hsign : sign = [] ∨ sign = ['+'] ∨ sign = ['-']) (hdigits : IsDigits digits) :
    splitSign (sign ++ (digits ++ rest)) = (decide (sign = ['-']), digits ++ rest) := by
  rcases hsign with rfl | rfl | rfl
  · obtain _ | ⟨x, digits⟩ := digits
    · exact absurd rfl hdigits.1
    · have hx : x.isDigit = true := hdigits.2 x List.mem_cons_self
      -- a sign would be taken off, but digits are none
      have hminus : x ≠ '-' := fun h => absurd (h ▸ hx) (by decide)
      have hplus : x ≠ '+' := fun h => absurd (h ▸ hx) (by decide)
      simp [splitSign, hminus, hplus]
  · rfl
  · rfl

/-- An exponent is read as the one that it denotes. -/
theorem readExponent?_eq {text : List Char} {e : Int} (h : DenotesExponent text e) :
    readExponent? text = some e := by
  cases h with
  | missing => rfl
  | @written mark sign digits hmark hsign hdigits =>
    have hsplit := splitSign_append [] hsign hdigits
    rw [List.append_nil] at hsplit
    rw [readExponent?, if_pos hmark, hsplit]
    dsimp only
    rw [hdigits.readDigits?, signFactor]
    by_cases hminus : sign = ['-'] <;> simp [hminus]

/-- A fraction is split off where its digits end. -/
theorem splitFraction_eq {fraction rest : List Char} (hfraction : IsFraction fraction)
    (hrest : ∀ x ∈ rest.head?, x.isDigit = false) (hpoint : rest.head? ≠ some '.') :
    splitFraction (fraction ++ rest) = (fraction.tail, rest) := by
  rcases hfraction with rfl | ⟨digits, rfl, hdigits⟩
  -- without a fraction, there must not be anything that looks like one
  · rw [List.nil_append, splitFraction.eq_def]
    split
    · exact absurd rfl hpoint
    · rfl
  · obtain ⟨htake, hdrop⟩ := span_digits hdigits.2 hrest
    rw [List.cons_append, splitFraction, htake, hdrop]
    rfl

/-- The parts of a numeral without its sign are read one after the other. -/
theorem readUnsigned?_eq {digits fraction exponent : List Char} {e : Int} (negative : Bool)
    (hdigits : IsDigits digits) (hfraction : IsFraction fraction)
    (hexponent : DenotesExponent exponent e) :
    readUnsigned? negative (digits ++ (fraction ++ exponent)) =
      some (.finite negative (placeValue (digits ++ fraction.tail)) (e - fraction.tail.length)) := by
  -- the digits end at a point, at a mark, or with the text
  have hhead : ∀ x ∈ (fraction ++ exponent).head?, x.isDigit = false := by
    rcases hfraction with rfl | ⟨_, rfl, -⟩
    · exact hexponent.isDigit_head
    · intro x hx
      obtain rfl := Option.some.inj hx
      decide
  have hpoint : exponent.head? ≠ some '.' := by
    intro h
    cases hexponent with
    | missing => cases h
    | written hmark =>
      obtain rfl := Option.some.inj h
      exact absurd hmark (by decide)
  obtain ⟨htake, hdrop⟩ := span_digits hdigits.2 hhead
  rw [readUnsigned?, htake, hdrop, splitFraction_eq hfraction hexponent.isDigit_head hpoint]
  dsimp only
  rw [List.isEmpty_eq_false_iff.mpr hdigits.1, Bool.false_and, if_neg Bool.false_ne_true,
    readExponent?_eq hexponent, Option.map_some, digitsValue_eq_placeValue]

/-- A text that starts with a digit is no word. -/
theorem map_toLower_ne {x c : Char} {text word : List Char} (hx : x.isDigit = true)
    (hc : c.isDigit = false) : (x :: text).map Char.toLower ≠ c :: word := by
  intro h
  -- digits come before the capital letters
  have hdigit : x.val ≤ '9'.val := by
    rw [Char.isDigit, Bool.and_eq_true] at hx
    exact of_decide_eq_true hx.2
  have hlower : x.toLower = x :=
    dif_neg fun hupper => absurd (UInt32.le_trans hupper.1 hdigit) (by decide)
  have hhead : x.toLower = c := (List.cons.inj h).1
  rw [hlower] at hhead
  rw [hhead, hc] at hx
  exact Bool.false_ne_true hx

/-- Texts that start with a digit are read as digits, and not as one of the words. -/
theorem read?_eq_readUnsigned? {t : String} {negative : Bool} {x : Char} {text : List Char}
    (hsplit : splitSign t.toList = (negative, x :: text)) (hx : x.isDigit = true) :
    read? t = readUnsigned? negative (x :: text) := by
  have hn : ∀ {word}, (x :: text).map Char.toLower ≠ 'n' :: word := map_toLower_ne hx (by decide)
  have hi : ∀ {word}, (x :: text).map Char.toLower ≠ 'i' :: word := map_toLower_ne hx (by decide)
  rw [read?, hsplit]
  dsimp only
  rw [if_neg hn, if_neg (not_or.mpr ⟨hi, hi⟩)]

end Decimal.Numeral

/-- **Reading a numeral** gives the number that it denotes. -/
theorem Denotes.read? {t : String} {q : ℚ} (h : Denotes t q) :
    ∃ negative digits e, Numeral.read? t = some (.finite negative digits e) ∧
      q = (if negative then -1 else 1) * (digits * 10 ^ e) := by
  obtain ⟨sign, digits, fraction, exponent, e, htext, hsign, hdigits, hfraction, hexponent, rfl⟩ := h
  have hsplit := Numeral.splitSign_append (fraction ++ exponent) (hsign.imp_right Or.inr) hdigits
  have hread := Numeral.readUnsigned?_eq (decide (sign = ['-'])) hdigits hfraction hexponent
  refine ⟨decide (sign = ['-']), placeValue (digits ++ fraction.tail), e - fraction.tail.length, ?_, ?_⟩
  · obtain _ | ⟨x, digits⟩ := digits
    · exact absurd rfl hdigits.1
    · rw [← htext] at hsplit
      rw [Numeral.read?_eq_readUnsigned? hsplit (hdigits.2 x List.mem_cons_self)]
      exact hread
  · -- the reader appends the digits of the fraction to the others, and lowers the exponent for them
    have hfactor : ((signFactor sign : Int) : ℚ) = if decide (sign = ['-']) then -1 else 1 := by
      unfold signFactor
      by_cases hminus : sign = ['-'] <;> simp [hminus]
    rw [hfactor, placeValue_append, zpow_sub₀ (by norm_num), zpow_natCast]
    push_cast
    field_simp

/-- **A numeral denotes one number.** -/
theorem IsNumeral.existsUnique_denotes {t : String} (h : IsNumeral t) : ∃! q, Denotes t q := by
  obtain ⟨q, hq⟩ := isNumeral_iff_denotes.mp h
  refine ⟨q, hq, fun q' hq' => ?_⟩
  obtain ⟨negative, digits, e, hread, hvalue⟩ := hq.read?
  obtain ⟨negative', digits', e', hread', hvalue'⟩ := hq'.read?
  -- two ways to cut the text are read in one way
  obtain ⟨rfl, rfl, rfl⟩ := Numeral.finite.inj (Option.some.inj (hread.symm.trans hread'))
  rw [hvalue, hvalue']

end GraphQuery
