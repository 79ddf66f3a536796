import GraphQuery.Proofs.Value.Truth

/-!
# Integers as text

A number is its text, and an integer is a number whose text is that of an integer. Here the two ways
are followed on which integers get into a script and out of it.

* A numeral of a script is an integer if it has neither a fraction nor an exponent. The reader of
  integers is more lenient, for it takes a plus sign as well, but no numeral has one.
* An integer of the host is written in decimal, and what is written is a numeral again.

On both ways the value is kept as long as it fits into 64 bits with a sign. The reader refuses all
other texts, and names them.

## Main statements

* `Decimal.readInteger?_eq_some_iff`: what the reader of integers accepts, and as which integer.
* `IsNumeral.readInteger?_iff`: of the numerals it accepts those without fraction and exponent.
* `denotes_toString`: the decimal text of an integer denotes the integer.
* `integers_exact`: integers of scripts and of the host survive as text, up to 64 bits.
-/

namespace GraphQuery

open Decimal

/-- A numeral without fraction and exponent. There may be leading zeros. -/
def IsInteger (t : String) : Prop :=
  ∃ sign digits, t.toList = sign ++ digits ∧ (sign = [] ∨ sign = ['-']) ∧ IsDigits digits

/-- The integer fits into 64 bits, one of which is for the sign. -/
def FitsInt64 (v : Int) : Prop := -2 ^ 63 ≤ v ∧ v ≤ 2 ^ 63 - 1

instance (v : Int) : Decidable (FitsInt64 v) := inferInstanceAs (Decidable (_ ∧ _))

/-! ### The reader of integers -/

namespace Decimal

/-- Digits are read as their place value, and nothing else is read. -/
theorem readDigits?_eq_some_iff {digits : List Char} {n : Nat} :
    readDigits? digits = some n ↔ IsDigits digits ∧ n = placeValue digits := by
  constructor
  · intro h
    unfold readDigits? at h
    split at h
    case isTrue hdigits =>
      rw [isDigits, Bool.and_eq_true, Bool.not_eq_true', List.isEmpty_eq_false_iff,
        List.all_eq_true] at hdigits
      exact ⟨hdigits, (Option.some.inj h).symm.trans (digitsValue_eq_placeValue digits)⟩
    case isFalse => exact absurd h (Option.some_ne_none n).symm
  · rintro ⟨hdigits, rfl⟩
    exact hdigits.readDigits?

/-- The reader of integers splits off the sign as the reader of numerals does. -/
theorem readInteger?_eq_splitSign (t : String) :
    readInteger? t = (readDigits? (Numeral.splitSign t.toList).2).map fun (n : Nat) =>
      if (Numeral.splitSign t.toList).1 then -(n : Int) else n := by
  unfold readInteger?
  split
  case h_1 digits htext =>
    rw [htext]
    change _ = (readDigits? digits).map fun n : Nat => -(n : Int)
    cases readDigits? digits <;> rfl
  case h_2 digits htext =>
    rw [htext]
    change _ = (readDigits? digits).map fun n : Nat => (n : Int)
    cases readDigits? digits <;> rfl
  case h_3 hminus hplus =>
    -- without a sign, all of the text has to be digits
    rw [Numeral.splitSign.eq_3 _ hminus hplus]
    cases readDigits? t.toList <;> rfl

/-- What is split off is a sign, or nothing. -/
theorem exists_sign (text : List Char) :
    ∃ sign, text = sign ++ (Numeral.splitSign text).2 ∧
      (sign = [] ∨ sign = ['+'] ∨ sign = ['-']) ∧
      (Numeral.splitSign text).1 = decide (sign = ['-']) := by
  unfold Numeral.splitSign
  split
  · exact ⟨['-'], rfl, Or.inr (Or.inr rfl), rfl⟩
  · exact ⟨['+'], rfl, Or.inr (Or.inl rfl), rfl⟩
  · exact ⟨[], rfl, Or.inl rfl, rfl⟩

/-- **What the reader of integers accepts**: digits, after a sign that may be missing. -/
theorem readInteger?_eq_some_iff {t : String} {v : Int} :
    readInteger? t = some v ↔ ∃ sign digits, t.toList = sign ++ digits ∧
      (sign = [] ∨ sign = ['+'] ∨ sign = ['-']) ∧ IsDigits digits ∧
      v = signFactor sign * placeValue digits := by
  have hfactor : ∀ (sign : List Char) (n : Nat),
      (if decide (sign = ['-']) then -(n : Int) else n) = signFactor sign * n := by
    intro sign n
    unfold signFactor
    by_cases hminus : sign = ['-'] <;> simp [hminus]
  rw [readInteger?_eq_splitSign, Option.map_eq_some_iff]
  constructor
  · rintro ⟨n, hread, rfl⟩
    obtain ⟨hdigits, rfl⟩ := readDigits?_eq_some_iff.mp hread
    obtain ⟨sign, htext, hsign, hminus⟩ := exists_sign t.toList
    exact ⟨sign, _, htext, hsign, hdigits, by rw [hminus, hfactor]⟩
  · rintro ⟨sign, digits, htext, hsign, hdigits, rfl⟩
    have hsplit := Numeral.splitSign_append [] hsign hdigits
    rw [List.append_nil, ← htext] at hsplit
    rw [hsplit]
    exact ⟨placeValue digits, hdigits.readDigits?, hfactor sign _⟩

/-- The range is checked after the text was read. -/
theorem readInt64?_eq_some_iff {t : String} {v : Int} :
    readInt64? t = some v ↔ readInteger? t = some v ∧ FitsInt64 v := by
  rw [readInt64?, Option.filter_eq_some_iff, Bool.and_eq_true, decide_eq_true_eq, decide_eq_true_eq]
  exact Iff.rfl

end Decimal

/-! ### Numerals -/

/-- Without fraction and exponent, what a numeral denotes is an integer. -/
theorem denotes_of_digits {t : String} {sign digits : List Char} (htext : t.toList = sign ++ digits)
    (hsign : sign = [] ∨ sign = ['-']) (hdigits : IsDigits digits) :
    Denotes t ((signFactor sign * placeValue digits : Int) : ℚ) := by
  refine ⟨sign, digits, [], [], 0, ?_, hsign, hdigits, Or.inl rfl, .missing, ?_⟩
  · rw [htext, List.nil_append, List.append_nil]
  · have hnil : placeValue [] = 0 := rfl
    simp [hnil]

/-- An integer is a numeral. -/
theorem IsInteger.isNumeral {t : String} (h : IsInteger t) : IsNumeral t := by
  obtain ⟨sign, digits, htext, hsign, hdigits⟩ := h
  exact isNumeral_iff_denotes.mpr ⟨_, denotes_of_digits htext hsign hdigits⟩

/-- A numeral does not start with a plus sign. -/
theorem IsNumeral.head?_ne_plus {t : String} (h : IsNumeral t) : t.toList.head? ≠ some '+' := by
  obtain ⟨sign, digits, fraction, exponent, htext, hsign, hdigits, -⟩ := h
  rw [htext]
  rcases hsign with rfl | rfl
  · obtain ⟨x, others, rfl⟩ := List.exists_cons_of_ne_nil hdigits.1
    have hx : x.isDigit = true := hdigits.2 x List.mem_cons_self
    rintro hplus
    obtain rfl : x = '+' := Option.some.inj hplus
    exact absurd hx (by decide)
  · exact fun hplus => absurd (Option.some.inj hplus) (by decide)

/-- **Of the numerals**, the reader of integers accepts those without fraction and exponent, and gives
the number that they denote. -/
theorem IsNumeral.readInteger?_iff {t : String} (ht : IsNumeral t) {v : Int} :
    readInteger? t = some v ↔ IsInteger t ∧ Denotes t v := by
  rw [readInteger?_eq_some_iff]
  constructor
  · rintro ⟨sign, digits, htext, hsign, hdigits, rfl⟩
    have hsign : sign = [] ∨ sign = ['-'] := by
      rcases hsign with h | rfl | h
      · exact Or.inl h
      · exact absurd (by rw [htext]; rfl) ht.head?_ne_plus
      · exact Or.inr h
    exact ⟨⟨sign, digits, htext, hsign, hdigits⟩, denotes_of_digits htext hsign hdigits⟩
  · rintro ⟨⟨sign, digits, htext, hsign, hdigits⟩, hv⟩
    refine ⟨sign, digits, htext, hsign.imp_right Or.inr, hdigits, ?_⟩
    -- a numeral denotes one number, and the digits give it
    have hunique := ht.existsUnique_denotes.unique hv (denotes_of_digits htext hsign hdigits)
    exact Int.cast_injective hunique

/-! ### Integers of the host -/

/-- An integer of the host, in one of the types that it has. -/
inductive HostInteger where
  /-- An integer of 32 bits with a sign. -/
  | int32 (n : Int32)
  /-- An integer of 64 bits with a sign. -/
  | int64 (n : Int64)
  /-- An integer of 32 bits without a sign. -/
  | uint32 (n : UInt32)
  /-- An integer of 64 bits without a sign. -/
  | uint64 (n : UInt64)
  /-- A size. -/
  | size (n : USize)

namespace HostInteger

/-- The integer itself. -/
def toInt : HostInteger → Int
  | .int32 n => n.toInt
  | .int64 n => n.toInt
  | .uint32 n => n.toNat
  | .uint64 n => n.toNat
  | .size n => n.toNat

/-- None of the types goes below the least integer of 64 bits. -/
theorem le_toInt (n : HostInteger) : -2 ^ 63 ≤ n.toInt := by
  have hnat : ∀ m : Nat, (-2 ^ 63 : Int) ≤ m := fun m => by omega
  cases n with
  | int32 n => exact Int.le_trans (by decide) n.le_toInt
  | int64 n => exact n.le_toInt
  | uint32 n => exact hnat n.toNat
  | uint64 n => exact hnat n.toNat
  -- sizes have 32 or 64 bits, which makes no difference below zero
  | size n => exact hnat n.toNat

end HostInteger

/-- The decimal text of an integer has a minus sign if the integer is negative. -/
theorem toList_toString (n : Int) :
    (toString n).toList = (if 0 ≤ n then [] else ['-']) ++ Nat.toDigits 10 n.natAbs := by
  rw [Int.toString_eq_repr, Int.repr_eq_if]
  split
  case isTrue h =>
    rw [Nat.toList_repr, List.nil_append]
    congr 1
    omega
  case isFalse h =>
    rw [String.toList_append, Nat.toList_repr]
    congr 2
    omega

/-- Decimal digits are digits, and there is at least one. -/
theorem isDigits_toDigits (n : Nat) : IsDigits (Nat.toDigits 10 n) :=
  ⟨Nat.toDigits_ne_nil, fun _ hx => Nat.isDigit_of_mem_toDigits (by decide) (by decide) hx⟩

/-- Decimal digits have the value that they were made of. -/
theorem placeValue_toDigits (n : Nat) : placeValue (Nat.toDigits 10 n) = n := by
  have hfold : (fun (m : Nat) (c : Char) => m * 10 + digitValue c) =
      fun m c => 10 * m + (c.toNat - '0'.toNat) := by
    funext m c
    rw [Nat.mul_comm]
    rfl
  calc placeValue (Nat.toDigits 10 n)
    _ = digitsValue (Nat.toDigits 10 n) := (digitsValue_eq_placeValue _).symm
    _ = Nat.ofDigitChars 10 (Nat.toDigits 10 n) 0 := by rw [digitsValue, hfold]; rfl
    _ = n := Nat.ofDigitChars_toDigits (by decide) (by decide)

/-- **The decimal text of an integer** denotes the integer, and has neither fraction nor exponent. -/
theorem denotes_toString (n : Int) : IsInteger (toString n) ∧ Denotes (toString n) n := by
  have hdigits : IsDigits (Nat.toDigits 10 n.natAbs) := isDigits_toDigits _
  have hsign : (if 0 ≤ n then [] else ['-']) = [] ∨ (if 0 ≤ n then [] else ['-']) = ['-'] := by
    split
    · exact Or.inl rfl
    · exact Or.inr rfl
  have hvalue : signFactor (if 0 ≤ n then [] else ['-']) *
      placeValue (Nat.toDigits 10 n.natAbs) = n := by
    rw [placeValue_toDigits, signFactor]
    split
    case isTrue h => simp [abs_of_nonneg h]
    case isFalse h => simp [abs_of_neg (not_le.mp h)]
  have hdenotes := denotes_of_digits (toList_toString n) hsign hdigits
  rw [hvalue] at hdenotes
  exact ⟨⟨_, _, toList_toString n, hsign, hdigits⟩, hdenotes⟩

/-! ### Values -/

/-- A text that is no integer of 64 bits is refused, and named. -/
theorem textToInt_eq_ok_iff {t : String} (ht : IsNumeral t) (v : Int) :
    Value.textToInt t = .ok v ↔ IsInteger t ∧ Denotes t v ∧ FitsInt64 v := by
  rw [← and_assoc, ← ht.readInteger?_iff, ← readInt64?_eq_some_iff, Value.textToInt]
  cases readInt64? t <;> simp

/-- What is refused is named. -/
theorem textToInt_eq_error {t : String} (h : ∀ v, Value.textToInt t ≠ .ok v) :
    Value.textToInt t = .error (.notANumber t) := by
  unfold Value.textToInt at h ⊢
  split
  case h_1 v hread =>
    rw [hread] at h
    exact absurd rfl (h v)
  case h_2 => rfl

/-- **Integers survive as text, up to 64 bits.** A number that stands in a script keeps its text when it
is evaluated, and it is an integer if and only if it has neither a fraction nor an exponent and what it
denotes fits into 64 bits; otherwise the refusal names its text. An integer of the host is made into a
number that is that integer again if and only if it is at most `2 ^ 63 - 1`, and the number as it is
displayed is a script whose value is the same number. -/
theorem integers_exact :
    (∀ (source : String) (tree : Tree) (t : String), parse source = .ok tree →
      Expr.Part (.number t) tree →
      (∀ (host : HostLibrary) (depth : Nat) (cx : Context) (s : State),
        evaluateWith host depth cx t s = some (.ok (.number t), s) ∧
        (Expr.number t).run host depth cx s = some (.ok (.number t), s)) ∧
      (∀ v, (Value.number t).toInt = .ok v ↔ IsInteger t ∧ Denotes t v ∧ FitsInt64 v) ∧
      ((¬ ∃ v : Int, IsInteger t ∧ Denotes t v ∧ FitsInt64 v) →
        (Value.number t).toInt = .error (.notANumber t))) ∧
    ∀ n : HostInteger,
      ((Value.ofInt n.toInt).toInt = .ok n.toInt ↔ n.toInt ≤ 2 ^ 63 - 1) ∧
      (¬ n.toInt ≤ 2 ^ 63 - 1 →
        (Value.ofInt n.toInt).toInt = .error (.notANumber (toString n.toInt))) ∧
      ∀ (host : HostLibrary) (depth : Nat) (cx : Context) (s : State),
        ∃ v, evaluateWith host depth cx ((Value.ofInt n.toInt).display cx.graphs) s =
            some (.ok v, s) ∧
          v.same cx.graphs (.ofInt n.toInt) = true := by
  constructor
  · intro source tree t hparse hpart
    have ht : IsNumeral t := numerals_of_parse hparse t hpart
    refine ⟨fun host depth cx s => ⟨evaluateWith_numeral ht host depth cx s, rfl⟩, ?_, ?_⟩
    · exact textToInt_eq_ok_iff ht
    · intro hnone
      exact textToInt_eq_error fun v hv => hnone ⟨v, (textToInt_eq_ok_iff ht v).mp hv⟩
  · intro n
    obtain ⟨hinteger, hdenotes⟩ := denotes_toString n.toInt
    have ht : IsNumeral (toString n.toInt) := hinteger.isNumeral
    have hok : ∀ v, (Value.ofInt n.toInt).toInt = .ok v ↔ v = n.toInt ∧ n.toInt ≤ 2 ^ 63 - 1 := by
      intro v
      rw [Value.ofInt, Value.toInt, textToInt_eq_ok_iff ht]
      constructor
      · rintro ⟨-, hv, hfits⟩
        obtain rfl : v = n.toInt := Int.cast_injective (ht.existsUnique_denotes.unique hv hdenotes)
        exact ⟨rfl, hfits.2⟩
      -- no type goes below the range, so only its upper end is left to check
      · rintro ⟨rfl, hle⟩
        exact ⟨hinteger, hdenotes, n.le_toInt, hle⟩
    refine ⟨?_, ?_, ?_⟩
    · exact (hok _).trans (and_iff_right rfl)
    · intro hlarge
      exact textToInt_eq_error fun v hv => hlarge ((hok v).mp hv).2
    · intro host depth cx s
      refine ⟨.number (toString n.toInt), evaluateWith_numeral ht host depth cx s, ?_⟩
      exact beq_self_eq_true (toString n.toInt)

/-- The least integer of 64 bits is read in spite of a leading zero, and one more than the greatest is
refused. -/
theorem integers_exact_limits :
    parse "-09223372036854775808" = .ok (.number "-09223372036854775808") ∧
      (Value.number "-09223372036854775808").toInt = .ok (-2 ^ 63) ∧
      (Value.ofInt (HostInteger.uint64 9223372036854775808).toInt).toInt =
        .error (.notANumber "9223372036854775808") := by
  have htext : "-09223372036854775808".toList = ['-'] ++ "09223372036854775808".toList := rfl
  have hdigits : IsDigits "09223372036854775808".toList := by decide
  have hvalue : signFactor ['-'] * placeValue "09223372036854775808".toList = -2 ^ 63 := by decide
  have hdenotes := denotes_of_digits htext (Or.inr rfl) hdigits
  rw [hvalue] at hdenotes
  have hinteger : IsInteger "-09223372036854775808" := ⟨_, _, htext, Or.inr rfl, hdigits⟩
  have hparse := parse_numeral hinteger.isNumeral
  obtain ⟨-, hread, -⟩ := integers_exact.1 _ _ _ hparse .self
  obtain ⟨-, hrefused, -⟩ := integers_exact.2 (.uint64 9223372036854775808)
  refine ⟨hparse, (hread _).mpr ⟨hinteger, hdenotes, by decide⟩, ?_⟩
  exact hrefused (by decide)

end GraphQuery
