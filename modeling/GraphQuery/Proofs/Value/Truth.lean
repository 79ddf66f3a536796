import GraphQuery.Proofs.Decimal.Denotation
import GraphQuery.Proofs.Decimal.Underflow
import GraphQuery.Proofs.Eval.Concatenation
import GraphQuery.Proofs.Script.Numerals

/-!
# Which numbers are true

A number is kept as it was written, and rounded to floating point only where its truth is asked for.
A numeral of a script can always be rounded, also one whose value is out of range, so a number that
was read is either true or false. It is false if it is zero, and also if it is so small that it goes to
zero when it is rounded: at most half of the least positive number, which is `2 ^ -1074`.

## Main statements

* `number_truth`: what decides over the truth of a number in a script.
* `number_truth_underflow`: a number that is not zero, and not true.
-/

namespace GraphQuery

/-- **The truth of a numeral** is settled by its exact value. -/
theorem Denotes.numberToBool {t : String} {q : ℚ} (h : Denotes t q) :
    Value.numberToBool t = .ok (decide ((2 : ℚ) ^ (-1075 : Int) < |q|)) := by
  obtain ⟨negative, digits, e, hread, rfl⟩ := h.read?
  -- the sign does not count
  have habs : |(if negative then -1 else 1) * (digits * 10 ^ e : ℚ)| = digits * 10 ^ e := by
    have hnonneg : (0 : ℚ) ≤ digits * 10 ^ e := by positivity
    cases negative <;> simp [abs_of_nonneg hnonneg]
  have hzero : (Decimal.Binary64.ofNumeral (.finite negative digits e)).isZero =
      decide ((digits * 10 ^ e : ℚ) ≤ 2 ^ (-1075 : Int)) :=
    Bool.eq_iff_iff.mpr ((Decimal.Binary64.isZero_ofNumeral_iff ..).trans decide_eq_true_iff.symm)
  rw [Value.numberToBool, Decimal.Binary64.read?, hread, Option.map_some, habs]
  simp only [hzero, ← decide_not, not_le]

/-- A numeral is a script of its own, whose value is the number. -/
theorem evaluateWith_numeral {t : String} (ht : IsNumeral t) (host : HostLibrary) (depth : Nat)
    (cx : Context) (s : State) : evaluateWith host depth cx t s = some (.ok (.number t), s) := by
  rw [evaluateWith_of_parse (parse_numeral ht)]
  rfl

/-- **The truth of a number in a script.** Its text denotes one number; evaluating it, as a script of
its own or where it stands, keeps the text; and asking for its truth does not fail: it is true if and
only if it is more than half of the least positive floating-point number away from zero. -/
theorem number_truth {source : String} {tree : Tree} (hparse : parse source = .ok tree) {t : String}
    (hpart : Expr.Part (.number t) tree) :
    (∃! q, Denotes t q) ∧ ∀ q, Denotes t q →
      ∀ (host : HostLibrary) (depth : Nat) (cx : Context) (s : State),
        evaluateWith host depth cx t s = some (.ok (.number t), s) ∧
        (Expr.number t).run host depth cx s = some (.ok (.number t), s) ∧
        (Value.number t).toBool cx.graphs = .ok (decide ((2 : ℚ) ^ (-1075 : Int) < |q|)) := by
  have ht : IsNumeral t := numerals_of_parse hparse t hpart
  refine ⟨ht.existsUnique_denotes, fun q hq host depth cx s => ⟨?_, rfl, ?_⟩⟩
  · exact evaluateWith_numeral ht host depth cx s
  · exact hq.numberToBool

/-- A number too great for floating point is true. -/
theorem number_truth_overflow :
    parse "-0.5E+400" = .ok (.number "-0.5E+400") ∧ Denotes "-0.5E+400" (-(5 / 10 * 10 ^ 400)) ∧
    ∀ (host : HostLibrary) (cx : Context) (s : State),
      evaluateWith host 0 cx "-0.5E+400" s = some (.ok (.number "-0.5E+400"), s) ∧
      (Value.number "-0.5E+400").toBool cx.graphs = .ok true := by
  have hexponent : DenotesExponent ['E', '+', '4', '0', '0'] 400 :=
    @DenotesExponent.written 'E' ['+'] ['4', '0', '0'] (by decide) (by decide) (by decide)
  have hdenotes : Denotes "-0.5E+400" (-(5 / 10 * 10 ^ 400)) := by
    refine ⟨['-'], ['0'], ['.', '5'], _, 400, rfl, Or.inr rfl, by decide,
      Or.inr ⟨['5'], rfl, by decide⟩, hexponent, ?_⟩
    have hzero : placeValue ['0'] = 0 := by decide
    have hfive : placeValue ['5'] = 5 := by decide
    simp [signFactor, hzero, hfive]
  have hparse : parse "-0.5E+400" = .ok (.number "-0.5E+400") :=
    parse_numeral (isNumeral_iff_denotes.mpr ⟨_, hdenotes⟩)
  have hlarge : (2 : ℚ) ^ (-1075 : Int) < |-(5 / 10 * 10 ^ 400)| := by
    have hpow : (10 : ℚ) ≤ 10 ^ 400 := le_self_pow₀ (by norm_num) (by decide)
    calc (2 : ℚ) ^ (-1075 : Int)
      _ < 1 := zpow_lt_one_of_neg₀ one_lt_two (by decide)
      _ ≤ 5 / 10 * 10 := by norm_num
      _ ≤ 5 / 10 * 10 ^ 400 := mul_le_mul_of_nonneg_left hpow (by norm_num)
      _ = |-(5 / 10 * 10 ^ 400)| := by rw [abs_neg, abs_of_nonneg (by positivity)]
  refine ⟨hparse, hdenotes, fun host cx s => ?_⟩
  obtain ⟨heval, -, htruth⟩ := (number_truth hparse .self).2 _ hdenotes host 0 cx s
  exact ⟨heval, htruth.trans (congrArg Except.ok (decide_eq_true hlarge))⟩

/-- A number so small that it rounds to zero is not zero, but false. -/
theorem number_truth_underflow :
    parse "1e-400" = .ok (.number "1e-400") ∧ Denotes "1e-400" (10 ^ (-400 : Int)) ∧
      (10 : ℚ) ^ (-400 : Int) ≠ 0 ∧
      ∀ gs, (Value.number "1e-400").toBool gs = .ok false := by
  have hexponent : DenotesExponent ['e', '-', '4', '0', '0'] (-400) :=
    @DenotesExponent.written 'e' ['-'] ['4', '0', '0'] (by decide) (by decide) (by decide)
  have hdenotes : Denotes "1e-400" (10 ^ (-400 : Int)) := by
    refine ⟨[], ['1'], [], _, -400, rfl, Or.inl rfl, by decide, Or.inl rfl, hexponent, ?_⟩
    have hone : placeValue ['1'] = 1 := by decide
    have hnil : placeValue [] = 0 := by decide
    simp [signFactor, hone, hnil]
  refine ⟨parse_numeral (isNumeral_iff_denotes.mpr ⟨_, hdenotes⟩), hdenotes, by positivity,
    fun gs => ?_⟩
  -- it is too small by its digits alone, so no power of ten is computed
  have htruth : Value.numberToBool "1e-400" = .ok false := by decide +kernel
  exact htruth

end GraphQuery
