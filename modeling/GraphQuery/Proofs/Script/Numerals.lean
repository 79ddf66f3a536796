import GraphQuery.Proofs.Script.RoundTrip
import GraphQuery.Proofs.Script.Soundness

/-!
# The numbers of a script

A number in a script that was read is a numeral: a minus sign that may be missing, digits, a fraction
that may be missing and an exponent that may be missing, nothing else. For the tokens that a text spells
this is so by what a token is (`Spells.isSound`), and every number of a tree comes from a token of its
derivation (`Derives.numerals`, one case for each rule of the grammar). The other way round, every
numeral is a script of its own, and is read as one number.

## Main statements

* `numerals_of_parse`: the numbers of a script are numerals.
* `parse_numeral`: a numeral is read as the number that it is.
-/

namespace GraphQuery

namespace Expr

variable {L S : Type}

/-- The numbers in the expression are numerals. -/
def Numerals (e : Expr L S) : Prop := ∀ t, Part (.number t) e → IsNumeral t

/-- Whether the expression is a number. -/
def isNumber : Expr L S → Bool
  | .number _ => true
  | _ => false

/-- An expression that is no number has the numbers of its children. -/
theorem Numerals.of_children {e : Expr L S} (he : e.isNumber = false)
    (h : ∀ c ∈ e.children, c.Numerals) : e.Numerals := by
  intro t hpart
  cases hpart with
  | self => cases he
  | under hchild hpart => exact h _ hchild t hpart

/-- A number on its own has no other number in it. -/
theorem Numerals.of_isNumeral {t : String} (ht : IsNumeral t) : Numerals (.number t : Expr L S) := by
  intro t' hpart
  cases hpart with
  | self => exact ht
  | under hchild => cases hchild

end Expr

/-! ### What the parser reads -/

/-- The token is a numeral if it is a number. -/
def Token.IsSound : Token → Prop
  | .number t => IsNumeral t
  | _ => True

/-- The tokens that a text spells are sound: a number is spelled by a numeral and nothing else is. -/
theorem Spells.isSound {ts : List Token} {s r : List Char} (h : Spells ts s r) :
    ∀ x ∈ ts, x.IsSound := by
  induction h with
  | done => exact fun _ hx => absurd hx List.not_mem_nil
  | gap _ _ ih => exact ih
  | token hw _ ih =>
    refine List.forall_mem_cons.mpr ⟨?_, ih⟩
    cases hw with
    | number ht => exact ht
    | name | string | symbol => trivial

section Derivations

open Expr.Numerals

mutual

/-- **The numbers of an expression** are among its tokens. The induction is on the derivation: a rule
that is no number hands the tokens on to the rules below it, each of which has a part of them. -/
theorem Derives.numerals : ∀ {level : Level} {ts : List Token} {e : Expr Unit Unit},
    Derives level ts e → (∀ x ∈ ts, x.IsSound) → e.Numerals
  | _, _, _, .ofDisjunction h, hts | _, _, _, .ofConjunction h, hts | _, _, _, .ofComparison h, hts
  | _, _, _, .ofNegation h, hts | _, _, _, .ofAccess h, hts | _, _, _, .ofPrimary h, hts =>
    h.numerals hts
  | _, _, _, .number _, hts => of_isNumeral (hts _ List.mem_cons_self)
  | _, _, _, .null, _ | _, _, _, .bool _, _ | _, _, _, .string _, _ | _, _, _, .name _, _ =>
    of_children rfl fun _ h => absurd h List.not_mem_nil
  | _, _, _, .assign _ _ hv, hts => by
    simp only [List.forall_mem_cons] at hts
    refine of_children rfl (List.forall_mem_cons.mpr ⟨?_, List.forall_mem_singleton.mpr ?_⟩)
    · exact of_children rfl fun _ h => absurd h List.not_mem_nil
    · exact hv.numerals hts.2.2
  | _, _, _, .or hl hr, hts | _, _, _, .and hl hr, hts | _, _, _, .equality _ hl hr, hts => by
    simp only [List.forall_mem_append, List.forall_mem_cons] at hts
    exact of_children rfl (by simp [Expr.children, hl.numerals hts.1, hr.numerals hts.2.2])
  | _, _, _, .not h, hts => by
    simp only [List.forall_mem_cons] at hts
    exact of_children rfl (by simp [Expr.children, h.numerals hts.2])
  -- a selected name is in no child, only the expression before it
  | _, _, _, .select hb _, hts => by
    simp only [List.forall_mem_append] at hts
    exact of_children rfl (by simp [Expr.children, hb.numerals hts.1])
  | _, _, _, .index hb hi, hts => by
    simp only [List.forall_mem_append, List.forall_mem_cons] at hts
    exact of_children rfl (by simp [Expr.children, hb.numerals hts.1, hi.numerals hts.2.2.1])
  | _, _, _, .call hf has, hts => by
    simp only [List.forall_mem_append, List.forall_mem_cons] at hts
    exact of_children rfl (List.forall_mem_cons.mpr ⟨hf.numerals hts.1, has.numerals hts.2.2.1⟩)
  | _, _, _, .arrow _ hb _, hts => by
    simp only [List.forall_mem_cons] at hts
    exact of_children rfl (by simp [Expr.children, hb.numerals hts.2.2])
  | _, _, _, .arrowBlock _ hes, hts => by
    simp only [List.forall_mem_append, List.forall_mem_cons] at hts
    -- between the closure and its statements stands a block
    have hblock := of_children (e := .block _) rfl (hes.numerals hts.2.2.2.1)
    exact of_children rfl (by simp [Expr.children, hblock])
  | _, _, _, .block hes, hts => by
    simp only [List.forall_mem_append, List.forall_mem_cons] at hts
    have hblock := of_children (e := .block _) rfl (hes.numerals hts.2.1)
    exact of_children rfl (by simp [Expr.children, hblock])
  | _, _, _, .parenthesis h, hts => by
    simp only [List.forall_mem_append, List.forall_mem_cons] at hts
    exact h.numerals hts.2.1

/-- The numbers of the arguments of a call are among its tokens. -/
theorem DerivesArguments.numerals : ∀ {ts : List Token} {es : List (Expr Unit Unit)},
    DerivesArguments ts es → (∀ x ∈ ts, x.IsSound) → ∀ e ∈ es, e.Numerals
  | _, _, .nil, _ => fun _ h => absurd h List.not_mem_nil
  | _, _, .last h, hts => List.forall_mem_singleton.mpr (h.numerals hts)
  | _, _, .cons h hes, hts => by
    simp only [List.forall_mem_append, List.forall_mem_cons] at hts ⊢
    exact ⟨h.numerals hts.1, hes.numerals hts.2.2⟩

/-- The numbers of the statements of a block are among its tokens. -/
theorem DerivesStatements.numerals :
    ∀ {ts : List Token} {es : List (Expr Unit Unit)} {terminated : Bool},
      DerivesStatements ts es terminated → (∀ x ∈ ts, x.IsSound) → ∀ e ∈ es, e.Numerals
  | _, _, _, .nil, _ => fun _ h => absurd h List.not_mem_nil
  | _, _, _, .empty hes, hts => hes.numerals (List.forall_mem_cons.mp hts).2
  | _, _, _, .block hbody hes, hts => by
    simp only [List.forall_mem_append, List.forall_mem_cons] at hts ⊢
    -- a block among statements is one of them, with statements of its own
    exact ⟨of_children rfl (hbody.numerals hts.2.1), hes.numerals hts.2.2.2⟩
  | _, _, _, .ended h _ hes, hts => by
    simp only [List.forall_mem_append, List.forall_mem_cons] at hts ⊢
    exact ⟨h.numerals hts.1, hes.numerals hts.2.2⟩
  | _, _, _, .last h _, hts => List.forall_mem_singleton.mpr (h.numerals hts)

end

/-- The numbers of a script are among its tokens, also if the script is a bare expression. -/
theorem DerivesScript.numerals {ts : List Token} {e : Expr Unit Unit} (h : DerivesScript ts e)
    (hts : ∀ x ∈ ts, x.IsSound) : e.Numerals := by
  cases h with
  | bare hes => exact hes.numerals hts _ List.mem_cons_self
  | statements hes => exact of_children rfl (hes.numerals hts)

end Derivations

/-- **The numbers of a script** are numerals. -/
theorem numerals_of_parse {source : String} {tree : Tree} (h : parse source = .ok tree) :
    tree.Numerals := by
  obtain ⟨d, hscript⟩ := script_of_parse h
  obtain ⟨ts, hts, hderives⟩ := Parser.ensures_script _ tree d hscript
  exact fun t hpart => hderives.numerals hts.isSound t hpart.erase

/-- **A numeral is read** as the number that it is. -/
theorem parse_numeral {t : String} (ht : IsNumeral t) : parse t = .ok (.number t) := by
  have hprintable : (Expr.number t : Expr Unit Unit).PrintableScript :=
    .bare (.full (.right (.number ht))) fun h => h
  have hlength : (Cursor.start t).rest.length = t.length := String.length_toList
  obtain ⟨tree, d, hscript, hsimilar, -⟩ := Parser.yields_script (n := 2 * (t.length + 1))
    (c := Cursor.start t) hprintable rfl (Nat.le_of_eq (by rw [hlength]))
  -- a number has no location that the reader could add
  have htree : tree = .number t := by
    cases tree <;> cases hsimilar
    rfl
  rw [parse, hscript, htree]

end GraphQuery
