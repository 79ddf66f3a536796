import Mathlib.Tactic.ByContra
import GraphQuery.Proofs.Script.Yields

/-!
# White space and comments

Between two tokens there may be any number of blank characters and comments. `Trivia` says of a text
that it is made of these alone, where each comment comes with the line feed that ends it. Only at the
end of a script a comment may go without one, so what separates a token from the one before it
depends on what follows: `Gap s r` says that `s` is `r` with such a text in front.

The parsers skip gaps by `Cursor.skipBlanks`, and `unblanked` is what this leaves. It skips as much as
there is (`unblanked_append`), and nothing else (`gap_unblanked`).

## Main statements

* `unblanked_append`: trivia in front of a text do not matter.
* `gap_unblanked`: what is skipped is a gap.
* `settled_unblanked`: after it no trivia stand.
-/

namespace GraphQuery

/-- White space and comments that end with their line. -/
inductive Trivia : List Char → Prop where
  | nil : Trivia []
  | blank {x : Char} {g : List Char} (hx : isBlank x = true) (hg : Trivia g) : Trivia (x :: g)
  | comment {body g : List Char} (hbody : '\n' ∉ body) (hg : Trivia g) :
      Trivia ('/' :: '/' :: (body ++ '\n' :: g))

/-- The text `s` is the text `r` after white space and comments. The last comment may run to the end
of the text. -/
def Gap (s r : List Char) : Prop :=
  (∃ g, Trivia g ∧ s = g ++ r) ∨
    r = [] ∧ ∃ g body, Trivia g ∧ '\n' ∉ body ∧ s = g ++ '/' :: '/' :: body

/-- Neither a blank nor a comment comes first. -/
def Settled (s : List Char) : Prop :=
  (∀ x ∈ s.head?, isBlank x = false) ∧ ¬ ['/', '/'] <+: s

theorem settled_nil : Settled [] := by
  refine ⟨fun _ h => absurd h (Option.not_mem_none _), fun h => ?_⟩
  exact nomatch List.prefix_nil.mp h

/-- A solid character settles what it starts. -/
theorem settled_cons {x : Char} (hx : Solid x) (s : List Char) : Settled (x :: s) := by
  refine ⟨fun y hy => ?_, fun h => hx.2 (List.cons_prefix_cons.mp h).1.symm⟩
  obtain rfl : x = y := Option.some.inj hy
  exact hx.1

/-! ### Trivia -/

theorem isBlank_ne_slash {x : Char} (hx : isBlank x = true) : x ≠ '/' := by
  rintro rfl
  exact absurd hx (by decide)

/-- Trivia that are not empty start with a blank or with two slashes. -/
theorem Trivia.head {g : List Char} (hg : Trivia g) (hne : g ≠ []) :
    (∃ x t, g = x :: t ∧ isBlank x = true) ∨ ['/', '/'] <+: g := by
  cases hg with
  | nil => exact absurd rfl hne
  | blank hx _ => exact Or.inl ⟨_, _, rfl, hx⟩
  | comment => exact Or.inr ⟨_, rfl⟩

/-- Trivia that are not empty start with a character that is not solid. -/
theorem Trivia.not_solid {g : List Char} (hg : Trivia g) (hne : g ≠ []) :
    ∃ x t, g = x :: t ∧ ¬ Solid x := by
  rcases hg.head hne with ⟨x, t, rfl, hx⟩ | ⟨t, rfl⟩
  · exact ⟨x, t, rfl, fun h => absurd hx (by rw [h.1]; exact Bool.false_ne_true)⟩
  · exact ⟨'/', _, rfl, fun h => h.2 rfl⟩

/-- Before a settled text there are no trivia that it could be part of. -/
theorem Trivia.eq_nil_of_settled {g s : List Char} (hg : Trivia g) (hs : Settled (g ++ s)) :
    g = [] := by
  by_contra hne
  -- both ways in which trivia start are excluded by what comes first in a settled text
  rcases hg.head hne with ⟨x, t, rfl, hx⟩ | ⟨t, rfl⟩
  · have hx' := hs.1 x rfl
    rw [hx] at hx'
    exact absurd hx' (by decide)
  · exact hs.2 ⟨t ++ s, rfl⟩

/-! ### Skipping -/

/-- A blank is skipped. -/
theorem unblanked_blank {x : Char} (hx : isBlank x = true) (s : List Char) :
    unblanked (x :: s) = unblanked s := by
  unfold unblanked
  rw [Cursor.skipTrivia, if_neg fun h => isBlank_ne_slash hx h.1, if_pos hx]
  exact skipTrivia_rest false s _ _

/-- A comment is left at the line feed after it. -/
theorem skipTrivia_comment {body : List Char} (hbody : '\n' ∉ body) (s : List Char)
    (l : Location) :
    (Cursor.skipTrivia true (body ++ '\n' :: s) l).rest = unblanked s := by
  -- on the body: no character of it is the line feed, so the comment goes on
  induction body generalizing l with
  | nil => exact skipTrivia_rest false s _ _
  | cons x body ih =>
    have hx : x ≠ '\n' := fun h => hbody (h ▸ List.mem_cons_self)
    have hdecide : decide (x ≠ '\n') = true := decide_eq_true hx
    rw [List.cons_append, Cursor.skipTrivia, hdecide]
    exact ih (fun h => hbody (List.mem_cons_of_mem x h)) _

/-- Without a line feed a comment takes in the rest of the text. -/
theorem skipTrivia_lastComment {body : List Char} (hbody : '\n' ∉ body) (l : Location) :
    (Cursor.skipTrivia true body l).rest = [] := by
  induction body generalizing l with
  | nil => rfl
  | cons x body ih =>
    have hx : x ≠ '\n' := fun h => hbody (h ▸ List.mem_cons_self)
    have hdecide : decide (x ≠ '\n') = true := decide_eq_true hx
    rw [Cursor.skipTrivia, hdecide]
    exact ih (fun h => hbody (List.mem_cons_of_mem x h)) _

/-- Two slashes start a comment, and they are skipped with it. -/
theorem unblanked_slashes (s : List Char) :
    unblanked ('/' :: '/' :: s) = (Cursor.skipTrivia true s {}).rest := by
  have hdecide : decide ('/' ≠ '\n') = true := by decide
  unfold unblanked
  rw [Cursor.skipTrivia, if_pos ⟨rfl, rfl⟩, Cursor.skipTrivia, hdecide]
  exact skipTrivia_rest true s _ _

/-- Where nothing is to be skipped, nothing is. -/
theorem unblanked_settled {s : List Char} (hs : Settled s) : unblanked s = s := by
  cases s with
  | nil => rfl
  | cons x s =>
    have hx : isBlank x = false := hs.1 x rfl
    have hcomment : ¬ (x = '/' ∧ s.head? = some '/') := by
      rintro ⟨rfl, hhead⟩
      obtain ⟨t, rfl⟩ := List.head?_eq_some_iff.mp hhead
      exact hs.2 ⟨t, rfl⟩
    unfold unblanked
    rw [Cursor.skipTrivia, if_neg hcomment, if_neg (by rw [hx]; exact Bool.false_ne_true)]

/-- **Trivia in front of a text do not matter.** -/
theorem unblanked_append {g : List Char} (hg : Trivia g) (s : List Char) :
    unblanked (g ++ s) = unblanked s := by
  -- one case for each way to go on with trivia; a comment takes its line feed with it
  induction hg with
  | nil => rfl
  | blank hx _ ih => rw [List.cons_append, unblanked_blank hx, ih]
  | @comment body g hbody _ ih =>
    have htext : '/' :: '/' :: (body ++ '\n' :: g) ++ s =
        '/' :: '/' :: (body ++ '\n' :: (g ++ s)) := by simp
    rw [htext, unblanked_slashes, skipTrivia_comment hbody, ih]

/-! ### Gaps -/

theorem Gap.refl (s : List Char) : Gap s s := Or.inl ⟨[], .nil, rfl⟩

theorem Gap.blank {x : Char} {s r : List Char} (hx : isBlank x = true) (h : Gap s r) :
    Gap (x :: s) r := by
  rcases h with ⟨g, hg, rfl⟩ | ⟨rfl, g, body, hg, hbody, rfl⟩
  · exact Or.inl ⟨x :: g, .blank hx hg, rfl⟩
  · exact Or.inr ⟨rfl, x :: g, body, .blank hx hg, hbody, rfl⟩

theorem Gap.comment {body s r : List Char} (hbody : '\n' ∉ body) (h : Gap s r) :
    Gap ('/' :: '/' :: (body ++ '\n' :: s)) r := by
  rcases h with ⟨g, hg, rfl⟩ | ⟨rfl, g, last, hg, hlast, rfl⟩
  · exact Or.inl ⟨_, .comment hbody hg, by simp⟩
  · exact Or.inr ⟨rfl, _, last, .comment hbody hg, hlast, by simp⟩

/-- A settled text has no gap in front of it. -/
theorem Gap.eq_of_settled {s r : List Char} (h : Gap s r) (hs : Settled s) : s = r := by
  rcases h with ⟨g, hg, rfl⟩ | ⟨-, g, body, hg, -, rfl⟩
  · rw [hg.eq_nil_of_settled hs, List.nil_append]
  -- the comment at the end of the text would be the first thing in it
  · rw [hg.eq_nil_of_settled hs] at hs
    exact absurd ⟨body, rfl⟩ hs.2

/-- A text has a first line feed or none. -/
theorem line_cases (s : List Char) :
    '\n' ∉ s ∨ ∃ body rest, s = body ++ '\n' :: rest ∧ '\n' ∉ body := by
  by_cases h : '\n' ∈ s
  · obtain ⟨body, rest, hs, hbody⟩ := List.eq_append_cons_of_mem h
    exact Or.inr ⟨body, rest, hs, hbody⟩
  · exact Or.inl h

/-- **What is skipped is a gap, and no trivia come after it.** -/
theorem gap_settled_unblanked (s : List Char) : Gap s (unblanked s) ∧ Settled (unblanked s) := by
  -- a comment is skipped at once, so the induction is on the length of what is left
  induction hn : s.length using Nat.strongRecOn generalizing s with
  | ind n ih =>
    by_cases hs : Settled s
    · rw [unblanked_settled hs]
      exact ⟨.refl s, hs⟩
    by_cases hcomment : ['/', '/'] <+: s
    · obtain ⟨t, rfl⟩ := hcomment
      have hskip : unblanked (['/', '/'] ++ t) = (Cursor.skipTrivia true t {}).rest :=
        unblanked_slashes t
      rw [hskip]
      rcases line_cases t with hlast | ⟨body, rest, rfl, hbody⟩
      · rw [skipTrivia_lastComment hlast]
        exact ⟨Or.inr ⟨rfl, [], t, .nil, hlast, rfl⟩, settled_nil⟩
      · rw [skipTrivia_comment hbody]
        have hlt : rest.length < n := by simp at hn; omega
        obtain ⟨hgap, hsettled⟩ := ih rest.length hlt rest rfl
        exact ⟨hgap.comment hbody, hsettled⟩
    · -- what is not settled for another reason starts with a blank
      obtain ⟨x, t, rfl, hx⟩ : ∃ x t, s = x :: t ∧ isBlank x = true := by
        cases s with
        | nil => exact absurd settled_nil hs
        | cons x t =>
          refine ⟨x, t, rfl, ?_⟩
          by_contra hx
          refine hs ⟨fun y hy => ?_, hcomment⟩
          obtain rfl : x = y := Option.some.inj hy
          exact Bool.eq_false_iff.mpr hx
      have hlt : t.length < n := by simp at hn; omega
      obtain ⟨hgap, hsettled⟩ := ih t.length hlt t rfl
      rw [unblanked_blank hx]
      exact ⟨hgap.blank hx, hsettled⟩

/-- What is skipped is a gap. -/
theorem gap_unblanked (s : List Char) : Gap s (unblanked s) := (gap_settled_unblanked s).1

/-- What is left after skipping is settled. -/
theorem settled_unblanked (s : List Char) : Settled (unblanked s) := (gap_settled_unblanked s).2

/-! ### The look-ahead for assignments -/

/-- The length of the assignment operator that a text starts with. -/
def assignOperator? (s : List Char) : Option Nat :=
  match s with
  | ':' :: '=' :: _ => some 2
  | '=' :: '=' :: _ => none
  | '=' :: _ => some 1
  | _ => none

/-- The look-ahead passes a name and white space, but no comment. -/
theorem assignmentAhead_eq {x : Char} (hx : isNameStart x = true) (s : List Char) :
    assignmentAhead (x :: s) =
      assignOperator? ((s.dropWhile isNamePart).dropWhile isBlank) := by
  rw [assignmentAhead, if_pos hx]
  rfl

/-- **An operator that is seen** is one of the two, and stands at the front of the text. -/
theorem assignOperator?_eq_some {s : List Char} {width : Nat}
    (h : assignOperator? s = some width) :
    ∃ op, (op = "=" ∨ op = ":=") ∧ op.length = width ∧ s = op.toList ++ s.drop width ∧
      Settled s := by
  unfold assignOperator? at h
  split at h
  · obtain rfl := Option.some.inj h
    exact ⟨":=", Or.inr rfl, rfl, rfl, settled_cons (by decide) _⟩
  · exact nomatch h
  · obtain rfl := Option.some.inj h
    exact ⟨"=", Or.inl rfl, rfl, rfl, settled_cons (by decide) _⟩
  · exact nomatch h

/-- After a name, only white space decides what the look-ahead sees. -/
theorem assignmentAhead_append {x : String} (hx : IsName x) {s : List Char}
    (hend : ∀ y ∈ s.head?, isNamePart y = false) :
    assignmentAhead (x.toList ++ s) = assignOperator? (s.dropWhile isBlank) := by
  obtain ⟨first, others, hx, hfirst, hothers⟩ := hx
  have hstop : s.dropWhile isNamePart = s := by
    cases s with
    | nil => rfl
    | cons y s => rw [List.dropWhile_cons, hend y rfl, if_neg Bool.false_ne_true]
  rw [hx, List.cons_append, assignmentAhead_eq hfirst, List.dropWhile_append_of_pos hothers, hstop]

/-- White space alone is trivia. -/
theorem trivia_takeWhile (s : List Char) : Trivia (s.takeWhile isBlank) := by
  induction s with
  | nil => exact .nil
  | cons x s ih =>
    rw [List.takeWhile_cons]
    split
    case isTrue hx => exact .blank hx ih
    case isFalse => exact .nil

/-- An operator that the look-ahead sees comes right after the gap. -/
theorem unblanked_of_assignOperator? {s : List Char} {width : Nat}
    (h : assignOperator? (s.dropWhile isBlank) = some width) :
    unblanked s = s.dropWhile isBlank := by
  obtain ⟨-, -, -, -, hsettled⟩ := assignOperator?_eq_some h
  -- the white space is skipped as trivia, and the operator settles the rest
  conv_lhs => rw [← List.takeWhile_append_dropWhile (p := isBlank) (l := s)]
  rw [unblanked_append (trivia_takeWhile s), unblanked_settled hsettled]

end GraphQuery
