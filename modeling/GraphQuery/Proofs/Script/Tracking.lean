import GraphQuery.Proofs.Script.Accepts
import GraphQuery.Proofs.Script.Lockstep

/-!
# The grammar in lockstep

Two texts that are in lockstep give the same trees, up to places. As elsewhere, the levels of the
grammar are treated one by one, with what they nest as a parameter, and the recursion is closed at the
end.

A parser often looks at the next character before it reads an expression. There the second text has
to start in the same way, and this follows from the first run being done: an expression starts with
one of few characters (`Opens`), and these are the same in both texts.

## Main statements

* `follows_nested`: expressions and blocks, for all bounds of both runs.
* `follows_statementsUpTo`: statements, up to where the first text is closed. The second text may go
  on from there.
-/

namespace GraphQuery

namespace Parser

/-! ### First characters -/

/-- The characters that an expression starts with. -/
def Opens (x : Char) : Prop :=
  (x = '"' ∨ x = '\'') ∨ x ∈ ['!', '(', '{', '-'] ∨ x.isDigit = true ∨ isNameStart x = true

/-- The parser is done only where an expression starts. -/
def Opening (p : Parser Tree) : Prop :=
  ∀ c, Ensures p c fun _ _ => ∃ x t, c.rest = x :: t ∧ Opens x

/-- A primary is read only where an expression starts. -/
theorem opening_primary (ex : Parser Tree) (bl : Parser (List Tree)) (bound : Nat) :
    Opening (primary ex bl bound) := by
  intro c
  unfold primary
  refine reads_peek.ensures.bind fun x d hd => ?_
  obtain ⟨hx, rfl⟩ := hd
  -- each branch knows the first character, and the last one is an error
  obtain ⟨t, ht⟩ := List.head?_eq_some_iff.mp hx
  split
  case isTrue h => exact fun _ _ _ => ⟨x, t, ht, Or.inl h⟩
  case isFalse =>
  split
  case isTrue h => exact fun _ _ _ => ⟨x, t, ht, Or.inr (Or.inl (by rw [h]; decide))⟩
  case isFalse =>
  split
  case isTrue h => exact fun _ _ _ => ⟨x, t, ht, Or.inr (Or.inl (by rw [h]; decide))⟩
  case isFalse =>
  split
  case isTrue h => exact fun _ _ _ => ⟨x, t, ht, Or.inr (Or.inr (Or.inl h))⟩
  case isFalse =>
  refine reads_cursor.ensures.bind fun _ e he => ?_
  split
  case isTrue h => exact fun _ _ _ => ⟨x, t, ht, Or.inr (Or.inl (by rw [h.1]; decide))⟩
  case isFalse =>
  split
  case isTrue h => exact fun _ _ _ => ⟨x, t, ht, Or.inr (Or.inr (Or.inr h))⟩
  case isFalse => exact reads_here.ensures.bind fun _ _ _ => ensures_fail

/-- Negations of such a parser are read only where an expression starts. -/
theorem Opening.negation {operand : Parser Tree} (h : Opening operand) (n : Nat) :
    Opening (negation operand n) := by
  intro c
  cases n with
  | zero => exact ensures_exhausted
  | succ n =>
    unfold Parser.negation
    refine reads_peek.ensures.bind fun x d hd => ?_
    obtain ⟨hx, rfl⟩ := hd
    obtain ⟨t, ht⟩ := List.head?_eq_some_iff.mp hx
    split
    case isTrue hbang => exact fun _ _ _ => ⟨x, t, ht, Or.inr (Or.inl (by rw [hbang]; decide))⟩
    case isFalse => exact h d

/-- **Expressions are read only where one starts**, with any bound. -/
theorem opening_expression (n : Nat) : Opening (expression n) := by
  intro c
  cases n with
  | zero => exact ensures_exhausted
  | succ n =>
    change Ensures (assignmentOrDisjunction (expression n) (block n) (n + 1)) c _
    unfold assignmentOrDisjunction
    refine reads_cursor.ensures.bind fun _ d hd => ?_
    obtain ⟨rfl, rfl⟩ := hd
    split
    -- an assignment starts with its name
    case h_1 =>
      unfold assignment
      refine reads_here.ensures.bind fun _ e he => Ensures.of_bind ?_
      obtain ⟨-, rfl⟩ := he
      refine (ensures_name .assignment).mono fun x f hf => ?_
      obtain ⟨⟨first, others, hx, hfirst, -⟩, hrest, -⟩ := hf
      exact ⟨first, _, by rw [hrest, hx]; rfl, Or.inr (Or.inr (Or.inr hfirst))⟩
    case h_2 =>
      -- the first operand of a disjunction is read at the level of negations
      have haccess : Opening (access (expression n) (block n) (n + 1)) :=
        fun c => (opening_primary _ _ _ c).of_bind
      exact ((haccess.negation _ d).of_bind.of_bind).of_bind

/-- **The second text starts with the same character**, where an expression starts in the first one. -/
theorem Opens.head_eq {R : List Char → List Char → Prop} {S : Char → List Char → List Char → Prop}
    {x : Char} (hx : Opens x) (L : Lockstep R S) {t s' : List Char} (h : R (x :: t) s') :
    ∃ t', s' = x :: t' := by
  have hfirm : Firm [x] → ∃ t', s' = x :: t' := by
    intro hx
    obtain ⟨t', ht', -⟩ := L.forth_cons hx h
    exact ⟨t', ht'⟩
  rcases hx with hquote | hmark | hdigit | hname
  · obtain ⟨t', ht', -⟩ := L.quote hquote h
    exact ⟨t', ht'⟩
  · simp only [List.mem_cons, List.not_mem_nil, or_false] at hmark
    rcases hmark with rfl | rfl | rfl | rfl <;> exact hfirm (by decide)
  · exact hfirm (firm_of_isDigit hdigit)
  · exact hfirm (firm_of_isNameStart hname)

/-- Where such a parser is done, the other text starts in the same way. -/
theorem Opening.head_eq {R : List Char → List Char → Prop}
    {S : Char → List Char → List Char → Prop} {p : Parser Tree} (hp : Opening p)
    (L : Lockstep R S) {c c' : Cursor} (hc : R c.rest c'.rest) {x : Char} {t : List Char}
    (ht : c.rest = x :: t) : Ensures p c fun _ _ => ∃ t', c'.rest = x :: t' := by
  refine (hp c).mono fun _ _ h => ?_
  obtain ⟨y, u, hu, hy⟩ := h
  obtain ⟨rfl, rfl⟩ := List.cons.inj (ht.symm.trans hu)
  exact hy.head_eq L (ht ▸ hc)

/-! ### Operators -/

/-- The second parser follows the first one with similar trees wherever the texts are related. -/
def Tracks (R : List Char → List Char → Prop) (p p' : Parser Tree) : Prop :=
  ∀ c c', R c.rest c'.rest → Follows p p' c c' (Agree R Similar)

section Operators

variable {R : List Char → List Char → Prop} {S : Char → List Char → List Char → Prop}
  (L : Lockstep R S) {c c' : Cursor} {operand operand' : Parser Tree}

include L

/-- **A chain of operators** tracks if its operands do. -/
theorem follows_chainTail {op : String} {join : Tree → Tree → Tree} (hop : Firm op.toList)
    (hjoin : ∀ {l l' r r'}, Similar l l' → Similar r r' → Similar (join l r) (join l' r'))
    (hoperand : Tracks R operand operand') (n n' : Nat) {left left' : Tree}
    (hleft : Similar left left') (hc : R c.rest c'.rest) :
    Follows (chainTail op join operand n left) (chainTail op join operand' n' left') c c'
      (Agree R Similar) := by
  -- on the bound of the first run, for all trees that the rounds before have built
  induction n generalizing c c' n' left left' with
  | zero => exact follows_exhausted
  | succ n ih =>
    cases n' with
    | zero => exact follows_exhausted_right
    | succ n' =>
      unfold chainTail
      refine (follows_blanks L hc).bind fun _ d _ d' hd => ?_
      refine (follows_lookingAt L hd.1 hop).bind fun b e b' e' he => ?_
      obtain ⟨rfl, rfl, rfl⟩ := he
      split
      · refine (follows_token L hd.1 hop).bind fun _ f _ f' hf => ?_
        refine (follows_blanks L hf).bind fun _ g _ g' hg => ?_
        refine (hoperand g g' hg.1).bind fun right h right' h' hh => ?_
        exact ih n' (hjoin hleft hh.1) hh.2
      · exact follows_pure ⟨hleft, hd.1⟩

/-- A chain of comparisons tracks if its operands do. -/
theorem follows_equalityTail (hoperand : Tracks R operand operand') (n n' : Nat)
    {left left' : Tree} (hleft : Similar left left') (hc : R c.rest c'.rest) :
    Follows (equalityTail operand n left) (equalityTail operand' n' left') c c'
      (Agree R Similar) := by
  induction n generalizing c c' n' left left' with
  | zero => exact follows_exhausted
  | succ n ih =>
    cases n' with
    | zero => exact follows_exhausted_right
    | succ n' =>
      -- both comparisons go on in the same way
      have hstep : ∀ (t : String) (negated : Bool) (d d' : Cursor), Firm t.toList →
          R d.rest d'.rest →
          Follows (do
            token t
            blanks
            let right ← operand
            equalityTail operand n (.equality left right negated)) (do
            token t
            blanks
            let right ← operand'
            equalityTail operand' n' (.equality left' right negated)) d d' (Agree R Similar) := by
        intro t negated d d' ht hd
        refine (follows_token L hd ht).bind fun _ e _ e' he => ?_
        refine (follows_blanks L he).bind fun _ f _ f' hf => ?_
        refine (hoperand f f' hf.1).bind fun right g right' g' hg => ?_
        refine ih n' ?_ hg.2
        rw [Similar, Expr.erase, Expr.erase, hleft, hg.1]
      unfold equalityTail
      refine (follows_blanks L hc).bind fun _ d _ d' hd => ?_
      refine (follows_lookingAt L hd.1 (by decide)).bind fun b e b' e' he => ?_
      obtain ⟨rfl, rfl, rfl⟩ := he
      split
      · exact hstep "==" false _ _ (by decide) hd.1
      · refine (follows_lookingAt L hd.1 (by decide)).bind fun b e b' e' he => ?_
        obtain ⟨rfl, rfl, rfl⟩ := he
        split
        · exact hstep "!=" true _ _ (by decide) hd.1
        · exact follows_pure ⟨hleft, hd.1⟩

/-- Negations track if what they negate does. -/
theorem tracks_negation (hoperand : Tracks R operand operand') (hopening : Opening operand)
    (n n' : Nat) : Tracks R (negation operand n) (negation operand' n') := by
  intro c c' hc
  induction n generalizing c c' n' with
  | zero => exact follows_exhausted
  | succ n ih =>
    cases n' with
    | zero => exact follows_exhausted_right
    | succ n' =>
      unfold negation
      -- the sign is firm, and anything else is the start of the operand
      refine Follows.peek ?_ ?_
      · intro x t ht
        split
        case isTrue hx =>
          subst hx
          obtain ⟨t', ht', -⟩ := L.forth_cons (by decide) (ht ▸ hc)
          exact fun _ _ _ => ⟨t', ht'⟩
        case isFalse => exact hopening.head_eq L hc ht
      · intro x t t' ht ht'
        split
        case isTrue hx =>
          subst hx
          refine (follows_next L hc (by decide) ht).bind fun _ d _ d' hd => ?_
          refine (follows_blanks L hd).bind fun _ e _ e' he => ?_
          refine (ih n' e e' he.1).bind fun inner f inner' f' hf => follows_pure ⟨?_, hf.2⟩
          rw [Similar, Expr.erase, Expr.erase, hf.1]
        case isFalse => exact hoperand c c' hc

end Operators

/-! ### Accesses, calls and primaries -/

theorem AllSimilar.cons {e e' : Tree} {es es' : List Tree} (he : Similar e e')
    (hes : AllSimilar es es') : AllSimilar (e :: es) (e' :: es') := by
  rw [AllSimilar, List.map_cons, List.map_cons, he, hes]

theorem AllSimilar.append {es es' fs fs' : List Tree} (hes : AllSimilar es es')
    (hfs : AllSimilar fs fs') : AllSimilar (es ++ fs) (es' ++ fs') := by
  rw [AllSimilar, List.map_append, List.map_append, hes, hfs]

theorem AllSimilar.reverse {es es' : List Tree} (hes : AllSimilar es es') :
    AllSimilar es.reverse es'.reverse := by
  rw [AllSimilar, List.map_reverse, List.map_reverse, hes]

section Nested

variable {R : List Char → List Char → Prop} {S : Char → List Char → List Char → Prop}
  (L : Lockstep R S) {c c' : Cursor} {ex ex' : Parser Tree} {bl bl' : Parser (List Tree)}
  (hex : Tracks R ex ex') (hopening : Opening ex)
  (hbl : ∀ c c', R c.rest c'.rest → Follows bl bl' c c' (Agree R AllSimilar))

include L hex hopening

/-- The arguments of a call track. -/
theorem follows_arguments (n n' : Nat) {read read' : List Tree} (hread : AllSimilar read read')
    (hc : R c.rest c'.rest) :
    Follows (arguments ex n read) (arguments ex' n' read') c c' (Agree R AllSimilar) := by
  induction n generalizing c c' n' read read' with
  | zero => exact follows_exhausted
  | succ n ih =>
    cases n' with
    | zero => exact follows_exhausted_right
    | succ n' =>
      -- the parenthesis that closes the arguments is firm, so it stands in both texts
      have hparen : ∀ {d d' : Cursor} {t : List Char}, R d.rest d'.rest → d.rest = ')' :: t →
          ∃ t', d'.rest = ')' :: t' := by
        intro d d' t hd ht
        obtain ⟨t', ht', -⟩ := L.forth_cons (by decide) (ht ▸ hd)
        exact ⟨t', ht'⟩
      unfold arguments
      refine Follows.peek ?_ ?_
      · intro x t ht
        split
        case isTrue hx =>
          subst hx
          exact fun _ _ _ => hparen hc ht
        case isFalse => exact (hopening.head_eq L hc ht).of_bind
      · intro x t t' ht ht'
        split
        · exact follows_pure ⟨hread.reverse, hc⟩
        refine (hex c c' hc).bind fun argument d argument' d' hd => ?_
        refine (follows_blanks L hd.2).bind fun _ e _ e' he => ?_
        -- after the argument comes the parenthesis or a comma
        refine Follows.peek ?_ ?_
        · intro y u hu
          split
          case isTrue hy =>
            refine Ensures.of_bind ((reads_token ",").ensures.mono fun _ f hf => ?_)
            obtain ⟨v', hv', -⟩ := L.forth (w := ",".toList) (by decide) (hf ▸ he.1)
            obtain rfl : ',' = y := by
              rw [hu] at hf
              exact (List.cons.inj hf).1.symm
            exact ⟨v', hv'⟩
          case isFalse hy =>
            obtain rfl : y = ')' := Decidable.not_not.mp hy
            exact fun _ _ _ => hparen he.1 hu
        · intro y u u' hu hu'
          split
          · refine (follows_token L he.1 (by decide)).bind fun _ f _ f' hf => ?_
            refine (follows_blanks L hf).bind fun _ g _ g' hg => ?_
            exact ih n' (hread.cons hd.1) hg.1
          · exact ih n' (hread.cons hd.1) he.1

/-- **Accesses and calls** track if what they nest does. -/
theorem follows_accessTail (bound bound' n n' : Nat) {base base' : Tree}
    (hbase : Similar base base') (hc : R c.rest c'.rest) :
    Follows (accessTail ex bound n base) (accessTail ex' bound' n' base') c c'
      (Agree R Similar) := by
  induction n generalizing c c' n' base base' with
  | zero => exact follows_exhausted
  | succ n ih =>
    cases n' with
    | zero => exact follows_exhausted_right
    | succ n' =>
      unfold accessTail
      refine (follows_blanks L hc).bind fun _ d _ d' hd => ?_
      obtain ⟨hd, -, -⟩ := hd
      refine follows_peek?.bind fun x e x' e' he => ?_
      obtain ⟨⟨hx, rfl⟩, hx', rfl⟩ := he
      -- the characters that go on with an access are firm, so both texts go on or neither does
      have hsame : ∀ y : Char, Firm [y] → (x' = some y ↔ x = some y) := by
        intro y hy
        rw [hx, hx']
        exact L.head?_iff hy hd
      split
      case h_1 =>
        obtain ⟨t, ht⟩ := List.head?_eq_some_iff.mp hx.symm
        rw [(hsame '.' (by decide)).mpr rfl]
        refine (follows_next L hd (by decide) ht).bind fun _ f _ f' hf => ?_
        refine (follows_blanks L hf).bind fun _ g _ g' hg => ?_
        refine follows_here.bind fun _ h _ h' hh => ?_
        obtain ⟨rfl, rfl⟩ := hh
        refine (follows_name L hg.1 .selector).bind fun selector i selector' i' hi => ?_
        obtain ⟨rfl, hi⟩ := hi
        refine ih n' ?_ hi
        rw [Similar, Expr.erase, Expr.erase, hbase]
      case h_2 =>
        obtain ⟨t, ht⟩ := List.head?_eq_some_iff.mp hx.symm
        rw [(hsame '[' (by decide)).mpr rfl]
        refine follows_here.bind fun _ f _ f' hf => ?_
        obtain ⟨rfl, rfl⟩ := hf
        refine (follows_next L hd (by decide) ht).bind fun _ g _ g' hg => ?_
        refine (follows_blanks L hg).bind fun _ h _ h' hh => ?_
        refine (hex h h' hh.1).bind fun position i position' i' hi => ?_
        refine (follows_blanks L hi.2).bind fun _ j _ j' hj => ?_
        refine (follows_token L hj.1 (by decide)).bind fun _ k _ k' hk => ?_
        refine ih n' ?_ hk
        rw [Similar, Expr.erase, Expr.erase, hbase, hi.1]
      case h_3 =>
        obtain ⟨t, ht⟩ := List.head?_eq_some_iff.mp hx.symm
        rw [(hsame '(' (by decide)).mpr rfl]
        refine follows_here.bind fun _ f _ f' hf => ?_
        obtain ⟨rfl, rfl⟩ := hf
        refine (follows_next L hd (by decide) ht).bind fun _ g _ g' hg => ?_
        refine (follows_blanks L hg).bind fun _ h _ h' hh => ?_
        refine (follows_arguments L hex hopening bound bound' rfl hh.1).bind
          fun args i args' i' hi => ?_
        refine (follows_token L hi.2 (by decide)).bind fun _ j _ j' hj => ?_
        refine ih n' ?_ hj
        rw [Similar, Expr.erase, Expr.erase, hbase, Expr.eraseAll_eq_map, Expr.eraseAll_eq_map,
          hi.1]
      case h_4 hpoint hbracket hparen =>
        split
        case h_4 => exact follows_pure ⟨hbase, hd⟩
        case h_1 => exact absurd ((hsame '.' (by decide)).mp rfl) hpoint
        case h_2 => exact absurd ((hsame '[' (by decide)).mp rfl) hbracket
        case h_3 => exact absurd ((hsame '(' (by decide)).mp rfl) hparen

include hbl

/-- What starts with a name tracks. -/
theorem follows_named (hc : R c.rest c'.rest) :
    Follows (named ex bl) (named ex' bl') c c' (Agree R Similar) := by
  unfold named
  refine follows_here.bind fun _ d _ d' hd => ?_
  obtain ⟨rfl, rfl⟩ := hd
  refine (follows_name L hc .expression).bind fun x e x' e' he => ?_
  obtain ⟨rfl, he⟩ := he
  -- both runs have read the same name, so they take the same branch
  split
  · exact follows_pure ⟨rfl, he⟩
  split
  · exact follows_pure ⟨rfl, he⟩
  split
  · exact follows_pure ⟨rfl, he⟩
  refine (follows_blanks L he).bind fun _ f _ f' hf => ?_
  refine (follows_lookingAt L hf.1 (by decide)).bind fun b g b' g' hg => ?_
  obtain ⟨rfl, rfl, rfl⟩ := hg
  split
  · refine (follows_token L hf.1 (by decide)).bind fun _ h _ h' hh => ?_
    refine (follows_blanks L hh).bind fun _ i _ i' hi => ?_
    obtain ⟨hi, -, -⟩ := hi
    refine Follows.peek ?_ ?_
    · intro y t ht
      split
      case isTrue hy =>
        subst hy
        obtain ⟨t', ht', -⟩ := L.forth_cons (by decide) (ht ▸ hi)
        exact fun _ _ _ => ⟨t', ht'⟩
      case isFalse => exact (hopening.head_eq L hi ht).of_bind
    · intro y t t' ht ht'
      split
      · refine (hbl i i' hi).bind fun body j body' j' hj => follows_pure ⟨?_, hj.2⟩
        rw [Similar, Expr.erase, Expr.erase, hj.1.block]
      · refine (hex i i' hi).bind fun body j body' j' hj => follows_pure ⟨?_, hj.2⟩
        rw [Similar, Expr.erase, Expr.erase, hj.1]
  · exact follows_pure ⟨rfl, hf.1⟩

/-- **A primary** tracks. Its first character decides in both texts. -/
theorem follows_primary (bound bound' : Nat) (hc : R c.rest c'.rest) :
    Follows (primary ex bl bound) (primary ex' bl' bound') c c' (Agree R Similar) := by
  refine Follows.assume (opening_primary ex bl bound c) ?_
  rintro ⟨x, t, ht, hx⟩
  obtain ⟨t', ht'⟩ := hx.head_eq L (ht ▸ hc)
  unfold primary
  refine (follows_peek ht ht').bind fun y d y' d' hd => ?_
  obtain ⟨⟨rfl, rfl⟩, rfl, rfl⟩ := hd
  split
  case isTrue hx =>
    have hquote : ∀ z ∈ d.rest.head?, z = '"' ∨ z = '\'' := by
      intro z hz
      rw [ht] at hz
      exact Option.some.inj hz ▸ hx
    refine (follows_stringLiteral L bound bound' hc hquote).bind fun s e s' e' he => ?_
    obtain ⟨rfl, he⟩ := he
    exact follows_pure ⟨rfl, he⟩
  case isFalse =>
  split
  case isTrue hx =>
    subst hx
    refine (follows_next L hc (by decide) ht).bind fun _ e _ e' he => ?_
    refine (follows_blanks L he).bind fun _ f _ f' hf => ?_
    refine (hex f f' hf.1).bind fun inner g inner' g' hg => ?_
    refine (follows_blanks L hg.2).bind fun _ h _ h' hh => ?_
    refine (follows_token L hh.1 (by decide)).bind fun _ i _ i' hi => ?_
    exact follows_pure ⟨hg.1, hi⟩
  case isFalse =>
  split
  · refine (hbl d d' hc).bind fun body e body' e' he => follows_pure ⟨?_, he.2⟩
    rw [Similar, Expr.erase, Expr.erase, he.1.block]
  split
  · refine (follows_number L hc).bind fun s e s' e' he => ?_
    obtain ⟨rfl, he⟩ := he
    exact follows_pure ⟨rfl, he⟩
  refine follows_cursor.bind fun a e a' e' he => ?_
  obtain ⟨⟨rfl, rfl⟩, rfl, rfl⟩ := he
  -- a digit after a minus sign stands in both texts
  have hminus : (y' = '-' ∧ (e'.rest.drop 1).head?.any Char.isDigit = true) ↔
      (y' = '-' ∧ (e.rest.drop 1).head?.any Char.isDigit = true) := by
    refine and_congr_right fun hy => ?_
    subst hy
    obtain ⟨u', hu', hR⟩ := L.forth_cons (by decide) (ht ▸ hc)
    rw [ht, hu']
    exact Bool.eq_iff_iff.mp (L.any_head? (fun _ => firm_of_isDigit) hR)
  split
  case isTrue h =>
    rw [if_pos (hminus.mpr h)]
    refine (follows_number L hc).bind fun s f s' f' hf => ?_
    obtain ⟨rfl, hf⟩ := hf
    exact follows_pure ⟨rfl, hf⟩
  case isFalse h =>
  rw [if_neg fun h' => h (hminus.mp h')]
  split
  · exact follows_named L hex hopening hbl hc
  · exact follows_here.bind fun _ _ _ _ _ => follows_fail

/-! ### Levels of expressions -/

/-- An access tracks. -/
theorem tracks_access (bound bound' : Nat) :
    Tracks R (access ex bl bound) (access ex' bl' bound') := by
  intro c c' hc
  unfold access
  refine (follows_primary L hex hopening hbl bound bound' hc).bind fun base d base' d' hd => ?_
  exact follows_accessTail L hex hopening bound bound' bound bound' hd.1 hd.2

/-- Disjunctions track, and the levels between them and the accesses. -/
theorem tracks_disjunction (bound bound' : Nat) :
    Tracks R (disjunction ex bl bound) (disjunction ex' bl' bound') := by
  -- from the tightest level to the loosest one
  have hnegation : Tracks R (negation (access ex bl bound) bound)
      (negation (access ex' bl' bound') bound') :=
    tracks_negation L (tracks_access L hex hopening hbl bound bound')
      (fun c => (opening_primary ex bl bound c).of_bind) bound bound'
  have hequality : Tracks R (equality ex bl bound) (equality ex' bl' bound') := by
    intro c c' hc
    refine (hnegation c c' hc).bind fun left d left' d' hd => ?_
    exact follows_equalityTail L hnegation bound bound' hd.1 hd.2
  have hconjunction : Tracks R (conjunction ex bl bound) (conjunction ex' bl' bound') := by
    intro c c' hc
    refine (hequality c c' hc).bind fun left d left' d' hd => ?_
    refine follows_chainTail L (by decide) ?_ hequality bound bound' hd.1 hd.2
    intro l l' r r' hl hr
    rw [Similar, Expr.erase, Expr.erase, hl, hr]
  intro c c' hc
  refine (hconjunction c c' hc).bind fun left d left' d' hd => ?_
  refine follows_chainTail L (by decide) ?_ hconjunction bound bound' hd.1 hd.2
  intro l l' r r' hl hr
  rw [Similar, Expr.erase, Expr.erase, hl, hr]

omit hopening hbl in
/-- An assignment tracks where the look-ahead has found the same operator in both texts. -/
theorem follows_assignment {width : Nat} (hc : R c.rest c'.rest)
    (hahead : assignmentAhead c.rest = some width)
    (hahead' : assignmentAhead c'.rest = some width) :
    Follows (assignment ex width) (assignment ex' width) c c' (Agree R Similar) := by
  unfold assignment
  refine follows_here.bind fun _ d _ d' hd => ?_
  obtain ⟨rfl, rfl⟩ := hd
  refine ((follows_name L hc .assignment).ensures (ensures_name .assignment)
    (ensures_name .assignment)).bind fun x e x' e' he => ?_
  obtain ⟨⟨rfl, he⟩, ⟨hname, hrest, hend⟩, -, hrest', hend'⟩ := he
  split
  · exact follows_fail
  -- the look-ahead has seen the operator, in both texts
  rw [hrest, assignmentAhead_append hname hend] at hahead
  rw [hrest', assignmentAhead_append hname hend'] at hahead'
  refine (follows_blanks L he).bind fun _ f _ f' hf => ?_
  obtain ⟨hR, hf, hf'⟩ := hf
  rw [← unblanked_of_assignOperator? hahead, ← hf] at hahead
  rw [← unblanked_of_assignOperator? hahead', ← hf'] at hahead'
  refine follows_move.bind fun _ g _ g' hg => ?_
  obtain ⟨rfl, rfl⟩ := hg
  have hskip : R (f.skip width).rest (f'.skip width).rest := by
    rw [Cursor.skip_rest, Cursor.skip_rest]
    exact L.operator hR hahead hahead'
  refine (follows_blanks L hskip).bind fun _ h _ h' hh => ?_
  refine (hex h h' hh.1).bind fun value i value' i' hi => follows_pure ⟨?_, hi.2⟩
  rw [Similar, Expr.erase, Expr.erase, hi.1]
  rfl

/-- **The level of an expression** tracks: the look-ahead takes both texts the same way. -/
theorem tracks_assignmentOrDisjunction (bound bound' : Nat) :
    Tracks R (assignmentOrDisjunction ex bl bound) (assignmentOrDisjunction ex' bl' bound') := by
  intro c c' hc
  unfold assignmentOrDisjunction
  refine follows_cursor.bind fun a d a' d' hd => ?_
  obtain ⟨⟨rfl, rfl⟩, rfl, rfl⟩ := hd
  have hsame := L.assignmentAhead_eq hc
  split
  case h_1 width hahead =>
    rw [hsame, hahead]
    exact follows_assignment L hex hc hahead (hsame.trans hahead)
  case h_2 hahead =>
    rw [hsame, hahead]
    exact tracks_disjunction L hex hopening hbl bound bound' _ _ hc

/-! ### Statements -/

omit L hex hopening hbl in
theorem blanks_bind {α : Type} (f : Unit → Parser α) :
    (blanks >>= f) c = f () c.skipBlanks := rfl

omit L hex hopening hbl in
theorem peek?_bind {α : Type} (f : Option Char → Parser α) :
    (peek? >>= f) c = f c.rest.head? c := rfl

omit L hex hopening hbl in
/-- The loop over statements stops where the text is closed. -/
theorem statementsUpTo_stop {close : Option Char} (n : Nat) (read : List Tree) (terminated : Bool)
    (h : (unblanked c.rest).head? = close) :
    statementsUpTo close ex bl (n + 1) read terminated c =
      .done (read.reverse, terminated) c.skipBlanks := by
  rw [statementsUpTo, blanks_bind, peek?_bind, skipBlanks_rest, h]
  cases close with
  | none => rfl
  | some x => simp only [if_true]; rfl

omit L hex hopening hbl in
/-- A semicolon takes one round of the loop over statements. -/
theorem statementsUpTo_semicolon {close : Option Char} (hclose : close ≠ some ';') (n : Nat)
    (read : List Tree) (terminated : Bool) {t : List Char} (h : unblanked c.rest = ';' :: t) :
    statementsUpTo close ex bl (n + 1) read terminated c =
      (next >>= fun _ => statementsUpTo close ex bl n read true) c.skipBlanks := by
  rw [statementsUpTo, blanks_bind, peek?_bind, skipBlanks_rest, h]
  simp only [List.head?_cons, hclose.symm, if_false, if_true]

omit hex hopening hbl in
/-- After an expression that is a statement both runs go on alike. Where the first text ends there may be
a semicolon in the second one (`hmore`). -/
theorem follows_afterStatement {α : Type} {close : Option Char} (hclose : ∀ x ∈ close, Firm [x])
    {again again' : Bool → Parser α} {terminated terminated' : Bool}
    {post : α → Cursor → α → Cursor → Prop} (hc : R c.rest c'.rest)
    (hended : ∀ d d', R d.rest d'.rest → Follows (again true) (again' true) d d' post)
    (hlast : ∀ d d', R d.rest d'.rest → Follows (again terminated) (again' terminated') d d' post)
    (hmore : ∀ d d' t, R d.rest d'.rest → d'.rest = ';' :: t →
      Follows (again terminated) (next >>= fun _ => again' true) d d' post) :
    Follows (afterStatement close again terminated) (afterStatement close again' terminated') c c'
      post := by
  refine (follows_blanks L hc).bind fun _ d _ d' hd => ?_
  obtain ⟨hR, -, hd'⟩ := hd
  refine follows_peek?.bind fun x e x' e' he => ?_
  obtain ⟨⟨rfl, rfl⟩, rfl, rfl⟩ := he
  rcases hx : e.rest with _ | ⟨x, t⟩
  · rcases hx' : e'.rest with _ | ⟨z, t'⟩
    · exact hlast e e' hR
    · -- what is left of the second text is settled, so it starts with the semicolon
      obtain rfl : z = ';' := by
        refine L.ends (hx ▸ hR) z ?_
        rw [hd', unblanked_unblanked, ← hd', hx']
        rfl
      exact hmore e e' t' hR hx'
  · simp only [List.head?_cons]
    split
    case isTrue hsemicolon =>
      subst hsemicolon
      obtain ⟨t', ht', hRt⟩ := L.semicolon (hx ▸ hR)
      rw [ht']
      simp only [List.head?_cons, if_true]
      refine (follows_of_yields (yields_next hx) (yields_next ht')).bind fun _ f _ f' hf => ?_
      obtain ⟨-, -, rfl, rfl⟩ := hf
      exact hended _ _ hRt
    case isFalse hsemicolon =>
    split
    case isTrue hclosed =>
      obtain ⟨t', ht', -⟩ := L.forth_cons (hclose x hclosed.symm) (hx ▸ hR)
      rw [ht']
      simp only [List.head?_cons, if_neg hsemicolon, if_pos hclosed]
      exact hlast e e' hR
    case isFalse =>
      refine Follows.assume (P := False) ?_ False.elim
      exact reads_here.ensures.bind fun _ _ _ => ensures_fail

/-- Statements are read in both texts up to where the first text is closed, and `hstop` says how the
second run goes on from there. -/
theorem follows_statementsUpTo {close : Option Char} (hclose : ∀ x ∈ close, Firm [x])
    {post : List Tree × Bool → Cursor → List Tree × Bool → Cursor → Prop} (n n' : Nat)
    {read read' : List Tree} {terminated terminated' : Bool} (hc : R c.rest c'.rest)
    (hstop : ∀ (new new' : List Tree) (ends : Bool) (k : Nat) (d e' : Cursor),
      AllSimilar new new' → d.rest.head? = close → R d.rest (unblanked e'.rest) →
      (statementsUpTo close ex' bl' k (new'.reverse ++ read') (terminated' || ends) e').Meets
        (post (read.reverse ++ new, terminated || ends) d)) :
    Follows (statementsUpTo close ex bl n read terminated)
      (statementsUpTo close ex' bl' n' read' terminated') c c' post := by
  -- on the bound of the first run, for all that both runs have read and for both flags
  induction n generalizing c c' n' read read' terminated terminated' with
  | zero => exact follows_exhausted
  | succ n ih =>
    by_cases hend : (unblanked c.rest).head? = close
    · intro out d h
      rw [statementsUpTo_stop n read terminated hend] at h
      obtain ⟨rfl, rfl⟩ := Outcome.done.inj h
      have hmeets := hstop [] [] false n' c.skipBlanks c' rfl
        (by rw [skipBlanks_rest, hend]) (by rw [skipBlanks_rest]; exact L.blanks hc)
      rwa [List.reverse_nil, List.nil_append, List.append_nil, Bool.or_false, Bool.or_false]
        at hmeets
    cases n' with
    | zero => exact follows_exhausted_right
    | succ n' =>
    have hsemicolon : close ≠ some ';' := by
      rintro rfl
      exact absurd (hclose ';' rfl) (by decide)
    -- after a statement, the same loop goes on with one statement more
    have hnext : ∀ {s s' : Tree} {d d' : Cursor} (ends : Bool) (k : Nat), Similar s s' →
        R d.rest d'.rest →
        Follows (statementsUpTo close ex bl n (s :: read) (terminated || ends))
          (statementsUpTo close ex' bl' k (s' :: read') (terminated' || ends)) d d' post := by
      intro s s' d d' ends k hs hd
      refine ih k hd fun new new' ends' k d e' hnew hd he => ?_
      have hmeets := hstop (s :: new) (s' :: new') (ends || ends') k d e' (hnew.cons hs) hd he
      simpa [Bool.or_assoc] using hmeets
    rw [statementsUpTo_succ, statementsUpTo_succ]
    refine (follows_blanks L hc).bind fun _ d _ d' hd => ?_
    obtain ⟨hR, hd, -⟩ := hd
    refine follows_peek?.bind fun x e x' e' he => ?_
    obtain ⟨⟨rfl, rfl⟩, rfl, rfl⟩ := he
    rw [← hd] at hend
    rcases hrest : e.rest with _ | ⟨x, t⟩
    · -- the first text ends before it is closed
      rw [hrest] at hend
      cases close with
      | none => exact absurd rfl hend
      | some y =>
        refine Follows.assume (P := False) ?_ False.elim
        exact reads_here.ensures.bind fun _ _ _ => ensures_fail
    have hx : some x ≠ close := by
      rw [hrest] at hend
      exact hend
    -- the first run is done with a statement, so the second text starts as the first one does
    refine Follows.assume (P := ∃ t', e'.rest = x :: t') ?_ ?_
    · simp only [List.head?_cons, if_neg hx]
      split
      case isTrue hx =>
        subst hx
        obtain ⟨t', ht', -⟩ := L.semicolon (hrest ▸ hR)
        exact fun _ _ _ => ⟨t', ht'⟩
      split
      case isTrue hx =>
        subst hx
        obtain ⟨t', ht', -⟩ := L.forth_cons (by decide) (hrest ▸ hR)
        exact fun _ _ _ => ⟨t', ht'⟩
      · exact (hopening.head_eq L hR hrest).of_bind
    rintro ⟨t', ht'⟩
    rw [ht']
    simp only [List.head?_cons, if_neg hx]
    split
    case isTrue hsemi =>
      subst hsemi
      obtain ⟨u', hu', hRt⟩ := L.semicolon (hrest ▸ hR)
      refine (follows_of_yields (yields_next hrest) (yields_next hu')).bind fun _ f _ f' hf => ?_
      obtain ⟨-, -, rfl, rfl⟩ := hf
      refine ih n' hRt fun new new' ends k d e' hnew hd he => ?_
      have hmeets := hstop new new' true k d e' hnew hd he
      simpa using hmeets
    case isFalse =>
    split
    · refine (hbl e e' hR).bind fun body f body' f' hf => ?_
      have hblock := hnext true n' hf.1.block hf.2
      rwa [Bool.or_true, Bool.or_true] at hblock
    refine (hex e e' hR).bind fun statement f statement' f' hf => ?_
    have hplain : ∀ (k : Nat) (g g' : Cursor), R g.rest g'.rest →
        Follows (statementsUpTo close ex bl n (statement :: read) terminated)
          (statementsUpTo close ex' bl' k (statement' :: read') terminated') g g' post := by
      intro k g g' hg
      have hloop := hnext false k hf.1 hg
      rwa [Bool.or_false, Bool.or_false] at hloop
    refine follows_afterStatement L hclose hf.2 (fun g g' hg => ?_) (hplain n') ?_
    · have hloop := hnext true n' hf.1 hg
      rwa [Bool.or_true, Bool.or_true] at hloop
    · -- the semicolon may as well be left to the next round
      intro g g' t hg hg' out h hh
      have hmeets := hplain (n' + 1) g g' hg out h hh
      have hstay : g'.skipBlanks = g' := by
        obtain ⟨rest, l⟩ := g'
        obtain rfl : rest = ';' :: t := hg'
        rfl
      rwa [statementsUpTo_semicolon hsemicolon n' _ _ (by rw [hg']; rfl), hstay] at hmeets

/-- A block tracks up to its closing brace. -/
theorem follows_braced (bound bound' : Nat) (hc : R c.rest c'.rest) :
    Follows (braced ex bl bound) (braced ex' bl' bound') c c' (Agree R AllSimilar) := by
  have hbrace : Firm ['}'] := by decide
  unfold braced
  refine (follows_token L hc (by decide)).bind fun _ d _ d' hd => ?_
  have hbody : Follows (statementsUpTo (some '}') ex bl bound [] false)
      (statementsUpTo (some '}') ex' bl' bound' [] false) d d'
      (Agree R fun out out' => AllSimilar out.1 out'.1) := by
    refine follows_statementsUpTo L hex hopening hbl ?_ bound bound' hd ?_
    · intro x hx
      exact Option.some.inj hx ▸ hbrace
    · intro new new' ends k e e' hnew hhead hR
      cases k with
      | zero => exact Or.inl rfl
      | succ k =>
        have hhead' := (L.head?_iff hbrace hR).mpr hhead
        refine Or.inr ⟨_, _, statementsUpTo_stop k _ _ hhead', ?_, ?_⟩
        · rw [List.append_nil, List.reverse_reverse]
          exact hnew
        · rw [skipBlanks_rest]
          exact hR
  refine hbody.bind fun out e out' e' he => ?_
  refine (follows_token L he.2 (by decide)).bind fun _ f _ f' hf => ?_
  exact follows_pure ⟨he.1, hf⟩

end Nested

/-! ### Closing the recursion -/

/-- **Expressions and blocks**, for all bounds. -/
theorem follows_nested {R : List Char → List Char → Prop}
    {S : Char → List Char → List Char → Prop} (L : Lockstep R S) (n n' : Nat) :
    Tracks R (expression n) (expression n') ∧
      ∀ c c', R c.rest c'.rest → Follows (block n) (block n') c c' (Agree R AllSimilar) := by
  induction n generalizing n' with
  | zero => exact ⟨fun _ _ _ => follows_exhausted, fun _ _ _ => follows_exhausted⟩
  | succ n ih =>
    cases n' with
    | zero => exact ⟨fun _ _ _ => follows_exhausted_right, fun _ _ _ => follows_exhausted_right⟩
    | succ n' =>
      obtain ⟨hex, hbl⟩ := ih n'
      have hopening := opening_expression n
      exact ⟨tracks_assignmentOrDisjunction L hex hopening hbl (n + 1) (n' + 1),
        fun c c' => follows_braced L hex hopening hbl (n + 1) (n' + 1)⟩

/-! ### Whole scripts -/

/-- The tree of a script with these statements, which may be terminated. -/
def scriptOf : List Tree × Bool → Tree
  | ([e], false) => e
  | (es, _) => .statements es

/-- Reading a script is reading its statements and making one tree of them. -/
theorem script_eq (n : Nat) : script n =
    statementsUpTo none (expression n) (block n) n [] false >>= fun out => pure (scriptOf out) := by
  unfold script
  congr 1
  funext out
  split
  · rfl
  · rw [scriptOf]
    assumption

/-- Scripts of similar statements are similar. -/
theorem AllSimilar.scriptOf {es es' : List Tree} (h : AllSimilar es es') (terminated : Bool) :
    Similar (scriptOf (es, terminated)) (scriptOf (es', terminated)) := by
  have hstatements : Similar (.statements es) (.statements es') := by
    rw [Similar, Expr.erase, Expr.erase, Expr.eraseAll_eq_map, Expr.eraseAll_eq_map, h]
  have hlength : es'.length = es.length := by
    have h := congrArg List.length h
    rwa [List.length_map, List.length_map] at h
  rcases es with _ | ⟨e, _ | ⟨f, es⟩⟩
  · obtain rfl := List.eq_nil_of_length_eq_zero hlength
    rfl
  · -- a single statement is the script itself, unless it is terminated
    obtain ⟨e', rfl⟩ := List.length_eq_one_iff.mp hlength
    cases terminated with
    | false => exact List.singleton_inj.mp h
    | true => exact hstatements
  -- two statements or more are a list in both, since there are as many in the one as in the other
  · rcases es' with _ | ⟨e', _ | ⟨f', es'⟩⟩
    · exact absurd hlength (by simp)
    · exact absurd hlength (by simp)
    · exact hstatements

/-- **Scripts** track, if the second text ends where the first one does. -/
theorem follows_script {R : List Char → List Char → Prop} {S : Char → List Char → List Char → Prop}
    (L : Lockstep R S) (hend : ∀ {s'}, R [] s' → s' = []) (n n' : Nat) {c c' : Cursor}
    (hc : R c.rest c'.rest) :
    Follows (script n) (script n') c c' fun e _ e' _ => Similar e e' ∧ R [] [] := by
  obtain ⟨hex, hbl⟩ := follows_nested L n n'
  have hnone : ∀ x ∈ (none : Option Char), Firm [x] := fun x h => absurd h (Option.not_mem_none x)
  have hbody : Follows (statementsUpTo none (expression n) (block n) n [] false)
      (statementsUpTo none (expression n') (block n') n' [] false) c c'
      fun out _ out' _ => AllSimilar out.1 out'.1 ∧ out.2 = out'.2 ∧ R [] [] := by
    refine follows_statementsUpTo L hex (opening_expression n) hbl hnone n n' hc ?_
    -- where the first text ends the second one has nothing left, so its loop stops as well
    intro new new' ends k d e' hnew hhead hR
    rw [List.head?_eq_none_iff.mp hhead] at hR
    have hnil := hend hR
    cases k with
    | zero => exact Or.inl rfl
    | succ k =>
      refine Or.inr ⟨_, _, statementsUpTo_stop k _ _ (by rw [hnil]; rfl), ?_, rfl, hnil ▸ hR⟩
      rw [List.append_nil, List.reverse_reverse]
      exact hnew
  rw [script_eq, script_eq]
  refine hbody.bind ?_
  rintro ⟨es, terminated⟩ d ⟨es', _⟩ d' ⟨hsimilar, rfl, hR⟩
  exact follows_pure ⟨hsimilar.scriptOf terminated, hR⟩

end Parser

/-- The bound that `parse` picks is large enough. -/
theorem parse_of_meets {source : String} {fits : Tree → Cursor → Prop}
    (h : (Parser.script (2 * (source.length + 1)) (Cursor.start source)).Meets fits) :
    ∃ tree d, parse source = .ok tree ∧ fits tree d := by
  rcases h with hexhausted | ⟨tree, d, hdone, htree⟩
  -- that the recursion is not exhausted is known of each text by itself
  · have hfits := script_fits source
    rw [hexhausted] at hfits
    exact hfits.elim
  · refine ⟨tree, d, ?_, htree⟩
    unfold parse
    rw [hdone]

/-- **A source that is in lockstep with an accepted one** is accepted, and gives the same tree up to
places. -/
theorem Lockstep.parse {R : List Char → List Char → Prop} {S : Char → List Char → List Char → Prop}
    (L : Lockstep R S) (hend : ∀ {s'}, R [] s' → s' = []) {source source' : String} {tree : Tree}
    (hsource : R source.toList source'.toList) (h : parse source = .ok tree) :
    ∃ tree', parse source' = .ok tree' ∧ tree'.erase = tree.erase ∧ R [] [] := by
  obtain ⟨d, hscript⟩ := script_of_parse h
  have hstart : R (Cursor.start source).rest (Cursor.start source').rest := hsource
  have hmeets := Parser.follows_script L hend _ (2 * (source'.length + 1)) hstart tree d hscript
  obtain ⟨tree', -, hparse, hsimilar, hR⟩ := parse_of_meets hmeets
  exact ⟨tree', hparse, hsimilar, hR⟩

end GraphQuery
