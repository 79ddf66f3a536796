import GraphQuery.Proofs.Script.Soundness

/-!
# The parser makes progress

Why reading ends on every text. Two things are shown of the parsers of the grammar.

* A parser of an expression or of a block that is done has **consumed** at least one character
  (`Consumes`). What it has read is spelled by tokens from which the grammar derives something, and
  the grammar derives nothing from no tokens.
* A round of a loop either leaves the loop or goes on with less text (`Progresses`). Loops are
  functions of the number of rounds that are left to them, so this is said without counting: the round
  has the same outcome whatever this number is, or it hands over to the rounds after it, whatever their
  number is, at a cursor with less text. That the recursion was exhausted is no way to leave a loop.

So no loop takes more rounds than there are characters, and since an expression that nests another one
has consumed something, a bound that grows with the length of the text is enough for the recursion.

## Main statements

* `Parser.Progresses.ne_exhausted`: a loop that makes progress ends.
* `Parser.consumes_expression`, `Parser.consumes_block`: expressions and blocks consume.
* `Parser.takesOperator_of_ahead`: what the look-ahead for assignments has seen is what is consumed.
* `Parser.reading_progresses`: all of this at once, and that the recursion is never exhausted.
-/

namespace GraphQuery

/-! ### Tokens are not empty -/

/-- **A token is written with characters**, at least one. -/
theorem Token.Written.ne_nil {t : Token} {w rest : List Char} (h : t.Written w rest) : w ≠ [] := by
  cases h with
  | name hx =>
    obtain ⟨first, others, hx, -⟩ := hx
    rw [hx]
    exact List.cons_ne_nil _ _
  | number ht =>
    obtain ⟨sign, digits, fraction, exponent, ht, -, hdigits, -⟩ := ht
    rw [ht]
    intro hnil
    exact hdigits.1 (List.append_eq_nil_iff.mp (List.append_eq_nil_iff.mp hnil).2).1
  | string => exact List.cons_ne_nil _ _
  | @symbol s _ hs =>
    have hsymbols : ∀ s ∈ symbols, s.toList ≠ [] := by decide
    exact hsymbols s hs

/-- A gap is passed text in front of what is left. -/
theorem Gap.exists_passed {s r : List Char} (h : Gap s r) : ∃ text, s = text ++ r := by
  rcases h with ⟨g, -, rfl⟩ | ⟨rfl, g, body, -, -, rfl⟩
  · exact ⟨g, rfl⟩
  · exact ⟨_, (List.append_nil _).symm⟩

/-- The text that tokens are spelled with is not empty, unless there are none. -/
theorem Spells.exists_passed {ts : List Token} {s r : List Char} (h : Spells ts s r) :
    ∃ text, s = text ++ r ∧ (ts ≠ [] → text ≠ []) := by
  induction h with
  | done => exact ⟨[], rfl, fun h => absurd rfl h⟩
  | gap hgap _ ih =>
    obtain ⟨g, rfl⟩ := hgap.exists_passed
    obtain ⟨text, rfl, hne⟩ := ih
    refine ⟨g ++ text, (List.append_assoc ..).symm, fun hts hnil => ?_⟩
    exact hne hts (List.append_eq_nil_iff.mp hnil).2
  | token hw _ ih =>
    obtain ⟨text, rfl, -⟩ := ih
    refine ⟨_ ++ text, (List.append_assoc ..).symm, fun _ hnil => ?_⟩
    exact hw.ne_nil (List.append_eq_nil_iff.mp hnil).1

/-- Nothing is derived from no tokens. -/
theorem Derives.ne_nil : ∀ {level : Level} {ts : List Token} {e : Expr Unit Unit},
    Derives level ts e → ts ≠ []
  | _, _, _, .ofDisjunction h | _, _, _, .ofConjunction h | _, _, _, .ofComparison h
  | _, _, _, .ofNegation h | _, _, _, .ofAccess h | _, _, _, .ofPrimary h => h.ne_nil
  | _, _, _, .or .. | _, _, _, .and .. | _, _, _, .equality .. => by simp
  | _, _, _, .select .. | _, _, _, .index .. | _, _, _, .call .. => by simp
  | _, _, _, .assign .. | _, _, _, .not .. | _, _, _, .null | _, _, _, .bool .. => by simp
  | _, _, _, .number .. | _, _, _, .string .. | _, _, _, .name .. | _, _, _, .arrow .. => by simp
  | _, _, _, .arrowBlock .. | _, _, _, .block .. | _, _, _, .parenthesis .. => by simp

namespace Parser

variable {α β σ : Type} {c : Cursor}

/-! ### Parsers that consume -/

/-- Whenever the parser is done, at least one character is gone. -/
def Consumes (p : Parser α) : Prop :=
  ∀ c a d, p c = .done a d → ∃ text, text ≠ [] ∧ c.rest = text ++ d.rest

/-- A parser that spans a derivation consumes: no derivation has no tokens. -/
theorem consumes_of_spans {p : Parser Tree} {level : Level}
    (h : ∀ c, Ensures p c (Spans level c.rest)) : Consumes p := by
  intro c e d hdone
  obtain ⟨ts, hts, he⟩ := h c e d hdone
  obtain ⟨text, htext, hne⟩ := hts.exists_passed
  exact ⟨text, hne he.ne_nil, htext⟩

/-- **Expressions consume**, on each level and with any bound. -/
theorem consumes_expression (n : Nat) : Consumes (expression n) :=
  consumes_of_spans (ensures_nested n).1

/-- **Blocks consume**, their braces at least. -/
theorem consumes_block (n : Nat) : Consumes (block n) := by
  intro c es d hdone
  obtain ⟨ts, terminated, hts, -⟩ := (ensures_nested n).2 c es d hdone
  obtain ⟨text, htext, hne⟩ := hts.exists_passed
  exact ⟨text, hne (List.cons_ne_nil _ _), htext⟩

/-! ### Rounds -/

/-- What is left of a round at the cursor, as a function of the number of rounds after it: it leaves the
loop, or it goes on with fewer than `m` characters. -/
def Turns (loop : Nat → σ → Parser α) (m : Nat) (body : Nat → Parser α) (c : Cursor) : Prop :=
  (∃ out, out ≠ .exhausted ∧ ∀ n, body n c = out) ∨
    ∃ s d, d.rest.length < m ∧ ∀ n, body n c = loop n s d

/-- **Every round makes progress** on texts of at most `m` characters. -/
def Progresses (loop : Nat → σ → Parser α) (m : Nat) : Prop :=
  ∀ s c, c.rest.length ≤ m → Turns loop c.rest.length (fun n => loop (n + 1) s) c

/-- **A loop that makes progress ends**: it needs no more rounds than there are characters, and one to
leave. -/
theorem Progresses.ne_exhausted {loop : Nat → σ → Parser α} {m n : Nat} (h : Progresses loop m)
    (s : σ) (hc : c.rest.length ≤ m) (hn : c.rest.length < n) : loop n s c ≠ .exhausted := by
  -- on the number of rounds; one that goes on leaves less text, so the other rounds suffice for it
  induction n generalizing s c with
  | zero => omega
  | succ n ih =>
    rcases h s c hc with ⟨out, hout, hleave⟩ | ⟨t, d, hd, hagain⟩
    · exact (hleave n).trans_ne hout
    · exact (hagain n).trans_ne (ih t (by omega) (by omega))

section Turns

variable {loop : Nat → σ → Parser α} {m : Nat}

/-- Turning is a property of what the round does, not of how it is written. -/
theorem Turns.of_eq {body body' : Nat → Parser α} (h : ∀ n, body n = body' n)
    (ht : Turns loop m body' c) : Turns loop m body c := by
  obtain rfl : body = body' := funext h
  exact ht

/-- A parser that does not depend on the number of rounds comes first. -/
theorem Reads.turns {p : Parser β} {mid : β → Cursor → Prop} {body : β → Nat → Parser α}
    (hp : Reads c p c mid)
    (hbody : ∀ b d, c.Reaches d → mid b d → Turns loop m (body b) d) :
    Turns loop m (fun n => p >>= fun b => body b n) c := by
  have hfits := hp (Cursor.Reaches.refl c)
  -- the parser that comes first is done or has failed, and it does so once for all numbers of rounds
  rcases hpc : p c with ⟨b, d⟩ | e | _
  · rw [hpc] at hfits
    have hturns := hbody b d hfits.1 hfits.2
    unfold Turns at hturns ⊢
    simp only [bind_of_done hpc]
    exact hturns
  · refine Or.inl ⟨.failed e, nofun, fun n => ?_⟩
    change Parser.bind p _ c = _
    rw [Parser.bind, hpc]
  · rw [hpc] at hfits
    exact hfits.elim

theorem turns_pure (a : α) : Turns loop m (fun _ => pure a) c :=
  Or.inl ⟨.done a c, nofun, fun _ => rfl⟩

theorem turns_fail (cause : ParseError.Cause) (l : Location) :
    Turns loop m (fun _ => fail cause l) c := Or.inl ⟨.failed ⟨cause, l⟩, nofun, fun _ => rfl⟩

/-- A round that hands over with less text goes on. -/
theorem turns_again (s : σ) (hc : c.rest.length < m) : Turns loop m (fun n => loop n s) c :=
  Or.inr ⟨s, c, hc, fun _ => rfl⟩

/-- A round that branches turns if both branches do. -/
theorem Turns.ite {P : Prop} [Decidable P] {body body' : Nat → Parser α}
    (hpos : P → Turns loop m body c) (hneg : ¬ P → Turns loop m body' c) :
    Turns loop m (fun n => if P then body n else body' n) c := by
  by_cases h : P
  · simp only [if_pos h]
    exact hpos h
  · simp only [if_neg h]
    exact hneg h

end Turns

/-! ### The loops of the grammar -/

/-- On texts of fewer than `m` characters the parser is not exhausted, and it consumes. -/
def Nests (p : Parser α) (m : Nat) : Prop :=
  ∀ c, c.rest.length < m → Reads c p c fun _ d => d.rest.length < c.rest.length

/-- A parser that reads from every text nests, whatever it gives. -/
theorem nests_of_readsBelow {p : Parser α} {m : Nat} {fits : Cursor → α → Prop}
    (h : ∀ o, ReadsBelow o p m (fits o)) : Nests p m :=
  fun c hc => (h c c hc).mono fun _ _ _ hd => hd.1

/-- Chains of one operator make progress. -/
theorem progresses_chainTail {op : String} {join : Tree → Tree → Tree} {operand : Parser Tree}
    {m : Nat} (hop : op ≠ "") (hoperand : Nests operand (m + 1)) :
    Progresses (chainTail op join operand) m := by
  intro left c hc
  refine .of_eq (fun n => chainTail.eq_2 ..) ?_
  refine reads_blanks.turns fun _ d hcd _ => ?_
  have hcd := hcd.length_le
  refine (reads_lookingAt op).turns fun b e _ he => ?_
  obtain ⟨rfl, rfl⟩ := he
  refine .ite (fun _ => ?_) fun _ => turns_pure left
  -- the operator alone makes the text shorter
  refine (reads_token op).turns fun _ f _ hf => ?_
  have hf := length_lt_of_token hop hf
  refine reads_blanks.turns fun _ g hfg _ => ?_
  have hfg := hfg.length_le
  refine (hoperand g (by omega)).turns fun right h _ hh => ?_
  exact turns_again _ (by omega)

/-- Chains of comparisons make progress. -/
theorem progresses_equalityTail {operand : Parser Tree} {m : Nat}
    (hoperand : Nests operand (m + 1)) : Progresses (equalityTail operand) m := by
  intro left c hc
  -- both comparisons go on in the same way
  have hstep : ∀ (t : String) (negated : Bool) (d : Cursor), t ≠ "" →
      d.rest.length ≤ c.rest.length →
      Turns (equalityTail operand) c.rest.length (fun n => do
        token t
        blanks
        let right ← operand
        equalityTail operand n (.equality left right negated)) d := by
    intro t negated d ht hd
    refine (reads_token t).turns fun _ f _ hf => ?_
    have hf := length_lt_of_token ht hf
    refine reads_blanks.turns fun _ g hfg _ => ?_
    have hfg := hfg.length_le
    refine (hoperand g (by omega)).turns fun right h _ hh => ?_
    exact turns_again _ (by omega)
  refine .of_eq (fun n => equalityTail.eq_2 ..) ?_
  refine reads_blanks.turns fun _ d hcd _ => ?_
  refine (reads_lookingAt "==").turns fun b e _ he => ?_
  obtain ⟨rfl, rfl⟩ := he
  refine .ite (fun _ => hstep "==" false _ (by decide) hcd.length_le) fun _ => ?_
  refine (reads_lookingAt "!=").turns fun b e _ he => ?_
  obtain ⟨rfl, rfl⟩ := he
  exact .ite (fun _ => hstep "!=" true _ (by decide) hcd.length_le) fun _ => turns_pure left

/-- Arguments make progress. -/
theorem progresses_arguments {expression : Parser Tree} {m : Nat} (hexpr : Nests expression (m + 1)) :
    Progresses (arguments expression) m := by
  intro read c hc
  refine .of_eq (fun n => arguments.eq_2 ..) ?_
  refine reads_peek.turns fun x d _ hd => ?_
  obtain ⟨-, rfl⟩ := hd
  refine .ite (fun _ => turns_pure _) fun _ => ?_
  refine (hexpr d (by omega)).turns fun argument e _ he => ?_
  refine reads_blanks.turns fun _ f hef _ => ?_
  have hef := hef.length_le
  refine reads_peek.turns fun y g _ hg => ?_
  obtain ⟨-, rfl⟩ := hg
  -- with a comma or without one, the argument has made the text shorter
  refine .ite (fun _ => ?_) fun _ => turns_again _ (by omega)
  refine (reads_token ",").turns fun _ h hgh _ => ?_
  have hgh := hgh.length_le
  refine reads_blanks.turns fun _ i hhi _ => ?_
  have hhi := hhi.length_le
  exact turns_again _ (by omega)

/-- Accesses and calls make progress. -/
theorem progresses_accessTail {expression : Parser Tree} {bound m : Nat}
    (hexpr : ∀ o, ReadsBelow o expression (m + 1) (ReadFrom o)) (hbound : m < bound) :
    Progresses (accessTail expression bound) m := by
  intro base c hc
  refine .of_eq (fun n => accessTail.eq_2 ..) ?_
  refine reads_blanks.turns fun _ d hcd _ => ?_
  have hcd := hcd.length_le
  refine reads_peek?.turns fun x e _ he => ?_
  obtain ⟨-, rfl⟩ := he
  -- a dot or an opening bracket makes the text shorter, and any other character ends the loop
  by_cases hdot : x = some '.'
  · subst hdot
    refine reads_next.turns fun _ f _ hf => ?_
    have hf : f.rest.length < e.rest.length := by rw [hf, List.length_cons]; omega
    refine reads_blanks.turns fun _ g hfg _ => ?_
    have hfg := hfg.length_le
    refine reads_here.turns fun place h _ hh => ?_
    obtain ⟨rfl, rfl⟩ := hh
    refine (reads_name .selector).turns fun selector i _ hi => ?_
    exact turns_again _ (by omega)
  by_cases hindex : x = some '['
  · subst hindex
    refine reads_here.turns fun place f _ hf => ?_
    obtain ⟨rfl, rfl⟩ := hf
    refine reads_next.turns fun _ g _ hg => ?_
    have hg : g.rest.length < f.rest.length := by rw [hg, List.length_cons]; omega
    refine reads_blanks.turns fun _ h hgh _ => ?_
    have hgh := hgh.length_le
    refine (nests_of_readsBelow hexpr h (by omega)).turns fun position i _ hi => ?_
    refine reads_blanks.turns fun _ j hij _ => ?_
    have hij := hij.length_le
    refine (reads_token "]").turns fun _ k hjk _ => ?_
    have hjk := hjk.length_le
    exact turns_again _ (by omega)
  by_cases hcall : x = some '('
  · subst hcall
    refine reads_here.turns fun place f _ hf => ?_
    obtain ⟨rfl, rfl⟩ := hf
    refine reads_next.turns fun _ g _ hg => ?_
    have hg : g.rest.length < f.rest.length := by rw [hg, List.length_cons]; omega
    refine reads_blanks.turns fun _ h hgh _ => ?_
    have hgh := hgh.length_le
    -- the loop over the arguments inside this round has a bound of its own
    refine (reads_arguments (hexpr h) bound (List.forall_mem_nil _) (by omega) (by omega)).turns
      fun args i hhi _ => ?_
    have hhi := hhi.length_le
    refine (reads_token ")").turns fun _ j hij _ => ?_
    have hij := hij.length_le
    exact turns_again _ (by omega)
  · refine .of_eq (fun n => ?_) (turns_pure base)
    split
    · exact absurd rfl hdot
    · exact absurd rfl hindex
    · exact absurd rfl hcall
    · rfl

/-- The state of the loop is what it has read, and whether a semicolon or a block was among it. -/
theorem progresses_statementsUpTo (close : Option Char) {expression : Parser Tree}
    {block : Parser (List Tree)} {m : Nat} (hexpr : Nests expression (m + 1))
    (hblock : Nests block (m + 1)) :
    Progresses (fun n (s : List Tree × Bool) =>
      statementsUpTo close expression block n s.1 s.2) m := by
  rintro ⟨read, terminated⟩ c hc
  refine .of_eq (fun n => statementsUpTo_succ ..) ?_
  refine reads_blanks.turns fun _ d hcd _ => ?_
  have hcd := hcd.length_le
  refine reads_peek?.turns fun x e _ he => ?_
  obtain ⟨-, rfl⟩ := he
  cases x with
  | none => exact .ite (fun _ => reads_here.turns fun _ _ _ _ => turns_fail _ _) fun _ => turns_pure _
  | some x =>
    refine .ite (fun _ => turns_pure _) fun _ => ?_
    refine .ite (fun _ => ?_) fun _ => ?_
    · refine reads_next.turns fun _ f _ hf => ?_
      have hf : f.rest.length < e.rest.length := by rw [hf, List.length_cons]; omega
      exact turns_again (read, true) (by omega)
    refine .ite (fun _ => ?_) fun _ => ?_
    · refine (hblock e (by omega)).turns fun body f _ hf => ?_
      exact turns_again (.block body :: read, true) (Nat.lt_of_lt_of_le hf hcd)
    -- an expression is a statement whether a semicolon, the closing brace or the end comes after it
    refine (hexpr e (by omega)).turns fun statement f _ hf => ?_
    refine reads_blanks.turns fun _ g hfg _ => ?_
    have hfg := hfg.length_le
    refine reads_peek?.turns fun y h _ hh => ?_
    obtain ⟨-, rfl⟩ := hh
    cases y with
    | none => exact turns_again (statement :: read, terminated) (by omega)
    | some y =>
      refine .ite (fun _ => ?_) fun _ => ?_
      · refine reads_next.turns fun _ i hi _ => ?_
        have hi := hi.length_le
        exact turns_again (statement :: read, true) (by omega)
      refine .ite (fun _ => turns_again (statement :: read, terminated) (by omega)) fun _ => ?_
      exact reads_here.turns fun _ _ _ _ => turns_fail _ _

/-- The characters of a string make progress. -/
theorem progresses_stringTail (quote : Char) (m : Nat) : Progresses (stringTail quote) m := by
  intro read c _
  refine .of_eq (fun n => stringTail.eq_2 ..) ?_
  -- an escape is read in one round, and it is not empty either
  refine reads_next.turns fun x d _ hd => ?_
  have hd : d.rest.length < c.rest.length := by rw [hd, List.length_cons]; omega
  refine .ite (fun _ => turns_pure _) fun _ => ?_
  refine .ite (fun _ => ?_) fun _ => turns_again _ hd
  exact reads_escape.turns fun y e _ he => turns_again _ (by omega)

/-- **A round past white space and comments** stops where it is, or moves one character on. -/
theorem skipTrivia_cases (comment : Bool) (text : List Char) (l : Location) :
    Cursor.skipTrivia comment text l = ⟨text, l⟩ ∨
      ∃ x rest comment', text = x :: rest ∧
        Cursor.skipTrivia comment text l = Cursor.skipTrivia comment' rest (l.advance x) := by
  cases text with
  | nil =>
    cases comment with
    | false => exact Or.inl rfl
    | true => exact Or.inl rfl
  | cons x rest =>
    cases comment with
    | true => exact Or.inr ⟨x, rest, _, rfl, rfl⟩
    | false =>
      rw [Cursor.skipTrivia]
      split
      · exact Or.inr ⟨x, rest, true, rfl, rfl⟩
      split
      · exact Or.inr ⟨x, rest, false, rfl, rfl⟩
      · exact Or.inl rfl

/-! ### Assignments -/

/-- A text for which the look-ahead finds an operator starts with a name. -/
theorem exists_name_of_ahead {text : List Char} {k : Nat} (h : assignmentAhead text = some k) :
    ∃ (x : String) (rest : List Char), text = x.toList ++ rest ∧ IsName x ∧
      ∀ y ∈ rest.head?, isNamePart y = false := by
  -- the name is the longest run of its characters, so what comes after it cannot go on with it
  obtain _ | ⟨first, others⟩ := text
  · exact absurd h (Option.some_ne_none k).symm
  by_cases hfirst : isNameStart first = true
  · have hlist := String.toList_ofList (l := first :: others.takeWhile isNamePart)
    refine ⟨_, others.dropWhile isNamePart, ?_, ⟨first, _, hlist, hfirst, ?_⟩, ?_⟩
    · rw [hlist, List.cons_append, List.takeWhile_append_dropWhile]
    · exact List.all_eq_true.mp List.all_takeWhile
    · intro y hy
      have hnot := List.head?_dropWhile_not isNamePart others
      rw [hy] at hnot
      simpa using hnot
  · rw [assignmentAhead, if_neg hfirst] at h
    exact absurd h (Option.some_ne_none k).symm

/-- At the cursor stand a name, white space and the assignment operator of `k` characters, and the
parser of assignments reads its value right after them. Only a keyword in place of the name keeps it
from getting there. -/
def TakesOperator (c : Cursor) (k : Nat) : Prop :=
  ∃ (x : String) (blank : List Char) (op : String) (d : Cursor),
    c.rest = x.toList ++ (blank ++ (op.toList ++ d.rest)) ∧ c.Reaches d ∧ IsName x ∧
    (∀ y ∈ blank, isBlank y = true) ∧ (k = 1 ∧ op = "=" ∨ k = 2 ∧ op = ":=") ∧
    ∀ value : Parser Tree, assignment value k c =
      if x ∈ keywords then .failed ⟨.unexpectedKeyword x, c.location⟩
      else (do
        blanks
        let v ← value
        return Expr.assign (.target x c.location) v c.location) d

/-- **What the look-ahead has seen is consumed.** -/
theorem takesOperator_of_ahead {k : Nat} (h : assignmentAhead c.rest = some k) :
    TakesOperator c k := by
  obtain ⟨x, rest, htext, hname, hend⟩ := exists_name_of_ahead h
  obtain ⟨_, e, hdone, rfl, he⟩ := yields_name .assignment hname hend htext
  have hce : c.Reaches e := by
    have hfits := reads_name (o := c) .assignment (Cursor.Reaches.refl c)
    rw [hdone] at hfits
    exact hfits.1
  -- the operator comes right after the white space, and what the parser skips is that white space
  rw [htext, assignmentAhead_append hname hend] at h
  obtain ⟨op, hop, hlength, hsplit, -⟩ := assignOperator?_eq_some h
  have hskip : e.skipBlanks.rest = rest.dropWhile isBlank := by
    rw [skipBlanks_rest, he, unblanked_of_assignOperator? h]
  have hdrop : (e.skipBlanks.skip k).rest = (rest.dropWhile isBlank).drop k := by
    rw [Cursor.skip_rest, hskip]
  refine ⟨_, rest.takeWhile isBlank, op, e.skipBlanks.skip k, ?_, ?_, hname, ?_, ?_, ?_⟩
  · rw [hdrop, ← hsplit, List.takeWhile_append_dropWhile]
    exact htext
  · exact hce.trans ((Cursor.reaches_skipBlanks e).trans (Cursor.reaches_skip k _))
  · exact List.all_eq_true.mp List.all_takeWhile
  · rcases hop with rfl | rfl
    · exact Or.inl ⟨hlength.symm, rfl⟩
    · exact Or.inr ⟨hlength.symm, rfl⟩
  · intro value
    rw [assignment, bind_of_done (show here c = .done c.location c from rfl), bind_of_done hdone]
    split
    · rfl
    · rfl

/-! ### Everything at once -/

/-- The parsers of expressions and blocks consume, if those that they nest have the bound `n`. -/
structure LevelsConsume (n : Nat) : Prop where
  expressions : Consumes (expression n)
  disjunctions : Consumes (disjunction (expression n) (block n) (n + 1))
  conjunctions : Consumes (conjunction (expression n) (block n) (n + 1))
  comparisons : Consumes (equality (expression n) (block n) (n + 1))
  negations (k : Nat) : Consumes (negation (access (expression n) (block n) (n + 1)) k)
  accesses : Consumes (access (expression n) (block n) (n + 1))
  primaries : Consumes (primary (expression n) (block n) (n + 1))
  blocks : Consumes (block n)

/-- **All levels consume**, since each of them spans a derivation of its own. -/
theorem levelsConsume (n : Nat) : LevelsConsume n := by
  -- what the nested parsers span is known for the bound, and the levels above follow from it
  obtain ⟨hexpr, hblock⟩ := ensures_nested n
  have haccess : ∀ c, Ensures (access (expression n) (block n) (n + 1)) c (Spans .access c.rest) :=
    fun _ => ensures_access hexpr hblock (n + 1)
  constructor
  case expressions => exact consumes_expression n
  case disjunctions => exact consumes_of_spans fun _ => ensures_disjunction hexpr hblock (n + 1)
  case conjunctions => exact consumes_of_spans fun _ => ensures_conjunction hexpr hblock (n + 1)
  case comparisons => exact consumes_of_spans fun _ => ensures_equality hexpr hblock (n + 1)
  case negations => exact fun k => consumes_of_spans fun _ => ensures_negation haccess k
  case accesses => exact consumes_of_spans haccess
  case primaries => exact consumes_of_spans fun _ => ensures_primary hexpr hblock (n + 1)
  case blocks => exact consumes_block n

/-- The loops of the grammar make progress on texts of at most `m` characters, if the expressions and
blocks that they nest have the bound `n`. -/
structure LoopsProgress (n m : Nat) : Prop where
  statements (close : Option Char) : Progresses (fun k (s : List Tree × Bool) =>
    statementsUpTo close (expression n) (block n) k s.1 s.2) m
  disjunctions : Progresses (chainTail "||" .or (conjunction (expression n) (block n) (n + 1))) m
  conjunctions : Progresses (chainTail "&&" .and (equality (expression n) (block n) (n + 1))) m
  comparisons :
    Progresses (equalityTail (negation (access (expression n) (block n) (n + 1)) (n + 1))) m
  accesses : Progresses (accessTail (expression n) (n + 1)) m
  arguments : Progresses (arguments (expression n)) m
  strings (quote : Char) : Progresses (stringTail quote) m

/-- **All loops make progress** on texts that the bound is large enough for. -/
theorem loopsProgress {n m : Nat} (h : 2 * (m + 1) ≤ n) : LoopsProgress n m := by
  -- the nested parsers read shorter texts, and each level reads what the one below it does
  have hexpr : ∀ o, ReadsBelow o (expression n) (m + 1) (ReadFrom o) :=
    fun o => (reads_nested o n (m + 1)).1 h
  have hblock : ∀ o, ReadsBelow o (block n) (m + 1) (AllReadFrom o) :=
    fun o => (reads_nested o n (m + 1)).2 (by omega)
  have hbound : m < n + 1 := by omega
  have hshorter : ∀ o, ReadsBelow o (expression n) m (ReadFrom o) :=
    fun o c hc => hexpr o c (by omega)
  have hnegation : ∀ o, ReadsBelow o
      (negation (access (expression n) (block n) (n + 1)) (n + 1)) (m + 1) (ReadFrom o) :=
    fun o c hc => reads_negation (reads_access (hshorter o) (hblock o) hbound) _ hc (by omega)
  have hequality : ∀ o, ReadsBelow o (equality (expression n) (block n) (n + 1)) (m + 1)
      (ReadFrom o) := fun o => reads_equality (hshorter o) (hblock o) hbound
  have hconjunction : ∀ o, ReadsBelow o (conjunction (expression n) (block n) (n + 1)) (m + 1)
      (ReadFrom o) := fun o => reads_chain hbound (by decide) .and (hequality o)
  constructor
  case statements =>
    exact fun close => progresses_statementsUpTo close (nests_of_readsBelow hexpr)
      (nests_of_readsBelow hblock)
  case disjunctions =>
    exact progresses_chainTail (by decide) (nests_of_readsBelow hconjunction)
  case conjunctions =>
    exact progresses_chainTail (by decide) (nests_of_readsBelow hequality)
  case comparisons => exact progresses_equalityTail (nests_of_readsBelow hnegation)
  case accesses => exact progresses_accessTail hexpr hbound
  case arguments => exact progresses_arguments (nests_of_readsBelow hexpr)
  case strings => exact fun quote => progresses_stringTail quote m

/-- A parser that nests is not exhausted on the texts that it is meant for. -/
theorem Nests.ne_exhausted {p : Parser α} {m : Nat} (h : Nests p m) (hc : c.rest.length < m) :
    p c ≠ .exhausted := by
  intro hexhausted
  have hfits := h c hc (Cursor.Reaches.refl c)
  rw [hexhausted] at hfits
  exact hfits

/-- **The recursion is not exhausted** if its bound is twice the number of places in the text. -/
theorem ne_exhausted {n : Nat} (h : 2 * (c.rest.length + 1) ≤ n) :
    expression n c ≠ .exhausted ∧ block n c ≠ .exhausted := by
  have hexpr : Nests (expression n) (c.rest.length + 1) :=
    nests_of_readsBelow fun o => (reads_nested o n _).1 h
  have hblock : Nests (block n) (c.rest.length + 1) :=
    nests_of_readsBelow fun o => (reads_nested o n _).2 (by omega)
  exact ⟨hexpr.ne_exhausted (Nat.lt_succ_self _), hblock.ne_exhausted (Nat.lt_succ_self _)⟩

/-- The outcome of reading a whole source is a script or an error, and `parse` gives just this. -/
theorem parse_cases (source : String) :
    (∃ tree d, script (2 * (source.length + 1)) (.start source) = .done tree d ∧
      parse source = .ok tree) ∨
    ∃ e, script (2 * (source.length + 1)) (.start source) = .failed e ∧ parse source = .error e := by
  have hfits := script_fits source
  unfold parse
  rcases hscript : script (2 * (source.length + 1)) (.start source) with ⟨tree, d⟩ | e | _
  · exact Or.inl ⟨tree, d, rfl, rfl⟩
  · exact Or.inr ⟨e, rfl, rfl⟩
  -- an exhausted recursion would contradict what is known of reading the whole source
  · rw [hscript] at hfits
    exact hfits.elim

/-- **The parser makes progress, and so it ends.** Whenever a parser of an expression, at any level, or of
a block is done, it has consumed a character. Every round of the loops leaves its loop or goes on with
less text, and past white space and comments it goes on by one character. What the look-ahead for
assignments has seen is what is consumed of an assignment. So a loop that has more rounds than there are
characters is not exhausted, and neither is the recursion, if its bound is twice the number of places in
the text. In particular reading a source gives a script or an error. -/
theorem reading_progresses :
    (∀ n, LevelsConsume n) ∧
    (∀ n m, 2 * (m + 1) ≤ n → LoopsProgress n m) ∧
    (∀ (comment : Bool) (text : List Char) (l : Location),
      Cursor.skipTrivia comment text l = ⟨text, l⟩ ∨
        ∃ x rest comment', text = x :: rest ∧
          Cursor.skipTrivia comment text l = Cursor.skipTrivia comment' rest (l.advance x)) ∧
    (∀ (c : Cursor) (k : Nat), assignmentAhead c.rest = some k → TakesOperator c k) ∧
    (∀ {σ α : Type} (loop : Nat → σ → Parser α) (m : Nat), Progresses loop m →
      ∀ s c k, c.rest.length ≤ m → c.rest.length < k → loop k s c ≠ .exhausted) ∧
    (∀ (n : Nat) (c : Cursor), 2 * (c.rest.length + 1) ≤ n →
      expression n c ≠ .exhausted ∧ block n c ≠ .exhausted) ∧
    ∀ source : String,
      (∃ tree d, script (2 * (source.length + 1)) (.start source) = .done tree d ∧
        parse source = .ok tree) ∨
      ∃ e, script (2 * (source.length + 1)) (.start source) = .failed e ∧ parse source = .error e := by
  refine ⟨levelsConsume, fun n m h => loopsProgress h, skipTrivia_cases, ?_, ?_, ?_, parse_cases⟩
  · exact fun c k h => takesOperator_of_ahead h
  · exact fun loop m h s c k hc hk => h.ne_exhausted s hc hk
  · exact fun n c h => ne_exhausted h

/-- An assignment of a block closure, in which two rounds of the recursion start at one character. -/
theorem reading_progresses_closure :
    assignmentAhead "x :={!y}".toList = some 2 ∧
      TakesOperator ⟨"x :={!y}".toList, {}⟩ 2 ∧ LoopsProgress 18 8 ∧
      expression 18 ⟨"x :={!y}".toList, {}⟩ ≠ .exhausted := by
  have hahead : assignmentAhead "x :={!y}".toList = some 2 := by decide
  obtain ⟨-, hloops, -, hassign, -, hbound, -⟩ := reading_progresses
  exact ⟨hahead, hassign ⟨"x :={!y}".toList, {}⟩ 2 hahead, hloops 18 8 (by decide),
    (hbound 18 ⟨"x :={!y}".toList, {}⟩ (by decide)).1⟩

end Parser

end GraphQuery
