import GraphQuery.Proofs.Script.Accepts

/-!
# Printing and reading back

A printable script is read back as it was, up to the places of its names, accesses and calls. The
proof follows the grammar: for each position there is a statement of what the parser of that position
makes of the text of an expression with some text after it, and the statements are shown together by
induction on `Expr.Printable`.

Two of the statements need a word. An operand leaves the text after it without its leading blanks,
because the parser of accesses looks past them for a dot, a bracket or a parenthesis. And a base is
not read by a parser of its own: an access is read from the left, so what is stated of a base is that
a parser which reads it gets to `accessTail` with the base in hand, and goes on from there.

The bounds of the parsers are twice the number of places in the text, as in `Parser.reads_nested`.

## Main statements

* `Parser.rereads`: in each position, a printable expression is read back.
* `parse_display`: a printable script is read back.
-/

namespace GraphQuery

namespace Parser

variable {L S : Type}

/-- The expression is read back where a full expression is read. -/
def RereadsFull (e : Expr L S) : Prop :=
  ∀ {n : Nat} {c : Cursor} {rest : List Char}, Closes rest → c.rest = e.text ++ rest →
    2 * (c.rest.length + 1) ≤ n → Yields (expression n) c (Similar e) rest

/-- The statements between braces are read back where a block is read. -/
def RereadsBlock (es : List (Expr L S)) : Prop :=
  ∀ {n : Nat} {c : Cursor} {rest : List Char}, c.rest = (Expr.block es).text ++ rest →
    2 * (c.rest.length + 1) ≤ n + 1 → Yields (block n) c (AllSimilar es) rest

/-- The expression is read back as an operand, if what follows it is as `follow` says. -/
def RereadsOperand (follow : List Char → Prop) (e : Expr L S) : Prop :=
  ∀ {n k : Nat} {c : Cursor} {raw : List Char}, follow raw → c.rest = e.text ++ raw →
    2 * c.rest.length + 1 ≤ n → c.rest.length < k →
    Yields (negation (access (expression n) (block n) (n + 1)) k) c (Similar e) (unblanked raw)

/-- Reading an access that starts with the expression comes to accesses on it. -/
def RereadsBase (e : Expr L S) : Prop :=
  ∀ {n : Nat} {c : Cursor} {raw rest : List Char} {fits : Tree → Prop}, Separates raw →
    c.rest = e.text ++ raw → 2 * c.rest.length + 1 ≤ n →
    (∀ {t d k}, Similar e t → unblanked d.rest = unblanked raw → d.rest.length ≤ raw.length →
      raw.length < k → Yields (accessTail (expression n) (n + 1) k t) d fits rest) →
    Yields (access (expression n) (block n) (n + 1)) c fits rest

/-! ### Arguments -/

/-- No white space comes before arguments, and none before the parenthesis if there are none. -/
theorem unblanked_argumentsText {as : List (Expr L S)} (has : ∀ a ∈ as, Expr.Printable .full a)
    (raw : List Char) : unblanked (Expr.argumentsText as ++ (')' :: raw)) =
      Expr.argumentsText as ++ (')' :: raw) := by
  match as, has with
  | [], _ => exact unblanked_cons (by decide) raw
  | [a], has =>
    rw [Expr.argumentsText_singleton]
    exact (has a List.mem_cons_self).unblanked_text _
  | a :: b :: as, has =>
    rw [Expr.argumentsText_cons_cons, List.append_assoc]
    exact (has a List.mem_cons_self).unblanked_text _

/-- **Arguments** are read back up to the closing parenthesis. -/
theorem yields_arguments {as : List (Expr L S)} (has : ∀ a ∈ as, Expr.Printable .full a)
    (hrereads : ∀ a ∈ as, RereadsFull a) {n k : Nat} {c : Cursor} {raw : List Char}
    {read : List Tree} (hc : c.rest = Expr.argumentsText as ++ (')' :: raw))
    (hn : 2 * (c.rest.length + 1) ≤ n) (hk : c.rest.length < k) :
    Yields (arguments (expression n) k read) c
      (fun ts => ts.map Expr.erase = read.reverse.map Expr.erase ++ as.map Expr.erase)
      (')' :: raw) := by
  induction as generalizing c k read with
  | nil =>
    obtain ⟨k, rfl⟩ : ∃ m, k = m + 1 := ⟨k - 1, by omega⟩
    exact yields_arguments_end hc (List.append_nil _).symm
  | cons a as ih =>
    obtain ⟨k, rfl⟩ : ∃ m, k = m + 1 := ⟨k - 1, by omega⟩
    have ha := has a List.mem_cons_self
    have hfull : RereadsFull a := hrereads a List.mem_cons_self
    have has' : ∀ b ∈ as, Expr.Printable .full b := fun b hb => has b (List.mem_cons_of_mem a hb)
    have hrereads' : ∀ b ∈ as, RereadsFull b := fun b hb => hrereads b (List.mem_cons_of_mem a hb)
    -- what is to be shown after the argument, and after the comma if there is one
    have hnext : ∀ (u : Tree) (d : Cursor), Similar a u →
        d.rest = Expr.argumentsText as ++ (')' :: raw) → d.rest.length < c.rest.length →
        Yields (arguments (expression n) k (u :: read)) d
          (fun ts => ts.map Expr.erase =
            read.reverse.map Expr.erase ++ (a :: as).map Expr.erase) (')' :: raw) := by
      intro u d hu hd hlength
      refine (ih has' hrereads' hd (by omega) (by omega)).mono fun ts hts => ?_
      rw [hts, List.reverse_cons, List.map_append, List.map_singleton, List.append_assoc, hu]
      rfl
    cases as with
    | nil =>
      rw [Expr.argumentsText_singleton] at hc
      refine yields_arguments_last ha hc (fun d hd => ?_) fun u d hu hd => hnext u d hu hd ?_
      · exact hfull (closes_cons (by decide)) hd (by rw [hd, ← hc]; exact hn)
      · obtain ⟨x, t, hx, -⟩ := ha.opens_ne
        rw [hd, hc, hx]
        simp only [List.length_append, List.length_cons]
        omega
    | cons b as =>
      simp only [Expr.argumentsText_cons_cons, List.append_assoc, List.cons_append] at hc
      refine yields_arguments_comma ha hc (unblanked_argumentsText has' raw) (fun d hd => ?_)
        fun u d hu hd => hnext u d hu hd ?_
      · exact hfull (closes_cons (by decide)) hd (by rw [hd, ← hc]; exact hn)
      · rw [hd, hc]
        simp only [List.length_append, List.length_cons]
        omega

/-- What is read back as an operand before a delimiter is read back as a full expression. -/
theorem RereadsOperand.full {e : Expr L S} (h : RereadsOperand Closes e)
    (he : Expr.Printable .right e) : RereadsFull e := by
  intro n c rest hrest hc hn
  obtain ⟨n, rfl⟩ : ∃ m, n = m + 1 := ⟨n - 1, by omega⟩
  -- no operator follows, so every level passes the operand on
  have hblank := unblanked_of_closes hrest
  refine yields_expression_of_disjunction ?_ fun d hd => ?_
  · rw [hc]
    exact he.assignmentAhead_eq_none (Or.inr (Or.inr rfl)) (.of_closes hrest)
  · have hlength : d.rest.length = c.rest.length := by rw [hd]
    have hoperand := h (n := n) (k := n + 1) hrest (hd.trans hc) (by omega) (by omega)
    rw [hblank] at hoperand
    refine yields_disjunction_stop ?_ (hrest.not_operator (by decide)) hblank
    refine yields_conjunction_stop ?_ (hrest.not_operator (by decide)) hblank
    exact yields_equality_stop hoperand (hrest.not_operator (by decide))
      (hrest.not_operator (by decide)) hblank

/-! ### Statements -/

/-- The expression is read back where a statement is read. -/
def RereadsStatement (e : Expr L S) : Prop :=
  (∃ es, e = .block es ∧ RereadsBlock es) ∨
    (∀ x ∈ e.text.head?, x ≠ '\x7b') ∧ (∀ es, e ≠ .block es) ∧ RereadsFull e

/-- No white space comes before statements, unless it comes before what follows them. -/
theorem unblanked_statementsText {es : List (Expr L S)}
    (hes : ∀ e ∈ es, Expr.Printable .statement e) {tail : List Char}
    (htail : unblanked tail = tail) :
    unblanked (Expr.statementsText es ++ tail) = Expr.statementsText es ++ tail := by
  cases es with
  | nil => exact htail
  | cons e es =>
    rw [Expr.statementsText_cons, List.append_assoc]
    exact (hes e List.mem_cons_self).unblanked_text _

/-- **Statements** are read back up to where they end. -/
theorem yields_statementsUpTo {es : List (Expr L S)} (hes : ∀ e ∈ es, Expr.Printable .statement e)
    (hrereads : ∀ e ∈ es, RereadsStatement e) {close : Option Char} {tail : List Char}
    (htail : Ends close tail) {n k : Nat} {c : Cursor} {read : List Tree} {terminated : Bool}
    (hc : unblanked c.rest = Expr.statementsText es ++ tail) (hn : 2 * (c.rest.length + 1) ≤ n)
    (hk : c.rest.length < k) :
    Yields (statementsUpTo close (expression n) (block n) k read terminated) c
      (fun out => out.1.map Expr.erase = read.reverse.map Expr.erase ++ es.map Expr.erase ∧
        out.2 = (terminated || !es.isEmpty)) tail := by
  -- only a closing brace can end the statements before the text does
  have hclose : ∀ x, x ≠ '\x7d' → close ≠ some x := by
    rintro x hx rfl
    rcases htail with ⟨h, -⟩ | ⟨h, -⟩
    · exact nomatch h
    · exact hx (Option.some.inj h)
  induction es generalizing c k read terminated with
  | nil =>
    obtain ⟨k, rfl⟩ : ∃ m, k = m + 1 := ⟨k - 1, by omega⟩
    exact yields_statementsUpTo_end htail hc ⟨(List.append_nil _).symm, (Bool.or_false _).symm⟩
  | cons s es ih =>
    have hs := hes s List.mem_cons_self
    have hes' : ∀ e ∈ es, Expr.Printable .statement e :=
      fun e he => hes e (List.mem_cons_of_mem s he)
    have hrereads' : ∀ e ∈ es, RereadsStatement e :=
      fun e he => hrereads e (List.mem_cons_of_mem s he)
    -- what is to be shown after the statement and its semicolon
    have hnext : ∀ (t : Tree) (d : Cursor) (k : Nat), Similar s t →
        d.rest = ' ' :: (Expr.statementsText es ++ tail) → 2 * (d.rest.length + 1) ≤ n →
        d.rest.length < k →
        Yields (statementsUpTo close (expression n) (block n) k (t :: read) true) d
          (fun out => out.1.map Expr.erase =
              read.reverse.map Expr.erase ++ (s :: es).map Expr.erase ∧
            out.2 = (terminated || !(s :: es).isEmpty)) tail := by
      intro t d k ht hd hn hk
      have hd' : unblanked d.rest = Expr.statementsText es ++ tail := by
        rw [hd, unblanked_space]
        exact unblanked_statementsText hes' htail.unblanked
      refine (ih hes' hrereads' hd' hn hk).mono fun out hout => ⟨?_, ?_⟩
      · rw [hout.1, List.reverse_cons, List.map_append, List.map_singleton, List.append_assoc, ht]
        rfl
      · rw [hout.2, Bool.true_or, List.isEmpty_cons, Bool.not_false, Bool.or_true]
    have hlength := length_unblanked_le c.rest
    simp only [Expr.statementsText_cons, List.append_assoc, List.cons_append] at hc
    obtain ⟨x, others, hx, -, -, hsemicolon, hbrace⟩ := hs.opens_ne
    obtain ⟨k, rfl⟩ : ∃ m, k = m + 1 := ⟨k - 1, by omega⟩
    rcases hrereads s List.mem_cons_self with ⟨body, rfl, hblock⟩ | ⟨hopen, -, hfull⟩
    · -- the block ends before the semicolon, which takes a round of its own
      have hopen : unblanked c.rest = '\x7b' :: (' ' :: (Expr.statementsText body ++ ['\x7d']) ++
          (';' :: ' ' :: (Expr.statementsText es ++ tail))) := by
        rw [hc, Expr.text_block, List.cons_append]
      have hread : ∀ d, d.rest = unblanked c.rest → Yields (block n) d (AllSimilar body)
          (';' :: ' ' :: (Expr.statementsText es ++ tail)) := by
        intro d hd
        refine hblock (hd.trans hc) ?_
        rw [hd]
        omega
      rw [hc, List.length_append, Expr.text_block, List.length_cons, List.length_cons,
        List.length_cons, List.length_cons] at hlength
      obtain ⟨k, rfl⟩ : ∃ m, k = m + 1 := ⟨k - 1, by omega⟩
      refine yields_statementsUpTo_block (hclose _ (by decide)) hopen (hopen ▸ hread)
        fun ts d hts hd => ?_
      have hd' : unblanked d.rest = ';' :: ' ' :: (Expr.statementsText es ++ tail) := by
        rw [hd]
        exact unblanked_cons (by decide) _
      refine yields_statementsUpTo_semicolon (hclose _ (by decide)) hd' fun e he => ?_
      refine hnext (.block ts) e k hts.block he ?_ ?_
      · rw [he, List.length_cons]
        omega
      · rw [he, List.length_cons]
        omega
    -- an expression takes its semicolon in the same round
    · rw [hc, List.length_append, hx, List.length_cons, List.length_cons] at hlength
      refine yields_statementsUpTo_expression (hclose x hbrace) hsemicolon
        (hopen x (by rw [hx]; rfl)) (by rw [hx]; rfl) hc (fun d hd => ?_) fun t d ht hd => ?_
      · refine hfull (closes_cons (by decide)) hd ?_
        rw [hd, ← hc]
        exact Nat.le_trans (Nat.mul_le_mul_left 2 (Nat.succ_le_succ (length_unblanked_le _))) hn
      · exact hnext t d k ht hd (by rw [hd]; omega) (by rw [hd]; omega)

/-- **Statements in braces** are read back as a block. -/
theorem rereadsBlock {es : List (Expr L S)} (hes : ∀ e ∈ es, Expr.Printable .statement e)
    (hrereads : ∀ e ∈ es, RereadsStatement e) : RereadsBlock es := by
  intro n c rest hc hn
  obtain ⟨n, rfl⟩ : ∃ m, n = m + 1 := ⟨n - 1, by omega⟩
  -- the bound has one left, so a block is statements between braces
  change Yields (braced (expression n) (block n) (n + 1)) c (AllSimilar es) rest
  have hopen : c.rest = "\x7b".toList ++ (' ' :: (Expr.statementsText es ++ ('\x7d' :: rest))) := by
    rw [hc, Expr.text_block]
    simp only [List.cons_append, List.append_assoc, List.nil_append]
    rfl
  refine (yields_token hopen).bind fun _ d _ hd => ?_
  have hlength : d.rest.length < c.rest.length := by
    rw [hd, hopen, List.length_append]
    exact Nat.lt_add_of_pos_left (by decide)
  have hend : Ends (some '\x7d') ('\x7d' :: rest) := Or.inr ⟨rfl, rest, rfl⟩
  have hd' : unblanked d.rest = Expr.statementsText es ++ ('\x7d' :: rest) := by
    rw [hd, unblanked_space]
    exact unblanked_statementsText hes hend.unblanked
  refine (yields_statementsUpTo hes hrereads hend hd' (by omega) (by omega)).bind
    fun out e hout he => ?_
  refine (yields_token (t := "\x7d") he).bind fun _ f _ hf => ?_
  exact yields_pure hout.1 hf

/-! ### Bases -/

/-- A primary that leaves what follows it, perhaps without its blanks, is a base. -/
theorem rereadsBase_of_primary {e : Expr L S}
    (h : ∀ {n : Nat} {c : Cursor} {raw : List Char}, Separates raw → c.rest = e.text ++ raw →
      2 * c.rest.length + 1 ≤ n → ∃ rest, (rest = raw ∨ rest = unblanked raw) ∧
        Yields (primary (expression n) (block n) (n + 1)) c (Similar e) rest) :
    RereadsBase e := by
  intro n c raw rest fits hraw hc hn hnext
  -- `accessTail` skips blanks, so it does not matter whether the primary did
  obtain ⟨between, hbetween, hprimary⟩ := h hraw hc hn
  have hlength : raw.length ≤ c.rest.length := by
    rw [hc, List.length_append]
    omega
  refine hprimary.bind fun t d ht hd => ?_
  refine hnext ht ?_ ?_ (by omega)
  · rcases hbetween with rfl | rfl
    · rw [hd]
    · rw [hd, unblanked_unblanked]
  · rcases hbetween with rfl | rfl
    · exact Nat.le_of_eq (congrArg List.length hd)
    · rw [hd]
      exact length_unblanked_le raw

/-- A keyword is read back as the constant that it stands for. -/
theorem rereadsBase_keyword {e : Expr L S} {x : String} {u : Tree} (hx : IsName x)
    (htext : e.text = x.toList) (hu : Similar e u)
    (hkeyword : x = "false" ∧ u = .bool false ∨ x = "null" ∧ u = .null ∨
      x = "true" ∧ u = .bool true) : RereadsBase e := by
  refine rereadsBase_of_primary fun hraw hc _ => ⟨_, Or.inl rfl, ?_⟩
  rw [htext] at hc
  obtain ⟨first, others, hfirst, hstart, -⟩ := id hx
  have hopen := hc
  rw [hfirst, List.cons_append] at hopen
  refine yields_primary_named hstart hopen fun d hd => ?_
  rw [← hopen] at hd
  exact (yields_named_keyword hx hkeyword hraw.name (hd.trans hc)).mono fun v hv => hv ▸ hu

/-- A variable is read back up to its place. -/
theorem rereadsBase_variable {x : String} (hx : IsVariableName x) (l : L) :
    RereadsBase (.variable x l : Expr L S) := by
  refine rereadsBase_of_primary fun hraw hc _ => ⟨_, Or.inr rfl, ?_⟩
  rw [Expr.text_variable] at hc
  obtain ⟨first, others, hfirst, hstart, -⟩ := id hx.1
  have hopen := hc
  rw [hfirst, List.cons_append] at hopen
  refine yields_primary_named hstart hopen fun d hd => ?_
  rw [← hopen] at hd
  refine (yields_named_variable hx hraw (hd.trans hc)).mono ?_
  rintro u ⟨m, rfl⟩
  rfl

/-- A numeral is read back as it was written. -/
theorem rereadsBase_number {t : String} (ht : IsNumeral t) :
    RereadsBase (.number t : Expr L S) := by
  refine rereadsBase_of_primary fun hraw hc _ => ⟨_, Or.inl rfl, ?_⟩
  rw [Expr.text_number] at hc
  exact (yields_primary_number ht hraw.endsNumeral hc).mono fun u hu => hu ▸ rfl

/-- A string is read back from its quoted form. -/
theorem rereadsBase_string {s : String} (hs : IsPlain s) :
    RereadsBase (.string s : Expr L S) := by
  refine rereadsBase_of_primary fun hraw hc hn => ⟨_, Or.inl rfl, ?_⟩
  rw [Expr.text_string] at hc
  exact (yields_primary_string hs hc (by omega)).mono fun u hu => hu ▸ rfl

/-- **An operator in parentheses** is a base, if its operands are read back on their sides. -/
theorem rereadsBase_operator {e l r : Expr L S} {op : String} {join : Tree → Tree → Tree}
    (hop : op ∈ operators) (hjoins : Joins op join) (htext : e.text = Expr.operatorText op l r)
    (he : ∀ {v w}, Similar l v → Similar r w → Similar e (join v w))
    (hl : Expr.Printable .left l) (hr : Expr.Printable .right r)
    (hleft : RereadsOperand Operates l) (hright : RereadsOperand Closes r) : RereadsBase e := by
  refine rereadsBase_of_primary fun {n c raw} _ hc hn => ⟨raw, Or.inl rfl, ?_⟩
  have hrest : Closes (')' :: raw) := closes_cons (by decide)
  have hinner : c.rest =
      '(' :: (l.text ++ (' ' :: (op.toList ++ (' ' :: (r.text ++ (')' :: raw)))))) := by
    rw [hc, htext, Expr.operatorText]
    simp only [List.cons_append, List.append_assoc, List.nil_append]
  have hlength : (r.text ++ (')' :: raw)).length < c.rest.length := by
    rw [hinner]
    simp only [List.length_append, List.length_cons]
    omega
  refine yields_primary_parenthesis hinner (hl.unblanked_text _) fun d hd => ?_
  have hshorter : d.rest.length < c.rest.length := by
    rw [hd, hinner, List.length_cons]
    exact Nat.lt_succ_self _
  obtain ⟨n, rfl⟩ : ∃ m, n = m + 2 := ⟨n - 2, by omega⟩
  refine yields_expression_of_disjunction ?_ fun f hf => ?_
  · rw [hd]
    exact hl.assignmentAhead_eq_none (Or.inr (Or.inl rfl)) (.of_operates ⟨op, hop, _, rfl⟩)
  · -- the blank before the operator is skipped where the left operand ends
    have hoperator := hleft (n := n + 1) (k := n + 2) ⟨op, hop, _, rfl⟩ (hf.trans hd)
      (by rw [hf]; omega) (by rw [hf]; omega)
    rw [unblanked_space, unblanked_operator hop] at hoperator
    have hdelimiter : ∀ g, g.rest = r.text ++ (')' :: raw) →
        Yields (negation (access (expression (n + 1)) (block (n + 1)) (n + 2)) (n + 2)) g
          (Similar r) (')' :: raw) := by
      intro g hg
      rw [← unblanked_of_closes hrest]
      exact hright hrest hg (by rw [hg]; omega) (by rw [hg]; omega)
    refine (hjoins (hr.unblanked_text _) hrest hoperator hdelimiter).mono ?_
    rintro u ⟨v, w, hv, hw, rfl⟩
    exact he hv hw

/-! ### Accesses on a base -/

/-- A selector after a base makes another base. -/
theorem RereadsBase.select {b : Expr L S} {s : String} (h : RereadsBase b) (hs : IsName s) (l : L) :
    RereadsBase (.select b s l) := by
  intro n c raw rest fits hraw hc hn hnext
  rw [Expr.text_select, List.append_assoc] at hc
  -- the base is read by hypothesis, and what follows it is the selector
  refine h (.selector hs raw) hc hn fun {t d k} ht hd _ hk => ?_
  rw [unblanked_cons (by decide)] at hd
  rw [List.length_cons, List.length_append] at hk
  obtain ⟨k, rfl⟩ : ∃ m, k = m + 1 := ⟨k - 1, by omega⟩
  refine yields_accessTail_select hs hraw.name hd fun m f hf => ?_
  refine hnext ?_ (by rw [hf]) (Nat.le_of_eq (congrArg List.length hf)) (by omega)
  rw [Similar, Expr.erase, Expr.erase, ht]

/-- An index after a base makes another base. -/
theorem RereadsBase.index {b i : Expr L S} (h : RereadsBase b) (hi : Expr.Printable .full i)
    (hfull : RereadsFull i) (l : L) : RereadsBase (.index b i l) := by
  intro n c raw rest fits hraw hc hn hnext
  have hc' : c.rest = b.text ++ ('[' :: (i.text ++ (']' :: raw))) := by
    rw [hc, Expr.text_index]
    simp only [List.append_assoc, List.cons_append, List.nil_append]
  have hlength : (i.text ++ (']' :: raw)).length < c.rest.length := by
    rw [hc']
    simp only [List.length_append, List.length_cons]
    omega
  -- an opening bracket is not skipped, so the accesses start with it
  refine h (.bracket _) hc' hn fun {t d k} ht hd _ hk => ?_
  rw [unblanked_cons (by decide)] at hd
  rw [List.length_cons, List.length_append, List.length_cons] at hk
  obtain ⟨k, rfl⟩ : ∃ m, k = m + 1 := ⟨k - 1, by omega⟩
  refine yields_accessTail_index hi hd (fun f hf => ?_) fun m u f hu hf => ?_
  · refine hfull (closes_cons (by decide)) hf ?_
    rw [hf]
    omega
  · refine hnext ?_ (by rw [hf]) (Nat.le_of_eq (congrArg List.length hf)) (by omega)
    rw [Similar, Expr.erase, Expr.erase, ht, hu]

/-- Arguments after a base make another base. -/
theorem RereadsBase.call {f : Expr L S} {as : List (Expr L S)} (h : RereadsBase f)
    (has : ∀ a ∈ as, Expr.Printable .full a) (hfull : ∀ a ∈ as, RereadsFull a) (l : L) :
    RereadsBase (.call f as l) := by
  intro n c raw rest fits hraw hc hn hnext
  have hc' : c.rest = f.text ++ ('(' :: (Expr.argumentsText as ++ (')' :: raw))) := by
    rw [hc, Expr.text_call]
    simp only [List.append_assoc, List.cons_append, List.nil_append]
  have hlength : (Expr.argumentsText as ++ (')' :: raw)).length < c.rest.length := by
    rw [hc']
    simp only [List.length_append, List.length_cons]
    omega
  refine h (.parenthesis _) hc' hn fun {t d k} ht hd _ hk => ?_
  rw [unblanked_cons (by decide)] at hd
  rw [List.length_cons, List.length_append, List.length_cons] at hk
  obtain ⟨k, rfl⟩ : ∃ m, k = m + 1 := ⟨k - 1, by omega⟩
  refine yields_accessTail_call hd (fun g hg => ?_) fun m us g hus hg => ?_
  -- the arguments are read back by their own lemma, since there may be any number of them
  · rw [unblanked_argumentsText has] at hg
    exact yields_arguments has hfull hg (by rw [hg]; omega) (by rw [hg]; omega)
  · refine hnext ?_ (by rw [hg]) (Nat.le_of_eq (congrArg List.length hg)) (by omega)
    rw [Similar, Expr.erase, Expr.erase, ht, Expr.eraseAll_eq_map, Expr.eraseAll_eq_map, hus]

/-! ### Operands -/

section Operands

variable {follow : List Char → Prop} (hfollow : ∀ {raw}, follow raw → Closes raw ∨ Operates raw)

include hfollow

/-- **A base** is read back as an operand: no access follows it, so it ends there. -/
theorem RereadsBase.operand {e : Expr L S} (h : RereadsBase e) (he : Expr.Printable .base e) :
    RereadsOperand follow e := by
  intro n k c raw hraw hc hn hk
  obtain ⟨k, rfl⟩ : ∃ m, k = m + 1 := ⟨k - 1, by omega⟩
  obtain ⟨x, t, hx, hopens⟩ := he.opens
  -- a negation is no base, so the text of a base does not start with its sign
  have hbang : x ≠ '!' := by
    rintro rfl
    rcases hopens with hopens | ⟨hbase, -⟩
    · exact absurd hopens (by decide)
    · exact hbase rfl
  have hopen : c.rest = x :: (t ++ raw) := by rw [hc, hx, List.cons_append]
  have hseparates : Separates raw := (hfollow hraw).elim .of_closes .of_operates
  refine (yields_peek hopen).bind fun y d hy hd => ?_
  rw [if_neg (by rw [hy]; exact hbang)]
  rw [← hopen] at hd
  refine h hseparates (hd.trans hc) (by rw [hd]; exact hn) fun {t d k} ht hd _ hk => ?_
  obtain ⟨k, rfl⟩ : ∃ m, k = m + 1 := ⟨k - 1, by omega⟩
  exact yields_accessTail_stop (hfollow hraw) hd ht

omit hfollow in
/-- A negation is read back as an operand, whatever its operand is followed by. -/
theorem RereadsOperand.not {e : Expr L S} {p : Position} (h : RereadsOperand follow e)
    (he : Expr.Printable p e) : RereadsOperand follow (.not e) := by
  intro n k c raw hraw hc hn hk
  obtain ⟨k, rfl⟩ : ∃ m, k = m + 1 := ⟨k - 1, by omega⟩
  rw [Expr.text_not, List.cons_append] at hc
  refine (yields_peek hc).bind fun y d hy hd => ?_
  rw [if_pos hy]
  refine (yields_next hd).bind fun _ f _ hf => ?_
  refine yields_blanks.bind fun _ g _ hg => ?_
  rw [hf, he.unblanked_text] at hg
  rw [hc, List.length_cons, ← hg] at hn hk
  refine (h hraw hg (by omega) (by omega)).bind fun t i ht hi => ?_
  refine yields_pure ?_ hi
  rw [Similar, Expr.erase, Expr.erase, ht]

/-- A block is read back as an operand, as the closure that it is printed for. -/
theorem RereadsBlock.operand {es : List (Expr L S)} (h : RereadsBlock es) (s : S) :
    RereadsOperand follow (.closure s none (.block es)) := by
  intro n k c raw hraw hc hn hk
  obtain ⟨k, rfl⟩ : ∃ m, k = m + 1 := ⟨k - 1, by omega⟩
  rw [Expr.text_closure] at hc
  have hopen := hc
  rw [Expr.text_block, List.cons_append] at hopen
  refine (yields_peek hopen).bind fun y d hy hd => ?_
  rw [if_neg (by rw [hy]; decide)]
  have hread : ∀ f, f.rest = c.rest → Yields (block n) f (AllSimilar es) raw := by
    intro f hf
    refine h (hf.trans hc) ?_
    rw [hf]
    omega
  -- a block where an operand is read is the body of a closure
  refine (yields_primary_block hd (hopen ▸ hread)).bind fun t f ht hf => ?_
  obtain ⟨ts, rfl, hts⟩ := ht
  refine yields_accessTail_stop (hfollow hraw) (by rw [hf]) ?_
  have hblock := hts.block
  rw [Similar] at hblock
  rw [Similar, Expr.erase, Expr.erase, hblock]

end Operands

/-- A closure with a parameter is read back before a delimiter. -/
theorem RereadsStatement.arrow {p : String} {b : Expr L S} (h : RereadsStatement b)
    (hp : IsVariableName p) (hb : Expr.Printable .statement b) (s : S) :
    RereadsOperand Closes (.closure s (some p) b) := by
  intro n k c raw hraw hc hn hk
  obtain ⟨k, rfl⟩ : ∃ m, k = m + 1 := ⟨k - 1, by omega⟩
  obtain ⟨x, t, hx, hsolid, -⟩ := hb.opens_ne
  obtain ⟨first, others, hfirst, hstart, -⟩ := id hp.1
  have hbang : first ≠ '!' := by
    rintro rfl
    exact absurd hstart (by decide)
  have hc' : c.rest = p.toList ++ (" -> ".toList ++ (b.text ++ raw)) := by
    rw [hc, Expr.text_arrow, List.append_assoc, List.append_assoc]
  have hlength : (b.text ++ raw).length < c.rest.length := by
    rw [hc', hfirst]
    simp only [List.length_append, List.length_cons]
    omega
  have hopen := hc'
  rw [hfirst, List.cons_append] at hopen
  refine (yields_peek hopen).bind fun y d hy hd => ?_
  rw [if_neg (by rw [hy]; exact hbang)]
  have hprimary : Yields (primary (expression n) (block n) (n + 1)) d
      (Similar (.closure s (some p) b)) raw := by
    refine yields_primary_named hstart hd fun e he => ?_
    rw [← hopen, hc', hx, List.cons_append] at he
    -- after the arrow a brace starts a block, and anything else is a full expression
    refine yields_named_arrow hp hsolid he (fun hbrace f hf => ?_) fun hbrace f hf => ?_
    all_goals rw [← List.cons_append, ← hx] at hf
    · rcases h with ⟨es, rfl, hblock⟩ | ⟨hne, -⟩
      · refine (hblock hf (by rw [hf]; omega)).bind fun ts g hts hg => ?_
        refine yields_pure ?_ hg
        have hsimilar := hts.block
        rw [Similar] at hsimilar
        rw [Similar, Expr.erase, Expr.erase, hsimilar]
      · exact absurd hbrace (hne x (by rw [hx]; rfl))
    · rcases h with ⟨es, rfl, -⟩ | ⟨-, -, hfull⟩
      · rw [Expr.text_block] at hx
        exact absurd (List.cons.inj hx).1.symm hbrace
      · refine (hfull hraw hf (by rw [hf]; omega)).bind fun u g hu hg => ?_
        refine yields_pure ?_ hg
        rw [Similar, Expr.erase, Expr.erase, hu]
  -- the body has taken all there is, so a delimiter follows the closure
  refine hprimary.bind fun u f hu hf => ?_
  exact yields_accessTail_stop (Or.inl hraw) (by rw [hf]) hu

/-- An assignment is read back before a delimiter. -/
theorem RereadsFull.assign {x : String} {v : Expr L S} (hfull : RereadsFull v)
    (hx : IsVariableName x) (hv : Expr.Printable .full v) (l m : L) :
    RereadsFull (.assign (.target x l) v m) := by
  intro n c rest hrest hc hn
  obtain ⟨n, rfl⟩ : ∃ m, n = m + 1 := ⟨n - 1, by omega⟩
  change Yields (assignmentOrDisjunction (expression n) (block n) (n + 1)) c _ rest
  have hc' : c.rest = x.toList ++ (" = ".toList ++ (v.text ++ rest)) := by
    rw [hc, Expr.text_assign, List.append_assoc, List.append_assoc]
  have hlength : (v.text ++ rest).length < c.rest.length := by
    rw [hc']
    have hthree : " = ".toList.length = 3 := rfl
    simp only [List.length_append]
    omega
  -- an assignment is told by the single `=` after its target
  have hahead : assignmentAhead c.rest = some 1 := by
    rw [hc', assignmentAhead_name hx.1]
    rfl
  refine yields_cursor.bind fun a d ha hd => ?_
  rw [ha, hahead]
  refine yields_here.bind fun place e _ he => ?_
  have hend : ∀ y ∈ (" = ".toList ++ (v.text ++ rest)).head?, isNamePart y = false :=
    fun y hy => Option.some.inj hy ▸ by decide
  refine (yields_name .assignment hx.1 hend (he.trans (hd.trans hc'))).bind fun y f hy hf => ?_
  obtain rfl := hy
  rw [if_neg hx.2]
  refine yields_blanks.bind fun _ g _ hg => ?_
  have hequals : unblanked f.rest = '=' :: ' ' :: (v.text ++ rest) := by
    rw [hf]
    exact (unblanked_space _).trans (unblanked_cons (by decide) _)
  rw [hequals] at hg
  refine (yields_skip 1).bind fun _ h _ hh => ?_
  rw [hg, List.drop_succ_cons, List.drop_zero] at hh
  refine yields_blanks.bind fun _ i _ hi => ?_
  rw [hh, unblanked_space, hv.unblanked_text] at hi
  refine (hfull hrest hi (by rw [hi]; omega)).bind fun u j hu hj => ?_
  refine yields_pure ?_ hj
  rw [Similar, Expr.erase, Expr.erase, Expr.erase, Expr.erase, hu]

/-! ### All positions -/

/-- The expression is read back in a position. -/
def Rereads : Position → Expr L S → Prop
  | .base => RereadsBase
  | .left => RereadsOperand Operates
  | .right => RereadsOperand Closes
  | .full => RereadsFull
  | .statement => RereadsStatement

/-- **In each position, a printable expression is read back.** -/
theorem rereads {p : Position} {e : Expr L S} (h : Expr.Printable p e) : Rereads p e := by
  -- one case for each rule; the parsers that a rule calls are in the lemma that the case applies
  induction h with
  | null =>
    exact rereadsBase_keyword (by decide) Expr.text_null rfl
      (Or.inr (Or.inl ⟨rfl, rfl⟩))
  | bool b =>
    cases b with
    | true =>
      exact rereadsBase_keyword (by decide) Expr.text_true rfl
        (Or.inr (Or.inr ⟨rfl, rfl⟩))
    | false =>
      exact rereadsBase_keyword (by decide) Expr.text_false rfl
        (Or.inl ⟨rfl, rfl⟩)
  | number ht => exact rereadsBase_number ht
  | string hs => exact rereadsBase_string hs
  | name hx l => exact rereadsBase_variable hx l
  | select _ hs l ih => exact RereadsBase.select ih hs l
  | index _ hi l ihb ihi => exact RereadsBase.index ihb hi ihi l
  | call _ has l ihf ihas => exact RereadsBase.call ihf has ihas l
  | and hl hr ihl ihr =>
    refine rereadsBase_operator (by decide) joins_and (Expr.text_and _ _) ?_ hl hr ihl ihr
    intro v w hv hw
    rw [Similar, Expr.erase, Expr.erase, hv, hw]
  | or hl hr ihl ihr =>
    refine rereadsBase_operator (by decide) joins_or (Expr.text_or _ _) ?_ hl hr ihl ihr
    intro v w hv hw
    rw [Similar, Expr.erase, Expr.erase, hv, hw]
  | equality hl hr negated ihl ihr =>
    refine rereadsBase_operator ?_ (joins_equality negated) (Expr.text_equality _ _ negated) ?_
      hl hr ihl ihr
    · cases negated <;> decide
    · intro v w hv hw
      rw [Similar, Expr.erase, Expr.erase, hv, hw]
  | left he ih => exact RereadsBase.operand Or.inr ih he
  | leftBlock hes s ih => exact RereadsBlock.operand Or.inr (rereadsBlock hes ih) s
  | leftNot he ih => exact RereadsOperand.not ih he
  | right he ih => exact RereadsBase.operand Or.inl ih he
  | rightBlock hes s ih => exact RereadsBlock.operand Or.inl (rereadsBlock hes ih) s
  | rightArrow hp hb s ih => exact RereadsStatement.arrow ih hp hb s
  | rightNot he ih => exact RereadsOperand.not ih he
  | full he ih => exact RereadsOperand.full ih he
  | assign hx hv l m ih => exact RereadsFull.assign ih hx hv l m
  | block hes ih => exact Or.inl ⟨_, rfl, rereadsBlock hes ih⟩
  | statement he hblock ih =>
    -- of the full expressions only a closure that is a block starts with a brace
    refine Or.inr ⟨fun x hx => ?_, he.ne_block (by simp), ih⟩
    rintro rfl
    obtain ⟨y, t, hy, hopens⟩ := he.opens
    rw [hy] at hx
    obtain rfl : y = '\x7b' := Option.some.inj hx
    rcases hopens with hopens | ⟨-, hopens | ⟨-, hclosure | ⟨es, hes⟩⟩⟩
    · exact absurd hopens (by decide)
    · exact absurd hopens (by decide)
    · exact hblock hclosure
    · exact he.ne_block (by simp) es hes

/-! ### Scripts -/

/-- A bare expression is read back as the only statement of a script, which nothing terminates. -/
theorem yields_statementsUpTo_bare {e : Expr L S} (he : Expr.Printable .statement e)
    (h : RereadsStatement e) (hblock : ∀ es, e ≠ .block es) {n k : Nat} {c : Cursor}
    (hc : c.rest = e.text) (hn : 2 * (c.rest.length + 1) ≤ n) (hk : c.rest.length < k) :
    Yields (statementsUpTo none (expression n) (block n) k [] false) c
      (fun out => ∃ t, out = ([t], false) ∧ Similar e t) [] := by
  obtain ⟨x, others, hx, -, -, hsemicolon, -⟩ := he.opens_ne
  obtain ⟨hbrace, -, hfull⟩ := h.resolve_left fun ⟨es, hes, _⟩ => hblock es hes
  have hbrace : x ≠ '\x7b' := hbrace x (by rw [hx]; rfl)
  rw [← List.append_nil e.text] at hc
  have hlength : 0 < c.rest.length := by
    rw [hc, hx]
    exact Nat.succ_pos _
  obtain ⟨k, rfl⟩ : ∃ m, k = m + 2 := ⟨k - 2, by omega⟩
  have hblank : unblanked c.rest = c.rest := by
    rw [hc]
    exact he.unblanked_text []
  refine yields_ahead hblank fun f hf => ?_
  rw [hc, List.append_nil, hx, List.head?_cons]
  -- the expression is neither a semicolon nor a block, and the text ends after it
  simp only [reduceCtorEq, hsemicolon, hbrace, if_false]
  have hnothing : Closes [] := fun _ hx => nomatch hx
  refine (hfull hnothing (hf.trans hc) (by rw [hf]; exact hn)).bind fun t g ht hg => ?_
  have hend : unblanked g.rest = [] := by
    rw [hg]
    exact unblanked_nil
  refine yields_ahead hend fun j hj => ?_
  exact yields_statementsUpTo_end (Or.inl ⟨rfl, rfl⟩) (by rw [hj]; rfl) ⟨t, rfl, ht⟩

/-- **A printable script** is read back, and nothing is left of its text. -/
theorem yields_script {e : Expr L S} (h : e.PrintableScript) {n : Nat} {c : Cursor}
    (hc : c.rest = e.text) (hn : 2 * (c.rest.length + 1) ≤ n) :
    Yields (script n) c (Similar e) [] := by
  cases h with
  | bare he hblock =>
    have hstatement := he.statement hblock
    refine (yields_statementsUpTo_bare hstatement (rereads hstatement) (he.ne_block (by simp)) hc hn
      (by omega)).bind fun out d hout hd => ?_
    obtain ⟨t, rfl, ht⟩ := hout
    exact yields_pure ht hd
  | @statements es hes =>
    have hend : Ends none [] := Or.inl ⟨rfl, rfl⟩
    have hc' : unblanked c.rest = Expr.statementsText es ++ [] := by
      have hblank := unblanked_statementsText hes hend.unblanked
      rw [hc, Expr.text_statements]
      rw [List.append_nil] at hblank ⊢
      exact hblank
    refine (yields_statementsUpTo hes (fun e he => rereads (hes e he)) hend hc' hn
      (by omega)).bind fun out d hout hd => ?_
    obtain ⟨ts, terminated⟩ := out
    obtain ⟨hts, hterminated⟩ := hout
    -- a list of one statement is told from a bare expression by its semicolon
    have hsimilar : Similar (.statements es) (.statements ts) := by
      rw [Similar, Expr.erase, Expr.erase, Expr.eraseAll_eq_map, Expr.eraseAll_eq_map]
      exact congrArg Expr.statements hts
    split
    · rename_i t heq
      obtain ⟨rfl, rfl⟩ := Prod.mk.inj heq
      cases es with
      | nil => exact absurd hts (by simp)
      | cons e es => exact absurd hterminated (by simp)
    · rename_i heq
      obtain ⟨rfl, -⟩ := Prod.mk.inj heq
      exact yields_pure hsimilar hd

end Parser

/-- **Printing and reading back.** The text of a printable script is accepted, and what is read is
the script again, up to the places that annotate it. -/
theorem parse_display {L S : Type} {e : Expr L S} (h : e.PrintableScript) :
    ∃ tree, parse e.display = .ok tree ∧ tree.erase = e.erase := by
  have hlength : (Cursor.start e.display).rest.length = e.display.length := String.length_toList
  obtain ⟨tree, d, hscript, hsimilar, -⟩ := Parser.yields_script (n := 2 * (e.display.length + 1))
    (c := Cursor.start e.display) h rfl (Nat.le_of_eq (by rw [hlength]))
  refine ⟨tree, ?_, hsimilar⟩
  rw [parse, hscript]

/-- Assigns a closure, and calls it in a block. -/
def sampleScript : Expr Unit Unit :=
  .statements [
    .assign (.target "x" ()) (.closure () (some "n")
      (.and (.not (.select (.variable "n" ()) "ok" ()))
        (.equality (.index (.variable "n" ()) (.string "a") ()) (.number "-1.5e3") true))) (),
    .block [.call (.variable "x" ()) [.null, .closure () none (.block [.bool true])] ()]]

/-- The sample is printable, so its text is read back as the sample. -/
theorem parse_display_sample :
    sampleScript.display =
      "x = n -> (!n.ok && (n[\"a\"] != -1.5e3)); \x7b x(null, \x7b true; \x7d); \x7d; " ∧
    ∃ tree, parse sampleScript.display = .ok tree ∧ tree.erase = sampleScript := by
  have hx : IsVariableName "x" := by decide
  have hn : IsVariableName "n" := by decide
  have hok : IsName "ok" := by decide
  have hplain : IsPlain "a" := by
    intro x hx
    obtain rfl : x = 'a' := List.mem_singleton.mp hx
    decide
  have hnumeral : IsNumeral "-1.5e3" :=
    ⟨['-'], ['1'], ['.', '5'], ['e', '3'], rfl, Or.inr rfl, by decide,
      Or.inr ⟨['5'], rfl, by decide⟩,
      Or.inr ⟨'e', [], ['3'], rfl, Or.inl rfl, Or.inl rfl, by decide⟩⟩
  refine ⟨by decide +kernel, parse_display (.statements fun e he => ?_)⟩
  rcases List.mem_cons.mp he with rfl | he
  · refine .statement (.assign hx (.full (.rightArrow hn ?_ ())) () ()) fun h => h
    refine .statement (.full (.right ?_)) fun h => h
    refine .and (.leftNot (.left (.select (.name hn ()) hok ()))) (.right (.equality ?_ ?_ true))
    · exact .left (.index (.name hn ()) (.full (.right (.string hplain))) ())
    · exact .right (.number hnumeral)
  · obtain rfl := List.mem_singleton.mp he
    refine .block fun e he => ?_
    obtain rfl := List.mem_singleton.mp he
    refine .statement (.full (.right (.call (.name hx ()) (fun a ha => ?_) ()))) fun h => h
    rcases List.mem_cons.mp ha with rfl | ha
    · exact .full (.right .null)
    · obtain rfl := List.mem_singleton.mp ha
      refine .full (.rightBlock (fun e he => ?_) ())
      obtain rfl := List.mem_singleton.mp he
      exact .statement (.full (.right (.bool true))) fun h => h

end GraphQuery
