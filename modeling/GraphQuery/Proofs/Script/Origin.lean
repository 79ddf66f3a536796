import GraphQuery.Proofs.Script.Reading
import GraphQuery.Script.Parser

/-!
# Where trees come from

`ReadFrom o` holds of the trees that the grammar can build from the text at the cursor `o`: one rule
for each construct, which says at which cursor the annotation of that construct was taken. So a
property of all trees that are read is shown by induction on `ReadFrom`, with the places of names,
brackets and parentheses at hand, and the parsers do not have to be opened again.

The parsers of the grammar are shown to read such trees level by level. A level may rely on what it
nests for texts shorter than its own, and on blocks for texts as long as its own, because a closure
that is a block starts where the expression starts. The bounds follow the same pattern: an expression
needs twice the number of places in its text, and a block may do with one less.

## Main statements

* `Parser.reads_nested`: with a bound that is large enough for the text, an expression or a block is
  read past at least one character, and the trees come from the text.
* `readFrom_of_parse`, `exact_of_parse`: what `parse` accepts comes from the source, and what it
  refuses, it refuses with an exact error.
-/

namespace GraphQuery

/-- The tree can be built from the text at `o`. -/
inductive ReadFrom (o : Cursor) : Tree → Prop where
  | null : ReadFrom o .null
  | bool (b : Bool) : ReadFrom o (.bool b)
  | number (text : String) : ReadFrom o (.number text)
  | string (s : String) : ReadFrom o (.string s)
  /-- The variable is annotated with the place of its name. -/
  | name {c : Cursor} {x : String} (reached : o.Reaches c) (found : c.HasName x) :
      ReadFrom o (.variable x c.location)
  /-- The target is a name, and both it and the assignment are annotated with its place. -/
  | assign {c : Cursor} {x : String} {v : Tree} (reached : o.Reaches c) (found : c.HasName x)
      (value : ReadFrom o v) : ReadFrom o (.assign (.target x c.location) v c.location)
  /-- The access is annotated with the place of its selector. -/
  | select {c : Cursor} {s : String} {b : Tree} (base : ReadFrom o b) (reached : o.Reaches c)
      (found : c.HasName s) : ReadFrom o (.select b s c.location)
  /-- The access is annotated with the place of its bracket. -/
  | index {c : Cursor} {b i : Tree} (base : ReadFrom o b) (position : ReadFrom o i)
      (reached : o.Reaches c) (found : c.rest.head? = some '[') :
      ReadFrom o (.index b i c.location)
  | and {l r : Tree} (left : ReadFrom o l) (right : ReadFrom o r) : ReadFrom o (.and l r)
  | or {l r : Tree} (left : ReadFrom o l) (right : ReadFrom o r) : ReadFrom o (.or l r)
  | not {e : Tree} (operand : ReadFrom o e) : ReadFrom o (.not e)
  | equality {l r : Tree} (negated : Bool) (left : ReadFrom o l) (right : ReadFrom o r) :
      ReadFrom o (.equality l r negated)
  /-- The call is annotated with the place of its parenthesis. -/
  | call {c : Cursor} {f : Tree} {as : List Tree} (function : ReadFrom o f)
      (arguments : ∀ a ∈ as, ReadFrom o a) (reached : o.Reaches c)
      (found : c.rest.head? = some '(') : ReadFrom o (.call f as c.location)
  | closure (p : Option String) {b : Tree} (body : ReadFrom o b) : ReadFrom o (.closure () p b)
  | statements {es : List Tree} (body : ∀ e ∈ es, ReadFrom o e) : ReadFrom o (.statements es)
  | block {es : List Tree} (body : ∀ e ∈ es, ReadFrom o e) : ReadFrom o (.block es)

namespace Parser

variable {o c : Cursor} {m : Nat}

/-- On every text shorter than `m`, the parser reads at least one character and gives a value that
fits `fits`. -/
def ReadsBelow {α : Type} (o : Cursor) (p : Parser α) (m : Nat) (fits : α → Prop) : Prop :=
  ∀ c, c.rest.length < m → Reads o p c fun a d => d.rest.length < c.rest.length ∧ fits a

/-- The trees of a list come from the text. -/
def AllReadFrom (o : Cursor) (es : List Tree) : Prop := ∀ e ∈ es, ReadFrom o e

theorem AllReadFrom.cons {e : Tree} {es : List Tree} (he : ReadFrom o e) (hes : AllReadFrom o es) :
    AllReadFrom o (e :: es) := List.forall_mem_cons.mpr ⟨he, hes⟩

theorem AllReadFrom.reverse {es : List Tree} (hes : AllReadFrom o es) :
    AllReadFrom o es.reverse := fun e he => hes e (List.mem_reverse.mp he)

/-! ### Operators -/

/-- Reading a token that is not empty makes the text shorter. -/
theorem length_lt_of_token {t : String} {d : Cursor} (ht : t ≠ "")
    (h : c.rest = t.toList ++ d.rest) : d.rest.length < c.rest.length := by
  have hpos : 0 < t.toList.length := by
    rw [List.length_pos_iff]
    exact fun hnil => ht (String.toList_eq_nil_iff.mp hnil)
  rw [h, List.length_append]
  omega

/-- **A chain of operators** is read from the text if its operands are and joining them is a rule. -/
theorem reads_chainTail {op : String} {join : Tree → Tree → Tree} {operand : Parser Tree}
    (hop : op ≠ "") (hjoin : ∀ {l r}, ReadFrom o l → ReadFrom o r → ReadFrom o (join l r))
    (hoperand : ReadsBelow o operand m (ReadFrom o)) (n : Nat) {left : Tree}
    (hleft : ReadFrom o left) (hm : c.rest.length ≤ m) (hn : c.rest.length < n) :
    Reads o (chainTail op join operand n left) c fun e _ => ReadFrom o e := by
  -- on the bound of the loop, for every place where a round may start
  induction n generalizing c left with
  | zero => omega
  | succ n ih =>
    unfold chainTail
    refine reads_blanks.bind fun _ d hcd hd => ?_
    have hcd := hcd.length_le
    -- the token makes the text shorter, which pays for the next round
    refine (reads_lookingAt op).bind fun b e hde he => ?_
    obtain ⟨rfl, rfl⟩ := he
    split
    · refine (reads_token op).bind fun _ f _ hf => ?_
      have hf := length_lt_of_token hop hf
      refine reads_blanks.bind fun _ g hfg _ => ?_
      have hfg := hfg.length_le
      refine (hoperand g (by omega)).bind fun right h _ hh => ?_
      exact ih (hjoin hleft hh.2) (by omega) (by omega)
    · exact reads_pure hleft

/-- A chain of comparisons is read from the text if its operands are. -/
theorem reads_equalityTail {operand : Parser Tree}
    (hoperand : ReadsBelow o operand m (ReadFrom o)) (n : Nat) {left : Tree}
    (hleft : ReadFrom o left) (hm : c.rest.length ≤ m) (hn : c.rest.length < n) :
    Reads o (equalityTail operand n left) c fun e _ => ReadFrom o e := by
  induction n generalizing c left with
  | zero => omega
  | succ n ih =>
    -- both comparisons go on in the same way
    have hstep : ∀ (t : String) (negated : Bool) (d : Cursor), t ≠ "" →
        d.rest.length ≤ c.rest.length →
        Reads o (do
          token t
          blanks
          let right ← operand
          equalityTail operand n (.equality left right negated)) d fun e _ => ReadFrom o e := by
      intro t negated d ht hd
      refine (reads_token t).bind fun _ f _ hf => ?_
      have hf := length_lt_of_token ht hf
      refine reads_blanks.bind fun _ g hfg _ => ?_
      have hfg := hfg.length_le
      refine (hoperand g (by omega)).bind fun right h _ hh => ?_
      exact ih (.equality negated hleft hh.2) (by omega) (by omega)
    unfold equalityTail
    refine reads_blanks.bind fun _ d hcd _ => ?_
    refine (reads_lookingAt "==").bind fun b e _ he => ?_
    obtain ⟨rfl, rfl⟩ := he
    split
    · exact hstep "==" false _ (by decide) hcd.length_le
    · refine (reads_lookingAt "!=").bind fun b e _ he => ?_
      obtain ⟨rfl, rfl⟩ := he
      split
      · exact hstep "!=" true _ (by decide) hcd.length_le
      · exact reads_pure hleft

/-! ### Accesses and calls -/

/-- The arguments of a call are read from the text up to the closing parenthesis. -/
theorem reads_arguments {expression : Parser Tree}
    (hexpr : ReadsBelow o expression m (ReadFrom o)) (n : Nat) {read : List Tree}
    (hread : AllReadFrom o read) (hm : c.rest.length < m) (hn : c.rest.length < n) :
    Reads o (arguments expression n read) c fun es _ => AllReadFrom o es := by
  induction n generalizing c read with
  | zero => omega
  | succ n ih =>
    unfold arguments
    refine reads_peek.bind fun x d _ hd => ?_
    obtain ⟨-, rfl⟩ := hd
    split
    · exact reads_pure hread.reverse
    · refine (hexpr d hm).bind fun argument e _ he => ?_
      refine reads_blanks.bind fun _ f hef _ => ?_
      have hef := hef.length_le
      refine reads_peek.bind fun y g _ hg => ?_
      obtain ⟨-, rfl⟩ := hg
      -- with a comma or without one, the argument has made the text shorter
      split
      · refine (reads_token ",").bind fun _ h hgh _ => ?_
        have hgh := hgh.length_le
        refine reads_blanks.bind fun _ i hhi _ => ?_
        have hhi := hhi.length_le
        exact ih (hread.cons he.2) (by omega) (by omega)
      · exact ih (hread.cons he.2) (by omega) (by omega)

/-- **Accesses and calls** after what they apply to are read from the text. -/
theorem reads_accessTail {expression : Parser Tree} {bound : Nat}
    (hexpr : ReadsBelow o expression m (ReadFrom o)) (hbound : m ≤ bound) (n : Nat) {base : Tree}
    (hbase : ReadFrom o base) (hm : c.rest.length ≤ m) (hn : c.rest.length < n) :
    Reads o (accessTail expression bound n base) c fun e _ => ReadFrom o e := by
  induction n generalizing c base with
  | zero => omega
  | succ n ih =>
    unfold accessTail
    refine reads_blanks.bind fun _ d hcd _ => Reads.of_reached fun hd => ?_
    have hcd := hcd.length_le
    refine reads_peek?.bind fun x e _ he => ?_
    obtain ⟨rfl, rfl⟩ := he
    split
    case h_1 =>
      refine reads_next.bind fun _ f _ hf => ?_
      have hf : f.rest.length < e.rest.length := by rw [hf, List.length_cons]; omega
      refine reads_blanks.bind fun _ g hfg _ => Reads.of_reached fun hg => ?_
      have hfg := hfg.length_le
      refine reads_here.bind fun place h _ hh => ?_
      obtain ⟨rfl, rfl⟩ := hh
      refine (reads_name .selector).bind fun selector i _ hi => ?_
      exact ih (.select hbase hg hi.1) (by omega) (by omega)
    -- the place of an index or a call is taken before its bracket is read
    case h_2 hopen =>
      refine reads_here.bind fun place f _ hf => ?_
      obtain ⟨rfl, rfl⟩ := hf
      refine reads_next.bind fun _ g _ hg => ?_
      have hg : g.rest.length < f.rest.length := by rw [hg, List.length_cons]; omega
      refine reads_blanks.bind fun _ h hgh _ => ?_
      have hgh := hgh.length_le
      refine (hexpr h (by omega)).bind fun position i _ hi => ?_
      refine reads_blanks.bind fun _ j hij _ => ?_
      have hij := hij.length_le
      refine (reads_token "]").bind fun _ k hjk _ => ?_
      have hjk := hjk.length_le
      exact ih (.index hbase hi.2 hd hopen) (by omega) (by omega)
    case h_3 hopen =>
      refine reads_here.bind fun place f _ hf => ?_
      obtain ⟨rfl, rfl⟩ := hf
      refine reads_next.bind fun _ g _ hg => ?_
      have hg : g.rest.length < f.rest.length := by rw [hg, List.length_cons]; omega
      refine reads_blanks.bind fun _ h hgh _ => ?_
      have hgh := hgh.length_le
      refine (reads_arguments hexpr bound (List.forall_mem_nil _) (by omega) (by omega)).bind
        fun args i hhi hargs => ?_
      have hhi := hhi.length_le
      refine (reads_token ")").bind fun _ j hij _ => ?_
      have hij := hij.length_le
      exact ih (.call hbase hargs hd hopen) (by omega) (by omega)
    case h_4 => exact reads_pure hbase

/-! ### Primaries -/

/-- **What starts with a name**: a keyword, a closure with one parameter, or a variable. -/
theorem reads_named {expression : Parser Tree} {block : Parser (List Tree)}
    (hexpr : ReadsBelow o expression m (ReadFrom o))
    (hblock : ReadsBelow o block (m + 1) (AllReadFrom o)) :
    ReadsBelow o (named expression block) (m + 1) (ReadFrom o) := by
  intro c hm
  refine Reads.of_reached fun hc => ?_
  unfold named
  refine reads_here.bind fun place d _ hd => ?_
  obtain ⟨rfl, rfl⟩ := hd
  -- the name alone makes the text shorter, whatever it turns out to be
  refine (reads_name .expression).bind fun x e _ he => ?_
  split
  · exact reads_pure ⟨he.2, .bool false⟩
  split
  · exact reads_pure ⟨he.2, .null⟩
  split
  · exact reads_pure ⟨he.2, .bool true⟩
  refine reads_blanks.bind fun _ f hef _ => ?_
  have hef := hef.length_le
  refine (reads_lookingAt "->").bind fun b g _ hg => ?_
  obtain ⟨rfl, rfl⟩ := hg
  split
  · refine (reads_token "->").bind fun _ h hgh _ => ?_
    have hgh := hgh.length_le
    refine reads_blanks.bind fun _ i hhi _ => ?_
    have hhi := hhi.length_le
    refine reads_peek.bind fun y j _ hj => ?_
    obtain ⟨-, rfl⟩ := hj
    split
    · refine (hblock j (by omega)).bind fun body k _ hk => reads_pure ⟨by omega, ?_⟩
      exact .closure _ (.block hk.2)
    · refine (hexpr j (by omega)).bind fun body k _ hk => reads_pure ⟨by omega, ?_⟩
      exact .closure _ hk.2
  · exact reads_pure ⟨by omega, .name hc he.1⟩

/-- **A primary** is read from the text. What it starts with tells which one it is. -/
theorem reads_primary {expression : Parser Tree} {block : Parser (List Tree)} {bound : Nat}
    (hexpr : ReadsBelow o expression m (ReadFrom o))
    (hblock : ReadsBelow o block (m + 1) (AllReadFrom o)) (hbound : m ≤ bound) :
    ReadsBelow o (primary expression block bound) (m + 1) (ReadFrom o) := by
  intro c hm
  refine Reads.of_reached fun hc => ?_
  unfold primary
  refine reads_peek.bind fun x d _ hd => ?_
  obtain ⟨hx, rfl⟩ := hd
  split
  · refine (reads_stringLiteral bound (by omega)).bind fun s e _ he => ?_
    exact reads_pure ⟨he, .string s⟩
  split
  · refine reads_next.bind fun _ e _ he => ?_
    have he : e.rest.length < d.rest.length := by rw [he, List.length_cons]; omega
    refine reads_blanks.bind fun _ f hef _ => ?_
    have hef := hef.length_le
    refine (hexpr f (by omega)).bind fun inner g _ hg => ?_
    refine reads_blanks.bind fun _ h hgh _ => ?_
    have hgh := hgh.length_le
    refine (reads_token ")").bind fun _ i hhi _ => ?_
    have hhi := hhi.length_le
    exact reads_pure ⟨by omega, hg.2⟩
  split
  -- nothing has been read before the block, so it may be as long as the expression
  · refine (hblock d hm).bind fun body e _ he => ?_
    exact reads_pure ⟨he.1, .closure none (.block he.2)⟩
  split
  -- a number is not empty, since it starts with a digit or with a sign
  case isTrue hdigit =>
    refine reads_number.bind fun text e _ he => ?_
    exact reads_pure ⟨he.2 x hx (Or.inr hdigit), .number text⟩
  refine reads_cursor.bind fun _ e _ he => ?_
  obtain ⟨rfl, rfl⟩ := he
  split
  case isTrue hminus =>
    refine reads_number.bind fun text f _ hf => ?_
    exact reads_pure ⟨hf.2 x hx (Or.inl hminus.1), .number text⟩
  split
  · exact reads_named hexpr hblock e hm
  · refine reads_here.bind fun place f _ hf => ?_
    obtain ⟨rfl, rfl⟩ := hf
    exact reads_fail (.unexpectedCharacter hc hx)

/-! ### Levels of expressions -/

section Levels

variable {expression : Parser Tree} {block : Parser (List Tree)} {bound : Nat}
  (hexpr : ReadsBelow o expression m (ReadFrom o))
  (hblock : ReadsBelow o block (m + 1) (AllReadFrom o)) (hbound : m < bound)

include hexpr hblock hbound

/-- A primary with the accesses after it is read from the text. -/
theorem reads_access : ReadsBelow o (access expression block bound) (m + 1) (ReadFrom o) := by
  intro c hm
  unfold access
  refine (reads_primary hexpr hblock (Nat.le_of_lt hbound) c hm).bind fun base d _ hd => ?_
  refine (reads_accessTail hexpr (Nat.le_of_lt hbound) bound hd.2 (by omega) (by omega)).mono ?_
  intro e f hdf he
  exact ⟨Nat.lt_of_le_of_lt hdf.length_le hd.1, he⟩

omit hexpr hblock hbound in
/-- Negations are read from the text if what they negate is. -/
theorem reads_negation {operand : Parser Tree}
    (hoperand : ReadsBelow o operand (m + 1) (ReadFrom o)) (n : Nat) (hm : c.rest.length < m + 1)
    (hn : c.rest.length < n) :
    Reads o (negation operand n) c fun e d => d.rest.length < c.rest.length ∧ ReadFrom o e := by
  -- each exclamation mark is a round of its own, on a shorter text
  induction n generalizing c with
  | zero => omega
  | succ n ih =>
    unfold negation
    refine reads_peek.bind fun x d _ hd => ?_
    obtain ⟨-, rfl⟩ := hd
    split
    · refine reads_next.bind fun _ e _ he => ?_
      have he : e.rest.length < d.rest.length := by rw [he, List.length_cons]; omega
      refine reads_blanks.bind fun _ f hef _ => ?_
      have hef := hef.length_le
      refine (ih (c := f) (by omega) (by omega)).bind fun operand g _ hg => ?_
      exact reads_pure ⟨by omega, .not hg.2⟩
    · exact hoperand d hm

/-- Comparisons are read from the text. -/
theorem reads_equality : ReadsBelow o (equality expression block bound) (m + 1) (ReadFrom o) := by
  have hoperand : ReadsBelow o (negation (access expression block bound) bound) (m + 1)
      (ReadFrom o) :=
    fun c hm => reads_negation (reads_access hexpr hblock hbound) bound hm (by omega)
  intro c hm
  unfold equality
  refine (hoperand c hm).bind fun left d _ hd => ?_
  refine (reads_equalityTail hoperand bound hd.2 (by omega) (by omega)).mono ?_
  intro e f hdf he
  exact ⟨Nat.lt_of_le_of_lt hdf.length_le hd.1, he⟩

omit hexpr hblock in
/-- An operand with the chain after it, for either operator. -/
theorem reads_chain {op : String} {join : Tree → Tree → Tree} {operand : Parser Tree}
    (hop : op ≠ "") (hjoin : ∀ {l r}, ReadFrom o l → ReadFrom o r → ReadFrom o (join l r))
    (hoperand : ReadsBelow o operand (m + 1) (ReadFrom o)) :
    ReadsBelow o (do chainTail op join operand bound (← operand)) (m + 1) (ReadFrom o) := by
  intro c hm
  refine (hoperand c hm).bind fun left d _ hd => ?_
  refine (reads_chainTail hop hjoin hoperand bound hd.2 (by omega) (by omega)).mono ?_
  intro e f hdf he
  exact ⟨Nat.lt_of_le_of_lt hdf.length_le hd.1, he⟩

/-- Conjunctions, and the disjunctions above them, are read from the text. -/
theorem reads_disjunction :
    ReadsBelow o (disjunction expression block bound) (m + 1) (ReadFrom o) :=
  -- the same chain twice: the operands of the outer one are the inner ones
  reads_chain hbound (by decide) .or
    (reads_chain hbound (by decide) .and (reads_equality hexpr hblock hbound))

omit hblock hbound in
/-- An assignment is read from the text, and its target keeps the place of the name. -/
theorem reads_assignment (width : Nat) :
    ReadsBelow o (assignment expression width) (m + 1) (ReadFrom o) := by
  intro c hm
  refine Reads.of_reached fun hc => ?_
  unfold assignment
  refine reads_here.bind fun place d _ hd => ?_
  obtain ⟨rfl, rfl⟩ := hd
  refine (reads_name .assignment).bind fun x e _ he => ?_
  split
  -- the keyword is blamed on the place where the name started
  · exact reads_fail (.unexpectedKeyword hc he.1)
  · refine reads_blanks.bind fun _ f hef _ => ?_
    have hef := hef.length_le
    refine (reads_skip width).bind fun _ g hfg _ => ?_
    have hfg := hfg.length_le
    refine reads_blanks.bind fun _ h hgh _ => ?_
    have hgh := hgh.length_le
    refine (hexpr h (by omega)).bind fun value i _ hi => ?_
    exact reads_pure ⟨by omega, .assign hc he.1 hi.2⟩

/-- **The level of an expression**: either way to go on reads from the text. -/
theorem reads_assignmentOrDisjunction :
    ReadsBelow o (assignmentOrDisjunction expression block bound) (m + 1) (ReadFrom o) := by
  intro c hm
  unfold assignmentOrDisjunction
  refine reads_cursor.bind fun _ d _ hd => ?_
  obtain ⟨rfl, rfl⟩ := hd
  split
  · exact reads_assignment hexpr _ d hm
  · exact reads_disjunction hexpr hblock hbound d hm

end Levels

/-! ### Statements -/

/-- **Statements** are read from the text up to the brace that closes them, or up to its end. -/
theorem reads_statementsUpTo {expression : Parser Tree} {block : Parser (List Tree)}
    (close : Option Char)
    (hexpr : ReadsBelow o expression m (ReadFrom o))
    (hblock : ReadsBelow o block m (AllReadFrom o)) (n : Nat) {read : List Tree}
    (hread : AllReadFrom o read) (terminated : Bool) (hm : c.rest.length < m)
    (hn : c.rest.length < n) :
    Reads o (statementsUpTo close expression block n read terminated) c
      fun r _ => AllReadFrom o r.1 := by
  induction n generalizing c read terminated with
  | zero => omega
  | succ n ih =>
    unfold statementsUpTo
    refine reads_blanks.bind fun _ d hcd _ => Reads.of_reached fun hd => ?_
    have hcd := hcd.length_le
    refine reads_peek?.bind fun x e _ he => ?_
    obtain ⟨hx, rfl⟩ := he
    split
    case h_1 =>
      split
      · refine reads_here.bind fun place f _ hf => ?_
        obtain ⟨rfl, rfl⟩ := hf
        -- at the end of the text no brace can stand
        refine reads_fail (.expected hd ?_)
        rw [List.head?_eq_none_iff.mp hx.symm]
        decide
      · exact reads_pure hread.reverse
    case h_2 x =>
      split
      · exact reads_pure hread.reverse
      split
      · refine reads_next.bind fun _ f _ hf => ?_
        have hf : f.rest.length < e.rest.length := by rw [hf, List.length_cons]; omega
        exact ih hread true (by omega) (by omega)
      split
      -- a block has at least its braces, so the next round has less to read
      · refine (hblock e (by omega)).bind fun body f _ hf => ?_
        exact ih (hread.cons (.block hf.2)) true (by omega) (by omega)
      · refine (hexpr e (by omega)).bind fun statement f _ hf => ?_
        have hread' := hread.cons hf.2
        refine reads_blanks.bind fun _ g hfg _ => Reads.of_reached fun hg => ?_
        have hfg := hfg.length_le
        refine reads_peek?.bind fun y h _ hh => ?_
        obtain ⟨hy, rfl⟩ := hh
        split
        case h_1 y =>
          split
          · refine reads_next.bind fun _ i hi _ => ?_
            have hi := hi.length_le
            exact ih hread' true (by omega) (by omega)
          split
          · exact ih hread' terminated (by omega) (by omega)
          · refine reads_here.bind fun place i _ hi => ?_
            obtain ⟨rfl, rfl⟩ := hi
            exact reads_fail (.unexpectedCharacter hg hy.symm)
        case h_2 => exact ih hread' terminated (by omega) (by omega)

/-- A block in braces is read from the text. -/
theorem reads_braced {expression : Parser Tree} {block : Parser (List Tree)} {bound : Nat}
    (hexpr : ReadsBelow o expression m (ReadFrom o))
    (hblock : ReadsBelow o block m (AllReadFrom o)) (hbound : m ≤ bound) :
    ReadsBelow o (braced expression block bound) (m + 1) (AllReadFrom o) := by
  intro c hm
  unfold braced
  refine (reads_token "\x7b").bind fun _ d _ hd => ?_
  have hd := length_lt_of_token (by decide) hd
  refine (reads_statementsUpTo (some '}') hexpr hblock bound (List.forall_mem_nil _)
    false (by omega) (by omega)).bind fun r e hde he => ?_
  have hde := hde.length_le
  refine (reads_token "\x7d").bind fun _ f hef _ => ?_
  have hef := hef.length_le
  exact reads_pure ⟨by omega, he⟩

/-! ### Closing the recursion -/

/-- Expressions and blocks at once, by induction on the bound: a level of nesting uses up one, and the
places of a text count twice. -/
theorem reads_nested (o : Cursor) (n m : Nat) :
    (2 * m ≤ n → ReadsBelow o (expression n) m (ReadFrom o)) ∧
      (2 * m ≤ n + 1 → ReadsBelow o (block n) m (AllReadFrom o)) := by
  induction n generalizing m with
  | zero =>
    -- no text has less than one place
    exact ⟨fun hm c hc => absurd hc (by omega), fun hm c hc => absurd hc (by omega)⟩
  | succ n ih =>
    cases m with
    | zero => exact ⟨fun _ c hc => absurd hc (by omega), fun _ c hc => absurd hc (by omega)⟩
    | succ m =>
      -- an expression nests blocks of its own length, and a block only shorter ones
      constructor
      · intro hm
        exact reads_assignmentOrDisjunction ((ih m).1 (by omega)) ((ih (m + 1)).2 (by omega))
          (by omega)
      · intro hm
        exact reads_braced ((ih m).1 (by omega)) ((ih m).2 (by omega)) (by omega)

/-- **A script** is read from the text that it starts at. -/
theorem reads_script (bound : Nat) (hbound : 2 * (c.rest.length + 1) ≤ bound) :
    Reads o (script bound) c fun e _ => ReadFrom o e := by
  unfold script
  have hexpr := (reads_nested o bound (c.rest.length + 1)).1 hbound
  have hblock := (reads_nested o bound (c.rest.length + 1)).2 (by omega)
  refine (reads_statementsUpTo none hexpr hblock bound (List.forall_mem_nil _) false (by omega)
    (by omega)).bind fun r d _ hr => ?_
  split
  · exact reads_pure (hr _ (List.mem_singleton_self _))
  · exact reads_pure (.statements hr)

end Parser

/-! ### Whole sources -/

/-- Reading a whole source ends with a tree that comes from it or with an exact error. -/
theorem script_fits (source : String) :
    (Parser.script (2 * (source.length + 1)) (Cursor.start source)).Fits (Cursor.start source)
      (Cursor.start source) fun e _ => ReadFrom (Cursor.start source) e := by
  have hlength : (Cursor.start source).rest.length = source.length := String.length_toList
  refine Parser.reads_script _ (Nat.le_of_eq ?_) (Cursor.Reaches.refl _)
  rw [hlength]

/-- **An accepted source** gives a tree that comes from it. -/
theorem readFrom_of_parse {source : String} {tree : Tree} (h : parse source = .ok tree) :
    ReadFrom (Cursor.start source) tree := by
  have hfits := script_fits source
  unfold parse at h
  generalize Parser.script (2 * (source.length + 1)) (Cursor.start source) = outcome at h hfits
  cases outcome with
  | done e d =>
    obtain rfl : e = tree := Except.ok.inj h
    exact hfits.2
  | failed e => exact absurd h (by simp)
  | exhausted => exact absurd h (by simp)

/-- **A refused source** is refused for a reason that can be seen where the error says. In particular
the recursion is not exhausted, for which there would be no such reason. -/
theorem exact_of_parse {source : String} {error : ParseError} (h : parse source = .error error) :
    error.Exact (Cursor.start source) := by
  have hfits := script_fits source
  unfold parse at h
  generalize Parser.script (2 * (source.length + 1)) (Cursor.start source) = outcome at h hfits
  cases outcome with
  | done e d => exact absurd h (by simp)
  | failed e =>
    obtain rfl : e = error := Except.error.inj h
    exact hfits
  | exhausted => exact hfits.elim

end GraphQuery
