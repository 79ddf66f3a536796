import GraphQuery.Proofs.Script.Tracking
import GraphQuery.Script.Printer

/-!
# Which gaps can be exchanged

Between two tokens, is one gap as good as another? A gap stands neither in a string nor in a comment
nor after a lone slash, which is what `scan .code p = .code` says of the text `p` before it: `scan`
goes through a text and keeps track of where it is.

Two sources that differ in one gap are in lockstep (`lockstep_around`), as long as the look-ahead for
assignments finds the same operator in both. It does, with one exception: it passes white space but no
comment. So in front of an assignment operator a comment is not as good as a blank.

## Main statements

* `lockstep_around`: two texts that agree up to some place.
* `parse_gap_iff`: a gap may be exchanged for another one, unless an assignment operator follows and
  the other one has a comment.
* `parse_comment_before_operator`: with a comment before its operator, an assignment is refused.
-/

namespace GraphQuery

/-- Where in a text one is: outside of strings and comments, after a slash there, in a comment, in a
string, or after a backslash there. -/
inductive Mode where
  /-- Outside of strings and comments. -/
  | code
  /-- After a slash there. -/
  | slash
  /-- In a comment. -/
  | comment
  /-- In a string. -/
  | string (quote : Char)
  /-- In a string, after a backslash. -/
  | escape (quote : Char)
  deriving DecidableEq

/-- The mode after a character outside of strings and comments. -/
def Mode.start (x : Char) : Mode :=
  if x = '"' ∨ x = '\'' then .string x else if x = '/' then .slash else .code

/-- The mode after one more character. -/
def Mode.next : Mode → Char → Mode
  | .code, x => .start x
  | .slash, x => if x = '/' then .comment else .start x
  | .comment, x => if x = '\n' then .code else .comment
  | .string q, x => if x = q then .code else if x = '\\' then .escape q else .string q
  | .escape q, _ => .string q

/-- The mode after a text. -/
def scan (m : Mode) (s : List Char) : Mode := s.foldl Mode.next m

/-- By definition, a text is gone through from its start. -/
theorem scan_cons (m : Mode) (x : Char) (s : List Char) : scan m (x :: s) = scan (m.next x) s := rfl

/-- A text is gone through in parts. -/
theorem scan_append (m : Mode) (s t : List Char) : scan m (s ++ t) = scan (scan m s) t :=
  List.foldl_append

/-- A character that starts neither strings nor comments leaves the mode as it is. -/
theorem scan_code_cons {x : Char} (hx : isInner x = true) (s : List Char) :
    scan .code (x :: s) = scan .code s := by
  simp only [isInner, Bool.and_eq_true, bne_iff_ne] at hx
  obtain ⟨⟨⟨-, hslash⟩, hdouble⟩, hsingle⟩ := hx
  rw [scan_cons, Mode.next, Mode.start, if_neg (not_or.mpr ⟨hdouble, hsingle⟩), if_neg hslash]

/-- So does a text of such characters. -/
theorem scan_code_append {w : List Char} (hw : w.all isInner = true) (s : List Char) :
    scan .code (w ++ s) = scan .code s := by
  induction w with
  | nil => rfl
  | cons x w ih =>
    rw [List.all_cons, Bool.and_eq_true] at hw
    rw [List.cons_append, scan_code_cons hw.1, ih hw.2]

/-! ### Gaps -/

/-- A comment ends at a line feed only. -/
theorem scan_comment {body : List Char} (hbody : '\n' ∉ body) : scan .comment body = .comment := by
  induction body with
  | nil => rfl
  | cons x body ih =>
    have hx : x ≠ '\n' := fun h => hbody (h ▸ List.mem_cons_self)
    rw [scan_cons, Mode.next, if_neg hx]
    exact ih fun h => hbody (List.mem_cons_of_mem x h)

/-- Trivia starts and ends outside of strings and comments. -/
theorem Trivia.scan {g : List Char} (hg : Trivia g) : scan .code g = .code := by
  induction hg with
  | nil => rfl
  | @blank x g hx _ ih =>
    have hslash : x ≠ '/' := isBlank_ne_slash hx
    have hquote : ¬ (x = '"' ∨ x = '\'') := by
      rintro (rfl | rfl) <;> exact absurd hx (by decide)
    rw [scan_cons, Mode.next, Mode.start, if_neg hquote, if_neg hslash]
    exact ih
  | @comment body g hbody _ ih =>
    change GraphQuery.scan .comment (body ++ '\n' :: g) = .code
    rw [scan_append, scan_comment hbody]
    exact ih

/-- **A text that ends outside of comments** is trivia, or trivia and a text that starts with a
token. -/
theorem trivia_cases {p : List Char} (hp : scan .code p = .code) :
    Trivia p ∨ ∃ g r, Trivia g ∧ p = g ++ r ∧ r ≠ [] ∧ Settled r ∧ scan .code r = .code := by
  rcases gap_unblanked p with ⟨g, hg, hgap⟩ | ⟨-, g, body, hg, hbody, rfl⟩
  · by_cases hr : unblanked p = []
    · rw [hr, List.append_nil] at hgap
      exact Or.inl (hgap ▸ hg)
    · refine Or.inr ⟨g, unblanked p, hg, hgap, hr, settled_unblanked p, ?_⟩
      rw [hgap, scan_append, hg.scan] at hp
      exact hp
  -- a comment without an end does not leave its mode
  · rw [scan_append, hg.scan] at hp
    change scan .comment body = .code at hp
    rw [scan_comment hbody] at hp
    exact nomatch hp

/-! ### Texts that agree up to a place -/

/-- The texts go on with a common part, which ends outside of strings and comments, and then with `a`
and `b`; or they are past it. -/
def Around (a b : List Char) (R : List Char → List Char → Prop) (s s' : List Char) : Prop :=
  (∃ p, s = p ++ a ∧ s' = p ++ b ∧ scan .code p = .code) ∨ R s s'

/-- The same inside a string. -/
def AroundIn (a b : List Char) (S : Char → List Char → List Char → Prop) (q : Char)
    (s s' : List Char) : Prop :=
  (∃ p, s = p ++ a ∧ s' = p ++ b ∧ scan (.string q) p = .code) ∨ S q s s'

section Around

variable {a b : List Char} {R : List Char → List Char → Prop}
  {S : Char → List Char → List Char → Prop}

/-- A text that starts with trivia goes on with no token. -/
theorem Trivia.dull {g : List Char} (hg : Trivia g) (hne : g ≠ []) (s : List Char) :
    Dull (g ++ s) := by
  obtain ⟨x, t, rfl, hx⟩ := hg.not_solid hne
  exact dull_cons hx (t ++ s)

/-- The blanks at the start of a common part are skipped alike: all of it, or up to the same token. -/
theorem unblanked_around {p : List Char} (hp : scan .code p = .code) :
    Trivia p ∨ ∃ r, scan .code r = .code ∧ ∀ a, Dull a → unblanked (p ++ a) = r ++ a := by
  rcases trivia_cases hp with hg | ⟨g, r, hg, rfl, hne, hr, hcode⟩
  · exact Or.inl hg
  -- what is left of the common part starts with a token, and not with half a comment
  · refine Or.inr ⟨r, hcode, fun a ha => ?_⟩
    rw [List.append_assoc, unblanked_append hg]
    obtain ⟨x, r, rfl⟩ := List.exists_cons_of_ne_nil hne
    refine unblanked_settled ⟨hr.1, fun hslashes => hr.2 ?_⟩
    obtain ⟨rfl, hslash⟩ := List.cons_prefix_cons.mp hslashes
    cases r with
    | nil => exact nomatch hcode
    | cons y r =>
      obtain ⟨rfl, -⟩ := List.cons_prefix_cons.mp hslash
      exact ⟨r, rfl⟩

/-- **Two texts that agree up to a place** between tokens, and are in lockstep past the gaps there. -/
theorem lockstep_around (L : Lockstep R S) (ha : Dull a) (hne : a ≠ []) (hb : Dull b)
    (hgap : R (unblanked a) (unblanked b))
    (hahead : assignOperator? (a.dropWhile isBlank) = assignOperator? (b.dropWhile isBlank)) :
    Lockstep (Around a b R) (AroundIn a b S) where
  -- each obligation has two cases: within the common part, and past it
  blanks := by
    rintro s s' (⟨p, rfl, rfl, hp⟩ | h)
    · rcases unblanked_around hp with hg | ⟨r, hr, hskip⟩
      · rw [unblanked_append hg, unblanked_append hg]
        exact Or.inr hgap
      · exact Or.inl ⟨r, hskip a ha, hskip b hb, hr⟩
    · exact Or.inr (L.blanks h)
  forth := by
    rintro w t s' hw (⟨p, hs, rfl, hp⟩ | h)
    · obtain ⟨p', rfl, rfl⟩ := split_of_solid hw.solid ha hs
      rw [scan_code_append hw.2.1] at hp
      exact ⟨p' ++ b, List.append_assoc w p' b, Or.inl ⟨p', rfl, rfl, hp⟩⟩
    · obtain ⟨t', ht', hR⟩ := L.forth hw h
      exact ⟨t', ht', Or.inr hR⟩
  back := by
    rintro w s t' hw (⟨p, rfl, hs', hp⟩ | h)
    · obtain ⟨p', rfl, rfl⟩ := split_of_solid hw.solid hb hs'
      rw [scan_code_append hw.2.1] at hp
      exact ⟨p' ++ a, List.append_assoc w p' a, Or.inl ⟨p', rfl, rfl, hp⟩⟩
    · obtain ⟨t, ht, hR⟩ := L.back hw h
      exact ⟨t, ht, Or.inr hR⟩
  semicolon := by
    rintro t s' (⟨p, hs, rfl, hp⟩ | h)
    · obtain ⟨p', rfl, rfl⟩ := split_of_solid (w := [';']) (by simp; decide) ha hs
      exact ⟨p' ++ b, rfl, Or.inl ⟨p', rfl, rfl, hp⟩⟩
    · obtain ⟨t', ht', hR⟩ := L.semicolon h
      exact ⟨t', ht', Or.inr hR⟩
  quote := by
    rintro q t s' hq (⟨p, hs, rfl, hp⟩ | h)
    · have hsolid : Solid q := by rcases hq with rfl | rfl <;> decide
      obtain ⟨p', rfl, rfl⟩ := split_of_solid (w := [q]) (by simpa using hsolid) ha hs
      have hnext : scan .code ([q] ++ p') = scan (.string q) p' := by
        rw [List.singleton_append, scan_cons, Mode.next, Mode.start, if_pos hq]
      exact ⟨p' ++ b, rfl, Or.inl ⟨p', rfl, rfl, hnext ▸ hp⟩⟩
    · obtain ⟨t', ht', hS⟩ := L.quote hq h
      exact ⟨t', ht', Or.inr hS⟩
  close := by
    rintro q t s' (⟨_ | ⟨x, p⟩, hs, rfl, hp⟩ | h)
    · exact nomatch hp
    · obtain ⟨rfl, rfl⟩ := List.cons.inj hs
      rw [scan_cons, Mode.next, if_pos rfl] at hp
      exact ⟨p ++ b, rfl, Or.inl ⟨p, rfl, rfl, hp⟩⟩
    · obtain ⟨t', ht', hR⟩ := L.close h
      exact ⟨t', ht', Or.inr hR⟩
  plain := by
    rintro q x t s' hq hx (⟨_ | ⟨y, p⟩, hs, rfl, hp⟩ | h)
    · exact nomatch hp
    · obtain ⟨rfl, rfl⟩ := List.cons.inj hs
      rw [scan_cons, Mode.next, if_neg hq, if_neg hx] at hp
      exact ⟨p ++ b, rfl, Or.inl ⟨p, rfl, rfl, hp⟩⟩
    · obtain ⟨t', ht', hS⟩ := L.plain hq hx h
      exact ⟨t', ht', Or.inr hS⟩
  escape := by
    rintro q t s' hq (⟨_ | ⟨y, p⟩, hs, rfl, hp⟩ | h)
    · exact nomatch hp
    · obtain ⟨rfl, rfl⟩ := List.cons.inj hs
      rw [scan_cons, Mode.next, if_neg hq, if_pos rfl] at hp
      refine ⟨p ++ b, rfl, fun y u hu => ?_⟩
      cases p with
      | nil => exact nomatch hp
      | cons z p =>
        obtain ⟨rfl, rfl⟩ := List.cons.inj hu
        exact ⟨p ++ b, rfl, Or.inl ⟨p, rfl, rfl, hp⟩⟩
    · obtain ⟨t', ht', hS⟩ := L.escape hq h
      refine ⟨t', ht', fun y u hu => ?_⟩
      obtain ⟨u', hu', hS⟩ := hS y u hu
      exact ⟨u', hu', Or.inr hS⟩
  ahead := by
    rintro x t s' hx (⟨p, hs, rfl, hp⟩ | h)
    · obtain ⟨p', rfl, rfl⟩ := split_of_solid (firm_of_isNameStart hx).solid ha hs
      exact assignmentAhead_congr hx ha hb hahead p'
    · exact L.ahead hx h
  -- the operator is found in the common part
  operator := by
    rintro s s' width (⟨p, rfl, rfl, hp⟩ | h) hs hs'
    · obtain ⟨op, hop, rfl, htext, -⟩ := assignOperator?_eq_some hs
      have hinner : op.toList.all isInner = true := by rcases hop with rfl | rfl <;> decide
      have hsolid : ∀ x ∈ op.toList, Solid x :=
        fun x hx => solid_of_isInner (List.all_eq_true.mp hinner x hx)
      obtain ⟨p', rfl, hdrop⟩ := split_of_solid hsolid ha htext.symm
      refine Or.inl ⟨p', hdrop, ?_, ?_⟩
      · rw [List.append_assoc, ← String.length_toList, List.drop_left]
      · rwa [scan_code_append hinner] at hp
    · exact Or.inr (L.operator h hs hs')
  ends := by
    rintro s' (⟨p, hs, -, -⟩ | h)
    · exact absurd (List.append_eq_nil_iff.mp hs.symm).2 hne
    · exact L.ends h

end Around

/-! ### Exchanging gaps -/

/-- Only if there is no comment, the look-ahead gets past a gap. -/
theorem assignOperator?_gap {run q : List Char} (hrun : Trivia run) (hq : Settled q) :
    assignOperator? ((run ++ q).dropWhile isBlank) =
      if run.all isBlank = true then assignOperator? q else none := by
  induction hrun with
  | nil =>
    have hstop : q.dropWhile isBlank = q := by
      cases q with
      | nil => rfl
      | cons x q => rw [List.dropWhile_cons, hq.1 x rfl, if_neg Bool.false_ne_true]
    rw [List.nil_append, hstop]
    rfl
  | blank hx _ ih =>
    rw [List.cons_append, List.dropWhile_cons_of_pos hx, ih, List.all_cons, hx, Bool.true_and]
  -- white space is passed, but the first slash is not
  | comment =>
    have hslash : isBlank '/' = false := by decide
    rw [List.cons_append, List.dropWhile_cons_of_neg (by rw [hslash]; exact Bool.false_ne_true),
      assignOperator?_cons, List.all_cons, hslash, Bool.false_and, if_neg Bool.false_ne_true]
    rfl

/-- An assignment operator in the first text, where the second one ends. -/
theorem lockstep_cut {q : List Char} {width : Nat} (hq : assignOperator? q = some width) :
    Lockstep (fun s s' => s = q ∧ s' = []) fun _ _ _ => False := by
  have hhead : ∀ {x : Char} {t : List Char}, q = x :: t →
      x = ':' ∨ x = '=' ∧ t.head? ≠ some '=' := by
    rintro x t rfl
    rw [assignOperator?_cons] at hq
    grind
  have hsettled : Settled q := by
    obtain ⟨-, -, -, -, hsettled⟩ := assignOperator?_eq_some hq
    exact hsettled
  have hne : q ≠ [] := by
    rintro rfl
    exact nomatch hq
  -- neither a token nor a string starts with an assignment operator, so most of this is about no text
  -- at all
  refine
    { blanks := ?_, forth := ?_, back := ?_, semicolon := ?_, quote := ?_, close := ?_, plain := ?_,
      escape := ?_, ahead := ?_, operator := ?_, ends := ?_ }
  · rintro s s' ⟨rfl, rfl⟩
    exact ⟨unblanked_settled hsettled, rfl⟩
  · rintro w t s' ⟨hne, -, -, hcolon, hequals⟩ ⟨hs, -⟩
    obtain ⟨x, w, rfl⟩ := List.exists_cons_of_ne_nil hne
    rcases hhead hs.symm with rfl | ⟨rfl, hsingle⟩
    · exact absurd rfl hcolon
    · obtain ⟨v, hv⟩ := hequals rfl
      obtain ⟨-, rfl⟩ := List.cons.inj hv
      exact absurd rfl hsingle
  · rintro w s t' hw ⟨-, hs'⟩
    exact absurd (List.append_eq_nil_iff.mp hs').1 hw.1
  · rintro t s' ⟨hs, -⟩
    rcases hhead hs.symm with h | ⟨h, -⟩ <;> exact absurd h (by decide)
  · rintro x t s' hx ⟨hs, -⟩
    rcases hx with rfl | rfl <;> rcases hhead hs.symm with h | ⟨h, -⟩ <;> exact absurd h (by decide)
  · exact fun h => h.elim
  · exact fun _ _ h => h.elim
  · exact fun _ h => h.elim
  · rintro x t s' hx ⟨hs, -⟩
    rcases hhead hs.symm with rfl | ⟨rfl, -⟩ <;> exact absurd hx (by decide)
  · rintro s s' width ⟨-, rfl⟩ - h
    exact nomatch h
  · rintro s' ⟨hs, -⟩
    exact absurd hs.symm hne

/-- Between a name and the assignment operator there are no comments. -/
theorem all_isBlank_of_parse {p run q : String} {tree : Tree}
    (hp : scan .code p.toList = .code) (hrun : Trivia run.toList)
    (hq : (assignOperator? q.toList).isSome = true) (h : parse (p ++ run ++ q) = .ok tree) :
    run.toList.all isBlank = true := by
  obtain ⟨width, hq⟩ := Option.isSome_iff_exists.mp hq
  have hsettled : Settled q.toList := by
    obtain ⟨-, -, -, -, hsettled⟩ := assignOperator?_eq_some hq
    exact hsettled
  by_contra hall
  have hne : run.toList ≠ [] := by
    intro hnil
    rw [hnil] at hall
    exact hall rfl
  -- up to the gap, the source reads as if it ended there: both texts start with the common part and
  -- the gap, and the second one has no more
  have hcut : run.toList = run.toList ++ [] := (List.append_nil _).symm
  have L : Lockstep (Around (run.toList ++ q.toList) run.toList fun s s' => s = q.toList ∧ s' = [])
      (AroundIn (run.toList ++ q.toList) run.toList fun _ _ _ => False) := by
    refine lockstep_around (lockstep_cut hq) (hrun.dull hne _) (fun h => ?_)
      (hcut ▸ hrun.dull hne []) ⟨?_, ?_⟩ ?_
    · exact hne (List.append_eq_nil_iff.mp h).1
    · rw [unblanked_append hrun, unblanked_settled hsettled]
    · rw [hcut, unblanked_append hrun]
      rfl
    · conv_rhs => rw [hcut]
      rw [assignOperator?_gap hrun hsettled, assignOperator?_gap hrun settled_nil, if_neg hall,
        if_neg hall]
  have hnone : ∀ {s' : List Char},
      ¬ Around (run.toList ++ q.toList) run.toList (fun s s' => s = q.toList ∧ s' = []) [] s' := by
    rintro s' (⟨p, hs, -⟩ | ⟨hs, -⟩)
    · exact hne (List.append_eq_nil_iff.mp (List.append_eq_nil_iff.mp hs.symm).2).1
    · rw [← hs] at hq
      exact nomatch hq
  have hstart : Around (run.toList ++ q.toList) run.toList (fun s s' => s = q.toList ∧ s' = [])
      (p ++ run ++ q).toList (p ++ run).toList := Or.inl ⟨p.toList, by simp, by simp, hp⟩
  obtain ⟨-, -, -, hend⟩ := L.parse (fun h => absurd h hnone) hstart h
  exact hnone hend

/-- **A gap may be exchanged for another one**, and the tree stays the same up to places, unless an
assignment operator follows it. Before an assignment operator only white space may stand. -/
theorem parse_gap_iff {p run run' q : String} {tree : Tree} (hp : scan .code p.toList = .code)
    (hrun : Trivia run.toList) (hne : run ≠ "") (hrun' : Trivia run'.toList) (hne' : run' ≠ "")
    (hq : Settled q.toList) (h : parse (p ++ run ++ q) = .ok tree) :
    (∃ tree', parse (p ++ run' ++ q) = .ok tree' ∧ tree'.erase = tree.erase) ↔
      ((assignOperator? q.toList).isSome = true → ∀ x ∈ run'.toList, isBlank x = true) := by
  have hnil : ∀ {s : String}, s ≠ "" → s.toList ≠ [] :=
    fun hs h => hs (String.toList_eq_nil_iff.mp h)
  constructor
  · rintro ⟨tree', h', -⟩ hoperator
    exact List.all_eq_true.mp (all_isBlank_of_parse hp hrun' hoperator h')
  -- the gaps are as good as one another, and the look-ahead gets past both or past neither
  · intro hblank
    have hahead : assignOperator? ((run.toList ++ q.toList).dropWhile isBlank) =
        assignOperator? ((run'.toList ++ q.toList).dropWhile isBlank) := by
      rw [assignOperator?_gap hrun hq, assignOperator?_gap hrun' hq]
      rcases hoperator : assignOperator? q.toList with _ | width
      · rw [ite_self, ite_self]
      · have hsome : (assignOperator? q.toList).isSome = true := by rw [hoperator]; rfl
        rw [if_pos (all_isBlank_of_parse hp hrun hsome h),
          if_pos (List.all_eq_true.mpr (hblank hsome))]
    have hgap : unblanked (run.toList ++ q.toList) = unblanked (run'.toList ++ q.toList) := by
      rw [unblanked_append hrun, unblanked_append hrun']
    have hne₀ : run.toList ++ q.toList ≠ [] := fun h => hnil hne (List.append_eq_nil_iff.mp h).1
    have L := lockstep_around lockstep_eq (hrun.dull (hnil hne) q.toList) hne₀
      (hrun'.dull (hnil hne') q.toList) hgap hahead
    have hend : ∀ {s' : List Char}, Around (run.toList ++ q.toList) (run'.toList ++ q.toList)
        (· = ·) [] s' → s' = [] := by
      rintro s' (⟨p, hs, -⟩ | rfl)
      · exact absurd (List.append_eq_nil_iff.mp hs.symm).2 hne₀
      · rfl
    have hstart : Around (run.toList ++ q.toList) (run'.toList ++ q.toList) (· = ·)
        (p ++ run ++ q).toList (p ++ run' ++ q).toList :=
      Or.inl ⟨p.toList, by simp, by simp, hp⟩
    obtain ⟨tree', hparse, herase, -⟩ := L.parse hend hstart h
    exact ⟨tree', hparse, herase⟩

/-- A comment up to the end of its line. -/
theorem trivia_commentLine : Trivia "// c\n".toList := by
  have hbody : '\n' ∉ [' ', 'c'] := by decide
  exact .comment hbody .nil

/-- A blank. -/
theorem trivia_space : Trivia " ".toList := .blank (by decide) .nil

/-- A text that starts with a token is in no gap. -/
theorem settled_of_solid {x : Char} {s : String} (hx : Solid x) (hs : s.toList.head? = some x) :
    Settled s.toList := by
  obtain ⟨t, ht⟩ := List.head?_eq_some_iff.mp hs
  rw [ht]
  exact settled_cons hx t

/-- Before a selector, a comment is as good as a blank. -/
theorem parse_gap_iff_selector :
    ∃ tree : Tree, parse ("x = a" ++ " " ++ ".b") = .ok tree ∧ tree.display = "x = a.b" ∧
      ∃ tree', parse ("x = a" ++ "// c\n" ++ ".b") = .ok tree' ∧ tree'.erase = tree.erase := by
  have hread : (parse ("x = a" ++ " " ++ ".b")).toOption.map (·.display) = some "x = a.b" := by
    decide +kernel
  obtain ⟨tree, hparse, hdisplay⟩ := exists_tree_of_map hread
  refine ⟨tree, hparse, hdisplay, ?_⟩
  exact (parse_gap_iff (by decide) trivia_space (by decide) trivia_commentLine (by decide)
    (settled_of_solid (x := '.') (by decide) (by decide)) hparse).mpr fun h => absurd h (by decide)

/-- The gap between the name and the operator of `x = 1` cannot be exchanged for a comment. -/
theorem parse_comment_before_operator :
    scan .code "x".toList = .code ∧ Trivia " ".toList ∧ Trivia "// c\n".toList ∧
      Settled "= 1".toList ∧ (∃ tree, parse ("x" ++ " " ++ "= 1") = .ok tree) ∧
      ¬ ∃ tree', parse ("x" ++ "// c\n" ++ "= 1") = .ok tree' := by
  have haccepted : (parse ("x" ++ " " ++ "= 1")).toOption.map (·.display) = some "x = 1" := by
    decide +kernel
  have hrefused : (parse ("x" ++ "// c\n" ++ "= 1")).toOption.isSome = false := by decide +kernel
  refine ⟨by decide, trivia_space, trivia_commentLine,
    settled_of_solid (x := '=') (by decide) (by decide), ?_, ?_⟩
  · obtain ⟨tree, hparse, -⟩ := exists_tree_of_map haccepted
    exact ⟨tree, hparse⟩
  · rintro ⟨tree', hparse⟩
    rw [hparse] at hrefused
    exact nomatch hrefused

end GraphQuery
