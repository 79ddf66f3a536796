import GraphQuery.Proofs.Script.Soundness

/-!
# Two texts read in lockstep

How does a script read if something in its text is changed? The parsers run on both texts, and where
the first run is done, the second one is done as well and gives the same tree, up to places. This is
shown here once and for all: for a relation `R` between what is left of the two texts, and a relation
`S` for what is left of them inside a string. `Lockstep R S` says what the relations have to do, and
mentions no parser. It is enough that

* the texts stay related when white space and comments are skipped in both;
* they go on with the same characters, apart from those that may start a gap.

The two runs have bounds of their own, and nothing is said about how large these are: the second run
may run out of its bound (`Outcome.Meets`). That this does not happen is known from elsewhere.

## Main statements

* `lockstep_eq`: a text and itself.
* `Follows.bind`: one parser after the other, on both texts.
* `follows_name`, `follows_stringLiteral`, `follows_number`: tokens.
-/

namespace GraphQuery

/-! ### Texts that go on in the same way -/

/-- The character is neither white space nor a slash nor a quote. -/
def isInner (x : Char) : Bool := !isBlank x && x != '/' && x != '"' && x != '\''

/-- Characters that stand between gaps and strings, except that they are not a semicolon and do not
start with an assignment operator. -/
def Firm (w : List Char) : Prop :=
  w ≠ [] ∧ w.all isInner = true ∧ w.head? ≠ some ';' ∧ w.head? ≠ some ':' ∧
    (w.head? = some '=' → ['=', '='] <+: w)

instance (w : List Char) : Decidable (Firm w) := inferInstanceAs (Decidable (_ ∧ _))

/-- What is left of two texts, related by `R` between tokens and by `S` inside a string. -/
structure Lockstep (R : List Char → List Char → Prop)
    (S : Char → List Char → List Char → Prop) : Prop where
  /-- Gaps are skipped in both texts. -/
  blanks {s s' : List Char} (h : R s s') : R (unblanked s) (unblanked s')
  /-- Where the first text goes on, the second one does. -/
  forth {w t s' : List Char} (hw : Firm w) (h : R (w ++ t) s') : ∃ t', s' = w ++ t' ∧ R t t'
  /-- Where the second text goes on, the first one does. -/
  back {w s t' : List Char} (hw : Firm w) (h : R s (w ++ t')) : ∃ t, s = w ++ t ∧ R t t'
  /-- A semicolon stands in both texts if it stands in the first one. -/
  semicolon {t s' : List Char} (h : R (';' :: t) s') : ∃ t', s' = ';' :: t' ∧ R t t'
  /-- A string starts in both texts. -/
  quote {q : Char} {t s' : List Char} (hq : q = '"' ∨ q = '\'') (h : R (q :: t) s') :
    ∃ t', s' = q :: t' ∧ S q t t'
  /-- A string ends in both texts. -/
  close {q : Char} {t s' : List Char} (h : S q (q :: t) s') : ∃ t', s' = q :: t' ∧ R t t'
  /-- A character of a string. -/
  plain {q x : Char} {t s' : List Char} (hq : x ≠ q) (hx : x ≠ '\\') (h : S q (x :: t) s') :
    ∃ t', s' = x :: t' ∧ S q t t'
  /-- A backslash and the character after it. -/
  escape {q : Char} {t s' : List Char} (hq : '\\' ≠ q) (h : S q ('\\' :: t) s') :
    ∃ t', s' = '\\' :: t' ∧ ∀ y u, t = y :: u → ∃ u', t' = y :: u' ∧ S q u u'
  /-- The look-ahead finds the same in both texts. -/
  ahead {x : Char} {t s' : List Char} (hx : isNameStart x = true) (h : R (x :: t) s') :
    assignmentAhead s' = assignmentAhead (x :: t)
  /-- An assignment operator stands in both texts. -/
  operator {s s' : List Char} {width : Nat} (h : R s s') (hs : assignOperator? s = some width)
    (hs' : assignOperator? s' = some width) : R (s.drop width) (s'.drop width)
  /-- Where the first text ends, the second one ends or has a semicolon. -/
  ends {s' : List Char} (h : R [] s') : ∀ x ∈ (unblanked s').head?, x = ';'

/-- A text and itself. -/
theorem lockstep_eq : Lockstep (· = ·) fun _ => (· = ·) where
  blanks := by rintro s _ rfl; rfl
  forth := by rintro w t _ - rfl; exact ⟨t, rfl, rfl⟩
  back := by rintro w _ t' - rfl; exact ⟨t', rfl, rfl⟩
  semicolon := by rintro t _ rfl; exact ⟨t, rfl, rfl⟩
  quote := by rintro q t _ - rfl; exact ⟨t, rfl, rfl⟩
  close := by rintro q t _ rfl; exact ⟨t, rfl, rfl⟩
  plain := by rintro q x t _ - - rfl; exact ⟨t, rfl, rfl⟩
  escape := by rintro q t _ - rfl; exact ⟨t, rfl, fun y u h => ⟨u, h, rfl⟩⟩
  ahead := by rintro x t _ - rfl; rfl
  operator := by rintro s _ width rfl - -; rfl
  ends := by rintro _ rfl x hx; exact nomatch hx

/-- Printable characters are inner ones, apart from the slash, the quotes and the few below the dollar. -/
theorem isInner_of_toNat {x : Char} (hlow : 36 ≤ x.toNat) (hhigh : x.toNat ≤ 126)
    (hslash : x.toNat ≠ 47) (hquote : x.toNat ≠ 39) : isInner x = true := by
  -- the code points exclude white space, and the other three characters are excluded by number
  have hsolid := solid_of_toNat (x := x) (by omega) hhigh hslash
  have hne : ∀ y : Char, x.toNat ≠ y.toNat → (x != y) = true :=
    fun y hy => bne_iff_ne.mpr fun h => hy (congrArg Char.toNat h)
  have hdouble : (x != '"') = true := hne '"' (by simp; omega)
  have hsingle : (x != '\'') = true := hne '\'' (by simp; omega)
  have hnot : (x != '/') = true := bne_iff_ne.mpr hsolid.2
  rw [isInner, hsolid.1, hnot, hdouble, hsingle]
  rfl

/-- A character of a name is firm on its own. -/
theorem firm_of_isNamePart {x : Char} (hx : isNamePart x = true) : Firm [x] := by
  -- letters, digits, the underscore and the dollar by code point
  have hcode : x.toNat = 36 ∨ x.toNat = 95 ∨ (48 ≤ x.toNat ∧ x.toNat ≤ 57) ∨
      (65 ≤ x.toNat ∧ x.toNat ≤ 90) ∨ (97 ≤ x.toNat ∧ x.toNat ≤ 122) := by
    rw [isNamePart, Bool.or_eq_true, isNameStart_iff, Char.isDigit_iff_toNat] at hx
    simp at hx
    omega
  have hinner : isInner x = true :=
    isInner_of_toNat (by omega) (by omega) (by omega) (by omega)
  have hne : ∀ y : Char, x.toNat ≠ y.toNat → [x].head? ≠ some y :=
    fun y hy h => hy (congrArg Char.toNat (Option.some.inj h))
  have hequals : [x].head? ≠ some '=' := hne '=' (by simp; omega)
  refine ⟨List.cons_ne_nil _ _, ?_, hne ';' (by simp; omega), hne ':' (by simp; omega),
    fun h => absurd h hequals⟩
  rw [List.all_cons, hinner]
  rfl

theorem firm_of_isDigit {x : Char} (hx : x.isDigit = true) : Firm [x] :=
  firm_of_isNamePart (by rw [isNamePart, hx, Bool.or_true])

theorem firm_of_isNameStart {x : Char} (hx : isNameStart x = true) : Firm [x] :=
  firm_of_isNamePart (by rw [isNamePart, hx, Bool.true_or])

/-! ### Places where a gap may start -/

/-- Inner characters are not part of a gap. -/
theorem solid_of_isInner {x : Char} (hx : isInner x = true) : Solid x := by
  simp only [isInner, Bool.and_eq_true, bne_iff_ne, Bool.not_eq_true'] at hx
  exact ⟨hx.1.1.1, hx.1.1.2⟩

/-- Nothing in firm characters starts a gap. -/
theorem Firm.solid {w : List Char} (hw : Firm w) : ∀ x ∈ w, Solid x :=
  fun x hx => solid_of_isInner (List.all_eq_true.mp hw.2.1 x hx)

/-- The text is empty, or it starts with what may start a gap. -/
def Dull (s : List Char) : Prop := ∀ x ∈ s.head?, ¬ Solid x

theorem dull_nil : Dull [] := fun x h => absurd h (Option.not_mem_none x)

theorem dull_cons {x : Char} (hx : ¬ Solid x) (s : List Char) : Dull (x :: s) :=
  fun _ h => Option.some.inj h ▸ hx

/-- Solid characters in front of a text stand before a place where a gap may start. -/
theorem split_of_solid {w t p a : List Char} (hw : ∀ x ∈ w, Solid x) (ha : Dull a)
    (h : w ++ t = p ++ a) : ∃ p', p = w ++ p' ∧ t = p' ++ a := by
  -- what the characters reach beyond `p` would be at the front of `a`, where nothing solid is
  rcases List.append_eq_append_iff.mp h with ⟨p', hp, ht⟩ | ⟨v, hv, hva⟩
  · exact ⟨p', hp, ht⟩
  · cases v with
    | nil => exact ⟨[], by simpa using hv.symm, by simpa using hva.symm⟩
    | cons x v =>
      rw [hva] at ha
      exact absurd (hw x (by rw [hv]; simp)) (ha x rfl)

/-- The assignment operator by its first character and the one after it. -/
theorem assignOperator?_cons (x : Char) (s : List Char) :
    assignOperator? (x :: s) =
      if x = ':' then (if s.head? = some '=' then some 2 else none)
      else if x = '=' then (if s.head? = some '=' then none else some 1)
      else none := by
  unfold assignOperator?
  -- the patterns overlap, so each case has to say that the ones before it do not match
  split
  case h_1 h =>
    obtain ⟨rfl, rfl⟩ := List.cons.inj h
    rfl
  case h_2 h =>
    obtain ⟨rfl, rfl⟩ := List.cons.inj h
    rfl
  case h_3 t hequals h =>
    obtain ⟨rfl, rfl⟩ := List.cons.inj h
    have hhead : s.head? ≠ some '=' := by
      intro hhead
      obtain ⟨t, rfl⟩ := List.head?_eq_some_iff.mp hhead
      exact hequals t rfl
    rw [if_neg (by decide), if_pos rfl, if_neg hhead]
  case h_4 hcolon hequals hsingle =>
    have hhead : x = ':' → s.head? ≠ some '=' := by
      rintro rfl hhead
      obtain ⟨t, rfl⟩ := List.head?_eq_some_iff.mp hhead
      exact hcolon t rfl
    have hx : x ≠ '=' := by
      rintro rfl
      exact hsingle s rfl
    by_cases hx' : x = ':'
    · rw [if_pos hx', if_neg (hhead hx')]
    · rw [if_neg hx', if_neg hx]

/-- After a first character, the operator does not reach into a gap. -/
theorem assignOperator?_append {u a b : List Char} (hu : u ≠ []) (ha : Dull a) (hb : Dull b) :
    assignOperator? (u ++ a) = assignOperator? (u ++ b) := by
  obtain ⟨x, u, rfl⟩ := List.exists_cons_of_ne_nil hu
  have hdull : ∀ {s : List Char}, Dull s → s.head? ≠ some '=' :=
    fun hs h => hs '=' h (by decide)
  have hhead : (u ++ a).head? = some '=' ↔ (u ++ b).head? = some '=' := by
    cases u with
    | nil => exact ⟨fun h => absurd h (hdull ha), fun h => absurd h (hdull hb)⟩
    | cons y u => exact Iff.rfl
  rw [List.cons_append, List.cons_append, assignOperator?_cons, assignOperator?_cons]
  simp only [hhead]

/-- The look-ahead passes a name and white space, and then sees the rest of the common part or what
comes after it. -/
theorem assignmentAhead_congr {x : Char} (hx : isNameStart x = true) {a b : List Char} (ha : Dull a)
    (hb : Dull b)
    (hahead : assignOperator? (a.dropWhile isBlank) = assignOperator? (b.dropWhile isBlank))
    (p : List Char) : assignmentAhead (x :: (p ++ b)) = assignmentAhead (x :: (p ++ a)) := by
  -- a name does not reach into what may start a gap, so it ends inside `p` or with it
  have hname : ∀ {s : List Char}, Dull s → (p ++ s).dropWhile isNamePart =
      p.dropWhile isNamePart ++ s := by
    intro s hs
    have hstop : s.dropWhile isNamePart = s := by
      cases s with
      | nil => rfl
      | cons y t =>
        have hpart : ¬ isNamePart y = true := fun hpart =>
          hs y rfl ((firm_of_isNamePart hpart).solid y (List.mem_singleton_self y))
        rw [List.dropWhile_cons_of_neg hpart]
    rw [List.dropWhile_append, hstop]
    split
    case isTrue h => rw [List.isEmpty_iff.mp h, List.nil_append]
    case isFalse => rfl
  rw [assignmentAhead_eq hx, assignmentAhead_eq hx, hname ha, hname hb]
  generalize p.dropWhile isNamePart = r
  rw [List.dropWhile_append, List.dropWhile_append]
  -- if nothing of `p` is left, the operator is looked for after it, and otherwise at what is left
  by_cases hr : (r.dropWhile isBlank).isEmpty = true
  · rw [if_pos hr, if_pos hr, hahead]
  · rw [if_neg hr, if_neg hr]
    exact assignOperator?_append (fun h => hr (List.isEmpty_iff.mpr h)) hb ha

namespace Lockstep

variable {R : List Char → List Char → Prop} {S : Char → List Char → List Char → Prop}
  (L : Lockstep R S) {s s' : List Char}

include L

/-- One character on which the second text follows the first. -/
theorem forth_cons {x : Char} {t : List Char} (hx : Firm [x]) (h : R (x :: t) s') :
    ∃ t', s' = x :: t' ∧ R t t' := L.forth (w := [x]) hx h

/-- One character on which the first text follows the second. -/
theorem back_cons {x : Char} {t' : List Char} (hx : Firm [x]) (h : R s (x :: t')) :
    ∃ t, s = x :: t ∧ R t t' := L.back (w := [x]) hx h

/-- A firm character comes next in both texts or in neither. -/
theorem head?_iff {x : Char} (hx : Firm [x]) (h : R s s') :
    s'.head? = some x ↔ s.head? = some x := by
  constructor
  · intro hhead
    obtain ⟨t', rfl⟩ := List.head?_eq_some_iff.mp hhead
    obtain ⟨t, rfl, -⟩ := L.back_cons hx h
    rfl
  · intro hhead
    obtain ⟨t, rfl⟩ := List.head?_eq_some_iff.mp hhead
    obtain ⟨t', rfl, -⟩ := L.forth_cons hx h
    rfl

/-- Firm characters come next in both texts or in neither. -/
theorem prefix_iff {w : List Char} (hw : Firm w) (h : R s s') : w <+: s' ↔ w <+: s := by
  constructor
  · rintro ⟨t', rfl⟩
    obtain ⟨t, rfl, -⟩ := L.back hw h
    exact ⟨t, rfl⟩
  · rintro ⟨t, rfl⟩
    obtain ⟨t', rfl, -⟩ := L.forth hw h
    exact ⟨t', rfl⟩

/-- A test that only characters of tokens pass has the same result in both texts. -/
theorem any_head? {p : Char → Bool} (hp : ∀ x, p x = true → Firm [x]) (h : R s s') :
    s'.head?.any p = s.head?.any p := by
  rw [Bool.eq_iff_iff, Option.any_eq_true, Option.any_eq_true]
  constructor
  · rintro ⟨x, hx, hpx⟩
    exact ⟨x, (L.head?_iff (hp x hpx) h).mp hx, hpx⟩
  · rintro ⟨x, hx, hpx⟩
    exact ⟨x, (L.head?_iff (hp x hpx) h).mpr hx, hpx⟩

/-- **The longest run** of characters of tokens is the same in both texts. -/
theorem takeWhile_eq {p : Char → Bool} (hp : ∀ x, p x = true → Firm [x]) (h : R s s') :
    s'.takeWhile p = s.takeWhile p ∧ R (s.dropWhile p) (s'.dropWhile p) := by
  -- on the first text; the second one loses its first character with it, as long as the test passes
  induction s generalizing s' with
  | nil =>
    have hstop : s'.takeWhile p = [] ∧ s'.dropWhile p = s' := by
      have hany := L.any_head? hp h
      cases s' with
      | nil => exact ⟨rfl, rfl⟩
      | cons x t' =>
        rw [List.takeWhile_cons, List.dropWhile_cons, show p x = false from hany]
        exact ⟨rfl, rfl⟩
    rw [hstop.1, hstop.2]
    exact ⟨rfl, h⟩
  | cons x t ih =>
    have hany := L.any_head? hp h
    by_cases hx : p x = true
    · obtain ⟨t', rfl, ht⟩ := L.forth_cons (hp x hx) h
      simp only [List.takeWhile_cons, List.dropWhile_cons, hx, if_true]
      exact ⟨by rw [(ih ht).1], (ih ht).2⟩
    · cases s' with
      | nil =>
        simp only [List.takeWhile_cons, List.dropWhile_cons, hx]
        exact ⟨rfl, h⟩
      | cons y t' =>
        have hy : ¬ p y = true := fun hy => hx (hany.symm.trans hy)
        simp only [List.takeWhile_cons, List.dropWhile_cons, hx, hy]
        exact ⟨rfl, h⟩

/-- The look-ahead for an assignment has the same result in both texts. -/
theorem assignmentAhead_eq (h : R s s') : assignmentAhead s' = assignmentAhead s := by
  have hnone : ∀ t : List Char, t.head?.any isNameStart = false → assignmentAhead t = none := by
    intro t ht
    cases t with
    | nil => rfl
    | cons x t =>
      have hx : isNameStart x = false := ht
      rw [assignmentAhead, hx, if_neg Bool.false_ne_true]
  have hany := L.any_head? (fun x => firm_of_isNameStart) h
  -- without a name at the front, there is nothing to look for in either text
  rcases hs : s.head?.any isNameStart with _ | _
  · rw [hnone s hs, hnone s' (hany.trans hs)]
  · obtain ⟨x, hx, hname⟩ := Option.any_eq_true _ _ |>.mp hs
    obtain ⟨t, rfl⟩ := List.head?_eq_some_iff.mp hx
    exact L.ahead hname h

end Lockstep

/-- The outcome is done and fits, unless the bound was too small. -/
def Outcome.Meets {α : Type} (outcome : Outcome α) (fits : α → Cursor → Prop) : Prop :=
  outcome = .exhausted ∨ ∃ a d, outcome = .done a d ∧ fits a d

theorem Outcome.Meets.mono {α : Type} {outcome : Outcome α} {mid fits : α → Cursor → Prop}
    (h : outcome.Meets mid) (himp : ∀ a d, mid a d → fits a d) : outcome.Meets fits := by
  rcases h with hexhausted | ⟨a, d, hdone, hmid⟩
  · exact Or.inl hexhausted
  · exact Or.inr ⟨a, d, hdone, himp a d hmid⟩

/-- One parser after the other: the second is run on what the first one left, if that is done. -/
theorem Outcome.Meets.bind {α β : Type} {p : Parser α} {f : α → Parser β} {c : Cursor}
    {mid : α → Cursor → Prop} {fits : β → Cursor → Prop} (h : (p c).Meets mid)
    (hf : ∀ a d, mid a d → (f a d).Meets fits) : ((p >>= f) c).Meets fits := by
  change (Parser.bind p f c).Meets fits
  unfold Parser.bind
  rcases h with hexhausted | ⟨a, d, hdone, hmid⟩
  · rw [hexhausted]
    exact Or.inl rfl
  · rw [hdone]
    exact hf a d hmid

namespace Parser

section Composition

variable {α α' β β' : Type} {c c' : Cursor}

/-- If the first parser is done at its cursor, so is the second one at its own, unless its bound is
too small. -/
def Follows (p : Parser α) (p' : Parser α') (c c' : Cursor)
    (post : α → Cursor → α' → Cursor → Prop) : Prop :=
  ∀ a d, p c = .done a d → (p' c').Meets (post a d)

/-! ### Composition -/

/-- **One parser after the other** on both texts. -/
theorem Follows.bind {p : Parser α} {p' : Parser α'} {f : α → Parser β} {f' : α' → Parser β'}
    {mid : α → Cursor → α' → Cursor → Prop} {post : β → Cursor → β' → Cursor → Prop}
    (hp : Follows p p' c c' mid)
    (hf : ∀ a d a' d', mid a d a' d' → Follows (f a) (f' a') d d' post) :
    Follows (p >>= f) (p' >>= f') c c' post := by
  intro b e h
  obtain ⟨a, d, hpc, hfd⟩ := bind_done h
  exact (hp a d hpc).bind fun a' d' hmid => hf a d a' d' hmid b e hfd

theorem Follows.mono {p : Parser α} {p' : Parser α'} {mid post : α → Cursor → α' → Cursor → Prop}
    (hp : Follows p p' c c' mid) (h : ∀ a d a' d', mid a d a' d' → post a d a' d') :
    Follows p p' c c' post := fun a d hpc => (hp a d hpc).mono fun a' d' => h a d a' d'

/-- What the first parser needs to be done may be assumed. -/
theorem Follows.assume {p : Parser α} {p' : Parser α'} {post : α → Cursor → α' → Cursor → Prop}
    {P : Prop} (hp : Ensures p c fun _ _ => P) (h : P → Follows p p' c c' post) :
    Follows p p' c c' post := fun a d hpc => h (hp a d hpc) a d hpc

/-- What the first of two parsers needs is needed by both. -/
theorem Ensures.of_bind {p : Parser α} {f : α → Parser β} {P : Prop}
    (hp : Ensures p c fun _ _ => P) : Ensures (p >>= f) c fun _ _ => P := by
  intro b e h
  obtain ⟨a, d, hpc, -⟩ := bind_done h
  exact hp a d hpc

/-- What is known of each parser alone may be added. -/
theorem Follows.ensures {p : Parser α} {p' : Parser α'} {post : α → Cursor → α' → Cursor → Prop}
    {left : α → Cursor → Prop} {right : α' → Cursor → Prop} (h : Follows p p' c c' post)
    (hp : Ensures p c left) (hp' : Ensures p' c' right) :
    Follows p p' c c' fun a d a' d' => post a d a' d' ∧ left a d ∧ right a' d' := by
  intro a d hpc
  rcases h a d hpc with hexhausted | ⟨a', d', hpc', hpost⟩
  · exact Or.inl hexhausted
  · exact Or.inr ⟨a', d', hpc', hpost, hp a d hpc, hp' a' d' hpc'⟩

variable {post : α → Cursor → α' → Cursor → Prop}

theorem follows_pure {a : α} {a' : α'} (h : post a c a' c') : Follows (pure a) (pure a') c c' post := by
  intro b d hb
  obtain ⟨rfl, rfl⟩ := Outcome.done.inj hb
  exact Or.inr ⟨a', c', rfl, h⟩

/-- A parser that fails is never done, so every other one follows it. -/
theorem follows_fail {cause : ParseError.Cause} {l : Location} {p' : Parser α'} :
    Follows (fail cause l) p' c c' post := fun _ _ h => nomatch h

theorem follows_exhausted {p' : Parser α'} : Follows exhausted p' c c' post :=
  fun _ _ h => nomatch h

/-- The second parser may run out of its bound. -/
theorem follows_exhausted_right {p : Parser α} : Follows p exhausted c c' post :=
  fun _ _ _ => Or.inl rfl

end Composition

/-! ### Single steps -/

section Steps

variable {α α' β : Type} {c c' : Cursor}

theorem follows_here : Follows here here c c' fun _ d _ d' => d = c ∧ d' = c' := by
  intro a d h
  obtain ⟨-, rfl⟩ := Outcome.done.inj h
  exact Or.inr ⟨_, _, rfl, rfl, rfl⟩

theorem follows_cursor : Follows cursor cursor c c' fun a d a' d' =>
    (a = c ∧ d = c) ∧ a' = c' ∧ d' = c' := by
  intro a d h
  obtain ⟨rfl, rfl⟩ := Outcome.done.inj h
  exact Or.inr ⟨_, _, rfl, ⟨rfl, rfl⟩, rfl, rfl⟩

theorem follows_peek? : Follows peek? peek? c c' fun a d a' d' =>
    (a = c.rest.head? ∧ d = c) ∧ a' = c'.rest.head? ∧ d' = c' := by
  intro a d h
  obtain ⟨rfl, rfl⟩ := Outcome.done.inj h
  exact Or.inr ⟨_, _, rfl, ⟨rfl, rfl⟩, rfl, rfl⟩

theorem follows_move {f g : Cursor → Cursor} :
    Follows (move f) (move g) c c' fun _ d _ d' => d = f c ∧ d' = g c' := by
  intro a d h
  obtain ⟨-, rfl⟩ := Outcome.done.inj h
  exact Or.inr ⟨_, _, rfl, rfl, rfl⟩

/-- Two parsers that are known to be done. -/
theorem follows_of_yields {p : Parser α} {p' : Parser α'} {a : α} {a' : α'} {r r' : List Char}
    (h : Yields p c (· = a) r) (h' : Yields p' c' (· = a') r') :
    Follows p p' c c' fun b d b' d' => b = a ∧ b' = a' ∧ d.rest = r ∧ d'.rest = r' := by
  intro b d hb
  obtain ⟨_, _, hp, rfl, rfl⟩ := h
  obtain ⟨rfl, rfl⟩ := Outcome.done.inj (hp.symm.trans hb)
  obtain ⟨b', d', hp', hb', hd'⟩ := h'
  exact Or.inr ⟨b', d', hp', rfl, hb', rfl, hd'⟩

/-- A character is read that decides how to go on, and it is the same one if the first parser is
done. -/
theorem Follows.next {f : Char → Parser α} {f' : Char → Parser α'}
    {post : α → Cursor → α' → Cursor → Prop} {Q : Char → List Char → List Char → Prop}
    (h : ∀ x d, c.rest = x :: d.rest →
      Ensures (f x) d fun _ _ => ∃ t', c'.rest = x :: t' ∧ Q x d.rest t')
    (hf : ∀ x d d', Q x d.rest d'.rest → Follows (f x) (f' x) d d' post) :
    Follows (next >>= f) (next >>= f') c c' post := by
  intro a d hd
  obtain ⟨x, e, hx, hfx⟩ := bind_done hd
  -- the first parser is done only on a character that the second text has, too
  obtain ⟨t', ht', hQ⟩ := h x e (reads_next.ensures x e hx) a d hfx
  obtain ⟨_, e', hx', rfl, rfl⟩ := yields_next ht'
  have hnext : (Parser.next c').Meets fun y f => y = _ ∧ f = e' := Or.inr ⟨_, e', hx', rfl, rfl⟩
  refine hnext.bind ?_
  rintro _ _ ⟨rfl, rfl⟩
  exact hf _ e _ hQ a d hfx

/-- The next character is looked at, and it is the same one in both texts. -/
theorem follows_peek {x : Char} {t t' : List Char} (h : c.rest = x :: t) (h' : c'.rest = x :: t') :
    Follows peek peek c c' fun a d a' d' => (a = x ∧ d = c) ∧ a' = x ∧ d' = c' := by
  have hpeek : ∀ {c : Cursor} {t}, c.rest = x :: t → peek c = .done x c := by
    intro c t h
    unfold peek
    rw [h]
  intro a d hd
  obtain ⟨rfl, rfl⟩ := Outcome.done.inj ((hpeek h).symm.trans hd)
  exact Or.inr ⟨_, _, hpeek h', ⟨rfl, rfl⟩, rfl, rfl⟩

/-- The next character decides how to go on, and it is the same one if the first parser is done. -/
theorem Follows.peek {f : Char → Parser α} {f' : Char → Parser α'}
    {post : α → Cursor → α' → Cursor → Prop}
    (h : ∀ x t, c.rest = x :: t → Ensures (f x) c fun _ _ => ∃ t', c'.rest = x :: t')
    (hf : ∀ x t t', c.rest = x :: t → c'.rest = x :: t' → Follows (f x) (f' x) c c' post) :
    Follows (peek >>= f) (peek >>= f') c c' post := by
  intro a d hd
  obtain ⟨x, e, hx, hfx⟩ := bind_done hd
  obtain ⟨hhead, rfl⟩ := reads_peek.ensures x e hx
  obtain ⟨t, ht⟩ := List.head?_eq_some_iff.mp hhead
  obtain ⟨t', ht'⟩ := h x t ht a d hfx
  refine (follows_peek ht ht').bind (fun y f y' f' hy => ?_) a d hd
  obtain ⟨⟨rfl, rfl⟩, rfl, rfl⟩ := hy
  exact hf _ t t' ht ht'

end Steps

/-! ### Tokens -/

/-- The values of both parsers fit, and what they leave is related. -/
def Agree {α : Type} (R : List Char → List Char → Prop) (fits : α → α → Prop) (a : α) (d : Cursor)
    (a' : α) (d' : Cursor) : Prop := fits a a' ∧ R d.rest d'.rest

section Tokens

variable {R : List Char → List Char → Prop} {S : Char → List Char → List Char → Prop}
  (L : Lockstep R S) {c c' : Cursor} (hc : R c.rest c'.rest)

include L hc

/-- **Gaps** are skipped in both texts. -/
theorem follows_blanks : Follows blanks blanks c c' fun _ d _ d' =>
    R d.rest d'.rest ∧ d.rest = unblanked c.rest ∧ d'.rest = unblanked c'.rest := by
  refine follows_move.mono fun _ d _ d' hd => ?_
  obtain ⟨rfl, rfl⟩ := hd
  rw [skipBlanks_rest, skipBlanks_rest]
  exact ⟨L.blanks hc, rfl, rfl⟩

/-- A firm token comes next in both texts or in neither. -/
theorem follows_lookingAt {t : String} (ht : Firm t.toList) :
    Follows (lookingAt t) (lookingAt t) c c' fun a d a' d' => a' = a ∧ d = c ∧ d' = c' := by
  intro a d h
  obtain ⟨rfl, rfl⟩ := Outcome.done.inj h
  refine Or.inr ⟨_, _, rfl, ?_, rfl, rfl⟩
  rw [Bool.eq_iff_iff, Cursor.lookingAt, Cursor.lookingAt, List.isPrefixOf_iff_prefix,
    List.isPrefixOf_iff_prefix]
  exact L.prefix_iff ht hc

/-- **Tokens** that the first parser finds are found by the second one. -/
theorem follows_token {t : String} (ht : Firm t.toList) :
    Follows (token t) (token t) c c' fun _ d _ d' => R d.rest d'.rest := by
  intro _ d h
  have hrest := (reads_token t).ensures _ d h
  rw [hrest] at hc
  obtain ⟨t', ht', hR⟩ := L.forth ht hc
  obtain ⟨_, d', hd', -, rfl⟩ := yields_token ht'
  exact Or.inr ⟨_, d', hd', hR⟩

/-- A character that is known to come next is read. -/
theorem follows_next {x : Char} {t : List Char} (hx : Firm [x]) (ht : c.rest = x :: t) :
    Follows next next c c' fun _ d _ d' => R d.rest d'.rest := by
  obtain ⟨t', ht', hR⟩ := L.forth_cons hx (ht ▸ hc)
  refine (follows_of_yields (yields_next ht) (yields_next ht')).mono fun _ d _ d' hd => ?_
  obtain ⟨-, -, rfl, rfl⟩ := hd
  exact hR

/-- Runs of characters of tokens are read alike. -/
theorem follows_takeWhile {p : Char → Bool} (hp : ∀ x, p x = true → Firm [x]) :
    Follows (takeWhile p) (takeWhile p) c c' (Agree R Eq) := by
  intro text d h
  obtain ⟨rfl, rfl⟩ := Outcome.done.inj h
  obtain ⟨htext, hrest⟩ := L.takeWhile_eq hp hc
  exact Or.inr ⟨_, _, rfl, htext.symm, hrest⟩

/-- An optional character of a token is read alike. -/
theorem follows_takeIf {p : Char → Bool} (hp : ∀ x, p x = true → Firm [x]) :
    Follows (takeIf p) (takeIf p) c c' (Agree R Eq) := by
  have hany := L.any_head? hp hc
  rcases hfirst : c.rest.head?.any p with _ | _
  -- the test fails in both texts, and neither gives anything up
  · have hnone : ∀ {s : List Char}, s.head?.any p = false → ∀ x ∈ s.head?, p x = false := by
      intro s hs x hx
      rwa [Option.mem_def.mp hx] at hs
    have hleft : Yields (takeIf p) c (· = []) c.rest :=
      yields_takeIf (Or.inl rfl) (fun _ => hnone hfirst) rfl
    have hright : Yields (takeIf p) c' (· = []) c'.rest :=
      yields_takeIf (Or.inl rfl) (fun _ => hnone (hany.trans hfirst)) rfl
    refine (follows_of_yields hleft hright).mono fun a d a' d' h => ?_
    obtain ⟨rfl, rfl, hd, hd'⟩ := h
    exact ⟨rfl, by rw [hd, hd']; exact hc⟩
  · obtain ⟨x, hx, hpx⟩ := Option.any_eq_true _ _ |>.mp hfirst
    obtain ⟨t, ht⟩ := List.head?_eq_some_iff.mp hx
    obtain ⟨t', ht', hR⟩ := L.forth_cons (hp x hpx) (ht ▸ hc)
    have hleft : Yields (takeIf p) c (· = [x]) t :=
      yields_takeIf (Or.inr ⟨x, rfl, hpx⟩) (fun h => nomatch h) ht
    have hright : Yields (takeIf p) c' (· = [x]) t' :=
      yields_takeIf (Or.inr ⟨x, rfl, hpx⟩) (fun h => nomatch h) ht'
    refine (follows_of_yields hleft hright).mono fun a d a' d' h => ?_
    obtain ⟨rfl, rfl, rfl, rfl⟩ := h
    exact ⟨rfl, hR⟩

/-- **Names.** -/
theorem follows_name (within : Part) : Follows (name within) (name within) c c' (Agree R Eq) := by
  unfold name
  refine follows_here.bind fun _ d _ d' hd => ?_
  obtain ⟨rfl, rfl⟩ := hd
  refine Follows.next (Q := fun x t t' => isNameStart x = true ∧ R t t') ?_ ?_
  -- the first parser fails on a character that starts no name, so the second text has this one, too
  · intro x e he
    split
    case isTrue hx =>
      obtain ⟨t', ht', hR⟩ := L.forth_cons (firm_of_isNameStart hx) (he ▸ hc)
      exact fun _ _ _ => ⟨t', ht', hx, hR⟩
    case isFalse => exact ensures_fail
  · intro x e e' he
    rw [if_pos he.1, if_pos he.1]
    refine (follows_takeWhile L he.2 fun _ => firm_of_isNamePart).bind fun text f text' f' hf => ?_
    obtain ⟨rfl, hR⟩ := hf
    exact follows_pure ⟨rfl, hR⟩

/-! ### Numbers -/

omit L hc in
/-- Without a point and a digit after it there is no fraction, and nothing is read. -/
theorem yields_fraction_none
    (h : ∀ (x : Char) (t : List Char), c.rest = '.' :: x :: t → x.isDigit = false) :
    Yields fraction c (· = []) c.rest := by
  unfold fraction
  refine yields_cursor.bind fun a d ha hd => ?_
  rw [ha]
  split
  case h_1 x t hrest =>
    rw [h x t hrest, if_neg Bool.false_ne_true]
    exact yields_pure rfl hd
  case h_2 => exact yields_pure rfl hd

/-- The fraction of a number is read alike. -/
theorem follows_fraction : Follows fraction fraction c c' (Agree R Eq) := by
  -- a point alone does not decide: the digit after it has to be the same as well
  by_cases hpoint : ∃ (x : Char) (t : List Char), c.rest = '.' :: x :: t ∧ x.isDigit = true
  · obtain ⟨x, t, ht, hx⟩ := hpoint
    obtain ⟨u', hu', hR⟩ := L.forth_cons (by decide) (ht ▸ hc)
    obtain ⟨t', rfl, -⟩ := L.forth_cons (firm_of_isDigit hx) hR
    unfold fraction
    refine follows_cursor.bind fun a d a' d' hd => ?_
    obtain ⟨⟨rfl, rfl⟩, rfl, rfl⟩ := hd
    rw [ht, hu']
    simp only [hx, if_true]
    refine (follows_of_yields (yields_next ht) (yields_next hu')).bind fun y e y' e' he => ?_
    obtain ⟨rfl, rfl, he, he'⟩ := he
    rw [← he, ← he'] at hR
    refine (follows_takeWhile L hR fun _ => firm_of_isDigit).bind fun text f text' f' hf => ?_
    obtain ⟨rfl, hR⟩ := hf
    exact follows_pure ⟨rfl, hR⟩
  -- without a point and a digit, there are none in the second text either
  · have hnone : ∀ (x : Char) (t : List Char), c.rest = '.' :: x :: t → x.isDigit = false :=
      fun x t ht => Bool.eq_false_iff.mpr fun hx => hpoint ⟨x, t, ht, hx⟩
    have hnone' : ∀ (x : Char) (t : List Char), c'.rest = '.' :: x :: t → x.isDigit = false := by
      intro x t' ht'
      refine Bool.eq_false_iff.mpr fun hx => ?_
      obtain ⟨u, hu, hR⟩ := L.back_cons (by decide) (ht' ▸ hc)
      obtain ⟨t, rfl, -⟩ := L.back_cons (firm_of_isDigit hx) hR
      exact hpoint ⟨x, t, hu, hx⟩
    have hyields := follows_of_yields (yields_fraction_none hnone) (yields_fraction_none hnone')
    refine hyields.mono fun a d a' d' h => ?_
    obtain ⟨rfl, rfl, hd, hd'⟩ := h
    exact ⟨rfl, by rw [hd, hd']; exact hc⟩

/-- The exponent of a number is read alike. -/
theorem follows_exponent (read : List Char) :
    Follows (exponent read) (exponent read) c c' (Agree R Eq) := by
  -- both signs of an exponent and both marks are firm, so that the optional readers apply
  have hmark : ∀ x : Char, (x = 'e' || x = 'E') = true → Firm [x] := by
    intro x hx
    rw [Bool.or_eq_true, decide_eq_true_eq, decide_eq_true_eq] at hx
    rcases hx with rfl | rfl <;> decide
  have hsign : ∀ x : Char, (x = '+' || x = '-') = true → Firm [x] := by
    intro x hx
    rw [Bool.or_eq_true, decide_eq_true_eq, decide_eq_true_eq] at hx
    rcases hx with rfl | rfl <;> decide
  unfold exponent
  refine follows_here.bind fun _ d _ d' hd => ?_
  obtain ⟨rfl, rfl⟩ := hd
  refine (follows_takeIf L hc hmark).bind fun mark e _ e' he => ?_
  obtain ⟨rfl, he⟩ := he
  split
  · exact follows_pure ⟨rfl, he⟩
  refine (follows_takeIf L he hsign).bind fun sign f _ f' hf => ?_
  obtain ⟨rfl, hf⟩ := hf
  refine (follows_takeWhile L hf fun _ => firm_of_isDigit).bind fun digits g _ g' hg => ?_
  obtain ⟨rfl, hg⟩ := hg
  split
  -- a mark without digits is an error of the first parser
  · exact follows_fail
  · exact follows_pure ⟨rfl, hg⟩

/-- **Numbers.** -/
theorem follows_number : Follows number number c c' (Agree R Eq) := by
  have hminus : ∀ x : Char, decide (x = '-') = true → Firm [x] := by
    intro x hx
    rw [decide_eq_true_eq] at hx
    subst hx
    decide
  unfold number
  refine (follows_takeIf L hc hminus).bind fun sign d _ d' hd => ?_
  obtain ⟨rfl, hd⟩ := hd
  refine (follows_takeWhile L hd fun _ => firm_of_isDigit).bind fun digits e _ e' he => ?_
  obtain ⟨rfl, he⟩ := he
  refine (follows_fraction L he).bind fun fraction f _ f' hf => ?_
  obtain ⟨rfl, hf⟩ := hf
  refine (follows_exponent L hf _).bind fun exponent g _ g' hg => ?_
  obtain ⟨rfl, hg⟩ := hg
  exact follows_pure ⟨rfl, hg⟩

end Tokens

/-! ### Strings -/

section Strings

variable {R : List Char → List Char → Prop} {S : Char → List Char → List Char → Prop}
  (L : Lockstep R S) {c c' : Cursor} {q : Char} (hq : q = '"' ∨ q = '\'')

include L hq

/-- The digits of a code point are read alike inside a string. -/
theorem follows_hexDigits (place place' : Location) (n code : Nat) (hc : S q c.rest c'.rest) :
    Follows (hexDigits place n code) (hexDigits place' n code) c c' (Agree (S q) Eq) := by
  induction n generalizing c c' code with
  | zero => exact follows_pure ⟨rfl, hc⟩
  | succ n ih =>
    unfold hexDigits
    refine Follows.next (Q := fun x t t' => (∃ v, hexValue? x = some v) ∧ S q t t') ?_ ?_
    · intro x d hd
      split
      case h_1 v hx =>
        have hne : ∀ y : Char, hexValue? y = none → x ≠ y := by
          rintro y hy rfl
          rw [hy] at hx
          exact nomatch hx
        -- a digit neither ends the string nor starts an escape
        have hquote : x ≠ q := hne q (by rcases hq with rfl | rfl <;> decide)
        have hslash : x ≠ '\\' := hne _ (by decide)
        obtain ⟨t', ht', hS⟩ := L.plain hquote hslash (hd ▸ hc)
        exact fun _ _ _ => ⟨t', ht', ⟨v, hx⟩, hS⟩
      case h_2 => exact ensures_fail
    · intro x d d' hd
      obtain ⟨⟨v, hx⟩, hS⟩ := hd
      rw [hx]
      exact ih _ hS

/-- What comes after a backslash is read alike. -/
theorem follows_escape
    (hc : ∀ y u, c.rest = y :: u → ∃ u', c'.rest = y :: u' ∧ S q u u') :
    Follows escape escape c c' (Agree (S q) Eq) := by
  unfold escape
  refine follows_here.bind fun place d place' d' hd => ?_
  obtain ⟨rfl, rfl⟩ := hd
  refine Follows.next (Q := fun _ => S q) ?_ ?_
  · intro y e he _ _ _
    exact hc y e.rest he
  · intro y e e' he
    split
    · refine (follows_hexDigits L hq _ _ 4 0 he).bind fun code f _ f' hf => ?_
      obtain ⟨rfl, hf⟩ := hf
      split
      · exact follows_pure ⟨rfl, hf⟩
      · exact follows_fail
    · split
      · exact follows_pure ⟨rfl, he⟩
      · exact follows_fail

/-- **What comes after the opening quote** is read alike, up to the closing one. -/
theorem follows_stringTail (n n' : Nat) (read : List Char) (hc : S q c.rest c'.rest) :
    Follows (stringTail q n read) (stringTail q n' read) c c' (Agree R Eq) := by
  -- on the bound of the first run; the second run may have any other one
  induction n generalizing c c' n' read with
  | zero => exact follows_exhausted
  | succ n ih =>
    cases n' with
    | zero => exact follows_exhausted_right
    | succ n' =>
      have hslash : '\\' ≠ q := by rcases hq with rfl | rfl <;> decide
      unfold stringTail
      -- the character may end the string, stand for itself or start an escape
      refine Follows.next (Q := fun x t t' => (x = q → R t t') ∧ (x ≠ q → x ≠ '\\' → S q t t') ∧
        (x = '\\' → ∀ y u, t = y :: u → ∃ u', t' = y :: u' ∧ S q u u')) ?_ ?_
      · intro x d hd _ _ _
        rw [hd] at hc
        by_cases hx : x = q
        · subst hx
          obtain ⟨t', ht', hR⟩ := L.close hc
          exact ⟨t', ht', fun _ => hR, fun h => absurd rfl h, fun h => absurd h.symm hslash⟩
        by_cases hx' : x = '\\'
        · subst hx'
          obtain ⟨t', ht', hS⟩ := L.escape hslash hc
          exact ⟨t', ht', fun h => absurd h hx, fun _ h => absurd rfl h, fun _ => hS⟩
        · obtain ⟨t', ht', hS⟩ := L.plain hx hx' hc
          exact ⟨t', ht', fun h => absurd h hx, fun _ _ => hS, fun h => absurd h hx'⟩
      · intro x d d' hd
        obtain ⟨hclose, hplain, hescape⟩ := hd
        split
        case isTrue hx => exact follows_pure ⟨rfl, hclose hx⟩
        case isFalse hx =>
          split
          case isTrue hx' =>
            refine (follows_escape L hq (hescape hx')).bind fun y e _ e' he => ?_
            obtain ⟨rfl, he⟩ := he
            exact ih n' _ he
          case isFalse hx' => exact ih n' _ (hplain hx hx')

omit hq in
/-- **Strings.** -/
theorem follows_stringLiteral (bound bound' : Nat) (hc : R c.rest c'.rest)
    (hquote : ∀ x ∈ c.rest.head?, x = '"' ∨ x = '\'') :
    Follows (stringLiteral bound) (stringLiteral bound') c c' (Agree R Eq) := by
  unfold stringLiteral
  refine Follows.next (Q := fun x t t' => (x = '"' ∨ x = '\'') ∧ S x t t') ?_ ?_
  · intro q d hd _ _ _
    have hq : q = '"' ∨ q = '\'' := hquote q (by rw [hd]; rfl)
    obtain ⟨t', ht', hS⟩ := L.quote hq (hd ▸ hc)
    exact ⟨t', ht', hq, hS⟩
  · intro q d d' hd
    refine (follows_stringTail L hd.1 bound bound' [] hd.2).bind fun out e _ e' he => ?_
    obtain ⟨rfl, he⟩ := he
    exact follows_pure ⟨rfl, he⟩

end Strings

end Parser

end GraphQuery
