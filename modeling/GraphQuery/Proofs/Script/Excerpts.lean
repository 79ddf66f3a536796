import Mathlib.Data.List.Basic
import Mathlib.Data.Nat.Log
import GraphQuery.Proofs.Script.LineBreaks
import GraphQuery.Proofs.Script.Locations
import GraphQuery.Script.Excerpt

/-!
# Excerpts point at the refusal

An excerpt is made of two notions of a line. The place of a refusal counts line feeds, and the line that
is shown is looked up among the lines of the text, which leave out a carriage return before a line feed
and the empty line behind the last one. It is also made of two widths: the number of the line is written
out in front of it, and the caret below is moved by the logarithm of that number. The excerpt points at
the refusal because both pairs agree.

A text is cut at the place of the refusal into full rows, the part of the row before the place, and the
rest (`exists_cut`). The lookup passes the full rows (`getElem?_linesFrom`), and what it finds is the row
up to its end (`head?_linesFrom`). That the place is inside the row or at its end needs that refusals part
no line break.

## Main statements

* `length_toDigits`: the logarithm of a number tells its digits.
* `getElem?_textLines`: the line with the number of a row is that row.
* `getElem?_caretLine`: the caret stands under the column.
* `excerpt_points`: an excerpt points at the refusal.
-/

namespace GraphQuery

/-! ### The numbers of lines -/

/-- The definition counts divisions by ten. -/
theorem decimalLog_eq_log (n : Nat) : decimalLog n = Nat.log 10 n := by
  fun_induction decimalLog n with
  | case1 n h => exact (Nat.log_of_lt h).symm
  | case2 n h ih => rw [ih, Nat.log_of_one_lt_of_le (by decide) (Nat.le_of_not_lt h)]

/-- **A number has one digit more than its logarithm tells.** -/
theorem length_toDigits (n : Nat) : (Nat.toDigits 10 n).length = decimalLog n + 1 := by
  fun_induction decimalLog n with
  | case1 n h =>
    rw [Nat.toDigits_of_lt_base h]
    rfl
  | case2 n h ih =>
    rw [Nat.toDigits_of_base_le (by decide) (Nat.le_of_not_lt h), List.length_append, ih]
    rfl

/-- The text of a number is its decimal digits. -/
theorem toList_toString_nat (n : Nat) : (toString n).toList = Nat.toDigits 10 n := by
  rw [Nat.toString_eq_repr, Nat.toList_repr]

/-! ### Rows -/

/-- No row, or rows with the line feeds that end them. -/
def FullRows (before : List Char) : Prop := before = [] ∨ before.getLast? = some '\n'

/-- What comes after the shown part of a row: the end of the text, a line feed, or a carriage return
with its line feed. -/
inductive LineEnd (shown : List Char) : List Char → Prop where
  /-- The text ends here. -/
  | last : LineEnd shown []
  /-- A line feed ends the line, without a carriage return before it. -/
  | feed {after : List Char} (bare : shown.getLast? ≠ some '\r') : LineEnd shown ('\n' :: after)
  /-- Both end the line, and neither is shown. -/
  | returnFeed {after : List Char} : LineEnd shown ('\r' :: '\n' :: after)

/-- The row of a text with a number, without what ends it. -/
def IsRow (text : List Char) (row : Nat) (shown : List Char) : Prop :=
  ∃ before rest, text = before ++ (shown ++ rest) ∧ FullRows before ∧ before.count '\n' = row ∧
    '\n' ∉ shown ∧ LineEnd shown rest

/-- A text is full rows and the part of a row after them, whose length is the column that comes next. -/
theorem exists_rows (passed : List Char) :
    ∃ before pre, passed = before ++ pre ∧ FullRows before ∧ '\n' ∉ pre ∧
      Location.of passed = ⟨before.count '\n', pre.length⟩ := by
  induction passed using List.reverseRecOn with
  -- the text is read from its end, where the last character goes on with the row or ends it
  | nil => exact ⟨[], [], rfl, Or.inl rfl, List.not_mem_nil, rfl⟩
  | append_singleton passed x ih =>
    obtain ⟨before, pre, rfl, hrows, hpre, hof⟩ := ih
    have hnext : Location.of (before ++ pre ++ [x]) =
        (⟨before.count '\n', pre.length⟩ : Location).advance x := by
      rw [← Location.after_eq_of, Location.after_append, Location.after_eq_of, hof]
      rfl
    by_cases hx : x = '\n'
    · -- the row is full now
      subst hx
      refine ⟨before ++ pre ++ ['\n'], [], (List.append_nil _).symm, ?_, List.not_mem_nil, ?_⟩
      · exact Or.inr (List.getLast?_concat ..)
      · rw [hnext, Location.advance, if_pos rfl]
        simp [List.count_eq_zero_of_not_mem hpre]
    · refine ⟨before, pre ++ [x], List.append_assoc .., hrows, ?_, ?_⟩
      · simp [hpre, Ne.symm hx]
      · rw [hnext, Location.advance, if_neg hx, List.length_append]
        rfl

/-- A text has a first row, which may be empty. -/
theorem exists_lineEnd (text : List Char) :
    ∃ shown rest, text = shown ++ rest ∧ '\n' ∉ shown ∧ LineEnd shown rest := by
  rcases line_cases text with hlast | ⟨body, rest, rfl, hbody⟩
  · exact ⟨text, [], (List.append_nil _).symm, hlast, .last⟩
  -- a carriage return before the line feed is not shown
  · by_cases hreturn : body.getLast? = some '\r'
    · obtain ⟨shown, rfl⟩ := List.getLast?_eq_some_iff.mp hreturn
      refine ⟨shown, '\r' :: '\n' :: rest, by simp, ?_, .returnFeed⟩
      exact fun h => hbody (List.mem_append_left _ h)
    · exact ⟨body, '\n' :: rest, rfl, hbody, .feed hreturn⟩

/-- A place that parts no line break is at a character that is shown, or right behind what is shown. -/
theorem LineEnd.place_cases {pre rest shown ending : List Char} (hend : LineEnd shown ending)
    (htext : pre ++ rest = shown ++ ending) (hpre : '\n' ∉ pre)
    (hbreak : pre.getLast? = some '\r' → rest.head? ≠ some '\n') :
    (∃ x after, rest = x :: after ∧ shown[pre.length]? = some x) ∨ pre = shown ∧ rest = ending := by
  rcases List.append_eq_append_iff.mp htext with ⟨more, rfl, rfl⟩ | ⟨more, rfl, rfl⟩
  · cases more with
    | nil => exact Or.inr ⟨(List.append_nil _).symm, rfl⟩
    | cons x more => exact Or.inl ⟨x, more ++ ending, rfl, by simp⟩
  · cases more with
    | nil => exact Or.inr ⟨List.append_nil _, rfl⟩
    | cons x more =>
      -- what is behind the shown part and before the place has no line feed, so it is the carriage return
      exfalso
      generalize hending : x :: more ++ rest = ending at hend
      cases hend with
      | last => exact absurd hending (by simp)
      | feed =>
        obtain ⟨rfl, -⟩ := List.cons.inj hending
        exact hpre (by simp)
      | returnFeed =>
        obtain ⟨rfl, hafter⟩ := List.cons.inj hending
        cases more with
        | nil =>
          have hrest : rest = '\n' :: _ := hafter
          exact hbreak (List.getLast?_concat ..) (by rw [hrest]; rfl)
        | cons y more =>
          obtain ⟨rfl, -⟩ := List.cons.inj hafter
          exact hpre (by simp)

/-! ### Looking up lines -/

/-- A line grows until a line feed comes. -/
theorem linesFrom_append {body : List Char} (hbody : '\n' ∉ body) (line rest : List Char) :
    linesFrom line (body ++ rest) = linesFrom (body.reverse ++ line) rest := by
  induction body generalizing line with
  | nil => rfl
  | cons x body ih =>
    have hx : x ≠ '\n' := fun h => hbody (h ▸ List.mem_cons_self)
    have hbody' : '\n' ∉ body := fun h => hbody (List.mem_cons_of_mem x h)
    rw [List.cons_append, linesFrom.eq_3 _ _ _ hx, ih hbody', List.reverse_cons, List.append_assoc]
    rfl

/-- The first line is the first row without what ends it. -/
theorem head?_linesFrom {shown rest : List Char} (hshown : '\n' ∉ shown) (hend : LineEnd shown rest)
    (hne : shown ++ rest ≠ []) : (linesFrom [] (shown ++ rest)).head? = some shown := by
  rw [linesFrom_append hshown, List.append_nil]
  cases hend with
  | last =>
    rw [List.append_nil] at hne
    simp [linesFrom, hne]
  | feed hbare =>
    rw [linesFrom.eq_2, List.head?_reverse, if_neg hbare, List.reverse_reverse]
    rfl
  | @returnFeed after =>
    rw [linesFrom.eq_3 _ _ _ (by decide), linesFrom.eq_2, if_pos (List.head?_cons ..), List.tail_cons,
      List.reverse_reverse]
    rfl

/-- As many lines are passed as there are line feeds. -/
theorem getElem?_linesFrom {before : List Char} (h : before.getLast? = some '\n')
    (line rest : List Char) :
    (linesFrom line (before ++ rest))[before.count '\n']? = (linesFrom [] rest).head? := by
  -- after a line feed, the next line is looked up in what follows
  induction before generalizing line with
  | nil => exact absurd h (by simp)
  | cons x before ih =>
    by_cases hx : x = '\n'
    · subst hx
      rw [List.cons_append, linesFrom.eq_2, List.count_cons_self, List.getElem?_cons_succ]
      cases before with
      | nil => exact List.head?_eq_getElem?.symm
      | cons y before => exact ih (by simpa using h) []
    · cases before with
      | nil => exact absurd (Option.some.inj h) hx
      | cons y before =>
        rw [List.cons_append, linesFrom.eq_3 _ _ _ hx, List.count_cons_of_ne hx]
        exact ih (by simpa using h) _

/-- **The line with the number of a row is that row.** -/
theorem getElem?_textLines {source : String} {before rest : List Char}
    (htext : source.toList = before ++ rest) (hrows : FullRows before) :
    (textLines source)[before.count '\n']? = (linesFrom [] rest).head?.map String.ofList := by
  rw [textLines, List.getElem?_map, htext]
  rcases hrows with rfl | hlast
  · rw [List.nil_append, List.count_nil, List.head?_eq_getElem?]
  · rw [getElem?_linesFrom hlast]

/-! ### The lines of an excerpt -/

/-- The text ends with these lines, and each of them is one line. -/
def EndsWithLines (text : String) (lines : List String) : Prop :=
  ∃ first, text.toList = first ++ '\n' :: lines.flatMap (fun line => line.toList ++ ['\n']) ∧
    ∀ line ∈ lines, '\n' ∉ line.toList

/-- What stands in front of a line that is shown. -/
def gutter (row : Nat) : String := "  " ++ toString (row + 1) ++ " | "

/-- The line below, with a caret. -/
def caretLine (l : Location) : String :=
  "  " ++ spaces (gutterWidth l.row) ++ " | " ++ spaces l.column ++ "^"

/-- Blanks are as many as asked for. -/
theorem toList_spaces (n : Nat) : (spaces n).toList = List.replicate n ' ' := String.toList_ofList

/-- Before the caret there are as many characters as there are before the column in the line above. -/
theorem toList_caretLine (l : Location) :
    ∃ blank, (caretLine l).toList = blank ++ ['^'] ∧
      blank.length = (gutter l.row).length + l.column ∧ ∀ x ∈ blank, x = ' ' ∨ x = '|' := by
  refine ⟨[' ', ' '] ++ List.replicate (gutterWidth l.row) ' ' ++ [' ', '|', ' '] ++
    List.replicate l.column ' ', ?_, ?_, ?_⟩
  · simp [caretLine, toList_spaces]
  · -- the number of the row is as wide as the blanks that stand for it
    have hnumber : (toString (l.row + 1)).length = gutterWidth l.row := by
      rw [← String.length_toList, toList_toString_nat, length_toDigits]
      rfl
    have hgutter : (gutter l.row).length = 2 + gutterWidth l.row + 3 := by
      rw [gutter, String.length_append, String.length_append, hnumber]
      rfl
    rw [hgutter]
    simp only [List.length_append, List.length_replicate, List.length_cons, List.length_nil]
  · intro x hx
    simp only [List.mem_append, List.mem_replicate, List.mem_cons, List.not_mem_nil, or_false] at hx
    tauto

/-- There is one caret in its line. -/
theorem count_caretLine (l : Location) : (caretLine l).toList.count '^' = 1 := by
  obtain ⟨blank, hcaret, -, hblank⟩ := toList_caretLine l
  have hnone : '^' ∉ blank := fun hx => by
    rcases hblank _ hx with hx | hx <;> exact absurd hx (by decide)
  rw [hcaret, List.count_append, List.count_eq_zero_of_not_mem hnone]
  rfl

/-- **The caret stands under the column.** -/
theorem getElem?_caretLine (l : Location) :
    (caretLine l).toList[(gutter l.row).length + l.column]? = some '^' := by
  obtain ⟨blank, hcaret, hlength, -⟩ := toList_caretLine l
  rw [hcaret, ← hlength]
  exact List.getElem?_concat_length

/-- Behind the number of the line are the characters of the row. -/
theorem getElem?_gutter_append (row : Nat) (shown : String) (i : Nat) :
    (gutter row ++ shown).toList[(gutter row).length + i]? = shown.toList[i]? := by
  rw [String.toList_append, ← String.length_toList, List.getElem?_append_right (Nat.le_add_right ..),
    Nat.add_sub_cancel_left]

/-- The number of a line has no line feed. -/
theorem newline_not_mem_gutter (row : Nat) : '\n' ∉ (gutter row).toList := by
  have hdigits : '\n' ∉ Nat.toDigits 10 (row + 1) := fun h =>
    absurd (Nat.isDigit_of_mem_toDigits (by decide) (by decide) h) (by decide)
  simp [gutter, hdigits]

/-- Without a line to show, the excerpt says so. -/
theorem endsWithLines_of_none {e : ParseError} {source : String}
    (h : (textLines source)[e.location.row]? = none) (path : String) :
    EndsWithLines (e.excerpt path source) ["  <end of script>"] := by
  unfold ParseError.excerpt
  rw [h]
  refine ⟨(e.message ++ "\n  " ++ path ++ ":" ++ toString (e.location.row + 1) ++ ":" ++
    toString (e.location.column + 1) ++ ":").toList, ?_, by decide⟩
  simp

/-- With a line to show, it comes before the line with the caret. -/
theorem endsWithLines_of_some {e : ParseError} {source shown : String}
    (h : (textLines source)[e.location.row]? = some shown) (hshown : '\n' ∉ shown.toList)
    (path : String) :
    EndsWithLines (e.excerpt path source)
      [gutter e.location.row ++ shown, caretLine e.location] := by
  unfold ParseError.excerpt
  rw [h]
  refine ⟨(e.message ++ "\n  " ++ path ++ ":" ++ toString (e.location.row + 1) ++ ":" ++
    toString (e.location.column + 1) ++ ":").toList, ?_, ?_⟩
  · simp [gutter, caretLine]
  · obtain ⟨blank, hcaret, -, hblank⟩ := toList_caretLine e.location
    have hfeed : '\n' ∉ blank := fun h => by
      rcases hblank _ h with h | h <;> exact absurd h (by decide)
    simp [hshown, newline_not_mem_gutter, hcaret, hfeed]

/-- The last line tells the two kinds of excerpts apart. -/
theorem EndsWithLines.ne_atEnd {text line : String} {l : Location}
    (h : EndsWithLines text [line, caretLine l]) : ¬ EndsWithLines text ["  <end of script>"] := by
  obtain ⟨first, htext, -⟩ := h
  rintro ⟨first', htext', -⟩
  obtain ⟨blank, hcaret, -⟩ := toList_caretLine l
  -- the character before the last line feed is the caret in one kind and a bracket in the other
  have hends : ∃ a, text.toList = a ++ ['^', '\n'] :=
    ⟨first ++ '\n' :: line.toList ++ '\n' :: blank, by rw [htext]; simp [hcaret]⟩
  have hends' : ∃ a, text.toList = a ++ ['>', '\n'] :=
    ⟨first' ++ '\n' :: "  <end of script".toList, by rw [htext']; simp⟩
  obtain ⟨a, ha⟩ := hends
  obtain ⟨b, hb⟩ := hends'
  have hlast : ['^', '\n'] = ['>', '\n'] := List.append_inj_right' (ha.symm.trans hb) rfl
  exact absurd hlast (by decide)

/-! ### Excerpts of refusals -/

/-- The text is cut into full rows, the part of a row before the place, and the rest. -/
structure Location.Cuts (source : String) (l : Location) (before pre rest : List Char) : Prop where
  /-- The parts make up the text. -/
  text : source.toList = before ++ (pre ++ rest)
  /-- The rows are full. -/
  rows : FullRows before
  /-- The part of a row has no line feed. -/
  inRow : '\n' ∉ pre
  /-- The place is told by the number of rows and the length of the part. -/
  place : l = ⟨before.count '\n', pre.length⟩
  /-- It comes before the rest. -/
  precedes : l.Precedes source rest
  /-- It is not inside a line break. -/
  whole : pre.getLast? = some '\r' → rest.head? ≠ some '\n'

/-- A refusal cuts the text, at a place that is well inside a row. -/
theorem exists_cut {source : String} {e : ParseError} (h : parse source = .error e) :
    ∃ before pre rest, e.location.Cuts source before pre rest := by
  obtain ⟨passed, rest, htext, hplace, hbreak⟩ := partsNoBreak_of_parse h
  have hof : e.location = .of passed := hplace.trans (Location.after_eq_of passed)
  obtain ⟨before, pre, rfl, hrows, hpre, hcounts⟩ := exists_rows passed
  refine ⟨before, pre, rest, ?_, hrows, hpre, hof.trans hcounts, ⟨_, htext, hof⟩, fun hreturn => ?_⟩
  · exact htext.trans (List.append_assoc ..)
  · exact hbreak (by rw [List.getLast?_append, hreturn]; rfl)

section Cuts

variable {source : String} {l : Location} {before pre rest : List Char}

/-- Nothing is left of the row exactly at the end of a text whose rows are all full. -/
theorem Location.Cuts.nil_iff (h : l.Cuts source before pre rest) :
    pre ++ rest = [] ↔
      l.Precedes source [] ∧ (source = "" ∨ source.toList.getLast? = some '\n') := by
  constructor
  · intro hnil
    obtain ⟨rfl, rfl⟩ := List.append_eq_nil_iff.mp hnil
    refine ⟨h.precedes, ?_⟩
    have htext := h.text
    rw [List.append_nil, List.append_nil] at htext
    rcases h.rows with rfl | hlast
    · exact Or.inl (String.toList_eq_nil_iff.mp htext)
    · exact Or.inr (htext ▸ hlast)
  · rintro ⟨⟨passed, hpassed, hof⟩, hsource⟩
    rw [List.append_nil] at hpassed
    -- no line feed comes after the full rows, since the place has the last row
    have hcount : source.toList.count '\n' = before.count '\n' := by
      rw [hpassed]
      exact congrArg Location.row (hof.symm.trans h.place)
    have hfeed : '\n' ∉ pre ++ rest := by
      rw [h.text, List.count_append] at hcount
      exact List.count_eq_zero.mp (by omega)
    rcases hsource with rfl | hlast
    · exact (List.append_eq_nil_iff.mp h.text.symm).2
    · by_contra hne
      rw [h.text, List.getLast?_append_of_ne_nil _ hne] at hlast
      exact hfeed (List.mem_of_getLast? hlast)

/-- The line that is shown is what is left of the text after the full rows, up to the end of a line. -/
theorem Location.Cuts.getElem? (h : l.Cuts source before pre rest) :
    (textLines source)[l.row]? = (linesFrom [] (pre ++ rest)).head?.map String.ofList := by
  rw [h.place]
  exact getElem?_textLines h.text h.rows

end Cuts

/-- The lines of an excerpt show the row of the place with a caret under the place. -/
structure PointsAt (excerpt source : String) (l : Location) (shown caret : String) : Prop where
  /-- The excerpt ends with the line, after its number, and with the caret. -/
  ends : EndsWithLines excerpt [gutter l.row ++ shown, caret]
  /-- The line is the row of the place. -/
  row : IsRow source.toList l.row shown.toList
  /-- There is one caret. -/
  one : caret.toList.count '^' = 1
  /-- The caret is at the column of the place, after the number of the line. -/
  column : caret.toList[(gutter l.row).length + l.column]? = some '^'
  /-- Above the caret is the character at the place, unless the row is shown up to the place. -/
  above : (∃ x, l.Points source x ∧ l.column < shown.length ∧
      (gutter l.row ++ shown).toList[(gutter l.row).length + l.column]? = some x) ∨
    l.column = shown.length ∧ ∃ rest, LineEnd shown.toList rest ∧ l.Precedes source rest

/-- If something is left of the row, it is shown with the caret under it. -/
theorem Location.Cuts.pointsAt {source : String} {e : ParseError} {before pre rest : List Char}
    (h : e.location.Cuts source before pre rest) (hne : pre ++ rest ≠ []) (path : String) :
    ∃ shown, PointsAt (e.excerpt path source) source e.location shown (caretLine e.location) := by
  obtain ⟨line, ending, htext, hline, hend⟩ := exists_lineEnd (pre ++ rest)
  obtain ⟨shown, rfl⟩ : ∃ shown : String, shown.toList = line :=
    ⟨String.ofList line, String.toList_ofList⟩
  have hlookup : (textLines source)[e.location.row]? = some shown := by
    rw [h.getElem?, htext, head?_linesFrom hline hend (htext ▸ hne), Option.map_some,
      String.ofList_toList]
  have hrow : e.location.row = before.count '\n' := congrArg Location.row h.place
  have hcolumn : e.location.column = pre.length := congrArg Location.column h.place
  refine ⟨shown, ?_, ?_, count_caretLine _, getElem?_caretLine _, ?_⟩
  · exact endsWithLines_of_some hlookup hline path
  · exact ⟨before, ending, by rw [h.text, htext], h.rows, hrow.symm, hline, hend⟩
  · rw [getElem?_gutter_append, ← String.length_toList, hcolumn]
    -- a carriage return that is not shown is at the end of the row, and nothing comes between it and
    -- its line feed
    rcases hend.place_cases htext h.inRow h.whole with ⟨x, after, rfl, hx⟩ | ⟨hpre, rfl⟩
    · refine Or.inl ⟨x, ⟨after, h.precedes⟩, ?_, hx⟩
      exact (List.getElem?_eq_some_iff.mp hx).1
    · exact Or.inr ⟨by rw [hpre], rest, hend, h.precedes⟩

/-- **An excerpt points at the refusal.** Whatever the source and the path are, the excerpt ends with the
row of the refusal and a caret under its place, unless the refusal is behind the last row of a text whose
rows are all full. -/
theorem excerpt_points {source : String} {e : ParseError} (h : parse source = .error e)
    (path : String) :
    gutterWidth e.location.row = Nat.log 10 (e.location.row + 1) + 1 ∧
    (EndsWithLines (e.excerpt path source) ["  <end of script>"] ↔
      e.location.Precedes source [] ∧ (source = "" ∨ source.toList.getLast? = some '\n')) ∧
    (EndsWithLines (e.excerpt path source) ["  <end of script>"] ∨
      ∃ shown caret, PointsAt (e.excerpt path source) source e.location shown caret) := by
  obtain ⟨before, pre, rest, hcut⟩ := exists_cut h
  refine ⟨by rw [gutterWidth, decimalLog_eq_log], ?_⟩
  rw [← hcut.nil_iff]
  -- nothing is left of the row, so there is no line to show; otherwise there is one
  by_cases hnil : pre ++ rest = []
  · have hnone : (textLines source)[e.location.row]? = none := by
      rw [hcut.getElem?, hnil]
      rfl
    have hends := endsWithLines_of_none hnone path
    exact ⟨⟨fun _ => hnil, fun _ => hends⟩, Or.inl hends⟩
  · obtain ⟨shown, hpoints⟩ := hcut.pointsAt hnil path
    exact ⟨⟨fun hends => absurd hends hpoints.ends.ne_atEnd, fun h => absurd h hnil⟩,
      Or.inr ⟨shown, _, hpoints⟩⟩

/-- The caret may stand at a carriage return that is not shown. -/
theorem excerpt_points_return :
    ∃ e : ParseError, parse "x = 1;\r\ny = '\\\r\n'" = .error e ∧ e.location = ⟨1, 6⟩ ∧
      ∃ shown caret, PointsAt (e.excerpt "test.gs" "x = 1;\r\ny = '\\\r\n'")
        "x = 1;\r\ny = '\\\r\n'" e.location shown caret := by
  have hread : ((parse "x = 1;\r\ny = '\\\r\n'").map fun _ => ()).mapError (·.location) =
      .error ⟨1, 6⟩ := by decide +kernel
  rcases hparse : parse "x = 1;\r\ny = '\\\r\n'" with e | tree
  · rw [hparse] at hread
    obtain ⟨-, hatEnd, hcases⟩ := excerpt_points hparse "test.gs"
    refine ⟨e, rfl, Except.error.inj hread, hcases.resolve_left fun hends => ?_⟩
    exact absurd (hatEnd.mp hends).2 (by decide)
  · rw [hparse] at hread
    exact absurd hread (by simp [Except.map, Except.mapError])

end GraphQuery
