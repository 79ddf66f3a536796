import Mathlib.Data.List.Induction
import GraphQuery.Proofs.Script.Parts

/-!
# Where locations point

A reader counts places without regard to how a text was read: the row is the number of line feeds
before the place, and the column is the number of characters since the last of them. Here the places
that cursors keep while they move (`Location.after`) are shown to be these (`Location.of`), and so
the annotations of a tree and the places of errors can be stated about the source alone.

Nothing new is proved about the parsers: what was known at each cursor that reading reached
(`ReadFrom`, `ParseError.Exact`) is told again in terms of rows, columns and the text that follows.

## Main statements

* `Location.after_eq_of`: a cursor counts as a reader does.
* `locations_exact`: every location of a tree or of an error is exact.
-/

namespace GraphQuery

/-- The place after `passed`, counted from the text alone. -/
def Location.of (passed : List Char) : Location where
  row := passed.count '\n'
  column := (passed.reverse.takeWhile (· ≠ '\n')).length

/-- **A cursor counts as a reader does.** -/
theorem Location.after_eq_of (passed : List Char) : Location.after {} passed = .of passed := by
  -- from the end, since the last line feed is what the column depends on
  induction passed using List.reverseRecOn with
  | nil => rfl
  | append_singleton passed x ih =>
    rw [after_append, ih, after_cons, after_nil, advance]
    by_cases hx : x = '\n'
    · subst hx
      simp [of]
    · simp [of, hx]

/-- The text `rest` is what follows the place in the source. -/
def Location.Precedes (source : String) (l : Location) (rest : List Char) : Prop :=
  ∃ passed, source.toList = passed ++ rest ∧ l = .of passed

/-- The name starts at the place, and no character that could go on with it comes after it. -/
def Location.StartsName (source : String) (l : Location) (name : String) : Prop :=
  ∃ rest, l.Precedes source (name.toList ++ rest) ∧ ∀ x ∈ rest.head?, isNamePart x = false

/-- The character stands at the place. -/
def Location.Points (source : String) (l : Location) (x : Char) : Prop :=
  ∃ rest, l.Precedes source (x :: rest)

/-! ### Cursors -/

/-- The place of a cursor that reading reached precedes what the cursor has left. -/
theorem Cursor.Reaches.precedes {source : String} {c : Cursor}
    (h : (Cursor.start source).Reaches c) : c.location.Precedes source c.rest := by
  obtain ⟨passed, htext, hplace⟩ := h
  exact ⟨passed, htext, hplace.trans (Location.after_eq_of passed)⟩

/-- A cursor that stands at a name is at the start of it. -/
theorem Cursor.HasName.startsName {source x : String} {c : Cursor} (hname : c.HasName x)
    (h : (Cursor.start source).Reaches c) : c.location.StartsName source x := by
  obtain ⟨rest, hrest, hend⟩ := hname
  exact ⟨rest, hrest ▸ h.precedes, hend⟩

/-- A cursor with a character left points at the first one. -/
theorem Cursor.Reaches.points {source : String} {c : Cursor} {x : Char}
    (h : (Cursor.start source).Reaches c) (hx : c.rest.head? = some x) :
    c.location.Points source x := by
  obtain ⟨rest, hrest⟩ := List.head?_eq_some_iff.mp hx
  exact ⟨rest, hrest ▸ h.precedes⟩

/-! ### Trees and errors -/

/-- The annotation of an expression points at what it annotates: a name, a selector, an opening
bracket or an opening parenthesis. -/
def Expr.Located (source : String) : Tree → Prop
  | .variable x l => l.StartsName source x
  | .target x l => l.StartsName source x
  | .assign t _ l => ∃ x, t.targetName? = some x ∧ l.StartsName source x
  | .select _ s l => l.StartsName source s
  | .index _ _ l => l.Points source '['
  | .call _ _ l => l.Points source '('
  | _ => True

/-- The place of an error bears out its cause. -/
def ParseError.Located (source : String) (e : ParseError) : Prop :=
  match e.cause with
  | .expected token => ∃ rest, e.location.Precedes source rest ∧ ¬ token.toList <+: rest
  | .invalidEscape x => e.location.Points source x
  | .invalidNumber text => ∃ passed before mark after rest,
      source.toList = passed ++ (text.toList ++ rest) ∧ text.toList = before ++ mark :: after ∧
      (mark = 'e' ∨ mark = 'E') ∧ e.location = .of (passed ++ before)
  | .unexpectedCharacter x _ => e.location.Points source x
  | .unexpectedEnd => e.location.Precedes source []
  | .unexpectedKeyword name => e.location.StartsName source name

/-- **What was read from a source** is where its annotation says. -/
theorem ReadFrom.located {source : String} {e : Tree} (h : ReadFrom (.start source) e) :
    e.Located source := by
  cases h with
  | name hreached hfound => exact hfound.startsName hreached
  | assign hreached hfound => exact ⟨_, rfl, hfound.startsName hreached⟩
  | select _ hreached hfound => exact hfound.startsName hreached
  | index _ _ hreached hfound => exact hreached.points hfound
  | call _ _ hreached hfound => exact hreached.points hfound
  | _ => trivial

/-- **The place of an error** is one where its cause can be seen. -/
theorem ParseError.Exact.located {source : String} {e : ParseError}
    (h : e.Exact (.start source)) : e.Located source := by
  cases h with
  | expected hreached hmissing => exact ⟨_, hreached.precedes, hmissing⟩
  | invalidEscape hreached hfound => exact hreached.points hfound
  | @invalidNumber c before after mark hreached hfound hmark =>
    -- the place is that of the mark, and the text starts further back
    obtain ⟨passed, htext, hplace⟩ := hreached
    obtain ⟨rest, hrest⟩ := hfound
    refine ⟨passed, before, mark, after, rest, ?_, String.toList_ofList, hmark, ?_⟩
    · rw [String.toList_ofList, hrest]
      exact htext
    · rw [hplace, ← Location.after_append]
      exact Location.after_eq_of (passed ++ before)
  | unexpectedCharacter hreached hfound => exact hreached.points hfound
  | @unexpectedEnd c hreached hend =>
    have hprecedes : c.location.Precedes source c.rest := hreached.precedes
    rw [hend] at hprecedes
    exact hprecedes
  | unexpectedKeyword hreached hfound => exact hfound.startsName hreached

/-- **Locations are exact.** In a tree that is read from a source, every name, assignment, selector,
bracket and parenthesis is where its annotation says; and an error is at a place of the source, which
may be its end, where its cause can be seen. -/
theorem locations_exact (source : String) :
    match parse source with
    | .ok tree => ∀ e : Tree, e.Part tree → e.Located source
    | .error e => e.Located source := by
  rcases h : parse source with e | tree
  · exact (exact_of_parse h).located
  -- a part was read from the source, or it is the name in front of an assignment
  · intro e he
    rcases (readFrom_of_parse h).part he with h | h
    · exact h.located
    · cases h with
      | target hreached hfound => exact hfound.startsName hreached

end GraphQuery
