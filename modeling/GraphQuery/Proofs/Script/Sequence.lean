import GraphQuery.Proofs.Script.Tracking

/-!
# One script after another

What follows a complete script does not change how it was read: if two sources are accepted, so is
the second one after the first one, a line feed and a semicolon, and the statements of the result are
those of both, in order (`parse_sequence`). The line feed ends a comment that runs to the end of the
first source, and the semicolon ends its last statement.

While the first source is read, the two texts are in lockstep (`lockstep_before`): the second text is
the first one with more after it. Where the first text ends, the loop that reads the statements goes
on with the second source, and from there the second text is in lockstep with that source itself.

## Main statements

* `topLevel_scriptOf`: the statements of a script are those that were read.
* `lockstep_before`: a text, and the same text with something after it.
* `parse_sequence`: two sources, one after the other.
-/

namespace GraphQuery

/-- The statements of a script. A script that is an expression is one statement. -/
def Expr.topLevel {L S : Type} : Expr L S → List (Expr L S)
  | .statements es => es
  | e => [e]

/-- No expression of the grammar is a list of statements. -/
theorem Derives.ne_statements (es : List (Expr Unit Unit)) :
    ∀ {level : Level} {ts : List Token} {e : Expr Unit Unit}, Derives level ts e → e ≠ .statements es
  | _, _, _, .ofDisjunction h | _, _, _, .ofConjunction h | _, _, _, .ofComparison h
  | _, _, _, .ofNegation h | _, _, _, .ofAccess h | _, _, _, .ofPrimary h
  | _, _, _, .parenthesis h => h.ne_statements es
  | _, _, _, .assign .. | _, _, _, .or .. | _, _, _, .and .. | _, _, _, .equality .. => nofun
  | _, _, _, .not .. | _, _, _, .select .. | _, _, _, .index .. | _, _, _, .call .. => nofun
  | _, _, _, .null | _, _, _, .bool .. | _, _, _, .number .. | _, _, _, .string .. => nofun
  | _, _, _, .name .. | _, _, _, .arrow .. | _, _, _, .arrowBlock .. | _, _, _, .block .. => nofun

namespace Parser

/-- **The statements of a script** are those that were read. -/
theorem topLevel_scriptOf {es : List Tree} {terminated : Bool} {ts : List Token}
    (h : DerivesStatements ts (Expr.eraseAll es) terminated) :
    (scriptOf (es, terminated)).topLevel = es := by
  match es, terminated, h with
  | [e], false, h =>
    -- a single statement that is not terminated is the script itself
    have he : ∀ fs, e ≠ .statements fs := by
      rintro fs rfl
      cases h with
      | last he => exact Derives.ne_statements _ he rfl
    cases e with
    | statements fs => exact absurd rfl (he fs)
    | _ => rfl
  | [e], true, _ => rfl
  | [], _, _ => rfl
  | _ :: _ :: _, _, _ => rfl

end Parser

/-! ### A text and the same text with more after it -/

section Before

variable {after : List Char}

/-- The second text goes on after the first one with a line feed and a semicolon, of which the line
feed may have been skipped. -/
def Before (after : List Char) (s s' : List Char) : Prop :=
  s' = s ++ '\n' :: ';' :: after ∨ s = [] ∧ s' = ';' :: after

theorem dull_lineFeed (s : List Char) : Dull ('\n' :: s) := dull_cons (by decide) s

/-- The line feed is skipped, and the semicolon is not. -/
theorem unblanked_lineFeed : unblanked ('\n' :: ';' :: after) = ';' :: after := by
  rw [unblanked_blank (by decide), unblanked_cons (by decide)]

/-- Skipping the gap at the front of both texts leaves them related. -/
theorem before_unblanked (s : List Char) :
    Before after (unblanked s) (unblanked (s ++ '\n' :: ';' :: after)) := by
  obtain ⟨hgap, hsettled⟩ := gap_settled_unblanked s
  generalize unblanked s = r at hgap hsettled
  rcases hgap with ⟨g, hg, rfl⟩ | ⟨rfl, g, body, hg, hbody, rfl⟩
  -- the gap ends in the first text, unless nothing but a gap was left there
  · rw [List.append_assoc, unblanked_append hg]
    cases r with
    | nil => exact Or.inr ⟨rfl, unblanked_lineFeed⟩
    | cons x r =>
      -- two slashes at the front of the second text are two slashes of the first one
      refine Or.inl (unblanked_settled ⟨hsettled.1, fun hslashes => hsettled.2 ?_⟩)
      obtain ⟨rfl, hslash⟩ := List.cons_prefix_cons.mp hslashes
      cases r with
      | nil => exact absurd (List.cons_prefix_cons.mp hslash).1 (by decide)
      | cons y r =>
        obtain ⟨rfl, -⟩ := List.cons_prefix_cons.mp hslash
        exact ⟨r, rfl⟩
  -- the line feed ends the comment that runs to the end of the text
  · rw [List.append_assoc, unblanked_append hg]
    refine Or.inr ⟨rfl, ?_⟩
    change unblanked ('/' :: '/' :: (body ++ '\n' :: ';' :: after)) = ';' :: after
    rw [unblanked_slashes, skipTrivia_comment hbody, unblanked_cons (by decide)]

/-- **A text and the same text with more after it** are in lockstep up to the end of the first one. -/
theorem lockstep_before : Lockstep (Before after) fun _ s s' => s' = s ++ '\n' :: ';' :: after where
  blanks := by
    rintro s s' (rfl | ⟨rfl, rfl⟩)
    · exact before_unblanked s
    · exact Or.inr ⟨rfl, unblanked_cons (by decide) after⟩
  forth := by
    rintro w t s' hw (rfl | ⟨hnil, -⟩)
    · exact ⟨_, List.append_assoc w t _, Or.inl rfl⟩
    · exact absurd (List.append_eq_nil_iff.mp hnil).1 hw.1
  back := by
    rintro w s t' hw (h | ⟨-, h⟩)
    · obtain ⟨t, rfl, rfl⟩ := split_of_solid hw.solid (dull_lineFeed _) h
      exact ⟨t, rfl, Or.inl rfl⟩
    · -- the semicolon is not in the first text
      obtain ⟨x, w, rfl⟩ := List.exists_cons_of_ne_nil hw.1
      obtain ⟨rfl, -⟩ := List.cons.inj h
      exact absurd rfl hw.2.2.1
  semicolon := by
    rintro t s' (rfl | ⟨hnil, -⟩)
    · exact ⟨_, rfl, Or.inl rfl⟩
    · exact nomatch hnil
  quote := by
    rintro q t s' - (rfl | ⟨hnil, -⟩)
    · exact ⟨_, rfl, rfl⟩
    · exact nomatch hnil
  close := by
    rintro q t _ rfl
    exact ⟨_, rfl, Or.inl rfl⟩
  plain := by
    rintro q x t _ - - rfl
    exact ⟨_, rfl, rfl⟩
  escape := by
    rintro q t _ - rfl
    refine ⟨_, rfl, ?_⟩
    rintro y u rfl
    exact ⟨_, rfl, rfl⟩
  ahead := by
    rintro x t s' hx (rfl | ⟨hnil, -⟩)
    · have hahead : assignOperator? (([] : List Char).dropWhile isBlank) =
          assignOperator? (('\n' :: ';' :: after).dropWhile isBlank) := by
        rw [List.dropWhile_cons_of_pos (by decide), List.dropWhile_cons_of_neg (by decide),
          assignOperator?_cons]
        rfl
      have hcongr := assignmentAhead_congr hx dull_nil (dull_lineFeed _) hahead t
      rwa [List.append_nil] at hcongr
    · exact nomatch hnil
  operator := by
    rintro s s' width (rfl | ⟨rfl, -⟩) hs -
    · obtain ⟨op, -, rfl, htext, -⟩ := assignOperator?_eq_some hs
      have hle : op.length ≤ s.length := by
        rw [htext, List.length_append, String.length_toList]
        omega
      exact Or.inl (List.drop_append_of_le_length hle)
    · exact nomatch hs
  ends := by
    rintro s' (rfl | ⟨-, rfl⟩) x hx
    · rw [List.nil_append, unblanked_lineFeed] at hx
      exact (Option.some.inj hx).symm
    · rw [unblanked_cons (by decide)] at hx
      -- where the first text has ended, the second one goes on with the semicolon
      exact (Option.some.inj hx).symm

end Before

/-! ### Two sources -/

namespace Parser

/-- The statements that a source is made of, and whether they are terminated. -/
theorem statements_of_parse {source : String} {tree : Tree} (h : parse source = .ok tree) :
    ∃ (n : Nat) (es : List Tree) (terminated : Bool) (d : Cursor),
      statementsUpTo none (expression n) (block n) n [] false (Cursor.start source) =
        .done (es, terminated) d ∧ tree.topLevel = es := by
  obtain ⟨e, hscript⟩ := script_of_parse h
  rw [script_eq] at hscript
  obtain ⟨⟨es, terminated⟩, d, hstatements, htree⟩ := bind_done hscript
  obtain ⟨rfl, -⟩ := Outcome.done.inj htree
  refine ⟨_, es, terminated, d, hstatements, ?_⟩
  -- the tokens of the statements show that none of them is a list of statements itself
  obtain ⟨hexpr, hblock⟩ := ensures_nested (2 * (source.length + 1))
  obtain ⟨ts, new, ends, hout, -, -, hderives, -⟩ :=
    ensures_statementsUpTo hexpr hblock none _ [] false (es, terminated) d hstatements
  obtain ⟨rfl, rfl⟩ := Prod.mk.inj hout
  exact topLevel_scriptOf hderives

theorem firm_of_mem_none {x : Char} (h : x ∈ (none : Option Char)) : Firm [x] :=
  absurd h (Option.not_mem_none x)

/-- From the semicolon on, the loop reads the statements of the second source. -/
theorem meets_second {source : String} {n k : Nat} {es read : List Tree} {terminated ends : Bool}
    {d c : Cursor} (n' : Nat)
    (h : statementsUpTo none (expression n) (block n) n [] false (Cursor.start source) =
      .done (es, terminated) d) (hc : unblanked c.rest = ';' :: source.toList) :
    (statementsUpTo none (expression n') (block n') k read ends c).Meets
      fun out _ => ∃ es', AllSimilar es es' ∧ out = (read.reverse ++ es', true) := by
  cases k with
  | zero => exact Or.inl rfl
  | succ k =>
    obtain ⟨_, e, hnext, rfl, he⟩ := yields_next ((skipBlanks_rest c).trans hc)
    have hloop : statementsUpTo none (expression n') (block n') (k + 1) read ends c =
        statementsUpTo none (expression n') (block n') k read true e := by
      have hclose : (none : Option Char) ≠ some ';' := nofun
      rw [statementsUpTo_semicolon hclose k read ends hc]
      change Parser.bind next _ c.skipBlanks = _
      unfold Parser.bind
      rw [hnext]
    rw [hloop]
    obtain ⟨hex, hbl⟩ := follows_nested lockstep_eq n n'
    have hfollows : Follows (statementsUpTo none (expression n) (block n) n [] false)
        (statementsUpTo none (expression n') (block n') k read true) (Cursor.start source) e
        fun out _ out' _ => ∃ es', AllSimilar out.1 es' ∧ out' = (read.reverse ++ es', true) := by
      refine follows_statementsUpTo lockstep_eq hex (opening_expression n) hbl
        (fun _ => firm_of_mem_none) n k he.symm ?_
      -- the first source has ended here, so the loop on the second one stops in its next round
      intro new new' ends j d' e' hnew hhead hrest
      have hend : (unblanked e'.rest).head? = none := by rw [← hrest, hhead]
      cases j with
      | zero => exact Or.inl rfl
      | succ j =>
        refine Or.inr ⟨_, _, statementsUpTo_stop j _ _ hend, new', hnew, ?_⟩
        rw [List.reverse_append, List.reverse_reverse, Bool.true_or]
    exact hfollows (es, terminated) d h

end Parser

/-- **One source after another** is read as the statements of both. -/
theorem parse_sequence {first second : String} {t₁ t₂ : Tree} (h₁ : parse first = .ok t₁)
    (h₂ : parse second = .ok t₂) :
    ∃ es, parse (first ++ "\n;" ++ second) = .ok (.statements es) ∧
      Parser.AllSimilar (t₁.topLevel ++ t₂.topLevel) es := by
  obtain ⟨n₁, es₁, terminated₁, d₁, hread₁, htop₁⟩ := Parser.statements_of_parse h₁
  obtain ⟨n₂, es₂, terminated₂, d₂, hread₂, htop₂⟩ := Parser.statements_of_parse h₂
  let n := 2 * ((first ++ "\n;" ++ second).length + 1)
  have L : Lockstep (Before second.toList) _ := lockstep_before
  obtain ⟨hex, hbl⟩ := Parser.follows_nested L n₁ n
  have hstart : Before second.toList (Cursor.start first).rest
      (Cursor.start (first ++ "\n;" ++ second)).rest := by
    refine Or.inl ?_
    simp [Cursor.start]
  have hfollows : Parser.Follows
      (Parser.statementsUpTo none (Parser.expression n₁) (Parser.block n₁) n₁ [] false)
      (Parser.statementsUpTo none (Parser.expression n) (Parser.block n) n [] false)
      (Cursor.start first) (Cursor.start (first ++ "\n;" ++ second))
      fun out _ out' _ => ∃ es, Parser.AllSimilar (out.1 ++ es₂) es ∧ out' = (es, true) := by
    refine Parser.follows_statementsUpTo L hex (Parser.opening_expression n₁) hbl
      (fun _ => Parser.firm_of_mem_none) n₁ n hstart ?_
    intro new new' ends k d e hnew hhead hrest
    -- the line feed has been skipped, and the semicolon is there
    have hsemicolon : unblanked e.rest = ';' :: second.toList := by
      rw [List.head?_eq_none_iff.mp hhead] at hrest
      rcases hrest with hrest | ⟨-, hrest⟩
      · have hblank := (settled_unblanked e.rest).1 '\n' (by rw [hrest]; rfl)
        exact absurd hblank (by decide)
      · exact hrest
    refine (Parser.meets_second n hread₂ hsemicolon).mono ?_
    rintro _ _ ⟨es', hes', rfl⟩
    -- what was read of the first source is in reverse
    rw [List.append_nil, List.reverse_reverse]
    exact ⟨new' ++ es', hnew.append hes', rfl⟩
  have hscript : (Parser.script n (Cursor.start (first ++ "\n;" ++ second))).Meets
      fun tree _ => ∃ es, Parser.AllSimilar (es₁ ++ es₂) es ∧ tree = .statements es := by
    rw [Parser.script_eq]
    refine (hfollows (es₁, terminated₁) d₁ hread₁).bind ?_
    rintro _ d ⟨es, hes, rfl⟩
    refine Or.inr ⟨_, d, rfl, es, hes, ?_⟩
    rw [Parser.scriptOf]
    intro e _ hfalse
    exact absurd hfalse.symm Bool.false_ne_true
  obtain ⟨_, -, hparse, es, hes, rfl⟩ := parse_of_meets hscript
  rw [htop₁, htop₂]
  exact ⟨es, hparse, hes⟩

end GraphQuery
