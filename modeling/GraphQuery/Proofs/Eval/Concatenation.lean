import GraphQuery.Proofs.Host.Uniform
import GraphQuery.Proofs.Script.Sequence
import GraphQuery.Session.Source

/-!
# Evaluating one script after another

Evaluating two scripts one after the other is evaluating the second one after the first one, a line
feed and a semicolon, as one script. Both read the same statements (`parse_sequence`), so what is left
is how they are evaluated, and there are three differences.

* A script that is a single expression makes no check before it, and as a statement it does. Checks
  stop nothing here, so this shows in the log alone.
* The closure literals of the second script are numbered before the first one is evaluated, or after
  it. They get the same numbers, since an evaluation makes no literals.
* The value is that of the last statement. If the second script has none, this is the value of the
  first one.

The log and the number of the next literal are kept for the host. `State.Alike` says that two states
agree in everything else, and `Eval.Alike` that two evaluations do not depend on them.

## Main statements

* `Eval.uniform_alike`: no evaluation looks at the log or at the number of the next literal, if the
  functions of the host do not.
* `Host.standard_blind`: the standard functions do not.
* `evaluation_sequence`: two scripts, one after the other.
-/

namespace GraphQuery

/-! ### Numbers of literals -/

namespace Expr

variable {L S : Type}

mutual

/-- Numbering does not look at annotations. -/
theorem toCode_erase : ∀ e : Expr L S, e.erase.toCode = e.toCode
  | .null | .bool _ | .number _ | .string _ | .variable .. | .target .. => rfl
  | .assign t v _ => by rw [erase, toCode, toCode, toCode_erase t, toCode_erase v]
  | .select b s _ => by rw [erase, toCode, toCode, toCode_erase b]
  | .index b i _ => by rw [erase, toCode, toCode, toCode_erase b, toCode_erase i]
  | .and l r => by rw [erase, toCode, toCode, toCode_erase l, toCode_erase r]
  | .or l r => by rw [erase, toCode, toCode, toCode_erase l, toCode_erase r]
  | .not e => by rw [erase, toCode, toCode, toCode_erase e]
  | .equality l r n => by rw [erase, toCode, toCode, toCode_erase l, toCode_erase r]
  | .call f as _ => by rw [erase, toCode, toCode, toCode_erase f, toCodeAll_eraseAll as]
  | .closure _ p b => by rw [erase, toCode, toCode, toCode_erase b]
  | .statements es => by rw [erase, toCode, toCode, toCodeAll_eraseAll es]
  | .block es => by rw [erase, toCode, toCode, toCodeAll_eraseAll es]

/-- The same for lists, whose numbers follow one another. -/
theorem toCodeAll_eraseAll : ∀ es : List (Expr L S), toCodeAll (eraseAll es) = toCodeAll es
  | [] => rfl
  | e :: es => by rw [eraseAll, toCodeAll, toCodeAll, toCode_erase e, toCodeAll_eraseAll es]

end

/-- Numbering keeps the number of statements. -/
theorem length_toCodeAll (es : List (Expr L S)) (n : Nat) :
    (toCodeAll es n).1.length = es.length := by
  induction es generalizing n with
  | nil => rfl
  | cons e es ih => exact congrArg (· + 1) (ih (e.toCode n).2)

/-- The second part of a list is numbered on from where the first one ends. -/
theorem toCodeAll_append (es fs : List (Expr L S)) (n : Nat) :
    toCodeAll (es ++ fs) n =
      ((toCodeAll es n).1 ++ (toCodeAll fs (toCodeAll es n).2).1,
        (toCodeAll fs (toCodeAll es n).2).2) := by
  induction es generalizing n with
  | nil => rfl
  | cons e es ih =>
    change ((e.toCode n).1 :: (toCodeAll (es ++ fs) (e.toCode n).2).1,
      (toCodeAll (es ++ fs) (e.toCode n).2).2) = _
    rw [ih]
    rfl

/-- The statements of a script are numbered like the script. -/
theorem toCodeAll_topLevel (e : Expr L S) (n : Nat) :
    toCodeAll e.topLevel n = ((e.toCode n).1.topLevel, (e.toCode n).2) := by
  -- only a list of statements is more than one statement, and it is numbered as such a list
  cases e <;> rfl

end Expr

/-! ### What evaluations do not look at -/

/-- The states agree in all but the log and the number of the next literal. -/
def State.Alike (s s' : State) : Prop :=
  s.store = s'.store ∧ s.functions = s'.functions ∧ s.notes = s'.notes

theorem State.Alike.symm {s s' : State} (h : s.Alike s') : s'.Alike s :=
  ⟨h.1.symm, h.2.1.symm, h.2.2.symm⟩

/-- From states that are alike, the evaluations come to the same result and to states that are alike.
Neither makes literals. -/
def Eval.Alike {α : Type} (m m' : Eval α) : Prop :=
  ∀ s s' : State, s.Alike s' → (m s = none ∧ m' s' = none) ∨
    ∃ r t t', m s = some (r, t) ∧ m' s' = some (r, t') ∧ t.Alike t' ∧ t.sites = s.sites ∧
      t'.sites = s'.sites

/-- The functions of the host look neither at the log nor at the number of the next literal. -/
def HostLibrary.Blind (host : HostLibrary) : Prop :=
  ∀ cx : Context, Uniform.Hosts (fun _ => Eval.Alike) { cx with cancellation := .never } .never
    host host

namespace Eval

/-- A result that is known is the same from all states. -/
theorem alike_result {α : Type} (r : Except Error α) : Alike (result r) (result r) :=
  fun s s' hs => Or.inr ⟨r, s, s', rfl, rfl, hs, rfl, rfl⟩

/-- **Sequencing:** literals are made by neither part, so by neither whole. -/
theorem Alike.bind {α β : Type} {m m' : Eval α} {f f' : α → Eval β} (hm : Alike m m')
    (hf : ∀ a, Alike (f a) (f' a)) : Alike (m >>= f) (m' >>= f') := by
  intro s s' hs
  rw [bind_apply, bind_apply]
  -- both first parts end in the same way, and a value is passed on with states that are alike
  rcases hm s s' hs with ⟨hnone, hnone'⟩ | ⟨r, t, t', hm, hm', ht, hsites, hsites'⟩
  · rw [hnone, hnone']
    exact Or.inl ⟨rfl, rfl⟩
  · rw [hm, hm']
    cases r with
    | error e => exact Or.inr ⟨_, _, _, rfl, rfl, ht, hsites, hsites'⟩
    | ok a =>
      rcases hf a t t' ht with ⟨hnone, hnone'⟩ | ⟨r, u, u', hu, hu', halike, hsame, hsame'⟩
      · exact Or.inl ⟨hnone, hnone'⟩
      · exact Or.inr ⟨r, u, u', hu, hu', halike, hsame.trans hsites, hsame'.trans hsites'⟩

/-- A check that stops nothing only shows in the log. -/
theorem alike_check (cx cx' : Context) (name name' : String) :
    Alike (check { cx with cancellation := .never } name)
      (check { cx' with cancellation := .never } name') := by
  intro s s' hs
  rw [check_apply, check_apply]
  exact Or.inr ⟨_, _, _, rfl, rfl, hs, rfl, rfl⟩

/-- The log that a contact gives is not looked at. -/
theorem alike_record {α : Type} {cx cx' : Context} {e e' : Event} {f f' : List Contact → Eval α}
    (hf : ∀ log log', Alike (f log) (f' log')) : Alike (record cx e >>= f) (record cx' e' >>= f') := by
  intro s s' hs
  rw [bind_apply, bind_apply, record_apply, record_apply]
  exact hf _ _ { s with log := _ } { s' with log := _ } hs

/-- **No evaluation** looks at the log or at the number of the next literal. -/
theorem uniform_alike (cx : Context) :
    Uniform (fun _ => Alike) { cx with cancellation := .never } .never where
  result := alike_result
  bind := Alike.bind
  -- variables, frames and functions are read from what states that are alike have in common
  lookup := by
    intro frame name s s' hs
    rw [lookup_apply, lookup_apply, hs.1]
    exact Or.inr ⟨_, s, s', rfl, rfl, hs, rfl, rfl⟩
  declare := by
    intro frame name value s s' hs
    rw [declare_apply, declare_apply, hs.1]
    exact Or.inr ⟨_, _, _, rfl, rfl, ⟨rfl, hs.2⟩, rfl, rfl⟩
  nest := by
    intro frame s s' hs
    rw [nest_apply, nest_apply, hs.1]
    exact Or.inr ⟨_, _, _, rfl, rfl, ⟨rfl, hs.2⟩, rfl, rfl⟩
  newFunction := by
    intro s s' hs
    rw [newFunction_apply, newFunction_apply, hs.2.1]
    exact Or.inr ⟨_, _, _, rfl, rfl, ⟨hs.1, rfl, hs.2.2⟩, rfl, rfl⟩
  check := fun frame name => alike_check { cx with frame } { cx with frame } name name

end Eval

/-! ### The standard functions -/

/-- A step on the frames sees the same frames. -/
theorem Eval.alike_onStore (f : Store → Except Error Value × Store) : Alike (onStore f) (onStore f) := by
  intro s s' hs
  unfold onStore
  rw [hs.1]
  exact Or.inr ⟨_, _, _, rfl, rfl, ⟨rfl, hs.2⟩, rfl, rfl⟩

/-- Notes are compared, and the same note is added to both. -/
theorem Eval.alike_addNote (text : String) : Alike (addNote text) (addNote text) := by
  intro s s' hs
  refine Or.inr ⟨.ok (), _, _, rfl, rfl, ⟨hs.1, hs.2.1, ?_⟩, rfl, rfl⟩
  exact congrArg (text :: ·) hs.2.2

/-- **The standard functions** look neither at the log nor at the number of the next literal. -/
theorem Host.standard_blind : HostLibrary.Blind standard := by
  intro cx call call' hcall frame behavior args
  refine Eval.alike_record fun _ _ => ?_
  exact (Eval.uniform_alike cx).standard Eval.alike_onStore Eval.alike_addNote hcall frame behavior args

/-! ### Statements -/

namespace Expr

/-- **Statements of two lists** in one are evaluated one after the other, the value of the first list being
the one before the second. -/
theorem evalStatements_append (call : Caller) (cx : Context) (last : Value) (es fs : List Code) :
    evalStatements call cx last (es ++ fs) =
      evalStatements call cx last es >>= fun v => evalStatements call cx v fs := by
  induction es generalizing last with
  | nil => rw [List.nil_append, evalStatements, pure_bind]
  | cons e es ih =>
    -- three results come before the other statements: of the check, of the statement, and then of the rest
    rw [List.cons_append, evalStatements, evalStatements, bind_assoc]
    congr 1
    funext _
    rw [bind_assoc]
    congr 1
    funext v
    exact ih v

/-- The value before the statements counts only if there are none. -/
theorem evalStatements_last (call : Caller) (cx : Context) (last : Value) (es : List Code) :
    evalStatements call cx last es =
      evalStatements call cx .null es >>= fun w => pure (if es.isEmpty then last else w) := by
  cases es with
  | nil => rw [evalStatements, evalStatements, pure_bind, List.isEmpty_nil, if_pos rfl]
  | cons e es =>
    simp only [List.isEmpty_cons, Bool.false_eq_true, if_false, bind_pure]
    rfl

/-- A script is evaluated like the list of its statements. -/
theorem run_topLevel_alike {host : HostLibrary} {depth : Nat} {cx : Context}
    (hcall : Uniform.Calls (fun _ => Eval.Alike) { cx with cancellation := .never } .never
      (Value.call host depth) (Value.call host depth)) (code : Code) :
    Eval.Alike (code.run host depth { cx with cancellation := .never })
      (evalStatements (Value.call host depth) { cx with cancellation := .never } .null code.topLevel) := by
  have hself := (Eval.uniform_alike cx).eval hcall cx.frame code
  -- a single expression makes one check more as a statement
  -- the value of a list with one statement is that of the statement
  have hone : Eval.Alike (code.run host depth { cx with cancellation := .never })
      (evalStatements (Value.call host depth) { cx with cancellation := .never } .null [code]) := by
    have hlast : evalStatements (Value.call host depth) { cx with cancellation := .never } .null [code] =
        Eval.check { cx with cancellation := .never } "statement" >>= fun _ =>
          code.run host depth { cx with cancellation := .never } := by
      simp only [evalStatements, bind_pure]
      rfl
    rw [hlast]
    intro s s' hs
    rw [Eval.bind_apply, Eval.check_apply]
    exact hself s { s' with log := _ } hs
  cases code with
  | statements es => exact hself
  | _ => exact hone

/-- Two scripts in one are evaluated one after the other. -/
theorem run_sequence (host : HostLibrary) (depth : Nat) (cx : Context) (es fs : List Code) :
    (Expr.statements (es ++ fs) : Code).run host depth cx =
      evalStatements (Value.call host depth) cx .null es >>= fun v =>
        evalStatements (Value.call host depth) cx .null fs >>= fun w =>
          pure (if fs.isEmpty then v else w) := by
  change evalStatements (Value.call host depth) cx .null (es ++ fs) = _
  rw [evalStatements_append]
  congr 1
  funext v
  exact evalStatements_last _ _ v fs

end Expr

/-! ### Two scripts -/

/-- Both run out, or both come to the same result and to states that are alike. -/
def EndAlike {α : Type} (o o' : Option (Except Failure α × State)) : Prop :=
  (o = none ∧ o' = none) ∨ ∃ r t t', o = some (r, t) ∧ o' = some (r, t') ∧ t.Alike t'

/-- The code of two scripts in one is that of both, where the second one is numbered on. -/
theorem toCode_sequence {t₁ t₂ : Tree} {es : List Tree}
    (hes : Parser.AllSimilar (t₁.topLevel ++ t₂.topLevel) es) (n : Nat) :
    (Expr.statements es : Tree).toCode n =
      (.statements ((t₁.toCode n).1.topLevel ++ (t₂.toCode (t₁.toCode n).2).1.topLevel),
        (t₂.toCode (t₁.toCode n).2).2) := by
  -- the statements agree up to their locations, which numbering does not see
  have hsame : Expr.toCodeAll es = Expr.toCodeAll (t₁.topLevel ++ t₂.topLevel) := by
    rw [← Expr.toCodeAll_eraseAll es, ← Expr.toCodeAll_eraseAll (t₁.topLevel ++ t₂.topLevel),
      Expr.eraseAll_eq_map, Expr.eraseAll_eq_map, hes]
  change (Expr.statements (Expr.toCodeAll es n).1, (Expr.toCodeAll es n).2) = _
  rw [hsame, Expr.toCodeAll_append, Expr.toCodeAll_topLevel, Expr.toCodeAll_topLevel]

/-- Whether a script has statements is not changed by numbering. -/
theorem isEmpty_topLevel_toCode (e : Tree) (n : Nat) :
    e.topLevel.isEmpty = (e.toCode n).1.topLevel.isEmpty := by
  have hlength := Expr.length_toCodeAll e.topLevel n
  rw [Expr.toCodeAll_topLevel] at hlength
  rw [Bool.eq_iff_iff, List.isEmpty_iff_length_eq_zero, List.isEmpty_iff_length_eq_zero, hlength]

/-- **Two scripts, one after the other.** If both sources can be read, so can the second one after the
first one, a line feed and a semicolon, and the script is the list of the statements of both. To
evaluate it comes to the same as to evaluate the first source and then, if this succeeds, the second
one: the same error, or else the value of the second source, or that of the first one if the second
one has no statement. In every frame the same bindings are left. -/
theorem evaluation_sequence {first second : String} {t₁ t₂ : Tree} (h₁ : parse first = .ok t₁)
    (h₂ : parse second = .ok t₂) {host : HostLibrary} (hhost : host.Blind) (depth : Nat)
    (cx : Context) (s : State) :
    (∃ es, parse (first ++ "\n;" ++ second) = .ok (.statements es) ∧
      es.map Expr.erase = (t₁.topLevel ++ t₂.topLevel).map Expr.erase) ∧
    EndAlike (evaluateWith host depth cx (first ++ "\n;" ++ second) s)
      ((do
        let v ← evaluateWith host depth cx first
        let w ← evaluateWith host depth cx second
        return if t₂.topLevel.isEmpty then v else w : Evaluation Value) s) := by
  obtain ⟨es, hparse, hes⟩ := parse_sequence h₁ h₂
  refine ⟨⟨es, hparse, hes⟩, ?_⟩
  have hcall := (Eval.uniform_alike cx).call (hhost cx) (fun _ _ _ => Or.inl ⟨rfl, rfl⟩) depth
  -- with the numbers that both runs start from, what is loaded can be named
  rw [evaluateWith_of_parse hparse, toCode_sequence hes, Evaluation.bind_apply,
    evaluateWith_of_parse h₁]
  have hempty : t₂.topLevel.isEmpty = (t₂.toCode (t₁.toCode s.sites).2).1.topLevel.isEmpty :=
    isEmpty_topLevel_toCode t₂ _
  generalize hc₁ : t₁.toCode s.sites = loaded₁ at hempty ⊢
  obtain ⟨c₁, n₁⟩ := loaded₁
  generalize hc₂ : t₂.toCode n₁ = loaded₂ at hempty ⊢
  obtain ⟨c₂, n₂⟩ := loaded₂
  rw [hempty]
  dsimp only
  rw [Expr.run_sequence, Eval.bind_apply]
  -- the first source is evaluated in both, with the next literal being another one
  rcases Expr.run_topLevel_alike hcall c₁ { s with sites := n₁ } { s with sites := n₂ }
    ⟨rfl, rfl, rfl⟩ with ⟨hnone, hnone'⟩ | ⟨r, t, t', hrun, hrun', ht, hsites, -⟩
  · rw [hnone, hnone']
    exact Or.inl ⟨rfl, rfl⟩
  rw [hrun, hrun']
  cases r with
  | error e => exact Or.inr ⟨_, t', t, rfl, rfl, ht.symm⟩
  | ok v =>
    -- now the second one has the same numbers in both
    simp only [Option.map_some, Except.mapError]
    have hsites : t.sites = n₁ := hsites
    rw [Eval.bind_apply, Evaluation.bind_apply, evaluateWith_of_parse h₂, hsites, hc₂]
    dsimp only
    rcases Expr.run_topLevel_alike hcall c₂ { t with sites := n₂ } t' ht with
      ⟨hnone, hnone'⟩ | ⟨r, u, u', hrun, hrun', hu, -, -⟩
    · rw [hnone, hnone']
      exact Or.inl ⟨rfl, rfl⟩
    rw [hrun, hrun']
    -- an error of the second source is that of both, and so is its value
    cases r with
    | error e => exact Or.inr ⟨_, u', u, rfl, rfl, hu.symm⟩
    | ok w => exact Or.inr ⟨_, u', u, rfl, rfl, hu.symm⟩

/-- The comment at the end of the first source is closed, and its variable is there for the second
one, which hands it to a function of the host. -/
theorem evaluation_sequence_comment :
    let f : Value := .function ⟨0, "f", 0, none, .host "record"⟩
    let cx : Context := { graphs := {}, frame := 0 }
    let s : State := { store := { frames := #[⟨[], 0, [("f", f)]⟩] } }
    ∃ t₁ t₂ : Tree, parse "x = 1 // one" = .ok t₁ ∧ parse "f(x)" = .ok t₂ ∧
      t₂.topLevel.isEmpty = false ∧
      EndAlike (evaluateWith Host.standard 1 cx ("x = 1 // one" ++ "\n;" ++ "f(x)") s)
        ((do
          let _ ← evaluateWith Host.standard 1 cx "x = 1 // one"
          evaluateWith Host.standard 1 cx "f(x)" : Evaluation Value) s) := by
  intro f cx s
  -- both sources can be read, and the second one has a statement
  have hfirst : (parse "x = 1 // one").toOption.map (·.topLevel.isEmpty) = some false := by
    decide +kernel
  have hsecond : (parse "f(x)").toOption.map (·.topLevel.isEmpty) = some false := by decide +kernel
  obtain ⟨t₁, h₁, -⟩ := exists_tree_of_map hfirst
  obtain ⟨t₂, h₂, hsome⟩ := exists_tree_of_map hsecond
  obtain ⟨-, halike⟩ := evaluation_sequence h₁ h₂ Host.standard_blind 1 cx s
  rw [hsome] at halike
  simp only [Bool.false_eq_true, if_false, bind_pure] at halike
  exact ⟨t₁, t₂, h₁, h₂, hsome, halike⟩

end GraphQuery
