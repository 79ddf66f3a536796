import GraphQuery.Proofs.Eval.Compatible
import GraphQuery.Proofs.Eval.Renaming

/-!
# Evaluations up to names

No evaluation compares or computes the numbers of frames and functions, except that a function of the host
may ask whether two functions, or two closures, are the same. So an evaluation that starts with other frames
around, or with another number for the next function, does the same under other names.

Two evaluations **match** under a renaming if from related states, for this renaming or one beyond it, both
run out, or both end in states that are related again and with results that agree (`Renaming.Matches`). This
is a property of single steps, which sequencing keeps. It holds of expressions and of calls of any depth, if
the host keeps to it as well: a library is **parametric** if its functions treat related arguments in related
ways, as long as the calls that they make do (`HostLibrary.Parametric`). What the log says is not compared,
so no check may stop an evaluation here.

## Main statements

* `Renaming.eval_matches`, `Renaming.call_matches`: expressions, and calls of any depth.
-/

namespace GraphQuery

namespace Renaming

variable {w w' : Renaming}

/-! ### Evaluations -/

/-- Under the renaming and those beyond it, both evaluations run out from related states, or both end in
related states, with results that agree. How the results are related may depend on the names that are there
then. -/
def Matches {α β : Type} (w : Renaming) (P : Renaming → α → β → Prop) (m : Eval α) (m' : Eval β) : Prop :=
  ∀ w₁, w ≤ w₁ → ∀ s s', w₁.States s s' →
    (m s = none ∧ m' s' = none) ∨
    ∃ w₂ r r' t t', w₁ ≤ w₂ ∧ m s = some (r, t) ∧ m' s' = some (r', t') ∧ w₂.States t t' ∧
      Agree (P w₂) r r'

/-- The same value on both sides. -/
abbrev Same {α : Type} : Renaming → α → α → Prop := fun _ a b => a = b

/-- Code runs in the same frame on both sides, and no check stops it. -/
structure Contexts (w : Renaming) (cx cx' : Context) : Prop where
  /-- The graphs are the same. -/
  graphs_eq : cx.graphs = cx'.graphs
  /-- The settings are the same. -/
  settings_eq : cx.settings = cx'.settings
  /-- The patterns are the same. -/
  matcher_eq : cx.matcher = cx'.matcher
  /-- The first evaluation goes on at every check. -/
  never : cx.cancellation = Cancellation.never
  /-- So does the second one. -/
  never' : cx'.cancellation = Cancellation.never
  /-- The frames are the same. -/
  frame : w.frame cx.frame cx'.frame

variable {cx cx' : Context}

/-- The frame that code runs in keeps its partner when the renaming grows. -/
theorem Contexts.mono (hw : w ≤ w') (h : w.Contexts cx cx') : w'.Contexts cx cx' :=
  { h with frame := hw.1 h.frame }

/-- Code goes on in another frame. -/
theorem Contexts.inFrame (h : w.Contexts cx cx') {f f' : FrameId} (hf : w.frame f f') :
    w.Contexts { cx with frame := f } { cx' with frame := f' } := { h with frame := hf }

namespace Matches

variable {α β γ δ : Type} {P : Renaming → α → β → Prop} {Q : Renaming → γ → δ → Prop}

/-- Evaluations that match go on matching when the renaming grows. -/
theorem mono {m : Eval α} {m' : Eval β} (hw : w ≤ w') (h : w.Matches P m m') : w'.Matches P m m' :=
  fun w₁ hw₁ => h w₁ (hw.trans hw₁)

/-- **One evaluation after the other.** What follows may rely on the names that are there then. -/
theorem bind {m : Eval α} {m' : Eval β} {f : α → Eval γ} {f' : β → Eval δ} (hm : w.Matches P m m')
    (hf : ∀ w₁, w ≤ w₁ → ∀ a b, P w₁ a b → w₁.Matches Q (f a) (f' b)) :
    w.Matches Q (m >>= f) (m' >>= f') := by
  intro w₁ hw₁ s s' hs
  -- the first parts run out together, fail together, or come to related values
  rcases hm w₁ hw₁ s s' hs with ⟨hnone, hnone'⟩ | ⟨w₂, r, r', t, t', hw₂, ht, ht', hstates, hagree⟩
  · exact Or.inl ⟨by rw [Eval.bind_apply, hnone], by rw [Eval.bind_apply, hnone']⟩
  · rw [Eval.bind_apply, Eval.bind_apply, ht, ht']
    cases hagree with
    | error e => exact Or.inr ⟨w₂, .error e, .error e, t, t', hw₂, rfl, rfl, hstates, .error e⟩
    | ok hab =>
      rcases hf w₂ (hw₁.trans hw₂) _ _ hab w₂ le_rfl t t' hstates with hnone | hends
      · exact Or.inl hnone
      · obtain ⟨w₃, r, r', u, u', hw₃, hends⟩ := hends
        exact Or.inr ⟨w₃, r, r', u, u', hw₂.trans hw₃, hends⟩

/-- An evaluation that always ends, in a state that is known. -/
theorem of_apply {m : Eval α} {m' : Eval β}
    (h : ∀ w₁, w ≤ w₁ → ∀ s s', w₁.States s s' → ∃ w₂ r r' t t', w₁ ≤ w₂ ∧ m s = some (r, t) ∧
      m' s' = some (r', t') ∧ w₂.States t t' ∧ Agree (P w₂) r r') : w.Matches P m m' :=
  fun w₁ hw₁ s s' hs => Or.inr (h w₁ hw₁ s s' hs)

/-- Results that are known, and agree whatever names are there. -/
theorem result {r : Except Error α} {r' : Except Error β}
    (h : ∀ w₁, w ≤ w₁ → Agree (P w₁) r r') : w.Matches P (Eval.result r) (Eval.result r') :=
  of_apply fun w₁ hw₁ s s' hs => ⟨w₁, r, r', s, s', le_rfl, rfl, rfl, hs, h w₁ hw₁⟩

theorem pure {a : α} {b : β} (h : ∀ w₁, w ≤ w₁ → P w₁ a b) :
    w.Matches P (Pure.pure a) (Pure.pure b) := result fun w₁ hw₁ => .ok (h w₁ hw₁)

theorem throw (e : Error) : w.Matches P (MonadExcept.throw e) (MonadExcept.throw e) :=
  result fun _ _ => .error e

theorem exhausted : w.Matches P Eval.exhausted Eval.exhausted := fun _ _ _ _ _ => Or.inl ⟨rfl, rfl⟩

theorem same (r : Except Error α) : w.Matches Same (Eval.result r) (Eval.result r) :=
  result fun _ _ => agree_self fun _ => rfl

theorem nameless {v : Value} (h : v.kind.isNameless = true) :
    w.Matches Rel (Pure.pure v) (Pure.pure v) := pure fun _ _ => .nameless h

/-! #### Single steps -/

/-- A check makes an entry in both logs, which are not compared, and stops neither evaluation. -/
theorem check (hcx : w.Contexts cx cx') (name : String) :
    w.Matches Same (Eval.check cx name) (Eval.check cx' name) := by
  refine of_apply fun w₁ _ _ _ hs => ⟨w₁, _, _, _, _, le_rfl, Eval.check_apply .., Eval.check_apply ..,
    hs.withLog _ _, ?_⟩
  rw [hcx.never, hcx.never']
  exact .ok rfl

/-- So do the entries of two calls. -/
theorem record (cx cx' : Context) (e e' : Event) :
    w.Matches (fun _ _ _ => True) (Eval.record cx e) (Eval.record cx' e') :=
  of_apply fun w₁ _ _ _ hs => ⟨w₁, _, _, _, _, le_rfl, Eval.record_apply .., Eval.record_apply ..,
    hs.withLog _ _, .ok trivial⟩

/-- **A variable** has related values, or it is unknown on both sides. -/
theorem lookup (hcx : w.Contexts cx cx') (x : String) :
    w.Matches Rel (Eval.lookup cx x) (Eval.lookup cx' x) := by
  refine of_apply fun w₁ hw₁ s s' hs => ⟨w₁, _, _, _, _, le_rfl, Eval.lookup_apply ..,
    Eval.lookup_apply .., hs, ?_⟩
  have hget := hs.store.get? (hw₁.1 hcx.frame) x
  generalize s.store.get? cx.frame x = v?, s'.store.get? cx'.frame x = v'? at hget
  cases hget with
  | none => exact .error _
  | some hv => exact .ok hv

/-- **Binding a name** on both sides, to related values. -/
theorem declare {f f' : FrameId} (hf : w.frame f f') (x : String) {v v' : Value} (hv : w.Rel v v') :
    w.Matches Same (Eval.declare f x v) (Eval.declare f' x v') :=
  of_apply fun w₁ hw₁ _ _ hs => ⟨w₁, _, _, _, _, le_rfl, Eval.declare_apply .., Eval.declare_apply ..,
    hs.withStore (hs.store.declare (hw₁.1 hf) x (hv.mono hw₁)), .ok rfl⟩

/-- **Making a frame** gives a pair of frames to the renaming. -/
theorem nest {f f' : FrameId} (hf : w.frame f f') :
    w.Matches Renaming.frame (Eval.nest f) (Eval.nest f') := by
  refine of_apply fun w₁ hw₁ s s' hs => ?_
  obtain ⟨w₂, hw₂, hframe, hstates⟩ := hs.nest (hw₁.1 hf)
  exact ⟨w₂, _, _, _, _, hw₂, Eval.nest_apply .., Eval.nest_apply .., hstates, .ok hframe⟩

/-- **Making a function** gives it a pair of functions. -/
theorem newFunction : w.Matches Renaming.function Eval.newFunction Eval.newFunction := by
  refine of_apply fun w₁ hw₁ s s' hs => ?_
  obtain ⟨w₂, hw₂, hfunction, hstates⟩ := hs.newFunction
  exact ⟨w₂, _, _, _, _, hw₂, Eval.newFunction_apply s, Eval.newFunction_apply s', hstates,
    .ok hfunction⟩

/-- A field or a method, whose function is the pair that has just been made. -/
theorem select (hcx : w.Contexts cx cx') {v v' : Value} (hv : w.Rel v v') (name : String) :
    w.Matches Rel (Eval.select cx v name) (Eval.select cx' v' name) := by
  unfold Eval.select
  rw [hcx.graphs_eq]
  refine newFunction.bind fun w₁ hw₁ i i' hi => result fun w₂ hw₂ => ?_
  exact (hv.mono (hw₁.trans hw₂)).select _ (hw₂.2 hi) name

/-- Truth is told from values without their names. -/
theorem truth (hcx : w.Contexts cx cx') {v v' : Value} (hv : w.Rel v v') :
    w.Matches Same (Eval.truth cx v) (Eval.truth cx' v') := by
  unfold Eval.truth
  rw [hcx.graphs_eq, hv.toBool_eq]
  exact same _

/-- Evaluations that go on alike for each result go on alike. -/
theorem sequential : Sequential fun α (m m' : Eval α) => w.Matches Same m m' where
  pure _ := pure fun _ _ => rfl
  bind := by
    intro α β m m' f f' hm hf
    refine hm.bind fun w₁ hw₁ a b hab => ?_
    obtain rfl := hab
    exact (hf a).mono hw₁

end Matches

/-- Calls of related values with related arguments match. -/
def Calls (w : Renaming) (call call' : Caller) : Prop :=
  ∀ w₁, w ≤ w₁ → ∀ cx cx', w₁.Contexts cx cx' → ∀ v v', w₁.Rel v v' → ∀ args args',
    List.Forall₂ w₁.Rel args args' → w₁.Matches Rel (call cx v args) (call' cx' v' args')

/-- Calls that match go on matching when the renaming grows. -/
theorem Calls.mono {call call' : Caller} (hw : w ≤ w') (h : w.Calls call call') :
    w'.Calls call call' := fun w₁ hw₁ => h w₁ (hw.trans hw₁)

/-! ### Expressions -/

section Code

variable {call call' : Caller}

mutual

/-- **Expressions** match if calls do. -/
theorem eval_matches {w : Renaming} (hcall : w.Calls call call') {cx cx' : Context}
    (hcx : w.Contexts cx cx') (e : Code) : w.Matches Rel (e.eval call cx) (e.eval call' cx') := by
  cases e with
  | null => exact .nameless rfl
  | bool b => exact .nameless rfl
  | number text => exact .nameless rfl
  | string s => exact .nameless rfl
  | «variable» x l => exact .lookup hcx x
  | target x l => exact .nameless rfl
  | assign t v l =>
    refine (eval_matches hcall hcx t).bind fun w₁ hw₁ u u' hu => ?_
    -- a target is the same name on both sides
    rw [hu.targetName_eq]
    refine (Matches.same _).bind fun w₂ hw₂ x _ hx => ?_
    obtain rfl := hx
    have hw := hw₁.trans hw₂
    refine (eval_matches (hcall.mono hw) (hcx.mono hw) v).bind fun w₃ hw₃ a a' ha => ?_
    -- the frame may have got more company since, but it is still the pair of its partner
    refine (Matches.declare ((hcx.mono (hw.trans hw₃)).frame) x ha).bind fun w₄ hw₄ _ _ _ => ?_
    exact .pure fun w₅ hw₅ => ha.mono (hw₄.trans hw₅)
  | select b name l =>
    exact (eval_matches hcall hcx b).bind fun w₁ hw₁ v v' hv => .select (hcx.mono hw₁) hv name
  | index b i l =>
    refine (eval_matches hcall hcx b).bind fun w₁ hw₁ v v' hv => ?_
    refine (eval_matches (hcall.mono hw₁) (hcx.mono hw₁) i).bind fun w₂ hw₂ u u' hu => ?_
    rw [hcx.graphs_eq]
    exact .result fun w₃ hw₃ => (hv.mono (hw₂.trans hw₃)).index _ (hu.mono hw₃)
  | and l r =>
    refine (eval_matches hcall hcx l).bind fun w₁ hw₁ v v' hv => ?_
    refine (Matches.truth (hcx.mono hw₁) hv).bind fun w₂ hw₂ b _ hb => ?_
    obtain rfl := hb
    have hw := hw₁.trans hw₂
    -- both operands before are equally true, so the right one is evaluated on both sides or on neither
    cases b with
    | false => exact .nameless rfl
    | true =>
      refine (eval_matches (hcall.mono hw) (hcx.mono hw) r).bind fun w₃ hw₃ u u' hu => ?_
      refine (Matches.truth (hcx.mono (hw.trans hw₃)) hu).bind fun w₄ _ b _ hb => ?_
      obtain rfl := hb
      exact .nameless rfl
  | or l r =>
    refine (eval_matches hcall hcx l).bind fun w₁ hw₁ v v' hv => ?_
    refine (Matches.truth (hcx.mono hw₁) hv).bind fun w₂ hw₂ b _ hb => ?_
    obtain rfl := hb
    have hw := hw₁.trans hw₂
    cases b with
    | true => exact .nameless rfl
    | false =>
      refine (eval_matches (hcall.mono hw) (hcx.mono hw) r).bind fun w₃ hw₃ u u' hu => ?_
      refine (Matches.truth (hcx.mono (hw.trans hw₃)) hu).bind fun w₄ _ b _ hb => ?_
      obtain rfl := hb
      exact .nameless rfl
  | not e =>
    refine (eval_matches hcall hcx e).bind fun w₁ hw₁ v v' hv => ?_
    refine (Matches.truth (hcx.mono hw₁) hv).bind fun w₂ _ b _ hb => ?_
    obtain rfl := hb
    exact .nameless rfl
  | equality l r negated =>
    refine (eval_matches hcall hcx l).bind fun w₁ hw₁ v v' hv => ?_
    refine (eval_matches (hcall.mono hw₁) (hcx.mono hw₁) r).bind fun w₂ hw₂ u u' hu => ?_
    -- the comparison is one result, which both sides come to
    rw [hcx.graphs_eq, (hv.mono hw₂).equals_eq _ hu]
    refine (Matches.same _).bind fun w₃ _ b _ hb => ?_
    obtain rfl := hb
    exact .nameless rfl
  | call f as l =>
    refine (eval_matches hcall hcx f).bind fun w₁ hw₁ v v' hv => ?_
    refine (evalAll_matches (hcall.mono hw₁) (hcx.mono hw₁) as).bind fun w₂ hw₂ args args' hargs => ?_
    have hw := hw₁.trans hw₂
    exact hcall w₂ hw cx cx' (hcx.mono hw) v v' (hv.mono hw₂) args args' hargs
  -- a new closure captures the frame that code runs in on its side
  | closure site p b => exact .pure fun w₁ hw₁ => .closure (.some (hw₁.1 hcx.frame))
  | statements es => exact evalStatements_matches hcall hcx (.nameless rfl) es
  | block es =>
    refine (Matches.nest hcx.frame).bind fun w₁ hw₁ f f' hf => ?_
    exact evalStatements_matches (hcall.mono hw₁) ((hcx.mono hw₁).inFrame hf) (.nameless rfl) es

/-- Arguments, each of which may have made frames and functions. -/
theorem evalAll_matches {w : Renaming} (hcall : w.Calls call call') {cx cx' : Context}
    (hcx : w.Contexts cx cx') (es : List Code) :
    w.Matches (fun w => List.Forall₂ w.Rel) (Expr.evalAll call cx es) (Expr.evalAll call' cx' es) := by
  cases es with
  | nil => exact .pure fun _ _ => .nil
  | cons e es =>
    refine (eval_matches hcall hcx e).bind fun w₁ hw₁ v v' hv => ?_
    refine (evalAll_matches (hcall.mono hw₁) (hcx.mono hw₁) es).bind fun w₂ hw₂ vs vs' hvs => ?_
    exact .pure fun w₃ hw₃ => .cons (hv.mono (hw₂.trans hw₃)) (Rel.forall_mono hw₃ hvs)

/-- Statements, each after its check. -/
theorem evalStatements_matches {w : Renaming} (hcall : w.Calls call call') {cx cx' : Context}
    (hcx : w.Contexts cx cx') {last last' : Value} (hlast : w.Rel last last') (es : List Code) :
    w.Matches Rel (Expr.evalStatements call cx last es)
      (Expr.evalStatements call' cx' last' es) := by
  cases es with
  | nil => exact .pure fun w₁ hw₁ => hlast.mono hw₁
  | cons e es =>
    refine (Matches.check hcx "statement").bind fun w₁ hw₁ _ _ _ => ?_
    refine (eval_matches (hcall.mono hw₁) (hcx.mono hw₁) e).bind fun w₂ hw₂ v v' hv => ?_
    have hw := hw₁.trans hw₂
    exact evalStatements_matches (hcall.mono hw) (hcx.mono hw) hv es

end

/-! ### Closures and predicates -/

/-- **Closures** match if calls do. -/
theorem invoke_matches (hcall : w.Calls call call') (hcx : w.Contexts cx cx') {c c' : Closure}
    (hc : w.Rel (.closure c) (.closure c')) {v v' : Value} (hv : w.Rel v v') :
    w.Matches Rel (c.invoke call cx v) (c'.invoke call' cx' v') := by
  cases hc with
  | nameless h => exact absurd h Bool.false_ne_true
  | @closure site parameter body frame frame' h =>
    -- a closure that comes from no script runs in the frame of its caller
    have hframe : w.frame (frame.getD cx.frame) (frame'.getD cx'.frame) := by
      cases h with
      | none => exact hcx.frame
      | some hf => exact hf
    unfold Closure.invoke
    refine (Matches.nest hframe).bind fun w₁ hw₁ f f' hf => ?_
    -- the body starts from the pair of new frames, whatever has been added to the renaming
    have hbody : ∀ w₂, w₁ ≤ w₂ → w₂.Matches Rel (body.eval call { cx with frame := f })
        (body.eval call' { cx' with frame := f' }) := fun w₂ hw₂ =>
      eval_matches (hcall.mono (hw₁.trans hw₂))
        ((hcx.mono (hw₁.trans hw₂)).inFrame (hw₂.1 hf)) body
    cases parameter with
    | none => exact hbody w₁ le_rfl
    | some x => exact (Matches.declare hf x (hv.mono hw₁)).bind fun w₂ hw₂ _ _ _ => hbody w₂ hw₂

/-- The second test is the first one under other names. -/
inductive Predicates (w : Renaming) : Predicate → Predicate → Prop where
  /-- Closures that are related. -/
  | closure {c c' : Closure} (h : w.Rel (.closure c) (.closure c')) :
      w.Predicates (.closure c) (.closure c')
  /-- The same constant. -/
  | constant (b : Bool) : w.Predicates (.constant b) (.constant b)

/-- Tests stay related when the renaming grows. -/
theorem Predicates.mono {p p' : Predicate} (hw : w ≤ w') (h : w.Predicates p p') :
    w'.Predicates p p' := by
  cases h with
  | closure h => exact .closure (h.mono hw)
  | constant b => exact .constant b

/-- A string stands for a closure without a frame. -/
theorem Rel.ofValue {v v' : Value} (h : w.Rel v v') (method selector : String) :
    Agree w.Predicates (Predicate.ofValue method selector v) (Predicate.ofValue method selector v') := by
  cases h with
  | @nameless v h =>
    cases v with
    | bool b => exact .ok (.constant b)
    | string s => exact .ok (.closure (.closure .none))
    | list => exact absurd h Bool.false_ne_true
    | function => exact absurd h Bool.false_ne_true
    | closure => exact absurd h Bool.false_ne_true
    | _ => exact .error _
  | list => exact .error _
  | function => exact .error _
  | closure h => exact .ok (.closure (.closure h))

/-- **A test** answers alike. -/
theorem test_matches (hcall : w.Calls call call') (hcx : w.Contexts cx cx') {p p' : Predicate}
    (hp : w.Predicates p p') {v v' : Value} (hv : w.Rel v v') :
    w.Matches Same (p.test call cx v) (p'.test call' cx' v') := by
  refine (Matches.check hcx "predicate").bind fun w₁ hw₁ _ _ _ => ?_
  cases hp with
  | constant b => exact .pure fun _ _ => rfl
  | closure hc =>
    refine (invoke_matches (hcall.mono hw₁) (hcx.mono hw₁) (hc.mono hw₁) (hv.mono hw₁)).bind
      fun w₂ hw₂ u u' hu => ?_
    exact .truth (hcx.mono (hw₁.trans hw₂)) hu

theorem testNode_matches (hcall : w.Calls call call') (hcx : w.Contexts cx cx') {p p' : Predicate}
    (hp : w.Predicates p p') (n : Node) :
    w.Matches Same (p.testNode call cx n) (p'.testNode call' cx' n) :=
  test_matches hcall hcx hp (.nameless rfl)

theorem testEdge_matches (hcall : w.Calls call call') (hcx : w.Contexts cx cx') {p p' : Predicate}
    (hp : w.Predicates p p') (e : Edge) :
    w.Matches Same (p.testEdge call cx e) (p'.testEdge call' cx' e) :=
  test_matches hcall hcx hp (.nameless rfl)

/-! ### Methods -/

/-- Two lists with related members are the two sides of one list of pairs. -/
theorem exists_zip_of_forall₂ {α β : Type} {R : α → β → Prop} {as : List α} {bs : List β}
    (h : List.Forall₂ R as bs) :
    ∃ both : List (α × β), as = both.map Prod.fst ∧ bs = both.map Prod.snd ∧
      ∀ p ∈ both, R p.1 p.2 := by
  induction h with
  | nil => exact ⟨[], rfl, rfl, List.forall_mem_nil _⟩
  | @cons a b as bs hab _ ih =>
    obtain ⟨both, rfl, rfl, hboth⟩ := ih
    exact ⟨(a, b) :: both, rfl, rfl, List.forall_mem_cons.mpr ⟨hab, hboth⟩⟩

/-- The first argument is related to the first one, and the others are to the others. -/
theorem agree_takeArgument {args args' : List Value} (h : List.Forall₂ w.Rel args args') :
    Agree (fun a b => w.Rel a.1 b.1 ∧ List.Forall₂ w.Rel a.2 b.2) (takeArgument args)
      (takeArgument args') := by
  cases h with
  | nil => exact .error _
  | cons hv hrest => exact .ok ⟨hv, hrest⟩

/-- Whether there are arguments does not depend on names. -/
theorem noArguments_eq {args args' : List Value} (h : List.Forall₂ w.Rel args args') :
    noArguments args = noArguments args' := by
  cases h <;> rfl

/-- A text among the arguments is the same. -/
theorem textArgument_eq {args args' : List Value} (h : List.Forall₂ w.Rel args args') :
    textArgument args = textArgument args' := by
  cases h with
  | nil => rfl
  | cons hv hrest =>
    unfold textArgument
    simp only [takeArgument]
    change (do let text ← Value.toText _; noArguments _; return text) =
      (do let text ← Value.toText _; noArguments _; return text : Except Error String)
    rw [hv.toText_eq, noArguments_eq hrest]

/-- So are texts that are made of several arguments. -/
theorem mapM_toStrings_eq {args args' : List Value} (h : List.Forall₂ w.Rel args args') :
    args.mapM Value.toStrings = args'.mapM Value.toStrings := by
  induction h with
  | nil => rfl
  | cons hv _ ih => rw [List.mapM_cons, List.mapM_cons, hv.toStrings_eq, ih]

/-- The tests of a walk, in pairs: both walks have as many steps. -/
theorem agree_walkSteps {args args' : List Value} (h : List.Forall₂ w.Rel args args') :
    Agree (List.Forall₂ fun p p' => w.Predicates p.1 p'.1 ∧ w.Predicates p.2 p'.2)
      (Method.walkSteps args) (Method.walkSteps args') := by
  induction args using Method.walkSteps.induct generalizing args' with
  | case1 =>
    cases h
    exact .ok .nil
  | case2 e =>
    cases h with
    | cons he hrest =>
      cases hrest
      exact (he.ofValue _ _).bind fun p p' hp => .ok (.cons ⟨hp, .constant true⟩ .nil)
  | case3 e n rest ih =>
    cases h with
    | cons he hrest =>
      cases hrest with
      | cons hn hrest =>
        simp only [Method.walkSteps]
        refine (he.ofValue _ _).bind fun p p' hp => (hn.ofValue _ _).bind fun q q' hq => ?_
        exact (ih hrest).bind fun ps ps' hps => .ok (.cons ⟨hp, hq⟩ hps)

/-- The first node that is found is the same. -/
theorem firstFrom_matches {find find' : Node → Eval (Option Node)}
    (hfind : ∀ n, w.Matches Same (find n) (find' n)) (starts : List Node) :
    w.Matches Rel (Method.firstFrom find starts) (Method.firstFrom find' starts) := by
  induction starts generalizing w with
  | nil => exact .nameless rfl
  | cons start rest ih =>
    refine (hfind start).bind fun w₁ hw₁ found _ hfound => ?_
    obtain rfl := hfound
    cases found with
    | some n => exact .nameless rfl
    | none => exact ih fun n => (hfind n).mono hw₁

section Methods

variable (hcall : w.Calls call call') (hcx : w.Contexts cx cx') {args args' : List Value}
  (hargs : List.Forall₂ w.Rel args args') (nodes : OrderedSet Node)

include hcall hcx hargs

/-- **The first match** is the same node. -/
theorem runFirstReachable_matches :
    w.Matches Rel (Method.runFirstReachable call cx nodes args)
      (Method.runFirstReachable call' cx' nodes args') := by
  unfold Method.runFirstReachable
  rw [hcx.graphs_eq]
  refine (Matches.result fun w₁ hw₁ => agree_takeArgument (Rel.forall_mono hw₁ hargs)).bind
    fun w₁ hw₁ ⟨v, rest⟩ ⟨v', rest'⟩ ⟨hv, hrest⟩ => ?_
  refine (Matches.result fun w₂ hw₂ => (hv.mono hw₂).ofValue _ _).bind fun w₂ hw₂ p p' hp => ?_
  -- the searches make their tests one after the other, so it is enough that tests match
  have hsearch : ∀ w₃, w₂ ≤ w₃ → ∀ q q', w₃.Predicates q q' →
      w₃.Matches Rel (Method.firstFrom (cx'.graphs.firstReachable (p.testNode call cx)
        (q.testEdge call cx)) nodes.toList)
        (Method.firstFrom (cx'.graphs.firstReachable (p'.testNode call' cx')
          (q'.testEdge call' cx')) nodes.toList) := by
    intro w₃ hw₃ q q' hq
    have hw := (hw₁.trans hw₂).trans hw₃
    exact firstFrom_matches (Matches.sequential.firstReachable
      (testNode_matches (hcall.mono hw) (hcx.mono hw) (hp.mono hw₃))
      (testEdge_matches (hcall.mono hw) (hcx.mono hw) hq)) _
  -- without a second argument, all edges are followed
  cases hrest with
  | nil => exact (Matches.pure fun _ _ => Predicates.constant true).bind hsearch
  | cons hu _ =>
    exact (Matches.result fun w₃ hw₃ => (hu.mono (hw₂.trans hw₃)).ofValue _ _).bind hsearch

/-- The search for documents finds the same node. -/
theorem runFirstDoc_matches :
    w.Matches Rel (Method.runFirstDoc call cx nodes args)
      (Method.runFirstDoc call' cx' nodes args') := by
  unfold Method.runFirstDoc
  rw [hcx.graphs_eq, hcx.settings_eq]
  refine (Matches.result fun w₁ hw₁ => agree_takeArgument (Rel.forall_mono hw₁ hargs)).bind
    fun w₁ hw₁ ⟨v, rest⟩ ⟨v', rest'⟩ ⟨hv, hrest⟩ => ?_
  refine (Matches.result fun w₂ hw₂ => (hv.mono hw₂).ofValue _ _).bind fun w₂ hw₂ p p' hp => ?_
  -- a second argument is an error on both sides
  dsimp only
  rw [noArguments_eq hrest]
  refine (Matches.same _).bind fun w₃ hw₃ _ _ _ => ?_
  have hw := (hw₁.trans hw₂).trans hw₃
  refine firstFrom_matches (Matches.sequential.firstReachable (fun n => ?_) fun e =>
    .pure fun _ _ => rfl) _
  split
  · exact testNode_matches (hcall.mono hw) (hcx.mono hw) (hp.mono hw₃) n
  · exact .pure fun _ _ => rfl

/-- **A walk** ends at the same nodes. -/
theorem runWalk_matches :
    w.Matches Rel (Method.runWalk call cx nodes args) (Method.runWalk call' cx' nodes args') := by
  unfold Method.runWalk
  rw [hcx.graphs_eq]
  refine (Matches.result fun w₁ hw₁ => agree_walkSteps (Rel.forall_mono hw₁ hargs)).bind
    fun w₁ hw₁ preds preds' hpreds => ?_
  -- the steps of both walks are made from one list, of related predicates
  obtain ⟨both, rfl, rfl, hboth⟩ := exists_zip_of_forall₂ hpreds
  rw [List.map_map, List.map_map]
  refine Matches.bind (Matches.sequential.walk both (fun p hp e => ?_) (fun p hp n => ?_) nodes)
    fun w₂ _ found _ hfound => hfound ▸ .nameless rfl
  · exact testEdge_matches (hcall.mono hw₁) (hcx.mono hw₁) (hboth p hp).1 e
  · exact testNode_matches (hcall.mono hw₁) (hcx.mono hw₁) (hboth p hp).2 n

omit hcall in
/-- The nodes that are instances of something are the same. -/
theorem runInstanceOf_matches :
    w.Matches Rel (Method.runInstanceOf cx nodes args) (Method.runInstanceOf cx' nodes args') := by
  unfold Method.runInstanceOf
  rw [textArgument_eq hargs]
  refine (Matches.same _).bind fun w₁ hw₁ id _ hid => ?_
  obtain rfl := hid
  have htest : ∀ n, Method.isInstance cx id n = Method.isInstance cx' id n := by
    intro n
    unfold Method.isInstance
    rw [hcx.graphs_eq, hcx.settings_eq]
  refine Matches.bind (Matches.sequential.selectM (fun n => ?_) _)
    fun w₂ _ found _ hfound => hfound ▸ .nameless rfl
  refine (Matches.check (hcx.mono hw₁) "instanceOf").bind fun w₂ _ _ _ _ => ?_
  rw [htest]
  exact .pure fun _ _ => rfl

/-- **Methods** match if calls do. -/
theorem run_matches (m : Method) :
    w.Matches Rel (m.run call cx args) (m.run call' cx' args') := by
  cases m with
  | «matches» text =>
    change w.Matches Rel (Eval.result (Method.occurs cx.matcher text args))
      (Eval.result (Method.occurs cx'.matcher text args'))
    -- methods on strings read texts, and come to truth values
    unfold Method.occurs
    rw [textArgument_eq hargs, hcx.matcher_eq]
    refine .result fun w₁ _ => (agree_self fun _ => rfl).bind fun pattern _ hpattern => ?_
    obtain rfl := hpattern
    split
    · exact .ok (.nameless rfl)
    · exact .error _
  | has strings =>
    change w.Matches Rel (Eval.result (Method.isAmong strings args))
      (Eval.result (Method.isAmong strings args'))
    unfold Method.isAmong
    rw [textArgument_eq hargs]
    exact .result fun w₁ _ => (agree_self fun _ => rfl).bind fun _ _ h => h ▸ .ok (.nameless rfl)
  | hasAny strings =>
    change w.Matches Rel (Eval.result (Method.someAmong strings args))
      (Eval.result (Method.someAmong strings args'))
    unfold Method.someAmong
    rw [mapM_toStrings_eq hargs]
    exact .result fun w₁ _ => (agree_self fun _ => rfl).bind fun _ _ h => h ▸ .ok (.nameless rfl)
  | hasAll strings =>
    change w.Matches Rel (Eval.result (Method.allAmong strings args))
      (Eval.result (Method.allAmong strings args'))
    unfold Method.allAmong
    rw [mapM_toStrings_eq hargs]
    exact .result fun w₁ _ => (agree_self fun _ => rfl).bind fun _ _ h => h ▸ .ok (.nameless rfl)
  | firstReachable nodes => exact runFirstReachable_matches hcall hcx hargs nodes
  | firstDoc nodes => exact runFirstDoc_matches hcall hcx hargs nodes
  | instanceOf nodes => exact runInstanceOf_matches hcx hargs nodes
  | walk nodes => exact runWalk_matches hcall hcx hargs nodes

end Methods

end Code

end Renaming

/-! ### Calls -/

/-- The functions of a host do the same under other names, as long as the calls that they make do. -/
def HostLibrary.Parametric (host : HostLibrary) : Prop :=
  ∀ (w : Renaming) (call call' : Caller), w.Calls call call' → ∀ cx cx', w.Contexts cx cx' →
    ∀ (name : String) (args args' : List Value), List.Forall₂ w.Rel args args' →
      w.Matches Renaming.Rel (host call cx name args) (host call' cx' name args')

namespace Renaming

variable {w : Renaming}

/-- Whether a call has a fitting number of arguments does not depend on names. -/
theorem checkArity_eq (f : Function) (i : Nat) {args args' : List Value}
    (h : List.Forall₂ w.Rel args args') :
    f.checkArity args = Function.checkArity { f with identity := i } args' := by
  unfold Function.checkArity
  rw [h.length_eq]

/-- What can be called, given that the calls nested in it match. -/
theorem callWith_matches {host : HostLibrary} (hhost : host.Parametric) {call call' : Caller}
    (hcall : w.Calls call call') :
    w.Calls (fun cx v args => v.callWith host call cx args)
      (fun cx v args => v.callWith host call' cx args) := by
  intro w₁ hw₁ cx cx' hcx v v' hv args args' hargs
  have hcall := hcall.mono hw₁
  -- what is called is a function or a closure on both sides, or nothing that can be called on either
  cases hv with
  | @function f i' hi =>
    change w₁.Matches Rel (f.call host call cx args) _
    unfold Value.callWith Function.call
    rw [checkArity_eq f i' hargs]
    refine (Matches.same _).bind fun w₂ hw₂ _ _ _ => ?_
    have hcall := hcall.mono hw₂
    have hcx := hcx.mono hw₂
    have hargs := Rel.forall_mono hw₂ hargs
    dsimp only
    cases f.action with
    | method m => exact run_matches hcall hcx hargs m
    | host behavior =>
      refine (Matches.record cx cx' _ _).bind fun w₃ hw₃ _ _ _ => ?_
      exact hhost w₃ call call' (hcall.mono hw₃) cx cx' (hcx.mono hw₃) behavior args args'
        (Rel.forall_mono hw₃ hargs)
  | @closure site parameter body frame frame' h =>
    have hc : w₁.Rel (.closure ⟨site, parameter, body, frame⟩)
        (.closure ⟨site, parameter, body, frame'⟩) := .closure h
    cases hargs with
    | nil => exact invoke_matches hcall hcx hc (.nameless rfl)
    | cons hv hrest =>
      cases hrest with
      | nil => exact invoke_matches hcall hcx hc hv
      | cons _ hrest =>
        change w₁.Matches Rel (throw (.invalidCall (.closureArguments (_ + 1 + 1))))
          (throw (.invalidCall (.closureArguments (_ + 1 + 1))))
        -- the error tells how many arguments there were
        rw [hrest.length_eq]
        exact .throw _
  | @nameless v h =>
    cases v with
    | list => exact absurd h Bool.false_ne_true
    | function => exact absurd h Bool.false_ne_true
    | closure => exact absurd h Bool.false_ne_true
    | _ => exact .throw _
  | list => exact .throw _

/-- **Calls of any depth** do the same under other names. -/
theorem call_matches {host : HostLibrary} (hhost : host.Parametric) (w : Renaming) (depth : Nat) :
    w.Calls (Value.call host depth) (Value.call host depth) := by
  induction depth with
  | zero => exact fun _ _ _ _ _ _ _ _ _ _ _ => .exhausted
  | succ depth ih => exact callWith_matches hhost ih

end Renaming

end GraphQuery
