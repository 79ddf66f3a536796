import GraphQuery.Host.Standard
import GraphQuery.Proofs.Eval.Clean
import GraphQuery.Proofs.Eval.Compatible

/-!
# Targets stay inside assignments

In a script nothing but the left side of an assignment evaluates to a target, so a target never gets
out: it is not the value of a script, it is bound nowhere, and no assignment finds another value in its
place.

What has to be known about the scope is that all values which can be reached from it are plain. The
frames that can be reached, and those that are still to be made, are then guarded, and an evaluation
keeps them so (`Eval.Ensures`), whatever it calls. The functions of a host are a parameter. They are
asked to keep the frames guarded too, as long as the calls that they make do (`HostLibrary.Guards`). The
standard functions do so.

## Main statements

* `Expr.eval_ensures`, `Value.call_guards`: expressions, and calls of any depth.
* `Host.standard_guards`: the standard functions of a host.
* `evaluation_targetFree`: what this says about scripts.
-/

namespace GraphQuery

/-! ### Evaluations -/

/-- From a store that is guarded, the evaluation comes to a store that is guarded, and to a value with
the property `P` or to an error that does not miss a target. -/
def Eval.Ensures {α : Type} (W : FrameId → Prop) (raised : Kind → Prop) (P : α → Prop) (m : Eval α) :
    Prop :=
  ∀ s r t, m s = some (r, t) → s.store.Guarded W → t.store.Guarded W ∧ Gives raised P r

namespace Eval.Ensures

variable {α β : Type} {W : FrameId → Prop} {raised : Kind → Prop} {P : α → Prop} {Q : β → Prop}

/-- A result that is already known leaves the frames as they are. -/
theorem result {r : Except Error α} (hr : Gives raised P r) : Ensures W raised P (Eval.result r) := by
  intro s r' t h hs
  obtain ⟨rfl, rfl⟩ := Prod.mk.inj (Option.some.inj h)
  exact ⟨hs, hr⟩

theorem pure {a : α} (ha : P a) : Ensures W raised P (Pure.pure a) := result (r := .ok a) ha

theorem throw {e : Error} (he : ∀ k, e ≠ .notATarget k) :
    Ensures W raised P (MonadExcept.throw e) :=
  result (r := .error e) fun k h => absurd h (he k)

theorem exhausted : Ensures W raised P Eval.exhausted := fun _ _ _ h => nomatch h

/-- **One evaluation after the other.** The second one finds the frames as guarded as the first one did. -/
theorem bind {m : Eval α} {f : α → Eval β} (hm : Ensures W raised P m)
    (hf : ∀ a, P a → Ensures W raised Q (f a)) : Ensures W raised Q (m >>= f) := by
  intro s r u h hs
  rcases bind_cases h with ⟨e, hms, rfl⟩ | ⟨a, t, hms, hft⟩
  · exact hm s _ u hms hs
  · obtain ⟨ht, ha⟩ := hm s _ t hms hs
    exact hf a ha t r u hft ht

/-- A check fails with its cancellation, which is no missing target. -/
theorem check (cx : Context) (name : String) :
    Ensures W raised (fun _ => True) (Eval.check cx name) := by
  intro s r t h hs
  rw [check_apply] at h
  obtain ⟨rfl, rfl⟩ := Prod.mk.inj (Option.some.inj h)
  refine ⟨hs, ?_⟩
  split
  · exact fun k h => nomatch h
  · exact trivial

/-- An entry in the log touches no frame. -/
theorem record (cx : Context) (e : Event) :
    Ensures W raised (fun _ => True) (Eval.record cx e) := by
  intro s r t h hs
  rw [record_apply] at h
  obtain ⟨rfl, rfl⟩ := Prod.mk.inj (Option.some.inj h)
  exact ⟨hs, trivial⟩

theorem newFunction : Ensures W raised (fun _ => True) Eval.newFunction := by
  intro s r t h hs
  rw [newFunction_apply] at h
  obtain ⟨rfl, rfl⟩ := Prod.mk.inj (Option.some.inj h)
  exact ⟨hs, trivial⟩

/-- **A variable** in a frame of `W` has a clean value, or it is unknown. -/
theorem lookup {cx : Context} (hcx : W cx.frame) (name : String) :
    Ensures W raised (Value.Clean W) (Eval.lookup cx name) := by
  intro s r t h hs
  rw [lookup_apply] at h
  obtain ⟨rfl, rfl⟩ := Prod.mk.inj (Option.some.inj h)
  refine ⟨hs, ?_⟩
  split
  case h_1 v hv => exact hs.get? hcx hv
  case h_2 => exact fun k h => nomatch h

/-- A clean value may be bound in any frame. -/
theorem declare (frame : FrameId) (name : String) {v : Value} (hv : v.Clean W) :
    Ensures W raised (fun _ => True) (Eval.declare frame name v) := by
  intro s r t h hs
  rw [declare_apply] at h
  obtain ⟨rfl, rfl⟩ := Prod.mk.inj (Option.some.inj h)
  exact ⟨hs.declare frame name hv, trivial⟩

/-- A new frame is in `W`, like all frames that were still to be made. -/
theorem nest {frame : FrameId} (hframe : W frame) : Ensures W raised W (Eval.nest frame) := by
  intro s r t h hs
  rw [nest_apply] at h
  obtain ⟨rfl, rfl⟩ := Prod.mk.inj (Option.some.inj h)
  exact ⟨hs.nest hframe, hs.fresh _ (Nat.le_refl _)⟩

/-- A field or a method is clean whatever it is taken from, so nothing is asked of the value. -/
theorem select (cx : Context) (v : Value) (name : String) :
    Ensures W raised (Value.Clean W) (Eval.select cx v name) :=
  newFunction.bind fun identity _ =>
    result (Value.hereditary_clean.gives_select cx.graphs identity v name)

theorem truth (cx : Context) (v : Value) : Ensures W raised (fun _ => True) (Eval.truth cx v) :=
  result (v.gives_toBool cx.graphs)

variable (W raised) in
/-- Evaluations that ensure something of their frames alone may be put in sequence, so the searches and
walks over graphs inherit it. -/
theorem sequential : Sequential fun α (m _ : Eval α) => Ensures W raised (fun _ => True) m :=
  ⟨fun _ => pure trivial, fun hm hf => hm.bind fun a _ => hf a⟩

theorem firstReachable {gs : Graphs} {accept : Node → Eval Bool} {follow : Edge → Eval Bool}
    (haccept : ∀ n, Ensures W raised (fun _ => True) (accept n))
    (hfollow : ∀ e, Ensures W raised (fun _ => True) (follow e)) (start : Node) :
    Ensures W raised (fun _ => True) (gs.firstReachable accept follow start) :=
  @Sequential.firstReachable _ _ _ _ _ (sequential W raised) gs accept accept follow follow haccept
    hfollow start

theorem selectM {p : α → Eval Bool} (hp : ∀ a, Ensures W raised (fun _ => True) (p a))
    (as : List α) : Ensures W raised (fun _ => True) (GraphQuery.selectM p as) :=
  @Sequential.selectM _ _ _ _ _ (sequential W raised) α p p hp as

theorem walk {gs : Graphs} {step : α → Step Eval} {as : List α}
    (hfollow : ∀ a ∈ as, ∀ e, Ensures W raised (fun _ => True) ((step a).follow e))
    (haccept : ∀ a ∈ as, ∀ n, Ensures W raised (fun _ => True) ((step a).accept n))
    (nodes : OrderedSet Node) : Ensures W raised (fun _ => True) (gs.walk (as.map step) nodes) :=
  @Sequential.walk _ _ _ _ _ (sequential W raised) gs α step step as hfollow haccept nodes

end Eval.Ensures

/-- Calls of clean values with clean arguments give clean values and leave the frames guarded. -/
def Caller.Guards (W : FrameId → Prop) (raised : Kind → Prop) (call : Caller) : Prop :=
  ∀ (cx : Context) (v : Value) (args : List Value), W cx.frame → v.Clean W →
    (∀ a ∈ args, a.Clean W) → Eval.Ensures W raised (Value.Clean W) (call cx v args)

/-- The functions of a host neither give nor store targets, as long as the calls that they make do
neither: given clean arguments, they give clean values and leave the frames guarded. If they fail for
want of a target themselves, the kinds of value with which they do so are among `raised`. -/
def HostLibrary.Guards (W : FrameId → Prop) (raised : Kind → Prop) (host : HostLibrary) : Prop :=
  ∀ call : Caller, call.Guards W raised → ∀ (cx : Context) (name : String) (args : List Value),
    W cx.frame → (∀ a ∈ args, a.Clean W) →
      Eval.Ensures W raised (Value.Clean W) (host call cx name args)

/-! ### Expressions -/

section Expressions

open Eval

variable {W : FrameId → Prop} {raised : Kind → Prop} {call : Caller}

namespace Expr

mutual

/-- **An expression** gives clean values, and its assignments find targets. -/
theorem eval_ensures (hcall : call.Guards W raised) (cx : Context) (hcx : W cx.frame) (e : Code)
    (he : e.Regular) : Ensures W raised (Value.Clean W) (e.eval call cx) := by
  cases e with
  | null => exact .pure (Value.clean_of_isSimple rfl)
  | bool b => exact .pure (Value.clean_of_isSimple rfl)
  | number text => exact .pure (Value.clean_of_isSimple rfl)
  | string s => exact .pure (Value.clean_of_isSimple rfl)
  -- the lookup is the only way in which a value of the frames comes into play
  | «variable» x l => exact .lookup hcx x
  | target x l => exact absurd he.wellTargeted WellTargeted.not_target
  | assign t v l =>
    -- the left side is a bare name, so it evaluates to a target, which goes no further
    obtain ⟨⟨x, m, rfl⟩, hv⟩ := he.of_assign
    change Ensures W raised (Value.Clean W) (v.eval call cx >>= fun w => do
      Eval.declare cx.frame x w
      return w)
    refine (eval_ensures hcall cx hcx v hv).bind fun w hw => ?_
    exact (Ensures.declare cx.frame x hw).bind fun _ _ => .pure hw
  | select b name l =>
    refine (eval_ensures hcall cx hcx b (he.child rfl List.mem_cons_self)).bind fun v _ => ?_
    exact .select cx v name
  | index b i l =>
    have hi : i.Regular := he.child rfl (List.mem_cons_of_mem b List.mem_cons_self)
    refine (eval_ensures hcall cx hcx b (he.child rfl List.mem_cons_self)).bind fun base hbase => ?_
    refine (eval_ensures hcall cx hcx i hi).bind fun position _ => ?_
    exact .result (Value.hereditary_clean.gives_index cx.graphs hbase position)
  | and l r =>
    have hr : r.Regular := he.child rfl (List.mem_cons_of_mem l List.mem_cons_self)
    refine (eval_ensures hcall cx hcx l (he.child rfl List.mem_cons_self)).bind fun v _ => ?_
    refine (Ensures.truth cx v).bind fun taken _ => ?_
    split
    · refine (eval_ensures hcall cx hcx r hr).bind fun w _ => ?_
      exact (Ensures.truth cx w).bind fun _ _ => .pure (Value.clean_of_isSimple rfl)
    · exact .pure (Value.clean_of_isSimple rfl)
  -- the right operand is evaluated in one of the two cases only
  | or l r =>
    have hr : r.Regular := he.child rfl (List.mem_cons_of_mem l List.mem_cons_self)
    refine (eval_ensures hcall cx hcx l (he.child rfl List.mem_cons_self)).bind fun v _ => ?_
    refine (Ensures.truth cx v).bind fun taken _ => ?_
    split
    · exact .pure (Value.clean_of_isSimple rfl)
    · refine (eval_ensures hcall cx hcx r hr).bind fun w _ => ?_
      exact (Ensures.truth cx w).bind fun _ _ => .pure (Value.clean_of_isSimple rfl)
  | not e =>
    refine (eval_ensures hcall cx hcx e (he.child rfl List.mem_cons_self)).bind fun v _ => ?_
    exact (Ensures.truth cx v).bind fun _ _ => .pure (Value.clean_of_isSimple rfl)
  | equality l r negated =>
    have hr : r.Regular := he.child rfl (List.mem_cons_of_mem l List.mem_cons_self)
    refine (eval_ensures hcall cx hcx l (he.child rfl List.mem_cons_self)).bind fun v _ => ?_
    refine (eval_ensures hcall cx hcx r hr).bind fun w _ => ?_
    refine (Ensures.result (v.gives_equals cx.graphs w)).bind fun _ _ => ?_
    exact .pure (Value.clean_of_isSimple rfl)
  | call f as l =>
    have has : ∀ a ∈ as, a.Regular := fun a ha => he.child rfl (List.mem_cons_of_mem f ha)
    refine (eval_ensures hcall cx hcx f (he.child rfl List.mem_cons_self)).bind fun v hv => ?_
    refine (evalAll_ensures hcall cx hcx as has).bind fun args hargs => ?_
    exact hcall cx v args hcx hv hargs
  | closure site p b =>
    -- the closure captures the frame it is made in
    refine .pure (Value.clean_closure (he.literal site p b .self) fun f hf => ?_)
    exact Option.some.inj hf ▸ hcx
  | statements es =>
    exact evalStatements_ensures hcall cx hcx (Value.clean_of_isSimple rfl) es
      fun c hc => he.child rfl hc
  -- the statements of a block run in a new frame, which is in `W`, too
  | block es =>
    refine (Ensures.nest hcx).bind fun frame hframe => ?_
    exact evalStatements_ensures hcall { cx with frame } hframe (Value.clean_of_isSimple rfl) es
      fun c hc => he.child rfl hc

/-- Arguments, from left to right. -/
theorem evalAll_ensures (hcall : call.Guards W raised) (cx : Context) (hcx : W cx.frame)
    (es : List Code) (hes : ∀ e ∈ es, e.Regular) :
    Ensures W raised (fun vs => ∀ v ∈ vs, v.Clean W) (evalAll call cx es) := by
  cases es with
  | nil => exact .pure (List.forall_mem_nil _)
  | cons e es =>
    obtain ⟨he, hes⟩ := List.forall_mem_cons.mp hes
    refine (eval_ensures hcall cx hcx e he).bind fun v hv => ?_
    refine (evalAll_ensures hcall cx hcx es hes).bind fun vs hvs => ?_
    exact .pure (List.forall_mem_cons.mpr ⟨hv, hvs⟩)

/-- **Statements:** the last value is clean, and each statement starts from guarded frames. -/
theorem evalStatements_ensures (hcall : call.Guards W raised) (cx : Context) (hcx : W cx.frame)
    {last : Value} (hlast : last.Clean W) (es : List Code) (hes : ∀ e ∈ es, e.Regular) :
    Ensures W raised (Value.Clean W) (evalStatements call cx last es) := by
  cases es with
  | nil => exact .pure hlast
  | cons e es =>
    obtain ⟨he, hes⟩ := List.forall_mem_cons.mp hes
    refine (Ensures.check cx "statement").bind fun _ _ => ?_
    refine (eval_ensures hcall cx hcx e he).bind fun v hv => ?_
    exact evalStatements_ensures hcall cx hcx hv es hes

end

end Expr

/-! ### Closures and predicates -/

/-- The body may run: it is regular, and it runs inside a frame of `W`. -/
structure Closure.Fit (W : FrameId → Prop) (c : Closure) : Prop where
  /-- The body is regular. -/
  body : c.body.Regular
  /-- The frame that was captured is in `W`. -/
  frame : ∀ f, c.frame = some f → W f

/-- A clean closure may run. -/
theorem Value.Clean.fit {c : Closure} (h : Value.Clean W (.closure c)) : c.Fit W :=
  ⟨(h.scripted c .self).regular_body, fun f hf => h.captured c f .self hf⟩

/-- **A closure** gives clean values. One that has captured no frame runs in its caller's. -/
theorem Closure.invoke_ensures (hcall : call.Guards W raised) {cx : Context} (hcx : W cx.frame)
    {c : Closure} (hc : c.Fit W) {v : Value} (hv : v.Clean W) :
    Ensures W raised (Value.Clean W) (c.invoke call cx v) := by
  -- the predicate that a string stands for has captured no frame
  have hframe : W (c.frame.getD cx.frame) := by
    rcases hf : c.frame with _ | f
    · exact hcx
    · exact hc.frame f hf
  refine (Ensures.nest hframe).bind fun frame hframe => ?_
  have hbody := Expr.eval_ensures hcall { cx with frame } hframe c.body hc.body
  -- without a parameter the argument is dropped, otherwise it is bound in the new frame
  cases c.parameter with
  | none => exact hbody
  | some p => exact (Ensures.declare frame p hv).bind fun _ _ => hbody

namespace Predicate

/-- A closure in the predicate may run. -/
def Fit (W : FrameId → Prop) : Predicate → Prop
  | .closure c => c.Fit W
  | .constant _ => True

/-- What a value is as a test: itself, the comparison that a string stands for, or a constant. -/
theorem gives_ofValue (method selector : String) {v : Value} (hv : v.Clean W) :
    Gives raised (Fit W) (ofValue method selector v) := by
  cases v with
  | closure c => exact hv.fit
  | string s => exact ⟨Closure.regular_matching selector s, fun _ h => nomatch h⟩
  | bool b => exact trivial
  | _ => exact fun k h => nomatch h

/-- A test that comes to an end leaves the frames guarded, whatever it answers. -/
theorem test_ensures (hcall : call.Guards W raised) {cx : Context} (hcx : W cx.frame)
    {p : Predicate} (hp : p.Fit W) {v : Value} (hv : v.Clean W) :
    Ensures W raised (fun _ => True) (p.test call cx v) := by
  refine (Ensures.check cx "predicate").bind fun _ _ => ?_
  cases p with
  | closure c => exact (c.invoke_ensures hcall hcx hp hv).bind fun w _ => .truth cx w
  | constant b => exact .pure trivial

theorem testNode_ensures (hcall : call.Guards W raised) {cx : Context} (hcx : W cx.frame)
    {p : Predicate} (hp : p.Fit W) (n : Node) :
    Ensures W raised (fun _ => True) (p.testNode call cx n) :=
  test_ensures hcall hcx hp (Value.clean_of_isSimple rfl)

theorem testEdge_ensures (hcall : call.Guards W raised) {cx : Context} (hcx : W cx.frame)
    {p : Predicate} (hp : p.Fit W) (e : Edge) :
    Ensures W raised (fun _ => True) (p.testEdge call cx e) :=
  test_ensures hcall hcx hp (Value.clean_of_isSimple rfl)

end Predicate

/-! ### Methods -/

/-- The first argument of a method. -/
theorem gives_takeArgument {args : List Value} (hargs : ∀ a ∈ args, a.Clean W) :
    Gives raised (fun p => p.1.Clean W ∧ ∀ a ∈ p.2, a.Clean W) (takeArgument args) := by
  cases args with
  | nil => exact fun k h => nomatch h
  | cons v rest => exact List.forall_mem_cons.mp hargs

theorem gives_noArguments (args : List Value) : Gives raised (fun _ => True) (noArguments args) := by
  cases args with
  | nil => exact trivial
  | cons v rest => exact fun k h => nomatch h

/-- The only argument of a method, as a text. -/
theorem gives_textArgument {args : List Value} (hargs : ∀ a ∈ args, a.Clean W) :
    Gives raised (fun _ => True) (textArgument args) := by
  refine (gives_takeArgument hargs).bind fun p _ => ?_
  refine (Value.gives_toText p.1).bind fun text _ => ?_
  exact (gives_noArguments p.2).bind fun _ _ => trivial

namespace Method

theorem gives_occurs (matcher : Matcher) (text : String) {args : List Value}
    (hargs : ∀ a ∈ args, a.Clean W) :
    Gives raised (Value.Clean W) (occurs matcher text args) := by
  refine (gives_textArgument hargs).bind fun pattern _ => ?_
  split
  · exact Value.clean_of_isSimple rfl
  -- an unreadable pattern is an error about the arguments
  · exact fun k h => nomatch h

/-- The tests of a walk, in pairs. -/
theorem gives_walkSteps (args : List Value) (hargs : ∀ a ∈ args, a.Clean W) :
    Gives raised (fun steps => ∀ p ∈ steps, p.1.Fit W ∧ p.2.Fit W) (walkSteps args) := by
  induction args using walkSteps.induct with
  | case1 => exact List.forall_mem_nil _
  | case2 e =>
    refine (Predicate.gives_ofValue _ _ (hargs e List.mem_cons_self)).bind fun follow hfollow => ?_
    exact List.forall_mem_cons.mpr ⟨⟨hfollow, trivial⟩, List.forall_mem_nil _⟩
  | case3 e n rest ih =>
    obtain ⟨he, hn, hrest⟩ := by simpa only [List.forall_mem_cons] using hargs
    refine (Predicate.gives_ofValue _ _ he).bind fun follow hfollow => ?_
    refine (Predicate.gives_ofValue _ _ hn).bind fun accept haccept => ?_
    refine (ih hrest).bind fun steps hsteps => ?_
    exact List.forall_mem_cons.mpr ⟨⟨hfollow, haccept⟩, hsteps⟩

/-- The first node that a search finds from one of several starts. -/
theorem firstFrom_ensures {find : Node → Eval (Option Node)}
    (hfind : ∀ n, Ensures W raised (fun _ => True) (find n)) (starts : List Node) :
    Ensures W raised (Value.Clean W) (firstFrom find starts) := by
  induction starts with
  | nil => exact .pure (Value.clean_of_isSimple rfl)
  | cons start rest ih =>
    refine (hfind start).bind fun found _ => ?_
    cases found with
    | some n => exact .pure (Value.clean_of_isSimple rfl)
    | none => exact ih

section Run

variable (hcall : call.Guards W raised) {cx : Context} (hcx : W cx.frame)
  (nodes : OrderedSet Node) {args : List Value} (hargs : ∀ a ∈ args, a.Clean W)

include hcall hcx hargs

/-- **The first match:** its tests are made one after the other, each with guarded frames. -/
theorem runFirstReachable_ensures :
    Ensures W raised (Value.Clean W) (runFirstReachable call cx nodes args) := by
  refine (Ensures.result (gives_takeArgument hargs)).bind fun ⟨v, rest⟩ ⟨hv, hrest⟩ => ?_
  refine (Ensures.result (Predicate.gives_ofValue _ _ hv)).bind fun accept haccept => ?_
  -- the test of edges may be missing, and then all edges are followed
  have hfirst : ∀ follow : Predicate, follow.Fit W →
      Ensures W raised (Value.Clean W) (firstFrom (cx.graphs.firstReachable
        (accept.testNode call cx) (follow.testEdge call cx)) nodes.toList) := by
    intro follow hfollow
    refine firstFrom_ensures (fun n => ?_) _
    exact .firstReachable (accept.testNode_ensures hcall hcx haccept)
      (follow.testEdge_ensures hcall hcx hfollow) n
  cases rest with
  | nil => exact (Ensures.pure trivial).bind hfirst
  | cons w rest =>
    exact (Ensures.result (Predicate.gives_ofValue _ _ (hrest w List.mem_cons_self))).bind hfirst

/-- The search for documents, where only documents are tested. -/
theorem runFirstDoc_ensures :
    Ensures W raised (Value.Clean W) (runFirstDoc call cx nodes args) := by
  refine (Ensures.result (gives_takeArgument hargs)).bind fun ⟨v, rest⟩ ⟨hv, hrest⟩ => ?_
  refine (Ensures.result (Predicate.gives_ofValue _ _ hv)).bind fun accept haccept => ?_
  refine (Ensures.result (gives_noArguments rest)).bind fun _ _ => ?_
  refine firstFrom_ensures (fun n => ?_) _
  refine .firstReachable (fun n => ?_) (fun e => .pure trivial) n
  -- a node that is no document is refused without a test
  split
  · exact accept.testNode_ensures hcall hcx haccept n
  · exact .pure trivial

/-- **A walk** makes the tests of its steps only. -/
theorem runWalk_ensures : Ensures W raised (Value.Clean W) (runWalk call cx nodes args) := by
  refine (Ensures.result (gives_walkSteps args hargs)).bind fun steps hsteps => ?_
  have hfollow : ∀ p ∈ steps, ∀ e, Ensures W raised (fun _ => True) (p.1.testEdge call cx e) :=
    fun p hp e => p.1.testEdge_ensures hcall hcx (hsteps p hp).1 e
  have haccept : ∀ p ∈ steps, ∀ n, Ensures W raised (fun _ => True) (p.2.testNode call cx n) :=
    fun p hp n => p.2.testNode_ensures hcall hcx (hsteps p hp).2 n
  exact (Ensures.walk hfollow haccept nodes).bind fun found _ => .pure (Value.clean_of_isSimple rfl)

omit hcall hcx in
theorem runInstanceOf_ensures : Ensures W raised (Value.Clean W) (runInstanceOf cx nodes args) := by
  refine (Ensures.result (gives_textArgument hargs)).bind fun id _ => ?_
  refine (Ensures.selectM (fun n => ?_) _).bind fun found _ => .pure (Value.clean_of_isSimple rfl)
  exact (Ensures.check cx "instanceOf").bind fun _ _ => .pure trivial

/-- **A method** gives clean values, whatever closures it is given. -/
theorem run_ensures (m : Method) : Ensures W raised (Value.Clean W) (m.run call cx args) := by
  have hstrings : Gives raised (fun _ => True) (args.mapM Value.toStrings) :=
    gives_mapM Value.gives_toStrings args
  cases m with
  | «matches» text => exact .result (gives_occurs cx.matcher text hargs)
  | has strings =>
    exact .result ((gives_textArgument hargs).bind fun _ _ => Value.clean_of_isSimple rfl)
  | hasAny strings => exact .result (hstrings.bind fun _ _ => Value.clean_of_isSimple rfl)
  | hasAll strings => exact .result (hstrings.bind fun _ _ => Value.clean_of_isSimple rfl)
  | firstReachable nodes => exact runFirstReachable_ensures hcall hcx nodes hargs
  | firstDoc nodes => exact runFirstDoc_ensures hcall hcx nodes hargs
  | instanceOf nodes => exact runInstanceOf_ensures nodes hargs
  | walk nodes => exact runWalk_ensures hcall hcx nodes hargs

end Run

end Method

/-! ### Calls -/

theorem Function.gives_checkArity (f : Function) (args : List Value) :
    Gives raised (fun _ => True) (f.checkArity args) := by
  unfold Function.checkArity
  split
  · exact fun k h => nomatch h
  · split
    · split
      · exact fun k h => nomatch h
      · exact trivial
    · exact trivial

/-- What can be called, given that calls which are nested deeper keep the frames guarded. -/
theorem Value.callWith_guards {host : HostLibrary} (hhost : host.Guards W raised)
    (hcall : call.Guards W raised) :
    Caller.Guards W raised fun cx v args => v.callWith host call cx args := by
  intro cx v args hcx hv hargs
  cases v with
  | function f =>
    refine (Ensures.result (f.gives_checkArity args)).bind fun _ _ => ?_
    cases f.action with
    | method m => exact m.run_ensures hcall hcx hargs
    | host behavior =>
      refine (Ensures.record cx _).bind fun _ _ => ?_
      exact hhost call hcall cx behavior args hcx hargs
  | closure c =>
    -- a closure takes one argument, or none, which stands for null
    match args with
    | [] => exact c.invoke_ensures hcall hcx hv.fit (clean_of_isSimple rfl)
    | [v] => exact c.invoke_ensures hcall hcx hv.fit (hargs v List.mem_cons_self)
    | _ :: _ :: _ => exact .throw fun _ => nofun
  | _ => exact .throw fun _ => nofun

/-- **Calls of any depth** give clean values, if those of the host do. -/
theorem Value.call_guards {host : HostLibrary} (hhost : host.Guards W raised) (depth : Nat) :
    (Value.call host depth).Guards W raised := by
  induction depth with
  | zero => exact fun _ _ _ _ _ _ => .exhausted
  | succ depth ih => exact callWith_guards hhost ih

end Expressions

/-! ### The standard functions -/

namespace Host

open Eval

variable {W : FrameId → Prop} {raised : Kind → Prop}

/-- Given clean arguments, a call of the function gives clean values and leaves the frames guarded. -/
def Meaning.Guards (W : FrameId → Prop) (raised : Kind → Prop) (meaning : Meaning) : Prop :=
  ∀ call : Caller, call.Guards W raised → ∀ (cx : Context) (args : List Value), W cx.frame →
    (∀ a ∈ args, a.Clean W) → Ensures W raised (Value.Clean W) (meaning call cx args)

/-- A function without arguments. -/
theorem guards_parameterless {f : Context → Eval Value}
    (hf : ∀ cx, Ensures W raised (Value.Clean W) (f cx)) : (parameterless f).Guards W raised := by
  intro call hcall cx args hcx hargs
  exact (Ensures.result (gives_noArguments args)).bind fun _ _ => hf cx

/-- A function of one argument. -/
theorem guards_unary {f : Context → Value → Eval Value}
    (hf : ∀ cx v, W cx.frame → v.Clean W → Ensures W raised (Value.Clean W) (f cx v)) :
    (unary f).Guards W raised := by
  intro call hcall cx args hcx hargs
  refine (Ensures.result (gives_takeArgument hargs)).bind fun ⟨v, rest⟩ ⟨hv, _⟩ => ?_
  exact (Ensures.result (gives_noArguments rest)).bind fun _ _ => hf cx v hcx hv

/-- A function of two arguments, which makes calls with the caller that it is given. -/
theorem guards_calling {f : Caller → Context → Value → Value → Eval Value}
    (hf : ∀ call : Caller, call.Guards W raised → ∀ cx v w, W cx.frame → v.Clean W → w.Clean W →
      Ensures W raised (Value.Clean W) (f call cx v w)) : (calling f).Guards W raised := by
  intro call hcall cx args hcx hargs
  refine (Ensures.result (gives_takeArgument hargs)).bind fun ⟨v, rest⟩ ⟨hv, hrest⟩ => ?_
  refine (Ensures.result (gives_takeArgument hrest)).bind fun ⟨w, rest⟩ ⟨hw, _⟩ => ?_
  exact (Ensures.result (gives_noArguments rest)).bind fun _ _ => hf call hcall cx v w hcx hv hw

theorem guards_binary {f : Context → Value → Value → Eval Value}
    (hf : ∀ cx v w, W cx.frame → v.Clean W → w.Clean W →
      Ensures W raised (Value.Clean W) (f cx v w)) : (binary f).Guards W raised :=
  guards_calling fun _ _ => hf

/-- What reads the state may rely on its frames being guarded. -/
theorem ensures_get {α : Type} {P : α → Prop} {f : State → Eval α}
    (hf : ∀ s : State, s.store.Guarded W → Ensures W raised P (f s)) :
    Ensures W raised P (get >>= f) :=
  fun s r t h hs => hf s hs s r t h hs

/-- The value that is noted is given back. -/
theorem guards_note : (unary note).Guards W raised := by
  refine guards_unary fun cx v _ hv s r t h hs => ?_
  obtain ⟨rfl, rfl⟩ := Prod.mk.inj (Option.some.inj h)
  exact ⟨hs, hv⟩

/-- A variable of the script, read by the host. -/
theorem guards_lookupVariable : (unary lookupVariable).Guards W raised := by
  refine guards_unary fun cx v hcx _ => (Ensures.result v.gives_toText).bind fun x _ => ?_
  refine ensures_get fun s hs => .pure ?_
  rcases hx : s.store.get? cx.frame x with _ | w
  · exact Value.clean_of_isSimple rfl
  · exact hs.get? hcx hx

/-- A variable of the script, bound by the host. -/
theorem guards_declareVariable : (binary declareVariable).Guards W raised := by
  refine guards_binary fun cx v w _ _ hw => (Ensures.result v.gives_toText).bind fun x _ => ?_
  exact (Ensures.declare cx.frame x hw).bind fun _ _ => .pure hw

/-- A variable of the script that is bound already, and is overwritten where it is. -/
theorem guards_mutateVariable : (binary mutateVariable).Guards W raised := by
  refine guards_binary fun cx v w _ _ hw => (Ensures.result v.gives_toText).bind fun x _ => ?_
  refine ensures_get fun s hs => ?_
  split
  case h_1 store hstore =>
    intro s' r t h _
    obtain ⟨rfl, rfl⟩ := Prod.mk.inj (Option.some.inj h)
    -- the variable is declared again in the frame that binds it
    obtain ⟨f, -, rfl⟩ := Option.map_eq_some_iff.mp hstore
    exact ⟨hs.declare f x hw, hw⟩
  case h_2 => exact .throw fun _ => nofun

/-- The sum of what a function gives for each of several values. -/
theorem ensures_accumulate {f : Value → Eval Value}
    (hf : ∀ v, v.Clean W → Ensures W raised (Value.Clean W) (f v)) {total : Value}
    (htotal : total.Clean W) {vs : List Value} (hvs : ∀ v ∈ vs, v.Clean W) :
    Ensures W raised (Value.Clean W) (Value.accumulate f total vs) := by
  induction vs generalizing total with
  | nil => exact .pure htotal
  | cons v vs ih =>
    obtain ⟨hv, hvs⟩ := List.forall_mem_cons.mp hvs
    refine (hf v hv).bind fun w hw => ?_
    have hadd : Gives raised (Value.Clean W) (total.add w) :=
      Value.hereditary_clean.gives_add htotal hw
    -- an addition that fails is reported as one error, whatever it was
    split
    case h_1 sum hsum =>
      rw [hsum] at hadd
      exact ih hadd hvs
    case h_2 => exact .throw fun _ => nofun

/-- Iterating over the elements of a value, with a closure or a function. -/
theorem guards_iterate : (calling iterate).Guards W raised := by
  refine guards_calling fun call hcall cx v f hcx hv hf => ?_
  have heach : ∀ e : Value, e.Clean W → Ensures W raised (Value.Clean W) (call cx f [e]) :=
    fun e he => hcall cx f [e] hcx hf (List.forall_mem_cons.mpr ⟨he, List.forall_mem_nil _⟩)
  unfold iterate Value.iterate
  split
  case h_1 => exact .throw fun _ => nofun
  case h_2 => exact .pure (Value.clean_of_isSimple rfl)
  case h_3 e es hes =>
    -- the sum starts from what the first element gives
    obtain ⟨he, hes⟩ := List.forall_mem_cons.mp (Value.hereditary_clean.elements hv hes)
    exact (heach e he).bind fun w hw => ensures_accumulate heach hw hes

/-- A call with the members of a list as arguments. -/
theorem guards_apply : (calling apply).Guards W raised := by
  refine guards_calling fun call hcall cx f args hcx hf hargs => ?_
  have hone : Ensures W raised (Value.Clean W) (call cx f [args]) :=
    hcall cx f [args] hcx hf (List.forall_mem_cons.mpr ⟨hargs, List.forall_mem_nil _⟩)
  cases args with
  | list vs => exact hcall cx f vs hcx hf (Value.clean_list_iff.mp hargs)
  | _ => exact hone

/-- A call in a new frame. -/
theorem guards_nested : Meaning.Guards W raised nested := by
  intro call hcall cx args hcx hargs
  refine (Ensures.result (gives_takeArgument hargs)).bind fun ⟨f, rest⟩ ⟨hf, _⟩ => ?_
  refine (Ensures.result (gives_noArguments rest)).bind fun _ _ => ?_
  refine (Ensures.nest hcx).bind fun frame hframe => ?_
  exact hcall { cx with frame } f [] hframe hf (List.forall_mem_nil _)

/-- What is told of a closure or a function. -/
theorem clean_info (v : Value) : (info v).Clean W := by
  cases v with
  | closure c => exact Value.hereditary_clean.ofString? _
  | function f =>
    refine Value.clean_list_iff.mpr fun w hw => ?_
    simp only [List.mem_cons, List.not_mem_nil, or_false] at hw
    rcases hw with rfl | rfl | rfl
    · exact Value.clean_of_isSimple rfl
    · exact Value.clean_of_isSimple rfl
    · cases f.most <;> exact Value.clean_of_isSimple rfl
  | _ => exact Value.clean_of_isSimple rfl

/-- **The standard functions** neither give nor store targets. -/
theorem standard_guards : HostLibrary.Guards W raised standard := by
  -- the functions that only compute are of two shapes; the others have their own lemmas
  have htable : ∀ p ∈ standardTable, Meaning.Guards W raised p.2 := by
    have hpure : ∀ f : Context → Value → Value, (∀ cx v, (f cx v).Clean W) →
        (unary fun cx v => pure (f cx v)).Guards W raised :=
      fun f hf => guards_unary fun cx v _ _ => .pure (hf cx v)
    have hmap : ∀ {α : Type} (f : Context → Value → Except Error α) (g : α → Value),
        (∀ cx v, Gives raised (fun _ => True) (f cx v)) → (∀ a, (g a).kind.isSimple = true) →
        (unary fun cx v => result (f cx v) >>= fun a => pure (g a)).Guards W raised :=
      fun f g hf hg => guards_unary fun cx v _ _ => (Ensures.result (hf cx v)).bind fun a _ =>
        .pure (Value.clean_of_isSimple (hg a))
    have hbool : ∀ cx v, Gives raised (fun _ => True) (Value.toBool (Context.graphs cx) v) :=
      fun cx v => v.gives_toBool cx.graphs
    simp only [standardTable, List.forall_mem_cons]
    refine ⟨guards_note, ?first, guards_lookupVariable, ?isLocal, guards_declareVariable,
      guards_mutateVariable, ?frames, ?check, guards_iterate, ?add, ?equals, ?index, ?same, ?select,
      hmap _ _ hbool fun _ => rfl, hmap _ _ (fun _ => Value.gives_toInt) fun _ => rfl,
      hmap _ _ (fun _ => Value.gives_toText) fun _ => rfl,
      hpure _ fun _ _ => Value.clean_of_isSimple rfl, hpure _ fun _ _ => Value.clean_of_isSimple rfl,
      hpure _ fun _ _ => Value.clean_of_isSimple rfl, hpure _ fun _ _ => Value.clean_of_isSimple rfl,
      guards_apply, guards_nested, hpure _ fun _ v => clean_info v, ?list, ?strings, ?count,
      List.forall_mem_nil _⟩
    case first =>
      intro call hcall cx args hcx hargs
      exact (Ensures.result (gives_takeArgument hargs)).bind fun p hp => .pure hp.1
    case isLocal =>
      refine guards_unary fun cx v _ _ => (Ensures.result v.gives_toText).bind fun x _ => ?_
      exact ensures_get fun s _ => .pure (Value.clean_of_isSimple rfl)
    case frames =>
      exact guards_parameterless fun cx => ensures_get fun s _ =>
        .pure (Value.clean_of_isSimple rfl)
    case check =>
      exact guards_parameterless fun cx => (Ensures.check cx "host").bind fun _ _ =>
        .pure (Value.clean_of_isSimple rfl)
    case add =>
      exact guards_binary fun cx v w _ hv hw => .result (Value.hereditary_clean.gives_add hv hw)
    case equals =>
      refine guards_binary fun cx v w _ _ _ => ?_
      exact (Ensures.result (v.gives_equals cx.graphs w)).bind fun _ _ =>
        .pure (Value.clean_of_isSimple rfl)
    case index =>
      exact guards_binary fun cx v w _ hv _ =>
        .result (Value.hereditary_clean.gives_index cx.graphs hv w)
    case same => exact guards_binary fun cx v w _ _ _ => .pure (Value.clean_of_isSimple rfl)
    case select =>
      refine guards_binary fun cx v w _ _ _ => ?_
      exact (Ensures.result w.gives_toText).bind fun x _ => .select cx v x
    case list => exact fun call hcall cx args hcx hargs => .pure (Value.clean_list_iff.mpr hargs)
    case strings =>
      intro call hcall cx args hcx hargs
      exact (Ensures.result (gives_mapM Value.gives_toText args)).bind fun _ _ =>
        .pure (Value.clean_of_isSimple rfl)
    case count => exact fun call hcall cx args hcx hargs => .pure (Value.clean_of_isSimple rfl)
  -- a name that is not in the table gives null
  intro call hcall cx name args hcx hargs
  rcases standard_cases name with ⟨meaning, hmem, heq⟩ | heq
  · rw [heq]
    exact htable _ hmem call hcall cx args hcx hargs
  · rw [heq]
    exact .pure (Value.clean_of_isSimple rfl)

end Host

/-! ### Scripts -/

/-- **Targets stay inside assignments.** The targets of a script stand on the left of its assignments,
and nothing else stands there. Let the script run in a frame from which no target can be reached, not
even inside lists or through closures and the frames that they have captured, where closures come from
scripts. Then it does not fail for want of a target, unless a function of the host raises that error
itself; there is no target in its value; and in all frames that could be reached, or that have been made
since, there is none either, so that the next script finds what this one has found. -/
theorem evaluation_targetFree {source : String} {tree : Tree} (hparse : parse source = .ok tree)
    {host : HostLibrary} {s : State} {roots : FrameId → Prop} {raised : Kind → Prop}
    (hscope : s.store.Plain roots) (hhost : host.Guards (s.store.Known roots) raised)
    {cx : Context} (hcx : roots cx.frame) (site depth : Nat) :
    tree.WellTargeted ∧
    ∀ r t, (tree.toCode site).1.run host depth cx s = some (r, t) →
      (∀ k, r = .error (.notATarget k) → raised k) ∧
      (∀ v, r = .ok v → v.Clean (s.store.Known roots)) ∧
      t.store.Plain (s.store.Known roots) := by
  refine ⟨(readFrom_of_parse hparse).wellTargeted, fun r t hrun => ?_⟩
  have hcall := Value.call_guards hhost depth
  have hcode : (tree.toCode site).1.Regular :=
    (Expr.scripted_of_parse hparse site).regular (Expr.wellTargeted_of_parse hparse site)
  -- what can be reached at the start, or is made later, is the set of frames to be guarded
  obtain ⟨hstore, hresult⟩ :=
    Expr.eval_ensures hcall cx (Or.inl (.root hcx)) _ hcode s r t hrun hscope.guarded
  refine ⟨fun k hk => ?_, fun v hv => ?_, hstore.plain⟩
  · rw [hk] at hresult
    exact hresult k rfl
  · rw [hv] at hresult
    exact hresult

/-- A closure is bound to a name and handed to a function of the host, which calls it for the members of
a list. -/
theorem evaluation_targetFree_iterate :
    let each : Value := .function ⟨0, "each", 2, some 2, .host "iterate"⟩
    let cx : Context := { graphs := {}, frame := 0 }
    let s : State :=
      { store := { frames := #[⟨[], 0, [("each", each), ("xs", .list [.string "a"])]⟩] } }
    s.store.Plain (· = 0) ∧
    ∃ tree, parse "same = n -> n; y = each(xs, same)" = .ok tree ∧
      ∃ r t, (tree.toCode 0).1.run Host.standard 2 cx s = some (r, t) ∧
        (t.store.local? 0 "same").map Value.kind = some .closure ∧
        (∀ k, r ≠ .error (.notATarget k)) ∧ (∀ v, r = .ok v → v.Clean (s.store.Known (· = 0))) ∧
        t.store.Plain (s.store.Known (· = 0)) := by
  intro each cx s
  have hclosed : s.store.Closed (· = 0) := by
    refine ⟨?_, ?_⟩
    · rintro f rfl g hg
      exact absurd hg List.not_mem_nil
    -- two variables are bound in the only frame, to a function and to a list of a string
    · rintro f rfl x v hv
      obtain ⟨before, after, htext, -⟩ := List.lookup_eq_some_iff.mp hv
      have hall : (s.store.frame 0).bindings = [("each", each), ("xs", .list [.string "a"])] := rfl
      have hmem : (x, v) ∈ [("each", each), ("xs", .list [.string "a"])] := by
        rw [← hall, htext]
        exact List.mem_append_right _ List.mem_cons_self
      simp only [List.mem_cons, Prod.mk.injEq, List.not_mem_nil, or_false] at hmem
      rcases hmem with ⟨-, rfl⟩ | ⟨-, rfl⟩
      · exact Value.clean_of_isSimple rfl
      · refine Value.clean_list_iff.mpr fun w hw => ?_
        obtain rfl := List.mem_singleton.mp hw
        exact Value.clean_of_isSimple rfl
  -- the tree is not needed, only what the run leaves behind in the variable
  have hends : (parse "same = n -> n; y = each(xs, same)").toOption.map (fun tree =>
      ((tree.toCode 0).1.run Host.standard 2 cx s).map fun p =>
        (p.2.store.local? 0 "same").map Value.kind) = some (some (some .closure)) := by decide +kernel
  obtain ⟨tree, hparse, hsome⟩ := exists_tree_of_map hends
  obtain ⟨⟨r, t⟩, hrun, hsame⟩ := Option.map_eq_some_iff.mp hsome
  have hhost : HostLibrary.Guards (s.store.Known (· = 0)) (fun _ => False) Host.standard :=
    Host.standard_guards
  have hcx : cx.frame = 0 := rfl
  obtain ⟨-, h⟩ := evaluation_targetFree hparse hclosed.plain hhost hcx 0 2
  exact ⟨hclosed.plain, tree, hparse, r, t, hrun, hsame, h r t hrun⟩

end GraphQuery
