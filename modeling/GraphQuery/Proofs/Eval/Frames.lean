import Mathlib.Order.Defs.Unbundled
import GraphQuery.Eval.Call
import GraphQuery.Host.Standard
import GraphQuery.Proofs.Eval.Compatible
import GraphQuery.Proofs.Script.Parts

/-!
# What an evaluation does to frames

An evaluation writes to one of the frames that it finds, the frame of its context, and there it binds
only the names that the code assigns outside its blocks and closures. Everything else that it writes
goes to frames that it has made itself.

Two relations between stores say this. `Store.Keeps` is what a call of a value does: all frames are as
they were, and there may be new ones. `Store.Confines f X` is what an evaluation in the frame `f`
does: it keeps the other frames, and in `f` it binds names of `X` and removes none. The second turns
into the first where code runs in a frame that was made for it (`Eval.Moves.nest`), which is what
blocks and closures do; so nothing has to be known about the body of a closure, or about where the
closure came from.

The functions of a host are a parameter. They are asked to keep frames themselves, as long as the
calls that they make do (`HostLibrary.KeepsFrames`).

## Main statements

* `Expr.eval_confines`: an expression changes its own frame only, and there the names it assigns.
* `Value.call_keeps`: calls keep all frames.
* `evaluation_confined`: both for the code of a script.
-/

namespace GraphQuery

/-! ### Changes of a frame -/

/-- One frame becomes another by binding names of `X`, some of them perhaps again. -/
structure Frame.Rebinds (X : String → Prop) (old new : Frame) : Prop where
  /-- The enclosing frames stay. -/
  enclosing_eq : new.enclosing = old.enclosing
  /-- The root stays. -/
  root_eq : new.root = old.root
  /-- No binding is removed. -/
  isSome : ∀ x, (old.bindings.lookup x).isSome → (new.bindings.lookup x).isSome
  /-- Other names keep their values. -/
  lookup_eq : ∀ x, ¬ X x → new.bindings.lookup x = old.bindings.lookup x

namespace Frame.Rebinds

variable {X : String → Prop}

theorem refl (frame : Frame) : frame.Rebinds X frame :=
  ⟨rfl, rfl, fun _ h => h, fun _ _ => rfl⟩

theorem trans {a b c : Frame} (h₁ : a.Rebinds X b) (h₂ : b.Rebinds X c) : a.Rebinds X c where
  enclosing_eq := h₂.enclosing_eq.trans h₁.enclosing_eq
  root_eq := h₂.root_eq.trans h₁.root_eq
  isSome x h := h₂.isSome x (h₁.isSome x h)
  lookup_eq x hx := (h₂.lookup_eq x hx).trans (h₁.lookup_eq x hx)

/-- Binding a name of `X` is such a change. -/
theorem put (frame : Frame) {name : String} (hname : X name) (value : Value) :
    frame.Rebinds X { frame with bindings := Assoc.put name value frame.bindings } where
  enclosing_eq := rfl
  root_eq := rfl
  isSome x h := by
    rw [Assoc.lookup_put]
    split
    · rfl
    · exact h
  lookup_eq x hx := by
    have hne : x ≠ name := fun h => hx (h ▸ hname)
    rw [Assoc.lookup_put, if_neg hne]

end Frame.Rebinds

namespace Store

/-- All frames of a store are in another one, as they were. -/
structure Keeps (s t : Store) : Prop where
  /-- No frame disappears. -/
  size_le : s.frames.size ≤ t.frames.size
  /-- No frame changes. -/
  frame_eq : ∀ g < s.frames.size, t.frame g = s.frame g

/-- All frames of a store are in another one, where `f` may have new bindings of names of `X`. -/
structure Confines (f : FrameId) (X : String → Prop) (s t : Store) : Prop where
  /-- No frame disappears. -/
  size_le : s.frames.size ≤ t.frames.size
  /-- No other frame changes. -/
  frame_eq : ∀ g < s.frames.size, g ≠ f → t.frame g = s.frame g
  /-- This frame binds names of `X` only. -/
  rebinds : f < s.frames.size → (s.frame f).Rebinds X (t.frame f)

namespace Keeps

instance : Std.Refl Keeps := ⟨fun _ => ⟨Nat.le_refl _, fun _ _ => rfl⟩⟩

instance : IsTrans Store Keeps where
  trans _ _ _ h₁ h₂ :=
    { size_le := Nat.le_trans h₁.size_le h₂.size_le
      frame_eq := fun g hg =>
        (h₂.frame_eq g (Nat.lt_of_lt_of_le hg h₁.size_le)).trans (h₁.frame_eq g hg) }

/-- A store that keeps all frames confines changes to any one of them. -/
theorem confines {s t : Store} (h : s.Keeps t) (f : FrameId) (X : String → Prop) :
    s.Confines f X t where
  size_le := h.size_le
  frame_eq g hg _ := h.frame_eq g hg
  rebinds hf := by
    rw [h.frame_eq f hf]
    exact .refl _

end Keeps

namespace Confines

variable {f : FrameId} {X : String → Prop}

instance : Std.Refl (Confines f X) := ⟨fun s => Keeps.confines (refl s) f X⟩

instance : IsTrans Store (Confines f X) where
  trans _ _ _ h₁ h₂ :=
    { size_le := Nat.le_trans h₁.size_le h₂.size_le
      frame_eq := fun g hg hne =>
        (h₂.frame_eq g (Nat.lt_of_lt_of_le hg h₁.size_le) hne).trans (h₁.frame_eq g hg hne)
      -- both changes are to the same frame, and its bindings are never removed
      rebinds := fun hf =>
        (h₁.rebinds hf).trans (h₂.rebinds (Nat.lt_of_lt_of_le hf h₁.size_le)) }

/-- Binding a name of `X` in the frame. -/
theorem declare (s : Store) (f : FrameId) {name : String} (hname : X name) (value : Value) :
    s.Confines f X (s.declare f name value) where
  size_le := by
    unfold Store.declare
    exact Nat.le_of_eq Array.size_modify.symm
  frame_eq g _ hne := frame_declare s f g name value hne
  rebinds hf := by
    rw [frame_declare_self s f name value hf]
    exact .put _ hname value

/-- What happens in a new frame leaves the others alone. -/
theorem keeps_of_nest {s t : Store} {g : FrameId} (h : (s.nest g).2.Confines (s.nest g).1 X t) :
    s.Keeps t := by
  have hsize : s.frames.size < (s.nest g).2.frames.size := by
    rw [size_nest]
    exact Nat.lt_succ_self _
  refine ⟨Nat.le_trans (Nat.le_of_lt hsize) h.size_le, fun k hk => ?_⟩
  -- the new frame comes after all others, so it is none of them
  rw [h.frame_eq k (Nat.lt_trans hk hsize) (Nat.ne_of_lt hk)]
  exact frame_nest_of_lt s g k hk

end Confines

end Store

/-! ### Evaluations that change the store in some way -/

/-- Whatever an evaluation ends with, it relates the stores before and after. -/
def Eval.Moves (Q : Store → Store → Prop) {α : Type} (m : Eval α) : Prop :=
  ∀ s r t, m s = some (r, t) → Q s.store t.store

namespace Eval.Moves

variable {Q Q' : Store → Store → Prop} {α β : Type}

/-- What is known about the stores may be weakened. -/
theorem mono {m : Eval α} (h : Moves Q m) (hQ : ∀ s t, Q s t → Q' s t) : Moves Q' m :=
  fun s r t hm => hQ _ _ (h s r t hm)

/-- An evaluation that ends in each state in a known way. -/
theorem of_apply {m : Eval α} {out : State → Except Error α} {next : State → State}
    (hm : ∀ s, m s = some (out s, next s)) (hQ : ∀ s, Q s.store (next s).store) : Moves Q m := by
  intro s r t h
  rw [hm s] at h
  obtain ⟨rfl, rfl⟩ := Prod.mk.inj (Option.some.inj h)
  exact hQ s

theorem exhausted : Moves Q (exhausted : Eval α) := fun _ _ _ h => nomatch h

section Steps

variable [Std.Refl Q]

theorem result (r : Except Error α) : Moves Q (Eval.result r) :=
  of_apply (result_apply r) fun s => refl s.store

theorem check (cx : Context) (name : String) : Moves Q (Eval.check cx name) :=
  of_apply (check_apply cx name) fun s => refl s.store

theorem record (cx : Context) (e : Event) : Moves Q (Eval.record cx e) :=
  of_apply (record_apply cx e) fun s => refl s.store

theorem lookup (cx : Context) (name : String) : Moves Q (Eval.lookup cx name) :=
  of_apply (lookup_apply cx name) fun s => refl s.store

theorem newFunction : Moves Q Eval.newFunction :=
  of_apply newFunction_apply fun s => refl s.store

end Steps

section Sequences

variable [IsTrans Store Q]

/-- The second evaluation may rely on what the first one has ended with. -/
theorem bind_of {m : Eval α} {f : α → Eval β} (hm : Moves Q m)
    (hf : ∀ s a t, m s = some (.ok a, t) → Moves Q (f a)) : Moves Q (m >>= f) := by
  intro s r u h
  rcases bind_cases h with ⟨e, hms, -⟩ | ⟨a, t, hms, hft⟩
  · exact hm s _ u hms
  · exact IsTrans.trans _ _ _ (hm s _ t hms) (hf s a t hms t r u hft)

/-- Of evaluations that move alike whatever comes before them. -/
theorem bind {m : Eval α} {f : α → Eval β} (hm : Moves Q m) (hf : ∀ a, Moves Q (f a)) :
    Moves Q (m >>= f) := hm.bind_of fun _ a _ _ => hf a

variable [Std.Refl Q]

variable (Q) in
/-- So the methods, whose evaluations are put in sequence, need no induction of their own. -/
theorem compatible : Compatible fun _ m _ => Moves Q m := ⟨result, bind⟩

theorem select (cx : Context) (v : Value) (name : String) : Moves Q (Eval.select cx v name) :=
  newFunction.bind fun _ => result _

end Sequences

/-- A name of `X` may be bound in the frame. -/
theorem declare {X : String → Prop} (f : FrameId) {name : String} (hname : X name) (v : Value) :
    Moves (Store.Confines f X) (Eval.declare f name v) :=
  of_apply (declare_apply f name v) fun s => .declare s.store f hname v

/-- **Code that runs in a frame made for it** keeps all frames that were there. -/
theorem nest {f : FrameId} {body : FrameId → Eval α}
    (h : ∀ g, Moves (Store.Confines g fun _ => True) (body g)) :
    Moves Store.Keeps (Eval.nest f >>= body) := by
  intro s r t hrun
  rw [bind_apply, nest_apply] at hrun
  exact (h _ _ r t hrun).keeps_of_nest

end Eval.Moves

/-- Calls keep all frames. -/
def Caller.KeepsFrames (call : Caller) : Prop :=
  ∀ cx v args, Eval.Moves Store.Keeps (call cx v args)

/-- The functions of a host keep all frames, as long as the calls that they make do: none writes to
a frame that it has not made. -/
def HostLibrary.KeepsFrames (host : HostLibrary) : Prop :=
  ∀ call : Caller, call.KeepsFrames → ∀ cx name args,
    Eval.Moves Store.Keeps (host call cx name args)

/-! ### Expressions -/

/-- Any name may be bound, or else those that the expression binds can be told and are in `X`. -/
def Expr.Allows (X : String → Prop) (e : Code) : Prop :=
  (∀ x, X x) ∨ e.Named ∧ ∀ x ∈ e.assigned, X x

/-- The same for several expressions. -/
def Expr.AllowsAll (X : String → Prop) (es : List Code) : Prop :=
  (∀ x, X x) ∨ (∀ e ∈ es, e.Named) ∧ ∀ x ∈ assignedAll es, X x

namespace Expr

open Store Eval

variable {X : String → Prop}

/-- Operands bind names of `X` only, if what they assign is assigned by the whole. -/
theorem Allows.child {c e : Code} (h : e.Allows X) (hchild : c ∈ e.children)
    (hassigned : ∀ x ∈ c.assigned, x ∈ e.assigned) : c.Allows X :=
  h.imp_right fun ⟨hnamed, hX⟩ => ⟨hnamed.child hchild, fun x hx => hX x (hassigned x hx)⟩

theorem Allows.left {l r e : Code} (h : e.Allows X) (hchildren : e.children = [l, r])
    (hassigned : e.assigned = l.assigned ++ r.assigned) : l.Allows X :=
  h.child (hchildren ▸ List.mem_cons_self) fun _ hx => hassigned ▸ List.mem_append_left _ hx

theorem Allows.right {l r e : Code} (h : e.Allows X) (hchildren : e.children = [l, r])
    (hassigned : e.assigned = l.assigned ++ r.assigned) : r.Allows X :=
  h.child (hchildren ▸ List.mem_cons_of_mem l List.mem_cons_self) fun _ hx =>
    hassigned ▸ List.mem_append_right _ hx

/-- The same for lists of operands. -/
theorem Allows.all {es : List Code} {e : Code} (h : e.Allows X) (hchild : ∀ c ∈ es, c ∈ e.children)
    (hassigned : ∀ x ∈ assignedAll es, x ∈ e.assigned) : AllowsAll X es :=
  h.imp_right fun ⟨hnamed, hX⟩ =>
    ⟨fun c hc => hnamed.child (hchild c hc), fun x hx => hX x (hassigned x hx)⟩

theorem AllowsAll.head {e : Code} {es : List Code} (h : AllowsAll X (e :: es)) : e.Allows X :=
  h.imp_right fun ⟨hnamed, hX⟩ =>
    ⟨hnamed e List.mem_cons_self, fun x hx => hX x (List.mem_append_left _ hx)⟩

theorem AllowsAll.tail {e : Code} {es : List Code} (h : AllowsAll X (e :: es)) : AllowsAll X es :=
  h.imp_right fun ⟨hnamed, hX⟩ =>
    ⟨fun c hc => hnamed c (List.mem_cons_of_mem e hc), fun x hx => hX x (List.mem_append_right _ hx)⟩

/-- The name that an assignment binds is in `X`. -/
theorem Allows.target {t v : Code} {l : Unit} (h : Allows X (.assign t v l)) (call : Caller)
    (cx : Context) {s u : State} {w : Value} {name : String}
    (ht : t.eval call cx s = some (.ok w, u)) (hw : w.targetName = .ok name) : X name := by
  rcases h with h | ⟨hnamed, hX⟩
  · exact h name
  -- a bare name evaluates to itself, so it is the name that is bound
  · obtain ⟨x, m, rfl⟩ := hnamed t v l .self
    rw [eval, pure_apply] at ht
    obtain ⟨⟨⟩, -⟩ := Prod.mk.inj (Option.some.inj ht)
    obtain rfl : x = name := Except.ok.inj hw
    exact hX x List.mem_cons_self

variable {call : Caller}

mutual

/-- **An expression** changes no frame but its own, and binds no name but those it assigns. -/
theorem eval_confines (hcall : call.KeepsFrames) {X : String → Prop} (cx : Context) (e : Code)
    (h : e.Allows X) : Moves (Confines cx.frame X) (e.eval call cx) := by
  cases e with
  | null => exact .result (.ok _)
  | bool b => exact .result (.ok _)
  | number text => exact .result (.ok _)
  | string s => exact .result (.ok _)
  | «variable» x l => exact .lookup cx x
  | target x l => exact .result (.ok _)
  | assign t v l =>
    have ht : t.Allows X := h.child (by simp [children]) (by simp +contextual [assigned])
    have hv : v.Allows X := h.child (by simp [children]) (by simp +contextual [assigned])
    -- the assignment is not known to have a bare name on its left, so what it has given must be kept
    refine (eval_confines hcall cx t ht).bind_of fun s w u hw => ?_
    refine (Moves.result _).bind_of fun s' name u' hname => ?_
    refine (eval_confines hcall cx v hv).bind fun value => ?_
    -- what the target has given is one of the names that may be bound
    have hX : X name := h.target call cx hw (Prod.mk.inj (Option.some.inj hname)).1
    exact (Moves.declare cx.frame hX value).bind fun _ => .result (.ok _)
  | select b name l =>
    refine (eval_confines hcall cx b (h.child List.mem_cons_self fun _ hx => hx)).bind fun v => ?_
    exact .select cx v name
  | index b i l =>
    refine (eval_confines hcall cx b (h.left rfl rfl)).bind fun base => ?_
    refine (eval_confines hcall cx i (h.right rfl rfl)).bind fun position => ?_
    exact .result _
  | and l r =>
    refine (eval_confines hcall cx l (h.left rfl rfl)).bind fun v => ?_
    -- the right operand may not be reached, and then it assigns nothing
    refine (Moves.result _).bind fun taken => ?_
    split
    · refine (eval_confines hcall cx r (h.right rfl rfl)).bind fun w => ?_
      exact (Moves.result _).bind fun _ => .result (.ok _)
    · exact .result (.ok _)
  | or l r =>
    refine (eval_confines hcall cx l (h.left rfl rfl)).bind fun v => ?_
    refine (Moves.result _).bind fun taken => ?_
    split
    · exact .result (.ok _)
    · refine (eval_confines hcall cx r (h.right rfl rfl)).bind fun w => ?_
      exact (Moves.result _).bind fun _ => .result (.ok _)
  | not e =>
    refine (eval_confines hcall cx e (h.child List.mem_cons_self fun _ hx => hx)).bind fun v => ?_
    exact (Moves.result _).bind fun _ => .result (.ok _)
  | equality l r negated =>
    refine (eval_confines hcall cx l (h.left rfl rfl)).bind fun v => ?_
    refine (eval_confines hcall cx r (h.right rfl rfl)).bind fun w => ?_
    exact (Moves.result _).bind fun _ => .result (.ok _)
  | call f as l =>
    have hf : f.Allows X := h.child List.mem_cons_self fun _ hx => List.mem_append_left _ hx
    have has : AllowsAll X as :=
      h.all (fun _ hc => List.mem_cons_of_mem f hc) fun _ hx => List.mem_append_right _ hx
    refine (eval_confines hcall cx f hf).bind fun function => ?_
    refine (evalAll_confines hcall cx as has).bind fun args => ?_
    -- a call keeps all frames, that of the caller too
    exact (hcall cx function args).mono fun _ _ hkeeps => hkeeps.confines _ _
  | closure site p b => exact .result (.ok _)
  | statements es =>
    exact evalStatements_confines hcall cx .null es (h.all (fun _ hc => hc) fun _ hx => hx)
  | block es =>
    -- whatever the statements assign, they assign it in the new frame
    refine Moves.mono (.nest fun frame => ?_) fun _ _ hkeeps => hkeeps.confines _ _
    exact evalStatements_confines hcall { cx with frame } .null es (Or.inl fun _ => trivial)

/-- Arguments bind what any of them assigns. -/
theorem evalAll_confines (hcall : call.KeepsFrames) {X : String → Prop} (cx : Context)
    (es : List Code) (h : AllowsAll X es) : Moves (Confines cx.frame X) (evalAll call cx es) := by
  cases es with
  | nil => exact .result (.ok _)
  | cons e es =>
    refine (eval_confines hcall cx e h.head).bind fun v => ?_
    exact (evalAll_confines hcall cx es h.tail).bind fun _ => .result (.ok _)

/-- Statements bind what any of them assigns. -/
theorem evalStatements_confines (hcall : call.KeepsFrames) {X : String → Prop} (cx : Context)
    (last : Value) (es : List Code) (h : AllowsAll X es) :
    Moves (Confines cx.frame X) (evalStatements call cx last es) := by
  cases es with
  | nil => exact .result (.ok _)
  | cons e es =>
    refine (Moves.check cx "statement").bind fun _ => ?_
    refine (eval_confines hcall cx e h.head).bind fun v => ?_
    exact evalStatements_confines hcall cx v es h.tail

end

end Expr

/-! ### Closures, predicates and calls -/

open Eval

section Calls

variable {call : Caller} (hcall : call.KeepsFrames)

include hcall

/-- **A closure** keeps all frames, also the one it was created in. -/
theorem Closure.invoke_keeps (cx : Context) (c : Closure) (v : Value) :
    Moves Store.Keeps (c.invoke call cx v) := by
  refine .nest fun frame => ?_
  -- the body may be any code, since it runs in a frame of its own
  have hbody := Expr.eval_confines hcall { cx with frame } c.body (Or.inl fun _ => trivial)
  cases c.parameter with
  | none => exact hbody
  | some p => exact (Moves.declare frame trivial v).bind fun _ => hbody

/-- **A test** keeps all frames. -/
theorem Predicate.test_keeps (cx : Context) (p : Predicate) (v : Value) :
    Moves Store.Keeps (p.test call cx v) := by
  refine (Moves.check cx "predicate").bind fun _ => ?_
  cases p with
  | closure c => exact (c.invoke_keeps hcall cx v).bind fun _ => .result _
  | constant b => exact .result (.ok b)

/-- **A method** keeps all frames, whatever is tested on its way. -/
theorem Method.run_keeps (cx : Context) (m : Method) (args : List Value) :
    Moves Store.Keeps (m.run call cx args) :=
  @Compatible.run _ (Moves.compatible Store.Keeps) call call cx cx.cancellation (.check cx)
    (fun p v => p.test_keeps hcall cx v) m args

/-- What can be called keeps all frames, if the functions of the host do. -/
theorem Value.callWith_keeps {host : HostLibrary} (hhost : host.KeepsFrames) (cx : Context)
    (v : Value) (args : List Value) : Moves Store.Keeps (v.callWith host call cx args) := by
  cases v with
  | function f =>
    refine (Moves.result _).bind fun _ => ?_
    cases f.action with
    | method m => exact m.run_keeps hcall cx args
    | host behavior => exact (Moves.record cx _).bind fun _ => hhost call hcall cx behavior args
  | closure c =>
    match args with
    | [] => exact c.invoke_keeps hcall cx .null
    | [v] => exact c.invoke_keeps hcall cx v
    | _ :: _ :: _ => exact .result (.error _)
  | _ => exact .result (.error _)

end Calls

/-- **Calls keep all frames**, at any depth. -/
theorem Value.call_keeps {host : HostLibrary} (hhost : host.KeepsFrames) (depth : Nat) :
    (Value.call host depth).KeepsFrames := by
  induction depth with
  | zero => exact fun _ _ _ => .exhausted
  | succ depth ih => exact fun cx v args => v.callWith_keeps ih hhost cx args

/-! ### Scripts -/

/-- **What a script does to the frames that it finds.** Whether an expression of a script ends with a
value or with an error, it changes no frame but the one it is evaluated in; there it removes no
binding, and it binds only names that it assigns outside its blocks and closures. Blocks, closures
that are applied to an argument, methods and their tests change no frame at all. -/
theorem evaluation_confined {source : String} {tree : Tree} (hparse : parse source = .ok tree)
    {host : HostLibrary} (hhost : host.KeepsFrames) (site depth : Nat) (cx : Context) :
    (∀ e : Code, e.Part (tree.toCode site).1 →
      Moves (Store.Confines cx.frame (· ∈ e.assigned)) (e.run host depth cx)) ∧
    (∀ es : List Code, Moves Store.Keeps (Expr.run host depth cx (.block es))) ∧
    (∀ (c : Closure) (v : Value), Moves Store.Keeps (c.invoke (Value.call host depth) cx v)) ∧
    (∀ (p : Predicate) (v : Value), Moves Store.Keeps (p.test (Value.call host depth) cx v)) ∧
    (∀ (m : Method) (args : List Value),
      Moves Store.Keeps (m.run (Value.call host depth) cx args)) := by
  have hcall : (Value.call host depth).KeepsFrames := Value.call_keeps hhost depth
  refine ⟨fun e he => ?_, fun es => ?_, fun c v => c.invoke_keeps hcall cx v,
    fun p v => p.test_keeps hcall cx v, fun m args => m.run_keeps hcall cx args⟩
  · exact Expr.eval_confines hcall cx e (Or.inr ⟨named_of_parse hparse site he, fun _ hx => hx⟩)
  · exact .nest fun frame => Expr.evalStatements_confines hcall { cx with frame } .null es
      (Or.inl fun _ => trivial)

/-- A library with one function, which calls its argument in a frame of its own. -/
def Host.nesting : HostLibrary := fun call cx _ args => Host.nested call cx args

/-- The closure is called in a new frame, so that even what it declares there is not seen outside. -/
theorem Host.nesting_keepsFrames : Host.nesting.KeepsFrames := by
  intro call hcall cx name args
  refine (Moves.result _).bind fun ⟨f, rest⟩ => ?_
  refine (Moves.result _).bind fun _ => ?_
  exact .nest fun frame => (hcall { cx with frame } f []).mono fun _ _ h => h.confines _ _

/-- A script that hands a closure to the host: it can bind `x`, and `y` stays in the closure. -/
theorem evaluation_confined_nesting :
    ∃ tree : Tree, parse "x = f(\x7b y = 1 \x7d)" = .ok tree ∧
      (tree.toCode 0).1.assigned = ["x"] ∧
      Moves (Store.Confines 1 (· ∈ ["x"]))
        ((tree.toCode 0).1.run Host.nesting 3 { graphs := {}, frame := 1 }) := by
  -- that the script assigns `x` alone is computed
  have hassigned : (parse "x = f(\x7b y = 1 \x7d)").toOption.map
      (fun tree => (tree.toCode 0).1.assigned) = some ["x"] := by decide +kernel
  rcases hparse : parse "x = f(\x7b y = 1 \x7d)" with e | tree
  · rw [hparse] at hassigned
    exact nomatch hassigned
  · rw [hparse] at hassigned
    have ha : (tree.toCode 0).1.assigned = ["x"] := Option.some.inj hassigned
    have h := evaluation_confined hparse Host.nesting_keepsFrames 0 3 { graphs := {}, frame := 1 }
    exact ⟨tree, rfl, ha, ha ▸ h.1 _ .self⟩

end GraphQuery
