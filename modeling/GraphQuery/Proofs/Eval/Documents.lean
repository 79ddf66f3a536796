import GraphQuery.Proofs.Graph.DepthFirst
import GraphQuery.Proofs.Host.Standard
import GraphQuery.Proofs.Session.Settling

/-!
# The search for documents, written as a script

The method `firstDoc` looks for a node that is a document and that a closure accepts. A script can say the
same with `firstReachable`, if it tests the type itself and then calls the closure through a variable. One
search tests types natively. The other one enters the evaluator for every node and every edge: it makes
checks, frames and functions that the first one does not make, and it looks the closure up each time.

So the closure runs in another surrounding, and what it makes has other names. As no evaluation sees names
(`Renaming.call_matches`), it ends with the same result, and this result decides how both searches go on.
The frames and functions that only the script makes are in nobody's way (`State.Grows`).

What is called is entered in a record that is kept beside the state of a run, right before the call
(`Documents.askDoc`, `Documents.askCopy`). Without it, the runs are those of the two methods.

The variable matters. A function of the host may bind it to another closure while the search is under way,
and then the script calls that one (`Documents.firstDoc_rebound`). As long as the calls of the closure leave
the variable alone (`Closure.Steady`), which they do unless the host writes to frames that it has not made
(`Closure.steady_of_keepsFrames`), both searches agree.

## Main statements

* `Documents.alike_accept`, `Documents.alike_follow`: the tests of both searches.
* `Documents.firstDoc_firstReachable`: both searches.
-/

namespace GraphQuery

open Eval

/-! ### Entering a closure -/

namespace Store

/-- What is found along a list of frames depends on what they bind. -/
theorem findSome?_local?_eq {s t : Store} {fs : List FrameId} (h : ∀ f ∈ fs, t.frame f = s.frame f)
    (x : String) : (fs.findSome? fun f => t.local? f x) = fs.findSome? fun f => s.local? f x := by
  induction fs with
  | nil => rfl
  | cons f fs ih =>
    obtain ⟨hf, hfs⟩ := List.forall_mem_cons.mp h
    rw [List.findSome?_cons, List.findSome?_cons, ih hfs, local?, local?, hf]

/-- A variable is as it was if all frames are. -/
theorem Keeps.get?_eq {s t : Store} (h : s.Keeps t) {f : FrameId}
    (hchain : ∀ g ∈ s.chain f, g < s.frames.size) (x : String) : t.get? f x = s.get? f x := by
  have hf : t.frame f = s.frame f := h.frame_eq f (hchain f List.mem_cons_self)
  -- the same chain is searched, and its frames are the same
  have ht : t.chain f = s.chain f := by rw [chain, chain, hf]
  rw [get?, get?, ht]
  exact findSome?_local?_eq (fun g hg => h.frame_eq g (hchain g hg)) x

end Store

namespace Closure

variable {c : Closure} {g : FrameId} {u : State}

/-- A call makes a frame and leaves the others as they are. -/
theorem keeps_entered (v : Value) : u.store.Keeps (c.entered g v u).store :=
  ⟨size_entered v ▸ Nat.le_succ _, fun _ hk => frame_entered v hk⟩

/-- What can be resolved in a call of a closure. -/
theorem get?_entered (hchain : ∀ k ∈ u.store.chain g, k < u.store.frames.size) (v : Value)
    (x : String) :
    (c.entered g v u).store.get? u.store.frames.size x =
      if c.parameter = some x then some v else u.store.get? g x := by
  have hrest : ((u.store.chain g).findSome? fun k => (c.entered g v u).store.local? k x) =
      u.store.get? g x :=
    Store.findSome?_local?_eq (fun k hk => frame_entered v (hchain k hk)) x
  rw [Store.get?, Store.chain, List.findSome?_cons, local?_entered, enclosing_entered, hrest]
  -- the new frame is searched first, and it binds the parameter alone
  by_cases hx : c.parameter = some x
  · rw [if_pos hx, if_pos hx]
  · rw [if_neg hx, if_neg hx]

/-- When a call has begun, and functions have been made in it, the state has grown. -/
theorem grows_entered {s : State} (log : List Contact) (v : Value) (k : Nat) :
    s.Grows { c.entered g v { s with log } with functions := s.functions + k } where
  store := keeps_entered (u := { s with log }) v
  functions_le := Nat.le_add_right _ _
  sites_eq := rfl
  notes_eq := rfl

/-- A closure from a script does not see the frame of its caller. -/
theorem invoke_inFrame {f : FrameId} (hc : c.frame = some f) (call : Caller) (cx : Context)
    (frame : FrameId) (v : Value) : c.invoke call { cx with frame } v = c.invoke call cx v := by
  unfold invoke
  rw [hc]
  rfl

/-- A test that no check stops is a call. -/
theorem test_apply (c : Closure) {cx : Context} (hnever : cx.cancellation = Cancellation.never)
    (call : Caller) (v : Value) (s : State) :
    (Predicate.closure c).test call cx v s =
      (c.invoke call cx v >>= truth cx)
        { s with log := ⟨.check "predicate", cx.watch s.store⟩ :: s.log } := by
  have hcheck : check cx "predicate" s =
      some (.ok (), { s with log := ⟨.check "predicate", cx.watch s.store⟩ :: s.log }) := by
    rw [check_apply, hnever]
    rfl
  exact bind_of_ok hcheck

/-! ### Closures that leave a variable alone -/

/-- Calls of a closure on documents, none of which fails, lead from one state to another. -/
inductive Leads (call : Caller) (cx : Context) (c : Closure) (s : State) : State → Prop where
  /-- No call has been made. -/
  | start : c.Leads call cx s s
  /-- One more call is made. -/
  | next {t u : State} {n : Node} {b : Bool} (before : c.Leads call cx s t)
      (document : (cx.graphs.node n).hasType cx.settings.documentType = true)
      (called : (Predicate.closure c).testNode call cx n t = some (.ok b, u)) : c.Leads call cx s u

/-- As long as the closure is called on documents and does not fail, the variable `p` is bound to it. -/
def Steady (call : Caller) (cx : Context) (c : Closure) (s : State) : Prop :=
  ∀ t, c.Leads call cx s t → t.store.get? cx.frame "p" = some (.closure c)

/-- **Only the host can bind the variable to something else**, if it writes to a frame that it has not
made. -/
theorem steady_of_keepsFrames {call : Caller} (hcall : call.KeepsFrames) {cx : Context} {s : State}
    (hchain : ∀ f ∈ s.store.chain cx.frame, f < s.store.frames.size)
    (hc : s.store.get? cx.frame "p" = some (.closure c)) : c.Steady call cx s := by
  intro t ht
  -- calls of the closure keep all frames, one after the other
  have hkeeps : s.store.Keeps t.store := by
    induction ht with
    | start => exact refl _
    | next _ _ called ih =>
      exact IsTrans.trans _ _ _ ih ((Predicate.closure c).test_keeps hcall cx _ _ _ _ called)
  rw [hkeeps.get?_eq hchain, hc]

end Closure

namespace Documents

/-! ### The scripts -/

/-- The code of `x.firstDoc(p)`. -/
def docCode (x : String) : Code :=
  .call (.select (.variable x ()) "firstDoc" ()) [.variable "p" ()] ()

/-- The code of `n.type.has("type")`. -/
def typeCode (type : String) : Code :=
  .call (.select (.select (.variable "n" ()) "type" ()) "has" ()) [.string type] ()

/-- The code of `p(n)`. -/
def askCode : Code := .call (.variable "p" ()) [.variable "n" ()] ()

/-- The code of `e.label != "label"`. -/
def followCode (label : String) : Code :=
  .equality (.select (.variable "e" ()) "label" ()) (.string label) true

/-- The code of `x.firstReachable(n -> n.type.has("type") && p(n), e -> e.label != "label")`, where the
type and the label are those of the settings. -/
def reachCode (settings : Settings) (site site' : Nat) (x : String) : Code :=
  .call (.select (.variable x ()) "firstReachable" ())
    [.closure site (some "n") (.and (typeCode settings.documentType) askCode),
      .closure site' (some "e") (followCode settings.instanceOfLabel)] ()

/-- The text of the second script is read as this code. -/
example : (parse "x.firstReachable(n -> n.type.has(\"D\") && p(n), e -> e.label != \"I\")").toOption.map
      (fun tree => (tree.toCode 0).1.display) =
    some (reachCode { documentType := "D", instanceOfLabel := "I" } 0 1 "x").display := by
  decide +kernel

/-- The closure of the second script that tests nodes, when it is evaluated in a frame. -/
def acceptor (settings : Settings) (site : Nat) (frame : FrameId) : Closure :=
  ⟨site, some "n", .and (typeCode settings.documentType) askCode, some frame⟩

/-- The closure of the second script that tests edges, when it is evaluated in a frame. -/
def follower (settings : Settings) (site : Nat) (frame : FrameId) : Closure :=
  ⟨site, some "e", followCode settings.instanceOfLabel, some frame⟩

section Code

variable {host : HostLibrary} {call : Caller} (cx : Context) {s : State} {n : Node} {e : Edge}

/-- The test of the type of a node, in a frame that binds the node, makes two functions: the method is
selected from the types, which are selected from the node. -/
theorem eval_typeCode {depth : Nat} (hn : s.store.get? cx.frame "n" = some (.ofNode n))
    (type : String) :
    (typeCode type).eval (Value.call host (depth + 1)) cx s =
      some (.ok (.bool ((cx.graphs.node n).hasType type)),
        { s with functions := s.functions + 2 }) := by
  let types := (cx.graphs.node n).types
  have htypes : (Expr.select (.variable "n" ()) "type" () : Code).eval
      (Value.call host (depth + 1)) cx s =
      some (.ok (.strings types), { s with functions := s.functions + 1 }) :=
    bind_of_ok (lookup_of_get? hn)
  have hhas : (Expr.select (.select (.variable "n" ()) "type" ()) "has" () : Code).eval
      (Value.call host (depth + 1)) cx s =
      some (.ok (.ofMethod (s.functions + 1) "has" 1 (some 1) (.has types)),
        { s with functions := s.functions + 2 }) :=
    bind_of_ok htypes
  exact bind_of_ok hhas

/-- The test of the label of an edge makes one function, that of the selection. -/
theorem eval_followCode (he : s.store.get? cx.frame "e" = some (.ofEdge e)) (label : String) :
    (followCode label).eval call cx s =
      some (.ok (.bool ((cx.graphs.edge e).label != label)),
        { s with functions := s.functions + 1 }) := by
  have hlabel : (Expr.select (.variable "e" ()) "label" () : Code).eval call cx s =
      some (.ok (.string (cx.graphs.edge e).label), { s with functions := s.functions + 1 }) :=
    bind_of_ok (lookup_of_get? he)
  refine (bind_of_ok hlabel).trans ?_
  change some (Except.ok (Value.bool (((cx.graphs.edge e).label == label) != true)), _) = _
  -- to be unequal is not to be equal, as the script says it
  rw [Bool.bne_true]
  rfl

end Code

/-! ### Searches with a record of calls -/

section Searches

variable (call : Caller) (cx : Context)

/-- Calls the closure on a node, if this is a document. -/
def askDoc (p : Closure) (n : Node) : Run Error (State × List Node) Bool :=
  if (cx.graphs.node n).hasType cx.settings.documentType then
    Run.noted n ((Predicate.closure p).testNode call cx n)
  else
    return false

/-- The search for documents, with a record of the nodes that the closure is called on. -/
def askDocs (p : Closure) (starts : List Node) : Run Error (State × List Node) Value :=
  let follow (e : Edge) : Run Error (State × List Node) Bool :=
    return (cx.graphs.edge e).label != cx.settings.instanceOfLabel
  Method.firstFrom (cx.graphs.firstReachable (askDoc call cx p) follow) starts

/-- The test of a node in the second script, up to the call in it. If the node is a document, it gives the
frame of the test, what is called there, and the arguments. -/
def approach (n : Node) : Eval (Option (FrameId × Value × List Value)) := do
  check cx "predicate"
  let frame ← nest cx.frame
  declare frame "n" (.ofNode n)
  if ← truth cx (← (typeCode cx.settings.documentType).eval call { cx with frame }) then
    let callee ← lookup { cx with frame } "p"
    let args ← Expr.evalAll call { cx with frame } [.variable "n" ()]
    return some (frame, callee, args)
  else
    return none

/-- The test of a node in the second script, with a record of the call in it. -/
def askCopy (n : Node) : Run Error (State × List (Value × List Value)) Bool := do
  match ← Run.silent (approach call cx n) with
  | some (frame, callee, args) =>
    Run.noted (callee, args) (call { cx with frame } callee args >>= truth cx)
  | none => return false

/-- The search of the second script, with a record of what its test of nodes calls. -/
def askCopies (site : Nat) (starts : List Node) :
    Run Error (State × List (Value × List Value)) Value :=
  let follow (e : Edge) : Run Error (State × List (Value × List Value)) Bool :=
    Run.silent ((Predicate.closure (follower cx.settings site cx.frame)).testEdge call cx e)
  Method.firstFrom (cx.graphs.firstReachable (askCopy call cx) follow) starts

/-- The test of a node in the second script is what comes before the call, and the call. -/
theorem testNode_acceptor (site : Nat) (n : Node) :
    (Predicate.closure (acceptor cx.settings site cx.frame)).testNode call cx n = (do
      match ← approach call cx n with
      | some (frame, callee, args) => call { cx with frame } callee args >>= truth cx
      | none => return false) := by
  -- both are the same steps, and the last one turns a boolean into itself
  unfold Predicate.testNode Predicate.test Closure.invoke approach
  simp only [acceptor, askCode, Expr.eval, bind_assoc, Option.getD_some]
  -- the frame, its variable and the type of the node are the same in both
  refine bind_congr fun _ => bind_congr fun frame => bind_congr fun _ => bind_congr fun v => ?_
  refine bind_congr fun typed => ?_
  cases typed with
  | false => rfl
  | true =>
    simp only [if_true, bind_assoc, pure_bind]
    refine bind_congr fun callee => bind_congr fun args => bind_congr fun result => ?_
    exact bind_pure (truth cx result)

/-- The record of calls makes no difference to the search for documents. -/
theorem forgets_askDocs (p : Closure) (ns : OrderedSet Node) :
    Run.Forgets (askDocs call cx p ns.toList) (Method.run call cx [.closure p] (.firstDoc ns)) := by
  let accept (n : Node) : Eval Bool :=
    if (cx.graphs.node n).hasType cx.settings.documentType then
      (Predicate.closure p).testNode call cx n
    else
      pure false
  let follow (e : Edge) : Eval Bool := pure ((cx.graphs.edge e).label != cx.settings.instanceOfLabel)
  have hrun : Method.run call cx [.closure p] (.firstDoc ns) =
      Method.firstFrom (cx.graphs.firstReachable accept follow) ns.toList := rfl
  rw [hrun]
  refine Run.sequential_forgets.firstFrom (Run.sequential_forgets.firstReachable (fun n => ?_)
    fun e => Run.sequential_forgets.pure _) _
  unfold askDoc
  dsimp only [accept]
  -- a document is noted when its test starts, and other nodes are not
  split
  · exact Run.forgets_noted _ _
  · exact Run.sequential_forgets.pure _

/-- Nor does it to the search of the second script. -/
theorem forgets_askCopies (site site' : Nat) (ns : OrderedSet Node) :
    Run.Forgets (askCopies call cx site' ns.toList)
      (Method.run call cx [.closure (acceptor cx.settings site cx.frame),
        .closure (follower cx.settings site' cx.frame)] (.firstReachable ns)) := by
  let accept := (Predicate.closure (acceptor cx.settings site cx.frame)).testNode call cx
  let follow := (Predicate.closure (follower cx.settings site' cx.frame)).testEdge call cx
  have hrun : Method.run call cx [.closure (acceptor cx.settings site cx.frame),
      .closure (follower cx.settings site' cx.frame)] (.firstReachable ns) =
      Method.firstFrom (cx.graphs.firstReachable accept follow) ns.toList := rfl
  rw [hrun]
  refine Run.sequential_forgets.firstFrom (Run.sequential_forgets.firstReachable (fun n => ?_)
    fun e => Run.forgets_silent _) _
  dsimp only [accept]
  rw [testNode_acceptor]
  refine Run.sequential_forgets.bind (Run.forgets_silent _) fun ahead => ?_
  match ahead with
  | some (frame, callee, args) => exact Run.forgets_noted _ _
  | none => exact Run.sequential_forgets.pure _

end Searches

/-! ### The tests of both searches -/

/-- What the record of the second search says about a call of the closure on a node. -/
def calledOn (p : Closure) (n : Node) : Value × List Value := (.closure p, [.ofNode n])

/-- What both searches start from, and keep to: no check stops them, and the closure, which comes from a
script, stays bound to the variable. -/
structure Setting (call : Caller) (cx : Context) (p : Closure) (w : Renaming) (s : State) : Prop where
  /-- No check stops an evaluation. -/
  never : cx.cancellation = Cancellation.never
  /-- The searches run in the same frame. -/
  frame : w.frame cx.frame cx.frame
  /-- The closure is the same for both. -/
  closure : w.Rel (.closure p) (.closure p)
  /-- It comes from a script. -/
  script : p.frame.isSome
  /-- The variable stays bound to it. -/
  steady : p.Steady call cx s

/-- From related states that calls of the closure lead to, and with records of the same calls, both runs
run out, or both end with the same result, in related states, and with records of the same calls. If they
have not failed, calls of the closure lead on to the new state. -/
def Alike (call : Caller) (cx : Context) (p : Closure) (w : Renaming) (start : State) (α : Type)
    (m : Run Error (State × List Node) α) (m' : Run Error (State × List (Value × List Value)) α) :
    Prop :=
  ∀ w₁, w ≤ w₁ → ∀ s s' asked, w₁.States s s' → p.Leads call cx start s →
    (m (s, asked) = none ∧ m' (s', asked.map (calledOn p)) = none) ∨
    ∃ w₂ r t t' asked₁, w₁ ≤ w₂ ∧ m (s, asked) = some (r, t, asked₁) ∧
      m' (s', asked.map (calledOn p)) = some (r, t', asked₁.map (calledOn p)) ∧ w₂.States t t' ∧
      ∀ a, r = .ok a → p.Leads call cx start t

section Tests

variable {host : HostLibrary} {depth : Nat} {call : Caller} {cx : Context} {p : Closure}
  {w : Renaming} {start : State}

/-- Runs that stay alike may be put in sequence, so the searches stay alike if their tests do. -/
theorem sequential_alike : Sequential (Alike call cx p w start) where
  pure a := fun w₁ _ s s' asked hs hleads =>
    Or.inr ⟨w₁, .ok a, s, s', asked, le_rfl, rfl, rfl, hs, fun _ _ => hleads⟩
  bind := by
    intro α β m m' f f' hm hf w₁ hw₁ s s' asked hs hleads
    rw [Run.bind_apply, Run.bind_apply]
    rcases hm w₁ hw₁ s s' asked hs hleads with ⟨hnone, hnone'⟩ |
      ⟨w₂, r, t, t', asked₁, hw₂, ht, ht', hstates, hleads₁⟩
    · exact Or.inl ⟨by rw [hnone], by rw [hnone']⟩
    · rw [ht, ht']
      cases r with
      | error e => exact Or.inr ⟨w₂, .error e, t, t', asked₁, hw₂, rfl, rfl, hstates, nofun⟩
      | ok a =>
        -- calls of the closure have led to the state in which the second part starts
        rcases hf a w₂ (hw₁.trans hw₂) t t' asked₁ hstates (hleads₁ a rfl) with hnone | hends
        · exact Or.inl hnone
        · obtain ⟨w₃, r, u, u', asked₂, hw₃, hends⟩ := hends
          exact Or.inr ⟨w₃, r, u, u', asked₂, hw₂.trans hw₃, hends⟩

/-- What the second script has done when it comes to the call. -/
theorem approach_apply (host : HostLibrary) (depth : Nat)
    (hnever : cx.cancellation = Cancellation.never) {s : State}
    (hchain : ∀ f ∈ s.store.chain cx.frame, f < s.store.frames.size)
    (hp : s.store.get? cx.frame "p" = some (.closure p)) (n : Node) :
    ∃ t, s.Grows t ∧ approach (Value.call host (depth + 1)) cx n s =
      some (.ok (if (cx.graphs.node n).hasType cx.settings.documentType then
        some (s.store.frames.size, calledOn p n) else none), t) := by
  -- the test has made a frame for the node, and two functions for the type
  let frame := s.store.frames.size
  let log := ⟨.check "predicate", cx.watch s.store⟩ :: s.log
  let u := (acceptor cx.settings 0 cx.frame).entered cx.frame (.ofNode n) { s with log }
  let t := { u with functions := s.functions + 2 }
  refine ⟨t, Closure.grows_entered log (.ofNode n) 2, ?_⟩
  have hcheck : check cx "predicate" s = some (.ok (), { s with log }) := by
    rw [check_apply, hnever]
    rfl
  have hnest : nest cx.frame { s with log } =
      some (.ok frame, { s with log, store := (s.store.nest cx.frame).2 }) := rfl
  have hdeclare : declare frame "n" (.ofNode n) { s with log, store := (s.store.nest cx.frame).2 } =
      some (.ok (), u) := rfl
  -- the frame of the test binds the node, and everything else is found around it
  have hget : ∀ x, u.store.get? frame x =
      if some "n" = some x then some (.ofNode n) else s.store.get? cx.frame x :=
    fun x => Closure.get?_entered (u := { s with log }) hchain (.ofNode n) x
  have hn : u.store.get? frame "n" = some (.ofNode n) := (hget "n").trans (if_pos rfl)
  have hp : u.store.get? frame "p" = some (.closure p) :=
    (hget "p").trans ((if_neg (by decide)).trans hp)
  have htype : (typeCode cx.settings.documentType).eval (Value.call host (depth + 1))
      { cx with frame } u =
      some (.ok (.bool ((cx.graphs.node n).hasType cx.settings.documentType)), t) :=
    eval_typeCode { cx with frame } hn _
  have htruth : truth cx (.bool ((cx.graphs.node n).hasType cx.settings.documentType)) t =
      some (.ok ((cx.graphs.node n).hasType cx.settings.documentType), t) := rfl
  rw [approach, bind_of_ok hcheck, bind_of_ok hnest, bind_of_ok hdeclare, bind_of_ok htype,
    bind_of_ok htruth]
  by_cases hdocument : (cx.graphs.node n).hasType cx.settings.documentType
  · have hcallee : lookup { cx with frame } "p" t = some (.ok (.closure p), t) := lookup_of_get? hp
    have hnode : lookup { cx with frame } "n" t = some (.ok (.ofNode n), t) := lookup_of_get? hn
    have hargs : Expr.evalAll (Value.call host (depth + 1)) { cx with frame } [.variable "n" ()] t =
        some (.ok [.ofNode n], t) := bind_of_ok hnode
    rw [if_pos hdocument, if_pos hdocument]
    exact (bind_of_ok hcallee).trans (bind_of_ok hargs)
  · rw [if_neg hdocument, if_neg hdocument]
    rfl

/-- The test of an edge in the second script. -/
theorem testEdge_follower (call : Caller) (hnever : cx.cancellation = Cancellation.never) {s : State}
    (hchain : ∀ f ∈ s.store.chain cx.frame, f < s.store.frames.size) (site : Nat) (e : Edge) :
    ∃ t, s.Grows t ∧
      (Predicate.closure (follower cx.settings site cx.frame)).testEdge call cx e s =
        some (.ok ((cx.graphs.edge e).label != cx.settings.instanceOfLabel), t) := by
  -- the test of an edge makes a frame for the edge, and a function for its label
  let c := follower cx.settings site cx.frame
  let log := ⟨.check "predicate", cx.watch s.store⟩ :: s.log
  let u := c.entered cx.frame (.ofEdge e) { s with log }
  let t := { u with functions := s.functions + 1 }
  refine ⟨t, Closure.grows_entered log (.ofEdge e) 1, ?_⟩
  have he : u.store.get? s.store.frames.size "e" = some (.ofEdge e) :=
    (Closure.get?_entered (u := { s with log }) hchain (.ofEdge e) "e").trans (if_pos rfl)
  have hbody : c.body.eval call { cx with frame := s.store.frames.size } u =
      some (.ok (.bool ((cx.graphs.edge e).label != cx.settings.instanceOfLabel)), t) :=
    eval_followCode { cx with frame := s.store.frames.size } he _
  have hinvoke : c.invoke call cx (.ofEdge e) { s with log } =
      some (.ok (.bool ((cx.graphs.edge e).label != cx.settings.instanceOfLabel)), t) :=
    (Closure.invoke_eq_entered rfl call cx _).trans hbody
  calc (Predicate.closure c).testEdge call cx e s
    _ = (c.invoke call cx (.ofEdge e) >>= truth cx) { s with log } := c.test_apply hnever call _ s
    _ = _ := bind_of_ok hinvoke

/-- The call of the closure in both searches. In the second one it is made from the frame of the test, which
a closure from a script does not see. -/
theorem alike_call (hhost : host.Parametric) (h : Setting (Value.call host depth) cx p w start)
    {w₁ : Renaming} (hw₁ : w ≤ w₁) {s s' t' : State} (hs : w₁.States s s') (hgrows : s'.Grows t')
    (n : Node) (frame : FrameId) :
    let asks := (Predicate.closure p).testNode (Value.call host depth) cx n
    let asks' := Value.call host (depth + 1) { cx with frame } (.closure p) [.ofNode n] >>= truth cx
    (asks s = none ∧ asks' t' = none) ∨
    ∃ w₂ r t u', w₁ ≤ w₂ ∧ asks s = some (r, t) ∧ asks' t' = some (r, u') ∧ w₂.States t u' := by
  intro asks asks'
  let calls : Eval Bool := p.invoke (Value.call host depth) cx (.ofNode n) >>= truth cx
  let log := ⟨.check "predicate", cx.watch s.store⟩ :: s.log
  obtain ⟨f, hf⟩ := Option.isSome_iff_exists.mp h.script
  -- both are calls from a frame that does not matter, one of them after a check
  have hasks : asks s = calls { s with log } := p.test_apply h.never _ _ s
  have hasks' : asks' = calls :=
    congrArg (· >>= truth cx) (p.invoke_inFrame hf (Value.call host depth) cx frame (.ofNode n))
  have hcx : w₁.Contexts cx cx := ⟨rfl, rfl, rfl, h.never, h.never, hw₁.1 h.frame⟩
  have hcalls : w₁.Matches Renaming.Same calls calls :=
    (Renaming.invoke_matches (Renaming.call_matches hhost w₁ depth) hcx (h.closure.mono hw₁)
      (.nameless rfl)).bind fun w₂ hw₂ v v' hv => .truth (hcx.mono hw₂) hv
  rw [hasks, hasks']
  rcases hcalls w₁ le_rfl { s with log } t' ((hs.withLog log s'.log).grows hgrows) with
    hnone | ⟨w₂, r, r', t, u', hw₂, ht, hu', hstates, hagree⟩
  · exact Or.inl hnone
  · have hr : r = r' := by
      cases hagree with
      | error e => rfl
      | ok hb => rw [hb]
    exact Or.inr ⟨w₂, r, t, u', hw₂, ht, hr ▸ hu', hstates⟩

/-- **The tests of edges.** The second script makes a frame and a function, and nothing else. -/
theorem alike_follow (call' : Caller) (h : Setting call cx p w start) (site : Nat) (e : Edge) :
    Alike call cx p w start Bool (pure ((cx.graphs.edge e).label != cx.settings.instanceOfLabel))
      (Run.silent ((Predicate.closure (follower cx.settings site cx.frame)).testEdge call' cx e)) := by
  intro w₁ hw₁ s s' asked hs hleads
  have hchain := hs.store.chain_lt (hw₁.1 h.frame)
  obtain ⟨t', hgrows, ht'⟩ := testEdge_follower call' h.never hchain site e
  exact Or.inr ⟨w₁, _, s, t', asked, le_rfl, rfl, Run.silent_of_some ht', hs.grows hgrows,
    fun _ _ => hleads⟩

/-- **The tests of nodes.** Both come to the same call, unless the node is no document, and the call goes
alike. -/
theorem alike_accept (hhost : host.Parametric) (h : Setting (Value.call host depth) cx p w start)
    (n : Node) :
    Alike (Value.call host depth) cx p w start Bool (askDoc (Value.call host depth) cx p n)
      (askCopy (Value.call host (depth + 1)) cx n) := by
  intro w₁ hw₁ s s' asked hs hleads
  have hcx : w₁.Contexts cx cx := ⟨rfl, rfl, rfl, h.never, h.never, hw₁.1 h.frame⟩
  -- the variable is bound to the closure in the first search, and so it is in the second
  have hp : s'.store.get? cx.frame "p" = some (.closure p) := by
    have hget := hs.store.get? hcx.frame "p"
    rw [h.steady s hleads] at hget
    generalize s'.store.get? cx.frame "p" = v? at hget
    cases hget with
    | some hv => rw [(h.closure.mono hw₁).closure_eq hv]
  obtain ⟨t', hgrows, ht'⟩ := approach_apply host depth h.never (hs.store.chain_lt hcx.frame) hp n
  have hahead : Run.silent (approach (Value.call host (depth + 1)) cx n)
      (s', asked.map (calledOn p)) =
      some (.ok (if (cx.graphs.node n).hasType cx.settings.documentType then
        some (s'.store.frames.size, calledOn p n) else none), t', asked.map (calledOn p)) :=
    Run.silent_of_some ht'
  rw [askDoc, askCopy, Run.bind_apply, hahead]
  by_cases hdocument : (cx.graphs.node n).hasType cx.settings.documentType
  · rw [if_pos hdocument, if_pos hdocument]
    rcases alike_call hhost h hw₁ hs hgrows n s'.store.frames.size with
      ⟨hnone, hnone'⟩ | ⟨w₂, r, t, u', hw₂, ht, hu', hstates⟩
    · exact Or.inl ⟨Run.noted_of_none hnone, Run.noted_of_none hnone'⟩
    · refine Or.inr ⟨w₂, r, t, u', asked ++ [n], hw₂, Run.noted_of_some ht, ?_, hstates,
        fun b hb => hleads.next hdocument (hb ▸ ht)⟩
      rw [List.map_append]
      exact Run.noted_of_some hu'
  · rw [if_neg hdocument, if_neg hdocument]
    exact Or.inr ⟨w₁, .ok false, s, t', asked, le_rfl, rfl, rfl, hs.grows hgrows, fun _ _ => hleads⟩

end Tests

/-! ### Both searches -/

section Scripts

variable {cx : Context} {s : State} {x : String} {S : OrderedSet Node} {p : Closure}
  (hx : s.store.get? cx.frame x = some (.nodes S))

include hx

theorem run_docCode (hp : s.store.get? cx.frame "p" = some (.closure p)) (host : HostLibrary)
    (depth : Nat) :
    (docCode x).run host (depth + 1) cx s =
      Method.run (Value.call host depth) cx [.closure p] (.firstDoc S)
        { s with functions := s.functions + 1 } := by
  let t : State := { s with functions := s.functions + 1 }
  have hmethod : (Expr.select (.variable x ()) "firstDoc" () : Code).eval
      (Value.call host (depth + 1)) cx s =
      some (.ok (.ofMethod s.functions "firstDoc" 1 (some 1) (.firstDoc S)), t) :=
    bind_of_ok (lookup_of_get? hx)
  have hargs : Expr.evalAll (Value.call host (depth + 1)) cx [.variable "p" ()] t =
      some (.ok [.closure p], t) :=
    have hlookup : lookup cx "p" t = some (.ok (.closure p), t) := lookup_of_get? hp
    bind_of_ok hlookup
  exact (bind_of_ok hmethod).trans (bind_of_ok hargs)

theorem run_reachCode (host : HostLibrary) (depth site site' : Nat) :
    (reachCode cx.settings site site' x).run host (depth + 1) cx s =
      Method.run (Value.call host depth) cx [.closure (acceptor cx.settings site cx.frame),
        .closure (follower cx.settings site' cx.frame)] (.firstReachable S)
        { s with functions := s.functions + 1 } := by
  have hmethod : (Expr.select (.variable x ()) "firstReachable" () : Code).eval
      (Value.call host (depth + 1)) cx s =
      some (.ok (.ofMethod s.functions "firstReachable" 1 (some 2) (.firstReachable S)),
        { s with functions := s.functions + 1 }) :=
    bind_of_ok (lookup_of_get? hx)
  exact bind_of_ok hmethod

end Scripts

/-- **Both searches agree.** Let a variable hold a set of nodes, and let the variable `p` hold a closure from
a script, which stays there however often the closure is called. Unless both scripts run out, they end with
the same result, be it a value or an error, and they have called the closure on the same nodes in the same
order. The second script needs one more nested call. -/
theorem firstDoc_firstReachable {host : HostLibrary} (hhost : host.Parametric) {cx : Context}
    (hnever : cx.cancellation = Cancellation.never) {s : State} (hs : s.Whole)
    (hframe : cx.frame < s.store.frames.size) {x : String} {S : OrderedSet Node}
    (hx : s.store.get? cx.frame x = some (.nodes S)) {p : Closure}
    (hp : s.store.get? cx.frame "p" = some (.closure p)) (hscript : p.frame.isSome) (depth : Nat)
    (hsteady : p.Steady (Value.call host depth) cx { s with functions := s.functions + 1 })
    (site site' : Nat) :
    ((docCode x).run host (depth + 1) cx s = none ∧
      (reachCode cx.settings site site' x).run host (depth + 2) cx s = none) ∨
    ∃ r t t' asked,
      (docCode x).run host (depth + 1) cx s = some (r, t) ∧
      (reachCode cx.settings site site' x).run host (depth + 2) cx s = some (r, t') ∧
      askDocs (Value.call host depth) cx p S.toList
        ({ s with functions := s.functions + 1 }, []) = some (r, t, asked) ∧
      askCopies (Value.call host (depth + 1)) cx site' S.toList
        ({ s with functions := s.functions + 1 }, []) = some (r, t', asked.map (calledOn p)) := by
  -- both scripts have made a function, their method, when the searches start
  obtain ⟨w, hw, -, hstates⟩ := hs.states.newFunction
  have hclosure : (Renaming.ofState s).Rel (.closure p) (.closure p) := by
    -- the frame has its own name, and so has what is looked up in it
    have hself : (Renaming.ofState s).frame cx.frame cx.frame := ⟨rfl, hframe⟩
    have hget := hs.states.store.get? hself "p"
    rw [hp] at hget
    cases hget with
    | some hv => exact hv
  have hsetting : Setting (Value.call host depth) cx p w { s with functions := s.functions + 1 } :=
    ⟨hnever, hw.1 ⟨rfl, hframe⟩, hclosure.mono hw, hscript, hsteady⟩
  have halike : Alike (Value.call host depth) cx p w { s with functions := s.functions + 1 } Value
      (askDocs (Value.call host depth) cx p S.toList)
      (askCopies (Value.call host (depth + 1)) cx site' S.toList) :=
    sequential_alike.firstFrom (sequential_alike.firstReachable (alike_accept hhost hsetting)
      (alike_follow _ hsetting site')) S.toList
  -- without the records, these are the runs of the scripts
  rw [run_docCode hx hp, run_reachCode hx, ← forgets_askDocs _ _ _ _ _ [],
    ← forgets_askCopies _ _ _ _ _ _ []]
  rcases halike w le_rfl _ _ [] hstates .start with ⟨hnone, hnone'⟩ |
    ⟨-, r, t, t', asked, -, ht, ht', -⟩
  · left
    rw [hnone]
    exact ⟨rfl, congrArg (Option.map _) hnone'⟩
  · exact Or.inr ⟨r, t, t', asked, congrArg (Option.map _) ht, congrArg (Option.map _) ht', ht, ht'⟩

/-- The closure reads a field of the label of a node. The first document has an empty label, the edge to the
second one is not followed, and a node that is no document leads there, too. It has no label, so that the
closure fails. -/
theorem firstDoc_firstReachable_failing :
    let g := Graph.build
      [{ id := "a", label := some "", types := ["D"] }, { id := "b" }, { id := "c", types := ["D"] }]
      [{ source := 0, sink := 2, label := "I" }, { source := 0, sink := 1, label := "x" },
        { source := 1, sink := 2, label := "x" }]
    let cx : Context :=
      { graphs := { all := #[g] }
        settings := { documentType := "D", instanceOfLabel := "I" }
        frame := 0 }
    let p : Closure :=
      ⟨0, some "n", .select (.select (.variable "n" ()) "label" ()) "length" (), some 0⟩
    let s : State :=
      { store := { frames := #[⟨[], 0, [("x", .ofNode ⟨0, 0⟩), ("p", .closure p)]⟩]
                   owners := #[1] } }
    let error : Error := .unknownSelector "length" .null
    ∃ t t', (docCode "x").run Host.standard 1 cx s = some (.error error, t) ∧
      (reachCode cx.settings 1 2 "x").run Host.standard 2 cx s = some (.error error, t') ∧
      askDocs (Value.call Host.standard 0) cx p [⟨0, 0⟩] ({ s with functions := 1 }, []) =
        some (.error error, t, [⟨0, 0⟩, ⟨0, 2⟩]) ∧
      askCopies (Value.call Host.standard 1) cx 2 [⟨0, 0⟩] ({ s with functions := 1 }, []) =
        some (.error error, t', [calledOn p ⟨0, 0⟩, calledOn p ⟨0, 2⟩]) := by
  intro g cx p s error
  have hwhole : s.Whole := by
    refine ⟨fun f hf => ?_, fun f hf => ?_, fun f hf => ?_⟩
    · obtain rfl : f = 0 := Nat.lt_one_iff.mp hf
      exact fun g hg => absurd hg List.not_mem_nil
    · obtain rfl : f = 0 := Nat.lt_one_iff.mp hf
      rintro b hb c k hc hk
      rcases List.mem_pair.mp hb with rfl | rfl
      · cases hc
      · cases hc
        obtain rfl := Option.some.inj hk
        exact Nat.zero_lt_one
    · obtain rfl : f = 0 := Nat.lt_one_iff.mp hf
      rintro b hb k hk
      rcases List.mem_pair.mp hb with rfl | rfl
      · cases hk
      · cases hk
  have hp : s.store.get? cx.frame "p" = some (.closure p) := rfl
  -- the closure calls nothing, so it cannot bind the variable to something else
  have hsteady : p.Steady (Value.call Host.standard 0) cx { s with functions := 1 } := by
    refine Closure.steady_of_keepsFrames (fun _ _ _ => .exhausted) ?_ hp
    intro f hf
    obtain rfl := List.mem_singleton.mp hf
    exact Nat.zero_lt_one
  have hx : s.store.get? cx.frame "x" = some (.nodes (OrderedSet.singleton ⟨0, 0⟩)) := rfl
  -- the search starts with the edges of the first document, and goes on with the one behind the second
  -- edges are sorted by their sinks, and these two stand the other way round
  have hswap : ∀ (le : Edge → Edge → Bool) (d e : Edge), le d e = false → [d, e].mergeSort le = [e, d] := by
    intro le d e hde
    simp [List.mergeSort, hde]
  have hfirst : cx.graphs.outgoingBySink ⟨0, 0⟩ = [⟨0, 1⟩, ⟨0, 0⟩] := hswap _ _ _ (by decide)
  have hsecond : cx.graphs.outgoingBySink (cx.graphs.sink ⟨0, 1⟩) = [⟨0, 2⟩] := by decide +kernel
  have hrounds : (cx.graphs.graph 0).edges.size = 3 := rfl
  have hasked : (askDocs (Value.call Host.standard 0) cx p [⟨0, 0⟩]
      ({ s with functions := 1 }, [])).map (fun q => (q.1, q.2.2)) =
      some (.error error, [⟨0, 0⟩, ⟨0, 2⟩]) := by
    rw [askDocs, Method.firstFrom, Graphs.firstReachable, hfirst, hrounds]
    simp only [Graphs.search, hsecond]
    refine Run.eq_error_of_map ?_
    rw [Option.map_map]
    decide +kernel
  rcases firstDoc_firstReachable Host.standard_parametric rfl hwhole Nat.zero_lt_one hx hp rfl 0 hsteady
    1 2 with ⟨hnone, -⟩ | ⟨r, t, t', asked, hdoc, hreach, hasks, hasks'⟩
  · -- the run has a result, as the run with the record has one
    rw [run_docCode hx hp, ← forgets_askDocs _ _ _ _ _ [], Option.map_eq_none_iff] at hnone
    rw [show askDocs (Value.call Host.standard 0) cx p [⟨0, 0⟩] ({ s with functions := 1 }, []) = none
      from hnone] at hasked
    exact absurd hasked.symm (Option.some_ne_none _)
  · rw [show askDocs (Value.call Host.standard 0) cx p [⟨0, 0⟩] ({ s with functions := 1 }, []) = _
      from hasks] at hasked
    obtain ⟨rfl, rfl⟩ := Prod.mk.inj (Option.some.inj hasked)
    exact ⟨t, t', hdoc, hreach, hasks, hasks'⟩

/-- The nodes of a value that is a set of them. -/
def nodesOf? : Value → Option (List Node)
  | .nodes ns => some ns.toList
  | _ => none

/-- A result that has the nodes of a set is this set. -/
theorem map_fst_eq_nodes {x : Option (Except Error Value × State)} {ns : OrderedSet Node}
    (h : (x.map fun q => q.1.toOption.bind nodesOf?) = some (some ns.toList)) :
    x.map (·.1) = some (.ok (.nodes ns)) := by
  obtain ⟨⟨r, t⟩, rfl, hr⟩ := Option.map_eq_some_iff.mp h
  obtain ⟨v, hv, hns⟩ := Option.bind_eq_some_iff.mp hr
  have hok : r = .ok v := by
    cases r with
    | error e => exact absurd hv.symm (Option.some_ne_none v)
    | ok a => rw [show a = v from Option.some.inj hv]
  have hnodes : v = .nodes ns := by
    unfold nodesOf? at hns
    split at hns
    · rw [OrderedSet.ext (Option.some.inj hns)]
    · exact absurd hns.symm (Option.some_ne_none _)
  rw [Option.map_some, hok, hnodes]

/-- A closure that binds `p` to a closure that accepts everything, and refuses the node itself. The method
goes on with the closure that it was given, which refuses the second document, too. The script finds it, as
it looks `p` up again. -/
theorem firstDoc_rebound :
    let g := Graph.build [{ id := "a", types := ["D"] }, { id := "b", types := ["D"] }]
      [{ source := 0, sink := 1, label := "x" }]
    let cx : Context :=
      { graphs := { all := #[g] }
        settings := { documentType := "D", instanceOfLabel := "I" }
        frame := 0 }
    let mutate : Function := ⟨0, "mutate", 2, some 2, .host "mutate"⟩
    let s : State :=
      { store := { frames := #[⟨[], 0, [("x", .ofNode ⟨0, 0⟩), ("mutate", .function mutate)]⟩]
                   owners := #[1] }
        functions := 1 }
    let code : Code := .assign (.target "p" ()) (.closure 0 (some "n") (.block
      [.call (.variable "mutate" ()) [.string "p", .closure 1 (some "m") (.bool true)] (),
        .bool false])) ()
    ∃ p t, code.run Host.standard 1 cx s = some (.ok (.closure p), t) ∧ p.frame = some cx.frame ∧
      t.store.get? cx.frame "p" = some (.closure p) ∧
      ((docCode "x").run Host.standard 3 cx t).map (·.1) = some (.ok (.nodes OrderedSet.empty)) ∧
      ((reachCode cx.settings 2 3 "x").run Host.standard 4 cx t).map (·.1) =
        some (.ok (.ofNode ⟨0, 1⟩)) := by
  intro g cx mutate s code
  -- the closure is what the script has bound; both searches are computed up to their nodes
  refine ⟨_, _, rfl, rfl, rfl, map_fst_eq_nodes ?_, map_fst_eq_nodes ?_⟩
  · decide +kernel
  · decide +kernel

end Documents

end GraphQuery
