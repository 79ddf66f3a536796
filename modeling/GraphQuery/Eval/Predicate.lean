import GraphQuery.Eval.Expr

/-!
# Predicates

A test of nodes or edges that is given as an argument: a closure, a constant, or a string that the
identifier of a node or the label of an edge is compared with.

## Main statements

* `Closure.invoke_matching`: a comparison with a string reads no variable but its own.
-/

namespace GraphQuery

open Eval

/-- A test of nodes or edges. -/
inductive Predicate where
  /-- The truth of what a closure gives. -/
  | closure (closure : Closure)
  /-- Always the same. -/
  | constant (value : Bool)

namespace Predicate

/-- The predicate that an argument of a method stands for; a string is compared with a selector. -/
def ofValue (method selector : String) : Value → Except Error Predicate
  | .closure c => .ok (.closure c)
  | .string s => .ok (.closure (Closure.matching selector s))
  | .bool b => .ok (.constant b)
  | v => .error (.invalidPredicate method v.kind)

/-- A predicate on nodes. -/
def ofNodeValue (method : String) : Value → Except Error Predicate := ofValue method "id"

/-- A predicate on edges. -/
def ofEdgeValue (method : String) : Value → Except Error Predicate := ofValue method "label"

/-- Applies a predicate, with a check before. -/
def test (call : Caller) (cx : Context) (p : Predicate) (v : Value) : Eval Bool := do
  check cx "predicate"
  match p with
  | .closure c => truth cx (← c.invoke call cx v)
  | .constant b => return b

/-- Applies a predicate to a node. -/
def testNode (call : Caller) (cx : Context) (p : Predicate) (n : Node) : Eval Bool :=
  p.test call cx (.ofNode n)

/-- Applies a predicate to an edge. -/
def testEdge (call : Caller) (cx : Context) (p : Predicate) (e : Edge) : Eval Bool :=
  p.test call cx (.ofEdge e)

end Predicate

/-- **A comparison with a string** reads no variable but its own, which it binds in a new frame. -/
theorem Closure.invoke_matching (call : Caller) (cx : Context) (selector text : String) (v : Value)
    (s : State) :
    (matching selector text).invoke call cx v s =
      (do
        let left ← Eval.select cx v selector
        return .bool ((← result (left.equals cx.graphs (.string text))) != false) : Eval Value)
      { s with
        store := (s.store.nest cx.frame).2.declare (s.store.nest cx.frame).1 "n" v } := by
  let frame := (s.store.nest cx.frame).1
  let t : State := { s with store := (s.store.nest cx.frame).2.declare frame "n" v }
  have hframe : frame < (s.store.nest cx.frame).2.frames.size := by
    rw [Store.size_nest]
    exact Nat.lt_succ_self _
  -- in its new frame, the variable is the argument
  have hlookup : lookup { cx with frame } "n" t = some (.ok v, t) := by
    rw [lookup_apply]
    dsimp only [t]
    rw [Store.get?_declare_self _ frame "n" v hframe]
  unfold invoke
  rw [bind_apply, nest_apply]
  change ((lookup { cx with frame } "n" >>= fun w => Eval.select cx w selector) >>= fun left => _) t =
    (Eval.select cx v selector >>= _) t
  rw [bind_apply, bind_apply, hlookup, bind_apply]
  rfl

end GraphQuery
