import GraphQuery.Eval.Basic
import GraphQuery.Value.Collection
import GraphQuery.Value.Equality
import GraphQuery.Value.Selector

/-!
# Evaluating expressions

`Expr.eval` evaluates an expression by recursion on it. What a call does is a parameter, so this
recursion needs no bound of its own: calls are where an evaluation may go on without end, and they
are bounded where the parameter is made.

Statements run in the frame of the context, blocks and calls of closures in a new frame. A closure
looks its variables up in the frame it was created in; one that was not created by a script looks
them up in the frame of its caller.
-/

namespace GraphQuery

/-- The name that a target stands for. -/
def Value.targetName : Value → Except Error String
  | .target name => .ok name
  | v => .error (.notATarget v.kind)

/-- The field or method of a value with a name. -/
def Eval.select (cx : Context) (v : Value) (name : String) : Eval Value := do
  result (v.select cx.graphs (← newFunction) name)

/-- The value as a boolean. -/
def Eval.truth (cx : Context) (v : Value) : Eval Bool := result (v.toBool cx.graphs)

open Eval

mutual

/-- The value of an expression. -/
def Expr.eval (call : Caller) (cx : Context) : Code → Eval Value
  | .null => return .null
  | .bool b => return .bool b
  | .number text => return .number text
  | .string s => return .string s
  | .variable x _ => lookup cx x
  | .target x _ => return .target x
  | .assign t e _ => do
    let name ← result (← t.eval call cx).targetName
    let v ← e.eval call cx
    declare cx.frame name v
    return v
  | .select b name _ => do
    Eval.select cx (← b.eval call cx) name
  | .index b i _ => do
    let base ← b.eval call cx
    let position ← i.eval call cx
    result (base.index cx.graphs position)
  | .and l r => do
    if ← truth cx (← l.eval call cx) then
      return .bool (← truth cx (← r.eval call cx))
    else
      return .bool false
  | .or l r => do
    if ← truth cx (← l.eval call cx) then
      return .bool true
    else
      return .bool (← truth cx (← r.eval call cx))
  | .not e => do
    return .bool (!(← truth cx (← e.eval call cx)))
  | .equality l r negated => do
    let left ← l.eval call cx
    let right ← r.eval call cx
    return .bool ((← result (left.equals cx.graphs right)) != negated)
  | .call f as _ => do
    let function ← f.eval call cx
    let args ← evalAll call cx as
    call cx function args
  | .closure site p b => return .closure ⟨site, p, b, some cx.frame⟩
  | .statements es => evalStatements call cx .null es
  | .block es => do
    let frame ← nest cx.frame
    evalStatements call { cx with frame } .null es

/-- The values of several expressions, from left to right. -/
def Expr.evalAll (call : Caller) (cx : Context) : List Code → Eval (List Value)
  | [] => return []
  | e :: es => do
    let v ← e.eval call cx
    return v :: (← evalAll call cx es)

/-- The value of the last of several statements, or `last` if there is none. There is a check
before each statement. -/
def Expr.evalStatements (call : Caller) (cx : Context) (last : Value) : List Code → Eval Value
  | [] => return last
  | e :: es => do
    check cx "statement"
    let v ← e.eval call cx
    evalStatements call cx v es

end

/-- Evaluates the body of a closure in a new frame in which the parameter is bound. -/
def Closure.invoke (call : Caller) (cx : Context) (c : Closure) (argument : Value) : Eval Value := do
  let frame ← nest (c.frame.getD cx.frame)
  if let some p := c.parameter then declare frame p argument
  c.body.eval call { cx with frame }

end GraphQuery
