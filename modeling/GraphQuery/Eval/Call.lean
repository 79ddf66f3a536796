import GraphQuery.Eval.Method

/-!
# Calls

A function takes a number of arguments within its bounds and a closure takes one at most; other
values cannot be called. `Value.call` bounds how deep calls may nest, and every other recursion of an
evaluation is on the code, so every evaluation ends. An evaluation that runs out of the bound has no
result, and a larger bound may give it one.
-/

namespace GraphQuery

open Eval

/-- Accepts a number of arguments within the bounds of a function. -/
def Function.checkArity (f : Function) (args : List Value) : Except Error Unit :=
  if args.length < f.least then
    .error (.invalidCall (.tooFew f.name f.least args.length))
  else
    match f.most with
    | some most =>
      if most < args.length then .error (.invalidCall (.tooMany f.name most args.length)) else .ok ()
    | none => .ok ()

/-- Calls a function; calls inside go through `next`. -/
def Function.call (host : HostLibrary) (next : Caller) (cx : Context) (f : Function)
    (args : List Value) : Eval Value := do
  result (f.checkArity args)
  match f.action with
  | .method m => m.run next cx args
  | .host behavior => do
    let _ ← record cx (.call behavior args)
    host next cx behavior args

/-- Calls a closure with its argument, which is null if it is missing. -/
def Closure.call (next : Caller) (cx : Context) (c : Closure) (args : List Value) : Eval Value :=
  match args with
  | [] => c.invoke next cx .null
  | [v] => c.invoke next cx v
  | _ :: _ :: _ => throw (.invalidCall (.closureArguments args.length))

/-- Calls a value; calls inside go through `next`. -/
def Value.callWith (host : HostLibrary) (next : Caller) (cx : Context) (v : Value)
    (args : List Value) : Eval Value :=
  match v with
  | .function f => f.call host next cx args
  | .closure c => c.call next cx args
  | v => throw (.notCallable v.kind)

/-- Calls a value, where calls nest at most as deep as the number says. -/
def Value.call (host : HostLibrary) : Nat → Caller
  | 0 => fun _ _ _ => exhausted
  | depth + 1 => fun cx v args => v.callWith host (Value.call host depth) cx args

/-- Evaluates code, where calls nest at most as deep as the number says. -/
def Expr.run (host : HostLibrary) (depth : Nat) (cx : Context) (code : Code) : Eval Value :=
  code.eval (Value.call host depth) cx

end GraphQuery
