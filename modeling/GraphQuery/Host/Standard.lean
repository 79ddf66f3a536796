import GraphQuery.Eval.Call
import GraphQuery.Value.Printer

/-!
# The standard functions of a host

A host may put functions into scope that give scripts access to what the language itself lacks: the
scope of the caller, the operations on values, and a place to write notes.

A function takes its parameters one by one and then insists that none is left, before it does
anything. Some take any number of parameters instead.
-/

namespace GraphQuery.Host

open Eval

/-- What a call of a function of the host does with its arguments. -/
abbrev Meaning := Caller → Context → List Value → Eval Value

/-! ### Parameters -/

/-- Insists on no parameter. -/
def parameterless (f : Context → Eval Value) : Meaning := fun _ cx args => do
  result (noArguments args)
  f cx

/-- Takes one parameter. -/
def unary (f : Context → Value → Eval Value) : Meaning := fun _ cx args => do
  let (v, rest) ← result (takeArgument args)
  result (noArguments rest)
  f cx v

/-- Takes two parameters, and may call values. -/
def calling (f : Caller → Context → Value → Value → Eval Value) : Meaning := fun call cx args => do
  let (v, rest) ← result (takeArgument args)
  let (w, rest) ← result (takeArgument rest)
  result (noArguments rest)
  f call cx v w

/-- Takes two parameters. -/
def binary (f : Context → Value → Value → Eval Value) : Meaning := calling fun _ => f

/-! ### Notes -/

/-- Notes the text of a value. -/
def note (cx : Context) (v : Value) : Eval Value := do
  modify fun s => { s with notes := v.display cx.graphs :: s.notes }
  return v

/-- Gives its first parameter and ignores the others. -/
def first : Meaning := fun _ _ args => do
  let (v, _) ← result (takeArgument args)
  return v

/-! ### The scope of the caller -/

/-- The value of a variable, or null. -/
def lookupVariable (cx : Context) (name : Value) : Eval Value := do
  let x ← result name.toText
  return ((← get).store.get? cx.frame x).getD .null

/-- Whether the frame of the caller itself binds a variable. -/
def isLocal (cx : Context) (name : Value) : Eval Value := do
  let x ← result name.toText
  return .bool ((← get).store.local? cx.frame x).isSome

/-- Binds a variable in the frame of the caller. -/
def declareVariable (cx : Context) (name v : Value) : Eval Value := do
  declare cx.frame (← result name.toText) v
  return v

/-- Changes a variable where it is bound. -/
def mutateVariable (cx : Context) (name v : Value) : Eval Value := do
  let x ← result name.toText
  match (← get).store.assign? cx.frame x v with
  | some store =>
    modify fun s => { s with store }
    return v
  | none => throw (.unknownIdentifier x)

/-- The frame of the caller and those around it, as text. -/
def frames (cx : Context) : Eval Value := do
  return .string ((← get).store.debug cx.frame)

/-! ### Calls -/

/-- Calls a function for every element of a collection and adds up the results. -/
def iterate (call : Caller) (cx : Context) (v f : Value) : Eval Value :=
  v.iterate fun e => call cx f [e]

/-- Calls a function with the elements of a list, or with one value that is no list. -/
def apply (call : Caller) (cx : Context) (f args : Value) : Eval Value :=
  match args with
  | .list vs => call cx f vs
  | v => call cx f [v]

/-- Calls a function in a frame of its own. -/
def nested : Meaning := fun call cx args => do
  let (f, rest) ← result (takeArgument args)
  result (noArguments rest)
  let frame ← nest cx.frame
  call { cx with frame } f []

/-! ### Values -/

/-- What can be known about a callable without calling it. -/
def info : Value → Value
  | .closure c => .ofString? c.parameter
  | .function f => .list [.string f.name, .ofNat f.least, (f.most.map Value.ofNat).getD .null]
  | _ => .null

/-- The strings of all arguments. -/
def strings : Meaning := fun _ _ args => do
  return .strings (← result (args.mapM Value.toText))

/-- The functions, by name. -/
def standardTable : List (String × Meaning) :=
  [("record", unary note),
   ("first", first),
   ("lookup", unary lookupVariable),
   ("local", unary isLocal),
   ("declare", binary declareVariable),
   ("mutate", binary mutateVariable),
   ("frames", parameterless frames),
   ("check", parameterless fun cx => do check cx "host"; return .bool true),
   ("iterate", calling iterate),
   ("add", binary fun _ v w => result (v.add w)),
   ("equals", binary fun cx v w => return .bool (← result (v.equals cx.graphs w))),
   ("index", binary fun cx v w => result (v.index cx.graphs w)),
   ("same", binary fun cx v w => return .bool (v.same cx.graphs w)),
   ("select", binary fun cx v w => do Eval.select cx v (← result w.toText)),
   ("bool", unary fun cx v => return .bool (← truth cx v)),
   ("int", unary fun _ v => return .ofInt (← result v.toInt)),
   ("string", unary fun _ v => return .string (← result v.toText)),
   ("type", unary fun _ v => return .string v.kind.name),
   ("display", unary fun cx v => return .string (v.display cx.graphs)),
   ("json", unary fun cx v => return .string (v.json cx.graphs)),
   ("debug", unary fun cx v => return .string (v.debug cx.graphs)),
   ("apply", calling apply),
   ("nest", nested),
   ("info", unary fun _ v => return info v),
   ("list", fun _ _ args => return .list args),
   ("strings", strings),
   ("count", fun _ _ args => return .ofNat args.length)]

/-- The standard functions; a name that none has stands for a function that gives null. -/
def standard : HostLibrary := fun call cx name args =>
  match standardTable.lookup name with
  | some meaning => meaning call cx args
  | none => return .null

theorem standard_cases (name : String) :
    (∃ meaning, (name, meaning) ∈ standardTable ∧
      ∀ call cx args, standard call cx name args = meaning call cx args) ∨
    ∀ call cx args, standard call cx name args = pure .null := by
  rcases hlookup : standardTable.lookup name with _ | meaning
  · refine Or.inr fun call cx args => ?_
    rw [standard, hlookup]
  · obtain ⟨before, after, htable, -⟩ := List.lookup_eq_some_iff.mp hlookup
    refine Or.inl ⟨meaning, ?_, fun call cx args => ?_⟩
    · rw [htable]
      exact List.mem_append_right _ List.mem_cons_self
    · rw [standard, hlookup]

end GraphQuery.Host
