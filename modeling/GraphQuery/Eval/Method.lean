import GraphQuery.Eval.Predicate
import GraphQuery.Graph.Search
import GraphQuery.Graph.Walk

/-!
# Methods

What the methods of strings and of sets of nodes do. The methods of strings look at their arguments
only, and at the patterns of the context. The methods of nodes search the graph with predicates, each test of which may evaluate a
closure, make checks and fail; a failure ends the search at once.
-/

namespace GraphQuery

open Eval

/-- The first of several arguments, and the others. -/
def takeArgument : List Value → Except Error (Value × List Value)
  | [] => .error (.invalidCall .missingParameter)
  | v :: rest => .ok (v, rest)

/-- Accepts that no argument is left. -/
def noArguments : List Value → Except Error Unit
  | [] => .ok ()
  | _ :: _ => .error (.invalidCall .extraParameter)

/-- The text of the only argument. -/
def textArgument (args : List Value) : Except Error String := do
  let (v, rest) ← takeArgument args
  let text ← v.toText
  noArguments rest
  return text

namespace Method

/-! ### Strings -/

/-- Whether a text contains a match of a pattern. -/
def occurs (matcher : Matcher) (text : String) (args : List Value) : Except Error Value := do
  let pattern ← textArgument args
  match matcher pattern with
  | some occursIn => return .bool (occursIn text)
  | none => throw (.invalidPattern pattern)

/-- Whether a string is among others. -/
def isAmong (strings : List String) (args : List Value) : Except Error Value := do
  return .bool (strings.contains (← textArgument args))

/-- Whether some string of some argument is among others. -/
def someAmong (strings : List String) (args : List Value) : Except Error Value := do
  let groups ← args.mapM Value.toStrings
  return .bool (groups.any fun ss => ss.any strings.contains)

/-- Whether all strings of all arguments are among others. -/
def allAmong (strings : List String) (args : List Value) : Except Error Value := do
  let groups ← args.mapM Value.toStrings
  return .bool (groups.all fun ss => ss.all strings.contains)

/-! ### Nodes -/

/-- The first node that a search finds from one of several starts, as a set. -/
def firstFrom {m : Type → Type} [Monad m] (find : Node → m (Option Node)) : List Node → m Value
  | [] => return .nodes OrderedSet.empty
  | start :: rest => do
    match ← find start with
    | some n => return .ofNode n
    | none => firstFrom find rest

/-- The first reachable node that a predicate accepts, along edges that a second one accepts. -/
def runFirstReachable (call : Caller) (cx : Context) (nodes : OrderedSet Node) (args : List Value) :
    Eval Value := do
  let (v, rest) ← result (takeArgument args)
  let accept ← result (Predicate.ofNodeValue "firstReachable" v)
  let follow ← match rest with
    | [] => pure (Predicate.constant true)
    | w :: _ => result (Predicate.ofEdgeValue "firstReachable" w)
  firstFrom
    (cx.graphs.firstReachable (accept.testNode call cx) (follow.testEdge call cx)) nodes.toList

/-- The first reachable document that a predicate accepts. Edges from an instance to its class are
not followed. -/
def runFirstDoc (call : Caller) (cx : Context) (nodes : OrderedSet Node) (args : List Value) :
    Eval Value := do
  let (v, rest) ← result (takeArgument args)
  let predicate ← result (Predicate.ofNodeValue "firstDoc" v)
  result (noArguments rest)
  let accept (n : Node) : Eval Bool := do
    if (cx.graphs.node n).hasType cx.settings.documentType then
      predicate.testNode call cx n
    else
      return false
  let follow (e : Edge) : Eval Bool :=
    return (cx.graphs.edge e).label != cx.settings.instanceOfLabel
  firstFrom (cx.graphs.firstReachable accept follow) nodes.toList

/-- Whether a node is an instance of a class, directly or not. -/
def isInstance (cx : Context) (id : String) (n : Node) : Bool :=
  (cx.graphs.reach cx.settings.instanceOfLabel n).toList.any fun c => (cx.graphs.node c).id == id

/-- The nodes that are instances of a class; there is a check before each node. -/
def runInstanceOf (cx : Context) (nodes : OrderedSet Node) (args : List Value) : Eval Value := do
  let id ← result (textArgument args)
  let test (n : Node) : Eval Bool := do
    check cx "instanceOf"
    return isInstance cx id n
  return .nodes (OrderedSet.ofList (← selectM test nodes.toList))

/-- The steps of a walk: edges and nodes take turns, and a missing last test accepts all nodes. -/
def walkSteps : List Value → Except Error (List (Predicate × Predicate))
  | [] => .ok []
  | [e] => do return [(← Predicate.ofEdgeValue "walk" e, .constant true)]
  | e :: n :: rest => do
    let follow ← Predicate.ofEdgeValue "walk" e
    let accept ← Predicate.ofNodeValue "walk" n
    return (follow, accept) :: (← walkSteps rest)

/-- The nodes that steps lead to. -/
def runWalk (call : Caller) (cx : Context) (nodes : OrderedSet Node) (args : List Value) :
    Eval Value := do
  let steps ← result (walkSteps args)
  let found ← cx.graphs.walk
    (steps.map fun s => ⟨s.1.testEdge call cx, s.2.testNode call cx⟩) nodes
  return .nodes found

/-- What a call of a method does. -/
def run (call : Caller) (cx : Context) (args : List Value) : Method → Eval Value
  | .matches text => result (occurs cx.matcher text args)
  | .has strings => result (isAmong strings args)
  | .hasAny strings => result (someAmong strings args)
  | .hasAll strings => result (allAmong strings args)
  | .firstReachable nodes => runFirstReachable call cx nodes args
  | .firstDoc nodes => runFirstDoc call cx nodes args
  | .instanceOf nodes => runInstanceOf cx nodes args
  | .walk nodes => runWalk call cx nodes args

end Method

end GraphQuery
