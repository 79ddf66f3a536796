import GraphQuery.Graph.Search
import GraphQuery.Graph.Walk

/-!
# Filters by name

Tests of nodes and edges that look at one name only, the identifier of a node or the label of an
edge. A filter may also fail at some names. Every question that a filter is asked is noted, so the
order in which a search asks can be seen.
-/

namespace GraphQuery

/-- A search with filters: it notes the questions, the newest first, and may fail with a name. -/
abbrev Observed := ExceptT String (StateM (List String))

/-- Which names are accepted. -/
inductive Acceptance where
  /-- All names or none. -/
  | constant (value : Bool)
  /-- Some names. -/
  | names (names : List String)

/-- A test of names. -/
structure Filter where
  /-- The names that are accepted. -/
  accept : Acceptance := .constant true
  /-- The names at which the test fails. -/
  fail : List String := []

namespace Filter

/-- Asks a filter about a name, and notes the question under a mark. -/
def ask (f : Filter) (mark name : String) : Observed Bool := do
  modify fun seen => (mark ++ name) :: seen
  if name ∈ f.fail then throw name
  match f.accept with
  | .constant b => return b
  | .names names => return names.contains name

/-- Asks about a node. -/
def askNode (gs : Graphs) (f : Filter) (n : Node) : Observed Bool := f.ask "n:" (gs.node n).id

/-- Asks about an edge. -/
def askEdge (gs : Graphs) (f : Filter) (e : Edge) : Observed Bool := f.ask "e:" (gs.edge e).label

end Filter

/-- The outcome of an observed search, and the questions in the order in which they were asked. -/
def Observed.outcome {α : Type} (search : Observed α) : Except String α × List String :=
  let (r, seen) := search.run.run []
  (r, seen.reverse)

namespace Graphs

/-- The first reachable node that one filter accepts, along edges that another one accepts. -/
def observeFirst (gs : Graphs) (nodes edges : Filter) (start : Node) : Observed (Option Node) :=
  gs.firstReachable (nodes.askNode gs) (edges.askEdge gs) start

/-- The nodes that steps, each a filter of edges and one of nodes, lead to. -/
def observeWalk (gs : Graphs) (steps : List (Filter × Filter)) (start : OrderedSet Node) :
    Observed (OrderedSet Node) :=
  gs.walk (steps.map fun s => ⟨s.1.askEdge gs, s.2.askNode gs⟩) start

end Graphs

end GraphQuery
