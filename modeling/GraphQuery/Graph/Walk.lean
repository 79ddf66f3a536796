import GraphQuery.Graph.Element

/-!
# Walks

A walk leads from a set of nodes over edges, one step after the other. A **step** has a test for
edges and a test for the nodes they arrive at; both run in a monad, as they do in a search.

From each node of the current set, in order, a step first tests all edges that leave the node, in the
order in which they were added. It then goes through the accepted edges by the position of the node
they arrive at, and adds that node to the next set if it is not in it yet and the node test takes it.
-/

namespace GraphQuery

/-- One step of a walk. -/
structure Step (m : Type → Type) where
  /-- Whether an edge is followed. -/
  follow : Edge → m Bool
  /-- Whether a node is kept. -/
  accept : Node → m Bool

variable {m : Type → Type} [Monad m]

/-- The members of a list that a test takes. -/
def selectM {α : Type} (p : α → m Bool) : List α → m (List α)
  | [] => pure []
  | a :: rest => do
    if ← p a then
      return a :: (← selectM p rest)
    else
      selectM p rest

namespace Graphs

/-- Adds the nodes that edges arrive at, those which are new and which `accept` takes. -/
def arrive (gs : Graphs) (accept : Node → m Bool) :
    OrderedSet Node → List Edge → m (OrderedSet Node)
  | found, [] => pure found
  | found, e :: rest => do
    let node := gs.sink e
    if node ∈ found.toList then
      arrive gs accept found rest
    else if ← accept node then
      arrive gs accept (found.insert node) rest
    else
      arrive gs accept found rest

/-- Takes one step from each of several nodes. -/
def stepFrom (gs : Graphs) (step : Step m) :
    OrderedSet Node → List Node → m (OrderedSet Node)
  | found, [] => pure found
  | found, node :: rest => do
    let edges ← selectM step.follow (gs.outgoing node)
    let sorted := edges.mergeSort fun a b => (gs.edge a).sink ≤ (gs.edge b).sink
    stepFrom gs step (← gs.arrive step.accept found sorted) rest

/-- The nodes that the steps lead to from the nodes of a set. -/
def walk (gs : Graphs) : List (Step m) → OrderedSet Node → m (OrderedSet Node)
  | [], nodes => pure nodes
  | step :: steps, nodes => do
    gs.walk steps (← gs.stepFrom step OrderedSet.empty nodes.toList)

end Graphs

end GraphQuery
