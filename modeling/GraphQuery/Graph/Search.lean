import GraphQuery.Graph.Element

/-!
# Searching a graph

Two searches from a node. Both keep an agenda of what is left to look at, newest first, and both end
because no node is opened twice: an agenda never receives more than all the edges of the graph, and
that number bounds the rounds.

* `Graphs.firstReachable` goes **depth first** and looks for a node that a test accepts. An edge is
  followed only if a second test says so, and edges are taken in the order of the nodes they arrive
  at. Both tests run in a monad, so they may fail, keep state or be observed; which of them run, and
  in which order, is part of the meaning.
* `Graphs.reach` collects the nodes that are reachable along edges with one label.
-/

namespace GraphQuery.Graphs

/-- The edges that leave a node, by the position of the node they arrive at, and in the order in
which they were added among those that arrive at the same node. -/
def outgoingBySink (gs : Graphs) (n : Node) : List Edge :=
  (gs.outgoing n).mergeSort fun a b => (gs.edge a).sink ≤ (gs.edge b).sink

section FirstReachable

variable {m : Type → Type} [Monad m]

/-- Goes through an agenda of edges, where `seen` holds the nodes that have been tested. An edge to
such a node is passed over without asking `follow`. -/
def search (gs : Graphs) (accept : Node → m Bool) (follow : Edge → m Bool) :
    Nat → List Node → List Edge → m (Option Node)
  | _, _, [] => pure none
  | 0, _, _ :: _ => pure none
  | n + 1, seen, e :: agenda => do
    let node := gs.sink e
    if node ∈ seen then
      search gs accept follow n seen agenda
    else if ← follow e then
      if ← accept node then
        return some node
      else
        search gs accept follow n (node :: seen) (gs.outgoingBySink node ++ agenda)
    else
      search gs accept follow n seen agenda

/-- The first node, depth first from `start`, that `accept` takes; `start` itself is tested first. -/
def firstReachable (gs : Graphs) (accept : Node → m Bool) (follow : Edge → m Bool)
    (start : Node) : m (Option Node) := do
  if ← accept start then
    return some start
  else
    search gs accept follow (gs.graph start.graph).edges.size [start] (gs.outgoingBySink start)

end FirstReachable

/-! ### Reachability along one label -/

/-- The nodes that edges with a label lead to from a node. -/
def successors (gs : Graphs) (label : String) (n : Node) : List Node :=
  ((gs.outgoing n).filter fun e => (gs.edge e).label = label).map gs.sink

/-- Opens the nodes of an agenda, the newest first, and adds each to `found` once. -/
def reachFrom (gs : Graphs) (label : String) : Nat → OrderedSet Node → List Node → OrderedSet Node
  | _, found, [] => found
  | 0, found, _ :: _ => found
  | n + 1, found, node :: agenda =>
    if node ∈ found.toList then
      reachFrom gs label n found agenda
    else
      reachFrom gs label n (found.insert node) ((gs.successors label node).reverse ++ agenda)

/-- The nodes reachable from `start` by edges with a label, `start` included. -/
def reach (gs : Graphs) (label : String) (start : Node) : OrderedSet Node :=
  gs.reachFrom label ((gs.graph start.graph).edges.size + 1) OrderedSet.empty [start]

end GraphQuery.Graphs
