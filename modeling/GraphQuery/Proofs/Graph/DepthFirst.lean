import Mathlib.Algebra.GroupWithZero.Nat
import Mathlib.Algebra.Order.BigOperators.Group.List
import Mathlib.Algebra.Order.Group.Nat
import GraphQuery.Proofs.Eval.Record
import GraphQuery.Proofs.Graph.Reachability

/-!
# Depth-first search as a recursion

The search for a node goes through an agenda of edges in a loop. This module says that it does the same,
test for test, as the textbook recursion: **visit** a node by marking and testing it, and then **explore**
the edges that leave it, visiting the node behind each edge that is accepted and leads to a node without a
mark (`Graphs.visit`, `Graphs.explore`).

The two are equal as computations of any lawful monad. So they make the same tests in the same order
whatever the tests do: if they keep state, if they fail, or if somebody listens. The agenda of the loop is
what the calls of the recursion that have not returned still have before them: a loop that starts with
more edges on its agenda explores the first ones and goes on with the others, with the marks that have been
made on the way (`Graphs.searchAll_append`).

The recursion ends on every graph, because the edges of a node stop being unexplored when the node is marked
(`Graphs.length_add_unexplored_le`), and a visit hands back the proof that it has only added marks. The
loop has a bound on its rounds instead, which never makes a difference (`Graphs.search_rounds`).

Which tests a run makes can be read off a **record** that is kept beside its state. Every question is in it
once.

## Main statements

* `Graphs.firstReachable_eq_depthFirst`: the loop and the recursion.
* `Graphs.AskInv`: the questions that have been asked against what is still on the agenda.
* `firstReachable_depthFirst`: both together.
-/

namespace GraphQuery

namespace Graphs

/-! ### How much is left to explore -/

/-- All nodes of all graphs. -/
def allNodes (gs : Graphs) : List Node :=
  (List.range gs.all.size).flatMap fun i => (List.range (gs.graph i).nodes.size).map (⟨i, ·⟩)

/-- The number of edges that leave nodes which are not marked. -/
def unexplored (gs : Graphs) (seen : List Node) : Nat :=
  (gs.allNodes.map fun n => if n ∈ seen then 0 else (gs.outgoing n).length).sum

/-- A node that is not there has no edges. -/
theorem outgoing_eq_nil {gs : Graphs} {n : Node} (hn : n ∉ gs.allNodes) : gs.outgoing n = [] := by
  have hsize : (gs.graph n.graph).nodes.size ≤ n.index := by
    by_contra hlt
    apply hn
    by_cases hgraph : n.graph < gs.all.size
    · exact List.mem_flatMap.mpr ⟨n.graph, List.mem_range.mpr hgraph,
        List.mem_map.mpr ⟨n.index, List.mem_range.mpr (Nat.lt_of_not_le hlt), rfl⟩⟩
    · -- past the last graph there are only empty ones
      have hempty : gs.graph n.graph = {} := by
        unfold graph
        rw [Array.getD_eq_getD_getElem?, Array.getElem?_eq_none (Nat.le_of_not_lt hgraph)]
        rfl
      rw [hempty] at hlt
      exact absurd (Nat.zero_le _) hlt
  rw [outgoing, node_of_size_le hsize]
  rfl

/-- With more marks, no node counts for more. -/
theorem weight_le (gs : Graphs) {seen now : List Node} (h : seen ⊆ now) (n : Node) :
    (if n ∈ now then 0 else (gs.outgoing n).length) ≤
      if n ∈ seen then 0 else (gs.outgoing n).length := by
  by_cases hnow : n ∈ now
  · rw [if_pos hnow]
    exact Nat.zero_le _
  · rw [if_neg hnow, if_neg fun hseen => hnow (h hseen)]

/-- Marking more nodes leaves less to explore. -/
theorem unexplored_le (gs : Graphs) {seen now : List Node} (h : seen ⊆ now) :
    gs.unexplored now ≤ gs.unexplored seen :=
  List.sum_le_sum fun n _ => gs.weight_le h n

/-- Marking a node takes its edges out of what is left. -/
theorem length_add_unexplored_le (gs : Graphs) {n : Node} {seen : List Node} (hn : n ∉ seen) :
    (gs.outgoingBySink n).length + gs.unexplored (n :: seen) ≤ gs.unexplored seen := by
  rw [outgoingBySink, List.length_mergeSort]
  by_cases hall : n ∈ gs.allNodes
  · -- the other nodes count for no more than before, and this one for nothing
    obtain ⟨before, after, hsplit⟩ := List.append_of_mem hall
    have hgrown : seen ⊆ n :: seen := List.subset_cons_self n seen
    have hbefore := List.sum_le_sum fun k (_ : k ∈ before) => gs.weight_le hgrown k
    have hafter := List.sum_le_sum fun k (_ : k ∈ after) => gs.weight_le hgrown k
    unfold unexplored
    rw [hsplit]
    simp only [List.map_append, List.map_cons, List.sum_append, List.sum_cons,
      if_pos (List.mem_cons_self : n ∈ n :: seen), if_neg hn]
    omega
  · rw [outgoing_eq_nil hall, List.length_nil, Nat.zero_add]
    exact gs.unexplored_le (List.subset_cons_self n seen)

/-! ### The recursion -/

/-- How a visit ends: with a node that was accepted, or with more marks. -/
inductive Visit (seen : List Node) where
  /-- A node was accepted. -/
  | found (n : Node)
  /-- No node was, and these are marked now. -/
  | marked (now : List Node) (grown : seen ⊆ now)

/-- The end of a visit, for one who started with fewer marks. -/
def Visit.since {seen now : List Node} (grown : seen ⊆ now) : Visit now → Visit seen
  | .found n => .found n
  | .marked later h => .marked later (List.Subset.trans grown h)

/-- The node that was accepted. -/
def Visit.node? {seen : List Node} : Visit seen → Option Node
  | .found n => some n
  | .marked .. => none

section Recursion

variable {m : Type → Type} [Monad m]

mutual

/-- Marks a node that is not marked yet, tests it, and explores the edges that leave it. -/
def visit (gs : Graphs) (accept : Node → m Bool) (follow : Edge → m Bool) (seen : List Node)
    (n : Node) (_hn : n ∉ seen) : m (Visit seen) := do
  if ← accept n then
    return .found n
  else
    return (← explore gs accept follow (n :: seen) (gs.outgoingBySink n)).since
      (List.subset_cons_self n seen)
  termination_by (gs.unexplored seen, 1)
  decreasing_by
    -- the edges of the node were unexplored and are so no more
    have hless := gs.length_add_unexplored_le _hn
    rw [Prod.lex_iff]
    omega

/-- Goes through edges, and visits what is behind those that are accepted. -/
def explore (gs : Graphs) (accept : Node → m Bool) (follow : Edge → m Bool) (seen : List Node) :
    List Edge → m (Visit seen)
  | [] => return .marked seen (List.Subset.refl seen)
  | e :: rest =>
    if hseen : gs.sink e ∈ seen then
      explore gs accept follow seen rest
    else do
      if ← follow e then
        match ← visit gs accept follow seen (gs.sink e) hseen with
        | .found n => return .found n
        | .marked now grown => return (← explore gs accept follow now rest).since grown
      else
        explore gs accept follow seen rest
  termination_by edges => (gs.unexplored seen + edges.length, 0)
  decreasing_by
    · rw [Prod.lex_iff, List.length_cons]
      omega
    · rw [Prod.lex_iff, List.length_cons]
      omega
    · -- a visit has only added marks
      have hless := gs.unexplored_le grown
      rw [Prod.lex_iff, List.length_cons]
      omega
    · rw [Prod.lex_iff, List.length_cons]
      omega

end

/-- The recursive search from a node, with nothing marked before. -/
def depthFirst (gs : Graphs) (accept : Node → m Bool) (follow : Edge → m Bool) (start : Node) :
    m (Option Node) :=
  return (← gs.visit accept follow [] start List.not_mem_nil).node?

end Recursion

/-! ### Rounds of the loop -/

section Rounds

variable {gs : Graphs} {m : Type → Type} [Monad m] {accept : Node → m Bool} {follow : Edge → m Bool}

/-- The edges belong to one graph. -/
def Among (i : Nat) (edges : List Edge) : Prop := ∀ e ∈ edges, e.graph = i

/-- Edges stay in the graph of their node. -/
theorem among_outgoingBySink (gs : Graphs) (n : Node) : Among n.graph (gs.outgoingBySink n) := by
  intro e he
  obtain ⟨p, -, rfl⟩ := List.mem_map.mp (List.mem_mergeSort.mp he)
  rfl

/-- The agenda after the node behind an edge has been opened. -/
theorem Among.opened {i : Nat} {e : Edge} {agenda : List Edge} (he : e.graph = i)
    (hagenda : Among i agenda) : Among i (gs.outgoingBySink (gs.sink e) ++ agenda) :=
  List.forall_mem_append.mpr ⟨he ▸ gs.among_outgoingBySink (gs.sink e), hagenda⟩

/-- Opening a node uses up no more rounds than are there for its edges. -/
theorem rounds_opened (hgs : gs.Consistent) {i : Nat} {e : Edge} (he : e.graph = i) {seen : List Node}
    (hseen : gs.sink e ∉ seen) (agenda : List Edge) :
    (gs.outgoingBySink (gs.sink e) ++ agenda).length + gs.unopened i (gs.sink e :: seen) =
      agenda.length + gs.unopened i seen := by
  subst he
  have hmove : (gs.outgoingBySink (gs.sink e)).length + gs.unopened e.graph (gs.sink e :: seen) =
      gs.unopened e.graph seen := length_outgoingBySink_add_unopened hgs hseen
  rw [List.length_append]
  omega

/-- More rounds than there are edges left and edges unopened make no difference. -/
theorem search_rounds (hgs : gs.Consistent) {i k k' : Nat} {seen : List Node} {agenda : List Edge}
    (hagenda : Among i agenda) (hk : agenda.length + gs.unopened i seen ≤ k)
    (hk' : agenda.length + gs.unopened i seen ≤ k') :
    gs.search accept follow k seen agenda = gs.search accept follow k' seen agenda := by
  induction k generalizing k' seen agenda with
  | zero =>
    obtain rfl : agenda = [] := List.eq_nil_of_length_eq_zero (by omega)
    cases k' <;> rfl
  | succ k ih =>
    cases agenda with
    | nil => cases k' <;> rfl
    | cons e agenda =>
      rw [List.length_cons] at hk hk'
      obtain ⟨k', rfl⟩ : ∃ j, k' = j + 1 := ⟨k' - 1, by omega⟩
      obtain ⟨he, hagenda⟩ := List.forall_mem_cons.mp hagenda
      have hskip : gs.search accept follow k seen agenda = gs.search accept follow k' seen agenda :=
        ih hagenda (by omega) (by omega)
      -- the edge is passed over or opened, and both leave fewer edges than the bounds allow rounds
      rw [search, search, hskip]
      by_cases hseen : gs.sink e ∈ seen
      · rw [if_pos hseen, if_pos hseen]
      · have hrounds := rounds_opened hgs he hseen agenda
        have hopen : gs.search accept follow k (gs.sink e :: seen)
              (gs.outgoingBySink (gs.sink e) ++ agenda) =
            gs.search accept follow k' (gs.sink e :: seen)
              (gs.outgoingBySink (gs.sink e) ++ agenda) :=
          ih (.opened he hagenda) (by omega) (by omega)
        rw [hopen]

/-- The search with as many rounds as it can need. -/
def searchAll (gs : Graphs) (accept : Node → m Bool) (follow : Edge → m Bool) (i : Nat)
    (seen : List Node) (agenda : List Edge) : m (Option Node) :=
  gs.search accept follow (agenda.length + gs.unopened i seen) seen agenda

/-- One round of such a search. -/
theorem searchAll_cons (hgs : gs.Consistent) {i : Nat} {seen : List Node} {e : Edge}
    {agenda : List Edge} (he : e.graph = i) (hagenda : Among i agenda) :
    gs.searchAll accept follow i seen (e :: agenda) =
      if gs.sink e ∈ seen then
        gs.searchAll accept follow i seen agenda
      else (do
        if ← follow e then
          if ← accept (gs.sink e) then
            return some (gs.sink e)
          else
            gs.searchAll accept follow i (gs.sink e :: seen)
              (gs.outgoingBySink (gs.sink e) ++ agenda)
        else
          gs.searchAll accept follow i seen agenda) := by
  have hrounds : (e :: agenda).length + gs.unopened i seen =
      agenda.length + gs.unopened i seen + 1 := by
    rw [List.length_cons]
    omega
  rw [searchAll, hrounds, search]
  by_cases hseen : gs.sink e ∈ seen
  · rw [if_pos hseen, if_pos hseen]
    rfl
  · have hopen : gs.search accept follow (agenda.length + gs.unopened i seen) (gs.sink e :: seen)
          (gs.outgoingBySink (gs.sink e) ++ agenda) =
        gs.searchAll accept follow i (gs.sink e :: seen)
          (gs.outgoingBySink (gs.sink e) ++ agenda) :=
      search_rounds hgs (.opened he hagenda) (Nat.le_of_eq (rounds_opened hgs he hseen agenda))
        (Nat.le_refl _)
    rw [if_neg hseen, if_neg hseen, hopen]
    rfl

/-! ### The loop and the recursion -/

variable [LawfulMonad m]

/-- **An agenda is a stack of calls.** A loop that has some edges before the rest of its agenda explores
them as the recursion does, and goes on with the rest if no node was found. -/
theorem searchAll_append (hgs : gs.Consistent) {i : Nat} {seen : List Node} {edges agenda : List Edge}
    (hedges : Among i edges) (hagenda : Among i agenda) :
    gs.searchAll accept follow i seen (edges ++ agenda) = (do
      match ← gs.explore accept follow seen edges with
      | .found n => return some n
      | .marked now _ => gs.searchAll accept follow i now agenda) := by
  -- the induction follows the recursion, by what is left to explore
  induction hsize : gs.unexplored seen + edges.length using Nat.strongRecOn
    generalizing seen edges agenda with
  | ind size ih =>
    cases edges with
    | nil => rw [explore, List.nil_append, pure_bind]
    | cons e rest =>
      obtain ⟨he, hrest⟩ := List.forall_mem_cons.mp hedges
      have hboth : Among i (rest ++ agenda) := List.forall_mem_append.mpr ⟨hrest, hagenda⟩
      rw [List.length_cons] at hsize
      have hskip := ih (gs.unexplored seen + rest.length) (by omega) hrest hagenda rfl
      rw [List.cons_append, searchAll_cons hgs he hboth, explore, hskip]
      -- an edge that leads to a mark is passed over by both
      by_cases hseen : gs.sink e ∈ seen
      · rw [if_pos hseen, dif_pos hseen]
      · rw [if_neg hseen, dif_neg hseen, bind_assoc]
        congr 1
        funext followed
        cases followed with
        | false => rfl
        | true =>
          simp only [if_true]
          -- the recursion visits the node where the loop tests it
          rw [visit, bind_assoc, bind_assoc]
          congr 1
          funext accepted
          cases accepted with
          | true => simp only [if_true, pure_bind]
          | false =>
            -- the edges of the node come before the rest, and then the marks are those it has left
            have hless := gs.length_add_unexplored_le hseen
            have hinner := ih (gs.unexplored (gs.sink e :: seen) +
              (gs.outgoingBySink (gs.sink e)).length) (by omega)
              (he ▸ gs.among_outgoingBySink (gs.sink e)) hboth rfl
            simp only [Bool.false_eq_true, if_false, bind_assoc, pure_bind]
            rw [hinner]
            congr 1
            funext ended
            cases ended with
            | found n => simp only [Visit.since, pure_bind]
            | marked now grown =>
              have hgrown : seen ⊆ now := List.Subset.trans (List.subset_cons_self _ _) grown
              have hless := gs.unexplored_le hgrown
              simp only [Visit.since, bind_assoc, pure_bind]
              rw [ih (gs.unexplored now + rest.length) (by omega) hrest hagenda rfl]
              congr 1
              funext ended
              cases ended <;> rfl

/-- The loop has a round for each edge that it can come to. -/
theorem rounds_start (hgs : gs.Consistent) (start : Node) :
    (gs.graph start.graph).edges.size =
      (gs.outgoingBySink start).length + gs.unopened start.graph [start] := by
  rw [← unopened_nil, length_outgoingBySink_add_unopened hgs List.not_mem_nil]

/-- **The loop is the recursion.** -/
theorem firstReachable_eq_depthFirst (hgs : gs.Consistent) (accept : Node → m Bool)
    (follow : Edge → m Bool) (start : Node) :
    gs.firstReachable accept follow start = gs.depthFirst accept follow start := by
  -- the loop starts where the recursion has tested the first node
  have hloop : gs.search accept follow (gs.graph start.graph).edges.size [start]
        (gs.outgoingBySink start) =
      gs.explore accept follow [start] (gs.outgoingBySink start) >>= fun ended =>
        pure ended.node? := by
    calc
      gs.search accept follow (gs.graph start.graph).edges.size [start] (gs.outgoingBySink start) =
          gs.searchAll accept follow start.graph [start] (gs.outgoingBySink start ++ []) := by
        rw [searchAll, List.append_nil, rounds_start hgs]
      _ = _ := searchAll_append hgs (gs.among_outgoingBySink start) (List.forall_mem_nil _)
      _ = _ := by
        congr 1
        funext ended
        cases ended with
        | found n => rfl
        | marked now _ =>
          show gs.searchAll accept follow start.graph now [] = pure none
          unfold searchAll search
          rfl
  rw [firstReachable, depthFirst, visit, bind_assoc]
  congr 1
  funext accepted
  cases accepted with
  | true => simp only [if_true, pure_bind, Visit.node?]
  | false =>
    simp only [Bool.false_eq_true, if_false, bind_assoc, pure_bind, hloop]
    congr 1
    funext ended
    cases ended <;> rfl

end Rounds

/-! ### The order of the edges -/

/-- Sorting does not change the order among the edges that arrive at one node. -/
theorem filter_outgoingBySink (gs : Graphs) (n : Node) (v : Nat) :
    (gs.outgoingBySink n).filter (fun e => (gs.edge e).sink = v) =
      (gs.outgoing n).filter fun e => (gs.edge e).sink = v := by
  have hfirst : ((gs.outgoing n).filter fun e => (gs.edge e).sink = v).Sublist
      (gs.outgoingBySink n) := by
    apply List.sublist_mergeSort ?_ ?_ ?_ List.filter_sublist
    · simpa using fun a b c => Nat.le_trans
    · simpa using fun a b => Nat.le_total _ _
    · simp only [decide_eq_true_eq]
      -- between edges to one node the order holds both ways, so none of them is moved
      refine List.pairwise_of_forall_mem_list fun d hd e he => ?_
      rw [of_decide_eq_true (List.mem_filter.mp hd).2, of_decide_eq_true (List.mem_filter.mp he).2]
  have hsublist := hfirst.filter fun e => (gs.edge e).sink = v
  rw [List.filter_filter] at hsublist
  simp only [Bool.and_self] at hsublist
  exact (hsublist.eq_of_length (((List.mergeSort_perm _ _).filter _).length_eq).symm).symm

section Order

variable {gs : Graphs} (hgs : gs.Consistent)

include hgs

/-- The edges of a node are there in the order in which they were added. -/
theorem pairwise_outgoing (n : Node) : (gs.outgoing n).Pairwise fun d e => d.index < e.index := by
  rw [outgoing_eq hgs]
  exact List.pairwise_map.mpr (Graph.pairwise_positions _ _ _)

/-- No edge is there twice. -/
theorem nodup_outgoingBySink (n : Node) : (gs.outgoingBySink n).Nodup := by
  rw [outgoingBySink, (List.mergeSort_perm _ _).nodup_iff]
  refine (pairwise_outgoing hgs n).imp ?_
  rintro d _ hlt rfl
  exact Nat.lt_irrefl _ hlt

/-- **Edges are sorted stably:** by the node that they arrive at, and in the order in which they were
added where this is the same node. -/
theorem pairwise_outgoingBySink (n : Node) :
    (gs.outgoingBySink n).Pairwise fun d e =>
      (gs.edge d).sink < (gs.edge e).sink ∨
        (gs.edge d).sink = (gs.edge e).sink ∧ d.index < e.index := by
  have hadded := pairwise_outgoing hgs n
  have hsorted : (gs.outgoingBySink n).Pairwise _ := gs.pairwise_mergeSort_sink (gs.outgoing n)
  rw [List.pairwise_iff_forall_sublist] at hadded hsorted ⊢
  intro d e hde
  rcases Nat.lt_or_eq_of_le (hsorted hde) with hlt | heq
  · exact Or.inl hlt
  · -- two edges to one node are left by a filter that keeps the order in which they were added
    have hkept := hde.filter fun a => (gs.edge a).sink = (gs.edge e).sink
    rw [filter_outgoingBySink] at hkept
    simp only [List.filter_cons, heq, decide_true, if_true, List.filter_nil] at hkept
    exact Or.inr ⟨heq, hadded (hkept.trans List.filter_sublist)⟩

end Order

/-! ### Questions -/

/-- A question that a search asks one of its tests. -/
inductive Query where
  /-- Whether a node is accepted. -/
  | node (n : Node)
  /-- Whether an edge is followed. -/
  | edge (e : Edge)
  deriving DecidableEq

/-- The search with a record of its questions. -/
def askFirst {ε σ : Type} (gs : Graphs) (accept : Node → Run ε σ Bool) (follow : Edge → Run ε σ Bool)
    (start : Node) : Run ε (σ × List Query) (Option Node) :=
  gs.firstReachable (fun n => (accept n).noted (.node n)) (fun e => (follow e).noted (.edge e)) start

/-- The record of questions makes no difference to the search. -/
theorem forgets_askFirst {ε σ : Type} (gs : Graphs) (accept : Node → Run ε σ Bool)
    (follow : Edge → Run ε σ Bool) (start : Node) :
    Run.Forgets (gs.askFirst accept follow start) (gs.firstReachable accept follow start) :=
  Run.sequential_forgets.firstReachable (fun n => Run.forgets_noted (Query.node n) (accept n))
    (fun e => Run.forgets_noted (Query.edge e) (follow e)) start

variable {gs : Graphs} {i : Nat} {asked : List Query} {seen : List Node} {agenda : List Edge}
  {e : Edge}

/-- The question is about an element of a graph. -/
def Query.In (gs : Graphs) (i : Nat) : Query → Prop
  | .node n => gs.NodeIn (· = i) n
  | .edge e => gs.EdgeIn (· = i) e

/-- No question has been asked twice, and all were about elements of one graph. -/
structure Query.Distinct (gs : Graphs) (i : Nat) (asked : List Query) : Prop where
  /-- No question is there twice. -/
  nodup : asked.Nodup
  /-- The questions are about one graph. -/
  inside : ∀ q ∈ asked, q.In gs i

/-- A question that is new. -/
theorem Query.Distinct.concat (h : Query.Distinct gs i asked) {q : Query} (hq : q ∉ asked)
    (hin : q.In gs i) : Query.Distinct gs i (asked ++ [q]) where
  nodup := List.nodup_append.mpr ⟨h.nodup, by simp, fun a ha b hb hab =>
    hq (List.mem_singleton.mp hb ▸ hab ▸ ha)⟩
  inside := List.forall_mem_append.mpr ⟨h.inside, fun p hp => List.mem_singleton.mp hp ▸ hin⟩

/-- There are no more questions than elements of the graph. -/
theorem Query.Distinct.length_le (h : Query.Distinct gs i asked) :
    asked.length ≤ (gs.graph i).nodes.size + (gs.graph i).edges.size := by
  let elements : List Query :=
    (List.range (gs.graph i).nodes.size).map (fun v => .node ⟨i, v⟩) ++
      (List.range (gs.graph i).edges.size).map (fun p => .edge ⟨i, p⟩)
  have hsubset : asked ⊆ elements := by
    intro q hq
    rcases q with ⟨⟨j, v⟩⟩ | ⟨⟨j, p⟩⟩
    · obtain ⟨hv, rfl⟩ := h.inside _ hq
      exact List.mem_append_left _ (List.mem_map.mpr ⟨v, List.mem_range.mpr hv, rfl⟩)
    · obtain ⟨hp, rfl⟩ := h.inside _ hq
      exact List.mem_append_right _ (List.mem_map.mpr ⟨p, List.mem_range.mpr hp, rfl⟩)
  have hlength : elements.length = (gs.graph i).nodes.size + (gs.graph i).edges.size := by
    simp [elements]
  exact hlength ▸ (List.subperm_of_subset h.nodup hsubset).length_le

/-- The questions that a search has asked, against the nodes it has marked and its agenda. -/
structure AskInv (gs : Graphs) (i : Nat) (asked : List Query) (seen : List Node)
    (agenda : List Edge) : Prop where
  /-- No question has been asked twice. -/
  distinct : Query.Distinct gs i asked
  /-- The nodes that have been tested are marked. -/
  node_seen : ∀ n, .node n ∈ asked → n ∈ seen
  /-- The edges that have been tested are not on the agenda, and their nodes are marked. -/
  edge_gone : ∀ d, .edge d ∈ asked → d ∉ agenda ∧ gs.source d ∈ seen
  /-- No edge is on the agenda twice. -/
  agenda_nodup : agenda.Nodup
  /-- The edges on the agenda leave nodes that are marked. -/
  agenda_in : ∀ d ∈ agenda, gs.EdgeIn (· = i) d ∧ gs.source d ∈ seen

namespace AskInv

/-- The first edge may be passed over. -/
theorem skip (h : gs.AskInv i asked seen (e :: agenda)) : gs.AskInv i asked seen agenda where
  distinct := h.distinct
  node_seen := h.node_seen
  edge_gone d hd := ⟨fun hmem => (h.edge_gone d hd).1 (List.mem_cons_of_mem e hmem),
    (h.edge_gone d hd).2⟩
  agenda_nodup := (List.nodup_cons.mp h.agenda_nodup).2
  agenda_in d hd := h.agenda_in d (List.mem_cons_of_mem e hd)

/-- The first edge may be tested, which has not been done before. -/
theorem askEdge (h : gs.AskInv i asked seen (e :: agenda)) :
    gs.AskInv i (asked ++ [.edge e]) seen agenda := by
  obtain ⟨hin, hsource⟩ := h.agenda_in e List.mem_cons_self
  obtain ⟨hnew, hnodup⟩ := List.nodup_cons.mp h.agenda_nodup
  have hfirst : .edge e ∉ asked := fun hmem => (h.edge_gone e hmem).1 List.mem_cons_self
  refine ⟨h.distinct.concat hfirst hin, fun n hn => ?_, fun d hd => ?_, hnodup, h.skip.agenda_in⟩
  -- the record has one more question, which is no node
  · rcases List.mem_append.mp hn with hn | hn
    · exact h.node_seen n hn
    · exact nomatch List.mem_singleton.mp hn
  · rcases List.mem_append.mp hd with hd | hd
    · exact h.skip.edge_gone d hd
    · obtain rfl := Query.edge.inj (List.mem_singleton.mp hd)
      exact ⟨hnew, hsource⟩

/-- A node that is not marked may be tested, which has not been done before. Its edges come onto the
agenda. -/
theorem askNode (hgs : gs.Consistent) (h : gs.AskInv i asked seen agenda) {n : Node}
    (hn : gs.NodeIn (· = i) n) (hseen : n ∉ seen) :
    gs.AskInv i (asked ++ [.node n]) (n :: seen) (gs.outgoingBySink n ++ agenda) := by
  have hfirst : .node n ∉ asked := fun hmem => hseen (h.node_seen n hmem)
  -- an edge of the node leaves a node without a mark, so it is neither left nor tested
  have hown : ∀ d ∈ gs.outgoingBySink n, gs.source d ∉ seen := by
    intro d hd
    rw [((mem_outgoingBySink hgs).mp hd).2]
    exact hseen
  refine ⟨h.distinct.concat hfirst hn, fun k hk => ?_, fun d hd => ?_, ?_, fun d hd => ?_⟩
  · rcases List.mem_append.mp hk with hk | hk
    · exact List.mem_cons_of_mem n (h.node_seen k hk)
    · obtain rfl := Query.node.inj (List.mem_singleton.mp hk)
      exact List.mem_cons_self
  · rcases List.mem_append.mp hd with hd | hd
    · obtain ⟨hgone, hsource⟩ := h.edge_gone d hd
      refine ⟨fun hmem => ?_, List.mem_cons_of_mem n hsource⟩
      rcases List.mem_append.mp hmem with hmem | hmem
      · exact hown d hmem hsource
      · exact hgone hmem
    · exact nomatch List.mem_singleton.mp hd
  · refine List.nodup_append.mpr ⟨nodup_outgoingBySink hgs n, h.agenda_nodup, ?_⟩
    rintro d hd _ hd' rfl
    exact hown d hd (h.agenda_in d hd').2
  · rcases List.mem_append.mp hd with hd | hd
    · refine ⟨edgeIn_outgoingBySink hgs hn.2 d hd, ?_⟩
      rw [((mem_outgoingBySink hgs).mp hd).2]
      exact List.mem_cons_self
    · obtain ⟨hin, hsource⟩ := h.agenda_in d hd
      exact ⟨hin, List.mem_cons_of_mem n hsource⟩

end AskInv

/-! ### Runs -/

section Asking

variable {ε σ α β : Type}

/-- From a record, every run comes to one in which no question is there twice. -/
def AsksOnce (gs : Graphs) (i : Nat) (asked : List Query) (x : Run ε (σ × List Query) α) : Prop :=
  ∀ s r t later, x (s, asked) = some (r, t, later) → Query.Distinct gs i later

theorem asksOnce_pure (h : Query.Distinct gs i asked) (a : α) :
    gs.AsksOnce i asked (pure a : Run ε (σ × List Query) α) := by
  intro s r t later hrun
  cases hrun
  exact h

/-- **One question.** If it is new, it may be asked, and then the run goes on with what has been asked
now. -/
theorem AsksOnce.noted_bind {q : Query} {x : Run ε σ α} {f : α → Run ε (σ × List Query) β}
    (hq : Query.Distinct gs i (asked ++ [q])) (hf : ∀ a, gs.AsksOnce i (asked ++ [q]) (f a)) :
    gs.AsksOnce i asked (x.noted q >>= f) := by
  intro s r t later hrun
  rw [Run.bind_apply, Run.noted_apply] at hrun
  rcases hx : x s with _ | ⟨_ | a, t'⟩
  · rw [hx] at hrun
    exact nomatch hrun
  · -- a test that fails has been asked, too
    rw [hx] at hrun
    cases hrun
    exact hq
  · rw [hx] at hrun
    exact hf a t' r t later hrun

variable {accept : Node → Run ε σ Bool} {follow : Edge → Run ε σ Bool}

/-- **A search asks no question twice,** by induction on its rounds. -/
theorem asksOnce_search (hgs : gs.Consistent) {k : Nat} (h : gs.AskInv i asked seen agenda) :
    gs.AsksOnce i asked (gs.search (fun n => (accept n).noted (Query.node n))
      (fun e => (follow e).noted (Query.edge e)) k seen agenda) := by
  induction k generalizing asked seen agenda with
  | zero => cases agenda <;> exact asksOnce_pure h.distinct _
  | succ k ih =>
    cases agenda with
    | nil => exact asksOnce_pure h.distinct _
    | cons e agenda =>
      rw [search]
      -- the loop passes an edge over without a question; otherwise there may be two, the second for the
      -- node
      by_cases hseen : gs.sink e ∈ seen
      · rw [if_pos hseen]
        exact ih h.skip
      · rw [if_neg hseen]
        have hin : gs.NodeIn (· = i) (gs.sink e) :=
          nodeIn_sink hgs (h.agenda_in e List.mem_cons_self).1
        have hedge := h.askEdge
        refine .noted_bind hedge.distinct fun followed => ?_
        cases followed with
        | false => exact ih hedge
        | true =>
          have hnode := hedge.askNode hgs hin hseen
          refine .noted_bind hnode.distinct fun accepted => ?_
          cases accepted with
          | false => exact ih hnode
          | true => exact asksOnce_pure hnode.distinct _

/-- Before a search, nothing has been asked. -/
theorem AskInv.init (gs : Graphs) (i : Nat) : gs.AskInv i [] [] [] where
  distinct := ⟨List.nodup_nil, List.forall_mem_nil _⟩
  node_seen _ hn := absurd hn List.not_mem_nil
  edge_gone _ hd := absurd hd List.not_mem_nil
  agenda_nodup := List.nodup_nil
  agenda_in := List.forall_mem_nil _

/-- **A search that starts with a node asks no question twice.** -/
theorem asksOnce_askFirst (hgs : gs.Consistent) {start : Node} (hstart : gs.HasNode start) :
    gs.AsksOnce start.graph [] (gs.askFirst accept follow start) := by
  have hfirst := (AskInv.init gs start.graph).askNode hgs ⟨hstart, rfl⟩ List.not_mem_nil
  rw [List.append_nil] at hfirst
  refine .noted_bind hfirst.distinct fun accepted => ?_
  cases accepted with
  | true => exact asksOnce_pure hfirst.distinct _
  | false => exact asksOnce_search hgs hfirst

end Asking

end Graphs

/-- **The search goes depth first.** As computations of any lawful monad, the loop and the recursion are
equal, so they make the same tests in the same order, whatever the tests do. The recursion takes the edges
of a node stably sorted, and the loop would not go on if it were given more rounds. Each run, also one that
ends with an error, asks each test about each element at most once. -/
theorem firstReachable_depthFirst {gs : Graphs} (hgs : ∀ g ∈ gs.all, g.Built) :
    (∀ (m : Type → Type) [Monad m] [LawfulMonad m] (accept : Node → m Bool) (follow : Edge → m Bool)
        (start : Node),
      gs.firstReachable accept follow start = gs.depthFirst accept follow start ∧
        ∀ k, (gs.graph start.graph).edges.size ≤ k →
          gs.search accept follow k [start] (gs.outgoingBySink start) =
            gs.search accept follow (gs.graph start.graph).edges.size [start]
              (gs.outgoingBySink start)) ∧
    (∀ n, (gs.outgoingBySink n).Perm (gs.outgoing n) ∧
      (gs.outgoingBySink n).Pairwise fun d e => (gs.edge d).sink < (gs.edge e).sink ∨
        (gs.edge d).sink = (gs.edge e).sink ∧ d.index < e.index) ∧
    ∀ (ε σ : Type) (accept : Node → Run ε σ Bool) (follow : Edge → Run ε σ Bool) (start : Node),
      gs.HasNode start → ∀ s : σ,
        gs.firstReachable accept follow start s =
            (gs.askFirst accept follow start (s, [])).map (fun p => (p.1, p.2.1)) ∧
          ∀ r t asked, gs.askFirst accept follow start (s, []) = some (r, t, asked) →
            asked.Nodup ∧ asked.length ≤
              (gs.graph start.graph).nodes.size + (gs.graph start.graph).edges.size := by
  have hgs := Graphs.consistent_of_built hgs
  refine ⟨fun m _ _ accept follow start => ⟨?_, fun k hk => ?_⟩, fun n => ⟨?_, ?_⟩,
    fun ε σ accept follow start hstart s => ⟨?_, fun r t asked hrun => ?_⟩⟩
  · exact Graphs.firstReachable_eq_depthFirst hgs accept follow start
  · have hrounds := Graphs.rounds_start hgs start
    exact Graphs.search_rounds hgs (gs.among_outgoingBySink start) (by omega) (by omega)
  · exact List.mergeSort_perm _ _
  · exact Graphs.pairwise_outgoingBySink hgs n
  · exact (gs.forgets_askFirst accept follow start s []).symm
  · have hdistinct := Graphs.asksOnce_askFirst hgs hstart s r t asked hrun
    exact ⟨hdistinct.nodup, hdistinct.length_le⟩

/-- Two parallel edges, the first of which is refused, an edge back that nobody asks about, and an edge on
which the test fails because it has been asked too often. The recursion does the same as the loop. -/
theorem firstReachable_depthFirst_failing :
    let g := ((((((({} : Graph).addNode "a").addNode "b").addNode "c").addEdge 0 1 "y").addEdge 0 1
      "x").addEdge 1 0 "x").addEdge 1 2 "x"
    let gs : Graphs := { all := #[g] }
    let accept : Node → Run String Nat Bool := fun _ s => some (.ok false, s + 1)
    let follow : Edge → Run String Nat Bool := fun e s =>
      if s < 3 then some (.ok ((gs.edge e).label == "x"), s + 1) else some (.error "tired", s)
    let asked : List Graphs.Query :=
      [.node ⟨0, 0⟩, .edge ⟨0, 0⟩, .edge ⟨0, 1⟩, .node ⟨0, 1⟩, .edge ⟨0, 3⟩]
    g.Built ∧ gs.askFirst accept follow ⟨0, 0⟩ (0, []) = some (.error "tired", 4, asked) ∧
      asked.Nodup ∧ gs.depthFirst accept follow ⟨0, 0⟩ 0 = some (.error "tired", 4) := by
  intro g gs accept follow asked
  have hbuilt : g.Built := by
    refine .addEdge (.addEdge (.addEdge (.addEdge (.addNode (.addNode (.addNode .empty "a") "b") "c")
      ?_ ?_ "y") ?_ ?_ "x") ?_ ?_ "x") ?_ ?_ "x" <;> decide
  have hall : ∀ g ∈ gs.all, g.Built := by
    intro h hh
    rw [Array.mem_singleton.mp hh]
    exact hbuilt
  have hfirst : gs.outgoingBySink ⟨0, 0⟩ = [⟨0, 0⟩, ⟨0, 1⟩] := List.mergeSort_of_pairwise (by decide)
  have hsecond : gs.outgoingBySink (gs.sink ⟨0, 1⟩) = [⟨0, 2⟩, ⟨0, 3⟩] :=
    List.mergeSort_of_pairwise (by decide)
  have hrounds : (gs.graph 0).edges.size = 4 := rfl
  have hrun : gs.askFirst accept follow ⟨0, 0⟩ (0, []) = some (.error "tired", 4, asked) := by
    rw [Graphs.askFirst, Graphs.firstReachable, hrounds, hfirst]
    simp only [Graphs.search, hsecond]
    rfl
  obtain ⟨hequal, -, hruns⟩ := firstReachable_depthFirst hall
  obtain ⟨hforget, honce⟩ := hruns String Nat accept follow ⟨0, 0⟩ (by decide) 0
  refine ⟨hbuilt, hrun, (honce _ _ _ hrun).1, ?_⟩
  rw [← (hequal _ accept follow ⟨0, 0⟩).1, hforget, hrun]
  rfl

end GraphQuery
