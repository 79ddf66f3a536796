import GraphQuery.Proofs.Graph.DepthFirst
import GraphQuery.Proofs.Host.Uniform
import GraphQuery.Session.Basic

/-!
# How soon a traversal can be stopped

A traversal can be told to stop when it makes a check. How soon it stops is therefore a matter of
how many checks it makes for what it visits. The checks are not made by the searches, which know
nothing of them, but by the tests that the searches are given:

* `firstReachable` tests every element that it visits with a predicate of the script, and each such
  test begins with a check;
* `firstDoc` does so for documents only. Of other nodes and of edges it decides by itself, **without
  a check**;
* `instanceOf` makes a check for each receiver, and then collects all nodes that can be reached from
  it **without another one**.

What is visited is entered in a record beside the state, and the record is compared with the checks
in the log (`Run.Pays`). As this is a comparison of numbers that add up, it passes from the tests to
the searches.

If all checks are refused from some check on, then the first of them is the last that is made, and
the evaluation ends with it (`Eval.Attentive`). So a bound on what is visited for each check is a
bound on what is visited until the traversal stops.

## Main statements

* `Eval.uniform_attentive`, `Host.standard_attentive`: evaluations end when they are refused a check
  for good.
* `traversal_checks`: the checks of the three methods against what they visit.
* `traversal_unchecked`: nodes that are visited though all checks are refused.
-/

namespace GraphQuery

/-! ### Counting checks -/

/-- The event is a check. -/
def Event.isCheck : Event → Bool
  | .check _ => true
  | .call .. => false

/-- The number of checks in a log. -/
def checksIn (log : List Contact) : Nat := log.countP (·.event.isCheck)

/-- A check is counted. -/
theorem checksIn_check (name : String) (seen : Store) (log : List Contact) :
    checksIn (⟨.check name, seen⟩ :: log) = checksIn log + 1 := List.countP_cons_of_pos rfl

theorem checksIn_call (behavior : String) (args : List Value) (seen : Store) (log : List Contact) :
    checksIn (⟨.call behavior args, seen⟩ :: log) = checksIn log :=
  List.countP_cons_of_neg Bool.false_ne_true

/-- The number of checks that have been made. -/
def State.checks (s : State) : Nat := checksIn s.log

/-- All checks are refused from the one with this number on. -/
def Cancellation.RefusesFrom (stop : Cancellation) (number : Nat) : Prop :=
  ∀ name seen log, number ≤ checksIn log + 1 → stop (⟨.check name, seen⟩ :: log) = true

/-- A rule that allows some checks of any name refuses all others. -/
theorem StopRule.refusesFrom (n : Nat) :
    Cancellation.RefusesFrom (StopRule.cancellation { limit := some n }) (n + 1) := by
  intro name seen log hn
  have hcounts : ∀ contact : Contact,
      StopRule.counts { limit := some n } contact = contact.event.isCheck := by
    rintro ⟨_ | _, _⟩
    · rfl
    · rfl
  have hcount : log.countP (StopRule.counts { limit := some n }) = checksIn log := by
    rw [funext hcounts]
    rfl
  -- the rule has counted the checks before this one, and this one is over its number
  show (true && decide (n < List.countP _ (_ :: log))) = true
  rw [List.countP_cons_of_pos rfl, hcount, Bool.true_and, decide_eq_true_iff]
  exact Nat.lt_of_succ_le hn

namespace Eval

/-! ### Evaluations that end with a refused check -/

/-- A check is counted whether it is refused or not. -/
theorem checks_of_check {cx : Context} {name : String} {s t : State} {r : Except Error Unit}
    (hrun : check cx name s = some (r, t)) : t.checks = s.checks + 1 := by
  rw [check_apply] at hrun
  obtain ⟨-, rfl⟩ := Prod.mk.inj (Option.some.inj hrun)
  exact checksIn_check ..

/-- The evaluation takes no check back. If all checks are refused from some number on, it makes at
most that many, and when it has made them, it ends with the cancellation. -/
def Attentive (stop : Cancellation) {α : Type} (m : Eval α) : Prop :=
  ∀ s r t, m s = some (r, t) → s.checks ≤ t.checks ∧
    ∀ number, stop.RefusesFrom number → s.checks < number →
      t.checks < number ∨ t.checks = number ∧ ∃ name, r = .error (.cancelled name)

namespace Attentive

variable {stop : Cancellation} {α β : Type}

/-- A step that makes no check. -/
theorem of_apply {m : Eval α} {out : State → Except Error α} {next : State → State}
    (hm : ∀ s, m s = some (out s, next s)) (hnext : ∀ s, (next s).checks = s.checks) :
    Attentive stop m := by
  intro s r t hrun
  obtain ⟨-, rfl⟩ := Prod.mk.inj (Option.some.inj ((hm s).symm.trans hrun))
  rw [hnext s]
  exact ⟨Nat.le_refl _, fun _ _ hlt => Or.inl hlt⟩

theorem result (r : Except Error α) : Attentive stop (Eval.result r) :=
  of_apply (result_apply r) fun _ => rfl

/-- **Sequencing** passes a cancellation on. -/
theorem bind {m : Eval α} {f : α → Eval β} (hm : Attentive stop m) (hf : ∀ a, Attentive stop (f a)) :
    Attentive stop (m >>= f) := by
  intro s r u hrun
  rcases bind_cases hrun with ⟨e, hfail, rfl⟩ | ⟨a, t, hfirst, hsecond⟩
  · -- an error of the first evaluation is the error of both
    obtain ⟨hle, hlimit⟩ := hm s _ u hfail
    refine ⟨hle, fun number hstop hlt => ?_⟩
    rcases hlimit number hstop hlt with hbelow | ⟨hend, name, hname⟩
    · exact Or.inl hbelow
    · exact Or.inr ⟨hend, name, congrArg _ (Except.error.inj hname)⟩
  · obtain ⟨hle, hlimit⟩ := hm s _ t hfirst
    obtain ⟨hle', hlimit'⟩ := hf a t r u hsecond
    refine ⟨Nat.le_trans hle hle', fun number hstop hlt => ?_⟩
    rcases hlimit number hstop hlt with hbelow | ⟨-, name, hname⟩
    · exact hlimit' number hstop hbelow
    · -- the first evaluation has not been cancelled, as it has a result
      exact nomatch hname

/-- A check is either one of those that are allowed, or the last one. -/
theorem check {cx : Context} (hcx : cx.cancellation = stop) (name : String) :
    Attentive stop (Eval.check cx name) := by
  intro s r t hrun
  rw [checks_of_check hrun]
  refine ⟨Nat.le_succ _, fun number hstop hlt => ?_⟩
  by_cases hlast : s.checks + 1 = number
  · rw [check_apply, hcx, hstop name _ _ (Nat.le_of_eq hlast.symm)] at hrun
    obtain ⟨rfl, -⟩ := Prod.mk.inj (Option.some.inj hrun)
    exact Or.inr ⟨hlast, name, rfl⟩
  · exact Or.inl (Nat.lt_of_le_of_ne hlt hlast)

end Attentive

/-- **Every evaluation** ends when it is refused a check for good. -/
theorem uniform_attentive (cx : Context) :
    Uniform (fun _ m _ => Attentive cx.cancellation m) cx cx.cancellation where
  result := Attentive.result
  bind := Attentive.bind
  lookup frame name := .of_apply (lookup_apply { cx with frame } name) fun _ => rfl
  declare frame name value := .of_apply (declare_apply frame name value) fun _ => rfl
  nest frame := .of_apply (nest_apply frame) fun _ => rfl
  newFunction := .of_apply newFunction_apply fun _ => rfl
  check _ name := .check rfl name

end Eval

/-- The functions of the host make their checks in the same way: they take none back, and they pass
it on if they are refused one for good, or if a call that they make is. -/
def HostLibrary.Attentive (host : HostLibrary) : Prop :=
  ∀ cx : Context, Uniform.Hosts (fun _ m _ => Eval.Attentive cx.cancellation m) cx cx.cancellation host host

/-- A call of the host is no check. -/
theorem Eval.Attentive.record {stop : Cancellation} (cx : Context) (behavior : String) (args : List Value) :
    Eval.Attentive stop (Eval.record cx (.call behavior args)) :=
  .of_apply (Eval.record_apply cx _) fun s => checksIn_call behavior args _ s.log

/-- **The standard functions** pass refusals on. -/
theorem Host.standard_attentive : HostLibrary.Attentive standard := by
  intro cx call call' hcall frame behavior args
  refine (Eval.Attentive.record { cx with frame } behavior args).bind fun _ => ?_
  refine (Eval.uniform_attentive cx).standard (fun f => ?_) (fun text => ?_) hcall frame behavior args
  · exact .of_apply (fun _ => rfl) fun _ => rfl
  -- notes are not checks, and neither are steps on the frames
  · have hnote : ∀ s, Eval.addNote text s = some (.ok (), { s with notes := text :: s.notes }) := fun _ => rfl
    exact .of_apply hnote fun _ => rfl

/-! ### Records against checks -/

namespace Run

variable {α β : Type} {paid : Graphs.Query → Bool}

/-- A run of two computations ends with an error of the first, or the second ends it. -/
theorem bind_cases {ε σ : Type} {x : Run ε σ α} {f : α → Run ε σ β} {s u : σ} {r : Except ε β}
    (h : (x >>= f) s = some (r, u)) :
    (∃ e, x s = some (.error e, u) ∧ r = .error e) ∨ ∃ a t, x s = some (.ok a, t) ∧ f a t = some (r, u) := by
  rw [bind_apply] at h
  rcases hx : x s with _ | ⟨e | a, t⟩
  · rw [hx] at h
    exact nomatch h
  · rw [hx] at h
    obtain ⟨rfl, rfl⟩ := Prod.mk.inj (Option.some.inj h)
    exact Or.inl ⟨e, rfl, rfl⟩
  · rw [hx] at h
    exact Or.inr ⟨a, t, rfl, h⟩

/-- What a run adds to its record, it has made at least as many checks for as there are entries that
have to be paid. -/
def Pays (paid : Graphs.Query → Bool) (α : Type) (x : Run Error (State × List Graphs.Query) α) : Prop :=
  ∀ s l r t l', x (s, l) = some (r, t, l') →
    ∃ new, l' = l ++ new ∧ s.checks + new.countP paid ≤ t.checks

/-- What needs no state enters nothing and makes no check. -/
theorem pays_result (r : Except Error α) : Pays paid α (silent (Eval.result r)) := by
  intro s l r' t l' hrun
  rw [silent_of_some (Eval.result_apply r s)] at hrun
  obtain ⟨-, hsame⟩ := Prod.mk.inj (Option.some.inj hrun)
  -- nothing is entered, so there is nothing to pay
  cases hsame
  exact ⟨[], (List.append_nil l).symm, Nat.le_refl _⟩

/-- A run that is entered pays with a check, if it has to. -/
theorem pays_noted {q : Graphs.Query} {x : Eval α}
    (hx : ∀ s r t, x s = some (r, t) → s.checks + (if paid q then 1 else 0) ≤ t.checks) :
    Pays paid α (noted q x) := by
  intro s l r t l' hrun
  rw [noted_apply] at hrun
  obtain ⟨⟨r', t'⟩, hrun', heq⟩ := Option.map_eq_some_iff.mp hrun
  cases heq
  refine ⟨[q], rfl, ?_⟩
  rw [List.countP_singleton]
  exact hx s _ _ hrun'

/-- **Payments add up.** -/
theorem Pays.bind {x : Run Error (State × List Graphs.Query) α}
    {f : α → Run Error (State × List Graphs.Query) β} (hx : Pays paid α x) (hf : ∀ a, Pays paid β (f a)) :
    Pays paid β (x >>= f) := by
  intro s l r u l'' hrun
  -- the first computation has paid for what it has entered, also if it fails
  rcases bind_cases hrun with ⟨e, hfail, -⟩ | ⟨a, ⟨t, l'⟩, hfirst, hsecond⟩
  · exact hx s l _ u l'' hfail
  · obtain ⟨new, rfl, hnew⟩ := hx s l _ t l' hfirst
    obtain ⟨later, rfl, hlater⟩ := hf a t _ r u l'' hsecond
    refine ⟨new ++ later, List.append_assoc .., ?_⟩
    rw [List.countP_append]
    omega

/-- So searches need only be known by their tests. -/
theorem sequential_pays (paid : Graphs.Query → Bool) :
    Sequential fun α x (_ : Run Error (State × List Graphs.Query) α) => Pays paid α x where
  pure a s l r t l' hrun := by
    cases hrun
    exact ⟨[], (List.append_nil l).symm, Nat.le_refl _⟩
  bind hx hf := hx.bind hf

/-- **A search pays** for what it visits if its tests do. -/
theorem pays_firstFrom {gs : Graphs} {accept : Node → Eval Bool} {follow : Edge → Eval Bool}
    (haccept : ∀ n s r t, accept n s = some (r, t) →
      s.checks + (if paid (.node n) then 1 else 0) ≤ t.checks)
    (hfollow : ∀ e s r t, follow e s = some (r, t) →
      s.checks + (if paid (.edge e) then 1 else 0) ≤ t.checks) (starts : List Node) :
    Pays paid Value (Method.firstFrom (gs.askFirst accept follow) starts) := by
  let onNode (n : Node) := noted (Graphs.Query.node n) (accept n)
  let onEdge (e : Edge) := noted (Graphs.Query.edge e) (follow e)
  have hfind : ∀ start, Pays paid (Option Node) (gs.askFirst accept follow start) :=
    @Sequential.firstReachable _ _ _ _ _ (sequential_pays paid) gs onNode onNode onEdge onEdge
      (fun n => pays_noted (haccept n)) (fun e => pays_noted (hfollow e))
  let find := gs.askFirst accept follow
  exact @Sequential.firstFrom _ _ _ _ _ (sequential_pays paid) find find hfind starts

/-- A run has a record if the run without it ends. -/
theorem Forgets.exists_record {ε σ ι : Type} {x : Run ε (σ × List ι) α} {y : Run ε σ α} (h : Forgets x y)
    {s t : σ} {r : Except ε α} (hy : y s = some (r, t)) (l : List ι) : ∃ l', x (s, l) = some (r, t, l') := by
  obtain ⟨⟨r', t', l'⟩, hx, heq⟩ := Option.map_eq_some_iff.mp ((h s l).trans hy)
  cases heq
  exact ⟨l', hx⟩

/-- Enters several things in the record. -/
def enterAll {ε σ ι : Type} (is : List ι) : Run ε (σ × List ι) Unit := fun p => some (.ok (), p.1, p.2 ++ is)

end Run

/-! ### Traversals with a record -/

namespace Method

open Eval

variable (call : Caller) (cx : Context) (nodes : OrderedSet Node) (args : List Value)

/-- `firstReachable` with a record of the elements that it visits. -/
def visitFirstReachable : Run Error (State × List Graphs.Query) Value := do
  let (v, rest) ← Run.silent (result (takeArgument args))
  let accept ← Run.silent (result (Predicate.ofNodeValue "firstReachable" v))
  let follow ← match rest with
    | [] => pure (Predicate.constant true)
    | w :: _ => Run.silent (result (Predicate.ofEdgeValue "firstReachable" w))
  firstFrom (cx.graphs.askFirst (accept.testNode call cx) (follow.testEdge call cx)) nodes.toList

/-- `firstDoc` with a record of the elements that it visits. -/
def visitFirstDoc : Run Error (State × List Graphs.Query) Value := do
  let (v, rest) ← Run.silent (result (takeArgument args))
  let predicate ← Run.silent (result (Predicate.ofNodeValue "firstDoc" v))
  Run.silent (result (noArguments rest))
  let accept (n : Node) : Eval Bool := do
    if (cx.graphs.node n).hasType cx.settings.documentType then
      predicate.testNode call cx n
    else
      return false
  let follow (e : Edge) : Eval Bool :=
    return (cx.graphs.edge e).label != cx.settings.instanceOfLabel
  firstFrom (cx.graphs.askFirst accept follow) nodes.toList

/-- The nodes that are opened for one receiver of `instanceOf`, as entries of a record. -/
def openedFrom (n : Node) : List Graphs.Query :=
  (cx.graphs.reach cx.settings.instanceOfLabel n).toList.map .node

/-- The test of a receiver, with a record of the nodes that are opened for it. -/
def visitReceiver (id : String) (n : Node) : Run Error (State × List Graphs.Query) Bool := do
  Run.silent (check cx "instanceOf")
  Run.enterAll (openedFrom cx n)
  return isInstance cx id n

/-- `instanceOf` with a record of the nodes that it opens. -/
def visitInstanceOf : Run Error (State × List Graphs.Query) Value := do
  let id ← Run.silent (result (textArgument args))
  return .nodes (OrderedSet.ofList (← selectM (visitReceiver cx id) nodes.toList))

/-- Whether an entry is about a document. -/
def isDocument (cx : Context) : Graphs.Query → Bool
  | .node n => (cx.graphs.node n).hasType cx.settings.documentType
  | .edge _ => false

variable {call cx}

/-! #### Records make no difference -/

/-- The first match: the record is entered by the tests alone. -/
theorem forgets_visitFirstReachable :
    Run.Forgets (visitFirstReachable call cx nodes args) (runFirstReachable call cx nodes args) := by
  have hF := Run.sequential_forgets (ε := Error) (σ := State) (ι := Graphs.Query)
  refine hF.bind (Run.forgets_silent _) fun ⟨v, rest⟩ => ?_
  refine hF.bind (Run.forgets_silent _) fun accept => ?_
  have hfirst := fun follow : Predicate => hF.firstFrom
    (cx.graphs.forgets_askFirst (accept.testNode call cx) (follow.testEdge call cx)) nodes.toList
  cases rest with
  | nil => exact hF.bind (hF.pure _) hfirst
  | cons w rest => exact hF.bind (Run.forgets_silent _) hfirst

/-- The search for documents. -/
theorem forgets_visitFirstDoc :
    Run.Forgets (visitFirstDoc call cx nodes args) (runFirstDoc call cx nodes args) := by
  have hF := Run.sequential_forgets (ε := Error) (σ := State) (ι := Graphs.Query)
  refine hF.bind (Run.forgets_silent _) fun ⟨v, rest⟩ => ?_
  refine hF.bind (Run.forgets_silent _) fun predicate => ?_
  refine hF.bind (Run.forgets_silent _) fun _ => ?_
  exact hF.firstFrom (cx.graphs.forgets_askFirst _ _) nodes.toList

/-- The nodes that are instances of something: what is opened is entered after the check. -/
theorem forgets_visitInstanceOf :
    Run.Forgets (visitInstanceOf cx nodes args) (runInstanceOf cx nodes args) := by
  have hF := Run.sequential_forgets (ε := Error) (σ := State) (ι := Graphs.Query)
  refine hF.bind (Run.forgets_silent _) fun id => ?_
  refine hF.bind (hF.selectM (fun n => ?_) _) fun found => hF.pure _
  refine hF.bind (Run.forgets_silent _) fun _ => ?_
  exact fun s l => rfl

/-! #### What the searches pay -/

/-- A test by a predicate of the script begins with a check. -/
theorem checks_test
    (hcall : Uniform.Calls (fun _ m _ => Attentive cx.cancellation m) cx cx.cancellation call call)
    (p : Predicate) (v : Value) {s t : State} {r : Except Error Bool}
    (hrun : p.test call cx v s = some (r, t)) : s.checks + 1 ≤ t.checks := by
  have hR := uniform_attentive cx
  -- the check is made before anything else, and is all that is made if it is refused
  rcases bind_cases hrun with ⟨e, hcheck, -⟩ | ⟨_, u, hcheck, hafter⟩
  · exact Nat.le_of_eq (checks_of_check hcheck).symm
  · -- what the predicate does after the check takes none back
    rw [← checks_of_check hcheck]
    cases p with
    | closure c =>
      have hbody : Attentive cx.cancellation (c.invoke call cx v >>= truth cx) :=
        .bind (hR.invoke hcall cx.frame c v) fun _ => .result _
      exact (hbody u r t hafter).1
    | constant b =>
      have hbody : Attentive cx.cancellation (pure b : Eval Bool) := .result (.ok b)
      exact (hbody u r t hafter).1

section Payments

variable (hcall : Uniform.Calls (fun _ m _ => Attentive cx.cancellation m) cx cx.cancellation call call)

include hcall

/-- `firstReachable` pays for all that it visits. -/
theorem pays_visitFirstReachable :
    Run.Pays (fun _ => true) Value (visitFirstReachable call cx nodes args) := by
  refine (Run.pays_result _).bind fun ⟨v, rest⟩ => (Run.pays_result _).bind fun accept => ?_
  -- without a second argument the edges are followed by a constant, which is a test as well
  have hfirst : ∀ follow : Predicate, Run.Pays (fun _ => true) Value
      (firstFrom (cx.graphs.askFirst (accept.testNode call cx) (follow.testEdge call cx)) nodes.toList) :=
    fun follow => Run.pays_firstFrom (fun n _ _ _ => checks_test hcall accept (.ofNode n))
      (fun e _ _ _ => checks_test hcall follow (.ofEdge e)) nodes.toList
  cases rest with
  | nil => exact (Run.pays_result (.ok _)).bind hfirst
  | cons w rest => exact (Run.pays_result _).bind hfirst

/-- `firstDoc` pays for the documents among what it visits. -/
theorem pays_visitFirstDoc : Run.Pays (isDocument cx) Value (visitFirstDoc call cx nodes args) := by
  refine (Run.pays_result _).bind fun ⟨v, rest⟩ => (Run.pays_result _).bind fun predicate => ?_
  refine (Run.pays_result _).bind fun _ =>
    Run.pays_firstFrom (fun n s r t hrun => ?_) (fun e s r t hrun => ?_) _
  -- only documents are tested by the predicate
  · show s.checks + (if (cx.graphs.node n).hasType cx.settings.documentType then 1 else 0) ≤ t.checks
    by_cases hdoc : (cx.graphs.node n).hasType cx.settings.documentType = true
    · rw [if_pos hdoc] at hrun ⊢
      exact checks_test hcall predicate _ hrun
    · -- the node is refused at once
      rw [if_neg hdoc] at hrun ⊢
      cases hrun
      exact Nat.le_refl _
  · cases hrun
    -- edges are decided without a check, so nothing is paid for them
    exact Nat.le_refl _

end Payments

/-! #### Receivers -/

/-- After one check, a receiver is refused before anything is opened, or all that can be reached
from it is opened. -/
theorem visitReceiver_cases (id : String) (n : Node) (s : State) (l : List Graphs.Query) :
    ∃ later : State, later.checks = s.checks + 1 ∧
      (visitReceiver cx id n (s, l) = some (.error (.cancelled "instanceOf"), later, l) ∨
        visitReceiver cx id n (s, l) = some (.ok (isInstance cx id n), later, l ++ openedFrom cx n)) := by
  -- the state after the check is the same whether it is refused or not
  let later : State := { s with log := ⟨.check "instanceOf", cx.watch s.store⟩ :: s.log }
  by_cases hstop : cx.cancellation later.log = true
  · have hcheck : check cx "instanceOf" s = some (.error (.cancelled "instanceOf"), later) := by
      rw [check_apply, if_pos hstop]
    refine ⟨later, checks_of_check hcheck, Or.inl ?_⟩
    rw [visitReceiver, Run.bind_apply, Run.silent_of_some hcheck]
  · have hcheck : check cx "instanceOf" s = some (.ok (), later) := by
      rw [check_apply, if_neg hstop]
    refine ⟨later, checks_of_check hcheck, Or.inr ?_⟩
    rw [visitReceiver, Run.bind_apply, Run.silent_of_some hcheck]
    rfl

/-- **Receivers are taken in order,** with one check for each of them, until one is refused. -/
theorem selectM_visitReceiver (id : String) (ns : List Node) {s t : State} {l l' : List Graphs.Query}
    {r : Except Error (List Node)} (hrun : selectM (visitReceiver cx id) ns (s, l) = some (r, t, l')) :
    ∃ passed, passed <+: ns ∧ l' = l ++ passed.flatMap (openedFrom cx) ∧
      s.checks + passed.length ≤ t.checks ∧ t.checks ≤ s.checks + passed.length + 1 := by
  induction ns generalizing s l r with
  | nil =>
    cases hrun
    exact ⟨[], List.prefix_refl [], (List.append_nil _).symm, Nat.le_refl _, Nat.le_succ _⟩
  | cons n ns ih =>
    rw [selectM, Run.bind_apply] at hrun
    obtain ⟨later, hlater, hstop | hpass⟩ := visitReceiver_cases id n s l
    · rw [hstop] at hrun
      -- the first receiver is refused: nothing has been opened, and the check is the one more
      cases hrun
      exact ⟨[], List.nil_prefix, (List.append_nil _).symm, hlater ▸ Nat.le_succ _, Nat.le_of_eq hlater⟩
    · rw [hpass] at hrun
      -- whether the receiver is taken or not, the others come next
      obtain ⟨r', hrest⟩ : ∃ r', selectM (visitReceiver cx id) ns (later, l ++ openedFrom cx n) =
          some (r', t, l') := by
        dsimp only at hrun
        split at hrun
        · rcases Run.bind_cases hrun with ⟨e, hfail, -⟩ | ⟨found, u, hrest, hpure⟩
          · exact ⟨_, hfail⟩
          · cases hpure
            exact ⟨_, hrest⟩
        · exact ⟨r, hrun⟩
      obtain ⟨passed, hpassed, hopened, hchecks⟩ := ih hrest
      refine ⟨n :: passed, List.cons_prefix_cons.mpr ⟨rfl, hpassed⟩, ?_, ?_⟩
      · rw [hopened, List.flatMap_cons, List.append_assoc]
      · rw [List.length_cons]
        omega

/-- `instanceOf` makes one check for each receiver from which it collects nodes. -/
theorem visitInstanceOf_checks {s t : State} {r : Except Error Value} {visited : List Graphs.Query}
    (hrun : visitInstanceOf cx nodes args (s, []) = some (r, t, visited)) :
    ∃ passed, passed <+: nodes.toList ∧ visited = passed.flatMap (openedFrom cx) ∧
      s.checks + passed.length ≤ t.checks ∧ t.checks ≤ s.checks + passed.length + 1 := by
  -- without a fitting argument no receiver is taken
  rcases Run.bind_cases hrun with ⟨e, hfail, -⟩ | ⟨id, u, hid, hrest⟩
  · rw [Run.silent_of_some (result_apply _ s)] at hfail
    obtain ⟨-, hsame⟩ := Prod.mk.inj (Option.some.inj hfail)
    cases hsame
    exact ⟨[], List.nil_prefix, rfl, Nat.le_refl _, Nat.le_succ _⟩
  · rw [Run.silent_of_some (result_apply _ s)] at hid
    obtain ⟨-, rfl⟩ := Prod.mk.inj (Option.some.inj hid)
    rcases Run.bind_cases hrest with ⟨e, hfail, -⟩ | ⟨found, u, hselect, hpure⟩
    · exact selectM_visitReceiver id nodes.toList hfail
    · cases hpure
      exact selectM_visitReceiver id nodes.toList hselect

end Method

/-! ### How soon traversals stop -/

/-- A run that ends in `t` has made a check for each of some number of visits. If all checks are
refused from the `k`-th that it makes on, there are at most `k` of these visits, and the run ends
with a cancellation when it has made the check. -/
structure Eval.Covers (cx : Context) (s t : State) (r : Except Error Value) (visits : Nat) : Prop where
  /-- There is a check for each visit. -/
  checks : s.checks + visits ≤ t.checks
  /-- The visits until a refusal. -/
  visits_le : ∀ k, 0 < k → cx.cancellation.RefusesFrom (s.checks + k) → visits ≤ k
  /-- The refusal is the end. -/
  cancelled : ∀ k, 0 < k → cx.cancellation.RefusesFrom (s.checks + k) → s.checks + k ≤ t.checks →
    ∃ name, r = .error (.cancelled name)

/-- Where refusals are heeded, it is enough to count checks. -/
theorem Eval.Attentive.covers {cx : Context} {m : Eval Value} (hm : Attentive cx.cancellation m)
    {s t : State} {r : Except Error Value} (hrun : m s = some (r, t)) {visits : Nat}
    (hvisits : s.checks + visits ≤ t.checks) :
    Covers cx s t r visits where
  checks := hvisits
  visits_le k hk hstop := by
    -- the checks that have been made are at most `k`, and there is one for each visit
    rcases (hm s r t hrun).2 _ hstop (by omega) with hbelow | ⟨hend, -⟩
    · omega
    · omega
  cancelled k hk hstop hmade := by
    rcases (hm s r t hrun).2 _ hstop (by omega) with hbelow | ⟨-, hcancelled⟩
    · omega
    · exact hcancelled

/-- **The checks of traversals.** What a traversal visits can be recorded, and the record makes no
difference. `firstReachable` makes a check for each node and each edge that it visits. `firstDoc`
makes a check for each document that it visits, but need not make one for other nodes or for edges.
`instanceOf` makes a check for each receiver, in their order, and one more at most; from a receiver,
it opens all nodes that can be reached without a further check.

So if all checks are refused from the `k`-th one on, the first visits at most `k` elements until it
ends with the cancellation, the second at most `k` documents, and the third opens what can be
reached from at most `k` receivers. The functions of the host have to pass refusals on. -/
theorem traversal_checks {host : HostLibrary} (hhost : host.Attentive) (depth : Nat) (cx : Context)
    (nodes : OrderedSet Node) (args : List Value) {s t : State} {r : Except Error Value} :
    (Method.runFirstReachable (Value.call host depth) cx nodes args s = some (r, t) → ∃ visited,
      Method.visitFirstReachable (Value.call host depth) cx nodes args (s, []) = some (r, t, visited) ∧
      Eval.Covers cx s t r visited.length) ∧
    (Method.runFirstDoc (Value.call host depth) cx nodes args s = some (r, t) → ∃ visited,
      Method.visitFirstDoc (Value.call host depth) cx nodes args (s, []) = some (r, t, visited) ∧
      Eval.Covers cx s t r (visited.countP (Method.isDocument cx))) ∧
    (Method.runInstanceOf cx nodes args s = some (r, t) → ∃ visited passed,
      Method.visitInstanceOf cx nodes args (s, []) = some (r, t, visited) ∧ passed <+: nodes.toList ∧
      visited = passed.flatMap (Method.openedFrom cx) ∧ t.checks ≤ s.checks + passed.length + 1 ∧
      Eval.Covers cx s t r passed.length) := by
  have hR := Eval.uniform_attentive cx
  have hcall := hR.call (hhost cx) (fun _ _ _ hrun => nomatch hrun) depth
  -- that refusals are heeded is the same fact for all methods, those that are not mentioned included
  have hrun : ∀ m args, Eval.Attentive cx.cancellation (Method.run (Value.call host depth) cx args m) :=
    @Compatible.run _ hR.toCompatible (Value.call host depth) (Value.call host depth) cx cx.cancellation
      (hR.check cx.frame) (hR.test hcall cx.frame)
  refine ⟨fun hfirst => ?_, fun hdoc => ?_, fun hinstance => ?_⟩
  · obtain ⟨visited, hvisit⟩ := (Method.forgets_visitFirstReachable nodes args).exists_record hfirst []
    obtain ⟨new, hnew, hpaid⟩ := Method.pays_visitFirstReachable nodes args hcall s _ r t visited hvisit
    obtain rfl : visited = new := hnew
    rw [List.countP_true] at hpaid
    exact ⟨visited, hvisit, (hrun (.firstReachable nodes) args).covers hfirst hpaid⟩
  · obtain ⟨visited, hvisit⟩ := (Method.forgets_visitFirstDoc nodes args).exists_record hdoc []
    obtain ⟨new, hnew, hpaid⟩ := Method.pays_visitFirstDoc nodes args hcall s _ r t visited hvisit
    obtain rfl : visited = new := hnew
    exact ⟨visited, hvisit, (hrun (.firstDoc nodes) args).covers hdoc hpaid⟩
  · obtain ⟨visited, hvisit⟩ := (Method.forgets_visitInstanceOf nodes args).exists_record hinstance []
    obtain ⟨passed, hpassed, hvisited, hpaid, hmost⟩ := Method.visitInstanceOf_checks nodes args hvisit
    exact ⟨visited, passed, hvisit, hpassed, hvisited, hmost,
      (hrun (.instanceOf nodes) args).covers hinstance hpaid⟩

/-- A predicate that refuses all nodes, and a cancellation that allows two checks. The third one is
made for the second node, and ends the search. -/
theorem traversal_checks_third :
    let g := ((({} : Graph).addNode "a").addNode "b").addEdge 0 1 "x"
    let cx : Context :=
      { graphs := { all := #[g] }, cancellation := StopRule.cancellation { limit := some 2 }, frame := 0 }
    let receivers : OrderedSet Node := OrderedSet.ofList [⟨0, 0⟩]
    ∃ t visited, Method.visitFirstReachable (Value.call Host.standard 1) cx receivers [.bool false] ({}, []) =
        some (.error (.cancelled "predicate"), t, visited) ∧ visited.length ≤ 3 := by
  intro g cx receivers
  -- three checks are made: for the start, for the edge, and for the node behind it
  have hrun : Method.runFirstReachable (Value.call Host.standard 1) cx receivers [.bool false] {} =
      some (.error (.cancelled "predicate"), { log := List.replicate 3 ⟨.check "predicate", {}⟩ }) := by
    with_unfolding_all rfl
  obtain ⟨visited, hvisit, hcovers⟩ :=
    (traversal_checks Host.standard_attentive 1 cx receivers [.bool false]).1 hrun
  exact ⟨_, visited, hvisit, hcovers.visits_le 3 (by decide) (StopRule.refusesFrom 2)⟩

/-- **Nodes without a check.** With all checks refused, `firstDoc` goes from a node to others and
ends with a result, because none is a document. With all checks but one refused, `instanceOf` opens
three nodes and ends with a result, because it has one receiver. -/
theorem traversal_unchecked :
    let g := ((((({} : Graph).addNode "a").addNode "b").addNode "c").addEdge 0 1 "I").addEdge 1 2 "I"
    let refuseAll : Context :=
      { graphs := { all := #[g] }, cancellation := StopRule.cancellation { limit := some 0 }, frame := 0 }
    let allowOne : Context :=
      { graphs := { all := #[g] }, settings := { instanceOfLabel := "I" },
        cancellation := StopRule.cancellation { limit := some 1 }, frame := 0 }
    let receivers : OrderedSet Node := OrderedSet.ofList [⟨0, 0⟩]
    refuseAll.cancellation.RefusesFrom 1 ∧ allowOne.cancellation.RefusesFrom 2 ∧
      Method.visitFirstDoc (Value.call Host.standard 1) refuseAll receivers [.bool true] ({}, []) =
        some (.ok (.nodes OrderedSet.empty), {},
          [.node ⟨0, 0⟩, .edge ⟨0, 0⟩, .node ⟨0, 1⟩, .edge ⟨0, 1⟩, .node ⟨0, 2⟩]) ∧
      Method.visitInstanceOf allowOne receivers [.string "c"] ({}, []) =
        some (.ok (.nodes receivers), { log := [⟨.check "instanceOf", {}⟩] },
          [.node ⟨0, 0⟩, .node ⟨0, 1⟩, .node ⟨0, 2⟩]) := by
  intro g refuseAll allowOne receivers
  refine ⟨StopRule.refusesFrom 0, StopRule.refusesFrom 1, ?_, ?_⟩
  · with_unfolding_all rfl
  · with_unfolding_all rfl

end GraphQuery
