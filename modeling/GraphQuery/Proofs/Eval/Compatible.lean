import GraphQuery.Eval.Call

/-!
# Relations that evaluation respects

The methods of nodes search graphs with tests that are evaluations themselves. They look at the
results of the tests and at nothing else. So a relation between the computations of two monads that agrees
with values and with sequencing (`Sequential`) passes from the tests to the search. One between evaluations
that is **compatible** with all results and with sequencing passes to the method: if the tests of two calls
are related one by one, the calls are related. The same goes for expressions, closures and calls of any
depth, once the relation holds between the single steps that they are made of; such a relation is
**uniform**.

The statements are about two evaluations, which may run with different libraries of the host and
under different cancellations. A property of single evaluations is the case of a relation that
ignores the second one.

## Main statements

* `Sequential.firstReachable`, `Sequential.walk`, `Compatible.run`: searches, walks and methods.
* `Uniform.eval`, `Uniform.callThen`, `Uniform.call`: expressions, and calls of any depth.
-/

namespace GraphQuery

/-- A relation between computations that every value has to itself and that sequencing keeps. -/
structure Sequential {M M' : Type → Type} [Monad M] [Monad M']
    (R : (α : Type) → M α → M' α → Prop) : Prop where
  /-- A value is related to itself. -/
  pure : ∀ {α : Type} (a : α), R α (Pure.pure a) (Pure.pure a)
  /-- Related computations go on as related computations if they do so for each result. -/
  bind : ∀ {α β : Type} {m : M α} {m' : M' α} {f : α → M β} {f' : α → M' β}, R α m m' →
    (∀ a, R β (f a) (f' a)) → R β (m >>= f) (m' >>= f')

/-- A relation between evaluations that every result has to itself and that sequencing keeps. -/
structure Compatible (R : (α : Type) → Eval α → Eval α → Prop) : Prop where
  /-- A result that needs no state is related to itself. -/
  result : ∀ {α : Type} (r : Except Error α), R α (Eval.result r) (Eval.result r)
  /-- Related evaluations go on as related evaluations if they do so for each result. -/
  bind : ∀ {α β : Type} {m m' : Eval α} {f f' : α → Eval β}, R α m m' →
    (∀ a, R β (f a) (f' a)) → R β (m >>= f) (m' >>= f')

namespace Sequential

variable {M M' : Type → Type} [Monad M] [Monad M'] {R : (α : Type) → M α → M' α → Prop}
  (hR : Sequential R)

include hR

/-! ### Searches -/

section Search

variable {gs : Graphs} {accept : Node → M Bool} {accept' : Node → M' Bool} {follow : Edge → M Bool}
  {follow' : Edge → M' Bool}
  (haccept : ∀ n, R Bool (accept n) (accept' n)) (hfollow : ∀ e, R Bool (follow e) (follow' e))

include haccept hfollow

/-- **The search** along an agenda of edges, by induction on the rounds that are left. -/
theorem search (n : Nat) (seen : List Node) (agenda : List Edge) :
    R _ (gs.search accept follow n seen agenda) (gs.search accept' follow' n seen agenda) := by
  induction n generalizing seen agenda with
  -- without rounds the search ends, whatever is on the agenda
  | zero =>
    cases agenda with
    | nil => exact hR.pure none
    | cons e agenda => exact hR.pure none
  | succ n ih =>
    cases agenda with
    | nil => exact hR.pure none
    | cons e agenda =>
      unfold Graphs.search
      dsimp only
      -- a node that was seen is tested in neither search
      split
      · exact ih seen agenda
      · refine hR.bind (hfollow e) fun followed => ?_
        split
        · refine hR.bind (haccept _) fun accepted => ?_
          split
          · exact hR.pure _
          · exact ih _ _
        · exact ih seen agenda

/-- The search from a node, which is tested first. -/
theorem firstReachable (start : Node) :
    R _ (gs.firstReachable accept follow start) (gs.firstReachable accept' follow' start) := by
  unfold Graphs.firstReachable
  refine hR.bind (haccept start) fun accepted => ?_
  split
  · exact hR.pure _
  · exact hR.search haccept hfollow _ _ _

end Search

/-- The first node that one of several searches finds. -/
theorem firstFrom {find : Node → M (Option Node)} {find' : Node → M' (Option Node)}
    (hfind : ∀ n, R _ (find n) (find' n)) (starts : List Node) :
    R _ (Method.firstFrom find starts) (Method.firstFrom find' starts) := by
  induction starts with
  | nil => exact hR.pure _
  | cons start rest ih =>
    unfold Method.firstFrom
    refine hR.bind (hfind start) fun found => ?_
    cases found with
    | some n => exact hR.pure _
    | none => exact ih

/-! ### Walks -/

/-- The members of a list that pass a test. -/
theorem selectM {α : Type} {p : α → M Bool} {p' : α → M' Bool} (hp : ∀ a, R Bool (p a) (p' a))
    (as : List α) : R _ (GraphQuery.selectM p as) (GraphQuery.selectM p' as) := by
  induction as with
  | nil => exact hR.pure _
  | cons a as ih =>
    unfold GraphQuery.selectM
    refine hR.bind (hp a) fun taken => ?_
    split
    · exact hR.bind ih fun rest => hR.pure _
    · exact ih

/-- The nodes that accepted edges lead to. -/
theorem arrive {gs : Graphs} {accept : Node → M Bool} {accept' : Node → M' Bool}
    (haccept : ∀ n, R Bool (accept n) (accept' n)) (found : OrderedSet Node) (edges : List Edge) :
    R _ (gs.arrive accept found edges) (gs.arrive accept' found edges) := by
  induction edges generalizing found with
  | nil => exact hR.pure _
  | cons e rest ih =>
    unfold Graphs.arrive
    dsimp only
    -- a node that is there already is not tested in either walk
    split
    · exact ih found
    · refine hR.bind (haccept _) fun accepted => ?_
      split
      · exact ih _
      · exact ih found

/-- One step of a walk, from each node in turn. -/
theorem stepFrom {gs : Graphs} {step : Step M} {step' : Step M'}
    (hfollow : ∀ e, R Bool (step.follow e) (step'.follow e))
    (haccept : ∀ n, R Bool (step.accept n) (step'.accept n)) (found : OrderedSet Node)
    (nodes : List Node) : R _ (gs.stepFrom step found nodes) (gs.stepFrom step' found nodes) := by
  induction nodes generalizing found with
  | nil => exact hR.pure _
  | cons node rest ih =>
    unfold Graphs.stepFrom
    refine hR.bind (hR.selectM hfollow _) fun edges => ?_
    refine hR.bind (hR.arrive haccept _ _) fun next => ?_
    exact ih next

/-- The steps of both walks are made from the same list. -/
theorem walk {gs : Graphs} {ι : Type} {step : ι → Step M} {step' : ι → Step M'}
    (is : List ι) (hfollow : ∀ i ∈ is, ∀ e, R Bool ((step i).follow e) ((step' i).follow e))
    (haccept : ∀ i ∈ is, ∀ n, R Bool ((step i).accept n) ((step' i).accept n))
    (nodes : OrderedSet Node) :
    R _ (gs.walk (is.map step) nodes) (gs.walk (is.map step') nodes) := by
  induction is generalizing nodes with
  | nil => exact hR.pure _
  | cons i is ih =>
    have hi : i ∈ i :: is := List.mem_cons_self
    refine hR.bind (hR.stepFrom (hfollow i hi) (haccept i hi) _ _) fun next => ?_
    exact ih (fun j hj => hfollow j (List.mem_cons_of_mem i hj))
      (fun j hj => haccept j (List.mem_cons_of_mem i hj)) next

end Sequential

namespace Compatible

variable {R : (α : Type) → Eval α → Eval α → Prop} (hR : Compatible R)

include hR

theorem pure {α : Type} (a : α) : R α (Pure.pure a) (Pure.pure a) := hR.result (.ok a)

theorem throw {α : Type} (e : Error) : R α (MonadExcept.throw e) (MonadExcept.throw e) :=
  hR.result (.error e)

/-- What holds of evaluations holds of computations that are put in sequence. -/
theorem sequential : Sequential R := ⟨hR.pure, hR.bind⟩

/-! ### Methods -/

section Methods

variable {call call' : Caller} {cx : Context} {stop : Cancellation}
  (hcheck : ∀ name, R Unit (Eval.check cx name) (Eval.check { cx with cancellation := stop } name))
  (htest : ∀ (p : Predicate) (v : Value),
    R Bool (p.test call cx v) (p.test call' { cx with cancellation := stop } v))

include htest

/-- **The first match**, with a test of nodes and perhaps one of edges. -/
theorem runFirstReachable (nodes : OrderedSet Node) (args : List Value) :
    R _ (Method.runFirstReachable call cx nodes args)
      (Method.runFirstReachable call' { cx with cancellation := stop } nodes args) := by
  unfold Method.runFirstReachable
  refine hR.bind (hR.result _) fun ⟨v, rest⟩ => ?_
  refine hR.bind (hR.result _) fun accept => ?_
  -- the optional test defaults to a constant before any test is made
  have hfirst : ∀ follow : Predicate,
      R _ (Method.firstFrom (cx.graphs.firstReachable (accept.testNode call cx)
          (follow.testEdge call cx)) nodes.toList)
        (Method.firstFrom (cx.graphs.firstReachable
          (accept.testNode call' { cx with cancellation := stop })
          (follow.testEdge call' { cx with cancellation := stop })) nodes.toList) :=
    fun follow => hR.sequential.firstFrom
      (hR.sequential.firstReachable (fun n => htest accept _) (fun e => htest follow _)) _
  cases rest with
  | nil => exact hR.bind (hR.pure _) hfirst
  | cons w rest => exact hR.bind (hR.result _) hfirst

/-- The search for documents. -/
theorem runFirstDoc (nodes : OrderedSet Node) (args : List Value) :
    R _ (Method.runFirstDoc call cx nodes args)
      (Method.runFirstDoc call' { cx with cancellation := stop } nodes args) := by
  unfold Method.runFirstDoc
  refine hR.bind (hR.result _) fun ⟨v, rest⟩ => ?_
  refine hR.bind (hR.result _) fun predicate => ?_
  refine hR.bind (hR.result _) fun _ => ?_
  refine hR.sequential.firstFrom (hR.sequential.firstReachable (fun n => ?_) fun e => hR.pure _) _
  -- only nodes that are documents are tested
  dsimp only
  split
  · exact htest predicate _
  · exact hR.pure false

/-- **A walk**, whose arguments are read before it starts. -/
theorem runWalk (nodes : OrderedSet Node) (args : List Value) :
    R _ (Method.runWalk call cx nodes args)
      (Method.runWalk call' { cx with cancellation := stop } nodes args) := by
  unfold Method.runWalk
  refine hR.bind (hR.result _) fun steps => ?_
  refine hR.bind ?_ fun found => hR.pure _
  exact hR.sequential.walk steps (fun s _ e => htest s.1 _) (fun s _ n => htest s.2 _) nodes

include hcheck

omit htest in
/-- Nodes that are instances of something: a check is made for each receiver, and nothing is tested. -/
theorem runInstanceOf (nodes : OrderedSet Node) (args : List Value) :
    R _ (Method.runInstanceOf cx nodes args)
      (Method.runInstanceOf { cx with cancellation := stop } nodes args) := by
  unfold Method.runInstanceOf
  refine hR.bind (hR.result _) fun id => ?_
  refine hR.bind (hR.sequential.selectM (fun n => ?_) _) fun found => hR.pure _
  exact hR.bind (hcheck "instanceOf") fun _ => hR.pure _

/-- **Calls of a method** are related if its checks and its tests are. -/
theorem run (m : Method) (args : List Value) :
    R _ (m.run call cx args) (m.run call' { cx with cancellation := stop } args) := by
  cases m with
  | «matches» text => exact hR.result _
  | has strings => exact hR.result _
  | hasAny strings => exact hR.result _
  | hasAll strings => exact hR.result _
  | firstReachable nodes => exact hR.runFirstReachable htest nodes args
  | firstDoc nodes => exact hR.runFirstDoc htest nodes args
  | instanceOf nodes => exact hR.runInstanceOf hcheck nodes args
  | walk nodes => exact hR.runWalk htest nodes args

end Methods

end Compatible

/-! ### Calls that are nested too deep -/

/-- Calls a value, where a call that is nested deeper than the number says is up to `last`. -/
def Value.callThen (host : HostLibrary) (last : Caller) : Nat → Caller
  | 0 => last
  | depth + 1 => fun cx v args => v.callWith host (Value.callThen host last depth) cx args

/-- Calls of a number of levels are those where a call nested deeper does not come to an end. -/
theorem Value.call_eq_callThen (host : HostLibrary) (depth : Nat) :
    Value.call host depth = Value.callThen host (fun _ _ _ => Eval.exhausted) depth := by
  induction depth with
  | zero => rfl
  | succ depth ih =>
    unfold Value.call Value.callThen
    rw [ih]

/-- The levels of calls add up. -/
theorem Value.callThen_callThen (host : HostLibrary) (last : Caller) (depth more : Nat) :
    Value.callThen host (Value.callThen host last more) depth =
      Value.callThen host last (depth + more) := by
  induction depth with
  | zero => rw [Nat.zero_add, Value.callThen]
  -- the outermost level is the same on both sides, and what is to be shown is about what is nested in it
  | succ depth ih =>
    rw [Nat.succ_add]
    unfold Value.callThen
    rw [ih]

/-! ### Uniform relations -/

/-- A compatible relation that holds between every single step of an evaluation in a context and the
same step under another cancellation. An evaluation moves from frame to frame, and the rest of its
context stays as it is. -/
structure Uniform (R : (α : Type) → Eval α → Eval α → Prop) (cx : Context) (stop : Cancellation) :
    Prop extends Compatible R where
  /-- Reading a variable. -/
  lookup : ∀ frame name, R _ (Eval.lookup { cx with frame } name)
    (Eval.lookup { cx with frame, cancellation := stop } name)
  /-- Binding a name. -/
  declare : ∀ frame name value,
    R _ (Eval.declare frame name value) (Eval.declare frame name value)
  /-- Making a frame. -/
  nest : ∀ frame, R _ (Eval.nest frame) (Eval.nest frame)
  /-- Making a function. -/
  newFunction : R _ Eval.newFunction Eval.newFunction
  /-- A check. -/
  check : ∀ frame name, R _ (Eval.check { cx with frame } name)
    (Eval.check { cx with frame, cancellation := stop } name)

namespace Uniform

variable {R : (α : Type) → Eval α → Eval α → Prop} {cx : Context} {stop : Cancellation}

/-- Calls of the same value with the same arguments are related. -/
def Calls (R : (α : Type) → Eval α → Eval α → Prop) (cx : Context) (stop : Cancellation)
    (call call' : Caller) : Prop :=
  ∀ frame v args, R _ (call { cx with frame } v args)
    (call' { cx with frame, cancellation := stop } v args)

/-- Calls of the same function of two libraries, each with the entry in the log that it makes, are
related if the calls nested in them are. -/
def Hosts (R : (α : Type) → Eval α → Eval α → Prop) (cx : Context) (stop : Cancellation)
    (host host' : HostLibrary) : Prop :=
  ∀ call call' : Caller, Calls R cx stop call call' → ∀ frame behavior args,
    R _ (Eval.record { cx with frame } (.call behavior args) >>= fun _ =>
        host call { cx with frame } behavior args)
      (Eval.record { cx with frame, cancellation := stop } (.call behavior args) >>= fun _ =>
        host' call' { cx with frame, cancellation := stop } behavior args)

variable (hR : Uniform R cx stop)

include hR

/-- A field or a method, for which a function is made. -/
theorem select (frame : FrameId) (v : Value) (name : String) :
    R _ (Eval.select { cx with frame } v name)
      (Eval.select { cx with frame, cancellation := stop } v name) :=
  hR.bind hR.newFunction fun _ => hR.result _

section Code

variable {call call' : Caller}

mutual

/-- **Expressions** are related if calls are. -/
theorem eval (hcall : Calls R cx stop call call') (frame : FrameId) (e : Code) :
    R _ (e.eval call { cx with frame }) (e.eval call' { cx with frame, cancellation := stop }) := by
  cases e with
  | null => exact hR.pure _
  | bool b => exact hR.pure _
  | number text => exact hR.pure _
  | string s => exact hR.pure _
  | «variable» x l => exact hR.lookup frame x
  | target x l => exact hR.pure _
  | assign t v l =>
    refine hR.bind (eval hcall frame t) fun w => ?_
    refine hR.bind (hR.result _) fun name => ?_
    -- the name must be a target before the value is evaluated, on both sides
    refine hR.bind (eval hcall frame v) fun value => ?_
    exact hR.bind (hR.declare frame name value) fun _ => hR.pure _
  | select b name l => exact hR.bind (eval hcall frame b) fun v => hR.select frame v name
  | index b i l =>
    refine hR.bind (eval hcall frame b) fun base => ?_
    refine hR.bind (eval hcall frame i) fun position => ?_
    exact hR.result _
  | and l r =>
    refine hR.bind (eval hcall frame l) fun v => ?_
    refine hR.bind (hR.result _) fun taken => ?_
    -- the second operand is evaluated in both evaluations or in neither
    split
    · refine hR.bind (eval hcall frame r) fun w => ?_
      exact hR.bind (hR.result _) fun _ => hR.pure _
    · exact hR.pure _
  | or l r =>
    refine hR.bind (eval hcall frame l) fun v => ?_
    refine hR.bind (hR.result _) fun taken => ?_
    split
    · exact hR.pure _
    · refine hR.bind (eval hcall frame r) fun w => ?_
      exact hR.bind (hR.result _) fun _ => hR.pure _
  | not e =>
    refine hR.bind (eval hcall frame e) fun v => ?_
    exact hR.bind (hR.result _) fun _ => hR.pure _
  | equality l r negated =>
    refine hR.bind (eval hcall frame l) fun v => ?_
    refine hR.bind (eval hcall frame r) fun w => ?_
    exact hR.bind (hR.result _) fun _ => hR.pure _
  | call f as l =>
    refine hR.bind (eval hcall frame f) fun function => ?_
    refine hR.bind (evalAll hcall frame as) fun args => ?_
    exact hcall frame function args
  | closure site p b => exact hR.pure _
  | statements es => exact evalStatements hcall frame .null es
  -- what the block declares goes into a frame of its own
  | block es =>
    refine hR.bind (hR.nest frame) fun inner => ?_
    exact evalStatements hcall inner .null es

/-- Arguments, from left to right. -/
theorem evalAll (hcall : Calls R cx stop call call') (frame : FrameId) (es : List Code) :
    R _ (Expr.evalAll call { cx with frame } es)
      (Expr.evalAll call' { cx with frame, cancellation := stop } es) := by
  cases es with
  | nil => exact hR.pure _
  | cons e es =>
    refine hR.bind (eval hcall frame e) fun v => ?_
    exact hR.bind (evalAll hcall frame es) fun _ => hR.pure _

/-- Statements, each after its check. -/
theorem evalStatements (hcall : Calls R cx stop call call') (frame : FrameId) (last : Value)
    (es : List Code) :
    R _ (Expr.evalStatements call { cx with frame } last es)
      (Expr.evalStatements call' { cx with frame, cancellation := stop } last es) := by
  cases es with
  | nil => exact hR.pure _
  | cons e es =>
    refine hR.bind (hR.check frame "statement") fun _ => ?_
    refine hR.bind (eval hcall frame e) fun v => ?_
    exact evalStatements hcall frame v es

end

variable (hcall : Calls R cx stop call call')

include hcall

/-- A call of a closure, in a new frame under the one that it has captured. -/
theorem invoke (frame : FrameId) (c : Closure) (v : Value) :
    R _ (c.invoke call { cx with frame } v)
      (c.invoke call' { cx with frame, cancellation := stop } v) := by
  refine hR.bind (hR.nest _) fun inner => ?_
  cases c.parameter with
  | none => exact hR.eval hcall inner c.body
  | some p => exact hR.bind (hR.declare inner p v) fun _ => hR.eval hcall inner c.body

/-- A test: a check, and then a closure or a constant. -/
theorem test (frame : FrameId) (p : Predicate) (v : Value) :
    R _ (p.test call { cx with frame } v)
      (p.test call' { cx with frame, cancellation := stop } v) := by
  refine hR.bind (hR.check frame "predicate") fun _ => ?_
  cases p with
  | closure c => exact hR.bind (hR.invoke hcall frame c v) fun _ => hR.result _
  | constant b => exact hR.pure b

/-- Calls are related if those nested in them are. -/
theorem callWith {host host' : HostLibrary} (hhost : Hosts R cx stop host host') :
    Calls R cx stop (fun cx v args => v.callWith host call cx args)
      (fun cx v args => v.callWith host' call' cx args) := by
  intro frame v args
  cases v with
  | function f =>
    refine hR.bind (hR.result _) fun _ => ?_
    -- how many arguments there are is settled before the function is called
    cases f.action with
    | method m => exact hR.toCompatible.run (hR.check frame) (hR.test hcall frame) m args
    | host behavior => exact hhost call call' hcall frame behavior args
  | closure c =>
    match args with
    | [] => exact hR.invoke hcall frame c .null
    | [v] => exact hR.invoke hcall frame c v
    | _ :: _ :: _ => exact hR.throw _
  | _ => exact hR.throw _

end Code

/-- **Calls of any depth** are related, if calls of the host are, and those that are nested too deep. -/
theorem callThen {host host' : HostLibrary} (hhost : Hosts R cx stop host host')
    {last last' : Caller} (hlast : Calls R cx stop last last') (depth : Nat) :
    Calls R cx stop (Value.callThen host last depth) (Value.callThen host' last' depth) := by
  induction depth with
  | zero => exact hlast
  | succ depth ih => exact hR.callWith ih hhost

/-- Calls of any depth are related, if calls of the host are; those that are nested too deep run out. -/
theorem call {host host' : HostLibrary} (hhost : Hosts R cx stop host host')
    (hexhausted : R Value Eval.exhausted Eval.exhausted) (depth : Nat) :
    Calls R cx stop (Value.call host depth) (Value.call host' depth) := by
  rw [Value.call_eq_callThen, Value.call_eq_callThen]
  exact hR.callThen hhost (fun _ _ _ => hexhausted) depth

end Uniform

end GraphQuery
