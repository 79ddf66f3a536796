import GraphQuery.Scope.Store
import GraphQuery.Value.Error

/-!
# The setting of an evaluation

An evaluation reads a `Context` and changes a `State`. It can end in three ways: with a value, with
an `Error`, or by running out of the number of nested calls that it was given. The state survives an
error, so that what was done up to it can be seen; running out leaves nothing.

An evaluation meets the world outside in two ways only, and both are written into a log:

* it makes **checks**, at which it may be told to stop (`Eval.check`);
* it calls functions of the host.

A `Cancellation` decides from the log, so two evaluations with equal logs are treated alike. Each
entry of the log is a `Contact`: the event, and what the context says is to be kept of the frames at
that moment. By default nothing is kept; a context that watches everything makes the log a history
of the frames.

What the language leaves to others is a parameter: the functions of the host (`HostLibrary`) and the
patterns that strings are compared with (`Matcher`).

## Main statements

* `Eval.bind_apply`, `Eval.bind_cases`: how evaluations are put together.
* `Eval.check_apply` and its neighbours: what the single steps do to the state.
-/

namespace GraphQuery

/-- What the host can configure. -/
structure Settings where
  /-- The label of the edges from a node to what it is an instance of. -/
  instanceOfLabel : String := "https://lschema.org/data/instanceOf"
  /-- The type of the nodes that stand for documents. -/
  documentType : String := "https://lschema.org/DocumentNode"

/-- A contact of an evaluation with the world outside. -/
inductive Event where
  /-- A check was made. -/
  | check (name : String)
  /-- A function of the host was called. -/
  | call (behavior : String) (arguments : List Value)

/-- An entry of the log. -/
structure Contact where
  /-- What happened. -/
  event : Event
  /-- What was kept of the frames at that moment. -/
  seen : Store

/-- Decides from the contacts so far, the newest first, whether the evaluation has to stop. The first
contact is the check that asks. -/
abbrev Cancellation := List Contact → Bool

/-- Never stops an evaluation. -/
def Cancellation.never : Cancellation := fun _ => false

/-- What an evaluation changes. -/
structure State where
  /-- The frames of variables. -/
  store : Store := {}
  /-- The number of the next closure literal. -/
  sites : Nat := 0
  /-- The identity of the next function. -/
  functions : Nat := 0
  /-- The contacts so far, the newest first. -/
  log : List Contact := []
  /-- What functions of the host have noted, the newest first. -/
  notes : List String := []

/-- A language of patterns: for the texts that are patterns, whether a text contains a match of them. -/
abbrev Matcher := String → Option (String → Bool)

/-- What an evaluation is given. -/
structure Context where
  /-- The graphs that values refer to. -/
  graphs : Graphs
  /-- The settings. -/
  settings : Settings := {}
  /-- The patterns; by default, no text is one. -/
  matcher : Matcher := fun _ => none
  /-- When to stop. -/
  cancellation : Cancellation := Cancellation.never
  /-- What the log keeps of the frames at a contact. -/
  watch : Store → Store := fun _ => {}
  /-- The frame in which names are looked up and assigned. -/
  frame : FrameId

/-- An evaluation: it changes the state and ends with a result or an error, or runs out. -/
abbrev Eval := ExceptT Error (StateT State Option)

/-- Calls a value with arguments. -/
abbrev Caller := Context → Value → List Value → Eval Value

/-- The functions of a host: what a call of one does, given a way to call values. -/
abbrev HostLibrary := Caller → Context → String → List Value → Eval Value

namespace Eval

/-- Runs out. -/
def exhausted {α : Type} : Eval α := fun _ => none

/-- A result that needs no state. -/
def result {α : Type} (r : Except Error α) : Eval α := ExceptT.mk (pure r)

/-- Writes an event into the log and gives the log with it. -/
def record (cx : Context) (e : Event) : Eval (List Contact) :=
  modifyGet fun s =>
    let log := ⟨e, cx.watch s.store⟩ :: s.log
    (log, { s with log })

/-- Makes a check, which may stop the evaluation. -/
def check (cx : Context) (name : String) : Eval Unit := do
  let log ← record cx (.check name)
  if cx.cancellation log then throw (.cancelled name)

/-- The value of a variable. -/
def lookup (cx : Context) (name : String) : Eval Value := do
  match (← get).store.get? cx.frame name with
  | some v => return v
  | none => throw (.unknownIdentifier name)

/-- Binds a name in a frame. -/
def declare (frame : FrameId) (name : String) (value : Value) : Eval Unit :=
  modify fun s => { s with store := s.store.declare frame name value }

/-- Makes a frame inside another one. -/
def nest (frame : FrameId) : Eval FrameId :=
  modifyGet fun s =>
    let (f, store) := s.store.nest frame
    (f, { s with store })

/-- An identity that no function has yet. -/
def newFunction : Eval Nat :=
  modifyGet fun s => (s.functions, { s with functions := s.functions + 1 })

/-! ### Evaluations as maps of states -/

theorem pure_apply {α : Type} (a : α) (s : State) : (pure a : Eval α) s = some (.ok a, s) := rfl

theorem result_apply {α : Type} (r : Except Error α) (s : State) : result r s = some (r, s) := rfl

/-- **One evaluation after the other.** The second runs only if the first ends with a result, and it
runs in the state that the first leaves. -/
theorem bind_apply {α β : Type} (m : Eval α) (f : α → Eval β) (s : State) :
    (m >>= f) s =
      match m s with
      | some (.ok a, t) => f a t
      | some (.error e, t) => some (.error e, t)
      | none => none := by
  change (m s).bind (fun p => ExceptT.bindCont f p.1 p.2) = _
  rcases m s with _ | ⟨_ | _, t⟩ <;> rfl

/-- After an evaluation that ends with a result, the second one runs. -/
theorem bind_of_ok {α β : Type} {m : Eval α} {f : α → Eval β} {s t : State} {a : α}
    (h : m s = some (.ok a, t)) : (m >>= f) s = f a t := by
  rw [bind_apply, h]

/-- A run of one evaluation after the other ends with an error of the first, or the second ends it. -/
theorem bind_cases {α β : Type} {m : Eval α} {f : α → Eval β} {s u : State} {r : Except Error β}
    (h : (m >>= f) s = some (r, u)) :
    (∃ e, m s = some (.error e, u) ∧ r = .error e) ∨
      ∃ a t, m s = some (.ok a, t) ∧ f a t = some (r, u) := by
  rw [bind_apply] at h
  rcases hm : m s with _ | ⟨e | a, t⟩
  · rw [hm] at h
    exact nomatch h
  · rw [hm] at h
    obtain ⟨rfl, rfl⟩ := Prod.mk.inj (Option.some.inj h)
    exact Or.inl ⟨e, rfl, rfl⟩
  · rw [hm] at h
    exact Or.inr ⟨a, t, rfl, h⟩

theorem record_apply (cx : Context) (e : Event) (s : State) :
    record cx e s =
      some (.ok (⟨e, cx.watch s.store⟩ :: s.log),
        { s with log := ⟨e, cx.watch s.store⟩ :: s.log }) := rfl

/-- **A check** is logged whether or not it stops the evaluation, and changes nothing else. -/
theorem check_apply (cx : Context) (name : String) (s : State) :
    check cx name s =
      some (if cx.cancellation (⟨.check name, cx.watch s.store⟩ :: s.log) then
          .error (.cancelled name)
        else .ok (),
        { s with log := ⟨.check name, cx.watch s.store⟩ :: s.log }) := by
  unfold check
  rw [bind_apply, record_apply]
  by_cases h : cx.cancellation (⟨.check name, cx.watch s.store⟩ :: s.log) = true
  · simp only [h, if_true]
    rfl
  · simp only [h]
    rfl

theorem lookup_apply (cx : Context) (name : String) (s : State) :
    lookup cx name s =
      some (match s.store.get? cx.frame name with
        | some v => .ok v
        | none => .error (.unknownIdentifier name), s) := by
  change (match s.store.get? cx.frame name with
    | some v => pure v
    | none => throw (.unknownIdentifier name) : Eval Value) s = _
  cases s.store.get? cx.frame name <;> rfl

/-- A variable that is bound has its value. -/
theorem lookup_of_get? {cx : Context} {name : String} {s : State} {v : Value}
    (h : s.store.get? cx.frame name = some v) : lookup cx name s = some (.ok v, s) := by
  rw [lookup_apply, h]

theorem declare_apply (frame : FrameId) (name : String) (value : Value) (s : State) :
    declare frame name value s =
      some (.ok (), { s with store := s.store.declare frame name value }) := rfl

theorem nest_apply (frame : FrameId) (s : State) :
    nest frame s = some (.ok (s.store.nest frame).1, { s with store := (s.store.nest frame).2 }) :=
  rfl

theorem newFunction_apply (s : State) :
    newFunction s = some (.ok s.functions, { s with functions := s.functions + 1 }) := rfl

end Eval

end GraphQuery
