import GraphQuery.Script.Printer
import GraphQuery.Session.Query

/-!
# Commands of a host

The steps of a session: making, copying and dropping handles, running scripts, reading and writing
variables, asking about values. A step that fails changes nothing that it has not changed up to
there, and the session goes on.

## Main statements

* `Session.frameOf_cases`: a handle that has not been dropped has its frame.
-/

namespace GraphQuery

/-- A step of a session. -/
inductive Command where
  /-- A handle to a new root. -/
  | new
  /-- A handle to a new frame inside that of another handle. -/
  | nested (scope : Nat)
  /-- Another handle to the same frame. -/
  | clone (scope : Nat)
  /-- Drops a handle. -/
  | drop (scope : Nat)
  /-- Runs a source text, and may keep the value. -/
  | eval (scope : Nat) (source : String) (save : Option String) (options : Options)
  /-- Keeps the script of a source text. -/
  | compile (script source : String)
  /-- Runs a script that was kept. -/
  | run (script : String) (scope : Nat) (save : Option String) (options : Options)
  /-- Reads a variable, and may keep the value. -/
  | get (scope : Nat) (name : String) (save : Option String)
  /-- Asks whether a frame itself binds a variable. -/
  | isLocal (scope : Nat) (name : String)
  /-- Binds a variable. -/
  | set (scope : Nat) (name : String) (value : Description)
  /-- Changes a variable where it is bound. -/
  | mutate (scope : Nat) (name : String) (value : Description)
  /-- Asks whether two handles have the same frame. -/
  | sameScope (a b : Nat)
  /-- Shows a frame. -/
  | debug (scope : Nat)
  /-- Asks about a value. -/
  | ask (value : Description) (query : Query)

/-- What a step answers. -/
inductive Reply where
  /-- The number of a new handle. -/
  | handle (scope : Nat)
  /-- The number of a dropped handle. -/
  | dropped (scope : Nat)
  /-- What came of an evaluation. -/
  | report (report : Report)
  /-- The text of a script. -/
  | script (text : String)
  /-- A variable, if there is one. -/
  | variable (value : Option Value)
  /-- Whether a variable is local. -/
  | isLocal (value : Bool)
  /-- The step is done. -/
  | done
  /-- Whether frames are the same. -/
  | same (value : Bool)
  /-- A frame as text. -/
  | frames (text : String)
  /-- The answer to a question, and the elements visited on the way. -/
  | answer (result : Except Error Answer) (seen : List Value)

namespace Session

open Request

/-- The frame of a handle. -/
def frameOf (scope : Nat) : Request FrameId := do
  match (← get).handles.getD scope none with
  | some f => return f
  | none => throw (.unknown "scope")

/-- **A handle that has not been dropped** has its frame, and others have none. -/
theorem frameOf_cases (S : Session) (scope : Nat) :
    frameOf scope S = some (.error (.unknown "scope"), S) ∨
      ∃ f, S.handles[scope]? = some (some f) ∧ frameOf scope S = some (.ok f, S) := by
  have hframe : frameOf scope S = (match S.handles.getD scope none with
    | some f => pure f
    | none => throw (.unknown "scope") : Request FrameId) S := rfl
  rw [hframe, Array.getD_eq_getD_getElem?]
  rcases S.handles[scope]? with _ | _ | f
  · exact Or.inl rfl
  · exact Or.inl rfl
  · exact Or.inr ⟨f, rfl, rfl⟩

/-- A new handle to a frame. -/
def addHandle (frame : FrameId) : Request Nat :=
  modifyGet fun s => (s.handles.size, { s with handles := s.handles.push (some frame) })

/-- Keeps a value under a name if there is one. -/
def keep (slot : Option String) (v : Value) : Request Unit :=
  match slot with
  | some name => modify fun s => { s with slots := Assoc.put name v s.slots }
  | none => return ()

/-- Runs code in the frame of a handle, and may keep the value. -/
def runIn (scope : Nat) (save : Option String) (options : Options) (code : Code) :
    Request Report := do
  let report ← evaluate options (← frameOf scope) code
  if let .ok v := report.result then keep save v
  return report

/-- Takes a step. -/
def step : Command → Request Reply
  | .new => do
    return .handle (← addHandle (← makeFrame Store.newRoot))
  | .nested scope => do
    let parent ← frameOf scope
    let frame ← makeFrame (·.nest parent)
    modifyStore (·.retain frame)
    return .handle (← addHandle frame)
  | .clone scope => do
    let frame ← frameOf scope
    modifyStore (·.retain frame)
    return .handle (← addHandle frame)
  | .drop scope => do
    let frame ← frameOf scope
    modify fun s => { s with handles := s.handles.modify scope fun _ => none }
    modifyStore (·.release frame)
    return .dropped scope
  | .eval scope source save options => do
    return .report (← runIn scope save options (← load (← read source)))
  | .compile script source => do
    let tree ← read source
    let code ← load tree
    modify fun s => { s with scripts := Assoc.put script code s.scripts }
    return .script tree.display
  | .run script scope save options => do
    match (← get).scripts.lookup script with
    | some code => return .report (← runIn scope save options code)
    | none => throw (.unknown "script")
  | .get scope name save => do
    let v := (← get).state.store.get? (← frameOf scope) name
    if let some v := v then keep save v
    return .variable v
  | .isLocal scope name => do
    return .isLocal ((← get).state.store.local? (← frameOf scope) name).isSome
  | .set scope name value => do
    let v ← value.value
    let frame ← frameOf scope
    modifyStore (·.declare frame name v)
    return .done
  | .mutate scope name value => do
    let v ← value.value
    let frame ← frameOf scope
    match (← get).state.store.assign? frame name v with
    | some store =>
      modifyStore fun _ => store
      return .done
    | none => throw (.undefined name)
  | .sameScope a b => do
    return .same ((← frameOf a) = (← frameOf b))
  | .debug scope => do
    return .frames ((← get).state.store.debug (← frameOf scope))
  | .ask value query => do
    let (result, seen) ← query.answer (← value.value)
    return .answer result seen

/-- Takes steps one after the other; the answers are in order. -/
def steps : List Command → StateT Session Option (List (Except Failure Reply))
  | [] => return []
  | c :: cs => do
    let reply ← (step c).run
    return reply :: (← steps cs)

/-- Opens a session: a handle with the number 0 to a root with variables. -/
def start (bindings : List (String × Description)) : Request Unit := do
  let root ← makeFrame Store.newRoot
  let _ ← addHandle root
  for (name, description) in bindings do
    let v ← description.value
    modifyStore (·.declare root name v)

end Session

end GraphQuery
