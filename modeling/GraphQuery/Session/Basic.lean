import GraphQuery.Decimal.Layout
import GraphQuery.Host.Standard
import GraphQuery.Pattern.Parser
import GraphQuery.Script.Parser

/-!
# Sessions

A session is what a host holds between evaluations: graphs, the state, handles to frames of
variables, and values and scripts under names. Each handle owns the root of its frame, and a root
whose handles have all been dropped is empty.

`Session.evaluate` runs code in a frame and reports what came of it. It runs with the functions and the
patterns that the session has; `Host.standard` and `Pattern.matcher` are those of a session that is not
given others.

## Main statements

* `Session.evaluate_cases`: an evaluation changes the state only.
-/

namespace GraphQuery

/-- When to stop an evaluation: at the checks with a name, or at any check without one, once a
number of them has been made. -/
structure StopRule where
  /-- The name of the checks that count. -/
  name : Option String := none
  /-- How many may be made; without a number, any. -/
  limit : Option Nat := none

namespace StopRule

/-- Whether a contact counts. -/
def counts (rule : StopRule) (contact : Contact) : Bool :=
  match contact.event with
  | .check name => rule.name.all (· = name)
  | .call .. => false

/-- The rule as a decision: the check that asks must count, and be one too many. -/
def cancellation (rule : StopRule) : Cancellation := fun log =>
  match rule.limit with
  | none => false
  | some n => (log.take 1).any rule.counts && n < log.countP rule.counts

end StopRule

/-- How a script is to be run. -/
structure Options where
  /-- The settings. -/
  settings : Settings := {}
  /-- When to stop; with a rule, the checks are reported. -/
  rule : Option StopRule := none

/-- What came of an evaluation. -/
structure Report where
  /-- The value or the error. -/
  result : Except Error Value
  /-- What functions of the host have noted. -/
  notes : List String
  /-- The names of the checks, if a rule was given. -/
  checks : Option (List String)

/-- Why a request of the host fails. -/
inductive Failure where
  /-- The script cannot be read. -/
  | unreadable (error : ParseError)
  /-- The evaluation fails. -/
  | failed (error : Error)
  /-- No variable has the name. -/
  | undefined (name : String)
  /-- There is no such handle, value or script. -/
  | unknown (thing : String)

/-- The failure in words. -/
def Failure.message : Failure → String
  | .unreadable e => e.message
  | .failed e => e.message
  | .undefined name => (Error.unknownIdentifier name).message
  | .unknown thing => "no such " ++ thing

/-- The patterns of the library. -/
def Pattern.matcher : Matcher := fun text => (parse? text).map occursIn

/-- What a host holds. -/
structure Session where
  /-- The graphs. -/
  graphs : Graphs
  /-- What the functions of the host do. -/
  host : HostLibrary := Host.standard
  /-- The patterns that strings are compared with. -/
  matcher : Matcher := Pattern.matcher
  /-- How deep calls may nest. -/
  depth : Nat := 1000000000
  /-- The state of evaluations. -/
  state : State := {}
  /-- The frames of the handles; a dropped handle has none. -/
  handles : Array (Option FrameId) := #[]
  /-- Values under names. -/
  slots : List (String × Value) := []
  /-- Scripts under names. -/
  scripts : List (String × Code) := []

namespace Session

/-- A request of the host: it changes the session, and may fail or run out. -/
abbrev Request := ExceptT Failure (StateT Session Option)

namespace Request

/-- Runs out. -/
def exhausted {α : Type} : Request α := fun _ => none

/-- A result of the language. -/
def settle {α : Type} : Except Error α → Request α
  | .ok a => return a
  | .error e => throw (.failed e)

/-- Changes the frames. -/
def modifyStore (f : Store → Store) : Request Unit :=
  modify fun s => { s with state := { s.state with store := f s.state.store } }

/-- Makes a frame. -/
def makeFrame (f : Store → FrameId × Store) : Request FrameId :=
  modifyGet fun s =>
    let (frame, store) := f s.state.store
    (frame, { s with state := { s.state with store } })

/-- The tree of a source text. -/
def read (source : String) : Request Tree :=
  match parse source with
  | .ok tree => return tree
  | .error e => throw (.unreadable e)

/-- The code of a tree, with closure literals that are told from all others. -/
def load (tree : Tree) : Request Code :=
  modifyGet fun s =>
    let (code, sites) := tree.toCode s.state.sites
    (code, { s with state := { s.state with sites } })

end Request

open Request

/-- Evaluates code in a frame. -/
def evaluate (options : Options) (frame : FrameId) (code : Code) : Request Report := do
  let s ← get
  let cx : Context :=
    { graphs := s.graphs
      settings := options.settings
      matcher := s.matcher
      cancellation := (options.rule.map StopRule.cancellation).getD Cancellation.never
      frame }
  match code.run s.host s.depth cx { s.state with log := [], notes := [] } with
  | none => exhausted
  | some (result, state) =>
    set { s with state }
    let checks := state.log.reverse.filterMap fun contact =>
      match contact.event with
      | .check name => some name
      | .call .. => none
    return { result, notes := state.notes.reverse, checks := options.rule.map fun _ => checks }

/-- **An evaluation changes the state only**, as a run of the code does, and reports the result. -/
theorem evaluate_cases {options : Options} {frame : FrameId} {code : Code} {S T : Session}
    {r : Except Failure Report} (h : evaluate options frame code S = some (r, T)) :
    ∃ (cx : Context) (report : Report) (state : State), cx.frame = frame ∧ r = .ok report ∧
      T = { S with state } ∧
      code.run S.host S.depth cx { S.state with log := [], notes := [] } =
        some (report.result, state) := by
  let cx : Context :=
    { graphs := S.graphs
      settings := options.settings
      matcher := S.matcher
      cancellation := (options.rule.map StopRule.cancellation).getD Cancellation.never
      frame }
  let s : State := { S.state with log := [], notes := [] }
  change (match code.run S.host S.depth cx s with
    | none => exhausted
    | some (result, state) => (do
      MonadState.set { S with state }
      let checks := state.log.reverse.filterMap fun contact : Contact =>
        match contact.event with
        | .check name => some name
        | .call .. => none
      return { result, notes := state.notes.reverse, checks := options.rule.map fun _ => checks } :
        Request Report)) S = some (r, T) at h
  rcases hrun : code.run S.host S.depth cx s with _ | ⟨result, state⟩
  · rw [hrun] at h
    exact absurd h.symm (Option.some_ne_none _)
  · rw [hrun] at h
    obtain ⟨rfl, rfl⟩ := Prod.mk.inj (Option.some.inj h)
    exact ⟨cx, _, state, rfl, rfl, rfl, hrun⟩

end Session

end GraphQuery
