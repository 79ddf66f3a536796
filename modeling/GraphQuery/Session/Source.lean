import GraphQuery.Session.Basic

/-!
# Evaluating sources

`evaluateWith` reads a source and evaluates it in a frame, without a session around it. What the source
assigns outside its blocks and closures is left in the frame.

## Main statements

* `evaluateWith_of_parse`: evaluating a source that can be read.
* `Evaluation.bind_apply`: one source after the other.
-/

namespace GraphQuery

/-- Reading and evaluating a source: it changes the state, and may fail or run out. -/
abbrev Evaluation := ExceptT Failure (StateT State Option)

/-- Reads a source and evaluates it in the frame of the context, where nothing stops it. Its closure
literals are numbered on from those that the state has seen. -/
def evaluateWith (host : HostLibrary) (depth : Nat) (cx : Context) (source : String) :
    Evaluation Value := fun s =>
  match parse source with
  | .error e => some (.error (.unreadable e), s)
  | .ok tree =>
    let (code, sites) := tree.toCode s.sites
    (code.run host depth { cx with cancellation := .never } { s with sites }).map fun (r, t) =>
      (r.mapError .failed, t)

theorem evaluateWith_of_parse {host : HostLibrary} {depth : Nat} {cx : Context} {source : String}
    {tree : Tree} (h : parse source = .ok tree) (s : State) :
    evaluateWith host depth cx source s =
      ((tree.toCode s.sites).1.run host depth { cx with cancellation := .never }
        { s with sites := (tree.toCode s.sites).2 }).map fun (r, t) =>
          (r.mapError .failed, t) := by
  unfold evaluateWith
  rw [h]
  rfl

theorem Evaluation.bind_apply {α β : Type} (m : Evaluation α) (f : α → Evaluation β) (s : State) :
    (m >>= f) s =
      match m s with
      | some (.ok a, t) => f a t
      | some (.error e, t) => some (.error e, t)
      | none => none := by
  change (m s).bind (fun p => ExceptT.bindCont f p.1 p.2) = _
  rcases m s with _ | ⟨_ | _, t⟩ <;> rfl

end GraphQuery
