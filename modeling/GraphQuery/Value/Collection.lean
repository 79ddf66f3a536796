import GraphQuery.Value.Coercion

/-!
# Values as collections

* `Value.index` picks an element by its position or a property by its key; what is not there is
  null.
* `Value.add` joins two collections of one kind. Null may be added to a set of nodes or edges.
* `Value.iterate` applies a function to every element and adds up the results.
-/

namespace GraphQuery.Value

/-- The element at a position that a value gives, if it is in range. -/
def elementAt {α : Type} (elements : List α) (position : Value) : Except Error (Option α) := do
  let i ← position.toInt
  return if i < 0 then none else elements[i.toNat]?

/-- Picks an element by position or by key. -/
def index (gs : Graphs) (base position : Value) : Except Error Value :=
  match base with
  | .strings ss => do return ofString? (← elementAt ss position)
  | .list vs => do return (← elementAt vs position).getD .null
  | .properties p => do
    let key ← position.toText
    return (((p.resolve gs).get? key).map ofProperty).getD .null
  | _ => .error (.notIndexable base.kind)

/-- Joins two collections of one kind. -/
def add (left right : Value) : Except Error Value :=
  match left with
  | .strings ss =>
    match right with
    | .strings ts => .ok (.strings (ss ++ ts))
    | _ => .error (.incompatible left.kind right.kind)
  | .list vs =>
    match right with
    | .list ws => .ok (.list (vs ++ ws))
    | _ => .error (.incompatible left.kind right.kind)
  | .nodes ns =>
    match right with
    | .null => .ok left
    | .nodes ms => .ok (.nodes (ns.union ms))
    | _ => .error (.incompatible left.kind right.kind)
  | .edges es =>
    match right with
    | .null => .ok left
    | .edges fs => .ok (.edges (es.union fs))
    | _ => .error (.incompatible left.kind right.kind)
  | _ => .error .cannotAccumulate

/-- The elements of a collection. Sets fall apart into sets of one element, and a string is a
collection of itself. -/
def elements? : Value → Option (List Value)
  | .string s => some [.string s]
  | .strings ss => some (ss.map .string)
  | .list vs => some vs
  | .nodes ns => some (ns.toList.map ofNode)
  | .edges es => some (es.toList.map ofEdge)
  | _ => none

section Iterate

variable {m : Type → Type} [Monad m]

/-- Applies `f` to elements and adds the results to `total`. -/
def accumulate (f : Value → ExceptT Error m Value) : Value → List Value → ExceptT Error m Value
  | total, [] => pure total
  | total, e :: es => do
    let result ← f e
    match total.add result with
    | .ok total => accumulate f total es
    | .error _ => throw .cannotAccumulate

/-- Applies `f` to every element, in order, and adds up the results. Without elements the result is
null, and with one it is what `f` gives. -/
def iterate (v : Value) (f : Value → ExceptT Error m Value) : ExceptT Error m Value :=
  match v.elements? with
  | none => throw (.cannotIterate v.kind)
  | some [] => pure .null
  | some (e :: es) => do accumulate f (← f e) es

end Iterate

end GraphQuery.Value
