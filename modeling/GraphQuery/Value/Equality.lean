import GraphQuery.Value.Coercion

/-!
# Two equalities

* `Value.equals` is the comparison of the language. It coerces: a boolean compares with the truth of
  the other value, a number or a string with its text. It fails where the sides have nothing in
  common.
* `Value.same` is the equality that a host sees. It never coerces and never fails: sets compare by
  their elements, properties by their contents, functions and closures by their identity.
-/

namespace GraphQuery.Value

/-- The comparison of the language. -/
def equals (gs : Graphs) (left right : Value) : Except Error Bool :=
  match left with
  | .null => .ok (right.kind = .null)
  | .bool b => do return b == (← right.toBool gs)
  | .number text => do return text == (← right.toText)
  | .string s => do return s == (← right.toText)
  | .strings ss =>
    match right with
    | .strings ts => .ok (ss == ts)
    | _ => .error (.incomparable left.kind right.kind)
  | .nodes ns =>
    match right with
    | .nodes ms => .ok (ns.same ms)
    | _ => .error (.incomparable left.kind right.kind)
  | .edges es =>
    match right with
    | .edges fs => .ok (es.same fs)
    | _ => .error (.incomparable left.kind right.kind)
  | .properties p =>
    match right with
    | .properties q => .ok (p.resolve gs = q.resolve gs)
    | _ => .error (.incomparable left.kind right.kind)
  | .function _ => .ok false
  | .list _ | .closure _ | .target _ => .error (.incomparable left.kind right.kind)

mutual

/-- The equality that a host sees. -/
def same (gs : Graphs) : Value → Value → Bool
  | .null, .null => true
  | .bool a, .bool b => a == b
  | .number a, .number b => a == b
  | .string a, .string b => a == b
  | .strings a, .strings b => a == b
  | .list a, .list b => sameAll gs a b
  | .nodes a, .nodes b => a.same b
  | .edges a, .edges b => a.same b
  | .properties a, .properties b => a.resolve gs = b.resolve gs
  | .function a, .function b => a.identity = b.identity
  | .closure a, .closure b => a.same b
  | .target a, .target b => a == b
  | _, _ => false

/-- Whether two lists have equal members at equal positions. -/
def sameAll (gs : Graphs) : List Value → List Value → Bool
  | [], [] => true
  | a :: as, b :: bs => a.same gs b && sameAll gs as bs
  | _, _ => false

end

end GraphQuery.Value
