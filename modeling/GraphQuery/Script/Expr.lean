import GraphQuery.Script.Location

/-!
# Script trees

A script is one expression; statements are expressions too, grouped by lists and blocks. The type
`Expr L S` is indexed by what is known at two kinds of place:

* `L` annotates the constructs that a reader may want to find in the source, namely names, accesses
  and calls;
* `S` annotates the closure literals.

Two instances matter. A **tree** (`Tree`) is what reading a source text gives: it carries locations.
**Code** (`Code`) is what runs: locations are gone, so no evaluation can depend on them, and each
closure literal has a number of its own, its *site*, so that two closures can be told apart by the
literal they come from. `Expr.toCode` numbers the literals of a tree, and `Expr.erase` forgets all
annotations, for comparing trees.

## Main statements

* `Expr.erase_toCode`: numbering changes annotations only.
-/

namespace GraphQuery

/-- Expressions with annotations `L` at names, accesses and calls, and `S` at closure literals. -/
inductive Expr (L S : Type) where
  /-- The literal `null`. -/
  | null
  /-- The literals `true` and `false`. -/
  | bool (value : Bool)
  /-- A number, kept as it is written. -/
  | number (text : String)
  /-- A string constant. -/
  | string (value : String)
  /-- A variable that is read. -/
  | variable (name : String) (note : L)
  /-- A variable that is to be assigned. -/
  | target (name : String) (note : L)
  /-- An assignment to the variable that `target` stands for. -/
  | assign (target value : Expr L S) (note : L)
  /-- A named field or method of a value. -/
  | select (base : Expr L S) (selector : String) (note : L)
  /-- An element of a value. -/
  | index (base position : Expr L S) (note : L)
  /-- A conjunction that reads its right side only when the left side is true. -/
  | and (left right : Expr L S)
  /-- A disjunction that reads its right side only when the left side is false. -/
  | or (left right : Expr L S)
  /-- A negation. -/
  | not (operand : Expr L S)
  /-- A comparison for equality, or for inequality when `negated`. -/
  | equality (left right : Expr L S) (negated : Bool)
  /-- A call. -/
  | call (function : Expr L S) (arguments : List (Expr L S)) (note : L)
  /-- A closure literal with at most one parameter. -/
  | closure (site : S) (parameter : Option String) (body : Expr L S)
  /-- Statements that run in the current scope. -/
  | statements (body : List (Expr L S))
  /-- Statements that run in a scope of their own. -/
  | block (body : List (Expr L S))

namespace Expr

variable {L S : Type}

instance : Inhabited (Expr L S) := ⟨.null⟩

/-! ### Forgetting annotations -/

mutual

/-- The expression without its annotations. -/
def erase : Expr L S → Expr Unit Unit
  | .null => .null
  | .bool b => .bool b
  | .number t => .number t
  | .string s => .string s
  | .variable x _ => .variable x ()
  | .target x _ => .target x ()
  | .assign t v _ => .assign t.erase v.erase ()
  | .select b s _ => .select b.erase s ()
  | .index b i _ => .index b.erase i.erase ()
  | .and l r => .and l.erase r.erase
  | .or l r => .or l.erase r.erase
  | .not e => .not e.erase
  | .equality l r n => .equality l.erase r.erase n
  | .call f as _ => .call f.erase (eraseAll as) ()
  | .closure _ p b => .closure () p b.erase
  | .statements es => .statements (eraseAll es)
  | .block es => .block (eraseAll es)

/-- The expressions without their annotations. -/
def eraseAll : List (Expr L S) → List (Expr Unit Unit)
  | [] => []
  | e :: es => e.erase :: eraseAll es

end

/-! ### Numbering closure literals -/

mutual

/-- The code of an expression: locations are dropped and closure literals are numbered from the
counter on, each before the literals inside it. -/
def toCode : Expr L S → StateM Nat (Expr Unit Nat)
  | .null => pure .null
  | .bool b => pure (.bool b)
  | .number t => pure (.number t)
  | .string s => pure (.string s)
  | .variable x _ => pure (.variable x ())
  | .target x _ => pure (.target x ())
  | .assign t v _ => return .assign (← t.toCode) (← v.toCode) ()
  | .select b s _ => return .select (← b.toCode) s ()
  | .index b i _ => return .index (← b.toCode) (← i.toCode) ()
  | .and l r => return .and (← l.toCode) (← r.toCode)
  | .or l r => return .or (← l.toCode) (← r.toCode)
  | .not e => return .not (← e.toCode)
  | .equality l r n => return .equality (← l.toCode) (← r.toCode) n
  | .call f as _ => return .call (← f.toCode) (← toCodeAll as) ()
  | .closure _ p b => do
    let site ← modifyGet fun n => (n, n + 1)
    return .closure site p (← b.toCode)
  | .statements es => return .statements (← toCodeAll es)
  | .block es => return .block (← toCodeAll es)

/-- The code of several expressions, numbered from left to right. -/
def toCodeAll : List (Expr L S) → StateM Nat (List (Expr Unit Nat))
  | [] => pure []
  | e :: es => return (← e.toCode) :: (← toCodeAll es)

end

mutual

/-- **Numbering changes annotations only.** -/
theorem erase_toCode : ∀ (e : Expr L S) (n : Nat), (e.toCode n).1.erase = e.erase
  | .null, _ | .bool _, _ | .number _, _ | .string _, _ | .variable .., _ | .target .., _ => rfl
  | .assign t v _, n => by
    change assign (t.toCode n).1.erase (v.toCode (t.toCode n).2).1.erase () = _
    rw [erase_toCode t, erase_toCode v, erase]
  | .select b s _, n => by
    change select (b.toCode n).1.erase s () = _
    rw [erase_toCode b, erase]
  | .index b i _, n => by
    change index (b.toCode n).1.erase (i.toCode (b.toCode n).2).1.erase () = _
    rw [erase_toCode b, erase_toCode i, erase]
  | .and l r, n => by
    change and (l.toCode n).1.erase (r.toCode (l.toCode n).2).1.erase = _
    rw [erase_toCode l, erase_toCode r, erase]
  | .or l r, n => by
    change or (l.toCode n).1.erase (r.toCode (l.toCode n).2).1.erase = _
    rw [erase_toCode l, erase_toCode r, erase]
  | .not e, n => by
    change not (e.toCode n).1.erase = _
    rw [erase_toCode e, erase]
  | .equality l r b, n => by
    change equality (l.toCode n).1.erase (r.toCode (l.toCode n).2).1.erase b = _
    rw [erase_toCode l, erase_toCode r, erase]
  | .call f as _, n => by
    change call (f.toCode n).1.erase (eraseAll (toCodeAll as (f.toCode n).2).1) () = _
    rw [erase_toCode f, eraseAll_toCodeAll as, erase]
  | .closure _ p b, n => by
    change closure () p (b.toCode (n + 1)).1.erase = _
    rw [erase_toCode b, erase]
  | .statements es, n => by
    change statements (eraseAll (toCodeAll es n).1) = _
    rw [eraseAll_toCodeAll es, erase]
  | .block es, n => by
    change block (eraseAll (toCodeAll es n).1) = _
    rw [eraseAll_toCodeAll es, erase]

theorem eraseAll_toCodeAll :
    ∀ (es : List (Expr L S)) (n : Nat), eraseAll (toCodeAll es n).1 = eraseAll es
  | [], _ => rfl
  | e :: es, n => by
    change (e.toCode n).1.erase :: eraseAll (toCodeAll es (e.toCode n).2).1 = _
    rw [erase_toCode e, eraseAll_toCodeAll es, eraseAll]

end

end Expr

/-- An expression as it was read, with the locations of its parts. -/
abbrev Tree := Expr Location Unit

/-- An expression that can run, with numbered closure literals. -/
abbrev Code := Expr Unit Nat

end GraphQuery
