import Mathlib.Data.Multiset.Defs
import GraphQuery.Value.Equality

/-!
# What a host takes for equal

A host compares values with `Value.same`. The comparison looks at a part of a value only, its
**contents** (`Value.contents`): of a set the elements and not their order, of properties what they
hold and not where they come from, of functions and closures their identity.

* Two values are the same exactly if their contents are equal (`Value.same_iff`). For sets this needs
  a count: the comparison goes through one of the two only, and is content with equal sizes. As
  neither set has duplicates, one that lies in another of its size is all of it
  (`OrderedSet.same_iff_perm`). That the comparison is an equivalence is then clear.
* Values with equal contents differ in few ways (`Value.Alike`), none of which a script can see: the
  coercions and the comparison of the language do not tell them apart.

## Main statements

* `OrderedSet.same_iff_perm`, `Value.same_iff`: what the comparison of a host decides.
* `Value.equals_of_plain`: where the comparison of the language is that of a host.
* `host_equality`: the comparison of a host is an equivalence that scripts respect.
-/

namespace GraphQuery

/-- **Sets are the same** if one lists the elements of the other in some order. -/
theorem OrderedSet.same_iff_perm {α : Type} [DecidableEq α] {s t : OrderedSet α} :
    s.same t = true ↔ s.toList.Perm t.toList := by
  rw [same, Bool.and_eq_true, decide_eq_true_iff, List.all_eq_true]
  constructor
  · rintro ⟨hsize, hall⟩
    have hsub : s.toList ⊆ t.toList := fun a ha => (contains_iff t a).mp (hall a ha)
    -- without duplicates, as many elements of `t` as there are in `t` are all of them
    exact (s.nodup.subperm hsub).perm_of_length_le hsize.ge
  · intro h
    exact ⟨h.length_eq, fun a ha => (contains_iff t a).mpr (h.subset ha)⟩

/-- What the comparison of a host looks at in a value. -/
inductive Contents where
  /-- Nothing. -/
  | null
  /-- A truth value. -/
  | bool (value : Bool)
  /-- The text of a number. -/
  | number (text : String)
  /-- A string. -/
  | string (value : String)
  /-- Strings and their order. -/
  | strings (values : List String)
  /-- What the members of a list contain, and their order. -/
  | list (values : List Contents)
  /-- Nodes without their order. -/
  | nodes (nodes : Multiset Node)
  /-- Edges without their order. -/
  | edges (edges : Multiset Edge)
  /-- Properties without their owner. -/
  | properties (properties : Properties)
  /-- The identity of a function. -/
  | function (identity : Nat)
  /-- The literal of a closure and its frame. -/
  | closure (site : Nat) (frame : Option FrameId)
  /-- The name of a target. -/
  | target (name : String)

namespace Value

mutual

/-- What the comparison of a host looks at. -/
def contents (gs : Graphs) : Value → Contents
  | .null => .null
  | .bool b => .bool b
  | .number text => .number text
  | .string s => .string s
  | .strings ss => .strings ss
  | .list vs => .list (contentsAll gs vs)
  | .nodes ns => .nodes ns.toList
  | .edges es => .edges es.toList
  | .properties p => .properties (p.resolve gs)
  | .function f => .function f.identity
  | .closure c => .closure c.site c.frame
  | .target name => .target name

/-- The contents of several values. -/
def contentsAll (gs : Graphs) : List Value → List Contents
  | [] => []
  | v :: vs => v.contents gs :: contentsAll gs vs

end

variable {gs : Graphs} {v v' w w' : Value}

/-! ### The comparison of a host -/

mutual

/-- **A host compares contents.** -/
theorem same_iff {v w : Value} : v.same gs w = true ↔ v.contents gs = w.contents gs := by
  cases v <;> cases w
  case list.list vs ws =>
    rw [same, contents, contents, Contents.list.injEq]
    exact sameAll_iff
  -- values of two kinds have different contents, and those of one kind are compared by parts
  all_goals simp [same, contents, OrderedSet.same_iff_perm, Closure.same]

/-- Lists are the same if they are member by member. -/
theorem sameAll_iff : ∀ {vs ws : List Value},
    sameAll gs vs ws = true ↔ contentsAll gs vs = contentsAll gs ws
  | [], [] => iff_of_true rfl rfl
  | [], _ :: _ => iff_of_false Bool.false_ne_true (List.cons_ne_nil _ _).symm
  | _ :: _, [] => iff_of_false Bool.false_ne_true (List.cons_ne_nil _ _)
  | v :: vs, w :: ws => by
    rw [sameAll, contentsAll, contentsAll, List.cons.injEq, Bool.and_eq_true, same_iff, sameAll_iff]

end

/-- **An equivalence:** to be the same is to have equal contents. -/
theorem equivalence_same (gs : Graphs) : Equivalence fun v w : Value => v.same gs w = true where
  refl _ := same_iff.mpr rfl
  symm h := same_iff.mpr (same_iff.mp h).symm
  trans h h' := same_iff.mpr ((same_iff.mp h).trans (same_iff.mp h'))

/-- The comparison depends on the contents alone. -/
theorem same_congr (hv : v.contents gs = v'.contents gs) (hw : w.contents gs = w'.contents gs) :
    v.same gs w = v'.same gs w' := by
  rw [Bool.eq_iff_iff, same_iff, same_iff, hv, hw]

/-! ### Values with equal contents -/

/-- How values with equal contents may differ. -/
inductive Alike (gs : Graphs) : Value → Value → Prop where
  /-- They are one value. -/
  | refl (v : Value) : Alike gs v v
  /-- They are lists, the members of which have equal contents. -/
  | list {vs ws : List Value} (h : contentsAll gs vs = contentsAll gs ws) :
      Alike gs (.list vs) (.list ws)
  /-- They are sets of the same nodes. -/
  | nodes {ns ms : OrderedSet Node} (h : ns.toList.Perm ms.toList) : Alike gs (.nodes ns) (.nodes ms)
  /-- They are sets of the same edges. -/
  | edges {es fs : OrderedSet Edge} (h : es.toList.Perm fs.toList) : Alike gs (.edges es) (.edges fs)
  /-- They are properties that hold the same. -/
  | properties {p q : PropertySource} (h : p.resolve gs = q.resolve gs) :
      Alike gs (.properties p) (.properties q)
  /-- They are functions. -/
  | function (f g : Function) : Alike gs (.function f) (.function g)
  /-- They are closures. -/
  | closure (c d : Closure) : Alike gs (.closure c) (.closure d)

/-- **Values with equal contents are alike.** -/
theorem alike_of_contents (h : v.contents gs = w.contents gs) : Alike gs v w := by
  cases v <;> cases w <;> simp only [contents, reduceCtorEq] at h
  case list.list => exact .list (Contents.list.inj h)
  case nodes.nodes => exact .nodes (Multiset.coe_eq_coe.mp (Contents.nodes.inj h))
  case edges.edges => exact .edges (Multiset.coe_eq_coe.mp (Contents.edges.inj h))
  case properties.properties => exact .properties (Contents.properties.inj h)
  case function.function => exact .function _ _
  case closure.closure => exact .closure _ _
  -- the contents of the other values are all of them
  all_goals cases h
  all_goals exact .refl _

/-- The kind depends on the contents alone. -/
theorem kind_congr (h : v.contents gs = w.contents gs) : v.kind = w.kind := by
  cases alike_of_contents h <;> rfl

/-- So does the truth value. -/
theorem toBool_congr (h : v.contents gs = w.contents gs) : v.toBool gs = w.toBool gs := by
  cases alike_of_contents h with
  | refl | function | closure => rfl
  | @list vs ws hvs =>
    -- lists with equal contents are both empty, or neither is
    cases vs with
    | nil => cases ws with
      | nil => rfl
      | cons => cases hvs
    | cons => cases ws with
      | nil => cases hvs
      | cons => rfl
  | nodes hperm | edges hperm =>
    rw [toBool, toBool, OrderedSet.isEmpty, OrderedSet.isEmpty, hperm.isEmpty_eq]
  | properties hresolve => rw [toBool, toBool, hresolve]

/-- So does the integer. -/
theorem toInt_congr (h : v.contents gs = w.contents gs) : v.toInt = w.toInt := by
  cases alike_of_contents h <;> rfl

mutual

/-- So does the text. -/
theorem toText_congr {v w : Value} (h : v.contents gs = w.contents gs) : v.toText = w.toText := by
  cases v
  case list vs =>
    cases alike_of_contents h with
    | refl => rfl
    | list hvs => rw [toText, toText, toTexts_congr hvs]
  -- the others have no text, or nothing can differ but the order of a set that has none
  all_goals
    cases alike_of_contents h
    all_goals rfl

/-- The texts of the members of a list. -/
theorem toTexts_congr : ∀ {vs ws : List Value}, contentsAll gs vs = contentsAll gs ws →
    toTexts vs = toTexts ws
  | [], [], _ => rfl
  | v :: vs, w :: ws, h => by
    obtain ⟨hv, hvs⟩ := List.cons.inj h
    rw [toTexts, toTexts, toText_congr hv, toTexts_congr hvs]

end

/-! ### The comparison of the language -/

/-- The kinds that the language compares with their own kind only, and without coercion. -/
def plainKinds : List Kind := [.strings, .nodes, .edges, .properties]

/-- **Where the two comparisons agree:** on strings, sets and properties, if both sides are of one
kind. -/
theorem equals_of_plain (hv : v.kind ∈ plainKinds) (w : Value) :
    v.equals gs w =
      if w.kind = v.kind then .ok (v.same gs w) else .error (.incomparable v.kind w.kind) := by
  cases v
  case strings | nodes | edges | properties => cases w <;> simp [equals, same, kind]
  all_goals exact absurd hv (by simp [plainKinds, kind])

/-- **Scripts respect the comparison of a host.** -/
theorem equals_congr (hv : v.contents gs = v'.contents gs) (hw : w.contents gs = w'.contents gs) :
    v.equals gs w = v'.equals gs w' := by
  have hkind := kind_congr hw
  by_cases hplain : v.kind ∈ plainKinds
  · have hplain' : v'.kind ∈ plainKinds := kind_congr hv ▸ hplain
    rw [equals_of_plain hplain, equals_of_plain hplain', kind_congr hv, hkind, same_congr hv hw]
  · cases alike_of_contents hv with
    | function => rfl
    | list | closure => rw [equals, equals, hkind, kind_congr hv]
    | nodes | edges | properties => exact absurd (by simp [plainKinds, kind]) hplain
    | refl =>
      cases v with
      | null | list | closure | target => rw [equals, equals, hkind]
      | bool => rw [equals, equals, toBool_congr hw]
      | number | string => rw [equals, equals, toText_congr hw]
      | function => rfl
      | strings | nodes | edges | properties => exact absurd (by simp [plainKinds, kind]) hplain

end Value

/-- **The comparison of a host** is an equivalence of all values. Scripts respect it: values that are
the same have the same kind, the same truth, integer and text, or fail to have one with the same
error, and comparing them in a script gives the same answer or the same error. -/
theorem host_equality (gs : Graphs) :
    (Equivalence fun a b : Value => a.same gs b = true) ∧
    ∀ {a a' b b' : Value}, a.same gs a' = true → b.same gs b' = true →
      a.kind.name = a'.kind.name ∧ a.toBool gs = a'.toBool gs ∧ a.toInt = a'.toInt ∧
        a.toText = a'.toText ∧ a.equals gs b = a'.equals gs b' := by
  refine ⟨Value.equivalence_same gs, fun ha hb => ?_⟩
  have ha := Value.same_iff.mp ha
  have hb := Value.same_iff.mp hb
  exact ⟨congrArg Kind.name (Value.kind_congr ha), Value.toBool_congr ha, Value.toInt_congr ha,
    Value.toText_congr ha, Value.equals_congr ha hb⟩

/-- Two lists with the same nodes in another order, and with the same properties once of a node and
once free-standing. -/
theorem host_equality_nested :
    let pairs := [("k", PropertyValue.string "x")]
    let gs : Graphs := { all := #[Graph.build [{ id := "n", properties := pairs }, { id := "m" }] []] }
    let left : Value := .list [.nodes (OrderedSet.ofList [⟨0, 0⟩, ⟨0, 1⟩]), .properties (.node ⟨0, 0⟩)]
    let right : Value := .list [.nodes (OrderedSet.ofList [⟨0, 1⟩, ⟨0, 0⟩]),
      .properties (.detached (Properties.empty.insertAll pairs))]
    left.same gs right = true ∧ right.same gs left = true ∧ left.toText = right.toText ∧
      (Value.bool true).equals gs left = (Value.bool true).equals gs right := by
  intro pairs gs left right
  have hsame : left.same gs right = true := by decide
  obtain ⟨hequivalence, hrespected⟩ := host_equality gs
  have htrue := hequivalence.refl (.bool true)
  obtain ⟨-, -, -, htext, -⟩ := hrespected hsame htrue
  obtain ⟨-, -, -, -, hequals⟩ := hrespected htrue hsame
  exact ⟨hsame, hequivalence.symm hsame, htext, hequals⟩

end GraphQuery
