import GraphQuery.Eval.Expr
import GraphQuery.Proofs.Script.Parts

/-!
# Values and frames without targets

The left side of an assignment evaluates to a **target**, a value that only the assignment is meant to
see. This module says what it means that no other value is one.

A value is **plain** if no target is in it, at any depth of lists, and if the closures in it come from
scripts; any code could be in them otherwise. Closures capture frames, so there is more to a value than
what is in it. A frame leads to those that enclose it and to those that the closures bound in it have
captured (`Store.Reaches`). The values that can be reached from some frames are all plain exactly if
these frames belong to a set of frames that is **closed**: its frames lead to frames of the set only,
and bind values that are **clean**, which are the plain values whose closures have captured frames of the
set. A set that has all frames that are still to be made in it (`Store.Guarded`) stays closed when a
clean value is bound or a frame is made.

The operations on values make no targets and no closures, so what they are given decides whether their
results are clean; this goes for every property that passes from a list to its members and back
(`Value.Hereditary`). They fail for many reasons, but never for want of a target (`Gives`).

## Main statements

* `Store.Plain.guarded`, `Store.Closed.plain`: from what can be reached to closed sets, and back.
* `Store.Guarded.declare`, `Store.Guarded.nest`: binding a name, and making a frame.
* `Value.Hereditary.gives_select`, `Value.Hereditary.gives_index`, `Value.Hereditary.gives_add`:
  operations that give values.
-/

namespace GraphQuery

/-! ### Code of scripts -/

/-- The code is a part of a script. -/
def Expr.Scripted (e : Code) : Prop :=
  ∃ (source : String) (tree : Tree) (n : Nat), parse source = .ok tree ∧ e.Part (tree.toCode n).1

/-- The closure comes from a literal of a script. -/
def Closure.Scripted (c : Closure) : Prop := Expr.Scripted (.closure c.site c.parameter c.body)

/-- Code that is well targeted and whose closure literals come from scripts. -/
structure Expr.Regular (e : Code) : Prop where
  /-- The targets are in their places. -/
  wellTargeted : e.WellTargeted
  /-- The literals come from scripts. -/
  literal : ∀ site p b, Expr.Part (.closure site p b) e → Expr.Scripted (.closure site p b)

namespace Expr

/-- Parts of a script's code are parts of the script. -/
theorem Scripted.part {p e : Code} (h : e.Scripted) (hpart : Part p e) : p.Scripted := by
  obtain ⟨source, tree, n, hparse, he⟩ := h
  exact ⟨source, tree, n, hparse, hpart.trans he⟩

/-- What is missing for regular code from a script is that targets stand in their places. -/
theorem Scripted.regular {e : Code} (h : e.Scripted) (he : e.WellTargeted) : e.Regular :=
  ⟨he, fun _ _ _ hpart => h.part hpart⟩

/-- The code of a whole script. -/
theorem scripted_of_parse {source : String} {tree : Tree} (h : parse source = .ok tree) (n : Nat) :
    (tree.toCode n).1.Scripted := ⟨source, tree, n, h, .self⟩

/-- The parser puts targets on the left of assignments only. -/
theorem wellTargeted_of_parse {source : String} {tree : Tree} (h : parse source = .ok tree) (n : Nat) :
    (tree.toCode n).1.WellTargeted := (wellTargeted_toCode tree n).mpr (readFrom_of_parse h).wellTargeted

/-- Operands of regular code are regular, unless it is an assignment or a target. -/
theorem Regular.child {c e : Code} (h : e.Regular) (he : e.isBinding = false)
    (hc : c ∈ e.children) : c.Regular :=
  ⟨h.wellTargeted.child he hc, fun site p b hpart => h.literal site p b (.under hc hpart)⟩

/-- An assignment has a target on its left and regular code on its right. -/
theorem Regular.of_assign {t v : Code} {l : Unit} (h : Regular (.assign t v l)) :
    (∃ x m, t = .target x m) ∧ v.Regular := by
  obtain ⟨ht, hv⟩ := h.wellTargeted.of_assign
  refine ⟨ht, hv, fun site p b hpart => h.literal site p b (.under ?_ hpart)⟩
  exact List.mem_cons_of_mem t List.mem_cons_self

end Expr

namespace Closure

/-- **The body of a closure from a script** is regular, whatever script it comes from. -/
theorem Scripted.regular_body {c : Closure} (h : c.Scripted) : c.body.Regular := by
  -- the literal is not a target itself, so it is well targeted as a part of the script
  obtain ⟨source, tree, n, hparse, hpart⟩ := id h
  have hliteral : Expr.WellTargeted (.closure c.site c.parameter c.body) := by
    rcases (Expr.wellTargeted_of_parse hparse n).part hpart with hwell | ⟨x, m, heq⟩
    · exact hwell
    · exact nomatch heq
  exact (Expr.Scripted.regular h hliteral).child rfl List.mem_cons_self

/-- The comparison that a string stands for has no assignments and no literals of closures. -/
theorem regular_matching (selector text : String) : (matching selector text).body.Regular where
  wellTargeted :=
    .other rfl (List.forall_mem_cons.mpr ⟨.other rfl (List.forall_mem_cons.mpr
      ⟨.other rfl (List.forall_mem_nil _), List.forall_mem_nil _⟩),
      List.forall_mem_cons.mpr ⟨.other rfl (List.forall_mem_nil _), List.forall_mem_nil _⟩⟩)
  literal site p b hpart := by
    -- the parts are the comparison, the selection with its variable, and the string
    rcases hpart with _ | ⟨hchild, hpart⟩
    rcases List.mem_cons.mp hchild with rfl | hchild
    · rcases hpart with _ | ⟨hchild, hpart⟩
      obtain rfl := List.mem_singleton.mp hchild
      rcases hpart with _ | ⟨hchild, hpart⟩
      exact absurd hchild List.not_mem_nil
    · obtain rfl := List.mem_singleton.mp hchild
      rcases hpart with _ | ⟨hchild, hpart⟩
      exact absurd hchild List.not_mem_nil

end Closure

/-! ### Values without targets -/

/-- One value is another one, or a member of it at any depth of lists. -/
inductive Value.Inside (w : Value) : Value → Prop where
  /-- Every value is inside itself. -/
  | self : Inside w w
  /-- What is inside a member of a list is inside the list. -/
  | member {v : Value} {vs : List Value} (member : v ∈ vs) (inside : Inside w v) : Inside w (.list vs)

/-- No target is in the value, and the closures in it come from scripts. -/
structure Value.Plain (v : Value) : Prop where
  /-- There are no targets. -/
  target : ∀ x, ¬ Inside (.target x) v
  /-- Closures come from scripts. -/
  scripted : ∀ c, Inside (.closure c) v → c.Scripted

/-- The value is plain, and the closures in it have captured frames of `W` only. -/
structure Value.Clean (W : FrameId → Prop) (v : Value) : Prop extends v.Plain where
  /-- The frames of closures are in `W`. -/
  captured : ∀ c f, Inside (.closure c) v → c.frame = some f → W f

/-- Values of these kinds contain no other values. -/
def Kind.isSimple : Kind → Bool
  | .list | .closure | .target => false
  | _ => true

section Values

variable {W : FrameId → Prop}

namespace Value

/-- Nothing is inside a value that contains no others. -/
theorem Inside.eq_of_isSimple {w v : Value} (h : Inside w v) (hv : v.kind.isSimple = true) : w = v := by
  cases h with
  | self => rfl
  | member => exact nomatch hv

/-- Values that contain no others are clean, since they are neither targets nor closures. -/
theorem clean_of_isSimple {v : Value} (hv : v.kind.isSimple = true) : v.Clean W where
  target x h := by
    obtain rfl := h.eq_of_isSimple hv
    exact nomatch hv
  scripted c h := by
    obtain rfl := h.eq_of_isSimple hv
    exact nomatch hv
  captured c f h _ := by
    obtain rfl := h.eq_of_isSimple hv
    exact nomatch hv

/-- A list is clean if its members are. -/
theorem clean_list_iff {vs : List Value} : Clean W (.list vs) ↔ ∀ v ∈ vs, v.Clean W := by
  constructor
  · intro h v hv
    exact ⟨⟨fun x hx => h.target x (.member hv hx), fun c hc => h.scripted c (.member hv hc)⟩,
      fun c f hc => h.captured c f (.member hv hc)⟩
  · intro h
    refine ⟨⟨fun x hx => ?_, fun c hc => ?_⟩, fun c f hc => ?_⟩
    · cases hx with
      | member hv hx => exact (h _ hv).target x hx
    · cases hc with
      | member hv hc => exact (h _ hv).scripted c hc
    · cases hc with
      | member hv hc => exact (h _ hv).captured c f hc

/-- A closure from a script is clean if its frame is in `W`. -/
theorem clean_closure {c : Closure} (hc : c.Scripted) (hframe : ∀ f, c.frame = some f → W f) :
    Clean W (.closure c) where
  target x h := nomatch h
  scripted d h := by
    cases h with
    | self => exact hc
  captured d f h := by
    cases h with
    | self => exact hframe f

/-- The property holds of the values that contain no others, and of lists if it holds of the members. -/
structure Hereditary (P : Value → Prop) : Prop where
  /-- Values of a simple kind have the property. -/
  simple : ∀ {v : Value}, v.kind.isSimple = true → P v
  /-- A list has it exactly if its members do. -/
  list_iff : ∀ {vs : List Value}, P (.list vs) ↔ ∀ v ∈ vs, P v

/-- So whatever is shown for hereditary properties holds of cleanness. -/
theorem hereditary_clean : Hereditary (Clean W) := ⟨clean_of_isSimple, clean_list_iff⟩

namespace Hereditary

variable {P : Value → Prop} (hP : Hereditary P)

include hP

/-- Strings and null contain no other values. -/
theorem ofString? (s : Option String) : P (Value.ofString? s) := by
  cases s <;> exact hP.simple rfl

/-- Neither do properties. -/
theorem ofProperty (p : PropertyValue) : P (Value.ofProperty p) := by
  cases p <;> exact hP.simple rfl

/-- The elements that an iteration goes through have the property. -/
theorem elements {v : Value} (hv : P v) {es : List Value} (hes : v.elements? = some es) :
    ∀ e ∈ es, P e := by
  cases v with
  | list vs =>
    obtain rfl := Option.some.inj hes
    exact hP.list_iff.mp hv
  | string s =>
    obtain rfl := Option.some.inj hes
    exact List.forall_mem_cons.mpr ⟨hv, List.forall_mem_nil _⟩
  -- these elements are made for the iteration: strings, and sets of one
  | strings | nodes | edges =>
    obtain rfl := Option.some.inj hes
    intro e he
    obtain ⟨a, -, rfl⟩ := List.mem_map.mp he
    exact hP.simple rfl
  | _ => exact nomatch hes

end Hereditary

end Value

end Values

/-! ### Frames without targets -/

namespace Store

/-- The frame can be reached from the roots: through the frames that enclose one, and through the
closures that are bound in one. -/
inductive Reaches (s : Store) (roots : FrameId → Prop) : FrameId → Prop where
  /-- The roots are reached. -/
  | root {f : FrameId} (root : roots f) : Reaches s roots f
  /-- From a frame the frames around it are reached. -/
  | enclosing {f g : FrameId} (reached : Reaches s roots f) (encloses : g ∈ (s.frame f).enclosing) :
      Reaches s roots g
  /-- From a frame the frames are reached that closures in its variables have captured. -/
  | captured {f g : FrameId} {x : String} {v : Value} {c : Closure} (reached : Reaches s roots f)
      (bound : s.local? f x = some v) (inside : Value.Inside (.closure c) v)
      (frame : c.frame = some g) : Reaches s roots g

/-- All values that can be reached from the roots are plain. -/
def Plain (s : Store) (roots : FrameId → Prop) : Prop :=
  ∀ f, s.Reaches roots f → ∀ x v, s.local? f x = some v → v.Plain

/-- The frame can be reached from the roots, or it is not there yet. -/
def Known (s : Store) (roots : FrameId → Prop) (f : FrameId) : Prop :=
  s.Reaches roots f ∨ s.frames.size ≤ f

/-- From the frames of `W` only frames of `W` are reached, and all values on the way are plain. -/
structure Closed (W : FrameId → Prop) (s : Store) : Prop where
  /-- What encloses a frame of `W` is in `W`. -/
  enclosing : ∀ f, W f → ∀ g ∈ (s.frame f).enclosing, W g
  /-- What is bound in a frame of `W` is clean. -/
  value : ∀ f, W f → ∀ x v, s.local? f x = some v → v.Clean W

/-- The frames of `W` are closed, and frames that are not there yet are in `W`. -/
structure Guarded (W : FrameId → Prop) (s : Store) : Prop extends s.Closed W where
  /-- A new frame is in `W`. -/
  fresh : ∀ f, s.frames.size ≤ f → W f

/-- What can be reached from plain roots can be guarded. -/
theorem Plain.guarded {s : Store} {roots : FrameId → Prop} (h : s.Plain roots) :
    s.Guarded (s.Known roots) where
  fresh f hf := Or.inr hf
  enclosing f hf g hg := by
    rcases hf with hf | hf
    · exact Or.inl (.enclosing hf hg)
    · -- a frame that is not there yet leads nowhere
      rw [frame_of_size_le s hf] at hg
      exact absurd hg List.not_mem_nil
  value f hf x v hv := by
    rcases hf with hf | hf
    · exact ⟨h f hf x v hv, fun c g hc hframe => Or.inl (.captured hf hv hc hframe)⟩
    · rw [local?, frame_of_size_le s hf] at hv
      exact absurd hv.symm (Option.some_ne_none v)

section Guards

variable {W : FrameId → Prop} {s : Store}

/-- A closed set of frames has all that can be reached from it, by induction on the way there. -/
theorem Closed.of_reaches (h : s.Closed W) {f : FrameId} (hf : s.Reaches W f) : W f := by
  induction hf with
  | root hf => exact hf
  | enclosing _ hg ih => exact h.enclosing _ ih _ hg
  | captured _ hbound hinside hframe ih => exact (h.value _ ih _ _ hbound).captured _ _ hinside hframe

/-- So all values that can be reached from it are plain. -/
theorem Closed.plain (h : s.Closed W) : s.Plain W :=
  fun f hf x v hv => (h.value f (h.of_reaches hf) x v hv).toPlain

/-- The chain of a guarded frame is guarded. -/
theorem Guarded.chain (h : s.Guarded W) {f : FrameId} (hf : W f) : ∀ g ∈ s.chain f, W g :=
  List.forall_mem_cons.mpr ⟨hf, h.enclosing f hf⟩

/-- **A variable** that is looked up from a guarded frame has a clean value. -/
theorem Guarded.get? (h : s.Guarded W) {f : FrameId} (hf : W f) {x : String} {v : Value}
    (hv : s.get? f x = some v) : v.Clean W := by
  obtain ⟨g, hg, hlocal⟩ := List.exists_of_findSome?_eq_some hv
  exact h.value g (h.chain hf g hg) x v hlocal

/-! #### Binding a name -/

/-- What is bound after a write was bound before, unless it is what was written. -/
theorem local?_declare {f g : FrameId} {name x : String} {v w : Value}
    (h : (s.declare f name v).local? g x = some w) : w = v ∨ s.local? g x = some w := by
  unfold local? at h
  rcases s.frame_declare_cases f g name v with hframe | hframe
  · rw [hframe] at h
    exact Or.inr h
  · rw [hframe, Assoc.lookup_put] at h
    split at h
    · exact Or.inl (Option.some.inj h).symm
    · exact Or.inr h

/-- **Binding a clean value**, in any frame, keeps the frames guarded. -/
theorem Guarded.declare (h : s.Guarded W) (f : FrameId) (name : String) {v : Value}
    (hv : v.Clean W) : (s.declare f name v).Guarded W where
  fresh g hg := h.fresh g (s.size_declare f name v ▸ hg)
  enclosing g hg i hi := h.enclosing g hg i (s.enclosing_declare f g name v ▸ hi)
  value g hg x w hw := by
    rcases local?_declare hw with rfl | hw
    · exact hv
    · exact h.value g hg x w hw

/-! #### Making a frame -/

/-- **Making a frame** under a guarded one keeps the frames guarded. -/
theorem Guarded.nest (h : s.Guarded W) {f : FrameId} (hf : W f) : (s.nest f).2.Guarded W where
  fresh g hg := by
    -- the new frame is guarded already, as it was not there yet
    have hsize : (s.nest f).2.frames.size = s.frames.size + 1 := Array.size_push _
    exact h.fresh g (by omega)
  enclosing g hg i hi := by
    rw [frame_nest] at hi
    split at hi
    -- it sees what the frame sees under which it is made
    · exact h.chain hf i hi
    · exact h.enclosing g hg i hi
  value g hg x v hv := by
    rw [local?, frame_nest] at hv
    -- the new frame binds nothing
    split at hv
    · exact absurd hv.symm (Option.some_ne_none v)
    · exact h.value g hg x v hv

end Guards

end Store

/-! ### Results -/

/-- The result is a value with the property `P`, or an error that does not miss a target, unless the
host is known to raise it. -/
def Gives {α : Type} (raised : Kind → Prop) (P : α → Prop) : Except Error α → Prop
  | .ok a => P a
  | .error e => ∀ k, e = .notATarget k → raised k

section Results

variable {α β : Type} {raised : Kind → Prop} {P : α → Prop} {Q : β → Prop}

/-- **Sequencing:** an error of the first part is that of the whole. -/
theorem Gives.bind {r : Except Error α} {f : α → Except Error β} (hr : Gives raised P r)
    (hf : ∀ a, P a → Gives raised Q (f a)) : Gives raised Q (r >>= f) := by
  cases r with
  | error e => exact hr
  | ok a => exact hf a hr

/-- So the same holds of a loop over a list. -/
theorem gives_mapM {f : α → Except Error β} (hf : ∀ a, Gives raised (fun _ => True) (f a))
    (as : List α) : Gives raised (fun _ => True) (as.mapM f) := by
  induction as with
  | nil => exact trivial
  | cons a as ih =>
    rw [List.mapM_cons]
    exact (hf a).bind fun _ _ => ih.bind fun _ _ => trivial

namespace Value

/-! #### Coercions and comparisons -/

/-- A text that is no number is an error, but no missing target. -/
theorem gives_numberToBool (text : String) : Gives raised (fun _ => True) (numberToBool text) := by
  unfold numberToBool
  split
  · exact trivial
  · exact fun k h => nomatch h

theorem gives_toBool (gs : Graphs) (v : Value) : Gives raised (fun _ => True) (v.toBool gs) := by
  cases v with
  | number text => exact gives_numberToBool text
  | _ => exact trivial

theorem gives_textToInt (text : String) : Gives raised (fun _ => True) (textToInt text) := by
  unfold textToInt
  split
  · exact trivial
  · exact fun k h => nomatch h

theorem gives_toInt (v : Value) : Gives raised (fun _ => True) v.toInt := by
  cases v with
  | bool b => exact trivial
  | number text => exact gives_textToInt text
  | string s => exact gives_textToInt s
  | _ => exact fun k h => nomatch h

mutual

/-- Elements, properties and callables have no text, and the error says which kind it was. -/
theorem gives_toText (v : Value) : Gives raised (fun _ => True) v.toText := by
  cases v with
  | list vs =>
    rw [toText]
    exact (gives_toTexts vs).bind fun _ _ => trivial
  | nodes | edges | properties | function | closure =>
    rw [toText]
    exact fun k h => nomatch h
  | _ =>
    rw [toText]
    exact trivial

/-- The texts of members, up to the first one that has none. -/
theorem gives_toTexts (vs : List Value) : Gives raised (fun _ => True) (toTexts vs) := by
  cases vs with
  | nil =>
    rw [toTexts]
    exact trivial
  | cons v vs =>
    rw [toTexts]
    exact (gives_toText v).bind fun _ _ => (gives_toTexts vs).bind fun _ _ => trivial

end

theorem gives_toStrings (v : Value) : Gives raised (fun _ => True) v.toStrings := by
  cases v with
  | strings ss => exact trivial
  | _ => exact (gives_toText _).bind fun _ _ => trivial

/-- **Comparison** fails for operands that cannot be compared, or because of their coercions. -/
theorem gives_equals (gs : Graphs) (v w : Value) : Gives raised (fun _ => True) (v.equals gs w) := by
  cases v with
  | bool b => exact (gives_toBool gs w).bind fun _ _ => trivial
  | number text => exact (gives_toText w).bind fun _ _ => trivial
  | string s => exact (gives_toText w).bind fun _ _ => trivial
  | null | function => exact trivial
  -- collections and properties are compared with their own kind only
  | strings | nodes | edges | properties =>
    cases w with
    | strings | nodes | edges | properties => first | exact trivial | exact fun k h => nomatch h
    | _ => exact fun k h => nomatch h
  | list | closure | target => exact fun k h => nomatch h

/-! #### Collections and fields -/

/-- What stands at a position is a member. -/
theorem gives_elementAt (as : List α) (position : Value) :
    Gives raised (fun a? => ∀ a, a? = some a → a ∈ as) (elementAt as position) := by
  refine (gives_toInt position).bind fun i _ => ?_
  intro a ha
  split at ha
  · exact nomatch ha
  · exact List.mem_of_getElem? ha

/-- The error of a set with too few or too many elements is given by the caller. -/
theorem gives_only {s : OrderedSet α} {none many : Error} (hnone : ∀ k, none ≠ .notATarget k)
    (hmany : ∀ k, many ≠ .notATarget k) : Gives raised (fun _ => True) (s.only none many) := by
  unfold OrderedSet.only
  split
  · exact fun k h => absurd h (hnone k)
  · exact trivial
  · exact fun k h => absurd h (hmany k)

theorem gives_oneNode (ns : OrderedSet Node) : Gives raised (fun _ => True) (oneNode ns) :=
  gives_only (fun _ => nofun) fun _ => nofun

theorem gives_oneEdge (es : OrderedSet Edge) : Gives raised (fun _ => True) (oneEdge es) :=
  gives_only (fun _ => nofun) fun _ => nofun

namespace Hereditary

variable {P : Value → Prop} (hP : Hereditary P)

include hP

/-- **An element** of a value with the property has it, too. -/
theorem gives_index (gs : Graphs) {base : Value} (hbase : P base) (position : Value) :
    Gives raised P (base.index gs position) := by
  cases base with
  | strings ss => exact (gives_elementAt ss position).bind fun s? _ => hP.ofString? s?
  | list vs =>
    refine (gives_elementAt vs position).bind fun v? hv? => ?_
    cases v? with
    | none => exact hP.simple rfl
    | some v => exact hP.list_iff.mp hbase v (hv? v rfl)
  | properties p =>
    refine (gives_toText position).bind fun key _ => ?_
    rcases (p.resolve gs).get? key with _ | q
    · exact hP.simple rfl
    · exact hP.ofProperty q
  | _ => exact fun k h => nomatch h

/-- **The sum** of two values with the property has it, too. -/
theorem gives_add {v w : Value} (hv : P v) (hw : P w) : Gives raised P (v.add w) := by
  cases v with
  | list vs =>
    cases w with
    -- the members of the sum are those of both lists
    | list ws =>
      refine hP.list_iff.mpr fun u hu => ?_
      rcases List.mem_append.mp hu with hu | hu
      · exact hP.list_iff.mp hv u hu
      · exact hP.list_iff.mp hw u hu
    | _ => exact fun k h => nomatch h
  | strings | nodes | edges =>
    cases w with
    | null | strings | nodes | edges => first | exact hP.simple rfl | exact fun k h => nomatch h
    | _ => exact fun k h => nomatch h
  | _ => exact fun k h => nomatch h

/-- **A field or a method** is never a target, a list or a closure, whatever it belongs to. -/
theorem gives_select (gs : Graphs) (identity : Nat) (v : Value) (name : String) :
    Gives raised P (v.select gs identity name) := by
  -- the tables for the kinds share four endings: no such name, a simple value, and a value read from the
  -- only node or from the only edge
  have hunknown : Gives raised P (.error (.unknownSelector name v.kind)) :=
    fun k h => nomatch h
  have hsimple : ∀ w : Value, w.kind.isSimple = true → Gives raised P (.ok w) :=
    fun w hw => hP.simple hw
  have hnode : ∀ (ns : OrderedSet Node) (f : Node → Value), (∀ n, P (f n)) →
      Gives raised P (oneNode ns >>= fun n => pure (f n)) :=
    fun ns f hf => (gives_oneNode ns).bind fun n _ => hf n
  have hedge : ∀ (es : OrderedSet Edge) (f : Edge → Value), (∀ e, P (f e)) →
      Gives raised P (oneEdge es >>= fun e => pure (f e)) :=
    fun es f hf => (gives_oneEdge es).bind fun e _ => hf e
  unfold select
  cases v with
  | string s =>
    simp only [selectString]
    split
    · exact hsimple _ rfl
    · exact hsimple _ rfl
    · exact hunknown
  | strings ss =>
    simp only [selectStrings]
    split
    · exact hsimple _ rfl
    · exact hsimple _ rfl
    · exact hsimple _ rfl
    · exact hsimple _ rfl
    · exact hunknown
  | nodes ns =>
    simp only [selectNodes]
    split
    · exact hsimple _ rfl
    · exact hnode ns _ fun _ => hP.simple rfl
    · exact hnode ns _ fun _ => hP.ofString? _
    · exact hnode ns _ fun _ => hP.simple rfl
    · exact hnode ns _ fun _ => hP.ofString? _
    · exact hnode ns _ fun _ => hP.simple rfl
    · exact hsimple _ rfl
    · exact hsimple _ rfl
    · exact hsimple _ rfl
    · exact hsimple _ rfl
    · exact hsimple _ rfl
    · exact hunknown
  | edges es =>
    simp only [selectEdges]
    split
    · exact hsimple _ rfl
    · exact hedge es _ fun _ => hP.simple rfl
    · exact hedge es _ fun _ => hP.simple rfl
    · exact hedge es _ fun _ => hP.simple rfl
    · exact hedge es _ fun _ => hP.simple rfl
    · exact hunknown
  | properties p =>
    simp only [selectProperties]
    split
    · exact hsimple _ rfl
    · exact hunknown
  | list vs =>
    simp only [selectList]
    split
    · exact hsimple _ rfl
    · exact hunknown
  | _ => exact hunknown

end Hereditary

end Value

end Results

end GraphQuery
