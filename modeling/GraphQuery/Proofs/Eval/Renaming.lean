import Mathlib.Data.List.Forall2
import Mathlib.Order.Basic
import GraphQuery.Proofs.Eval.Clean
import GraphQuery.Proofs.Eval.Frames

/-!
# Values and stores up to names

Frames and functions are numbered in the order in which they are made. The numbers are names: two states
may be the same except that a frame or a function has another number in the second one.

A **renaming** says which frame of the first state is which frame of the second, and the same for functions.
It is one-to-one, and it may leave out what only one side has (`Renaming`). It relates values, results,
frames, stores and states. When both sides make a frame or a function, the renaming grows by a pair
(`Renaming.States.nest`, `Renaming.States.newFunction`), and what was related stays so.

## Main statements

* `Renaming.Rel.equals_eq`, `Renaming.Rel.select`, `Renaming.Rel.index`: operations on values.
* `Renaming.Stores.get?`, `Renaming.Stores.declare`, `Renaming.Stores.nest`: operations on stores.
* `Renaming.States.grows`: frames that only the second side has make no difference.
-/

namespace GraphQuery

/-- Which frames and functions of two evaluations are the same, one to one. -/
structure Renaming where
  /-- The frame of the first evaluation is that of the second. -/
  frame : FrameId → FrameId → Prop
  /-- The function of the first evaluation is that of the second. -/
  function : Nat → Nat → Prop
  /-- Different frames stay different. -/
  frame_iff : ∀ {f g f' g'}, frame f f' → frame g g' → (f = g ↔ f' = g')
  /-- Different functions stay different. -/
  function_iff : ∀ {i j i' j'}, function i i' → function j j' → (i = j ↔ i' = j')

/-- Values of these kinds have no frame and no function in them. -/
def Kind.isNameless : Kind → Bool
  | .list | .function | .closure => false
  | _ => true

/-- There are more frames, functions and contacts perhaps, and the rest is as it was. -/
structure State.Grows (s t : State) : Prop where
  /-- All frames are kept. -/
  store : s.store.Keeps t.store
  /-- So are the functions. -/
  functions_le : s.functions ≤ t.functions
  /-- No closure literals have been numbered. -/
  sites_eq : t.sites = s.sites
  /-- The host has noted nothing. -/
  notes_eq : t.notes = s.notes

namespace Renaming

/-- One renaming goes beyond another if it keeps its pairs. -/
instance : Preorder Renaming where
  le w w' := (∀ {f f'}, w.frame f f' → w'.frame f f') ∧ ∀ {i i'}, w.function i i' → w'.function i i'
  le_refl _ := ⟨id, id⟩
  le_trans _ _ _ h h' := ⟨fun hf => h'.1 (h.1 hf), fun hi => h'.2 (h.2 hi)⟩

/-! ### Values -/

/-- The second value is the first one under other names. -/
inductive Rel (w : Renaming) : Value → Value → Prop where
  /-- There are no names in it. -/
  | nameless {v : Value} (nameless : v.kind.isNameless = true) : w.Rel v v
  /-- The members are renamed. -/
  | list {vs vs' : List Value} (members : List.Forall₂ w.Rel vs vs') : w.Rel (.list vs) (.list vs')
  /-- Functions have an identity. -/
  | function {f : Function} {i' : Nat} (identity : w.function f.identity i') :
      w.Rel (.function f) (.function { f with identity := i' })
  /-- Closures have a frame, if they come from a script. -/
  | closure {site : Nat} {parameter : Option String} {body : Code} {frame frame' : Option FrameId}
      (captured : Option.Rel w.frame frame frame') :
      w.Rel (.closure ⟨site, parameter, body, frame⟩) (.closure ⟨site, parameter, body, frame'⟩)

variable {w w' : Renaming}

namespace Rel

variable {v v' u u' : Value} {vs vs' : List Value}

/-- Induction on related values, where the members of lists are related and have the property. -/
@[elab_as_elim] theorem elim {P : ∀ v v', w.Rel v v' → Prop}
    (nameless : ∀ (v : Value) h, P v v (.nameless h))
    (list : ∀ vs vs' h, List.Forall₂ (fun v v' => ∃ h, P v v' h) vs vs' →
      P (.list vs) (.list vs') (.list h))
    (function : ∀ (f : Function) i' h, P (.function f) (.function { f with identity := i' })
      (.function h))
    (closure : ∀ site parameter body frame frame' h,
      P (.closure ⟨site, parameter, body, frame⟩) (.closure ⟨site, parameter, body, frame'⟩)
        (.closure h)) (h : w.Rel v v') : P v v' h :=
  -- the generated eliminator has one predicate for values and one for lists of them
  @Rel.rec w P (fun vs vs' _ => List.Forall₂ (fun v v' => ∃ h, P v v' h) vs vs') (nameless _)
    (list _ _) (function _ _) (closure _ _ _ _ _) .nil (fun h _ ih ihs => .cons ⟨h, ih⟩ ihs) v v' h

/-- What a renaming relates stays related when the renaming grows. -/
theorem mono (hw : w ≤ w') (h : w.Rel v v') : w'.Rel v v' := by
  induction h using Rel.elim with
  | nameless v h => exact .nameless h
  | list vs vs' h ih => exact .list (ih.imp fun _ _ ⟨_, h⟩ => h)
  | function f i' h => exact .function (hw.2 h)
  | closure site parameter body frame frame' h =>
    refine .closure ?_
    cases h with
    | some h => exact .some (hw.1 h)
    | none => exact .none

theorem forall_mono (hw : w ≤ w') (h : List.Forall₂ w.Rel vs vs') : List.Forall₂ w'.Rel vs vs' :=
  h.imp fun _ _ => mono hw

/-! #### Coercions and comparisons -/

/-- Related values are of the same kind. -/
theorem kind_eq (h : w.Rel v v') : v.kind = v'.kind := by
  cases h <;> rfl

/-- A closure with its own name on the other side has no other name there. -/
theorem closure_eq {c : Closure} (hc : w.Rel (.closure c) (.closure c)) (h : w.Rel (.closure c) v) :
    v = .closure c := by
  cases h with
  | nameless => rfl
  -- a closure without a frame has no name, and `hc` says that a frame has its own
  | closure h =>
    cases hc with
    | nameless h => exact absurd h Bool.false_ne_true
    | closure hc =>
      cases h with
      | none => rfl
      | some hf =>
        cases hc with
        | some hself => rw [(w.frame_iff hf hself).mp rfl]

/-- Lists are true by their length, which renaming keeps. -/
theorem toBool_eq (gs : Graphs) (h : w.Rel v v') : v.toBool gs = v'.toBool gs := by
  cases h with
  | list h => cases h <;> rfl
  | _ => rfl

/-- Integers are read from scalars, which are the same on both sides. -/
theorem toInt_eq (h : w.Rel v v') : v.toInt = v'.toInt := by
  cases h <;> rfl

/-- Targets are the same on both sides. -/
theorem targetName_eq (h : w.Rel v v') : v.targetName = v'.targetName := by
  cases h <;> rfl

/-- **The text of a value** does not show names. Only lists have members, so the induction is on these. -/
theorem toText_eq (h : w.Rel v v') : v.toText = v'.toText := by
  induction h using Rel.elim with
  | list vs vs' h ih =>
    have htexts : Value.toTexts vs = Value.toTexts vs' := by
      clear h
      induction ih with
      | nil => rfl
      | cons hv _ ih => rw [Value.toTexts, Value.toTexts, hv.2, ih]
    rw [Value.toText, Value.toText, htexts]
  | _ => rfl

theorem toStrings_eq (h : w.Rel v v') : v.toStrings = v'.toStrings := by
  have htext := h.toText_eq
  cases h with
  | nameless => rfl
  | _ => simp only [Value.toStrings, htext]

/-- **The comparison of the language** does not see names. -/
theorem equals_eq (gs : Graphs) (h : w.Rel v v') (hu : w.Rel u u') :
    v.equals gs u = v'.equals gs u' := by
  have hkind := hu.kind_eq
  have htext := hu.toText_eq
  have hbool := hu.toBool_eq gs
  -- the kind of the left value decides what is read of the right one: its kind, truth or text
  cases h with
  | @nameless v h =>
    cases v with
    | null => unfold Value.equals; rw [hkind]
    | bool b => unfold Value.equals; rw [hbool]
    | number text => unfold Value.equals; rw [htext]
    | string s => unfold Value.equals; rw [htext]
    | list => exact absurd h Bool.false_ne_true
    | function => exact absurd h Bool.false_ne_true
    | closure => exact absurd h Bool.false_ne_true
    | _ => cases hu <;> rfl
  | list => unfold Value.equals; rw [hkind]; rfl
  | function => rfl
  | closure => unfold Value.equals; rw [hkind]; rfl

end Rel

/-- What a renaming leaves as it is. -/
structure Fixes (w : Renaming) (v : Value) : Prop where
  /-- The frames in the value have their own names. -/
  frame : ∀ c f, Value.Inside (.closure c) v → c.frame = some f → w.frame f f
  /-- So have the functions. -/
  function : ∀ f, Value.Inside (.function f) v → w.function f.identity f.identity

mutual

/-- A value with its own names is related to itself. -/
theorem Fixes.rel {w : Renaming} {v : Value} (h : w.Fixes v) : w.Rel v v := by
  cases v with
  | list vs =>
    exact .list (rel_of_fixes fun u hu => ⟨fun c f hc => h.frame c f (.member hu hc), fun f hf =>
      h.function f (.member hu hf)⟩)
  | function f => exact .function (h.function f .self)
  | closure c =>
    obtain ⟨site, parameter, body, frame⟩ := c
    refine .closure ?_
    cases frame with
    | none => exact .none
    | some f => exact .some (h.frame _ f .self rfl)
  | _ => exact .nameless rfl

/-- The members of a list, for the values with their own names. -/
theorem rel_of_fixes {w : Renaming} {vs : List Value} (h : ∀ v ∈ vs, w.Fixes v) :
    List.Forall₂ w.Rel vs vs := by
  cases vs with
  | nil => exact .nil
  | cons v vs =>
    obtain ⟨hv, hvs⟩ := List.forall_mem_cons.mp h
    exact .cons hv.rel (rel_of_fixes hvs)

end

/-! ### Results -/

/-- Both results are errors, and the same one, or both are values that are related. -/
inductive Agree {α β : Type} (R : α → β → Prop) : Except Error α → Except Error β → Prop where
  /-- The same error. -/
  | error (e : Error) : Agree R (.error e) (.error e)
  /-- Related values. -/
  | ok {a : α} {b : β} (h : R a b) : Agree R (.ok a) (.ok b)

/-- **Sequencing** keeps agreement: after an error nothing else is done. -/
theorem Agree.bind {α β γ δ : Type} {R : α → β → Prop} {Q : γ → δ → Prop} {r : Except Error α}
    {r' : Except Error β} {f : α → Except Error γ} {f' : β → Except Error δ} (hr : Agree R r r')
    (hf : ∀ a b, R a b → Agree Q (f a) (f' b)) : Agree Q (r >>= f) (r' >>= f') := by
  cases hr with
  | error e => exact .error e
  | ok h => exact hf _ _ h

/-- A result agrees with itself if its value is related to itself. -/
theorem agree_self {α : Type} {R : α → α → Prop} {r : Except Error α} (h : ∀ a, R a a) :
    Agree R r r := by
  cases r with
  | error e => exact .error e
  | ok a => exact .ok (h a)

/-- Strings and null have no names. -/
theorem rel_ofString? (w : Renaming) (s : Option String) :
    w.Rel (Value.ofString? s) (Value.ofString? s) := by
  cases s <;> exact .nameless rfl

/-- Neither have properties. -/
theorem rel_ofProperty (w : Renaming) (p : PropertyValue) :
    w.Rel (Value.ofProperty p) (Value.ofProperty p) := by
  cases p <;> exact .nameless rfl

/-- Related lists have related members at each place. -/
theorem rel_getElem? {α β : Type} {R : α → β → Prop} {as : List α} {bs : List β}
    (h : List.Forall₂ R as bs) (n : Nat) : Option.Rel R as[n]? bs[n]? := by
  induction h generalizing n with
  | nil => exact .none
  | cons hab _ ih =>
    cases n with
    | zero => exact .some hab
    | succ n => exact ih n

/-- **An element** of a collection. -/
theorem Rel.index {v v' u u' : Value} (gs : Graphs) (h : w.Rel v v') (hu : w.Rel u u') :
    Agree w.Rel (v.index gs u) (v'.index gs u') := by
  have hint := hu.toInt_eq
  have htext := hu.toText_eq
  cases h with
  -- a collection without names gives the same element, as the positions are the same integer
  | @nameless v h =>
    cases v with
    | strings ss =>
      unfold Value.index Value.elementAt
      rw [hint]
      exact (agree_self fun _ => rfl).bind fun s? _ hs => hs ▸ .ok (w.rel_ofString? s?)
    | properties p =>
      unfold Value.index
      rw [htext]
      refine (agree_self fun _ => rfl).bind fun key _ hkey => hkey ▸ .ok ?_
      cases (p.resolve gs).get? key with
      | none => exact .nameless rfl
      | some q => exact w.rel_ofProperty q
    | list => exact absurd h Bool.false_ne_true
    | function => exact absurd h Bool.false_ne_true
    | closure => exact absurd h Bool.false_ne_true
    | _ => exact .error _
  -- a list gives related members, or none on both sides
  | @list vs vs' h =>
    unfold Value.index Value.elementAt
    rw [hint]
    refine (Agree.bind (R := Option.Rel w.Rel) ?_ fun a? b? hab => .ok ?_)
    · refine (agree_self fun _ => rfl).bind fun i _ hi => hi ▸ .ok ?_
      split
      · exact .none
      · exact rel_getElem? h _
    · cases hab with
      | none => exact .nameless rfl
      | some hab => exact hab
  | function => exact .error _
  | closure => exact .error _

/-- **A field or a method** has no names in it, except that a method is a new function. -/
theorem Rel.select {v v' : Value} (gs : Graphs) {i i' : Nat} (hi : w.function i i')
    (h : w.Rel v v') (name : String) :
    Agree w.Rel (v.select gs i name) (v'.select gs i' name) := by
  have hunknown : Agree w.Rel (.error (.unknownSelector name v.kind))
      (.error (.unknownSelector name v'.kind)) := h.kind_eq ▸ .error _
  have hplain : ∀ u : Value, u.kind.isNameless = true → Agree w.Rel (.ok u) (.ok u) :=
    fun u hu => .ok (.nameless hu)
  -- a method is the function that has just been numbered on either side
  have hmethod : ∀ text least most m, Agree w.Rel (.ok (Value.ofMethod i text least most m))
      (.ok (Value.ofMethod i' text least most m)) := fun _ _ _ _ => .ok (.function hi)
  -- what reads one node or one edge fails on both sides unless there is exactly one
  have hnode : ∀ (ns : OrderedSet Node) (f : Node → Value), (∀ n, w.Rel (f n) (f n)) →
      Agree w.Rel (Value.oneNode ns >>= fun n => pure (f n))
        (Value.oneNode ns >>= fun n => pure (f n)) :=
    fun ns f hf => (agree_self fun _ => rfl).bind fun n _ hn => hn ▸ .ok (hf n)
  have hedge : ∀ (es : OrderedSet Edge) (f : Edge → Value), (∀ e, w.Rel (f e) (f e)) →
      Agree w.Rel (Value.oneEdge es >>= fun e => pure (f e))
        (Value.oneEdge es >>= fun e => pure (f e)) :=
    fun es f hf => (agree_self fun _ => rfl).bind fun e _ he => he ▸ .ok (hf e)
  cases h with
  | @nameless v h =>
    unfold Value.select
    cases v with
    | string s =>
      simp only [Value.selectString]
      split
      · exact hplain _ rfl
      · exact hmethod ..
      · exact hunknown
    | strings ss =>
      simp only [Value.selectStrings]
      split
      · exact hplain _ rfl
      · exact hmethod ..
      · exact hmethod ..
      · exact hmethod ..
      · exact hunknown
    | nodes ns =>
      simp only [Value.selectNodes]
      split
      · exact hplain _ rfl
      · exact hnode ns _ fun _ => .nameless rfl
      · exact hnode ns _ fun _ => w.rel_ofString? _
      · exact hnode ns _ fun _ => .nameless rfl
      · exact hnode ns _ fun _ => w.rel_ofString? _
      · exact hnode ns _ fun _ => .nameless rfl
      · exact hmethod ..
      · exact hmethod ..
      · exact hmethod ..
      · exact hmethod ..
      · exact hmethod ..
      · exact hunknown
    | edges es =>
      simp only [Value.selectEdges]
      split
      · exact hplain _ rfl
      · exact hedge es _ fun _ => .nameless rfl
      · exact hedge es _ fun _ => .nameless rfl
      · exact hedge es _ fun _ => .nameless rfl
      · exact hedge es _ fun _ => .nameless rfl
      · exact hunknown
    | properties p =>
      simp only [Value.selectProperties]
      split
      · exact hplain _ rfl
      · exact hunknown
    | list => exact absurd h Bool.false_ne_true
    | function => exact absurd h Bool.false_ne_true
    | closure => exact absurd h Bool.false_ne_true
    | _ => exact hunknown
  | list h =>
    unfold Value.select
    -- lists have the same length
    simp only [Value.selectList, h.length_eq]
    split
    · exact hplain _ rfl
    · exact hunknown
  | function => exact hunknown
  | closure => exact hunknown

/-! ### Stores -/

/-- The same variable, with a value under other names. -/
def Binding (w : Renaming) (b b' : String × Value) : Prop := b.1 = b'.1 ∧ w.Rel b.2 b'.2

/-- The second frame is the first one under other names. -/
structure Frames (w : Renaming) (frame frame' : Frame) : Prop where
  /-- The enclosing frames are the same. -/
  enclosing : List.Forall₂ w.frame frame.enclosing frame'.enclosing
  /-- So are the variables. -/
  bindings : List.Forall₂ w.Binding frame.bindings frame'.bindings

/-- Frames that are the same are there on both sides. -/
structure Stores (w : Renaming) (s s' : Store) : Prop where
  /-- The first frame is there. -/
  lt : ∀ {f f'}, w.frame f f' → f < s.frames.size
  /-- The second frame is there. -/
  lt' : ∀ {f f'}, w.frame f f' → f' < s'.frames.size
  /-- What they hold is the same. -/
  frames : ∀ {f f'}, w.frame f f' → w.Frames (s.frame f) (s'.frame f')

/-- Bindings stay related when the renaming grows. -/
theorem Binding.mono {b b' : String × Value} (hw : w ≤ w') (h : w.Binding b b') : w'.Binding b b' :=
  ⟨h.1, h.2.mono hw⟩

theorem Frames.mono {frame frame' : Frame} (hw : w ≤ w') (h : w.Frames frame frame') :
    w'.Frames frame frame' :=
  ⟨h.enclosing.imp fun _ _ => hw.1, h.bindings.imp fun _ _ => Binding.mono hw⟩

/-- Looking up a variable in related frames. -/
theorem Binding.lookup {bs bs' : List (String × Value)} (h : List.Forall₂ w.Binding bs bs')
    (x : String) : Option.Rel w.Rel (bs.lookup x) (bs'.lookup x) := by
  induction h with
  | nil => exact .none
  | @cons b b' bs bs' hb _ ih =>
    obtain ⟨y, v⟩ := b
    obtain ⟨_, v'⟩ := b'
    obtain ⟨rfl, hv⟩ := hb
    rw [Assoc.lookup_cons_if, Assoc.lookup_cons_if]
    split
    · exact .some hv
    · exact ih

/-- Binding a variable in related frames: the same place of the list changes. -/
theorem Binding.put {bs bs' : List (String × Value)} (h : List.Forall₂ w.Binding bs bs')
    (x : String) {v v' : Value} (hv : w.Rel v v') :
    List.Forall₂ w.Binding (Assoc.put x v bs) (Assoc.put x v' bs') := by
  induction h with
  | nil => exact .cons ⟨rfl, hv⟩ .nil
  | @cons b b' bs bs' hb hbs ih =>
    obtain ⟨y, u⟩ := b
    obtain ⟨_, u'⟩ := b'
    obtain ⟨rfl, hu⟩ := hb
    rw [Assoc.put, Assoc.put]
    split
    · exact .cons ⟨rfl, hv⟩ hbs
    · exact .cons ⟨rfl, hu⟩ ih

namespace Stores

variable {s s' : Store} {f f' : FrameId}

/-- Related frames see related frames, the nearest first. -/
theorem chain (h : w.Stores s s') (hf : w.frame f f') :
    List.Forall₂ w.frame (s.chain f) (s'.chain f') := .cons hf (h.frames hf).enclosing

/-- The frames of a chain are there. -/
theorem chain_lt (h : w.Stores s s') (hf : w.frame f f') : ∀ g' ∈ s'.chain f', g' < s'.frames.size := by
  intro g' hg'
  obtain ⟨i, hi, hget⟩ := List.mem_iff_getElem.mp hg'
  have hpair := (List.forall₂_iff_get.mp (h.chain hf)).2 i ((h.chain hf).length_eq ▸ hi) hi
  exact hget ▸ h.lt' hpair

theorem local? (h : w.Stores s s') (hf : w.frame f f') (x : String) :
    Option.Rel w.Rel (s.local? f x) (s'.local? f' x) := Binding.lookup (h.frames hf).bindings x

/-- **A variable** has the same value on both sides. -/
theorem get? (h : w.Stores s s') (hf : w.frame f f') (x : String) :
    Option.Rel w.Rel (s.get? f x) (s'.get? f' x) := by
  have hchain := h.chain hf
  unfold Store.get?
  -- both chains are searched from the nearest frame, so the first hit is at the same place
  generalize s.chain f = gs, s'.chain f' = gs' at hchain
  induction hchain with
  | nil => exact .none
  | @cons g g' gs gs' hg _ ih =>
    have hlocal := h.local? hg x
    rw [List.findSome?_cons, List.findSome?_cons]
    generalize s.local? g x = v?, s'.local? g' x = v'? at hlocal
    cases hlocal with
    | none => exact ih
    | some hv => exact .some hv

/-- **Binding a variable** on both sides. -/
theorem declare (h : w.Stores s s') (hf : w.frame f f') (x : String) {v v' : Value}
    (hv : w.Rel v v') : w.Stores (s.declare f x v) (s'.declare f' x v') where
  lt hg := s.size_declare f x v ▸ h.lt hg
  lt' hg := s'.size_declare f' x v' ▸ h.lt' hg
  frames := by
    intro g g' hg
    by_cases hgf : g = f
    · -- different frames stay different, so it is the same one on the other side
      obtain rfl := hgf
      obtain rfl := (w.frame_iff hg hf).mp rfl
      rw [s.frame_declare_self g x v (h.lt hf), s'.frame_declare_self g' x v' (h.lt' hf)]
      exact ⟨(h.frames hf).enclosing, Binding.put (h.frames hf).bindings x hv⟩
    -- the write goes to another frame on the other side, too
    · have hgf' : g' ≠ f' := fun heq => hgf ((w.frame_iff hg hf).mpr heq)
      rw [s.frame_declare f g x v hgf, s'.frame_declare f' g' x v' hgf']
      exact h.frames hg

/-- Frames that only the second side has make no difference. -/
theorem keeps (h : w.Stores s s') {t' : Store} (ht : s'.Keeps t') : w.Stores s t' where
  lt := h.lt
  lt' hf := Nat.lt_of_lt_of_le (h.lt' hf) ht.size_le
  frames hf := by
    rw [ht.frame_eq _ (h.lt' hf)]
    exact h.frames hf

end Stores

/-- The renaming with one more pair of frames, which are new. -/
def withFrame (w : Renaming) (f f' : FrameId) (hnew : ∀ {g g'}, w.frame g g' → g ≠ f ∧ g' ≠ f') :
    Renaming where
  frame g g' := w.frame g g' ∨ g = f ∧ g' = f'
  function := w.function
  frame_iff := by
    rintro g k g' k' (hg | ⟨rfl, rfl⟩) (hk | ⟨rfl, rfl⟩)
    · exact w.frame_iff hg hk
    · exact iff_of_false (hnew hg).1 (hnew hg).2
    · exact iff_of_false (hnew hk).1.symm (hnew hk).2.symm
    · exact iff_of_true rfl rfl
  function_iff := w.function_iff

/-- The renaming with one more pair of functions, which are new. -/
def withFunction (w : Renaming) (i i' : Nat) (hnew : ∀ {j j'}, w.function j j' → j ≠ i ∧ j' ≠ i') :
    Renaming where
  frame := w.frame
  function j j' := w.function j j' ∨ j = i ∧ j' = i'
  frame_iff := w.frame_iff
  function_iff := by
    rintro j k j' k' (hj | ⟨rfl, rfl⟩) (hk | ⟨rfl, rfl⟩)
    · exact w.function_iff hj hk
    · exact iff_of_false (hnew hj).1 (hnew hj).2
    · exact iff_of_false (hnew hk).1.symm (hnew hk).2.symm
    · exact iff_of_true rfl rfl

/-- **Making a frame** on both sides. -/
theorem Stores.nest {s s' : Store} (h : w.Stores s s') {f f' : FrameId} (hf : w.frame f f') :
    ∃ w', w ≤ w' ∧ w'.function = w.function ∧ w'.frame (s.nest f).1 (s'.nest f').1 ∧
      w'.Stores (s.nest f).2 (s'.nest f').2 := by
  -- a new frame has the next number, which no related frame has
  have hnew : ∀ {g g'}, w.frame g g' → g ≠ s.frames.size ∧ g' ≠ s'.frames.size := fun hg =>
    ⟨Nat.ne_of_lt (h.lt hg), Nat.ne_of_lt (h.lt' hg)⟩
  let w' := w.withFrame s.frames.size s'.frames.size hnew
  have hw : w ≤ w' := ⟨Or.inl, id⟩
  have hsize : (s.nest f).2.frames.size = s.frames.size + 1 := Array.size_push _
  have hsize' : (s'.nest f').2.frames.size = s'.frames.size + 1 := Array.size_push _
  refine ⟨w', hw, rfl, Or.inr ⟨rfl, rfl⟩, ?_, ?_, ?_⟩
  · rintro g g' (hg | ⟨rfl, -⟩)
    · rw [hsize]
      exact Nat.lt_succ_of_lt (h.lt hg)
    · rw [hsize]
      exact Nat.lt_succ_self _
  · rintro g g' (hg | ⟨-, rfl⟩)
    · rw [hsize']
      exact Nat.lt_succ_of_lt (h.lt' hg)
    · rw [hsize']
      exact Nat.lt_succ_self _
  -- an old frame is what it was, and the new one is empty and sees what its maker sees
  · rintro g g' (hg | ⟨rfl, rfl⟩)
    · rw [s.frame_nest_of_lt f g (h.lt hg), s'.frame_nest_of_lt f' g' (h.lt' hg)]
      exact (h.frames hg).mono hw
    · rw [Store.frame_nest, Store.frame_nest, if_pos rfl, if_pos rfl]
      exact ⟨(h.chain hf).imp fun _ _ => hw.1, .nil⟩

/-! ### States -/

/-- The second state is the first one under other names. The logs are not compared. -/
structure States (w : Renaming) (s s' : State) : Prop where
  /-- The stores are related. -/
  store : w.Stores s.store s'.store
  /-- The first function is there. -/
  lt : ∀ {i i'}, w.function i i' → i < s.functions
  /-- The second function is there. -/
  lt' : ∀ {i i'}, w.function i i' → i' < s'.functions
  /-- The same closure literals have been numbered. -/
  sites_eq : s.sites = s'.sites
  /-- The host has noted the same. -/
  notes_eq : s.notes = s'.notes

namespace States

variable {s s' : State}

/-- A change of the stores. -/
theorem withStore (h : w.States s s') {t t' : Store} (ht : w.Stores t t') :
    w.States { s with store := t } { s' with store := t' } :=
  ⟨ht, h.lt, h.lt', h.sites_eq, h.notes_eq⟩

/-- An entry in the logs, of which only the first or only the second may be made. -/
theorem withLog (h : w.States s s') (log log' : List Contact) :
    w.States { s with log } { s' with log := log' } :=
  ⟨h.store, h.lt, h.lt', h.sites_eq, h.notes_eq⟩

/-- **Making a frame** on both sides. -/
theorem nest (h : w.States s s') {f f' : FrameId} (hf : w.frame f f') :
    ∃ w', w ≤ w' ∧ w'.frame (s.store.nest f).1 (s'.store.nest f').1 ∧
      w'.States { s with store := (s.store.nest f).2 } { s' with store := (s'.store.nest f').2 } := by
  obtain ⟨w', hw, hfunction, hframe, hstore⟩ := h.store.nest hf
  refine ⟨w', hw, hframe, hstore, ?_, ?_, h.sites_eq, h.notes_eq⟩
  · rw [hfunction]
    exact h.lt
  · rw [hfunction]
    exact h.lt'

/-- **Making a function** on both sides. -/
theorem newFunction (h : w.States s s') :
    ∃ w', w ≤ w' ∧ w'.function s.functions s'.functions ∧
      w'.States { s with functions := s.functions + 1 } { s' with functions := s'.functions + 1 } := by
  have hnew : ∀ {j j'}, w.function j j' → j ≠ s.functions ∧ j' ≠ s'.functions := fun hj =>
    ⟨Nat.ne_of_lt (h.lt hj), Nat.ne_of_lt (h.lt' hj)⟩
  let w' := w.withFunction s.functions s'.functions hnew
  -- no frame is made, so the stores stay related, by the larger renaming
  have hw : w ≤ w' := ⟨id, Or.inl⟩
  refine ⟨w', hw, Or.inr ⟨rfl, rfl⟩, ⟨h.store.lt, h.store.lt', ?_⟩, ?_, ?_, h.sites_eq, h.notes_eq⟩
  · exact fun hf => (h.store.frames hf).mono hw
  · rintro j j' (hj | ⟨rfl, -⟩)
    · exact Nat.lt_succ_of_lt (h.lt hj)
    · exact Nat.lt_succ_self _
  · rintro j j' (hj | ⟨-, rfl⟩)
    · exact Nat.lt_succ_of_lt (h.lt' hj)
    · exact Nat.lt_succ_self _

/-- **Frames and functions that only the second side has** make no difference. -/
theorem grows (h : w.States s s') {t' : State} (ht : s'.Grows t') : w.States s t' where
  store := h.store.keeps ht.store
  lt := h.lt
  lt' hi := Nat.lt_of_lt_of_le (h.lt' hi) ht.functions_le
  sites_eq := h.sites_eq.trans ht.sites_eq.symm
  notes_eq := h.notes_eq.trans ht.notes_eq.symm

end States

/-! ### A state and itself -/

/-- The frames and functions of a state, each with its own name. -/
def ofState (s : State) : Renaming where
  frame f f' := f = f' ∧ f < s.store.frames.size
  function i i' := i = i' ∧ i < s.functions
  frame_iff := by
    rintro f g _ _ ⟨rfl, -⟩ ⟨rfl, -⟩
    exact Iff.rfl
  function_iff := by
    rintro i j _ _ ⟨rfl, -⟩ ⟨rfl, -⟩
    exact Iff.rfl

end Renaming

/-- All frames and functions that the state mentions are there. -/
structure State.Whole (s : State) : Prop where
  /-- The frames around a frame. -/
  enclosing : ∀ f < s.store.frames.size, ∀ g ∈ (s.store.frame f).enclosing, g < s.store.frames.size
  /-- The frames that closures have captured. -/
  captured : ∀ f < s.store.frames.size, ∀ b ∈ (s.store.frame f).bindings, ∀ c g,
    Value.Inside (.closure c) b.2 → c.frame = some g → g < s.store.frames.size
  /-- The functions in variables. -/
  identity : ∀ f < s.store.frames.size, ∀ b ∈ (s.store.frame f).bindings, ∀ g,
    Value.Inside (.function g) b.2 → g.identity < s.functions

/-- **A whole state** is related to itself. -/
theorem State.Whole.states {s : State} (h : s.Whole) : (Renaming.ofState s).States s s where
  store :=
    { lt := And.right
      lt' := by
        rintro f _ ⟨rfl, hf⟩
        exact hf
      frames := by
        rintro f _ ⟨rfl, hf⟩
        -- the names in a frame are those of frames and functions that are there
        refine ⟨List.forall₂_same.mpr fun g hg => ⟨rfl, h.enclosing f hf g hg⟩,
          List.forall₂_same.mpr fun b hb => ⟨rfl, Renaming.Fixes.rel ⟨?_, ?_⟩⟩⟩
        · exact fun c g hc hg => ⟨rfl, h.captured f hf b hb c g hc hg⟩
        · exact fun g hg => ⟨rfl, h.identity f hf b hb g hg⟩ }
  lt := And.right
  lt' := by
    rintro i _ ⟨rfl, hi⟩
    exact hi
  sites_eq := rfl
  notes_eq := rfl

end GraphQuery
