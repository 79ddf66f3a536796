import GraphQuery.Proofs.Eval.Unmentioned
import GraphQuery.Proofs.Session.Requests

/-!
# Who sees a variable change

Frames form trees, and many frames look names up in the same frame around them. So one write may be
seen from many frames. It is seen from those that it encloses, unless the name is bound on the way
(`Store.Sees`): a frame that binds the name **shadows** it for itself and for all frames inside.

There are two ways to write. A declaration binds a name in a given frame. An assignment goes along
the same frames as a lookup and changes the binding that the lookup finds, so it can be made exactly
if there is one. Either is one write at one frame (`Store.Writes`), and what can be said about
lookups afterwards is proved once, for a write.

Lookups go along a list of frames that each frame has kept since it was made. For stores that are
built by the operations (`Store.Built`), this list is the path from the frame to its root, one
parent after the other.

## Main statements

* `Store.Nested.chain_eq`, `Store.Built.nested`: lookups go from a frame to its parent.
* `Store.Writes.get?_eq`, `Store.Writes.get?_of_sees`: lookups after a write.
* `scope_writes`: declarations and assignments in a tree of frames.
-/

namespace GraphQuery

namespace Store

variable {s t : Store} {f g k : FrameId} {x y : String} {v : Value}

/-! ### Trees of frames -/

/-- The stores that come about when frames are made, written to, shared and dropped. -/
inductive Built : Store → Prop
  /-- There are no frames yet. -/
  | empty (lifetimes : Lifetimes) : Built { lifetimes }
  /-- A frame of its own is made. -/
  | newRoot {s : Store} : Built s → Built s.newRoot.2
  /-- A frame is made inside another one. -/
  | nest {s : Store} {f : FrameId} : Built s → f < s.frames.size → Built (s.nest f).2
  /-- A variable is bound. -/
  | declare {s : Store} (f : FrameId) (x : String) (v : Value) : Built s → Built (s.declare f x v)
  /-- A variable is changed where it is bound. -/
  | assign {s t : Store} {f : FrameId} {x : String} {v : Value} :
      Built s → s.assign? f x v = some t → Built t
  /-- A root gets another owner. -/
  | retain {s : Store} (f : FrameId) : Built s → Built (s.retain f)
  /-- A root loses an owner. -/
  | release {s : Store} (f : FrameId) : Built s → Built (s.release f)

/-- The frame that a frame is nested in. -/
def parent? (s : Store) (f : FrameId) : Option FrameId := (s.frame f).enclosing.head?

/-- Every frame is a root or nested in an earlier one. -/
def Nested (s : Store) : Prop :=
  ∀ f, (s.frame f).enclosing = [] ∨ ∃ p < f, (s.frame f).enclosing = s.chain p

namespace Nested

/-- Changes of variables and owners. -/
theorem of_enclosing (h : s.Nested) (heq : ∀ f, (t.frame f).enclosing = (s.frame f).enclosing) :
    t.Nested := by
  intro f
  rw [heq f]
  rcases h f with hnil | ⟨p, hp, hchain⟩
  · exact Or.inl hnil
  · refine Or.inr ⟨p, hp, ?_⟩
    rw [hchain, chain, chain, heq p]

/-- A new frame that is a root or nested in another one. -/
theorem push (h : s.Nested) {new : Frame} (hframes : t.frames = s.frames.push new)
    (hnew : new.enclosing = [] ∨ ∃ p < s.frames.size, new.enclosing = s.chain p) : t.Nested := by
  -- the frames that have been there are where they were
  have hold : ∀ p < s.frames.size, t.chain p = s.chain p := by
    intro p hp
    -- without a number that is new, the frame is where it was
    rw [chain, chain, frame_push hframes, if_neg (Nat.ne_of_lt hp)]
  intro f
  rw [frame_push hframes]
  split
  case isTrue hf =>
    rcases hnew with hnil | ⟨p, hp, hchain⟩
    · exact Or.inl hnil
    · exact Or.inr ⟨p, hf ▸ hp, hchain.trans (hold p hp).symm⟩
  case isFalse hf =>
    rcases h f with hnil | ⟨p, hp, hchain⟩
    · exact Or.inl hnil
    · -- a frame with a parent is there, and so is the parent
      have hsize : f < s.frames.size := by
        refine Nat.lt_of_not_le fun hge => ?_
        rw [frame_of_size_le s hge] at hchain
        exact List.cons_ne_nil _ _ hchain.symm
      exact Or.inr ⟨p, hp, hchain.trans (hold p (Nat.lt_trans hp hsize)).symm⟩

/-- **Lookups go from a frame to its parent,** until there is none. -/
theorem chain_eq (h : s.Nested) (k : FrameId) : s.chain k = k :: (s.parent? k).elim [] s.chain := by
  rcases h k with hnil | ⟨p, -, hchain⟩
  · rw [parent?, chain, hnil]
    rfl
  · rw [parent?, chain, hchain]
    rfl

/-- A parent is an earlier frame. -/
theorem parent_lt (h : s.Nested) {p : FrameId} (hp : s.parent? k = some p) : p < k := by
  rcases h k with hnil | ⟨q, hq, hchain⟩
  · rw [parent?, hnil] at hp
    exact absurd hp.symm (Option.some_ne_none p)
  · rw [parent?, hchain] at hp
    exact Option.some.inj hp ▸ hq

end Nested

/-- **Every operation keeps the frames nested:** new frames are, and the others stay where they are. -/
theorem Built.nested (h : s.Built) : s.Nested := by
  induction h with
  | empty _ => exact fun _ => Or.inl rfl
  | newRoot _ ih => exact ih.push (frames_newRoot _) (Or.inl rfl)
  | nest _ hf ih => exact ih.push (frames_nest _ _) (Or.inr ⟨_, hf, rfl⟩)
  | declare f x v _ ih => exact ih.of_enclosing fun g => enclosing_declare _ f g x v
  | @assign s t f x v _ hassign ih =>
    obtain ⟨g, -, rfl⟩ := Option.map_eq_some_iff.mp hassign
    exact ih.of_enclosing fun k => enclosing_declare s g k x v
  | retain f _ ih => exact ih.of_enclosing fun _ => rfl
  | release f _ ih => exact ih.of_enclosing fun g => enclosing_release _ f g

/-! ### Shadowing -/

/-- A frame is among others, and the name is not bound in those before it. -/
def Reveals (s : Store) (x : String) (g : FrameId) (fs : List FrameId) : Prop :=
  ∃ below above, fs = below ++ g :: above ∧ ∀ j ∈ below, s.local? j x = none

/-- A lookup from `k` comes to `g`: this is `k` itself or around it, and no frame before it binds
the name. -/
def Sees (s : Store) (x : String) (g k : FrameId) : Prop := s.Reveals x g (s.chain k)

/-- Among no frames, none is come to. -/
theorem not_reveals_nil : ¬ s.Reveals x g [] := by
  rintro ⟨below, above, hsplit, -⟩
  exact List.append_ne_nil_of_right_ne_nil below (List.cons_ne_nil _ _) hsplit.symm

/-- A lookup ends at the first frame, or it goes on if this does not bind the name. -/
theorem reveals_cons {j : FrameId} {fs : List FrameId} :
    s.Reveals x g (j :: fs) ↔ j = g ∨ s.local? j x = none ∧ s.Reveals x g fs := by
  constructor
  -- the frame in question is the first one exactly if there is none below it
  · rintro ⟨_ | ⟨i, below⟩, above, hsplit, hbelow⟩
    · exact Or.inl (List.head_eq_of_cons_eq hsplit)
    · obtain ⟨rfl, rfl⟩ := List.cons_eq_cons.mp hsplit
      obtain ⟨hj, hbelow⟩ := List.forall_mem_cons.mp hbelow
      exact Or.inr ⟨hj, below, above, rfl, hbelow⟩
  · rintro (rfl | ⟨hj, below, above, rfl, hbelow⟩)
    · exact ⟨[], fs, rfl, List.forall_mem_nil _⟩
    · exact ⟨j :: below, above, rfl, List.forall_mem_cons.mpr ⟨hj, hbelow⟩⟩

instance decidableReveals (s : Store) (x : String) (g : FrameId) :
    (fs : List FrameId) → Decidable (s.Reveals x g fs)
  | [] => isFalse not_reveals_nil
  | _ :: fs =>
    have := decidableReveals s x g fs
    decidable_of_iff' _ reveals_cons

instance (s : Store) (x : String) (g k : FrameId) : Decidable (s.Sees x g k) :=
  decidableReveals s x g (s.chain k)

/-- A frame sees itself. -/
theorem sees_self (s : Store) (x : String) (f : FrameId) : s.Sees x f f := reveals_cons.mpr (Or.inl rfl)

/-! ### Writes -/

/-- One variable of one frame has been given a value, and nothing else has changed. -/
structure Writes (g : FrameId) (x : String) (v : Value) (s t : Store) : Prop
    extends s.AgreesApart g x t where
  /-- No root has gained or lost an owner. -/
  owners_eq : t.owners = s.owners
  /-- No registry has changed. -/
  registries_eq : t.registries = s.registries
  /-- The variable has the value. -/
  local?_self : t.local? g x = some v

/-- A declaration is a write to its own frame. -/
theorem writes_declare (hf : f < s.frames.size) (x : String) (v : Value) :
    s.Writes f x v (s.declare f x v) where
  toAgreesApart := .of_declare s f x v
  owners_eq := rfl
  registries_eq := rfl
  local?_self := by rw [local?_declare_eq, if_pos ⟨rfl, rfl, hf⟩]

namespace Writes

/-- A variable that has been bound before is still bound, and so is no other one. -/
theorem isSome_local? (h : s.Writes g x v t) (hbound : (s.local? g x).isSome) (k : FrameId) (y : String) :
    (t.local? k y).isSome = (s.local? k y).isSome := by
  -- no other variable has changed, and this one is bound on both sides
  by_cases hky : k = g ∧ y = x
  · obtain ⟨rfl, rfl⟩ := hky
    rw [h.local?_self, hbound]
    rfl
  · rw [h.local?_eq k y (Decidable.not_and_iff_not_or_not.mp hky)]

/-- What is found along a list of frames after a write. -/
theorem findSome?_local? (h : s.Writes g x v t) (fs : List FrameId) :
    (s.Reveals x g fs → (fs.findSome? fun j => t.local? j x) = some v) ∧
      (¬ s.Reveals x g fs →
        (fs.findSome? fun j => t.local? j x) = fs.findSome? fun j => s.local? j x) := by
  induction fs with
  | nil => exact ⟨fun h => absurd h not_reveals_nil, fun _ => rfl⟩
  | cons j fs ih =>
    rw [reveals_cons, List.findSome?_cons, List.findSome?_cons]
    by_cases hj : j = g
    · -- the search ends here
      subst hj
      rw [h.local?_self]
      exact ⟨fun _ => rfl, fun hnot => absurd (Or.inl rfl) hnot⟩
    · rw [h.local?_eq j x (Or.inl hj)]
      rcases s.local? j x with _ | w
      · simpa [hj] using ih
      · -- the name is shadowed for all frames from here on
        simp [hj]

/-- **A write is seen** where a lookup comes to it. -/
theorem get?_of_sees (h : s.Writes g x v t) (hk : s.Sees x g k) : t.get? k x = some v := by
  rw [get?, h.chain_eq k]
  exact (h.findSome?_local? (s.chain k)).1 hk

/-- **A write is not seen** where no lookup comes to it, and not under other names. -/
theorem get?_eq (h : s.Writes g x v t) (hk : y = x → ¬ s.Sees x g k) : t.get? k y = s.get? k y := by
  by_cases hy : y = x
  · subst hy
    rw [get?, get?, h.chain_eq k]
    exact (h.findSome?_local? (s.chain k)).2 (hk rfl)
  · exact h.toAgreesApart.get?_eq k hy

end Writes

/-! ### Assignments -/

/-- **An assignment can be made** if the variable can be looked up. -/
theorem isSome_assign? (s : Store) (f : FrameId) (x : String) (v : Value) :
    (s.assign? f x v).isSome = (s.get? f x).isSome := by
  rw [assign?, Option.isSome_map, get?, Bool.eq_iff_iff, List.find?_isSome, List.findSome?_isSome_iff]

/-- **An assignment** is a write to the nearest frame that binds the variable. -/
theorem writes_assign (h : s.assign? f x v = some t) :
    ∃ g, s.Sees x g f ∧ (s.local? g x).isSome ∧ s.Writes g x v t := by
  obtain ⟨g, hfind, rfl⟩ := Option.map_eq_some_iff.mp h
  obtain ⟨hbound, below, above, hsplit, hbelow⟩ := List.find?_eq_some_iff_append.mp hfind
  have hg : g < s.frames.size := by
    -- a frame that is not there binds nothing
    refine Nat.lt_of_not_le fun hge => ?_
    rw [local?, frame_of_size_le s hge] at hbound
    exact Bool.false_ne_true hbound
  refine ⟨g, ⟨below, above, hsplit, fun j hj => ?_⟩, hbound, writes_declare hg x v⟩
  have hnot := hbelow j hj
  rwa [Bool.not_eq_true', Option.isSome_eq_false_iff, Option.isNone_iff_eq_none] at hnot

end Store

/-! ### Requests -/

namespace Session

variable {S T : Session}

/-- A request goes on after one that has succeeded. -/
theorem Request.bind_of_ok {α β : Type} {m : Request α} {a : α} (h : m S = some (.ok a, T))
    (next : α → Request β) : (m >>= next) S = next a T := by
  change (m S).bind (fun p => (ExceptT.bindCont next p.1 : StateT Session Option _) p.2) = _
  rw [h]
  rfl

/-- A handle that has not been dropped has its frame. -/
theorem frameOf_of_handle {scope : Nat} {f : FrameId} (h : S.handles[scope]? = some (some f)) :
    frameOf scope S = some (.ok f, S) := by
  have hhandle : S.handles.getD scope none = some f := by
    rw [Array.getD_eq_getD_getElem?, h]
    rfl
  have hget : (get : Request Session) S = some (.ok S, S) := rfl
  rw [frameOf, Request.bind_of_ok hget, hhandle]
  rfl

/-- Changing a variable through a handle, when the value has been made. -/
theorem step_mutate {d : Description} {v : Value} {scope : Nat} {f : FrameId}
    (hvalue : d.value S = some (.ok v, T)) (hscope : T.handles[scope]? = some (some f)) (x : String) :
    step (.mutate scope x d) S =
      match T.state.store.assign? f x v with
      | some store => some (.ok .done, { T with state := { T.state with store } })
      | none => some (.error (.undefined x), T) := by
  have hget : (get : Request Session) T = some (.ok T, T) := rfl
  rw [step, Request.bind_of_ok hvalue, Request.bind_of_ok (frameOf_of_handle hscope),
    Request.bind_of_ok hget]
  rcases T.state.store.assign? f x v with _ | store
  · rfl
  · rfl

end Session

open Store

/-- **Declarations and assignments in a tree of frames.** Lookups go from a frame to its parent
until there is none. An assignment can be made from a frame exactly if a lookup finds something
there. It then gives the variable of the nearest frame that binds it the new value and changes
nothing else; no name is bound that was not, or the other way round. If it cannot be made, nothing
is changed at all. A declaration changes the variable of its own frame and nothing else.

After either of them, the frame has the new value. And whichever frame is written to, another frame
has the new value for the name exactly if a lookup from there comes to the written frame, because
this is the frame itself or around it and no frame before it binds the name; all other lookups find
what they found before. -/
theorem scope_writes {s : Store} (hs : s.Built) {f : FrameId} (hf : f < s.frames.size) (x : String)
    (v : Value) :
    (∀ k, s.chain k = k :: (s.parent? k).elim [] s.chain ∧ ∀ p, s.parent? k = some p → p < k) ∧
    ((s.assign? f x v).isSome ↔ (s.get? f x).isSome) ∧
    (∀ t, s.assign? f x v = some t → ∃ g, s.Sees x g f ∧ (s.local? g x).isSome ∧ s.Writes g x v t ∧
      ∀ k y, (t.local? k y).isSome = (s.local? k y).isSome) ∧
    (∀ (S T : Session) (d : Description) (scope : Nat), d.value S = some (.ok v, T) →
      T.handles[scope]? = some (some f) → T.state.store = s → s.get? f x = none →
      Session.step (.mutate scope x d) S = some (.error (.undefined x), T)) ∧
    s.Writes f x v (s.declare f x v) ∧
    (∀ t, s.assign? f x v = some t ∨ t = s.declare f x v → t.get? f x = some v) ∧
    ∀ g t, s.Writes g x v t → ∀ k y,
      (y = x ∧ s.Sees x g k → t.get? k y = some v) ∧
      (¬ (y = x ∧ s.Sees x g k) → t.get? k y = s.get? k y) := by
  refine ⟨fun k => ⟨hs.nested.chain_eq k, fun p => hs.nested.parent_lt⟩, by rw [isSome_assign?],
    fun t ht => ?_, ?_, writes_declare hf x v, fun t ht => ?_, fun g t ht k y => ⟨?_, fun hnot => ?_⟩⟩
  · obtain ⟨g, hsees, hbound, hwrites⟩ := writes_assign ht
    exact ⟨g, hsees, hbound, hwrites, hwrites.isSome_local? hbound⟩
  · rintro S T d scope hvalue hscope rfl hget
    have hnone : T.state.store.assign? f x v = none := by
      rw [← Option.isNone_iff_eq_none, ← Option.isSome_eq_false_iff, isSome_assign?, hget]
      rfl
    rw [Session.step_mutate hvalue hscope, hnone]
  · rcases ht with ht | rfl
    · obtain ⟨g, hsees, -, hwrites⟩ := writes_assign ht
      exact hwrites.get?_of_sees hsees
    · exact (writes_declare hf x v).get?_of_sees (sees_self s x f)
  · rintro ⟨rfl, hsees⟩
    exact ht.get?_of_sees hsees
  · exact ht.get?_eq fun hy hsees => hnot ⟨hy, hsees⟩

/-- A root with two frames inside, the first of which binds the name as well and has a frame inside.
A change of the variable of the root is seen from the second one only. -/
theorem scope_writes_shadowed :
    let root := (Store.newRoot {}).2.declare 0 "x" (.bool true)
    let s := ((((root.nest 0).2.declare 1 "x" (.bool false)).nest 1).2.nest 0).2
    s.Built ∧ (∃ t, s.assign? 2 "x" .null = some t ∧ t.get? 2 "x" = some .null) ∧
      (s.declare 0 "x" .null).get? 3 "x" = some .null ∧
      (s.declare 0 "x" .null).get? 2 "x" = some (.bool false) := by
  intro root s
  have hs : s.Built := by
    refine .nest (.nest (.declare 1 _ _ (.nest (.declare 0 _ _ (.newRoot (.empty _))) ?_)) ?_) ?_
    all_goals decide
  obtain ⟨-, hiff, -, -, -, hget, -⟩ := scope_writes hs (f := 2) (by decide) "x" .null
  obtain ⟨t, ht⟩ := Option.isSome_iff_exists.mp (hiff.mpr (by decide))
  obtain ⟨-, -, -, -, hwrites, -, hother⟩ := scope_writes hs (f := 0) (by decide) "x" .null
  refine ⟨hs, ⟨t, ht, hget t (Or.inl ht)⟩, (hother 0 _ hwrites 3 "x").1 ⟨rfl, by decide⟩, ?_⟩
  exact ((hother 0 _ hwrites 2 "x").2 fun h => absurd h.2 (by decide)).trans rfl

end GraphQuery
