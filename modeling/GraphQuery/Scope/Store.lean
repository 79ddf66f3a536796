import GraphQuery.Assoc
import GraphQuery.Scope.Registry
import GraphQuery.Text.Quoted

/-!
# Frames of variables

Variables live in **frames**. A frame binds names to values and knows the frames that enclose it,
from the nearest to its **root**; a name is looked up in the frame and then in those. All frames are
kept in one `Store`, so that closures can refer to them.

A root has **owners**: the host's handles to it and to frames nested in it. While there is one, no
binding is lost. When the last one is released, the frames in the registry of the root are emptied,
including those that closures still refer to. A frame that is gone cannot be emptied any more; the
store still has it, but nothing refers to it, so what it binds cannot be seen.

## Main statements

* `Store.frame_declare`, `Store.frame_nest`, `Store.frame_newRoot`: what the operations do to frames.
* `Store.get?_declare_self`: a declared variable has its value.
* `Store.empties_emptyLive`, `Store.empties_clear`: which frames are emptied.
-/

namespace GraphQuery

/-- One frame of variables. -/
structure Frame where
  /-- The enclosing frames, from the nearest to the root. -/
  enclosing : List FrameId
  /-- The root, by its number among the roots. -/
  root : Nat
  /-- The variables of this frame. -/
  bindings : List (String × Value) := []

instance : Inhabited Frame := ⟨⟨[], 0, []⟩⟩

/-- All frames, and for each root the number of its owners and its registry. -/
structure Store where
  /-- The frames, each known by its position. -/
  frames : Array Frame := #[]
  /-- The number of owners of each root. -/
  owners : Array Nat := #[]
  /-- The registry of each root. -/
  registries : Array Registry := #[]
  /-- When frames go. -/
  lifetimes : Lifetimes := .endless
  /-- The present moment: how often it has been asked whether frames are gone. -/
  moment : Nat := 0

namespace Store

/-- A frame of the store. -/
def frame (s : Store) (f : FrameId) : Frame := s.frames.getD f default

/-- A frame and those that enclose it, in the order of lookups. -/
def chain (s : Store) (f : FrameId) : List FrameId := f :: (s.frame f).enclosing

/-- The value of a name in one frame. -/
def local? (s : Store) (f : FrameId) (name : String) : Option Value :=
  (s.frame f).bindings.lookup name

/-- The value of a name in the nearest frame that binds it. -/
def get? (s : Store) (f : FrameId) (name : String) : Option Value :=
  (s.chain f).findSome? fun g => s.local? g name

/-- Binds a name in a frame, in place of an earlier binding there. -/
def declare (s : Store) (f : FrameId) (name : String) (value : Value) : Store :=
  { s with frames := s.frames.modify f fun frame =>
      { frame with bindings := Assoc.put name value frame.bindings } }

/-- Changes the value of a name in the nearest frame that binds it, if there is one. -/
def assign? (s : Store) (f : FrameId) (name : String) (value : Value) : Option Store :=
  ((s.chain f).find? fun g => (s.local? g name).isSome).map fun g => s.declare g name value

/-! ### New frames -/

/-- Whether a frame is gone by now. -/
def gone (s : Store) (f : FrameId) : Bool := s.lifetimes.gone s.moment f

/-- The registry of a root. -/
def registryOf (s : Store) (root : Nat) : Registry := s.registries.getD root {}

/-- Enters a frame into the registry of a root. -/
def register (s : Store) (root : Nat) (f : FrameId) : Store :=
  { s with
    registries := s.registries.modify root (·.register s.gone f)
    moment := s.moment + 1 }

/-- An empty frame inside another one. -/
def nest (s : Store) (f : FrameId) : FrameId × Store :=
  let root := (s.frame f).root
  let frames := s.frames.push { enclosing := s.chain f, root }
  (s.frames.size, Store.register { s with frames } root s.frames.size)

/-- An empty root with one owner. -/
def newRoot (s : Store) : FrameId × Store :=
  let root := s.owners.size
  (s.frames.size, Store.register
    { s with
      frames := s.frames.push { enclosing := [], root }
      owners := s.owners.push 1
      registries := s.registries.push {} } root s.frames.size)

/-! ### Owners -/

/-- One more owner of the root of a frame. -/
def retain (s : Store) (f : FrameId) : Store :=
  { s with owners := s.owners.modify (s.frame f).root (· + 1) }

/-- Empties a frame. -/
def empty (s : Store) (f : FrameId) : Store :=
  { s with frames := s.frames.modify f fun frame => { frame with bindings := [] } }

/-- Empties those of some frames that are not gone when it is their turn. -/
def emptyLive (s : Store) : List FrameId → Store
  | [] => s
  | f :: fs =>
    let s := if s.gone f then s else s.empty f
    Store.emptyLive { s with moment := s.moment + 1 } fs

/-- Takes the entries out of the registry of a root and empties the frames that are still there. -/
def clear (s : Store) (root : Nat) : Store :=
  Store.emptyLive { s with registries := s.registries.modify root Registry.drained }
    (s.registryOf root).entries.toList

/-- One owner less of the root of a frame; without owners, the root is emptied. -/
def release (s : Store) (f : FrameId) : Store :=
  let root := (s.frame f).root
  let left := s.owners.getD root 0 - 1
  let s := { s with owners := s.owners.modify root fun _ => left }
  if left = 0 then s.clear root else s

/-! ### Inspection -/

/-- The frames of a chain as text, each with its names in order. -/
def debugChain (s : Store) : List FrameId → String
  | [] => "None"
  | f :: rest =>
    let names := ((s.frame f).bindings.map (·.1)).mergeSort (fun a b => a ≤ b)
    let parent := match rest with
      | [] => "None"
      | _ :: _ => "Some(" ++ s.debugChain rest ++ ")"
    "Scope \x7b names: " ++ quotedList names ++ ", parent: " ++ parent ++ " \x7d"

/-- A frame with the names it binds, and those that enclose it. -/
def debug (s : Store) (f : FrameId) : String := s.debugChain (s.chain f)

/-! ### Frames under the operations -/

/-- A frame that is not there binds nothing and is nested nowhere. -/
theorem frame_of_size_le (s : Store) {f : FrameId} (h : s.frames.size ≤ f) : s.frame f = default := by
  unfold frame
  rw [Array.getD_eq_getD_getElem?, Array.getElem?_eq_none h, Option.getD_none]

theorem frame_modify (s : Store) (f g : FrameId) (change : Frame → Frame)
    (h : change default = default) :
    Store.frame { s with frames := s.frames.modify f change } g =
      if f = g then change (s.frame g) else s.frame g := by
  unfold frame
  rw [Array.getD_eq_getD_getElem?, Array.getD_eq_getD_getElem?, Array.getElem?_modify]
  split
  · rcases s.frames[g]? with _ | frame
    · exact h.symm
    · rfl
  · rfl

/-! #### Variables -/

theorem frame_declare (s : Store) (f g : FrameId) (name : String) (value : Value)
    (h : g ≠ f) : (s.declare f name value).frame g = s.frame g := by
  unfold frame declare
  rw [Array.getD_eq_getD_getElem?, Array.getD_eq_getD_getElem?, Array.getElem?_modify,
    if_neg (Ne.symm h)]

theorem frame_declare_self (s : Store) (f : FrameId) (name : String) (value : Value)
    (h : f < s.frames.size) :
    (s.declare f name value).frame f =
      { s.frame f with bindings := Assoc.put name value (s.frame f).bindings } := by
  unfold frame declare
  rw [Array.getD_eq_getD_getElem?, Array.getD_eq_getD_getElem?, Array.getElem?_modify,
    if_pos rfl, Array.getElem?_eq_getElem h]
  rfl

theorem size_declare (s : Store) (f : FrameId) (name : String) (v : Value) :
    (s.declare f name v).frames.size = s.frames.size := Array.size_modify

/-- A frame that is declared in gets one binding; one that is not there stays empty. -/
theorem frame_declare_cases (s : Store) (f g : FrameId) (name : String) (v : Value) :
    (s.declare f name v).frame g = s.frame g ∨
      (s.declare f name v).frame g =
        { s.frame g with bindings := Assoc.put name v (s.frame g).bindings } := by
  by_cases hgf : g = f
  · subst hgf
    -- nothing is written to a frame that is not there
    by_cases hg : g < s.frames.size
    · exact Or.inr (s.frame_declare_self g name v hg)
    · refine Or.inl ?_
      rw [frame_of_size_le s (Nat.le_of_not_lt hg), frame_of_size_le]
      rw [size_declare]
      exact Nat.le_of_not_lt hg
  · exact Or.inl (s.frame_declare f g name v hgf)

theorem enclosing_declare (s : Store) (f g : FrameId) (name : String) (v : Value) :
    ((s.declare f name v).frame g).enclosing = (s.frame g).enclosing := by
  rcases s.frame_declare_cases f g name v with h | h
  · rw [h]
  · rw [h]

theorem root_declare (s : Store) (f g : FrameId) (name : String) (v : Value) :
    ((s.declare f name v).frame g).root = (s.frame g).root := by
  rcases s.frame_declare_cases f g name v with h | h
  · rw [h]
  · rw [h]

/-- **A declared variable has its value.** -/
theorem get?_declare_self (s : Store) (f : FrameId) (name : String) (value : Value)
    (h : f < s.frames.size) : (s.declare f name value).get? f name = some value := by
  have hlocal : (s.declare f name value).local? f name = some value := by
    rw [local?, frame_declare_self s f name value h]
    exact (Assoc.lookup_put name value name _).trans (if_pos rfl)
  rw [get?, chain, List.findSome?_cons, hlocal]

/-! #### New frames -/

theorem frame_push {s t : Store} {new : Frame} (h : t.frames = s.frames.push new) (f : FrameId) :
    t.frame f = if f = s.frames.size then new else s.frame f := by
  unfold frame
  rw [Array.getD_eq_getD_getElem?, Array.getD_eq_getD_getElem?, h, Array.getElem?_push]
  split
  · rfl
  · rfl

theorem frames_nest (s : Store) (f : FrameId) :
    (s.nest f).2.frames = s.frames.push { enclosing := s.chain f, root := (s.frame f).root } := rfl

theorem size_nest (s : Store) (f : FrameId) : (s.nest f).2.frames.size = s.frames.size + 1 := by
  rw [frames_nest, Array.size_push]

/-- **A nested frame** is the last one, and the others are as they were. -/
theorem frame_nest (s : Store) (f g : FrameId) :
    (s.nest f).2.frame g =
      if g = s.frames.size then { enclosing := s.chain f, root := (s.frame f).root } else s.frame g :=
  frame_push (s.frames_nest f) g

theorem frame_nest_of_lt (s : Store) (f g : FrameId) (h : g < s.frames.size) :
    (s.nest f).2.frame g = s.frame g := by
  rw [frame_nest, if_neg (Nat.ne_of_lt h)]

theorem frames_newRoot (s : Store) :
    s.newRoot.2.frames = s.frames.push { enclosing := [], root := s.owners.size } := rfl

theorem size_newRoot (s : Store) : s.newRoot.2.frames.size = s.frames.size + 1 := by
  rw [frames_newRoot, Array.size_push]

theorem frame_newRoot (s : Store) (f : FrameId) :
    s.newRoot.2.frame f =
      if f = s.frames.size then { enclosing := [], root := s.owners.size } else s.frame f :=
  frame_push s.frames_newRoot f

/-! #### Emptied frames -/

/-- Some of the frames of a list have been emptied, at least those that are not gone by now. Nothing
else has changed but the moment. -/
structure Empties (fs : List FrameId) (s t : Store) : Prop where
  /-- There are as many frames. -/
  size_eq : t.frames.size = s.frames.size
  /-- A frame is as it was, or it is in the list and has been emptied. -/
  frame : ∀ g, t.frame g = s.frame g ∨ g ∈ fs ∧ t.frame g = { s.frame g with bindings := [] }
  /-- Those that are still there have been emptied. -/
  live : ∀ g ∈ fs, t.gone g = false → (t.frame g).bindings = []
  /-- Owners are neither gained nor lost. -/
  owners_eq : t.owners = s.owners
  /-- Frames go when they went before. -/
  lifetimes_eq : t.lifetimes = s.lifetimes
  /-- Time does not run backwards. -/
  moment_le : s.moment ≤ t.moment
  /-- No registry has changed. -/
  registries_eq : t.registries = s.registries

/-- What is gone stays so, as long as the lifetimes are the same. -/
theorem gone_of_le {s t : Store} (hlifetimes : t.lifetimes = s.lifetimes) (h : s.moment ≤ t.moment)
    {f : FrameId} (hf : t.gone f = false) : s.gone f = false := by
  refine Bool.eq_false_iff.mpr fun hgone => ?_
  rw [gone, hlifetimes, s.lifetimes.stays h hgone] at hf
  exact Bool.noConfusion hf

theorem frame_empty (s : Store) (f g : FrameId) :
    (s.empty f).frame g = if f = g then { s.frame g with bindings := [] } else s.frame g :=
  s.frame_modify f g _ rfl

/-- One list of frames after another. -/
theorem Empties.append {fs gs : List FrameId} {s t u : Store} (h : s.Empties fs t)
    (h' : t.Empties gs u) : s.Empties (fs ++ gs) u where
  size_eq := h'.size_eq.trans h.size_eq
  frame g := by
    rcases h'.frame g with hu | ⟨hmem, hu⟩
    · rw [hu]
      exact (h.frame g).imp_right fun ht => ⟨List.mem_append_left gs ht.1, ht.2⟩
    · -- emptied in the second list, and perhaps in the first one before
      refine Or.inr ⟨List.mem_append_right fs hmem, ?_⟩
      rcases h.frame g with ht | ⟨-, ht⟩
      · rw [hu, ht]
      · rw [hu, ht]
  live g hg hgone := by
    rcases List.mem_append.mp hg with hg | hg
    · -- a frame that is still there at the end was there after the first list
      have hempty := h.live g hg (gone_of_le h'.lifetimes_eq h'.moment_le hgone)
      rcases h'.frame g with hu | ⟨-, hu⟩
      · rw [hu, hempty]
      · rw [hu]
    · exact h'.live g hg hgone
  owners_eq := h'.owners_eq.trans h.owners_eq
  lifetimes_eq := h'.lifetimes_eq.trans h.lifetimes_eq
  moment_le := Nat.le_trans h.moment_le h'.moment_le
  registries_eq := h'.registries_eq.trans h.registries_eq

/-- A single frame has its turn: it is emptied if it is still there, and time goes on. -/
theorem empties_turn (s : Store) (f : FrameId) :
    let u := if s.gone f then s else s.empty f
    s.Empties [f] { u with moment := u.moment + 1 } := by
  by_cases hgone : s.gone f = true
  · rw [if_pos hgone]
    refine ⟨rfl, fun _ => Or.inl rfl, fun g hg hthere => ?_, rfl, rfl, Nat.le_succ _, rfl⟩
    -- what is gone at the turn is gone afterwards, too
    obtain rfl := List.mem_singleton.mp hg
    have hbefore : s.gone g = false := by
      refine gone_of_le ?_ ?_ hthere
      · rfl
      · exact Nat.le_succ _
    exact absurd (hgone.symm.trans hbefore) Bool.noConfusion
  · rw [if_neg hgone]
    refine ⟨Array.size_modify, fun g => ?_, fun g hg _ => ?_, rfl, rfl, Nat.le_succ _, rfl⟩
    · change (s.empty f).frame g = _ ∨ _ ∧ (s.empty f).frame g = _
      rw [frame_empty]
      split
      case isTrue heq => exact Or.inr ⟨List.mem_singleton.mpr heq.symm, rfl⟩
      case isFalse => exact Or.inl rfl
    · obtain rfl := List.mem_singleton.mp hg
      change ((s.empty g).frame g).bindings = []
      rw [frame_empty, if_pos rfl]

/-- **Which frames are emptied:** some of those in the list, and all that are still there afterwards. -/
theorem empties_emptyLive (fs : List FrameId) (s : Store) : s.Empties fs (s.emptyLive fs) := by
  -- frame by frame, each one at a later moment than those before it
  induction fs generalizing s with
  | nil =>
    exact ⟨rfl, fun _ => Or.inl rfl, fun g hg => absurd hg List.not_mem_nil, rfl, rfl, Nat.le_refl _, rfl⟩
  | cons f fs ih => exact (s.empties_turn f).append (ih _)

/-- What emptying a root does to the frames: it concerns those in the registry. -/
theorem empties_clear (s : Store) (root : Nat) :
    Empties (s.registryOf root).entries.toList
      { s with registries := s.registries.modify root Registry.drained } (s.clear root) :=
  empties_emptyLive _ _

end Store

end GraphQuery
