import GraphQuery.Proofs.Eval.Discipline
import GraphQuery.Proofs.Scope.Registration

/-!
# Frames that stay empty

An evaluation works on the frames by their operations (`Store.Evolves`). It binds variables in the frame it
runs in and in frames that it makes, and it changes variables wherever they are bound. So a frame that is
empty and that nothing runs in stays empty. This is what `Store.Settles` says, together with what else an
evaluation leaves as it is: how frames enclose one another, to which roots they belong, how many owners
these have, and which names are bound.

All that is asked of the functions of a host is that they work on the frames in the same way
(`HostLibrary.Evolving`). They may also evaluate something in a root of their own, if they drop it again.

A store is **grounded** (`Store.Grounded`) if a frame is a root or is nested in an earlier frame, whose
root it has, if the registries have the frames that they should, and if all frames that closures have
captured are there. Evaluations keep a store grounded. In such a store the frames around a frame all belong
to its root.

So a closure that has captured a frame in an empty surrounding is on its own (`Closure.Isolated`): a call
binds its parameter, and all that can be resolved later on from inside the call is bound in frames that
have been made since.

## Main statements

* `Store.Grounded.root_eq_iff`: the frames of a root.
* `Store.Grounded.chain_split`: frames inside a frame look names up there before they look around it.
* `Store.Evolves.grounded`, `Store.Evolves.settles`: what the operations of an evaluation come to.
* `run_settles`: what an evaluation does to a grounded store.
* `Closure.isolated_of_empty`: a closure in an empty surrounding.
-/

namespace GraphQuery

/-- The closures in the value have captured frames that are there. -/
abbrev Value.Within (n : Nat) (v : Value) : Prop := v.Fits (fun _ => True) (· < n)

/-- With more frames, the same ones are still there. -/
theorem Value.Within.of_le {n k : Nat} {v : Value} (h : v.Within n) (hk : n ≤ k) : v.Within k :=
  h.mono fun _ hf => Nat.lt_of_lt_of_le hf hk

namespace Store

/-! ### Grounded stores -/

/-- Every frame is a root or nested in an earlier frame, and no closure has captured a frame that is not
there. -/
structure Grounded (s : Store) : Prop where
  /-- A frame that is no root is nested in an earlier one. -/
  enclosing : ∀ f < s.frames.size, (s.frame f).enclosing = [] ∨
    ∃ p < f, (s.frame f).enclosing = s.chain p ∧ (s.frame f).root = (s.frame p).root
  /-- The owners of roots are counted. -/
  root_lt : ∀ f < s.frames.size, (s.frame f).root < s.owners.size
  /-- Roots have numbers of their own. -/
  unique : ∀ f < s.frames.size, ∀ g < s.frames.size, (s.frame f).enclosing = [] →
    (s.frame g).enclosing = [] → (s.frame f).root = (s.frame g).root → f = g
  /-- The registries have the frames that they should. -/
  registered : s.Registered
  /-- Closures have captured frames of the store. -/
  value : ∀ f x v, s.local? f x = some v → v.Within s.frames.size

namespace Grounded

variable {s t : Store}

/-- The frames around a frame are earlier, and belong to the same root. -/
theorem of_mem_enclosing (h : s.Grounded) {f g : FrameId} (hf : f < s.frames.size)
    (hg : g ∈ (s.frame f).enclosing) : g < f ∧ (s.frame g).root = (s.frame f).root := by
  -- the induction is on the number of the frame: the one around it is earlier, and the others are around
  -- that one
  induction f using Nat.strongRecOn with
  | ind f ih =>
    rcases h.enclosing f hf with hnil | ⟨p, hp, hchain, hroot⟩
    · rw [hnil] at hg
      exact absurd hg List.not_mem_nil
    · rw [hchain] at hg
      rcases List.mem_cons.mp hg with rfl | hg
      · exact ⟨hp, hroot.symm⟩
      · obtain ⟨hlt, heq⟩ := ih p hp (Nat.lt_trans hp hf) hg
        exact ⟨Nat.lt_trans hlt hp, heq.trans hroot.symm⟩

/-- The frames around a frame, and itself, belong to its root. -/
theorem of_mem_chain (h : s.Grounded) {f g : FrameId} (hf : f < s.frames.size)
    (hg : g ∈ s.chain f) : g ≤ f ∧ (s.frame g).root = (s.frame f).root := by
  rcases List.mem_cons.mp hg with rfl | hg
  · exact ⟨Nat.le_refl _, rfl⟩
  · obtain ⟨hlt, hroot⟩ := h.of_mem_enclosing hf hg
    exact ⟨Nat.le_of_lt hlt, hroot⟩

/-- In a grounded store, lookups and values lead to frames that are there. -/
theorem sealed (h : s.Grounded) : s.Sealed (fun _ => True) (· < s.frames.size) where
  enclosing _ hf _ hg := Nat.lt_trans (h.of_mem_enclosing hf hg).1 hf
  value f _ := h.value f

/-- Around all other frames there is one that is a root. -/
theorem exists_outermost (h : s.Grounded) {f : FrameId} (hf : f < s.frames.size) :
    ∃ r < s.frames.size, (s.chain f).getLast? = some r ∧ (s.frame r).enclosing = [] ∧
      (s.frame r).root = (s.frame f).root := by
  induction f using Nat.strongRecOn with
  | ind f ih =>
    rcases h.enclosing f hf with hnil | ⟨p, hp, hchain, hroot⟩
    · refine ⟨f, hf, ?_, hnil, rfl⟩
      rw [chain, hnil]
      rfl
    · obtain ⟨r, hr, hlast, hnil, hrroot⟩ := ih p hp (Nat.lt_trans hp hf)
      refine ⟨r, hr, ?_, hnil, hrroot.trans hroot.symm⟩
      rw [chain, hchain, List.getLast?_cons, hlast]
      rfl

/-- **The frames of a root** are those that it is around. -/
theorem root_eq_iff (h : s.Grounded) {f g : FrameId} (hf : f < s.frames.size)
    (hg : g < s.frames.size) :
    (s.frame f).root = (s.frame g).root ↔ (s.chain f).getLast? = (s.chain g).getLast? := by
  obtain ⟨r, hr, hlast, hnil, hroot⟩ := h.exists_outermost hf
  obtain ⟨r', hr', hlast', hnil', hroot'⟩ := h.exists_outermost hg
  -- two frames have one root if one outermost frame is around both
  constructor
  · intro heq
    have hsame : r = r' := h.unique r hr r' hr' hnil hnil' (hroot.trans (heq.trans hroot'.symm))
    rw [hlast, hlast', hsame]
  · intro heq
    obtain rfl : r = r' := Option.some.inj (hlast.symm.trans (heq.trans hlast'))
    exact hroot.symm.trans hroot'

/-- **Lookups from inside a frame** go through frames that have been made after it, and then on as from
the frame itself. -/
theorem chain_split (h : s.Grounded) {f k : FrameId} (hf : f < s.frames.size) (hk : k ∈ s.chain f) :
    ∃ inner, s.chain f = inner ++ s.chain k ∧ ∀ g ∈ inner, k < g := by
  induction f using Nat.strongRecOn with
  | ind f ih =>
    rcases List.mem_cons.mp hk with rfl | hk
    · exact ⟨[], rfl, List.forall_mem_nil _⟩
    · rcases h.enclosing f hf with hnil | ⟨p, hp, hchain, -⟩
      · rw [hnil] at hk
        exact absurd hk List.not_mem_nil
      · -- the frame comes before what is passed on the way from the next one
        rw [hchain] at hk
        have hpf : p < s.frames.size := Nat.lt_trans hp hf
        obtain ⟨inner, hinner, hlt⟩ := ih p hp hpf hk
        have hkf : k < f := Nat.lt_of_le_of_lt (h.of_mem_chain hpf hk).1 hp
        refine ⟨f :: inner, ?_, List.forall_mem_cons.mpr ⟨hkf, hlt⟩⟩
        rw [chain, hchain, hinner, List.cons_append]

/-- Changes that leave the nesting of the frames alone. -/
theorem of_frames (h : s.Grounded) (hsize : t.frames.size = s.frames.size)
    (howners : t.owners.size = s.owners.size)
    (henclosing : ∀ f, (t.frame f).enclosing = (s.frame f).enclosing)
    (hroot : ∀ f, (t.frame f).root = (s.frame f).root) (hregistered : t.Registered)
    (hvalue : ∀ f x v, t.local? f x = some v → v.Within s.frames.size) : t.Grounded where
  enclosing f hf := by
    rw [hsize] at hf
    rcases h.enclosing f hf with hnil | ⟨p, hp, hchain, hproot⟩
    · exact Or.inl ((henclosing f).trans hnil)
    · refine Or.inr ⟨p, hp, ?_, ?_⟩
      · rw [henclosing, hchain, chain, chain, henclosing]
      · rw [hroot, hroot, hproot]
  root_lt f hf := by
    rw [hroot, howners]
    exact h.root_lt f (hsize ▸ hf)
  unique f hf g hg hnil hnil' heq := by
    rw [henclosing] at hnil hnil'
    rw [hroot, hroot] at heq
    exact h.unique f (hsize ▸ hf) g (hsize ▸ hg) hnil hnil' heq
  registered := hregistered
  value f x v hv := hsize ▸ hvalue f x v hv

/-- A declaration may bind a value whose frames are there. -/
theorem declare (h : s.Grounded) (f : FrameId) (x : String) {v : Value}
    (hv : v.Within s.frames.size) : (s.declare f x v).Grounded := by
  refine h.of_frames (s.size_declare f x v) rfl (fun g => s.enclosing_declare f g x v)
    (fun g => s.root_declare f g x v) (h.registered.declare f x v) fun g z w hw => ?_
  rcases local?_declare hw with rfl | hw
  · exact hv
  · exact h.value g z w hw

/-- Another owner may be made of a root that has one. -/
theorem retain (h : s.Grounded) {f : FrameId} (hf : s.ownersOf (s.frame f).root ≠ 0) :
    (s.retain f).Grounded :=
  h.of_frames rfl Array.size_modify (fun _ => rfl) (fun _ => rfl) (h.registered.retain hf) h.value

/-- A release empties frames, and an empty frame has no closure. -/
theorem release (h : s.Grounded) {f : FrameId} (hf : f < s.frames.size) : (s.release f).Grounded := by
  refine h.of_frames (s.size_release f) (s.size_owners_release f) (s.enclosing_release f)
    (s.root_release f) (h.registered.release (h.root_lt f hf)) fun g x v hv => ?_
  rw [local?] at hv
  -- a frame is as it was, or has no bindings any more
  rcases s.frame_release_cases f g with heq | heq
  · rw [heq] at hv
    exact h.value g x v hv
  · rw [heq] at hv
    exact absurd hv.symm (Option.some_ne_none v)

end Grounded

/-! #### New frames -/

/-- A frame is the new one, or was there before. -/
theorem frame_push_cases {s t : Store} {new : Frame} (h : t.frames = s.frames.push new)
    {f : FrameId} (hf : f < t.frames.size) :
    (f < s.frames.size ∧ t.frame f = s.frame f) ∨ (f = s.frames.size ∧ t.frame f = new) := by
  rw [h, Array.size_push] at hf
  rw [frame_push h]
  rcases Nat.lt_succ_iff_lt_or_eq.mp hf with hf | hf
  · exact Or.inl ⟨hf, if_neg (Nat.ne_of_lt hf)⟩
  · exact Or.inr ⟨hf, if_pos hf⟩

/-- A new frame that is empty, and a root with a new number or nested in another one. -/
theorem Grounded.push {s t : Store} (h : s.Grounded) {new : Frame}
    (hframes : t.frames = s.frames.push new) (hempty : new.bindings = [])
    (hnested : (new.enclosing = [] ∧ s.owners.size ≤ new.root) ∨
      ∃ p < s.frames.size, new.enclosing = s.chain p ∧ new.root = (s.frame p).root)
    (howners : s.owners.size ≤ t.owners.size) (hroot : new.root < t.owners.size)
    (hregistered : t.Registered) : t.Grounded := by
  have hold : ∀ f < s.frames.size, t.frame f = s.frame f := by
    intro f hf
    rw [frame_push hframes, if_neg (Nat.ne_of_lt hf)]
  -- what was nested in a frame still is
  have hinside : ∀ p < s.frames.size, t.chain p = s.chain p ∧ (t.frame p).root = (s.frame p).root := by
    intro p hp
    rw [chain, chain, hold p hp]
    exact ⟨rfl, rfl⟩
  -- no frame has had the number of a new root
  have hother : ∀ f < s.frames.size, new.enclosing = [] → (s.frame f).root ≠ new.root := by
    intro f hf hnil
    rcases hnested with ⟨-, hfresh⟩ | ⟨p, -, hchain, -⟩
    · exact Nat.ne_of_lt (Nat.lt_of_lt_of_le (h.root_lt f hf) hfresh)
    · exact absurd (hchain.symm.trans hnil) (List.cons_ne_nil _ _)
  refine ⟨fun f hf => ?_, fun f hf => ?_, fun f hf g hg hnil hnil' heq => ?_, hregistered,
    fun f x v hv => ?_⟩
  · rcases frame_push_cases hframes hf with ⟨hf, hframe⟩ | ⟨rfl, hframe⟩
    · rcases h.enclosing f hf with hnil | ⟨p, hp, hchain, hproot⟩
      · exact Or.inl (hframe ▸ hnil)
      · obtain ⟨hchain', hroot'⟩ := hinside p (Nat.lt_trans hp hf)
        exact Or.inr ⟨p, hp, by rw [hframe, hchain, hchain'], by rw [hframe, hproot, hroot']⟩
    · rcases hnested with ⟨hnil, -⟩ | ⟨p, hp, hchain, hproot⟩
      · exact Or.inl (hframe ▸ hnil)
      · obtain ⟨hchain', hroot'⟩ := hinside p hp
        exact Or.inr ⟨p, hp, by rw [hframe, hchain, hchain'], by rw [hframe, hproot, hroot']⟩
  · rcases frame_push_cases hframes hf with ⟨hf, hframe⟩ | ⟨-, hframe⟩
    · rw [hframe]
      exact Nat.lt_of_lt_of_le (h.root_lt f hf) howners
    · rw [hframe]
      exact hroot
  · rcases frame_push_cases hframes hf with ⟨hf, hframe⟩ | ⟨hf, hframe⟩
    · rcases frame_push_cases hframes hg with ⟨hg, hframe'⟩ | ⟨-, hframe'⟩
      · rw [hframe] at hnil heq
        rw [hframe'] at hnil' heq
        exact h.unique f hf g hg hnil hnil' heq
      · rw [hframe, hframe'] at heq
        exact absurd heq (hother f hf (hframe' ▸ hnil'))
    · rcases frame_push_cases hframes hg with ⟨hg, hframe'⟩ | ⟨hg, -⟩
      · rw [hframe, hframe'] at heq
        exact absurd heq.symm (hother g hg (hframe ▸ hnil))
      · exact hf.trans hg.symm
  · have hle : s.frames.size ≤ t.frames.size := by
      rw [hframes, Array.size_push]
      exact Nat.le_succ _
    rw [local?, frame_push hframes] at hv
    split at hv
    · rw [hempty] at hv
      exact absurd hv.symm (Option.some_ne_none v)
    · exact (h.value f x v hv).of_le hle

/-- A frame may be made inside another one. -/
theorem Grounded.nest {s : Store} (h : s.Grounded) {f : FrameId} (hf : f < s.frames.size) :
    (s.nest f).2.Grounded :=
  h.push (s.frames_nest f) rfl (Or.inr ⟨f, hf, rfl, rfl⟩) (Nat.le_refl _) (h.root_lt f hf)
    (h.registered.nest (h.root_lt f hf))

/-- A new root has a number of its own. -/
theorem Grounded.newRoot {s : Store} (h : s.Grounded) : s.newRoot.2.Grounded := by
  have howners : s.newRoot.2.owners.size = s.owners.size + 1 := Array.size_push _
  exact h.push s.frames_newRoot rfl (Or.inl ⟨rfl, Nat.le_refl _⟩) (howners ▸ Nat.le_succ _)
    (howners ▸ Nat.lt_succ_self _) (h.registered.newRoot h.root_lt)

/-- There are no frames at first. -/
theorem grounded_nil (lifetimes : Lifetimes) : Grounded { lifetimes } where
  enclosing _ hf := absurd hf (Nat.not_lt_zero _)
  root_lt _ hf := absurd hf (Nat.not_lt_zero _)
  unique _ hf := absurd hf (Nat.not_lt_zero _)
  registered := registered_nil lifetimes
  value _ _ v hv := absurd hv.symm (Option.some_ne_none v)

/-! ### Settling -/

/-- All frames of a store are in another one, where names stay bound, and the frames that are empty stay
so, except for `f`. -/
structure Settles (f : FrameId) (s t : Store) : Prop where
  /-- No frame disappears. -/
  size_le : s.frames.size ≤ t.frames.size
  /-- No root disappears. -/
  owners_le : s.owners.size ≤ t.owners.size
  /-- Owners are neither gained nor lost. -/
  ownersOf_eq : ∀ R, t.ownersOf R = s.ownersOf R
  /-- Frames go when they went before. -/
  lifetimes_eq : t.lifetimes = s.lifetimes
  /-- Frames stay where they are. -/
  enclosing_eq : ∀ g < s.frames.size, (t.frame g).enclosing = (s.frame g).enclosing
  /-- They belong to the same roots. -/
  root_eq : ∀ g < s.frames.size, (t.frame g).root = (s.frame g).root
  /-- No binding is lost. -/
  isSome : ∀ g < s.frames.size, ∀ x, (s.local? g x).isSome → (t.local? g x).isSome
  /-- Frames that are empty stay so. -/
  empty : ∀ g < s.frames.size, g ≠ f → (s.frame g).bindings = [] → (t.frame g).bindings = []

namespace Settles

variable {f : FrameId} {s t : Store}

/-- At first, nothing has changed. -/
theorem refl (f : FrameId) (s : Store) : s.Settles f s :=
  ⟨Nat.le_refl _, Nat.le_refl _, fun _ => rfl, rfl, fun _ _ => rfl, fun _ _ => rfl, fun _ _ _ h => h,
    fun _ _ _ h => h⟩

/-- After that, something may go on in `f` or in a new frame. -/
theorem trans {u : Store} {g : FrameId} (h : s.Settles f t) (h' : t.Settles g u)
    (hg : g = f ∨ s.frames.size ≤ g) : s.Settles f u where
  size_le := Nat.le_trans h.size_le h'.size_le
  owners_le := Nat.le_trans h.owners_le h'.owners_le
  ownersOf_eq R := (h'.ownersOf_eq R).trans (h.ownersOf_eq R)
  lifetimes_eq := h'.lifetimes_eq.trans h.lifetimes_eq
  enclosing_eq k hk :=
    (h'.enclosing_eq k (Nat.lt_of_lt_of_le hk h.size_le)).trans (h.enclosing_eq k hk)
  root_eq k hk := (h'.root_eq k (Nat.lt_of_lt_of_le hk h.size_le)).trans (h.root_eq k hk)
  isSome k hk x hx := h'.isSome k (Nat.lt_of_lt_of_le hk h.size_le) x (h.isSome k hk x hx)
  empty k hk hkf hempty := by
    refine h'.empty k (Nat.lt_of_lt_of_le hk h.size_le) ?_ (h.empty k hk hkf hempty)
    rintro rfl
    rcases hg with rfl | hnew
    · exact hkf rfl
    · exact Nat.not_lt.mpr hnew hk

/-- A name may be bound in `f`, in a frame that is new, or in one that is not empty. -/
theorem declare (h : s.Settles f t) {g : FrameId}
    (hg : g = f ∨ s.frames.size ≤ g ∨ (t.frame g).bindings ≠ []) (x : String) (v : Value) :
    s.Settles f (t.declare g x v) where
  size_le := (t.size_declare g x v).symm ▸ h.size_le
  owners_le := h.owners_le
  ownersOf_eq := h.ownersOf_eq
  lifetimes_eq := h.lifetimes_eq
  enclosing_eq k hk := (t.enclosing_declare g k x v).trans (h.enclosing_eq k hk)
  root_eq k hk := (t.root_declare g k x v).trans (h.root_eq k hk)
  isSome k hk z hz := by
    have hbound := h.isSome k hk z hz
    unfold local? at hbound ⊢
    rcases t.frame_declare_cases g k x v with heq | heq
    · rw [heq]
      exact hbound
    · rw [heq, Assoc.lookup_put]
      split
      · rfl
      · exact hbound
  empty k hk hkf hempty := by
    have hstays := h.empty k hk hkf hempty
    by_cases hkg : k = g
    · -- what is bound somewhere is bound in none of the empty frames
      subst hkg
      -- the frame is the one that may change, or it is new, or it is not empty
      rcases hg with rfl | hnew | hbound
      · exact absurd rfl hkf
      · exact absurd hk (Nat.not_lt.mpr hnew)
      · exact absurd hstays hbound
    · rw [t.frame_declare g k x v hkg]
      exact hstays

/-- A new frame changes no other frame. -/
theorem nest (h : s.Settles f t) (g : FrameId) : s.Settles f (t.nest g).2 := by
  have hold : ∀ k < s.frames.size, (t.nest g).2.frame k = t.frame k :=
    fun k hk => t.frame_nest_of_lt g k (Nat.lt_of_lt_of_le hk h.size_le)
  refine ⟨?_, h.owners_le, h.ownersOf_eq, h.lifetimes_eq, fun k hk => ?_, fun k hk => ?_,
    fun k hk x hx => ?_, fun k hk hkf hk' => ?_⟩
  · rw [size_nest]
    exact Nat.le_succ_of_le h.size_le
  · rw [hold k hk, h.enclosing_eq k hk]
  · rw [hold k hk, h.root_eq k hk]
  · rw [local?_nest]
    exact h.isSome k hk x hx
  · rw [hold k hk]
    exact h.empty k hk hkf hk'

/-- **A root of its own** that is made for an evaluation and dropped again leaves no trace in other
roots. -/
theorem alone (f : FrameId) (hs : s.Grounded) (ht : t.Grounded)
    (h : s.newRoot.2.Settles s.frames.size t) : s.Settles f (t.release s.frames.size) := by
  have hsize : s.newRoot.2.frames.size = s.frames.size + 1 := s.size_newRoot
  have hold : ∀ g < s.frames.size, s.newRoot.2.frame g = s.frame g := fun g hg =>
    (s.frame_newRoot g).trans (if_neg (Nat.ne_of_lt hg))
  have hlt : ∀ g < s.frames.size, g < s.newRoot.2.frames.size := fun g hg =>
    hsize ▸ Nat.lt_succ_of_lt hg
  have hroot : (t.frame s.frames.size).root = s.owners.size := by
    rw [h.root_eq _ (hsize ▸ Nat.lt_succ_self _), frame_newRoot, if_pos rfl]
  have hrootold : ∀ g < s.frames.size, (t.frame g).root = (s.frame g).root := fun g hg =>
    (h.root_eq g (hlt g hg)).trans (congrArg Frame.root (hold g hg))
  -- the root that is emptied is none of the earlier ones
  have hkept : ∀ g < s.frames.size, (t.release s.frames.size).frame g = t.frame g := by
    intro g hg
    refine ht.registered.frame_release_of_root_ne ?_
    rw [hrootold g hg, hroot]
    exact Nat.ne_of_lt (hs.root_lt g hg)
  refine ⟨?_, ?_, fun R => ?_, ?_, fun g hg => ?_, fun g hg => ?_, fun g hg x hx => ?_,
    fun g hg _ hempty => ?_⟩
  · rw [size_release]
    exact Nat.le_trans (Nat.le_of_succ_le (Nat.le_of_eq hsize.symm)) h.size_le
  · rw [size_owners_release]
    exact Nat.le_trans (Nat.le_of_succ_le (Nat.le_of_eq (Array.size_push _).symm)) h.owners_le
  · -- it has the owner that it was made with, until this one is released
    rw [ownersOf_release, hroot, h.ownersOf_eq, ownersOf_newRoot]
    by_cases hR : R = s.owners.size
    · rw [if_pos hR, if_pos hR.symm, ownersOf_of_size_le s (Nat.le_of_eq hR.symm)]
    · rw [if_neg hR, if_neg (Ne.symm hR), Nat.sub_zero]
  · exact (t.lifetimes_release _).trans h.lifetimes_eq
  · rw [hkept g hg, h.enclosing_eq g (hlt g hg), hold g hg]
  · rw [hkept g hg, hrootold g hg]
  · rw [local?, hkept g hg]
    refine h.isSome g (hlt g hg) x ?_
    rw [local?, hold g hg]
    exact hx
  · rw [hkept g hg]
    refine h.empty g (hlt g hg) (Nat.ne_of_lt hg) ?_
    rw [hold g hg]
    exact hempty

end Settles

/-- **What can be resolved inside a frame** in an empty surrounding, once the store has settled, is bound
in frames that are not older. -/
theorem Grounded.resolves {s t : Store} {i : FrameId} (ht : t.Grounded) (h : s.Settles i t)
    (hi : i < s.frames.size)
    (haround : ∀ k ∈ (s.frame i).enclosing, k < i ∧ (s.frame k).bindings = [])
    {f : FrameId} (hf : i ∈ t.chain f) {x : String} {w : Value} (hget : t.get? f x = some w) :
    ∃ k ∈ t.chain f, i ≤ k ∧ t.local? k x = some w := by
  -- a name is resolved in the first frame around that binds it
  obtain ⟨k, hk, hlocal⟩ := List.exists_of_findSome?_eq_some hget
  refine ⟨k, hk, ?_, hlocal⟩
  -- lookups from inside pass the frame before they come to what is around it
  rcases Nat.lt_or_ge f t.frames.size with hlt | hge
  · obtain ⟨inside, hsplit, hafter⟩ := ht.chain_split hlt hf
    rw [hsplit] at hk
    rcases List.mem_append.mp hk with hk | hk
    · exact Nat.le_of_lt (hafter k hk)
    · rcases List.mem_cons.mp hk with rfl | hk
      · exact Nat.le_refl _
      · -- what is around the frame has stayed empty
        rw [h.enclosing_eq i hi] at hk
        obtain ⟨hki, hempty⟩ := haround k hk
        have hstays := h.empty k (Nat.lt_trans hki hi) (Nat.ne_of_lt hki) hempty
        rw [local?, hstays] at hlocal
        exact absurd hlocal.symm (Option.some_ne_none w)
  · -- a frame that is not there has nothing around it
    rw [chain, frame_of_size_le t hge] at hf hk
    exact Nat.le_of_eq ((List.mem_singleton.mp hf).trans (List.mem_singleton.mp hk).symm)

/-- The frame in which a variable is changed binds it. -/
theorem bindings_ne_nil {s : Store} {fs : List FrameId} {g : FrameId} {x : String}
    (h : fs.find? (fun f => (s.local? f x).isSome) = some g) : (s.frame g).bindings ≠ [] := by
  intro hempty
  have hbound := List.find?_some h
  rw [local?, hempty] at hbound
  exact absurd hbound Bool.false_ne_true

/-! ### The operations of an evaluation -/

/-- One store comes from another one by operations of an evaluation that has started in a frame. -/
inductive Evolves : FrameId → Store → Store → Prop
  /-- Nothing has been done yet. -/
  | refl (f : FrameId) (s : Store) : Evolves f s s
  /-- A variable is bound, in the frame itself or in one that is new. -/
  | declare {f g : FrameId} {s t : Store} {v : Value} (x : String) : Evolves f s t →
      (g = f ∨ s.frames.size ≤ g) → v.Within t.frames.size → Evolves f s (t.declare g x v)
  /-- A variable is changed where it is bound. -/
  | assign {f g : FrameId} {s t u : Store} {x : String} {v : Value} : Evolves f s t →
      t.assign? g x v = some u → v.Within t.frames.size → Evolves f s u
  /-- A frame is made inside another one. -/
  | nest {f g : FrameId} {s t : Store} : Evolves f s t → g < t.frames.size → Evolves f s (t.nest g).2
  /-- Something is evaluated in a root of its own, which is dropped afterwards. -/
  | alone {f : FrameId} {s t u : Store} : Evolves f s t → Evolves t.frames.size t.newRoot.2 u →
      Evolves f s (u.release t.frames.size)

namespace Evolves

variable {f : FrameId} {s t : Store}

/-- **Evaluations keep a store grounded,** and it settles. The root that something is evaluated in is
there when it is dropped. -/
theorem grounded_and_settles (h : Evolves f s t) (hs : s.Grounded) : t.Grounded ∧ s.Settles f t := by
  induction h with
  | refl f s => exact ⟨hs, .refl f s⟩
  | declare x _ hg hv ih =>
    obtain ⟨hground, hsettles⟩ := ih hs
    exact ⟨hground.declare _ x hv, hsettles.declare (hg.imp_right Or.inl) x _⟩
  | assign _ hassign hv ih =>
    obtain ⟨hground, hsettles⟩ := ih hs
    obtain ⟨k, hfind, rfl⟩ := Option.map_eq_some_iff.mp hassign
    -- the variable has been bound before, so its frame is not one of those that are empty
    exact ⟨hground.declare k _ hv,
      hsettles.declare (Or.inr (Or.inr (bindings_ne_nil hfind))) _ _⟩
  | nest _ hg ih =>
    obtain ⟨hground, hsettles⟩ := ih hs
    exact ⟨hground.nest hg, hsettles.nest _⟩
  | @alone f s t u _ _ ih ih' =>
    obtain ⟨hground, hsettles⟩ := ih hs
    obtain ⟨hground', hsettles'⟩ := ih' hground.newRoot
    have hlt : t.frames.size < u.frames.size :=
      Nat.lt_of_lt_of_le (t.size_newRoot ▸ Nat.lt_succ_self _) hsettles'.size_le
    exact ⟨hground'.release hlt,
      hsettles.trans (.alone t.frames.size hground hground' hsettles') (Or.inr hsettles.size_le)⟩

/-- Evaluations keep a store grounded. -/
theorem grounded (h : Evolves f s t) (hs : s.Grounded) : t.Grounded := (h.grounded_and_settles hs).1

/-- Evaluations settle. -/
theorem settles (h : Evolves f s t) (hs : s.Grounded) : s.Settles f t := (h.grounded_and_settles hs).2

end Evolves

end Store

/-! ### The discipline -/

/-- All code, in an evaluation that has started in one frame of a grounded store: it runs in this frame or
in frames that have been made since, and works on the frames by their operations. -/
def Discipline.evolving (frame : FrameId) (start : Store) : Discipline where
  Names _ := True
  Held n f := f < n
  Open n f := f < n ∧ (f = frame ∨ start.frames.size ≤ f)
  Rel s t := t = s ∧ start.Grounded ∧ start.Evolves frame s
  held_mono hn hf := Nat.lt_of_lt_of_le hf hn
  open_mono hn hf := ⟨Nat.lt_of_lt_of_le hf.1 hn, hf.2⟩
  held_of_open hf := hf.1
  size_eq h := h.1 ▸ rfl
  get?_eq h _ _ := h.1 ▸ rfl
  get?_fits h hf _ hv := (h.2.2.grounded h.2.1).sealed.get? hf.1 hv
  declare h hf _ hv := by
    obtain ⟨rfl, hstart, hevolves⟩ := h
    exact ⟨rfl, hstart, hevolves.declare _ hf.2 hv⟩
  nest h hf := by
    obtain ⟨rfl, hstart, hevolves⟩ := h
    exact ⟨rfl, hstart, hevolves.nest hf⟩
  parameter x h hf hv := by
    obtain ⟨rfl, hstart, hevolves⟩ := h
    refine ⟨rfl, hstart, (hevolves.nest hf).declare x (Or.inr ?_) ?_⟩
    · exact (hevolves.settles hstart).size_le
    · exact Value.Within.of_le hv (Store.size_nest .. ▸ Nat.le_succ _)
  open_nest h := ⟨Nat.lt_succ_self _, Or.inr (h.2.2.settles h.2.1).size_le⟩

/-- **What is asked of a host:** its functions work on the frames by their operations, in the frame of
their caller and in frames that they make, as long as the calls that they make do. -/
def HostLibrary.Evolving (host : HostLibrary) : Prop :=
  ∀ (frame : FrameId) (start : Store), host.Obeys (.evolving frame start)

section Settling

open Discipline

variable {α : Type} {frame : FrameId} {start : Store} {n : Nat}

/-- Both evaluations are the same here, so that it is enough to look at one. -/
theorem admits_evolving {P : Nat → α → Prop} {m : Eval α}
    (h : ∀ s r t, m s = some (r, t) → s.store.Grounded → start.Evolves frame s.store →
      n ≤ s.store.frames.size → start.Evolves frame t.store ∧
      s.store.frames.size ≤ t.store.frames.size ∧ Returns (P t.store.frames.size) r) :
    (evolving frame start).Admits n P m := by
  intro s s' hs hsize
  obtain ⟨⟨hstore, hstart, hevolves⟩, hsites, hfunctions, hlog, hnotes⟩ := hs
  -- there is one state only, as the two agree in all of their parts
  obtain rfl : s' = s := by
    cases s
    cases s'
    cases hstore
    cases hsites
    cases hfunctions
    cases hlog
    cases hnotes
    rfl
  rcases hm : m s' with _ | ⟨r, t⟩
  · exact Or.inl ⟨rfl, rfl⟩
  · obtain ⟨hevolves', hgrow, hr⟩ := h s' r t hm (hevolves.grounded hstart) hevolves hsize
    exact Or.inr ⟨r, t, t, rfl, rfl, ⟨⟨rfl, hstart, hevolves'⟩, rfl, rfl, rfl, rfl⟩, hgrow, hr⟩

/-- What only reads the state. -/
theorem admits_read {f : State → Value}
    (hf : ∀ s : State, s.store.Grounded → n ≤ s.store.frames.size →
      (f s).Within s.store.frames.size) :
    (evolving frame start).Admits n (evolving frame start).Fits (get >>= fun s => pure (f s)) := by
  refine admits_evolving fun s r t h hground hevolves hsize => ?_
  obtain ⟨rfl, rfl⟩ := Prod.mk.inj (Option.some.inj h)
  exact ⟨hevolves, Nat.le_refl _, hf s hground hsize⟩

namespace Host

/-- A variable that is found has a value whose frames are there. -/
theorem evolving_lookupVariable : (unary lookupVariable).Obeys (evolving frame start) := by
  refine obeys_unary fun n cx v hcx _ => (Admits.of_result _).andThen fun x => ?_
  refine admits_read fun s hground hsize => ?_
  have hframe : cx.frame < s.store.frames.size := Nat.lt_of_lt_of_le hcx.frame.1 hsize
  rcases hx : s.store.get? cx.frame x with _ | w
  · exact Value.fits_of_isSimple rfl
  · exact hground.sealed.get? hframe hx

/-- Whether a variable is local has no frames in it. -/
theorem evolving_isLocal : (unary isLocal).Obeys (evolving frame start) := by
  refine obeys_unary fun n cx v _ _ => (Admits.of_result _).andThen fun x => ?_
  exact admits_read fun _ _ _ => Value.fits_of_isSimple rfl

/-- A declaration goes to the frame of the caller. -/
theorem evolving_declareVariable : (binary declareVariable).Obeys (evolving frame start) := by
  refine obeys_binary fun n cx v w hcx _ hw => (Admits.of_result _).andThen fun x => ?_
  exact (Admits.declare hcx.frame trivial hw).andThen fun _ => .pure fun _ => hw.of_le

/-- An assignment goes to the frame that binds the variable. -/
theorem evolving_mutateVariable : (binary mutateVariable).Obeys (evolving frame start) := by
  refine obeys_binary fun n cx v w hcx _ hw => (Admits.of_result _).andThen fun x => ?_
  refine admits_evolving fun s r t h hground hevolves hsize => ?_
  have hget : (get : Eval State) s = some (.ok s, s) := rfl
  rw [Eval.bind_apply, hget] at h
  dsimp only at h
  -- no frame binds the name and nothing happens, or the first that does gets the value
  rcases hassign : s.store.assign? cx.frame x w with _ | store
  · rw [hassign] at h
    obtain ⟨rfl, rfl⟩ := Prod.mk.inj (Option.some.inj h)
    exact ⟨hevolves, Nat.le_refl _, returns_error _⟩
  · rw [hassign] at h
    obtain ⟨rfl, rfl⟩ := Prod.mk.inj (Option.some.inj h)
    have hw : w.Within s.store.frames.size := Value.Within.of_le hw hsize
    have hgrow : s.store.frames.size ≤ store.frames.size := by
      obtain ⟨g, -, rfl⟩ := Option.map_eq_some_iff.mp hassign
      exact Nat.le_of_eq (s.store.size_declare g x w).symm
    exact ⟨hevolves.assign hassign hw, hgrow, Value.Within.of_le hw hgrow⟩

/-- Frames as text have no frames in them. -/
theorem evolving_frames : (parameterless frames).Obeys (evolving frame start) :=
  obeys_parameterless fun _ _ _ => admits_read fun _ _ _ => Value.fits_of_isSimple rfl

/-- The standard functions work on the frames by their operations. -/
theorem evolving_standard : standard.Evolving := by
  intro frame start call hcall n cx name args hcx hargs
  rcases standard_cases name with ⟨meaning, hmem, heq⟩ | heq
  · rw [heq]
    exact obeys_of_mem_standardTable (X := fun _ => True) (fun _ => evolving_lookupVariable)
      (fun _ => evolving_isLocal) (fun _ => evolving_declareVariable)
      (fun _ => evolving_mutateVariable) (fun _ => evolving_frames) hmem trivial call hcall n cx args
      hcx hargs
  · rw [heq]
    exact .simple rfl

end Host

/-- **What an evaluation does to a grounded store:** the store stays grounded, and it settles; the frames
that closures in the result have captured are there. -/
theorem run_settles {host : HostLibrary} (hhost : host.Evolving) {s t : State} {cx : Context}
    {code : Code} {depth : Nat} {r : Except Error Value} (hs : s.store.Grounded)
    (hcx : cx.frame < s.store.frames.size) (hrun : code.run host depth cx s = some (r, t)) :
    t.store.Grounded ∧ s.store.Settles cx.frame t.store ∧
      Returns (Value.Within t.store.frames.size) r := by
  have hcall := call_admits (hhost cx.frame s.store) depth
  have hruns : (evolving cx.frame s.store).Runs s.store.frames.size cx :=
    ⟨⟨hcx, Or.inl rfl⟩, fun _ _ h => h.1 ▸ rfl⟩
  have hrelated : (evolving cx.frame s.store).Related s s :=
    ⟨⟨rfl, hs, .refl _ _⟩, rfl, rfl, rfl, rfl⟩
  have hcode : code.Minds (evolving cx.frame s.store).Names := Or.inl fun _ => trivial
  rcases eval_admits hcall hruns code hcode s s hrelated (Nat.le_refl _) with
    ⟨hnone, -⟩ | ⟨r', t', t'', ht', -, hends, hgrow, hr⟩
  · exact absurd (hrun.symm.trans hnone) (Option.some_ne_none _)
  · obtain ⟨rfl, rfl⟩ := Prod.mk.inj (Option.some.inj (hrun.symm.trans ht'))
    have hevolves : s.store.Evolves cx.frame t.store := hends.store.2.2
    exact ⟨hevolves.grounded hs, hevolves.settles hs, hr⟩

end Settling

/-! ### Closures in empty surroundings -/

/-- The state after a call of a closure has begun: its frame is there, and its parameter is bound. -/
def Closure.entered (c : Closure) (g : FrameId) (v : Value) (u : State) : State :=
  { u with store := match c.parameter with
    | some p => (u.store.nest g).2.declare u.store.frames.size p v
    | none => (u.store.nest g).2 }

/-- The closure, which has captured the frame `g`, runs on its own when it is called with a value in a
state: nothing is resolved during the call but the parameter, and what is bound during the call. -/
structure Closure.Isolated (host : HostLibrary) (c : Closure) (g : FrameId) (v : Value) (u : State) :
    Prop where
  /-- The body is evaluated in a new frame. -/
  invoke : ∀ (call : Caller) (cx : Context), c.invoke call cx v u =
    c.body.eval call { cx with frame := u.store.frames.size } (c.entered g v u)
  /-- At first, nothing but the parameter can be resolved from there. -/
  parameter : ∀ x, (c.entered g v u).store.get? u.store.frames.size x =
    if c.parameter = some x then some v else none
  /-- The call begins in a grounded store. -/
  grounded : (c.entered g v u).store.Grounded
  /-- What goes on during the call, in its frame or in frames that are made later, settles. -/
  settles : ∀ (s t : State) (depth : Nat) (cx : Context) (code : Code) (r : Except Error Value),
    s.store.Grounded → (c.entered g v u).store.Settles u.store.frames.size s.store →
    u.store.frames.size ≤ cx.frame → cx.frame < s.store.frames.size →
    code.run host depth cx s = some (r, t) →
    t.store.Grounded ∧ (c.entered g v u).store.Settles u.store.frames.size t.store
  /-- As long as this is so, all that can be resolved from the frame of the call, or from frames inside
  it, is bound in frames that were not there before the call. -/
  resolves : ∀ t : Store, t.Grounded → (c.entered g v u).store.Settles u.store.frames.size t →
    ∀ f x w, u.store.frames.size ∈ t.chain f → t.get? f x = some w →
      ∃ k ∈ t.chain f, u.store.frames.size ≤ k ∧ t.local? k x = some w

namespace Closure

variable {c : Closure} {u : State} {g : FrameId}

/-- A call of a closure is its body, evaluated in a new frame. -/
theorem invoke_eq_entered (hframe : c.frame = some g) (call : Caller) (cx : Context) (v : Value) :
    c.invoke call cx v u =
      c.body.eval call { cx with frame := u.store.frames.size } (c.entered g v u) := by
  obtain ⟨site, parameter, body, frame⟩ := c
  obtain rfl : frame = some g := hframe
  cases parameter with
  | none => rfl
  | some p => rfl

/-- The new frame is nested in the one that was captured, and binds a value whose frames are there. -/
theorem grounded_entered (hu : u.store.Grounded) (hg : g < u.store.frames.size) {v : Value}
    (hv : v.Within u.store.frames.size) : (c.entered g v u).store.Grounded := by
  have hnest : (u.store.nest g).2.Grounded := hu.nest hg
  have hv : v.Within (u.store.nest g).2.frames.size :=
    hv.of_le (Store.size_nest .. ▸ Nat.le_succ _)
  unfold entered
  cases c.parameter with
  | none => exact hnest
  | some p => exact hnest.declare _ p hv

/-- A call makes one frame. -/
theorem size_entered (v : Value) :
    (c.entered g v u).store.frames.size = u.store.frames.size + 1 := by
  unfold entered
  cases c.parameter with
  | none => exact u.store.size_nest g
  | some p => exact (Store.size_declare ..).trans (u.store.size_nest g)

/-- The new frame is inside the one that was captured. -/
theorem enclosing_entered (v : Value) :
    ((c.entered g v u).store.frame u.store.frames.size).enclosing = u.store.chain g := by
  have hnest : ((u.store.nest g).2.frame u.store.frames.size).enclosing = u.store.chain g := by
    rw [Store.frame_nest, if_pos rfl]
  unfold entered
  cases c.parameter with
  | none => exact hnest
  | some p => exact (Store.enclosing_declare ..).trans hnest

/-- The frames that were there are as they were. -/
theorem frame_entered (v : Value) {k : FrameId} (hk : k < u.store.frames.size) :
    (c.entered g v u).store.frame k = u.store.frame k := by
  have hnest : (u.store.nest g).2.frame k = u.store.frame k := u.store.frame_nest_of_lt g k hk
  unfold entered
  cases c.parameter with
  | none => exact hnest
  | some p => exact (Store.frame_declare _ _ _ _ _ (Nat.ne_of_lt hk)).trans hnest

/-- The new one binds the parameter. -/
theorem local?_entered (v : Value) (x : String) :
    (c.entered g v u).store.local? u.store.frames.size x =
      if c.parameter = some x then some v else none := by
  have hfresh : (u.store.nest g).2.local? u.store.frames.size x = none := by
    rw [Store.local?_nest, Store.local?, Store.frame_of_size_le _ (Nat.le_refl _)]
    rfl
  have hlt : u.store.frames.size < (u.store.nest g).2.frames.size := by
    rw [Store.size_nest]
    exact Nat.lt_succ_self _
  unfold entered
  cases c.parameter with
  | none => rw [if_neg (Option.some_ne_none x).symm, hfresh]
  | some p =>
    rw [Store.local?_declare_eq, hfresh]
    by_cases hp : p = x
    · rw [if_pos ⟨rfl, hp.symm, hlt⟩, if_pos (congrArg some hp)]
    · rw [if_neg fun h => hp h.2.1.symm, if_neg fun h => hp (Option.some.inj h)]

/-- **A closure in an empty surrounding** runs on its own. -/
theorem isolated_of_empty {host : HostLibrary} (hhost : host.Evolving) (hu : u.store.Grounded)
    (hframe : c.frame = some g)
    (hg : g < u.store.frames.size)
    (hempty : ∀ k ∈ u.store.chain g, (u.store.frame k).bindings = []) {v : Value}
    (hv : v.Within u.store.frames.size) : c.Isolated host g v u := by
  have hinner : u.store.frames.size < (c.entered g v u).store.frames.size := by
    rw [size_entered]
    exact Nat.lt_succ_self _
  have haround : ∀ k ∈ u.store.chain g,
      k < u.store.frames.size ∧ ((c.entered g v u).store.frame k).bindings = [] := by
    intro k hk
    have hlt : k < u.store.frames.size := Nat.lt_of_le_of_lt (hu.of_mem_chain hg hk).1 hg
    rw [frame_entered v hlt]
    exact ⟨hlt, hempty k hk⟩
  refine ⟨fun call cx => invoke_eq_entered hframe call cx v, fun x => ?_, grounded_entered hu hg hv,
    fun s t depth cx code r hs hsettles hcx hlt hrun => ?_, fun t ht hsettles f x w hf hget => ?_⟩
  · -- the new frame binds the parameter, and those around it bind nothing
    have hnone : (u.store.chain g).findSome? (fun k => (c.entered g v u).store.local? k x) = none := by
      rw [List.findSome?_eq_none_iff]
      intro k hk
      rw [Store.local?, (haround k hk).2]
      rfl
    rw [Store.get?, Store.chain, enclosing_entered, List.findSome?_cons, local?_entered, hnone]
    split
    · next h => exact h.symm
    · next h => exact h.symm
  · -- a frame that is not the new one was made later
    have hopen : cx.frame = u.store.frames.size ∨ (c.entered g v u).store.frames.size ≤ cx.frame := by
      rw [size_entered]
      exact (Nat.eq_or_lt_of_le hcx).imp_left Eq.symm
    obtain ⟨ht, hsettles', -⟩ := run_settles hhost hs hlt hrun
    exact ⟨ht, hsettles.trans hsettles' hopen⟩
  · refine ht.resolves hsettles hinner ?_ hf hget
    rw [enclosing_entered]
    exact haround

end Closure

end GraphQuery
