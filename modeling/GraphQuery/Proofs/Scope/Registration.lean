import GraphQuery.Scope.Store

/-!
# Registries lose no frame

The frames of a root are emptied by way of its registry, which is pruned from time to time. So it has to
be shown that the registry has all frames that are still there, and no frame of another root.

This is an invariant (`Store.Registered`). The step that could break it is the entry of a new frame, which
may prune the registry before: what it drops is gone, and what is gone does not come back
(`Store.Registered.enter`). It could also be broken by an owner of a root that has been without, since the
registry of such a root has been emptied; no handle makes one.

Therefore emptying a root empties all of its frames that are still there, as if their numbers had been
compared (`Store.frame_clear`), and touches no other frame (`Store.frame_clear_of_root_ne`).

## Main statements

* `Store.Registered.enter`: making a frame.
* `Store.frame_clear`: emptying a root, without the registry.
* `Store.release_cases`, `Store.Registered.release`: releasing an owner.
-/

namespace GraphQuery

namespace Store

variable {s t : Store} {f g : FrameId} {R : Nat}

/-! ### The invariant -/

/-- The number of owners of a root. -/
def ownersOf (s : Store) (R : Nat) : Nat := s.owners.getD R 0

/-- A root that has not been made has no owners. -/
theorem ownersOf_of_size_le (s : Store) {R : Nat} (h : s.owners.size ≤ R) : s.ownersOf R = 0 := by
  rw [ownersOf, Array.getD_eq_getD_getElem?, Array.getElem?_eq_none h, Option.getD_none]

/-- A new root starts with one owner, the handle that is returned. -/
theorem ownersOf_newRoot (s : Store) (R : Nat) :
    s.newRoot.2.ownersOf R = if R = s.owners.size then 1 else s.ownersOf R := by
  change (s.owners.push 1).getD R 0 = if R = s.owners.size then 1 else s.owners.getD R 0
  rw [Array.getD_eq_getD_getElem?, Array.getD_eq_getD_getElem?, Array.getElem?_push]
  split
  · rfl
  · rfl

/-- One more owner of the root of the frame. -/
theorem ownersOf_retain (s : Store) {f : FrameId} (hf : (s.frame f).root < s.owners.size) (R : Nat) :
    (s.retain f).ownersOf R = s.ownersOf R + if (s.frame f).root = R then 1 else 0 := by
  unfold ownersOf retain
  rw [Array.getD_eq_getD_getElem?, Array.getD_eq_getD_getElem?, Array.getElem?_modify]
  split
  · next h =>
    rw [Array.getElem?_eq_getElem (h ▸ hf)]
    rfl
  · rfl

/-- The registry of a root has all of its frames that are still there. -/
def Tracks (s : Store) (R : Nat) : Prop :=
  ∀ f < s.frames.size, (s.frame f).root = R → s.gone f = false → f ∈ (s.registryOf R).entries

/-- The registries have the frames that they should. -/
structure Registered (s : Store) : Prop where
  /-- Each root has a registry. -/
  size_eq : s.registries.size = s.owners.size
  /-- There are frames of the root in it, and no others. -/
  entry : ∀ R, ∀ f ∈ (s.registryOf R).entries, f < s.frames.size ∧ (s.frame f).root = R
  /-- As long as the root has owners, none of them that is still there has been lost. -/
  tracks : ∀ R, s.ownersOf R ≠ 0 → s.Tracks R

/-- There is nothing to register at first. -/
theorem registered_nil (lifetimes : Lifetimes) : Registered { lifetimes } where
  size_eq := rfl
  entry _ _ hf := absurd hf (Array.not_mem_empty _)
  tracks _ _ _ hf := absurd hf (Nat.not_lt_zero _)

/-- A root that has not been made has no registry, which reads as an empty one. -/
theorem registryOf_of_size_le (h : s.registries.size ≤ R) : s.registryOf R = {} := by
  rw [registryOf, Array.getD_eq_getD_getElem?, Array.getElem?_eq_none h, Option.getD_none]

/-- The registry of a root after that of one root has changed. -/
theorem getD_modify_registry (registries : Array Registry) {root : Nat} (h : root < registries.size)
    (change : Registry → Registry) (R : Nat) :
    (registries.modify root change).getD R {} =
      if R = root then change (registries.getD R {}) else registries.getD R {} := by
  rw [Array.getD_eq_getD_getElem?, Array.getD_eq_getD_getElem?, Array.getElem?_modify]
  by_cases hR : R = root
  · rw [if_pos hR, if_pos hR.symm, Array.getElem?_eq_getElem (hR ▸ h)]
    rfl
  · rw [if_neg hR, if_neg (Ne.symm hR)]

namespace Registered

/-- Changes that concern neither the registries nor what they have to register. -/
theorem of_registries (h : s.Registered) (hregistries : t.registries = s.registries)
    (hframes : t.frames.size = s.frames.size) (hroot : ∀ f, (t.frame f).root = (s.frame f).root)
    (hsize : t.owners.size = s.owners.size) (howners : ∀ R, t.ownersOf R ≠ 0 → s.ownersOf R ≠ 0)
    (hlifetimes : t.lifetimes = s.lifetimes) (hmoment : s.moment ≤ t.moment) : t.Registered where
  size_eq := by rw [hregistries, hsize, h.size_eq]
  entry R f hf := by
    rw [registryOf, hregistries] at hf
    rw [hframes, hroot]
    exact h.entry R f hf
  tracks R hR f hf hfR hgone := by
    rw [registryOf, hregistries]
    exact h.tracks R (howners R hR) f (hframes ▸ hf) (hroot f ▸ hfR) (gone_of_le hlifetimes hmoment hgone)

/-- A declaration makes no frame and drops none. -/
theorem declare (h : s.Registered) (f : FrameId) (x : String) (v : Value) :
    (s.declare f x v).Registered :=
  h.of_registries rfl (s.size_declare f x v) (fun g => s.root_declare f g x v) rfl (fun _ hR => hR) rfl
    (Nat.le_refl _)

/-- Of a root that has owners, there may be more of them. -/
theorem retain (h : s.Registered) (hf : s.ownersOf (s.frame f).root ≠ 0) : (s.retain f).Registered := by
  refine h.of_registries rfl rfl (fun _ => rfl) Array.size_modify (fun R hR => ?_) rfl (Nat.le_refl _)
  -- only the count at one root changes, and that root has had owners before
  by_cases hroot : (s.frame f).root = R
  · exact hroot ▸ hf
  · change (s.owners.modify (s.frame f).root (· + 1)).getD R 0 ≠ 0 at hR
    rw [Array.getD_eq_getD_getElem?, Array.getElem?_modify, if_neg hroot] at hR
    rw [ownersOf, Array.getD_eq_getD_getElem?]
    exact hR

/-- **A new frame is entered** into the registry of its root, which may be pruned before. No frame that is
still there is lost. -/
theorem enter (h : s.Registered) {new : Frame} (hframes : t.frames = s.frames.push new)
    (hregistry : ∀ R, t.registryOf R =
      if R = new.root then (s.registryOf R).register s.gone s.frames.size else s.registryOf R)
    (hsize : t.registries.size = t.owners.size)
    (howners : ∀ f < s.frames.size, t.ownersOf (s.frame f).root ≠ 0 → s.ownersOf (s.frame f).root ≠ 0)
    (hlifetimes : t.lifetimes = s.lifetimes) (hmoment : s.moment ≤ t.moment) : t.Registered := by
  have hgrow : t.frames.size = s.frames.size + 1 := by rw [hframes, Array.size_push]
  have hold : ∀ f < s.frames.size, t.frame f = s.frame f := fun f hf =>
    (frame_push hframes f).trans (if_neg (Nat.ne_of_lt hf))
  have hnew : t.frame s.frames.size = new := (frame_push hframes _).trans (if_pos rfl)
  refine ⟨hsize, fun R f hf => ?_, fun R hR f hf hroot hgone => ?_⟩
  · -- an entry is an earlier one, or that of the new frame
    have hentry : (f = s.frames.size ∧ R = new.root) ∨ f ∈ (s.registryOf R).entries := by
      rw [hregistry] at hf
      split at hf
      case isTrue hnew => exact (Registry.mem_register.mp hf).imp (fun hf => ⟨hf, hnew⟩) And.left
      case isFalse => exact Or.inr hf
    rcases hentry with ⟨rfl, rfl⟩ | hf
    · exact ⟨hgrow ▸ Nat.lt_succ_self _, congrArg Frame.root hnew⟩
    · obtain ⟨hlt, hroot⟩ := h.entry R f hf
      exact ⟨hgrow ▸ Nat.lt_succ_of_lt hlt, (congrArg Frame.root (hold f hlt)).trans hroot⟩
  · rw [hregistry]
    rcases Nat.lt_succ_iff_lt_or_eq.mp (hgrow ▸ hf) with hlt | rfl
    · -- a frame that is there now was there when the registry was pruned
      rw [hold f hlt] at hroot
      have hthere : s.gone f = false := gone_of_le hlifetimes hmoment hgone
      have hmem : f ∈ (s.registryOf R).entries :=
        h.tracks R (hroot ▸ howners f hlt (hroot ▸ hR)) f hlt hroot hthere
      split
      case isTrue => exact Registry.mem_register.mpr (Or.inr ⟨hmem, fun _ => hthere⟩)
      case isFalse => exact hmem
    · rw [hnew] at hroot
      rw [if_pos hroot.symm]
      exact Registry.mem_register.mpr (Or.inl rfl)

/-- A nested frame is entered into the registry of the root that the frame around it has. -/
theorem nest (h : s.Registered) (hroot : (s.frame f).root < s.owners.size) :
    (s.nest f).2.Registered := by
  refine h.enter (s.frames_nest f) (fun R => ?_) ?_ (fun _ _ hR => hR) rfl (Nat.le_succ _)
  · exact getD_modify_registry s.registries (h.size_eq ▸ hroot) _ R
  · exact Array.size_modify.trans h.size_eq

/-- The first frame of a root is entered into a registry that is new as well. -/
theorem newRoot (h : s.Registered) (hroot : ∀ f < s.frames.size, (s.frame f).root < s.owners.size) :
    s.newRoot.2.Registered := by
  have hlt : s.owners.size < (s.registries.push {}).size := by
    rw [Array.size_push, h.size_eq]
    exact Nat.lt_succ_self _
  -- the new root has had no registry before, which is as good as an empty one
  have hpush : ∀ R, (s.registries.push {}).getD R {} = s.registryOf R := by
    intro R
    rw [Array.getD_eq_getD_getElem?, Array.getElem?_push]
    split
    case isTrue hR => rw [registryOf_of_size_le (Nat.le_of_eq hR.symm), Option.getD_some]
    case isFalse => exact (Array.getD_eq_getD_getElem? ..).symm
  refine h.enter s.frames_newRoot (fun R => ?_) ?_ (fun f hf hR => ?_) rfl (Nat.le_succ _)
  · have hget := getD_modify_registry (s.registries.push {}) hlt (·.register s.gone s.frames.size) R
    rw [hpush R] at hget
    exact hget
  · change ((s.registries.push {}).modify _ _).size = (s.owners.push 1).size
    rw [Array.size_modify, Array.size_push, Array.size_push, h.size_eq]
  · change (s.owners.push 1).getD _ 0 ≠ 0 at hR
    rw [Array.getD_eq_getD_getElem?, Array.getElem?_push, if_neg (Nat.ne_of_lt (hroot f hf))] at hR
    rw [ownersOf, Array.getD_eq_getD_getElem?]
    exact hR

end Registered

/-! ### Emptying a root -/

/-- Frames of other roots are not emptied. -/
theorem frame_clear_of_root_ne (h : ∀ f ∈ (s.registryOf R).entries, (s.frame f).root = R)
    (hg : (s.frame g).root ≠ R) : (s.clear R).frame g = s.frame g := by
  rcases (s.empties_clear R).frame g with heq | ⟨hmem, -⟩
  · exact heq
  · exact absurd (h g (Array.mem_toList_iff.mp hmem)) hg

/-- **What emptying a root does** to the frames that are still there afterwards: it does not matter that
it has gone by the registry. -/
theorem frame_clear (h : ∀ f ∈ (s.registryOf R).entries, (s.frame f).root = R) (htracks : s.Tracks R)
    (hthere : (s.clear R).gone g = false) :
    (s.clear R).frame g =
      if (s.frame g).root = R then { s.frame g with bindings := [] } else s.frame g := by
  have hempties := s.empties_clear R
  by_cases hroot : (s.frame g).root = R
  · rw [if_pos hroot]
    rcases Nat.lt_or_ge g s.frames.size with hlt | hge
    · have hmem : g ∈ (s.registryOf R).entries :=
        htracks g hlt hroot (gone_of_le hempties.lifetimes_eq hempties.moment_le hthere)
      have hempty := hempties.live g (Array.mem_toList_iff.mpr hmem) hthere
      rcases hempties.frame g with heq | ⟨-, heq⟩
      · rw [heq] at hempty ⊢
        exact congrArg (fun bindings => { s.frame g with bindings }) hempty
      · exact heq
    · -- a frame that is not there is empty anyway
      have hsize : (s.clear R).frames.size ≤ g := Nat.le_trans (Nat.le_of_eq hempties.size_eq) hge
      rw [frame_of_size_le s hge, frame_of_size_le _ hsize]
      rfl
  · rw [if_neg hroot]
    exact frame_clear_of_root_ne h hroot

/-! ### Releasing an owner -/

/-- The store with one owner less of the root of a frame. -/
def disowned (s : Store) (f : FrameId) : Store :=
  { s with owners := s.owners.modify (s.frame f).root fun _ => s.ownersOf (s.frame f).root - 1 }

/-- **A release** leaves an owner, or it empties the root. -/
theorem release_cases (s : Store) (f : FrameId) :
    (s.ownersOf (s.frame f).root - 1 ≠ 0 ∧ s.release f = s.disowned f) ∨
      (s.ownersOf (s.frame f).root - 1 = 0 ∧ s.release f = (s.disowned f).clear (s.frame f).root) := by
  by_cases hleft : s.ownersOf (s.frame f).root - 1 = 0
  · refine Or.inr ⟨hleft, ?_⟩
    change (if s.ownersOf (s.frame f).root - 1 = 0 then _ else _) = _
    rw [if_pos hleft]
    rfl
  · refine Or.inl ⟨hleft, ?_⟩
    change (if s.ownersOf (s.frame f).root - 1 = 0 then _ else _) = _
    rw [if_neg hleft]
    rfl

/-- What a release changes beside owners and registries: some frames of the registry are emptied. -/
theorem frame_release_cases (s : Store) (f g : FrameId) :
    (s.release f).frame g = s.frame g ∨
      (s.release f).frame g = { s.frame g with bindings := [] } := by
  rcases s.release_cases f with ⟨-, heq⟩ | ⟨-, heq⟩
  · rw [heq]
    exact Or.inl rfl
  · rw [heq]
    exact (((s.disowned f).empties_clear _).frame g).imp_right And.right

/-- Frames stay with their roots, also when they are emptied. -/
theorem root_release (s : Store) (f g : FrameId) : ((s.release f).frame g).root = (s.frame g).root := by
  rcases s.frame_release_cases f g with h | h
  · rw [h]
  · rw [h]

/-- Frames stay where they are in the tree, also when they are emptied. -/
theorem enclosing_release (s : Store) (f g : FrameId) :
    ((s.release f).frame g).enclosing = (s.frame g).enclosing := by
  rcases s.frame_release_cases f g with h | h
  · rw [h]
  · rw [h]

/-- No frame disappears from the store; frames are emptied in their places. -/
theorem size_release (s : Store) (f : FrameId) : (s.release f).frames.size = s.frames.size := by
  rcases s.release_cases f with ⟨-, heq⟩ | ⟨-, heq⟩
  · rw [heq]
    rfl
  · rw [heq]
    exact ((s.disowned f).empties_clear _).size_eq

/-- Emptying frames does not change who owns roots. -/
theorem owners_release (s : Store) (f : FrameId) : (s.release f).owners = (s.disowned f).owners := by
  rcases s.release_cases f with ⟨-, heq⟩ | ⟨-, heq⟩
  · rw [heq]
  · rw [heq]
    exact ((s.disowned f).empties_clear _).owners_eq

/-- The lifetimes are those of the whole run. -/
theorem lifetimes_release (s : Store) (f : FrameId) : (s.release f).lifetimes = s.lifetimes := by
  rcases s.release_cases f with ⟨-, heq⟩ | ⟨-, heq⟩
  · rw [heq]
    rfl
  · rw [heq]
    exact ((s.disowned f).empties_clear _).lifetimes_eq

theorem size_owners_release (s : Store) (f : FrameId) :
    (s.release f).owners.size = s.owners.size := by
  rw [owners_release]
  exact Array.size_modify

/-- The root of the frame has one owner less, and no other root has. -/
theorem ownersOf_release (s : Store) (f : FrameId) (R : Nat) :
    (s.release f).ownersOf R = s.ownersOf R - if (s.frame f).root = R then 1 else 0 := by
  rw [ownersOf, owners_release, disowned, Array.getD_eq_getD_getElem?, Array.getElem?_modify]
  -- whether or not the root has been made: none less than none is none
  split
  · next h =>
    subst h
    rcases hR : s.owners[(s.frame f).root]? with _ | k
    · rw [ownersOf, Array.getD_eq_getD_getElem?, hR]
      rfl
    · rfl
  · rw [ownersOf, Array.getD_eq_getD_getElem?, Nat.sub_zero]

namespace Registered

/-- **A release keeps the registries right.** That of the root may be empty now, but then the root has no
owners. -/
theorem release (h : s.Registered) (hroot : (s.frame f).root < s.owners.size) :
    (s.release f).Registered := by
  -- no root gets owners by a release
  have howners : ∀ R, (s.release f).ownersOf R ≠ 0 → s.ownersOf R ≠ 0 := by
    intro R hR hnone
    rw [ownersOf_release, hnone, Nat.zero_sub] at hR
    exact hR rfl
  rcases s.release_cases f with ⟨-, heq⟩ | ⟨hleft, heq⟩
  -- an owner is left, so nothing is emptied
  · exact h.of_registries (heq ▸ rfl) (s.size_release f) (s.root_release f) (s.size_owners_release f)
      howners (heq ▸ rfl) (heq ▸ Nat.le_refl _)
  · have hempties := (s.disowned f).empties_clear (s.frame f).root
    have hregistry : ∀ R, (s.release f).registryOf R =
        if R = (s.frame f).root then (s.registryOf R).drained else s.registryOf R := by
      intro R
      rw [heq, registryOf, hempties.registries_eq]
      exact getD_modify_registry s.registries (h.size_eq ▸ hroot) Registry.drained R
    refine ⟨?_, fun R g hg => ?_, fun R hR g hg hgR hgone => ?_⟩
    · rw [s.size_owners_release f, heq, hempties.registries_eq]
      exact Array.size_modify.trans h.size_eq
    · rw [hregistry] at hg
      rw [s.size_release f, s.root_release f]
      split at hg
      case isTrue => exact absurd hg (Array.not_mem_empty _)
      case isFalse => exact h.entry R g hg
    · -- a root with owners is not the one that has been emptied
      have hne : R ≠ (s.frame f).root := by
        rintro rfl
        rw [ownersOf_release, if_pos rfl] at hR
        exact hR hleft
      rw [hregistry, if_neg hne]
      refine h.tracks R (howners R hR) g (s.size_release f ▸ hg) (s.root_release f g ▸ hgR) ?_
      rw [heq] at hgone
      exact gone_of_le (t := (s.disowned f).clear (s.frame f).root) hempties.lifetimes_eq
        hempties.moment_le hgone

/-- While a root has owners, a release changes none of its frames. -/
theorem frame_release_of_owned (h : s.Registered)
    (hg : (s.release f).ownersOf (s.frame g).root ≠ 0) : (s.release f).frame g = s.frame g := by
  rcases s.release_cases f with ⟨-, heq⟩ | ⟨hleft, heq⟩
  · rw [heq]
    rfl
  · have hne : (s.frame g).root ≠ (s.frame f).root := by
      intro hsame
      rw [hsame, ownersOf_release, if_pos rfl] at hg
      exact hg hleft
    rw [heq]
    exact frame_clear_of_root_ne (s := s.disowned f) (fun k hk => (h.entry _ k hk).2) hne

/-- A release changes no frame of another root. -/
theorem frame_release_of_root_ne (h : s.Registered) (hg : (s.frame g).root ≠ (s.frame f).root) :
    (s.release f).frame g = s.frame g := by
  rcases s.release_cases f with ⟨-, heq⟩ | ⟨-, heq⟩
  · rw [heq]
    rfl
  · rw [heq]
    exact frame_clear_of_root_ne (s := s.disowned f) (fun k hk => (h.entry _ k hk).2) hg

/-- **The release of the last owner** empties all frames of the root that are still there. -/
theorem bindings_release (h : s.Registered) (howned : s.ownersOf (s.frame f).root ≠ 0)
    (hlast : (s.release f).ownersOf (s.frame f).root = 0) (hg : (s.frame g).root = (s.frame f).root)
    (hthere : (s.release f).gone g = false) : ((s.release f).frame g).bindings = [] := by
  rw [ownersOf_release, if_pos rfl] at hlast
  rcases s.release_cases f with ⟨hleft, -⟩ | ⟨-, heq⟩
  · exact absurd hlast hleft
  · rw [heq] at hthere ⊢
    rw [frame_clear (s := s.disowned f) (fun k hk => (h.entry _ k hk).2) (h.tracks _ howned) hthere]
    exact congrArg Frame.bindings (if_pos hg)

end Registered

end Store

end GraphQuery
