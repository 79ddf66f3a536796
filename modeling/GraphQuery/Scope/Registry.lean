import GraphQuery.Value.Basic

/-!
# Registries of frames

A root knows the frames that have been made under it. Each new frame is entered into the **registry**
of its root, so that the frames can be found when the root has to be emptied. An entry does not keep
its frame: a frame that nothing refers to any more is **gone**, and its entry is dead. A registry that
has grown up to its bound is **pruned** before the next entry, that is, it drops its dead entries, and
its next bound is twice the number of entries that are left.

When a frame goes depends on everything that may refer to it, which is more than the variables: code
that runs in it, values on their way from one place to another, what the host holds. So it is a
parameter. `Lifetimes` tell at each moment which frames are gone, and all that is known about them is
that what is gone does not come back.

## Main statements

* `Registry.mem_register`: what is in a registry after an entry. Only dead entries are lost.
* `Registry.size_register_le`: a registry does not grow over its bound.
-/

namespace GraphQuery

/-- When frames go. The moments are those at which somebody asks, in order. -/
structure Lifetimes where
  /-- Whether a frame is gone at a moment. -/
  gone : Nat → FrameId → Bool
  /-- What is gone does not come back. -/
  stays : ∀ {i j : Nat} {f : FrameId}, i ≤ j → gone i f = true → gone j f = true

/-- No frame ever goes. -/
def Lifetimes.endless : Lifetimes := ⟨fun _ _ => false, fun _ h => h⟩

/-- The least bound of a registry. -/
def Registry.leastBound : Nat := 64

/-- The frames made under one root, as far as they are not known to be gone. -/
structure Registry where
  /-- The frames, in the order in which they were made. -/
  entries : Array FrameId := #[]
  /-- The number of entries at which the dead ones are dropped before the next one. -/
  bound : Nat := Registry.leastBound

namespace Registry

/-- Without its dead entries, with a new bound. -/
def prune (gone : FrameId → Bool) (r : Registry) : Registry :=
  let live := r.entries.filter fun f => !gone f
  { entries := live, bound := max (live.size * 2) leastBound }

/-- With one more entry; a registry that has reached its bound is pruned before. -/
def register (gone : FrameId → Bool) (f : FrameId) (r : Registry) : Registry :=
  let r := if r.bound ≤ r.entries.size then r.prune gone else r
  { r with entries := r.entries.push f }

/-- Without any entries. The bound stays. -/
def drained (r : Registry) : Registry := { r with entries := #[] }

/-! ### What entries there are -/

theorem mem_prune {gone : FrameId → Bool} {r : Registry} {g : FrameId} :
    g ∈ (r.prune gone).entries ↔ g ∈ r.entries ∧ gone g = false := by
  change g ∈ r.entries.filter (fun f => !gone f) ↔ _
  rw [Array.mem_filter, Bool.not_eq_true']

/-- **After an entry** there are the new frame and the earlier ones, less those that are gone if the
registry had reached its bound. -/
theorem mem_register {gone : FrameId → Bool} {f g : FrameId} {r : Registry} :
    g ∈ (r.register gone f).entries ↔
      g = f ∨ (g ∈ r.entries ∧ (r.bound ≤ r.entries.size → gone g = false)) := by
  change g ∈ (if r.bound ≤ r.entries.size then r.prune gone else r).entries.push f ↔ _
  rw [Array.mem_push, or_comm]
  refine or_congr_right ?_
  by_cases hfull : r.bound ≤ r.entries.size
  · rw [if_pos hfull, mem_prune]
    exact and_congr_right fun _ => ⟨fun h _ => h, fun h => h hfull⟩
  · rw [if_neg hfull]
    exact ⟨fun h => ⟨h, fun hle => absurd hle hfull⟩, fun h => h.1⟩

/-- **A registry does not grow over its bound,** which is twice what was live when it was set, unless
this is less than `leastBound`. -/
theorem size_register_le (gone : FrameId → Bool) (f : FrameId) (r : Registry) :
    (r.register gone f).entries.size ≤ (r.register gone f).bound := by
  by_cases hfull : r.bound ≤ r.entries.size
  · -- there is room in a registry that has just been pruned
    have hpruned : r.register gone f =
        { r.prune gone with entries := (r.prune gone).entries.push f } := by
      unfold register
      rw [if_pos hfull]
    have hbound : (r.prune gone).entries.size < (r.prune gone).bound := by
      change _ < max ((r.prune gone).entries.size * 2) 64
      omega
    rw [hpruned, Array.size_push]
    exact hbound
  · have hkept : r.register gone f = { r with entries := r.entries.push f } := by
      unfold register
      rw [if_neg hfull]
    rw [hkept, Array.size_push]
    exact Nat.lt_of_not_le hfull

end Registry

end GraphQuery
