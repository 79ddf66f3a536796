import GraphQuery.Proofs.Eval.Compatible

/-!
# Runs with a record

Computations that keep a state and may fail are functions of the state (`Run.bind_apply`). Which calls
such a run makes cannot be told from its result, so a **record** is kept beside the state: a call that is
**noted** enters something before it starts, and what comes of it does not change what was entered. Apart
from the record, a run goes as it would go without one (`Run.Forgets`), since sequencing keeps this
relation.

## Main statements

* `Run.forgets_noted`, `Run.sequential_forgets`: records make no difference to what is computed.
-/

namespace GraphQuery

/-- Computations that keep a state, may fail, and may not come to an end. -/
abbrev Run (ε σ : Type) := ExceptT ε (StateT σ Option)

namespace Run

variable {ε σ ι α β : Type}

/-- A run beside a record, in which it enters nothing. -/
def silent (x : Run ε σ α) : Run ε (σ × List ι) α :=
  fun p => (x p.1).map fun q => (q.1, q.2, p.2)

/-- Enters something in the record. -/
def enter (i : ι) : Run ε (σ × List ι) Unit := fun p => some (.ok (), p.1, p.2 ++ [i])

/-- A run whose start is entered in the record, whatever comes of it. -/
def noted (i : ι) (x : Run ε σ α) : Run ε (σ × List ι) α := do
  enter i
  x.silent

/-- **One run after the other.** The second starts in the state that the first leaves, unless the first
fails. -/
theorem bind_apply (x : Run ε σ α) (f : α → Run ε σ β) (s : σ) :
    (x >>= f) s =
      match x s with
      | some (.ok a, t) => f a t
      | some (.error e, t) => some (.error e, t)
      | none => none := by
  -- a result and a missing one are the only two cases that sequencing tells apart
  change (x s).bind (fun p => ExceptT.bindCont f p.1 p.2) = _
  rcases x s with _ | ⟨_ | _, t⟩ <;> rfl

/-- That a run fails can be told without looking at values. -/
theorem eq_error_of_map {x : Option (Except ε α × β)} {e : ε} {b : β}
    (h : x.map (fun q => (q.1.map fun _ => (), q.2)) = some (.error e, b)) : x = some (.error e, b) := by
  obtain ⟨⟨r, b'⟩, rfl, hr⟩ := Option.map_eq_some_iff.mp h
  obtain ⟨hres, hb⟩ := Prod.mk.inj hr
  rw [show b' = b from hb]
  cases r with
  | error e' => rw [Except.error.inj hres]
  | ok a => exact Except.noConfusion rfl rfl (heq_of_eq hres)

/-- The entry is there whether or not the run fails. -/
theorem noted_apply (i : ι) (x : Run ε σ α) (s : σ) (l : List ι) :
    noted i x (s, l) = (x s).map fun p => (p.1, p.2, l ++ [i]) := rfl

/-- A run that does not come to an end leaves no record. -/
theorem noted_of_none {i : ι} {x : Run ε σ α} {s : σ} {l : List ι} (h : x s = none) :
    noted i x (s, l) = none := by
  rw [noted_apply, h]
  rfl

/-- A run that ends has the entry in its record. -/
theorem noted_of_some {i : ι} {x : Run ε σ α} {s t : σ} {r : Except ε α} {l : List ι}
    (h : x s = some (r, t)) : noted i x (s, l) = some (r, t, l ++ [i]) := by
  rw [noted_apply, h]
  rfl

/-- A silent run leaves the record as it was. -/
theorem silent_of_some {x : Run ε σ α} {s t : σ} {r : Except ε α} {l : List ι}
    (h : x s = some (r, t)) : (x.silent : Run ε (σ × List ι) α) (s, l) = some (r, t, l) := by
  rw [silent, h]
  rfl

/-- Without its record, the first run is the second one. -/
def Forgets (x : Run ε (σ × List ι) α) (y : Run ε σ α) : Prop :=
  ∀ s l, (x (s, l)).map (fun p => (p.1, p.2.1)) = y s

/-- By definition: the state of a silent run is that of the run itself. -/
theorem forgets_silent (x : Run ε σ α) : Forgets (x.silent : Run ε (σ × List ι) α) x := by
  intro s l
  rw [silent, Option.map_map]
  exact Option.map_id'

/-- What is noted is done all the same. -/
theorem forgets_noted (i : ι) (x : Run ε σ α) : Forgets (noted i x) x := by
  intro s l
  rw [noted_apply, Option.map_map]
  exact Option.map_id'

/-- Records make no difference to what is computed. -/
theorem sequential_forgets :
    Sequential fun α (x : Run ε (σ × List ι) α) (y : Run ε σ α) => Forgets x y where
  pure _ _ _ := rfl
  bind := by
    intro α β x y f g hx hf s l
    -- what the second run starts with is told by the first one, record or not
    have hx := hx s l
    rw [bind_apply, bind_apply, ← hx]
    rcases x (s, l) with _ | ⟨_ | a, t, k⟩
    · rfl
    · rfl
    · exact hf a t k

end Run

end GraphQuery
