import GraphQuery.Proofs.Session.Requests

/-!
# Roots and their owners

The handles of a host jointly own the roots of their frames. A handle that is made from another one has
the root of that one, so the handles of a root are those that come from the handle the root was made
with; `Session.origins` reads this off the commands of a host and the replies to them.

As long as a root has a handle, nothing that is bound in one of its frames is lost. When the last handle
is dropped, the frames of the root that are still there are found in its registry and emptied, all of
them. Closures may have captured them, and can still be called, but the root is **abandoned**
(`Store.Abandons`): no handle to it can be made any more, nothing runs in its frames, and so these stay
empty. A closure that has captured one of them runs on its own.

None of this depends on what the functions of the host are, as long as they work on the frames as an
evaluation does (`HostLibrary.Evolving`), or on when frames go (`Lifetimes`).

The argument is by moves (`Session.Move`). Each keeps a session sound, keeps the origins of handles right,
and leaves an abandoned root abandoned; `Session.steps_induction` carries such facts over to all steps
of a session.

## Main statements

* `Session.Move.sound`, `Session.Move.traced`, `Session.Move.abandons`: one move.
* `Store.Abandons.run`, `Store.Abandons.isolated`: evaluations and closures after a root is abandoned.
* `root_ownership`: the life of a root, over all sessions.
-/

namespace GraphQuery

/-! ### Origins of handles -/

/-- For each handle the number of the one that was made with its root, after one more command. -/
def Command.origins (command : Command) (reply : Except Failure Reply) (origins : List Nat) :
    List Nat :=
  match command, reply with
  | .new, .ok (.handle i) => origins ++ [i]
  | .nested scope, .ok (.handle _) => origins ++ [origins.getD scope 0]
  | .clone scope, .ok (.handle _) => origins ++ [origins.getD scope 0]
  | _, _ => origins

/-- Only a new handle has an origin. -/
theorem Command.origins_of_quiet {command : Command} {reply : Except Failure Reply}
    (h : ∀ a, reply = .ok a → a.isHandle = false) (origins : List Nat) :
    command.origins reply origins = origins := by
  unfold Command.origins
  split
  · exact absurd (h _ rfl).symm Bool.false_ne_true
  · exact absurd (h _ rfl).symm Bool.false_ne_true
  · exact absurd (h _ rfl).symm Bool.false_ne_true
  · rfl

namespace Session

/-- For each handle the number of the one that was made with its root, after all commands. -/
def origins (commands : List Command) (replies : List (Except Failure Reply)) : List Nat :=
  (commands.zip replies).foldl (fun origins step => step.1.origins step.2 origins) []

/-- A handle that has not been dropped has a frame of the root. -/
def Holds (S : Session) (R : Nat) : Prop :=
  ∃ (i : Nat) (f : FrameId), S.handles[i]? = some (some f) ∧ (S.state.store.frame f).root = R

/-- A root has a handle if it has an owner. -/
theorem Sound.holds_iff {S : Session} (hS : S.Sound) {R : Nat} :
    S.Holds R ↔ S.state.store.ownersOf R ≠ 0 := by
  constructor
  · rintro ⟨i, f, hf, rfl⟩
    exact hS.ownersOf_ne_zero (Array.mem_of_getElem? hf)
  · intro h
    rw [hS.owners] at h
    obtain ⟨handle, hmem, howns⟩ := Array.countP_pos_iff.mp (Nat.pos_of_ne_zero h)
    obtain ⟨i, hi⟩ := Array.mem_iff_getElem?.mp hmem
    cases handle with
    | none => exact absurd howns Bool.false_ne_true
    | some f => exact ⟨i, f, hi, Store.owns_some.mp howns⟩

/-! ### Moves keep sessions sound -/

/-- A handle that is there after another one was dropped has been there before. -/
theorem getElem?_of_dropped {handles : Array (Option FrameId)} {scope i : Nat} {f : FrameId}
    (h : (handles.modify scope fun _ => none)[i]? = some (some f)) : handles[i]? = some (some f) := by
  rw [Array.getElem?_modify] at h
  split at h
  · obtain ⟨_, -, hnone⟩ := Option.map_eq_some_iff.mp h
    exact absurd hnone.symm (Option.some_ne_none f)
  · exact h

/-- A handle that is dropped is counted no more, and the others are. -/
theorem countP_dropped {handles : Array (Option FrameId)} {scope : Nat} {f : FrameId}
    (h : handles[scope]? = some (some f)) {p : Option FrameId → Bool} (hp : p none = false) :
    (handles.modify scope fun _ => none).countP p =
      handles.countP p - if p (some f) = true then 1 else 0 := by
  obtain ⟨hlt, hget⟩ := Array.getElem?_eq_some_iff.mp h
  -- to put nothing in its place is what a modification there does
  have hset : (handles.modify scope fun _ => none) = handles.set scope none hlt := by
    refine Array.ext_getElem? fun i => ?_
    rw [Array.getElem?_modify, Array.getElem?_set]
    split
    · next heq =>
      rw [← heq, h]
      rfl
    · rfl
  rw [hset, Array.countP_set, hget, hp, if_neg Bool.false_ne_true, Nat.add_zero]

/-- A move does not change when frames go. -/
theorem Move.lifetimes_eq {S T : Session} {command : Command} {reply : Except Failure Reply}
    (h : S.Move command reply T) : T.state.store.lifetimes = S.state.store.lifetimes := by
  cases h with
  | add gains _ => exact gains.lifetimes_eq
  | @drop scope f _ => exact S.state.store.lifetimes_release f
  | other continues _ => exact continues.store.lifetimes_eq

/-- **Every move keeps a session sound.** What there is to show is that owners are still counted right. -/
theorem Move.sound {S T : Session} {command : Command} {reply : Except Failure Reply} (hS : S.Sound)
    (h : S.Move command reply T) : T.Sound := by
  cases h with
  | @add _ store f gains _ =>
    refine ⟨hS.host, gains.grounded, fun g hg => ?_, fun R => ?_, fun x v hv => ?_⟩
    · rcases Array.mem_push.mp hg with hg | hg
      · exact Nat.lt_of_lt_of_le (hS.handle_lt g hg) gains.size_le
      · exact Option.some.inj hg ▸ gains.frame_lt
    · -- the earlier handles are owners of the same roots
      have hold : S.handles.countP (store.owns R) = S.handles.countP (S.state.store.owns R) := by
        refine Array.countP_congr fun handle hmem => ?_
        rw [Store.owns_congr fun g hg => congrArg Frame.root
          (gains.frame_eq g (hS.handle_lt g (hg ▸ hmem)))]
      rw [store_added, handles_added, Array.countP_push, hold, ← hS.owners, gains.ownersOf_eq]
      simp only [Store.owns_some]
    · exact (hS.slot x v hv).of_le gains.size_le
  | @drop scope f handle =>
    have hlt : f < S.state.store.frames.size := hS.handle_lt f (Array.mem_of_getElem? handle)
    -- the frames that evaluations may leave emptied are still there
    refine ⟨hS.host, hS.grounded.release hlt, fun g hg => ?_, fun R => ?_, fun x v hv => ?_⟩
    · obtain ⟨i, hi⟩ := Array.mem_iff_getElem?.mp hg
      rw [store_dropped, Store.size_release]
      exact hS.handle_lt g (Array.mem_of_getElem? (getElem?_of_dropped hi))
    · have howns : (S.state.store.release f).owns R = S.state.store.owns R :=
        funext fun _ => Store.owns_congr fun g _ => S.state.store.root_release f g
      rw [store_dropped, handles_dropped, Store.ownersOf_release, hS.owners, howns,
        countP_dropped handle rfl]
      simp only [Store.owns_some]
    · exact (hS.slot x v hv).of_le (Nat.le_of_eq (S.state.store.size_release f).symm)
  | other continues _ => exact continues.sound

/-! ### Moves keep origins right -/

/-- Handles have the same root if they come from the same one. -/
structure Traced (S : Session) (origins : List Nat) : Prop where
  /-- There is an origin for each handle. -/
  length_eq : origins.length = S.handles.size
  /-- Origins are handles. -/
  lt : ∀ o ∈ origins, o < origins.length
  /-- Roots are told apart by origins. -/
  root_eq_iff : ∀ (i : Nat) (f : FrameId) (j : Nat) (g : FrameId), S.handles[i]? = some (some f) →
    S.handles[j]? = some (some g) →
    ((S.state.store.frame f).root = (S.state.store.frame g).root ↔ origins[i]? = origins[j]?)

/-- Every handle has an origin. -/
theorem Traced.lt_length {S : Session} {origins : List Nat} (hO : S.Traced origins) {i : Nat}
    {handle : Option FrameId} (h : S.handles[i]? = some handle) : i < origins.length := by
  rw [hO.length_eq]
  exact (Array.getElem?_eq_some_iff.mp h).1

/-- A new handle, the root of which is that of the handles with its origin. -/
theorem Traced.push {S : Session} {origins : List Nat} {store : Store} {f : FrameId} {o : Nat}
    (hS : S.Sound) (hO : S.Traced origins) (gains : S.state.store.Gains store f)
    (ho : o ≤ origins.length)
    (hnew : ∀ (i : Nat) (g : FrameId), S.handles[i]? = some (some g) →
      ((S.state.store.frame g).root = (store.frame f).root ↔ origins[i]? = some o)) :
    (S.added store f).Traced (origins ++ [o]) := by
  have hlength : (origins ++ [o]).length = origins.length + 1 := List.length_append
  -- each handle is an earlier one, or the new one
  have hcases : ∀ (i : Nat) (g : FrameId), (S.handles.push (some f))[i]? = some (some g) →
      (S.handles[i]? = some (some g) ∧ store.frame g = S.state.store.frame g ∧
        (origins ++ [o])[i]? = origins[i]?) ∨ (g = f ∧ (origins ++ [o])[i]? = some o) := by
    intro i g hi
    rw [Array.getElem?_push] at hi
    split at hi
    · next heq =>
      refine Or.inr ⟨(Option.some.inj (Option.some.inj hi)).symm, ?_⟩
      rw [heq, ← hO.length_eq]
      exact List.getElem?_concat_length
    · exact Or.inl ⟨hi, gains.frame_eq g (hS.handle_lt g (Array.mem_of_getElem? hi)),
        List.getElem?_append_left (hO.lt_length hi)⟩
  refine ⟨?_, fun o' ho' => ?_, fun i g j g' hi hj => ?_⟩
  · rw [hlength, hO.length_eq]
    exact (Array.size_push _).symm
  · rw [hlength]
    rcases List.mem_append.mp ho' with ho' | ho'
    · exact Nat.lt_succ_of_lt (hO.lt o' ho')
    · exact List.mem_singleton.mp ho' ▸ Nat.lt_succ_of_le ho
  -- four cases: each of the two handles is the new one, or has been there before
  · rw [store_added]
    rcases hcases i g hi with ⟨hiold, hframe, hget⟩ | ⟨rfl, hget⟩
    · rcases hcases j g' hj with ⟨hjold, hframe', hget'⟩ | ⟨rfl, hget'⟩
      · rw [hframe, hframe', hget, hget']
        exact hO.root_eq_iff i g j g' hiold hjold
      · rw [hframe, hget, hget']
        exact hnew i g hiold
    · rcases hcases j g' hj with ⟨hjold, hframe', hget'⟩ | ⟨rfl, hget'⟩
      · rw [hframe', hget, hget', eq_comm, hnew j g' hjold, eq_comm]
      · exact iff_of_true rfl (hget.trans hget'.symm)

/-- **Every move keeps origins right.** A new root is that of no other handle, and other handles have the
root of the one that they are made from. -/
theorem Move.traced {S T : Session} {command : Command} {reply : Except Failure Reply}
    {origins : List Nat} (hS : S.Sound) (hO : S.Traced origins) (h : S.Move command reply T) :
    T.Traced (command.origins reply origins) := by
  cases h with
  | @add command store f gains origin =>
    rcases origin with ⟨rfl, hnew⟩ | ⟨scope, p, hcommand, hp, hroot⟩
    · -- neither the root nor the number of the handle has been there before
      refine hO.push hS gains (Nat.le_of_eq hO.length_eq.symm) fun i g hi => iff_of_false ?_ ?_
      · have hlt := hS.grounded.root_lt g (hS.handle_lt g (Array.mem_of_getElem? hi))
        exact hnew ▸ Nat.ne_of_lt hlt
      · intro hget
        have hlt := hO.lt _ (List.mem_of_getElem? hget)
        exact absurd hO.length_eq (Nat.ne_of_gt hlt)
    · have hlt : scope < origins.length := hO.lt_length hp
      have hget : origins[scope]? = some (origins.getD scope 0) := by
        rw [List.getD_eq_getElem?_getD, List.getElem?_eq_getElem hlt]
        rfl
      have horigins : command.origins (.ok (.handle S.handles.size)) origins =
          origins ++ [origins.getD scope 0] := by
        rcases hcommand with rfl | rfl
        · rfl
        · rfl
      rw [horigins]
      refine hO.push hS gains (Nat.le_of_lt (hO.lt _ (List.mem_of_getElem? hget))) fun i g hi => ?_
      rw [hroot, ← hget]
      exact hO.root_eq_iff i g scope p hi hp
  | @drop scope f handle =>
    -- a drop changes neither the roots of frames nor which handles come from which
    refine ⟨hO.length_eq.trans Array.size_modify.symm, hO.lt, fun i g j g' hi hj => ?_⟩
    rw [store_dropped, Store.root_release, Store.root_release]
    exact hO.root_eq_iff i g j g' (getElem?_of_dropped hi) (getElem?_of_dropped hj)
  | other continues quiet =>
    rw [Command.origins_of_quiet quiet]
    refine ⟨hO.length_eq.trans (congrArg _ continues.handles_eq.symm), hO.lt,
      fun i g j g' hi hj => ?_⟩
    rw [continues.handles_eq] at hi hj
    rw [continues.store.root_eq g (hS.handle_lt g (Array.mem_of_getElem? hi)),
      continues.store.root_eq g' (hS.handle_lt g' (Array.mem_of_getElem? hj))]
    exact hO.root_eq_iff i g j g' hi hj

end Session

/-! ### Abandoned roots -/

/-- The root `R` has no owners in the store `t`, and the frames that it had in `s` are empty, those apart
that were gone. -/
structure Store.Abandons (s : Store) (R : Nat) (t : Store) : Prop where
  /-- Frames are nested in earlier ones. -/
  grounded : t.Grounded
  /-- No frame has disappeared. -/
  size_le : s.frames.size ≤ t.frames.size
  /-- Frames are where they were. -/
  enclosing_eq : ∀ f < s.frames.size, (t.frame f).enclosing = (s.frame f).enclosing
  /-- They belong to the same roots. -/
  root_eq : ∀ f < s.frames.size, (t.frame f).root = (s.frame f).root
  /-- The number of the root is not given away again. -/
  root_lt : R < t.owners.size
  /-- The root has no owners. -/
  unowned : t.ownersOf R = 0
  /-- Its frames are empty. -/
  empty : ∀ f < s.frames.size, (s.frame f).root = R → s.gone f = false → (t.frame f).bindings = []

/-- Neither the frame nor a frame around it is gone, which is so for the frame of a closure. -/
def Store.Remains (s : Store) (f : FrameId) : Prop := ∀ k ∈ s.chain f, s.gone k = false

namespace Store.Abandons

variable {s : Store} {R : Nat}

/-- **Evaluations leave an abandoned root empty**, unless they run in one of its frames. -/
theorem run {host : HostLibrary} (hhost : host.Evolving) {u v : State} {cx : Context} {code : Code}
    {depth : Nat} {r : Except Error Value} (h : s.Abandons R u.store)
    (hlt : cx.frame < u.store.frames.size)
    (hframe : cx.frame < s.frames.size → (s.frame cx.frame).root ≠ R)
    (hrun : code.run host depth cx u = some (r, v)) : s.Abandons R v.store := by
  obtain ⟨hground, hsettles, -⟩ := run_settles hhost h.grounded hlt hrun
  have hold : ∀ f < s.frames.size, f < u.store.frames.size := fun f hf =>
    Nat.lt_of_lt_of_le hf h.size_le
  refine ⟨hground, Nat.le_trans h.size_le hsettles.size_le, fun f hf => ?_, fun f hf => ?_, ?_, ?_,
    fun f hf hroot hthere => ?_⟩
  · exact (hsettles.enclosing_eq f (hold f hf)).trans (h.enclosing_eq f hf)
  · exact (hsettles.root_eq f (hold f hf)).trans (h.root_eq f hf)
  · exact Nat.lt_of_lt_of_le h.root_lt hsettles.owners_le
  · rw [hsettles.ownersOf_eq]
    exact h.unowned
  · have hne : f ≠ cx.frame := by
      rintro rfl
      exact hframe hf hroot
    exact hsettles.empty f (hold f hf) hne (h.empty f hf hroot hthere)

/-- **A closure of an abandoned root** runs on its own. -/
theorem isolated {host : HostLibrary} (hhost : host.Evolving) {u : State} (h : s.Abandons R u.store)
    {c : Closure} {g : FrameId} (hc : c.frame = some g) (hg : g < s.frames.size)
    (hroot : (s.frame g).root = R) (hremains : s.Remains g) {v : Value}
    (hv : v.Within u.store.frames.size) : c.Isolated host g v u := by
  have hlt : g < u.store.frames.size := Nat.lt_of_lt_of_le hg h.size_le
  have hchain : u.store.chain g = s.chain g := by rw [chain, chain, h.enclosing_eq g hg]
  refine Closure.isolated_of_empty hhost h.grounded hc hlt (fun k hk => ?_) hv
  -- what is around the frame belongs to the same root, and is as old
  obtain ⟨hkg, hkroot⟩ := h.grounded.of_mem_chain hlt hk
  have hks : k < s.frames.size := Nat.lt_of_le_of_lt hkg hg
  refine h.empty k hks ?_ (hremains k (hchain ▸ hk))
  rw [← h.root_eq k hks, hkroot, h.root_eq g hg, hroot]

end Store.Abandons

namespace Session

theorem Move.abandons {S T : Session} {command : Command} {reply : Except Failure Reply} {s : Store}
    {R : Nat} (hS : S.Sound) (hR : s.Abandons R S.state.store) (h : S.Move command reply T) :
    s.Abandons R T.state.store := by
  have hsound : T.Sound := h.sound hS
  have hold : ∀ f < s.frames.size, f < S.state.store.frames.size := fun f hf =>
    Nat.lt_of_lt_of_le hf hR.size_le
  cases h with
  | @add _ store f gains origin =>
    -- the new handle has a new root, or one that has an owner
    have hne : (store.frame f).root ≠ R := by
      rintro rfl
      rcases origin with ⟨-, hnew⟩ | ⟨scope, p, -, hp, hroot⟩
      · exact absurd hR.root_lt (hnew ▸ Nat.lt_irrefl _)
      · exact hS.ownersOf_ne_zero (Array.mem_of_getElem? hp) (hroot ▸ hR.unowned)
    refine ⟨gains.grounded, Nat.le_trans hR.size_le gains.size_le, fun g hg => ?_, fun g hg => ?_,
      Nat.lt_of_lt_of_le hR.root_lt gains.owners_le, ?_, fun g hg hroot hthere => ?_⟩
    · rw [store_added, gains.frame_eq g (hold g hg), hR.enclosing_eq g hg]
    · rw [store_added, gains.frame_eq g (hold g hg), hR.root_eq g hg]
    · rw [store_added, gains.ownersOf_eq, if_neg hne, hR.unowned]
    · rw [store_added, gains.frame_eq g (hold g hg)]
      exact hR.empty g hg hroot hthere
  | @drop scope f handle =>
    refine ⟨hsound.grounded, ?_, fun g hg => ?_, fun g hg => ?_, ?_, ?_, fun g hg hroot hthere => ?_⟩
    · exact Nat.le_trans hR.size_le (Nat.le_of_eq (S.state.store.size_release f).symm)
    · exact (S.state.store.enclosing_release f g).trans (hR.enclosing_eq g hg)
    · exact (S.state.store.root_release f g).trans (hR.root_eq g hg)
    · exact (S.state.store.size_owners_release f).symm ▸ hR.root_lt
    · rw [store_dropped, Store.ownersOf_release, hR.unowned, Nat.zero_sub]
    · rw [store_dropped]
      rcases S.state.store.frame_release_cases f g with heq | heq
      · rw [heq]
        exact hR.empty g hg hroot hthere
      · rw [heq]
  | other continues _ =>
    have hstore := continues.store
    refine ⟨hsound.grounded, Nat.le_trans hR.size_le hstore.size_le, fun g hg => ?_, fun g hg => ?_,
      Nat.lt_of_lt_of_le hR.root_lt hstore.owners_le, ?_, fun g hg hroot hthere => ?_⟩
    · exact (hstore.enclosing_eq g (hold g hg)).trans (hR.enclosing_eq g hg)
    · exact (hstore.root_eq g (hold g hg)).trans (hR.root_eq g hg)
    · rw [hstore.ownersOf_eq, hR.unowned]
    · refine hstore.empty g (hold g hg) ?_ (hR.empty g hg hroot hthere)
      rw [hR.root_eq g hg, hroot, hR.unowned]

/-! ### Sessions -/

/-- **What every step preserves** holds after all steps of a session. -/
theorem steps_induction {I : Session → List Nat → Prop}
    (hstep : ∀ {command reply S T origins}, I S origins →
      (step command).run S = some (reply, T) → I T (command.origins reply origins))
    {commands : List Command} {replies : List (Except Failure Reply)} {S T : Session}
    (origins : List Nat) (hI : I S origins) (hrun : steps commands S = some (replies, T)) :
    I T ((commands.zip replies).foldl (fun origins step => step.1.origins step.2 origins)
      origins) := by
  induction commands generalizing S origins replies with
  | nil =>
    obtain ⟨rfl, rfl⟩ := Prod.mk.inj (Option.some.inj hrun)
    exact hI
  -- the first step, and then the others from the session that it leaves
  | cons command commands ih =>
    change ((step command).run S).bind (fun p => (steps commands p.2).bind fun q =>
      some (p.1 :: q.1, q.2)) = some (replies, T) at hrun
    obtain ⟨⟨reply, U⟩, hfirst, hrun⟩ := Option.bind_eq_some_iff.mp hrun
    obtain ⟨⟨rest, V⟩, hrest, hrun⟩ := Option.bind_eq_some_iff.mp hrun
    obtain ⟨rfl, rfl⟩ := Prod.mk.inj (Option.some.inj hrun)
    exact ih _ (hstep hI hfirst) hrest

/-- All sessions are sound, their handles have the origins that the commands say, and frames go when they
did at first. -/
theorem sound_of_steps {graphs : Graphs} {host : HostLibrary} (hhost : host.Evolving)
    {matcher : Matcher} {depth : Nat} {lifetimes : Lifetimes} {commands : List Command}
    {replies : List (Except Failure Reply)} {S : Session}
    (hrun : steps commands
      { graphs, host, matcher, depth, state := { store := { lifetimes } } } = some (replies, S)) :
    S.Sound ∧ S.Traced (origins commands replies) ∧ S.state.store.lifetimes = lifetimes := by
  refine steps_induction
    (I := fun S origins => S.Sound ∧ S.Traced origins ∧ S.state.store.lifetimes = lifetimes)
    (fun ⟨hS, hO, hlifetimes⟩ hstep => ?_) [] ⟨?_, ?_, rfl⟩ hrun
  · have hmove := move_of_step hS hstep
    exact ⟨hmove.sound hS, hmove.traced hS hO, hmove.lifetimes_eq.trans hlifetimes⟩
  · refine ⟨hhost, Store.grounded_nil lifetimes, fun _ hf => ?_, fun _ => rfl, fun _ _ hv => ?_⟩
    · exact absurd hf (Array.not_mem_empty _)
    · exact absurd hv.symm (Option.some_ne_none _)
  · exact ⟨rfl, List.forall_mem_nil _, fun _ _ _ _ hi => absurd hi.symm (Option.some_ne_none _)⟩

/-! ### Dropping handles -/

section Dropping

variable {S T U : Session} {scope : Nat} {f g : FrameId}

/-- A frame whose root still has a handle is left alone. -/
theorem Sound.frame_dropped (hS : S.Sound) (hg : S.handles[scope]? = some (some g))
    (h : (S.dropped scope g).Holds (S.state.store.frame f).root) :
    (S.dropped scope g).state.store.frame f = S.state.store.frame f := by
  have hsound : (S.dropped scope g).Sound := (Move.drop hg).sound hS
  exact hS.grounded.registered.frame_release_of_owned (hsound.holds_iff.mp h)

/-- **No binding is lost** by any step while the root has a handle. -/
theorem Move.isSome {command : Command} {reply : Except Failure Reply} (hS : S.Sound)
    (h : S.Move command reply T) (hf : f < S.state.store.frames.size)
    (hT : T.Holds (S.state.store.frame f).root) {x : String}
    (hx : (S.state.store.local? f x).isSome) : (T.state.store.local? f x).isSome := by
  cases h with
  | add gains _ =>
    rw [store_added, Store.local?, gains.frame_eq f hf]
    exact hx
  | drop handle =>
    rw [Store.local?, hS.frame_dropped handle hT]
    exact hx
  | other continues _ => exact continues.store.isSome f hf x hx

/-- **The last handle of a root** leaves the root abandoned. -/
theorem Sound.abandons_dropped {R : Nat} (hS : S.Sound) (hg : S.handles[scope]? = some (some g))
    (hR : S.Holds R) (hlast : ¬ (S.dropped scope g).Holds R) :
    (S.state.store.frame g).root = R ∧
      (S.dropped scope g).state.store.Abandons R (S.dropped scope g).state.store := by
  have hsound : (S.dropped scope g).Sound := (Move.drop hg).sound hS
  have howners : (S.state.store.release g).ownersOf R = 0 :=
    Decidable.not_not.mp fun h => hlast (hsound.holds_iff.mpr h)
  -- no other root has lost an owner
  have hroot : (S.state.store.frame g).root = R := by
    refine Decidable.byContradiction fun hne => hS.holds_iff.mp hR ?_
    rw [Store.ownersOf_release, if_neg hne, Nat.sub_zero] at howners
    exact howners
  have hlt : g < S.state.store.frames.size := hS.handle_lt g (Array.mem_of_getElem? hg)
  refine ⟨hroot, hsound.grounded, Nat.le_refl _, fun _ _ => rfl, fun _ _ => rfl, ?_, howners,
    fun f _ hf hthere => ?_⟩
  · exact hroot ▸ (S.state.store.size_owners_release g).symm ▸ hS.grounded.root_lt g hlt
  · -- the registry has not lost the frame, so it is emptied
    rw [store_dropped, Store.root_release, ← hroot] at hf
    exact hS.grounded.registered.bindings_release (hS.ownersOf_ne_zero (Array.mem_of_getElem? hg))
      (hroot.symm ▸ howners) hf hthere

/-- After that, no step brings the root back. -/
theorem Sound.abandons_of_steps {s : Store} {R : Nat} (hT : T.Sound)
    (hR : s.Abandons R T.state.store) {commands : List Command}
    {replies : List (Except Failure Reply)} (hrun : steps commands T = some (replies, U)) :
    ¬ U.Holds R ∧ s.Abandons R U.state.store := by
  obtain ⟨hU, habandons⟩ : U.Sound ∧ s.Abandons R U.state.store := by
    refine steps_induction (I := fun U _ => U.Sound ∧ s.Abandons R U.state.store)
      (fun ⟨hS, hR⟩ hstep => ?_) [] ⟨hT, hR⟩ hrun
    have hmove := move_of_step hS hstep
    exact ⟨hmove.sound hS, hmove.abandons hS hR⟩
  exact ⟨fun h => hU.holds_iff.mp h habandons.unowned, habandons⟩

end Dropping

end Session

/-- **The life of a root**, after any steps of a host.

Handles have the same root if they come from the same one, and frames if they are in the same outermost
frame. While a root has a handle, its registry has all of its frames that are still there. No step loses a
binding of a frame while its root has a handle, and dropping a handle does not even change such a frame.

Dropping the last handle of a root empties all of its frames that are still there and changes no others.
After that the root gets no handle any more, and these frames stay empty, whatever the host does and
whatever is evaluated outside of them; so the closures that have captured them run on their own.

The functions of the host may be any that work on the frames by their operations, and frames may go at any
time. That a closure keeps the frame that it has captured is what `Store.Remains` says. -/
theorem root_ownership {graphs : Graphs} {host : HostLibrary} (hhost : host.Evolving)
    {matcher : Matcher} {depth : Nat} {lifetimes : Lifetimes} {commands : List Command}
    {replies : List (Except Failure Reply)} {S : Session}
    (hrun : Session.steps commands
      { graphs, host, matcher, depth, state := { store := { lifetimes } } } = some (replies, S)) :
    (∀ (i : Nat) (f : FrameId) (j : Nat) (g : FrameId), S.handles[i]? = some (some f) →
      S.handles[j]? = some (some g) →
      ((S.state.store.frame f).root = (S.state.store.frame g).root ↔
        (Session.origins commands replies)[i]? = (Session.origins commands replies)[j]?)) ∧
    (∀ f < S.state.store.frames.size, ∀ g < S.state.store.frames.size,
      ((S.state.store.frame f).root = (S.state.store.frame g).root ↔
        (S.state.store.chain f).getLast? = (S.state.store.chain g).getLast?)) ∧
    S.state.store.lifetimes = lifetimes ∧ (∀ R, S.Holds R → S.state.store.Tracks R) ∧
    (∀ command reply T, (Session.step command).run S = some (reply, T) →
      ∀ f < S.state.store.frames.size, T.Holds (S.state.store.frame f).root →
        ∀ x, (S.state.store.local? f x).isSome → (T.state.store.local? f x).isSome) ∧
    ∀ scope reply T, (Session.step (.drop scope)).run S = some (reply, T) →
      (∀ f, T.Holds (S.state.store.frame f).root →
        T.state.store.frame f = S.state.store.frame f) ∧
      ∀ R, S.Holds R → ¬ T.Holds R →
        (∀ f < S.state.store.frames.size, (S.state.store.frame f).root = R →
          T.state.store.gone f = false → (T.state.store.frame f).bindings = []) ∧
        (∀ f, (S.state.store.frame f).root ≠ R →
          T.state.store.frame f = S.state.store.frame f) ∧
        (∀ later answers U, Session.steps later T = some (answers, U) →
          ¬ U.Holds R ∧ T.state.store.Abandons R U.state.store) ∧
        (∀ (u w : State) (cx : Context) (code : Code) (depth : Nat) (r : Except Error Value),
          T.state.store.Abandons R u.store → cx.frame < u.store.frames.size →
          (cx.frame < T.state.store.frames.size → (T.state.store.frame cx.frame).root ≠ R) →
          code.run host depth cx u = some (r, w) → T.state.store.Abandons R w.store) ∧
        ∀ (u : State) (c : Closure) (g : FrameId) (v : Value), T.state.store.Abandons R u.store →
          c.frame = some g → g < T.state.store.frames.size → (T.state.store.frame g).root = R →
          T.state.store.Remains g → v.Within u.store.frames.size → c.Isolated host g v u := by
  obtain ⟨hS, hO, hlifetimes⟩ := Session.sound_of_steps hhost hrun
  refine ⟨hO.root_eq_iff, fun f hf g hg => hS.grounded.root_eq_iff hf hg, hlifetimes,
    fun R hR => hS.grounded.registered.tracks R (hS.holds_iff.mp hR),
    fun command reply T hstep f hf hT x hx => ?_, fun scope reply T hdrop => ?_⟩
  · exact (Session.move_of_step hS hstep).isSome hS hf hT hx
  · rcases Session.drop_cases hdrop with ⟨-, rfl⟩ | ⟨g, hg, -, rfl⟩
    · -- there was no such handle
      exact ⟨fun _ _ => rfl, fun R hR hnot => absurd hR hnot⟩
    · refine ⟨fun f hf => hS.frame_dropped hg hf, fun R hR hlast => ?_⟩
      obtain ⟨hroot, habandons⟩ := hS.abandons_dropped hg hR hlast
      have hsound : (S.dropped scope g).Sound := (Session.Move.drop hg).sound hS
      refine ⟨fun f hf hfR hthere => ?_, fun f hf => ?_, fun later answers U hlater => ?_,
        fun u w cx code depth r hu hlt hframe hcode => ?_,
        fun u c g v hu hc hg hgroot hremains hv => ?_⟩
      · refine habandons.empty f ?_ ((S.state.store.root_release g f).trans hfR) hthere
        exact (S.state.store.size_release g).symm ▸ hf
      · exact hS.grounded.registered.frame_release_of_root_ne (hroot ▸ hf)
      · exact hsound.abandons_of_steps habandons hlater
      · exact hu.run hhost hlt hframe hcode
      · exact hu.isolated hhost hc hg hgroot hremains hv

/-- The frame that a closure has captured. -/
def Value.captured? : Value → Option FrameId
  | .closure c => c.frame
  | _ => none

/-- The frame with number 1 goes at the second moment, and no other frame ever does. -/
def Lifetimes.brief : Lifetimes where
  gone i f := decide (f = 1 ∧ 2 ≤ i)
  stays hij h := decide_eq_true ((of_decide_eq_true h).imp_right fun hi => Nat.le_trans hi hij)

/-- A closure is handed to another root, and the handle of its own root is dropped. The frame of the block
is gone by then; that of the closure is still there, and is emptied. -/
theorem root_ownership_captured :
    Host.standard.Evolving ∧ ∃ replies S T c,
      Session.steps
        [.new, .eval 0 "y = 1; \x7b z = 2 \x7d; x -> y" (some "f") {}, .new, .set 1 "f" (.slot "f")]
        { graphs := {}, depth := 3, state := { store := { lifetimes := .brief } } } =
          some (replies, S) ∧
      (Session.step (.drop 0)).run S = some (.ok (.dropped 0), T) ∧
      (S.state.store.local? 0 "y").isSome ∧ T.state.store.gone 1 = true ∧
      T.state.store.gone 0 = false ∧ (T.state.store.frame 0).bindings = [] ∧
      T.state.store.local? 2 "f" = some (.closure c) ∧ c.Isolated Host.standard 0 .null T.state := by
  have hhost : Host.standard.Evolving := Host.evolving_standard
  have hends : (Session.steps
      [.new, .eval 0 "y = 1; \x7b z = 2 \x7d; x -> y" (some "f") {}, .new, .set 1 "f" (.slot "f")]
      { graphs := {}, depth := 3, state := { store := { lifetimes := .brief } } }).any
        (fun p => ((Session.step (.drop 0)).run p.2).any fun q =>
          decide (p.2.handles[0]? = some (some 0) ∧ q.2.handles = #[none, some 2] ∧
            q.2.state.store.gone 1 = true ∧ q.2.state.store.gone 0 = false ∧
            0 < p.2.state.store.frames.size ∧ (p.2.state.store.frame 0).root = 0 ∧
            0 < q.2.state.store.frames.size ∧ (q.2.state.store.frame 0).root = 0 ∧
            q.2.state.store.chain 0 = [0] ∧
            (p.2.state.store.frame 2).root ≠ 0 ∧ (q.2.state.store.frame 2).root ≠ 0 ∧
            (p.2.state.store.local? 0 "y").isSome ∧
            (p.2.state.store.local? 2 "f").bind Value.captured? = some 0)) = true := by decide +kernel
  obtain ⟨⟨replies, S⟩, hsteps, hends⟩ := (Option.any_eq_true _ _).mp hends
  obtain ⟨⟨reply, T⟩, hdrop, hends⟩ := (Option.any_eq_true _ _).mp hends
  obtain ⟨hhandle, hhandles, hgone, hthere, hlt, hroot, hlt', hroot', hchain, hother, hother', hbound,
    hcaptured⟩ := of_decide_eq_true hends
  have hS : S.Holds 0 := ⟨0, 0, hhandle, hroot⟩
  have hT : ¬ T.Holds 0 := by
    rintro ⟨i, f, hi, hf⟩
    have hmem : some f ∈ T.handles := Array.mem_of_getElem? hi
    rw [hhandles] at hmem
    obtain rfl : f = 2 := by simpa using hmem
    exact hother' hf
  obtain ⟨-, -, -, -, -, hdrops⟩ := root_ownership hhost hsteps
  obtain ⟨hempty, hsame, hlater, -, hisolated⟩ := (hdrops 0 reply T hdrop).2 0 hS hT
  have habandons : T.state.store.Abandons 0 T.state.store := (hlater [] [] T rfl).2
  have hremains : T.state.store.Remains 0 := by
    rw [Store.Remains, hchain]
    exact List.forall_mem_singleton.mpr hthere
  rcases Session.drop_cases hdrop with ⟨-, rfl⟩ | ⟨f, -, rfl, -⟩
  · exact absurd hS hT
  · obtain ⟨v, hv, hcaptured⟩ := Option.bind_eq_some_iff.mp hcaptured
    cases v with
    | closure c =>
      refine ⟨hhost, replies, S, T, c, hsteps, hdrop, hbound, hgone, hthere, hempty 0 hlt hroot hthere,
        ?_, ?_⟩
      · rw [Store.local?, hsame 2 hother]
        exact hv
      · exact hisolated T.state c 0 .null habandons hcaptured hlt' hroot' hremains
          (Value.fits_of_isSimple rfl)
    | _ => exact absurd hcaptured.symm (Option.some_ne_none 0)

end GraphQuery
