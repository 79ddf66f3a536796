import GraphQuery.Proofs.Session.Settling
import GraphQuery.Session.Command

/-!
# What requests of a host do

A host holds handles, each of which owns the root of its frame. In a **sound** session
(`Session.Sound`) the owners of a root are counted right, the frames of handles are there, and the store
is grounded.

Most requests leave the handles alone: they run scripts, read and write variables, make values. What they
may do to the store is `Store.Outlasts`. No frame and no binding is lost, and as they only run in frames
of roots that have owners, an empty frame of a root without owners stays empty. This holds even though a
value may be described by a script, which is run in a root that is made for it and emptied again.

Requests are put together from smaller ones, and `Session.Lands` follows them. The other steps make a
handle or drop one. So a step of a session is one of three moves (`Session.Move`).

## Main statements

* `Store.Settles.outlasts`: evaluations in a frame that is owned, or in one that is new.
* `Session.value_lands`: making a value that is described.
* `Session.move_of_step`: what a step can do.
-/

namespace GraphQuery

/-! ### Owners -/

namespace Store

/-- Whether a handle has a frame of the root. -/
def owns (s : Store) (R : Nat) (handle : Option FrameId) : Bool :=
  handle.any fun f => (s.frame f).root == R

/-- A handle owns the root of its frame. -/
theorem owns_some {s : Store} {R : Nat} {f : FrameId} :
    s.owns R (some f) = true ↔ (s.frame f).root = R := beq_iff_eq

/-- Frames that stay in their roots leave their owners alone. -/
theorem owns_congr {s t : Store} {R : Nat} {handle : Option FrameId}
    (h : ∀ f, handle = some f → (t.frame f).root = (s.frame f).root) :
    t.owns R handle = s.owns R handle := by
  cases handle with
  | none => rfl
  | some f =>
    unfold owns
    rw [Option.any_some, Option.any_some, h f rfl]

/-! ### Stores that outlast requests -/

/-- All frames and bindings of a store are in another one, roots have the same owners, and empty frames of
roots without owners stay empty. -/
structure Outlasts (s t : Store) : Prop where
  /-- No frame disappears. -/
  size_le : s.frames.size ≤ t.frames.size
  /-- No root disappears. -/
  owners_le : s.owners.size ≤ t.owners.size
  /-- Owners are neither gained nor lost. -/
  ownersOf_eq : ∀ R, t.ownersOf R = s.ownersOf R
  /-- Frames go when they went before. -/
  lifetimes_eq : t.lifetimes = s.lifetimes
  /-- Frames stay where they are. -/
  enclosing_eq : ∀ g < s.frames.size, (t.frame g).enclosing = (s.frame g).enclosing
  /-- They belong to the same roots. -/
  root_eq : ∀ g < s.frames.size, (t.frame g).root = (s.frame g).root
  /-- No binding is lost. -/
  isSome : ∀ g < s.frames.size, ∀ x, (s.local? g x).isSome → (t.local? g x).isSome
  /-- Where nobody can run anything, nothing is bound. -/
  empty : ∀ g < s.frames.size, s.ownersOf (s.frame g).root = 0 → (s.frame g).bindings = [] →
    (t.frame g).bindings = []

namespace Outlasts

variable {s t u : Store}

/-- What has not changed outlasts. -/
theorem refl (s : Store) : s.Outlasts s :=
  ⟨Nat.le_refl _, Nat.le_refl _, fun _ => rfl, rfl, fun _ _ => rfl, fun _ _ => rfl, fun _ _ _ h => h,
    fun _ _ _ h => h⟩

/-- What outlasts one request and then another outlasts both. -/
theorem trans (h : s.Outlasts t) (h' : t.Outlasts u) : s.Outlasts u where
  size_le := Nat.le_trans h.size_le h'.size_le
  owners_le := Nat.le_trans h.owners_le h'.owners_le
  ownersOf_eq R := (h'.ownersOf_eq R).trans (h.ownersOf_eq R)
  lifetimes_eq := h'.lifetimes_eq.trans h.lifetimes_eq
  enclosing_eq g hg :=
    (h'.enclosing_eq g (Nat.lt_of_lt_of_le hg h.size_le)).trans (h.enclosing_eq g hg)
  root_eq g hg := (h'.root_eq g (Nat.lt_of_lt_of_le hg h.size_le)).trans (h.root_eq g hg)
  isSome g hg x hx := h'.isSome g (Nat.lt_of_lt_of_le hg h.size_le) x (h.isSome g hg x hx)
  empty g hg howners hempty := by
    refine h'.empty g (Nat.lt_of_lt_of_le hg h.size_le) ?_ (h.empty g hg howners hempty)
    rw [h.root_eq g hg, h.ownersOf_eq]
    exact howners

end Outlasts

/-- **An evaluation** in a frame whose root has an owner, or in one that has been made for it. -/
theorem Settles.outlasts {s t : Store} {f : FrameId} (h : s.Settles f t)
    (hf : f < s.frames.size → s.ownersOf (s.frame f).root ≠ 0) : s.Outlasts t where
  size_le := h.size_le
  owners_le := h.owners_le
  ownersOf_eq := h.ownersOf_eq
  lifetimes_eq := h.lifetimes_eq
  enclosing_eq := h.enclosing_eq
  root_eq := h.root_eq
  isSome := h.isSome
  empty g hg howners := h.empty g hg fun heq => hf (heq ▸ hg) (heq ▸ howners)

/-! ### New owners -/

/-- Another store has one more owner, of the root of `f`; the frames that were there are as they were. -/
structure Gains (s t : Store) (f : FrameId) : Prop where
  /-- Frames are nested in earlier ones. -/
  grounded : t.Grounded
  /-- No frame disappears. -/
  size_le : s.frames.size ≤ t.frames.size
  /-- No root disappears. -/
  owners_le : s.owners.size ≤ t.owners.size
  /-- Frames go when they went before. -/
  lifetimes_eq : t.lifetimes = s.lifetimes
  /-- No frame is changed. -/
  frame_eq : ∀ g < s.frames.size, t.frame g = s.frame g
  /-- The frame is there. -/
  frame_lt : f < t.frames.size
  /-- Its root has one more owner. -/
  ownersOf_eq : ∀ R, t.ownersOf R = s.ownersOf R + if (t.frame f).root = R then 1 else 0

namespace Gains

variable {s : Store}

/-- A frame of a root that has an owner is given one more. -/
theorem retain (hs : s.Grounded) {f : FrameId} (hf : f < s.frames.size)
    (howned : s.ownersOf (s.frame f).root ≠ 0) : s.Gains (s.retain f) f where
  grounded := hs.retain howned
  size_le := Nat.le_refl _
  owners_le := Nat.le_of_eq Array.size_modify.symm
  lifetimes_eq := rfl
  frame_eq _ _ := rfl
  frame_lt := hf
  ownersOf_eq := s.ownersOf_retain (hs.root_lt f hf)

/-- A frame that has just been made is given one. -/
theorem nest (hs : s.Grounded) {p : FrameId} (hp : p < s.frames.size)
    (howned : s.ownersOf (s.frame p).root ≠ 0) :
    s.Gains ((s.nest p).2.retain s.frames.size) s.frames.size := by
  have hsize : (s.nest p).2.frames.size = s.frames.size + 1 := s.size_nest p
  have hroot : ((s.nest p).2.frame s.frames.size).root = (s.frame p).root := by
    rw [frame_nest, if_pos rfl]
  have hretain : (s.nest p).2.Gains ((s.nest p).2.retain s.frames.size) s.frames.size :=
    retain (hs.nest hp) (hsize ▸ Nat.lt_succ_self _) (hroot.symm ▸ howned)
  exact
    { hretain with
      size_le := hsize ▸ Nat.le_succ _
      frame_eq := fun g hg => s.frame_nest_of_lt p g hg }

/-- A new root starts with one owner, and no other root gains any. -/
theorem newRoot (hs : s.Grounded) : s.Gains s.newRoot.2 s.frames.size := by
  have hsize : s.newRoot.2.frames.size = s.frames.size + 1 := s.size_newRoot
  refine ⟨hs.newRoot, hsize ▸ Nat.le_succ _, ?_, rfl, fun g hg => ?_, hsize ▸ Nat.lt_succ_self _,
    fun R => ?_⟩
  · exact Nat.le_of_succ_le (Nat.le_of_eq (Array.size_push _).symm)
  · rw [frame_newRoot, if_neg (Nat.ne_of_lt hg)]
  · rw [frame_newRoot, if_pos rfl, ownersOf_newRoot]
    -- the number of the new root has been counted for none before
    by_cases hR : R = s.owners.size
    · rw [if_pos hR, if_pos hR.symm, ownersOf_of_size_le s (Nat.le_of_eq hR.symm)]
    · rw [if_neg hR, if_neg (Ne.symm hR), Nat.add_zero]

end Gains

end Store

/-- Whether a handle has been made. -/
def Reply.isHandle : Reply → Bool
  | .handle _ => true
  | _ => false

/-! ### Sound sessions -/

namespace Session

open Request

/-- What all sessions have in common. -/
structure Sound (S : Session) : Prop where
  /-- The functions of the host work on the frames by their operations. -/
  host : S.host.Evolving
  /-- Frames are nested in earlier ones. -/
  grounded : S.state.store.Grounded
  /-- The frames of handles are there. -/
  handle_lt : ∀ f, some f ∈ S.handles → f < S.state.store.frames.size
  /-- Each handle is an owner of the root of its frame. -/
  owners : ∀ R, S.state.store.ownersOf R = S.handles.countP (S.state.store.owns R)
  /-- Closures that are kept have captured frames that are there. -/
  slot : ∀ x v, S.slots.lookup x = some v → v.Within S.state.store.frames.size

/-- The root of a handle has an owner. -/
theorem Sound.ownersOf_ne_zero {S : Session} (hS : S.Sound) {f : FrameId} (hf : some f ∈ S.handles) :
    S.state.store.ownersOf (S.state.store.frame f).root ≠ 0 := by
  rw [hS.owners]
  exact Nat.ne_of_gt (Array.countP_pos_iff.mpr ⟨some f, hf, Store.owns_some.mpr rfl⟩)

/-- A session goes on, with the same handles. -/
structure Continues (S T : Session) : Prop where
  /-- It stays sound. -/
  sound : T.Sound
  /-- The handles are the same. -/
  handles_eq : T.handles = S.handles
  /-- The frames outlast what happens. -/
  store : S.state.store.Outlasts T.state.store

/-- What keeps handles and outlasts is a session that goes on, if its store is grounded and its slots are in
range. -/
theorem Sound.continues {S T : Session} (hS : S.Sound) (hhost : T.host = S.host)
    (hhandles : T.handles = S.handles) (hstore : S.state.store.Outlasts T.state.store)
    (hground : T.state.store.Grounded)
    (hslots : ∀ x v, T.slots.lookup x = some v → v.Within T.state.store.frames.size) :
    S.Continues T := by
  refine ⟨⟨hhost ▸ hS.host, hground, fun f hf => ?_, fun R => ?_, hslots⟩, hhandles, hstore⟩
  · exact Nat.lt_of_lt_of_le (hS.handle_lt f (hhandles ▸ hf)) hstore.size_le
  · rw [hstore.ownersOf_eq, hS.owners, hhandles]
    -- handles have the same frames as before, and these have the same roots
    refine Array.countP_congr fun handle hmem => ?_
    rw [Store.owns_congr fun f hf => hstore.root_eq f (hS.handle_lt f (hf ▸ hmem))]

/-- What changes neither frames nor handles. -/
theorem Sound.continues_of_eq {S T : Session} (hS : S.Sound) (hhost : T.host = S.host)
    (hhandles : T.handles = S.handles) (hstore : T.state.store = S.state.store)
    (hslots : ∀ x v, T.slots.lookup x = some v → v.Within S.state.store.frames.size) :
    S.Continues T :=
  hS.continues hhost hhandles (hstore ▸ .refl _) (hstore ▸ hS.grounded) (hstore ▸ hslots)

/-- What changes only the frames. -/
theorem Sound.continues_store {S : Session} {state : State} (hS : S.Sound)
    (hstore : S.state.store.Outlasts state.store) (hground : state.store.Grounded) :
    S.Continues { S with state } :=
  hS.continues rfl rfl hstore hground fun x v hv => (hS.slot x v hv).of_le hstore.size_le

theorem Sound.refl {S : Session} (hS : S.Sound) : S.Continues S :=
  hS.continues_of_eq rfl rfl rfl hS.slot

/-- A session that goes on twice has gone on. -/
theorem Continues.trans {S T U : Session} (h : S.Continues T) (h' : T.Continues U) :
    S.Continues U :=
  ⟨h'.sound, h'.handles_eq.trans h.handles_eq, h.store.trans h'.store⟩

/-! ### Requests -/

/-- In this session, the request leads to one that goes on from it, and gives what has the property
there, if it gives anything. -/
def Lands {α : Type} (S : Session) (P : Session → α → Prop) (m : Request α) : Prop :=
  ∀ r T, m S = some (r, T) → S.Continues T ∧ ∀ a, r = .ok a → P T a

section Lands

variable {α β : Type} {S : Session} {P : Session → α → Prop} {Q : Session → β → Prop}

/-- A request is known by what it gives. -/
theorem Lands.of_eq {m : Request α} {r : Except Failure α} {T : Session}
    (hm : m S = some (r, T)) (h : S.Continues T) (hP : ∀ a, r = .ok a → P T a) : S.Lands P m := by
  intro r' T' hm'
  obtain ⟨rfl, rfl⟩ := Prod.mk.inj (Option.some.inj (hm.symm.trans hm'))
  exact ⟨h, hP⟩

theorem Lands.pure (hS : S.Sound) {a : α} (ha : P S a) : S.Lands P (Pure.pure a) :=
  .of_eq rfl hS.refl fun _ h => Except.ok.inj h ▸ ha

theorem Lands.throw (hS : S.Sound) (e : Failure) : S.Lands P (MonadExcept.throw e) :=
  .of_eq rfl hS.refl fun _ h => nomatch h

/-- **One request after the other.** -/
theorem Lands.bind {m : Request α} {f : α → Request β} (hm : S.Lands P m)
    (hf : ∀ T a, S.Continues T → P T a → T.Lands Q (f a)) : S.Lands Q (m >>= f) := by
  intro r U h
  change (m S).bind (fun p => ExceptT.bindCont f p.1 p.2) = some (r, U) at h
  -- it fails, or not: then the second request starts from where the first has landed
  rcases hms : m S with _ | ⟨e | a, T⟩
  · rw [hms] at h
    exact nomatch h
  · rw [hms] at h
    obtain ⟨rfl, rfl⟩ := Prod.mk.inj (Option.some.inj h)
    exact ⟨(hm _ _ hms).1, fun _ h => nomatch h⟩
  · rw [hms] at h
    obtain ⟨hcontinues, ha⟩ := hm _ _ hms
    obtain ⟨hcontinues', hr⟩ := hf T a hcontinues (ha a rfl) r U h
    exact ⟨hcontinues.trans hcontinues', hr⟩

theorem Lands.get {f : Session → Request β} (h : S.Lands Q (f S)) :
    S.Lands Q (MonadState.get >>= f) := h

/-- Loading a script makes numbers for its literals and nothing else. -/
theorem load_lands (hS : S.Sound) (tree : Tree) : S.Lands (fun _ _ => True) (load tree) :=
  .of_eq rfl (hS.continues_of_eq rfl rfl rfl hS.slot) fun _ _ => trivial

/-- Reading a script changes nothing. -/
theorem read_lands (hS : S.Sound) (source : String) : S.Lands (fun _ _ => True) (Request.read source) := by
  unfold Request.read
  cases parse source with
  | ok tree => exact .pure hS trivial
  | error e => exact .throw hS _

/-- The frame of a handle is that of a handle that is there. -/
theorem frameOf_lands (hS : S.Sound) (scope : Nat) :
    S.Lands (fun T f => some f ∈ T.handles) (frameOf scope) := by
  rcases frameOf_cases S scope with h | ⟨f, hf, h⟩
  · exact .of_eq h hS.refl fun _ h => nomatch h
  · exact .of_eq h hS.refl fun _ h => Except.ok.inj h ▸ Array.mem_of_getElem? hf

/-- A value may be kept if the frames of its closures are there. -/
theorem keep_lands (hS : S.Sound) (slot : Option String) {v : Value}
    (hv : v.Within S.state.store.frames.size) : S.Lands (fun _ _ => True) (keep slot v) := by
  cases slot with
  | none => exact .pure hS trivial
  | some name =>
    refine .of_eq rfl (hS.continues_of_eq rfl rfl rfl fun x w hw => ?_) fun _ _ => trivial
    rw [Assoc.lookup_put] at hw
    split at hw
    · obtain rfl := Option.some.inj hw
      exact hv
    · exact hS.slot x w hw

/-! #### Evaluations -/

/-- An evaluation in a grounded store changes the state only. -/
theorem evaluate_settles {options : Options} {f : FrameId} {code : Code} {r : Except Failure Report}
    {T : Session} (hhost : S.host.Evolving) (hground : S.state.store.Grounded)
    (hf : f < S.state.store.frames.size) (h : evaluate options f code S = some (r, T)) :
    ∃ report state, r = .ok report ∧ T = { S with state } ∧ state.store.Grounded ∧
      S.state.store.Settles f state.store ∧
      Returns (Value.Within state.store.frames.size) report.result := by
  obtain ⟨cx, report, state, rfl, rfl, rfl, hrun⟩ := evaluate_cases h
  let s : State := { S.state with log := [], notes := [] }
  have hs : s.store.Grounded := hground
  obtain ⟨hground', hsettles, hresult⟩ := run_settles hhost hs hf hrun
  exact ⟨report, state, rfl, rfl, hground', hsettles, hresult⟩

theorem evaluate_lands (hS : S.Sound) (options : Options) {f : FrameId} (hf : some f ∈ S.handles)
    (code : Code) :
    S.Lands (fun T report => Returns (Value.Within T.state.store.frames.size) report.result)
      (evaluate options f code) := by
  intro r T h
  obtain ⟨report, state, rfl, rfl, hground, hsettles, hresult⟩ :=
    evaluate_settles hS.host hS.grounded (hS.handle_lt f hf) h
  have houtlasts := hsettles.outlasts fun _ => hS.ownersOf_ne_zero hf
  refine ⟨hS.continues_store houtlasts hground, fun a ha => ?_⟩
  obtain rfl := Except.ok.inj ha
  exact hresult

theorem runIn_lands (hS : S.Sound) (scope : Nat) (save : Option String) (options : Options)
    (code : Code) : S.Lands (fun _ _ => True) (runIn scope save options code) := by
  refine (frameOf_lands hS scope).bind fun T f hT hf => ?_
  refine (evaluate_lands hT.sound options hf code).bind fun U report hU hresult => ?_
  rcases hreport : report.result with e | v
  · exact .pure hU.sound trivial
  · rw [hreport] at hresult
    exact (keep_lands hU.sound save hresult).bind fun V _ hV _ => .pure hV.sound trivial

/-! #### Values that are described -/

/-- What a script gives in a root of its own. -/
theorem runAlone_lands (hS : S.Sound) (source : String) :
    S.Lands (fun T v => v.Within T.state.store.frames.size) (Description.runAlone source) := by
  refine (read_lands hS source).bind fun S₁ tree h₁ _ => ?_
  refine (load_lands h₁.sound tree).bind fun S₂ code h₂ _ => ?_
  intro r T h
  -- the session is not sound while the script runs, as the new root has an owner without a handle
  let S₃ : Session := { S₂ with state := { S₂.state with store := S₂.state.store.newRoot.2 } }
  change ((evaluate {} S₂.state.store.frames.size code >>= fun report =>
    modifyStore (·.release S₂.state.store.frames.size) >>= fun _ => settle report.result) :
      Request Value) S₃ = some (r, T) at h
  change ((evaluate {} S₂.state.store.frames.size code S₃).bind _) = some (r, T) at h
  rcases heval : evaluate {} S₂.state.store.frames.size code S₃ with _ | ⟨r', S₄⟩
  · rw [heval] at h
    exact nomatch h
  · rw [heval] at h
    have hground : S₃.state.store.Grounded := h₂.sound.grounded.newRoot
    have hlt : S₂.state.store.frames.size < S₃.state.store.frames.size := by
      change _ < S₂.state.store.newRoot.2.frames.size
      rw [Store.size_newRoot]
      exact Nat.lt_succ_self _
    obtain ⟨report, state, rfl, rfl, hground', hsettles, hresult⟩ :=
      evaluate_settles (S := S₃) h₂.sound.host hground hlt heval
    have halone : S₂.state.store.Settles S₂.state.store.frames.size
        (state.store.release S₂.state.store.frames.size) :=
      .alone _ h₂.sound.grounded hground' hsettles
    have houtlasts := halone.outlasts fun hnew => absurd hnew (Nat.lt_irrefl _)
    have hcontinues : S₂.Continues { S₂ with
        state := { state with store := state.store.release S₂.state.store.frames.size } } :=
      h₂.sound.continues_store houtlasts (hground'.release (Nat.lt_of_lt_of_le hlt hsettles.size_le))
    change settle report.result { S₂ with
      state := { state with store := state.store.release S₂.state.store.frames.size } } =
        some (r, T) at h
    rcases hreport : report.result with e | v
    · rw [hreport] at h
      obtain ⟨rfl, rfl⟩ := Prod.mk.inj (Option.some.inj h)
      exact ⟨hcontinues, fun _ h => nomatch h⟩
    · rw [hreport] at h hresult
      obtain ⟨rfl, rfl⟩ := Prod.mk.inj (Option.some.inj h)
      refine ⟨hcontinues, fun a ha => ?_⟩
      obtain rfl := Except.ok.inj ha
      exact Value.Within.of_le hresult (Nat.le_of_eq (state.store.size_release _).symm)

mutual

/-- **A value that is described**: the frames that its closures have captured are there. -/
theorem value_lands (S : Session) (hS : S.Sound) (d : Description) :
    S.Lands (fun T v => v.Within T.state.store.frames.size) d.value :=
  -- only a script runs anything; descriptions of lists land by their members, and the other values are
  -- made at once
  match d with
  | .null | .bool _ | .string _ | .integer _ | .strings _ | .nodes _ | .edges _ | .properties _
  | .nodeProperties _ | .edgeProperties _ => .pure hS (Value.fits_of_isSimple rfl)
  | .allNodes _ => .get (.pure hS (Value.fits_of_isSimple rfl))
  | .target name => .pure hS (Value.fits_target name)
  | .float x => by
    refine .pure hS ?_
    cases Decimal.Layout.positional.text? x with
    | none => exact Value.fits_of_isSimple rfl
    | some text => exact Value.fits_of_isSimple rfl
  | .find g id => by
    refine .get (.pure hS ?_)
    cases S.graphs.find? g id with
    | none => exact Value.fits_of_isSimple rfl
    | some node => exact Value.fits_of_isSimple rfl
  | .script source => runAlone_lands hS source
  | .list ds =>
    (values_lands S hS ds).bind fun _ _ hT hvs => .pure hT.sound (Value.fits_list_iff.mpr hvs)
  | .slot name => by
    refine .get ?_
    rcases hv : S.slots.lookup name with _ | v
    · exact .throw hS _
    · exact .pure hS (hS.slot name v hv)
  | .function _ _ _ _ =>
    .of_eq rfl (hS.continues_of_eq rfl rfl rfl hS.slot) fun _ h =>
      Except.ok.inj h ▸ Value.fits_of_isSimple rfl

/-- Values that are described one after the other. -/
theorem values_lands (S : Session) (hS : S.Sound) (ds : List Description) :
    S.Lands (fun T vs => ∀ v ∈ vs, v.Within T.state.store.frames.size) (Description.values ds) :=
  match ds with
  | [] => .pure hS (List.forall_mem_nil _)
  | d :: ds => by
    refine (value_lands S hS d).bind fun T v hT hv => ?_
    refine (values_lands T hT.sound ds).bind fun U vs hU hvs => .pure hU.sound ?_
    exact List.forall_mem_cons.mpr ⟨hv.of_le hU.store.size_le, hvs⟩

end

/-- Questions may make values and functions. -/
theorem answer_lands (hS : S.Sound) (v : Value) (q : Query) :
    S.Lands (fun _ _ => True) (q.answer v) := by
  refine .get ?_
  cases q with
  -- the other value is made first, and the answer changes nothing
  | equals other | same other | index other | add other =>
    exact (value_lands S hS other).bind fun _ _ hT _ => .pure hT.sound trivial
  | select name => exact .of_eq rfl (hS.continues_of_eq rfl rfl rfl hS.slot) fun _ _ => trivial
  | _ => exact .pure hS trivial

/-- A variable is bound in the frame of a handle. -/
theorem declare_lands (hS : S.Sound) {f : FrameId} (hf : some f ∈ S.handles) (name : String)
    {v : Value} (hv : v.Within S.state.store.frames.size) :
    S.Lands (fun _ _ => True) (modifyStore (·.declare f name v)) := by
  have hsettles : S.state.store.Settles f (S.state.store.declare f name v) :=
    (Store.Settles.refl f _).declare (Or.inl rfl) name v
  exact .of_eq rfl (hS.continues_store (hsettles.outlasts fun _ => hS.ownersOf_ne_zero hf)
    (hS.grounded.declare f name hv)) fun _ _ => trivial

/-- A variable is changed where it is bound. -/
theorem assign_lands (hS : S.Sound) {f : FrameId} (hf : some f ∈ S.handles) {name : String}
    {v : Value} (hv : v.Within S.state.store.frames.size) {store : Store}
    (hstore : S.state.store.assign? f name v = some store) :
    S.Lands (fun _ _ => True) (modifyStore fun _ => store) := by
  obtain ⟨g, hfind, rfl⟩ := Option.map_eq_some_iff.mp hstore
  have hsettles : S.state.store.Settles f (S.state.store.declare g name v) :=
    (Store.Settles.refl f _).declare (Or.inr (Or.inr (Store.bindings_ne_nil hfind))) name v
  exact .of_eq rfl (hS.continues_store (hsettles.outlasts fun _ => hS.ownersOf_ne_zero hf)
    (hS.grounded.declare g name hv)) fun _ _ => trivial

end Lands

/-! ### Moves -/

/-- The session with one more handle. -/
def added (S : Session) (store : Store) (f : FrameId) : Session :=
  { S with state := { S.state with store }, handles := S.handles.push (some f) }

/-- The session after a handle to `f` is dropped. -/
def dropped (S : Session) (scope : Nat) (f : FrameId) : Session :=
  { S with
    state := { S.state with store := S.state.store.release f }
    handles := S.handles.modify scope fun _ => none }

/-- The store of the new session. -/
theorem store_added (S : Session) (store : Store) (f : FrameId) :
    (S.added store f).state.store = store := rfl

/-- The new handle comes last. -/
theorem handles_added (S : Session) (store : Store) (f : FrameId) :
    (S.added store f).handles = S.handles.push (some f) := rfl

/-- A root has one owner less. -/
theorem store_dropped (S : Session) (scope : Nat) (f : FrameId) :
    (S.dropped scope f).state.store = S.state.store.release f := rfl

/-- The handle is there no more. -/
theorem handles_dropped (S : Session) (scope : Nat) (f : FrameId) :
    (S.dropped scope f).handles = S.handles.modify scope fun _ => none := rfl

/-- What a step can do. -/
inductive Move (S : Session) : Command → Except Failure Reply → Session → Prop where
  /-- A handle is made: to a new root, or to a frame of the root of another handle. -/
  | add {command : Command} {store : Store} {f : FrameId} (gains : S.state.store.Gains store f)
      (origin : command = .new ∧ (store.frame f).root = S.state.store.owners.size ∨
        ∃ scope p, (command = .nested scope ∨ command = .clone scope) ∧
          S.handles[scope]? = some (some p) ∧
          (store.frame f).root = (S.state.store.frame p).root) :
      Move S command (.ok (.handle S.handles.size)) (S.added store f)
  /-- A handle is dropped. -/
  | drop {scope : Nat} {f : FrameId} (handle : S.handles[scope]? = some (some f)) :
      Move S (.drop scope) (.ok (.dropped scope)) (S.dropped scope f)
  /-- The handles are left alone. -/
  | other {command : Command} {reply : Except Failure Reply} {T : Session}
      (continues : S.Continues T) (quiet : ∀ a, reply = .ok a → a.isHandle = false) :
      Move S command reply T

section Steps

variable {S T : Session} {command : Command} {reply : Except Failure Reply}

/-- A step that lands is no handle's step. -/
theorem move_of_lands (h : S.Lands (fun _ reply => reply.isHandle = false) (step command))
    (hstep : (step command).run S = some (reply, T)) : S.Move command reply T := by
  obtain ⟨hcontinues, hquiet⟩ := h reply T hstep
  exact .other hcontinues hquiet

/-- A request that begins with a handle fails if there is none, and changes nothing. -/
theorem bind_frameOf_cases {α : Type} {scope : Nat} {f : FrameId → Request α}
    {r : Except Failure α} (h : (frameOf scope >>= f) S = some (r, T)) :
    (r = .error (.unknown "scope") ∧ T = S) ∨
      ∃ p, S.handles[scope]? = some (some p) ∧ f p S = some (r, T) := by
  change (frameOf scope S).bind (fun p => ExceptT.bindCont f p.1 p.2) = some (r, T) at h
  rcases frameOf_cases S scope with hframe | ⟨p, hp, hframe⟩
  · rw [hframe] at h
    obtain ⟨rfl, rfl⟩ := Prod.mk.inj (Option.some.inj h)
    exact Or.inl ⟨rfl, rfl⟩
  · rw [hframe] at h
    exact Or.inr ⟨p, hp, h⟩

/-- A drop fails if there is no such handle, and otherwise drops it. -/
theorem drop_cases {scope : Nat} (h : (step (.drop scope)).run S = some (reply, T)) :
    (reply = .error (.unknown "scope") ∧ T = S) ∨
      ∃ f, S.handles[scope]? = some (some f) ∧ reply = .ok (.dropped scope) ∧
        T = S.dropped scope f := by
  rcases bind_frameOf_cases h with hnone | ⟨f, hf, h⟩
  · exact Or.inl hnone
  · obtain ⟨rfl, rfl⟩ := Prod.mk.inj (Option.some.inj h)
    exact Or.inr ⟨f, hf, rfl, rfl⟩

/-- **What a step can do**: it makes a handle, drops one, or leaves the handles alone. -/
theorem move_of_step (hS : S.Sound) (h : (step command).run S = some (reply, T)) :
    S.Move command reply T := by
  have hlt : ∀ {scope f}, S.handles[scope]? = some (some f) → f < S.state.store.frames.size :=
    fun hf => hS.handle_lt _ (Array.mem_of_getElem? hf)
  have howned : ∀ {scope f}, S.handles[scope]? = some (some f) →
      S.state.store.ownersOf (S.state.store.frame f).root ≠ 0 :=
    fun hf => hS.ownersOf_ne_zero (Array.mem_of_getElem? hf)
  -- one case per command; those that make or drop no handle land, request by request
  cases command with
  | new =>
    obtain ⟨rfl, rfl⟩ := Prod.mk.inj (Option.some.inj h)
    refine .add (.newRoot hS.grounded) (Or.inl ⟨rfl, ?_⟩)
    exact congrArg Frame.root ((S.state.store.frame_newRoot _).trans (if_pos rfl))
  | nested scope =>
    rcases bind_frameOf_cases h with ⟨rfl, rfl⟩ | ⟨p, hp, h⟩
    · exact .other hS.refl fun _ h => nomatch h
    · obtain ⟨rfl, rfl⟩ := Prod.mk.inj (Option.some.inj h)
      refine .add (.nest hS.grounded (hlt hp) (howned hp)) (Or.inr ⟨scope, p, Or.inl rfl, hp, ?_⟩)
      change ((S.state.store.nest p).2.frame S.state.store.frames.size).root = _
      rw [Store.frame_nest, if_pos rfl]
  | clone scope =>
    rcases bind_frameOf_cases h with ⟨rfl, rfl⟩ | ⟨p, hp, h⟩
    · exact .other hS.refl fun _ h => nomatch h
    · obtain ⟨rfl, rfl⟩ := Prod.mk.inj (Option.some.inj h)
      exact .add (.retain hS.grounded (hlt hp) (howned hp)) (Or.inr ⟨scope, p, Or.inr rfl, hp, rfl⟩)
  | drop scope =>
    rcases drop_cases h with ⟨rfl, rfl⟩ | ⟨f, hf, rfl, rfl⟩
    · exact .other hS.refl fun _ h => nomatch h
    · exact .drop hf
  | eval scope source save options =>
    refine move_of_lands ?_ h
    refine (read_lands hS source).bind fun S₁ tree h₁ _ => ?_
    refine (load_lands h₁.sound tree).bind fun S₂ code h₂ _ => ?_
    exact (runIn_lands h₂.sound scope save options code).bind fun _ _ h₃ _ =>
      .pure h₃.sound rfl
  | compile script source =>
    refine move_of_lands ?_ h
    refine (read_lands hS source).bind fun S₁ tree h₁ _ => ?_
    refine (load_lands h₁.sound tree).bind fun S₂ code h₂ _ => ?_
    exact .of_eq rfl (h₂.sound.continues_of_eq rfl rfl rfl h₂.sound.slot) fun _ h =>
      Except.ok.inj h ▸ rfl
  | run script scope save options =>
    refine move_of_lands (.get ?_) h
    cases S.scripts.lookup script with
    | none => exact .throw hS _
    | some code =>
      exact (runIn_lands hS scope save options code).bind fun _ _ h₁ _ => .pure h₁.sound rfl
  | get scope name save =>
    refine move_of_lands (.get ?_) h
    refine (frameOf_lands hS scope).bind fun T f hT hf => ?_
    have hf : f < S.state.store.frames.size := hS.handle_lt f (hT.handles_eq ▸ hf)
    rcases hget : S.state.store.get? f name with _ | v
    · exact .pure hT.sound rfl
    · have hv : v.Within S.state.store.frames.size := hS.grounded.sealed.get? hf hget
      exact (keep_lands hT.sound save (hv.of_le hT.store.size_le)).bind fun _ _ hU _ =>
        .pure hU.sound rfl
  | isLocal scope name =>
    refine move_of_lands (.get ?_) h
    exact (frameOf_lands hS scope).bind fun _ _ hT _ => .pure hT.sound rfl
  | set scope name value =>
    refine move_of_lands ?_ h
    refine (value_lands S hS value).bind fun S₁ v h₁ hv => ?_
    refine (frameOf_lands h₁.sound scope).bind fun S₂ f h₂ hf => ?_
    exact (declare_lands h₂.sound hf name (hv.of_le h₂.store.size_le)).bind fun _ _ h₃ _ =>
      .pure h₃.sound rfl
  | mutate scope name value =>
    refine move_of_lands ?_ h
    refine (value_lands S hS value).bind fun S₁ v h₁ hv => ?_
    refine (frameOf_lands h₁.sound scope).bind fun S₂ f h₂ hf => .get ?_
    rcases hassign : S₂.state.store.assign? f name v with _ | store
    · exact .throw h₂.sound _
    · exact (assign_lands h₂.sound hf (hv.of_le h₂.store.size_le) hassign).bind fun _ _ h₃ _ =>
        .pure h₃.sound rfl
  | sameScope a b =>
    refine move_of_lands ?_ h
    refine (frameOf_lands hS a).bind fun S₁ _ h₁ _ => ?_
    exact (frameOf_lands h₁.sound b).bind fun _ _ h₂ _ => .pure h₂.sound rfl
  | debug scope =>
    refine move_of_lands (.get ?_) h
    exact (frameOf_lands hS scope).bind fun _ _ hT _ => .pure hT.sound rfl
  | ask value query =>
    refine move_of_lands ?_ h
    refine (value_lands S hS value).bind fun S₁ v h₁ _ => ?_
    exact (answer_lands h₁.sound v query).bind fun _ _ h₂ _ => .pure h₂.sound rfl

end Steps

end Session

end GraphQuery
