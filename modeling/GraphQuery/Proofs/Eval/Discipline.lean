import GraphQuery.Host.Standard
import GraphQuery.Proofs.Eval.Clean
import GraphQuery.Proofs.Eval.Compatible

/-!
# Evaluations side by side

Two evaluations of the same code that start from different stores may still go the same way. This module
says what has to be known about the stores, and about the code, for that.

A **discipline** (`Discipline`) relates the stores of the two evaluations. It says which names code may
mention, in which frames code may run (they are **open**) and which frames closures may have captured
(they are **held**). Its laws are about single operations on stores: from an open frame, the names that
may be mentioned have the same values in both stores, binding them keeps the stores related, and a frame
can be made inside any that is held, which is then open. What is open or held may depend on the number of
frames, and stays so when there are more.

These laws are enough. If the code, and the closures in all values that it meets, keep to the names and
the frames of a discipline, then both evaluations run out, or both end with the same result after the
same contacts with the world, in stores that are related (`Discipline.Admits`). The comparison that a
string stands for is an exception, as it has a variable of its own, whatever its name means elsewhere;
but it reads this variable only, in a frame where it has just been bound (`Closure.invoke_matching`).

A relation between a store and itself makes this a statement about one evaluation: what holds of the
store is kept, and the closures that are made or found keep to the frames that are there.

## Main statements

* `Discipline.eval_admits`, `Discipline.call_admits`: expressions, and calls of any depth.
* `Host.obeys_of_mem_standardTable`: the standard functions of a host.
-/

namespace GraphQuery

/-! ### Code that keeps to some names -/

namespace Expr

variable {X : String → Prop}

/-- Any name may be mentioned, or else those that the expression binds can be told, and all that it
mentions are in `X`. -/
def Minds (X : String → Prop) (e : Code) : Prop :=
  (∀ x, X x) ∨ e.Named ∧ ∀ x, e.Mentions x → X x

/-- Parts of code that keeps to some names do so. -/
theorem Minds.child {c e : Code} (h : e.Minds X) (hc : c ∈ e.children) : c.Minds X :=
  h.imp_right fun ⟨hnamed, hX⟩ => ⟨hnamed.child hc, fun x hx => hX x (hx.of_child hc)⟩

theorem Minds.mentions {e : Code} (h : e.Minds X) {x : String} (hx : e.Mentions x) : X x := by
  rcases h with h | ⟨-, hX⟩
  · exact h x
  · exact hX x hx

end Expr

/-- The literal that a closure comes from. -/
def Closure.literal (c : Closure) : Code := .closure c.site c.parameter c.body

/-! ### Closures in values -/

/-- The closures in the value mention names of `X` only, and have captured frames of `H` only. -/
def Value.Fits (X : String → Prop) (H : FrameId → Prop) (v : Value) : Prop :=
  ∀ c, Inside (.closure c) v → c.literal.Minds X ∧ ∀ f, c.frame = some f → H f

namespace Value

variable {X : String → Prop} {H : FrameId → Prop}

/-- Values that contain no others have no closures. -/
theorem fits_of_isSimple {v : Value} (hv : v.kind.isSimple = true) : v.Fits X H := by
  intro c hc
  obtain rfl := hc.eq_of_isSimple hv
  exact nomatch hv

theorem fits_target (x : String) : Fits X H (.target x) := fun _ hc => nomatch hc

/-- A list keeps to names and frames if its members do. -/
theorem fits_list_iff {vs : List Value} : Fits X H (.list vs) ↔ ∀ v ∈ vs, v.Fits X H := by
  constructor
  · intro h v hv c hc
    exact h c (.member hv hc)
  · intro h c hc
    cases hc with
    | member hv hc => exact h _ hv c hc

/-- A closure keeps to names by its literal, and to frames by the one that it has captured. -/
theorem fits_closure {c : Closure} (hc : c.literal.Minds X) (hframe : ∀ f, c.frame = some f → H f) :
    Fits X H (.closure c) := by
  intro d hd
  cases hd with
  | self => exact ⟨hc, hframe⟩

/-- There may be more frames to keep to. -/
theorem Fits.mono {H' : FrameId → Prop} {v : Value} (h : v.Fits X H) (hH : ∀ f, H f → H' f) :
    v.Fits X H' :=
  fun c hc => ⟨(h c hc).1, fun f hf => hH f ((h c hc).2 f hf)⟩

theorem hereditary_fits : Hereditary (Fits X H) := ⟨fits_of_isSimple, fits_list_iff⟩

end Value

/-! ### Closures in stores -/

namespace Store

variable {X : String → Prop} {H : FrameId → Prop} {s : Store}

/-- The frames of `H` lead to frames of `H` only, and the closures bound in them keep to `X` and `H`. -/
structure Sealed (X : String → Prop) (H : FrameId → Prop) (s : Store) : Prop where
  /-- What encloses a frame of `H` is in `H`. -/
  enclosing : ∀ f, H f → ∀ g ∈ (s.frame f).enclosing, H g
  /-- The closures in what is bound in a frame of `H`. -/
  value : ∀ f, H f → ∀ x v, s.local? f x = some v → v.Fits X H

/-- A sealed frame sees sealed frames only. -/
theorem Sealed.chain (h : s.Sealed X H) {f : FrameId} (hf : H f) : ∀ g ∈ s.chain f, H g :=
  List.forall_mem_cons.mpr ⟨hf, h.enclosing f hf⟩

/-- **A variable** that is looked up from a frame of `H` keeps to names and frames. -/
theorem Sealed.get? (h : s.Sealed X H) {f : FrameId} (hf : H f) {x : String} {v : Value}
    (hv : s.get? f x = some v) : v.Fits X H := by
  obtain ⟨g, hg, hlocal⟩ := List.exists_of_findSome?_eq_some hv
  exact h.value g (h.chain hf g hg) x v hlocal

/-- **Binding a value** that keeps to names and frames, in any frame. -/
theorem Sealed.declare (h : s.Sealed X H) (f : FrameId) (x : String) {v : Value} (hv : v.Fits X H) :
    (s.declare f x v).Sealed X H where
  enclosing g hg i hi := h.enclosing g hg i (s.enclosing_declare f g x v ▸ hi)
  value g hg z w hw := by
    rcases local?_declare hw with rfl | hw
    · exact hv
    · exact h.value g hg z w hw

/-- A variable after another one has been bound. -/
theorem local?_declare_eq (s : Store) (f g : FrameId) (x z : String) (v : Value) :
    (s.declare f x v).local? g z =
      if g = f ∧ z = x ∧ f < s.frames.size then some v else s.local? g z := by
  -- a write to a frame that is not there does nothing, which is what the last condition is for
  unfold local?
  by_cases hgf : g = f
  · subst hgf
    by_cases hg : g < s.frames.size
    · rw [frame_declare_self s g x v hg, Assoc.lookup_put]
      simp [hg]
    · have hsize : s.frames.size ≤ g := Nat.le_of_not_lt hg
      rw [frame_of_size_le s hsize, frame_of_size_le _ (s.size_declare g x v ▸ hsize)]
      simp [hg]
  · rw [frame_declare s f g x v hgf]
    simp [hgf]

/-- A frame that has just been made binds nothing, and nothing else changes. -/
theorem local?_nest (s : Store) (f g : FrameId) (x : String) :
    (s.nest f).2.local? g x = s.local? g x := by
  unfold local?
  rw [frame_nest]
  split
  · next hg =>
      rw [frame_of_size_le s (Nat.le_of_eq hg.symm)]
      rfl
  · rfl

/-- The new frame may be added to `H`. -/
theorem Sealed.nest {H' : FrameId → Prop} (h : s.Sealed X H) {f : FrameId} (hf : H f)
    (hH : ∀ g, H g → H' g) (hnew : ∀ g, H' g → H g ∨ g = s.frames.size) :
    (s.nest f).2.Sealed X H' where
  enclosing g hg i hi := by
    rw [frame_nest] at hi
    -- the new frame sees what the frame sees that it is made under
    split at hi
    · exact hH i (h.chain hf i hi)
    · next hne => exact hH i (h.enclosing g ((hnew g hg).resolve_right hne) i hi)
  value g hg x v hv := by
    rw [local?_nest] at hv
    rcases hnew g hg with hg | rfl
    · exact (h.value g hg x v hv).mono hH
    -- the frame was not there before, so nothing was bound in it then either
    · rw [local?, frame_of_size_le s (Nat.le_refl _)] at hv
      exact absurd hv.symm (Option.some_ne_none v)

/-- The frames that can be reached are sealed if the closures on the way keep to `X`. -/
theorem sealed_known {roots : FrameId → Prop}
    (h : ∀ f, s.Reaches roots f → ∀ x v, s.local? f x = some v →
      ∀ c, Value.Inside (.closure c) v → c.literal.Minds X) : s.Sealed X (s.Known roots) where
  enclosing f hf g hg := by
    rcases hf with hf | hf
    · exact Or.inl (.enclosing hf hg)
    -- a frame that is not there yet leads nowhere and binds nothing
    · rw [frame_of_size_le s hf] at hg
      exact absurd hg List.not_mem_nil
  value f hf x v hv := by
    rcases hf with hf | hf
    · exact fun c hc => ⟨h f hf x v hv c hc, fun g hg => Or.inl (.captured hf hv hc hg)⟩
    · rw [local?, frame_of_size_le s hf] at hv
      exact absurd hv.symm (Option.some_ne_none v)

end Store

/-- If the operation has a result, it has the property `P`; its errors may be any. -/
abbrev Returns {α : Type} (P : α → Prop) : Except Error α → Prop := Gives (fun _ => True) P

theorem returns_error {α : Type} {P : α → Prop} (e : Error) : Returns P (.error e) :=
  fun _ _ => trivial

/-- Of a result that is not looked at, nothing has to be known. -/
theorem returns_any {α : Type} (r : Except Error α) : Returns (fun _ => True) r := by
  cases r with
  | error e => exact returns_error e
  | ok a => exact trivial

/-! ### Disciplines -/

/-- A relation between the stores of two evaluations, with the names and frames that code has to keep to
so that the stores stay related. -/
structure Discipline where
  /-- The names that code may mention. -/
  Names : String → Prop
  /-- The frames that closures may have captured when there are so many frames. -/
  Held : Nat → FrameId → Prop
  /-- The frames in which code may run when there are so many frames. -/
  Open : Nat → FrameId → Prop
  /-- How the stores of the two evaluations are related. -/
  Rel : Store → Store → Prop
  /-- A frame that is held stays so. -/
  held_mono : ∀ {n k f}, n ≤ k → Held n f → Held k f
  /-- A frame that is open stays so. -/
  open_mono : ∀ {n k f}, n ≤ k → Open n f → Open k f
  /-- Code may capture the frame it runs in. -/
  held_of_open : ∀ {n f}, Open n f → Held n f
  /-- There are equally many frames. -/
  size_eq : ∀ {s s'}, Rel s s' → s'.frames.size = s.frames.size
  /-- A name has the same value in both stores. -/
  get?_eq : ∀ {s s' f x}, Rel s s' → Open s.frames.size f → Names x → s'.get? f x = s.get? f x
  /-- The closures in this value keep to the discipline. -/
  get?_fits : ∀ {s s' f x v}, Rel s s' → Open s.frames.size f → Names x → s.get? f x = some v →
    v.Fits Names (Held s.frames.size)
  /-- Binding a name keeps the stores related. -/
  declare : ∀ {s s' f x v}, Rel s s' → Open s.frames.size f → Names x →
    v.Fits Names (Held s.frames.size) → Rel (s.declare f x v) (s'.declare f x v)
  /-- So does making a frame. -/
  nest : ∀ {s s' f}, Rel s s' → Held s.frames.size f → Rel (s.nest f).2 (s'.nest f).2
  /-- In a frame that has just been made, any name may be bound. -/
  parameter : ∀ {s s' f v} (x), Rel s s' → Held s.frames.size f →
    v.Fits Names (Held s.frames.size) →
    Rel ((s.nest f).2.declare s.frames.size x v) ((s'.nest f).2.declare s.frames.size x v)
  /-- The frame that has just been made is open. -/
  open_nest : ∀ {s s'}, Rel s s' → Open (s.frames.size + 1) s.frames.size

namespace Discipline

variable (D : Discipline)

/-- The closures in the value keep to the discipline when there are so many frames. -/
def Fits (n : Nat) (v : Value) : Prop := v.Fits D.Names (D.Held n)

/-- The states of the two evaluations differ in their stores at most, and these are related. -/
structure Related (s s' : State) : Prop where
  /-- The stores are related. -/
  store : D.Rel s.store s'.store
  /-- The same closure literals have been numbered. -/
  sites_eq : s'.sites = s.sites
  /-- The same functions have been made. -/
  functions_eq : s'.functions = s.functions
  /-- There were the same contacts with the world. -/
  log_eq : s'.log = s.log
  /-- The host has noted the same. -/
  notes_eq : s'.notes = s.notes

/-- Code may run in the context when there are so many frames. -/
structure Runs (n : Nat) (cx : Context) : Prop where
  /-- The frame is open. -/
  frame : D.Open n cx.frame
  /-- The log does not tell related stores apart. -/
  watch_eq : ∀ s s', D.Rel s s' → cx.watch s' = cx.watch s

/-- From related states with so many frames at least, the evaluation runs out twice, or it ends twice
with the same result, in related states. A result that is no error has the property `P`, which may
depend on the number of frames. -/
def Admits {α : Type} (n : Nat) (P : Nat → α → Prop) (m : Eval α) : Prop :=
  ∀ s s', D.Related s s' → n ≤ s.store.frames.size →
    (m s = none ∧ m s' = none) ∨
    ∃ r t t', m s = some (r, t) ∧ m s' = some (r, t') ∧ D.Related t t' ∧
      s.store.frames.size ≤ t.store.frames.size ∧ Returns (P t.store.frames.size) r

/-- Calls of values that keep to the discipline do so themselves. -/
def Calls (call : Caller) : Prop :=
  ∀ (n : Nat) (cx : Context) (v : Value) (args : List Value), D.Runs n cx → D.Fits n v →
    (∀ a ∈ args, D.Fits n a) → D.Admits n D.Fits (call cx v args)

end Discipline

/-- The functions of a host keep to the discipline, as long as the calls that they make do. -/
def HostLibrary.Obeys (D : Discipline) (host : HostLibrary) : Prop :=
  ∀ call : Caller, D.Calls call → ∀ (n : Nat) (cx : Context) (name : String) (args : List Value),
    D.Runs n cx → (∀ a ∈ args, D.Fits n a) → D.Admits n D.Fits (host call cx name args)

namespace Discipline

variable {D : Discipline} {α β : Type} {n k : Nat} {cx : Context}

/-- What keeps to the discipline does so when there are more frames. -/
theorem Fits.of_le {v : Value} (h : D.Fits n v) (hk : n ≤ k) : D.Fits k v :=
  h.mono fun _ => D.held_mono hk

/-- Where code may run, it may run when there are more frames. -/
theorem Runs.of_le (h : D.Runs n cx) (hk : n ≤ k) : D.Runs k cx :=
  ⟨D.open_mono hk h.frame, h.watch_eq⟩

/-- Values that contain no others keep to every discipline. -/
theorem fits_simple {v : Value} (hv : v.kind.isSimple = true) : D.Fits n v :=
  Value.fits_of_isSimple hv

theorem fits_of_le {vs : List Value} (h : ∀ v ∈ vs, D.Fits n v) (hk : n ≤ k) :
    ∀ v ∈ vs, D.Fits k v :=
  fun v hv => (h v hv).of_le hk

namespace Admits

variable {P : Nat → α → Prop} {Q : Nat → β → Prop}

/-! ### Single steps -/

/-- The evaluation may start with more frames. -/
theorem of_le {m : Eval α} (h : D.Admits n P m) (hk : n ≤ k) : D.Admits k P m :=
  fun s s' hs hsize => h s s' hs (Nat.le_trans hk hsize)

/-- A weaker property of the result. -/
theorem imp {P' : Nat → α → Prop} {m : Eval α} (h : D.Admits n P m)
    (hP : ∀ k a, P k a → P' k a) : D.Admits n P' m := by
  intro s s' hs hsize
  rcases h s s' hs hsize with hnone | ⟨r, t, t', ht, ht', hrel, hgrow, hr⟩
  · exact Or.inl hnone
  · refine Or.inr ⟨r, t, t', ht, ht', hrel, hgrow, ?_⟩
    cases r with
    | error e => exact hr
    | ok a => exact hP _ a hr

/-- An evaluation that ends at once, with the same result from related states. -/
theorem of_apply {m : Eval α} {out : State → Except Error α} {next : State → State}
    (hm : ∀ s, m s = some (out s, next s))
    (h : ∀ s s', D.Related s s' → n ≤ s.store.frames.size →
      out s' = out s ∧ D.Related (next s) (next s') ∧
      s.store.frames.size ≤ (next s).store.frames.size ∧
      Returns (P (next s).store.frames.size) (out s)) : D.Admits n P m := by
  intro s s' hs hsize
  obtain ⟨hout, hrel, hgrow, hr⟩ := h s s' hs hsize
  exact Or.inr ⟨out s, next s, next s', hm s, by rw [hm s', hout], hrel, hgrow, hr⟩

/-- A result that is known, with a property that does not get lost when frames are made. -/
theorem result {r : Except Error α} (hr : ∀ k, n ≤ k → Returns (P k) r) :
    D.Admits n P (Eval.result r) :=
  of_apply (Eval.result_apply r) fun _ _ hs hsize => ⟨rfl, hs, Nat.le_refl _, hr _ hsize⟩

theorem pure {a : α} (ha : ∀ k, n ≤ k → P k a) : D.Admits n P (Pure.pure a) :=
  result (r := .ok a) ha

theorem throw (e : Error) : D.Admits n P (MonadExcept.throw e) :=
  result (r := .error e) fun _ _ => returns_error e

theorem exhausted : D.Admits n P Eval.exhausted := fun _ _ _ _ => Or.inl ⟨rfl, rfl⟩

/-- A result whose value is simple, if there is one. -/
theorem simple {v : Value} (hv : v.kind.isSimple = true) : D.Admits n D.Fits (Pure.pure v) :=
  pure fun _ _ => fits_simple hv

/-- The second evaluation finds at least as many frames as there were before the first one. -/
theorem bind {m : Eval α} {f : α → Eval β} (hm : D.Admits n P m)
    (hf : ∀ k, n ≤ k → ∀ a, P k a → D.Admits k Q (f a)) : D.Admits n Q (m >>= f) := by
  intro s s' hs hsize
  rw [Eval.bind_apply, Eval.bind_apply]
  rcases hm s s' hs hsize with ⟨hnone, hnone'⟩ | ⟨r, t, t', ht, ht', hrel, hgrow, hr⟩
  · rw [hnone, hnone']
    exact Or.inl ⟨rfl, rfl⟩
  · rw [ht, ht']
    -- only a value is passed on
    cases r with
    | error e => exact Or.inr ⟨.error e, t, t', rfl, rfl, hrel, hgrow, returns_error e⟩
    | ok a =>
      rcases hf _ (Nat.le_trans hsize hgrow) a hr t t' hrel (Nat.le_refl _) with
        hnone | ⟨r, u, u', hu, hu', hrel, hgrow', hr⟩
      · exact Or.inl hnone
      · exact Or.inr ⟨r, u, u', hu, hu', hrel, Nat.le_trans hgrow hgrow', hr⟩

/-- Where nothing has to be known about the first result. -/
theorem andThen {m : Eval α} {f : α → Eval β} (hm : D.Admits n (fun _ _ => True) m)
    (hf : ∀ a, D.Admits n Q (f a)) : D.Admits n Q (m >>= f) :=
  hm.bind fun _ hk a _ => (hf a).of_le hk

/-- A result of which nothing is said. -/
theorem of_result (r : Except Error α) : D.Admits n (fun _ _ => True) (Eval.result r) :=
  result fun _ _ => returns_any r

/-- **A check** sees the same log in both evaluations, since the context watches nothing in which the stores
differ. -/
theorem check (hcx : D.Runs n cx) (name : String) :
    D.Admits n (fun _ _ => True) (Eval.check cx name) := by
  refine of_apply (Eval.check_apply cx name) fun s s' hs _ => ?_
  have hlog : (⟨.check name, cx.watch s'.store⟩ :: s'.log : List Contact) =
      ⟨.check name, cx.watch s.store⟩ :: s.log := by
    rw [hcx.watch_eq _ _ hs.store, hs.log_eq]
  refine ⟨by rw [hlog], ?_, Nat.le_refl _, returns_any _⟩
  exact ⟨hs.store, hs.sites_eq, hs.functions_eq, hlog, hs.notes_eq⟩

/-- So does the entry of a call. -/
theorem record (hcx : D.Runs n cx) (e : Event) :
    D.Admits n (fun _ _ => True) (Eval.record cx e) := by
  refine of_apply (Eval.record_apply cx e) fun s s' hs _ => ?_
  have hlog : (⟨e, cx.watch s'.store⟩ :: s'.log : List Contact) =
      ⟨e, cx.watch s.store⟩ :: s.log := by
    rw [hcx.watch_eq _ _ hs.store, hs.log_eq]
  refine ⟨by rw [hlog], ?_, Nat.le_refl _, returns_any _⟩
  exact ⟨hs.store, hs.sites_eq, hs.functions_eq, hlog, hs.notes_eq⟩

/-- Functions have the same number in both evaluations. -/
theorem newFunction : D.Admits n (fun _ _ => True) Eval.newFunction := by
  refine of_apply Eval.newFunction_apply fun s s' hs _ => ?_
  refine ⟨by rw [hs.functions_eq], ?_, Nat.le_refl _, returns_any _⟩
  exact ⟨hs.store, hs.sites_eq, congrArg (· + 1) hs.functions_eq, hs.log_eq, hs.notes_eq⟩

/-- **A variable** that may be mentioned has the same value in both stores. -/
theorem lookup (hcx : D.Runs n cx) {x : String} (hx : D.Names x) :
    D.Admits n D.Fits (Eval.lookup cx x) := by
  refine of_apply (Eval.lookup_apply cx x) fun s s' hs hsize => ?_
  have hopen := D.open_mono hsize hcx.frame
  refine ⟨by rw [D.get?_eq hs.store hopen hx], hs, Nat.le_refl _, ?_⟩
  split
  case h_1 v hv => exact D.get?_fits hs.store hopen hx hv
  case h_2 => exact returns_error _

/-- **A name** may be bound in an open frame, if code may mention it. -/
theorem declare {f : FrameId} (hf : D.Open n f) {x : String} (hx : D.Names x) {v : Value}
    (hv : D.Fits n v) : D.Admits n (fun _ _ => True) (Eval.declare f x v) := by
  refine of_apply (Eval.declare_apply f x v) fun s s' hs hsize => ?_
  have hstore := D.declare hs.store (D.open_mono hsize hf) hx (hv.of_le hsize)
  refine ⟨rfl, ⟨hstore, hs.sites_eq, hs.functions_eq, hs.log_eq, hs.notes_eq⟩, ?_, trivial⟩
  exact Nat.le_of_eq (Store.size_declare ..).symm

/-- A frame that is made is open. -/
theorem nest {f : FrameId} (hf : D.Held n f) : D.Admits n D.Open (Eval.nest f) := by
  refine of_apply (Eval.nest_apply f) fun s s' hs hsize => ?_
  have hstore := D.nest hs.store (D.held_mono hsize hf)
  have hgrow := s.store.size_nest f
  -- both frames have the same number, since there are equally many frames
  refine ⟨congrArg Except.ok (D.size_eq hs.store),
    ⟨hstore, hs.sites_eq, hs.functions_eq, hs.log_eq, hs.notes_eq⟩, hgrow ▸ Nat.le_succ _, ?_⟩
  change D.Open (s.store.nest f).2.frames.size s.store.frames.size
  rw [hgrow]
  exact D.open_nest hs.store

/-- What runs after a frame has been made and a name has been bound in it. -/
theorem enter {f : FrameId} (hf : D.Held n f) (x : String) {v : Value} (hv : D.Fits n v)
    {body : FrameId → Eval α} (hbody : ∀ k g, n ≤ k → D.Open k g → D.Admits k P (body g)) :
    D.Admits n P (Eval.nest f >>= fun g => Eval.declare g x v >>= fun _ => body g) := by
  -- making the frame and binding the name is one step, as the discipline allows it only together
  have hm : ∀ s : State, (Eval.nest f >>= fun g => Eval.declare g x v >>= fun _ => Pure.pure g) s =
      some (.ok s.store.frames.size, { s with
        store := (s.store.nest f).2.declare s.store.frames.size x v }) := fun _ => rfl
  have hfirst : D.Admits n D.Open
      (Eval.nest f >>= fun g => Eval.declare g x v >>= fun _ => Pure.pure g) := by
    refine of_apply hm fun s s' hs hsize => ?_
    have hstore := D.parameter x hs.store (D.held_mono hsize hf) (hv.of_le hsize)
    have hgrow : ((s.store.nest f).2.declare s.store.frames.size x v).frames.size =
        s.store.frames.size + 1 := (Store.size_declare ..).trans (s.store.size_nest f)
    refine ⟨congrArg Except.ok (D.size_eq hs.store),
      ⟨?_, hs.sites_eq, hs.functions_eq, hs.log_eq, hs.notes_eq⟩, hgrow ▸ Nat.le_succ _, ?_⟩
    · rw [D.size_eq hs.store]
      exact hstore
    · change D.Open ((s.store.nest f).2.declare s.store.frames.size x v).frames.size _
      rw [hgrow]
      exact D.open_nest hs.store
  exact hfirst.bind fun k hk g hg => hbody k g hk hg

/-! ### Searches and walks -/

/-- A field or a method, of any value. -/
theorem select (cx : Context) (v : Value) (name : String) :
    D.Admits n D.Fits (Eval.select cx v name) :=
  newFunction.andThen fun identity => result fun _ _ =>
    Value.hereditary_fits.gives_select cx.graphs identity v name

theorem truth (cx : Context) (v : Value) : D.Admits n (fun _ _ => True) (Eval.truth cx v) :=
  of_result _

variable (D n) in
/-- The searches and walks over graphs are put in sequence, so they need no induction of their own here. -/
theorem sequential : Sequential fun α (m _ : Eval α) => D.Admits n (fun _ _ => True) m :=
  ⟨fun _ => pure fun _ _ => trivial, fun hm hf => hm.andThen hf⟩

theorem firstReachable {gs : Graphs} {accept : Node → Eval Bool} {follow : Edge → Eval Bool}
    (haccept : ∀ a, D.Admits n (fun _ _ => True) (accept a))
    (hfollow : ∀ e, D.Admits n (fun _ _ => True) (follow e)) (start : Node) :
    D.Admits n (fun _ _ => True) (gs.firstReachable accept follow start) :=
  @Sequential.firstReachable _ _ _ _ _ (sequential D n) gs accept accept follow follow haccept hfollow
    start

theorem selectM {p : α → Eval Bool} (hp : ∀ a, D.Admits n (fun _ _ => True) (p a)) (as : List α) :
    D.Admits n (fun _ _ => True) (GraphQuery.selectM p as) :=
  @Sequential.selectM _ _ _ _ _ (sequential D n) α p p hp as

theorem walk {gs : Graphs} {step : α → Step Eval} {as : List α}
    (hfollow : ∀ a ∈ as, ∀ e, D.Admits n (fun _ _ => True) ((step a).follow e))
    (haccept : ∀ a ∈ as, ∀ b, D.Admits n (fun _ _ => True) ((step a).accept b))
    (nodes : OrderedSet Node) : D.Admits n (fun _ _ => True) (gs.walk (as.map step) nodes) :=
  @Sequential.walk _ _ _ _ _ (sequential D n) gs α step step as hfollow haccept nodes

end Admits

/-! ### Expressions -/

section Expressions

open GraphQuery.Expr

variable {call : Caller}

/-- The name that an assignment binds may be mentioned. -/
theorem admits_target {t v : Code} {l : Unit} (he : Minds D.Names (.assign t v l))
    (ht : D.Admits n D.Fits (t.eval call cx)) :
    D.Admits n (fun _ w => ∀ x, w.targetName = .ok x → D.Names x) (t.eval call cx) := by
  rcases he with hall | ⟨hnamed, hnames⟩
  · exact ht.imp fun _ _ _ x _ => hall x
  · -- what stands on the left is a bare name
    obtain ⟨x, m, rfl⟩ := hnamed t v l .self
    refine Admits.pure fun _ _ y hy => ?_
    obtain rfl : x = y := Except.ok.inj hy
    exact hnames x List.mem_cons_self

mutual

/-- **An expression** that keeps to a discipline is evaluated alike from related states. -/
theorem eval_admits (hcall : D.Calls call) {n : Nat} {cx : Context} (hcx : D.Runs n cx) (e : Code)
    (he : e.Minds D.Names) : D.Admits n D.Fits (e.eval call cx) := by
  cases e with
  | null => exact .simple rfl
  | bool b => exact .simple rfl
  | number text => exact .simple rfl
  | string s => exact .simple rfl
  | «variable» x l => exact .lookup hcx (he.mentions List.mem_cons_self)
  | target x l => exact .pure fun _ _ => Value.fits_target x
  | assign t v l =>
    have ht := eval_admits hcall hcx t (he.child List.mem_cons_self)
    have hv : v.Minds D.Names := he.child (List.mem_cons_of_mem t List.mem_cons_self)
    refine (admits_target he ht).bind fun k hk w hw => ?_
    -- the name is read off the target before the value is evaluated
    refine Admits.bind (P := fun _ x => D.Names x) (.result fun _ _ => ?_) fun k' hk' x hx => ?_
    · cases hname : w.targetName with
      | error e => exact returns_error e
      | ok x => exact hw x hname
    · have hcx' := hcx.of_le (Nat.le_trans hk hk')
      refine (eval_admits hcall hcx' v hv).bind fun k'' hk'' value hvalue => ?_
      have hframe := D.open_mono hk'' hcx'.frame
      exact (Admits.declare hframe hx hvalue).andThen fun _ => .pure fun _ => hvalue.of_le
  | select b name l =>
    refine (eval_admits hcall hcx b (he.child List.mem_cons_self)).bind fun k hk v _ => ?_
    exact .select cx v name
  | index b i l =>
    have hi : i.Minds D.Names := he.child (List.mem_cons_of_mem b List.mem_cons_self)
    refine (eval_admits hcall hcx b (he.child List.mem_cons_self)).bind fun k hk base hbase => ?_
    refine (eval_admits hcall (hcx.of_le hk) i hi).bind fun k' hk' position _ => ?_
    refine .result fun k'' hk'' => ?_
    exact Value.hereditary_fits.gives_index cx.graphs (hbase.of_le (Nat.le_trans hk' hk'')) position
  | and l r =>
    have hr : r.Minds D.Names := he.child (List.mem_cons_of_mem l List.mem_cons_self)
    refine (eval_admits hcall hcx l (he.child List.mem_cons_self)).bind fun k hk v _ => ?_
    refine (Admits.truth cx v).andThen fun taken => ?_
    -- the second operand is evaluated twice or not at all
    split
    · refine (eval_admits hcall (hcx.of_le hk) r hr).bind fun _ _ w _ => ?_
      exact (Admits.truth cx w).andThen fun _ => .simple rfl
    · exact .simple rfl
  | or l r =>
    have hr : r.Minds D.Names := he.child (List.mem_cons_of_mem l List.mem_cons_self)
    refine (eval_admits hcall hcx l (he.child List.mem_cons_self)).bind fun k hk v _ => ?_
    refine (Admits.truth cx v).andThen fun taken => ?_
    split
    · exact .simple rfl
    · refine (eval_admits hcall (hcx.of_le hk) r hr).bind fun _ _ w _ => ?_
      exact (Admits.truth cx w).andThen fun _ => .simple rfl
  | not e =>
    refine (eval_admits hcall hcx e (he.child List.mem_cons_self)).bind fun _ _ v _ => ?_
    exact (Admits.truth cx v).andThen fun _ => .simple rfl
  | equality l r negated =>
    have hr : r.Minds D.Names := he.child (List.mem_cons_of_mem l List.mem_cons_self)
    refine (eval_admits hcall hcx l (he.child List.mem_cons_self)).bind fun k hk v _ => ?_
    refine (eval_admits hcall (hcx.of_le hk) r hr).bind fun _ _ w _ => ?_
    exact (Admits.of_result _).andThen fun _ => .simple rfl
  | call f as l =>
    have has : ∀ a ∈ as, a.Minds D.Names := fun a ha => he.child (List.mem_cons_of_mem f ha)
    refine (eval_admits hcall hcx f (he.child List.mem_cons_self)).bind fun k hk v hv => ?_
    refine (evalAll_admits hcall (hcx.of_le hk) as has).bind fun k' hk' args hargs => ?_
    exact hcall k' cx v args (hcx.of_le (Nat.le_trans hk hk')) (hv.of_le hk') hargs
  | closure site p b =>
    -- the closure captures the frame that the code runs in
    refine .pure fun k hk => Value.fits_closure he fun f hf => ?_
    obtain rfl := Option.some.inj hf
    exact D.held_of_open (D.open_mono hk hcx.frame)
  | statements es =>
    exact evalStatements_admits hcall hcx (fun _ _ => fits_simple rfl) es fun c hc => he.child hc
  | block es =>
    refine (Admits.nest (D.held_of_open hcx.frame)).bind fun k hk frame hframe => ?_
    have hcx' : D.Runs k { cx with frame } := ⟨hframe, hcx.watch_eq⟩
    exact evalStatements_admits hcall hcx' (fun _ _ => fits_simple rfl) es fun c hc => he.child hc

/-- Arguments, each of which may have made frames. -/
theorem evalAll_admits (hcall : D.Calls call) {n : Nat} {cx : Context} (hcx : D.Runs n cx)
    (es : List Code) (hes : ∀ e ∈ es, e.Minds D.Names) :
    D.Admits n (fun k vs => ∀ v ∈ vs, D.Fits k v) (evalAll call cx es) := by
  cases es with
  | nil => exact .pure fun _ _ => List.forall_mem_nil _
  | cons e es =>
    obtain ⟨he, hes⟩ := List.forall_mem_cons.mp hes
    refine (eval_admits hcall hcx e he).bind fun k hk v hv => ?_
    refine (evalAll_admits hcall (hcx.of_le hk) es hes).bind fun k' hk' vs hvs => ?_
    refine .pure fun k'' hk'' => ?_
    exact List.forall_mem_cons.mpr ⟨hv.of_le (Nat.le_trans hk' hk''), fits_of_le hvs hk''⟩

/-- Statements, each after its check. -/
theorem evalStatements_admits (hcall : D.Calls call) {n : Nat} {cx : Context} (hcx : D.Runs n cx)
    {last : Value} (hlast : ∀ k, n ≤ k → D.Fits k last) (es : List Code)
    (hes : ∀ e ∈ es, e.Minds D.Names) :
    D.Admits n D.Fits (evalStatements call cx last es) := by
  cases es with
  | nil => exact .pure hlast
  | cons e es =>
    obtain ⟨he, hes⟩ := List.forall_mem_cons.mp hes
    refine (Admits.check hcx "statement").andThen fun _ => ?_
    refine (eval_admits hcall hcx e he).bind fun k hk v hv => ?_
    exact evalStatements_admits hcall (hcx.of_le hk) (fun _ => hv.of_le) es hes

end

/-! ### Closures and predicates -/

/-- **A closure** that keeps to a discipline is evaluated alike. -/
theorem invoke_admits (hcall : D.Calls call) (hcx : D.Runs n cx) {c : Closure}
    (hc : D.Fits n (.closure c)) {v : Value} (hv : D.Fits n v) :
    D.Admits n D.Fits (c.invoke call cx v) := by
  obtain ⟨hliteral, hcaptured⟩ := hc c .self
  obtain ⟨site, parameter, body, frame⟩ := c
  -- without a captured frame the closure sees the frame of its caller
  have hframe : D.Held n (frame.getD cx.frame) := by
    cases frame with
    | none => exact D.held_of_open hcx.frame
    | some f => exact hcaptured f rfl
  have hbody : ∀ k g, n ≤ k → D.Open k g →
      D.Admits k D.Fits (body.eval call { cx with frame := g }) := by
    intro k g _ hg
    have hcx' : D.Runs k { cx with frame := g } := ⟨hg, hcx.watch_eq⟩
    exact eval_admits hcall hcx' body (hliteral.child List.mem_cons_self)
  -- with a parameter, the frame and its first name are made together
  cases parameter with
  | none => exact (Admits.nest hframe).bind fun k hk g hg => hbody k g hk hg
  | some p => exact Admits.enter hframe p hv hbody

/-- The comparison that a string stands for keeps to every discipline, though it mentions a name: it
binds this name first, in a frame of its own, and so reads what it has bound. -/
theorem invoke_matching_admits (hcx : D.Runs n cx) (selector text : String) {v : Value}
    (hv : D.Fits n v) :
    D.Admits n D.Fits ((Closure.matching selector text).invoke call cx v) := by
  have hcompare : ∀ k g, n ≤ k → D.Open k g → D.Admits k D.Fits (do
      let left ← Eval.select cx v selector
      return .bool ((← Eval.result (left.equals cx.graphs (.string text))) != false)) := by
    intro k g _ _
    refine (Admits.select cx v selector).bind fun _ _ left _ => ?_
    exact (Admits.of_result _).andThen fun _ => .simple rfl
  have hframe : D.Held n cx.frame := D.held_of_open hcx.frame
  intro s s' hs hsize
  rw [Closure.invoke_matching, Closure.invoke_matching]
  exact Admits.enter hframe "n" hv hcompare s s' hs hsize

variable (D) in
/-- A closure in the predicate keeps to the discipline, or is the comparison of a string. -/
def Passes (n : Nat) : Predicate → Prop
  | .closure c => D.Fits n (.closure c) ∨ ∃ selector text, c = .matching selector text
  | .constant _ => True

/-- Predicates keep to the discipline when there are more frames. -/
theorem Passes.of_le {p : Predicate} (h : D.Passes n p) (hk : n ≤ k) : D.Passes k p := by
  cases p with
  | closure c => exact Or.imp_left (fun hc : D.Fits n (.closure c) => hc.of_le hk) h
  | constant b => exact trivial

/-- What a value is as a test: closures keep to the discipline as the value did. -/
theorem returns_ofValue (method selector : String) {v : Value} (hv : D.Fits n v) :
    Returns (D.Passes n) (Predicate.ofValue method selector v) := by
  cases v with
  | closure c => exact Or.inl hv
  | string s => exact Or.inr ⟨selector, s, rfl⟩
  | bool b => exact trivial
  | _ => exact returns_error _

/-- **A test** is made alike: the check comes first, then what the predicate is. -/
theorem test_admits (hcall : D.Calls call) (hcx : D.Runs n cx) {p : Predicate} (hp : D.Passes n p)
    {v : Value} (hv : D.Fits n v) : D.Admits n (fun _ _ => True) (p.test call cx v) := by
  refine (Admits.check hcx "predicate").andThen fun _ => ?_
  cases p with
  | constant b => exact .pure fun _ _ => trivial
  | closure c =>
    have hinvoke : D.Admits n D.Fits (c.invoke call cx v) := by
      rcases hp with hc | ⟨selector, text, rfl⟩
      · exact invoke_admits hcall hcx hc hv
      · exact invoke_matching_admits hcx selector text hv
    exact hinvoke.bind fun _ _ w _ => .truth cx w

theorem testNode_admits (hcall : D.Calls call) (hcx : D.Runs n cx) {p : Predicate}
    (hp : D.Passes n p) (node : Node) :
    D.Admits n (fun _ _ => True) (p.testNode call cx node) :=
  test_admits hcall hcx hp (fits_simple rfl)

theorem testEdge_admits (hcall : D.Calls call) (hcx : D.Runs n cx) {p : Predicate}
    (hp : D.Passes n p) (edge : Edge) :
    D.Admits n (fun _ _ => True) (p.testEdge call cx edge) :=
  test_admits hcall hcx hp (fits_simple rfl)

/-! ### Methods -/

/-- The first argument and the others keep to the discipline, if there is a first one. -/
theorem returns_takeArgument {args : List Value} (hargs : ∀ a ∈ args, D.Fits n a) :
    Returns (fun p => D.Fits n p.1 ∧ ∀ a ∈ p.2, D.Fits n a) (takeArgument args) := by
  cases args with
  | nil => exact returns_error _
  | cons v rest => exact List.forall_mem_cons.mp hargs

/-- The first argument and the others keep to the discipline. -/
theorem admits_takeArgument {args : List Value} (hargs : ∀ a ∈ args, D.Fits n a) :
    D.Admits n (fun k p => D.Fits k p.1 ∧ ∀ a ∈ p.2, D.Fits k a)
      (Eval.result (takeArgument args)) :=
  .result fun _ hk => returns_takeArgument (fits_of_le hargs hk)

/-- The tests that the arguments of a walk stand for. -/
theorem returns_walkSteps (args : List Value) (hargs : ∀ a ∈ args, D.Fits n a) :
    Returns (fun steps => ∀ p ∈ steps, D.Passes n p.1 ∧ D.Passes n p.2) (Method.walkSteps args) := by
  induction args using Method.walkSteps.induct with
  | case1 => exact List.forall_mem_nil _
  | case2 e =>
    refine (returns_ofValue _ _ (hargs e List.mem_cons_self)).bind fun follow hfollow => ?_
    exact List.forall_mem_cons.mpr ⟨⟨hfollow, trivial⟩, List.forall_mem_nil _⟩
  | case3 e v rest ih =>
    obtain ⟨he, hv, hrest⟩ := by simpa only [List.forall_mem_cons] using hargs
    refine (returns_ofValue _ _ he).bind fun follow hfollow => ?_
    refine (returns_ofValue _ _ hv).bind fun accept haccept => ?_
    refine (ih hrest).bind fun steps hsteps => ?_
    exact List.forall_mem_cons.mpr ⟨⟨hfollow, haccept⟩, hsteps⟩

/-- The first node that a search finds from one of several starts. -/
theorem firstFrom_admits {find : Node → Eval (Option Node)}
    (hfind : ∀ a, D.Admits n (fun _ _ => True) (find a)) (starts : List Node) :
    D.Admits n D.Fits (Method.firstFrom find starts) := by
  induction starts with
  | nil => exact .simple rfl
  | cons start rest ih =>
    refine (hfind start).andThen fun found => ?_
    cases found with
    | some a => exact .simple rfl
    | none => exact ih

section Methods

variable (hcall : D.Calls call) (hcx : D.Runs n cx) (nodes : OrderedSet Node) {args : List Value}
  (hargs : ∀ a ∈ args, D.Fits n a)

include hcall hcx hargs

/-- The first match, with its two tests. -/
theorem runFirstReachable_admits :
    D.Admits n D.Fits (Method.runFirstReachable call cx nodes args) := by
  refine (admits_takeArgument hargs).bind fun k hk ⟨v, rest⟩ ⟨hv, hrest⟩ => ?_
  have hcx := hcx.of_le hk
  refine Admits.bind (P := D.Passes) (.result fun k' hk' => returns_ofValue _ _ (hv.of_le hk'))
    fun k' hk' accept haccept => ?_
  -- the test of edges is optional, so it may be read when there are more frames than for the first one
  have hfirst : ∀ k'', k' ≤ k'' → ∀ follow, D.Passes k'' follow →
      D.Admits k'' D.Fits (Method.firstFrom (cx.graphs.firstReachable (accept.testNode call cx)
        (follow.testEdge call cx)) nodes.toList) := by
    intro k'' hk'' follow hfollow
    have hcx := hcx.of_le (Nat.le_trans hk' hk'')
    refine firstFrom_admits (fun a => ?_) _
    exact .firstReachable (testNode_admits hcall hcx (haccept.of_le hk''))
      (testEdge_admits hcall hcx hfollow) a
  cases rest with
  | nil => exact (Admits.pure fun _ _ => trivial).bind hfirst
  | cons w rest =>
    have hw : D.Fits k' w := (hrest w List.mem_cons_self).of_le hk'
    exact (Admits.result fun _ hk'' => returns_ofValue _ _ (hw.of_le hk'')).bind hfirst

/-- The search for documents. -/
theorem runFirstDoc_admits : D.Admits n D.Fits (Method.runFirstDoc call cx nodes args) := by
  refine (admits_takeArgument hargs).bind fun k hk ⟨v, rest⟩ ⟨hv, _⟩ => ?_
  refine Admits.bind (P := D.Passes) (.result fun k' hk' => returns_ofValue _ _ (hv.of_le hk'))
    fun k' hk' accept haccept => ?_
  refine (Admits.of_result _).andThen fun _ => ?_
  refine firstFrom_admits (fun a => ?_) _
  refine .firstReachable (fun b => ?_) (fun _ => .pure fun _ _ => trivial) a
  -- only nodes that are documents are tested
  split
  · exact testNode_admits hcall (hcx.of_le (Nat.le_trans hk hk')) haccept b
  · exact .pure fun _ _ => trivial

/-- A walk. -/
theorem runWalk_admits : D.Admits n D.Fits (Method.runWalk call cx nodes args) := by
  refine Admits.bind (P := fun k steps => ∀ p ∈ steps, D.Passes k p.1 ∧ D.Passes k p.2)
    (.result fun k hk => returns_walkSteps args (fits_of_le hargs hk)) fun k hk steps hsteps => ?_
  have hcx := hcx.of_le hk
  refine Admits.andThen ?_ fun found => .simple rfl
  exact Admits.walk (fun p hp e => testEdge_admits hcall hcx (hsteps p hp).1 e)
    (fun p hp a => testNode_admits hcall hcx (hsteps p hp).2 a) nodes

omit hcall hargs in
/-- The nodes that are instances of something. -/
theorem runInstanceOf_admits : D.Admits n D.Fits (Method.runInstanceOf cx nodes args) := by
  refine (Admits.of_result _).andThen fun id => ?_
  refine (Admits.selectM (fun a => ?_) _).andThen fun found => .simple rfl
  exact (Admits.check hcx "instanceOf").andThen fun _ => .pure fun _ _ => trivial

/-- **A method** is evaluated alike if the closures that it is given keep to the discipline. -/
theorem run_admits (m : Method) : D.Admits n D.Fits (m.run call cx args) := by
  -- what methods on strings come to depends on their arguments by texts alone
  have hbool : ∀ {β : Type} (r : Except Error β) (f : β → Bool),
      D.Admits n D.Fits (Eval.result (r >>= fun b => pure (.bool (f b)))) :=
    fun r f => .result fun _ _ => (returns_any r).bind fun _ _ => fits_simple rfl
  cases m with
  | «matches» text =>
    refine .result fun _ _ => (returns_any (textArgument args)).bind fun pattern _ => ?_
    split
    · exact fits_simple rfl
    · exact returns_error _
  | has strings => exact hbool _ _
  | hasAny strings => exact hbool _ _
  | hasAll strings => exact hbool _ _
  | firstReachable nodes => exact runFirstReachable_admits hcall hcx nodes hargs
  | firstDoc nodes => exact runFirstDoc_admits hcall hcx nodes hargs
  | instanceOf nodes => exact runInstanceOf_admits hcx nodes
  | walk nodes => exact runWalk_admits hcall hcx nodes hargs

end Methods

/-! ### Calls -/

/-- What can be called, given that the calls nested in it keep to the discipline. -/
theorem callWith_admits {host : HostLibrary} (hhost : host.Obeys D) (hcall : D.Calls call) :
    D.Calls fun cx v args => v.callWith host call cx args := by
  intro n cx v args hcx hv hargs
  cases v with
  | function f =>
    refine (Admits.of_result _).andThen fun _ => ?_
    cases f.action with
    | method m => exact run_admits hcall hcx hargs m
    | host behavior =>
      refine (Admits.record hcx _).andThen fun _ => ?_
      exact hhost call hcall n cx behavior args hcx hargs
  | closure c =>
    match args with
    | [] => exact invoke_admits hcall hcx hv (fits_simple rfl)
    | [v] => exact invoke_admits hcall hcx hv (hargs v List.mem_cons_self)
    | _ :: _ :: _ => exact .throw _
  | _ => exact .throw _

/-- **Calls of any depth** keep to a discipline, if those of the host do. -/
theorem call_admits {host : HostLibrary} (hhost : host.Obeys D) (depth : Nat) :
    D.Calls (Value.call host depth) := by
  induction depth with
  | zero => exact fun _ _ _ _ _ _ _ => .exhausted
  | succ depth ih => exact callWith_admits hhost ih

end Expressions

end Discipline

/-! ### The functions of a host -/

namespace Host

open Discipline

variable {D : Discipline}

/-- Given arguments that keep to a discipline, a call of the function does so. -/
def Meaning.Obeys (D : Discipline) (meaning : Meaning) : Prop :=
  ∀ call : Caller, D.Calls call → ∀ (n : Nat) (cx : Context) (args : List Value), D.Runs n cx →
    (∀ a ∈ args, D.Fits n a) → D.Admits n D.Fits (meaning call cx args)

/-- A function without arguments. -/
theorem obeys_parameterless {f : Context → Eval Value}
    (hf : ∀ n cx, D.Runs n cx → D.Admits n D.Fits (f cx)) : (parameterless f).Obeys D :=
  fun _ _ n cx _ hcx _ => (Admits.of_result _).andThen fun _ => hf n cx hcx

/-- A function of one argument. -/
theorem obeys_unary {f : Context → Value → Eval Value}
    (hf : ∀ n cx v, D.Runs n cx → D.Fits n v → D.Admits n D.Fits (f cx v)) :
    (unary f).Obeys D := by
  intro call hcall n cx args hcx hargs
  refine (admits_takeArgument hargs).bind fun k hk ⟨v, rest⟩ ⟨hv, _⟩ => ?_
  exact (Admits.of_result _).andThen fun _ => hf k cx v (hcx.of_le hk) hv

/-- A function of two arguments, which makes calls. -/
theorem obeys_calling {f : Caller → Context → Value → Value → Eval Value}
    (hf : ∀ call, D.Calls call → ∀ n cx v w, D.Runs n cx → D.Fits n v → D.Fits n w →
      D.Admits n D.Fits (f call cx v w)) : (calling f).Obeys D := by
  intro call hcall n cx args hcx hargs
  refine (admits_takeArgument hargs).bind fun k hk ⟨v, rest⟩ ⟨hv, hrest⟩ => ?_
  refine (admits_takeArgument hrest).bind fun k' hk' ⟨w, rest⟩ ⟨hw, _⟩ => ?_
  refine (Admits.of_result _).andThen fun _ => ?_
  exact hf call hcall k' cx v w (hcx.of_le (Nat.le_trans hk hk')) (hv.of_le hk') hw

theorem obeys_binary {f : Context → Value → Value → Eval Value}
    (hf : ∀ n cx v w, D.Runs n cx → D.Fits n v → D.Fits n w → D.Admits n D.Fits (f cx v w)) :
    (binary f).Obeys D :=
  obeys_calling fun _ _ => hf

theorem obeys_note : (unary note).Obeys D := by
  refine obeys_unary fun n cx v _ hv => ?_
  -- a note is a text, which is the same as the graphs are
  have hnote : ∀ s, note cx v s =
      some (.ok v, { s with notes := v.display cx.graphs :: s.notes }) := fun _ => rfl
  refine Admits.of_apply hnote fun s s' hs hsize => ?_
  refine ⟨rfl, ⟨hs.store, hs.sites_eq, hs.functions_eq, hs.log_eq, ?_⟩, Nat.le_refl _, hv.of_le hsize⟩
  exact congrArg (v.display cx.graphs :: ·) hs.notes_eq

/-- The sum of what a function gives for each of several values. -/
theorem admits_accumulate {n : Nat} {f : Value → Eval Value}
    (hf : ∀ k, n ≤ k → ∀ v, D.Fits k v → D.Admits k D.Fits (f v)) {total : Value}
    (htotal : D.Fits n total) {vs : List Value} (hvs : ∀ v ∈ vs, D.Fits n v) :
    D.Admits n D.Fits (Value.accumulate f total vs) := by
  induction vs generalizing n total with
  | nil => exact .pure fun _ => htotal.of_le
  | cons v vs ih =>
    obtain ⟨hv, hvs⟩ := List.forall_mem_cons.mp hvs
    refine (hf n (Nat.le_refl n) v hv).bind fun k hk w hw => ?_
    have hadd : Returns (D.Fits k) (total.add w) :=
      Value.hereditary_fits.gives_add (htotal.of_le hk) hw
    split
    case h_1 sum hsum =>
      rw [hsum] at hadd
      exact ih (fun k' hk' => hf k' (Nat.le_trans hk hk')) hadd (fits_of_le hvs hk)
    case h_2 => exact .throw _

/-- Iterating over the elements of a value. -/
theorem obeys_iterate : (calling iterate).Obeys D := by
  refine obeys_calling fun call hcall n cx v f hcx hv hf => ?_
  have heach : ∀ k, n ≤ k → ∀ e, D.Fits k e → D.Admits k D.Fits (call cx f [e]) := by
    intro k hk e he
    have hargs : ∀ a ∈ [e], D.Fits k a := List.forall_mem_cons.mpr ⟨he, List.forall_mem_nil _⟩
    exact hcall k cx f [e] (hcx.of_le hk) (hf.of_le hk) hargs
  unfold iterate Value.iterate
  split
  case h_1 => exact .throw _
  case h_2 => exact .simple rfl
  case h_3 e es hes =>
    -- the sum starts from what the first element gives
    obtain ⟨he, hes⟩ := List.forall_mem_cons.mp (Value.hereditary_fits.elements hv hes)
    refine (heach n (Nat.le_refl n) e he).bind fun k hk w hw => ?_
    exact admits_accumulate (fun k' hk' => heach k' (Nat.le_trans hk hk')) hw (fits_of_le hes hk)

/-- A call with the members of a list as arguments. -/
theorem obeys_apply : (calling apply).Obeys D := by
  refine obeys_calling fun call hcall n cx f args hcx hf hargs => ?_
  have hone : D.Admits n D.Fits (call cx f [args]) :=
    hcall n cx f [args] hcx hf (List.forall_mem_cons.mpr ⟨hargs, List.forall_mem_nil _⟩)
  cases args with
  | list vs => exact hcall n cx f vs hcx hf (Value.fits_list_iff.mp hargs)
  | _ => exact hone

/-- A call in a new frame. -/
theorem obeys_nested : Meaning.Obeys D nested := by
  intro call hcall n cx args hcx hargs
  refine (admits_takeArgument hargs).bind fun k hk ⟨f, rest⟩ ⟨hf, _⟩ => ?_
  refine (Admits.of_result _).andThen fun _ => ?_
  have hheld : D.Held k cx.frame := D.held_of_open (D.open_mono hk hcx.frame)
  refine (Admits.nest hheld).bind fun k' hk' frame hframe => ?_
  have hcx' : D.Runs k' { cx with frame } := ⟨hframe, hcx.watch_eq⟩
  exact hcall k' { cx with frame } f [] hcx' (hf.of_le hk') (List.forall_mem_nil _)

/-- What is told of a closure or a function has no closures in it. -/
theorem fits_info {n : Nat} (v : Value) : D.Fits n (info v) := by
  cases v with
  | closure c => exact Value.hereditary_fits.ofString? _
  | function f =>
    refine Value.fits_list_iff.mpr fun w hw => ?_
    simp only [List.mem_cons, List.not_mem_nil, or_false] at hw
    rcases hw with rfl | rfl | rfl
    · exact fits_simple rfl
    · exact fits_simple rfl
    · cases f.most <;> exact fits_simple rfl
  | _ => exact fits_simple rfl

/-- **The standard functions** keep to a discipline, where this is known of the five that read or change
the variables of their caller. -/
theorem obeys_of_mem_standardTable {X : String → Prop}
    (hlookup : X "lookup" → (unary lookupVariable).Obeys D)
    (hlocal : X "local" → (unary isLocal).Obeys D)
    (hdeclare : X "declare" → (binary declareVariable).Obeys D)
    (hmutate : X "mutate" → (binary mutateVariable).Obeys D)
    (hframes : X "frames" → (parameterless frames).Obeys D) {p : String × Meaning}
    (hp : p ∈ standardTable) (hname : X p.1) : p.2.Obeys D := by
  have hpure : ∀ f : Context → Value → Value, (∀ n cx v, D.Fits n (f cx v)) →
      (unary fun cx v => pure (f cx v)).Obeys D :=
    fun f hf => obeys_unary fun n cx v _ _ => .pure fun k _ => hf k cx v
  have hmap : ∀ {α : Type} (f : Context → Value → Except Error α) (g : α → Value),
      (∀ a, (g a).kind.isSimple = true) →
      (unary fun cx v => Eval.result (f cx v) >>= fun a => pure (g a)).Obeys D :=
    fun f g hg => obeys_unary fun n cx v _ _ =>
      (Admits.of_result _).andThen fun a => .simple (hg a)
  -- the rest of the table goes by entries, in its order
  have htable : ∀ p ∈ standardTable, X p.1 → Meaning.Obeys D p.2 := by
    simp only [standardTable, List.forall_mem_cons]
    refine ⟨fun _ => obeys_note, fun _ => ?first, hlookup, hlocal, hdeclare, hmutate, hframes,
      fun _ => ?check,
      fun _ => obeys_iterate, fun _ => ?add, fun _ => ?equals, fun _ => ?index, fun _ => ?same,
      fun _ => ?select, fun _ => hmap _ _ fun _ => rfl, fun _ => hmap _ _ fun _ => rfl,
      fun _ => hmap _ _ fun _ => rfl, fun _ => hpure _ fun _ _ _ => fits_simple rfl,
      fun _ => hpure _ fun _ _ _ => fits_simple rfl, fun _ => hpure _ fun _ _ _ => fits_simple rfl,
      fun _ => hpure _ fun _ _ _ => fits_simple rfl, fun _ => obeys_apply, fun _ => obeys_nested,
      fun _ => hpure _ fun _ _ v => fits_info v, fun _ => ?list, fun _ => ?strings, fun _ => ?count,
      List.forall_mem_nil _⟩
    case first =>
      intro call hcall n cx args hcx hargs
      exact (admits_takeArgument hargs).bind fun _ _ p hp => .pure fun _ => hp.1.of_le
    case check =>
      exact obeys_parameterless fun n cx hcx => (Admits.check hcx "host").andThen fun _ => .simple rfl
    case add =>
      exact obeys_binary fun n cx v w _ hv hw => .result fun _ hk =>
        Value.hereditary_fits.gives_add (hv.of_le hk) (hw.of_le hk)
    case equals =>
      exact obeys_binary fun n cx v w _ _ _ => (Admits.of_result _).andThen fun _ => .simple rfl
    case index =>
      exact obeys_binary fun n cx v w _ hv _ => .result fun _ hk =>
        Value.hereditary_fits.gives_index cx.graphs (hv.of_le hk) w
    case same => exact obeys_binary fun n cx v w _ _ _ => .simple rfl
    case select =>
      exact obeys_binary fun n cx v w _ _ _ => (Admits.of_result _).andThen fun x => .select cx v x
    case list =>
      exact fun call hcall n cx args hcx hargs => .pure fun _ hk =>
        Value.fits_list_iff.mpr (fits_of_le hargs hk)
    case strings =>
      exact fun call hcall n cx args hcx hargs => (Admits.of_result _).andThen fun _ => .simple rfl
    case count => exact fun call hcall n cx args hcx hargs => .simple rfl
  exact htable p hp hname

end Host

end GraphQuery
