import GraphQuery.Proofs.Eval.Discipline

/-!
# Variables that a script does not mention

A variable that is mentioned neither in a script nor in a closure that the script can reach has no
influence on it. Whatever it is bound to, and in whatever frame, the script makes the same contacts with
the world and ends in the same way, and all other variables have the same values afterwards.

Two runs are compared, from stores that agree apart from the variable (`Store.AgreesApart`). They stay so
because the names that are looked up or assigned are all mentioned somewhere. The comparison that a string
stands for is the one thing to be careful about: it looks up a name that no script has mentioned, in a
frame nested in that of its caller. A variable of this name is shadowed there before it can be read.

What the functions of a host do is a parameter, and they are asked not to look at the variable either
(`HostLibrary.Obeys`). All standard functions do without it, except for those that are given the name of
a variable, or show all of them.

## Main statements

* `Discipline.unmentioned`: the discipline of code that does not mention a name.
* `evaluation_unmentioned`: what this says about scripts.
-/

namespace GraphQuery

namespace Store

/-- The stores agree apart from one variable of one frame. -/
structure AgreesApart (frame : FrameId) (name : String) (s t : Store) : Prop where
  /-- There are equally many frames. -/
  size_eq : t.frames.size = s.frames.size
  /-- Frames are enclosed by the same frames. -/
  enclosing_eq : ∀ f, (t.frame f).enclosing = (s.frame f).enclosing
  /-- Frames belong to the same roots. -/
  root_eq : ∀ f, (t.frame f).root = (s.frame f).root
  /-- All other variables have the same values. -/
  local?_eq : ∀ f x, f ≠ frame ∨ x ≠ name → t.local? f x = s.local? f x

namespace AgreesApart

variable {frame : FrameId} {name : String} {s t : Store}

/-- Binding the variable is what the stores may differ in. -/
theorem of_declare (s : Store) (frame : FrameId) (name : String) (v : Value) :
    s.AgreesApart frame name (s.declare frame name v) where
  size_eq := s.size_declare frame name v
  enclosing_eq f := s.enclosing_declare frame f name v
  root_eq f := s.root_declare frame f name v
  local?_eq f x hfx := by
    rw [local?_declare_eq, if_neg]
    rintro ⟨rfl, rfl, -⟩
    -- the pair is the only place that the write reaches
    rcases hfx with h | h
    · exact h rfl
    · exact h rfl

/-- Both stores have the same chains, so that a lookup goes through the same frames. -/
theorem chain_eq (h : s.AgreesApart frame name t) (f : FrameId) : t.chain f = s.chain f :=
  congrArg (f :: ·) (h.enclosing_eq f)

/-- Another variable has the same value from all frames. -/
theorem get?_eq (h : s.AgreesApart frame name t) (f : FrameId) {x : String} (hx : x ≠ name) :
    t.get? f x = s.get? f x := by
  unfold get?
  rw [h.chain_eq f]
  congr 1
  funext g
  exact h.local?_eq g x (Or.inr hx)

/-- Stores that agree apart from a variable do so after the same write, which may be to that variable. -/
theorem declare (h : s.AgreesApart frame name t) (f : FrameId) (x : String) (v : Value) :
    (s.declare f x v).AgreesApart frame name (t.declare f x v) where
  size_eq := by rw [size_declare, size_declare, h.size_eq]
  enclosing_eq g := by rw [enclosing_declare, enclosing_declare, h.enclosing_eq]
  root_eq g := by rw [root_declare, root_declare, h.root_eq]
  local?_eq g z hgz := by
    rw [local?_declare_eq, local?_declare_eq, h.size_eq, h.local?_eq g z hgz]

/-- They do so after a frame has been made, which is the same one in both. -/
theorem nest (h : s.AgreesApart frame name t) (f : FrameId) :
    (s.nest f).2.AgreesApart frame name (t.nest f).2 where
  size_eq := by rw [size_nest, size_nest, h.size_eq]
  enclosing_eq g := by
    rw [frame_nest, frame_nest, h.size_eq]
    split
    · exact h.chain_eq f
    · exact h.enclosing_eq g
  root_eq g := by
    rw [frame_nest, frame_nest, h.size_eq]
    split
    · exact h.root_eq f
    · exact h.root_eq g
  local?_eq g z hgz := by rw [local?_nest, local?_nest, h.local?_eq g z hgz]

end AgreesApart

end Store

/-! ### The discipline -/

/-- Code that does not mention a name, and runs in frames of `W`. The frames that are still to be made
are in `W`. -/
def Discipline.unmentioned (frame : FrameId) (name : String) (W : FrameId → Prop) : Discipline where
  Names x := x ≠ name
  Held _ f := W f
  Open _ f := W f
  Rel s t := s.AgreesApart frame name t ∧ s.Sealed (· ≠ name) W ∧ ∀ f, s.frames.size ≤ f → W f
  held_mono _ hf := hf
  open_mono _ hf := hf
  held_of_open hf := hf
  size_eq h := h.1.size_eq
  get?_eq h _ hx := h.1.get?_eq _ hx
  get?_fits h hf _ hv := h.2.1.get? hf hv
  declare h _ _ hv := by
    obtain ⟨hagree, hsealed, hfresh⟩ := h
    refine ⟨hagree.declare _ _ _, hsealed.declare _ _ hv, fun f hf => hfresh f ?_⟩
    rwa [Store.size_declare] at hf
  nest h hf := by
    obtain ⟨hagree, hsealed, hfresh⟩ := h
    refine ⟨hagree.nest _, hsealed.nest hf (fun _ hg => hg) fun _ => Or.inl, fun f hf => hfresh f ?_⟩
    rw [Store.size_nest] at hf
    exact Nat.le_of_succ_le hf
  parameter x h hf hv := by
    obtain ⟨hagree, hsealed, hfresh⟩ := h
    -- the parameter may have the name in question, as it is bound in the new frame on both sides
    refine ⟨(hagree.nest _).declare _ _ _,
      (hsealed.nest hf (fun _ hg => hg) fun _ => Or.inl).declare _ _ hv, fun f hf => hfresh f ?_⟩
    rw [Store.size_declare, Store.size_nest] at hf
    exact Nat.le_of_succ_le hf
  open_nest h := h.2.2 _ (Nat.le_refl _)

/-! ### Scripts -/

/-- **Variables that a script does not mention have no influence on it.** Let a name be mentioned neither
in a script nor in a closure that can be reached from the frame it runs in, where a name is mentioned if
it is that of a variable, of the target of an assignment or of a parameter; and let the functions of the
host not look at it, nor the log. The name is bound to any value in any frame. Then the script runs out as
it does without this binding, or it ends with the same value or error, after the same checks and calls of
the host. All variables have the same values afterwards, except for this one in this frame. -/
theorem evaluation_unmentioned {source : String} {tree : Tree} (hparse : parse source = .ok tree)
    {host : HostLibrary} {s : State} {cx : Context} {frame : FrameId} {name : String}
    (htree : ¬ tree.Mentions name)
    (hscope : ∀ f, s.store.Reaches (· = cx.frame) f → ∀ x v, s.store.local? f x = some v →
      ∀ c, Value.Inside (.closure c) v → c.literal.Named ∧ ¬ c.literal.Mentions name)
    (hhost : host.Obeys (.unmentioned frame name (s.store.Known (· = cx.frame))))
    (hwatch : ∀ a b : Store, a.AgreesApart frame name b → cx.watch b = cx.watch a)
    (value : Value) (site depth : Nat) :
    let run := (tree.toCode site).1.run host depth cx
    let s' := { s with store := s.store.declare frame name value }
    (run s = none ∧ run s' = none) ∨
    ∃ r t t', run s = some (r, t) ∧ run s' = some (r, t') ∧ t'.log = t.log ∧ t'.notes = t.notes ∧
      t.store.AgreesApart frame name t'.store := by
  intro run s'
  have hsealed : s.store.Sealed (· ≠ name) (s.store.Known (· = cx.frame)) := by
    refine Store.sealed_known fun f hf x v hv c hc => Or.inr ?_
    obtain ⟨hnamed, hmentions⟩ := hscope f hf x v hv c hc
    exact ⟨hnamed, fun z hz heq => hmentions (heq ▸ hz)⟩
  have hcode : (tree.toCode site).1.Minds (· ≠ name) := by
    refine Or.inr ⟨named_of_parse hparse site .self, fun z hz heq => htree ?_⟩
    exact (Expr.mentions_toCode name tree site).mp (heq ▸ hz)
  -- the two runs start from stores that differ in the variable
  have hrelated : (Discipline.unmentioned frame name (s.store.Known (· = cx.frame))).Related s s' :=
    ⟨⟨.of_declare .., hsealed, fun _ => Or.inr⟩, rfl, rfl, rfl, rfl⟩
  have hcx : (Discipline.unmentioned frame name (s.store.Known (· = cx.frame))).Runs 0 cx :=
    ⟨Or.inl (.root rfl), fun a b hab => hwatch a b hab.1⟩
  have hcall := Discipline.call_admits hhost depth
  rcases Discipline.eval_admits hcall hcx _ hcode s s' hrelated (Nat.zero_le _) with
    hnone | ⟨r, t, t', ht, ht', hends, -, -⟩
  · exact Or.inl hnone
  · exact Or.inr ⟨r, t, t', ht, ht', hends.log_eq, hends.notes_eq, hends.store.1⟩

/-- The standard functions that read or change the variables of their caller. -/
def Host.scopeFunctions : List String := ["lookup", "local", "declare", "mutate", "frames"]

/-- The standard functions without those that read or change the variables of their caller. -/
def Host.unscoped : HostLibrary := fun call cx name args =>
  if name ∈ scopeFunctions then return .null else standard call cx name args

/-- Without the functions that name variables by texts, the standard functions keep to every discipline. -/
theorem Host.unscoped_obeys (D : Discipline) : unscoped.Obeys D := by
  intro call hcall n cx name args hcx hargs
  unfold unscoped
  split
  · exact .simple rfl
  · next hname =>
    -- the five functions that are asked for are left out
    have hscope : ∀ {x : String} {Q : Prop}, x ∈ scopeFunctions → x ∉ scopeFunctions → Q :=
      fun hmem hnot => absurd hmem hnot
    rcases standard_cases name with ⟨meaning, hmem, heq⟩ | heq
    · rw [heq]
      refine obeys_of_mem_standardTable (X := (· ∉ scopeFunctions)) (hscope ?_) (hscope ?_) (hscope ?_)
        (hscope ?_) (hscope ?_) hmem hname call hcall n cx args hcx hargs <;> decide
    · rw [heq]
      exact .simple rfl

/-- The name is that of the variable in comparisons with strings. It is bound in a frame around that of
the script, which searches a graph with such a comparison and hands what it finds to the host. -/
theorem evaluation_unmentioned_matching :
    let g := ((({} : Graph).addNode "a").addNode "b").addEdge 0 1 "x"
    let note : Value := .function ⟨0, "note", 1, some 1, .host "record"⟩
    let outer : Frame := ⟨[], 0, [("ns", .ofNode ⟨0, 0⟩), ("note", note)]⟩
    let cx : Context := { graphs := { all := #[g] }, frame := 1 }
    let s : State := { store := { frames := #[outer, ⟨[0], 0, []⟩] } }
    let s' : State := { s with store := s.store.declare 0 "n" (.bool true) }
    ∃ tree, parse "found = ns.firstReachable(\"b\"); note(found.id)" = .ok tree ∧
      ¬ tree.Mentions "n" ∧
      ∃ r t t', (tree.toCode 0).1.run Host.unscoped 2 cx s = some (r, t) ∧
        (tree.toCode 0).1.run Host.unscoped 2 cx s' = some (r, t') ∧
        r.toOption.map Value.kind = some .string ∧ t.log.length = 6 ∧ t'.log = t.log ∧
        t.store.AgreesApart 0 "n" t'.store := by
  intro g note outer cx s s'
  -- the witness is one run, of which the numbers of contacts and the kind of value are computed
  have hends : (parse "found = ns.firstReachable(\"b\"); note(found.id)").toOption.map (fun tree =>
      (decide (tree.Mentions "n"), ((tree.toCode 0).1.run Host.unscoped 2 cx s).map fun p =>
        (p.1.toOption.map Value.kind, p.2.log.length))) =
      some (false, some (some .string, 6)) := by decide +kernel
  obtain ⟨tree, hparse, hboth⟩ := exists_tree_of_map hends
  obtain ⟨hmentions, hsome⟩ := Prod.mk.inj hboth
  obtain ⟨⟨r, t⟩, hrun, hresult⟩ := Option.map_eq_some_iff.mp hsome
  obtain ⟨hkind, hlength⟩ := Prod.mk.inj hresult
  have hmentions : ¬ tree.Mentions "n" := of_decide_eq_false hmentions
  have hsimple : ∀ p ∈ outer.bindings, p.2.kind.isSimple = true := by decide
  -- no closure is bound in the outer frame, and nothing in the inner one
  have hscope : ∀ f, s.store.Reaches (· = cx.frame) f → ∀ x v, s.store.local? f x = some v →
      ∀ c, Value.Inside (.closure c) v → c.literal.Named ∧ ¬ c.literal.Mentions "n" := by
    intro f _ x v hv c hc
    match f with
    | 0 =>
      -- what is bound in the outer frame is a set of nodes and a function
      obtain ⟨before, after, hbindings, -⟩ := List.lookup_eq_some_iff.mp hv
      have hmem : (x, v) ∈ outer.bindings := by
        change (x, v) ∈ (s.store.frame 0).bindings
        rw [hbindings]
        exact List.mem_append_right _ List.mem_cons_self
      have hv := hsimple _ hmem
      obtain rfl := hc.eq_of_isSimple hv
      exact absurd hv Bool.false_ne_true
    | 1 => exact absurd hv.symm (Option.some_ne_none v)
    | f + 2 => exact absurd hv.symm (Option.some_ne_none v)
  have hhost := Host.unscoped_obeys (.unmentioned 0 "n" (s.store.Known (· = cx.frame)))
  rcases evaluation_unmentioned hparse hmentions hscope hhost (fun _ _ _ => rfl) (.bool true) 0 2 with
    ⟨hnone, -⟩ | ⟨r', t₁, t', ht₁, ht', hlog, -, hagree⟩
  · rw [hrun] at hnone
    exact absurd hnone (Option.some_ne_none _)
  · rw [hrun] at ht₁
    obtain ⟨rfl, rfl⟩ := Prod.mk.inj (Option.some.inj ht₁)
    exact ⟨tree, hparse, hmentions, r, t, t', hrun, ht', hkind, hlength, hlog, hagree⟩

end GraphQuery
