import GraphQuery.Proofs.Script.Origin

/-!
# The parts of an expression

An expression has the expressions right below it as its **children**, and what can be reached through
children are its **parts**. Some notions are built on this:

* an expression is **named** (`Expr.Named`) if every assignment in it has a bare name on its left, so
  that the name it binds can be told without running it;
* the names that an expression **assigns** (`Expr.assigned`) are those on the left of the assignments
  outside its blocks and closures, which are the ones that run in the frame of the expression;
* the names that an expression **mentions** (`Expr.Mentions`) are those of all its variables, targets and
  parameters;
* an expression is **well targeted** (`Expr.WellTargeted`) if it is named and its targets stand nowhere
  but on the left of assignments, so that none of its values is a target.

## Main statements

* `Expr.named_erase`: being named does not depend on annotations.
* `named_of_parse`: scripts are named, and so is the code that is made of them.
* `Expr.wellTargeted_erase`, `ReadFrom.wellTargeted`: the same for being well targeted.
* `Expr.mentions_toCode`: code mentions what its tree does.
-/

namespace GraphQuery

namespace Expr

variable {L S : Type}

/-- The expressions right below an expression. -/
def children : Expr L S → List (Expr L S)
  | .null | .bool _ | .number _ | .string _ | .variable .. | .target .. => []
  | .assign t v _ => [t, v]
  | .select b _ _ => [b]
  | .index b i _ => [b, i]
  | .and l r => [l, r]
  | .or l r => [l, r]
  | .not e => [e]
  | .equality l r _ => [l, r]
  | .call f as _ => f :: as
  | .closure _ _ b => [b]
  | .statements es => es
  | .block es => es

/-- One expression is another one, or a part of one of its children. -/
inductive Part (e : Expr L S) : Expr L S → Prop where
  | self : Part e e
  | under {c whole : Expr L S} (child : c ∈ whole.children) (part : Part e c) : Part e whole

theorem Part.trans {e f g : Expr L S} (h₁ : Part e f) (h₂ : Part f g) : Part e g := by
  induction h₂ with
  | self => exact h₁
  | under hchild _ ih => exact .under hchild ih

/-- Every assignment in the expression has a bare name on its left. -/
def Named (e : Expr L S) : Prop :=
  ∀ t v l, Part (.assign t v l) e → ∃ x m, t = .target x m

/-- Being named is inherited by parts. -/
theorem Named.part {e f : Expr L S} (h : f.Named) (hpart : Part e f) : e.Named :=
  fun t v l ht => h t v l (ht.trans hpart)

theorem Named.child {c e : Expr L S} (h : e.Named) (hc : c ∈ e.children) : c.Named :=
  h.part (.under hc .self)

/-! ### Annotations -/

theorem eraseAll_eq_map (es : List (Expr L S)) : eraseAll es = es.map erase := by
  induction es with
  | nil => rfl
  | cons e es ih => rw [eraseAll, ih, List.map_cons]

/-- The children of an erased expression are its children, erased. -/
theorem children_erase (e : Expr L S) : e.erase.children = e.children.map erase := by
  cases e <;> simp [erase, children, eraseAll_eq_map]

/-- Parts stay parts when annotations are erased. -/
theorem Part.erase {e f : Expr L S} (h : Part e f) : Part e.erase f.erase := by
  induction h with
  | self => exact .self
  | @under c whole hchild _ ih =>
    refine .under ?_ ih
    rw [children_erase]
    exact List.mem_map_of_mem hchild

/-- The parts of an erased expression are erased parts. -/
theorem exists_part_of_erase {p : Expr Unit Unit} {e : Expr L S} (h : Part p e.erase) :
    ∃ q, Part q e ∧ q.erase = p := by
  -- the induction is on the parts of the erased expression, which has to be a variable
  generalize hf : e.erase = f at h
  induction h generalizing e with
  | self => exact ⟨e, .self, hf⟩
  | @under c whole hchild _ ih =>
    subst hf
    rw [children_erase, List.mem_map] at hchild
    obtain ⟨d, hd, rfl⟩ := hchild
    obtain ⟨q, hq, rfl⟩ := ih rfl
    exact ⟨q, .under hd hq, rfl⟩

/-- Only targets are erased to targets, and their names stay. -/
theorem erase_eq_target {t : Expr L S} {x : String} {u : Unit} (h : t.erase = .target x u) :
    ∃ m, t = .target x m := by
  cases t <;> simp [erase] at h
  exact ⟨_, by rw [h]⟩

/-- Only assignments are erased to assignments. -/
theorem erase_eq_assign {e : Expr L S} {t v : Expr Unit Unit} {u : Unit}
    (h : e.erase = .assign t v u) : ∃ t' v' l, e = .assign t' v' l ∧ t'.erase = t := by
  cases e <;> simp [erase] at h
  exact ⟨_, _, _, rfl, h.1⟩

/-- **Being named does not depend on annotations.** -/
theorem named_erase (e : Expr L S) : e.erase.Named ↔ e.Named := by
  constructor
  · intro h t v l hpart
    -- the assignment is a part of the erased expression once it is erased itself
    obtain ⟨x, m, hx⟩ := h _ _ _ hpart.erase
    obtain ⟨m, rfl⟩ := erase_eq_target hx
    exact ⟨x, m, rfl⟩
  · intro h t v l hpart
    obtain ⟨q, hq, hqe⟩ := exists_part_of_erase hpart
    obtain ⟨t', v', l', rfl, rfl⟩ := erase_eq_assign hqe
    obtain ⟨x, m, rfl⟩ := h _ _ _ hq
    exact ⟨x, (), rfl⟩

/-- Making code of an expression leaves it named. -/
theorem named_toCode (e : Expr L S) (n : Nat) : (e.toCode n).1.Named ↔ e.Named := by
  rw [← named_erase, erase_toCode, named_erase]

/-! ### The names that an expression assigns -/

/-- The name that a target stands for. -/
def targetName? : Expr L S → Option String
  | .target x _ => some x
  | _ => none

mutual

/-- The names on the left of the assignments outside blocks and closures. -/
def assigned : Expr L S → List String
  | .null | .bool _ | .number _ | .string _ | .variable .. | .target .. => []
  | .assign t v _ => t.targetName?.toList ++ t.assigned ++ v.assigned
  | .select b _ _ => b.assigned
  | .index b i _ => b.assigned ++ i.assigned
  | .and l r => l.assigned ++ r.assigned
  | .or l r => l.assigned ++ r.assigned
  | .not e => e.assigned
  | .equality l r _ => l.assigned ++ r.assigned
  | .call f as _ => f.assigned ++ assignedAll as
  | .closure .. => []
  | .statements es => assignedAll es
  | .block _ => []

/-- The names that several expressions assign. -/
def assignedAll : List (Expr L S) → List String
  | [] => []
  | e :: es => e.assigned ++ assignedAll es

end

/-! ### The names that an expression mentions -/

mutual

/-- The names of the variables, of the targets and of the parameters in an expression. -/
def names : Expr L S → List String
  | .null | .bool _ | .number _ | .string _ => []
  | .variable x _ => [x]
  | .target x _ => [x]
  | .assign t v _ => t.names ++ v.names
  | .select b _ _ => b.names
  | .index b i _ => b.names ++ i.names
  | .and l r => l.names ++ r.names
  | .or l r => l.names ++ r.names
  | .not e => e.names
  | .equality l r _ => l.names ++ r.names
  | .call f as _ => f.names ++ namesAll as
  | .closure _ p b => p.toList ++ b.names
  | .statements es => namesAll es
  | .block es => namesAll es

/-- The names in several expressions. -/
def namesAll : List (Expr L S) → List String
  | [] => []
  | e :: es => e.names ++ namesAll es

end

/-- The name is that of a variable, of a target or of a parameter in the expression. -/
def Mentions (x : String) (e : Expr L S) : Prop := x ∈ e.names

instance (x : String) (e : Expr L S) : Decidable (e.Mentions x) :=
  inferInstanceAs (Decidable (x ∈ e.names))

mutual

/-- Names are no annotations, so erasing does not change them. -/
theorem names_erase (e : Expr L S) : e.erase.names = e.names := by
  -- a case for each constructor: `names` is a fold over the tree, like `erase`
  cases e with
  | null | bool | number | string | «variable» | target => rfl
  | assign t v l => rw [erase, names, names, names_erase t, names_erase v]
  | select b s l => rw [erase, names, names, names_erase b]
  | index b i l => rw [erase, names, names, names_erase b, names_erase i]
  | and l r => rw [erase, names, names, names_erase l, names_erase r]
  | or l r => rw [erase, names, names, names_erase l, names_erase r]
  | not e => rw [erase, names, names, names_erase e]
  | equality l r b => rw [erase, names, names, names_erase l, names_erase r]
  | call f as l => rw [erase, names, names, names_erase f, namesAll_eraseAll as]
  | closure s p b => rw [erase, names, names, names_erase b]
  | statements es => rw [erase, names, names, namesAll_eraseAll es]
  | block es => rw [erase, names, names, namesAll_eraseAll es]

/-- The same for several expressions. -/
theorem namesAll_eraseAll (es : List (Expr L S)) : namesAll (eraseAll es) = namesAll es := by
  cases es with
  | nil => rfl
  | cons e es => rw [eraseAll, namesAll, namesAll, names_erase e, namesAll_eraseAll es]

end

/-- Which names are mentioned does not depend on annotations. -/
theorem mentions_toCode (x : String) (e : Expr L S) (n : Nat) :
    (e.toCode n).1.Mentions x ↔ e.Mentions x := by
  unfold Mentions
  rw [← names_erase, erase_toCode, names_erase]

/-- What an expression names is named by every list that it is in. -/
theorem names_subset_namesAll {e : Expr L S} {es : List (Expr L S)} (he : e ∈ es) :
    e.names ⊆ namesAll es := by
  induction he with
  | head => exact List.subset_append_left _ _
  | tail _ _ ih => exact List.subset_append_of_subset_right _ ih

/-- What a child mentions is mentioned by the expression. -/
theorem Mentions.of_child {x : String} {c e : Expr L S} (h : c.Mentions x) (hc : c ∈ e.children) :
    e.Mentions x := by
  have hall : ∀ es : List (Expr L S), c ∈ es → x ∈ namesAll es :=
    fun es hc => names_subset_namesAll hc h
  -- the names are those of the children in order, up to the parameter of a closure
  cases e with
  | null | bool | number | string | «variable» | target => exact absurd hc List.not_mem_nil
  | statements es => exact hall es hc
  | block es => exact hall es hc
  | call f as l =>
    rcases List.mem_cons.mp hc with rfl | hc
    · exact List.mem_append_left _ h
    · exact List.mem_append_right _ (hall as hc)
  | closure s p b =>
    obtain rfl := List.mem_singleton.mp hc
    exact List.mem_append_right _ h
  | select b s l =>
    obtain rfl := List.mem_singleton.mp hc
    exact h
  | not e =>
    obtain rfl := List.mem_singleton.mp hc
    exact h
  | assign | index | and | or | equality =>
    rcases List.mem_cons.mp hc with rfl | hc
    · exact List.mem_append_left _ h
    · obtain rfl := List.mem_singleton.mp hc
      exact List.mem_append_right _ h

/-! ### The places of targets -/

/-- Targets and assignments. -/
def isBinding : Expr L S → Bool
  | .target .. | .assign .. => true
  | _ => false

/-- Targets stand on the left of assignments and nowhere else, and nothing else stands there. -/
inductive WellTargeted : Expr L S → Prop where
  | assign {x : String} {m l : L} {v : Expr L S} (value : WellTargeted v) :
      WellTargeted (.assign (.target x m) v l)
  | other {e : Expr L S} (form : e.isBinding = false) (children : ∀ c ∈ e.children, WellTargeted c) :
      WellTargeted e

namespace WellTargeted

/-- The children are well targeted, apart from those of assignments. -/
theorem child {c e : Expr L S} (h : e.WellTargeted) (he : e.isBinding = false)
    (hc : c ∈ e.children) : c.WellTargeted := by
  cases h with
  | assign => exact nomatch he
  | other _ hchildren => exact hchildren c hc

/-- An assignment that is well targeted has a target on its left and a value that is well targeted. -/
theorem of_assign {t v : Expr L S} {l : L} (h : WellTargeted (.assign t v l)) :
    (∃ x m, t = .target x m) ∧ v.WellTargeted := by
  cases h with
  | assign hv => exact ⟨⟨_, _, rfl⟩, hv⟩
  | other hform => exact nomatch hform

/-- A target on its own is not well targeted. -/
theorem not_target {x : String} {m : L} : ¬ WellTargeted (.target x m : Expr L S) := by
  intro h
  cases h with
  | other hform => exact nomatch hform

/-- The parts are well targeted too, unless they are targets. -/
theorem part {p e : Expr L S} (h : e.WellTargeted) (hpart : Part p e) :
    p.WellTargeted ∨ ∃ x m, p = .target x m := by
  induction hpart with
  | self => exact Or.inl h
  | @under c whole hchild hpart ih =>
    cases h with
    | other _ hchildren => exact ih (hchildren c hchild)
    | @assign x m l v hv =>
      rcases List.mem_cons.mp hchild with rfl | hchild
      · -- a target has no parts but itself
        cases hpart with
        | self => exact Or.inr ⟨x, m, rfl⟩
        | under hchild => exact absurd hchild List.not_mem_nil
      · exact ih (List.mem_singleton.mp hchild ▸ hv)

end WellTargeted

theorem isBinding_erase (e : Expr L S) : e.erase.isBinding = e.isBinding := by
  cases e <;> rfl

/-- Being well targeted is kept when annotations are erased. -/
theorem WellTargeted.erase {e : Expr L S} (h : e.WellTargeted) : e.erase.WellTargeted := by
  induction h with
  | assign _ ih => exact .assign ih
  | @other e hform _ ih =>
    refine .other ((isBinding_erase e).trans hform) fun c hc => ?_
    rw [children_erase, List.mem_map] at hc
    obtain ⟨d, hd, rfl⟩ := hc
    exact ih d hd

/-- An expression is well targeted if it is so without its annotations. -/
theorem WellTargeted.of_erase {e : Expr L S} (h : e.erase.WellTargeted) : e.WellTargeted := by
  -- the induction is on the erased expression, which has to be a variable
  generalize hf : e.erase = f at h
  induction h generalizing e with
  | @assign x m l v _ ih =>
    cases e <;> simp only [Expr.erase, reduceCtorEq, Expr.assign.injEq] at hf
    obtain ⟨ht, hv, -⟩ := hf
    obtain ⟨m, rfl⟩ := erase_eq_target ht
    exact .assign (ih hv)
  | other hform _ ih =>
    subst hf
    refine .other ((isBinding_erase e).symm.trans hform) fun c hc => ?_
    refine ih c.erase ?_ rfl
    rw [children_erase]
    exact List.mem_map_of_mem hc

/-- **Being well targeted does not depend on annotations.** -/
theorem wellTargeted_erase (e : Expr L S) : e.erase.WellTargeted ↔ e.WellTargeted :=
  ⟨.of_erase, .erase⟩

/-- Making code of an expression leaves it well targeted. -/
theorem wellTargeted_toCode (e : Expr L S) (n : Nat) :
    (e.toCode n).1.WellTargeted ↔ e.WellTargeted := by
  rw [← wellTargeted_erase, erase_toCode, wellTargeted_erase]

end Expr

/-! ### Scripts -/

/-- A source can be read if something is known of its tree. -/
theorem exists_tree_of_map {α : Type} {source : String} {f : Tree → α} {a : α}
    (h : (parse source).toOption.map f = some a) : ∃ tree, parse source = .ok tree ∧ f tree = a := by
  rcases hparse : parse source with e | tree
  · rw [hparse] at h
    exact nomatch h
  · rw [hparse] at h
    exact ⟨tree, rfl, Option.some.inj h⟩

/-- The target of an assignment in the text at `o`. -/
inductive TargetFrom (o : Cursor) : Tree → Prop where
  | target {c : Cursor} {x : String} (reached : o.Reaches c) (found : c.HasName x) :
      TargetFrom o (.target x c.location)

/-- The children of a tree that comes from a text do so too, unless they are targets. -/
theorem ReadFrom.children {o : Cursor} {tree : Tree} (h : ReadFrom o tree) :
    ∀ e ∈ tree.children, ReadFrom o e ∨ TargetFrom o e := by
  cases h with
  | assign hreached hfound hv =>
    intro e he
    rcases List.mem_cons.mp he with rfl | he
    · exact Or.inr (.target hreached hfound)
    · exact Or.inl (List.mem_singleton.mp he ▸ hv)
  | _ => grind [Expr.children]

/-- **The parts of a tree** that comes from a text do so too, unless they are targets. -/
theorem ReadFrom.part {o : Cursor} {e tree : Tree} (hpart : e.Part tree) (h : ReadFrom o tree) :
    ReadFrom o e ∨ TargetFrom o e := by
  induction hpart with
  | self => exact Or.inl h
  | under hchild hpart ih =>
    rcases h.children _ hchild with h | h
    · exact ih h
    · -- a target has no parts but itself
      cases h with
      | target hreached hfound =>
        cases hpart with
        | self => exact Or.inr (.target hreached hfound)
        | under hchild => exact absurd hchild List.not_mem_nil

/-- **Scripts are named**: the grammar has no other assignments. -/
theorem ReadFrom.named {o : Cursor} {tree : Tree} (h : ReadFrom o tree) : tree.Named := by
  intro t v l hpart
  -- only the rule for assignments has an assignment as its tree, and a target is none
  rcases h.part hpart with h | h
  · cases h with
    | assign => exact ⟨_, _, rfl⟩
  · cases h

/-- The code of a script is named, and so are its parts. -/
theorem named_of_parse {source : String} {tree : Tree} (h : parse source = .ok tree) (n : Nat)
    {e : Code} (he : e.Part (tree.toCode n).1) : e.Named :=
  ((Expr.named_toCode tree n).mpr (readFrom_of_parse h).named).part he

/-- **Scripts are well targeted**: the grammar has targets on the left of assignments only. -/
theorem ReadFrom.wellTargeted {o : Cursor} {tree : Tree} (h : ReadFrom o tree) :
    tree.WellTargeted := by
  induction h with
  | assign _ _ _ ih => exact .assign ih
  -- the other rules have no targets right below them, so their children are all that counts
  | _ => exact .other rfl (by simp_all [Expr.children])

end GraphQuery
