import GraphQuery.Host.Standard
import GraphQuery.Proofs.Eval.Parametric

/-!
# The standard functions of a host do not see names

The standard functions print values, compare them, read and write variables, and call. None of them shows
the number of a frame or of a function: what they print has no such numbers in it, comparisons only tell
whether two functions or two closures are the same, and variables are reached through the frame of the
caller. So they are parametric (`Host.standard_parametric`), and evaluations with them do the same under
other names.

## Main statements

* `Renaming.Rel.eq_of`: functions of values in which names do not occur.
* `Renaming.Rel.same_eq`, `Renaming.Stores.assign?`, `Renaming.Stores.debug_eq`: comparisons, variables and
  frames as text.
* `Host.standard_parametric`: all standard functions.
-/

namespace GraphQuery

/-- Kinds of values with names and kinds of values without are different. -/
theorem Kind.ne_of_isNameless {k l : Kind} (hk : k.isNameless = true) (hl : l.isNameless = false) :
    k ≠ l := by
  rintro rfl
  exact Bool.false_ne_true (hl.symm.trans hk)

/-- Values of different kinds are different. -/
theorem Value.same_of_kind_ne (gs : Graphs) {v u : Value} (h : v.kind ≠ u.kind) :
    v.same gs u = false := by
  unfold Value.same
  split
  case h_13 => rfl
  -- wherever something is compared, the kinds are the same
  all_goals exact absurd rfl h

namespace Renaming

variable {w : Renaming}

/-! ### Texts of values -/

/-- A function of values that names have no part in: it is the same for functions and for closures that
differ in nothing but names, and what it gives for a list depends on what it gives for the members. -/
theorem Rel.eq_of {β : Type} (f : Value → β) (all : List Value → List β) (g : List β → β)
    (hcons : ∀ v vs, all (v :: vs) = f v :: all vs)
    (hlist : ∀ vs, f (.list vs) = g (all vs))
    (hfunction : ∀ (k : Function) i, f (.function k) = f (.function { k with identity := i }))
    (hclosure : ∀ (c : Closure) frame, f (.closure c) = f (.closure { c with frame })) {v v' : Value}
    (h : w.Rel v v') : f v = f v' := by
  induction h using Rel.elim with
  | nameless => rfl
  | list vs vs' h ih =>
    have hmembers : all vs = all vs' := by
      -- of the related values it is forgotten that they are related, so that the induction is on the
      -- members alone
      clear h
      induction ih with
      | nil => rfl
      | cons hv _ ih => rw [hcons, hcons, hv.2, ih]
    rw [hlist, hlist, hmembers]
  | function k i' h => exact hfunction k i'
  | closure site parameter body frame frame' h => exact hclosure _ frame'

namespace Rel

variable {v v' u u' : Value}

/-- Printing shows no names. -/
theorem display_eq (gs : Graphs) (h : w.Rel v v') : v.display gs = v'.display gs :=
  h.eq_of (Value.display gs) (Value.displayAll gs) Value.bracketList (fun _ _ => rfl)
    (fun _ => rfl) (fun _ _ => rfl) fun _ _ => rfl

/-- Neither does a value as JSON. -/
theorem json_eq (gs : Graphs) (h : w.Rel v v') : v.json gs = v'.json gs :=
  congrArg Json.compact (h.eq_of (Value.toJson gs) (Value.toJsonAll gs) Json.array
    (fun _ _ => rfl) (fun _ => rfl) (fun _ _ => rfl) fun _ _ => rfl)

/-- Neither does the form for debugging. -/
theorem debug_eq (gs : Graphs) (h : w.Rel v v') : v.debug gs = v'.debug gs :=
  h.eq_of (Value.debug gs) (Value.debugAll gs)
    (fun parts => Value.debugCall "List" (Value.bracketList parts)) (fun _ _ => rfl)
    (fun _ => rfl) (fun _ _ => rfl) fun _ _ => rfl

/-! ### Comparisons and collections -/

/-- Closures from the same literal stay the same, or stay different. -/
theorem closure_same_eq {c c' d d' : Closure} (h : w.Rel (.closure c) (.closure c'))
    (hd : w.Rel (.closure d) (.closure d')) : c.same d = c'.same d' := by
  cases h with
  | nameless h => exact absurd h Bool.false_ne_true
  | closure h =>
    cases hd with
    | nameless h => exact absurd h Bool.false_ne_true
    | closure hd =>
      unfold Closure.same
      -- a closure whose frame has not been told is only compared by its literal
      cases h with
      | none =>
        cases hd with
        | none => rfl
        | some => rfl
      | some hf =>
        cases hd with
        | none => rfl
        | some hg => simp only [Option.some.injEq, w.frame_iff hf hg]

/-- Values of different kinds are different under all names. -/
theorem same_eq_of_kind_ne (gs : Graphs) (h : w.Rel v v') (hu : w.Rel u u') (hk : v.kind ≠ u.kind) :
    v.same gs u = v'.same gs u' := by
  rw [Value.same_of_kind_ne gs hk, Value.same_of_kind_ne gs (h.kind_eq ▸ hu.kind_eq ▸ hk)]

/-- **The equality that a host sees.** Different names stay different. -/
theorem same_eq (gs : Graphs) (h : w.Rel v v') (hu : w.Rel u u') : v.same gs u = v'.same gs u' := by
  -- The induction is on the first value; the second is of the same kind, or the two differ under all
  -- names.
  induction h using Rel.elim generalizing u u' with
  | nameless v h =>
    have hdiffer := fun hk => (Rel.nameless h).same_eq_of_kind_ne gs hu hk
    cases hu with
    | nameless => rfl
    | list => exact hdiffer (Kind.ne_of_isNameless h rfl)
    | function => exact hdiffer (Kind.ne_of_isNameless h rfl)
    | closure => exact hdiffer (Kind.ne_of_isNameless h rfl)
  | list vs vs' h ih =>
    cases hu with
    | nameless hu =>
      exact (Rel.list h).same_eq_of_kind_ne gs (.nameless hu) (Kind.ne_of_isNameless hu rfl).symm
    | function => rfl
    | closure => rfl
    | @list us us' hus =>
      rw [Value.same, Value.same]
      clear h
      -- member by member: lists of different lengths are different on both sides
      induction ih generalizing us us' with
      | nil =>
        cases hus with
        | nil => rfl
        | cons => rfl
      | cons hv _ ih =>
        cases hus with
        | nil => rfl
        | cons hu hus =>
          obtain ⟨-, hsame⟩ := hv
          rw [Value.sameAll, Value.sameAll, hsame hu, ih hus]
  | function f i' h =>
    cases hu with
    | nameless hu =>
      exact (Rel.function h).same_eq_of_kind_ne gs (.nameless hu) (Kind.ne_of_isNameless hu rfl).symm
    | list => rfl
    | closure => rfl
    | function hg => simp only [Value.same, w.function_iff h hg]
  | closure site parameter body frame frame' h =>
    cases hu with
    | nameless hu =>
      exact (Rel.closure h).same_eq_of_kind_ne gs (.nameless hu) (Kind.ne_of_isNameless hu rfl).symm
    | list => rfl
    | function => rfl
    | closure hd => exact closure_same_eq (.closure h) (.closure hd)

/-- **Joining collections.** -/
theorem add (h : w.Rel v v') (hu : w.Rel u u') : Agree w.Rel (v.add u) (v'.add u') := by
  cases h with
  | @nameless v h =>
    -- an error shows the kinds of both values, which are the same under other names
    cases hu with
    | @nameless u hu =>
      cases v with
      | strings ss =>
        cases u with
        | strings ts => exact .ok (.nameless rfl)
        | _ => exact .error _
      | nodes ns =>
        cases u with
        | null => exact .ok (.nameless rfl)
        | nodes ms => exact .ok (.nameless rfl)
        | _ => exact .error _
      | edges es =>
        cases u with
        | null => exact .ok (.nameless rfl)
        | edges fs => exact .ok (.nameless rfl)
        | _ => exact .error _
      | list => exact absurd h Bool.false_ne_true
      | _ => exact .error _
    | _ =>
      cases v with
      | list => exact absurd h Bool.false_ne_true
      | _ => exact .error _
  | list h =>
    cases hu with
    | list hus => exact .ok (.list (List.rel_append h hus))
    | @nameless u hu =>
      cases u with
      | list => exact absurd hu Bool.false_ne_true
      | _ => exact .error _
    | _ => exact .error _
  | function => exact .error _
  | closure => exact .error _

/-- The elements of a value, if it has any, correspond one by one. -/
theorem elements? (h : w.Rel v v') :
    Option.Rel (List.Forall₂ w.Rel) v.elements? v'.elements? := by
  -- texts, nodes and edges have elements in which no names occur
  have hmap : ∀ {α : Type} (f : α → Value) (as : List α), (∀ a, (f a).kind.isNameless = true) →
      Option.Rel (List.Forall₂ w.Rel) (some (as.map f)) (some (as.map f)) :=
    fun f as hf => .some (List.forall₂_map_left_iff.mpr (List.forall₂_map_right_iff.mpr
      (List.forall₂_same.mpr fun a _ => .nameless (hf a))))
  cases h with
  | @nameless v h =>
    cases v with
    | string s => exact .some (.cons (.nameless rfl) .nil)
    | strings ss => exact hmap _ _ fun _ => rfl
    | nodes ns => exact hmap _ _ fun _ => rfl
    | edges es => exact hmap _ _ fun _ => rfl
    | list => exact absurd h Bool.false_ne_true
    | _ => exact .none
  | list h => exact .some h
  | function => exact .none
  | closure => exact .none

/-- What can be known about a callable without calling it. -/
theorem info (h : w.Rel v v') : w.Rel (Host.info v) (Host.info v') := by
  cases h with
  | @nameless v h =>
    cases v with
    | function => exact absurd h Bool.false_ne_true
    | closure => exact absurd h Bool.false_ne_true
    | _ => exact .nameless rfl
  | list => exact .nameless rfl
  | @function f =>
    refine .list (.cons (.nameless rfl) (.cons (.nameless rfl) (.cons ?_ .nil)))
    cases f.most with
    | none => exact .nameless rfl
    | some n => exact .nameless rfl
  | closure => exact w.rel_ofString? _

end Rel

/-! ### Variables -/

/-- A frame has variables of the same names. -/
theorem Binding.names_eq {bs bs' : List (String × Value)} (h : List.Forall₂ w.Binding bs bs') :
    bs.map (·.1) = bs'.map (·.1) := by
  induction h with
  | nil => rfl
  | cons hb _ ih => rw [List.map_cons, List.map_cons, hb.1, ih]

namespace Stores

variable {s s' : Store} {f f' : FrameId}

/-- **Changing a variable** where it is bound. -/
theorem assign? (h : w.Stores s s') (hf : w.frame f f') (x : String) {v v' : Value}
    (hv : w.Rel v v') : Option.Rel w.Stores (s.assign? f x v) (s'.assign? f' x v') := by
  have hfind : Option.Rel w.frame ((s.chain f).find? fun g => (s.local? g x).isSome)
      ((s'.chain f').find? fun g => (s'.local? g x).isSome) := by
    -- the chain is made of pairs of corresponding frames, and the search goes along it
    have hchain := h.chain hf
    generalize s.chain f = gs, s'.chain f' = gs' at hchain
    induction hchain with
    | nil => exact .none
    | @cons g g' gs gs' hg _ ih =>
      have hlocal := h.local? hg x
      rw [List.find?_cons, List.find?_cons]
      generalize s.local? g x = v?, s'.local? g' x = v'? at hlocal
      cases hlocal with
      | none => exact ih
      | some _ => exact .some hg
  unfold Store.assign?
  generalize (s.chain f).find? _ = g?, (s'.chain f').find? _ = g'? at hfind
  cases hfind with
  | none => exact .none
  | some hg => exact .some (h.declare hg x hv)

/-- **The frames around a frame as text.** They are shown with the names of their variables. -/
theorem debug_eq (h : w.Stores s s') (hf : w.frame f f') : s.debug f = s'.debug f' := by
  -- one step of the text, so that the induction need not look into it
  obtain ⟨text, htext⟩ : ∃ text : List String → String → String, ∀ (t : Store) g gs,
      t.debugChain (g :: gs) = text ((t.frame g).bindings.map (·.1))
        (if gs.isEmpty then "None" else "Some(" ++ t.debugChain gs ++ ")") := by
    refine ⟨fun names parent => "Scope \x7b names: " ++ quotedList (names.mergeSort fun a b => a ≤ b) ++
      ", parent: " ++ parent ++ " \x7d", fun t g gs => ?_⟩
    cases gs with
    | nil => rfl
    | cons => rfl
  have hchain := h.chain hf
  unfold Store.debug
  generalize s.chain f = gs, s'.chain f' = gs' at hchain
  induction hchain with
  | nil => rfl
  | @cons g g' gs gs' hg hgs ih =>
    have hempty : gs.isEmpty = gs'.isEmpty := by
      cases hgs with
      | nil => rfl
      | cons => rfl
    rw [htext, htext, Binding.names_eq (h.frames hg).bindings, hempty, ih]

end Stores

/-- Reading the states. -/
theorem Matches.read {α β : Type} {P : Renaming → α → β → Prop} {f : State → α} {f' : State → β}
    (h : ∀ w₁, w ≤ w₁ → ∀ s s', w₁.States s s' → P w₁ (f s) (f' s')) :
    w.Matches P (get >>= fun s => Pure.pure (f s)) (get >>= fun s => Pure.pure (f' s)) :=
  .of_apply fun w₁ hw₁ s s' hs => ⟨w₁, _, _, s, s', le_rfl, rfl, rfl, hs, .ok (h w₁ hw₁ s s' hs)⟩

end Renaming

/-! ### The functions -/

namespace Host

open Renaming

/-- The function does the same under other names, as long as the calls that it makes do. -/
def Meaning.Parametric (meaning : Meaning) : Prop :=
  ∀ (w : Renaming) (call call' : Caller), w.Calls call call' → ∀ cx cx', w.Contexts cx cx' →
    ∀ args args' : List Value, List.Forall₂ w.Rel args args' →
      w.Matches Rel (meaning call cx args) (meaning call' cx' args')

/-- Functions that take no arguments. -/
theorem parametric_parameterless {f : Context → Eval Value}
    (hf : ∀ (w : Renaming) cx cx', w.Contexts cx cx' → w.Matches Rel (f cx) (f cx')) :
    (parameterless f).Parametric := by
  intro w call call' _ cx cx' hcx args args' hargs
  unfold parameterless
  rw [noArguments_eq hargs]
  exact (Matches.same _).bind fun w₁ hw₁ _ _ _ => hf w₁ cx cx' (hcx.mono hw₁)

/-- Functions of one argument. To take it apart fails on both sides or on neither. -/
theorem parametric_unary {f : Context → Value → Eval Value}
    (hf : ∀ (w : Renaming) cx cx', w.Contexts cx cx' → ∀ v v', w.Rel v v' →
      w.Matches Rel (f cx v) (f cx' v')) : (unary f).Parametric := by
  intro w call call' _ cx cx' hcx args args' hargs
  refine (Matches.result fun w₁ hw₁ => agree_takeArgument (Rel.forall_mono hw₁ hargs)).bind
    fun w₁ hw₁ ⟨v, rest⟩ ⟨v', rest'⟩ ⟨hv, hrest⟩ => ?_
  dsimp only
  rw [noArguments_eq hrest]
  refine (Matches.same _).bind fun w₂ hw₂ _ _ _ => ?_
  exact hf w₂ cx cx' (hcx.mono (hw₁.trans hw₂)) v v' (hv.mono hw₂)

/-- Functions of two arguments that may call one of them. -/
theorem parametric_calling {f : Caller → Context → Value → Value → Eval Value}
    (hf : ∀ (w : Renaming) call call', w.Calls call call' → ∀ cx cx', w.Contexts cx cx' →
      ∀ v v', w.Rel v v' → ∀ u u', w.Rel u u' → w.Matches Rel (f call cx v u) (f call' cx' v' u')) :
    (calling f).Parametric := by
  intro w call call' hcall cx cx' hcx args args' hargs
  refine (Matches.result fun w₁ hw₁ => agree_takeArgument (Rel.forall_mono hw₁ hargs)).bind
    fun w₁ hw₁ ⟨v, rest⟩ ⟨v', rest'⟩ ⟨hv, hrest⟩ => ?_
  refine (Matches.result fun w₂ hw₂ => agree_takeArgument (Rel.forall_mono hw₂ hrest)).bind
    fun w₂ hw₂ ⟨u, rest⟩ ⟨u', rest'⟩ ⟨hu, hrest⟩ => ?_
  dsimp only
  rw [noArguments_eq hrest]
  refine (Matches.same _).bind fun w₃ hw₃ _ _ _ => ?_
  have hw := (hw₁.trans hw₂).trans hw₃
  exact hf w₃ call call' (hcall.mono hw) cx cx' (hcx.mono hw) v v' (hv.mono (hw₂.trans hw₃)) u u'
    (hu.mono hw₃)

/-- Functions of two arguments that call none. -/
theorem parametric_binary {f : Context → Value → Value → Eval Value}
    (hf : ∀ (w : Renaming) cx cx', w.Contexts cx cx' → ∀ v v', w.Rel v v' → ∀ u u', w.Rel u u' →
      w.Matches Rel (f cx v u) (f cx' v' u')) : (binary f).Parametric :=
  parametric_calling fun w _ _ _ => hf w

/-- A function whose value has no names in it, and is the same under other names. -/
theorem parametric_plain {α : Type} {f : Context → Value → Except Error α} {g : α → Value}
    (hg : ∀ a, (g a).kind.isNameless = true)
    (hf : ∀ (w : Renaming) cx cx', w.Contexts cx cx' → ∀ v v', w.Rel v v' → f cx v = f cx' v') :
    (unary fun cx v => Eval.result (f cx v) >>= fun a => pure (g a)).Parametric := by
  refine parametric_unary fun w cx cx' hcx v v' hv => ?_
  rw [hf w cx cx' hcx v v' hv]
  exact (Matches.same _).bind fun w₁ _ a _ ha => ha ▸ .nameless (hg a)

/-- A function that gives a text. -/
theorem parametric_text {text : Graphs → Value → String}
    (htext : ∀ (w : Renaming) gs v v', w.Rel v v' → text gs v = text gs v') :
    (unary fun cx v => pure (.string (text cx.graphs v))).Parametric := by
  refine parametric_unary fun w cx cx' hcx v v' hv => ?_
  rw [hcx.graphs_eq, htext w _ v v' hv]
  exact .nameless rfl

/-- A note is kept as text, which is the same under other names. -/
theorem parametric_note : (unary note).Parametric := by
  refine parametric_unary fun w cx cx' hcx v v' hv => ?_
  refine .of_apply fun w₁ hw₁ s s' hs => ⟨w₁, .ok v, .ok v', _, _, le_rfl, rfl, rfl,
    ⟨hs.store, hs.lt, hs.lt', hs.sites_eq, ?_⟩, .ok (hv.mono hw₁)⟩
  show v.display cx.graphs :: s.notes = v'.display cx'.graphs :: s'.notes
  rw [hcx.graphs_eq, hv.display_eq, hs.notes_eq]

/-- The first argument is what is given back. -/
theorem parametric_first : first.Parametric := by
  intro w call call' _ cx cx' _ args args' hargs
  refine (Matches.result fun w₁ hw₁ => agree_takeArgument (Rel.forall_mono hw₁ hargs)).bind
    fun w₁ _ _ _ h => ?_
  exact .pure fun w₂ hw₂ => h.1.mono hw₂

/-! #### Variables -/

/-- A variable is reached by its name, from the frame of the caller. -/
theorem parametric_lookupVariable : (unary lookupVariable).Parametric := by
  refine parametric_unary fun w cx cx' hcx v v' hv => ?_
  unfold lookupVariable
  -- the name is text, so both sides look up the same one
  rw [hv.toText_eq]
  refine (Matches.same _).bind fun w₁ hw₁ x _ hx => ?_
  obtain rfl := hx
  refine .read fun w₂ hw₂ s s' hs => ?_
  have hget := hs.store.get? ((hw₁.trans hw₂).1 hcx.frame) x
  generalize s.store.get? cx.frame x = u?, s'.store.get? cx'.frame x = u'? at hget
  cases hget with
  | none => exact .nameless rfl
  | some hu => exact hu

/-- Whether a variable belongs to the frame itself can be told under all names. -/
theorem parametric_isLocal : (unary isLocal).Parametric := by
  refine parametric_unary fun w cx cx' hcx v v' hv => ?_
  unfold isLocal
  rw [hv.toText_eq]
  refine (Matches.same _).bind fun w₁ hw₁ x _ hx => ?_
  obtain rfl := hx
  refine .read fun w₂ hw₂ s s' hs => ?_
  have hlocal := hs.store.local? ((hw₁.trans hw₂).1 hcx.frame) x
  generalize s.store.local? cx.frame x = u?, s'.store.local? cx'.frame x = u'? at hlocal
  cases hlocal with
  | none => exact .nameless rfl
  | some _ => exact .nameless rfl

/-- A declaration goes to corresponding frames. -/
theorem parametric_declareVariable : (binary declareVariable).Parametric := by
  refine parametric_binary fun w cx cx' hcx v v' hv u u' hu => ?_
  unfold declareVariable
  rw [hv.toText_eq]
  refine (Matches.same _).bind fun w₁ hw₁ x _ hx => ?_
  obtain rfl := hx
  refine (Matches.declare (hw₁.1 hcx.frame) x (hu.mono hw₁)).bind fun w₂ hw₂ _ _ _ => ?_
  exact .pure fun w₃ hw₃ => hu.mono ((hw₁.trans hw₂).trans hw₃)

/-- A variable is changed in corresponding frames, or it is bound in neither. -/
theorem parametric_mutateVariable : (binary mutateVariable).Parametric := by
  refine parametric_binary fun w cx cx' hcx v v' hv u u' hu => ?_
  unfold mutateVariable
  rw [hv.toText_eq]
  refine (Matches.same _).bind fun w₁ hw₁ x _ hx => ?_
  obtain rfl := hx
  refine .of_apply fun w₂ hw₂ s s' hs => ?_
  have hw := hw₁.trans hw₂
  have hassign := hs.store.assign? (hw.1 hcx.frame) x (hu.mono hw)
  rw [Eval.bind_of_ok (show (get : Eval State) s = _ from rfl),
    Eval.bind_of_ok (show (get : Eval State) s' = _ from rfl)]
  generalize s.store.assign? cx.frame x u = store?, s'.store.assign? cx'.frame x u' = store'?
    at hassign
  cases hassign with
  | none => exact ⟨w₂, _, _, s, s', le_rfl, rfl, rfl, hs, .error _⟩
  | some hstore =>
    exact ⟨w₂, .ok u, .ok u', _, _, le_rfl, rfl, rfl, hs.withStore hstore, .ok (hu.mono hw)⟩

/-- What is shown of frames has no numbers in it. -/
theorem parametric_frames : (parameterless frames).Parametric := by
  refine parametric_parameterless fun w cx cx' hcx => ?_
  refine .read fun w₁ hw₁ s s' hs => ?_
  rw [hs.store.debug_eq (hw₁.1 hcx.frame)]
  exact .nameless rfl

/-! #### Calls -/

/-- Calls for the members of a list, with the results added up. The names that a call adds are there for the
calls after it. -/
theorem matches_accumulate {w : Renaming} {f f' : Value → Eval Value}
    (hf : ∀ w₁, w ≤ w₁ → ∀ v v', w₁.Rel v v' → w₁.Matches Rel (f v) (f' v')) {total total' : Value}
    (htotal : w.Rel total total') {vs vs' : List Value} (hvs : List.Forall₂ w.Rel vs vs') :
    w.Matches Rel (Value.accumulate f total vs) (Value.accumulate f' total' vs') := by
  -- on the list; the total and the renaming change with each member
  induction vs generalizing w total total' vs' with
  | nil =>
    cases hvs
    exact .pure fun _ hw => htotal.mono hw
  | cons v vs ih =>
    cases hvs with
    | cons hv hvs =>
      refine (hf w le_rfl _ _ hv).bind fun w₁ hw₁ u u' hu => ?_
      have hadd := (htotal.mono hw₁).add hu
      generalize total.add u = sum, total'.add u' = sum' at hadd
      cases hadd with
      | error => exact .throw _
      | ok hsum =>
        exact ih (fun w₂ hw₂ => hf w₂ (hw₁.trans hw₂)) hsum (Rel.forall_mono hw₁ hvs)

/-- Calls for the elements of a collection. -/
theorem parametric_iterate : (calling iterate).Parametric := by
  refine parametric_calling fun w call call' hcall cx cx' hcx v v' hv f f' hf => ?_
  have heach : ∀ w₁, w ≤ w₁ → ∀ e e', w₁.Rel e e' →
      w₁.Matches Rel (call cx f [e]) (call' cx' f' [e']) := fun w₁ hw₁ e e' he =>
    hcall w₁ hw₁ cx cx' (hcx.mono hw₁) f f' (hf.mono hw₁) [e] [e'] (.cons he .nil)
  have helements := hv.elements?
  -- the kind is part of the error that a value without elements gives
  unfold iterate Value.iterate
  rw [hv.kind_eq]
  generalize v.elements? = es?, v'.elements? = es'? at helements
  cases helements with
  | none => exact .throw _
  | some hes =>
    cases hes with
    | nil => exact .nameless rfl
    | cons he hes =>
      -- the sum starts from what the first element gives
      refine (heach w le_rfl _ _ he).bind fun w₁ hw₁ u u' hu => ?_
      exact matches_accumulate (fun w₂ hw₂ => heach w₂ (hw₁.trans hw₂)) hu (Rel.forall_mono hw₁ hes)

/-- A list is passed as the arguments, and anything else as the only argument. -/
theorem parametric_apply : (calling apply).Parametric := by
  refine parametric_calling fun w call call' hcall cx cx' hcx f f' hf args args' hargs => ?_
  have hone : w.Matches Rel (call cx f [args]) (call' cx' f' [args']) :=
    hcall w le_rfl cx cx' hcx f f' hf _ _ (.cons hargs .nil)
  cases hargs with
  | @nameless args h =>
    cases args with
    | list => exact absurd h Bool.false_ne_true
    | _ => exact hone
  | list hvs => exact hcall w le_rfl cx cx' hcx f f' hf _ _ hvs
  | function => exact hone
  | closure => exact hone

/-- A call in a frame of its own, which is new on both sides. -/
theorem parametric_nested : nested.Parametric := by
  intro w call call' hcall cx cx' hcx args args' hargs
  refine (Matches.result fun w₁ hw₁ => agree_takeArgument (Rel.forall_mono hw₁ hargs)).bind
    fun w₁ hw₁ ⟨f, rest⟩ ⟨f', rest'⟩ ⟨hf, hrest⟩ => ?_
  dsimp only
  rw [noArguments_eq hrest]
  refine (Matches.same _).bind fun w₂ hw₂ _ _ _ => ?_
  refine (Matches.nest ((hw₁.trans hw₂).1 hcx.frame)).bind fun w₃ hw₃ g g' hg => ?_
  have hw := (hw₁.trans hw₂).trans hw₃
  exact hcall w₃ hw _ _ ((hcx.mono hw).inFrame hg) f f' (hf.mono (hw₂.trans hw₃)) [] [] .nil

/-! #### All of them -/

/-- Texts are read from the arguments one by one, and the first that is no text is the error. -/
theorem parametric_strings : strings.Parametric := by
  intro w call call' _ cx cx' _ args args' hargs
  have htexts : args.mapM Value.toText = args'.mapM Value.toText := by
    induction hargs with
    | nil => rfl
    | cons hv _ ih => rw [List.mapM_cons, List.mapM_cons, hv.toText_eq, ih]
  unfold strings
  rw [htexts]
  exact (Matches.same _).bind fun w₁ _ ss _ hss => hss ▸ .nameless rfl

/-- **The standard functions** do the same under other names. -/
theorem standard_parametric : standard.Parametric := by
  -- first the functions of the table, by the number of their arguments; the names outside it are
  -- constants
  have htable : ∀ p ∈ standardTable, Meaning.Parametric p.2 := by
    simp only [standardTable, List.forall_mem_cons]
    refine ⟨parametric_note, parametric_first, parametric_lookupVariable, parametric_isLocal,
      parametric_declareVariable, parametric_mutateVariable, parametric_frames, ?check,
      parametric_iterate, ?add, ?equals, ?index, ?same, ?select,
      parametric_plain (fun _ => rfl) ?bool, parametric_plain (fun _ => rfl) ?int,
      parametric_plain (fun _ => rfl) ?string, ?kind,
      parametric_text fun _ gs _ _ hv => hv.display_eq gs,
      parametric_text fun _ gs _ _ hv => hv.json_eq gs,
      parametric_text fun _ gs _ _ hv => hv.debug_eq gs, parametric_apply, parametric_nested, ?info,
      ?list, parametric_strings, ?count, List.forall_mem_nil _⟩
    case check =>
      refine parametric_parameterless fun w cx cx' hcx => ?_
      exact (Matches.check hcx "host").bind fun _ _ _ _ _ => .nameless rfl
    case add =>
      exact parametric_binary fun w cx cx' _ v v' hv u u' hu => .result fun w₁ hw₁ =>
        (hv.mono hw₁).add (hu.mono hw₁)
    case equals =>
      refine parametric_binary fun w cx cx' hcx v v' hv u u' hu => ?_
      rw [hcx.graphs_eq, hv.equals_eq _ hu]
      exact (Matches.same _).bind fun w₁ _ b _ hb => hb ▸ .nameless rfl
    case index =>
      refine parametric_binary fun w cx cx' hcx v v' hv u u' hu => .result fun w₁ hw₁ => ?_
      rw [hcx.graphs_eq]
      exact (hv.mono hw₁).index _ (hu.mono hw₁)
    case same =>
      refine parametric_binary fun w cx cx' hcx v v' hv u u' hu => ?_
      rw [hcx.graphs_eq, hv.same_eq _ hu]
      exact .nameless rfl
    case select =>
      refine parametric_binary fun w cx cx' hcx v v' hv u u' hu => ?_
      rw [hu.toText_eq]
      refine (Matches.same _).bind fun w₁ hw₁ name _ hname => ?_
      obtain rfl := hname
      exact .select (hcx.mono hw₁) (hv.mono hw₁) name
    case bool =>
      intro w cx cx' hcx v v' hv
      rw [hcx.graphs_eq, hv.toBool_eq]
    case int => exact fun w cx cx' _ v v' hv => hv.toInt_eq
    case string => exact fun w cx cx' _ v v' hv => hv.toText_eq
    case kind => exact parametric_text fun _ _ _ _ hv => congrArg Kind.name hv.kind_eq
    case info =>
      exact parametric_unary fun w cx cx' _ v v' hv => .pure fun w₁ hw₁ => (hv.mono hw₁).info
    case list =>
      intro w call call' _ cx cx' _ args args' hargs
      exact .pure fun w₁ hw₁ => .list (Rel.forall_mono hw₁ hargs)
    case count =>
      intro w call call' _ cx cx' _ args args' hargs
      show w.Matches Rel (pure (Value.ofNat args.length)) (pure (Value.ofNat args'.length))
      rw [hargs.length_eq]
      exact .nameless rfl
  intro w call call' hcall cx cx' hcx name args args' hargs
  rcases standard_cases name with ⟨meaning, hmem, heq⟩ | heq
  · rw [heq, heq]
    exact htable _ hmem w call call' hcall cx cx' hcx args args' hargs
  · rw [heq, heq]
    exact .nameless rfl

end Host

end GraphQuery
