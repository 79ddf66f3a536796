import GraphQuery.Host.Standard
import GraphQuery.Proofs.Eval.Compatible

/-!
# Standard functions under uniform relations

The standard functions of a host are made of the same steps as other evaluations, and of three more:
they read the frames of their caller, they write to them, and they take notes. So a uniform relation
holds between calls of a standard function in two evaluations if it holds between steps that depend
on the frames and change nothing else (`Eval.onStore`), and between notes.

## Main statements

* `Uniform.standard`: calls of the standard functions.
-/

namespace GraphQuery

/-! ### Sums over a collection -/

namespace Compatible

variable {R : (α : Type) → Eval α → Eval α → Prop} (hR : Compatible R)

include hR

/-- A sum goes on or fails by the values so far, so it is enough that the function gives related values. -/
theorem accumulate {f f' : Value → Eval Value} (hf : ∀ v, R _ (f v) (f' v)) (total : Value)
    (vs : List Value) : R _ (Value.accumulate f total vs) (Value.accumulate f' total vs) := by
  induction vs generalizing total with
  | nil => exact hR.pure total
  | cons v vs ih =>
    refine hR.bind (hf v) fun w => ?_
    split
    · exact ih _
    · exact hR.throw _

/-- **An iteration** starts the sum with what the first element gives. -/
theorem iterate {f f' : Value → Eval Value} (hf : ∀ v, R _ (f v) (f' v)) (v : Value) :
    R _ (v.iterate f) (v.iterate f') := by
  unfold Value.iterate
  split
  · exact hR.throw _
  · exact hR.pure _
  · exact hR.bind (hf _) fun w => hR.accumulate hf w _

end Compatible

/-- A step that looks at the frames alone, and changes nothing else. -/
def Eval.onStore (f : Store → Except Error Value × Store) : Eval Value :=
  fun s => some ((f s.store).1, { s with store := (f s.store).2 })

/-- Takes a note. -/
def Eval.addNote (text : String) : Eval Unit := modify fun s => { s with notes := text :: s.notes }

namespace Host

open Eval

/-- Calls of the function in two evaluations are related if the calls nested in them are. -/
def Meaning.Respects (R : (α : Type) → Eval α → Eval α → Prop) (cx : Context) (stop : Cancellation)
    (meaning : Meaning) : Prop :=
  ∀ call call' : Caller, Uniform.Calls R cx stop call call' → ∀ frame args,
    R _ (meaning call { cx with frame } args)
      (meaning call' { cx with frame, cancellation := stop } args)

variable {R : (α : Type) → Eval α → Eval α → Prop} {cx : Context} {stop : Cancellation}

/-! ### Parameters -/

section Parameters

variable (hR : Uniform R cx stop)

include hR

/-- A function without arguments. -/
theorem respects_parameterless {f : Context → Eval Value}
    (hf : ∀ frame, R _ (f { cx with frame }) (f { cx with frame, cancellation := stop })) :
    (parameterless f).Respects R cx stop :=
  fun _ _ _ frame _ => hR.bind (hR.result _) fun _ => hf frame

/-- A function of one argument. -/
theorem respects_unary {f : Context → Value → Eval Value}
    (hf : ∀ frame v, R _ (f { cx with frame } v) (f { cx with frame, cancellation := stop } v)) :
    (unary f).Respects R cx stop := by
  intro call call' _ frame args
  -- whether there is one argument is settled before the function starts
  refine hR.bind (hR.result _) fun ⟨v, rest⟩ => ?_
  exact hR.bind (hR.result _) fun _ => hf frame v

/-- A function of two arguments, which makes calls. -/
theorem respects_calling {f : Caller → Context → Value → Value → Eval Value}
    (hf : ∀ call call' : Caller, Uniform.Calls R cx stop call call' → ∀ frame v w,
      R _ (f call { cx with frame } v w) (f call' { cx with frame, cancellation := stop } v w)) :
    (calling f).Respects R cx stop := by
  intro call call' hcall frame args
  refine hR.bind (hR.result _) fun ⟨v, rest⟩ => ?_
  refine hR.bind (hR.result _) fun ⟨w, rest⟩ => ?_
  exact hR.bind (hR.result _) fun _ => hf call call' hcall frame v w

theorem respects_binary {f : Context → Value → Value → Eval Value}
    (hf : ∀ frame v w, R _ (f { cx with frame } v w) (f { cx with frame, cancellation := stop } v w)) :
    (binary f).Respects R cx stop :=
  respects_calling hR fun _ _ _ => hf

end Parameters

/-! ### The scope of the caller -/

/-- A change of a variable is a step that looks at the frames alone. -/
theorem mutateVariable_eq (cx : Context) (v w : Value) :
    mutateVariable cx v w = result v.toText >>= fun x => onStore fun store =>
      match store.assign? cx.frame x w with
      | some store => (.ok w, store)
      | none => (.error (.unknownIdentifier x), store) := by
  unfold mutateVariable
  congr 1
  -- both sides are told apart by whether some frame binds the name
  funext x s
  have hget : (get : Eval State) s = some (.ok s, s) := rfl
  rw [bind_of_ok hget]
  dsimp only [onStore]
  rcases s.store.assign? cx.frame x w with _ | store
  · rfl
  · rfl

section Scope

variable (hR : Uniform R cx stop) (hstore : ∀ f, R _ (onStore f) (onStore f))

include hR hstore

omit hR in
/-- Reading the frames is a step that looks at nothing else. -/
theorem respects_read (f : Store → Value) :
    R _ (get >>= fun s => pure (f s.store)) (get >>= fun s => pure (f s.store)) :=
  hstore fun store => (.ok (f store), store)

theorem respects_lookupVariable : (unary lookupVariable).Respects R cx stop :=
  respects_unary hR fun frame _ => hR.bind (hR.result _) fun x =>
    respects_read hstore fun store => (store.get? frame x).getD .null

theorem respects_isLocal : (unary isLocal).Respects R cx stop :=
  respects_unary hR fun frame _ => hR.bind (hR.result _) fun x =>
    respects_read hstore fun store => .bool (store.local? frame x).isSome

omit hstore in
/-- A variable that is bound by the host. -/
theorem respects_declareVariable : (binary declareVariable).Respects R cx stop :=
  respects_binary hR fun frame _ w => hR.bind (hR.result _) fun x =>
    hR.bind (hR.declare frame x w) fun _ => hR.pure w

/-- A variable that is overwritten by the host, where it is bound. -/
theorem respects_mutateVariable : (binary mutateVariable).Respects R cx stop := by
  refine respects_binary hR fun frame v w => ?_
  rw [mutateVariable_eq, mutateVariable_eq]
  exact hR.bind (hR.result _) fun x => hstore _

/-- The frames of the caller, as a text. -/
theorem respects_frames : (parameterless frames).Respects R cx stop :=
  respects_parameterless hR fun frame =>
    respects_read hstore fun store => .string (store.debug frame)

end Scope

/-! ### Calls -/

section Calls

variable (hR : Uniform R cx stop)

include hR

/-- Iterating over the elements of a value. -/
theorem respects_iterate : (calling iterate).Respects R cx stop :=
  respects_calling hR fun _ _ hcall frame v f =>
    hR.toCompatible.iterate (fun e => hcall frame f [e]) v

/-- A call with the members of a list as arguments. -/
theorem respects_apply : (calling apply).Respects R cx stop := by
  refine respects_calling hR fun call call' hcall frame f args => ?_
  cases args with
  -- a value that is no list is the only argument
  | list vs => exact hcall frame f vs
  | _ => exact hcall frame f [_]

/-- A call in a new frame. -/
theorem respects_nested : Meaning.Respects R cx stop nested := by
  intro call call' hcall frame args
  refine hR.bind (hR.result _) fun ⟨f, rest⟩ => ?_
  refine hR.bind (hR.result _) fun _ => ?_
  exact hR.bind (hR.nest frame) fun inner => hcall inner f []

end Calls

/-- The functions of the table, one by one. -/
theorem respects_of_mem_standardTable (hR : Uniform R cx stop)
    (hstore : ∀ f, R _ (onStore f) (onStore f)) (hnote : ∀ text, R _ (addNote text) (addNote text))
    {p : String × Meaning} (hp : p ∈ standardTable) : p.2.Respects R cx stop := by
  -- the entries that only compute are of three shapes, told apart by what they do with the result
  have hpure : ∀ f : Graphs → Value → Value,
      (unary fun cx v => pure (f cx.graphs v)).Respects R cx stop :=
    fun f => respects_unary hR fun _ _ => hR.pure _
  have hresult : ∀ f : Graphs → Value → Value → Except Error Value,
      (binary fun cx v w => result (f cx.graphs v w)).Respects R cx stop :=
    fun f => respects_binary hR fun _ _ _ => hR.result _
  have hmap : ∀ {α : Type} (f : Graphs → Value → Except Error α) (g : α → Value),
      (unary fun cx v => result (f cx.graphs v) >>= fun a => pure (g a)).Respects R cx stop :=
    fun f g => respects_unary hR fun _ _ => hR.bind (hR.result _) fun _ => hR.pure _
  have htable : ∀ p ∈ standardTable, p.2.Respects R cx stop := by
    simp only [standardTable, List.forall_mem_cons]
    refine ⟨?record, ?first, respects_lookupVariable hR hstore, respects_isLocal hR hstore,
      respects_declareVariable hR, respects_mutateVariable hR hstore, respects_frames hR hstore, ?check,
      respects_iterate hR, hresult fun _ v w => v.add w, ?equals, hresult fun gs v w => v.index gs w,
      ?same, ?select, ?bool, hmap (fun _ v => v.toInt) .ofInt, hmap (fun _ v => v.toText) .string,
      hpure fun _ v => .string v.kind.name, hpure fun gs v => .string (v.display gs),
      hpure fun gs v => .string (v.json gs), hpure fun gs v => .string (v.debug gs), respects_apply hR,
      respects_nested hR, hpure fun _ v => info v, ?list, ?strings, ?count, List.forall_mem_nil _⟩
    case record => exact respects_unary hR fun _ v => hR.bind (hnote _) fun _ => hR.pure v
    case first => exact fun _ _ _ _ args => hR.bind (hR.result _) fun _ => hR.pure _
    case check =>
      exact respects_parameterless hR fun frame => hR.bind (hR.check frame "host") fun _ => hR.pure _
    case equals =>
      exact respects_binary hR fun _ _ _ => hR.bind (hR.result _) fun _ => hR.pure _
    case same => exact respects_binary hR fun _ _ _ => hR.pure _
    case select =>
      exact respects_binary hR fun frame v w => hR.bind (hR.result _) fun x => hR.select frame v x
    case bool => exact respects_unary hR fun _ _ => hR.bind (hR.result _) fun _ => hR.pure _
    case list => exact fun _ _ _ _ args => hR.pure _
    case strings => exact fun _ _ _ _ args => hR.bind (hR.result _) fun _ => hR.pure _
    case count => exact fun _ _ _ _ args => hR.pure _
  exact htable p hp

end Host

/-- **Calls of the standard functions** are related if steps on the frames and notes are. -/
theorem Uniform.standard {R : (α : Type) → Eval α → Eval α → Prop} {cx : Context} {stop : Cancellation}
    (hR : Uniform R cx stop) (hstore : ∀ f, R _ (Eval.onStore f) (Eval.onStore f))
    (hnote : ∀ text, R _ (Eval.addNote text) (Eval.addNote text)) {call call' : Caller}
    (hcall : Calls R cx stop call call') (frame : FrameId) (name : String) (args : List Value) :
    R _ (Host.standard call { cx with frame } name args)
      (Host.standard call' { cx with frame, cancellation := stop } name args) := by
  rcases Host.standard_cases name with ⟨meaning, hmem, heq⟩ | heq
  · rw [heq, heq]
    exact Host.respects_of_mem_standardTable hR hstore hnote hmem call call' hcall frame args
  · rw [heq, heq]
    exact hR.pure _

end GraphQuery
