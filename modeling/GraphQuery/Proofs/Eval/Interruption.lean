import GraphQuery.Proofs.Eval.Compatible

/-!
# Interruptions

What happens to an evaluation when one of its contacts with the world outside fails? An
**environment** answers contacts: it says at which checks to stop and what functions of the host give
or refuse. It answers from the log and in no other way, so it neither calls values nor touches
frames.

Take an evaluation in one environment, and a second environment that gives the same answers up to
some contact and then fails. The two evaluations go through the same states up to that contact. Where
the second environment fails, nothing catches the error: no further contact is made, no frame is
written, and the error is what the evaluation ends with.

The first evaluation may go on for ever after the contact. So it is followed for a **stretch**
(`Expr.stretch`) only, up to the first call that is nested too deep. Every stretch ends, longer stretches
begin with the contacts of shorter ones, and an evaluation that ends is a stretch.

The relation `Follows` between evaluations in the two environments says how any part of a run goes on in
the second one. Its three laws are tied together by the log: a part only adds to it; a part that ends
before the failing contact ends in the same way in both environments, unless the stretch is over; and a
part that contains the failing contact is cut there.

## Main statements

* `Environment.stretch_of_run`, `Environment.stretch_ends`, `Environment.stretch_suffix`: runs and their
  stretches.
* `Environment.follows_contact`: the relation holds for a single contact.
* `Environment.uniform_follows`: it is uniform, so it holds for every evaluation.
* `evaluation_cut`: a failing contact ends the evaluation at once.
-/

namespace GraphQuery

open Eval

/-- What the world outside does, as far as an evaluation can tell. Both parts are given the log, in
which the contact that they answer comes first. -/
structure Environment where
  /-- Whether a check stops the evaluation. -/
  stops : Cancellation
  /-- What a function of the host gives, and what it notes. -/
  answers : List Contact → Except Error Value × List String

namespace Environment

/-- The answer to the newest contact. A check that stops the evaluation refuses by its name, and
another one gives nothing of interest. -/
def response (env : Environment) (log : List Contact) : Except Error Value × List String :=
  match log with
  | [] => (.ok .null, [])
  | ⟨.check name, _⟩ :: _ => (if env.stops log then .error (.cancelled name) else .ok .null, [])
  | ⟨.call .., _⟩ :: _ => env.answers log

/-- The functions of the host. -/
def library (env : Environment) : HostLibrary := fun _ _ _ _ => do
  let (outcome, notes) := env.answers (← get).log
  modify fun s => { s with notes := notes ++ s.notes }
  result outcome

/-- The context in which this environment decides when to stop. -/
def enter (env : Environment) (cx : Context) : Context := { cx with cancellation := env.stops }

/-! ### Contacts -/

/-- The state after a contact. -/
def after (env : Environment) (watch : Store → Store) (event : Event) (s : State) : State :=
  let log := ⟨event, watch s.store⟩ :: s.log
  { s with log, notes := (env.response log).2 ++ s.notes }

/-- A check gives what the environment responds to it, as an error or as nothing. -/
theorem check_enter (env : Environment) (cx : Context) (name : String) (s : State) :
    check (env.enter cx) name s =
      some ((env.response (env.after cx.watch (.check name) s).log).1.map fun _ => (),
        env.after cx.watch (.check name) s) := by
  rw [check_apply]
  unfold enter after response
  by_cases h : env.stops (⟨.check name, cx.watch s.store⟩ :: s.log) = true
  · simp only [h, if_true]
    rfl
  · simp only [h]
    rfl

/-- So does a call of the host, whatever function is called and with whatever calls it could make. -/
theorem call_enter (env : Environment) (cx : Context) (call : Caller) (behavior : String)
    (args : List Value) (s : State) :
    (record (env.enter cx) (.call behavior args) >>= fun _ =>
        env.library call (env.enter cx) behavior args) s =
      some ((env.response (env.after cx.watch (.call behavior args) s).log).1.map id,
        env.after cx.watch (.call behavior args) s) := by
  rw [Except.map_id]
  rfl

end Environment

/-! ### Stretches -/

/-- **A stretch of a run:** the code is evaluated up to the first call that is nested deeper than the
number says. There the evaluation is halted by an error. -/
def Expr.stretch (host : HostLibrary) (halt : Error) (depth : Nat) (cx : Context) (code : Code) :
    Eval Value :=
  code.eval (Value.callThen host (fun _ _ _ => throw halt) depth) cx

/-- The second evaluation ends, and it does so as the first one if that ends. -/
structure Completes (α : Type) (m m' : Eval α) : Prop where
  /-- The second evaluation ends. -/
  ends : ∀ s, ∃ r t, m' s = some (r, t)
  /-- It ends as the first one. -/
  same : ∀ {s r t}, m s = some (r, t) → m' s = some (r, t)

namespace Completes

variable {α β : Type}

/-- A step of its own always ends. -/
theorem of_apply {m : Eval α} {out : State → Except Error α} {next : State → State}
    (hm : ∀ s, m s = some (out s, next s)) : Completes α m m :=
  ⟨fun s => ⟨_, _, hm s⟩, fun h => h⟩

/-- Two parts that end, one after the other, end. -/
theorem bind {m m' : Eval α} {f f' : α → Eval β} (hm : Completes α m m')
    (hf : ∀ a, Completes β (f a) (f' a)) : Completes β (m >>= f) (m' >>= f') := by
  refine ⟨fun s => ?_, fun {s r u} h => ?_⟩
  · obtain ⟨r, t, hr⟩ := hm.ends s
    rw [bind_apply, hr]
    cases r with
    | ok a => exact (hf a).ends t
    | error x => exact ⟨_, _, rfl⟩
  -- an error of the first part is that of the whole in both
  · rcases bind_cases h with ⟨x, hms, rfl⟩ | ⟨a, t, hms, hft⟩
    · rw [bind_apply, hm.same hms]
    · rw [bind_of_ok (hm.same hms)]
      exact (hf a).same hft

end Completes

/-- The second evaluation goes on at least as long as the first one, which may have been halted. -/
structure Extends (α : Type) (m m' : Eval α) : Prop where
  /-- The log only grows. -/
  grows : ∀ {s r t}, m' s = some (r, t) → s.log <:+ t.log
  /-- Both evaluations do the same, until the first one is halted. -/
  same : ∀ {s r t}, m s = some (r, t) →
    m' s = some (r, t) ∨ (∃ x, r = .error x) ∧ ∀ r' t', m' s = some (r', t') → t.log <:+ t'.log

namespace Extends

variable {α β : Type}

/-- A step of its own is never halted. -/
theorem of_apply {m : Eval α} {out : State → Except Error α} {next : State → State}
    (hm : ∀ s, m s = some (out s, next s)) (hlog : ∀ s, s.log <:+ (next s).log) : Extends α m m := by
  refine ⟨fun {s r t} h => ?_, fun h => Or.inl h⟩
  rw [hm s] at h
  obtain ⟨-, rfl⟩ := Prod.mk.inj (Option.some.inj h)
  exact hlog s

/-- Two parts, one after the other: the log of the first one is behind that of the whole. -/
theorem bind {m m' : Eval α} {f f' : α → Eval β} (hm : Extends α m m')
    (hf : ∀ a, Extends β (f a) (f' a)) : Extends β (m >>= f) (m' >>= f') := by
  refine ⟨fun {s r u} h => ?_, fun {s r u} h => ?_⟩
  · rcases bind_cases h with ⟨x, hms, -⟩ | ⟨a, t, hms, hft⟩
    · exact hm.grows hms
    · exact (hm.grows hms).trans ((hf a).grows hft)
  · rcases bind_cases h with ⟨x, hms, rfl⟩ | ⟨a, t, hms, hft⟩
    · rcases hm.same hms with hms' | ⟨-, hlonger⟩
      · exact Or.inl (by rw [bind_apply, hms'])
      · -- the first evaluation has been halted in its first part, and the second one goes on
        refine Or.inr ⟨⟨x, rfl⟩, fun r' v h' => ?_⟩
        rcases bind_cases h' with ⟨y, hms', -⟩ | ⟨a, t, hms', hft'⟩
        · exact hlonger _ _ hms'
        · exact (hlonger _ _ hms').trans ((hf a).grows hft')
    -- a first part that has come to a value has not been halted
    · have hms' : m' s = some (.ok a, t) :=
        (hm.same hms).resolve_right fun ⟨⟨_, hx⟩, _⟩ => nomatch hx
      rw [bind_of_ok hms']
      exact (hf a).same hft

end Extends

namespace Environment

variable {A : Environment} {cx : Context} {code : Code} {halt : Error} {depth : Nat} {s : State}

/-- **Every evaluation** is completed, if the calls in it are. -/
theorem uniform_completes (A : Environment) (cx : Context) :
    Uniform Completes (A.enter cx) A.stops where
  result r := .of_apply (result_apply r)
  bind := .bind
  lookup frame name := .of_apply (lookup_apply { A.enter cx with frame } name)
  declare frame name value := .of_apply (declare_apply frame name value)
  nest frame := .of_apply (nest_apply frame)
  newFunction := .of_apply newFunction_apply
  check frame name := .of_apply (A.check_enter { cx with frame } name)

/-- **Every evaluation** is extended, if the calls in it are. -/
theorem uniform_extends (A : Environment) (cx : Context) : Uniform Extends (A.enter cx) A.stops where
  result r := .of_apply (result_apply r) fun _ => List.suffix_refl _
  bind := .bind
  lookup frame name :=
    .of_apply (lookup_apply { A.enter cx with frame } name) fun _ => List.suffix_refl _
  declare frame name value := .of_apply (declare_apply frame name value) fun _ => List.suffix_refl _
  nest frame := .of_apply (nest_apply frame) fun _ => List.suffix_refl _
  newFunction := .of_apply newFunction_apply fun _ => List.suffix_refl _
  check frame name := .of_apply (A.check_enter { cx with frame } name) fun _ => List.suffix_cons _ _

/-- A stretch and a run of the same depth. -/
theorem completes_stretch (A : Environment) (cx : Context) (code : Code) (halt : Error) (depth : Nat) :
    Completes Value (code.run A.library depth (A.enter cx))
      (code.stretch A.library halt depth (A.enter cx)) := by
  have hhost : Uniform.Hosts Completes (A.enter cx) A.stops A.library A.library :=
    fun call _ _ frame behavior args =>
      .of_apply (A.call_enter { cx with frame } call behavior args)
  -- calls that are nested too deep run out on the left, and are halted on the right
  have hlast : Uniform.Calls Completes (A.enter cx) A.stops (fun _ _ _ => exhausted)
      (fun _ _ _ => throw halt) :=
    fun _ _ _ => ⟨fun s => ⟨.error halt, s, rfl⟩, fun h => nomatch h⟩
  have hcalls := (A.uniform_completes cx).callThen hhost hlast depth
  rw [← Value.call_eq_callThen] at hcalls
  exact (A.uniform_completes cx).eval hcalls cx.frame code

/-- **A run that ends** is a stretch. -/
theorem stretch_of_run {r : Except Error Value} {t : State}
    (h : code.run A.library depth (A.enter cx) s = some (r, t)) :
    code.stretch A.library halt depth (A.enter cx) s = some (r, t) :=
  (A.completes_stretch cx code halt depth).same h

/-- **Every stretch ends,** also where the run does not. -/
theorem stretch_ends : ∃ r t, code.stretch A.library halt depth (A.enter cx) s = some (r, t) :=
  (A.completes_stretch cx code halt depth).ends s

/-- **A longer stretch** begins with the contacts of a shorter one. -/
theorem stretch_suffix {more : Nat} {r r' : Except Error Value} {t t' : State}
    (h : code.stretch A.library halt depth (A.enter cx) s = some (r, t))
    (h' : code.stretch A.library halt (depth + more) (A.enter cx) s = some (r', t')) :
    t.log <:+ t'.log := by
  have hhost : Uniform.Hosts Extends (A.enter cx) A.stops A.library A.library :=
    fun call _ _ frame behavior args =>
      .of_apply (A.call_enter { cx with frame } call behavior args) fun _ => List.suffix_cons _ _
  have hhalt : Uniform.Calls Extends (A.enter cx) A.stops (fun _ _ _ => throw halt)
      (fun _ _ _ => throw halt) :=
    fun _ _ _ => .of_apply (fun _ => rfl) fun _ => List.suffix_refl _
  -- where the shorter stretch is halted, the longer one goes on with calls of the remaining depth
  have hmore := (A.uniform_extends cx).callThen hhost hhalt more
  have hlast : Uniform.Calls Extends (A.enter cx) A.stops (fun _ _ _ => throw halt)
      (Value.callThen A.library (fun _ _ _ => throw halt) more) := by
    refine fun frame v args => ⟨(hmore frame v args).grows, fun {s r t} h => Or.inr ?_⟩
    obtain ⟨rfl, rfl⟩ := Prod.mk.inj (Option.some.inj h)
    exact ⟨⟨halt, rfl⟩, fun _ _ h' => (hmore frame v args).grows h'⟩
  have hcalls := (A.uniform_extends cx).callThen hhost hlast depth
  rw [Value.callThen_callThen] at hcalls
  -- either nothing was halted, and both are the same, or the longer stretch has gone on
  rcases ((A.uniform_extends cx).eval hcalls cx.frame code).same h with hsame | ⟨-, hlonger⟩
  · obtain ⟨-, rfl⟩ := Prod.mk.inj (Option.some.inj (hsame.symm.trans h'))
    exact List.suffix_refl _
  · exact hlonger _ _ h'

end Environment

/-! ### Evaluations side by side -/

/-- The second evaluation is the first one, cut at a contact. The log before that contact is
`before`, the log of the whole run starts as `base`, and the second evaluation ends with `e`. -/
structure Follows (base before : List Contact) (contact : Contact) (e : Error)
    (watch : Store → Store) (α : Type) (m m' : Eval α) : Prop where
  /-- The log only grows. -/
  grows : ∀ {s r t}, m s = some (r, t) → s.log <:+ t.log
  /-- Before the contact both evaluations do the same, until the first one is halted. -/
  same : ∀ {s r t}, base <:+ s.log → m s = some (r, t) → t.log <:+ before →
    m' s = some (r, t) ∨ m' s = none ∧ ∃ x, r = .error x
  /-- At the contact the second one ends. -/
  cut : ∀ {s r t}, base <:+ s.log → m s = some (r, t) → s.log <:+ before →
    contact :: before <:+ t.log →
    ∃ u, m' s = some (.error e, u) ∧ u.log = contact :: before ∧ watch u.store = contact.seen

namespace Follows

variable {base before : List Contact} {contact : Contact} {e : Error} {watch : Store → Store}
  {α β : Type}

/-- A contact is not behind itself. -/
theorem not_cons_suffix {log : List Contact} (h : log <:+ before) : ¬ contact :: before <:+ log := by
  intro hcons
  have hlength := (hcons.trans h).length_le
  rw [List.length_cons] at hlength
  omega

/-- A part that gives a result has not been halted. -/
theorem same_ok {m m' : Eval α} (h : Follows base before contact e watch α m m') {s t : State} {a : α}
    (hbase : base <:+ s.log) (hm : m s = some (.ok a, t)) (ht : t.log <:+ before) :
    m' s = some (.ok a, t) :=
  (h.same hbase hm ht).resolve_right fun ⟨_, _, hx⟩ => nomatch hx

/-- **The end of a stretch:** the first evaluation is halted where the second one runs out. -/
theorem halted (halt : Error) :
    Follows base before contact e watch α (MonadExcept.throw halt) exhausted := by
  have hhalt : ∀ {s : State} {r : Except Error α} {t : State},
      (MonadExcept.throw halt : Eval α) s = some (r, t) → t = s ∧ r = .error halt := by
    intro s r t h
    obtain ⟨rfl, rfl⟩ := Prod.mk.inj (Option.some.inj h)
    exact ⟨rfl, rfl⟩
  refine ⟨fun h => ?_, fun _ h _ => ?_, fun _ h hs ht => ?_⟩
  · obtain ⟨rfl, -⟩ := hhalt h
    exact List.suffix_refl _
  · obtain ⟨-, rfl⟩ := hhalt h
    exact Or.inr ⟨rfl, halt, rfl⟩
  · obtain ⟨rfl, -⟩ := hhalt h
    exact absurd ht (not_cons_suffix hs)

/-- **Steps that do not touch the log** are the same in both environments. -/
theorem silent {m : Eval α} {out : State → Except Error α} {next : State → State}
    (hm : ∀ s, m s = some (out s, next s)) (hlog : ∀ s, (next s).log = s.log) :
    Follows base before contact e watch α m m := by
  have hkept : ∀ {s r t}, m s = some (r, t) → t.log = s.log := by
    intro s r t h
    rw [hm s] at h
    obtain ⟨-, rfl⟩ := Prod.mk.inj (Option.some.inj h)
    exact hlog s
  refine ⟨fun h => ?_, fun _ h _ => Or.inl h, fun _ h hbefore hcontact => ?_⟩
  · exact hkept h ▸ List.suffix_refl _
  · rw [hkept h] at hcontact
    exact absurd hcontact (not_cons_suffix hbefore)

/-- **Two parts, one after the other.** The contact is in one of them, and the other one does the same in
both environments, or is not reached. -/
theorem bind {m m' : Eval α} {f f' : α → Eval β}
    (hm : Follows base before contact e watch α m m')
    (hf : ∀ a, Follows base before contact e watch β (f a) (f' a)) :
    Follows base before contact e watch β (m >>= f) (m' >>= f') := by
  constructor
  case grows =>
    intro s r u h
    rcases bind_cases h with ⟨x, hms, -⟩ | ⟨a, t, hms, hft⟩
    · exact hm.grows hms
    · exact (hm.grows hms).trans ((hf a).grows hft)
  case same =>
    intro s r u hbase h hu
    rcases bind_cases h with ⟨x, hms, rfl⟩ | ⟨a, t, hms, hft⟩
    -- the first part has failed: it does so on both sides, or it was halted on the left
    · rcases hm.same hbase hms hu with hms' | ⟨hnone, -⟩
      · exact Or.inl (by rw [bind_apply, hms'])
      · exact Or.inr ⟨by rw [bind_apply, hnone], x, rfl⟩
    -- the log of the first part is behind that of the whole
    · have ht : t.log <:+ before := ((hf a).grows hft).trans hu
      rw [bind_of_ok (hm.same_ok hbase hms ht)]
      exact (hf a).same (hbase.trans (hm.grows hms)) hft hu
  case cut =>
    intro s r u hbase h hs hu
    rcases bind_cases h with ⟨x, hms, rfl⟩ | ⟨a, t, hms, hft⟩
    -- the first part has failed, and so the contact is in it
    · obtain ⟨v, hv, hlog, hseen⟩ := hm.cut hbase hms hs hu
      exact ⟨v, by rw [bind_apply, hv], hlog, hseen⟩
    · -- the contact is in the part whose log first contains it
      have ht : contact :: before <:+ t.log ∨ t.log <:+ before := by
        rcases List.suffix_or_suffix_of_suffix hu ((hf a).grows hft) with h | h
        · exact Or.inl h
        · rcases List.suffix_cons_iff.mp h with h | h
          · exact Or.inl (h ▸ List.suffix_refl _)
          · exact Or.inr h
      rcases ht with ht | ht
      · obtain ⟨v, hv, hlog, hseen⟩ := hm.cut hbase hms hs ht
        exact ⟨v, by rw [bind_apply, hv], hlog, hseen⟩
      · rw [bind_of_ok (hm.same_ok hbase hms ht)]
        exact (hf a).cut (hbase.trans (hm.grows hms)) hft ht hu

end Follows

/-! ### Two environments -/

/-- The second environment answers as the first one does after `base` and before `contact`, which it
meets with the error `e`. -/
structure Environment.Diverge (A B : Environment) (base before : List Contact) (contact : Contact)
    (e : Error) : Prop where
  /-- They agree on all contacts in between. -/
  agree : ∀ log, base <:+ log → log ≠ base → log <:+ before → B.response log = A.response log
  /-- The contact itself is refused. -/
  fail : (B.response (contact :: before)).1 = .error e

namespace Environment

variable {A B : Environment} {base before : List Contact} {contact : Contact} {e : Error}
  {watch : Store → Store} {α : Type}

/-- **A contact** is answered in the same way in both environments, or it is the one that fails. -/
theorem follows_contact (h : Diverge A B base before contact e) {event : Event} {g : Value → α}
    {m m' : Eval α}
    (hm : ∀ s, m s = some ((A.response (A.after watch event s).log).1.map g, A.after watch event s))
    (hm' : ∀ s,
      m' s = some ((B.response (B.after watch event s).log).1.map g, B.after watch event s)) :
    Follows base before contact e watch α m m' := by
  constructor
  case grows =>
    intro s r t hs
    rw [hm s] at hs
    obtain ⟨-, rfl⟩ := Prod.mk.inj (Option.some.inj hs)
    exact List.suffix_cons _ _
  case same =>
    intro s r t hbase hs ht
    rw [hm s] at hs
    obtain ⟨rfl, rfl⟩ := Prod.mk.inj (Option.some.inj hs)
    have hlog : base <:+ (A.after watch event s).log := hbase.trans (List.suffix_cons _ _)
    -- the contact itself is in the log, so the environments have to agree on it
    have hne : (A.after watch event s).log ≠ base := by
      intro heq
      have hlength := hbase.length_le
      rw [← heq, after, List.length_cons] at hlength
      omega
    have hagree : B.response (⟨event, watch s.store⟩ :: s.log) =
        A.response (⟨event, watch s.store⟩ :: s.log) := h.agree _ hlog hne ht
    have hafter : B.after watch event s = A.after watch event s := by
      unfold after
      simp only [hagree]
    refine Or.inl ?_
    rw [hm' s, hafter]
    exact congrArg (fun response => some (response.1.map g, A.after watch event s)) hagree
  case cut =>
    intro s r t _ hs hbefore hcontact
    rw [hm s] at hs
    obtain ⟨-, rfl⟩ := Prod.mk.inj (Option.some.inj hs)
    -- the log grows by one entry, so that entry is the failing contact
    rcases List.suffix_cons_iff.mp hcontact with heq | hsuffix
    · have hfail := h.fail
      -- the second environment meets the same contact, and refuses it
      rw [heq] at hfail ⊢
      refine ⟨B.after watch event s, ?_, rfl, ?_⟩
      · rw [hm' s]
        change some (Except.map g (B.response (_ :: s.log)).1, _) = _
        rw [hfail]
        rfl
      · rw [(List.cons.inj heq).1]
        rfl
    · exact absurd hsuffix (Follows.not_cons_suffix hbefore)

/-- **Evaluations in both environments** stay side by side up to the failing contact. -/
theorem uniform_follows (h : Diverge A B base before contact e) (cx : Context) :
    Uniform (Follows base before contact e cx.watch) (A.enter cx) B.stops where
  result r := .silent (result_apply r) fun _ => rfl
  bind hm hf := hm.bind hf
  lookup frame name := .silent (lookup_apply { A.enter cx with frame } name) fun _ => rfl
  declare frame name value := .silent (declare_apply frame name value) fun _ => rfl
  nest frame := .silent (nest_apply frame) fun _ => rfl
  newFunction := .silent newFunction_apply fun _ => rfl
  check frame name :=
    follows_contact h (A.check_enter { cx with frame } name) (B.check_enter { cx with frame } name)

/-- Calls of the host are contacts, and the calls that they could make are not made. -/
theorem hosts_follows (h : Diverge A B base before contact e) (cx : Context) :
    Uniform.Hosts (Follows base before contact e cx.watch) (A.enter cx) B.stops
      A.library B.library := by
  intro call call' _ frame behavior args
  exact follows_contact h (A.call_enter { cx with frame } call behavior args)
    (B.call_enter { cx with frame } call' behavior args)

end Environment

/-! ### Whole runs -/

/-- **A failing contact ends an evaluation at once.** Let a run of some code in the environment `A`
make a contact, after the contacts in `earlier`; some stretch of the run shows this, and it does not
matter whether the run ends. In an environment that gives the same answers to the contacts in `earlier`
and fails at this one, the run ends. It makes the same contacts up to this one and no other, it ends with
the error of the environment, which for a check is the cancellation with the name of the check, and it
leaves the frames as they were in `A` at the moment of the contact, as far as the context watches them:
all of them, if `cx.watch` is `id`. -/
theorem evaluation_cut (A B : Environment) (cx : Context) (code : Code) (depth : Nat) {s t : State}
    {halt : Error} {r : Except Error Value} {earlier later : List Contact} {contact : Contact}
    {e : Error} (hrun : code.stretch A.library halt depth (A.enter cx) s = some (r, t))
    (hlog : t.log = later ++ contact :: (earlier ++ s.log))
    (hagree : ∀ past, past <:+ earlier → past ≠ [] →
      B.response (past ++ s.log) = A.response (past ++ s.log))
    (hfail : (B.response (contact :: (earlier ++ s.log))).1 = .error e) :
    ∃ u, code.run B.library depth (B.enter cx) s = some (.error e, u) ∧
      u.log = contact :: (earlier ++ s.log) ∧
      (∀ name, contact.event = .check name → e = .cancelled name) ∧
      cx.watch u.store = contact.seen := by
  have hdiverge : A.Diverge B s.log (earlier ++ s.log) contact e := by
    refine ⟨fun log hbase hne hbefore => ?_, hfail⟩
    obtain ⟨past, rfl⟩ := hbase
    refine hagree past (List.suffix_append_self_iff.mp hbefore) fun hnil => hne ?_
    rw [hnil, List.nil_append]
  -- the environments diverge at the contact and not before, counted from the log at the start
  have hlast : Uniform.Calls (Follows s.log (earlier ++ s.log) contact e cx.watch) (A.enter cx) B.stops
      (fun _ _ _ => throw halt) (fun _ _ _ => exhausted) := fun _ _ _ => .halted halt
  have hcalls := (A.uniform_follows hdiverge cx).callThen (A.hosts_follows hdiverge cx) hlast depth
  rw [← Value.call_eq_callThen] at hcalls
  -- the stretch starts before the contact and ends after it, so the other run is cut
  have hfollows := (A.uniform_follows hdiverge cx).eval hcalls cx.frame code
  obtain ⟨u, hu, hulog, hseen⟩ := hfollows.cut (List.suffix_refl _) hrun
    (List.suffix_append _ _) (hlog ▸ List.suffix_append _ _)
  refine ⟨u, hu, hulog, fun name hname => ?_, hseen⟩
  -- a check can only be refused by its name
  obtain ⟨event, seen⟩ := contact
  obtain rfl : event = .check name := hname
  rw [Environment.response] at hfail
  split at hfail
  · exact (Except.error.inj hfail).symm
  · exact nomatch hfail

/-! For instance, a script of three statements may hand a variable to a function of the host. Another one
may call a closure that calls itself, for ever. -/

/-- Binds `x`, calls `f` with it, and goes on. -/
def handOver : Code :=
  .statements [.assign (.target "x" ()) (.number "1") (),
    .call (.variable "f" ()) [.variable "x" ()] (), .number "2"]

/-- One frame, in which `f` is a function of the host. -/
def handOverStore : Store where
  frames := #[⟨[], 0, [("f", .function ⟨0, "f", 0, none, .host "f"⟩)]⟩]

/-- Binds `g` to a closure that calls itself, and calls it. -/
def spin : Code :=
  .statements [.assign (.target "g" ())
      (.closure 0 none (.block [.call (.variable "g" ()) [] ()])) (),
    .call (.variable "g" ()) [] ()]

/-- Where the host refuses the call, the first script ends with the refusal after two checks and the call;
`x` is bound, and there is no third check. The second script runs out of any depth, here of two, but it
ends when it is stopped at its fourth check. -/
theorem evaluation_cut_handOver :
    let cx : Context := { graphs := {}, watch := id, frame := 0 }
    let A : Environment := ⟨.never, fun _ => (.ok .null, [])⟩
    let B : Environment := ⟨.never, fun _ => (.error .cannotAccumulate, [])⟩
    let C : Environment := ⟨fun log => log.length == 4, fun _ => (.ok .null, [])⟩
    (∃ u, handOver.run B.library 1 (B.enter cx) { store := handOverStore } =
        some (.error .cannotAccumulate, u) ∧
      u.log.length = 3 ∧ u.store.local? 0 "x" = some (.number "1")) ∧
    spin.run A.library 2 (A.enter cx) { store := handOverStore } = none ∧
    ∃ e u, spin.run C.library 2 (C.enter cx) { store := handOverStore } = some (.error e, u) ∧
      u.log.length = 4 := by
  intro cx A B C
  refine ⟨?handOver, by decide +kernel, ?spin⟩
  case handOver =>
    let bound : Store := handOverStore.declare 0 "x" (.number "1")
    let earlier : List Contact := [⟨.check "statement", bound⟩, ⟨.check "statement", handOverStore⟩]
    let call : Contact := ⟨.call "f" [.number "1"], bound⟩
    have hrun : handOver.stretch A.library .cannotAccumulate 1 (A.enter cx)
        { store := handOverStore } = some (.ok (.number "2"),
          { store := bound, log := [⟨.check "statement", bound⟩] ++ call :: (earlier ++ []) }) := rfl
    have hagree : ∀ past, past <:+ earlier → past ≠ [] →
        B.response (past ++ []) = A.response (past ++ []) := by
      intro past hpast hne
      -- what has passed is one of the two checks, or nothing
      rcases List.suffix_cons_iff.mp hpast with rfl | hpast
      · rfl
      · rcases List.suffix_cons_iff.mp hpast with rfl | hpast
        · rfl
        · exact absurd (List.suffix_nil.mp hpast) hne
    obtain ⟨u, hu, hlog, -, hstore⟩ := evaluation_cut A B cx handOver 1 hrun rfl hagree rfl
    refine ⟨u, hu, ?_, ?_⟩
    · rw [hlog]
      rfl
    · have hbound : u.store = bound := hstore
      rw [hbound]
      rfl
  case spin =>
    -- the stretch makes four checks before it is halted, and the last one is refused
    have hends : (spin.stretch A.library .cannotAccumulate 2 (A.enter cx)
        { store := handOverStore }).any (fun p => p.2.log.length == 4 &&
          !(C.response p.2.log).1.isOk) = true := by decide +kernel
    obtain ⟨⟨r, t⟩, hrun, hends⟩ := (Option.any_eq_true _ _).mp hends
    obtain ⟨hlength, hrefused⟩ := Bool.and_eq_true_iff.mp hends
    obtain ⟨contact, earlier, hlog⟩ := List.exists_cons_of_length_eq_add_one (beq_iff_eq.mp hlength)
    have hearlier : earlier.length = 3 := by
      rw [hlog] at hlength
      exact Nat.succ.inj (beq_iff_eq.mp hlength)
    obtain ⟨e, hfail⟩ : ∃ e, (C.response t.log).1 = .error e := by
      rcases hr : (C.response t.log).1 with e | v
      · exact ⟨e, rfl⟩
      · rw [hr] at hrefused
        exact absurd hrefused Bool.false_ne_true
    have hagree : ∀ past, past <:+ earlier → past ≠ [] →
        C.response (past ++ []) = A.response (past ++ []) := by
      -- less than four contacts have passed, and so the rule of `C` has stopped none
      intro past hpast _
      have hle := hpast.length_le
      have hshort : ¬ C.stops (past ++ []) = true := by
        rw [List.append_nil]
        exact fun hstops => absurd (beq_iff_eq.mp hstops) (by omega)
      generalize past ++ [] = log at hshort ⊢
      unfold Environment.response
      split
      · rfl
      · rw [if_neg hshort]
        rfl
      · rfl
    have hlog : t.log = [] ++ contact :: (earlier ++ []) := by rw [hlog, List.append_nil, List.nil_append]
    obtain ⟨u, hu, hulog, -⟩ := evaluation_cut A C cx spin 2 hrun hlog hagree (hlog ▸ hfail)
    refine ⟨e, u, hu, ?_⟩
    rw [hulog, List.append_nil, List.length_cons, hearlier]

end GraphQuery
