import TransactionalRegistry.Proofs.Passages
import TransactionalRegistry.Proofs.Routines

/-!
# The ambient stack is restored

Whatever policies are nested, and however their work ends, the ambient stack is the same list of
entries after a policy as before it. Between the two, while the work runs, it is that list with the
entries of the policy on top: none, one that hides what is below, the new transaction, or the new
transaction over an entry that hides what is below. The work finds them on top at each of its steps
and when it ends, so a scope that takes the top entry off takes off the one that it has put there.

The work is any routine of the steps that there are for work outside the library: native calls,
operations on keys, everything that can be done with transactions and with the manager, and changes
of the world that no one has asked for. None of these steps comes near the stack, and only a policy
does.

## Main definitions

* `ApiStep`: The steps that there are for work.
* `Vocabulary.api`: Those steps as a vocabulary.
* `Context.Lasting`, `Context.Calm`, `Context.Steady`: Properties of contexts that some steps, or
  all of them, cannot take away.
* `Propagation.pushes`: What a policy puts on the ambient stack for its work.

## Theorems

* `Context.Lasting.keeps_operation`, `Context.Calm.keeps_close`, `Context.Steady.keeps_create`, and
  the like: What keeps them.
* `ApiStep.keeps_steady`: No step touches the stack.
* `Policy.entrance_ambient`: What is on the stack when the work starts.
* `Routine.everywhere_ambient`: It is there at every step.
* `ambient_stack_is_restored`: The stack before, during and after a policy.
-/

namespace TransactionalRegistry

open Script (KeyStep)

/-- The steps that there are for work. -/
inductive ApiStep (W : Type) where
  /-- A native call. -/
  | native (call : Call)
  /-- An entry is logged. -/
  | log (entry : LogEntry)
  /-- An operation on the key at a location. -/
  | operation (l : Location) (step : KeyStep)
  /-- A transaction is created outside any policy. -/
  | create (manager : Manager) (options : List TransactionOption)
  | status (t : Transaction)
  | display (t : Transaction)
  | commit (t : Transaction)
  | rollback (t : Transaction)
  | close (t : Transaction)
  | setAutoCommit (t : Transaction) (autoCommit : Bool)
  /-- The state that the clones of a transaction share is read. -/
  | shared (t : Transaction)
  /-- One more clone is taken. -/
  | retain (t : Transaction)
  /-- A clone is given up. -/
  | release (t : Transaction)
  /-- The current transaction. -/
  | current
  /-- How many entries the ambient stack has. -/
  | depth
  /-- Something happens to the world. -/
  | happen (change : W → W)

namespace ApiStep

variable {W : Type}

/-- The errors of a step. -/
@[reducible]
def Error : ApiStep W → Type
  | native _ => NativeError
  | operation _ _ => RegistryError
  | create _ _ | status _ | commit _ | rollback _ | close _ => TransactionError
  | log _ | display _ | setAutoCommit _ _ | shared _ | retain _ | release _ => Empty
  | current | depth | happen _ => Empty

/-- What a step answers. -/
@[reducible]
def Answer : ApiStep W → Type
  | native call => call.Answer
  | operation _ step => step.Answer
  | create _ _ => Transaction
  | status _ => TransactionStatus
  | display _ => String
  | shared _ => Shared
  | current => Option Transaction
  | depth => Nat
  | log _ | commit _ | rollback _ | close _ | setAutoCommit _ _ => Unit
  | retain _ | release _ | happen _ => Unit

variable [Native W]

/-- What a step does. -/
def act : (step : ApiStep W) → Act W step.Error step.Answer
  | native call => Act.call call
  | log entry => Act.log entry
  | operation l step => step.act l
  | create manager options => manager.createTransaction options
  | status t => t.status
  | display t => t.display
  | commit t => t.commit
  | rollback t => t.rollback
  | close t => t.close
  | setAutoCommit t autoCommit => t.setAutoCommit autoCommit
  | shared t => t.shared
  | retain t => t.retain
  | release t => t.release
  | current => Ambient.current
  | depth => Ambient.depth
  | happen change => modify fun ctx => { ctx with world := change ctx.world }

end ApiStep

/-! ## No step touches the stack -/

/-- A property of contexts that no call and no entry in the log takes away. -/
structure Context.Lasting {W : Type} [Native W] (P : Context W → Prop) : Prop where
  called : ∀ (ctx : Context W) (calls : List CallRecord) (world : W),
    Transcript ctx.world calls world → P ctx → P { ctx with world := world }

/-- A property, moreover, that no change of the state that clones share takes away, as long as their
    number stays the same. -/
structure Context.Calm {W : Type} [Native W] (P : Context W → Prop) : Prop
    extends Context.Lasting P where
  updated : ∀ (ctx : Context W) (t : Transaction) (f : Shared → Shared),
    (∀ shared, (f shared).clones = shared.clones) → P ctx → P (ctx.updateShared t f)

/-- A property of contexts that depends neither on the world nor on the state that clones share, and
    that is not lost when there is one more transaction. -/
structure Context.Steady {W : Type} (P : Context W → Prop) : Prop where
  world : ∀ (ctx : Context W) (world : W), P ctx → P { ctx with world := world }
  shared : ∀ (ctx : Context W) (t : Transaction) (f : Shared → Shared), P ctx →
    P (ctx.updateShared t f)
  created : ∀ ctx : Context W, P ctx → P { ctx with shared := ctx.shared ++ [Shared.fresh] }

theorem Context.Steady.calm {W : Type} [Native W] {P : Context W → Prop} (hP : Context.Steady P) :
    Context.Calm P where
  called ctx _ world _ h := hP.world ctx world h
  updated ctx t f _ h := hP.shared ctx t f h

/-- The ambient stack is the given one. -/
def Context.Stacked {W : Type} (stack : List (Option Transaction)) (ctx : Context W) : Prop :=
  ctx.ambient = stack

theorem Context.steady_stacked {W : Type} (stack : List (Option Transaction)) :
    Context.Steady (@Context.Stacked W stack) :=
  ⟨fun _ _ h => h, fun _ _ _ h => h, fun _ h => h⟩

section

variable {W ε α : Type} [Native W] {P : Context W → Prop}

open Context (Stacked)

namespace Context

namespace Lasting

variable (hP : Context.Lasting P)

include hP

theorem keeps_call (call : Call) : Keeps P (Act.call call : Act W _ _) :=
  fun ctx h => Act.ends_call (fun _ world hok => hP.called ctx _ world (.ok hok (.nil _)) h)
    (fun _ world herror => hP.called ctx _ world (.error herror (.nil _)) h)

theorem keeps_log (entry : LogEntry) : Keeps P (Act.log entry : Act W ε Unit) :=
  fun ctx h => hP.called ctx [] _ (.log entry (.nil _)) h

theorem keeps_operation (l : Location) (operation : KeyOperation) :
    Keeps P (operation.act l : Act W _ _) := by
  intro ctx h
  have hstacked := (steady_stacked ctx.ambient).calm (W := W)
  -- The operation goes by the current transaction, so the stack has to stay, too.
  let session : Session W ((Ambient.top ctx.ambient).map (·.handle)) :=
    Session.keeping (fun ctx' => Stacked ctx.ambient ctx' ∧ P ctx')
      (fun ctx' h => by rw [h.1])
      (fun ctx' entry h => ⟨h.1, hP.keeps_log (ε := Empty) entry ctx' h.2⟩)
      (fun call _ ctx' h =>
        (hstacked.keeps_call call ctx' h.1).and (hP.keeps_call call ctx' h.2))
  refine (session.keyOperation l operation ctx ⟨rfl, h⟩).mono ?_ ?_
  · exact fun _ _ hkept => hkept.2
  · exact fun _ _ hkept => hkept.2

omit [Native W] hP in
theorem keeps_shared (t : Transaction) : Keeps P (t.shared : Act W ε Shared) :=
  keeps_get.bind (fun _ => keeps_pure _)

theorem keeps_query (t : Transaction) : Keeps P (t.query : Act W _ _) := by
  refine (keeps_shared t).bind (fun shared => ?_)
  split
  · exact keeps_pure _
  · refine (hP.keeps_call _).attempt.bind (fun answer => ?_)
    cases answer with
    | ok outcome =>
      simp only []
      split
      · exact keeps_pure _
      · exact keeps_pure _
    | error e =>
      simp only []
      split
      · exact keeps_pure _
      · exact keeps_throw _

theorem keeps_status (t : Transaction) : Keeps P (t.status : Act W _ _) := by
  refine (hP.keeps_query t).bind (fun answer => ?_)
  cases answer with
  | ok status => exact keeps_pure status
  | error outcome => exact keeps_throw _

theorem keeps_display (t : Transaction) : Keeps P (t.display : Act W ε String) := by
  refine Keeps.bind ?_ (fun _ => keeps_pure _)
  refine (hP.keeps_query t).attempt.bind (fun answer => ?_)
  split
  · exact keeps_pure _
  · exact keeps_pure _

/-- Committing and rolling back are alike: a call, unless the transaction is closed. -/
theorem keeps_decide (t : Transaction) (operation : String) (call : Call) (entry : LogEntry) :
    Keeps P (do
      t.requireOpen operation
      let _ ← Transaction.calling operation (Act.call call)
      Act.log entry : Act W _ _) := by
  have hrequire : Keeps P (t.requireOpen operation : Act W _ Unit) := by
    refine (keeps_shared t).bind (fun shared => ?_)
    split
    · exact keeps_throw _
    · exact keeps_pure _
  refine hrequire.bind (fun _ => ?_)
  exact ((hP.keeps_call call).mapError _).bind (fun _ => hP.keeps_log entry)

end Lasting

theorem Calm.keeps_update (hP : Context.Calm P) (t : Transaction) {f : Shared → Shared}
    (hf : ∀ shared, (f shared).clones = shared.clones) :
    Keeps P (modify (Context.updateShared t f) : Act W ε Unit) :=
  keeps_modify (fun ctx h => hP.updated ctx t f hf h)

theorem Calm.keeps_close (hP : Context.Calm P) (t : Transaction) :
    Keeps P (t.close : Act W _ _) := by
  refine (Lasting.keeps_shared t).bind (fun shared => ?_)
  split
  · exact hP.keeps_log _
  · refine Keeps.bind (hP.keeps_update t ?_) (fun _ => ?_)
    · exact fun _ => rfl
    · exact ((hP.keeps_call _).mapError _).bind (fun _ => hP.keeps_log _)

namespace Steady

variable (hP : Context.Steady P)

include hP

omit [Native W] in
theorem keeps_update (t : Transaction) (f : Shared → Shared) :
    Keeps P (modify (Context.updateShared t f) : Act W ε Unit) :=
  keeps_modify (fun ctx h => hP.shared ctx t f h)

theorem keeps_release (t : Transaction) : Keeps P (t.release : Act W ε Unit) := by
  refine (Lasting.keeps_shared t).bind (fun before => (hP.keeps_update t _).bind (fun _ => ?_))
  split
  · refine (hP.calm.keeps_log _).bind (fun _ => ?_)
    refine (hP.calm.keeps_call _).attempt.bind (fun answer => ?_)
    cases answer with
    | ok _ => exact keeps_pure _
    | error e => exact hP.calm.keeps_log _
  · exact keeps_pure _

theorem keeps_create (manager : Manager) (options : List TransactionOption) :
    Keeps P (manager.createTransaction options : Act W _ _) := by
  refine (keeps_ofExcept _).bind (fun settings ctx h => ?_)
  refine (Policy.create_goes settings ctx).mono ?_ ?_
  · rintro t ⟨world, ambient, shared⟩ ⟨_, _, _, hambient, _, hshared⟩
    cases hambient
    cases hshared
    exact hP.created _ (hP.world ctx world h)
  · rintro failure ⟨world, ambient, shared⟩ ⟨e, _, ⟨_, _, rfl⟩ | ⟨_, _, _, _, _, hambient, hshared⟩⟩
    · exact h
    · cases hambient
      cases hshared
      exact hP.world ctx world h

end Steady

end Context

/-- No step takes such a property away. -/
theorem ApiStep.keeps_steady (hP : Context.Steady P) (step : ApiStep W) : Keeps P step.act := by
  cases step with
  | native call => exact hP.calm.keeps_call call
  | log entry => exact hP.calm.keeps_log entry
  | operation l step => exact hP.calm.keeps_operation l (.scripted step)
  | create manager options => exact hP.keeps_create manager options
  | status t => exact hP.calm.keeps_status t
  | display t => exact hP.calm.keeps_display t
  | commit t => exact hP.calm.keeps_decide t _ _ _
  | rollback t => exact hP.calm.keeps_decide t _ _ _
  | close t => exact hP.calm.keeps_close t
  | setAutoCommit t autoCommit => exact hP.keeps_update t _
  | shared t => exact Context.Lasting.keeps_shared t
  | retain t => exact hP.keeps_update t _
  | release t => exact hP.keeps_release t
  | current => exact keeps_get.bind (fun _ => keeps_pure _)
  | depth => exact keeps_get.bind (fun _ => keeps_pure _)
  | happen change => exact keeps_modify (fun ctx h => hP.world ctx _ h)

end

/-- The steps that there are for work, as a vocabulary. -/
def Vocabulary.api (W : Type) [Native W] : Vocabulary W where
  Step := ApiStep W
  Error := ApiStep.Error
  Answer := ApiStep.Answer
  act := ApiStep.act
  ambient step ctx := (step.keeps_steady (Context.steady_stacked ctx.ambient)).endState rfl

/-! ## The stack before, during and after a policy -/

/-- What a policy puts on the ambient stack for its work, the top first, where `t` is the
    transaction that is created for the work, if one is. -/
def Propagation.pushes (t : Transaction) : Propagation → Option Transaction →
    List (Option Transaction)
  | notSupported, some _ => [none]
  | required, none | requiresNew, none => [some t]
  | requiresNew, some _ => [some t, none]
  | _, _ => []

section

variable {W ε α : Type} [Native W]

theorem Propagation.pushes_of_run {propagation : Propagation} {current : Option Transaction}
    {hides creates : Bool} (hcourse : propagation.course current = .run hides creates)
    (t : Transaction) :
    propagation.pushes t current
      = (if creates then [some t] else []) ++ (if hides then [none] else []) := by
  cases propagation <;> cases current <;> cases hcourse <;> rfl

/-- When the work of a policy starts, the entries of the policy are on the stack. A transaction
    among them is a new one. -/
theorem Policy.entrance_ambient {policy : Policy} {ctx start : Context W}
    (hentry : policy.entrance? ctx = some start) :
    ∃ t, t.id = ctx.shared.length ∧
      start.ambient = policy.propagation.pushes t (Ambient.top ctx.ambient) ++ ctx.ambient := by
  rcases policy.course_cases (Ambient.top ctx.ambient) with ⟨e, hcourse⟩ | ⟨hides, creates, hcourse⟩
  · exact absurd hentry (by rw [entrance?_of_refuse hcourse]; simp)
  · have hhidden := ambient_hidden hides ctx.consulted
    cases creates with
    | false =>
      rw [entrance?_of_plain hcourse, Option.some.injEq] at hentry
      subst hentry
      -- Nothing is created, so any transaction with the next number will do.
      refine ⟨⟨ctx.shared.length, .invalid, ⟨0, 0⟩, none⟩, rfl, ?_⟩
      rw [Propagation.pushes_of_run hcourse]
      exact hhidden
    | true =>
      rcases policy.create_cases (ctx.consulted.hidden hides) with
        ⟨e, created, hcreate, _⟩ | ⟨t, created, hcreate, hambient, hid⟩
      · exact absurd hentry (by rw [entrance?_of_uncreated hcourse hcreate]; simp)
      · rw [entrance?_of_created hcourse hcreate, Option.some.injEq] at hentry
        subst hentry
        refine ⟨t, ?_, ?_⟩
        · rw [hid]
          cases hides <;> rfl
        · rw [Propagation.pushes_of_run hcourse, List.append_assoc]
          exact congrArg (some t :: ·) (hambient.trans hhidden)

/-- The stack is the same at every step of a routine. -/
theorem Routine.everywhere_ambient {v : Vocabulary W} (routine : Routine v ε α) (ctx : Context W) :
    routine.Everywhere (·.ambient = ctx.ambient) ctx := by
  -- Neither a step nor a policy in between changes it.
  suffices h : ∀ stack, ctx.ambient = stack → routine.Everywhere (·.ambient = stack) ctx from
    h ctx.ambient rfl
  intro stack hstack
  induction routine generalizing ctx with
  | done ending => exact hstack
  | step s next ih => exact ⟨hstack, ih _ _ ((v.ambient s ctx).trans hstack)⟩
  | under policy body next _ ih =>
    have hcall : (endState (policy.call body.act) ctx).ambient = ctx.ambient :=
      Policy.ambient_call (fun start _ => body.ambient_act start)
    exact ⟨hstack, ih _ _ (hcall.trans hstack)⟩

/-- After a policy the ambient stack is the same list of entries as before it. Its work starts with
    the entries of the policy on top of that list, and finds just these entries there at each of its
    steps and at its end. A transaction among them is a new one: its number is the next one.

    The work is any routine, so it may run further policies, to which the same applies, and it may
    end with a value, with an error or with a panic; the world gives any answers to the calls that
    are made, those of the policy included. What the work does has an effect on what the policy does
    from the start that is spoken of here and from nowhere else, and none if the policy does not
    come to its work. -/
theorem ambient_stack_is_restored (policy : Policy) (work : Routine (Vocabulary.api W) ε α)
    (ctx : Context W) :
    (endState (policy.call work.act) ctx).ambient = ctx.ambient ∧
      (∀ start, policy.entrance? ctx = some start →
        (∃ t, t.id = ctx.shared.length ∧
          start.ambient = policy.propagation.pushes t (Ambient.top ctx.ambient) ++ ctx.ambient) ∧
        work.Everywhere (·.ambient = start.ambient) start) ∧
      ∀ other : Act W ε α, (∀ start, policy.entrance? ctx = some start →
        other start = work.act start) → policy.call other ctx = policy.call work.act ctx := by
  refine ⟨Policy.ambient_call (fun start _ => work.ambient_act start), ?_, ?_⟩
  · exact fun start hentry => ⟨Policy.entrance_ambient hentry, work.everywhere_ambient start⟩
  · exact fun other hsame => Policy.call_congr hsame

end

end TransactionalRegistry
