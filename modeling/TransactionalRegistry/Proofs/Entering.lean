import TransactionalRegistry.Proofs.Acts

/-!
# How a policy comes to its work

A policy looks at the current transaction and takes one of four courses: it refuses the work, or it
runs it, and then it may hide the current transaction, create a new one, do both or neither. What it
puts on the ambient stack for that it takes off again afterwards, whichever way the work ends.

## Main definitions

* `Course`: What a policy does about its work.
* `Propagation.course`: The course that a policy takes.
* `Context.pushed`: The context with one more entry on the stack.
* `Context.hidden`, `Context.shown`: The current transaction is hidden, and then no longer.
* `Policy.started`: Where work starts in a transaction that was just created.

## Theorems

* `Ambient.within_outcome`, `Ambient.within_endState`: Work with one more entry on the stack.
* `Policy.call_of_refuse`, `Policy.call_of_run`: A policy takes its course.
* `Policy.create_goes`: A transaction is created by one call.
* `Policy.inNewTransaction_outcome`, `Policy.inNewTransaction_endState`: Work in a new transaction.
-/

namespace TransactionalRegistry

variable {W ε ε' α : Type}

/-! ## Courses -/

/-- What a policy does about its work: it refuses it, or it runs it, with the current transaction
    hidden or not, and in a new transaction or not. -/
inductive Course where
  | refuse (error : TransactionError)
  | run (hides creates : Bool)
  deriving DecidableEq

/-- The course that a policy takes. -/
def Propagation.course : Propagation → Option Transaction → Course
  | mandatory, none => .refuse .transactionRequired
  | never, some _ => .refuse .transactionNotAllowed
  | mandatory, some _ | required, some _ | supports, some _ => .run false false
  | supports, none | notSupported, none | never, none => .run false false
  | notSupported, some _ => .run true false
  | required, none | requiresNew, none => .run false true
  | requiresNew, some _ => .run true true

/-! ## One more entry on the stack -/

/-- The context with one more entry on the ambient stack. -/
def Context.pushed [Native W] (entry : Option Transaction) (ctx : Context W) : Context W :=
  let retained := match entry with
    | none => ctx
    | some t => ctx.updateShared t fun shared => { shared with clones := shared.clones + 1 }
  { retained.logged (.trace "enter ambient scope") with ambient := entry :: ctx.ambient }

/-- The context in which a policy takes its course. -/
def Context.consulted [Native W] (ctx : Context W) : Context W :=
  ctx.logged (.trace "propagation policy entered")

variable [Native W]

namespace Transaction

/-- Whether closing it succeeds or not, there is one call. -/
theorem closeAbandoned_goes (t : Transaction) (ctx : Context W) :
    Ends (t.closeAbandoned : Act W ε Unit) ctx
      (fun _ ctx' => ∃ result, ctx.Goes t [⟨.closeTransaction t.handle, result⟩] ctx' ∧
        ctx'.shared = ctx.shared)
      (fun _ _ => False) := by
  unfold closeAbandoned
  refine ends_bind (Act.ends_log (ends_bind (Act.ends_attempt (Act.ends_call ?_ ?_))))
  · intro answer world hperform
    exact ends_pure ⟨_, (Context.goes_logged t _ ctx).trans (Context.goes_ok hperform), rfl⟩
  · intro e world hperform
    have hcall := (Context.goes_logged t _ ctx).trans (Context.goes_error hperform)
    exact Act.ends_log ⟨_, hcall.logged, rfl⟩

theorem release_goes (t : Transaction) (ctx : Context W) :
    Ends (t.release : Act W ε Unit) ctx
      (fun _ ctx' => ∃ calls, ctx.Goes t calls ctx' ∧
        ((ctx.sharedOf t).closed = true → calls = [] ∧ (ctx'.sharedOf t).closed = true))
      (fun _ _ => False) := by
  unfold release
  refine ends_bind (ends_bind (ends_get (ends_pure (ends_bind (ends_modify ?_)))))
  have hgiven := Context.goes_updateShared t
    (fun shared => { shared with clones := shared.clones - 1 }) ctx
  by_cases hlast : (ctx.sharedOf t).clones = 1 ∧ !(ctx.sharedOf t).closed
  · rw [if_pos hlast]
    refine (closeAbandoned_goes t _).mono ?_ (fun _ _ h => h)
    rintro _ ctx' ⟨result, hgoes, _⟩
    -- A transaction that is closed is not closed again when its last clone is given up.
    refine ⟨_, hgiven.trans hgoes, fun hclosed => ?_⟩
    exact absurd hlast.2 (by rw [hclosed]; simp)
  · rw [if_neg hlast]
    refine ends_pure ⟨[], hgiven, fun hclosed => ⟨rfl, ?_⟩⟩
    exact Context.closed_updateShared ctx hclosed

end Transaction

namespace Ambient

theorem enter_eq (entry : Option Transaction) (ctx : Context W) :
    (enter entry : Act W ε Unit) ctx = .ok () (ctx.pushed entry) := by
  cases entry with
  | none => rfl
  | some t => rfl

/-- Leaving takes the top entry off the stack and cannot fail. -/
theorem leave_of_none {ctx : Context W} (htop : top ctx.ambient = none) :
    (leave : Act W ε Unit) ctx = .ok () (Context.logged (.trace "leave ambient scope")
      { ctx with ambient := ctx.ambient.tail }) := by
  unfold leave
  refine (bind_of_ok rfl).trans ((bind_of_ok rfl).trans (bind_of_ok (Act.log_eq _ _) |>.trans ?_))
  rw [htop]
  rfl

/-- A transaction on top is given up. That takes a call only if its last clone was the one on the
    stack and it is still open. -/
theorem leave_of_some {ctx : Context W} {t : Transaction} (htop : top ctx.ambient = some t) :
    Ends (leave : Act W ε Unit) ctx
      (fun _ ctx' => ∃ calls, ({ ctx with ambient := ctx.ambient.tail } : Context W).Goes t calls
          ctx' ∧ ((ctx.sharedOf t).closed = true → calls = []))
      (fun _ _ => False) := by
  unfold leave
  -- Leaving takes the entry off first, and only then gives the transaction up.
  refine ends_bind (ends_get (ends_bind (ends_modify (ends_bind (Act.ends_log ?_)))))
  have hlogged := Context.goes_logged t (.trace "leave ambient scope")
    ({ ctx with ambient := ctx.ambient.tail } : Context W)
  rw [htop]
  refine (Transaction.release_goes t _).mono ?_ (fun _ _ h => h)
  rintro _ ctx' ⟨calls, hgoes, hcalls⟩
  exact ⟨calls, hlogged.trans hgoes, fun hclosed => (hcalls hclosed).1⟩

theorem leave_ends (ctx : Context W) :
    Ends (leave : Act W ε Unit) ctx (fun _ ctx' => ctx'.ambient = ctx.ambient.tail)
      (fun _ _ => False) := by
  cases htop : top ctx.ambient with
  | none =>
    unfold Ends
    rw [leave_of_none htop]
    rfl
  | some t =>
    refine (leave_of_some htop).mono ?_ (fun _ _ h => h)
    rintro _ ctx' ⟨_, hgoes, _⟩
    exact hgoes.ambient

theorem leave_ambient (ctx : Context W) :
    (endState (leave : Act W Empty Unit) ctx).ambient = ctx.ambient.tail :=
  (leave_ends ctx).endState_total

theorem within_eq (entry : Option Transaction) (act : Act W ε α) (ctx : Context W) :
    within entry act ctx = act.ensuring leave (ctx.pushed entry) :=
  bind_of_ok (enter_eq entry ctx)

/-- Work with one more entry on the stack ends as it does from there. -/
theorem within_outcome (entry : Option Transaction) (act : Act W ε α) (ctx : Context W) :
    outcome (within entry act) ctx = outcome act (ctx.pushed entry) := by
  rw [outcome, within_eq, ← outcome]
  exact outcome_ensuring ((leave_ends _).mono (fun _ _ _ => trivial) (fun _ _ h => h))

theorem within_endState (entry : Option Transaction) (act : Act W ε α) (ctx : Context W) :
    endState (within entry act) ctx =
      endState (leave : Act W Empty Unit) (endState act (ctx.pushed entry)) := by
  rw [endState, within_eq, ← endState]
  exact endState_ensuring act leave _

end Ambient

/-! ## Taking a course -/

namespace Policy

/-- Work with the current transaction hidden, if it is to be. -/
def sheltering (hides : Bool) (act : Act W ε α) : Act W ε α :=
  if hides then Ambient.within none act else act

/-- Work in a new transaction, if one is to be created. -/
def creating (policy : Policy) (creates : Bool) (act : Act W ε α) : Act W (PropagationError ε) α :=
  if creates then policy.inNewTransaction act else plainly act

variable {policy : Policy} {ctx : Context W}

/-- A policy takes its course. -/
theorem call_eq (policy : Policy) (act : Act W ε α) (ctx : Context W) :
    policy.call act ctx =
      match policy.propagation.course (Ambient.top ctx.ambient) with
      | .refuse e => .error (.error (.ofTransaction e)) ctx.consulted
      | .run hides creates => sheltering hides (policy.creating creates act) ctx.consulted := by
  have hcurrent : (Ambient.current : Act W (PropagationError ε) _) ctx
      = .ok (Ambient.top ctx.ambient) ctx := rfl
  have hconsulted : (Act.log (.trace "propagation policy entered") :
      Act W (PropagationError ε) Unit) ctx = .ok () ctx.consulted := rfl
  unfold call
  rw [bind_of_ok hcurrent, bind_of_ok hconsulted]
  cases policy.propagation <;> cases Ambient.top ctx.ambient <;>
    simp only [Propagation.course, sheltering, creating, if_true, if_false, Bool.false_eq_true]
  -- What is left are the two refusals.
  · rfl
  · rfl

theorem call_of_refuse {e : TransactionError} (act : Act W ε α)
    (hcourse : policy.propagation.course (Ambient.top ctx.ambient) = .refuse e) :
    policy.call act ctx = .error (.error (.ofTransaction e)) ctx.consulted := by
  rw [call_eq, hcourse]

theorem call_of_run {hides creates : Bool} (act : Act W ε α)
    (hcourse : policy.propagation.course (Ambient.top ctx.ambient) = .run hides creates) :
    policy.call act ctx = sheltering hides (policy.creating creates act) ctx.consulted := by
  rw [call_eq, hcourse]

end Policy

/-- The context with the current transaction hidden, if it is to be. -/
def Context.hidden (hides : Bool) (ctx : Context W) : Context W :=
  if hides then ctx.pushed none else ctx

/-- The context after the current transaction was hidden, if it was. -/
def Context.shown (hides : Bool) (ctx : Context W) : Context W :=
  if hides then endState (Ambient.leave : Act W Empty Unit) ctx else ctx

namespace Policy

theorem sheltering_outcome (hides : Bool) (act : Act W ε α) (ctx : Context W) :
    outcome (sheltering hides act) ctx = outcome act (ctx.hidden hides) := by
  cases hides with
  | false => rfl
  | true => exact Ambient.within_outcome none act ctx

theorem sheltering_endState (hides : Bool) (act : Act W ε α) (ctx : Context W) :
    endState (sheltering hides act) ctx = (endState act (ctx.hidden hides)).shown hides := by
  cases hides with
  | false => rfl
  | true => exact Ambient.within_endState none act ctx

/-! ## Creating a transaction -/

-- The equation is one of functions: at given settings their timeout would have to be evaluated.
theorem create_eq : @Transaction.create W _ = fun timeout description =>
    (match timeout.wholeMillis? with
    | none => Act.fail (.invalidTimeout timeout)
    | some millis => do
      let handle ← Transaction.calling "CreateTransaction"
        (Act.call (.createTransaction millis description))
      Act.log (.debug "transaction created")
      modifyGet fun ctx =>
        (⟨ctx.shared.length, handle, timeout, description⟩,
          { ctx with shared := ctx.shared ++ [Shared.fresh] })) := by
  delta Transaction.create
  rfl

/-- A transaction is created by one call, unless its timeout is rejected before that. -/
theorem create_goes (settings : TransactionSettings) (ctx : Context W) :
    Ends (Transaction.create settings.timeout settings.description) ctx
      (fun t ctx' => ∃ millis, settings.timeout.wholeMillis? = some millis ∧
        Transcript ctx.world [⟨.createTransaction millis settings.description, .ok t.handle⟩]
          ctx'.world ∧ ctx'.ambient = ctx.ambient ∧ t.id = ctx.shared.length ∧
        ctx'.shared = ctx.shared ++ [Shared.fresh])
      (fun failure ctx' => ∃ e, failure = .error e ∧
        (settings.timeout.wholeMillis? = none ∧ e = .invalidTimeout settings.timeout ∧ ctx' = ctx ∨
          ∃ millis error, settings.timeout.wholeMillis? = some millis ∧
            e = .native "CreateTransaction" error ∧
            Transcript ctx.world [⟨.createTransaction millis settings.description, .error error⟩]
              ctx'.world ∧ ctx'.ambient = ctx.ambient ∧ ctx'.shared = ctx.shared)) := by
  rw [create_eq]
  simp only []
  cases hmillis : settings.timeout.wholeMillis? with
  | none => exact ends_throw ⟨_, rfl, Or.inl ⟨rfl, rfl, rfl⟩⟩
  | some millis =>
    refine ends_bind (Act.ends_mapError (Act.ends_call ?_ ?_))
    · intro handle world hperform
      exact ends_bind (Act.ends_log ⟨millis, rfl, .ok hperform (.log _ (.nil _)), rfl, rfl, rfl⟩)
    · intro error world hperform
      exact ⟨_, rfl, Or.inr ⟨millis, error, rfl, rfl, .error hperform (.nil _), rfl, rfl⟩⟩

/-- Where work starts in a transaction that was just created. -/
def started (t : Transaction) (created : Context W) : Context W :=
  (created.logged (.debug "running in new transaction")).pushed (some t)

/-- The transaction of a policy that creates one. -/
def create (policy : Policy) : Act W TransactionError Transaction :=
  Transaction.create policy.settings.timeout policy.settings.description

variable {policy : Policy} {ctx created : Context W} {t : Transaction}

theorem inNewTransaction_of_error {e : TransactionError} (act : Act W ε α)
    (hcreate : policy.create ctx = .error (.error e) created) :
    policy.inNewTransaction act ctx = .error (.error (.ofTransaction e)) created := by
  have hfailed : (policy.create.mapError PropagationError.ofTransaction :
      Act W (PropagationError ε) _) ctx = .error (.error (.ofTransaction e)) created := by
    rw [Act.mapError, hcreate]
  exact bind_of_error hfailed

theorem inNewTransaction_of_ok (act : Act W ε α) (hcreate : policy.create ctx = .ok t created) :
    policy.inNewTransaction act ctx =
      Ambient.within (some t) (finishing t act)
        (created.logged (.debug "running in new transaction")) := by
  have hcreated : (policy.create.mapError PropagationError.ofTransaction :
      Act W (PropagationError ε) _) ctx = .ok t created := by
    rw [Act.mapError, hcreate]
  exact (bind_of_ok hcreated).trans (bind_of_ok (Act.log_eq _ created))

theorem inNewTransaction_outcome (act : Act W ε α) (hcreate : policy.create ctx = .ok t created) :
    outcome (policy.inNewTransaction act) ctx = outcome (finishing t act) (started t created) := by
  rw [outcome, inNewTransaction_of_ok act hcreate, ← outcome]
  exact Ambient.within_outcome _ _ _

theorem inNewTransaction_endState (act : Act W ε α) (hcreate : policy.create ctx = .ok t created) :
    endState (policy.inNewTransaction act) ctx =
      endState (Ambient.leave : Act W Empty Unit)
        (endState (finishing t act) (started t created)) := by
  rw [endState, inNewTransaction_of_ok act hcreate, ← endState]
  exact Ambient.within_endState _ _ _

end Policy

end TransactionalRegistry
