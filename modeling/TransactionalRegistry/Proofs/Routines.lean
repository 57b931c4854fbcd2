import TransactionalRegistry.Proofs.Finalizing

/-!
# Routines

A routine is work of any shape: it takes steps from some vocabulary, runs other routines under
policies, and goes on from the end of each as it likes, whether that was a value, an error or a
panic. So it may pass on a failure, swallow it or turn it into another one, and it ends in whichever
way it likes itself. A routine is a tree with a branch for every way in which a step or a policy may
end; policies may be nested to any depth.

Where the work of a policy starts, the policy tells by itself: work that fails at once, with the
context that it finds as its error, brings that context out. `Policy.entrance?` asks a policy in
this way. All work under it starts from there.

## Main definitions

* `Act.caught`: An act with its end, of whichever kind, as an answer.
* `Vocabulary`: The steps that a routine may take, none of which touches the ambient stack.
* `Routine`: Steps, and routines under policies, one after the other.
* `Routine.act`: The work that a routine does.
* `Policy.entrance?`: The context that the work of a policy starts from.
* `Routine.Everywhere`: What holds at every step of a run, from its start to its end.

## Theorems

* `Policy.call_of_plain`, `Policy.call_of_uncreated`, `Policy.call_of_created`: What a policy does,
  by the end of its work.
* `Policy.entrance?_of_refuse`, `Policy.entrance?_of_plain`, `Policy.entrance?_of_uncreated`,
  `Policy.entrance?_of_created`: Where its work starts.
* `Policy.call_congr`: What a policy does depends on its work by what that does from its start.
* `Policy.ambient_call`, `Routine.ambient_act`: The ambient stack is restored.
-/

namespace TransactionalRegistry

variable {W ε ε' α β : Type}

/-- An act with its end as an answer: a value, an error or a panic. -/
def Act.caught (act : Act W ε α) : Act W ε' (Except (Failure ε) α) := fun ctx =>
  .ok (outcome act ctx) (endState act ctx)

/-- The steps that a routine may take. They fail with errors of their own kinds, and leave the
    ambient stack as they find it. -/
structure Vocabulary (W : Type) where
  Step : Type
  Error : Step → Type
  Answer : Step → Type
  act : (step : Step) → Act W (Error step) (Answer step)
  ambient : ∀ step ctx, (endState (act step) ctx).ambient = ctx.ambient

/-- Work of any shape. It is done, or it takes a step, or it runs a routine under a policy, and goes
    on from how that has ended. -/
inductive Routine (v : Vocabulary W) : Type → Type → Type 1
  | done {ε α : Type} (ending : Except (Failure ε) α) : Routine v ε α
  | step {ε α : Type} (step : v.Step)
      (next : Except (Failure (v.Error step)) (v.Answer step) → Routine v ε α) : Routine v ε α
  | under {ε' β ε α : Type} (policy : Policy) (body : Routine v ε' β)
      (next : Except (Failure (PropagationError ε')) β → Routine v ε α) : Routine v ε α

variable [Native W]

/-- The work that a routine does. -/
def Routine.act {v : Vocabulary W} {ε α : Type} : Routine v ε α → Act W ε α
  | done ending => Act.ended ending
  | step s next => do
    let ending ← (v.act s).caught
    (next ending).act
  | under policy body next => do
    let ending ← (policy.call body.act).caught
    (next ending).act

/-! ## What a policy does -/

namespace Policy

variable {policy : Policy} {ctx created : Context W} {hides : Bool} {t : Transaction}

/-- The context that a policy leaves behind when its work, in no new transaction, is over. -/
theorem call_of_plain (act : Act W ε α)
    (hcourse : policy.propagation.course (Ambient.top ctx.ambient) = .run hides false) :
    outcome (policy.call act) ctx
        = (outcome act (ctx.consulted.hidden hides)).mapError (Failure.map .ofAction) ∧
      endState (policy.call act) ctx
        = (endState act (ctx.consulted.hidden hides)).shown hides := by
  have hrun : policy.creating false act = plainly act := rfl
  constructor
  · rw [outcome, call_of_run act hcourse, ← outcome, sheltering_outcome, hrun]
    exact outcome_mapError _ _ _
  · rw [endState, call_of_run act hcourse, ← endState, sheltering_endState, hrun]
    exact congrArg (Context.shown hides) (endState_mapError _ _ _)

/-- A transaction that cannot be created is a failure of the policy. -/
theorem call_of_uncreated {e : TransactionError} (act : Act W ε α)
    (hcourse : policy.propagation.course (Ambient.top ctx.ambient) = .run hides true)
    (hcreate : policy.create (ctx.consulted.hidden hides) = .error (.error e) created) :
    outcome (policy.call act) ctx = .error (.error (.ofTransaction e)) ∧
      endState (policy.call act) ctx = created.shown hides := by
  have hrun : policy.creating true act = policy.inNewTransaction act := rfl
  have hfails := inNewTransaction_of_error act hcreate
  constructor
  · rw [outcome, call_of_run act hcourse, ← outcome, sheltering_outcome, hrun, outcome, hfails]
  · rw [endState, call_of_run act hcourse, ← endState, sheltering_endState, hrun,
      endState_of_error hfails]

/-- A transaction that was created is finished when the work is over, and taken off the stack. -/
theorem call_of_created (act : Act W ε α)
    (hcourse : policy.propagation.course (Ambient.top ctx.ambient) = .run hides true)
    (hcreate : policy.create (ctx.consulted.hidden hides) = .ok t created) :
    outcome (policy.call act) ctx = outcome (finishing t act) (started t created) ∧
      endState (policy.call act) ctx
        = (endState (Ambient.leave : Act W Empty Unit)
            (endState (finishing t act) (started t created))).shown hides := by
  have hrun : policy.creating true act = policy.inNewTransaction act := rfl
  constructor
  · rw [outcome, call_of_run act hcourse, ← outcome, sheltering_outcome, hrun]
    exact inNewTransaction_outcome act hcreate
  · rw [endState, call_of_run act hcourse, ← endState, sheltering_endState, hrun]
    exact congrArg (Context.shown hides) (inNewTransaction_endState act hcreate)

/-- How finishing a transaction ends, and what it leaves behind, once the work is over. -/
theorem finished (t : Transaction) (act : Act W ε α) (start : Context W) :
    Finished t (outcome act start) (endState act start) (outcome (finishing t act) start)
      (endState (finishing t act) start) := by
  have hends := finishing_goes t (outcome act start) (endState act start)
  have hrun := finishing_eq t act start
  unfold Ends at hends
  rw [← hrun] at hends
  exact Ends.outcome (P := Finished t (outcome act start) (endState act start)) hends

/-! ### Where its work starts -/

/-- Work that fails at once, with the context that it finds as its error. -/
def probe : Act W (Context W) Empty := fun here =>
  .error (.error here) here

/-- The context that a failure of such work has brought out. -/
def revealed : Except (Failure (PropagationError (Context W))) Empty → Option (Context W)
  | .error (.error (.action start _)) => some start
  | _ => none

/-- The context that the work of a policy starts from, if the policy comes to it. -/
def entrance? (policy : Policy) (ctx : Context W) : Option (Context W) :=
  revealed (outcome (policy.call probe) ctx)

theorem entrance?_of_refuse {e : TransactionError}
    (hcourse : policy.propagation.course (Ambient.top ctx.ambient) = .refuse e) :
    policy.entrance? ctx = none := by
  rw [entrance?, outcome, call_of_refuse probe hcourse]
  rfl

theorem entrance?_of_plain
    (hcourse : policy.propagation.course (Ambient.top ctx.ambient) = .run hides false) :
    policy.entrance? ctx = some (ctx.consulted.hidden hides) := by
  rw [entrance?, (call_of_plain probe hcourse).1]
  rfl

theorem entrance?_of_uncreated {e : TransactionError}
    (hcourse : policy.propagation.course (Ambient.top ctx.ambient) = .run hides true)
    (hcreate : policy.create (ctx.consulted.hidden hides) = .error (.error e) created) :
    policy.entrance? ctx = none := by
  rw [entrance?, (call_of_uncreated probe hcourse hcreate).1]
  rfl

theorem entrance?_of_created
    (hcourse : policy.propagation.course (Ambient.top ctx.ambient) = .run hides true)
    (hcreate : policy.create (ctx.consulted.hidden hides) = .ok t created) :
    policy.entrance? ctx = some (started t created) := by
  rw [entrance?, (call_of_created probe hcourse hcreate).1]
  -- The error of the work is what comes out of finishing the transaction.
  rcases finished t probe (started t created) with ⟨calls, _, _, hfinalizes⟩
  generalize outcome (finishing t probe) (started t created) = result at hfinalizes
  cases hfinalizes with
  | failed => rfl

omit [Native W] in
theorem course_cases (policy : Policy) (current : Option Transaction) :
    (∃ e, policy.propagation.course current = .refuse e) ∨
      ∃ hides creates, policy.propagation.course current = .run hides creates := by
  cases policy.propagation.course current with
  | refuse e => exact Or.inl ⟨e, rfl⟩
  | run hides creates => exact Or.inr ⟨hides, creates, rfl⟩

/-! ### The ambient stack -/

theorem ambient_shown (hides : Bool) {stack : List (Option Transaction)}
    (h : ctx.ambient = (if hides then [none] else []) ++ stack) :
    (ctx.shown hides).ambient = stack := by
  cases hides with
  | false => exact h
  | true =>
    have hleave := Ambient.leave_ambient ctx
    rw [h] at hleave
    exact hleave

theorem ambient_hidden (hides : Bool) (ctx : Context W) :
    (ctx.hidden hides).ambient = (if hides then [none] else []) ++ ctx.ambient := by
  cases hides with
  | false => rfl
  | true => rfl

/-- Creating a transaction leaves the stack as it is, and cannot panic. -/
theorem create_cases (policy : Policy) (ctx : Context W) :
    (∃ e created, policy.create ctx = .error (.error e) created ∧ created.ambient = ctx.ambient) ∨
      ∃ t created, policy.create ctx = .ok t created ∧ created.ambient = ctx.ambient ∧
        t.id = ctx.shared.length := by
  have hcreate := create_goes policy.settings ctx
  cases hrun : policy.create ctx with
  | ok t created =>
    rcases hcreate.ok hrun with ⟨_, _, _, hambient, hid, _⟩
    exact Or.inr ⟨t, created, rfl, hambient, hid⟩
  | error failure created =>
    rcases hcreate.error hrun with ⟨e, rfl, ⟨_, _, rfl⟩ | ⟨_, _, _, _, _, hambient, _⟩⟩
    · exact Or.inl ⟨e, created, rfl, rfl⟩
    · exact Or.inl ⟨e, created, rfl, hambient⟩

/-- What a policy does depends on its work by what that does from its start, and on nothing else. It
    does not depend on the work at all if it does not come to it. -/
theorem call_congr {act act' : Act W ε α}
    (hsame : ∀ start, policy.entrance? ctx = some start → act start = act' start) :
    policy.call act ctx = policy.call act' ctx := by
  have hends : ∀ {start : Context W}, policy.entrance? ctx = some start →
      outcome act start = outcome act' start ∧ endState act start = endState act' start := by
    intro start hentry
    rw [outcome, outcome, endState, endState, hsame start hentry]
    exact ⟨rfl, rfl⟩
  rw [Act.eq_ended (policy.call act), Act.eq_ended (policy.call act')]
  rcases policy.course_cases (Ambient.top ctx.ambient) with ⟨e, hcourse⟩ | ⟨hides, creates, hcourse⟩
  · rw [outcome, outcome, endState, endState, call_of_refuse act hcourse,
      call_of_refuse act' hcourse]
  · cases creates with
    | false =>
      rcases hends (entrance?_of_plain hcourse) with ⟨houtcome, hendState⟩
      rw [(call_of_plain act hcourse).1, (call_of_plain act hcourse).2, houtcome, hendState,
        (call_of_plain act' hcourse).1, (call_of_plain act' hcourse).2]
    | true =>
      rcases policy.create_cases (ctx.consulted.hidden hides) with
        ⟨e, created, hcreate, _⟩ | ⟨t, created, hcreate, _⟩
      · rw [(call_of_uncreated act hcourse hcreate).1, (call_of_uncreated act hcourse hcreate).2,
          (call_of_uncreated act' hcourse hcreate).1, (call_of_uncreated act' hcourse hcreate).2]
      · rcases hends (entrance?_of_created hcourse hcreate) with ⟨houtcome, hendState⟩
        have hfinishing : finishing t act (started t created)
            = finishing t act' (started t created) := by
          rw [finishing_eq, finishing_eq t act', houtcome, hendState]
        have hfinished : outcome (finishing t act) (started t created)
              = outcome (finishing t act') (started t created) ∧
            endState (finishing t act) (started t created)
              = endState (finishing t act') (started t created) := by
          rw [outcome, outcome, endState, endState, hfinishing]
          exact ⟨rfl, rfl⟩
        rw [(call_of_created act hcourse hcreate).1, (call_of_created act hcourse hcreate).2,
          (call_of_created act' hcourse hcreate).1, (call_of_created act' hcourse hcreate).2,
          hfinished.1, hfinished.2]

/-- A policy restores the ambient stack, if its work does. -/
theorem ambient_call {act : Act W ε α}
    (hact : ∀ start, policy.entrance? ctx = some start →
      (endState act start).ambient = start.ambient) :
    (endState (policy.call act) ctx).ambient = ctx.ambient := by
  rcases policy.course_cases (Ambient.top ctx.ambient) with ⟨e, hcourse⟩ | ⟨hides, creates, hcourse⟩
  · rw [endState, call_of_refuse act hcourse]
    rfl
  · cases creates with
    | false =>
      rw [(call_of_plain act hcourse).2]
      refine ambient_shown hides ?_
      rw [hact _ (entrance?_of_plain hcourse)]
      exact ambient_hidden hides ctx.consulted
    | true =>
      rcases policy.create_cases (ctx.consulted.hidden hides) with
        ⟨e, created, hcreate, hambient⟩ | ⟨t, created, hcreate, hambient, _⟩
      · rw [(call_of_uncreated act hcourse hcreate).2]
        exact ambient_shown hides (hambient.trans (ambient_hidden hides ctx.consulted))
      · rw [(call_of_created act hcourse hcreate).2]
        -- The work ends with its transaction on top, and finishing leaves it there.
        rcases finished t act (started t created) with ⟨calls, hgoes, _, _⟩
        have htop : (endState (finishing t act) (started t created)).ambient
            = some t :: created.ambient :=
          hgoes.ambient.trans (hact _ (entrance?_of_created hcourse hcreate))
        refine ambient_shown hides ?_
        rw [Ambient.leave_ambient, htop]
        exact hambient.trans (ambient_hidden hides ctx.consulted)

end Policy

namespace Routine

variable {v : Vocabulary W}

/-- What holds at every step of a run, from its start to its end. -/
def Everywhere (P : Context W → Prop) {ε α : Type} : Routine v ε α → Context W → Prop
  | done _, ctx => P ctx
  | step s next, ctx =>
    P ctx ∧ (next (outcome (v.act s) ctx)).Everywhere P (endState (v.act s) ctx)
  | under policy body next, ctx =>
    P ctx ∧ (next (outcome (policy.call body.act) ctx)).Everywhere P
      (endState (policy.call body.act) ctx)

/-- A routine leaves the ambient stack as it finds it. -/
theorem ambient_act {ε α : Type} (routine : Routine v ε α) (ctx : Context W) :
    (endState routine.act ctx).ambient = ctx.ambient := by
  induction routine generalizing ctx with
  | done ending => cases ending <;> rfl
  | step s next ih => exact (ih _ _).trans (v.ambient s ctx)
  | under policy body next ihbody ih =>
    have hcall : (endState (policy.call body.act) ctx).ambient = ctx.ambient :=
      Policy.ambient_call (fun start _ => ihbody start)
    exact (ih _ _).trans hcall

end Routine

end TransactionalRegistry
