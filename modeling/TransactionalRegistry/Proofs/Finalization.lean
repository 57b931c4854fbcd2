import TransactionalRegistry.Native.Faults
import TransactionalRegistry.Proofs.AmbientStack
import TransactionalRegistry.Proofs.Courses
import TransactionalRegistry.Store.Native

/-!
# The calls of a policy that creates a transaction

A policy that creates a transaction makes a few calls by itself: one to create it before the work,
and after the work those of the protocol that finishes it, all of them on the new handle. What comes
out of the policy is put together from the end of the work and from what these calls answer.

The calls are read off a recorder around any world, so the answers are any answers, those included
that no store would give. The work is any routine, and makes its own calls in between; it may do
with its transaction whatever it likes, so it may turn off the commit, or settle or close the
transaction by itself.

## Main definitions

* `Policy.createCall`: The call that creates the transaction of a policy.

## Theorems

* `created_transaction_is_finalized`: The calls of the policy, and what comes out.
-/

namespace TransactionalRegistry

variable {W ε α : Type} [Native W]

namespace Policy

/-- The call that creates the transaction of a policy, with its timeout in milliseconds. -/
def createCall (policy : Policy) (millis : UInt32) : Call :=
  .createTransaction millis policy.settings.description

theorem course_of_creating {policy : Policy} {current : Option Transaction}
    (hcreates : policy.propagation = .requiresNew ∨
      policy.propagation = .required ∧ current = none) :
    policy.propagation.course current = .run current.isSome true := by
  rcases hcreates with hpropagation | ⟨hpropagation, rfl⟩
  · rw [hpropagation]
    cases current <;> rfl
  · rw [hpropagation]
    rfl

end Policy

/-- A policy that creates a transaction for its work does one of three things.

    If the timeout of its settings is rejected, it makes no call and does not come to its work. If
    the call that creates the transaction fails, that is its only call and it does not come to its
    work either. Else the work starts with the new transaction on top of the ambient stack; when the
    work is over, the policy makes the calls by which it finishes the transaction, and these are all
    calls from then on. `Finalizes` says for each end of the work and each state in which the work
    has left its transaction which calls these are, and what the policy ends with. -/
theorem created_transaction_is_finalized (policy : Policy)
    (work : Routine (Vocabulary.api (Recorded W)) ε α) (ctx : Context (Recorded W))
    (hcreates : policy.propagation = .requiresNew ∨
      policy.propagation = .required ∧ Ambient.top ctx.ambient = none) :
    policy.settings.timeout.wholeMillis? = none ∧
        outcome (policy.call work.act) ctx =
          .error (.error (.transaction (.invalidTimeout policy.settings.timeout) [])) ∧
        (endState (policy.call work.act) ctx).world.calls = ctx.world.calls ∧
        (∀ other : Act (Recorded W) ε α, policy.call other ctx = policy.call work.act ctx) ∨
      ∃ millis, policy.settings.timeout.wholeMillis? = some millis ∧
        ((∃ e, outcome (policy.call work.act) ctx =
              .error (.error (.transaction (.native "CreateTransaction" e) [])) ∧
            (endState (policy.call work.act) ctx).world.calls =
              ctx.world.calls ++ [⟨policy.createCall millis, .error e⟩] ∧
            ∀ other : Act (Recorded W) ε α, policy.call other ctx = policy.call work.act ctx) ∨
          ∃ t start finish made, policy.entrance? ctx = some start ∧
            Ambient.top start.ambient = some t ∧
            start.world.calls = ctx.world.calls ++ [⟨policy.createCall millis, .ok t.handle⟩] ∧
            endState work.act start = finish ∧
            (endState (policy.call work.act) ctx).world.calls = finish.world.calls ++ made ∧
            Finalizes t.handle (finish.sharedOf t) (outcome work.act start) made
              (outcome (policy.call work.act) ctx)) := by
  have hcourse := Policy.course_of_creating hcreates
  -- Work that the policy does not come to might as well be any other work.
  have hunrun : policy.entrance? ctx = none →
      ∀ other : Act (Recorded W) ε α, policy.call other ctx = policy.call work.act ctx := by
    intro hentrance other
    refine Policy.call_congr (fun start hstart => ?_)
    rw [hentrance] at hstart
    exact absurd hstart (by simp)
  rcases policy.around work.act ctx (fun start _ => work.ambient_act start) with
    ⟨e, hrefuses⟩ | ⟨hides, start, hplain⟩ | ⟨hides, e, calls, huncreated⟩ |
    ⟨hides, t, start, calls, hnew⟩
  · have hno := hrefuses.course
    rw [hcourse] at hno
    exact absurd hno (by simp)
  · have hno := hplain.course
    rw [hcourse] at hno
    exact absurd hno (by simp)
  · have hcalls := huncreated.world.recorded
    have hother := hunrun huncreated.entrance
    rcases huncreated.reason with ⟨htimeout, rfl, rfl⟩ | ⟨millis, error, hmillis, rfl, rfl⟩
    · rw [List.append_nil] at hcalls
      exact Or.inl ⟨htimeout, huncreated.result, hcalls, hother⟩
    · exact Or.inr ⟨millis, hmillis, Or.inl ⟨error, huncreated.result, hcalls, hother⟩⟩
  · rcases hnew.before with ⟨millis, hmillis, hworld⟩
    have htop : Ambient.top start.ambient = some t := by
      rw [hnew.ambient]
      rfl
    exact Or.inr ⟨millis, hmillis, Or.inr ⟨t, start, _, calls, hnew.entrance, htop,
      hworld.recorded, rfl, hnew.after.recorded, hnew.finalizes⟩⟩

/-- A new store on which neither a commit nor a close succeeds, with a recorder around it. -/
def brokenStore : Recorded (Faulty Store) where
  calls := []
  world :=
    { world := Store.fresh ⟨0, []⟩
      faults := [("commit_transaction", ⟨.fail .transactionalConflict, 0, none⟩),
        ("close_transaction", ⟨.fail .genFailure, 0, none⟩)] }

/-- Work that creates a key and then says seven. -/
def createAndCount : Routine (Vocabulary.api (Recorded (Faulty Store))) Empty Nat :=
  .step (.operation ⟨.currentUser, ⟨["Notes"]⟩⟩ .create) fun _ => .done (.ok 7)

/-- The policy of work on the broken store. -/
def unlucky : Policy :=
  ⟨.required, TransactionSettings.default⟩

/-- The commit fails, so it is the failure of the policy, and the failed close is kept beside it. -/
def doublyFailed : Failure (PropagationError Empty) :=
  .error (.transaction (.native "CommitTransaction" .transactionalConflict)
    [.native "CloseHandle" .genFailure])

theorem unlucky_ends :
    Ends (unlucky.call createAndCount.act) (Context.ofWorld brokenStore) (fun _ _ => False)
      (fun failure _ => failure = doublyFailed) := by
  decide +kernel

theorem finalized_of_createAndCount :
    ∃ h, ∃ made : List CallRecord,
      (∃ start, unlucky.entrance? (Context.ofWorld brokenStore) = some start ∧
        (endState (unlucky.call createAndCount.act) (Context.ofWorld brokenStore)).world.calls =
          (endState createAndCount.act start).world.calls ++ made) ∧
      made.map (·.call) = [.transactionOutcome h, .commitTransaction h, .closeTransaction h] := by
  have hresult : outcome (unlucky.call createAndCount.act) (Context.ofWorld brokenStore)
      = .error doublyFailed :=
    (unlucky_ends.mono (fun _ _ h => h.elim) (fun _ _ h => congrArg Except.error h)).outcome
      (P := fun result _ => result = .error doublyFailed)
  rcases created_transaction_is_finalized unlucky createAndCount (Context.ofWorld brokenStore)
    (Or.inr ⟨rfl, rfl⟩) with ⟨hrejected, _⟩ | ⟨millis, _, ⟨e, hfails, _⟩ |
      ⟨t, start, finish, made, hentrance, _, _, rfl, hcalls, hfinalizes⟩⟩
  · exact absurd hrejected (by decide)
  · rw [hresult] at hfails
    exact absurd hfails (by simp [doublyFailed])
  · refine ⟨t.handle, made, ⟨start, hentrance, hcalls⟩, ?_⟩
    generalize outcome (unlucky.call createAndCount.act) (Context.ofWorld brokenStore) = result
      at hfinalizes hresult
    generalize Context.sharedOf _ t = shared at hfinalizes
    rcases shared with ⟨autoCommit, closed, clones⟩
    -- Only a refused commit and a failed close make up this failure.
    cases hfinalizes with
    | unsettled hsettles hcloses =>
      cases hsettles with
      | unasked hasks =>
        cases hasks with
        | failed _ => exact absurd hresult (by simp [doublyFailed])
      | refused hasks =>
        cases hasks with
        | known =>
          cases hcloses with
          | closed => cases hresult
          | failed => rfl
    | _ => cases hresult

end TransactionalRegistry
