import TransactionalRegistry.Proofs.Finalization

/-!
# Which work a policy admits

A policy goes by the current transaction: the one on top of the ambient stack, if that entry is one.
From it alone the policy tells whether it refuses the work or where it runs it. Work that is not
refused, and whose transaction could be created if it needs one, is run once.

That is so at every level of a nest. Wherever policies are called inside the work of policies, each
one finds on the stack what those around it have put there, so it is again the current transaction
that it goes by; and a transaction that it creates is none of those below it on the stack.

## Main definitions

* `Place`: Where a policy runs its work.
* `Propagation.place`: What a policy makes of the current transaction.
* `Context.Registered`: The transactions on the ambient stack are among those created so far.
* `Policy.Admits`: What a policy does about its work, by the place.
* `Routine.AtPolicies`: What holds wherever a policy is called, however deep.

## Theorems

* `Policy.admits`: A policy does with its work what the place says.
* `Routine.keeps_created`: The transactions created so far are not forgotten.
* `policies_admit_their_work`: Every policy of a nest does.
-/

namespace TransactionalRegistry

variable {W ε α : Type}

/-! ## Places -/

/-- Where a policy runs its work: not at all, in the transaction that is current, outside of any, or
    in a new one. -/
inductive Place where
  | refused (e : TransactionError)
  | inside (t : Transaction)
  | outside
  | inNew
  deriving DecidableEq

/-- What a policy makes of the current transaction. -/
def Propagation.place : Propagation → Option Transaction → Place
  | mandatory, none => .refused .transactionRequired
  | never, some _ => .refused .transactionNotAllowed
  | mandatory, some t | required, some t | supports, some t => .inside t
  | supports, none | never, none | notSupported, _ => .outside
  | required, none | requiresNew, _ => .inNew

theorem Propagation.place_of_refuse {propagation : Propagation} {current : Option Transaction}
    {e : TransactionError} (h : propagation.course current = .refuse e) :
    propagation.place current = .refused e := by
  cases propagation <;> cases current <;> cases h <;> rfl

theorem Propagation.place_of_plain {propagation : Propagation} {current : Option Transaction}
    {hides : Bool} (h : propagation.course current = .run hides false) :
    propagation.place current = .outside ∧ (hides = true ∨ current = none) ∨
      ∃ t, propagation.place current = .inside t ∧ hides = false ∧ current = some t := by
  cases propagation <;> cases current <;> cases h <;>
    first | exact Or.inl ⟨rfl, Or.inl rfl⟩ | exact Or.inl ⟨rfl, Or.inr rfl⟩ |
      exact Or.inr ⟨_, rfl, rfl, rfl⟩

theorem Propagation.place_of_creating {propagation : Propagation} {current : Option Transaction}
    {hides : Bool} (h : propagation.course current = .run hides true) :
    propagation.place current = .inNew := by
  cases propagation <;> cases current <;> cases h <;> rfl

/-! ## Transactions on the stack -/

/-- The transactions on the ambient stack are among those that were created so far. -/
def Context.Registered (ctx : Context W) : Prop :=
  ∀ t, some t ∈ ctx.ambient → t.id < ctx.shared.length

/-- At least so many transactions were created so far. -/
def Context.Created (n : Nat) (ctx : Context W) : Prop :=
  n ≤ ctx.shared.length

namespace Context

theorem registered_ofWorld (world : W) : (Context.ofWorld world).Registered :=
  fun _ h => absurd h List.not_mem_nil

theorem steady_created (n : Nat) : Context.Steady (@Context.Created W n) where
  world _ _ h := h
  shared ctx t f h := by
    unfold Created updateShared
    rw [List.length_modify]
    exact h
  created ctx h := by
    unfold Created
    rw [List.length_append]
    exact Nat.le_trans h (Nat.le_add_right _ _)

/-- The stack as it was, and no transaction forgotten. -/
theorem Registered.later {ctx ctx' : Context W} (h : ctx.Registered)
    (hambient : ctx'.ambient = ctx.ambient) (hcreated : ctx'.Created ctx.shared.length) :
    ctx'.Registered := by
  intro t ht
  rw [hambient] at ht
  exact Nat.lt_of_lt_of_le (h t ht) hcreated

end Context

section

variable [Native W]

/-- The transactions created so far are not forgotten by a policy, if its work does not. -/
theorem Policy.keeps_created (policy : Policy) (act : Act W ε α) (ctx : Context W)
    (hambient : ∀ start, policy.entrance? ctx = some start →
      (endState act start).ambient = start.ambient)
    (hact : ∀ start, policy.entrance? ctx = some start →
      (endState act start).Created start.shared.length) :
    (endState (policy.call act) ctx).Created ctx.shared.length := by
  unfold Context.Created at hact ⊢
  rcases policy.around act ctx hambient with ⟨e, hrefuses⟩ | ⟨hides, start, hplain⟩ |
    ⟨hides, e, calls, huncreated⟩ | ⟨hides, t, start, calls, hnew⟩
  · exact Nat.le_of_eq (congrArg List.length hrefuses.after.shared).symm
  · rw [hplain.after.shared, ← hplain.before.shared]
    exact hact start hplain.entrance
  · exact Nat.le_of_eq (congrArg List.length huncreated.shared).symm
  · -- The state of every earlier transaction is still there.
    have hlonger := hact start hnew.entrance
    rw [hnew.shared, List.length_append, List.length_singleton] at hlonger
    refine Nat.le_of_not_lt (fun hshorter => ?_)
    have hother := hnew.others (endState (policy.call act) ctx).shared.length
      (by rw [hnew.id]; exact Nat.ne_of_lt hshorter)
    rw [List.getElem?_eq_none (Nat.le_refl _)] at hother
    have hmissing := List.getElem?_eq_none_iff.mp hother.symm
    omega

/-- Nor by a routine. -/
theorem Routine.keeps_created (routine : Routine (Vocabulary.api W) ε α) (ctx : Context W) :
    (endState routine.act ctx).Created ctx.shared.length := by
  induction routine generalizing ctx with
  | done ending => cases ending <;> exact Nat.le_refl _
  | step s next ih =>
    have hstep : (endState ((Vocabulary.api W).act s) ctx).Created ctx.shared.length :=
      (s.keeps_steady (Context.steady_created _)).endState (Nat.le_refl _)
    exact Nat.le_trans hstep (ih _ _)
  | under policy body next ihbody ih =>
    have hcall := policy.keeps_created body.act ctx (fun start _ => body.ambient_act start)
      (fun start _ => ihbody start)
    exact Nat.le_trans hcall (ih _ _)

/-! ## Admission -/

/-- What a policy does about its work, by the place that it has for it. Where the work starts, and
    that it is run at all, is what `Policy.entrance?` says. -/
inductive Policy.Admits (policy : Policy) (act : Act (Recorded W) ε α)
    (ctx : Context (Recorded W)) : Place → Prop
  | refused {e : TransactionError} : policy.entrance? ctx = none →
      outcome (policy.call act) ctx = .error (.error (.transaction e [])) →
      (endState (policy.call act) ctx).world.calls = ctx.world.calls →
      Admits policy act ctx (.refused e)
  | inside {t : Transaction} {start : Context (Recorded W)} :
      policy.entrance? ctx = some start →
      Ambient.top start.ambient = some t →
      start.world.calls = ctx.world.calls →
      (endState (policy.call act) ctx).world.calls = (endState act start).world.calls →
      outcome (policy.call act) ctx
        = (outcome act start).mapError (Failure.map fun e => .action e []) →
      Admits policy act ctx (.inside t)
  | outside {start : Context (Recorded W)} :
      policy.entrance? ctx = some start →
      Ambient.top start.ambient = none →
      start.world.calls = ctx.world.calls →
      (endState (policy.call act) ctx).world.calls = (endState act start).world.calls →
      outcome (policy.call act) ctx
        = (outcome act start).mapError (Failure.map fun e => .action e []) →
      Admits policy act ctx .outside
  | rejected : policy.entrance? ctx = none →
      policy.settings.timeout.wholeMillis? = none →
      outcome (policy.call act) ctx
        = .error (.error (.transaction (.invalidTimeout policy.settings.timeout) [])) →
      (endState (policy.call act) ctx).world.calls = ctx.world.calls →
      Admits policy act ctx .inNew
  | uncreated {millis : UInt32} {e : NativeError} : policy.entrance? ctx = none →
      policy.settings.timeout.wholeMillis? = some millis →
      outcome (policy.call act) ctx
        = .error (.error (.transaction (.native "CreateTransaction" e) [])) →
      (endState (policy.call act) ctx).world.calls
        = ctx.world.calls ++ [⟨policy.createCall millis, .error e⟩] →
      Admits policy act ctx .inNew
  | created {millis : UInt32} {t : Transaction} {start : Context (Recorded W)} :
      policy.entrance? ctx = some start →
      policy.settings.timeout.wholeMillis? = some millis →
      start.world.calls = ctx.world.calls ++ [⟨policy.createCall millis, .ok t.handle⟩] →
      Ambient.top start.ambient = some t →
      (∀ other, some other ∈ ctx.ambient → other.id ≠ t.id) →
      Admits policy act ctx .inNew

/-- A policy does with its work what the place says, and what it does is told by one run of the work
    at most, the one from the start that the policy has for it. -/
structure Policy.Admission (policy : Policy) (act : Act (Recorded W) ε α)
    (ctx : Context (Recorded W)) : Prop where
  admits : policy.Admits act ctx (policy.propagation.place (Ambient.top ctx.ambient))
  once : ∃ resume : Option (EStateM.Result (Failure ε) (Context (Recorded W)) α) →
      EStateM.Result (Failure (PropagationError ε)) (Context (Recorded W)) α,
    ∀ other : Act (Recorded W) ε α,
      policy.call other ctx = resume ((policy.entrance? ctx).map other)

/-- The end of a policy depends on one run of its work at most. -/
theorem Policy.once (policy : Policy) (ctx : Context W) :
    ∃ resume : Option (EStateM.Result (Failure ε) (Context W) α) →
        EStateM.Result (Failure (PropagationError ε)) (Context W) α,
      ∀ act : Act W ε α, policy.call act ctx = resume ((policy.entrance? ctx).map act) := by
  cases hentry : policy.entrance? ctx with
  | none =>
    refine ⟨fun _ => policy.call (fun here => .error (.panic "") here) ctx, fun act => ?_⟩
    exact call_congr (fun start hstart => absurd hstart (by rw [hentry]; simp))
  | some start =>
    -- Work that gives back what the one run came to is as good as the work itself.
    refine ⟨fun ran => policy.call (fun here => ran.getD (.error (.panic "") here)) ctx,
      fun act => ?_⟩
    refine call_congr (fun start' hstart => ?_)
    rw [hentry, Option.some.injEq] at hstart
    rw [← hstart]
    rfl

theorem Policy.admits (policy : Policy) (act : Act (Recorded W) ε α)
    (ctx : Context (Recorded W)) (hregistered : ctx.Registered)
    (hact : ∀ start, policy.entrance? ctx = some start →
      (endState act start).ambient = start.ambient) :
    policy.Admits act ctx (policy.propagation.place (Ambient.top ctx.ambient)) := by
  rcases policy.around act ctx hact with ⟨e, hrefuses⟩ | ⟨hides, start, hplain⟩ |
    ⟨hides, e, calls, huncreated⟩ | ⟨hides, t, start, calls, hnew⟩
  · -- The cases are the ways in which a policy can go about its work.
    rw [Propagation.place_of_refuse hrefuses.course]
    have hcalls := hrefuses.after.world.recorded
    rw [List.append_nil] at hcalls
    exact .refused hrefuses.entrance hrefuses.result hcalls
  · have hbefore := hplain.before.world.recorded
    have hafter := hplain.after.world.recorded
    rw [List.append_nil] at hbefore hafter
    rcases Propagation.place_of_plain hplain.course with
      ⟨hplace, hnone⟩ | ⟨t, hplace, rfl, hcurrent⟩
    · -- Work is outside of any transaction where the current one is hidden or there is none.
      have htop : Ambient.top start.ambient = none := by
        rw [hplain.ambient]
        rcases hnone with rfl | hnone
        · rfl
        · cases hides with
          | true => rfl
          | false => exact hnone
      rw [hplace]
      exact .outside hplain.entrance htop hbefore hafter hplain.result
    · rw [hplace]
      refine .inside hplain.entrance ?_ hbefore hafter hplain.result
      rw [hplain.ambient]
      exact hcurrent
  · rw [Propagation.place_of_creating huncreated.course]
    have hcalls := huncreated.world.recorded
    rcases huncreated.reason with ⟨htimeout, rfl, rfl⟩ | ⟨millis, error, hmillis, rfl, rfl⟩
    · rw [List.append_nil] at hcalls
      exact .rejected huncreated.entrance htimeout huncreated.result hcalls
    · exact .uncreated huncreated.entrance hmillis huncreated.result hcalls
  · rw [Propagation.place_of_creating hnew.course]
    rcases hnew.before with ⟨millis, hmillis, hworld⟩
    refine .created hnew.entrance hmillis hworld.recorded ?_ ?_
    · rw [hnew.ambient]
      rfl
    · -- The new transaction gets the next free place, and all that are on the stack have lower
      -- ones.
      intro other hother heq
      have hearlier := hregistered other hother
      rw [heq, hnew.id] at hearlier
      exact absurd hearlier (Nat.lt_irrefl _)

/-- The start that a policy has for its work is as registered as the context of the policy. -/
theorem Policy.registered_entrance {policy : Policy} {ctx start : Context W}
    (hregistered : ctx.Registered) (hentry : policy.entrance? ctx = some start) :
    start.Registered := by
  have hprobe : (endState (probe : Act W (Context W) Empty) start).ambient = start.ambient := rfl
  -- The start does not depend on the work, so it may be looked at with work that does nothing.
  rcases around_entered hentry hprobe with ⟨hides, hplain⟩ | ⟨hides, t, calls, hnew⟩
  · intro t ht
    rw [hplain.ambient] at ht
    rw [hplain.before.shared]
    refine hregistered t ?_
    cases hides with
    | false => exact ht
    | true => exact (List.mem_cons.mp ht).resolve_left (by simp)
  · intro other ht
    rw [hnew.shared, List.length_append, List.length_singleton]
    rw [hnew.ambient] at ht
    rcases List.mem_cons.mp ht with hsame | ht
    · rw [Option.some.inj hsame, hnew.id]
      exact Nat.lt_succ_self _
    · refine Nat.lt_succ_of_lt (hregistered other ?_)
      cases hides with
      | false => exact ht
      | true => exact (List.mem_cons.mp ht).resolve_left (by simp)

/-! ## Every level of a nest -/

/-- What holds wherever a policy is called in the course of a routine, at every level of the nest:
    of the policy, of its work and of the context in which it is called. -/
def Routine.AtPolicies {v : Vocabulary W}
    (P : ∀ {ε α : Type}, Policy → Routine v ε α → Context W → Prop) {ε α : Type} :
    Routine v ε α → Context W → Prop
  | done _, _ => True
  | step s next, ctx => (next (outcome (v.act s) ctx)).AtPolicies P (endState (v.act s) ctx)
  | under policy body next, ctx =>
    P policy body ctx ∧
      (∀ start, policy.entrance? ctx = some start → body.AtPolicies P start) ∧
      (next (outcome (policy.call body.act) ctx)).AtPolicies P
        (endState (policy.call body.act) ctx)

/-- Wherever a policy is called, whatever the stack is then, whatever the world answers and whatever
    the work is, the policy does about its work what it makes of the transaction that is current,
    and runs it once at most. -/
theorem policies_admit_their_work (routine : Routine (Vocabulary.api (Recorded W)) ε α)
    (ctx : Context (Recorded W)) (hregistered : ctx.Registered) :
    routine.AtPolicies (fun policy work here => policy.Admission work.act here) ctx := by
  induction routine generalizing ctx with
  | done ending => trivial
  | step s next ih =>
    have hambient := (Vocabulary.api (Recorded W)).ambient s ctx
    have hcreated : (endState ((Vocabulary.api (Recorded W)).act s) ctx).Created
        ctx.shared.length :=
      (s.keeps_steady (Context.steady_created _)).endState (Nat.le_refl _)
    exact ih _ _ (hregistered.later hambient hcreated)
  | under policy body next ihbody ih =>
    have hambient : (endState (policy.call body.act) ctx).ambient = ctx.ambient :=
      Policy.ambient_call (fun start _ => body.ambient_act start)
    have hcreated := policy.keeps_created body.act ctx (fun start _ => body.ambient_act start)
      (fun start _ => body.keeps_created start)
    refine ⟨⟨?_, policy.once ctx⟩, ?_, ih _ _ (hregistered.later hambient hcreated)⟩
    · exact policy.admits body.act ctx hregistered (fun start _ => body.ambient_act start)
    · exact fun start hentry => ihbody start (policy.registered_entrance hregistered hentry)

end

/-- Work that wants a transaction. -/
def demanding : Routine (Vocabulary.api (Recorded Store)) (PropagationError Empty) Nat :=
  .under ⟨.mandatory, .default⟩ (.done (.ok 7)) .done

/-- It is called where the transaction that a policy has created for it is hidden. -/
def sheltered : Routine (Vocabulary.api (Recorded Store))
    (PropagationError (PropagationError (PropagationError Empty))) Nat :=
  .under ⟨.required, .default⟩ (.under ⟨.notSupported, .default⟩ demanding .done) .done

theorem demanding_is_refused : ∃ start inner : Context (Recorded Store),
    Policy.entrance? ⟨.required, .default⟩ (Context.ofWorld ⟨Store.fresh ⟨0, []⟩, []⟩)
      = some start ∧
    (Ambient.top start.ambient).isSome ∧
    Policy.entrance? ⟨.notSupported, .default⟩ start = some inner ∧
    Policy.Admits ⟨.mandatory, .default⟩ (Act.ended (ε := Empty) (.ok 7)) inner
      (.refused .transactionRequired) := by
  have hnest := policies_admit_their_work sheltered
    (Context.ofWorld ⟨Store.fresh ⟨0, []⟩, []⟩) (Context.registered_ofWorld _)
  refine ⟨_, _, rfl, rfl, rfl, ?_⟩
  exact ((hnest.2.1 _ rfl).2.1 _ rfl).1.admits

end TransactionalRegistry
