import TransactionalRegistry.Proofs.Finalization
import TransactionalRegistry.Proofs.Options

/-!
# What is asked of the store for settings

Settings end up in the call that creates a transaction: the timeout in whole milliseconds and the
description as it is. A policy that creates a transaction makes one such call and no other, before
its work; a manager that creates a transaction outside any policy makes just that call. A timeout
that is no number of milliseconds is refused by both, and then no call is made.

Work makes calls as well, and those are not the policy's. The calls of a policy are those up to
where its work starts and those from where the work is over, read off a recorder around any world.

## Main definitions

* `CallRecord.creations`: What the calls that create transactions ask for.
* `TransactionSettings.creations`: What settings ask for.
* `Policy.Own`: The calls that a policy makes by itself.

## Theorems

* `Finalizes.creations`: Nothing is created when a transaction is finished.
* `Policy.own_creations`: What a policy asks for.
* `Manager.createTransaction_calls`: What a manager asks for.
* `options_reach_the_store`: How options are resolved, and what is asked of the store then.
-/

namespace TransactionalRegistry

variable {W ε α : Type}

/-! ## Creations -/

/-- What a call that creates a transaction asks for: a timeout in milliseconds and a description. -/
def Call.creation? : Call → Option (UInt32 × Option String)
  | .createTransaction millis description => some (millis, description)
  | _ => none

namespace CallRecord

/-- What the calls that create transactions ask for, in turn. -/
def creations (calls : List CallRecord) : List (UInt32 × Option String) :=
  calls.filterMap fun record => record.call.creation?

theorem creations_append (calls more : List CallRecord) :
    creations (calls ++ more) = creations calls ++ creations more :=
  List.filterMap_append

end CallRecord

/-- What settings ask for: nothing if their timeout is no number of milliseconds. -/
def TransactionSettings.creations (settings : TransactionSettings) :
    List (UInt32 × Option String) :=
  settings.timeout.wholeMillis?.toList.map fun millis => (millis, settings.description)

section

variable {h : TransactionHandle} {shared : Shared} {closed : Bool} {calls : List CallRecord}

theorem Asks.creations {answer : Except (Failure TransactionError) TransactionStatus}
    (hasks : Asks h closed calls answer) : CallRecord.creations calls = [] := by
  cases hasks <;> rfl

theorem Settles.creations {settled : Except (Failure TransactionError) Unit}
    (hsettles : Settles h shared calls settled) : CallRecord.creations calls = [] := by
  cases hsettles with
  | unasked hasks => exact hasks.creations
  | decided hasks => exact hasks.creations
  | manual hasks => exact hasks.creations
  -- A question for the outcome and a commit may have been made, and neither creates anything.
  | committed hasks => rw [CallRecord.creations_append, hasks.creations]; rfl
  | refused hasks => rw [CallRecord.creations_append, hasks.creations]; rfl

theorem Closes.creations {result : Except TransactionError Unit}
    (hcloses : Closes h closed calls result) : CallRecord.creations calls = [] := by
  cases hcloses <;> rfl

/-- Nothing is created when a transaction is finished. -/
theorem Finalizes.creations {ending : Except (Failure ε) α}
    {result : Except (Failure (PropagationError ε)) α}
    (hfinalizes : Finalizes h shared ending calls result) : CallRecord.creations calls = [] := by
  cases hfinalizes with
  | failed hcloses => exact hcloses.creations
  | panicked hcloses => exact hcloses.creations
  | value hsettles hcloses | unclosed hsettles hcloses | unsettled hsettles hcloses
  | unknown hsettles hcloses =>
    rw [CallRecord.creations_append, hsettles.creations, hcloses.creations]
    rfl

end

/-! ## Policies -/

variable [Native W]

/-- Whether a policy creates a transaction. -/
def Course.creates : Course → Bool
  | .refuse _ => false
  | .run _ creates => creates

namespace Policy

/-- The calls that a policy makes by itself: those before its work starts and those after the work
    is over, or all of them if it does not come to its work. -/
inductive Own (policy : Policy) (act : Act (Recorded W) ε α) (ctx : Context (Recorded W)) :
    List CallRecord → Prop
  | unentered {calls : List CallRecord} (hentry : policy.entrance? ctx = none)
      (hcalls : (endState (policy.call act) ctx).world.calls = ctx.world.calls ++ calls) :
      Own policy act ctx calls
  | entered {start : Context (Recorded W)} {before after : List CallRecord}
      (hentry : policy.entrance? ctx = some start)
      (hbefore : start.world.calls = ctx.world.calls ++ before)
      (hafter : (endState (policy.call act) ctx).world.calls =
        (endState act start).world.calls ++ after) : Own policy act ctx (before ++ after)

variable {policy : Policy} {act : Act (Recorded W) ε α} {ctx : Context (Recorded W)}
  {calls calls' : List CallRecord}

theorem Own.unique (h : policy.Own act ctx calls) (h' : policy.Own act ctx calls') :
    calls = calls' := by
  -- Whether a policy comes to its work is known beforehand, so both lists are of the same kind.
  cases h with
  | unentered hentry hcalls =>
    cases h' with
    | unentered _ hcalls' => exact List.append_cancel_left (hcalls.symm.trans hcalls')
    | entered hentry' =>
      rw [hentry] at hentry'
      cases hentry'
  | entered hentry hbefore hafter =>
    cases h' with
    | unentered hentry' =>
      rw [hentry] at hentry'
      cases hentry'
    | entered hentry' hbefore' hafter' =>
      rw [hentry] at hentry'
      cases hentry'
      rw [List.append_cancel_left (hbefore.symm.trans hbefore'),
        List.append_cancel_left (hafter.symm.trans hafter')]

/-- A policy that creates a transaction asks for what its settings say, once; the others ask for
    nothing. -/
theorem own_creations (policy : Policy) (act : Act (Recorded W) ε α) (ctx : Context (Recorded W))
    (hact : ∀ start, policy.entrance? ctx = some start →
      (endState act start).ambient = start.ambient) :
    ∃ calls, policy.Own act ctx calls ∧ CallRecord.creations calls =
      if (policy.propagation.course (Ambient.top ctx.ambient)).creates then
        policy.settings.creations else [] := by
  rcases policy.around act ctx hact with
    ⟨e, hrefuses⟩ | ⟨hides, start, hplain⟩ | ⟨hides, e, calls, huncreated⟩ |
    ⟨hides, t, start, calls, hnew⟩
  · rw [hrefuses.course]
    exact ⟨[], .unentered hrefuses.entrance hrefuses.after.world.recorded, rfl⟩
  · rw [hplain.course]
    exact ⟨[], .entered hplain.entrance hplain.before.world.recorded hplain.after.world.recorded,
      rfl⟩
  · refine ⟨calls, .unentered huncreated.entrance huncreated.world.recorded, ?_⟩
    -- It has failed to create one, but has asked for it, unless the timeout was refused.
    rw [huncreated.course, Course.creates, if_pos rfl, TransactionSettings.creations]
    rcases huncreated.reason with ⟨htimeout, -, rfl⟩ | ⟨millis, error, hmillis, -, rfl⟩
    · rw [htimeout]; rfl
    · rw [hmillis]; rfl
  · obtain ⟨millis, hmillis, hbefore⟩ := hnew.before
    refine ⟨_, .entered hnew.entrance hbefore.recorded hnew.after.recorded, ?_⟩
    -- The calls that finish the transaction create no other one.
    rw [CallRecord.creations_append, hnew.finalizes.creations, hnew.course, Course.creates,
      if_pos rfl, TransactionSettings.creations, hmillis]
    rfl

omit [Native W] in
theorem creates_of_creating {propagation : Propagation} {current : Option Transaction}
    (haccepts : propagation.acceptsOptions = true) :
    (propagation.course current).creates =
      decide (propagation = .requiresNew ∨ current = none) := by
  cases propagation with
  | required => cases current <;> rfl
  | requiresNew => cases current <;> rfl
  | mandatory | supports | notSupported | never => cases haccepts

end Policy

/-! ## Managers -/

namespace Manager

variable {manager : Manager} {options : List TransactionOption} {settings : TransactionSettings}
  {e : TransactionError}

theorem policy_of_refused (h : manager.defaults.withOptions options = .error e)
    {propagation : Propagation} (haccepts : propagation.acceptsOptions = true) :
    manager.policy propagation options = .error e := by
  rw [policy, if_pos haccepts, h]
  rfl

theorem policy_of_resolved (h : manager.defaults.withOptions options = .ok settings)
    {propagation : Propagation} (haccepts : propagation.acceptsOptions = true) :
    manager.policy propagation options = .ok ⟨propagation, settings⟩ := by
  rw [policy, if_pos haccepts, h]
  rfl

/-- Options that are refused are refused before anything is done. -/
theorem createTransaction_of_refused (h : manager.defaults.withOptions options = .error e)
    (ctx : Context W) : manager.createTransaction options ctx = .error (.error e) ctx := by
  have hrefused : (Act.ofExcept (manager.defaults.withOptions options) : Act W _ _) ctx =
      .error (.error e) ctx := by
    rw [h]
    rfl
  exact bind_of_error hrefused

/-- Some calls were made, and they are those that settings ask for. -/
def Creates (settings : TransactionSettings) (ctx ctx' : Context (Recorded W)) : Prop :=
  ∃ calls, ctx'.world.calls = ctx.world.calls ++ calls ∧
    calls.map (·.call) = settings.creations.map fun (millis, description) =>
      .createTransaction millis description

/-- A manager asks for what the settings say, and makes no other call. -/
theorem createTransaction_calls (h : manager.defaults.withOptions options = .ok settings)
    (ctx : Context (Recorded W)) :
    Creates settings ctx (endState (manager.createTransaction options) ctx) := by
  have hresolved : (Act.ofExcept (manager.defaults.withOptions options) :
      Act (Recorded W) _ _) ctx = .ok settings ctx := by
    rw [h]
    rfl
  have hrun : manager.createTransaction options ctx =
      Transaction.create settings.timeout settings.description ctx := bind_of_ok hresolved
  rw [endState, hrun, ← endState]
  refine Ends.endState (P := Creates settings ctx)
    ((Policy.create_goes settings ctx).mono ?_ ?_)
  · rintro t ctx' ⟨millis, hmillis, hworld, -⟩
    refine ⟨_, hworld.recorded, ?_⟩
    rw [TransactionSettings.creations, hmillis]
    rfl
  · rintro failure ctx' ⟨e, -, ⟨htimeout, -, rfl⟩ | ⟨millis, error, hmillis, -, hworld, -⟩⟩
    · -- A timeout that is no number of milliseconds is refused before the call.
      refine ⟨[], (List.append_nil _).symm, ?_⟩
      rw [TransactionSettings.creations, htimeout]
      rfl
    · refine ⟨_, hworld.recorded, ?_⟩
      rw [TransactionSettings.creations, hmillis]
      rfl

end Manager

/-- How options are resolved, and what is asked of the store then.

    Options are accepted if at most one is of each kind, and each field of the settings is then that
    of an option, or else of the defaults. Otherwise the error tells the kind of the first option to
    repeat one. The order matters to that error only. A manager whose options are refused gives no
    policy and makes no call. With settings, a policy that creates a transaction asks for one by
    them, as a manager does that creates one by itself. -/
theorem options_reach_the_store :
    (∀ (defaults : TransactionSettings) (options : List TransactionOption),
      ((∃ settings, defaults.withOptions options = .ok settings) ↔
        ∀ kind, (options.map (·.kind)).count kind ≤ 1) ∧
      (∀ settings, defaults.withOptions options = .ok settings →
        defaults.Resolved options settings) ∧
      (∀ e, defaults.withOptions options = .error e ↔
        ∃ before option after, options = before ++ option :: after ∧
          (before.map (·.kind)).Nodup ∧ option.kind ∈ before.map (·.kind) ∧
          e = .duplicateOption option.kind) ∧
      ∀ options', options.Perm options' → ∀ settings,
        defaults.withOptions options = .ok settings ↔
          defaults.withOptions options' = .ok settings) ∧
    (∀ (manager : Manager) (options : List TransactionOption) (e : TransactionError),
      manager.defaults.withOptions options = .error e →
      (∀ propagation, propagation.acceptsOptions = true →
        manager.policy propagation options = .error e) ∧
      ∀ ctx : Context W, manager.createTransaction options ctx = .error (.error e) ctx) ∧
    ∀ (manager : Manager) (options : List TransactionOption) (settings : TransactionSettings),
      manager.defaults.withOptions options = .ok settings →
      (∀ propagation, propagation.acceptsOptions = true →
        ∃ policy, manager.policy propagation options = .ok policy ∧
          ∀ (v : Vocabulary (Recorded W)) (work : Routine v ε α) (ctx : Context (Recorded W)),
            (∃ calls, policy.Own work.act ctx calls) ∧
            ∀ calls, policy.Own work.act ctx calls → CallRecord.creations calls =
              if propagation = .requiresNew ∨ Ambient.top ctx.ambient = none then
                settings.creations else []) ∧
      ∀ ctx : Context (Recorded W),
        Manager.Creates settings ctx (endState (manager.createTransaction options) ctx) := by
  refine ⟨fun defaults options => ⟨?_, ?_, ?_, ?_⟩, ?_, ?_⟩
  · rw [← List.nodup_iff_count_le_one]
    constructor
    · rintro ⟨settings, hok⟩
      exact (TransactionSettings.withOptions_eq_ok_iff.mp hok).1
    · intro hnodup
      obtain ⟨settings, hok, -⟩ := TransactionSettings.withOptions_of_nodup hnodup defaults
      exact ⟨settings, hok⟩
  · exact fun settings hok => (TransactionSettings.withOptions_eq_ok_iff.mp hok).2
  · exact fun e => TransactionSettings.withOptions_eq_error_iff
  · exact fun options' hperm settings => TransactionSettings.withOptions_perm hperm
  · intro manager options e h
    exact ⟨fun propagation => Manager.policy_of_refused h,
      Manager.createTransaction_of_refused h⟩
  · intro manager options settings h
    refine ⟨fun propagation haccepts => ⟨_, Manager.policy_of_resolved h haccepts, ?_⟩,
      Manager.createTransaction_calls h⟩
    intro v work ctx
    obtain ⟨calls, hown, hcreations⟩ := Policy.own_creations ⟨propagation, settings⟩ work.act ctx
      (fun start _ => work.ambient_act start)
    refine ⟨⟨calls, hown⟩, fun calls' hown' => ?_⟩
    rw [hown'.unique hown, hcreations, Policy.creates_of_creating haccepts]
    simp only [decide_eq_true_eq]

/-- A manager whose transactions last half a minute. -/
def patient : Manager :=
  ⟨⟨{ Duration.zero with secs := 30 }, none⟩⟩

/-- Work that does nothing and says seven. -/
def sayingSeven : Routine (Vocabulary.api (Recorded Store)) Empty Nat :=
  .done (.ok 7)

/-- A description is taken over beside the timeout of the defaults, and a second timeout is refused
    whatever stands between it and the first. -/
theorem options_reach_a_fresh_store :
    patient.defaults.withOptions [.description "nightly"] = .ok ⟨⟨30, 0⟩, some "nightly"⟩ ∧
      (∃ policy calls, patient.policy .required [.description "nightly"] = .ok policy ∧
        policy.Own sayingSeven.act (.ofWorld ⟨Store.fresh ⟨0, []⟩, []⟩) calls ∧
        CallRecord.creations calls = [(30000, some "nightly")]) ∧
      patient.defaults.withOptions [.timeout ⟨1, 0⟩, .description "a", .timeout ⟨2, 0⟩] =
        .error (.duplicateOption .timeout) ∧
      patient.createTransaction [.timeout ⟨1, 0⟩, .description "a", .timeout ⟨2, 0⟩]
          (.ofWorld (Store.fresh ⟨0, []⟩)) =
        .error (.error (.duplicateOption .timeout)) (.ofWorld (Store.fresh ⟨0, []⟩)) := by
  have hresolved : patient.defaults.withOptions [.description "nightly"] =
      .ok ⟨⟨30, 0⟩, some "nightly"⟩ := rfl
  have hrefused : patient.defaults.withOptions
      [.timeout ⟨1, 0⟩, .description "a", .timeout ⟨2, 0⟩] =
        .error (.duplicateOption .timeout) := rfl
  obtain ⟨-, hfails, hasks⟩ := @options_reach_the_store Store Empty Nat _
  obtain ⟨policy, hpolicy, hown⟩ := (hasks patient _ _ hresolved).1 .required rfl
  obtain ⟨⟨calls, hcalls⟩, hcreations⟩ :=
    hown _ sayingSeven (.ofWorld ⟨Store.fresh ⟨0, []⟩, []⟩)
  refine ⟨hresolved, ⟨policy, calls, hpolicy, hcalls, (hcreations calls hcalls).trans ?_⟩,
    hrefused, (hfails patient _ _ hrefused).2 _⟩
  decide

end TransactionalRegistry
