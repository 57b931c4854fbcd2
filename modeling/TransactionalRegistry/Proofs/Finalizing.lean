import TransactionalRegistry.Proofs.Entering

/-!
# How a policy finishes a transaction

A policy that has created a transaction for its work finishes it afterwards. What it does then is a
protocol over the handle of that transaction: which calls are made, in which order, and what comes
out of them, depends on how the work ended, on what the calls answer, and on whether the work has
turned off the commit or closed the transaction by itself.

The protocol is written down here by the answers of the calls, one case for each; that the policy
follows it is shown for every world, and so for any answers.

## Main definitions

* `Asks`, `Settles`, `Closes`, `Finalizes`: The calls that are made on a handle, and what comes out.

## Theorems

* `Transaction.status_goes`, `Transaction.commit_goes`, `Policy.settle_goes`,
  `Transaction.close_goes`, `Policy.closeOnUnwind_goes`: The steps of the protocol.
* `Policy.finishing_goes`: A policy follows it.
* `Policy.finishing_eq`: What a policy does afterwards depends on how its work has ended and on
  where.
-/

namespace TransactionalRegistry

variable {W ε α : Type}

/-! ## The protocol -/

/-- Asking for the status of a transaction whose handle is `h`. One that is closed is not asked for,
    and one that the handle no longer denotes is closed. -/
inductive Asks (h : TransactionHandle) :
    (closed : Bool) → List CallRecord → Except (Failure TransactionError) TransactionStatus → Prop
  | closed : Asks h true [] (.ok .closed)
  | gone {e : NativeError} : e.isInvalidHandle = true →
      Asks h false [⟨.transactionOutcome h, .error e⟩] (.ok .closed)
  | failed {e : NativeError} : e.isInvalidHandle = false →
      Asks h false [⟨.transactionOutcome h, .error e⟩]
        (.error (.error (.native "GetTransactionInformation" e)))
  | known {outcome : Int32} {status : TransactionStatus} :
      TransactionStatus.ofOutcome? outcome = some status →
      Asks h false [⟨.transactionOutcome h, .ok outcome⟩] (.ok status)
  | unknown {outcome : Int32} : TransactionStatus.ofOutcome? outcome = none →
      Asks h false [⟨.transactionOutcome h, .ok outcome⟩]
        (.error (.panic ("unsupported transaction outcome " ++ Text.signedDecimal outcome.toInt ++
          " for " ++ h.text)))

/-- Settling a transaction after work that has succeeded: it is committed if it is active and its
    commit has not been turned off. -/
inductive Settles (h : TransactionHandle) (shared : Shared) :
    List CallRecord → Except (Failure TransactionError) Unit → Prop
  | unasked {calls : List CallRecord} {failure : Failure TransactionError} :
      Asks h shared.closed calls (.error failure) → Settles h shared calls (.error failure)
  | decided {calls : List CallRecord} {status : TransactionStatus} :
      Asks h shared.closed calls (.ok status) → status ≠ .active →
      Settles h shared calls (.ok ())
  | manual {calls : List CallRecord} : Asks h shared.closed calls (.ok .active) →
      shared.autoCommit = false → Settles h shared calls (.ok ())
  | committed {calls : List CallRecord} : Asks h shared.closed calls (.ok .active) →
      shared.autoCommit = true →
      Settles h shared (calls ++ [⟨.commitTransaction h, .ok ()⟩]) (.ok ())
  | refused {calls : List CallRecord} {e : NativeError} :
      Asks h shared.closed calls (.ok .active) → shared.autoCommit = true →
      Settles h shared (calls ++ [⟨.commitTransaction h, .error e⟩])
        (.error (.error (.native "CommitTransaction" e)))

/-- Closing a transaction, unless it has been closed before. -/
inductive Closes (h : TransactionHandle) :
    (closed : Bool) → List CallRecord → Except TransactionError Unit → Prop
  | already : Closes h true [] (.ok ())
  | closed : Closes h false [⟨.closeTransaction h, .ok ()⟩] (.ok ())
  | failed {e : NativeError} :
      Closes h false [⟨.closeTransaction h, .error e⟩] (.error (.native "CloseHandle" e))

/-- The failure of a result, if it is one, as a list. -/
def failures : Except ε α → List ε
  | .ok _ => []
  | .error e => [e]

/-- Finishing a transaction after work that has ended with `ending`, and what comes out of it all.
    Only work that has succeeded is settled, and the transaction is closed in every case. -/
inductive Finalizes (h : TransactionHandle) (shared : Shared) :
    (ending : Except (Failure ε) α) → List CallRecord →
      Except (Failure (PropagationError ε)) α → Prop
  | value {a : α} {settling closing : List CallRecord} :
      Settles h shared settling (.ok ()) → Closes h shared.closed closing (.ok ()) →
      Finalizes h shared (.ok a) (settling ++ closing) (.ok a)
  | unclosed {a : α} {settling closing : List CallRecord} {e : TransactionError} :
      Settles h shared settling (.ok ()) → Closes h shared.closed closing (.error e) →
      Finalizes h shared (.ok a) (settling ++ closing) (.error (.error (.transaction e [])))
  | unsettled {a : α} {settling closing : List CallRecord} {e : TransactionError}
      {closed : Except TransactionError Unit} :
      Settles h shared settling (.error (.error e)) → Closes h shared.closed closing closed →
      Finalizes h shared (.ok a) (settling ++ closing)
        (.error (.error (.transaction e (failures closed))))
  | failed {e : ε} {closing : List CallRecord} {closed : Except TransactionError Unit} :
      Closes h shared.closed closing closed →
      Finalizes h shared (.error (.error e)) closing
        (.error (.error (.action e (failures closed))))
  | panicked {message : String} {closing : List CallRecord}
      {closed : Except TransactionError Unit} : Closes h shared.closed closing closed →
      Finalizes h shared (.error (.panic message)) closing (.error (.panic message))
  | unknown {a : α} {message : String} {settling closing : List CallRecord}
      {closed : Except TransactionError Unit} :
      Settles h shared settling (.error (.panic message)) → Closes h shared.closed closing closed →
      Finalizes h shared (.ok a) (settling ++ closing) (.error (.panic message))

/-! ## The policy follows it -/

variable [Native W]

/-- A context goes on to another by `calls`, and no state that clones share changes. -/
def Context.Waits (t : Transaction) (calls : List CallRecord) (ctx ctx' : Context W) : Prop :=
  ctx.Goes t calls ctx' ∧ ctx'.shared = ctx.shared

namespace Transaction

variable {t : Transaction} {ctx : Context W}

omit [Native W] in
/-- Reading the state that the clones share, followed by the rest. -/
theorem ends_shared {f : Shared → Act W ε α} {Q : α → Context W → Prop}
    {E : Failure ε → Context W → Prop} (h : Ends (f (ctx.sharedOf t)) ctx Q E) :
    Ends ((t.shared : Act W ε Shared) >>= f) ctx Q E :=
  ends_bind (ends_bind (ends_get (ends_pure h)))

theorem status_goes (t : Transaction) (ctx : Context W) :
    Ends t.status ctx
      (fun status ctx' => ∃ calls, ctx.Waits t calls ctx' ∧
        Asks t.handle (ctx.sharedOf t).closed calls (.ok status))
      (fun failure ctx' => ∃ calls, ctx.Waits t calls ctx' ∧
        Asks t.handle (ctx.sharedOf t).closed calls (.error failure)) := by
  unfold status query
  refine ends_bind (ends_shared ?_)
  cases hclosed : (ctx.sharedOf t).closed with
  | true => exact ends_pure (ends_pure ⟨[], ⟨.refl t ctx, rfl⟩, .closed⟩)
  | false =>
    refine ends_bind (Act.ends_attempt (Act.ends_call ?_ ?_))
    · intro outcome world hperform
      have hwaits : ctx.Waits t [⟨.transactionOutcome t.handle, .ok outcome⟩]
          { ctx with world := world } := ⟨Context.goes_ok hperform, rfl⟩
      cases hstatus : TransactionStatus.ofOutcome? outcome with
      | some status =>
        simp only [hstatus]
        exact ends_pure (ends_pure ⟨_, hwaits, .known hstatus⟩)
      | none =>
        simp only [hstatus]
        exact ends_pure (ends_throw ⟨_, hwaits, .unknown hstatus⟩)
    · intro e world hperform
      have hwaits : ctx.Waits t [⟨.transactionOutcome t.handle, .error e⟩]
          { ctx with world := world } := ⟨Context.goes_error hperform, rfl⟩
      simp only []
      by_cases hinvalid : e.isInvalidHandle = true
      · rw [if_pos hinvalid]
        exact ends_pure (ends_pure ⟨_, hwaits, .gone hinvalid⟩)
      · rw [if_neg hinvalid]
        exact ends_throw ⟨_, hwaits, .failed (by simpa using hinvalid)⟩

theorem commit_goes (hopen : (ctx.sharedOf t).closed = false) :
    Ends t.commit ctx
      (fun _ ctx' => ctx.Waits t [⟨.commitTransaction t.handle, .ok ()⟩] ctx')
      (fun failure ctx' => ∃ e, failure = .error (.native "CommitTransaction" e) ∧
        ctx.Waits t [⟨.commitTransaction t.handle, .error e⟩] ctx') := by
  unfold commit requireOpen
  refine ends_bind (ends_shared ?_)
  rw [hopen]
  refine ends_pure (ends_bind (Act.ends_mapError (Act.ends_call ?_ ?_)))
  · intro answer world hperform
    exact Act.ends_log ⟨(Context.goes_ok hperform).logged, rfl⟩
  · intro e world hperform
    exact ⟨e, rfl, Context.goes_error hperform, rfl⟩

theorem close_goes (t : Transaction) (ctx : Context W) :
    Ends t.close ctx
      (fun _ ctx' => ∃ calls, ctx.Goes t calls ctx' ∧ (ctx'.sharedOf t).closed = true ∧
        Closes t.handle (ctx.sharedOf t).closed calls (.ok ()))
      (fun failure ctx' => ∃ e calls, failure = .error e ∧ ctx.Goes t calls ctx' ∧
        (ctx'.sharedOf t).closed = true ∧
        Closes t.handle (ctx.sharedOf t).closed calls (.error e)) := by
  unfold close
  refine ends_shared ?_
  cases hclosed : (ctx.sharedOf t).closed with
  | true => exact Act.ends_log ⟨[], Context.goes_logged t _ ctx, hclosed, .already⟩
  | false =>
    -- It counts as closed before the call is made.
    let marked := ctx.updateShared t fun shared => { shared with closed := true }
    have hmarked : Context.Goes t [] ctx marked := Context.goes_updateShared t _ ctx
    have hnow : (marked.sharedOf t).closed = true := Context.closed_updateShared ctx rfl
    refine ends_bind (ends_modify (ends_bind (Act.ends_mapError (Act.ends_call ?_ ?_))))
    · intro answer world hperform
      exact Act.ends_log ⟨_, (hmarked.trans (Context.goes_ok hperform)).logged, hnow, .closed⟩
    · intro e world hperform
      exact ⟨_, _, rfl, hmarked.trans (Context.goes_error hperform), hnow, .failed⟩

end Transaction

namespace Policy

variable {t : Transaction} {ctx : Context W}

theorem settle_goes (t : Transaction) (ctx : Context W) :
    Ends (settle t) ctx
      (fun _ ctx' => ∃ calls, ctx.Waits t calls ctx' ∧
        Settles t.handle (ctx.sharedOf t) calls (.ok ()))
      (fun failure ctx' => ∃ calls, ctx.Waits t calls ctx' ∧
        Settles t.handle (ctx.sharedOf t) calls (.error failure)) := by
  unfold settle
  refine (t.status_goes ctx).bind ?_ ?_
  · rintro status ctx₁ ⟨calls, hwaits, hasks⟩
    have hsame : ctx₁.sharedOf t = ctx.sharedOf t := by
      rw [Context.sharedOf, hwaits.2, ← Context.sharedOf]
    have hlog : ∀ entry, ctx.Waits t calls (ctx₁.logged entry) :=
      fun _ => ⟨hwaits.1.logged, hwaits.2⟩
    by_cases hactive : status = .active
    · subst hactive
      refine Transaction.ends_shared ?_
      rw [hsame]
      cases hauto : (ctx.sharedOf t).autoCommit with
      | false =>
        exact Act.ends_log ⟨calls, hlog _, .manual hasks hauto⟩
      | true =>
        have hopen : (ctx₁.sharedOf t).closed = false := by
          rw [hsame]
          cases hclosed : (ctx.sharedOf t).closed with
          | false => rfl
          | true =>
            -- A transaction that is closed is not active.
            rw [hclosed] at hasks
            cases hasks
        refine (Transaction.commit_goes hopen).mono ?_ ?_
        · rintro _ ctx₂ ⟨hgoes, hshared⟩
          exact ⟨_, ⟨hwaits.1.trans hgoes, hshared.trans hwaits.2⟩, .committed hasks hauto⟩
        · rintro _ ctx₂ ⟨e, rfl, hgoes, hshared⟩
          exact ⟨_, ⟨hwaits.1.trans hgoes, hshared.trans hwaits.2⟩, .refused hasks hauto⟩
    · have hdone : Ends (Act.log (.trace "transaction already settled")) ctx₁
          (fun _ ctx' => ∃ calls, ctx.Waits t calls ctx' ∧
            Settles t.handle (ctx.sharedOf t) calls (.ok ()))
          (fun failure ctx' => ∃ calls, ctx.Waits t calls ctx' ∧
            Settles t.handle (ctx.sharedOf t) calls (.error failure)) :=
        Act.ends_log ⟨calls, hlog _, .decided hasks hactive⟩
      cases status with
      | active => exact absurd rfl hactive
      | committed => exact hdone
      | rolledBack => exact hdone
      | closed => exact hdone
      | unknown => exact hdone
  · rintro failure ctx₁ ⟨calls, hwaits, hasks⟩
    exact ⟨calls, hwaits, .unasked hasks⟩

/-- A closed transaction is given up without a call. -/
theorem release_closed {t : Transaction} {ctx : Context W}
    (hclosed : (ctx.sharedOf t).closed = true) :
    Ends (t.release : Act W ε Unit) ctx
      (fun _ ctx' => ctx.Goes t [] ctx' ∧ (ctx'.sharedOf t).closed = true) (fun _ _ => False) := by
  refine (t.release_goes ctx).mono ?_ (fun _ _ h => h)
  rintro _ ctx' ⟨calls, hgoes, hquiet⟩
  rcases hquiet hclosed with ⟨rfl, hstill⟩
  exact ⟨hgoes, hstill⟩

theorem closeOnUnwind_goes (t : Transaction) (ctx : Context W) :
    Ends (closeOnUnwind t : Act W ε Unit) ctx
      (fun _ ctx' => ∃ calls closed, ctx.Goes t calls ctx' ∧ (ctx'.sharedOf t).closed = true ∧
        Closes t.handle (ctx.sharedOf t).closed calls closed)
      (fun _ _ => False) := by
  unfold closeOnUnwind
  have hlogged := Context.goes_logged t (.debug "closing transaction on unwind") ctx
  refine ends_bind (Act.ends_log (ends_bind (Act.ends_attempt ((t.close_goes _).mono ?_ ?_))))
  · rintro _ ctx₁ ⟨calls, hgoes, hclosed, hcloses⟩
    refine (release_closed hclosed).mono ?_ (fun _ _ h => h)
    rintro _ ctx₂ ⟨hreleased, hstill⟩
    have hall := (hlogged.trans hgoes).trans hreleased
    rw [List.nil_append, List.append_nil] at hall
    exact ⟨calls, .ok (), hall, hstill, hcloses⟩
  · rintro failure ctx₁ ⟨e, calls, rfl, hgoes, hclosed, hcloses⟩
    -- A failure to close is logged and goes no further.
    refine ends_bind (Act.ends_log ?_)
    refine (@release_closed W ε _ t (ctx₁.logged _) hclosed).mono ?_ (fun _ _ h => h)
    rintro _ ctx₂ ⟨hreleased, hstill⟩
    have hall := (hlogged.trans hgoes.logged).trans hreleased
    rw [List.nil_append, List.append_nil] at hall
    exact ⟨calls, .error e, hall, hstill, hcloses⟩

/-- A transaction was finished after work that has ended with `ending`. -/
def Finished (t : Transaction) (ending : Except (Failure ε) α) (ctx : Context W)
    (result : Except (Failure (PropagationError ε)) α) (ctx' : Context W) : Prop :=
  ∃ calls, ctx.Goes t calls ctx' ∧ (ctx'.sharedOf t).closed = true ∧
    Finalizes t.handle (ctx.sharedOf t) ending calls result

/-- What is left to be done once the work is over and, if it succeeded, settled. -/
theorem closing_goes {ending : Except (Failure ε) α} {result : Except ε α}
    {settled : Except TransactionError Unit} {settling : List CallRecord} {ctx ctx₁ : Context W}
    (hwaits : ctx.Waits t settling ctx₁)
    (hfinalizes : ∀ closed closing, Closes t.handle (ctx.sharedOf t).closed closing closed →
      Finalizes t.handle (ctx.sharedOf t) ending (settling ++ closing)
        ((combine result settled closed).mapError .error)) :
    Ends (do
        let closed ← t.close.attempt
        t.release
        Act.ofExcept (combine result settled closed) : Act W (PropagationError ε) α) ctx₁
      (fun a => Finished t ending ctx (.ok a))
      (fun failure => Finished t ending ctx (.error failure)) := by
  have hsame : ctx₁.sharedOf t = ctx.sharedOf t := by
    rw [Context.sharedOf, hwaits.2, ← Context.sharedOf]
  -- Whether the close fails or not, what comes out has been put together from it.
  have hdone : ∀ closed calls ctx₂, ctx₁.Goes t calls ctx₂ → (ctx₂.sharedOf t).closed = true →
      Closes t.handle (ctx₁.sharedOf t).closed calls closed →
      Ends (do
          t.release
          Act.ofExcept (combine result settled closed) : Act W (PropagationError ε) α) ctx₂
        (fun a => Finished t ending ctx (.ok a))
        (fun failure => Finished t ending ctx (.error failure)) := by
    intro closed calls ctx₂ hgoes hclosed hcloses
    rw [hsame] at hcloses
    refine (release_closed hclosed).bind ?_ (fun _ _ h => h.elim)
    rintro _ ctx₃ ⟨hreleased, hstill⟩
    have hall := (hwaits.1.trans hgoes).trans hreleased
    rw [List.append_nil] at hall
    have hend := hfinalizes closed calls hcloses
    cases hcombine : combine result settled closed with
    | ok a =>
      rw [hcombine] at hend
      exact ends_pure ⟨_, hall, hstill, hend⟩
    | error e =>
      rw [hcombine] at hend
      exact ends_throw ⟨_, hall, hstill, hend⟩
  refine ends_bind (Act.ends_attempt ((t.close_goes ctx₁).mono ?_ ?_))
  · rintro _ ctx₂ ⟨calls, hgoes, hclosed, hcloses⟩
    exact hdone (.ok ()) calls ctx₂ hgoes hclosed hcloses
  · rintro failure ctx₂ ⟨e, calls, rfl, hgoes, hclosed, hcloses⟩
    exact hdone (.error e) calls ctx₂ hgoes hclosed hcloses

/-- What a policy does afterwards depends on how its work has ended and on where. -/
theorem finishing_eq (t : Transaction) (act : Act W ε α) (ctx : Context W) :
    finishing t act ctx = finishing t (Act.ended (outcome act ctx)) (endState act ctx) := by
  have hattempt : (act.attempt : Act W Empty _) ctx
      = (Act.ended (outcome act ctx)).attempt (endState act ctx) := by
    rw [Act.attempt, Act.attempt, act.eq_ended ctx]
  have hwork : actAndSettle t act ctx
      = actAndSettle t (Act.ended (outcome act ctx)) (endState act ctx) :=
    bind_congr_run hattempt
  refine bind_congr_run ?_
  rw [Act.lift, Act.lift, Act.mapError, Act.mapError, Act.onPanic, Act.onPanic, hwork]

/-- A policy finishes its transaction by the protocol. -/
theorem finishing_goes (t : Transaction) (ending : Except (Failure ε) α) (ctx : Context W) :
    Ends (finishing t (Act.ended ending)) ctx (fun a => Finished t ending ctx (.ok a))
      (fun failure => Finished t ending ctx (.error failure)) := by
  have hnothing : ctx.Waits t [] ctx := ⟨.refl t ctx, rfl⟩
  unfold finishing
  refine ends_bind (Act.ends_lift (Act.ends_onPanic ?_))
  unfold actAndSettle
  cases ending with
  | ok a =>
    refine ends_bind (Act.ends_attempt (ends_bind ?_))
    refine Act.ends_attempt ((settle_goes t ctx).mono ?_ ?_)
    · rintro _ ctx₁ ⟨settling, hwaits, hsettles⟩
      refine closing_goes hwaits (fun closed closing hcloses => ?_)
      cases closed with
      | ok _ => exact .value hsettles hcloses
      | error e => exact .unclosed hsettles hcloses
    · rintro failure ctx₁ ⟨settling, hwaits, hsettles⟩
      cases failure with
      | error e =>
        refine closing_goes hwaits (fun closed closing hcloses => ?_)
        cases closed with
        | ok _ => exact .unsettled hsettles hcloses
        | error e' => exact .unsettled hsettles hcloses
      | panic message =>
        have hsame : ctx₁.sharedOf t = ctx.sharedOf t := by
          rw [Context.sharedOf, hwaits.2, ← Context.sharedOf]
        refine (closeOnUnwind_goes t ctx₁).mono ?_ (fun _ _ h => h)
        rintro _ ctx₂ ⟨closing, closed, hgoes, hclosed, hcloses⟩
        rw [hsame] at hcloses
        exact ⟨_, hwaits.1.trans hgoes, hclosed, .unknown hsettles hcloses⟩
  | error failure =>
    cases failure with
    | error e =>
      refine closing_goes hnothing (fun closed closing hcloses => ?_)
      cases closed with
      | ok _ => exact .failed hcloses
      | error e' => exact .failed hcloses
    | panic message =>
      refine (closeOnUnwind_goes t ctx).mono ?_ (fun _ _ h => h)
      rintro _ ctx₁ ⟨closing, closed, hgoes, hclosed, hcloses⟩
      exact ⟨closing, hgoes, hclosed, .panicked hcloses⟩

end Policy

end TransactionalRegistry
