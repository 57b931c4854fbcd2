import TransactionalRegistry.Proofs.Turns

/-!
# The lifetime of a transaction

What an action makes of a transaction is one of the turns of `Turn`. From there it is induction on
the actions of a run: what has been decided stays decided, whoever finds a transaction decided finds
the one action that has decided it, and what has been closed stays closed. All of this is about one
lifetime: as long as no other transaction is opened under the handle.

The deadline of a transaction is set when it is opened and never moved. An action that takes the
transaction for active has read the clock before that deadline, whatever else the action does.
Closing a key is the one call on a key that takes no transaction for anything: the handle is closed
whatever has become of the transaction that it is bound to.

## Main definitions

* `TransactionRecord.Tidy`: A transaction that was decided keeps neither a private copy nor changes.
* `expiry`: When a transaction expires, by its timeout and the time of its opening.
* `Takes`: An action takes a transaction for active.
* `Timely`: A transaction is active, and the clock was read before its deadline.
* `Reissues`: A transaction is opened under a handle by one of some actions.
* `DecidedBy`: One of some actions has decided a transaction.
* `Onwards`: What becomes of a transaction in the course of some actions.
* `Lifetime`: What holds of a transaction, and what a call can do to it.

## Theorems

* `Store.takes_timely`: An action that takes a transaction for active does so before its deadline.
* `Store.onwards`: What has been decided stays decided, and was decided by one action.
* `transactions_are_decided_once`: The lifetime of every transaction of every run.
-/

namespace TransactionalRegistry

open Store

/-- A transaction that is not active has neither a private copy nor changes. -/
def TransactionRecord.Tidy (r : TransactionRecord) : Prop :=
  r.state ≠ .active → r.workspace = none ∧ r.log = []

/-- When a transaction expires that was opened with a timeout. A timeout of zero is none. -/
def expiry (timeoutMillis : UInt32) (opened : Time) : Option Time :=
  if timeoutMillis = 0 then none else some (opened + timeoutMillis.toNat * 1000000)

/-! ## Taking a transaction for active -/

/-- An action takes a transaction for active: it reports it as active, decides it, finds that its
    changes do not apply, or serves a call in it. -/
inductive Takes (t : TransactionHandle) (s : Store) : Action → Prop
  | asked : outcome (transactionState? t) s = .ok (some .active) → Takes t s (.ask t)
  | reported : outcome (transactionOutcome t) s = .ok TransactionState.active.outcome →
      Takes t s (.call (.transactionOutcome t))
  | decided {call : Call} {answer : call.Answer} : call.decides? = some t →
      outcome (perform call) s = .ok answer → Takes t s (.call call)
  | conflicted : outcome (commitTransaction t) s = .error .transactionalConflict →
      Takes t s (.call (.commitTransaction t))
  | served {call : Call} {answer : call.Answer} : call.key?.isSome →
      (∀ key, call ≠ .closeKey key) → s.transactionOf call = some t →
      outcome (perform call) s = .ok answer → Takes t s (.call call)

/-- A transaction is active, and if it has a deadline, then the clock was read before it by the
    action, at the last reading or, if the last one has stamped a change, at the one before. -/
structure Timely (t : TransactionHandle) (s : Store) (action : Action) (r : TransactionRecord) :
    Prop where
  known : s.record? t = some r
  active : r.state = .active
  in_time : ∀ deadline, r.deadline = some deadline → ∃ checks stamps, 0 < checks ∧ stamps ≤ 1 ∧
    (s.clock.readings checks).now < deadline ∧
    (s.after action).clock = s.clock.readings (checks + stamps)

section

variable {t : TransactionHandle} {s s' : Store} {action : Action} {r : TransactionRecord}

namespace Store

/-- An active transaction whose deadline was looked at once, and found to be after that reading. -/
theorem timely_of_inTime (stamps : Nat) (hr : s.record? t = some r) (hin : r.InTime s.clock)
    (hstamps : stamps ≤ 1)
    (hclock : (s.after action).clock = s.clock.readings (r.checks + stamps)) :
    Timely t s action r := by
  refine ⟨hr, hin.1, fun deadline hdeadline => ?_⟩
  have hchecks : r.checks = 1 := by
    rw [TransactionRecord.checks, hdeadline]
    rfl
  rw [hchecks] at hclock
  exact ⟨1, stamps, Nat.one_pos, hstamps, hin.2 deadline hdeadline, hclock⟩

/-- A transaction that is handed out as active is in time. -/
theorem timely_of_current {r₁ : TransactionRecord} {s₁ : Store} (hr : s.record? t = some r)
    (hcurrent : currentRecord t s = .ok r₁ s₁) (hactive : r₁.state = .active)
    (hclock : (s.after action).clock = s₁.clock) : Timely t s action r := by
  rcases currentRecord_of_known hr with ⟨r₂, s₂, hcurrent₂, ⟨hin, _⟩ | ⟨e, hdecided⟩⟩
  · -- It was in time, so the clock was read once and the record handed out is its own.
    rw [currentRecord_of_inTime hr hin] at hcurrent
    cases hcurrent
    exact timely_of_inTime 0 hr hin (Nat.zero_le 1) hclock
  · -- It was expired or decided, so it is not handed out as active.
    rw [hcurrent] at hcurrent₂
    cases hcurrent₂
    rw [hactive] at hdecided
    exact absurd hdecided (by simp [decidedError])

/-- A transaction that is answered to be active is in time. -/
theorem asked_timely (h : outcome (transactionState? t) s = .ok (some .active)) :
    ∃ r, Timely t s (.ask t) r := by
  have hask := eq_of_outcome h
  cases hr : s.record? t with
  | none =>
    rw [transactionState?_of_unknown hr] at hask
    exact absurd hask (by simp)
  | some r =>
    rcases currentRecord_of_known hr with ⟨r₁, s₁, hcurrent, _⟩
    have hstate := transactionState?_of_current hr hcurrent
    rw [hstate] at hask
    simp only [EStateM.Result.ok.injEq, Option.some.injEq] at hask
    exact ⟨r, timely_of_current hr hcurrent hask.1 (congrArg Store.clock hask.2.symm)⟩

/-- A transaction that is reported as active is in time. -/
theorem reported_timely
    (h : outcome (transactionOutcome t) s = .ok TransactionState.active.outcome) :
    ∃ r, Timely t s (.call (.transactionOutcome t)) r := by
  have hreport := eq_of_outcome h
  cases hr : s.record? t with
  | none =>
    rw [transactionOutcome_of_unknown hr] at hreport
    exact absurd hreport (by simp)
  | some r =>
    rcases currentRecord_of_known hr with ⟨r₁, s₁, hcurrent, _⟩
    have hstate := transactionOutcome_of_current hr hcurrent
    rw [hstate] at hreport
    simp only [EStateM.Result.ok.injEq] at hreport
    have hactive : r₁.state = .active := by
      -- The three states are reported by different numbers.
      cases hstate₁ : r₁.state with
      | active => rfl
      | committed => exact absurd hreport.1 (by rw [hstate₁]; decide)
      | rolledBack => exact absurd hreport.1 (by rw [hstate₁]; decide)
    exact ⟨r, timely_of_current hr hcurrent hactive (congrArg Store.clock hreport.2.symm)⟩

/-- A call has decided a transaction, or has found that its changes do not apply. -/
theorem decided_timely {call : Call} (hcall : call.decides? = some t)
    (h : (∃ answer, outcome (perform call) s = .ok answer) ∨
      outcome (perform call) s = .error .transactionalConflict) :
    ∃ r, Timely t s (.call call) r := by
  -- No other refusal is one for a conflict.
  have hnever : ∀ e s₁, perform call s = .error e s₁ → e ≠ .transactionalConflict → False := by
    intro e s₁ herror hother
    rcases h with ⟨answer, hok⟩ | hconflict
    · exact absurd hok (by rw [outcome, herror]; simp)
    · rw [outcome, herror] at hconflict
      exact hother (Except.error.inj hconflict)
  cases hr : s.record? t with
  | none => exact (hnever _ _ (perform_of_unknown hcall hr) (by decide)).elim
  | some r =>
    -- Either it was in time and the call looked at its deadline once, or the call was refused.
    rcases currentRecord_of_known hr with ⟨r₁, s₁, hcurrent, ⟨hin, _⟩ | ⟨e, hdecided⟩⟩
    · refine ⟨r, ?_⟩
      cases call with
      | commitTransaction t' =>
        obtain rfl : t' = t := Option.some.inj hcall
        cases hreplay : Mutation.replay (s.clock.readings (r.checks + 1)).now s.hives r.log with
        | ok hives =>
          have hafter := endState_of_ok (commit_of_replay hr hin hreplay)
          exact timely_of_inTime 1 hr hin (Nat.le_refl 1) (congrArg Store.clock hafter)
        | error e =>
          have hafter := endState_of_error (commit_of_conflict hr hin hreplay)
          exact timely_of_inTime 1 hr hin (Nat.le_refl 1) (congrArg Store.clock hafter)
      | rollbackTransaction t' =>
        obtain rfl : t' = t := Option.some.inj hcall
        have hafter := endState_of_ok (rollback_of_inTime hr hin)
        exact timely_of_inTime 0 hr hin (Nat.zero_le 1) (congrArg Store.clock hafter)
      | _ => exact absurd hcall (by simp [Call.decides?])
    · refine (hnever _ _ (perform_of_current hcall hr hcurrent hdecided) ?_).elim
      cases hstate : r₁.state with
      | active => exact absurd hdecided (by rw [hstate]; simp [decidedError])
      | committed =>
        rw [hstate, decidedError, Option.some.injEq] at hdecided
        rw [← hdecided]
        decide
      | rolledBack =>
        rw [hstate, decidedError, Option.some.injEq] at hdecided
        rw [← hdecided]
        decide

/-- A call on a key that was served had an active transaction. -/
theorem served_timely {call : Call} {answer : call.Answer} (hkey : call.key?.isSome)
    (hopen : ∀ key, call ≠ .closeKey key) (hin : s.transactionOf call = some t)
    (h : outcome (perform call) s = .ok answer) : ∃ r, Timely t s (.call call) r := by
  have hserved := eq_of_outcome h
  -- The call has looked at its transaction, so it would not have been served had that been over.
  have hlooks : s.looks call = true := (looks_of_ok hkey hopen s).ok hserved
  have halive : ¬ s.Over t := fun hover => (perform_over hlooks hin hover).ok hserved
  have hactive : ∃ r, s.record? t = some r ∧ r.state = .active := by
    refine Classical.byContradiction (fun hnone => halive (fun r hr => ?_))
    exact Or.inl (fun hactive => hnone ⟨r, hr, hactive⟩)
  rcases hactive with ⟨r, hr, hactive⟩
  refine ⟨r, hr, hactive, fun deadline hdeadline => ?_⟩
  rcases (perform_keeps hkey hopen hin ⟨r, hr, hactive, hdeadline⟩).ok hserved with
    ⟨checks, stamps, hpos, hstamps, hkept⟩
  exact ⟨checks, stamps, hpos, hstamps, hkept.in_time hpos, hkept.clock⟩

/-- An action that takes a transaction for active does so before its deadline. -/
theorem takes_timely (h : Takes t s action) : ∃ r, Timely t s action r := by
  cases h with
  | asked h => exact asked_timely h
  | reported h => exact reported_timely h
  | decided hcall h => exact decided_timely hcall (Or.inl ⟨_, h⟩)
  | conflicted h => exact decided_timely rfl (Or.inr h)
  | served hkey hopen hin h => exact served_timely hkey hopen hin h

end Store

end

/-! ## Runs -/

/-- A transaction is opened under a handle by one of some actions. -/
def Reissues (t : TransactionHandle) : Store → List Action → Prop
  | _, [] => False
  | s, action :: rest => s.issued action = some t ∨ Reissues t (s.after action) rest

/-- One of some actions has found a transaction active and has decided it, and `r` is what is kept
    about it since. -/
def DecidedBy (t : TransactionHandle) (s : Store) (actions : List Action) (r : TransactionRecord) :
    Prop :=
  ∃ before action rest r₀, actions = before ++ action :: rest ∧
    (before.foldl Store.after s).record? t = some r₀ ∧ r₀.state = .active ∧
    Turn t (before.foldl Store.after s) action (some r₀) (some r)

/-- What becomes of a transaction in the course of some actions. It keeps its deadline; once it is
    decided it stays as it is; if it was active before and is not afterwards, one of the actions has
    decided it; and once it is closed it stays unknown. -/
structure Onwards (t : TransactionHandle) (s : Store) (actions : List Action) (s' : Store) :
    Prop where
  closed : s.record? t = none → s'.record? t = none
  deadline : ∀ r r', s.record? t = some r → s'.record? t = some r' → r'.deadline = r.deadline
  decided : ∀ r r', s.record? t = some r → s'.record? t = some r' → r.state ≠ .active → r' = r
  decidedBy : ∀ r r', s.record? t = some r → s'.record? t = some r' → r.state = .active →
    r'.state ≠ .active → DecidedBy t s actions r'

section

variable {t : TransactionHandle} {s s' : Store} {action : Action} {rest : List Action}
  {before after : Option TransactionRecord}

theorem DecidedBy.later {r : TransactionRecord} (h : DecidedBy t (s.after action) rest r) :
    DecidedBy t s (action :: rest) r := by
  rcases h with ⟨earlier, deciding, later, r₀, rfl, hrest⟩
  exact ⟨action :: earlier, deciding, later, r₀, rfl, hrest⟩

namespace Turn

/-- What a turn makes of a transaction that is known, unless it opens another one. -/
theorem goes (h : Turn t s action before after) (hissued : s.issued action ≠ some t)
    {r r' : TransactionRecord} (hr : before = some r) (hr' : after = some r') :
    r'.deadline = r.deadline ∧ (r.state ≠ .active → r' = r) := by
  subst hr
  subst hr'
  cases h with
  -- No other transaction is opened under the handle, and a decision keeps the deadline.
  | opens _ _ _ hopened => exact absurd hopened hissued
  | stays hstays => exact ⟨hstays.deadline, hstays.ended⟩
  | commits _ _ hactive => exact ⟨rfl, fun hended => absurd hactive hended⟩
  | rollsBack _ _ hactive => exact ⟨rfl, fun hended => absurd hactive hended⟩
  | conflicts _ _ hactive => exact ⟨rfl, fun hended => absurd hactive hended⟩
  | expires _ _ hactive => exact ⟨rfl, fun hended => absurd hactive hended⟩

/-- No turn makes an unknown transaction known, unless it opens one. -/
theorem unknown_after (h : Turn t s action none after) (hissued : s.issued action ≠ some t) :
    after = none := by
  cases h with
  | unknown => rfl
  | opens _ _ _ hopened => exact absurd hopened hissued

/-- Every turn leaves a transaction tidy. -/
theorem tidy (h : Turn t s action before after) (htidy : ∀ r, before = some r → r.Tidy)
    {r' : TransactionRecord} (hr' : after = some r') : r'.Tidy := by
  subst hr'
  cases h with
  -- What a decision leaves behind is emptied by it; the rest was tidy before.
  | opens => exact fun hended => absurd rfl hended
  | commits => exact fun _ => ⟨rfl, rfl⟩
  | rollsBack => exact fun _ => ⟨rfl, rfl⟩
  | conflicts => exact fun _ => ⟨rfl, rfl⟩
  | expires => exact fun _ => ⟨rfl, rfl⟩
  | stays hstays =>
    intro hended
    rw [hstays.state] at hended
    rw [hstays.ended hended]
    exact htidy _ rfl hended

end Turn

namespace Store

theorem onwards_nil (t : TransactionHandle) (s : Store) : Onwards t s [] s where
  closed h := h
  deadline r r' hr hr' := by rw [Option.some.inj (hr'.symm.trans hr)]
  decided r r' hr hr' _ := Option.some.inj (hr'.symm.trans hr)
  decidedBy r r' hr hr' hactive hended := by
    rw [Option.some.inj (hr'.symm.trans hr)] at hended
    exact absurd hactive hended

/-- What an action and then others make of a transaction. -/
theorem onwards_cons (haligned : s.Aligned) (hissued : s.issued action ≠ some t)
    (h : Onwards t (s.after action) rest s') : Onwards t s (action :: rest) s' := by
  have hturn := turns haligned t action
  -- A transaction that is known in the end was known all the time.
  have hknown : ∀ r', s'.record? t = some r' → ∃ r₁, (s.after action).record? t = some r₁ := by
    intro r' hr'
    cases hr₁ : (s.after action).record? t with
    | none => exact absurd hr' (by rw [h.closed hr₁]; simp)
    | some r₁ => exact ⟨r₁, rfl⟩
  refine ⟨?_, ?_, ?_, ?_⟩
  · intro hnone
    rw [hnone] at hturn
    exact h.closed (hturn.unknown_after hissued)
  · intro r r' hr hr'
    rcases hknown r' hr' with ⟨r₁, hr₁⟩
    rw [h.deadline r₁ r' hr₁ hr', (hturn.goes hissued hr hr₁).1]
  · intro r r' hr hr' hended
    rcases hknown r' hr' with ⟨r₁, hr₁⟩
    have hsame := (hturn.goes hissued hr hr₁).2 hended
    subst hsame
    exact h.decided r₁ r' hr₁ hr' hended
  · intro r r' hr hr' hactive hended
    rcases hknown r' hr' with ⟨r₁, hr₁⟩
    by_cases hactive₁ : r₁.state = .active
    · exact (h.decidedBy r₁ r' hr₁ hr' hactive₁ hended).later
    · -- It is this action that has decided the transaction, and nothing has changed it since.
      have hsame := h.decided r₁ r' hr₁ hr' hactive₁
      subst hsame
      refine ⟨[], action, rest, r, rfl, hr, hactive, ?_⟩
      rw [hr, hr₁] at hturn
      exact hturn

/-- What becomes of a transaction in the course of actions that open no other one in its place. -/
theorem onwards (haligned : s.Aligned) {actions : List Action} (hno : ¬ Reissues t s actions) :
    Onwards t s actions (actions.foldl Store.after s) := by
  induction actions generalizing s with
  | nil => exact onwards_nil t s
  | cons action rest ih =>
    -- The first action opens no transaction under the handle, and neither do those that follow
    -- it.
    have hissued : s.issued action ≠ some t := fun h => hno (Or.inl h)
    have hlater : ¬ Reissues t (s.after action) rest := fun h => hno (Or.inr h)
    exact onwards_cons haligned hissued (ih (aligned_after haligned action) hlater)

/-- After every run, a transaction that is not active keeps nothing. -/
theorem tidy_after (haligned : s.Aligned) (htidy : ∀ r, s.record? t = some r → r.Tidy)
    (actions : List Action) :
    ∀ r, (actions.foldl Store.after s).record? t = some r → r.Tidy := by
  induction actions generalizing s with
  | nil => exact htidy
  | cons action rest ih =>
    refine ih (aligned_after haligned action) ?_
    intro r hr
    exact (turns haligned t action).tidy htidy hr

end Store

end

/-! ## The lifetime of a transaction -/

/-- What holds of a transaction, and what the next action can do to it. The refusals are those of
    every call that decides a transaction, whatever code was left behind before. -/
structure Lifetime (t : TransactionHandle) (s : Store) : Prop where
  tidy : ∀ r, s.record? t = some r → r.Tidy
  turns : ∀ action, Turn t s action (s.record? t) ((s.after action).record? t)
  timely : ∀ action, Takes t s action → ∃ r, Timely t s action r
  unknown : s.record? t = none → ∀ call, call.decides? = some t → ∀ code,
    perform call { s with lastError := code }
      = .error .invalidHandle { s with lastError := NativeError.invalidHandle.code }
  committed : ∀ r, s.record? t = some r → r.state = .committed →
    ∀ call, call.decides? = some t → ∀ code,
    perform call { s with lastError := code } = .error .transactionAlreadyCommitted
      { s with lastError := NativeError.transactionAlreadyCommitted.code }
  rolledBack : ∀ r, s.record? t = some r → r.state = .rolledBack →
    ∀ call, call.decides? = some t → ∀ code,
    perform call { s with lastError := code } = .error .transactionAlreadyAborted
      { s with lastError := NativeError.transactionAlreadyAborted.code }
  overdue : ∀ r, s.record? t = some r → r.Due s.clock →
    ∀ call, call.decides? = some t → ∀ code,
    perform call { s with lastError := code } = .error .transactionAlreadyAborted
      { s.expired t r with lastError := NativeError.transactionAlreadyAborted.code }
  conflict : ∀ r e, s.record? t = some r → r.InTime s.clock →
    Mutation.replay (s.clock.readings (r.checks + 1)).now s.hives r.log = .error e → ∀ code,
    perform (.commitTransaction t) { s with lastError := code }
      = .error .transactionalConflict (s.gaveUp t r)

theorem lifetime_of_aligned {t : TransactionHandle} {s : Store} (haligned : s.Aligned)
    (htidy : ∀ r, s.record? t = some r → r.Tidy) : Lifetime t s where
  tidy := htidy
  turns action := Store.turns haligned t action
  timely _ h := takes_timely h
  unknown hnone _ hcall code := perform_of_unknown (s := { s with lastError := code }) hcall hnone
  committed r hr hstate _ hcall code :=
    perform_of_decided (s := { s with lastError := code }) hcall hr (by rw [hstate]; rfl)
  rolledBack r hr hstate _ hcall code :=
    perform_of_decided (s := { s with lastError := code }) hcall hr (by rw [hstate]; rfl)
  overdue r hr hdue _ hcall code :=
    perform_of_due (s := { s with lastError := code }) hcall hr hdue
  conflict r e hr hin hreplay code :=
    commit_of_conflict (s := { s with lastError := code }) hr hin hreplay

/-- What an action has opened under a handle. -/
theorem opened_of_issued {t : TransactionHandle} {s : Store} {timeoutMillis : UInt32}
    {description : Option String}
    (h : s.issued (.call (.createTransaction timeoutMillis description)) = some t) :
    Created timeoutMillis description t s
      (s.after (.call (.createTransaction timeoutMillis description))) := by
  change (outcome (createTransaction timeoutMillis description) s).toOption = some t at h
  have hcreated : outcome (createTransaction timeoutMillis description) s = .ok t := by
    cases hresult : outcome (createTransaction timeoutMillis description) s with
    | error e => exact absurd h (by rw [hresult]; simp [Except.toOption])
    | ok t' =>
      rw [hresult] at h
      exact congrArg Except.ok (Option.some.inj h)
  exact ((createTransaction_ends timeoutMillis description s).ok (eq_of_outcome hcreated)).2.2

theorem Chronicle.run_append_store (clock : Clock) (actions more : List Action) :
    (Chronicle.run clock (actions ++ more)).store
      = more.foldl Store.after (Chronicle.run clock actions).store := by
  rw [Chronicle.run_append, Chronicle.continued_store]

/-- What becomes of a transaction from the action on that has opened it. Its deadline is the one
    that its timeout sets, counted from the time that the clock showed then, and if it is not active
    any more, then one of the actions since has decided it. -/
structure Opening (t : TransactionHandle) (timeoutMillis : UInt32) (s opened : Store) : Prop where
  clock : opened.clock = s.clock.read
  known : ∃ r, opened.record? t = some r ∧ r.state = .active
  deadline : ∀ later r, ¬ Reissues t opened later →
    (later.foldl Store.after opened).record? t = some r →
    r.deadline = expiry timeoutMillis opened.clock.now
  decidedBy : ∀ later r, ¬ Reissues t opened later →
    (later.foldl Store.after opened).record? t = some r → r.state ≠ .active →
    DecidedBy t opened later r

theorem opening_of_issued {t : TransactionHandle} {s : Store} {timeoutMillis : UInt32}
    {description : Option String} (haligned : s.Aligned)
    (h : s.issued (.call (.createTransaction timeoutMillis description)) = some t) :
    Opening t timeoutMillis s
      (s.after (.call (.createTransaction timeoutMillis description))) := by
  have hcreated := opened_of_issued h
  have haligned' := aligned_after haligned (.call (.createTransaction timeoutMillis description))
  have hfound := hcreated.record t
  rw [if_pos rfl] at hfound
  refine ⟨hcreated.clock, ⟨_, hfound, rfl⟩, ?_, ?_⟩
  · intro later r hno hr
    exact (onwards haligned' hno).deadline _ r hfound hr
  · intro later r hno hr hended
    exact (onwards haligned' hno).decidedBy _ r hfound hr rfl hended

/-- After every run, a transaction is what its lifetime so far has made of it, whatever the handle
    is; what it is now it stays in the course of any further actions, but for the one that decides
    it and the one that closes it; and if an action opens it, then its deadline is the one that its
    timeout sets. -/
theorem transactions_are_decided_once (clock : Clock) (actions : List Action)
    (t : TransactionHandle) :
    Lifetime t (Chronicle.run clock actions).store ∧
      (∀ later, ¬ Reissues t (Chronicle.run clock actions).store later →
        Onwards t (Chronicle.run clock actions).store later
          (Chronicle.run clock (actions ++ later)).store) ∧
      ∀ timeoutMillis description,
        (Chronicle.run clock actions).store.issued
          (.call (.createTransaction timeoutMillis description)) = some t →
        Opening t timeoutMillis (Chronicle.run clock actions).store
          (Chronicle.run clock
            (actions ++ [.call (.createTransaction timeoutMillis description)])).store := by
  have haligned := Chronicle.run_aligned clock actions
  -- A fresh store knows no transaction.
  have htidy : ∀ r, (Chronicle.run clock actions).store.record? t = some r → r.Tidy := by
    rw [Chronicle.run_store]
    refine tidy_after (Chronicle.fresh_aligned clock) ?_ actions
    intro r hr
    exact absurd hr (by simp [Chronicle.fresh, Store.fresh, record?, Table.find?])
  refine ⟨lifetime_of_aligned haligned htidy, ?_, ?_⟩
  · intro later hno
    rw [Chronicle.run_append_store]
    exact onwards haligned hno
  · intro timeoutMillis description hissued
    rw [Chronicle.run_append_store]
    exact opening_of_issued haligned hissued

/-- A key is created in a transaction, and then ten milliseconds pass. -/
def createAndWait : List Action :=
  [.call (.createKey RootKey.currentUser.handle "Inside" .all (some ⟨0x1000⟩)), .pass 10000000]

theorem expired_of_createAndWait :
    ∃ r, (Chronicle.run ⟨0, [3]⟩
          (.call (.createTransaction 10 none) :: createAndWait)).store.record? ⟨0x1000⟩ = some r ∧
      r.state = .active ∧ r.deadline = some 10000003 ∧
      outcome (perform (.commitTransaction ⟨0x1000⟩))
        (Chronicle.run ⟨0, [3]⟩ (.call (.createTransaction 10 none) :: createAndWait)).store
        = .error .transactionAlreadyAborted := by
  have hopening := (transactions_are_decided_once ⟨0, [3]⟩ [] ⟨0x1000⟩).2.2 10 none rfl
  have hlate := (transactions_are_decided_once ⟨0, [3]⟩
    (.call (.createTransaction 10 none) :: createAndWait) ⟨0x1000⟩).1
  refine ⟨_, rfl, rfl, ?_, ?_⟩
  · refine hopening.deadline createAndWait _ ?_ rfl
    rintro (h | h | h)
    · exact absurd h (by simp [Store.issued])
    · exact absurd h (by simp [Store.issued])
    · exact h
  · have hrefused : perform (.commitTransaction ⟨0x1000⟩) (Chronicle.run ⟨0, [3]⟩
        (.call (.createTransaction 10 none) :: createAndWait)).store
        = .error .transactionAlreadyAborted _ :=
      hlate.overdue _ rfl ⟨rfl, 10000003, rfl, Nat.le_refl _⟩ _ rfl 0
    rw [outcome, hrefused]

end TransactionalRegistry
