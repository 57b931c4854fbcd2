import TransactionalRegistry.Proofs.Deadlines

/-!
# Verdicts

What becomes of a transaction when a call asks for it is settled by what is kept about it and by the
next reading of the clock: it is unknown, it was decided, it is overdue, or it is in time. For the
calls that decide a transaction this module gives the answer and the store in full, case by case.

Nothing can be done in a transaction that is over. Deciding it again fails with a code that tells
why, and leaves the store as it was, but for the code itself and for what finding the transaction
overdue does. A call on a key that looks through it fails as well. The code that some earlier call
left behind plays no part in this: a call leaves its own code behind before it reads it.

## Main definitions

* `Call.decides?`: The transaction that a call decides.
* `TransactionRecord.Due`, `TransactionRecord.InTime`: Whether the deadline of an active transaction
  comes with the next reading of the clock.
* `Store.expired`: A store in which a transaction was found to be overdue.
* `Store.gaveUp`, `Store.settled`, `Store.rolledBack`: A store in which a transaction was decided.
* `Store.Over`: Nothing can be done in a transaction any more.

## Theorems

* `Store.currentRecord_of_ended`, `Store.currentRecord_of_inTime`, `Store.currentRecord_of_due`: A
  transaction is handed out.
* `Store.perform_of_unknown`, `Store.perform_of_decided`, `Store.perform_of_due`: Deciding a
  transaction that is over.
* `Store.commit_of_conflict`, `Store.commit_of_replay`, `Store.rollback_of_inTime`: Deciding a
  transaction that is in time.
* `Store.perform_over`: Looking through a transaction that is over.
-/

namespace TransactionalRegistry

/-- The transaction that a call decides. -/
def Call.decides? : Call → Option TransactionHandle
  | commitTransaction t => some t
  | rollbackTransaction t => some t
  | _ => none

namespace TransactionRecord

/-- An active transaction whose deadline has come by the next reading of the clock. -/
def Due (r : TransactionRecord) (clock : Clock) : Prop :=
  r.state = .active ∧ ∃ deadline, r.deadline = some deadline ∧ deadline ≤ clock.read.now

/-- An active transaction whose deadline, if it has one, is after the next reading. -/
def InTime (r : TransactionRecord) (clock : Clock) : Prop :=
  r.state = .active ∧ ∀ deadline, r.deadline = some deadline → clock.read.now < deadline

/-- How often the clock is read to look at the deadline of an active transaction. -/
def checks (r : TransactionRecord) : Nat :=
  if r.deadline.isSome then 1 else 0

/-- An active transaction is in time or overdue. -/
theorem inTime_or_due {r : TransactionRecord} (hactive : r.state = .active) (clock : Clock) :
    r.InTime clock ∨ r.Due clock := by
  cases hdeadline : r.deadline with
  | none => exact Or.inl ⟨hactive, fun _ h => absurd h (by rw [hdeadline]; simp)⟩
  | some deadline =>
    by_cases hlt : clock.read.now < deadline
    · refine Or.inl ⟨hactive, fun deadline' h => ?_⟩
      rw [hdeadline, Option.some.injEq] at h
      exact h ▸ hlt
    · exact Or.inr ⟨hactive, deadline, hdeadline, Nat.le_of_not_lt hlt⟩

end TransactionRecord

namespace Store

/-- The store after a transaction was found to be overdue. -/
def expired (s : Store) (t : TransactionHandle) (r : TransactionRecord) : Store :=
  { s with
    transactions := Table.insert s.transactions t r.discarded
    clock := s.clock.read
    journal := s.journal ++ [.debug "transaction timed out"] }

/-- The store after the commit of a transaction whose changes do not apply. -/
def gaveUp (s : Store) (t : TransactionHandle) (r : TransactionRecord) : Store :=
  { s with
    transactions := Table.insert s.transactions t r.discarded
    clock := s.clock.readings (r.checks + 1)
    lastError := NativeError.transactionalConflict.code
    journal := s.journal ++ [.debug "commit conflict, transaction rolled back"] }

/-- The store after the commit of a transaction whose changes, made to the live trees, give
    `hives`. -/
def settled (s : Store) (t : TransactionHandle) (r : TransactionRecord) (hives : Hives) : Store :=
  { s with
    hives := hives
    transactions := Table.insert s.transactions t r.settled
    clock := s.clock.readings (r.checks + 1)
    journal := s.journal ++ [.debug "transaction committed"] }

/-- The store after a transaction was rolled back on request. -/
def rolledBack (s : Store) (t : TransactionHandle) (r : TransactionRecord) : Store :=
  { s with
    transactions := Table.insert s.transactions t r.discarded
    clock := s.clock.readings r.checks
    journal := s.journal ++ [.debug "transaction rolled back"] }

section

variable {t : TransactionHandle} {r : TransactionRecord} {s : Store}

/-! ## Handing a transaction out -/

/-- A transaction that was decided is handed out as it is. -/
theorem currentRecord_of_ended (hr : s.record? t = some r) (hended : r.state ≠ .active) :
    currentRecord t s = .ok r s := by
  have hfound : Table.find? s.transactions t = some r := hr
  -- Nothing but an active transaction waits for its deadline.
  have hpending : r.pendingDeadline = none := by
    rw [TransactionRecord.pendingDeadline, if_neg hended]
  unfold currentRecord
  refine (bind_of_ok rfl).trans ?_
  simp only [hfound, hpending]
  rfl

/-- A transaction that is in time is handed out as it is, after a reading of the clock if it has a
    deadline. -/
theorem currentRecord_of_inTime (hr : s.record? t = some r) (hin : r.InTime s.clock) :
    currentRecord t s = .ok r { s with clock := s.clock.readings r.checks } := by
  have hfound : Table.find? s.transactions t = some r := hr
  have hpending : r.pendingDeadline = r.deadline := by
    rw [TransactionRecord.pendingDeadline, if_pos hin.1]
  unfold currentRecord
  refine (bind_of_ok rfl).trans ?_
  simp only [hfound, hpending]
  cases hdeadline : r.deadline with
  | none =>
    rw [TransactionRecord.checks, hdeadline]
    rfl
  | some deadline =>
    rw [TransactionRecord.checks, hdeadline]
    refine (bind_of_ok rfl).trans ?_
    rw [if_pos (hin.2 deadline hdeadline)]
    rfl

/-- A transaction that is overdue is rolled back when it is handed out. -/
theorem currentRecord_of_due (hr : s.record? t = some r) (hdue : r.Due s.clock) :
    currentRecord t s = .ok r.discarded (s.expired t r) := by
  rcases hdue with ⟨hactive, deadline, hdeadline, hle⟩
  have hfound : Table.find? s.transactions t = some r := hr
  have hpending : r.pendingDeadline = some deadline := by
    rw [TransactionRecord.pendingDeadline, if_pos hactive, hdeadline]
  unfold currentRecord
  refine (bind_of_ok rfl).trans ?_
  simp only [hfound, hpending]
  refine (bind_of_ok rfl).trans ?_
  rw [if_neg (Nat.not_lt_of_le hle)]
  rfl

/-- What a transaction that is known is handed out as. -/
theorem currentRecord_of_known (hr : s.record? t = some r) :
    ∃ r₁ s₁, currentRecord t s = .ok r₁ s₁ ∧
      (r.InTime s.clock ∧ r₁ = r ∨ ∃ e, decidedError r₁.state = some e) := by
  by_cases hactive : r.state = .active
  · rcases TransactionRecord.inTime_or_due hactive s.clock with hin | hdue
    · exact ⟨_, _, currentRecord_of_inTime hr hin, Or.inl ⟨hin, rfl⟩⟩
    · exact ⟨_, _, currentRecord_of_due hr hdue, Or.inr ⟨_, rfl⟩⟩
  · refine ⟨_, _, currentRecord_of_ended hr hactive, Or.inr ?_⟩
    cases hstate : r.state with
    | active => exact absurd hstate hactive
    | committed => exact ⟨_, rfl⟩
    | rolledBack => exact ⟨_, rfl⟩

/-- The state of a transaction is told as it is handed out. -/
theorem transactionState?_of_current {r₁ : TransactionRecord} {s₁ : Store}
    (hr : s.record? t = some r) (hcurrent : currentRecord t s = .ok r₁ s₁) :
    transactionState? t s = .ok (some r₁.state) s₁ := by
  have hfound : Table.find? s.transactions t = some r := hr
  unfold transactionState?
  refine (bind_of_ok rfl).trans ?_
  rw [hfound]
  exact (bind_of_ok hcurrent).trans rfl

/-- Of an unknown transaction there is no state to tell. -/
theorem transactionState?_of_unknown (hunknown : s.record? t = none) :
    transactionState? t s = .ok none s := by
  have hmissing : Table.find? s.transactions t = none := hunknown
  unfold transactionState?
  exact (bind_of_ok rfl).trans (by rw [hmissing]; rfl)

/-- So is its outcome. -/
theorem transactionOutcome_of_current {r₁ : TransactionRecord} {s₁ : Store}
    (hr : s.record? t = some r) (hcurrent : currentRecord t s = .ok r₁ s₁) :
    transactionOutcome t s = .ok r₁.state.outcome s₁ := by
  have hfound : Table.find? s.transactions t = some r := hr
  unfold transactionOutcome
  refine (bind_of_ok rfl).trans ?_
  rw [hfound]
  exact (bind_of_ok hcurrent).trans rfl

/-- The outcome of an unknown transaction is refused. -/
theorem transactionOutcome_of_unknown (hunknown : s.record? t = none) :
    transactionOutcome t s
      = .error .invalidHandle { s with lastError := NativeError.invalidHandle.code } := by
  have hmissing : Table.find? s.transactions t = none := hunknown
  unfold transactionOutcome
  exact (bind_of_ok rfl).trans (by rw [hmissing]; rfl)

/-! ## Deciding a transaction -/

/-- A call that leaves a code behind and signals failure fails with that code, whatever was left
    behind before. -/
theorem checkBool_of_failWith {e : NativeError} (hcode : e.code ≠ 0) (s : Store) :
    (do Signal.checkBool (← failWith e) readLastError) s
      = .error e { s with lastError := e.code } := by
  have hleft : Signal.lastErrorOf e.code = e := if_neg hcode
  change EStateM.Result.error (Signal.lastErrorOf e.code) _ = _
  rw [hleft]

/-- What is to be done with an unknown transaction fails before it is done. -/
theorem withRecord_of_unknown (hunknown : s.record? t = none)
    (action : TransactionRecord → StoreM Bool) :
    withRecord t action s = failWith .invalidHandle s := by
  have hmissing : Table.find? s.transactions t = none := hunknown
  unfold withRecord
  refine (bind_of_ok rfl).trans ?_
  rw [hmissing]

/-- What is to be done with a transaction is done with what is handed out. -/
theorem withRecord_of_current {r₀ : TransactionRecord} {s₁ : Store} (hr : s.record? t = some r₀)
    (hcurrent : currentRecord t s = .ok r s₁) (action : TransactionRecord → StoreM Bool) :
    withRecord t action s = action r s₁ := by
  have hfound : Table.find? s.transactions t = some r₀ := hr
  unfold withRecord
  refine (bind_of_ok rfl).trans ?_
  rw [hfound]
  exact bind_of_ok hcurrent

/-- An unknown transaction cannot be decided. -/
theorem perform_of_unknown {call : Call} (hcall : call.decides? = some t)
    (hunknown : s.record? t = none) :
    perform call s
      = .error .invalidHandle { s with lastError := NativeError.invalidHandle.code } := by
  -- Whatever would be done with it, there is no record to do it with.
  have hrefused : ∀ action, (do Signal.checkBool (← withRecord t action) readLastError) s
      = .error .invalidHandle { s with lastError := NativeError.invalidHandle.code } := by
    intro action
    refine (bind_congr_run (withRecord_of_unknown hunknown action)).trans ?_
    exact checkBool_of_failWith (by decide) s
  cases call with
  | commitTransaction t' =>
    obtain rfl : t' = t := Option.some.inj hcall
    exact hrefused _
  | rollbackTransaction t' =>
    obtain rfl : t' = t := Option.some.inj hcall
    exact hrefused _
  | _ => exact absurd hcall (by simp [Call.decides?])

/-- A transaction that is handed out as decided cannot be decided again. -/
theorem perform_of_current {call : Call} {r₀ : TransactionRecord} {s₁ : Store} {e : NativeError}
    (hcall : call.decides? = some t) (hr : s.record? t = some r₀)
    (hcurrent : currentRecord t s = .ok r s₁) (hdecided : decidedError r.state = some e) :
    perform call s = .error e { s₁ with lastError := e.code } := by
  have hrefused : ∀ action,
      (do Signal.checkBool (← withRecord t (unlessDecided action)) readLastError) s
        = .error e { s₁ with lastError := e.code } := by
    intro action
    -- What is handed out is decided, so the action is not run.
    have hfirst : withRecord t (unlessDecided action) s = failWith e s₁ := by
      rw [withRecord_of_current hr hcurrent, unlessDecided, hdecided]
    exact (bind_congr_run hfirst).trans (checkBool_of_failWith (decidedError_code hdecided) s₁)
  cases call with
  | commitTransaction t' =>
    obtain rfl : t' = t := Option.some.inj hcall
    exact hrefused _
  | rollbackTransaction t' =>
    obtain rfl : t' = t := Option.some.inj hcall
    exact hrefused _
  | _ => exact absurd hcall (by simp [Call.decides?])

/-- A transaction that was decided cannot be decided again, and the code tells how it was. -/
theorem perform_of_decided {call : Call} {e : NativeError} (hcall : call.decides? = some t)
    (hr : s.record? t = some r) (hdecided : decidedError r.state = some e) :
    perform call s = .error e { s with lastError := e.code } := by
  have hended : r.state ≠ .active := by
    intro hactive
    exact absurd hdecided (by rw [hactive]; simp [decidedError])
  exact perform_of_current hcall hr (currentRecord_of_ended hr hended) hdecided

/-- An overdue transaction is found to be rolled back. -/
theorem perform_of_due {call : Call} (hcall : call.decides? = some t) (hr : s.record? t = some r)
    (hdue : r.Due s.clock) :
    perform call s = .error .transactionAlreadyAborted
      { s.expired t r with lastError := NativeError.transactionAlreadyAborted.code } :=
  perform_of_current hcall hr (currentRecord_of_due hr hdue) rfl

/-- An active transaction is given up when its changes do not apply. -/
theorem settleActive_of_conflict {e : NativeError}
    (hreplay : Mutation.replay s.clock.read.now s.hives r.log = .error e) :
    settleActive t r s = .ok false
      { s with
        transactions := Table.insert s.transactions t r.discarded
        clock := s.clock.read
        lastError := NativeError.transactionalConflict.code
        journal := s.journal ++ [.debug "commit conflict, transaction rolled back"] } := by
  unfold settleActive
  refine (bind_of_ok rfl).trans ((bind_of_ok rfl).trans ?_)
  simp only [hreplay]
  rfl

/-- A transaction whose changes do not apply is rolled back by its commit. -/
theorem commit_of_conflict {e : NativeError} (hr : s.record? t = some r) (hin : r.InTime s.clock)
    (hreplay : Mutation.replay (s.clock.readings (r.checks + 1)).now s.hives r.log = .error e) :
    perform (.commitTransaction t) s = .error .transactionalConflict (s.gaveUp t r) := by
  -- Being in time, it is still undecided when it is handed out.
  have hundecided : decidedError r.state = none := by rw [hin.1]; rfl
  have hgaveUp : trySettle t s = .ok false (s.gaveUp t r) := by
    unfold trySettle
    rw [withRecord_of_current hr (currentRecord_of_inTime hr hin)]
    simp only [hundecided]
    exact settleActive_of_conflict hreplay
  exact (bind_of_ok hgaveUp).trans rfl

/-- A transaction whose changes apply is committed. -/
theorem commit_of_replay {hives : Hives} (hr : s.record? t = some r) (hin : r.InTime s.clock)
    (hreplay : Mutation.replay (s.clock.readings (r.checks + 1)).now s.hives r.log = .ok hives) :
    perform (.commitTransaction t) s = .ok () (s.settled t r hives) := by
  have hundecided : decidedError r.state = none := by rw [hin.1]; rfl
  -- The clock is read once more before the changes are replayed.
  have hread : Mutation.replay (s.clock.readings r.checks).read.now s.hives r.log = .ok hives :=
    hreplay
  have hsettled : trySettle t s = .ok true (s.settled t r hives) := by
    unfold trySettle
    rw [withRecord_of_current hr (currentRecord_of_inTime hr hin)]
    simp only [hundecided]
    unfold settleActive
    refine (bind_of_ok rfl).trans ((bind_of_ok rfl).trans ?_)
    simp only [hread]
    rfl
  exact (bind_of_ok hsettled).trans rfl

/-- A transaction that is in time is rolled back on request. -/
theorem rollback_of_inTime (hr : s.record? t = some r) (hin : r.InTime s.clock) :
    perform (.rollbackTransaction t) s = .ok () (s.rolledBack t r) := by
  have hundecided : decidedError r.state = none := by rw [hin.1]; rfl
  have hdiscarded : tryDiscard t s = .ok true (s.rolledBack t r) := by
    unfold tryDiscard
    rw [withRecord_of_current hr (currentRecord_of_inTime hr hin)]
    simp only [hundecided]
    rfl
  exact (bind_of_ok hdiscarded).trans rfl

/-! ## Looking through a transaction -/

/-- Nothing can be done in a transaction any more: it is unknown, it was decided, or its deadline
    has come by the next reading of the clock. -/
def Over (t : TransactionHandle) (s : Store) : Prop :=
  ∀ r, s.record? t = some r → r.state ≠ .active ∨ r.Due s.clock

/-- A transaction that is over, and has not been found to be, is overdue. -/
theorem Over.ticking (h : s.Over t) (hseen : ¬ s.Blind (some t)) :
    ∃ deadline, s.Ticking t deadline ∧ deadline ≤ s.clock.read.now := by
  refine Classical.byContradiction (fun hnone => hseen (fun r hr hactive => ?_))
  rcases h r hr with hended | ⟨_, deadline, hdeadline, hdue⟩
  · exact hended hactive
  · exact hnone ⟨deadline, ⟨r, hr, hactive, hdeadline⟩, hdue⟩

/-- Nothing is seen through a transaction that is over. -/
theorem view_over (h : s.Over t) :
    Ends (view (some t)) s (fun _ _ => False) (fun e _ => e = s.viewError (some t)) := by
  by_cases hblind : s.Blind (some t)
  · refine (view_ends (some t) s).mono ?_ (fun _ _ h => h.2.2)
    intro trees s' hstep
    rcases hstep with ⟨hlook, r, hr, hactive, _⟩
    -- Whoever was blind before has not begun to see.
    exact hlook.blind hblind r hr hactive
  · -- The transaction is active still, so it is the next reading that rolls it back.
    rcases h.ticking hblind with ⟨deadline, hticking, hdue⟩
    refine ((view_ends (some t) s).and (view_keeps hticking.kept)).mono ?_ (fun _ _ h => h.1.2.2)
    intro trees s' hstep
    exact absurd (hstep.2.in_time Nat.one_pos) (Nat.not_lt_of_le hdue)

/-- A location below a key is not found through a transaction that is over. -/
theorem target_over (parent : OpenKey) (subKey : String) (h : s.Over t) :
    Ends (target parent subKey (some t)) s (fun _ _ => False)
      (fun e _ => e = s.viewError (some t)) :=
  (view_over h).bind (fun _ _ hnever => hnever.elim) (fun _ _ he => he)

/-- A handle that something is asked of is open. -/
theorem opened_of_any {key : KeyHandle} {p : OpenKey → Bool} (h : (s.opened key).any p = true) :
    ∃ k, s.opened key = some k ∧ p k = true := by
  cases hk : s.opened key with
  | none => exact absurd h (by rw [hk]; simp)
  | some k => exact ⟨k, rfl, by rw [hk] at h; exact h⟩

/-- The rule for finding what an open handle denotes, followed by the rest. -/
theorem ends_lookUp_of {α : Type} {key : KeyHandle} {k : OpenKey} {f : OpenKey → StoreM α}
    {Q : α → Store → Prop} {E : NativeError → Store → Prop} (hk : s.opened key = some k)
    (h : Ends (f k) s Q E) : Ends (lookUp key >>= f) s Q E := by
  unfold Ends
  rw [bind_of_ok (lookUp_of_opened hk)]
  exact h

/-- The rule for the location that a call by path starts with, followed by the rest. -/
theorem ends_target_over {α : Type} {f : Location → StoreM α} (p : OpenKey) (subKey : String)
    (h : s.Over t) :
    Ends (target p subKey (some t) >>= f) s (fun _ _ => False)
      (fun e _ => e = s.viewError (some t)) :=
  (target_over p subKey h).bind (fun _ _ hnever => hnever.elim) (fun _ _ he => he)

/-- Opening a key fails when the transaction is over. -/
theorem openKey_over {parent : KeyHandle} {p : OpenKey} {transaction : Option TransactionHandle}
    (hp : s.opened parent = some p) (hin : transaction.or p.transaction = some t) (h : s.Over t)
    (subKey : String) (access : Access) :
    Ends (openKey parent subKey access transaction) s (fun _ _ => False)
      (fun e _ => e = s.viewError (some t)) := by
  unfold openKey
  refine ends_lookUp_of hp ?_
  simp only [hin]
  exact ends_target_over p subKey h

/-- Creating a key fails when the transaction is over. -/
theorem createKey_over {parent : KeyHandle} {p : OpenKey} {transaction : Option TransactionHandle}
    (hp : s.opened parent = some p) (hin : transaction.or p.transaction = some t) (h : s.Over t)
    (subKey : String) (access : Access) :
    Ends (createKey parent subKey access transaction) s (fun _ _ => False)
      (fun e _ => e = s.viewError (some t)) := by
  unfold createKey
  refine ends_lookUp_of hp ?_
  simp only [hin]
  exact ends_target_over p subKey h

/-- Deleting or renaming a key fails when the transaction is over. -/
theorem changeKey_over {parent : KeyHandle} {p : OpenKey} {transaction : Option TransactionHandle}
    (hp : s.opened parent = some p) (hin : transaction.or p.transaction = some t) (h : s.Over t)
    (subKey : String) (mutation : Location → Mutation) :
    Ends (changeKey parent subKey transaction mutation) s (fun _ _ => False)
      (fun e _ => e = s.viewError (some t)) := by
  unfold changeKey
  refine ends_lookUp_of hp ?_
  simp only [hin]
  exact ends_target_over p subKey h

/-- Reading from a key fails when the transaction is over. -/
theorem withNode_over {α : Type} {key : KeyHandle} {access : Access}
    {transaction : Option TransactionHandle} (hgrants : s.grants key access = true)
    (hin : ∀ k, s.opened key = some k → transaction.or k.transaction = some t) (h : s.Over t)
    (read : Node → Except NativeError α) :
    Ends (withNode key access transaction read) s (fun _ _ => False)
      (fun e _ => e = s.viewError (some t)) := by
  rcases opened_of_any hgrants with ⟨k, hk, haccess⟩
  refine ends_lookUp_of hk ?_
  refine ends_require (fun _ => ?_) (fun hrefused => absurd haccess (by rw [hrefused]; simp))
  rw [hin k hk]
  exact (view_over h).bind (fun _ _ hnever => hnever.elim) (fun _ _ he => he)

/-- A change fails when the transaction is over. -/
theorem mutate_over (m : Mutation) (h : s.Over t) :
    Ends (mutate (some t) m) s (fun _ _ => False) (fun e _ => e = s.viewError (some t)) :=
  (view_over h).bind (fun _ _ hnever => hnever.elim) (fun _ _ he => he)

/-- Changing a value fails when the transaction is over. -/
theorem changeValue_over {key : KeyHandle} {transaction : Option TransactionHandle}
    (hwritable : s.writable key = true)
    (hin : ∀ k, s.opened key = some k → transaction.or k.transaction = some t) (h : s.Over t)
    (mutation : Location → Mutation) :
    Ends (changeValue key transaction mutation) s (fun _ _ => False)
      (fun e _ => e = s.viewError (some t)) := by
  rcases opened_of_any hwritable with ⟨k, hk, hallowed⟩
  simp only [Bool.and_eq_true, Bool.not_eq_true'] at hallowed
  refine ends_lookUp_of hk ?_
  refine ends_require (fun _ => ?_) (fun hrefused => absurd hallowed.1 (by rw [hrefused]; simp))
  refine ends_requireUnprotected (fun _ => ?_)
    (fun hprotected => absurd hallowed.2 (by rw [hprotected]; simp))
  rw [hin k hk]
  exact mutate_over _ h

/-- A call on a key that looks through a transaction that is over fails, and tells whether the
    transaction is unknown. -/
theorem perform_over {call : Call} (hlooks : s.looks call = true)
    (hin : s.transactionOf call = some t) (h : s.Over t) :
    Ends (perform call) s (fun _ _ => False) (fun e _ => e = s.viewError (some t)) := by
  -- The transaction is the one that the call names, or that its key is bound to.
  have hhandle : ∀ key k, call.key? = some key → s.opened key = some k →
      call.transaction?.or k.transaction = some t := by
    intro key k hcall hk
    rw [transactionOf, hcall, Option.bind_some, hk] at hin
    exact hin
  have hparent : ∀ key, call.key? = some key → (s.opened key).isSome = true →
      ∃ p, s.opened key = some p ∧ call.transaction?.or p.transaction = some t := by
    intro key hcall hopened
    rcases Option.isSome_iff_exists.mp hopened with ⟨p, hp⟩
    exact ⟨p, hp, hhandle key p hcall hp⟩
  cases call with
  | openKey parent subKey access transaction =>
    rcases hparent parent rfl hlooks with ⟨p, hp, hin'⟩
    unfold perform
    refine ends_bind (ends_modify ?_)
    exact openKey_over (s := s.note _) hp hin' h subKey access
  | createKey parent subKey access transaction =>
    rcases hparent parent rfl hlooks with ⟨p, hp, hin'⟩
    unfold perform
    refine ends_bind (ends_modify ?_)
    exact createKey_over (s := s.note _) hp hin' h subKey access
  | deleteKey parent subKey transaction =>
    rcases hparent parent rfl hlooks with ⟨p, hp, hin'⟩
    unfold perform deleteKey
    exact changeKey_over hp hin' h subKey _
  | renameKey parent subKey newName transaction =>
    rcases hparent parent rfl hlooks with ⟨p, hp, hin'⟩
    unfold perform renameKey
    exact changeKey_over hp hin' h subKey _
  | queryInfo key =>
    unfold perform queryInfo
    exact withNode_over hlooks (fun k hk => hhandle key k rfl hk) h _
  | enumKey key index =>
    unfold perform enumKey
    exact withNode_over hlooks (fun k hk => hhandle key k rfl hk) h _
  | enumValue key index =>
    unfold perform enumValue
    exact withNode_over hlooks (fun k hk => hhandle key k rfl hk) h _
  | getValue key name transaction =>
    unfold perform getValue
    exact withNode_over hlooks (fun k hk => hhandle key k rfl hk) h _
  | setValue key name data transaction =>
    unfold perform setValue
    exact changeValue_over hlooks (fun k hk => hhandle key k rfl hk) h _
  | deleteValue key name transaction =>
    unfold perform deleteValue
    exact changeValue_over hlooks (fun k hk => hhandle key k rfl hk) h _
  -- The other calls do not look at the trees.
  | _ => exact absurd hlooks (by simp [looks])

end

end Store

end TransactionalRegistry
