import TransactionalRegistry.Proofs.Timelines
import TransactionalRegistry.Proofs.Verdicts

/-!
# Turns in the life of a transaction

A transaction is opened, active; it is decided at most once, by a commit, by being rolled back, by a
commit that does not apply, or by the clock; and it is known until it is closed. `Turn` lists what
an action can make of a transaction, with the reason for it, and `Store.turns` says that there is
nothing else.

A turn by the clock comes with the reading that has brought it about: the first one of the call that
is not before the deadline, and the last one that the call takes.

## Main definitions

* `TransactionRecord.Stays`: A transaction may have done more, and all else about it is the same.
* `Store.issued`: The handle under which an action opens a transaction.
* `Turn`: What an action makes of a transaction.

## Theorems

* `Store.perform_stays`: A call on a key leaves a transaction as it is, or finds it overdue.
* `Store.turns`: An action makes a turn.
-/

namespace TransactionalRegistry

open Store

namespace TransactionRecord

/-- Two records of a transaction that may have done more in between, and only if it is active. -/
structure Stays (r r' : TransactionRecord) : Prop where
  description : r'.description = r.description
  deadline : r'.deadline = r.deadline
  state : r'.state = r.state
  ended : r.state ≠ .active → r' = r

variable {r r' r'' : TransactionRecord}

theorem Stays.refl (r : TransactionRecord) : r.Stays r :=
  ⟨rfl, rfl, rfl, fun _ => rfl⟩

theorem Stays.trans (h : r.Stays r') (h' : r'.Stays r'') : r.Stays r'' where
  description := h'.description.trans h.description
  deadline := h'.deadline.trans h.deadline
  state := h'.state.trans h.state
  ended hended := by
    rw [h'.ended (by rw [h.state]; exact hended), h.ended hended]

theorem Stays.of_active (hactive : r.state = .active) (workspace : Option Hives)
    (log : List Mutation) : r.Stays { r with workspace := workspace, log := log } :=
  ⟨rfl, rfl, rfl, fun hended => absurd hactive hended⟩

end TransactionRecord

/-! ## Turns -/

/-- The handle under which an action opens a transaction. -/
def Store.issued (s : Store) : Action → Option TransactionHandle
  | .call (.createTransaction timeoutMillis description) =>
    (outcome (createTransaction timeoutMillis description) s).toOption
  | _ => none

/-- What an action makes of a transaction: from what was kept about it before to what is kept about
    it afterwards. -/
inductive Turn (t : TransactionHandle) (s : Store) (action : Action) :
    Option TransactionRecord → Option TransactionRecord → Prop
  /-- Nobody knows the transaction, before or after. -/
  | unknown : Turn t s action none none
  /-- A new transaction is opened, in the place of any that the handle denoted. -/
  | opens {before : Option TransactionRecord} (timeoutMillis : UInt32)
      (description : Option String) :
      action = .call (.createTransaction timeoutMillis description) → s.issued action = some t →
      Turn t s action before
        (some (.fresh timeoutMillis description (s.after action).clock.now))
  /-- The state and the deadline of the transaction stay as they are. -/
  | stays {r r' : TransactionRecord} : r.Stays r' → Turn t s action (some r) (some r')
  /-- A commit succeeds. -/
  | commits {r : TransactionRecord} : action = .call (.commitTransaction t) →
      outcome (commitTransaction t) s = .ok () → r.state = .active →
      Turn t s action (some r) (some r.settled)
  /-- The transaction is rolled back on request. -/
  | rollsBack {r : TransactionRecord} : action = .call (.rollbackTransaction t) →
      outcome (rollbackTransaction t) s = .ok () → r.state = .active →
      Turn t s action (some r) (some r.discarded)
  /-- A commit finds that the changes do not apply. -/
  | conflicts {r : TransactionRecord} : action = .call (.commitTransaction t) →
      outcome (commitTransaction t) s = .error .transactionalConflict → r.state = .active →
      Turn t s action (some r) (some r.discarded)
  /-- The first reading of the clock that is not before the deadline rolls the transaction back; no
      other reading follows. -/
  | expires {r : TransactionRecord} (deadline : Time) (checks : Nat) : r.state = .active →
      r.deadline = some deadline →
      (0 < checks → (s.clock.readings checks).now < deadline) →
      deadline ≤ (s.clock.readings (checks + 1)).now →
      (s.after action).clock = s.clock.readings (checks + 1) →
      Turn t s action (some r) (some r.discarded)
  /-- The transaction is closed. -/
  | closes {r : TransactionRecord} : action = .call (.closeTransaction t) →
      outcome (closeTransaction t) s = .ok () → Turn t s action (some r) none

section

variable {t : TransactionHandle} {s s' : Store} {action : Action} {r : TransactionRecord}

theorem Turn.of_same (hsame : (s.after action).record? t = s.record? t) :
    Turn t s action (s.record? t) ((s.after action).record? t) := by
  rw [hsame]
  cases s.record? t with
  | none => exact .unknown
  | some r => exact .stays (.refl r)

namespace Store

/-! ## Calls on keys -/

/-- A look leaves a transaction as it is, or finds that it is overdue. -/
theorem Looked.stays {transaction : Option TransactionHandle} (h : Looked transaction s s')
    (hr : s.record? t = some r) : ∃ r', s'.record? t = some r' ∧
      (r.Stays r' ∨ r.state = .active ∧ r.deadline.isSome ∧ r' = r.discarded) := by
  rcases h.known t r hr with ⟨r', hr', hlooked⟩
  refine ⟨r', hr', ?_⟩
  cases hlooked with
  | same => exact Or.inl (.refl r)
  | expired deadline hactive hdeadline _ =>
    exact Or.inr ⟨hactive, by rw [hdeadline]; rfl, rfl⟩
  | copied hactive _ => exact Or.inl (.of_active hactive _ _)

/-- A change to the trees is kept with its transaction. -/
theorem Changed.stays {transaction : Option TransactionHandle} {m : Mutation}
    (h : Changed transaction m s s') (hr : s.record? t = some r) :
    ∃ r', s'.record? t = some r' ∧ r.Stays r' := by
  rcases h with ⟨trees, changed, hsees, _, rfl⟩
  cases transaction with
  | none => exact ⟨r, hr, .refl r⟩
  | some t' =>
    rcases hsees with ⟨r₁, hr₁, hactive, _⟩
    rw [installed_some hr₁]
    -- Only the record of the transaction that was changed is replaced.
    by_cases ht : t' = t
    · subst ht
      obtain rfl : r = r₁ := Option.some.inj (hr.symm.trans hr₁)
      exact ⟨_, (record?_insert s t' t' _).trans (if_pos rfl), .of_active hactive _ _⟩
    · exact ⟨r, by rw [record?_insert, if_neg ht]; exact hr, .refl r⟩

/-- After a call on a key, a transaction is as it was or has been found to be overdue. -/
theorem perform_stays (call : Call) (hkey : call.key?.isSome) (hr : s.record? t = some r) :
    ∃ r', (endState (perform call) s).record? t = some r' ∧
      (r.Stays r' ∨ r.state = .active ∧ r.deadline.isSome ∧ r' = r.discarded) := by
  refine Ends.endState (P := fun s' : Store => ∃ r', s'.record? t = some r' ∧
    (r.Stays r' ∨ r.state = .active ∧ r.deadline.isSome ∧ r' = r.discarded)) ?_
  refine (perform_ends call hkey s).mono ?_ (fun _ _ h => h.1.stays hr)
  intro answer s' hstep
  rcases hstep with ⟨s₁, s₂, hobs, hchange, hsame⟩
  rcases hobs.1.stays hr with ⟨r₁, hr₁, hlooked⟩
  -- Issuing a handle at the end of a call leaves the transactions alone.
  have hend : s'.record? t = s₂.record? t := by rw [record?, record?, hsame.transactions]
  rw [hend]
  rcases hchange with ⟨_, rfl⟩ | ⟨m, _, hchanged⟩
  · exact ⟨r₁, hr₁, hlooked⟩
  · rcases hchanged.stays hr₁ with ⟨r₂, hr₂, hstays⟩
    rcases hlooked with hstays₁ | ⟨hactive, hdeadline, rfl⟩
    · exact ⟨r₂, hr₂, Or.inl (hstays₁.trans hstays)⟩
    · -- What has been rolled back by a look cannot be changed any more.
      have hended : r.discarded.state ≠ .active := by simp [TransactionRecord.discarded]
      exact ⟨r₂, hr₂, Or.inr ⟨hactive, hdeadline, hstays.ended hended⟩⟩

/-- A call on a key makes a transaction no further than overdue, and if it does, it has read the
    clock to find that out. -/
theorem turn_on_key (call : Call) (hkey : call.key?.isSome) :
    Turn t s (.call call) (s.record? t) ((s.after (.call call)).record? t) := by
  cases hr : s.record? t with
  | none =>
    have hnone : (s.after (.call call)).record? t = none := perform_unknown call hkey hr
    rw [hnone]
    exact .unknown
  | some r =>
    rcases perform_stays call hkey hr with ⟨r', hr', hstays | ⟨hactive, hsome, rfl⟩⟩
    · have hr'' : (s.after (.call call)).record? t = some r' := hr'
      rw [hr'']
      exact .stays hstays
    · -- It was rolled back by the call, so it was not active any more when that was done.
      have hended : (endState (perform call) s).Blind (some t) := by
        intro r₁ hr₁
        rw [Option.some.inj (hr₁.symm.trans hr')]
        simp [TransactionRecord.discarded]
      have hr'' : (s.after (.call call)).record? t = some r.discarded := hr'
      rw [hr'']
      rcases Option.isSome_iff_exists.mp hsome with ⟨deadline, hdeadline⟩
      have hticking : s.Ticking t deadline := ⟨r, hr, hactive, hdeadline⟩
      -- It was this transaction that the call has looked through.
      have hthrough : s.lookedThrough call = some t := by
        refine Classical.byContradiction (fun hother => ?_)
        have hconfined : Confined (s.lookedThrough call) s (endState (perform call) s) :=
          confined_of_looks call hkey (fun hlooks => by rw [lookedThrough, if_pos hlooks])
        exact (hticking.of_record (hconfined.records t hother)).not_blind hended
      have hlooks : s.looks call = true := by
        refine Classical.byContradiction (fun hfalse => ?_)
        rw [lookedThrough, if_neg hfalse] at hthrough
        exact absurd hthrough (by simp)
      rw [lookedThrough, if_pos hlooks] at hthrough
      have hopen : ∀ key, call ≠ .closeKey key := by
        intro key hcall
        rw [hcall] at hlooks
        exact absurd hlooks (by simp [looks])
      have hends : (endState (perform call) s).Unserved t deadline s.clock :=
        Ends.endState ((perform_keeps hkey hopen hthrough hticking).mono
          (fun _ _ h => h.unserved) (fun _ _ h => h))
      -- A call that kept it ticking cannot have rolled it back, so its deadline has struck.
      rcases hends with ⟨checks, stamps, _, hkept⟩ | ⟨checks, hstruck⟩
      · exact absurd hended hkept.ticking.not_blind
      · have hdue := hstruck.due
        rw [hstruck.clock] at hdue
        exact .expires deadline checks hactive hdeadline hstruck.in_time hdue hstruck.clock

/-! ## Calls on transactions -/

/-- Putting a record in the place of another. -/
theorem turn_of_insert {t' : TransactionHandle} (r' : TransactionRecord)
    (htransactions : (s.after action).transactions = Table.insert s.transactions t' r')
    (hturn : ∀ r, t' = t → s.record? t = some r → Turn t s action (some r) (some r'))
    (hr : ∃ r, s.record? t' = some r) :
    Turn t s action (s.record? t) ((s.after action).record? t) := by
  -- A turn of the transaction that the record belongs to; for any other one nothing happens.
  have hfind : (s.after action).record? t = if t' = t then some r' else s.record? t := by
    rw [record?, htransactions, Table.find?_insert]
    rfl
  by_cases ht : t' = t
  · rcases hr with ⟨r, hr⟩
    rw [ht] at hr
    rw [hfind, if_pos ht, hr]
    exact hturn r ht hr
  · exact .of_same (by rw [hfind, if_neg ht])

/-- An action that hands a transaction out and does nothing else with it. -/
theorem turn_of_current {t' : TransactionHandle} {r₀ r₁ : TransactionRecord} {s₁ : Store}
    (hr : s.record? t' = some r₀) (hcurrent : currentRecord t' s = .ok r₁ s₁)
    (htransactions : (s.after action).transactions = s₁.transactions)
    (hclock : (s.after action).clock = s₁.clock) :
    Turn t s action (s.record? t) ((s.after action).record? t) := by
  have hsame : s₁.transactions = s.transactions →
      Turn t s action (s.record? t) ((s.after action).record? t) := by
    intro hs₁
    exact .of_same (by rw [record?, record?, htransactions, hs₁])
  by_cases hactive : r₀.state = .active
  · rcases TransactionRecord.inTime_or_due hactive s.clock with hin | hdue
    · rw [currentRecord_of_inTime hr hin] at hcurrent
      cases hcurrent
      exact hsame rfl
    · rw [currentRecord_of_due hr hdue] at hcurrent
      cases hcurrent
      rcases hdue with ⟨_, deadline, hdeadline, hle⟩
      refine turn_of_insert _ htransactions (fun r ht hr' => ?_) ⟨r₀, hr⟩
      subst ht
      obtain rfl : r = r₀ := Option.some.inj (hr'.symm.trans hr)
      have hfirst : ¬ 0 < 0 := Nat.lt_irrefl 0
      exact .expires deadline 0 hactive hdeadline (fun h => absurd h hfirst) hle hclock
  · -- A transaction that is decided is handed out without a look at the clock.
    rw [currentRecord_of_ended hr hactive] at hcurrent
    cases hcurrent
    exact hsame rfl

theorem turn_on_ask (t' : TransactionHandle) :
    Turn t s (.ask t') (s.record? t) ((s.after (.ask t')).record? t) := by
  cases hr : s.record? t' with
  | none =>
    refine .of_same ?_
    rw [after, endState_of_ok (transactionState?_of_unknown hr)]
  | some r =>
    rcases currentRecord_of_known hr with ⟨r₁, s₁, hcurrent, _⟩
    have hafter : s.after (.ask t') = s₁ :=
      endState_of_ok (transactionState?_of_current hr hcurrent)
    exact turn_of_current hr hcurrent (by rw [hafter]) (by rw [hafter])

theorem turn_on_outcome (t' : TransactionHandle) :
    Turn t s (.call (.transactionOutcome t')) (s.record? t)
      ((s.after (.call (.transactionOutcome t'))).record? t) := by
  cases hr : s.record? t' with
  | none =>
    refine .of_same ?_
    rw [after, perform, endState_of_error (transactionOutcome_of_unknown hr)]
    rfl
  | some r =>
    rcases currentRecord_of_known hr with ⟨r₁, s₁, hcurrent, _⟩
    have hafter : s.after (.call (.transactionOutcome t')) = s₁ :=
      endState_of_ok (transactionOutcome_of_current hr hcurrent)
    exact turn_of_current hr hcurrent (by rw [hafter]) (by rw [hafter])

/-- Deciding a transaction, given what comes of it for one that is in time. -/
theorem turn_on_decide {call : Call} {t' : TransactionHandle} (hcall : call.decides? = some t')
    (hin_time : ∀ r, s.record? t' = some r → r.InTime s.clock →
      Turn t s (.call call) (s.record? t) ((s.after (.call call)).record? t)) :
    Turn t s (.call call) (s.record? t) ((s.after (.call call)).record? t) := by
  cases hr : s.record? t' with
  | none =>
    refine .of_same ?_
    rw [after, endState_of_error (perform_of_unknown hcall hr)]
    rfl
  | some r =>
    rcases currentRecord_of_known hr with ⟨r₁, s₁, hcurrent, ⟨hin, _⟩ | ⟨e, hdecided⟩⟩
    · exact hin_time r hr hin
    · have hafter : s.after (.call call) = { s₁ with lastError := e.code } :=
        endState_of_error (perform_of_current hcall hr hcurrent hdecided)
      exact turn_of_current hr hcurrent (by rw [hafter]) (by rw [hafter])

theorem turn_on_commit (t' : TransactionHandle) :
    Turn t s (.call (.commitTransaction t')) (s.record? t)
      ((s.after (.call (.commitTransaction t'))).record? t) := by
  refine turn_on_decide rfl (fun r₀ hr hin => ?_)
  cases hreplay : Mutation.replay (s.clock.readings (r₀.checks + 1)).now s.hives r₀.log with
  | ok hives =>
    have hcommit : commitTransaction t' s = .ok () (s.settled t' r₀ hives) :=
      commit_of_replay hr hin hreplay
    have hafter : s.after (.call (.commitTransaction t')) = s.settled t' r₀ hives :=
      endState_of_ok hcommit
    refine turn_of_insert r₀.settled (by rw [hafter]; rfl) (fun r ht hr' => ?_) ⟨r₀, hr⟩
    subst ht
    obtain rfl : r = r₀ := Option.some.inj (hr'.symm.trans hr)
    exact .commits rfl (by rw [outcome, hcommit]) hin.1
  | error e =>
    have hcommit : commitTransaction t' s = .error .transactionalConflict (s.gaveUp t' r₀) :=
      commit_of_conflict hr hin hreplay
    have hafter : s.after (.call (.commitTransaction t')) = s.gaveUp t' r₀ :=
      endState_of_error hcommit
    refine turn_of_insert r₀.discarded (by rw [hafter]; rfl) (fun r ht hr' => ?_)
      ⟨r₀, hr⟩
    subst ht
    obtain rfl : r = r₀ := Option.some.inj (hr'.symm.trans hr)
    exact .conflicts rfl (by rw [outcome, hcommit]) hin.1

theorem turn_on_rollback (t' : TransactionHandle) :
    Turn t s (.call (.rollbackTransaction t')) (s.record? t)
      ((s.after (.call (.rollbackTransaction t'))).record? t) := by
  refine turn_on_decide rfl (fun r₀ hr hin => ?_)
  have hrollback : rollbackTransaction t' s = .ok () (s.rolledBack t' r₀) :=
    rollback_of_inTime hr hin
  have hafter : s.after (.call (.rollbackTransaction t')) = s.rolledBack t' r₀ :=
    endState_of_ok hrollback
  refine turn_of_insert r₀.discarded (by rw [hafter]; rfl) (fun r ht hr' => ?_) ⟨r₀, hr⟩
  subst ht
  obtain rfl : r = r₀ := Option.some.inj (hr'.symm.trans hr)
  exact .rollsBack rfl (by rw [outcome, hrollback]) hin.1

theorem turn_on_close (t' : TransactionHandle) :
    Turn t s (.call (.closeTransaction t')) (s.record? t)
      ((s.after (.call (.closeTransaction t'))).record? t) := by
  have hends := closeTransaction_ends t' s
  cases hclose : closeTransaction t' s with
  | error e s' =>
    have hafter : s.after (.call (.closeTransaction t')) = s' := endState_of_error hclose
    exact .of_same (by rw [hafter, record?, (hends.error hclose).2.2.1]; rfl)
  | ok _ s' =>
    have hafter : s.after (.call (.closeTransaction t')) = s' := endState_of_ok hclose
    rcases hends.ok hclose with ⟨⟨r, hr⟩, _, _, _, _, _, htransactions⟩
    have hfind : s'.record? t = if t' = t then none else s.record? t := by
      rw [record?, htransactions, Table.find?_erase]
      rfl
    by_cases ht : t' = t
    · subst ht
      rw [hafter, hfind, if_pos rfl, hr]
      exact .closes rfl (by rw [outcome, hclose])
    · exact .of_same (by rw [hafter, hfind, if_neg ht])

theorem turn_on_create (haligned : s.Aligned) (timeoutMillis : UInt32)
    (description : Option String) :
    Turn t s (.call (.createTransaction timeoutMillis description)) (s.record? t)
      ((s.after (.call (.createTransaction timeoutMillis description))).record? t) := by
  have hends := createTransaction_ends timeoutMillis description s
  cases hcreate : createTransaction timeoutMillis description s with
  | error e s' =>
    have hafter : s.after (.call (.createTransaction timeoutMillis description)) = s' :=
      endState_of_error hcreate
    rcases hends.error hcreate with ⟨_, _, hsame, _⟩ | hinvalid
    · exact .of_same (by rw [hafter, record?, hsame]; rfl)
    · -- The next handle is never the invalid one, as it stands at a multiple of their distance.
      exact absurd hinvalid (by rw [haligned.not_invalid]; simp)
  | ok t' s' =>
    have hafter : s.after (.call (.createTransaction timeoutMillis description)) = s' :=
      endState_of_ok hcreate
    have hrecord := (hends.ok hcreate).2.2.record t
    by_cases ht : t' = t
    · subst ht
      rw [if_pos rfl] at hrecord
      rw [hafter, hrecord, ← hafter]
      refine .opens timeoutMillis description rfl ?_
      simp only [issued, outcome, hcreate, Except.toOption]
    · rw [if_neg ht] at hrecord
      exact .of_same (by rw [hafter, hrecord])

/-- What an action makes of a transaction is a turn. -/
theorem turns (haligned : s.Aligned) (t : TransactionHandle) (action : Action) :
    Turn t s action (s.record? t) ((s.after action).record? t) := by
  cases action with
  | ask t' => exact turn_on_ask t'
  | protect l => exact .of_same rfl
  | pass time => exact .of_same rfl
  | note entry => exact .of_same rfl
  | call call =>
    cases call with
    | createTransaction timeoutMillis description =>
      exact turn_on_create haligned timeoutMillis description
    | transactionOutcome t' => exact turn_on_outcome t'
    | commitTransaction t' => exact turn_on_commit t'
    | rollbackTransaction t' => exact turn_on_rollback t'
    | closeTransaction t' => exact turn_on_close t'
    -- All that is left are calls on keys.
    | _ => exact turn_on_key _ rfl

end Store

end

end TransactionalRegistry
