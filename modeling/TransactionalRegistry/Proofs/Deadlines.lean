import TransactionalRegistry.Proofs.Deciding

/-!
# Deadlines

No timer rolls an overdue transaction back. Its deadline is looked at when a call asks for it, and a
call on a key asks up to three times, with time passing before each reading of the clock and once
more before a change is stamped. So that a transaction is dead from its deadline on is a statement
about every one of those readings.

The readings are counted from the clock that a call starts with. A transaction is `Kept` while each
reading that was compared with its deadline was before it, and `Struck` by the first one that was
not; the rules below say that each step of a call leads from the one to the one or the other. The
reading that stamps a change is counted apart, since nobody compares it with anything.

## Main definitions

* `Clock.readings`: The clock after some readings.
* `Store.Ticking`: A transaction is active and has a deadline.
* `Store.Kept`: A transaction has been active at some readings.
* `Store.Struck`: A transaction was rolled back by the first reading that was not before its
  deadline.
* `Store.Served`, `Store.Unserved`: How a call on a key leaves the transaction that it runs in.

## Theorems

* `Store.currentRecord_keeps`, `Store.view_keeps`, `Store.mutate_keeps`: The steps of a call.
* `Store.perform_keeps`: The calls on keys.
-/

namespace TransactionalRegistry

/-- The clock after some readings. -/
def Clock.readings (clock : Clock) : Nat → Clock
  | 0 => clock
  | n + 1 => (clock.readings n).read

namespace Store

/-- A transaction is active and has a deadline. -/
def Ticking (t : TransactionHandle) (deadline : Time) (s : Store) : Prop :=
  ∃ r, s.record? t = some r ∧ r.state = .active ∧ r.deadline = some deadline

/-- A transaction ticks after `checks` readings from the clock `start` on, each of them before its
    deadline, and `stamps` more. -/
structure Kept (t : TransactionHandle) (deadline : Time) (start : Clock) (checks stamps : Nat)
    (s : Store) : Prop where
  ticking : s.Ticking t deadline
  clock : s.clock = start.readings (checks + stamps)
  in_time : 0 < checks → (start.readings checks).now < deadline

/-- A transaction was rolled back by the last reading. That one was not before its deadline, and the
    ones before it were. -/
structure Struck (t : TransactionHandle) (deadline : Time) (start : Clock) (checks : Nat)
    (s : Store) : Prop where
  ended : s.Blind (some t)
  clock : s.clock = start.readings (checks + 1)
  in_time : 0 < checks → (start.readings checks).now < deadline
  due : deadline ≤ s.clock.now

/-- How a call that succeeds leaves its transaction: each of its looks was before the deadline, and
    at most one more reading has stamped a change. -/
def Served (t : TransactionHandle) (deadline : Time) (start : Clock) (s : Store) : Prop :=
  ∃ checks stamps, 0 < checks ∧ stamps ≤ 1 ∧ s.Kept t deadline start checks stamps

/-- How a call that fails leaves its transaction: as one that succeeds, but perhaps before the first
    look; or struck. -/
def Unserved (t : TransactionHandle) (deadline : Time) (start : Clock) (s : Store) : Prop :=
  (∃ checks stamps, stamps ≤ 1 ∧ s.Kept t deadline start checks stamps) ∨
    ∃ checks, s.Struck t deadline start checks

section

variable {t : TransactionHandle} {deadline : Time} {start : Clock} {n k : Nat} {s s' : Store}

theorem Ticking.kept (h : s.Ticking t deadline) : s.Kept t deadline s.clock 0 0 :=
  ⟨h, rfl, fun hlt => absurd hlt (Nat.lt_irrefl 0)⟩

theorem Ticking.of_record (h : s.Ticking t deadline) (hsame : s'.record? t = s.record? t) :
    s'.Ticking t deadline := by
  rcases h with ⟨r, hr, hrest⟩
  exact ⟨r, hsame.trans hr, hrest⟩

/-- Nobody has found a ticking transaction to be over. -/
theorem Ticking.not_blind (h : s.Ticking t deadline) : ¬ s.Blind (some t) := by
  rcases h with ⟨r, hr, hactive, _⟩
  exact fun hblind => hblind r hr hactive

/-- Replacing what is kept about a transaction by something active with the same deadline. -/
theorem ticking_insert {r : TransactionRecord} (hactive : r.state = .active)
    (hdeadline : r.deadline = some deadline) :
    Ticking t deadline { s with transactions := Table.insert s.transactions t r } :=
  ⟨r, (record?_insert s t t r).trans (if_pos rfl), hactive, hdeadline⟩

/-- What touches neither the clock nor the transaction makes no difference. -/
theorem Kept.of_record (h : s.Kept t deadline start n k) (hsame : s'.record? t = s.record? t)
    (hclock : s'.clock = s.clock) : s'.Kept t deadline start n k :=
  ⟨h.ticking.of_record hsame, hclock.trans h.clock, h.in_time⟩

theorem Kept.unserved (h : s.Kept t deadline start n 0) : s.Unserved t deadline start :=
  Or.inl ⟨n, 0, Nat.zero_le 1, h⟩

theorem Struck.unserved (h : s.Struck t deadline start n) : s.Unserved t deadline start :=
  Or.inr ⟨n, h⟩

theorem Kept.served (h : s.Kept t deadline start (n + 1) 0) : s.Served t deadline start :=
  ⟨n + 1, 0, Nat.succ_pos n, Nat.zero_le 1, h⟩

theorem Served.unserved (h : s.Served t deadline start) : s.Unserved t deadline start := by
  rcases h with ⟨checks, stamps, _, hstamps, hkept⟩
  exact Or.inl ⟨checks, stamps, hstamps, hkept⟩

theorem Served.withKey (h : s.Served t deadline start) (openKey : OpenKey) :
    (s.withKey openKey).Served t deadline start := by
  rcases h with ⟨checks, stamps, hpos, hstamps, hkept⟩
  exact ⟨checks, stamps, hpos, hstamps, hkept.of_record rfl rfl⟩

/-! ## The steps of a call -/

/-- The next reading is before the deadline of a transaction, or it rolls the transaction back. -/
theorem currentRecord_keeps (h : s.Kept t deadline start n 0) :
    Ends (currentRecord t) s
      (fun r s' => s'.record? t = some r ∧
        (r.state = .active ∧ s'.Kept t deadline start (n + 1) 0 ∨
          r.state = .rolledBack ∧ s'.Struck t deadline start n))
      (fun _ _ => False) := by
  rcases h with ⟨⟨r, hr, hactive, hdeadline⟩, hclock, hin⟩
  have hpending : r.pendingDeadline = some deadline := by
    rw [TransactionRecord.pendingDeadline, if_pos hactive, hdeadline]
  have hfound : Table.find? s.transactions t = some r := hr
  have hread : s.clock.read = start.readings (n + 1) := congrArg Clock.read hclock
  unfold currentRecord
  refine ends_bind (ends_get ?_)
  simp only [hfound, hpending]
  refine (readClock_ends (some t) s).bind ?_ (fun _ _ h => h.elim)
  intro now s₁ hstep
  rcases hstep with ⟨_, htransactions, hclock₁, rfl⟩
  have hr₁ : s₁.record? t = some r := by rw [record?, htransactions]; exact hr
  have hnow : s₁.clock = start.readings (n + 1) := hclock₁.trans hread
  by_cases hlt : s₁.clock.now < deadline
  · rw [if_pos hlt]
    refine ends_pure ⟨hr₁, Or.inl ⟨hactive, ⟨r, hr₁, hactive, hdeadline⟩, hnow, fun _ => ?_⟩⟩
    exact hnow ▸ hlt
  · rw [if_neg hlt]
    let s₂ := s₁.note (.debug "transaction timed out")
    have hdiscarded : record? { s₂ with
        transactions := Table.insert s₂.transactions t r.discarded } t = some r.discarded :=
      (record?_insert s₂ t t r.discarded).trans (if_pos rfl)
    refine ⟨hdiscarded, Or.inr ⟨rfl, ?_, hnow, hin, Nat.le_of_not_lt hlt⟩⟩
    intro r' hr'
    rw [Option.some.inj (hr'.symm.trans hdiscarded)]
    simp [TransactionRecord.discarded]

theorem view_keeps (h : s.Kept t deadline start n 0) :
    Ends (view (some t)) s (fun _ s' => s'.Kept t deadline start (n + 1) 0)
      (fun _ s' => s'.Struck t deadline start n) := by
  unfold view
  refine (currentRecord_keeps h).bind ?_ (fun _ _ h => h.elim)
  intro r s₁ hstep
  rcases hstep with ⟨hr, ⟨hactive, hkept⟩ | ⟨hended, hstruck⟩⟩
  · rw [if_neg (not_not_intro hactive)]
    cases hworkspace : r.workspace with
    | some trees => exact ends_pure hkept
    | none =>
      -- Taking the private copy touches neither the state nor the deadline.
      rcases hkept with ⟨⟨r', hr', _, hdeadline⟩, hclock, hin⟩
      rw [hr, Option.some.injEq] at hr'
      subst hr'
      exact ends_bind (ends_get ⟨ticking_insert hactive hdeadline, hclock, hin⟩)
  · rw [if_pos (by rw [hended]; simp)]
    exact ends_throw hstruck

/-- A change is stamped after the deadline was looked at. -/
theorem mutate_keeps (m : Mutation) (h : s.Kept t deadline start n 0) :
    Ends (mutate (some t) m) s (fun _ s' => s'.Served t deadline start)
      (fun _ s' => s'.Unserved t deadline start) := by
  unfold mutate
  refine (view_keeps h).bind ?_ (fun _ _ h => h.unserved)
  intro trees s₁ hkept
  refine (readClock_ends (some t) s₁).bind ?_ (fun _ _ h => h.elim)
  intro now s₂ hstep
  rcases hstep with ⟨_, htransactions, hclock, rfl⟩
  have hstamped : s₂.Kept t deadline start (n + 1) 1 := by
    refine ⟨hkept.ticking.of_record (by rw [record?, htransactions]; rfl), ?_, hkept.in_time⟩
    rw [hclock, hkept.clock]
    rfl
  cases m.apply s₂.clock.now trees with
  | error e => exact ends_throw (Or.inl ⟨n + 1, 1, Nat.le_refl 1, hstamped⟩)
  | ok changed =>
    refine (install_ends (some t) changed m s₂).mono ?_ (fun _ _ h => h.elim)
    intro _ s' hsame
    subst hsame
    rcases hstamped with ⟨⟨r, hr, hactive, hdeadline⟩, hclock₂, hin⟩
    rw [installed_some hr]
    have hticking := ticking_insert (s := s₂) (t := t)
      (r := { r with workspace := some changed, log := r.log ++ [m] }) hactive hdeadline
    exact ⟨n + 1, 1, Nat.succ_pos n, Nat.le_refl 1, hticking, hclock₂, hin⟩

theorem target_keeps (parent : OpenKey) (subKey : String) (h : s.Kept t deadline start n 0) :
    Ends (target parent subKey (some t)) s (fun _ s' => s'.Kept t deadline start (n + 1) 0)
      (fun _ s' => s'.Unserved t deadline start) := by
  unfold target
  refine (view_keeps h).bind ?_ (fun _ _ h => h.unserved)
  intro trees s' hkept
  exact ends_require (fun _ => ends_pure hkept) (fun _ => hkept.unserved)

/-! ## Calls on keys -/

theorem openKey_keeps {parent : KeyHandle} {transaction : Option TransactionHandle}
    (hin : ∀ p, s.opened parent = some p → transaction.or p.transaction = some t)
    (h : s.Kept t deadline start 0 0) (subKey : String) (access : Access) :
    Ends (openKey parent subKey access transaction) s (fun _ s' => s'.Served t deadline start)
      (fun _ s' => s'.Unserved t deadline start) := by
  unfold openKey
  refine ends_lookUp (fun p hp => ?_) (fun _ => h.unserved)
  simp only [hin p hp]
  refine (target_keeps p subKey h).bind ?_ (fun _ _ h => h)
  intro l s₁ h₁
  refine (view_keeps h₁).bind ?_ (fun _ _ h => h.unserved)
  intro trees s₂ h₂
  refine ends_require (fun _ => ?_) (fun _ => h₂.unserved)
  exact ends_requireAdmissible (fun _ => h₂.served.withKey _) (fun _ => h₂.unserved)

theorem createMissing_keeps (parent : OpenKey) (l : Location)
    (h : s.Kept t deadline start n 0) :
    Ends (createMissing parent l (some t)) s (fun _ s' => s'.Served t deadline start)
      (fun _ s' => s'.Unserved t deadline start) := by
  unfold createMissing
  refine ends_require (fun _ => ?_) (fun _ => h.unserved)
  exact ends_requireUnprotected (fun _ => mutate_keeps _ h) (fun _ => h.unserved)

theorem createKey_keeps {parent : KeyHandle} {transaction : Option TransactionHandle}
    (hin : ∀ p, s.opened parent = some p → transaction.or p.transaction = some t)
    (h : s.Kept t deadline start 0 0) (subKey : String) (access : Access) :
    Ends (createKey parent subKey access transaction) s (fun _ s' => s'.Served t deadline start)
      (fun _ s' => s'.Unserved t deadline start) := by
  unfold createKey
  refine ends_lookUp (fun p hp => ?_) (fun _ => h.unserved)
  simp only [hin p hp]
  refine (target_keeps p subKey h).bind ?_ (fun _ _ h => h)
  intro l s₁ h₁
  refine (view_keeps h₁).bind ?_ (fun _ _ h => h.unserved)
  intro trees s₂ h₂
  -- A missing key is created before the handle is drawn.
  have hready : ∀ present s₃, s₃.Served t deadline start → Ends (do
      requireAdmissible l access
      let handle ← addKey ⟨l, access, some t⟩
      return (handle, if present = true then .openedExisting else .createdNew)) s₃
        (fun (_ : KeyHandle × Disposition) s' => s'.Served t deadline start)
        (fun _ s' => s'.Unserved t deadline start) := by
    intro present s₃ h₃
    exact ends_requireAdmissible (fun _ => h₃.withKey _) (fun _ => h₃.unserved)
  cases trees.contains l with
  | true => exact hready true s₂ h₂.served
  | false =>
    exact (createMissing_keeps p l h₂).bind (fun _ s₃ h₃ => hready false s₃ h₃) (fun _ _ h => h)

theorem changeKey_keeps {parent : KeyHandle} {transaction : Option TransactionHandle}
    (hin : ∀ p, s.opened parent = some p → transaction.or p.transaction = some t)
    (h : s.Kept t deadline start 0 0) (subKey : String) (mutation : Location → Mutation) :
    Ends (changeKey parent subKey transaction mutation) s (fun _ s' => s'.Served t deadline start)
      (fun _ s' => s'.Unserved t deadline start) := by
  unfold changeKey
  refine ends_lookUp (fun p hp => ?_) (fun _ => h.unserved)
  simp only [hin p hp]
  refine (target_keeps p subKey h).bind ?_ (fun _ _ h => h)
  intro l s₁ h₁
  refine ends_require (fun _ => ?_) (fun _ => h₁.unserved)
  exact ends_requireUnprotected (fun _ => mutate_keeps _ h₁) (fun _ => h₁.unserved)

theorem withNode_keeps {α : Type} {key : KeyHandle} {transaction : Option TransactionHandle}
    (hin : ∀ k, s.opened key = some k → transaction.or k.transaction = some t)
    (h : s.Kept t deadline start 0 0) (access : Access) (read : Node → Except NativeError α) :
    Ends (withNode key access transaction read) s (fun _ s' => s'.Served t deadline start)
      (fun _ s' => s'.Unserved t deadline start) := by
  unfold withNode
  refine ends_lookUp (fun k hk => ?_) (fun _ => h.unserved)
  refine ends_require (fun _ => ?_) (fun _ => h.unserved)
  rw [hin k hk]
  refine (view_keeps h).bind ?_ (fun _ _ h => h.unserved)
  intro trees s' hkept
  cases trees.find? k.location with
  | none => exact ends_throw hkept.unserved
  | some n =>
    simp only []
    cases read n with
    | ok a => exact ends_pure hkept.served
    | error e => exact ends_throw hkept.unserved

theorem changeValue_keeps {key : KeyHandle} {transaction : Option TransactionHandle}
    (hin : ∀ k, s.opened key = some k → transaction.or k.transaction = some t)
    (h : s.Kept t deadline start 0 0) (mutation : Location → Mutation) :
    Ends (changeValue key transaction mutation) s (fun _ s' => s'.Served t deadline start)
      (fun _ s' => s'.Unserved t deadline start) := by
  unfold changeValue
  refine ends_lookUp (fun k hk => ?_) (fun _ => h.unserved)
  refine ends_require (fun _ => ?_) (fun _ => h.unserved)
  rw [hin k hk]
  exact ends_requireUnprotected (fun _ => mutate_keeps _ h) (fun _ => h.unserved)

/-- A call on a key looks at the deadline of its transaction before it does anything else. Closing a
    key is the exception: it makes no difference to any transaction. -/
theorem perform_keeps {call : Call} (hkey : call.key?.isSome) (hopen : ∀ key, call ≠ .closeKey key)
    (hin : s.transactionOf call = some t) (h : s.Ticking t deadline) :
    Ends (perform call) s (fun _ s' => s'.Served t deadline s.clock)
      (fun _ s' => s'.Unserved t deadline s.clock) := by
  -- Logging the call touches neither the clock nor the transaction.
  have hnoted : ∀ entry, (s.note entry).Kept t deadline s.clock 0 0 :=
    fun _ => h.kept.of_record rfl rfl
  -- The handle that a call starts from tells the transaction that the call runs in.
  have hhandle : ∀ key k, call.key? = some key → s.opened key = some k →
      call.transaction?.or k.transaction = some t := by
    intro key k hcall hk
    rw [transactionOf, hcall, Option.bind_some, hk] at hin
    exact hin
  cases call with
  | openKey parent subKey access transaction =>
    unfold perform
    refine ends_bind (ends_modify ?_)
    have hin' : ∀ p, s.opened parent = some p → transaction.or p.transaction = some t :=
      fun p hp => hhandle parent p rfl hp
    exact openKey_keeps (s := s.note _) hin' (hnoted _) subKey access
  | createKey parent subKey access transaction =>
    unfold perform
    refine ends_bind (ends_modify ?_)
    have hin' : ∀ p, s.opened parent = some p → transaction.or p.transaction = some t :=
      fun p hp => hhandle parent p rfl hp
    exact createKey_keeps (s := s.note _) hin' (hnoted _) subKey access
  | deleteKey parent subKey transaction =>
    unfold perform deleteKey
    exact changeKey_keeps (fun p hp => hhandle parent p rfl hp) h.kept subKey _
  | renameKey parent subKey newName transaction =>
    unfold perform renameKey
    exact changeKey_keeps (fun p hp => hhandle parent p rfl hp) h.kept subKey _
  | closeKey key => exact absurd rfl (hopen key)
  | queryInfo key =>
    unfold perform queryInfo
    exact withNode_keeps (fun k hk => hhandle key k rfl hk) h.kept _ _
  | enumKey key index =>
    unfold perform enumKey
    exact withNode_keeps (fun k hk => hhandle key k rfl hk) h.kept _ _
  | enumValue key index =>
    unfold perform enumValue
    exact withNode_keeps (fun k hk => hhandle key k rfl hk) h.kept _ _
  | getValue key name transaction =>
    unfold perform getValue
    exact withNode_keeps (fun k hk => hhandle key k rfl hk) h.kept _ _
  | setValue key name data transaction =>
    unfold perform setValue
    exact changeValue_keeps (fun k hk => hhandle key k rfl hk) h.kept _
  | deleteValue key name transaction =>
    unfold perform deleteValue
    exact changeValue_keeps (fun k hk => hhandle key k rfl hk) h.kept _
  | createTransaction => exact absurd hkey (by simp [Call.key?])
  | transactionOutcome => exact absurd hkey (by simp [Call.key?])
  | commitTransaction => exact absurd hkey (by simp [Call.key?])
  | rollbackTransaction => exact absurd hkey (by simp [Call.key?])
  | closeTransaction => exact absurd hkey (by simp [Call.key?])

end

end Store

end TransactionalRegistry
