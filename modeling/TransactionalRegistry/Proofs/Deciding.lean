import TransactionalRegistry.Proofs.Calls

/-!
# What a call on a transaction does

Opening a transaction adds a record for it, and closing one removes the record. Asking how far it
has come is a look. Committing and rolling back decide an active transaction, once: a commit replays
the changes that were kept and, if all of them apply, makes the outcome the live trees.

A call that fails leaves the live trees as they are. It may find the transaction overdue, or, for a
commit whose changes do not apply, give it up; either way an undecided transaction is only ever
turned into one that has been rolled back.

## Main definitions

* `Store.Created`: A transaction was opened.
* `Store.Decided`: An active transaction was decided.
* `Store.Undecidable`: Why a transaction cannot be decided.
* `Store.Aligned`: The counter of handles never comes to the handle that denotes nothing.
* `Store.unlessDecided`: What decides an active transaction refuses one that has been decided.
* `Call.created?`: The transaction that a call has opened.
* `Store.Managed`: What a call on a transaction does to a store.

## Theorems

* `Store.signalled_ends`: The rule for calls that leave an error code behind.
* `Store.deciding_ends`: The rule for calls that decide an active transaction.
* `Store.createTransaction_ends`, `Store.transactionOutcome_ends`,
  `Store.transactionState?_ends`, `Store.commitTransaction_ends`,
  `Store.rollbackTransaction_ends`, `Store.closeTransaction_ends`: The calls one by one.
* `Store.perform_manages`: All calls on transactions.
-/

namespace TransactionalRegistry

/-- The transaction that a successful call has opened. -/
def Call.created? : (call : Call) → call.Answer → Option TransactionHandle
  | createTransaction .., t => some t
  | _, _ => none

namespace Store

/-- A transaction was opened under the next handle. -/
structure Created (timeoutMillis : UInt32) (description : Option String) (t : TransactionHandle)
    (s s' : Store) : Prop where
  handle : t = ⟨s.nextHandle⟩
  hives : s'.hives = s.hives
  keys : s'.keys = s.keys
  protectedPlaces : s'.protectedPlaces = s.protectedPlaces
  nextHandle : s'.nextHandle = s.nextHandle + handleStep
  clock : s'.clock = s.clock.read
  transactions : s'.transactions =
    Table.insert s.transactions t (.fresh timeoutMillis description s'.clock.now)

theorem Created.record {timeoutMillis : UInt32} {description : Option String}
    {t : TransactionHandle} {s s' : Store} (h : Created timeoutMillis description t s s')
    (t' : TransactionHandle) :
    s'.record? t' = if t = t' then some (.fresh timeoutMillis description s'.clock.now)
      else s.record? t' := by
  rw [record?, h.transactions, Table.find?_insert]
  rfl

/-- An active transaction was decided in time, and `record` is what is kept about it now. -/
structure Decided (t : TransactionHandle) (r record : TransactionRecord) (s s' : Store) :
    Prop where
  found : s.record? t = some r
  active : r.state = .active
  keys : s'.keys = s.keys
  protectedPlaces : s'.protectedPlaces = s.protectedPlaces
  nextHandle : s'.nextHandle = s.nextHandle
  clock : s.clock.now ≤ s'.clock.now
  in_time : ∀ deadline, r.deadline = some deadline → s.clock.now < deadline
  decided : s'.record? t = some record
  others : ∀ t', t ≠ t' → s'.record? t' = s.record? t'

/-- The counter of handles stands at a multiple of the distance between handles, so it never comes
    to the handle that denotes no transaction. -/
def Aligned (s : Store) : Prop :=
  s.nextHandle.toNat % 4 = 0

theorem Aligned.step {s s' : Store} (h : s.Aligned)
    (hnext : s'.nextHandle = s.nextHandle ∨ s'.nextHandle = s.nextHandle + handleStep) :
    s'.Aligned := by
  unfold Aligned at h ⊢
  rcases hnext with hnext | hnext
  · rw [hnext]
    exact h
  · have hstep : handleStep.toNat = 4 := rfl
    rw [hnext, UInt64.toNat_add, hstep]
    -- The counter wraps round at a multiple of four, so this holds there too.
    omega

theorem Aligned.not_invalid {s : Store} (h : s.Aligned) :
    (TransactionHandle.mk s.nextHandle).isInvalid = false := by
  unfold TransactionHandle.isInvalid TransactionHandle.invalid
  refine decide_eq_false (fun heq => ?_)
  have hnext : s.nextHandle = 0xFFFFFFFFFFFFFFFF := congrArg TransactionHandle.raw heq
  unfold Aligned at h
  rw [hnext] at h
  exact absurd h (by decide)

/-! ## Signals -/

/-- A step that touches neither trees nor transactions is a look. -/
theorem looked_signal (transaction : Option TransactionHandle) (s : Store) (code : UInt32) :
    Looked transaction s { s with lastError := code } :=
  .of_transactions rfl rfl rfl rfl (Nat.le_refl _) rfl

theorem Checked.signal {t : TransactionHandle} {s s' : Store} (h : Checked t s s')
    (code : UInt32) : Checked t s { s' with lastError := code } :=
  ⟨h.look.trans (looked_signal _ s' code), h.clock, h.record⟩

/-- Nothing is looked at for an unknown transaction. -/
theorem checked_of_unknown {t : TransactionHandle} {s : Store} (h : s.record? t = none)
    (code : UInt32) : Checked t s { s with lastError := code } := by
  refine ⟨looked_signal _ s code, Or.inl rfl, ?_⟩
  intro r _ hr
  exact absurd hr (by rw [h]; simp)

/-- A call that signals failure by the answer `false` leaves its code behind, and fails with it. -/
theorem signalled_ends {action : StoreM Bool} {s : Store} {Q : Store → Prop}
    {E : NativeError → Store → Prop}
    (h : Ends action s
      (fun ok s' => ok = true ∧ Q s' ∨
        ok = false ∧ ∃ e : NativeError, e.code ≠ 0 ∧ s'.lastError = e.code ∧ E e s')
      (fun _ _ => False)) :
    Ends (do Signal.checkBool (← action) readLastError) s (fun _ => Q) E := by
  refine h.bind ?_ (fun _ _ h => h.elim)
  intro ok s' hend
  rcases hend with ⟨rfl, hQ⟩ | ⟨rfl, e, hcode, hleft, hE⟩
  · exact hQ
  · -- The code is not that of success, so it is read back as the error that left it.
    have herror : Signal.lastErrorOf s'.lastError = e := by
      unfold Signal.lastErrorOf
      rw [hleft, if_neg hcode]
    refine ends_bind (ends_bind (ends_get (ends_pure (ends_throw ?_))))
    rw [herror]
    exact hE

/-! ## Opening and asking -/

/-- A transaction is opened with nothing done in it, unless its description is too long, or the
    next handle is the one that signals failure. -/
theorem createTransaction_ends (timeoutMillis : UInt32) (description : Option String) (s : Store) :
    Ends (createTransaction timeoutMillis description) s
      (fun t s' => description.any (maxDescriptionLength < Utf16.length ·) = false ∧
        t.isInvalid = false ∧ Created timeoutMillis description t s s')
      (fun e s' =>
        description.any (maxDescriptionLength < Utf16.length ·) = true ∧
            Looked none s s' ∧ s'.transactions = s.transactions ∧ e = .invalidParameter ∨
          (TransactionHandle.mk s.nextHandle).isInvalid = true) := by
  unfold createTransaction openTransaction
  cases hlong : description.any (maxDescriptionLength < Utf16.length ·) with
  | true =>
    have hlook := looked_signal none s NativeError.invalidParameter.code
    exact Or.inl ⟨rfl, hlook, rfl, rfl⟩
  | false =>
    -- The record is made before the handle is checked, and the note of it changes nothing else.
    have hcreated : Created timeoutMillis description ⟨s.nextHandle⟩ s
        (note (.debug "transaction created")
          { s with
            nextHandle := s.nextHandle + handleStep
            clock := s.clock.read
            transactions := Table.insert s.transactions ⟨s.nextHandle⟩
              (.fresh timeoutMillis description s.clock.read.now) }) :=
      ⟨rfl, rfl, rfl, rfl, rfl, rfl, rfl⟩
    refine ends_bind ?_
    change Ends (Signal.checkHandle ⟨s.nextHandle⟩ readLastError) _ _ _
    unfold Signal.checkHandle
    cases hvalid : (TransactionHandle.mk s.nextHandle).isInvalid with
    | true => exact Or.inr rfl
    | false => exact ⟨rfl, hvalid, hcreated⟩

/-- Asking how far a transaction has come is a look. -/
theorem transactionOutcome_ends (t : TransactionHandle) (s : Store) :
    Ends (transactionOutcome t) s
      (fun outcome s' => Checked t s s' ∧ ∃ r r', s.record? t = some r ∧
        s'.record? t = some r' ∧ r.Checked s'.clock.now r' ∧ outcome = r'.state.outcome)
      (fun e s' => s.record? t = none ∧ Checked t s s' ∧ e = .invalidHandle) := by
  unfold transactionOutcome
  refine ends_bind (ends_get ?_)
  cases hr : Table.find? s.transactions t with
  | none => exact ⟨hr, checked_of_unknown hr NativeError.invalidHandle.code, rfl⟩
  | some r =>
    refine (currentRecord_ends t s).bind ?_ ?_
    · intro r' s' h
      rcases h with ⟨hstore, hr', r₀, hr₀, hchecked⟩
      exact ends_pure ⟨hstore, r₀, r', hr₀, hr', hchecked, rfl⟩
    · -- A transaction that is known cannot be refused as unknown.
      intro e s' h
      have hnone : Table.find? s.transactions t = none := h.2.1
      exact absurd hnone (by rw [hr]; simp)

/-- Asking for the state of a transaction is a look. -/
theorem transactionState?_ends (t : TransactionHandle) (s : Store) :
    Ends (transactionState? t) s (fun _ s' => Checked t s s') (fun _ _ => False) := by
  unfold transactionState?
  refine ends_bind (ends_get ?_)
  cases hr : Table.find? s.transactions t with
  | none => exact ends_pure (checked_of_unknown hr s.lastError)
  | some r =>
    refine (currentRecord_ends t s).bind ?_ ?_
    · intro r' s' h
      exact ends_pure h.1
    · intro e s' h
      have hnone : Table.find? s.transactions t = none := h.2.1
      exact absurd hnone (by rw [hr]; simp)

/-! ## Deciding -/

/-- The rule for work on the record of a transaction as it stands now. -/
theorem withRecord_ends {t : TransactionHandle} {action : TransactionRecord → StoreM Bool}
    {s : Store} {Q : Bool → Store → Prop}
    (hunknown : s.record? t = none →
      Q false { s with lastError := NativeError.invalidHandle.code })
    (hknown : ∀ r r' s₁, s.record? t = some r → Checked t s s₁ → s₁.record? t = some r' →
      r.Checked s₁.clock.now r' → Ends (action r') s₁ Q (fun _ _ => False)) :
    Ends (withRecord t action) s Q (fun _ _ => False) := by
  unfold withRecord
  refine ends_bind (ends_get ?_)
  cases hr : Table.find? s.transactions t with
  | none => exact hunknown hr
  | some r =>
    refine (currentRecord_ends t s).bind ?_ ?_
    · intro r' s₁ h
      rcases h with ⟨hstore, hr', r₀, hr₀, hchecked⟩
      exact hknown r₀ r' s₁ hr₀ hstore hr' hchecked
    · intro e s₁ h
      have hnone : Table.find? s.transactions t = none := h.2.1
      exact absurd hnone (by rw [hr]; simp)

/-- Putting a new record in the place of an active one that is in time decides it. -/
theorem decided_putRecord {t : TransactionHandle} {r₀ r record : TransactionRecord} {s s' : Store}
    (hr : s.record? t = some r) (hactive : r.state = .active) (hchecked : r₀.Checked s.clock.now r)
    (hkeys : s'.keys = s.keys) (hprotected : s'.protectedPlaces = s.protectedPlaces)
    (hnext : s'.nextHandle = s.nextHandle) (hclock : s.clock.now ≤ s'.clock.now)
    (htransactions : s'.transactions = Table.insert s.transactions t record) :
    Decided t r record s s' where
  found := hr
  active := hactive
  keys := hkeys
  protectedPlaces := hprotected
  nextHandle := hnext
  clock := hclock
  in_time deadline hdeadline := hchecked.in_time hactive hdeadline
  decided := by
    rw [record?, htransactions, Table.find?_insert, if_pos rfl]
  others t' ht := by
    rw [record?, htransactions, Table.find?_insert, if_neg ht]
    rfl

/-- Why a call that decides a transaction fails before it does anything: the transaction is unknown,
    or it has been decided, if only by its deadline. -/
def Undecidable (t : TransactionHandle) (e : NativeError) (s s' : Store) : Prop :=
  Checked t s s' ∧
    (s.record? t = none ∧ e = .invalidHandle ∨
      ∃ r r', s.record? t = some r ∧ s'.record? t = some r' ∧ r.Checked s'.clock.now r' ∧
        decidedError r'.state = some e)

/-- An active transaction cannot be decided because its deadline has come. -/
theorem Undecidable.expired {t : TransactionHandle} {r : TransactionRecord} {e : NativeError}
    {s s' : Store} (h : Undecidable t e s s') (hr : s.record? t = some r)
    (hactive : r.state = .active) :
    ∃ deadline, r.deadline = some deadline ∧ deadline ≤ s'.clock.now := by
  rcases h with ⟨_, ⟨hnone, _⟩ | ⟨r₀, r', hr₀, _, hchecked, hdecided⟩⟩
  · exact absurd hr (by rw [hnone]; simp)
  · rw [hr, Option.some.injEq] at hr₀
    subst hr₀
    cases hchecked with
    -- An active transaction is not refused for having been decided.
    | kept _ => exact absurd hdecided (by rw [hactive]; simp [decidedError])
    | expired deadline _ hdeadline hdue => exact ⟨deadline, hdeadline, hdue⟩

/-- What is kept about an active transaction that is being decided is what was kept about it before
    its deadline was looked at. -/
theorem Decided.eq_of_checked {t : TransactionHandle} {r₀ r record : TransactionRecord}
    {s s₁ s' : Store} (h : Decided t r record s₁ s') (hchecked : Checked t s s₁)
    (hr₀ : s.record? t = some r₀) : r = r₀ :=
  (hchecked.record r₀ r hr₀ h.found).eq_of_active h.active

theorem decidedError_code {state : TransactionState} {e : NativeError}
    (h : decidedError state = some e) : e.code ≠ 0 := by
  cases state with
  | active => exact absurd h (by simp [decidedError])
  | committed =>
    rw [decidedError, Option.some.injEq] at h
    subst h
    decide
  | rolledBack =>
    rw [decidedError, Option.some.injEq] at h
    subst h
    decide

theorem decidedError_eq_none {state : TransactionState} (h : decidedError state = none) :
    state = .active := by
  cases state with
  | active => rfl
  | committed => exact absurd h (by simp [decidedError])
  | rolledBack => exact absurd h (by simp [decidedError])

/-- What decides an active transaction refuses one that has been decided before. -/
def unlessDecided (action : TransactionRecord → StoreM Bool) (record : TransactionRecord) :
    StoreM Bool :=
  match decidedError record.state with
  | some error => failWith error
  | none => action record

/-- The rule for calls that decide an active transaction. All of them refuse one that is unknown, or
    that has been decided before, for the same reasons. -/
theorem deciding_ends {t : TransactionHandle} {action : TransactionRecord → StoreM Bool} {s : Store}
    {Q : Store → Prop} {E : NativeError → Store → Prop}
    (hrefused : ∀ e s', Undecidable t e s s' → E e s')
    (hdecides : ∀ (r₀ r : TransactionRecord) s₁, Checked t s s₁ → s₁.record? t = some r →
      r.state = .active → r₀.Checked s₁.clock.now r → Ends (action r) s₁
        (fun ok s' => ok = true ∧ Q s' ∨
          ok = false ∧ ∃ e : NativeError, e.code ≠ 0 ∧ s'.lastError = e.code ∧ E e s')
        (fun _ _ => False)) :
    Ends (do Signal.checkBool (← withRecord t (unlessDecided action)) readLastError) s
      (fun _ => Q) E := by
  refine signalled_ends (withRecord_ends ?_ ?_)
  · -- The answer `false` leaves a code behind, and the call fails with the error that has it.
    intro hunknown
    refine Or.inr ⟨rfl, .invalidHandle, by decide, rfl, hrefused _ _ ?_⟩
    exact ⟨checked_of_unknown hunknown _, Or.inl ⟨hunknown, rfl⟩⟩
  · intro r₀ r s₁ hr₀ hstore hr hchecked
    unfold unlessDecided
    cases hdecided : decidedError r.state with
    | some e =>
      refine Or.inr ⟨rfl, e, decidedError_code hdecided, rfl, hrefused _ _ ?_⟩
      exact ⟨hstore.signal _, Or.inr ⟨r₀, r, hr₀, hr, hchecked, hdecided⟩⟩
    | none => exact hdecides r₀ r s₁ hstore hr (decidedError_eq_none hdecided) hchecked

/-- An active transaction that is in time is settled if its changes apply to the live trees, and
    given up if they do not. -/
theorem settleActive_ends {t : TransactionHandle} {r₀ r : TransactionRecord} {s : Store}
    (hr : s.record? t = some r) (hactive : r.state = .active)
    (hchecked : r₀.Checked s.clock.now r) :
    Ends (settleActive t r) s
      (fun ok s' =>
        ok = true ∧ Decided t r r.settled s s' ∧
            Mutation.replay s'.clock.now s.hives r.log = .ok s'.hives ∨
          ok = false ∧ s'.lastError = NativeError.transactionalConflict.code ∧
            s'.hives = s.hives ∧ Decided t r r.discarded s s' ∧
            ∃ e, Mutation.replay s'.clock.now s.hives r.log = .error e)
      (fun _ _ => False) := by
  have hclock := Clock.le_read s.clock
  unfold settleActive
  -- The commit is stamped by a reading of its own, after the one that the deadline was held
  -- against.
  refine ends_bind ?_
  change Ends _ { s with clock := s.clock.read } _ _
  refine ends_bind (ends_get ?_)
  cases hreplay : Mutation.replay s.clock.read.now s.hives r.log with
  | error e =>
    simp only []
    refine Or.inr ⟨rfl, rfl, rfl, ?_, e, hreplay⟩
    exact decided_putRecord hr hactive hchecked rfl rfl rfl hclock rfl
  | ok trees =>
    simp only []
    refine Or.inl ⟨rfl, ?_, hreplay⟩
    exact decided_putRecord hr hactive hchecked rfl rfl rfl hclock rfl

/-- A commit replays the changes of an active transaction on the live trees. If one of them does not
    apply, the transaction is given up and the live trees stay as they are. -/
theorem commitTransaction_ends (t : TransactionHandle) (s : Store) :
    Ends (commitTransaction t) s
      (fun _ s' => ∃ s₁ r, Checked t s s₁ ∧ Decided t r r.settled s₁ s' ∧
        Mutation.replay s'.clock.now s.hives r.log = .ok s'.hives)
      (fun e s' => Undecidable t e s s' ∨
        e = .transactionalConflict ∧ s'.hives = s.hives ∧
          ∃ s₁ r e', Checked t s s₁ ∧ Decided t r r.discarded s₁ s' ∧
            Mutation.replay s'.clock.now s.hives r.log = .error e') := by
  refine deciding_ends (fun _ _ hundecidable => Or.inl hundecidable) ?_
  intro r₀ r s₁ hstore hr hactive hchecked
  refine (settleActive_ends hr hactive hchecked).mono ?_ (fun _ _ h => h)
  intro ok s' h
  -- Looking at the deadline has left the live trees alone.
  rw [hstore.look.hives] at h
  rcases h with ⟨hok, hsettled, hreplay⟩ | ⟨hok, hleft, hhives, hdiscarded, e', hreplay⟩
  · exact Or.inl ⟨hok, s₁, r, hstore, hsettled, hreplay⟩
  · refine Or.inr ⟨hok, .transactionalConflict, by decide, hleft, Or.inr ?_⟩
    exact ⟨rfl, hhives, s₁, r, e', hstore, hdiscarded, hreplay⟩

/-- Rolling back gives up the changes of an active transaction. -/
theorem rollbackTransaction_ends (t : TransactionHandle) (s : Store) :
    Ends (rollbackTransaction t) s
      (fun _ s' => s'.hives = s.hives ∧
        ∃ s₁ r, Checked t s s₁ ∧ Decided t r r.discarded s₁ s')
      (fun e s' => Undecidable t e s s') := by
  refine deciding_ends (fun _ _ hundecidable => hundecidable) ?_
  intro r₀ r s₁ hstore hr hactive hchecked
  refine Or.inl ⟨rfl, hstore.look.hives, s₁, r, hstore, ?_⟩
  exact decided_putRecord hr hactive hchecked rfl rfl rfl (Nat.le_refl _) rfl

/-! ## Closing -/

/-- A transaction that was open is forgotten, whatever had become of it. -/
theorem closeTransaction_ends (t : TransactionHandle) (s : Store) :
    Ends (closeTransaction t) s
      (fun _ s' => (∃ r, s.record? t = some r) ∧ s'.hives = s.hives ∧ s'.keys = s.keys ∧
        s'.protectedPlaces = s.protectedPlaces ∧ s'.nextHandle = s.nextHandle ∧
        s'.clock = s.clock ∧ s'.transactions = Table.erase s.transactions t)
      (fun e s' => s.record? t = none ∧ Looked none s s' ∧ s'.transactions = s.transactions ∧
        e = .invalidHandle) := by
  refine signalled_ends ?_
  unfold tryClose
  refine ends_bind (ends_get ?_)
  cases hr : Table.find? s.transactions t with
  | none =>
    refine Or.inr ⟨rfl, .invalidHandle, by decide, rfl, hr, ?_, rfl, rfl⟩
    exact looked_signal none s NativeError.invalidHandle.code
  | some r =>
    refine ends_bind (ends_modify ?_)
    by_cases hactive : r.state = .active
    · rw [if_pos hactive]
      exact Or.inl ⟨rfl, ⟨r, hr⟩, rfl, rfl, rfl, rfl, rfl, rfl⟩
    · rw [if_neg hactive]
      exact Or.inl ⟨rfl, ⟨r, hr⟩, rfl, rfl, rfl, rfl, rfl, rfl⟩

/-! ## All calls on transactions -/

/-- What a call on a transaction does to a store: it has looked, or it has opened, decided or closed
    a transaction. One that was opened is known by its handle. -/
inductive Managed (s : Store) : Option TransactionHandle → Store → Prop
  | looked {transaction : Option TransactionHandle} {s' : Store} :
      Looked transaction s s' → Managed s none s'
  | created {timeoutMillis : UInt32} {description : Option String} {t : TransactionHandle}
      {s' : Store} : Created timeoutMillis description t s s' → Managed s (some t) s'
  | settled {t : TransactionHandle} {r : TransactionRecord} {s₁ s' : Store} :
      Checked t s s₁ → Decided t r r.settled s₁ s' →
      Mutation.replay s'.clock.now s.hives r.log = .ok s'.hives → Managed s none s'
  | discarded {t : TransactionHandle} {r : TransactionRecord} {s₁ s' : Store} :
      Checked t s s₁ → Decided t r r.discarded s₁ s' → s'.hives = s.hives → Managed s none s'
  | closed {t : TransactionHandle} {s' : Store} :
      s'.hives = s.hives → s'.keys = s.keys → s'.protectedPlaces = s.protectedPlaces →
      s'.nextHandle = s.nextHandle → s'.clock = s.clock →
      s'.transactions = Table.erase s.transactions t → Managed s none s'

/-- A call on a transaction that fails opens none, and one that succeeds opens the one that it
    answers with, if it is a call to open one. -/
theorem perform_manages {s : Store} (haligned : s.Aligned) (call : Call) (hkey : call.key? = none) :
    Ends (perform call) s (fun answer s' => Managed s (call.created? answer) s')
      (fun _ s' => Managed s none s') := by
  cases call with
  | createTransaction timeoutMillis description =>
    refine (createTransaction_ends timeoutMillis description s).mono ?_ ?_
    · exact fun _ _ h => .created h.2.2
    · intro _ s' h
      rcases h with ⟨_, hlook, _⟩ | hinvalid
      · exact .looked hlook
      · -- The counter of handles never comes to the invalid one.
        exact absurd hinvalid (by rw [haligned.not_invalid]; simp)
  | transactionOutcome t =>
    refine (transactionOutcome_ends t s).mono ?_ ?_
    · exact fun _ _ h => .looked h.1.look
    · exact fun _ _ h => .looked h.2.1.look
  | commitTransaction t =>
    refine (commitTransaction_ends t s).mono ?_ ?_
    · intro _ s' h
      rcases h with ⟨s₁, r, hchecked, hsettled, hreplay⟩
      exact .settled hchecked hsettled hreplay
    · intro _ s' h
      rcases h with hundecidable | ⟨_, hhives, s₁, r, _, hchecked, hdiscarded, _⟩
      · exact .looked hundecidable.1.look
      · exact .discarded hchecked hdiscarded hhives
  | rollbackTransaction t =>
    refine (rollbackTransaction_ends t s).mono ?_ ?_
    · intro _ s' h
      rcases h with ⟨hhives, s₁, r, hchecked, hdiscarded⟩
      exact .discarded hchecked hdiscarded hhives
    · exact fun _ _ h => .looked h.1.look
  | closeTransaction t =>
    refine (closeTransaction_ends t s).mono ?_ ?_
    · intro _ s' h
      rcases h with ⟨_, hhives, hkeys, hprotected, hnext, hclock, htransactions⟩
      exact .closed hhives hkeys hprotected hnext hclock htransactions
    · exact fun _ _ h => .looked h.2.1
  | _ => exact absurd hkey (by simp [Call.key?])

end Store

end TransactionalRegistry
