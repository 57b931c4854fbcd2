import TransactionalRegistry.Proofs.Ends
import TransactionalRegistry.Store.Keys

/-!
# Looking at the trees

Every call on a key looks at the trees before it does anything else, and most calls do nothing else.
A look in a transaction may leave a trace in the store: a transaction that is found to be overdue is
rolled back, and one that looks for the first time takes its private copy of the live trees.

`Store.Looked` says all that a look can do, and that it does it to the one transaction that it looks
through. Looks in a row are a look. `Store.view_ends` and `Store.mutate_ends` describe the two steps
that every call is made of, in these terms, and nothing later opens those steps again.

## Main definitions

* `Store.record?`: What is kept about a transaction.
* `TransactionRecord.Checked`: What looking at its deadline does to a transaction.
* `TransactionRecord.Looked`: What a look does to a transaction.
* `Store.Looked`: What a look through a transaction does to a store.
* `Store.Checked`: What looking at the deadline of a transaction does to a store.
* `Store.Sees`: The trees that are seen through a transaction that has looked.
* `Store.Blind`: Nothing is seen through a transaction any more.
* `Store.installed`: A store with changed trees in place of those that were seen.
* `Store.Changed`: A change was made to the trees that are seen through a transaction.
* `Store.SameFrame`: What a change leaves as it is.

## Theorems

* `Store.Looked.refl`, `Store.Looked.trans`: Looks in a row are a look.
* `Store.Looked.origin`: A look adds no transaction.
* `Store.Looked.sees`: A look leaves what was seen as it was, unless the transaction ended.
* `Store.currentRecord_ends`: A transaction is handed out as it stands after its deadline was
  looked at.
* `Store.view_ends`: The trees that a call looks at.
* `Store.mutate_ends`: A change is made as a whole, or the call has only looked.
-/

namespace TransactionalRegistry

theorem Clock.le_read (clock : Clock) : clock.now ≤ clock.read.now := by
  unfold Clock.read
  split
  · exact Nat.le_refl _
  · exact Nat.le_add_right _ _

namespace TransactionRecord

/-- Looking at the deadline of a transaction, at the time `now`, leaves it as it is, or rolls it
    back because its time is over. -/
inductive Checked (now : Time) (r : TransactionRecord) : TransactionRecord → Prop
  | kept : (r.state = .active → ∀ deadline, r.deadline = some deadline → now < deadline) →
      Checked now r r
  | expired (deadline : Time) : r.state = .active → r.deadline = some deadline → deadline ≤ now →
      Checked now r r.discarded

/-- A look, over by the time `now`, leaves a transaction as it is, rolls it back because its time is
    over, or gives it its private copy of the live trees. -/
inductive Looked (live : Hives) (now : Time) (r : TransactionRecord) : TransactionRecord → Prop
  | same : Looked live now r r
  | expired (deadline : Time) : r.state = .active → r.deadline = some deadline → deadline ≤ now →
      Looked live now r r.discarded
  | copied : r.state = .active → r.workspace = none →
      Looked live now r { r with workspace := some live }

theorem Checked.looked {live : Hives} {now : Time} {r r' : TransactionRecord}
    (h : Checked now r r') : Looked live now r r' := by
  cases h with
  | kept _ => exact .same
  | expired deadline hactive hdeadline hdue => exact .expired deadline hactive hdeadline hdue

/-- A transaction that is still active after its deadline was looked at is as it was before. -/
theorem Checked.eq_of_active {now : Time} {r r' : TransactionRecord} (h : Checked now r r')
    (hactive : r'.state = .active) : r' = r := by
  cases h with
  | kept _ => rfl
  | expired => exact absurd hactive (by simp [discarded])

/-- A transaction that is still active after its deadline was looked at is in time. -/
theorem Checked.in_time {now : Time} {r r' : TransactionRecord} (h : Checked now r r')
    (hactive : r'.state = .active) {deadline : Time} (hdeadline : r'.deadline = some deadline) :
    now < deadline := by
  cases h with
  | kept hin => exact hin hactive deadline hdeadline
  | expired => exact absurd hactive (by simp [discarded])

theorem Looked.trans {live : Hives} {now now' : Time} {r r' r'' : TransactionRecord}
    (hle : now ≤ now') (h : Looked live now r r') (h' : Looked live now' r' r'') :
    Looked live now' r r'' := by
  cases h with
  | same => exact h'
  | expired deadline hactive hdeadline hdue =>
    -- A transaction that was rolled back stays as it is.
    cases h' with
    | same => exact .expired deadline hactive hdeadline (Nat.le_trans hdue hle)
    | expired _ hactive' => exact absurd hactive' (by simp [discarded])
    | copied hactive' => exact absurd hactive' (by simp [discarded])
  | copied hactive hnone =>
    -- The private copy is taken once.
    cases h' with
    | same => exact .copied hactive hnone
    | expired deadline _ hdeadline hdue => exact .expired deadline hactive hdeadline hdue
    | copied _ hnone' => exact absurd hnone' (by simp)

end TransactionRecord

namespace Store

/-- What is kept about a transaction. -/
def record? (s : Store) (t : TransactionHandle) : Option TransactionRecord :=
  Table.find? s.transactions t

/-! ## Looks -/

/-- What a look through `transaction` does to a store: time may pass, and the transaction may end or
    take its private copy. All else stays, other transactions included. -/
structure Looked (transaction : Option TransactionHandle) (s s' : Store) : Prop where
  hives : s'.hives = s.hives
  keys : s'.keys = s.keys
  protectedPlaces : s'.protectedPlaces = s.protectedPlaces
  nextHandle : s'.nextHandle = s.nextHandle
  clock : s.clock.now ≤ s'.clock.now
  others : ∀ t, transaction ≠ some t → s'.record? t = s.record? t
  unknown : ∀ t, s.record? t = none → s'.record? t = none
  known : ∀ t r, s.record? t = some r →
    ∃ r', s'.record? t = some r' ∧ r.Looked s.hives s'.clock.now r'

namespace Looked

variable {transaction : Option TransactionHandle} {s s' s'' : Store}

theorem refl (transaction : Option TransactionHandle) (s : Store) : Looked transaction s s where
  hives := rfl
  keys := rfl
  protectedPlaces := rfl
  nextHandle := rfl
  clock := Nat.le_refl _
  others _ _ := rfl
  unknown _ h := h
  known _ r h := ⟨r, h, .same⟩

theorem trans (h : Looked transaction s s') (h' : Looked transaction s' s'') :
    Looked transaction s s'' where
  hives := h'.hives.trans h.hives
  keys := h'.keys.trans h.keys
  protectedPlaces := h'.protectedPlaces.trans h.protectedPlaces
  nextHandle := h'.nextHandle.trans h.nextHandle
  clock := Nat.le_trans h.clock h'.clock
  others t ht := (h'.others t ht).trans (h.others t ht)
  unknown t ht := h'.unknown t (h.unknown t ht)
  known t r hr := by
    rcases h.known t r hr with ⟨r', hr', hlook⟩
    rcases h'.known t r' hr' with ⟨r'', hr'', hlook'⟩
    rw [h.hives] at hlook'
    exact ⟨r'', hr'', hlook.trans h'.clock hlook'⟩

/-- A step that leaves the transactions alone and lets time pass is a look through any of them. -/
theorem of_transactions (hhives : s'.hives = s.hives) (hkeys : s'.keys = s.keys)
    (hprotected : s'.protectedPlaces = s.protectedPlaces) (hnext : s'.nextHandle = s.nextHandle)
    (hclock : s.clock.now ≤ s'.clock.now) (htransactions : s'.transactions = s.transactions) :
    Looked transaction s s' where
  hives := hhives
  keys := hkeys
  protectedPlaces := hprotected
  nextHandle := hnext
  clock := hclock
  others t _ := by rw [record?, record?, htransactions]
  unknown t h := by rw [record?, htransactions]; exact h
  known t r h := ⟨r, by rw [record?, htransactions]; exact h, .same⟩

/-- What is kept about a transaction after a look has come from what was kept about it before. -/
theorem origin (h : Looked transaction s s') {t : TransactionHandle} {r' : TransactionRecord}
    (hr' : s'.record? t = some r') :
    ∃ r, s.record? t = some r ∧ r.Looked s.hives s'.clock.now r' := by
  cases hr : s.record? t with
  | none => exact absurd hr' (by rw [h.unknown t hr]; simp)
  | some r =>
    rcases h.known t r hr with ⟨r'', hr'', hrecord⟩
    rw [hr', Option.some.injEq] at hr''
    subst hr''
    exact ⟨r, rfl, hrecord⟩

theorem isProtected (h : Looked transaction s s') (l : Location) :
    s'.isProtected l = s.isProtected l := by
  rw [Store.isProtected, Store.isProtected, h.protectedPlaces]

end Looked

theorem looked_note (transaction : Option TransactionHandle) (s : Store) (entry : LogEntry) :
    Looked transaction s (s.note entry) :=
  .of_transactions rfl rfl rfl rfl (Nat.le_refl _) rfl

theorem looked_clock (transaction : Option TransactionHandle) (s : Store) :
    Looked transaction s { s with clock := s.clock.read } :=
  .of_transactions rfl rfl rfl rfl (Clock.le_read _) rfl

theorem record?_insert (s : Store) (t t' : TransactionHandle) (r : TransactionRecord) :
    record? { s with transactions := Table.insert s.transactions t r } t' =
      if t = t' then some r else s.record? t' :=
  Table.find?_insert s.transactions t r t'

/-- Replacing what is kept about one transaction, as a look may, is a look through it. -/
theorem looked_putRecord {s : Store} {t : TransactionHandle} {r r' : TransactionRecord}
    (hr : s.record? t = some r) (h : r.Looked s.hives s.clock.now r') :
    Looked (some t) s { s with transactions := Table.insert s.transactions t r' } where
  hives := rfl
  keys := rfl
  protectedPlaces := rfl
  nextHandle := rfl
  clock := Nat.le_refl _
  others t' ht := by
    rw [record?_insert, if_neg (fun h => ht (congrArg some h))]
  unknown t' ht := by
    rw [record?_insert]
    by_cases htt : t = t'
    · subst htt
      rw [hr] at ht
      exact absurd ht (by simp)
    · rw [if_neg htt]
      exact ht
  known t' r'' ht := by
    rw [record?_insert]
    by_cases htt : t = t'
    · subst htt
      rw [hr, Option.some.injEq] at ht
      subst ht
      exact ⟨r', if_pos rfl, h⟩
    · exact ⟨r'', by rw [if_neg htt]; exact ht, .same⟩

/-! ## What is seen -/

/-- The trees that are seen through a transaction that has looked, or the live trees. -/
def Sees (s : Store) : Option TransactionHandle → Hives → Prop
  | none, h => s.hives = h
  | some t, h => ∃ r, s.record? t = some r ∧ r.state = .active ∧ r.workspace = some h

/-- Nothing is seen through a transaction: it is unknown, or it has ended. -/
def Blind (s : Store) : Option TransactionHandle → Prop
  | none => False
  | some t => ∀ r, s.record? t = some r → r.state ≠ .active

/-- A look leaves what was seen as it was, unless the transaction ended. -/
theorem Looked.sees {transaction : Option TransactionHandle} {s s' : Store} {h : Hives}
    (hlook : Looked transaction s s') (hsees : s.Sees transaction h) :
    s'.Sees transaction h ∨ s'.Blind transaction := by
  cases transaction with
  | none => exact Or.inl (hlook.hives.trans hsees)
  | some t =>
    rcases hsees with ⟨r, hr, hactive, hworkspace⟩
    rcases hlook.known t r hr with ⟨r', hr', hrecord⟩
    cases hrecord with
    | same => exact Or.inl ⟨r, hr', hactive, hworkspace⟩
    | expired =>
      refine Or.inr (fun r'' hr'' => ?_)
      rw [hr', Option.some.injEq] at hr''
      rw [← hr'']
      simp [TransactionRecord.discarded]
    | copied _ hnone => exact absurd hnone (by rw [hworkspace]; simp)

/-- Looking at the deadline of a transaction and at nothing else: the clock is read once at most. -/
structure Checked (t : TransactionHandle) (s s' : Store) : Prop where
  look : Looked (some t) s s'
  clock : s'.clock = s.clock ∨ s'.clock = s.clock.read
  record : ∀ r r', s.record? t = some r → s'.record? t = some r' → r.Checked s'.clock.now r'

theorem checked_of_eq {t : TransactionHandle} {s s' : Store} {r r' : TransactionRecord}
    (hlook : Looked (some t) s s') (hclock : s'.clock = s.clock ∨ s'.clock = s.clock.read)
    (hr : s.record? t = some r) (hr' : s'.record? t = some r')
    (hchecked : r.Checked s'.clock.now r') : Checked t s s' := by
  refine ⟨hlook, hclock, ?_⟩
  intro r₁ r₁' hr₁ hr₁'
  rw [hr, Option.some.injEq] at hr₁
  rw [hr', Option.some.injEq] at hr₁'
  rw [← hr₁, ← hr₁']
  exact hchecked

/-! ## The steps of a call -/

/-- What a call finds that looks through a transaction it cannot see anything through. -/
def viewError (s : Store) (transaction : Option TransactionHandle) : NativeError :=
  if (transaction.bind s.record?).isSome then .transactionNotActive else .invalidHandle

theorem readClock_ends (transaction : Option TransactionHandle) (s : Store) :
    Ends readClock s
      (fun now s' => Looked transaction s s' ∧ s'.transactions = s.transactions ∧
        s'.clock = s.clock.read ∧ now = s'.clock.now)
      (fun _ _ => False) :=
  ⟨looked_clock transaction s, rfl, rfl, rfl⟩

theorem putRecord_ends (t : TransactionHandle) (r : TransactionRecord) (s : Store) :
    Ends (putRecord t r) s
      (fun _ s' => s' = { s with transactions := Table.insert s.transactions t r })
      (fun _ _ => False) :=
  rfl

/-- A transaction is handed out as it stands after its deadline was looked at. -/
theorem currentRecord_ends (t : TransactionHandle) (s : Store) :
    Ends (currentRecord t) s
      (fun r' s' => Checked t s s' ∧ s'.record? t = some r' ∧
        ∃ r, s.record? t = some r ∧ r.Checked s'.clock.now r')
      (fun e s' => s' = s ∧ s.record? t = none ∧ e = .invalidHandle) := by
  unfold currentRecord
  refine ends_bind (ends_get ?_)
  cases hr : Table.find? s.transactions t with
  | none => exact ends_throw ⟨rfl, hr, rfl⟩
  | some r =>
    -- The clock is read for an active transaction with a deadline, and for no other.
    have hkept : r.pendingDeadline = none → r.Checked s.clock.now r := by
      intro hpending
      refine .kept (fun hactive deadline hdeadline => ?_)
      rw [TransactionRecord.pendingDeadline, if_pos hactive, hdeadline] at hpending
      exact absurd hpending (by simp)
    have hwait : ∀ deadline, r.pendingDeadline = some deadline →
        r.state = .active ∧ r.deadline = some deadline := by
      intro deadline hpending
      unfold TransactionRecord.pendingDeadline at hpending
      by_cases hactive : r.state = .active
      · rw [if_pos hactive] at hpending
        exact ⟨hactive, hpending⟩
      · rw [if_neg hactive] at hpending
        exact absurd hpending (by simp)
    simp only []
    cases hpending : r.pendingDeadline with
    | none =>
      have hchecked := hkept hpending
      exact ends_pure ⟨checked_of_eq (.refl _ s) (Or.inl rfl) hr hr hchecked, hr, r, hr, hchecked⟩
    | some deadline =>
      rcases hwait deadline hpending with ⟨hactive, hdeadline⟩
      refine (readClock_ends (some t) s).bind ?_ (fun _ _ h => h.elim)
      intro now s' h
      rcases h with ⟨hlook, htransactions, hclock, rfl⟩
      have hr' : s'.record? t = some r := by rw [record?, htransactions]; exact hr
      by_cases hlt : s'.clock.now < deadline
      · rw [if_pos hlt]
        have hchecked : r.Checked s'.clock.now r := by
          refine .kept (fun _ deadline' hd => ?_)
          rw [hdeadline, Option.some.injEq] at hd
          exact hd ▸ hlt
        exact ends_pure ⟨checked_of_eq hlook (Or.inr hclock) hr hr' hchecked, hr', r, hr, hchecked⟩
      · rw [if_neg hlt]
        -- The deadline has come: the transaction is rolled back before it is handed out.
        have hexpired : r.Checked s'.clock.now r.discarded :=
          .expired deadline hactive hdeadline (Nat.le_of_not_lt hlt)
        have hnoted := looked_note (some t) s' (.debug "transaction timed out")
        have hlook' := (hlook.trans hnoted).trans (looked_putRecord hr' hexpired.looked)
        have hfound : Table.find? (Table.insert s'.transactions t r.discarded) t
            = some r.discarded := by
          rw [Table.find?_insert, if_pos rfl]
        exact ⟨checked_of_eq hlook' (Or.inr hclock) hr hfound hexpired, hfound, r, hr, hexpired⟩

/-- A call that looks through a transaction sees its private copy, taken now if it had none; or it
    finds that the transaction is unknown or has ended. -/
theorem view_ends (transaction : Option TransactionHandle) (s : Store) :
    Ends (view transaction) s
      (fun h s' => Looked transaction s s' ∧ s'.Sees transaction h)
      (fun e s' => Looked transaction s s' ∧ s'.Blind transaction ∧
        e = s.viewError transaction) := by
  cases transaction with
  | none => exact ends_bind (ends_get (ends_pure ⟨.refl _ s, rfl⟩))
  | some t =>
    unfold view
    refine (currentRecord_ends t s).bind ?_ ?_
    · intro r s' hstep
      rcases hstep with ⟨⟨hlook, _, _⟩, hr, r₀, hr₀, hchecked⟩
      have hknown : s.viewError (some t) = .transactionNotActive := by
        simp [viewError, hr₀]
      by_cases hactive : r.state = .active
      · rw [if_neg (not_not_intro hactive)]
        cases hworkspace : r.workspace with
        | some h => exact ends_pure ⟨hlook, r, hr, hactive, hworkspace⟩
        | none =>
          -- The first look takes the private copy.
          refine ends_bind (ends_get ?_)
          have hcopy := looked_putRecord hr (.copied hactive hworkspace)
          refine ⟨hlook.trans hcopy, { r with workspace := some s'.hives }, ?_, hactive, rfl⟩
          exact (record?_insert s' t t _).trans (if_pos rfl)
      · rw [if_pos hactive]
        refine ends_throw ⟨hlook, fun r' hr' => ?_, hknown.symm⟩
        rw [hr, Option.some.injEq] at hr'
        exact hr' ▸ hactive
    · intro e s' hstep
      rcases hstep with ⟨rfl, hnone, rfl⟩
      refine ⟨.refl _ s', fun r hr => absurd hr (by rw [hnone]; simp), ?_⟩
      simp [viewError, hnone]

/-! ## Changes -/

/-- The store with changed trees as the private copy of a transaction, and the change kept for its
    commit; or with changed live trees. -/
def installed (s : Store) (transaction : Option TransactionHandle) (h : Hives) (m : Mutation) :
    Store :=
  match transaction with
  | none => { s with hives := h }
  | some t =>
    match s.record? t with
    | none => s
    | some r =>
      { s with
        transactions :=
          Table.insert s.transactions t { r with workspace := some h, log := r.log ++ [m] } }

theorem installed_some {s : Store} {t : TransactionHandle} {r : TransactionRecord}
    (hr : s.record? t = some r) (h : Hives) (m : Mutation) :
    s.installed (some t) h m = { s with
      transactions :=
        Table.insert s.transactions t { r with workspace := some h, log := r.log ++ [m] } } := by
  simp only [installed, hr]

theorem install_ends (transaction : Option TransactionHandle) (h : Hives) (m : Mutation)
    (s : Store) :
    Ends (install transaction h m) s (fun _ s' => s' = s.installed transaction h m)
      (fun _ _ => False) := by
  cases transaction with
  | none => exact ends_modify rfl
  | some t =>
    unfold install
    refine ends_bind (ends_get ?_)
    cases hr : Table.find? s.transactions t with
    | none =>
      refine ends_pure ?_
      simp only [installed, record?, hr]
    | some r =>
      rw [installed_some hr]
      exact putRecord_ends t _ s

/-- A change was made to the trees that are seen through a transaction. -/
def Changed (transaction : Option TransactionHandle) (m : Mutation) (s s' : Store) : Prop :=
  ∃ h changed, s.Sees transaction h ∧ m.apply s.clock.now h = .ok changed ∧
    s' = s.installed transaction changed m

/-- Two stores with the same open handles, the same protected places and the same time. -/
structure SameFrame (s s' : Store) : Prop where
  keys : s'.keys = s.keys
  protectedPlaces : s'.protectedPlaces = s.protectedPlaces
  nextHandle : s'.nextHandle = s.nextHandle
  clock : s'.clock = s.clock

theorem Changed.frame {transaction : Option TransactionHandle} {m : Mutation} {s s' : Store}
    (h : Changed transaction m s s') : SameFrame s s' := by
  rcases h with ⟨_, _, hsees, _, rfl⟩
  cases transaction with
  | none => exact ⟨rfl, rfl, rfl, rfl⟩
  | some t =>
    rcases hsees with ⟨r, hr, _⟩
    rw [installed_some hr]
    exact ⟨rfl, rfl, rfl, rfl⟩

/-- A change leaves the records of all other transactions as they are. -/
theorem Changed.others {transaction : Option TransactionHandle} {m : Mutation} {s s' : Store}
    (h : Changed transaction m s s') {t : TransactionHandle} (ht : transaction ≠ some t) :
    s'.record? t = s.record? t := by
  rcases h with ⟨_, _, hsees, _, rfl⟩
  cases transaction with
  | none => rfl
  | some t' =>
    rcases hsees with ⟨r, hr, _⟩
    rw [installed_some hr, record?_insert, if_neg (fun heq => ht (congrArg some heq))]

/-- A change is made as a whole to the trees that are seen; or the call has only looked, because it
    sees nothing or because the change does not apply. -/
theorem mutate_ends (transaction : Option TransactionHandle) (m : Mutation) (s : Store) :
    Ends (mutate transaction m) s
      (fun _ s' => ∃ s₁, Looked transaction s s₁ ∧ Changed transaction m s₁ s')
      (fun e s' => Looked transaction s s' ∧
        (s'.Blind transaction ∧ e = s.viewError transaction ∨
          ∃ h, s'.Sees transaction h ∧ m.apply s'.clock.now h = .error e)) := by
  unfold mutate
  refine (view_ends transaction s).bind ?_ ?_
  · intro h s₁ hstep
    rcases hstep with ⟨hlook, hsees⟩
    refine (readClock_ends transaction s₁).bind ?_ (fun _ _ h => h.elim)
    intro now s₂ hstep
    rcases hstep with ⟨hlook₂, htransactions, _, rfl⟩
    -- Time passes before the change is made, but the trees are still those that were seen.
    have hsees₂ : s₂.Sees transaction h := by
      cases transaction with
      | none => exact hlook₂.hives.trans hsees
      | some t =>
        rcases hsees with ⟨r, hr, hrest⟩
        exact ⟨r, by rw [record?, htransactions]; exact hr, hrest⟩
    cases happly : m.apply s₂.clock.now h with
    | error e => exact ends_throw ⟨hlook.trans hlook₂, Or.inr ⟨h, hsees₂, happly⟩⟩
    | ok changed =>
      refine (install_ends transaction changed m s₂).mono ?_ (fun _ _ h => h.elim)
      intro _ s' hsame
      subst hsame
      exact ⟨s₂, hlook.trans hlook₂, h, changed, hsees₂, happly, rfl⟩
  · intro e s' hstep
    rcases hstep with ⟨hlook, hblind, rfl⟩
    exact ⟨hlook, Or.inl ⟨hblind, rfl⟩⟩

end Store

end TransactionalRegistry
