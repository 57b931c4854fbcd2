import TransactionalRegistry.Proofs.Snapshots
import TransactionalRegistry.Proofs.Views

/-!
# Refused calls

A call on a key goes through several checks, and it looks at the trees between them; time may pass
before each look, so the deadline of its transaction may come in the middle of the call. Wherever it
is refused, it has done nothing but look. What a look may leave behind concerns the transaction that
the call ran in and no other: that transaction is found overdue and rolled back, or it takes its
private copy, which is the live trees as they are, with no change in it.

So nothing is there afterwards to be seen that was not to be seen before, through any transaction or
none. A key that could not be created is not there, and neither is any key on the way to it; a key
that could not be renamed still has its name.

## Main definitions

* `TransactionRecord.Refused`: What a refused call may do to the transaction that it ran in.

## Theorems

* `Store.Looked.views`: What is to be seen after a look was to be seen before it.
* `Store.Observed.refused`: What a look does, as a refused call leaves it.
* `refused_call_changes_nothing`: A call on a key that fails changes nothing, after every run.
-/

namespace TransactionalRegistry

open Store

/-- What a refused call, over by the time `now`, may do to the transaction that it ran in: nothing,
    find it overdue, or let it take an unchanged copy of the live trees. -/
inductive TransactionRecord.Refused (live : Hives) (now : Time) (r : TransactionRecord) :
    TransactionRecord → Prop
  | same : Refused live now r r
  | expired (deadline : Time) : r.state = .active → r.deadline = some deadline → deadline ≤ now →
      Refused live now r r.discarded
  | copied : r.state = .active → r.workspace = none → r.log = [] →
      Refused live now r { r with workspace := some live }

namespace Store

variable {s s' : Store} {transaction : Option TransactionHandle}

/-- What is to be seen after a look, through any transaction or none, was to be seen before it. -/
theorem Looked.views (hlook : Looked transaction s s') (through : Option TransactionHandle)
    {h : Hives} (hview : s'.viewOf through = some h) : s.viewOf through = some h := by
  cases through with
  | none => rw [viewOf, ← hlook.hives, ← viewOf, hview]
  | some t =>
    cases hr' : s'.record? t with
    | none => exact absurd hview (by simp [viewOf, hr'])
    | some r' =>
      obtain ⟨r, hr, hrecord⟩ := hlook.origin hr'
      rw [viewOf, hr', Option.bind_some, hlook.hives] at hview
      rw [viewOf, hr, Option.bind_some]
      cases hrecord with
      | same => exact hview
      | expired =>
        rw [if_neg (by simp [TransactionRecord.discarded])] at hview
        exact absurd hview (by simp)
      | copied hactive hnone =>
        -- The copy shows what a first look was to show.
        rw [if_pos hactive, Option.getD_some] at hview
        rw [if_pos hactive, hnone, Option.getD_none]
        exact hview

/-- A transaction that has no private copy has no changes. -/
def Untouched (s : Store) : Prop :=
  ∀ t r, s.record? t = some r → r.state = .active → r.workspace = none → r.log = []

theorem Looked.refused (hlook : Looked transaction s s') (huntouched : s.Untouched)
    (t : TransactionHandle) :
    (s.record? t = none ∧ s'.record? t = none) ∨
      ∃ r r', s.record? t = some r ∧ s'.record? t = some r' ∧
        r.Refused s.hives s'.clock.now r' := by
  cases hr : s.record? t with
  | none => exact Or.inl ⟨rfl, hlook.unknown t hr⟩
  | some r =>
    obtain ⟨r', hr', hrecord⟩ := hlook.known t r hr
    refine Or.inr ⟨r, r', rfl, hr', ?_⟩
    cases hrecord with
    | same => exact .same
    | expired deadline hactive hdeadline hdue => exact .expired deadline hactive hdeadline hdue
    | copied hactive hnone => exact .copied hactive hnone (huntouched t r hr hactive hnone)

/-- The transaction that a call looks through is the one that it runs in, if any. -/
theorem Looked.others_of_lookedThrough {call : Call} (hlook : Looked (s.lookedThrough call) s s')
    {t : TransactionHandle} (ht : s.transactionOf call ≠ some t) :
    s'.record? t = s.record? t := by
  refine hlook.others t (fun hthrough => ?_)
  unfold lookedThrough at hthrough
  by_cases hlooks : s.looks call = true
  · rw [if_pos hlooks] at hthrough
    exact ht hthrough
  · rw [if_neg hlooks] at hthrough
    exact absurd hthrough (by simp)

end Store

theorem Chronicle.run_untouched (clock : Clock) (actions : List Action) :
    (run clock actions).store.Untouched := by
  intro t r hr hactive hnone
  cases run_snapshotted clock actions t r hr hactive with
  | untouched _ _ _ hlog => exact hlog
  | working _ hworkspace _ _ => exact absurd hnone (by rw [hworkspace]; simp)

/-- After every run, let a call on a key be made, with any arguments, and fail, for whatever reason
    and at whatever point. The live trees are as they were, times of last write included, and so are
    the open handles, the counter of handles and the protected places. All transactions but the one
    that the call ran in are as they were; that one is too, unless it was found overdue and rolled
    back, or has taken its private copy, unchanged. And whatever is to be seen afterwards, through
    any transaction or none, was to be seen before. -/
theorem refused_call_changes_nothing (clock : Clock) (actions : List Action) (call : Call)
    (hkey : call.key?.isSome) {e : NativeError}
    (hrefused : outcome (perform call) (Chronicle.run clock actions).store = .error e) :
    let s := (Chronicle.run clock actions).store
    let s' := s.after (.call call)
    s'.hives = s.hives ∧ s'.keys = s.keys ∧ s'.nextHandle = s.nextHandle ∧
      s'.protectedPlaces = s.protectedPlaces ∧
      (∀ t, s.transactionOf call ≠ some t → s'.record? t = s.record? t) ∧
      (∀ t, (s.record? t = none ∧ s'.record? t = none) ∨
        ∃ r r', s.record? t = some r ∧ s'.record? t = some r' ∧
          r.Refused s.hives s'.clock.now r') ∧
      ∀ transaction h, s'.viewOf transaction = some h → s.viewOf transaction = some h := by
  intro s s'
  have hlook : Looked (s.lookedThrough call) s s' :=
    ((perform_ends call hkey s).error (eq_of_outcome_error hrefused)).1
  exact ⟨hlook.hives, hlook.keys, hlook.nextHandle, hlook.protectedPlaces,
    fun _ ht => hlook.others_of_lookedThrough ht,
    hlook.refused (Chronicle.run_untouched clock actions), fun through _ hview =>
      hlook.views through hview⟩

/-- A transaction is opened, and a place is protected. -/
def openAndProtect : List Action :=
  [.call (.createTransaction 0 none), .protect ⟨.currentUser, ⟨["Software"]⟩⟩]

/-- A key below a protected place cannot be created in the transaction, and the protected place
    itself, which is missing as well, is not created on the way there. -/
theorem nothing_created_of_openAndProtect :
    let s := (Chronicle.run ⟨0, []⟩ openAndProtect).store
    let call : Call :=
      .createKey RootKey.currentUser.handle "Software\\Vendor" .all (some ⟨0x1000⟩)
    outcome (perform call) s = .error .accessDenied ∧
      ∀ h, (s.after (.call call)).viewOf (some ⟨0x1000⟩) = some h →
        h.contains ⟨.currentUser, ⟨["Software"]⟩⟩ = false := by
  intro s call
  have hrefused : outcome (perform call) s = .error .accessDenied := rfl
  have h := refused_call_changes_nothing ⟨0, []⟩ openAndProtect call rfl hrefused
  refine ⟨hrefused, fun trees hview => ?_⟩
  have hbefore := h.2.2.2.2.2.2 (some ⟨0x1000⟩) trees hview
  rw [← Option.some.inj hbefore]
  rfl

end TransactionalRegistry
