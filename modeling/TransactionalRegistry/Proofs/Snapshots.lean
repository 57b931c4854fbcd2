import TransactionalRegistry.Proofs.History
import TransactionalRegistry.Proofs.Timeless
import TransactionalRegistry.Proofs.Views

/-!
# What a transaction sees

An active transaction that has not looked at the trees has no private copy and no changes. One that
has looked has a private copy, and that copy is the live trees as they were at the first look with
the changes of its own calls made to them in order. What anyone else does to the live trees after
that look plays no part in it.

All that the transaction reads is read from that copy. As long as none of its own calls changes
something, it reads the same, whatever others change or commit in the meantime.

## Main definitions

* `Account.Describes`: An active transaction is as its account says.
* `Chronicle.Snapshotted`: Every active transaction is.
* `Store.Disturbs`: An action changes something in a transaction, or puts a new one in its place.
* `Store.LeftAlone`: Some actions do nothing of the kind.
* `Store.HoldsCopy`: A transaction has a certain private copy, unless it has ended.

## Theorems

* `Snapshotted.move`: A move keeps every active transaction as its account says.
* `Chronicle.run_aligned`, `Chronicle.run_snapshotted`: What holds after every run.
* `active_sees_snapshot_with_own_changes`: What an active transaction sees, after every run.
* `Store.HoldsCopy.continued`: A private copy is kept as long as the transaction is left alone.
* `reads_are_answered_from_the_private_copy`: What its calls read, whatever others have done.
-/

namespace TransactionalRegistry

open Store

/-- An active transaction is as its account says: it has not looked and has done nothing; or its
    private copy is what it saw first with the changes of its calls made to it, and they are the
    ones that it keeps for its commit. -/
inductive Account.Describes (account : Account) (r : TransactionRecord) : Prop
  | untouched : account.base = none → account.changes = [] → r.workspace = none → r.log = [] →
      Describes account r
  | working {base workspace : Hives} : account.base = some base → r.workspace = some workspace →
      r.log = account.changes → Mutation.replay 0 base.timeless r.log = .ok workspace.timeless →
      Describes account r

/-- Every active transaction is as its account says. -/
def Chronicle.Snapshotted (c : Chronicle) : Prop :=
  ∀ t r, c.store.record? t = some r → r.state = .active → (c.history.accounts t).Describes r

namespace Account.Describes

variable {account : Account} {r : TransactionRecord}

theorem log_eq (h : account.Describes r) : r.log = account.changes := by
  cases h with
  | untouched _ hchanges _ hlog => rw [hchanges, hlog]
  | working _ _ hlog _ => exact hlog

/-- A transaction that has a private copy has looked before, so another look leaves its account as
    it is. -/
theorem look_again (h : account.Describes r) {workspace : Hives}
    (hworkspace : r.workspace = some workspace) (live : Hives) :
    Describes { account with base := account.base.or (some live) } r := by
  cases h with
  | untouched _ _ hnone _ => exact absurd hnone (by rw [hworkspace]; simp)
  | working hbase hcopy hlog hreplay =>
    refine .working ?_ hcopy hlog hreplay
    rw [hbase]
    rfl

/-- The first look takes a copy of the live trees. -/
theorem look_first (h : account.Describes r) (hworkspace : r.workspace = none) (live : Hives) :
    Describes { account with base := account.base.or (some live) }
      { r with workspace := some live } := by
  cases h with
  | working _ hcopy _ _ => exact absurd hworkspace (by rw [hcopy]; simp)
  | untouched hbase hchanges _ hlog =>
    have hfirst : account.base.or (some live) = some live := by
      rw [hbase]
      rfl
    refine .working hfirst rfl (by rw [hchanges, hlog]) ?_
    rw [hlog]
    rfl

/-- A change that is made to the private copy is made to the account as well. -/
theorem change (h : account.Describes r) {now : Time} {workspace changed : Hives} {m : Mutation}
    (hworkspace : r.workspace = some workspace) (happly : m.apply now workspace = .ok changed) :
    Describes { account with changes := account.changes ++ [m] }
      { r with workspace := some changed, log := r.log ++ [m] } := by
  cases h with
  | untouched _ _ hnone _ => exact absurd hnone (by rw [hworkspace]; simp)
  | @working base copy hbase hcopy hlog hreplay =>
    rw [hworkspace, Option.some.injEq] at hcopy
    subst hcopy
    refine .working hbase rfl (by rw [hlog]) ?_
    -- The change applies to the copy without its times as it does to the copy.
    have hlast : Mutation.replay 0 workspace.timeless [m] = .ok changed.timeless := by
      rw [Mutation.replay, Mutation.apply_timeless now, happly]
      rfl
    rw [Mutation.replay_append, hreplay]
    exact hlast

end Account.Describes

/-! ## Moves -/

namespace Chronicle.Snapshotted

variable {s s' : Store} {g : History}

theorem rest (h : Snapshotted ⟨s, g⟩) (hrests : s.Rests s') : Snapshotted ⟨s', g⟩ := by
  intro t r' hr' hactive
  -- A transaction that was rolled back is no longer active.
  rcases hrests.records t r' hr' with ⟨r, hr, hsame | ⟨_, hended⟩⟩
  · rw [hsame] at hactive ⊢
    exact h t r hr hactive
  · rw [hended] at hactive
    exact absurd hactive (by simp [TransactionRecord.discarded])

theorem look {transaction : Option TransactionHandle} (h : Snapshotted ⟨s, g⟩)
    (hobs : Observed transaction s s') : Snapshotted ⟨s', g.looked transaction s.hives⟩ := by
  intro t' r' hr' hactive
  rcases hobs with ⟨hlook, hseen⟩
  by_cases ht : transaction = some t'
  · -- The transaction that is looked through has a private copy by now.
    subst ht
    have haccount : (g.looked (some t') s.hives).accounts t'
        = { g.accounts t' with base := (g.accounts t').base.or (some s.hives) } :=
      if_pos rfl
    have hcopy : r'.workspace.isSome := by
      rcases hseen with hblind | ⟨trees, r'', hr'', _, hworkspace⟩
      · exact absurd hactive (hblind r' hr')
      · have heq := hr'.symm.trans hr''
        rw [Option.some.injEq] at heq
        rw [heq, hworkspace]
        rfl
    rcases hlook.origin hr' with ⟨r, hr, hrecord⟩
    change ((g.looked (some t') s.hives).accounts t').Describes r'
    rw [haccount]
    cases hrecord with
    | same =>
      rcases Option.isSome_iff_exists.mp hcopy with ⟨workspace, hworkspace⟩
      exact (h t' _ hr hactive).look_again hworkspace s.hives
    | expired => exact absurd hactive (by simp [TransactionRecord.discarded])
    | copied hwas hnone => exact (h t' r hr hwas).look_first hnone s.hives
  · have haccount : (g.looked transaction s.hives).accounts t' = g.accounts t' := by
      cases transaction with
      | none => rfl
      | some t => exact if_neg (fun heq => ht (congrArg some heq))
    have hsame : s.record? t' = some r' := by
      rw [← hlook.others t' ht]
      exact hr'
    change ((g.looked transaction s.hives).accounts t').Describes r'
    rw [haccount]
    exact h t' r' hsame hactive

theorem change {transaction : Option TransactionHandle} {m : Mutation} (h : Snapshotted ⟨s, g⟩)
    (hchanged : Changed transaction m s s') : Snapshotted ⟨s', g.changed transaction m⟩ := by
  rcases hchanged with ⟨trees, changed, hsees, happly, rfl⟩
  cases transaction with
  | none =>
    -- A change of the live trees leaves all private copies alone.
    intro t r hr hactive
    exact h t r hr hactive
  | some t =>
    rcases hsees with ⟨r, hr, hwas, hworkspace⟩
    rw [installed_some hr]
    intro t' r' hr' hactive
    have haccount : (g.changed (some t) m).accounts t' = if t = t' then
        { g.accounts t' with changes := (g.accounts t').changes ++ [m] } else g.accounts t' := rfl
    change ((g.changed (some t) m).accounts t').Describes r'
    rw [record?_insert] at hr'
    rw [haccount]
    by_cases ht : t = t'
    · subst ht
      rw [if_pos rfl, Option.some.injEq] at hr'
      rw [if_pos rfl, ← hr']
      exact (h t r hr hwas).change hworkspace happly
    · rw [if_neg ht] at hr' ⊢
      exact h t' r' hr' hactive

theorem opened {timeoutMillis : UInt32} {description : Option String} {t : TransactionHandle}
    (h : Snapshotted ⟨s, g⟩) (hcreated : Created timeoutMillis description t s s') :
    Snapshotted ⟨s', g.opened t⟩ := by
  intro t' r' hr' hactive
  have haccount : (g.opened t).accounts t'
      = if t = t' then ⟨g.created, none, []⟩ else g.accounts t' := rfl
  change ((g.opened t).accounts t').Describes r'
  rw [hcreated.record] at hr'
  rw [haccount]
  by_cases ht : t = t'
  · rw [if_pos ht, Option.some.injEq] at hr'
    rw [if_pos ht, ← hr']
    exact .untouched rfl rfl rfl rfl
  · rw [if_neg ht] at hr' ⊢
    exact h t' r' hr' hactive

theorem committed {t : TransactionHandle} {r : TransactionRecord} (h : Snapshotted ⟨s, g⟩)
    (hsettled : Decided t r r.settled s s') : Snapshotted ⟨s', g.committed t⟩ := by
  intro t' r' hr' hactive
  by_cases ht : t = t'
  · subst ht
    rw [hsettled.decided, Option.some.injEq] at hr'
    rw [← hr'] at hactive
    exact absurd hactive (by simp [TransactionRecord.settled])
  · rw [hsettled.others t' ht] at hr'
    exact h t' r' hr' hactive

/-- A move keeps every active transaction as its account says. -/
theorem move {c c' : Chronicle} (hmove : Moves c c') (h : c.Snapshotted) : c'.Snapshotted := by
  induction hmove with
  | rest hrests => exact h.rest hrests
  | look _ hobs => exact h.look hobs
  | change _ _ hchanged => exact h.change hchanged
  | opened hcreated => exact h.opened hcreated
  | committed hsettled _ => exact h.committed hsettled
  | trans _ _ ih ih' => exact ih' (ih h)

end Chronicle.Snapshotted

/-! ## Runs -/

namespace Chronicle

/-- A move keeps the counter of handles aligned. -/
theorem aligned_move {c c' : Chronicle} (hmove : Moves c c') (h : c.store.Aligned) :
    c'.store.Aligned := by
  induction hmove with
  | rest hrests => exact h.step hrests.nextHandle
  | look _ hobs => exact h.step (Or.inl hobs.1.nextHandle)
  | change _ _ hchanged => exact h.step (Or.inl hchanged.frame.nextHandle)
  | opened hcreated => exact h.step (Or.inr hcreated.nextHandle)
  | committed hsettled _ => exact h.step (Or.inl hsettled.nextHandle)
  | trans _ _ ih ih' => exact ih' (ih h)

/-- What holds of a new store and is kept by every move holds after every run. -/
theorem continued_moves {c : Chronicle} (haligned : c.store.Aligned) {P : Chronicle → Prop}
    (hmove : ∀ c c', Moves c c' → P c → P c') (h : P c) (actions : List Action) :
    P (c.continued actions) := by
  -- Every action is a move, as long as the counter of handles is aligned.
  induction actions generalizing c with
  | nil => exact h
  | cons action rest ih =>
    have hstep := step_moves haligned action
    exact ih (aligned_move hstep haligned) (hmove _ _ hstep h)

theorem fresh_aligned (clock : Clock) : (fresh clock).store.Aligned := by
  change firstHandle.toNat % 4 = 0
  decide

theorem run_aligned (clock : Clock) (actions : List Action) : (run clock actions).store.Aligned :=
  continued_moves (fresh_aligned clock) (fun _ _ => aligned_move) (fresh_aligned clock) actions

theorem run_snapshotted (clock : Clock) (actions : List Action) :
    (run clock actions).Snapshotted := by
  refine continued_moves (fresh_aligned clock) (fun _ _ => Snapshotted.move) ?_ actions
  intro t r hr
  exact absurd hr (by simp [fresh, Store.fresh, record?, Table.find?])

end Chronicle

/-- An action keeps the counter of handles aligned, whatever was done before. -/
theorem Store.aligned_after {s : Store} (haligned : s.Aligned) (action : Action) :
    (s.after action).Aligned :=
  Chronicle.aligned_move
    (Chronicle.step_moves (c := ⟨s, History.empty⟩) haligned action) haligned

/-- After every run, an active transaction has not looked and has neither a copy nor changes, or its
    private copy is the live trees as they were at its first look with the changes that it keeps
    made to them, all of which apply. Those changes are the ones that its own calls have made. -/
theorem active_sees_snapshot_with_own_changes (clock : Clock) (actions : List Action)
    {t : TransactionHandle} {r : TransactionRecord}
    (hr : (Chronicle.run clock actions).store.record? t = some r) (hactive : r.state = .active) :
    r.log = ((Chronicle.run clock actions).history.accounts t).changes ∧
      (((Chronicle.run clock actions).history.accounts t).base = none ∧ r.workspace = none ∧
          r.log = [] ∨
        ∃ base workspace, ((Chronicle.run clock actions).history.accounts t).base = some base ∧
          r.workspace = some workspace ∧
          ∀ now, (Mutation.replay now base r.log).map Hives.timeless = .ok workspace.timeless) := by
  have hdescribes := Chronicle.run_snapshotted clock actions t r hr hactive
  refine ⟨hdescribes.log_eq, ?_⟩
  cases hdescribes with
  | untouched hbase _ hworkspace hlog => exact Or.inl ⟨hbase, hworkspace, hlog⟩
  | @working base workspace hbase hworkspace _ hreplay =>
    refine Or.inr ⟨base, workspace, hbase, hworkspace, ?_⟩
    intro now
    rw [← Mutation.replay_timeless]
    exact hreplay

/-- A transaction creates a key, and then someone else creates another one. -/
def createInsideThenOutside : List Action :=
  [.call (.createTransaction 0 none),
   .call (.createKey RootKey.currentUser.handle "Inside" .all (some ⟨0x1000⟩)),
   .call (.createKey RootKey.currentUser.handle "Outside" .all none)]

theorem sees_snapshot_of_createInsideThenOutside :
    ∃ r, (Chronicle.run ⟨0, []⟩ createInsideThenOutside).store.record? ⟨0x1000⟩ = some r ∧
      r.state = .active ∧ r.log = [.createKey ⟨.currentUser, ⟨["Inside"]⟩⟩] ∧
      ∃ base workspace, r.workspace = some workspace ∧
        ∀ now, (Mutation.replay now base r.log).map Hives.timeless = .ok workspace.timeless := by
  refine ⟨_, rfl, rfl, rfl, ?_⟩
  have h := active_sees_snapshot_with_own_changes ⟨0, []⟩ createInsideThenOutside
    (t := ⟨0x1000⟩) rfl rfl
  rcases h.2 with ⟨_, hnone, _⟩ | ⟨base, workspace, _, hworkspace, hreplay⟩
  · exact absurd hnone (by simp)
  · exact ⟨base, workspace, hworkspace, hreplay⟩

/-! ## What a transaction reads -/

namespace Store

/-- A call that has ended with `result` has changed something in a transaction, or has opened a new
    one under its handle. -/
def Disturbed (t : TransactionHandle) (s : Store) (call : Call) :
    Except NativeError call.Answer → Prop
  | .ok answer => (s.changeOf call answer).isSome ∧ s.transactionOf call = some t ∨
      call.created? answer = some t
  | .error _ => False

/-- An action changes something in a transaction, or puts a new one in its place. -/
def Disturbs (t : TransactionHandle) (s : Store) : Action → Prop
  | .call call => s.Disturbed t call (outcome (perform call) s)
  | _ => False

/-- Some actions leave a transaction alone: it may look and it may end, but it changes nothing. -/
def LeftAlone (t : TransactionHandle) : Store → List Action → Prop
  | _, [] => True
  | s, action :: rest => ¬ s.Disturbs t action ∧ (s.after action).LeftAlone t rest

instance (t : TransactionHandle) (s : Store) : (action : Action) → Decidable (s.Disturbs t action)
  | .call call =>
    match h : outcome (perform call) s with
    | .ok answer => decidable_of_iff
        ((s.changeOf call answer).isSome ∧ s.transactionOf call = some t ∨
          call.created? answer = some t) (by rw [Disturbs, h]; rfl)
    | .error e => .isFalse (by rw [Disturbs, h]; exact id)
  | .ask _ => .isFalse id
  | .protect _ => .isFalse id
  | .pass _ => .isFalse id
  | .note _ => .isFalse id

instance LeftAlone.decidable (t : TransactionHandle) (s : Store) :
    (actions : List Action) → Decidable (s.LeftAlone t actions)
  | [] => .isTrue trivial
  | action :: rest =>
    have := LeftAlone.decidable t (s.after action) rest
    inferInstanceAs (Decidable (¬ s.Disturbs t action ∧ (s.after action).LeftAlone t rest))

/-- A transaction has `workspace` as its private copy, unless it has ended. -/
def HoldsCopy (t : TransactionHandle) (workspace : Hives) (s : Store) : Prop :=
  ∀ r, s.record? t = some r → r.state = .active → r.workspace = some workspace

namespace HoldsCopy

variable {t : TransactionHandle} {workspace : Hives} {s s' : Store}

theorem of_record (h : s.HoldsCopy t workspace) (hsame : s'.record? t = s.record? t) :
    s'.HoldsCopy t workspace :=
  fun r hr => h r (hsame.symm.trans hr)

/-- A look takes a private copy only where there is none. -/
theorem looked {transaction : Option TransactionHandle} (h : s.HoldsCopy t workspace)
    (hlook : Looked transaction s s') : s'.HoldsCopy t workspace := by
  intro r' hr' hactive
  rcases hlook.origin hr' with ⟨r, hr, hrecord⟩
  cases hrecord with
  | same => exact h r' hr hactive
  | expired => exact absurd hactive (by simp [TransactionRecord.discarded])
  | copied hwas hnone => exact absurd (h r hr hwas) (by rw [hnone]; simp)

theorem decided {t' : TransactionHandle} {r record : TransactionRecord}
    (h : s.HoldsCopy t workspace) (hdecided : Decided t' r record s s')
    (hended : record.state ≠ .active) : s'.HoldsCopy t workspace := by
  intro r' hr' hactive
  by_cases ht : t' = t
  · subst ht
    rw [hdecided.decided, Option.some.injEq] at hr'
    exact absurd hactive (hr' ▸ hended)
  · rw [hdecided.others t ht] at hr'
    exact h r' hr' hactive

/-- A call on a transaction ends at most this one, unless it opens another under its handle. -/
theorem managed {created : Option TransactionHandle} (h : s.HoldsCopy t workspace)
    (hmanaged : Managed s created s') (hother : created ≠ some t) : s'.HoldsCopy t workspace := by
  cases hmanaged with
  | looked hlook => exact h.looked hlook
  | created hcreated =>
    refine h.of_record ?_
    rw [hcreated.record, if_neg (fun ht => hother (congrArg some ht))]
  | settled hchecked hsettled _ =>
    exact (h.looked hchecked.look).decided hsettled (by simp [TransactionRecord.settled])
  | discarded hchecked hdiscarded _ =>
    exact (h.looked hchecked.look).decided hdiscarded (by simp [TransactionRecord.discarded])
  | @closed t' _ _ _ _ _ _ htransactions =>
    intro r' hr' hactive
    rw [record?, htransactions, Table.find?_erase] at hr'
    by_cases ht : t' = t
    · rw [if_pos ht] at hr'
      exact absurd hr' (by simp)
    · rw [if_neg ht] at hr'
      exact h r' hr' hactive

/-- A call on a key looks, and the change that it makes, if any, is made in another transaction. -/
theorem performed {call : Call} {answer : call.Answer} (h : s.HoldsCopy t workspace)
    (hperformed : Performed (s.lookedThrough call) (s.changeOf call answer) s s')
    (hlooks : (s.changeOf call answer).isSome → s.looks call = true)
    (halone : ¬ s.Disturbed t call (.ok answer)) : s'.HoldsCopy t workspace := by
  rcases hperformed with ⟨s₁, s₂, hobs, hchange, hsame⟩
  have hlooked := h.looked hobs.1
  have hend : s'.record? t = s₂.record? t := by rw [record?, record?, hsame.transactions]
  refine of_record ?_ hend
  rcases hchange with ⟨_, rfl⟩ | ⟨m, hm, hchanged⟩
  · exact hlooked
  · -- A change in this transaction would disturb it.
    refine hlooked.of_record (hchanged.others (fun hthrough => halone (Or.inl ?_)))
    rw [lookedThrough, if_pos (hlooks (by rw [hm]; rfl))] at hthrough
    exact ⟨by rw [hm]; rfl, hthrough⟩

theorem after (haligned : s.Aligned) (h : s.HoldsCopy t workspace) {action : Action}
    (halone : ¬ s.Disturbs t action) : (s.after action).HoldsCopy t workspace := by
  cases action with
  | ask t' =>
    have hchecked : Checked t' s (s.after (.ask t')) :=
      (transactionState?_ends t' s).endState_total
    exact h.looked hchecked.look
  | protect l => exact h
  | pass time => exact h
  | note entry => exact h
  | call call =>
    refine Ends.outcome (P := fun result s' =>
      ¬ s.Disturbed t call result → s'.HoldsCopy t workspace) ?_ halone
    by_cases hkey : call.key?.isSome
    · refine ((perform_ends call hkey s).and (looks_of_changeOf call s)).mono ?_ ?_
      · exact fun answer s' hstep halone => h.performed hstep.1 hstep.2 halone
      · exact fun _ _ hstep _ => h.looked hstep.1.1
    · rw [Option.not_isSome_iff_eq_none] at hkey
      refine (perform_manages haligned call hkey).mono ?_ ?_
      · exact fun answer s' hmanaged halone =>
          h.managed hmanaged (fun hcreated => halone (Or.inr hcreated))
      · exact fun _ _ hmanaged _ => h.managed hmanaged (by simp)

/-- A private copy is kept as long as the transaction is left alone. -/
theorem continued (haligned : s.Aligned) (h : s.HoldsCopy t workspace) (actions : List Action)
    (halone : s.LeftAlone t actions) : (actions.foldl Store.after s).HoldsCopy t workspace := by
  induction actions generalizing s with
  | nil => exact h
  | cons action rest ih =>
    exact ih (aligned_after haligned action) (h.after haligned halone.1) halone.2

/-- The private copy is what is seen, if anything is. -/
theorem eq_of_view (h : s.HoldsCopy t workspace) {trees : Hives}
    (hview : s.viewOf (some t) = some trees) : trees = workspace := by
  cases hr : s.record? t with
  | none => exact absurd hview (by simp [viewOf, hr])
  | some r =>
    rw [viewOf, hr, Option.bind_some] at hview
    by_cases hactive : r.state = .active
    · rw [if_pos hactive, h r hr hactive, Option.getD_some] at hview
      exact (Option.some.inj hview).symm
    · rw [if_neg hactive] at hview
      exact absurd hview (by simp)

end HoldsCopy

end Store

/-- After every run, let an active transaction have a private copy; it is what the transaction has
    seen first, with the changes of its own calls made to it. Then let any actions follow that leave
    the transaction alone, whatever they do to the live trees and to other transactions.

    A look through the transaction still answers that private copy, times of last write included,
    and whatever is read in the transaction is what there is in that copy. A look or a read that
    fails does so for the handle, for its rights or because the transaction has ended, or it tells
    what there is not in the copy. -/
theorem reads_are_answered_from_the_private_copy (clock : Clock) (actions others : List Action)
    {t : TransactionHandle} {r : TransactionRecord} {workspace : Hives}
    (hr : (Chronicle.run clock actions).store.record? t = some r) (hactive : r.state = .active)
    (hworkspace : r.workspace = some workspace)
    (halone : (Chronicle.run clock actions).store.LeftAlone t others) :
    let account := (Chronicle.run clock actions).history.accounts t
    let s := (Chronicle.run clock (actions ++ others)).store
    (∃ base, account.base = some base ∧
      ∀ now, (Mutation.replay now base account.changes).map Hives.timeless =
        .ok workspace.timeless) ∧
    Ends (view (some t)) s (fun trees _ => trees = workspace) (fun e _ => e.Apart) ∧
    ∀ {α : Type} (key : KeyHandle) (k : OpenKey) (access : Access)
      (named : Option TransactionHandle) (read : Node → Except NativeError α),
      s.opened key = some k → named.or k.transaction = some t →
      Ends (withNode key access named read) s
        (fun a _ => ∃ n, workspace.find? k.location = some n ∧ read n = .ok a)
        (fun e _ => e.Apart ∨ Gone workspace k.location e ∨
          ∃ n, workspace.find? k.location = some n ∧ read n = .error e) := by
  intro account s
  have hholds : s.HoldsCopy t workspace := by
    have hstart : (Chronicle.run clock actions).store.HoldsCopy t workspace := by
      intro r' hr' _
      rw [← Option.some.inj (hr.symm.trans hr'), hworkspace]
    have hend := hstart.continued (Chronicle.run_aligned clock actions) others halone
    rwa [← Chronicle.continued_store, ← Chronicle.run_append] at hend
  refine ⟨?_, ?_, ?_⟩
  · cases Chronicle.run_snapshotted clock actions t r hr hactive with
    | untouched _ _ hnone _ => exact absurd hworkspace (by rw [hnone]; simp)
    | @working base copy hbase hcopy hlog hreplay =>
      refine ⟨base, hbase, fun now => ?_⟩
      rw [← Mutation.replay_timeless, ← hlog, hreplay,
        Option.some.inj (hcopy.symm.trans hworkspace)]
  · refine (view_finds (.refl _ s)).mono ?_ (fun _ _ h => h)
    exact fun trees _ hstep => hholds.eq_of_view hstep.2
  · intro α key k access named read hk hin
    -- Whatever is read through the handle is read from what is seen through the transaction.
    refine (withNode_finds key access named read s).mono ?_ ?_
    · rintro a _ ⟨k', trees, n, hk', hview, hn, hread⟩
      obtain rfl : k = k' := Option.some.inj (hk.symm.trans hk')
      rw [hin] at hview
      obtain rfl := hholds.eq_of_view hview
      exact ⟨n, hn, hread⟩
    · rintro e _ (hapart | ⟨k', trees, hk', hview, hmissed⟩)
      · exact Or.inl hapart
      · obtain rfl : k = k' := Option.some.inj (hk.symm.trans hk')
        rw [hin] at hview
        obtain rfl := hholds.eq_of_view hview
        exact Or.inr hmissed

/-- A transaction that has created a key is left alone by someone who creates another one. -/
example : (Chronicle.run ⟨0, []⟩ (createInsideThenOutside.take 2)).store.LeftAlone ⟨0x1000⟩
    (createInsideThenOutside.drop 2) := by
  decide +kernel

end TransactionalRegistry
