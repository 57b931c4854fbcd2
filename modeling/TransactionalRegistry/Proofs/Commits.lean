import TransactionalRegistry.Proofs.Snapshots

/-!
# Commits that nothing interferes with

A commit replays the changes of a transaction on the live trees. If those are still what the
transaction saw first, every change applies once more, as it did to the private copy, and the live
trees become that copy.

## Theorems

* `Account.Describes.replay`: On the trees that were seen first, the changes make the private copy.
* `commit_installs_private_copy`: A commit makes the private copy the live trees.
-/

namespace TransactionalRegistry

open Store

/-- On live trees that are still what the transaction saw first, its changes make its private copy;
    if it has not looked, they leave the live trees as they are. -/
theorem Account.Describes.replay {account : Account} {r : TransactionRecord}
    (h : account.Describes r) {live : Hives}
    (hbase : ∀ base, account.base = some base → live.timeless = base.timeless) :
    Mutation.replay 0 live.timeless r.log = .ok (r.workspace.getD live).timeless := by
  cases h with
  | untouched _ _ hnone hlog =>
    rw [hlog, hnone]
    rfl
  | @working base workspace hsome hcopy _ hreplay =>
    rw [hbase base hsome, hreplay, hcopy]
    rfl

/-- A transaction that is active and in time cannot be refused as one that has ended. -/
theorem Store.Undecidable.not_in_time {t : TransactionHandle} {r : TransactionRecord}
    {e : NativeError} {s s' : Store} (h : Undecidable t e s s') (hr : s.record? t = some r)
    (hactive : r.state = .active) :
    ¬ ∀ deadline, r.deadline = some deadline → s.clock.read.now < deadline := by
  intro hin_time
  rcases h.expired hr hactive with ⟨deadline, hdeadline, hdue⟩
  -- The deadline is compared with the first time that the clock tells.
  have hread : s'.clock.now ≤ s.clock.read.now := by
    rcases h.1.clock with hclock | hclock
    · rw [hclock]
      exact s.clock.le_read
    · exact Nat.le_of_eq (congrArg Clock.now hclock)
  exact absurd (hin_time deadline hdeadline) (Nat.not_lt_of_le (Nat.le_trans hdue hread))

/-- After every run, the commit of a transaction that is active and in time succeeds if the live
    trees are, up to times, still what they were when the transaction first looked at them. It makes
    the private copy of the transaction the live trees, up to times; a transaction without one
    leaves the live trees as they are. -/
theorem commit_installs_private_copy (clock : Clock) (actions : List Action)
    {t : TransactionHandle} {r : TransactionRecord}
    (hr : (Chronicle.run clock actions).store.record? t = some r) (hactive : r.state = .active)
    (hin_time : ∀ deadline, r.deadline = some deadline →
      (Chronicle.run clock actions).store.clock.read.now < deadline)
    (hbase : ∀ base, ((Chronicle.run clock actions).history.accounts t).base = some base →
      (Chronicle.run clock actions).store.hives.timeless = base.timeless) :
    ∃ s', Store.perform (.commitTransaction t) (Chronicle.run clock actions).store = .ok () s' ∧
      s'.hives.timeless =
        (r.workspace.getD (Chronicle.run clock actions).store.hives).timeless := by
  have hdescribes := Chronicle.run_snapshotted clock actions t r hr hactive
  have hreplay := hdescribes.replay hbase
  have hends := commitTransaction_ends t (Chronicle.run clock actions).store
  unfold Ends at hends
  change ∃ s', commitTransaction t (Chronicle.run clock actions).store = .ok () s' ∧ _
  cases hcommit : commitTransaction t (Chronicle.run clock actions).store with
  | ok _ s' =>
    rw [hcommit] at hends
    rcases hends with ⟨s₁, r', hchecked, hsettled, hlive⟩
    refine ⟨s', rfl, ?_⟩
    rw [hsettled.eq_of_checked hchecked hr] at hlive
    rw [Mutation.replay_timeless s'.clock.now, hlive] at hreplay
    exact Except.ok.inj hreplay
  | error e s' =>
    rw [hcommit] at hends
    rcases hends with hundecidable | ⟨_, _, s₁, r', e', hchecked, hdiscarded, hconflict⟩
    · exact absurd hin_time (hundecidable.not_in_time hr hactive)
    · -- A conflict would be one for the trees that the transaction saw first, too.
      rw [hdiscarded.eq_of_checked hchecked hr] at hconflict
      rw [Mutation.replay_timeless s'.clock.now, hconflict] at hreplay
      exact absurd hreplay (by simp [Except.map])

/-- A transaction with a deadline creates two keys, renames one of them and writes a value. -/
def createRenameAndWrite : List Action :=
  [.call (.createTransaction 1000 none),
   .call (.createKey RootKey.currentUser.handle "Draft\\Part" .all (some ⟨0x1000⟩)),
   .call (.renameKey RootKey.currentUser.handle "Draft" "Final" (some ⟨0x1000⟩)),
   .call (.setValue RootKey.currentUser.handle "Pages" (.ofKind .dword [7, 0, 0, 0])
     (some ⟨0x1000⟩))]

theorem commit_of_createRenameAndWrite :
    ∃ r s', (Chronicle.run ⟨0, [5, 5, 5]⟩ createRenameAndWrite).store.record? ⟨0x1000⟩ = some r ∧
      r.state = .active ∧ r.deadline.isSome ∧
      Store.perform (.commitTransaction ⟨0x1000⟩)
        (Chronicle.run ⟨0, [5, 5, 5]⟩ createRenameAndWrite).store = .ok () s' ∧
      s'.hives.contains ⟨.currentUser, ⟨["Final", "Part"]⟩⟩ = true := by
  have hcommits := commit_installs_private_copy ⟨0, [5, 5, 5]⟩ createRenameAndWrite
    (t := ⟨0x1000⟩) rfl rfl
    (by
      intro deadline hdeadline
      cases hdeadline
      decide +kernel)
    (by
      intro base hbase
      cases hbase
      rfl)
  rcases hcommits with ⟨s', hcommit, hlive⟩
  refine ⟨_, s', rfl, rfl, rfl, hcommit, ?_⟩
  rw [← Hives.contains_timeless, hlive]
  decide +kernel

end TransactionalRegistry
