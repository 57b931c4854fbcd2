import TransactionalRegistry.Proofs.Commits
import TransactionalRegistry.Proofs.Commuting
import TransactionalRegistry.Proofs.WellNamed

/-!
# Commits that are independent

A commit replays the changes that a transaction has kept, all of them or none. If no change of one
transaction has to do with any of another one, the two may commit in either order: each of them
succeeds or is refused as it would have been by itself, and the live trees end up the same.

The times of last write do depend on the order, since they are those of the commits. So the commits
are compared on the trees without their times, on which the changes are replayed as well, and these
are as well named as the trees that they come from.

## Main definitions

* `Store.InTime`: A transaction is in time for a call.
* `Store.Interchange`: Two commits may be made in either order.

## Theorems

* `Hives.WellNamed.timeless`: Trees stay well named without their times.
* `Store.commit_in_time`: What the commit of an active transaction does that is in time.
* `independent_commits_interchange`: Independent transactions commit in either order.
-/

namespace TransactionalRegistry

/-! ## Trees without their times -/

namespace Node

variable {n m : Node}

/-- The keys of a tree without its times are those of the tree, without theirs. -/
theorem exists_of_holds_timeless (h : n.timeless.Holds m) : ∃ k, n.Holds k ∧ m = k.timeless := by
  generalize hn : n.timeless = start at h
  induction h generalizing n with
  | here start => exact ⟨n, .here n, hn.symm⟩
  | under hchild _ ih =>
    subst hn
    rw [timeless_subKeys] at hchild
    rcases List.mem_map.mp hchild with ⟨⟨key, child⟩, hmem, hpair⟩
    rcases ih (congrArg Prod.snd hpair) with ⟨k, hk, rfl⟩
    exact ⟨k, .under hmem hk, rfl⟩

theorem Tidy.timeless (h : n.Tidy) : n.timeless.Tidy := by
  have hentries : ∀ {motive : String × Node → Prop},
      (∀ entry ∈ n.subKeys, motive (entry.1, entry.2.timeless)) →
        ∀ entry ∈ n.timeless.subKeys, motive entry := by
    intro motive hall entry hentry
    rw [timeless_subKeys] at hentry
    rcases List.mem_map.mp hentry with ⟨old, hold, rfl⟩
    exact hall old hold
  refine ⟨?_, ?_, hentries ?_, ?_, hentries ?_⟩
  · rw [timeless_subKeys, Table.Ordered, List.pairwise_map]
    exact h.subKeys_ordered
  · rw [timeless_values]
    exact h.values_ordered
  · exact fun entry hentry => (timeless_name entry.2).symm ▸ h.subKeys_folded entry hentry
  · rw [timeless_values]
    exact h.values_folded
  · exact fun entry hentry => (timeless_name entry.2).symm ▸ h.subKeys_single entry hentry

theorem WellNamed.timeless (h : n.WellNamed) : n.timeless.WellNamed := by
  intro m hm
  rcases exists_of_holds_timeless hm with ⟨k, hk, rfl⟩
  exact (h k hk).timeless

end Node

theorem Hives.WellNamed.timeless {h : Hives} (hwell : h.WellNamed) : h.timeless.WellNamed := by
  intro root
  rw [get_timeless, Node.timeless_name]
  exact ⟨(hwell root).1.timeless, (hwell root).2⟩

/-! ## Commits -/

namespace Store

/-- A call that looks at the deadline of a transaction first of all finds it in time. -/
def InTime (s : Store) (r : TransactionRecord) : Prop :=
  ∀ deadline, r.deadline = some deadline → s.clock.read.now < deadline

/-- The result of a commit that replays its changes on some trees. -/
def commitResult (trees : Hives) (log : List Mutation) : Except NativeError Unit :=
  if (Mutation.replay 0 trees log).isOk then .ok () else .error .transactionalConflict

variable {s : Store} {t t₁ t₂ : TransactionHandle} {r r₁ r₂ : TransactionRecord}

/-- The commit of an active transaction in time succeeds if its changes apply to the live trees, and
    makes them; if they do not, it is refused and the live trees stay. No other transaction is
    touched. -/
theorem commit_in_time (hr : s.record? t = some r) (hactive : r.state = .active)
    (hin : s.InTime r) :
    outcome (perform (.commitTransaction t)) s = commitResult s.hives.timeless r.log ∧
      (s.after (.call (.commitTransaction t))).hives.timeless =
        afterTrying (Mutation.replay 0 · r.log) s.hives.timeless ∧
      ∀ t', t ≠ t' → (s.after (.call (.commitTransaction t))).record? t' = s.record? t' := by
  have hends := commitTransaction_ends t s
  refine Ends.outcome (P := fun result s' => result = _ ∧ s'.hives.timeless = _ ∧
    ∀ t', t ≠ t' → s'.record? t' = s.record? t') (hends.mono ?_ ?_)
  · rintro _ s' ⟨s₁, r', hchecked, hsettled, hlive⟩
    rw [hsettled.eq_of_checked hchecked hr] at hlive
    have hreplay := Mutation.replay_timeless s'.clock.now s.hives r.log
    rw [hlive] at hreplay
    refine ⟨?_, ?_, fun t' ht => ?_⟩
    · rw [commitResult, hreplay]
      rfl
    · rw [afterTrying, hreplay]
      rfl
    · rw [hsettled.others t' ht, hchecked.look.others t' (fun h => ht (Option.some.inj h))]
  · rintro e s' (hundecidable | ⟨rfl, hhives, s₁, r', e', hchecked, hdiscarded, hconflict⟩)
    · exact absurd hin (hundecidable.not_in_time hr hactive)
    · rw [hdiscarded.eq_of_checked hchecked hr] at hconflict
      have hreplay := Mutation.replay_timeless s'.clock.now s.hives r.log
      rw [hconflict] at hreplay
      refine ⟨?_, ?_, fun t' ht => ?_⟩
      · rw [commitResult, hreplay]
        rfl
      · rw [afterTrying, hreplay, hhives]
        rfl
      · rw [hdiscarded.others t' ht, hchecked.look.others t' (fun h => ht (Option.some.inj h))]

/-- Two commits may be made in either order: each succeeds or is refused for a conflict, whichever
    comes first, and the live trees end up the same, up to times. -/
structure Interchange (t₁ t₂ : TransactionHandle) (s : Store) : Prop where
  first : outcome (perform (.commitTransaction t₁)) s =
    outcome (perform (.commitTransaction t₁)) (s.after (.call (.commitTransaction t₂)))
  second : outcome (perform (.commitTransaction t₂)) (s.after (.call (.commitTransaction t₁))) =
    outcome (perform (.commitTransaction t₂)) s
  first_result : outcome (perform (.commitTransaction t₁)) s ∈
    [.ok (), .error .transactionalConflict]
  second_result : outcome (perform (.commitTransaction t₂)) s ∈
    [.ok (), .error .transactionalConflict]
  hives : ((s.after (.call (.commitTransaction t₁))).after
      (.call (.commitTransaction t₂))).hives.timeless =
    ((s.after (.call (.commitTransaction t₂))).after (.call (.commitTransaction t₁))).hives.timeless

theorem commitResult_mem (trees : Hives) (log : List Mutation) :
    commitResult trees log ∈ [.ok (), .error .transactionalConflict] := by
  rw [commitResult]
  split
  · exact List.mem_cons_self
  · exact List.mem_cons_of_mem _ List.mem_cons_self

/-- Changes that keep out of each other's way are committed in either order. -/
theorem interchange_of_apart (hne : t₁ ≠ t₂) (h₁ : s.record? t₁ = some r₁)
    (h₂ : s.record? t₂ = some r₂) (hactive₁ : r₁.state = .active) (hactive₂ : r₂.state = .active)
    (hin₁ : s.InTime r₁) (hin₂ : s.InTime r₂)
    (hlater₁ : (s.after (.call (.commitTransaction t₂))).InTime r₁)
    (hlater₂ : (s.after (.call (.commitTransaction t₁))).InTime r₂)
    (hwell : s.hives.WellNamed)
    (hapart : Apart Hives.WellNamed (Mutation.replay 0 · r₁.log) (Mutation.replay 0 · r₂.log)) :
    s.Interchange t₁ t₂ := by
  rcases commit_in_time h₁ hactive₁ hin₁ with ⟨hresult₁, hlive₁, hothers₁⟩
  rcases commit_in_time h₂ hactive₂ hin₂ with ⟨hresult₂, hlive₂, hothers₂⟩
  -- Either transaction is as it was when the other one has been decided.
  rcases commit_in_time ((hothers₁ t₂ hne).trans h₂) hactive₂ hlater₂ with ⟨hresult₁₂, hlive₁₂, -⟩
  rcases commit_in_time ((hothers₂ t₁ hne.symm).trans h₁) hactive₁ hlater₁ with
    ⟨hresult₂₁, hlive₂₁, -⟩
  refine ⟨?_, ?_, ?_, ?_, ?_⟩
  · rw [hresult₁, hresult₂₁, hlive₂, commitResult, commitResult,
      hapart.symm.isOk_afterTrying hwell.timeless]
  · rw [hresult₁₂, hresult₂, hlive₁, commitResult, commitResult,
      hapart.isOk_afterTrying hwell.timeless]
  · rw [hresult₁]
    exact commitResult_mem _ _
  · rw [hresult₂]
    exact commitResult_mem _ _
  · rw [hlive₁₂, hlive₂₁, hlive₁, hlive₂]
    exact hapart.afterTrying_comm hwell.timeless

end Store

open Store

/-- After every run, two active transactions may commit in either order if they stay in time and if
    each change of the one and each change of the other are made below different root keys or are
    writes or deletions of different values. Each of the two commits succeeds or is refused for a
    conflict, and does the same whether it comes first or second; and the live trees end up the
    same, up to times. -/
theorem independent_commits_interchange (clock : Clock) (actions : List Action) {s : Store}
    (hs : s = (Chronicle.run clock actions).store) {t₁ t₂ : TransactionHandle}
    {r₁ r₂ : TransactionRecord} (hne : t₁ ≠ t₂)
    (h₁ : s.record? t₁ = some r₁) (h₂ : s.record? t₂ = some r₂)
    (hactive₁ : r₁.state = .active) (hactive₂ : r₂.state = .active)
    (hin₁ : s.InTime r₁) (hin₂ : s.InTime r₂)
    (hlater₁ : (s.after (.call (.commitTransaction t₂))).InTime r₁)
    (hlater₂ : (s.after (.call (.commitTransaction t₁))).InTime r₂)
    (hindependent : ∀ m₁ ∈ r₁.log, ∀ m₂ ∈ r₂.log, m₁.Independent m₂) :
    s.Interchange t₁ t₂ := by
  have hwell : s.WellNamed := hs ▸ .run clock actions
  refine interchange_of_apart hne h₁ h₂ hactive₁ hactive₂ hin₁ hin₂ hlater₁ hlater₂
    hwell.trees.live ?_
  exact Mutation.replay_apart 0 hindependent (hwell.trees.records t₁ r₁ h₁).2
    (hwell.trees.records t₂ r₂ h₂).2

/-- Two transactions with deadlines write to one key. The first one writes a value and a key below
    another root key; the second one deletes a value, which meanwhile goes away. -/
def writeSideBySide : List Action :=
  [.call (.setValue RootKey.currentUser.handle "Old" (.ofKind .dword [1, 0, 0, 0]) none),
   .call (.createTransaction 1000 none),
   .call (.createTransaction 2000 none),
   .call (.setValue RootKey.currentUser.handle "New" (.ofKind .dword [2, 0, 0, 0]) (some ⟨0x1000⟩)),
   .call (.setValue RootKey.users.handle "New" (.ofKind .dword [3, 0, 0, 0]) (some ⟨0x1000⟩)),
   .call (.deleteValue RootKey.currentUser.handle "OLD" (some ⟨0x1004⟩)),
   .call (.deleteValue RootKey.currentUser.handle "old" none)]

theorem writeSideBySide_interchange :
    let s := (Chronicle.run ⟨0, [5, 5, 5]⟩ writeSideBySide).store
    s.Interchange ⟨0x1000⟩ ⟨0x1004⟩ ∧
      (outcome (Store.perform (.commitTransaction ⟨0x1000⟩)) s).isOk = true ∧
      (outcome (Store.perform (.commitTransaction ⟨0x1004⟩)) s).isOk = false := by
  intro s
  refine ⟨?_, by decide +kernel, by decide +kernel⟩
  refine independent_commits_interchange ⟨0, [5, 5, 5]⟩ writeSideBySide rfl (by decide) rfl rfl
    rfl rfl ?_ ?_ ?_ ?_ ?_
  · intro deadline hdeadline
    cases hdeadline
    decide +kernel
  · intro deadline hdeadline
    cases hdeadline
    decide +kernel
  · intro deadline hdeadline
    cases hdeadline
    decide +kernel
  · intro deadline hdeadline
    cases hdeadline
    decide +kernel
  · intro m₁ hm₁ m₂ hm₂
    rw [List.mem_singleton.mp hm₂]
    rcases List.mem_cons.mp hm₁ with rfl | hrest
    · exact .inr ⟨"New", "OLD", rfl, rfl, .inr (by decide +kernel)⟩
    · rw [List.mem_singleton.mp hrest]
      exact .inl (by decide)

end TransactionalRegistry
