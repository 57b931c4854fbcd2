import TransactionalRegistry.Proofs.Isolation
import TransactionalRegistry.Proofs.Naming

/-!
# Well-named stores

A store holds trees in two places, the live ones and the private copies of transactions, and changes
that are still to be made, in the logs of transactions. What is true of the trees of a new store and
is kept by every change of some kind is true of all these trees in every store, as long as the calls
make changes of that kind only: a call makes its change to one of the trees, a first look copies the
live ones, and a commit makes the changes of a log to them.

The changes that calls make are sound because of the paths of open handles. A path is that of a root
key, or it was read from text below a path that some open handle had, so its names are single.

## Main definitions

* `Store.Throughout`: What holds of all trees of a store and of all changes in its logs.
* `Store.Descends`: Every open handle was open before, or lies below one that was.
* `Store.WellNamed`: All trees are well named, and all paths of open handles sound.

## Theorems

* `Store.Throughout.performed`, `Store.Throughout.call_on_transaction`: What holds of all trees is
  kept by calls.
* `Store.descends_after`: Where the open handles of a store come from.
* `Store.WellNamed.after`: An action keeps a store well named.
* `every_store_is_well_named`: So every store is, after every run.
-/

namespace TransactionalRegistry

/-! ## All trees of a store -/

/-- What every change of a kind keeps is kept by sequences of such changes. -/
theorem Mutation.replay_keeps {P : Hives → Prop} {G : Mutation → Prop} {now : Time}
    {changes : List Mutation} {trees trees' : Hives}
    (hP : ∀ m now trees trees', G m → m.apply now trees = .ok trees' → P trees → P trees')
    (hchanges : ∀ m ∈ changes, G m) (htrees : P trees)
    (hok : replay now trees changes = .ok trees') : P trees' := by
  -- The induction is on the changes; each one is applied to what those before it have left.
  induction changes generalizing trees with
  | nil =>
    rw [replay, Except.ok.injEq] at hok
    exact hok ▸ htrees
  | cons m rest ih =>
    rw [replay] at hok
    cases happly : m.apply now trees with
    | error e =>
      rw [happly] at hok
      exact absurd hok (by simp [Except.bind])
    | ok changed =>
      rw [happly] at hok
      exact ih (fun m' hm' => hchanges m' (List.mem_cons_of_mem _ hm'))
        (hP m _ _ _ (hchanges m List.mem_cons_self) happly htrees) hok

/-- What holds of the private copy of a transaction, and of its changes. -/
def TransactionRecord.Throughout (P : Hives → Prop) (G : Mutation → Prop)
    (r : TransactionRecord) : Prop :=
  (∀ h, r.workspace = some h → P h) ∧ ∀ m ∈ r.log, G m

namespace TransactionRecord.Throughout

variable {P : Hives → Prop} {G : Mutation → Prop} {r r' : TransactionRecord}

theorem fresh (timeoutMillis : UInt32) (description : Option String) (now : Time) :
    (TransactionRecord.fresh timeoutMillis description now).Throughout P G :=
  ⟨fun _ h => absurd h (by simp [TransactionRecord.fresh]),
    fun _ h => absurd h (by simp [TransactionRecord.fresh])⟩

/-- A transaction that was rolled back keeps nothing. -/
theorem discarded (r : TransactionRecord) : r.discarded.Throughout P G :=
  ⟨fun _ h => absurd h (by simp [TransactionRecord.discarded]),
    fun _ h => absurd h (by simp [TransactionRecord.discarded])⟩

/-- Nor does one that was committed. -/
theorem settled (r : TransactionRecord) : r.settled.Throughout P G :=
  ⟨fun _ h => absurd h (by simp [TransactionRecord.settled]),
    fun _ h => absurd h (by simp [TransactionRecord.settled])⟩

/-- A first look copies the live trees. -/
theorem looked {live : Hives} {now : Time} (h : r.Throughout P G) (hlive : P live)
    (hlook : r.Looked live now r') : r'.Throughout P G := by
  cases hlook with
  | same => exact h
  | expired => exact discarded r
  | copied =>
    refine ⟨fun copy hcopy => ?_, h.2⟩
    rw [Option.some.injEq] at hcopy
    exact hcopy ▸ hlive

end TransactionRecord.Throughout

namespace Store

/-- What holds of the live trees and of all private copies, and of all changes that are kept for
    commits. -/
structure Throughout (P : Hives → Prop) (G : Mutation → Prop) (s : Store) : Prop where
  live : P s.hives
  records : ∀ t r, s.record? t = some r → r.Throughout P G

variable {P : Hives → Prop} {G : Mutation → Prop} {s s' : Store}
  {transaction : Option TransactionHandle}

namespace Throughout

theorem looked (h : s.Throughout P G) (hlook : Looked transaction s s') : s'.Throughout P G where
  live := hlook.hives ▸ h.live
  records t r' hr' := by
    obtain ⟨r, hr, hrecord⟩ := hlook.origin hr'
    exact (h.records t r hr).looked h.live hrecord

theorem sameTrees (h : s.Throughout P G) (hsame : SameTrees s s') : s'.Throughout P G where
  live := hsame.hives ▸ h.live
  records t r hr := by
    rw [record?, hsame.transactions] at hr
    exact h.records t r hr

theorem rests (h : s.Throughout P G) (hrests : s.Rests s') : s'.Throughout P G where
  live := hrests.hives ▸ h.live
  records t r' hr' := by
    obtain ⟨r, hr, rfl | ⟨-, rfl⟩⟩ := hrests.records t r' hr'
    · exact h.records t r' hr
    · exact .discarded r

/-- A change of the kind in question keeps what holds of all trees. -/
theorem changed {m : Mutation} (h : s.Throughout P G)
    (hP : ∀ now trees trees', m.apply now trees = .ok trees' → P trees → P trees') (hm : G m)
    (hchanged : Changed transaction m s s') : s'.Throughout P G := by
  obtain ⟨trees, trees', hsees, happly, rfl⟩ := hchanged
  cases transaction with
  | none =>
    -- Without a transaction the change goes to the live trees, and no record is touched.
    rw [Sees] at hsees
    subst hsees
    exact ⟨hP _ _ _ happly h.live, h.records⟩
  | some t =>
    obtain ⟨r, hr, -, hworkspace⟩ := hsees
    rw [installed_some hr]
    refine ⟨h.live, fun t' r' hr' => ?_⟩
    rw [record?_insert] at hr'
    -- Of the records only that of the transaction itself is new; its log has grown by the change.
    by_cases ht : t = t'
    · rw [if_pos ht, Option.some.injEq] at hr'
      subst hr'
      obtain ⟨hcopy, hlog⟩ := h.records t r hr
      refine ⟨fun copy hcopied => ?_, fun m' hm' => ?_⟩
      · rw [Option.some.injEq] at hcopied
        exact hcopied ▸ hP _ _ _ happly (hcopy trees hworkspace)
      · rcases List.mem_append.mp hm' with hold | hnew
        · exact hlog m' hold
        · rw [List.mem_singleton] at hnew
          exact hnew ▸ hm
    · rw [if_neg ht] at hr'
      exact h.records t' r' hr'

/-- A call on a key looks and makes at most one change. -/
theorem performed {change : Option Mutation} (h : s.Throughout P G)
    (hP : ∀ m now trees trees', G m → m.apply now trees = .ok trees' → P trees → P trees')
    (hchange : ∀ m, change = some m → G m) (hperformed : Performed transaction change s s') :
    s'.Throughout P G := by
  obtain ⟨s₁, s₂, hobs, hmade, hsame⟩ := hperformed
  refine sameTrees ?_ hsame
  rcases hmade with ⟨-, rfl⟩ | ⟨m, hm, hchanged⟩
  · exact h.looked hobs.1
  · exact (h.looked hobs.1).changed (fun now trees trees' => hP m now trees trees' (hchange m hm))
      (hchange m hm) hchanged

theorem created {timeoutMillis : UInt32} {description : Option String} {t : TransactionHandle}
    (h : s.Throughout P G) (hcreated : Created timeoutMillis description t s s') :
    s'.Throughout P G where
  live := hcreated.hives ▸ h.live
  records t' r hr := by
    rw [hcreated.record] at hr
    by_cases ht : t = t'
    · -- A new transaction has neither a private copy nor a log.
      rw [if_pos ht, Option.some.injEq] at hr
      exact hr ▸ .fresh _ _ _
    · rw [if_neg ht] at hr
      exact h.records t' r hr

/-- A transaction that is decided keeps nothing; the live trees are for the decision to tell. -/
theorem decided {t : TransactionHandle} {r record : TransactionRecord} (h : s.Throughout P G)
    (hlive : P s'.hives) (hrecord : record.Throughout P G) (hdecided : Decided t r record s s') :
    s'.Throughout P G where
  live := hlive
  records t' r' hr' := by
    by_cases ht : t = t'
    · rw [← ht, hdecided.decided, Option.some.injEq] at hr'
      exact hr' ▸ hrecord
    · rw [hdecided.others t' ht] at hr'
      exact h.records t' r' hr'

theorem managed {created : Option TransactionHandle} (h : s.Throughout P G)
    (hP : ∀ m now trees trees', G m → m.apply now trees = .ok trees' → P trees → P trees')
    (hmanaged : Managed s created s') : s'.Throughout P G := by
  cases hmanaged with
  | looked hlook => exact h.looked hlook
  | created hcreated => exact h.created hcreated
  | settled hchecked hsettled hreplay =>
    have h₁ := h.looked hchecked.look
    have hlog := (h₁.records _ _ hsettled.found).2
    -- The log was kept by the transaction before, so all its changes are of the kind in question.
    exact h₁.decided (Mutation.replay_keeps hP hlog h.live hreplay) (.settled _) hsettled
  | discarded hchecked hdiscarded hhives =>
    exact (h.looked hchecked.look).decided (hhives ▸ h.live) (.discarded _) hdiscarded
  | closed hhives _ _ hnext hclock htransactions =>
    exact h.rests (rests_of_erase hhives hnext hclock htransactions)

/-- A call on a transaction makes no change of its own; a commit makes those of a log. -/
theorem call_on_transaction (h : s.Throughout P G)
    (hP : ∀ m now trees trees', G m → m.apply now trees = .ok trees' → P trees → P trees')
    (haligned : s.Aligned) (call : Call) (hkey : call.key? = none) :
    (endState (perform call) s).Throughout P G :=
  ((perform_manages haligned call hkey).mono (fun _ _ hend => h.managed hP hend)
    (fun _ _ hend => h.managed hP hend)).endState

end Throughout

/-! ## Where open handles come from -/

/-- Every handle that is open afterwards was open before, or its location was read below that of a
    handle that was. -/
def Descends (s s' : Store) : Prop :=
  ∀ key k, Table.find? s'.keys key = some k → Table.find? s.keys key = some k ∨
    ∃ parent p subKey, s.opened parent = some p ∧ k.location = p.location.below subKey

theorem OpensNone.descends (h : OpensNone s s') : Descends s s' :=
  fun _ _ hk => Or.inl (h.found hk)

theorem Enters.descends {key : KeyHandle} {k p : OpenKey} {parent : KeyHandle} {subKey : String}
    (h : Enters key k s s') (hp : s.opened parent = some p)
    (hk : k.location = p.location.below subKey) : Descends s s' := by
  intro key' k' hk'
  -- The one new handle is that of the key which the call has asked for.
  rw [h.keys, Table.find?_insert] at hk'
  by_cases hkey : key = key'
  · rw [if_pos hkey, Option.some.injEq] at hk'
    exact Or.inr ⟨parent, p, subKey, hp, hk' ▸ hk⟩
  · rw [if_neg hkey] at hk'
    exact Or.inl hk'

theorem perform_descends (call : Call) (hkey : call.key?.isSome) (s : Store) :
    Descends s (endState (perform call) s) := by
  cases hasks : call.asks? with
  | some asked =>
    obtain ⟨parent, subKey, access⟩ := asked
    refine Ends.endState ((perform_enters hasks s).mono ?_ (fun _ _ h => h.descends))
    rintro _ s' ⟨p, key, hp, -, henters⟩
    exact henters.descends hp rfl
  | none =>
    -- A call that asks for no key answers with no handle.
    have hhandle : ∀ answer, call.handle? answer = none := by
      cases call <;> first | exact fun _ => rfl | exact absurd hasks (by simp [Call.asks?])
    refine Ends.endState ((perform_opens call hkey s).mono ?_ (fun _ _ h => h.descends))
    intro answer s' hafter
    rw [HandlesAfter, hhandle answer] at hafter
    exact hafter.descends

theorem descends_after (haligned : s.Aligned) (action : Action) : Descends s (s.after action) := by
  cases action with
  | call call =>
    cases hkey : call.key? with
    | none => exact (perform_opensNone haligned call hkey).descends
    | some start => exact perform_descends call (by rw [hkey]; rfl) s
  | ask t =>
    have hchecked : Checked t s (s.after (.ask t)) := (transactionState?_ends t s).endState_total
    exact hchecked.look.opensNone.descends
  | protect l => exact OpensNone.descends ⟨Or.inl rfl, Or.inl rfl⟩
  | pass time => exact OpensNone.descends ⟨Or.inl rfl, Or.inl rfl⟩
  | note entry => exact OpensNone.descends ⟨Or.inl rfl, Or.inl rfl⟩

/-! ## Well-named stores -/

/-- All trees are well named, all changes kept for commits are sound, and so are the paths of all
    open handles. -/
structure WellNamed (s : Store) : Prop where
  trees : s.Throughout Hives.WellNamed Mutation.Sound
  paths : ∀ key k, Table.find? s.keys key = some k → k.location.path.Sound

namespace WellNamed

theorem fresh (clock : Clock) : (Store.fresh clock).WellNamed where
  trees := ⟨Hives.wellNamed_empty clock.now,
    fun t r hr => absurd hr (by simp [Store.fresh, record?, Table.find?])⟩
  paths key k hk := absurd hk (by simp [Store.fresh, Table.find?])

/-- The handles of the root keys have sound paths as well: empty ones. -/
theorem opened (h : s.WellNamed) {key : KeyHandle} {k : OpenKey} (hk : s.opened key = some k) :
    k.location.path.Sound := by
  unfold Store.opened at hk
  cases hroot : key.root? with
  | some root =>
    rw [hroot, Option.some.injEq] at hk
    exact hk ▸ Path.sound_root
  | none =>
    rw [hroot] at hk
    exact h.paths key k hk

theorem below (h : s.WellNamed) {parent : KeyHandle} {p : OpenKey}
    (hp : s.opened parent = some p) (subKey : String) : (p.location.below subKey).path.Sound :=
  (h.opened hp).join subKey

/-- A call that creates keys creates them along a path below that of an open handle. -/
theorem changeOf (h : s.WellNamed) {call : Call} {answer : call.Answer} {m : Mutation}
    (hm : s.changeOf call answer = some m) : m.Sound := by
  cases call with
  | createKey parent subKey access transaction =>
    rw [Store.changeOf] at hm
    by_cases hnew : answer.2 = .createdNew
    · rw [if_pos hnew] at hm
      obtain ⟨p, hp, rfl⟩ := Option.map_eq_some_iff.mp hm
      exact h.below hp subKey
    · rw [if_neg hnew] at hm
      exact absurd hm (by simp)
  | deleteKey parent subKey transaction =>
    obtain ⟨p, -, rfl⟩ := Option.map_eq_some_iff.mp hm
    trivial
  | renameKey parent subKey newName transaction =>
    obtain ⟨p, -, rfl⟩ := Option.map_eq_some_iff.mp hm
    trivial
  | setValue key name data transaction =>
    obtain ⟨k, -, rfl⟩ := Option.map_eq_some_iff.mp hm
    trivial
  | deleteValue key name transaction =>
    obtain ⟨k, -, rfl⟩ := Option.map_eq_some_iff.mp hm
    trivial
  | _ => exact absurd hm (by simp [Store.changeOf])

theorem trees_after (h : s.WellNamed) (haligned : s.Aligned) (action : Action) :
    (s.after action).Throughout Hives.WellNamed Mutation.Sound := by
  -- Of all changes only those that create keys bring in names, and they are sound.
  have hP : ∀ (m : Mutation) now trees trees', m.Sound → m.apply now trees = .ok trees' →
      trees.WellNamed → trees'.WellNamed :=
    fun _ _ _ _ hm hok hwell => hm.apply hwell hok
  cases action with
  | call call =>
    cases hkey : call.key? with
    | none => exact h.trees.call_on_transaction hP haligned call hkey
    | some start =>
      refine Ends.endState ((perform_ends call (by rw [hkey]; rfl) s).mono ?_ ?_)
      · exact fun _ _ hperformed => h.trees.performed hP (fun _ hm => h.changeOf hm) hperformed
      · exact fun _ _ hobs => h.trees.looked hobs.1
  | ask t =>
    have hchecked : Checked t s (s.after (.ask t)) := (transactionState?_ends t s).endState_total
    exact h.trees.looked hchecked.look
  | protect l => exact ⟨h.trees.live, h.trees.records⟩
  | pass time => exact ⟨h.trees.live, h.trees.records⟩
  | note entry => exact ⟨h.trees.live, h.trees.records⟩

theorem after (h : s.WellNamed) (haligned : s.Aligned) (action : Action) :
    (s.after action).WellNamed where
  trees := h.trees_after haligned action
  paths key k hk := by
    rcases descends_after haligned action key k hk with hold | ⟨parent, p, subKey, hp, hlocation⟩
    · exact h.paths key k hold
    · rw [hlocation]
      exact h.below hp subKey

theorem continued {actions : List Action} (h : s.WellNamed) (haligned : s.Aligned) :
    (actions.foldl Store.after s).WellNamed := by
  induction actions generalizing s with
  | nil => exact h
  | cons action rest ih => exact ih (h.after haligned action) (aligned_after haligned action)

theorem run (clock : Clock) (actions : List Action) :
    (Chronicle.run clock actions).store.WellNamed := by
  rw [Chronicle.run_store]
  exact (fresh clock).continued (Chronicle.fresh_aligned clock)

end WellNamed

/-- The trees that a store holds: the live ones, and the private copies of its transactions. -/
def HasTrees (s : Store) (h : Hives) : Prop :=
  h = s.hives ∨ ∃ t r, s.record? t = some r ∧ r.workspace = some h

theorem WellNamed.hasTrees {h : Hives} (hwell : s.WellNamed) (hh : s.HasTrees h) :
    h.WellNamed := by
  rcases hh with rfl | ⟨t, r, hr, hcopy⟩
  · exact hwell.trees.live
  · exact (hwell.trees.records t r hr).1 h hcopy

end Store

/-- After every run, in the live trees and in the private copies of all transactions, each of the
    five root keys has the name that is its own. At every key, at any depth, each key below it and
    each value stands under the folded form of its own name; no two of the names of the keys, and no
    two of those of the values, differ in letter case alone; and the names of the keys are not empty
    and hold no separator. The same goes for the names on the paths of all open handles. -/
theorem every_store_is_well_named (clock : Clock) (actions : List Action) :
    let s := (Chronicle.run clock actions).store
    (∀ h, s.HasTrees h → ∀ root, (h.get root).name = root.name ∧
      ∀ n, (h.get root).Holds n →
        (∀ entry ∈ n.subKeys, entry.1 = Text.fold entry.2.name) ∧
        (∀ entry ∈ n.values, entry.1 = Text.fold entry.2.name) ∧
        (n.subKeys.map fun entry => Text.fold entry.2.name).Nodup ∧
        (n.values.map fun entry => Text.fold entry.2.name).Nodup ∧
        ∀ entry ∈ n.subKeys, entry.2.name ≠ "" ∧ Path.separator ∉ entry.2.name.toList) ∧
    ∀ key k, s.opened key = some k →
      ∀ name ∈ k.location.path.names, name ≠ "" ∧ Path.separator ∉ name.toList := by
  intro s
  have hwell : s.WellNamed := .run clock actions
  refine ⟨fun h hh root => ?_, fun key k hk => hwell.opened hk⟩
  obtain ⟨hroot, hname⟩ := hwell.hasTrees hh root
  refine ⟨hname, fun n hn => ?_⟩
  have htidy := hroot n hn
  exact ⟨htidy.subKeys_folded, htidy.values_folded, htidy.nodup_subKeys, htidy.nodup_values,
    htidy.subKeys_single⟩

end TransactionalRegistry
