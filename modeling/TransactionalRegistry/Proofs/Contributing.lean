import TransactionalRegistry.Proofs.Passages
import TransactionalRegistry.Proofs.Timelines

/-!
# What an operation contributes

An operation on a key makes its changes in the transaction that is current. If there is none, each
change is a contribution to the live trees at once; if there is one, the live trees stay as they are
and the changes go to the account of that transaction, where they wait for its commit. Nothing goes
to any other account, whatever the operation ends with.

Besides, an operation decides no transaction. Whatever is open when it starts is still open when it
ends, and active if it was, unless its time is over.

## Main definitions

* `TransactionRecord.Overdue`: The time of a transaction is over.
* `Chronicle.Spares`: Whatever was open is open still, and has not been decided.
* `Chronicle.Works`: Where the changes went that were made.
* `Context.Operated`: What an operation does to its context.

## Theorems

* `Chronicle.step_on_key`: A call on a key as a look and a change.
* `Chronicle.spares_step`, `Chronicle.works_step`: What a call on a key does.
* `operates`: What an operation does.
-/

namespace TransactionalRegistry

open Store

/-! ## Open transactions -/

/-- The time of a transaction is over, and it has not been committed. -/
def TransactionRecord.Overdue (now : Time) (r : TransactionRecord) : Prop :=
  r.state ≠ .committed ∧ ∃ deadline, r.deadline = some deadline ∧ deadline ≤ now

namespace Chronicle

/-- Whatever was open is open still, under the same number, and has not been decided, unless its
    time is over. One transaction may be excepted. -/
structure Spares (except : Option TransactionHandle) (c c' : Chronicle) : Prop where
  clock : c.store.clock.now ≤ c'.store.clock.now
  records : ∀ t r, except ≠ some t → c.store.record? t = some r →
    ∃ r', c'.store.record? t = some r' ∧ r'.deadline = r.deadline ∧
      (c'.history.accounts t).number = (c.history.accounts t).number ∧
      (r'.state = r.state ∨ r'.state = .rolledBack ∧ r'.Overdue c'.store.clock.now)

namespace Spares

variable {except : Option TransactionHandle} {c c' c'' : Chronicle}

/-- Nothing has happened, and all are spared. -/
theorem refl (except : Option TransactionHandle) (c : Chronicle) : Spares except c c :=
  ⟨Nat.le_refl _, fun _ r _ hr => ⟨r, hr, rfl, rfl, Or.inl rfl⟩⟩

/-- What is spared twice is spared altogether. -/
theorem trans (h : Spares except c c') (h' : Spares except c' c'') : Spares except c c'' := by
  refine ⟨Nat.le_trans h.clock h'.clock, fun t r ht hr => ?_⟩
  rcases h.records t r ht hr with ⟨r', hr', hdeadline, hnumber, hstate⟩
  rcases h'.records t r' ht hr' with ⟨r'', hr'', hdeadline', hnumber', hstate'⟩
  refine ⟨r'', hr'', hdeadline'.trans hdeadline, hnumber'.trans hnumber, ?_⟩
  rcases hstate' with hsame' | hended
  · rcases hstate with hsame | ⟨hrolledBack, _, deadline, hd, hdue⟩
    · exact Or.inl (hsame'.trans hsame)
    · -- What was overdue stays overdue.
      have hnow : r''.state = .rolledBack := hsame'.trans hrolledBack
      exact Or.inr ⟨hnow, by rw [hnow]; simp, deadline, hdeadline'.trans hd,
        Nat.le_trans hdue h'.clock⟩
  · exact Or.inr hended

/-- Nothing is excepted if what is excepted was not open. -/
theorem of_unknown {t : TransactionHandle} (h : Spares (some t) c c')
    (hunknown : c.store.record? t = none) : Spares none c c' := by
  refine ⟨h.clock, fun t' r _ hr => h.records t' r (fun heq => ?_) hr⟩
  rw [Option.some.inj heq, hr] at hunknown
  exact absurd hunknown (by simp)

/-- One that is spared may be excepted. -/
theorem excepting (h : Spares none c c') : Spares except c c' :=
  ⟨h.clock, fun t r _ hr => h.records t r (by simp) hr⟩

/-- What does not touch the other transactions spares them. -/
theorem of_others {t : TransactionHandle} (hclock : c.store.clock.now ≤ c'.store.clock.now)
    (hothers : ∀ t', t ≠ t' → c'.store.record? t' = c.store.record? t')
    (hnumbers : ∀ t', t ≠ t' → (c'.history.accounts t').number = (c.history.accounts t').number) :
    Spares (some t) c c' := by
  refine ⟨hclock, fun t' r ht hr => ?_⟩
  have hne : t ≠ t' := fun heq => ht (congrArg some heq)
  exact ⟨r, (hothers t' hne).trans hr, rfl, hnumbers t' hne, Or.inl rfl⟩

end Spares

/-- A look spares all, but for those that are found out of time. -/
theorem spares_of_looked {c c' : Chronicle} {transaction : Option TransactionHandle}
    (h : Looked transaction c.store c'.store)
    (hnumbers : ∀ t, (c'.history.accounts t).number = (c.history.accounts t).number) :
    Spares none c c' := by
  refine ⟨h.clock, fun t r _ hr => ?_⟩
  rcases h.known t r hr with ⟨r', hr', hrecord⟩
  refine ⟨r', hr', ?_⟩
  cases hrecord with
  | same => exact ⟨rfl, hnumbers t, Or.inl rfl⟩
  -- This one has run out of time, and is rolled back only now.
  | expired deadline _ hdeadline hdue =>
    have hnow : r.discarded.state = .rolledBack := rfl
    exact ⟨rfl, hnumbers t, Or.inr ⟨hnow, by rw [hnow]; simp, deadline, hdeadline, hdue⟩⟩
  | copied => exact ⟨rfl, hnumbers t, Or.inl rfl⟩

variable {s s' : Store} {g : History}

/-- A change spares all, also the transaction that it is made in. -/
theorem spares_of_changed {transaction : Option TransactionHandle} {m : Mutation}
    (h : Changed transaction m s s') : Spares none ⟨s, g⟩ ⟨s', g.changed transaction m⟩ := by
  have hnumber := g.number_changed transaction m
  rcases h with ⟨trees, changed, hsees, _, rfl⟩
  cases transaction with
  | none => exact ⟨Nat.le_refl _, fun t r _ hr => ⟨r, hr, rfl, hnumber t, Or.inl rfl⟩⟩
  | some t =>
    rcases hsees with ⟨r, hr, _⟩
    rw [installed_some hr]
    -- The record is put back with other trees and a longer log, and with the same state.
    refine ⟨Nat.le_refl _, fun t' r' _ hr' => ?_⟩
    by_cases ht : t = t'
    · subst ht
      have hsame : r' = r := Option.some.inj (hr'.symm.trans hr)
      subst hsame
      exact ⟨_, (record?_insert s t t _).trans (if_pos rfl), rfl, hnumber t, Or.inl rfl⟩
    · exact ⟨r', (record?_insert s t t' _).trans ((if_neg ht).trans hr'), rfl, hnumber t',
        Or.inl rfl⟩

/-! ## Changes -/

/-- Where the changes went that were made in a transaction, or outside every one. -/
inductive Works (c c' : Chronicle) : Option TransactionHandle → List Mutation → Prop
  /-- Each was a contribution of its own, and was made to the live trees at once. -/
  | outside {changes : List Mutation} :
      c'.history.contributions = c.history.contributions ++ changes.map (fun m => ⟨none, [m]⟩) →
      Mutation.replay 0 c.store.hives.timeless changes = .ok c'.store.hives.timeless →
      (∀ t, (c'.history.accounts t).changes = (c.history.accounts t).changes) →
      Works c c' none changes
  /-- They went to the account of the transaction, and to no other. -/
  | inside {t : TransactionHandle} {changes : List Mutation} :
      c'.history.contributions = c.history.contributions → c'.store.hives = c.store.hives →
      (c'.history.accounts t).changes = (c.history.accounts t).changes ++ changes →
      (∀ t', t ≠ t' → (c'.history.accounts t').changes = (c.history.accounts t').changes) →
      Works c c' (some t) changes

namespace Works

variable {c c' c'' : Chronicle} {transaction : Option TransactionHandle}
  {changes more : List Mutation}

/-- No change was made anywhere. -/
theorem of_same (transaction : Option TransactionHandle)
    (hcontributions : c'.history.contributions = c.history.contributions)
    (hhives : c'.store.hives = c.store.hives)
    (hchanges : ∀ t, (c'.history.accounts t).changes = (c.history.accounts t).changes) :
    Works c c' transaction [] := by
  cases transaction with
  | none =>
    refine .outside ?_ ?_ hchanges
    · rw [hcontributions, List.map_nil, List.append_nil]
    · rw [hhives]
      rfl
  | some t =>
    refine .inside hcontributions hhives ?_ (fun t' _ => hchanges t')
    rw [hchanges, List.append_nil]

/-- Changes go where the others went, after them. -/
theorem trans (h : Works c c' transaction changes) (h' : Works c' c'' transaction more) :
    Works c c'' transaction (changes ++ more) := by
  cases h with
  | outside hcontributions hreplay hchanges =>
    cases h' with
    | outside hcontributions' hreplay' hchanges' =>
      refine .outside ?_ ?_ (fun t => (hchanges' t).trans (hchanges t))
      · rw [hcontributions', hcontributions, List.map_append, List.append_assoc]
      · rw [Mutation.replay_append, hreplay]
        exact hreplay'
  | inside hcontributions hhives hchanges hothers =>
    cases h' with
    | inside hcontributions' hhives' hchanges' hothers' =>
      refine .inside (hcontributions'.trans hcontributions) (hhives'.trans hhives) ?_ ?_
      · rw [hchanges', hchanges, List.append_assoc]
      · exact fun t' ht => (hothers' t' ht).trans (hothers t' ht)

end Works

/-- A change goes where it is made. -/
theorem works_of_changed {transaction : Option TransactionHandle} {m : Mutation}
    (h : Changed transaction m s s') :
    Works ⟨s, g⟩ ⟨s', g.changed transaction m⟩ transaction [m] := by
  cases transaction with
  | none => exact .outside rfl h.replay (fun _ => rfl)
  | some t =>
    refine .inside rfl h.hives ?_ (fun t' ht => ?_)
    · simp only [History.changed, History.withAccount, if_true]
    · simp only [History.changed, History.withAccount, if_neg ht]

/-- A call on a key looks, then makes a change or none, and then opens or closes a handle or leaves
    the handles as they are. -/
theorem step_on_key (c : Chronicle) (call : Call) (hkey : call.key?.isSome) :
    ∃ c₁ c₂ : Chronicle, Looked (c.store.lookedThrough call) c.store c₁.store ∧
      c₁.history = c.history.looked (c.store.lookedThrough call) c.store.hives ∧
      (c₂ = c₁ ∨ ∃ answer m, c.store.changeOf call answer = some m ∧
        Changed (c.store.transactionOf call) m c₁.store c₂.store ∧
        c₂.history = c₁.history.changed (c.store.transactionOf call) m) ∧
      SameTrees c₂.store (c.step (.call call)).store ∧
      (c.step (.call call)).history = c₂.history := by
  -- It opens and commits no transaction, so a look and a change is all that the history keeps.
  have hdecided : ∀ (answer : call.Answer) (g : History), g.decided call answer = g := by
    cases call <;> first | exact fun _ _ => rfl | exact absurd hkey (by simp [Call.key?])
  refine Ends.outcome (P := fun result (s' : Store) => ∃ c₁ c₂ : Chronicle,
    Looked (c.store.lookedThrough call) c.store c₁.store ∧
    c₁.history = c.history.looked (c.store.lookedThrough call) c.store.hives ∧
    (c₂ = c₁ ∨ ∃ answer m, c.store.changeOf call answer = some m ∧
      Changed (c.store.transactionOf call) m c₁.store c₂.store ∧
      c₂.history = c₁.history.changed (c.store.transactionOf call) m) ∧
    SameTrees c₂.store s' ∧ c.history.record c.store call result = c₂.history) ?_
  refine ((perform_ends call hkey c.store).and (looks_of_changeOf call c.store)).mono ?_ ?_
  · rintro answer s' ⟨⟨s₁, s₂, hobs, hchange, hsame⟩, hlooks⟩
    rcases hchange with ⟨hnone, rfl⟩ | ⟨m, hm, hchanged⟩
    · refine ⟨⟨s₂, _⟩, _, hobs.1, rfl, Or.inl rfl, hsame, ?_⟩
      simp only [History.record, hnone, hdecided]
      rfl
    · -- The transaction that was looked through is the one that the call ran in.
      have hin : c.store.lookedThrough call = c.store.transactionOf call := by
        rw [lookedThrough, if_pos (hlooks (by rw [hm]; rfl))]
      rw [hin] at hchanged
      refine ⟨⟨s₁, _⟩, ⟨s₂, _⟩, hobs.1, rfl, Or.inr ⟨answer, m, hm, hchanged, rfl⟩, hsame, ?_⟩
      simp only [History.record, hm]
      rfl
  · rintro e s' ⟨hobs, _⟩
    exact ⟨⟨s', _⟩, _, hobs.1, rfl, Or.inl rfl, .refl s', rfl⟩

/-- Handles that are opened or closed have no part in what is open of transactions. -/
theorem spares_of_sameTrees {c c' : Chronicle} (h : SameTrees c.store c'.store)
    (hhistory : c'.history = c.history) : Spares none c c' := by
  refine ⟨Nat.le_of_eq (congrArg Clock.now h.clock.symm), fun t r _ hr => ?_⟩
  rw [hhistory]
  exact ⟨r, by rw [record?, h.transactions]; exact hr, rfl, rfl, Or.inl rfl⟩

/-- A call on a key decides no transaction. -/
theorem spares_step (c : Chronicle) (call : Call) (hkey : call.key?.isSome) :
    Spares none c (c.step (.call call)) := by
  rcases step_on_key c call hkey with ⟨c₁, c₂, hlook, hlooked, hchange, hsame, hhistory⟩
  have hfirst : Spares none c c₁ := by
    refine spares_of_looked hlook (fun t => ?_)
    rw [hlooked]
    exact c.history.number_looked _ _ t
  refine Spares.trans ?_ (spares_of_sameTrees hsame hhistory)
  -- Either the call has looked and no more, or it has changed something after that.
  rcases hchange with rfl | ⟨answer, m, _, hchanged, hsecond⟩
  · exact hfirst
  · refine hfirst.trans ?_
    rcases c₂ with ⟨s₂, g₂⟩
    subst hsecond
    exact spares_of_changed hchanged

/-- What a call on a key has changed went to the transaction that it ran in. -/
theorem works_step (c : Chronicle) (call : Call) (hkey : call.key?.isSome)
    {transaction : Option TransactionHandle}
    (hin : ∀ answer, (c.store.changeOf call answer).isSome →
      c.store.transactionOf call = transaction) :
    ∃ changes, Works c (c.step (.call call)) transaction changes := by
  rcases step_on_key c call hkey with ⟨c₁, c₂, hlook, hlooked, hchange, hsame, hhistory⟩
  -- To look is to change nothing, and so is what comes after the change.
  have hfirst : Works c c₁ transaction [] := by
    refine .of_same transaction ?_ hlook.hives (fun t => ?_)
    · rw [hlooked, History.contributions_looked]
    · rw [hlooked, History.changes_looked]
  have hlast : Works c₂ (c.step (.call call)) transaction [] := by
    refine .of_same transaction ?_ hsame.hives (fun t => ?_)
    · rw [hhistory]
    · rw [hhistory]
  rcases hchange with rfl | ⟨answer, m, hm, hchanged, hsecond⟩
  · exact ⟨_, hfirst.trans hlast⟩
  · rw [hin answer (by rw [hm]; rfl)] at hchanged hsecond
    rcases c₂ with ⟨s₂, g₂⟩
    subst hsecond
    exact ⟨_, (hfirst.trans (works_of_changed hchanged)).trans hlast⟩

end Chronicle

namespace Timeline

variable {l l' : Timeline}

/-- Entries in the log spare all transactions. -/
theorem Noted.spares (h : l.Noted l') : Chronicle.Spares none l.chronicle l'.chronicle := by
  refine ⟨Nat.le_of_eq (congrArg Clock.now h.clock.symm), fun t r _ hr => ?_⟩
  exact ⟨r, (h.record? t).trans hr, rfl, congrArg (fun g => (g.accounts t).number) h.history,
    Or.inl rfl⟩

/-- Entries in the log change nothing. -/
theorem Noted.works (h : l.Noted l') (transaction : Option TransactionHandle) :
    Chronicle.Works l.chronicle l'.chronicle transaction [] := by
  have hhistory : l'.chronicle.history = l.chronicle.history := h.history
  refine .of_same transaction ?_ h.hives (fun t => ?_)
  · rw [hhistory]
  · rw [hhistory]

end Timeline

/-! ## Operations -/

/-- A handle that is open is bound to no transaction but the given one. -/
def Store.Admits (s : Store) (transaction : Option TransactionHandle) (key : KeyHandle) : Prop :=
  ∀ k, s.opened key = some k → transaction.or k.transaction = transaction

namespace Store

variable {s s' : Store} {transaction : Option TransactionHandle} {key : KeyHandle}

/-- A handle that was opened in a transaction is bound to it. -/
theorem admits_of_opens (h : Opens transaction key s s') : s'.Admits transaction key := by
  intro k hk
  rcases h.keys with ⟨l, access, hkeys⟩
  unfold opened at hk
  -- Root keys are bound to nothing.
  cases hroot : key.root? with
  | some root =>
    rw [hroot] at hk
    have hk' : OpenKey.ofRoot root = k := Option.some.inj hk
    rw [← hk']
    exact Option.or_none
  | none =>
    rw [hroot, hkeys] at hk
    have hk' : ⟨l, access, transaction⟩ = k :=
      Option.some.inj (((Table.find?_insert _ _ _ _).trans (if_pos rfl)).symm.trans hk)
    rw [← hk']
    exact Option.or_self

/-- Handles stay bound as they are as long as none is opened. -/
theorem Admits.kept (h : s.Admits transaction key) (hnone : OpensNone s s') :
    s'.Admits transaction key := by
  intro k hk
  refine h k ?_
  unfold opened at hk ⊢
  cases hroot : key.root? with
  | some root =>
    rw [hroot] at hk
    exact hk
  | none =>
    rw [hroot] at hk
    exact hnone.found hk

/-- A call by path from a root key runs in the transaction that it names. -/
theorem transactionOf_byPath {call : Call} (h : call.ByPath transaction) :
    call.key?.isSome ∧ s.transactionOf call = transaction := by
  -- A root key is bound to no transaction.
  have hroot : ∀ {call : Call} {root : RootKey}, call.key? = some root.handle →
      s.transactionOf call = call.transaction? := by
    intro call root hkey
    have hopened : s.opened root.handle = some (OpenKey.ofRoot root) := by
      rw [opened, KeyHandle.root?_handle]
    rw [transactionOf_eq hkey hopened]
    exact Option.or_none
  cases h with
  | openKey => exact ⟨rfl, hroot rfl⟩
  | createKey => exact ⟨rfl, hroot rfl⟩
  | deleteKey => exact ⟨rfl, hroot rfl⟩
  | renameKey => exact ⟨rfl, hroot rfl⟩

/-- A call through an open key that has made a change has made it in the transaction that it
    names. -/
theorem transactionOf_through {call : Call} (h : call.Through transaction key)
    (hadmits : s.Admits transaction key) (answer : call.Answer)
    (hchange : (s.changeOf call answer).isSome) : s.transactionOf call = transaction := by
  -- Whatever has changed something through a handle has found it open.
  have hopened : ∀ {f : OpenKey → Mutation}, ((s.opened key).map f).isSome →
      ∃ k, s.opened key = some k := by
    intro f hsome
    rw [Option.isSome_map] at hsome
    exact Option.isSome_iff_exists.mp hsome
  cases h with
  | setValue name data =>
    rcases hopened hchange with ⟨k, hk⟩
    exact (transactionOf_eq rfl hk).trans (hadmits k hk)
  | deleteValue name =>
    rcases hopened hchange with ⟨k, hk⟩
    exact (transactionOf_eq rfl hk).trans (hadmits k hk)
  | _ => exact absurd hchange (by simp [changeOf])

end Store

namespace Context

/-- What an operation does to its context, with the given transaction current. -/
structure Operated (transaction : Option TransactionHandle) (ctx ctx' : Context Timeline) :
    Prop where
  ambient : ctx'.ambient = ctx.ambient
  shared : ctx'.shared = ctx.shared
  before : ctx.world.Before ctx'.world
  spares : Chronicle.Spares none ctx.world.chronicle ctx'.world.chronicle
  works : ∃ changes,
    Chronicle.Works ctx.world.chronicle ctx'.world.chronicle transaction changes

variable {transaction : Option TransactionHandle} {ctx ctx' ctx'' : Context Timeline}

/-- An operation that has done nothing. -/
theorem Operated.refl (transaction : Option TransactionHandle) (ctx : Context Timeline) :
    ctx.Operated transaction ctx :=
  ⟨rfl, rfl, .refl _, .refl _ _, _, .of_same transaction rfl rfl (fun _ => rfl)⟩

/-- What is done in two steps is done in both. -/
theorem Operated.trans (h : ctx.Operated transaction ctx') (h' : ctx'.Operated transaction ctx'') :
    ctx.Operated transaction ctx'' := by
  refine ⟨h'.ambient.trans h.ambient, h'.shared.trans h.shared, h.before.trans h'.before,
    h.spares.trans h'.spares, ?_⟩
  rcases h.works with ⟨_, hworks⟩
  rcases h'.works with ⟨_, hworks'⟩
  exact ⟨_, hworks.trans hworks'⟩

/-- An entry in the log is part of an operation. -/
theorem operated_logged (transaction : Option TransactionHandle) (entry : LogEntry)
    (ctx : Context Timeline) : ctx.Operated transaction (ctx.logged entry) := by
  have hnoted := Timeline.noted_after ctx.world entry
  exact ⟨rfl, rfl, hnoted.before, hnoted.spares, _, hnoted.works transaction⟩

/-- A call on a key is part of an operation, if its change goes to the current transaction. -/
theorem operated_call {call : Call} (hkey : call.key?.isSome)
    (hin : ∀ answer, (ctx.world.store.changeOf call answer).isSome →
      ctx.world.store.transactionOf call = transaction) :
    ctx.Operated transaction { ctx with world := ctx.world.after (.call call) } := by
  refine ⟨rfl, rfl, Timeline.before_after _ _, ?_, ?_⟩
  · rw [Timeline.chronicle_after]
    exact Chronicle.spares_step _ call hkey
  · rw [Timeline.chronicle_after]
    exact Chronicle.works_step _ call hkey hin

/-- A call ends with what the store answers and leaves the longer timeline behind. -/
theorem ends_call_after (call : Call) (ctx : Context Timeline) :
    Ends (Act.call call) ctx
      (fun answer ctx' => outcome (Store.perform call) ctx.world.store = .ok answer ∧
        ctx' = { ctx with world := ctx.world.after (.call call) })
      (fun failure ctx' => ∃ e, failure = .error e ∧
        outcome (Store.perform call) ctx.world.store = .error e ∧
        ctx' = { ctx with world := ctx.world.after (.call call) }) := by
  refine Act.ends_call ?_ ?_
  · intro answer world hperform
    rcases (Timeline.perform_ends call ctx.world).ok hperform with ⟨houtcome, rfl⟩
    exact ⟨houtcome, rfl⟩
  · intro e world hperform
    rcases (Timeline.perform_ends call ctx.world).error hperform with ⟨houtcome, rfl⟩
    exact ⟨e, rfl, houtcome, rfl⟩

/-- A call by path from a root key, among other calls of an operation. A key that it opens is bound
    to the transaction that is current. -/
theorem Operated.byPath {call : Call} (h : ctx.Operated transaction ctx')
    (hpath : call.ByPath transaction) :
    Ends (Act.call call) ctx'
      (fun answer ctx'' => match call.handle? answer with
        | some key => ctx.Operated transaction ctx'' ∧ ctx''.world.store.Admits transaction key
        | none => ctx.Operated transaction ctx'')
      (fun _ => ctx.Operated transaction) := by
  have hcall := transactionOf_byPath (s := ctx'.world.store) hpath
  have hoperated := h.trans (operated_call hcall.1 (fun _ _ => hcall.2))
  refine (ends_call_after call ctx').mono ?_ ?_
  · rintro answer _ ⟨houtcome, rfl⟩
    have hafter := handlesAfter_of_ok hcall.1 houtcome
    unfold HandlesAfter at hafter
    cases hhandle : call.handle? answer with
    | none => exact hoperated
    | some key =>
      -- The key that was opened is bound to the transaction that the call ran in.
      rw [hhandle, hcall.2, ← Timeline.store_call] at hafter
      exact ⟨hoperated, admits_of_opens hafter.2⟩
  · rintro _ _ ⟨_, _, _, rfl⟩
    exact hoperated

/-- A call through an open key, among other calls of an operation. -/
theorem Operated.through {call : Call} {key : KeyHandle} (h : ctx.Operated transaction ctx')
    (hadmits : ctx'.world.store.Admits transaction key) (hthrough : call.Through transaction key) :
    Ends (Act.call call) ctx'
      (fun _ ctx'' => ctx.Operated transaction ctx'' ∧ ctx''.world.store.Admits transaction key)
      (fun _ ctx'' => ctx.Operated transaction ctx'' ∧
        ctx''.world.store.Admits transaction key) := by
  -- All of these calls are on a key.
  have hkey : call.key?.isSome := by cases hthrough <;> rfl
  have hnone : OpensNone ctx'.world.store (ctx'.world.after (.call call)).store := by
    rw [Timeline.store_call]
    refine ((perform_opens call hkey _).mono ?_ (fun _ _ h => h)).endState
    intro answer s' hafter
    -- None of these calls answers with a handle.
    unfold HandlesAfter at hafter
    cases hthrough <;> exact hafter
  have hdone := And.intro
    (h.trans (operated_call hkey (transactionOf_through hthrough hadmits))) (hadmits.kept hnone)
  refine (ends_call_after call ctx').mono ?_ ?_
  · rintro answer _ ⟨_, rfl⟩
    exact hdone
  · rintro _ _ ⟨_, _, _, rfl⟩
    exact hdone

/-- The session of an operation that starts from `ctx`: its changes go where they belong. -/
def keySession (ctx : Context Timeline) :
    Session Timeline ((Ambient.top ctx.ambient).map (·.handle)) where
  Idle := ctx.Operated ((Ambient.top ctx.ambient).map (·.handle))
  Open key ctx' := ctx.Operated ((Ambient.top ctx.ambient).map (·.handle)) ctx' ∧
    ctx'.world.store.Admits ((Ambient.top ctx.ambient).map (·.handle)) key
  current ctx' h := by rw [h.ambient]
  idle_logged ctx' entry h := h.trans (operated_logged _ entry ctx')
  open_logged key ctx' entry h := by
    refine ⟨h.1.trans (operated_logged _ entry ctx'), ?_⟩
    have hnoted := Timeline.noted_after ctx'.world entry
    exact h.2.kept ⟨Or.inl hnoted.nextHandle, Or.inl hnoted.keys⟩
  byPath call hpath ctx' h := h.byPath hpath
  through key call hthrough ctx' h := h.1.through h.2 hthrough
  close key ctx' h := by
    -- Closing a key makes no change.
    have hclosed : ctx.Operated _ { ctx' with world := ctx'.world.after (.call (.closeKey key)) } :=
      h.1.trans (operated_call rfl (fun _ hchange => absurd hchange (by simp [changeOf])))
    refine (ends_call_after _ ctx').mono ?_ ?_
    · rintro _ _ ⟨_, rfl⟩
      exact hclosed
    · rintro _ _ ⟨_, _, _, rfl⟩
      exact hclosed

end Context

/-- An operation makes its changes where it should, and decides no transaction. -/
theorem operates (l : Location) (operation : KeyOperation) (ctx : Context Timeline) :
    ctx.Operated ((Ambient.top ctx.ambient).map (·.handle)) (endState (operation.act l) ctx) :=
  ((Context.keySession ctx).keyOperation l operation ctx (.refl _ ctx)).endState

end TransactionalRegistry
