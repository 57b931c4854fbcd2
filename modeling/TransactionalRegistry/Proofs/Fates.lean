import TransactionalRegistry.Proofs.Contributing
import TransactionalRegistry.Proofs.Finalizing

/-!
# What becomes of the changes of a transaction

A policy finishes the transaction that it has created by a few calls on its handle. Made on the
store, while the transaction is open and its time is not over, these calls have just the answers
that they should have: it is active, it is closed without a failure, and its commit succeeds unless
its changes do not apply to the live trees.

So the changes of the transaction are applied to the live trees, all of them and in order, when the
work has succeeded and so has the commit. Otherwise none of them is applied, then or at any later
time, whatever happens.

## Main definitions

* `Timeline.InTime`: No transaction runs out of time while it is open.
* `Timeline.Still`: The live trees and the contributions to them stay as they are.
* `Timeline.NeverContributes`: A transaction has not contributed, and never will.
* `Timeline.Drops`: The changes of a transaction are given up.
* `Fate`: What becomes of the changes of a transaction, and what comes out of the policy.

## Theorems

* `Timeline.creating`, `Timeline.not_creating`, `Timeline.asking`, `Timeline.committing`,
  `Timeline.closing`: The calls.
* `fate_of_finalizes`: What becomes of the changes once the transaction is finished.
-/

namespace TransactionalRegistry

open Store

variable {ε α : Type}

namespace Timeline

variable {l l' : Timeline} {h : TransactionHandle} {r : TransactionRecord}

/-- No transaction that is opened after `l` runs out of time while it is open, up to `l'`, unless it
    has been committed by then. -/
def InTime (l l' : Timeline) : Prop :=
  ∀ middle : Timeline, l.Before middle → middle.Before l' →
    ∀ t r, l.store.record? t = none → middle.store.record? t = some r →
      ¬ r.Overdue middle.store.clock.now

/-- Where no transaction ever has a deadline, none runs out of time. -/
theorem inTime_of_no_deadline
    (h : ∀ n < l'.actions.length + 1,
      ∀ entry ∈ (Chronicle.run l'.clock (l'.actions.take n)).store.transactions,
        entry.2.deadline = none) : l.InTime l' := by
  rintro middle _ hlast t r _ hr ⟨_, deadline, hdeadline, _⟩
  -- The moment in between is one of the run of `l'`, at which no transaction has a deadline.
  have htake : middle.chronicle
      = Chronicle.run l'.clock (l'.actions.take middle.actions.length) := by
    rw [chronicle, ← hlast.clock, ← List.prefix_iff_eq_take.mp hlast.actions]
  have hlength := Nat.lt_succ_of_le hlast.actions.length_le
  have hmem : (t, r) ∈ middle.chronicle.store.transactions := Table.mem_of_find? hr
  rw [htake] at hmem
  exact absurd (hdeadline.symm.trans (h _ hlength (t, r) hmem)) (by simp)

/-- The live trees are as they were, and so is the history. -/
structure Still (l l' : Timeline) : Prop where
  hives : l'.store.hives = l.store.hives
  history : l'.history = l.history

/-- What was still and went on being still is so altogether. -/
theorem Still.trans {l'' : Timeline} (h : l.Still l') (h' : l'.Still l'') : l.Still l'' :=
  ⟨h'.hives.trans h.hives, h'.history.trans h.history⟩

/-- Entries in the log leave trees and history as they were. -/
theorem Noted.still (h : l.Noted l') : l.Still l' :=
  ⟨h.hives, h.history⟩

/-- Whatever happens after `l`, the transaction with the number `n` has not contributed to the live
    trees. -/
def NeverContributes (l : Timeline) (n : Nat) : Prop :=
  ∀ more, n ∉ (Chronicle.run l.clock (l.actions ++ more)).history.sources

/-- What never contributes from some time on does not do so from a later one on. -/
theorem NeverContributes.later {n : Nat} (h : l.NeverContributes n) (hbefore : l.Before l') :
    l'.NeverContributes n := by
  intro more
  rcases hbefore.actions with ⟨rest, hrest⟩
  rw [hbefore.clock, ← hrest, List.append_assoc]
  exact h (rest ++ more)

/-- The changes that a transaction has made by the time `l` are given up by the time `l'`: nothing
    becomes of them, then or later. -/
structure Drops (h : TransactionHandle) (l l' : Timeline) : Prop where
  still : l.Still l'
  never : l'.NeverContributes (l.history.accounts h).number

/-! ## Calls on a transaction -/

/-- The rule for calls on transactions: what holds at the end of the call on the store, and the
    trace that the call leaves in the history, according to its answer. -/
theorem ends_after (l : Timeline) (call : Call) {Q : call.Answer → Store → Prop}
    {E : NativeError → Store → Prop} (hlooks : l.store.looks call = false)
    (hchange : ∀ answer, l.store.changeOf call answer = none)
    (hends : Ends (Store.perform call) l.store Q E) :
    (∃ answer, outcome (Store.perform call) l.store = .ok answer ∧
        Q answer (l.after (.call call)).store ∧
        (l.after (.call call)).history = l.history.decided call answer) ∨
      ∃ e, outcome (Store.perform call) l.store = .error e ∧ E e (l.after (.call call)).store ∧
        (l.after (.call call)).history = l.history := by
  have hhistory : (l.after (.call call)).history
      = l.history.record l.store call (outcome (Store.perform call) l.store) :=
    history_after l (.call call)
  rw [store_call]
  unfold Ends at hends
  unfold outcome at hhistory ⊢
  unfold endState
  cases hrun : Store.perform call l.store with
  | ok answer s' =>
    rw [hrun] at hends hhistory
    rw [History.record_ok_of_not_looks hlooks (hchange answer)] at hhistory
    exact Or.inl ⟨answer, rfl, hends, hhistory⟩
  | error e s' =>
    rw [hrun] at hends hhistory
    rw [History.record_error_of_not_looks hlooks] at hhistory
    exact Or.inr ⟨e, rfl, hends, hhistory⟩

/-- A transaction was opened under the handle `h`, which denoted no open one, and nothing else has
    happened. -/
structure Creates (h : TransactionHandle) (l l' : Timeline) : Prop where
  before : l.Before l'
  unknown : l.store.record? h = none
  hives : l'.store.hives = l.store.hives
  history : l'.history = l.history.opened h
  spares : Chronicle.Spares none l.chronicle l'.chronicle
  record : ∃ r, l'.store.record? h = some r ∧ r.state = .active

/-- Entries in the log before and after do not matter. -/
theorem Creates.noted {l₁ l₂ : Timeline} (hcreates : l₁.Creates h l₂) (hfirst : l.Noted l₁)
    (hlast : l₂.Noted l') : l.Creates h l' where
  before := (hfirst.before.trans hcreates.before).trans hlast.before
  unknown := (hfirst.record? h).symm.trans hcreates.unknown
  hives := (hlast.hives.trans hcreates.hives).trans hfirst.hives
  history := by rw [hlast.history, hcreates.history, hfirst.history]
  spares := (hfirst.spares.trans hcreates.spares).trans hlast.spares
  record := by
    rcases hcreates.record with ⟨r, hr, hactive⟩
    exact ⟨r, (hlast.record? h).trans hr, hactive⟩

/-- As long as there is room, a transaction is created under a new handle. -/
theorem creating {timeoutMillis : UInt32} {description : Option String} (hroom : l.Roomy)
    (hok : outcome (Store.perform (.createTransaction timeoutMillis description)) l.store
      = .ok h) :
    l.Creates h (l.after (.call (.createTransaction timeoutMillis description))) := by
  have hbefore := before_after l (.call (.createTransaction timeoutMillis description))
  rcases ends_after l (.createTransaction timeoutMillis description) rfl (fun _ => rfl)
    (createTransaction_ends timeoutMillis description l.store) with
    ⟨t, ht, ⟨_, _, hcreated⟩, hhistory⟩ | ⟨e, he, _⟩
  · -- The call has answered with the handle that it has drawn.
    have hsame : t = h := Except.ok.inj (ht.symm.trans hok)
    subst hsame
    have hunknown : l.store.record? t = none := by
      rw [hcreated.handle]
      exact hroom.unused
    refine ⟨hbefore, hunknown, hcreated.hives, hhistory, ?_,
      _, (hcreated.record t).trans (if_pos rfl), rfl⟩
    refine Chronicle.Spares.of_unknown (.of_others hbefore.grows.1 ?_ ?_) hunknown
    · exact fun t' ht => (hcreated.record t').trans (if_neg ht)
    · intro t' ht
      refine (congrArg (fun g => (History.accounts g t').number) hhistory).trans ?_
      exact (History.number_opened t t').trans (if_neg ht)
  · exact absurd (he.symm.trans hok) (by simp)

/-- A transaction is not created if its description is too long, and for no other reason. Then
    nothing is changed. -/
theorem not_creating {timeoutMillis : UInt32} {description : Option String} {e : NativeError}
    (hfails : outcome (Store.perform (.createTransaction timeoutMillis description)) l.store
      = .error e) :
    description.any (maxDescriptionLength < Utf16.length ·) = true ∧ e = .invalidParameter ∧
      l.Still (l.after (.call (.createTransaction timeoutMillis description))) ∧
      Chronicle.Spares none l.chronicle
        (l.after (.call (.createTransaction timeoutMillis description))).chronicle := by
  rcases ends_after l (.createTransaction timeoutMillis description) rfl (fun _ => rfl)
    (createTransaction_ends timeoutMillis description l.store) with
    ⟨_, hok, _⟩ | ⟨_, hresult, ⟨hlong, hlook, _, rfl⟩ | hinvalid, hhistory⟩
  · -- A call that answers has not failed.
    exact absurd (hok.symm.trans hfails) (by simp)
  · refine ⟨hlong, (Except.error.inj (hresult.symm.trans hfails)).symm, ⟨hlook.hives, hhistory⟩,
      Chronicle.spares_of_looked hlook (fun t => ?_)⟩
    exact congrArg (fun g => (History.accounts g t).number) hhistory
  · -- The counter of handles never comes to the invalid one.
    have haligned : l.store.Aligned := Chronicle.run_aligned l.clock l.actions
    exact absurd hinvalid (by rw [haligned.not_invalid]; simp)

/-- Asking for an open transaction answers how far it has come, and does nothing else. -/
theorem asking (hr : l.store.record? h = some r) :
    l.Still (l.after (.call (.transactionOutcome h))) ∧
      Chronicle.Spares none l.chronicle (l.after (.call (.transactionOutcome h))).chronicle ∧
      ∃ r', (l.after (.call (.transactionOutcome h))).store.record? h = some r' ∧
        outcome (Store.perform (.transactionOutcome h)) l.store = .ok r'.state.outcome := by
  rcases ends_after l (.transactionOutcome h) rfl (fun _ => rfl)
    (transactionOutcome_ends h l.store) with
    ⟨answer, hanswer, ⟨hchecked, _, r', _, hr', _, rfl⟩, hhistory⟩ | ⟨_, _, ⟨hunknown, _⟩, _⟩
  · refine ⟨⟨hchecked.look.hives, hhistory⟩, ?_, r', hr', hanswer⟩
    refine Chronicle.spares_of_looked hchecked.look (fun t => ?_)
    exact congrArg (fun g => (History.accounts g t).number) hhistory
  · -- Of an open transaction it is known how far it has come.
    exact absurd hr (by rw [hunknown]; simp)

/-- A commit of an active transaction applies its changes, all of them and in order. It fails if
    they do not apply, and then it applies none, unless the time of the transaction is over. -/
theorem committing (hr : l.store.record? h = some r) (hactive : r.state = .active) :
    Chronicle.Spares (some h) l.chronicle (l.after (.call (.commitTransaction h))).chronicle ∧
      ∃ r', (l.after (.call (.commitTransaction h))).store.record? h = some r' ∧
        (outcome (Store.perform (.commitTransaction h)) l.store = .ok () ∧
            (l.after (.call (.commitTransaction h))).history = l.history.committed h ∧
            (∃ now, Mutation.replay now l.store.hives (l.history.accounts h).changes
              = .ok (l.after (.call (.commitTransaction h))).store.hives) ∨
          outcome (Store.perform (.commitTransaction h)) l.store = .error .transactionalConflict ∧
            l.Still (l.after (.call (.commitTransaction h))) ∧
            (∃ now e, Mutation.replay now l.store.hives (l.history.accounts h).changes
              = .error e) ∨
          r'.Overdue (l.after (.call (.commitTransaction h))).store.clock.now) := by
  -- The changes that are replayed are the ones that the calls of the transaction have made.
  have hlog : r.log = (l.history.accounts h).changes :=
    (Chronicle.run_snapshotted l.clock l.actions h r hr hactive).log_eq
  have hbefore := before_after l (.call (.commitTransaction h))
  -- Only the record of this transaction is changed by the commit.
  have hothers : ∀ {s₁ : Store} {r₁ record : TransactionRecord}, Checked h l.store s₁ →
      Decided h r₁ record s₁ (l.after (.call (.commitTransaction h))).store →
      ∀ t, h ≠ t → (l.after (.call (.commitTransaction h))).store.record? t = l.store.record? t :=
    fun hchecked hdecided t ht => (hdecided.others t ht).trans
      (hchecked.look.others t (fun heq => ht (Option.some.inj heq)))
  rcases ends_after l (.commitTransaction h) rfl (fun _ => rfl)
    (commitTransaction_ends h l.store) with
    ⟨_, hanswer, ⟨s₁, r₁, hchecked, hsettled, hreplay⟩, hhistory⟩ | ⟨e, hanswer, hfails, hhistory⟩
  · -- Its changes have been applied.
    have hsame : r₁ = r := hsettled.eq_of_checked hchecked hr
    subst hsame
    rw [hlog] at hreplay
    have hnumbers : ∀ t, ((l.after (.call (.commitTransaction h))).history.accounts t).number
        = (l.history.accounts t).number := by
      intro t
      rw [hhistory]
      rfl
    exact ⟨.of_others hbefore.grows.1 (hothers hchecked hsettled) (fun t _ => hnumbers t), _,
      hsettled.decided, Or.inl ⟨hanswer, hhistory, _, hreplay⟩⟩
  · have hnumbers : ∀ t, ((l.after (.call (.commitTransaction h))).history.accounts t).number
        = (l.history.accounts t).number :=
      fun t => congrArg (fun g => (History.accounts g t).number) hhistory
    rcases hfails with hundecidable | ⟨rfl, hhives, s₁, r₁, e', hchecked, hdiscarded, hreplay⟩
    · -- An active transaction can be decided unless its time is over.
      have hspares := Chronicle.spares_of_looked hundecidable.1.look hnumbers
      rcases hspares.records h r (by simp) hr with ⟨r', hr', hdeadline, _, hstate⟩
      rcases hundecidable.expired hr hactive with ⟨deadline, hd, hdue⟩
      have hundecided : r'.state ≠ .committed := by
        rcases hstate with hstate | ⟨hstate, _⟩ <;> rw [hstate]
        · rw [hactive]
          simp
        · simp
      exact ⟨hspares.excepting, r', hr',
        Or.inr (Or.inr ⟨hundecided, deadline, hdeadline.trans hd, hdue⟩)⟩
    · -- Its changes have not applied, and so it is over without them.
      have hsame : r₁ = r := hdiscarded.eq_of_checked hchecked hr
      subst hsame
      rw [hlog] at hreplay
      exact ⟨.of_others hbefore.grows.1 (hothers hchecked hdiscarded) (fun t _ => hnumbers t), _,
        hdiscarded.decided, Or.inr (Or.inl ⟨hanswer, ⟨hhives, hhistory⟩, _, e', hreplay⟩)⟩

/-- Closing an open transaction succeeds. One that has not contributed by then never will. -/
theorem closing (hr : l.store.record? h = some r) :
    outcome (Store.perform (.closeTransaction h)) l.store = .ok () ∧
      l.Still (l.after (.call (.closeTransaction h))) ∧
      Chronicle.Spares (some h) l.chronicle (l.after (.call (.closeTransaction h))).chronicle ∧
      ((l.history.accounts h).number ∉ l.history.sources →
        (l.after (.call (.closeTransaction h))).NeverContributes
          (l.history.accounts h).number) := by
  have hbooks := Chronicle.run_books l.clock l.actions
  rcases ends_after l (.closeTransaction h) rfl (fun _ => rfl)
    (closeTransaction_ends h l.store) with
    ⟨_, hanswer, ⟨_, hhives, _, _, _, hclock, htransactions⟩, hhistory⟩ | ⟨_, _, ⟨hunknown, _⟩, _⟩
  · -- Only this transaction is gone from the table.
    have hrecord : ∀ t, (l.after (.call (.closeTransaction h))).store.record? t
        = if h = t then none else l.store.record? t := by
      intro t
      rw [record?, htransactions, Table.find?_erase]
      rfl
    have hsame : (l.after (.call (.closeTransaction h))).history = l.history := hhistory
    refine ⟨hanswer, ⟨hhives, hsame⟩, ?_, fun hfirst more => ?_⟩
    · refine .of_others (Nat.le_of_eq (congrArg Clock.now hclock.symm)) ?_ (fun t _ => ?_)
      · exact fun t ht => (hrecord t).trans (if_neg ht)
      · exact congrArg (fun g => (History.accounts g t).number) hsame
    · -- No other transaction has its number, and it is not open any more itself.
      have hover : (l.after (.call (.closeTransaction h))).chronicle.Over
          (l.history.accounts h).number := by
        refine ⟨?_, fun t r' hr' hnumber _ => ?_⟩
        · change _ < (l.after (.call (.closeTransaction h))).history.created
          rw [hsame]
          exact hbooks.numbered h r hr
        · change (l.after (.call (.closeTransaction h))).store.record? t = some r' at hr'
          change ((l.after (.call (.closeTransaction h))).history.accounts t).number = _ at hnumber
          rw [hrecord] at hr'
          rw [hsame] at hnumber
          by_cases ht : h = t
          · rw [if_pos ht] at hr'
            exact absurd hr' (by simp)
          · rw [if_neg ht] at hr'
            exact absurd (hbooks.distinct t h r' r hr' hr hnumber).symm ht
      intro hmem
      have hbefore := (Chronicle.run_over hover more).mp hmem
      change _ ∈ (l.after (.call (.closeTransaction h))).history.sources at hbefore
      rw [hsame] at hbefore
      exact hfirst hbefore
  · -- An open transaction is known to be closed.
    exact absurd hr (by rw [hunknown]; simp)

/-! ## Transcripts of them -/

/-- A transaction that is open is closed without a failure. -/
theorem closes_ok {closing : List CallRecord} {closed : Except TransactionError Unit}
    (hworld : Transcript l closing l') (hcloses : Closes h false closing closed)
    (hr : l.store.record? h = some r) :
    closed = .ok () ∧ l.Still l' ∧ Chronicle.Spares (some h) l.chronicle l'.chronicle ∧
      ((l.history.accounts h).number ∉ l.history.sources →
        l'.NeverContributes (l.history.accounts h).number) := by
  cases hcloses with
  | closed =>
    rcases hworld.first with ⟨l₁, hnoted, _, hrest⟩
    rcases closing ((hnoted.record? h).trans hr) with ⟨_, hstill, hspares, hnever⟩
    have hlast := hrest.noted
    refine ⟨rfl, (hnoted.still.trans hstill).trans hlast.still,
      (hnoted.spares.excepting.trans hspares).trans hlast.spares.excepting, ?_⟩
    rw [← hnoted.history]
    exact fun hfirst => (hnever hfirst).later hlast.before
  -- The close of an open transaction does not fail.
  | failed =>
    rcases hworld.first with ⟨l₁, hnoted, hfails, _⟩
    rw [(closing ((hnoted.record? h).trans hr)).1] at hfails
    exact absurd hfails (by simp)

/-- A transaction that is active and in time is found to be. -/
theorem asks_active {calls rest : List CallRecord}
    {answer : Except (Failure TransactionError) TransactionStatus}
    (hworld : Transcript l (calls ++ rest) l') (hasks : Asks h false calls answer)
    (hr : l.store.record? h = some r) (hactive : r.state = .active)
    (hin : ∀ middle : Timeline, l.Before middle → middle.Before l' →
      ∀ r, middle.store.record? h = some r → ¬ r.Overdue middle.store.clock.now) :
    answer = .ok .active ∧ ∃ l₁ r₁, l.Still l₁ ∧ l.Before l₁ ∧
      Chronicle.Spares none l.chronicle l₁.chronicle ∧ Transcript l₁ rest l' ∧
      l₁.store.record? h = some r₁ ∧ r₁.state = .active := by
  -- An open transaction is asked for by one call.
  have hcalls : ∃ result, calls = [⟨.transactionOutcome h, result⟩] := by
    cases hasks <;> exact ⟨_, rfl⟩
  rcases hcalls with ⟨result, rfl⟩
  rcases hworld.first with ⟨l₁, hnoted, hresult, hrest⟩
  rcases asking ((hnoted.record? h).trans hr) with ⟨hstill, hspares, r', hr', hanswer⟩
  have hall := hnoted.spares.trans hspares
  have hbefore := hnoted.before.trans (before_after l₁ (.call (.transactionOutcome h)))
  -- That it were rolled back would mean that its time was over.
  have hstate : r'.state = .active := by
    rcases hall.records h r (by simp) hr with ⟨r'', hr'', _, _, hstate⟩
    have hsame : r' = r'' := Option.some.inj (hr'.symm.trans hr'')
    subst hsame
    rcases hstate with hstate | ⟨_, hoverdue⟩
    · exact hstate.trans hactive
    · exact absurd hoverdue (hin _ hbefore hrest.before r' hr')
  refine ⟨?_, _, r', hnoted.still.trans hstill, hbefore, hall, hrest, hr', hstate⟩
  rw [hanswer, hstate] at hresult
  subst hresult
  cases hasks with
  | known hstatus =>
    have hone : TransactionStatus.ofOutcome? TransactionState.active.outcome = some .active := by
      decide
    exact congrArg Except.ok (Option.some.inj (hstatus.symm.trans hone))
  | unknown hstatus => exact absurd hstatus (by decide)

/-- What the changes of the transaction under `h`, made by the time `l`, have come to by the time
    `l'`, if its commit had the given result. -/
inductive Decides (h : TransactionHandle) (l l' : Timeline) : Except NativeError Unit → Prop
  | applied {now : Time} : l'.history = l.history.committed h →
      Mutation.replay now l.store.hives (l.history.accounts h).changes = .ok l'.store.hives →
      Decides h l l' (.ok ())
  | refused {now : Time} {e : NativeError} :
      Mutation.replay now l.store.hives (l.history.accounts h).changes = .error e → l.Still l' →
      Decides h l l' (.error .transactionalConflict)

/-- What has become of the changes stays so while nothing happens to the trees. -/
theorem Decides.still {l₁ l₂ : Timeline} {result : Except NativeError Unit}
    (hdecides : l₁.Decides h l₂ result) (hfirst : l.Still l₁) (hlast : l₂.Still l') :
    l.Decides h l' result := by
  cases hdecides with
  | applied hhistory hreplay =>
    rw [hfirst.history, ← hlast.history] at hhistory
    rw [hfirst.history, hfirst.hives, ← hlast.hives] at hreplay
    exact .applied hhistory hreplay
  | refused hreplay hstill =>
    rw [hfirst.history, hfirst.hives] at hreplay
    exact .refused hreplay ((hfirst.trans hstill).trans hlast)

/-- A commit changes no account, whether it succeeds or fails. -/
theorem Decides.accounts {result : Except NativeError Unit} (hdecides : l.Decides h l' result) :
    l'.history.accounts = l.history.accounts := by
  cases hdecides with
  | applied hhistory _ =>
    rw [hhistory]
    rfl
  | refused _ hstill => rw [hstill.history]

/-- The commit of a transaction that is active and in time. -/
theorem commits_decided {rest : List CallRecord} {result : Except NativeError Unit}
    (hworld : Transcript l (⟨.commitTransaction h, result⟩ :: rest) l')
    (hr : l.store.record? h = some r) (hactive : r.state = .active)
    (hin : ∀ middle : Timeline, l.Before middle → middle.Before l' →
      ∀ r, middle.store.record? h = some r → ¬ r.Overdue middle.store.clock.now) :
    ∃ l₁ r₁, Transcript l₁ rest l' ∧ l₁.store.record? h = some r₁ ∧
      Chronicle.Spares (some h) l.chronicle l₁.chronicle ∧ l.Decides h l₁ result := by
  rcases hworld.first with ⟨l₁, hnoted, hresult, hrest⟩
  rcases committing ((hnoted.record? h).trans hr) hactive with ⟨hspares, r', hr', hdecided⟩
  refine ⟨_, r', hrest, hr', hnoted.spares.excepting.trans hspares, ?_⟩
  -- The entries in the log before the commit do not matter to what it decides.
  have hsame : ∀ {result'}, l₁.Decides h (l₁.after (.call (.commitTransaction h))) result' →
      l.Decides h (l₁.after (.call (.commitTransaction h))) result' :=
    fun hdecides => hdecides.still hnoted.still ⟨rfl, rfl⟩
  rw [← hresult]
  rcases hdecided with ⟨hok, hhistory, now, hreplay⟩ | ⟨hfails, hstill, now, e, hreplay⟩ | hoverdue
  · rw [hok]
    exact hsame (.applied hhistory hreplay)
  · rw [hfails]
    exact hsame (.refused hreplay hstill)
  · -- The time of the transaction is not over at the moment of the commit.
    have hbefore := hnoted.before.trans (before_after l₁ (.call (.commitTransaction h)))
    exact absurd hoverdue (hin _ hbefore hrest.before r' hr')

/-- Settling a transaction that is active and in time, and is to be committed. -/
theorem settles_decided {shared : Shared} {settling rest : List CallRecord}
    {settled : Except (Failure TransactionError) Unit}
    (hworld : Transcript l (settling ++ rest) l') (hsettles : Settles h shared settling settled)
    (hopen : shared.closed = false) (hauto : shared.autoCommit = true)
    (hr : l.store.record? h = some r) (hactive : r.state = .active)
    (hin : ∀ middle : Timeline, l.Before middle → middle.Before l' →
      ∀ r, middle.store.record? h = some r → ¬ r.Overdue middle.store.clock.now) :
    ∃ result, settled = result.mapError (.error ∘ .native "CommitTransaction") ∧
      ∃ l₁ r₁, Transcript l₁ rest l' ∧ l₁.store.record? h = some r₁ ∧
        Chronicle.Spares (some h) l.chronicle l₁.chronicle ∧ l.Decides h l₁ result := by
  -- Only an active transaction is committed, and it is found to be.
  have hcommits : ∀ {calls : List CallRecord} {result : Except NativeError Unit},
      Transcript l (calls ++ [⟨.commitTransaction h, result⟩] ++ rest) l' →
      Asks h shared.closed calls (.ok .active) →
      ∃ l₁ r₁, Transcript l₁ rest l' ∧ l₁.store.record? h = some r₁ ∧
        Chronicle.Spares (some h) l.chronicle l₁.chronicle ∧ l.Decides h l₁ result := by
    intro calls result hworld hasks
    rw [hopen] at hasks
    rw [List.append_assoc] at hworld
    rcases asks_active hworld hasks hr hactive hin with
      ⟨_, l₁, r₁, hstill, hbefore, hspares, hrest, hr₁, hactive₁⟩
    rcases commits_decided hrest hr₁ hactive₁
      (fun middle hfirst hlast => hin middle (hbefore.trans hfirst) hlast) with
      ⟨l₂, r₂, hrest₂, hr₂, hspares₂, hdecides⟩
    exact ⟨l₂, r₂, hrest₂, hr₂, hspares.excepting.trans hspares₂,
      hdecides.still hstill ⟨rfl, rfl⟩⟩
  have hasked : ∀ {calls answer}, Transcript l (calls ++ rest) l' →
      Asks h shared.closed calls answer → answer = .ok .active := by
    intro calls answer hworld hasks
    rw [hopen] at hasks
    exact (asks_active hworld hasks hr hactive hin).1
  cases hsettles with
  -- An open transaction in time is found active, so that the other cases do not arise.
  | unasked hasks => exact absurd (hasked hworld hasks) (by simp)
  | decided hasks hne => exact absurd (Except.ok.inj (hasked hworld hasks)) hne
  | manual _ hmanual => exact absurd hmanual (by rw [hauto]; simp)
  | committed hasks _ => exact ⟨.ok (), rfl, hcommits hworld hasks⟩
  | refused hasks _ => exact ⟨.error _, rfl, hcommits hworld hasks⟩

end Timeline

/-! ## Fates -/

/-- What becomes of the changes that the transaction under `h` has made by the time `l`, when the
    work in it has ended with `ending`, and what comes out of the policy at the time `l'`. -/
inductive Fate (h : TransactionHandle) (l l' : Timeline) :
    (ending : Except (Failure ε) α) → Except (Failure (PropagationError ε)) α → Prop
  /-- They are applied to the live trees, all of them and in order. -/
  | applied {a : α} {now : Time} : l'.history = l.history.committed h →
      Mutation.replay now l.store.hives (l.history.accounts h).changes = .ok l'.store.hives →
      Fate h l l' (.ok a) (.ok a)
  /-- They do not apply to the live trees. -/
  | refused {a : α} {now : Time} {e : NativeError} :
      Mutation.replay now l.store.hives (l.history.accounts h).changes = .error e → l.Drops h l' →
      Fate h l l' (.ok a) (.error (.error (.transaction
        (.native "CommitTransaction" .transactionalConflict) [])))
  | failed {e : ε} : l.Drops h l' →
      Fate h l l' (.error (.error e)) (.error (.error (.action e [])))
  | panicked {message : String} : l.Drops h l' →
      Fate h l l' (.error (.panic message)) (.error (.panic message))

section

open Timeline

variable {l l' : Timeline} {h : TransactionHandle} {r : TransactionRecord} {shared : Shared}
  {calls : List CallRecord} {ending : Except (Failure ε) α}
  {result : Except (Failure (PropagationError ε)) α}

/-- What becomes of the changes of a transaction changes no account. -/
theorem Fate.accounts (hfate : Fate h l l' ending result) :
    l'.history.accounts = l.history.accounts := by
  cases hfate with
  | applied hhistory _ =>
    rw [hhistory]
    rfl
  | refused _ hdrops => rw [hdrops.still.history]
  | failed hdrops => rw [hdrops.still.history]
  | panicked hdrops => rw [hdrops.still.history]

/-- A transaction that is active has not contributed so far. -/
theorem not_contributed (hr : l.store.record? h = some r) (hactive : r.state = .active) :
    (l.history.accounts h).number ∉ l.history.sources := by
  intro hmem
  have hcommitted := ((Chronicle.run_books l.clock l.actions).contributed h r hr).mp hmem
  exact absurd hcommitted (by rw [hactive]; simp)

/-- Once an active transaction that is in time has been finished, its changes have been applied as a
    whole, or have been given up. -/
theorem fate_of_finalizes (hworld : Transcript l calls l')
    (hfinalizes : Finalizes h shared ending calls result) (hopen : shared.closed = false)
    (hauto : shared.autoCommit = true) (hr : l.store.record? h = some r)
    (hactive : r.state = .active)
    (hin : ∀ middle : Timeline, l.Before middle → middle.Before l' →
      ∀ r, middle.store.record? h = some r → ¬ r.Overdue middle.store.clock.now) :
    Fate h l l' ending result ∧ Chronicle.Spares (some h) l.chronicle l'.chronicle := by
  have hfirst := not_contributed hr hactive
  -- Work that has not succeeded is followed by the close and nothing else.
  have hdropped : ∀ {closing closed}, Transcript l closing l' →
      Closes h shared.closed closing closed → closed = .ok () ∧ l.Drops h l' ∧
        Chronicle.Spares (some h) l.chronicle l'.chronicle := by
    intro closing closed hworld hcloses
    rw [hopen] at hcloses
    rcases closes_ok hworld hcloses hr with ⟨hok, hstill, hspares, hnever⟩
    exact ⟨hok, ⟨hstill, hnever hfirst⟩, hspares⟩
  -- Work that has succeeded is settled before that, and settling is committing.
  have hsettled : ∀ {settling closing settled closed}, Transcript l (settling ++ closing) l' →
      Settles h shared settling settled → Closes h shared.closed closing closed →
      closed = .ok () ∧ Chronicle.Spares (some h) l.chronicle l'.chronicle ∧
        ∃ decided, settled = decided.mapError (.error ∘ .native "CommitTransaction") ∧
          l.Decides h l' decided ∧
          (l'.history.sources = l.history.sources →
            l'.NeverContributes (l.history.accounts h).number) := by
    intro settling closing settled closed hworld hsettles hcloses
    rw [hopen] at hcloses
    rcases settles_decided hworld hsettles hopen hauto hr hactive hin with
      ⟨decided, hdecided, l₁, r₁, hrest, hr₁, hspares, hdecides⟩
    rcases closes_ok hrest hcloses hr₁ with ⟨hok, hstill, hspares₁, hnever⟩
    refine ⟨hok, hspares.trans hspares₁, decided, hdecided, hdecides.still ⟨rfl, rfl⟩ hstill, ?_⟩
    intro hsources
    rw [hstill.history] at hsources
    rw [hdecides.accounts, hsources] at hnever
    exact hnever hfirst
  cases hfinalizes with
  | value hsettles hcloses =>
    rcases hsettled hworld hsettles hcloses with ⟨_, hspares, decided, hok, hdecides, _⟩
    cases hdecides with
    | applied hhistory hreplay => exact ⟨.applied hhistory hreplay, hspares⟩
    | refused => cases hok
  | unclosed hsettles hcloses =>
    -- The close of a transaction that is still open does not fail.
    cases (hsettled hworld hsettles hcloses).1
  | unsettled hsettles hcloses =>
    rcases hsettled hworld hsettles hcloses with ⟨rfl, hspares, decided, hfails, hdecides, hnever⟩
    cases hdecides with
    | applied => cases hfails
    | refused hreplay hstill =>
      cases hfails
      exact ⟨.refused hreplay ⟨hstill, hnever (by rw [hstill.history])⟩, hspares⟩
  | failed hcloses =>
    rcases hdropped hworld hcloses with ⟨rfl, hdrops, hspares⟩
    exact ⟨.failed hdrops, hspares⟩
  | panicked hcloses =>
    rcases hdropped hworld hcloses with ⟨_, hdrops, hspares⟩
    exact ⟨.panicked hdrops, hspares⟩
  | unknown hsettles hcloses =>
    -- Nor does settling it fail with anything but the answer of its commit.
    rcases hsettled hworld hsettles hcloses with ⟨_, _, decided, hfails, _⟩
    cases decided <;> cases hfails

end

end TransactionalRegistry
