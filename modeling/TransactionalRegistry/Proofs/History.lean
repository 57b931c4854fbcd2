import TransactionalRegistry.Proofs.Deciding

/-!
# Histories

A store is used by calls, in any order and from any number of callers, while time passes. Beside the
store, a history keeps what those calls have done, read off the calls and their answers and never
off the trees that the calls left behind:

* for each transaction handle, an account of the transaction that was last opened under it: how many
  were opened before it, the live trees as they were at its first look, and the changes that its
  calls have made, in order;
* the contributions to the live trees, in order: the change of each call that ran in no transaction,
  and the changes of each transaction that was committed.

A store with its history is a chronicle. Whatever happens to a chronicle is a sequence of moves of
five kinds, and `Chronicle.step_moves` is the only place that goes through the calls to say so. What
holds of every chronicle is proved for the five kinds.

## Main definitions

* `Action`: What can happen to a store.
* `Account`: What a history keeps about a transaction.
* `Contribution`: Changes that were made to the live trees together.
* `History`: What the calls on a store have done.
* `Chronicle`: A store with its history.
* `Chronicle.run`: A new store after any actions, with its history.
* `Store.Rests`: The trees stay as they are, and transactions may come to an end.
* `Moves`: What can happen to a chronicle.

## Theorems

* `Chronicle.run_store`: The history of a run has no influence on the store.
* `Chronicle.run_append`: Two runs in a row are one run.
* `Chronicle.step_moves`: An action is a sequence of moves.
-/

namespace TransactionalRegistry

/-- What can happen to a store: a call, a question for the state of a transaction, a location being
    protected, time that passes, an entry in the log. -/
inductive Action where
  | call (call : Call)
  | ask (t : TransactionHandle)
  | protect (l : Location)
  | pass (time : Time)
  | note (entry : LogEntry)

/-- The store after an action. -/
def Store.after (s : Store) : Action → Store
  | .call call => endState (perform call) s
  | .ask t => endState (transactionState? t) s
  | .protect l => s.protect l
  | .pass time => { s with clock := s.clock.advance time }
  | .note entry => s.note entry

/-! ## Histories -/

/-- What a history keeps about a transaction: how many transactions were opened before it, the live
    trees as they were when it first looked at them, if it has, and the changes that its calls have
    made. -/
structure Account where
  number : Nat
  base : Option Hives
  changes : List Mutation

/-- Changes that were made to the live trees together, by the transaction with the given number or
    by a call that ran in no transaction. -/
structure Contribution where
  source : Option Nat
  changes : List Mutation

/-- What the calls on a store have done. -/
structure History where
  /-- How many transactions were opened. -/
  created : Nat
  /-- The contributions to the live trees, oldest first. -/
  contributions : List Contribution
  /-- The account of the transaction that was last opened under a handle. -/
  accounts : TransactionHandle → Account

namespace History

/-- Nothing has been done. -/
def empty : History where
  created := 0
  contributions := []
  accounts _ := ⟨0, none, []⟩

/-- The changes that were made to the live trees, oldest first. -/
def mutations (g : History) : List Mutation :=
  g.contributions.flatMap (·.changes)

/-- The numbers of the transactions that have contributed. -/
def sources (g : History) : List Nat :=
  g.contributions.filterMap (·.source)

/-- The history with the account under a handle changed. -/
def withAccount (t : TransactionHandle) (f : Account → Account) (g : History) : History :=
  { g with accounts := fun t' => if t = t' then f (g.accounts t') else g.accounts t' }

/-- A transaction was opened. -/
def opened (t : TransactionHandle) (g : History) : History :=
  { g.withAccount t (fun _ => ⟨g.created, none, []⟩) with created := g.created + 1 }

/-- A call has looked at the trees while `live` were the live ones. -/
def looked (transaction : Option TransactionHandle) (live : Hives) (g : History) : History :=
  match transaction with
  | none => g
  | some t => g.withAccount t fun account => { account with base := account.base.or (some live) }

/-- A call has made a change. -/
def changed (transaction : Option TransactionHandle) (m : Mutation) (g : History) : History :=
  match transaction with
  | none => { g with contributions := g.contributions ++ [⟨none, [m]⟩] }
  | some t => g.withAccount t fun account => { account with changes := account.changes ++ [m] }

/-- A transaction was committed. -/
def committed (t : TransactionHandle) (g : History) : History :=
  { g with
    contributions :=
      g.contributions ++ [⟨some (g.accounts t).number, (g.accounts t).changes⟩] }

/-- A successful call has opened or committed a transaction, or neither. -/
def decided : (call : Call) → call.Answer → History → History
  | .createTransaction .., t, g => g.opened t
  | .commitTransaction t, _, g => g.committed t
  | _, _, g => g

/-- A call was made on the store `s` and ended with `result`. -/
def record (s : Store) (call : Call) (result : Except NativeError call.Answer) (g : History) :
    History :=
  let g := g.looked (s.lookedThrough call) s.hives
  match result with
  | .error _ => g
  | .ok answer =>
    match s.changeOf call answer with
    | none => g.decided call answer
    | some m => g.changed (s.transactionOf call) m

end History

/-- A store with the history of what was done to it. -/
structure Chronicle where
  store : Store
  history : History

namespace Chronicle

/-- A new store, to which nothing has been done. -/
def fresh (clock : Clock) : Chronicle :=
  ⟨Store.fresh clock, History.empty⟩

/-- The history after an action. Only calls leave a trace in it. -/
def historyAfter (c : Chronicle) : Action → History
  | .call call => c.history.record c.store call (outcome (Store.perform call) c.store)
  | _ => c.history

/-- The chronicle after an action. -/
def step (c : Chronicle) (action : Action) : Chronicle :=
  ⟨c.store.after action, c.historyAfter action⟩

/-- The chronicle after some actions. -/
def continued (c : Chronicle) (actions : List Action) : Chronicle :=
  actions.foldl step c

/-- A new store after some actions, with its history. -/
def run (clock : Clock) (actions : List Action) : Chronicle :=
  (fresh clock).continued actions

theorem continued_store (c : Chronicle) (actions : List Action) :
    (c.continued actions).store = actions.foldl Store.after c.store := by
  induction actions generalizing c with
  | nil => rfl
  | cons action rest ih => exact ih (c.step action)

/-- The history of a run has no influence on the store. -/
theorem run_store (clock : Clock) (actions : List Action) :
    (run clock actions).store = actions.foldl Store.after (Store.fresh clock) :=
  continued_store _ actions

/-- Two runs in a row are one run. -/
theorem run_append (clock : Clock) (actions more : List Action) :
    run clock (actions ++ more) = (run clock actions).continued more :=
  List.foldl_append

end Chronicle

/-! ## Moves -/

/-- The trees stay as they are. Time may pass, a handle may be drawn, and transactions may come to
    an end, by being rolled back or by being closed. -/
structure Store.Rests (s s' : Store) : Prop where
  hives : s'.hives = s.hives
  nextHandle : s'.nextHandle = s.nextHandle ∨ s'.nextHandle = s.nextHandle + handleStep
  clock : s.clock.now ≤ s'.clock.now
  records : ∀ t r', s'.record? t = some r' →
    ∃ r, s.record? t = some r ∧ (r' = r ∨ r.state = .active ∧ r' = r.discarded)

/-- What can happen to a chronicle, one move or several. -/
inductive Moves : Chronicle → Chronicle → Prop
  | rest {s s' : Store} {g : History} : s.Rests s' → Moves ⟨s, g⟩ ⟨s', g⟩
  | look {s s' : Store} {g : History} (transaction : Option TransactionHandle) :
      Store.Observed transaction s s' → Moves ⟨s, g⟩ ⟨s', g.looked transaction s.hives⟩
  | change {s s' : Store} {g : History} (transaction : Option TransactionHandle) (m : Mutation) :
      Store.Changed transaction m s s' → Moves ⟨s, g⟩ ⟨s', g.changed transaction m⟩
  | opened {s s' : Store} {g : History} {timeoutMillis : UInt32} {description : Option String}
      {t : TransactionHandle} :
      Store.Created timeoutMillis description t s s' → Moves ⟨s, g⟩ ⟨s', g.opened t⟩
  | committed {s s' : Store} {g : History} {t : TransactionHandle} {r : TransactionRecord} :
      Store.Decided t r r.settled s s' →
      Mutation.replay s'.clock.now s.hives r.log = .ok s'.hives →
      Moves ⟨s, g⟩ ⟨s', g.committed t⟩
  | trans {c c' c'' : Chronicle} : Moves c c' → Moves c' c'' → Moves c c''

namespace Store

variable {s s' s'' : Store}

theorem Rests.of_transactions (hhives : s'.hives = s.hives)
    (htransactions : s'.transactions = s.transactions) (hclock : s.clock.now ≤ s'.clock.now)
    (hnext : s'.nextHandle = s.nextHandle ∨ s'.nextHandle = s.nextHandle + handleStep) :
    Rests s s' where
  hives := hhives
  nextHandle := hnext
  clock := hclock
  records t r' hr' := by
    rw [record?, htransactions] at hr'
    exact ⟨r', hr', Or.inl rfl⟩

theorem SameTrees.rests (h : SameTrees s s') : Rests s s' :=
  .of_transactions h.hives h.transactions (Nat.le_of_eq (congrArg Clock.now h.clock.symm))
    h.nextHandle

/-- A look at the deadline of a transaction may end it, and does nothing else. -/
theorem Checked.rests {t : TransactionHandle} (h : Checked t s s') : Rests s s' where
  hives := h.look.hives
  nextHandle := Or.inl h.look.nextHandle
  clock := h.look.clock
  records t' r' hr' := by
    by_cases ht : t = t'
    · subst ht
      rcases h.look.origin hr' with ⟨r, hr, _⟩
      -- The deadline was looked at: either it had not come, or it ended the transaction.
      refine ⟨r, hr, ?_⟩
      cases h.record r r' hr hr' with
      | kept _ => exact Or.inl rfl
      | expired _ hactive => exact Or.inr ⟨hactive, rfl⟩
    · have hother := h.look.others t' (fun heq => ht (Option.some.inj heq))
      exact ⟨r', hother ▸ hr', Or.inl rfl⟩

/-- Giving up a transaction leaves the trees and the other transactions alone. -/
theorem Decided.rests {t : TransactionHandle} {r : TransactionRecord}
    (h : Decided t r r.discarded s s') (hhives : s'.hives = s.hives) : Rests s s' where
  hives := hhives
  nextHandle := Or.inl h.nextHandle
  clock := h.clock
  records t' r' hr' := by
    by_cases ht : t = t'
    · subst ht
      rw [h.decided, Option.some.injEq] at hr'
      exact ⟨r, h.found, Or.inr ⟨h.active, hr'.symm⟩⟩
    · rw [h.others t' ht] at hr'
      exact ⟨r', hr', Or.inl rfl⟩

/-- Forgetting a transaction leaves the trees and the other transactions alone. -/
theorem rests_of_erase {t : TransactionHandle} (hhives : s'.hives = s.hives)
    (hnext : s'.nextHandle = s.nextHandle) (hclock : s'.clock = s.clock)
    (htransactions : s'.transactions = Table.erase s.transactions t) : Rests s s' where
  hives := hhives
  nextHandle := Or.inl hnext
  clock := Nat.le_of_eq (congrArg Clock.now hclock.symm)
  records t' r' hr' := by
    rw [record?, htransactions, Table.find?_erase] at hr'
    by_cases ht : t = t'
    · rw [if_pos ht] at hr'
      exact absurd hr' (by simp)
    · rw [if_neg ht] at hr'
      exact ⟨r', hr', Or.inl rfl⟩

/-- Looking at the live trees ends no transaction. -/
theorem Looked.rests (h : Looked none s s') (htransactions : s'.transactions = s.transactions) :
    Rests s s' :=
  .of_transactions h.hives htransactions h.clock (Or.inl h.nextHandle)

end Store

/-! ## Actions are made of moves -/

namespace History

variable {s : Store} {call : Call}

theorem record_ok_of_not_looks (hlooks : s.looks call = false) {answer : call.Answer}
    (hchange : s.changeOf call answer = none) (g : History) :
    g.record s call (.ok answer) = g.decided call answer := by
  simp only [record, Store.lookedThrough_of_not_looks hlooks, looked, hchange]

theorem record_error_of_not_looks (hlooks : s.looks call = false) (e : NativeError)
    (g : History) : g.record s call (.error e) = g := by
  simp only [record, Store.lookedThrough_of_not_looks hlooks, looked]

end History

namespace Chronicle

open Store

variable {c : Chronicle}

/-- A successful call on a key is a look, a change if it made one, and then a rest. -/
theorem moves_of_performed {call : Call} {answer : call.Answer} {s' : Store}
    (hdecided : ∀ g : History, g.decided call answer = g)
    (hlooks : (c.store.changeOf call answer).isSome → c.store.looks call = true)
    (h : Performed (c.store.lookedThrough call) (c.store.changeOf call answer) c.store s') :
    Moves c ⟨s', c.history.record c.store call (.ok answer)⟩ := by
  rcases h with ⟨s₁, s₂, hobs, hchange, hsame⟩
  have hlook : Moves c ⟨s₁, c.history.looked (c.store.lookedThrough call) c.store.hives⟩ :=
    .look _ hobs
  unfold History.record
  rcases hchange with ⟨hnone, rfl⟩ | ⟨m, hm, hchanged⟩
  · simp only [hnone, hdecided]
    exact hlook.trans (.rest hsame.rests)
  · -- The transaction that was looked through is the one that the call ran in.
    have hin : c.store.lookedThrough call = c.store.transactionOf call := by
      rw [lookedThrough, hlooks (by rw [hm]; rfl), if_pos rfl]
    simp only [hm]
    rw [← hin]
    exact (hlook.trans (.change _ m hchanged)).trans (.rest hsame.rests)

theorem moves_of_call_on_key {call : Call} (hkey : call.key?.isSome)
    (hdecided : ∀ (answer : call.Answer) (g : History), g.decided call answer = g) :
    Moves c (c.step (.call call)) := by
  refine Ends.outcome (P := fun result s' => Moves c ⟨s', c.history.record c.store call result⟩) ?_
  refine ((perform_ends call hkey c.store).and (looks_of_changeOf call c.store)).mono ?_ ?_
  · intro answer s' h
    exact moves_of_performed (hdecided answer) h.2 h.1
  · -- A call on a key that fails has looked at most.
    intro e s' h
    exact .look _ h.1

/-- A call that may change how far a transaction has come. -/
theorem moves_of_call_on_transaction {call : Call} (hlooks : c.store.looks call = false)
    (hchange : ∀ answer, c.store.changeOf call answer = none)
    (h : Ends (perform call) c.store
      (fun answer s' => Moves c ⟨s', c.history.decided call answer⟩)
      (fun _ s' => Moves c ⟨s', c.history⟩)) :
    Moves c (c.step (.call call)) := by
  refine Ends.outcome (P := fun result s' => Moves c ⟨s', c.history.record c.store call result⟩) ?_
  refine h.mono ?_ ?_
  · intro answer s' hmoves
    rw [History.record_ok_of_not_looks hlooks (hchange answer)]
    exact hmoves
  · intro e s' hmoves
    rw [History.record_error_of_not_looks hlooks]
    exact hmoves

/-- An action is a sequence of moves. -/
theorem step_moves (haligned : c.store.Aligned) (action : Action) :
    Moves c (c.step action) := by
  cases action with
  | ask t =>
    have hchecked : Checked t c.store (c.store.after (.ask t)) :=
      (transactionState?_ends t c.store).endState_total
    exact .rest hchecked.rests
  | protect l => exact .rest (.of_transactions rfl rfl (Nat.le_refl _) (Or.inl rfl))
  | pass time => exact .rest (.of_transactions rfl rfl (Nat.le_add_right _ _) (Or.inl rfl))
  | note entry => exact .rest (.of_transactions rfl rfl (Nat.le_refl _) (Or.inl rfl))
  | call call =>
    cases call with
    | createTransaction timeoutMillis description =>
      refine moves_of_call_on_transaction rfl (fun _ => rfl) ?_
      refine (createTransaction_ends timeoutMillis description c.store).mono ?_ ?_
      · intro t s' h
        exact .opened h.2.2
      · intro e s' h
        rcases h with ⟨_, hlook, hsame, _⟩ | hinvalid
        · exact .rest (hlook.rests hsame)
        · -- The counter of handles never comes to the invalid one.
          exact absurd hinvalid (by rw [haligned.not_invalid]; simp)
    | transactionOutcome t =>
      refine moves_of_call_on_transaction rfl (fun _ => rfl) ?_
      refine (transactionOutcome_ends t c.store).mono ?_ ?_
      · intro _ s' h
        exact .rest h.1.rests
      · intro e s' h
        exact .rest h.2.1.rests
    | commitTransaction t =>
      refine moves_of_call_on_transaction rfl (fun _ => rfl) ?_
      refine (commitTransaction_ends t c.store).mono ?_ ?_
      · intro _ s' h
        rcases h with ⟨s₁, r, hchecked, hsettled, hreplay⟩
        -- The deadline is looked at before the changes are replayed.
        rw [← hchecked.look.hives] at hreplay
        exact (Moves.rest hchecked.rests).trans (.committed hsettled hreplay)
      · intro e s' h
        rcases h with hundecidable | ⟨_, hhives, s₁, r, _, hchecked, hdiscarded, _⟩
        · exact .rest hundecidable.1.rests
        · have hhives' := hhives.trans hchecked.look.hives.symm
          exact (Moves.rest hchecked.rests).trans (.rest (hdiscarded.rests hhives'))
    | rollbackTransaction t =>
      refine moves_of_call_on_transaction rfl (fun _ => rfl) ?_
      refine (rollbackTransaction_ends t c.store).mono ?_ ?_
      · intro _ s' h
        rcases h with ⟨hhives, s₁, r, hchecked, hdiscarded⟩
        have hhives' := hhives.trans hchecked.look.hives.symm
        exact (Moves.rest hchecked.rests).trans (.rest (hdiscarded.rests hhives'))
      · intro e s' h
        exact .rest h.1.rests
    | closeTransaction t =>
      refine moves_of_call_on_transaction rfl (fun _ => rfl) ?_
      refine (closeTransaction_ends t c.store).mono ?_ ?_
      · intro _ s' h
        rcases h with ⟨_, hhives, _, _, hnext, hclock, htransactions⟩
        exact .rest (rests_of_erase hhives hnext hclock htransactions)
      · intro e s' h
        exact .rest (h.2.1.rests h.2.2.1)
    | _ => exact moves_of_call_on_key rfl (fun _ _ => rfl)

end Chronicle

end TransactionalRegistry
