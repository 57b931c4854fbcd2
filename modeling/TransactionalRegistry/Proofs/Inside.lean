import TransactionalRegistry.Proofs.Lifetimes
import TransactionalRegistry.Proofs.Stopped
import TransactionalRegistry.Proofs.Views

/-!
# Operations stay inside their transaction

While a transaction is current, whatever has become of it, an operation on a key makes every one of
its calls in it: by naming it, or through a key that a call which named it has opened. Such a call
leaves the live trees alone, and how it ends is told by the view of the transaction. A transaction
that has ended, or ends in the middle of the operation, has no view, so there is nothing to fall
through to; if it has ended before, the first call of the operation fails and the operation with it.

A key that an operation opens gets a handle that nobody has had before, and below the handles of the
root keys. So closing it again leaves the open handles as they were, entry by entry.

## Main definitions

* `Store.CallInside`: A call runs in a transaction and ends as the view of it tells.
* `Timeline.Below`: The counter of handles has stayed below the handles of the root keys.
* `Timeline.Contained`: Some actions have stayed inside a transaction.
* `Context.StaysInside`: An operation has stayed inside the transaction that is current.

## Theorems

* `Table.erase_insert`: Taking out what was put in gives the table back.
* `Timeline.Below.allotted`: Whatever is open after a run was handed out in it, and only once.
* `Timeline.AtRest.byPath`, `Timeline.HasOpen.through`, `Timeline.HasOpen.closed`: The calls that an
  operation makes.
* `operations_stay_inside`: What an operation does while a transaction is current.
-/

namespace TransactionalRegistry

open Store (handleStep)

/-! ## Open handles -/

namespace Table

variable {κ α : Type} [DecidableEq κ] {table : Table κ α} {key : κ}

/-- To take out what is not there changes nothing. -/
theorem erase_of_missing (h : find? table key = none) : erase table key = table := by
  induction table with
  | nil => rfl
  | cons head rest ih =>
    rcases head with ⟨k, a⟩
    by_cases hk : k = key
    · rw [find?, if_pos hk] at h
      exact absurd h (by simp)
    · rw [find?, if_neg hk] at h
      have hrest := ih h
      unfold erase at hrest ⊢
      rw [List.filter_cons_of_pos (by simpa using hk), hrest]

/-- Taking out what was put into a table that had nothing there gives the table back. -/
theorem erase_insert [LT κ] [DecidableLT κ] (h : find? table key = none) (entry : α) :
    erase (insert table key entry) key = table := by
  -- An entry that was put in front is taken off again.
  have hput : ∀ more : Table κ α, erase ((key, entry) :: more) key = erase more key := by
    intro more
    exact List.filter_cons_of_neg (by simp)
  induction table with
  | nil => exact hput []
  | cons head rest ih =>
    rcases head with ⟨k, a⟩
    by_cases hk : k = key
    · rw [find?, if_pos hk] at h
      exact absurd h (by simp)
    · by_cases hlt : key < k
      · -- The new entry stands in front of larger ones, among which the key was not.
        rw [insert, if_neg (Ne.symm hk), if_pos hlt, hput, erase_of_missing h]
      · rw [find?, if_neg hk] at h
        have hrest := ih h
        rw [insert, if_neg (Ne.symm hk), if_neg hlt]
        unfold erase at hrest ⊢
        rw [List.filter_cons_of_pos (by simpa using hk), hrest]

end Table

namespace Store

variable {s s' : Store} {t : TransactionHandle}

/-- A call that neither opens a key nor closes one leaves the open handles as they were. -/
theorem perform_keys {call : Call} (hkey : call.key?.isSome) (hopen : ∀ key, call ≠ .closeKey key)
    (s : Store) :
    Ends (perform call) s (fun answer s' => call.handle? answer = none → s'.keys = s.keys)
      (fun _ s' => s'.keys = s.keys) := by
  -- A call that reads has looked, and opened nothing.
  have hreads : ∀ {α : Type} (key : KeyHandle) (access : Access)
      (transaction : Option TransactionHandle) (read : Node → Except NativeError α),
      Ends (withNode key access transaction read) s (fun _ s' => s'.keys = s.keys)
        (fun _ _ => True) := by
    intro α key access transaction read
    refine (withNode_ends key access transaction read s).mono ?_ (fun _ _ _ => trivial)
    intro _ _ h
    rcases h with ⟨_, _, _, hobs⟩
    exact hobs.1.keys
  -- A call that changes a value has looked and changed the trees.
  have hwrites : ∀ (key : KeyHandle) (transaction : Option TransactionHandle)
      (mutation : Location → Mutation), Ends (changeValue key transaction mutation) s
        (fun _ s' => s'.keys = s.keys) (fun _ _ => True) := by
    intro key transaction mutation
    refine (changeValue_ends key transaction mutation s).mono ?_ (fun _ _ _ => trivial)
    intro _ _ h
    rcases h with ⟨_, _, _, _, hobs, hchanged⟩
    exact hchanged.frame.keys.trans hobs.1.keys
  -- So has a call that changes a key.
  have hchanges : ∀ (parent : KeyHandle) (subKey : String)
      (transaction : Option TransactionHandle) (mutation : Location → Mutation),
      Ends (changeKey parent subKey transaction mutation) s (fun _ s' => s'.keys = s.keys)
        (fun _ _ => True) := by
    intro parent subKey transaction mutation
    refine (changeKey_ends parent subKey transaction mutation s).mono ?_ (fun _ _ _ => trivial)
    intro _ _ h
    rcases h with ⟨_, _, _, hobs, hchanged⟩
    exact hchanged.frame.keys.trans hobs.1.keys
  -- This is for calls that succeed; one that fails has looked at most.
  have hok : Ends (perform call) s
      (fun answer s' => call.handle? answer = none → s'.keys = s.keys) (fun _ _ => True) := by
    cases call with
    | openKey =>
      exact ends_of_forall (fun _ _ h => absurd h (by simp [Call.handle?])) (fun _ _ => trivial)
    | createKey =>
      exact ends_of_forall (fun _ _ h => absurd h (by simp [Call.handle?])) (fun _ _ => trivial)
    | deleteKey parent subKey transaction =>
      unfold perform deleteKey
      exact (hchanges parent subKey transaction _).mono (fun _ _ h _ => h) (fun _ _ h => h)
    | renameKey parent subKey newName transaction =>
      unfold perform renameKey
      exact (hchanges parent subKey transaction _).mono (fun _ _ h _ => h) (fun _ _ h => h)
    | closeKey key => exact absurd rfl (hopen key)
    | queryInfo key =>
      unfold perform queryInfo
      exact (hreads key _ none _).mono (fun _ _ h _ => h) (fun _ _ h => h)
    | enumKey key index =>
      unfold perform enumKey
      exact (hreads key _ none _).mono (fun _ _ h _ => h) (fun _ _ h => h)
    | enumValue key index =>
      unfold perform enumValue
      exact (hreads key _ none _).mono (fun _ _ h _ => h) (fun _ _ h => h)
    | getValue key name transaction =>
      unfold perform getValue
      exact (hreads key _ transaction _).mono (fun _ _ h _ => h) (fun _ _ h => h)
    | setValue key name data transaction =>
      unfold perform setValue
      exact (hwrites key transaction _).mono (fun _ _ h _ => h) (fun _ _ h => h)
    | deleteValue key name transaction =>
      unfold perform deleteValue
      exact (hwrites key transaction _).mono (fun _ _ h _ => h) (fun _ _ h => h)
    | createTransaction => exact absurd hkey (by simp [Call.key?])
    | transactionOutcome => exact absurd hkey (by simp [Call.key?])
    | commitTransaction => exact absurd hkey (by simp [Call.key?])
    | rollbackTransaction => exact absurd hkey (by simp [Call.key?])
    | closeTransaction => exact absurd hkey (by simp [Call.key?])
  exact (hok.and (perform_ends call hkey s)).mono (fun _ _ h => h.1) (fun _ _ h => h.2.1.keys)

/-! ## Calls inside a transaction -/

/-- A call runs in a transaction and ends as the view of it tells; or it closes a key. -/
def CallInside (t : TransactionHandle) (s : Store) (call : Call) : Prop :=
  (∃ key, call = .closeKey key) ∨
    s.transactionOf call = some t ∧ s.Finds call (outcome (perform call) s)

/-- A call on a key that runs in a transaction is one inside it. -/
theorem callInside {call : Call} (hkey : call.key?.isSome) (hin : s.transactionOf call = some t) :
    s.CallInside t call := by
  by_cases hopen : ∀ key, call ≠ .closeKey key
  · -- It is not the close of a key, so it ends as the view tells.
    exact Or.inr ⟨hin, perform_finds hkey hopen s⟩
  · rcases Classical.not_forall.mp hopen with ⟨key, hclose⟩
    exact Or.inl ⟨key, Classical.not_not.mp hclose⟩

end Store

/-! ## Timelines -/

namespace Timeline

/-- The counter of handles has stayed below the handles of the root keys. -/
def Below (l : Timeline) : Prop :=
  (Store.fresh l.clock).BelowRoots l.actions

instance (l : Timeline) : Decidable l.Below :=
  inferInstanceAs (Decidable ((Store.fresh l.clock).BelowRoots l.actions))

variable {l : Timeline} {t : TransactionHandle} {key : KeyHandle} {made : List Action}

/-- The counter is below the root keys now. -/
theorem Below.next (h : l.Below) : l.store.nextHandle.toNat < 0x80000000 := by
  have hlast := Store.BelowRoots.last h
  rw [store, chronicle, Chronicle.run_store]
  exact hlast

/-- It was so at any earlier time. -/
theorem Below.before {l' : Timeline} (h : l'.Below) (hbefore : l.Before l') : l.Below := by
  -- The actions up to then are the first ones of all.
  have hfirst : ∀ (s : Store) (actions more : List Action), s.BelowRoots (actions ++ more) →
      s.BelowRoots actions := by
    intro s actions more hboth
    induction actions generalizing s with
    | nil => exact hboth.first
    | cons first rest ih => exact ⟨hboth.1, ih _ hboth.2⟩
  obtain ⟨hclock, more, hmore⟩ := hbefore
  rw [Below, hclock, ← hmore] at h
  exact hfirst _ _ _ h

/-- It was so before the last action. -/
theorem Below.earlier {action : Action} (h : (l.after action).Below) : l.Below :=
  h.before (before_after l action)

/-- As long as the counter stays below the root keys, every handle that is handed out is new. -/
theorem Below.allotted (h : l.Below) : Store.Allotted l.handles l.store := by
  refine allotted_of_up (fun l₁ action hbefore => ?_)
  exact Store.next_toNat (h.before ((before_after l₁ action).trans hbefore)).next
    (allots_after l₁ action).nextHandle

/-! ## What an operation has done so far -/

/-- Some actions have stayed inside a transaction: the live trees are as they were, and each call
    among the actions was one inside the transaction when it was made. -/
structure Contained (t : TransactionHandle) (l : Timeline) (made : List Action) : Prop where
  hives : (l.extended made).store.hives = l.store.hives
  calls : ∀ before call after, made = before ++ .call call :: after →
    (l.extended before).store.CallInside t call

/-- Where nothing was done, nothing has left the transaction. -/
theorem contained_nil (t : TransactionHandle) (l : Timeline) : l.Contained t [] := by
  refine ⟨by rw [extended_nil], fun before call after h => ?_⟩
  exact absurd h.symm (by simp)

/-- One more action that leaves the live trees alone and is no call from outside. -/
theorem Contained.more {action : Action} (h : l.Contained t made)
    (hhives : ((l.extended made).after action).store.hives = (l.extended made).store.hives)
    (hcall : ∀ call, action = .call call → (l.extended made).store.CallInside t call) :
    l.Contained t (made ++ [action]) := by
  refine ⟨?_, fun before call after hsplit => ?_⟩
  · rw [← after_extended, hhives, h.hives]
  · -- The call is the last action or one of those before.
    rcases List.eq_nil_or_concat after with rfl | ⟨earlier, last, rfl⟩
    · rcases List.append_inj' hsplit rfl with ⟨rfl, hlast⟩
      exact hcall call (List.singleton_inj.mp hlast)
    · have hsplit' : made ++ [action] = (before ++ .call call :: earlier) ++ [last] := by
        simpa using hsplit
      exact h.calls before call earlier (List.append_inj' hsplit' rfl).1

/-- Nothing is open that was not open before. -/
def AtRest (t : TransactionHandle) (l : Timeline) (made : List Action) : Prop :=
  (l.extended made).Below →
    l.Contained t made ∧ (l.extended made).store.keys = l.store.keys

/-- One key more is open, under a handle that nobody had, and it is bound to the transaction. -/
def HasOpen (t : TransactionHandle) (key : KeyHandle) (l : Timeline) (made : List Action) : Prop :=
  (l.extended made).Below →
    l.Contained t made ∧ key.root? = none ∧ Table.find? l.store.keys key = none ∧
      ∃ place access, (l.extended made).store.keys
        = Table.insert l.store.keys key ⟨place, access, some t⟩

/-- Where nothing was done, nothing is open. -/
theorem atRest_nil (t : TransactionHandle) (l : Timeline) : l.AtRest t [] :=
  fun _ => ⟨contained_nil t l, by rw [extended_nil]⟩

/-- A call in a transaction, among the actions of an operation. -/
theorem Contained.call {call : Call} (h : l.Contained t made) (hkey : call.key?.isSome)
    (hin : (l.extended made).store.transactionOf call = some t) :
    l.Contained t (made ++ [.call call]) := by
  refine h.more ?_ ?_
  · -- The call is confined to its transaction, and the live trees lie outside of it.
    have hconfined := Store.perform_confined call hkey (l.extended made).store
    rw [store_call, hconfined.hives (by rw [hin]; rfl)]
  · rintro _ ⟨⟩
    exact Store.callInside hkey hin

/-- Entries in the log stay inside. -/
theorem Contained.noted (h : l.Contained t made) (entry : LogEntry) :
    l.Contained t (made ++ [.note entry]) :=
  h.more (noted_after _ entry).hives (fun _ heq => absurd heq (by simp))

/-- Entries in the log open nothing. -/
theorem AtRest.noted (h : l.AtRest t made) (entry : LogEntry) :
    l.AtRest t (made ++ [.note entry]) := by
  intro hbelow
  rw [← after_extended] at hbelow ⊢
  rcases h hbelow.earlier with ⟨hcontained, hkeys⟩
  exact ⟨hcontained.noted entry, (noted_after _ entry).keys.trans hkeys⟩

/-- Entries in the log leave the key open. -/
theorem HasOpen.noted (h : l.HasOpen t key made) (entry : LogEntry) :
    l.HasOpen t key (made ++ [.note entry]) := by
  intro hbelow
  rw [← after_extended] at hbelow ⊢
  rcases h hbelow.earlier with ⟨hcontained, hroot, hmissing, place, access, hkeys⟩
  exact ⟨hcontained.noted entry, hroot, hmissing, place, access,
    (noted_after _ entry).keys.trans hkeys⟩

/-- A call by path from a root key opens one key or none. -/
theorem AtRest.byPath {call : Call} (h : l.AtRest t made) (hpath : call.ByPath (some t))
    {answer : call.Answer}
    (hanswer : outcome (Store.perform call) (l.extended made).store = .ok answer) :
    match call.handle? answer with
    | some key => l.HasOpen t key (made ++ [.call call])
    | none => l.AtRest t (made ++ [.call call]) := by
  have hcall := Store.transactionOf_byPath (s := (l.extended made).store) hpath
  -- A call by path is not the close of a key.
  have hopen : ∀ key, call ≠ .closeKey key := by
    rintro key rfl
    cases hpath
  have hafter := Store.handlesAfter_of_ok hcall.1 hanswer
  have hkept := (Store.perform_keys hcall.1 hopen _).ok (eq_of_outcome hanswer)
  unfold Store.HandlesAfter at hafter
  cases hhandle : call.handle? answer with
  | none =>
    intro hbelow
    rw [← after_extended] at hbelow ⊢
    rcases h hbelow.earlier with ⟨hcontained, hkeys⟩
    exact ⟨hcontained.call hcall.1 hcall.2, by rw [store_call, hkept hhandle, hkeys]⟩
  | some key =>
    intro hbelow
    rw [← after_extended] at hbelow ⊢
    rcases h hbelow.earlier with ⟨hcontained, hkeys⟩
    rw [hhandle, hcall.2] at hafter
    rcases hafter.2.keys with ⟨place, access, hinserted⟩
    -- The handle is the next one, so it is neither open yet nor that of a root key.
    have hraw : key.raw.toNat = (l.extended made).store.nextHandle.toNat := by
      rw [hafter.2.handle]
    have hnext := hbelow.earlier.next
    refine ⟨hcontained.call hcall.1 hcall.2, KeyHandle.root?_eq_none (by omega), ?_, place, access,
      by rw [store_call, hinserted, hkeys]⟩
    -- Had the handle been open before, it would lie below the counter.
    cases hfound : Table.find? l.store.keys key with
    | none => rfl
    | some k =>
      rw [← hkeys] at hfound
      have hopen : (l.extended made).store.OpenUnder (.key key) :=
        Option.isSome_iff_exists.mpr ⟨k, hfound⟩
      exact absurd (hbelow.earlier.allotted.lt_of_open hopen) (by rw [AnyHandle.raw]; omega)

/-- A call by path that fails opens nothing. -/
theorem AtRest.byPath_error {call : Call} (h : l.AtRest t made) (hpath : call.ByPath (some t))
    {e : NativeError}
    (herror : outcome (Store.perform call) (l.extended made).store = .error e) :
    l.AtRest t (made ++ [.call call]) := by
  have hcall := Store.transactionOf_byPath (s := (l.extended made).store) hpath
  have hopen : ∀ key, call ≠ .closeKey key := by
    rintro key rfl
    cases hpath
  have hkept := (Store.perform_keys hcall.1 hopen _).error (eq_of_outcome_error herror)
  intro hbelow
  rw [← after_extended] at hbelow ⊢
  rcases h hbelow.earlier with ⟨hcontained, hkeys⟩
  exact ⟨hcontained.call hcall.1 hcall.2, by rw [store_call, hkept, hkeys]⟩

/-- What the handle of the open key denotes. -/
theorem opened_of_keys {s : Store} {keys : Table KeyHandle OpenKey} {k : OpenKey}
    (hroot : key.root? = none) (hkeys : s.keys = Table.insert keys key k) :
    s.opened key = some k := by
  rw [Store.opened, hroot, hkeys]
  exact (Table.find?_insert _ _ _ _).trans (if_pos rfl)

/-- A call through the open key runs in the transaction, however it ends. -/
theorem HasOpen.through {call : Call} (h : l.HasOpen t key made)
    (hthrough : call.Through (some t) key) : l.HasOpen t key (made ++ [.call call]) := by
  intro hbelow
  rw [← after_extended] at hbelow ⊢
  rcases h hbelow.earlier with ⟨hcontained, hroot, hmissing, place, access, hkeys⟩
  have hopened := opened_of_keys hroot hkeys
  have hkey : call.key? = some key := by cases hthrough <;> rfl
  -- The call names the transaction, or it goes by the one that the key is bound to.
  have hin : (l.extended made).store.transactionOf call = some t := by
    rw [Store.transactionOf_eq hkey hopened]
    cases hthrough <;> rfl
  have hsome : call.key?.isSome := by rw [hkey]; rfl
  have hopen : ∀ other, call ≠ .closeKey other := by
    rintro other rfl
    cases hthrough
  -- Calls through a key answer with no handle.
  have hhandle : ∀ answer, call.handle? answer = none := by cases hthrough <;> exact fun _ => rfl
  have hkept : (endState (Store.perform call) (l.extended made).store).keys
      = (l.extended made).store.keys :=
    Ends.endState (P := fun s' : Store => s'.keys = (l.extended made).store.keys)
      ((Store.perform_keys hsome hopen _).mono (fun answer _ h => h (hhandle answer))
        (fun _ _ h => h))
  exact ⟨hcontained.call hsome hin, hroot, hmissing, place, access,
    by rw [store_call, hkept, hkeys]⟩

/-- Closing the open key leaves nothing open that was not open before. -/
theorem HasOpen.closed (h : l.HasOpen t key made) :
    l.AtRest t (made ++ [.call (.closeKey key)]) := by
  intro hbelow
  rw [← after_extended] at hbelow ⊢
  rcases h hbelow.earlier with ⟨hcontained, hroot, hmissing, place, access, hkeys⟩
  have hnamed : key.isPredefined = false := by rw [KeyHandle.isPredefined, hroot]; rfl
  have hthere : Table.contains (l.extended made).store.keys key = true := by
    rw [Table.contains, hkeys, Table.find?_insert, if_pos rfl]
    rfl
  have hclosed : (endState (Store.perform (.closeKey key)) (l.extended made).store).keys
      = l.store.keys := by
    refine Ends.endState (P := fun s' : Store => s'.keys = l.store.keys) ?_
    refine (Store.closeKey_ends key _).mono ?_ ?_
    · intro _ s' hend
      rcases hend with ⟨hpredefined, _⟩ | ⟨_, _, rfl⟩
      · exact absurd hpredefined (by rw [hnamed]; simp)
      · change Table.erase (l.extended made).store.keys key = _
        rw [hkeys, Table.erase_insert hmissing]
    · intro e s' hend
      exact absurd hthere (by rw [hend.2.1]; simp)
  refine ⟨hcontained.more ?_ (fun call heq => ?_), by rw [store_call, hclosed]⟩
  · -- A close looks at no trees.
    have hconfined : Store.Confined (some t) (l.extended made).store
        (endState (Store.perform (.closeKey key)) (l.extended made).store) :=
      Store.confined_of_looks (.closeKey key) rfl
        (fun hlooks => absurd hlooks (by simp [Store.looks]))
    rw [store_call]
    exact hconfined.hives rfl
  · cases heq
    exact Or.inl ⟨key, rfl⟩

end Timeline

/-! ## The session of an operation -/

/-- The session of an operation with a transaction current: all that it does stays inside. -/
def Context.insideSession (ctx : Context Timeline) {tx : Transaction}
    (hcurrent : Ambient.top ctx.ambient = some tx) : Session Timeline (some tx.handle) where
  Idle ctx' := ∃ made, ctx' = { ctx with world := ctx.world.extended made } ∧
    ctx.world.AtRest tx.handle made
  Open key ctx' := ∃ made, ctx' = { ctx with world := ctx.world.extended made } ∧
    ctx.world.HasOpen tx.handle key made
  current := by
    rintro _ ⟨made, rfl, _⟩
    exact congrArg (Option.map (·.handle)) hcurrent
  idle_logged := by
    rintro _ entry ⟨made, rfl, hrest⟩
    refine ⟨_, ?_, hrest.noted entry⟩
    rw [← Timeline.after_extended]
    rfl
  open_logged := by
    rintro key _ entry ⟨made, rfl, hopen⟩
    refine ⟨_, ?_, hopen.noted entry⟩
    rw [← Timeline.after_extended]
    rfl
  byPath := by
    rintro call hpath _ ⟨made, rfl, hrest⟩
    refine (ends_call_after call _).mono ?_ ?_
    · rintro answer _ ⟨hanswer, rfl⟩
      have hdone := hrest.byPath hpath hanswer
      cases hhandle : call.handle? answer with
      | some key =>
        rw [hhandle] at hdone
        exact ⟨_, by rw [Timeline.after_extended], hdone⟩
      | none =>
        rw [hhandle] at hdone
        exact ⟨_, by rw [Timeline.after_extended], hdone⟩
    · rintro _ _ ⟨e, _, herror, rfl⟩
      exact ⟨_, by rw [Timeline.after_extended], hrest.byPath_error hpath herror⟩
  through := by
    rintro key call hthrough _ ⟨made, rfl, hopen⟩
    refine (ends_call_after call _).mono ?_ ?_
    · rintro _ _ ⟨_, rfl⟩
      exact ⟨_, by rw [Timeline.after_extended], hopen.through hthrough⟩
    · rintro _ _ ⟨_, _, _, rfl⟩
      exact ⟨_, by rw [Timeline.after_extended], hopen.through hthrough⟩
  close := by
    rintro key _ ⟨made, rfl, hopen⟩
    refine (ends_call_after _ _).mono ?_ ?_
    · rintro _ _ ⟨_, rfl⟩
      exact ⟨_, by rw [Timeline.after_extended], hopen.closed⟩
    · rintro _ _ ⟨_, _, _, rfl⟩
      exact ⟨_, by rw [Timeline.after_extended], hopen.closed⟩

/-! ## Operations -/

/-- An operation on the key at a location, with the transaction `t` current, has ended in a way
    after adding some actions: every call among them was made in the transaction, the live trees
    and the open handles are what they were, and if the transaction was over before, then a call
    was the end of the operation. -/
structure Context.StaysInside {α : Type} (ctx : Context Timeline) (t : TransactionHandle)
    (l : Location) (made : List Action) (ending : Except (Failure RegistryError) α) : Prop where
  contained : ctx.world.Contained t made
  keys : (ctx.world.extended made).store.keys = ctx.world.store.keys
  stopped : ctx.world.store.Over t → ∀ call, .call call ∈ made →
    ∃ e, ending = .error (.error e) ∧ ctx.world.store.Refusal t l.text e

/-- While a transaction is current, whatever has become of it and whatever becomes of it in the
    meantime, an operation on a key stays inside it. -/
theorem operations_stay_inside (ctx : Context Timeline) (tx : Transaction)
    (hcurrent : Ambient.top ctx.ambient = some tx) (l : Location) (operation : KeyOperation)
    (hbelow : (endState (operation.act l) ctx).world.Below) :
    ∃ made, endState (operation.act l) ctx = { ctx with world := ctx.world.extended made } ∧
      ctx.StaysInside tx.handle l made (outcome (operation.act l) ctx) := by
  have hidle : (ctx.insideSession hcurrent).Idle ctx :=
    ⟨[], by rw [Timeline.extended_nil], Timeline.atRest_nil tx.handle ctx.world⟩
  rcases ((ctx.insideSession hcurrent).keyOperation l operation ctx hidle).endState
    with ⟨made, hend, hrest⟩
  rw [hend] at hbelow
  rcases hrest hbelow with ⟨hcontained, hkeys⟩
  refine ⟨made, hend, hcontained, hkeys, fun hover call hcall => ?_⟩
  -- The transaction is over, so that the first call is also the last.
  have hspent : ctx.Spent tx.handle := ⟨congrArg (Option.map (·.handle)) hcurrent, hover⟩
  -- Where entries were logged and nothing else, there is no call among the actions.
  have hmade : ¬ ctx.Hushed (endState (operation.act l) ctx) := by
    rintro ⟨entries, hquiet⟩
    have hworld := congrArg Context.world (hend.symm.trans hquiet)
    have hactions : made = entries.map .note :=
      List.append_cancel_left (congrArg Timeline.actions hworld)
    rw [hactions] at hcall
    rcases List.mem_map.mp hcall with ⟨entry, _, heq⟩
    exact absurd heq (by simp)
  have hstops := KeyOperation.stops hspent l operation ctx (Context.hushed_refl ctx)
  have hending : ctx.Hushed (endState (operation.act l) ctx) ∨
      ∃ e, outcome (operation.act l) ctx = .error (.error e) ∧
        ctx.world.store.Refusal tx.handle l.text e := by
    refine Ends.outcome (P := fun ending ctx' => ctx.Hushed ctx' ∨
      ∃ e, ending = .error (.error e) ∧ ctx.world.store.Refusal tx.handle l.text e)
      (hstops.mono (fun _ _ hdone => Or.inl hdone.2) ?_)
    rintro failure ctx' (hquiet | ⟨e, rfl, he⟩)
    · exact Or.inl hquiet
    · exact Or.inr ⟨e, rfl, he⟩
  exact hending.resolve_left hmade

/-- Work that is still in a transaction whose time has run out. -/
def workingLate : Context Timeline where
  world := ⟨⟨0, [3]⟩, .call (.createTransaction 10 none) :: createAndWait⟩
  ambient := [some ⟨0, ⟨0x1000⟩, .zero, none⟩]
  shared := [⟨true, false, 1⟩]

theorem workingLate_stays_inside :
    (∃ made, workingLate.StaysInside ⟨0x1000⟩ ⟨.currentUser, ⟨["Inside"]⟩⟩ made
      (outcome (KeyOperation.act ⟨.currentUser, ⟨["Inside"]⟩⟩ (.scripted (.set "Late" (.dword 1))))
        workingLate)) ∧
    outcome (KeyOperation.act ⟨.currentUser, ⟨["Inside"]⟩⟩ (.scripted (.set "Late" (.dword 1))))
        workingLate
      = .error (.error (.native "RegOpenKeyEx" .transactionNotActive
          "HKEY_CURRENT_USER\\Inside")) := by
  refine ⟨?_, rfl⟩
  rcases operations_stay_inside workingLate ⟨0, ⟨0x1000⟩, .zero, none⟩ rfl
    ⟨.currentUser, ⟨["Inside"]⟩⟩ (.scripted (.set "Late" (.dword 1))) (by decide)
    with ⟨made, _, hstays⟩
  exact ⟨made, hstays⟩

end TransactionalRegistry
