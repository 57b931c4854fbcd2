import TransactionalRegistry.Proofs.Mirror
import TransactionalRegistry.Proofs.Snapshots

/-!
# What a call on a key reaches

A call on a key runs in the transaction that it names, or else in the one that its handle is bound
to. Whatever its arguments and however it ends, it reaches nothing outside that transaction: the
protected places and the records of all other transactions stay as they are, and so do the live
trees, unless the call runs in no transaction. A key handle that it answers with is bound to the
transaction that it ran in.

So a binding is inherited by every handle that is opened or created from a bound one, however many
calls lie in between and whatever else happens meanwhile. `Store.traced` follows these chains by the
calls alone and never looks at a binding; as long as the counter of handles stays below the handles
of the root keys, the open handles that are bound to a transaction are the open ones among those
that are traced back to it.

## Main definitions

* `Call.handle?`: The key handle that a call has answered with.
* `Call.asks?`: The key that a call opens, as the call describes it.
* `Store.Confined`: Nothing outside a transaction has changed.
* `Store.Enters`, `Store.Opens`, `Store.OpensNone`: What happens to the open key handles.
* `Call.StartsIn`: A call names a transaction, or starts from a handle that is traced back to it.
* `Store.traced`: The handles that are traced back to a transaction.
* `Store.BelowRoots`: The counter of handles stays below the handles of the root keys.
* `Store.Traces`: The handles that are bound to a transaction are those traced back to it.

## Theorems

* `Store.perform_confined`: A call on a key is confined to its transaction.
* `Store.perform_enters`: Every key that is opened gets into the table under the next handle.
* `Store.perform_opens`: A call on a key binds what it opens to its transaction.
* `Store.Traces.step`: An action keeps the bindings as they are traced.
* `calls_are_confined_to_their_transaction`: What a call reaches, after every run.
-/

namespace TransactionalRegistry

/-- The key handle that a successful call has answered with. -/
def Call.handle? : (call : Call) → call.Answer → Option KeyHandle
  | openKey .., key => some key
  | createKey .., answer => some answer.1
  | _, _ => none

/-- The key that a call opens: the handle that it starts from, the path from there, and the rights
    that it asks for. -/
def Call.asks? : Call → Option (KeyHandle × String × Access)
  | openKey parent subKey access _ => some (parent, subKey, access)
  | createKey parent subKey access _ => some (parent, subKey, access)
  | _ => none

namespace Store

/-! ## What lies outside a transaction -/

/-- Nothing outside a transaction has changed: the protected places and the records of all other
    transactions are as they were, and the live trees are, unless it is no transaction that is
    meant. -/
structure Confined (transaction : Option TransactionHandle) (s s' : Store) : Prop where
  hives : transaction.isSome → s'.hives = s.hives
  protectedPlaces : s'.protectedPlaces = s.protectedPlaces
  records : ∀ t, transaction ≠ some t → s'.record? t = s.record? t

section

variable {transaction : Option TransactionHandle} {s s' s'' : Store}

/-- Two steps that are confined to a transaction are confined to it together. -/
theorem Confined.trans (h : Confined transaction s s') (h' : Confined transaction s' s'') :
    Confined transaction s s'' where
  hives hsome := (h'.hives hsome).trans (h.hives hsome)
  protectedPlaces := h'.protectedPlaces.trans h.protectedPlaces
  records t ht := (h'.records t ht).trans (h.records t ht)

/-- To look in a transaction concerns no other one. -/
theorem Looked.confined (h : Looked transaction s s') : Confined transaction s s' :=
  ⟨fun _ => h.hives, h.protectedPlaces, h.others⟩

/-- A look at the live trees is confined to any transaction. -/
theorem Looked.confined_of_live (h : Looked none s s') : Confined transaction s s' :=
  ⟨fun _ => h.hives, h.protectedPlaces, fun t _ => h.others t (by simp)⟩

/-- A change in a transaction is one of its private copy. -/
theorem Changed.confined {m : Mutation} (h : Changed transaction m s s') :
    Confined transaction s s' := by
  refine ⟨fun hsome => ?_, h.frame.protectedPlaces, fun _ ht => h.others ht⟩
  rcases h with ⟨trees, changed, hsees, _, rfl⟩
  cases transaction with
  -- A change of the live trees is not one in a transaction.
  | none => exact absurd hsome (by simp)
  | some t =>
    rcases hsees with ⟨r, hr, _⟩
    rw [installed_some hr]

/-- Where the trees stay the same, nothing outside the transaction changes. -/
theorem SameTrees.confined (h : SameTrees s s') : Confined transaction s s' where
  hives _ := h.hives
  protectedPlaces := h.protectedPlaces
  records t _ := by rw [record?, record?, h.transactions]

/-- A call on a key is confined to a transaction if that is the one that it runs in, should it get
    as far as looking at the trees. -/
theorem confined_of_looks (call : Call) (hkey : call.key?.isSome)
    (hin : s.looks call = true → s.transactionOf call = transaction) :
    Confined transaction s (endState (perform call) s) := by
  -- What the call looks through is its transaction, or it does not look at all.
  have hlook : ∀ s', Looked (s.lookedThrough call) s s' → Confined transaction s s' := by
    intro s' h
    by_cases hlooks : s.looks call = true
    · rw [lookedThrough, if_pos hlooks, hin hlooks] at h
      exact h.confined
    · rw [lookedThrough, if_neg hlooks] at h
      exact h.confined_of_live
  refine Ends.endState ?_
  refine ((perform_ends call hkey s).and (looks_of_changeOf call s)).mono ?_ ?_
  · intro answer s' h
    rcases h with ⟨⟨s₁, s₂, hobs, hchange, hsame⟩, hlooked⟩
    refine Confined.trans ?_ hsame.confined
    rcases hchange with ⟨_, rfl⟩ | ⟨m, hm, hchanged⟩
    · exact hlook _ hobs.1
    · -- A call that has made a change has made it where it looked.
      have hlooks := hlooked (by rw [hm]; rfl)
      rw [lookedThrough, if_pos hlooks, hin hlooks] at hchanged
      exact (hlook _ hobs.1).trans hchanged.confined
  · exact fun _ _ h => hlook _ h.1.1

/-- A call on a key is confined to its transaction, whichever way it ends. -/
theorem perform_confined (call : Call) (hkey : call.key?.isSome) (s : Store) :
    Confined (s.transactionOf call) s (endState (perform call) s) :=
  confined_of_looks call hkey (fun _ => rfl)

/-- A call that starts from a handle that is not open reaches nothing at all. -/
theorem confined_of_not_opened {call : Call} {key : KeyHandle} (hkey : call.key? = some key)
    (hmissing : s.opened key = none) : Confined transaction s (endState (perform call) s) := by
  -- Every call that starts from a key looks for it first.
  have hlooks : s.looks call = false := by
    cases call <;> simp only [Call.key?, Option.some.injEq, reduceCtorEq] at hkey <;>
      subst hkey <;> simp [looks, grants, writable, hmissing]
  exact confined_of_looks call (by rw [hkey]; rfl) (fun h => absurd h (by rw [hlooks]; simp))

end

/-! ## What is opened -/

/-- A key gets into the table of open keys, under the next handle. -/
structure Enters (key : KeyHandle) (k : OpenKey) (s s' : Store) : Prop where
  handle : key = ⟨s.nextHandle⟩
  nextHandle : s'.nextHandle = s.nextHandle + handleStep
  keys : s'.keys = Table.insert s.keys key k

/-- A key is opened under the next handle and bound to a transaction. -/
structure Opens (transaction : Option TransactionHandle) (key : KeyHandle) (s s' : Store) :
    Prop where
  handle : key = ⟨s.nextHandle⟩
  nextHandle : s'.nextHandle = s.nextHandle + handleStep
  keys : ∃ l access, s'.keys = Table.insert s.keys key ⟨l, access, transaction⟩

/-- No key is opened. One may be closed, and a handle may be drawn for a transaction. -/
structure OpensNone (s s' : Store) : Prop where
  nextHandle : s'.nextHandle = s.nextHandle ∨ s'.nextHandle = s.nextHandle + handleStep
  keys : s'.keys = s.keys ∨ ∃ key, s'.keys = Table.erase s.keys key

section

variable {transaction : Option TransactionHandle} {s s₁ s₂ s' : Store}

/-- To look at the trees is to open no key. -/
theorem Looked.opensNone (h : Looked transaction s s') : OpensNone s s' :=
  ⟨Or.inl h.nextHandle, Or.inl h.keys⟩

/-- To decide on a transaction is to open no key. -/
theorem opensNone_of_decided {t : TransactionHandle} {r record : TransactionRecord}
    (hchecked : Checked t s s₁) (hdecided : Decided t r record s₁ s') : OpensNone s s' :=
  ⟨Or.inl (hdecided.nextHandle.trans hchecked.look.nextHandle),
    Or.inl (hdecided.keys.trans hchecked.look.keys)⟩

/-- To change the trees is to open no key. -/
theorem opensNone_of_changed {m : Mutation} (hlook : Looked transaction s s₁)
    (hchanged : Changed transaction m s₁ s') : OpensNone s s' :=
  ⟨Or.inl (hchanged.frame.nextHandle.trans hlook.nextHandle),
    Or.inl (hchanged.frame.keys.trans hlook.keys)⟩

/-- A key that is opened after steps that open none themselves. -/
theorem enters_withKey {k : OpenKey} (hkeys : s₁.keys = s.keys)
    (hnext : s₁.nextHandle = s.nextHandle) : Enters ⟨s₁.nextHandle⟩ k s (s₁.withKey k) where
  handle := congrArg KeyHandle.mk hnext
  nextHandle := congrArg (· + handleStep) hnext
  keys := by rw [← hkeys]; rfl

/-- A key is bound to the transaction with which it gets into the table. -/
theorem Enters.opens {key : KeyHandle} {k : OpenKey} (h : Enters key k s s') :
    Opens k.transaction key s s' :=
  ⟨h.handle, h.nextHandle, k.location, k.access, h.keys⟩

/-- If no key is opened, every handle that is open afterwards was open before. -/
theorem OpensNone.found (h : OpensNone s s') {key : KeyHandle} {k : OpenKey}
    (hk : Table.find? s'.keys key = some k) : Table.find? s.keys key = some k := by
  rcases h.keys with hkeys | ⟨closed, hkeys⟩
  · rw [hkeys] at hk
    exact hk
  · rw [hkeys, Table.find?_erase] at hk
    by_cases hclosed : closed = key
    · rw [if_pos hclosed] at hk
      exact absurd hk (by simp)
    · rw [if_neg hclosed] at hk
      exact hk

/-- What a successful call has done to the open handles: the handle that it answers with, if any,
    was opened by it and bound to its transaction. -/
def HandlesAfter (s : Store) (call : Call) (answer : call.Answer) (s' : Store) : Prop :=
  match call.handle? answer with
  | some key => (∃ start, call.key? = some start ∧ (s.opened start).isSome) ∧
      Opens (s.transactionOf call) key s s'
  | none => OpensNone s s'

/-- A step that at most looks at the trees opens no key. -/
theorem opensNone_of_path {key : KeyHandle}
    (h : s.opened key = none ∧ s' = s ∨
      ∃ p, s.opened key = some p ∧ Observed (transaction.or p.transaction) s s') :
    OpensNone s s' := by
  rcases h with ⟨_, rfl⟩ | ⟨p, _, hobs⟩
  · exact (Looked.refl none s').opensNone
  · exact hobs.1.opensNone

/-- To read from a key is to open none. -/
theorem withNode_opensNone {α : Type} (key : KeyHandle) (access : Access)
    (transaction : Option TransactionHandle) (read : Node → Except NativeError α) (s : Store) :
    Ends (withNode key access transaction read) s (fun _ => OpensNone s)
      (fun _ => OpensNone s) := by
  refine (withNode_ends key access transaction read s).mono ?_ ?_
  · intro _ s' h
    rcases h with ⟨_, _, _, hobs⟩
    exact hobs.1.opensNone
  · intro _ s' h
    rcases h with ⟨_, rfl⟩ | ⟨_, _, _, hobs⟩
    · exact (Looked.refl none s').opensNone
    · exact hobs.1.opensNone

/-- To delete or to rename a key is to open none. -/
theorem changeKey_opensNone (parent : KeyHandle) (subKey : String)
    (transaction : Option TransactionHandle) (mutation : Location → Mutation) (s : Store) :
    Ends (changeKey parent subKey transaction mutation) s (fun _ => OpensNone s)
      (fun _ => OpensNone s) := by
  refine (changeKey_ends parent subKey transaction mutation s).mono ?_ ?_
  · intro _ s' h
    rcases h with ⟨_, _, _, hobs, hchanged⟩
    exact opensNone_of_changed hobs.1 hchanged
  · exact fun _ _ h => opensNone_of_path h

/-- To change a value is to open no key. -/
theorem changeValue_opensNone (key : KeyHandle) (transaction : Option TransactionHandle)
    (mutation : Location → Mutation) (s : Store) :
    Ends (changeValue key transaction mutation) s (fun _ => OpensNone s)
      (fun _ => OpensNone s) := by
  refine (changeValue_ends key transaction mutation s).mono ?_ ?_
  · intro _ s' h
    rcases h with ⟨_, _, _, _, hobs, hchanged⟩
    exact opensNone_of_changed hobs.1 hchanged
  · intro _ s' h
    rcases h with ⟨_, rfl⟩ | ⟨_, _, _, hobs⟩
    · exact (Looked.refl none s').opensNone
    · exact hobs.1.opensNone

/-- A key that is opened gets into the table under the handle that the call answers with: at the
    place and with the rights that the call asks for, and bound to its transaction. -/
theorem perform_enters {call : Call} {parent : KeyHandle} {subKey : String} {access : Access}
    (hasks : call.asks? = some (parent, subKey, access)) (s : Store) :
    Ends (perform call) s
      (fun answer s' => ∃ p key, s.opened parent = some p ∧ call.handle? answer = some key ∧
        Enters key ⟨p.location.below subKey, access, s.transactionOf call⟩ s s')
      (fun _ => OpensNone s) := by
  cases call <;> simp only [Call.asks?, Option.some.injEq, Prod.mk.injEq, reduceCtorEq] at hasks
  case openKey parent' subKey' access' transaction =>
    obtain ⟨rfl, rfl, rfl⟩ := hasks
    unfold perform
    -- The entry in the log is made first, and it is no concern of the keys.
    refine ends_bind (ends_modify ((openKey_ends _ _ _ transaction _).mono ?_ ?_))
    · rintro _ s' ⟨p, s₁, hp, hobs, rfl, rfl⟩
      have htransaction : s.transactionOf (.openKey parent' subKey' access' transaction) =
          transaction.or p.transaction := transactionOf_eq rfl hp
      refine ⟨p, _, hp, rfl, ?_⟩
      rw [htransaction]
      exact enters_withKey hobs.1.keys hobs.1.nextHandle
    · intro _ s' h
      have hnone := opensNone_of_path h
      exact ⟨hnone.nextHandle, hnone.keys⟩
  case createKey parent' subKey' access' transaction =>
    obtain ⟨rfl, rfl, rfl⟩ := hasks
    unfold perform
    refine ends_bind (ends_modify ((createKey_ends _ _ _ transaction _).mono ?_ ?_))
    · rintro answer s' ⟨p, s₁, s₂, hp, hobs, hchange, hhandle, rfl⟩
      have htransaction : s.transactionOf (.createKey parent' subKey' access' transaction) =
          transaction.or p.transaction := transactionOf_eq rfl hp
      refine ⟨p, answer.1, hp, rfl, ?_⟩
      rw [htransaction, hhandle]
      -- Whether the key was there or has been made, the handle comes from the counter as it was.
      rcases hchange with ⟨-, rfl⟩ | ⟨-, hchanged⟩
      · exact enters_withKey hobs.1.keys hobs.1.nextHandle
      · exact enters_withKey (hchanged.frame.keys.trans hobs.1.keys)
          (hchanged.frame.nextHandle.trans hobs.1.nextHandle)
    · intro _ s' h
      have hnone := opensNone_of_path h
      exact ⟨hnone.nextHandle, hnone.keys⟩

/-- What a call opens is bound to the transaction of the call. -/
theorem opens_of_asks {call : Call} {parent : KeyHandle} {subKey : String} {access : Access}
    (hasks : call.asks? = some (parent, subKey, access)) (hkey : call.key? = some parent)
    (s : Store) : Ends (perform call) s (HandlesAfter s call) (fun _ => OpensNone s) := by
  refine (perform_enters hasks s).mono ?_ (fun _ _ h => h)
  rintro answer s' ⟨p, key, hp, hhandle, henters⟩
  rw [HandlesAfter, hhandle]
  exact ⟨⟨parent, hkey, by rw [hp]; rfl⟩, henters.opens⟩

/-- A call on a key binds what it opens to its transaction, and opens nothing if it fails. -/
theorem perform_opens (call : Call) (hkey : call.key?.isSome) (s : Store) :
    Ends (perform call) s (HandlesAfter s call) (fun _ => OpensNone s) := by
  cases call with
  | openKey parent subKey access transaction => exact opens_of_asks rfl rfl s
  | createKey parent subKey access transaction => exact opens_of_asks rfl rfl s
  | deleteKey parent subKey transaction => exact changeKey_opensNone parent subKey transaction _ s
  | renameKey parent subKey newName transaction =>
    exact changeKey_opensNone parent subKey transaction _ s
  | closeKey key =>
    refine (closeKey_ends key s).mono ?_ ?_
    · -- Closing a key takes it from the table, or does nothing where it is that of a root.
      intro _ s' h
      rcases h with ⟨_, rfl⟩ | ⟨_, _, rfl⟩
      · exact (Looked.refl none s').opensNone
      · exact ⟨Or.inl rfl, Or.inr ⟨key, rfl⟩⟩
    · intro _ s' h
      rcases h with ⟨_, _, rfl, _⟩
      exact (Looked.refl none s').opensNone
  | queryInfo key =>
    unfold perform queryInfo
    exact withNode_opensNone key _ none _ s
  | enumKey key index =>
    unfold perform enumKey
    exact withNode_opensNone key _ none _ s
  | enumValue key index =>
    unfold perform enumValue
    exact withNode_opensNone key _ none _ s
  | getValue key name transaction =>
    unfold perform getValue
    exact withNode_opensNone key _ transaction _ s
  | setValue key name data transaction =>
    unfold perform setValue
    exact changeValue_opensNone key transaction _ s
  | deleteValue key name transaction =>
    unfold perform deleteValue
    exact changeValue_opensNone key transaction _ s
  | createTransaction => exact absurd hkey (by simp [Call.key?])
  | transactionOutcome => exact absurd hkey (by simp [Call.key?])
  | commitTransaction => exact absurd hkey (by simp [Call.key?])
  | rollbackTransaction => exact absurd hkey (by simp [Call.key?])
  | closeTransaction => exact absurd hkey (by simp [Call.key?])

/-- The same of a call whose answer is known. -/
theorem handlesAfter_of_ok {call : Call} {answer : call.Answer} (hkey : call.key?.isSome)
    (hanswer : outcome (perform call) s = .ok answer) :
    HandlesAfter s call answer (endState (perform call) s) :=
  (perform_opens call hkey s).ok (eq_of_outcome hanswer)

/-- The handle that a call answers with is open afterwards and bound to the transaction of the call,
    as long as it lies below the handles of the root keys. -/
theorem opened_of_answer {call : Call} {answer : call.Answer} {key : KeyHandle}
    (hkey : call.key?.isSome) (hbelow : s.nextHandle.toNat < 0x80000000)
    (hanswer : outcome (perform call) s = .ok answer) (hhandle : call.handle? answer = some key) :
    ∃ k, (endState (perform call) s).opened key = some k ∧
      k.transaction = s.transactionOf call := by
  have hopens := handlesAfter_of_ok hkey hanswer
  unfold HandlesAfter at hopens
  rw [hhandle] at hopens
  rcases hopens.2.keys with ⟨l, access, hkeys⟩
  -- A handle below those of the root keys is looked up in the table.
  have hroot : key.root? = none := by
    refine KeyHandle.root?_eq_none ?_
    rw [hopens.2.handle]
    exact hbelow
  refine ⟨⟨l, access, s.transactionOf call⟩, ?_, rfl⟩
  rw [opened, hroot, hkeys]
  exact (Table.find?_insert _ _ _ _).trans (if_pos rfl)

/-- What is done about transactions opens no key. -/
theorem Managed.opensNone {created : Option TransactionHandle} (h : Managed s created s') :
    OpensNone s s' := by
  cases h with
  | looked hlook => exact hlook.opensNone
  | created hcreated => exact ⟨Or.inr hcreated.nextHandle, Or.inl hcreated.keys⟩
  | settled hchecked hsettled _ => exact opensNone_of_decided hchecked hsettled
  | discarded hchecked hdiscarded _ => exact opensNone_of_decided hchecked hdiscarded
  | closed _ hkeys _ hnext _ _ => exact ⟨Or.inl hnext, Or.inl hkeys⟩

/-- A call on a transaction opens no key. -/
theorem perform_opensNone (haligned : s.Aligned) (call : Call) (hkey : call.key? = none) :
    OpensNone s (endState (perform call) s) :=
  ((perform_manages haligned call hkey).mono (fun _ _ h => h.opensNone)
    (fun _ _ h => h.opensNone)).endState

end

/-! ## Chains of handles -/

end Store

/-- A call names a transaction, or it names none and starts from a handle that is traced back to
    it. -/
def Call.StartsIn (t : TransactionHandle) (traced : List KeyHandle) (call : Call) : Prop :=
  call.transaction? = some t ∨ call.transaction? = none ∧ ∃ key ∈ traced, call.key? = some key

instance (t : TransactionHandle) (traced : List KeyHandle) (call : Call) :
    Decidable (call.StartsIn t traced) :=
  decidable_of_iff
    (call.transaction? = some t ∨ call.transaction? = none ∧ ∃ key ∈ traced, some key = call.key?)
    (by simp only [Call.StartsIn, eq_comm])

/-- The handles that are traced back to a transaction after a call: the one that the call has
    answered with joins them if the call named the transaction or started from one of them. -/
def Call.tracedAfter (t : TransactionHandle) (traced : List KeyHandle) (call : Call) :
    Except NativeError call.Answer → List KeyHandle
  | .ok answer => if call.StartsIn t traced then (call.handle? answer).toList ++ traced else traced
  | .error _ => traced

namespace Store

/-- The handles that are traced back to a transaction after an action. Only calls add to them. -/
def tracedAfter (t : TransactionHandle) (s : Store) (traced : List KeyHandle) :
    Action → List KeyHandle
  | .call call => call.tracedAfter t traced (outcome (perform call) s)
  | _ => traced

/-- The handles that are traced back to a transaction after some actions. -/
def traced (t : TransactionHandle) (s : Store) (handles : List KeyHandle) :
    List Action → List KeyHandle
  | [] => handles
  | action :: rest => (s.after action).traced t (s.tracedAfter t handles action) rest

/-- The counter of handles stays below the handles of the root keys. -/
def BelowRoots (s : Store) : List Action → Prop
  | [] => s.nextHandle.toNat < 0x80000000
  | action :: rest => s.nextHandle.toNat < 0x80000000 ∧ (s.after action).BelowRoots rest

instance BelowRoots.decidable (s : Store) :
    (actions : List Action) → Decidable (s.BelowRoots actions)
  | [] => inferInstanceAs (Decidable (s.nextHandle.toNat < 0x80000000))
  | action :: rest =>
    have := BelowRoots.decidable (s.after action) rest
    inferInstanceAs (Decidable (_ ∧ (s.after action).BelowRoots rest))

/-- The counter is below the root keys before the first action. -/
theorem BelowRoots.first {s : Store} {actions : List Action} (h : s.BelowRoots actions) :
    s.nextHandle.toNat < 0x80000000 := by
  cases actions with
  | nil => exact h
  | cons action rest => exact h.1

/-- It still is after the last one. -/
theorem BelowRoots.last {s : Store} {actions : List Action} (h : s.BelowRoots actions) :
    (actions.foldl Store.after s).nextHandle.toNat < 0x80000000 := by
  induction actions generalizing s with
  | nil => exact h
  | cons action rest ih => exact ih h.2

/-- The handles that are traced back to a transaction have been drawn before. An open handle is
    bound to the transaction if it is traced back to it, and only then. -/
structure Traces (t : TransactionHandle) (s : Store) (traced : List KeyHandle) : Prop where
  drawn : ∀ key ∈ traced, key.raw.toNat < s.nextHandle.toNat
  bound : ∀ key k, Table.find? s.keys key = some k → (k.transaction = some t ↔ key ∈ traced)

section

variable {t : TransactionHandle} {s s' : Store} {traced : List KeyHandle}

/-- Below the root keys the counter does not wrap around when it goes on. -/
theorem next_toNat (hbelow : s.nextHandle.toNat < 0x80000000)
    (hnext : s'.nextHandle = s.nextHandle ∨ s'.nextHandle = s.nextHandle + handleStep) :
    s.nextHandle.toNat ≤ s'.nextHandle.toNat := by
  rcases hnext with hnext | hnext
  · exact Nat.le_of_eq (congrArg UInt64.toNat hnext.symm)
  · have hstep : handleStep.toNat = 4 := rfl
    rw [hnext, UInt64.toNat_add, hstep]
    omega

namespace Traces

/-- An open handle is bound to the transaction if it is traced back to it, and only then. The
    handles of the root keys are open, but neither. -/
theorem opened_bound (h : Traces t s traced) (hbelow : s.nextHandle.toNat < 0x80000000)
    {key : KeyHandle} {k : OpenKey} (hk : s.opened key = some k) :
    k.transaction = some t ↔ key ∈ traced := by
  unfold opened at hk
  cases hroot : key.root? with
  | none =>
    rw [hroot] at hk
    exact h.bound key k hk
  | some root =>
    rw [hroot] at hk
    have hroot_key : OpenKey.ofRoot root = k := Option.some.inj hk
    -- A root key is bound to nothing, and its handle was never drawn.
    rw [← hroot_key]
    refine iff_of_false (by simp [OpenKey.ofRoot]) (fun htraced => ?_)
    have hdrawn := h.drawn key htraced
    rw [KeyHandle.root?_eq_none (by omega)] at hroot
    exact absurd hroot (by simp)

/-- A call that starts from an open handle runs in the transaction if it names it, or starts from a
    handle that is traced back to it. -/
theorem startsIn_iff (h : Traces t s traced) (hbelow : s.nextHandle.toNat < 0x80000000)
    {call : Call} {start : KeyHandle} (hstart : call.key? = some start)
    (hopened : (s.opened start).isSome) :
    call.StartsIn t traced ↔ s.transactionOf call = some t := by
  rcases Option.isSome_iff_exists.mp hopened with ⟨k, hk⟩
  rw [transactionOf_eq hstart hk, Call.StartsIn]
  cases call.transaction? with
  | some named => simp
  | none =>
    rw [Option.none_or, h.opened_bound hbelow hk]
    simp [hstart]

/-- Where no key is opened, the handles stay bound as they are traced. -/
theorem opensNone (h : Traces t s traced) (hbelow : s.nextHandle.toNat < 0x80000000)
    (hnone : OpensNone s s') : Traces t s' traced := by
  have hnext := next_toNat hbelow hnone.nextHandle
  refine ⟨?_, ?_⟩
  · exact fun key hkey => Nat.lt_of_lt_of_le (h.drawn key hkey) hnext
  · exact fun key k hk => h.bound key k (hnone.found hk)

/-- A key that is opened is traced if it joins, and is bound to the transaction if it does. -/
theorem opens {transaction : Option TransactionHandle} {key : KeyHandle} (h : Traces t s traced)
    (hbelow : s.nextHandle.toNat < 0x80000000) (hopens : Opens transaction key s s')
    {joins : Prop} [Decidable joins] (hjoins : joins ↔ transaction = some t) :
    Traces t s' (if joins then key :: traced else traced) := by
  have hnext : s.nextHandle.toNat < s'.nextHandle.toNat := by
    have hstep : handleStep.toNat = 4 := rfl
    rw [hopens.nextHandle, UInt64.toNat_add, hstep]
    omega
  have hraw : key.raw.toNat = s.nextHandle.toNat := by rw [hopens.handle]
  rcases hopens.keys with ⟨l, access, hkeys⟩
  -- The list that results, by its members.
  have hmem : ∀ other, other ∈ (if joins then key :: traced else traced) ↔
      joins ∧ other = key ∨ other ∈ traced := by
    intro other
    by_cases hj : joins
    · simp only [hj, if_true, List.mem_cons, true_and]
    · simp only [hj, if_false, false_and, false_or]
  refine ⟨?_, ?_⟩
  · intro other hother
    rcases (hmem other).mp hother with ⟨_, rfl⟩ | htraced
    · omega
    · exact Nat.lt_trans (h.drawn other htraced) hnext
  · intro other k hk
    rw [hkeys, Table.find?_insert] at hk
    rw [hmem]
    by_cases hsame : key = other
    · -- The new handle has not been drawn before, so it is not yet traced.
      subst hsame
      rw [if_pos rfl, Option.some.injEq] at hk
      rw [← hk, ← hjoins]
      refine ⟨fun hj => Or.inl ⟨hj, rfl⟩, ?_⟩
      rintro (⟨hj, _⟩ | htraced)
      · exact hj
      · exact absurd (h.drawn key htraced) (by omega)
    · rw [if_neg hsame] at hk
      rw [h.bound other k hk]
      refine ⟨Or.inr, ?_⟩
      rintro (⟨_, heq⟩ | htraced)
      · exact absurd heq.symm hsame
      · exact htraced

/-- A call on a key keeps the bindings as they are traced. -/
theorem performed (h : Traces t s traced) (hbelow : s.nextHandle.toNat < 0x80000000) (call : Call)
    (hkey : call.key?.isSome) :
    Traces t (endState (perform call) s) (s.tracedAfter t traced (.call call)) := by
  refine Ends.outcome (P := fun result s' => Traces t s' (call.tracedAfter t traced result)) ?_
  refine (perform_opens call hkey s).mono ?_ (fun _ _ hnone => h.opensNone hbelow hnone)
  intro answer s' hafter
  unfold HandlesAfter at hafter
  cases hhandle : call.handle? answer with
  | none =>
    rw [hhandle] at hafter
    simp only [Call.tracedAfter, hhandle, Option.toList_none, List.nil_append, ite_self]
    exact h.opensNone hbelow hafter
  | some key =>
    rw [hhandle] at hafter
    rcases hafter with ⟨⟨start, hstart, hopened⟩, hopens⟩
    simp only [Call.tracedAfter, hhandle, Option.toList_some, List.singleton_append]
    exact h.opens hbelow hopens (h.startsIn_iff hbelow hstart hopened)

/-- An action keeps the bindings as they are traced. -/
theorem step (h : Traces t s traced) (haligned : s.Aligned)
    (hbelow : s.nextHandle.toNat < 0x80000000) (action : Action) :
    Traces t (s.after action) (s.tracedAfter t traced action) := by
  cases action with
  | call call =>
    cases hkey : call.key? with
    | some start => exact h.performed hbelow call (by rw [hkey]; rfl)
    | none =>
      -- Calls on transactions answer with no key handle.
      have hhandle : ∀ answer, call.handle? answer = none := by
        cases call <;> simp [Call.key?] at hkey <;> exact fun _ => rfl
      have hsame : ∀ result, call.tracedAfter t traced result = traced := by
        intro result
        cases result with
        | ok answer => simp [Call.tracedAfter, hhandle]
        | error _ => rfl
      rw [tracedAfter, hsame]
      exact h.opensNone hbelow (perform_opensNone haligned call hkey)
  | ask t' =>
    have hchecked : Checked t' s (s.after (.ask t')) :=
      (transactionState?_ends t' s).endState_total
    exact h.opensNone hbelow hchecked.look.opensNone
  | protect l => exact h.opensNone hbelow ⟨Or.inl rfl, Or.inl rfl⟩
  | pass time => exact h.opensNone hbelow ⟨Or.inl rfl, Or.inl rfl⟩
  | note entry => exact h.opensNone hbelow ⟨Or.inl rfl, Or.inl rfl⟩

/-- What some actions leave behind, as long as the counter of handles stays below the root keys. -/
theorem continued {c : Chronicle} (haligned : c.store.Aligned) {actions : List Action}
    (hbelow : c.store.BelowRoots actions) (h : Traces t c.store traced) :
    Traces t (c.continued actions).store (c.store.traced t traced actions) := by
  induction actions generalizing c traced with
  | nil => exact h
  | cons action rest ih =>
    -- The counter stays aligned, so that the next action cannot draw the invalid handle.
    have haligned' := Chronicle.aligned_move (Chronicle.step_moves haligned action) haligned
    exact ih (c := c.step action) haligned' hbelow.2 (h.step haligned hbelow.1 action)

end Traces

end

end Store

/-! ## Every run -/

open Store

/-- Let any actions have been taken on a new store, with the counter of handles below the handles of
    the root keys all along, and let a call on a key be made, with any arguments and any outcome.

    It is confined to its transaction: if that is `t`, then the live trees, the protected places and
    the records of all transactions but `t` are left as they were; if there is none, then the
    records of all transactions are. The key handle that it answers with is open and bound to that
    transaction.

    The open handles that are bound to `t` are the open ones among those that are traced back to
    `t`, by calls that name `t` and by any chain of plain calls from there. So a call that names `t`
    or starts plainly from a handle traced back to it is confined to `t`, whether or not that
    handle has been closed. -/
theorem calls_are_confined_to_their_transaction (clock : Clock) (actions : List Action)
    (hbelow : (Store.fresh clock).BelowRoots actions) (call : Call) (hkey : call.key?.isSome) :
    let s := (Chronicle.run clock actions).store
    let s' := s.after (.call call)
    s.Confined (s.transactionOf call) s' ∧
      (∀ answer key, outcome (perform call) s = .ok answer → call.handle? answer = some key →
        ∃ k, s'.opened key = some k ∧ k.transaction = s.transactionOf call) ∧
      ∀ t, (∀ key k, s.opened key = some k →
          (k.transaction = some t ↔ key ∈ (Store.fresh clock).traced t [] actions)) ∧
        (call.StartsIn t ((Store.fresh clock).traced t [] actions) → s.Confined (some t) s') := by
  intro s s'
  have hnext := hbelow.last
  rw [← Chronicle.run_store] at hnext
  have htraces : ∀ t, Traces t s ((Store.fresh clock).traced t [] actions) := by
    intro t
    refine Traces.continued (Chronicle.fresh_aligned clock) hbelow ⟨?_, ?_⟩
    · exact fun key hkey => absurd hkey (by simp)
    · exact fun key k hk => absurd hk (by simp [Chronicle.fresh, Store.fresh, Table.find?])
  refine ⟨perform_confined call hkey s, ?_, fun t => ⟨?_, ?_⟩⟩
  · exact fun answer key hanswer hhandle => opened_of_answer hkey hnext hanswer hhandle
  · exact fun key k hk => (htraces t).opened_bound hnext hk
  · intro hstarts
    rcases Option.isSome_iff_exists.mp hkey with ⟨start, hstart⟩
    cases hopened : s.opened start with
    | none => exact confined_of_not_opened hstart hopened
    | some k =>
      have hin := ((htraces t).startsIn_iff hnext hstart (by rw [hopened]; rfl)).mp hstarts
      rw [← hin]
      exact perform_confined call hkey s

/-- A transaction creates a key, another key is created plainly below it, and a third one is created
    outside. -/
def createTwoInsideAndOneOutside : List Action :=
  [.call (.createTransaction 0 none),
   .call (.createKey RootKey.currentUser.handle "Inside" .all (some ⟨0x1000⟩)),
   .call (.createKey RootKey.currentUser.handle "Outside" .all none),
   .call (.createKey ⟨0x1004⟩ "Deeper" .all none)]

/-- The second key is below the first one by its handle alone, and still a value written to it
    belongs to the transaction. -/
theorem confined_of_createTwoInsideAndOneOutside :
    (Store.fresh ⟨0, []⟩).BelowRoots createTwoInsideAndOneOutside ∧
      ⟨0x100c⟩ ∈ (Store.fresh ⟨0, []⟩).traced ⟨0x1000⟩ [] createTwoInsideAndOneOutside ∧
      (Chronicle.run ⟨0, []⟩ createTwoInsideAndOneOutside).store.Confined (some ⟨0x1000⟩)
        ((Chronicle.run ⟨0, []⟩ createTwoInsideAndOneOutside).store.after
          (.call (.setValue ⟨0x100c⟩ "Note" ⟨4, [7, 0, 0, 0]⟩ none))) := by
  have hbelow : (Store.fresh ⟨0, []⟩).BelowRoots createTwoInsideAndOneOutside := by
    decide +kernel
  have htraced : ⟨0x100c⟩ ∈
      (Store.fresh ⟨0, []⟩).traced ⟨0x1000⟩ [] createTwoInsideAndOneOutside := by
    decide +kernel
  refine ⟨hbelow, htraced, ?_⟩
  have h := calls_are_confined_to_their_transaction ⟨0, []⟩ createTwoInsideAndOneOutside hbelow
    (.setValue ⟨0x100c⟩ "Note" ⟨4, [7, 0, 0, 0]⟩ none) rfl
  exact (h.2.2 ⟨0x1000⟩).2 (Or.inr ⟨rfl, _, htraced, rfl⟩)

end TransactionalRegistry
