import TransactionalRegistry.Proofs.Timelines
import TransactionalRegistry.Proofs.Verdicts

/-!
# Calls on what is closed

A call on a handle whose entry is gone fails before it has done anything, and an entry that is gone
does not come back: no handle is ever handed out again. So a handle that was closed is of no use any
more, for as long as the counter of handles does not come round.

## Main definitions

* `Call.onTransaction?`: The transaction that a call is about.
* `Store.Unmoved`, `Store.Refuses`: A call fails and leaves the trees and both tables as they were.
* `Store.Stops`: A computation fails before it has done anything.

## Theorems

* `Store.refuses_of_closed_transaction`, `Store.refuses_in_closed_transaction`,
  `Store.refuses_of_closed_key`: Calls on what is closed.
* `Timeline.Roomy.stays_closed`: What was closed stays closed.
* `handles_are_never_reused`: All of it, after every run.
-/

namespace TransactionalRegistry

/-- The transaction that a call is about which is no call on a key. -/
def Call.onTransaction? : Call → Option TransactionHandle
  | transactionOutcome t => some t
  | commitTransaction t => some t
  | rollbackTransaction t => some t
  | closeTransaction t => some t
  | _ => none

theorem KeyHandle.root?_of_free {key : KeyHandle} (h : key.isPredefined = false) :
    key.root? = none :=
  Option.isNone_iff_eq_none.mp (Option.isSome_eq_false_iff.mp h)

namespace Store

/-- A call has left the trees, the protected places, both tables and the counter alone. -/
structure Unmoved (s s' : Store) : Prop where
  hives : s'.hives = s.hives
  protectedPlaces : s'.protectedPlaces = s.protectedPlaces
  keys : s'.keys = s.keys
  transactions : s'.transactions = s.transactions
  nextHandle : s'.nextHandle = s.nextHandle

theorem Unmoved.refl (s : Store) : Unmoved s s :=
  ⟨rfl, rfl, rfl, rfl, rfl⟩

theorem unmoved_note (s : Store) (entry : LogEntry) : Unmoved s (s.note entry) :=
  ⟨rfl, rfl, rfl, rfl, rfl⟩

/-- A call fails, with one of some errors, and has moved nothing. -/
def Refuses (s : Store) (call : Call) (E : NativeError → Prop) : Prop :=
  Ends (perform call) s (fun _ _ => False) (fun e s' => E e ∧ Unmoved s s')

/-- A computation fails before it has done anything, with one of some errors. -/
def Stops {α : Type} (m : StoreM α) (s : Store) (E : NativeError → Prop) : Prop :=
  Ends m s (fun _ _ => False) (fun e s' => E e ∧ s' = s)

section

variable {α : Type} {s : Store} {m : StoreM α} {E : NativeError → Prop} {t : TransactionHandle}

theorem Stops.bind {β : Type} (h : Stops m s E) (f : α → StoreM β) : Stops (m >>= f) s E :=
  Ends.bind h (fun _ _ hnever => hnever.elim) (fun _ _ he => he)

theorem Stops.mono {E' : NativeError → Prop} (h : Stops m s E) (hE : ∀ e, E e → E' e) :
    Stops m s E' :=
  Ends.mono h (fun _ _ hnever => hnever) (fun e _ he => ⟨hE e he.1, he.2⟩)

/-- A call that stops is refused. -/
theorem Stops.refuses {call : Call} {m : StoreM call.Answer} (hcall : perform call = m)
    (h : Stops m s E) : s.Refuses call E := by
  unfold Refuses
  rw [hcall]
  exact Ends.mono h (fun _ _ hnever => hnever) (fun _ _ he => ⟨he.1, he.2 ▸ .refl s⟩)

/-- A call that stops after it was logged is refused. -/
theorem Stops.refuses_noted {call : Call} {entry : LogEntry} {m : StoreM call.Answer}
    (hcall : perform call = (do log entry; m)) (h : Stops m (s.note entry) E) :
    s.Refuses call E := by
  unfold Refuses
  rw [hcall]
  refine ends_bind (ends_modify (Ends.mono h (fun _ _ hnever => hnever) ?_))
  rintro e s' ⟨he, rfl⟩
  exact ⟨he, unmoved_note s entry⟩

/-! ### Closed keys -/

theorem lookUp_stops {key : KeyHandle} (h : s.opened key = none) :
    Stops (lookUp key) s (· = .invalidHandle) := by
  unfold Stops Ends
  rw [lookUp_of_not_opened h]
  exact ⟨rfl, rfl⟩

theorem opened_of_closed {key : KeyHandle} (hroot : key.isPredefined = false)
    (hclosed : ¬ s.OpenUnder (.key key)) : s.opened key = none := by
  unfold opened
  rw [KeyHandle.root?_of_free hroot]
  exact Option.not_isSome_iff_eq_none.mp hclosed

/-- A handle that is closed cannot be closed again. -/
theorem closeKey_stops {key : KeyHandle} (hroot : key.isPredefined = false)
    (hclosed : ¬ s.OpenUnder (.key key)) : Stops (closeKey key) s (· = .invalidHandle) := by
  refine (closeKey_ends key s).mono ?_ (fun e s' h => ⟨h.2.2.2, h.2.2.1⟩)
  rintro _ s' (⟨hpredefined, -⟩ | ⟨-, hcontains, -⟩)
  · exact absurd hpredefined (by rw [hroot]; simp)
  · exact hclosed hcontains

/-- Every call on a handle that is closed is refused. -/
theorem refuses_of_closed_key {key : KeyHandle} (hroot : key.isPredefined = false)
    (hclosed : ¬ s.OpenUnder (.key key)) (call : Call) (hkey : call.key? = some key) :
    s.Refuses call (· = .invalidHandle) := by
  have hstops := lookUp_stops (opened_of_closed hroot hclosed)
  have hnoted : ∀ entry, Stops (lookUp key) (s.note entry) (· = .invalidHandle) :=
    fun _ => lookUp_stops (opened_of_closed hroot hclosed)
  -- Only the two calls that open keys are logged before their handle is looked up.
  cases call <;> simp only [Call.key?, Option.some.injEq, reduceCtorEq] at hkey <;> subst hkey
  case openKey => exact ((hnoted _).bind _).refuses_noted rfl
  case createKey => exact ((hnoted _).bind _).refuses_noted rfl
  case closeKey => exact (closeKey_stops hroot hclosed).refuses rfl
  all_goals exact (hstops.bind _).refuses rfl

/-! ### Closed transactions -/

/-- Nothing is seen through a transaction that is closed. -/
theorem view_stops (hclosed : ¬ s.OpenUnder (.transaction t)) :
    Stops (view (some t)) s (· = .invalidHandle) := by
  have hunknown : s.record? t = none := Option.not_isSome_iff_eq_none.mp hclosed
  refine Stops.bind (Ends.mono (currentRecord_ends t s) ?_ (fun e s' h => ⟨h.2.2, h.1⟩)) _
  rintro r s' ⟨-, -, r₀, hr₀, -⟩
  -- The record that was found has to be one of a transaction that is known.
  exact absurd hr₀ (by rw [hunknown]; simp)

/-- What comes after the handle of a key was resolved. -/
theorem stops_of_lookUp {key : KeyHandle} {f : OpenKey → StoreM α}
    (h : ∀ k, Stops (f k) s (fun _ => True)) : Stops (lookUp key >>= f) s (fun _ => True) :=
  ends_lookUp (fun k _ => h k) (fun _ => ⟨trivial, rfl⟩)

theorem target_stops (hclosed : ¬ s.OpenUnder (.transaction t)) (parent : OpenKey)
    (subKey : String) : Stops (target parent subKey (some t)) s (fun _ => True) :=
  ((view_stops hclosed).mono (fun _ _ => trivial)).bind _

theorem changeKey_stops (hclosed : ¬ s.OpenUnder (.transaction t)) (parent : KeyHandle)
    (subKey : String) (mutation : Location → Mutation) :
    Stops (changeKey parent subKey (some t) mutation) s (fun _ => True) :=
  stops_of_lookUp (fun p => (target_stops hclosed p subKey).bind _)

theorem changeValue_stops (hclosed : ¬ s.OpenUnder (.transaction t)) (key : KeyHandle)
    (mutation : Location → Mutation) :
    Stops (changeValue key (some t) mutation) s (fun _ => True) := by
  refine stops_of_lookUp (fun k => ?_)
  refine ends_require (fun _ => ?_) (fun _ => ⟨trivial, rfl⟩)
  refine ends_requireUnprotected (fun _ => ?_) (fun _ => ⟨trivial, rfl⟩)
  exact ((view_stops hclosed).mono (fun _ _ => trivial)).bind _

theorem withNode_stops (hclosed : ¬ s.OpenUnder (.transaction t)) (key : KeyHandle)
    (access : Access) (read : Node → Except NativeError α) :
    Stops (withNode key access (some t) read) s (fun _ => True) := by
  refine stops_of_lookUp (fun k => ?_)
  refine ends_require (fun _ => ?_) (fun _ => ⟨trivial, rfl⟩)
  exact ((view_stops hclosed).mono (fun _ _ => trivial)).bind _

/-- Every call on a key that names a transaction that is closed is refused. -/
theorem refuses_in_closed_transaction (hclosed : ¬ s.OpenUnder (.transaction t)) (call : Call)
    (hin : call.transaction? = some t) : s.Refuses call (fun _ => True) := by
  have hpath : ∀ (entry : LogEntry) (p : OpenKey) (subKey : String),
      Stops (target p subKey (some t)) (s.note entry) (fun _ => True) :=
    fun _ => target_stops (s := s.note _) hclosed
  -- Whether a call looks its key up first or not, it fails before it has changed anything.
  cases call <;> simp only [Call.transaction?, reduceCtorEq] at hin <;> subst hin
  case openKey parent subKey access =>
    exact Stops.refuses_noted rfl (stops_of_lookUp fun p => (hpath _ p subKey).bind _)
  case createKey parent subKey access =>
    exact Stops.refuses_noted rfl (stops_of_lookUp fun p => (hpath _ p subKey).bind _)
  case deleteKey parent subKey => exact (changeKey_stops hclosed parent subKey _).refuses rfl
  case renameKey parent subKey newName =>
    exact (changeKey_stops hclosed parent subKey _).refuses rfl
  case getValue key name => exact (withNode_stops hclosed key _ _).refuses rfl
  case setValue key name data =>
    exact (changeValue_stops hclosed key (.setValue · name data)).refuses rfl
  case deleteValue key name =>
    exact (changeValue_stops hclosed key (.deleteValue · name)).refuses rfl

/-- Every call on a transaction that is closed is refused. -/
theorem refuses_of_closed_transaction (hclosed : ¬ s.OpenUnder (.transaction t)) (call : Call)
    (hcall : call.onTransaction? = some t) : s.Refuses call (· = .invalidHandle) := by
  have hunknown : s.record? t = none := Option.not_isSome_iff_eq_none.mp hclosed
  have hsignalled : ∀ code, Unmoved s { s with lastError := code } :=
    fun _ => ⟨rfl, rfl, rfl, rfl, rfl⟩
  have hdecides : ∀ {call : Call}, call.decides? = some t →
      s.Refuses call (· = .invalidHandle) := by
    intro call hdecides
    unfold Refuses Ends
    rw [perform_of_unknown hdecides hunknown]
    exact ⟨rfl, hsignalled _⟩
  cases call <;> simp only [Call.onTransaction?, Option.some.injEq, reduceCtorEq] at hcall <;>
    subst hcall
  case commitTransaction => exact hdecides rfl
  case rollbackTransaction => exact hdecides rfl
  case transactionOutcome t =>
    change Ends (transactionOutcome t) s _ _
    unfold Ends
    rw [transactionOutcome_of_unknown hunknown]
    exact ⟨rfl, hsignalled _⟩
  case closeTransaction t =>
    refine (closeTransaction_ends t s).mono ?_ ?_
    · -- Only a transaction that is known can be closed.
      rintro _ s' ⟨⟨r, hr⟩, -⟩
      exact absurd hr (by rw [hunknown]; simp)
    · rintro e s' ⟨-, hlook, htransactions, he⟩
      exact ⟨he, hlook.hives, hlook.protectedPlaces, hlook.keys, htransactions, hlook.nextHandle⟩

end

end Store

/-! ## Every run -/

namespace Timeline

open Store (OpenUnder)

variable {l l' : Timeline} {x : AnyHandle}

/-- What was handed out and is closed stays closed. -/
theorem Roomy.stays_closed (h : l'.Roomy) (hbefore : l.Before l')
    (hbelow : x.raw.toNat < l.store.nextHandle.toNat) (hclosed : ¬ l.store.OpenUnder x) :
    ¬ l'.store.OpenUnder x := by
  rcases l' with ⟨clock, actions⟩
  obtain ⟨hclock, more, hmore⟩ := hbefore
  change l.actions ++ more = actions at hmore
  change clock = l.clock at hclock
  subst hclock hmore
  -- The actions are added one by one; none of them draws a handle from below the counter.
  induction more using List.reverseRecOn with
  | nil => rwa [List.append_nil]
  | append_singleton more action ih =>
    rw [← List.append_assoc] at h ⊢
    have hlast := before_after ⟨l.clock, l.actions ++ more⟩ action
    have hfirst : l.Before ⟨l.clock, l.actions ++ more⟩ := ⟨rfl, List.prefix_append _ _⟩
    exact (allots_after _ action).stays_closed
      (Nat.lt_of_lt_of_le hbelow (h _ _ hfirst hlast)) (ih (h.earlier hlast))

/-- What a call closes is closed from then on. -/
theorem Roomy.closed_from (h : l'.Roomy) {call : Call} (hbefore : (l.after (.call call)).Before l')
    (hopen : l.store.OpenUnder x) (hclosed : ¬ (l.after (.call call)).store.OpenUnder x) :
    ¬ l'.store.OpenUnder x := by
  have hlast := before_after l (.call call)
  have hbelow := (h.earlier (hlast.trans hbefore)).allotted.lt_of_open hopen
  exact h.stays_closed hbefore (Nat.lt_of_lt_of_le hbelow (h _ _ hlast hbefore)) hclosed

/-- A transaction that was closed is closed from then on. -/
theorem Roomy.closed_transaction (h : l'.Roomy) {t : TransactionHandle}
    (hbefore : (l.after (.call (.closeTransaction t))).Before l')
    (hok : outcome (Store.perform (.closeTransaction t)) l.store = .ok ()) :
    ¬ l'.store.OpenUnder (.transaction t) := by
  obtain ⟨⟨r, hr⟩, -, -, -, -, -, htransactions⟩ :=
    (Store.closeTransaction_ends t l.store).ok (eq_of_outcome hok)
  refine h.closed_from hbefore (x := .transaction t) (Option.isSome_iff_exists.mpr ⟨r, hr⟩) ?_
  rw [store_call, OpenUnder, Store.record?]
  change ¬ (Table.find? (endState (Store.closeTransaction t) l.store).transactions t).isSome
  rw [htransactions, Table.find?_erase, if_pos rfl]
  simp

/-- A key that was closed is closed from then on, unless it is a root key. -/
theorem Roomy.closed_key (h : l'.Roomy) {key : KeyHandle} (hroot : key.isPredefined = false)
    (hbefore : (l.after (.call (.closeKey key))).Before l')
    (hok : outcome (Store.perform (.closeKey key)) l.store = .ok ()) :
    ¬ l'.store.OpenUnder (.key key) := by
  rcases (Store.closeKey_ends key l.store).ok (eq_of_outcome hok) with
    ⟨hpredefined, -⟩ | ⟨-, hcontains, hstore⟩
  · exact absurd hpredefined (by rw [hroot]; simp)
  · refine h.closed_from hbefore (x := .key key) hcontains ?_
    rw [store_call, OpenUnder]
    change ¬ (Table.find? (endState (Store.closeKey key) l.store).keys key).isSome
    rw [hstore, Table.find?_erase, if_pos rfl]
    simp

end Timeline

/-- Let anything have happened to a new store, and let the counter of handles not have come round.

    All handles that were handed out so far, of both kinds, are different. Every open key and every
    open transaction is under one of them, no key under that of a transaction, and the counter
    stands above them all.

    Once a transaction was closed, every call on it fails because its handle is invalid, and every
    call on a key that names it fails. Once a key was closed that is no root key, every call on it
    fails because its handle is invalid. All these calls leave the trees and both tables as they
    were. -/
theorem handles_are_never_reused (l : Timeline) (hroomy : l.Roomy) :
    (l.handles.map AnyHandle.raw).Nodup ∧
      (∀ x, l.store.OpenUnder x → x ∈ l.handles ∧ x.raw.toNat < l.store.nextHandle.toNat) ∧
      (∀ key t, l.store.OpenUnder (.key key) → l.store.OpenUnder (.transaction t) →
        key.raw ≠ t.raw) ∧
      (∀ (l₀ : Timeline) t, (l₀.after (.call (.closeTransaction t))).Before l →
        outcome (Store.perform (.closeTransaction t)) l₀.store = .ok () →
        (∀ call, call.onTransaction? = some t → l.store.Refuses call (· = .invalidHandle)) ∧
        (∀ call, call.transaction? = some t → l.store.Refuses call (fun _ => True))) ∧
      (∀ (l₀ : Timeline) key, key.isPredefined = false →
        (l₀.after (.call (.closeKey key))).Before l →
        outcome (Store.perform (.closeKey key)) l₀.store = .ok () →
        ∀ call, call.key? = some key → l.store.Refuses call (· = .invalidHandle)) := by
  have hallotted := hroomy.allotted
  refine ⟨hallotted.distinct, ?_, fun _ _ => hallotted.disjoint, ?_, ?_⟩
  · exact fun x hopen => ⟨hallotted.listed x hopen, hallotted.lt_of_open hopen⟩
  · intro l₀ t hbefore hok
    have hclosed := hroomy.closed_transaction hbefore hok
    exact ⟨Store.refuses_of_closed_transaction hclosed, Store.refuses_in_closed_transaction hclosed⟩
  · intro l₀ key hroot hbefore hok
    exact Store.refuses_of_closed_key hroot (hroomy.closed_key hroot hbefore hok)

/-- A transaction is opened and a key in it; then both are closed, the transaction first. -/
def openAndCloseBoth : Timeline :=
  ⟨⟨0, []⟩,
    [.call (.createTransaction 0 none),
     .call (.openKey RootKey.currentUser.handle "" .all (some ⟨0x1000⟩)),
     .call (.closeTransaction ⟨0x1000⟩),
     .call (.closeKey ⟨0x1004⟩)]⟩

/-- Neither handle can be used again. -/
theorem refuses_after_openAndCloseBoth :
    openAndCloseBoth.Roomy ∧
      openAndCloseBoth.handles = [.transaction ⟨0x1000⟩, .key ⟨0x1004⟩] ∧
      (openAndCloseBoth.handles.map AnyHandle.raw).Nodup ∧
      openAndCloseBoth.store.Refuses (.commitTransaction ⟨0x1000⟩) (· = .invalidHandle) ∧
      openAndCloseBoth.store.Refuses
        (.createKey RootKey.currentUser.handle "Late" .all (some ⟨0x1000⟩)) (fun _ => True) ∧
      openAndCloseBoth.store.Refuses (.closeKey ⟨0x1004⟩) (· = .invalidHandle) := by
  have hroomy : openAndCloseBoth.Roomy := Timeline.roomy_of_length (by decide)
  obtain ⟨hdistinct, -, -, htransaction, hkey⟩ := handles_are_never_reused openAndCloseBoth hroomy
  have hdead := htransaction ⟨⟨0, []⟩, openAndCloseBoth.actions.take 2⟩ ⟨0x1000⟩
    ⟨rfl, ⟨openAndCloseBoth.actions.drop 3, rfl⟩⟩ (by decide +kernel)
  have hgone := hkey ⟨⟨0, []⟩, openAndCloseBoth.actions.take 3⟩ ⟨0x1004⟩ rfl
    (Timeline.Before.refl _) (by decide +kernel)
  exact ⟨hroomy, by decide +kernel, hdistinct, hdead.1 _ rfl, hdead.2 _ rfl, hgone _ rfl⟩

end TransactionalRegistry
