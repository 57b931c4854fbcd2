import TransactionalRegistry.Proofs.Contributing
import TransactionalRegistry.Proofs.Verdicts

/-!
# Operations in a transaction that is over

Work may still be in a transaction that is over: the ambient stack keeps its entry when the
transaction is decided or closed, or when its time runs out. An operation on a key then gets no
further than its first call. That call is made by path from a root key and names the transaction, so
it looks through it, sees nothing and fails; the operation takes no such error for a key or a value
that is missing, and so it fails too.

An operation that has no call to make is not stopped: one that is refused on a root key, or that
creates one, and one whose value has no stored form.

## Main definitions

* `Store.Refusal`: What the error of such an operation says.
* `Context.Hushed`: Entries were logged and nothing else.
* `Context.Stops`: An act makes no call, or it fails with a refusal.

## Theorems

* `Context.Stops.bind`, `Context.Stops.attempted`: How acts that stop are put together.
* `Context.Spent.stops_onKey`: The first call of an operation fails.
* `KeyOperation.stops`: And the operation with it.
-/

namespace TransactionalRegistry

open Script (KeyStep)

variable {α β : Type}

/-- What an operation on the key at a path says that was stopped because its transaction is over. -/
inductive Store.Refusal (t : TransactionHandle) (path : String) (s : Store) : RegistryError → Prop
  | unknown : s.record? t = none → Refusal t path s (.invalidHandle path)
  | known (operation : String) : (s.record? t).isSome →
      Refusal t path s (.native operation .transactionNotActive path)

/-- What a transaction that is over says to a look through it is a refusal. -/
theorem Store.refusal_viewError (t : TransactionHandle) (operation path : String) (s : Store) :
    s.Refusal t path (.ofNative operation path (s.viewError (some t))) := by
  cases hr : s.record? t with
  | none =>
    have herror : s.viewError (some t) = .invalidHandle := by simp [viewError, hr]
    rw [herror]
    exact .unknown hr
  | some r =>
    have herror : s.viewError (some t) = .transactionNotActive := by simp [viewError, hr]
    rw [herror]
    exact .known operation (by rw [hr]; rfl)

/-! ## Acts that stop -/

namespace Context

/-- From one context to another nothing has happened but entries in the log. -/
def Hushed (start ctx : Context Timeline) : Prop :=
  ∃ entries : List LogEntry,
    ctx = { start with world := start.world.extended (entries.map .note) }

/-- An act that makes no call and answers as `Q` says, or that fails with a refusal. -/
def Stops (start : Context Timeline) (t : TransactionHandle) (path : String) (Q : α → Prop)
    (act : Act Timeline RegistryError α) : Prop :=
  ∀ ctx, start.Hushed ctx → Ends act ctx (fun a ctx' => Q a ∧ start.Hushed ctx')
    (fun failure ctx' => start.Hushed ctx' ∨
      ∃ e, failure = .error e ∧ start.world.store.Refusal t path e)

variable {start ctx : Context Timeline} {t : TransactionHandle} {path : String} {Q : β → Prop}

theorem hushed_refl (start : Context Timeline) : start.Hushed start :=
  ⟨[], by rw [List.map_nil, Timeline.extended_nil]⟩

theorem Hushed.logged (h : start.Hushed ctx) (entry : LogEntry) :
    start.Hushed (ctx.logged entry) := by
  rcases h with ⟨entries, rfl⟩
  refine ⟨entries ++ [entry], ?_⟩
  rw [List.map_append, List.map_singleton, ← Timeline.after_extended]
  rfl

theorem Hushed.ambient (h : start.Hushed ctx) : ctx.ambient = start.ambient := by
  rcases h with ⟨entries, rfl⟩
  rfl

theorem Hushed.noted (h : start.Hushed ctx) : start.world.Noted ctx.world := by
  rcases h with ⟨entries, rfl⟩
  change start.world.Noted (start.world.extended (entries.map .note))
  -- The entries come one after the other, so the last one is taken off.
  induction entries using List.reverseRecOn with
  | nil =>
    rw [List.map_nil, Timeline.extended_nil]
    exact .refl _
  | append_singleton entries entry ih =>
    rw [List.map_append, List.map_singleton, ← Timeline.after_extended]
    exact ih.trans (Timeline.noted_after _ entry)

theorem stops_pure {b : β} (h : Q b) : start.Stops t path Q (pure b) :=
  fun _ hhushed => ⟨h, hhushed⟩

theorem stops_throw (failure : Failure RegistryError) : start.Stops t path Q (throw failure) :=
  fun _ hhushed => Or.inl hhushed

theorem stops_ofExcept {result : Except RegistryError β} (h : ∀ b, Q b) :
    start.Stops t path Q (Act.ofExcept result) := by
  cases result with
  | ok b => exact stops_pure (h b)
  | error e => exact stops_throw _

/-- The rule for a step followed by the rest. -/
theorem Stops.bind {R : α → Prop} {act : Act Timeline RegistryError α}
    {f : α → Act Timeline RegistryError β} (h : start.Stops t path R act)
    (hf : ∀ a, R a → start.Stops t path Q (f a)) : start.Stops t path Q (act >>= f) :=
  fun ctx hhushed => (h ctx hhushed).bind
    (fun a ctx' hdone => hf a hdone.1 ctx' hdone.2) (fun _ _ hfailed => hfailed)

/-- A refusal that is passed on is a refusal still. -/
theorem Stops.attempted {R : α → Prop} {act : Act Timeline RegistryError α}
    {f : Except RegistryError α → Act Timeline RegistryError β} (h : start.Stops t path R act)
    (hok : ∀ a, R a → start.Stops t path Q (f (.ok a)))
    (herror : ∀ e, start.Stops t path Q (f (.error e)))
    (hrefusal : ∀ e, start.world.store.Refusal t path e → f (.error e) = Act.fail e) :
    start.Stops t path Q (act.attempt >>= f) := by
  refine fun ctx hhushed => ends_bind (Act.ends_attempt ((h ctx hhushed).mono ?_ ?_))
  · exact fun a ctx' hdone => hok a hdone.1 ctx' hdone.2
  · intro failure ctx' hfailed
    rcases hfailed with hquiet | ⟨e, rfl, he⟩
    · -- A panic is passed on, whatever follows.
      cases failure with
      | error e => exact herror e ctx' hquiet
      | panic message => exact Or.inl hquiet
    · change Ends (f (.error e)) ctx' _ _
      rw [hrefusal e he]
      exact Or.inr ⟨e, rfl, he⟩

/-! ## The first call -/

/-- The transaction that is current is over. -/
structure Spent (start : Context Timeline) (t : TransactionHandle) : Prop where
  current : (Ambient.top start.ambient).map (·.handle) = some t
  ended : start.world.store.Over t

namespace Spent

variable {l : Location} (h : start.Spent t)

include h

/-- An operation goes by the transaction that is current. -/
theorem stops_route {f : Route → Act Timeline RegistryError β}
    (hf : start.Stops t path Q (f ⟨some t⟩)) :
    start.Stops t path Q (Route.current >>= f) := by
  intro ctx hhushed
  have hroute : (Route.current : Act Timeline RegistryError Route) ctx = .ok ⟨some t⟩ ctx := by
    rw [← h.current, ← hhushed.ambient]
    rfl
  unfold Ends
  rw [bind_of_ok hroute]
  exact hf ctx hhushed

/-- A call by path looks through the transaction, so it fails. -/
theorem stops_onKey {call : Call} {name : String} {entry : LogEntry}
    (hpath : call.ByPath (some t)) (Q : call.Answer → Prop) :
    start.Stops t l.text Q (Registry.onKey name l (do Act.log entry; Act.call call)) := by
  intro ctx hhushed
  have hnoted := (hhushed.logged entry).noted
  -- What has been logged in between has brought the transaction no further.
  have hover : (ctx.logged entry).world.store.Over t := by
    intro r hr
    rw [hnoted.record? t] at hr
    rw [hnoted.clock]
    exact h.ended r hr
  have herror : (ctx.logged entry).world.store.viewError (some t)
      = start.world.store.viewError (some t) := by
    rw [Store.viewError, Store.viewError, Option.bind_some, Option.bind_some, hnoted.record? t]
  have hlooks : (ctx.logged entry).world.store.looks call = true := by
    have hroot : ∀ root : RootKey,
        ((ctx.logged entry).world.store.opened root.handle).isSome = true := by
      intro root
      rw [Store.opened, KeyHandle.root?_handle]
      rfl
    cases hpath with
    | openKey root => exact hroot root
    | createKey root => exact hroot root
    | deleteKey root => exact hroot root
    | renameKey root => exact hroot root
  refine Act.ends_mapError (ends_bind (Act.ends_log ?_))
  refine (ends_call_after call _).mono ?_ ?_
  · -- A call that looks through a transaction that is over is not answered.
    rintro answer _ ⟨hanswer, _⟩
    exact ((Store.perform_over hlooks (Store.transactionOf_byPath hpath).2 hover).ok
      (eq_of_outcome hanswer)).elim
  · rintro _ _ ⟨e, rfl, hfailed, _⟩
    have he := (Store.perform_over hlooks (Store.transactionOf_byPath hpath).2 hover).error
      (eq_of_outcome_error hfailed)
    refine Or.inr ⟨_, rfl, ?_⟩
    rw [he, herror]
    exact start.world.store.refusal_viewError t name l.text

theorem stops_openAt (access : Access) :
    start.Stops t l.text (fun _ => False) (Registry.openAt ⟨some t⟩ l access) :=
  h.stops_onKey (.openKey l.root l.path.text access) _

/-- An operation that starts with opening its key. -/
theorem stops_opening {access : Access} {f : Route → KeyHandle → Act Timeline RegistryError β}
    {Q : β → Prop} : start.Stops t l.text Q (do
      let route ← Route.current
      let key ← Registry.openAt route l access
      f route key) :=
  h.stops_route ((h.stops_openAt access).bind (fun _ hnever => hnever.elim))

/-! ## Operations -/

theorem stops_exists (l : Location) :
    start.Stops t l.text (fun _ => True) (Registry.exists l) := by
  refine h.stops_route ((h.stops_openAt .queryValue).attempted (fun _ hnever => hnever.elim) ?_ ?_)
  · intro e
    -- Only a missing key is an answer, and a refusal is never that error.
    cases e <;> first | exact stops_pure trivial | exact stops_throw _
  · rintro _ (_ | _) <;> rfl

/-- Nothing is created in a transaction that is over, but a root key need not be. -/
theorem stops_createIfMissing (l : Location) :
    start.Stops t l.text (fun _ => True) (Registry.createIfMissing l) := by
  unfold Registry.createIfMissing
  split
  · exact stops_pure trivial
  · -- The call is never answered, so nothing can follow it.
    refine h.stops_route (Stops.bind (R := fun _ => False) ?_ (fun _ hnever => hnever.elim))
    exact h.stops_onKey (.createKey l.root l.path.text .queryValue) _

theorem stops_create (l : Location) :
    start.Stops t l.text (fun _ => True) (Registry.create l) := by
  refine (h.stops_createIfMissing l).bind (fun created _ => ?_)
  cases created with
  | true => exact stops_pure trivial
  | false => exact stops_throw _

omit h in
theorem stops_refuseRoot (operation : String) (l : Location) :
    start.Stops t path (fun _ => True) (Registry.refuseRoot operation l) := by
  unfold Registry.refuseRoot
  split
  · exact stops_throw _
  · exact stops_pure trivial

theorem stops_delete (l : Location) :
    start.Stops t l.text (fun _ => True) (Registry.delete l) := by
  refine (stops_refuseRoot _ l).bind (fun _ _ => h.stops_route ?_)
  refine Stops.bind (R := fun _ => False) ?_ (fun _ hnever => hnever.elim)
  exact h.stops_onKey (.deleteKey l.root l.path.text) _

theorem stops_rename (l : Location) (newName : String) :
    start.Stops t l.text (fun _ => True) (Registry.rename l newName) := by
  refine (stops_refuseRoot _ l).bind (fun _ _ => h.stops_route ?_)
  refine Stops.bind (R := fun _ => False) ?_ (fun _ hnever => hnever.elim)
  exact h.stops_onKey (.renameKey l.root l.path.text newName) _

theorem stops_deleteIfExists (l : Location) :
    start.Stops t l.text (fun _ => True) (Registry.deleteIfExists l) := by
  refine (h.stops_delete l).attempted (fun _ _ => stops_pure trivial) ?_ ?_
  · intro e
    cases e <;> first | exact stops_pure trivial | exact stops_throw _
  · rintro _ (_ | _) <;> rfl

theorem stops_getValue (l : Location) (name : String) :
    start.Stops t l.text (fun _ => True) (Registry.getValue l name) :=
  h.stops_opening

theorem stops_valueExists (l : Location) (name : String) :
    start.Stops t l.text (fun _ => True) (Registry.valueExists l name) := by
  refine (h.stops_getValue l name).attempted (fun _ _ => stops_pure trivial) ?_ ?_
  · intro e
    cases e <;> first | exact stops_pure trivial | exact stops_throw _
  · rintro _ (_ | _) <;> rfl

theorem stops_setValue (l : Location) (name : String) (value : Value) :
    start.Stops t l.text (fun _ => True) (Registry.setValue l name value) :=
  (stops_ofExcept (fun _ => trivial)).bind (fun _ _ => h.stops_opening)

theorem stops_deleteValueIfExists (l : Location) (name : String) :
    start.Stops t l.text (fun _ => True) (Registry.deleteValueIfExists l name) := by
  have hdelete : start.Stops t l.text (fun _ => True) (Registry.deleteValue l name) :=
    h.stops_opening
  refine hdelete.attempted (fun _ _ => stops_pure trivial) ?_ ?_
  · intro e
    cases e <;> first | exact stops_pure trivial | exact stops_throw _
  · rintro _ (_ | _) <;> rfl

theorem stops_getSelected (l : Location) (name : String) (expected : ValueKind)
    (select : Value → Option α) :
    start.Stops t l.text (fun _ => True) (Registry.getSelected l name expected select) := by
  refine (h.stops_getValue l name).bind (fun value _ => ?_)
  cases select value with
  | some a => exact stops_pure trivial
  | none => exact stops_throw _

theorem stops_operation (l : Location) (step : KeyStep) :
    start.Stops t l.text (fun _ => True) (step.act l) := by
  -- Most operations start with opening their key, so whatever they go on with is not reached.
  have hpure : ∀ {γ : Type} (c : γ), start.Stops t l.text (fun _ => True) (pure c) :=
    fun _ => stops_pure trivial
  have hinfo : start.Stops t l.text (fun _ => True) (Registry.info l) := h.stops_opening
  have hnames : start.Stops t l.text (fun _ => True) (Registry.subKeyNames l) := h.stops_opening
  have hstored : start.Stops t l.text (fun _ => True) (Registry.storedValues l) := h.stops_opening
  cases step with
  | «exists» => exact h.stops_exists l
  | create => exact h.stops_create l
  | createIfMissing => exact h.stops_createIfMissing l
  | delete => exact h.stops_delete l
  | deleteIfExists => exact h.stops_deleteIfExists l
  | rename newName => exact h.stops_rename l newName
  | info => exact hinfo.bind (fun _ _ => hpure _)
  | subKeyNames => exact hnames
  | subKeys => exact hnames.bind (fun _ _ => hpure _)
  | valueNames => exact hstored.bind (fun _ _ => hpure _)
  | values => exact hstored.bind (fun _ _ => stops_ofExcept (fun _ => trivial))
  | get name => exact h.stops_getValue l name
  | valueExists name => exact h.stops_valueExists l name
  | set name value => exact h.stops_setValue l name value
  | deleteValue name => exact h.stops_opening
  | deleteValueIfExists name => exact h.stops_deleteValueIfExists l name
  | getString name => exact h.stops_getSelected l name _ _
  | getDword name => exact h.stops_getSelected l name _ _
  | getQword name => exact h.stops_getSelected l name _ _
  | getMultiString name => exact h.stops_getSelected l name _ _
  | getBinary name => exact h.stops_getSelected l name _ _

end Spent

end Context

/-- An operation in a transaction that is over makes no call, or it fails with a refusal. -/
theorem KeyOperation.stops {start : Context Timeline} {t : TransactionHandle} (h : start.Spent t)
    (l : Location) (operation : KeyOperation) :
    start.Stops t l.text (fun _ => True) (operation.act l : Act Timeline RegistryError _) := by
  cases operation with
  | scripted step => exact h.stops_operation l step
  | fullInfo => exact h.stops_opening

end TransactionalRegistry
