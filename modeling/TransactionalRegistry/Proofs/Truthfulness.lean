import TransactionalRegistry.Proofs.Existence
import TransactionalRegistry.Proofs.HeldKeys
import TransactionalRegistry.Proofs.Renaming
import TransactionalRegistry.Proofs.Routes

/-!
# What errors say

An operation that fails names the key that it was asked for, and says of it that it is missing, that
it exists, or that it has no value under a name. Whatever the reason was that a call came back with,
this is read as being about that key, although a call checks other keys as well: those on the way
to it, and the one beside it whose name a renaming asks for.

What is said of a missing key or value is true of the trees in view, in every operation. It is also
true that a key exists when its creation fails because of that. A renaming alone may say it of a key
that does not exist: it asks whether the new name is taken before it asks whether there is anything
to rename.

## Main definitions

* `KeyOperation.Taken`: What there is when an operation finds that a key exists.
* `RegistryError.Truthful`: What an error says is true.
* `Scene.Truthful`, `Scene.Honest`: An operation that fails says what is true.

## Theorems

* `Scene.Rejects.truthful_delete`, `Scene.Rejects.truthful_rename`, `Scene.Rejects.value_missing`:
  What the trees reject, told as an error.
* `Registry.truthful_read`, `Registry.honest_change`: Operations that hold a key open.
* `KeyOperation.honest`: All operations.
* `errors_tell_the_truth`: The errors of every operation, in every reachable state.
-/

namespace TransactionalRegistry

open Act (Tells)

/-! ## Truthful errors -/

/-- What there is when an operation on the key at a location fails because a key exists. For a
    renaming this is another key, which has the new name. -/
def KeyOperation.Taken (h : Hives) (l : Location) : KeyOperation → Prop
  | scripted (.rename newName) =>
    (l.beside newName).same l = false ∧ h.contains (l.beside newName) = true
  | _ => h.contains l = true

/-- What an error says of the key at a location is true of some trees. That a key exists is said
    when there is one that is `taken`; and that a value is missing is only known if there was `room`
    for the handle of the key. -/
def RegistryError.Truthful (h : Hives) (l : Location) (taken room : Prop) : RegistryError → Prop
  | noSuchKey path => path = l.text ∧ h.contains l = false
  | keyAlreadyExists path => path = l.text ∧ taken
  | noSuchValue path name =>
    path = l.text ∧ ∃ n, h.find? l = some n ∧ (room → n.value? name = none)
  | _ => True

namespace Scene

variable {α : Type}

/-- If an operation on the key at a location fails, then its error is true of the trees in view. -/
def Truthful (c : Scene) (l : Location) (taken room : Prop)
    (r : Except (Failure RegistryError) α) : Prop :=
  ∀ e, r = .error (.error e) → e.Truthful c.view l taken room

/-- If an operation on the key at a location fails, then its error is true of the trees in view, and
    they are as they were. -/
def Honest (c : Scene) (l : Location) (taken room : Prop) (r : Except (Failure RegistryError) α)
    (s : Store) : Prop :=
  ∀ e, r = .error (.error e) → e.Truthful c.view l taken room ∧ c.At s

variable {c : Scene} {l : Location} {taken room : Prop} {access : Access}

/-- What is true of the trees in view is honest where these are as they were. -/
theorem Truthful.honest {r : Except (Failure RegistryError) α} {s : Store}
    (h : c.Truthful l taken room r) (hs : c.At s) : c.Honest l taken room r s :=
  fun e he => ⟨h e he, hs⟩

theorem truthful_ok (a : α) : c.Truthful l taken room (.ok a) :=
  fun _ he => absurd he (by simp)

/-- An error that is true of the trees in view. -/
theorem truthful_error {e : RegistryError} (h : e.Truthful c.view l taken room) :
    c.Truthful l taken room (.error (.error e) : Except (Failure RegistryError) α) := by
  intro e' he
  rw [← Failure.error.inj (Except.error.inj he)]
  exact h

theorem truthful_panic (message : String) :
    c.Truthful l taken room (.error (.panic message) : Except (Failure RegistryError) α) :=
  fun _ he => absurd he (by simp)

theorem honest_ok (a : α) (s : Store) : c.Honest l taken room (.ok a) s :=
  fun _ he => absurd he (by simp)

/-- An error that is true of the trees in view, and that has left them as they were. -/
theorem honest_error {e : RegistryError} {s : Store} (h : e.Truthful c.view l taken room)
    (hs : c.At s) :
    c.Honest l taken room (.error (.error e) : Except (Failure RegistryError) α) s :=
  (truthful_error h).honest hs

/-- Honesty lasts as long as the trees, the transactions and the protected keys stay the same. -/
theorem lasting_honest (c : Scene) (l : Location) (taken room : Prop)
    (r : Except (Failure RegistryError) α) : Store.Lasting (c.Honest l taken room r) :=
  fun _ _ hhives htransactions hprotected h e he =>
    ⟨(h e he).1, (h e he).2.of_same hhives htransactions hprotected⟩

/-- A key that cannot be opened is missing, or it is protected. -/
theorem truthful_of_opening {e : RegistryError} (h : c.opening l access = .error e) :
    e.Truthful c.view l taken room := by
  rw [opening] at h
  split at h
  · split at h
    · rw [← Except.error.inj h]
      trivial
    · exact absurd h (by simp)
  · next hmissing =>
    rw [← Except.error.inj h]
    exact ⟨rfl, Bool.eq_false_iff.mpr hmissing⟩

/-! ## What the trees refuse -/

variable {e : NativeError}

/-- A key cannot be deleted because it is missing, or because of the keys below it. -/
theorem Rejects.truthful_delete {operation : String} (h : c.Rejects (.deleteKey l) e) :
    (RegistryError.ofNative operation l.text e).Truthful c.view l taken room := by
  rcases h with ⟨now, herror⟩
  cases Mutation.refuses_of_error herror with
  | deleteRoot => trivial
  | deleteMissing _ hmissing => exact ⟨rfl, by rw [Hives.contains_eq, hmissing]; rfl⟩
  | deleteInner => trivial

/-- A key cannot be renamed because it is missing, or because another key has the new name. -/
theorem Rejects.truthful_rename {operation newName : String}
    (h : c.Rejects (.renameKey l newName) e) :
    (RegistryError.ofNative operation l.text e).Truthful c.view l
      (KeyOperation.Taken c.view l (.scripted (.rename newName))) room := by
  rcases h with ⟨now, herror⟩
  cases Mutation.refuses_of_error herror with
  | renameName => trivial
  | renameRoot => trivial
  | renameTaken _ _ hother htaken =>
    -- The new name is looked for first, so this case knows nothing of the key itself.
    refine ⟨rfl, ?_, ?_⟩
    · rw [← Bool.not_eq_true, Location.same_iff, Location.place_beside]
      exact hother
    · rw [Hives.contains_eq, Location.place_beside]
      exact htaken
  | renameMissing _ _ _ hmissing => exact ⟨rfl, by rw [Hives.contains_eq, hmissing]; rfl⟩

/-- A value of a key that is there cannot be deleted only because it is missing. -/
theorem Rejects.value_missing {m : Location} {name : String}
    (h : c.Rejects (.deleteValue m name) e) (hthere : c.view.contains m = true) :
    e = .fileNotFound ∧ ∃ n, c.view.find? m = some n ∧ n.value? name = none := by
  rcases h with ⟨now, herror⟩
  rw [Mutation.apply, Hives.update_eq_error] at herror
  rcases herror with ⟨hmissing, -⟩ | ⟨n, hfound, hremove⟩
  · -- The handle denotes a key that is there, so it is not the key that is missing.
    rw [Hives.contains, Hives.find?, hmissing] at hthere
    exact absurd hthere (by simp)
  · rcases Node.removeValue_eq_error.mp hremove with ⟨hvalue, rfl⟩
    exact ⟨rfl, n, hfound, hvalue⟩

end Scene

namespace Registry

variable {c : Scene} {l : Location} {access : Access} {taken room : Prop} {key : KeyHandle}
  {t : Option TransactionHandle} {P : Store → Prop} {α β : Type}

/-! ## Reading -/

/-- An operation that reads from a key tells the truth if what it does with the key does. -/
theorem truthful_read (hl : l.path.Sound) {f : Route → KeyHandle → Act Timeline RegistryError α}
    (hf : ∀ key, Tells c.transaction (c.Held l access room key) (f ⟨c.transaction⟩ key)
      (fun r s => c.Truthful l taken room r ∧ c.At s)) :
    Tells c.transaction (fun s => c.At s ∧ (room → s.RoomForKey))
      (do let route ← Route.current
          let key ← openAt route l access
          closing key (f route key))
      (fun r s => c.Truthful l taken room r ∧ c.At s) := by
  refine tells_with_held hl room (fun r => c.lasting_at.const_and _) hf ?_
  exact fun e s hopening hs => ⟨Scene.truthful_error (Scene.truthful_of_opening hopening), hs⟩

/-- Reading what is never missing from a key fails only when the key is opened. -/
theorem truthful_read_sure (hl : l.path.Sound) {operation : String}
    {work : KeyHandle → Act Timeline NativeError α}
    (hwork : ∀ key, Tells c.transaction (c.Held l access room key) (work key)
      (fun r s => c.Held l access room key s ∧ ∀ e, r ≠ .error (.error e))) :
    Tells c.transaction (fun s => c.At s ∧ (room → s.RoomForKey))
      (do let route ← Route.current
          let key ← openAt route l access
          closing key (onKey operation l (work key)))
      (fun r s => c.Truthful l taken room r ∧ c.At s) := by
  refine truthful_read hl (f := fun _ key => onKey operation l (work key))
    (fun key => Tells.mapError ((hwork key).mono_post ?_))
  rintro r s ⟨hs, hnever⟩
  refine ⟨?_, hs.scene⟩
  cases r with
  | ok a => exact Scene.truthful_ok a
  -- Of the failures only a panic is left, and it says nothing of a key.
  | error failure =>
    cases failure with
    | error e => exact absurd rfl (hnever e)
    | panic message => exact Scene.truthful_panic message

/-- An operation that goes by what another one has read. -/
theorem truthful_from {operation : Act Timeline RegistryError β}
    (h : Tells t P operation (fun r s => c.Truthful l taken room r ∧ c.At s))
    (f : β → Except RegistryError α) {rest : β → Act Timeline RegistryError α}
    (hrest : ∀ b, rest b = Act.ofExcept (f b))
    (hf : ∀ b e, f b = .error e → e.Truthful c.view l taken room) :
    Tells t P (operation >>= rest) (fun r s => c.Truthful l taken room r ∧ c.At s) := by
  refine h.bind (fun b => ?_) ?_
  · rw [hrest]
    refine Act.tells_ofExcept (fun s hs => ⟨fun e he => ?_, hs.2⟩)
    exact hf b e (Act.mapError_eq_error.mp he)
  · rintro failure s ⟨htrue, hs⟩
    exact ⟨fun e he => htrue e (congrArg Except.error (Except.error.inj he)), hs⟩

/-- What there is to know of a key is read without anything that could be missing. -/
theorem truthful_info (hl : l.path.Sound) :
    Tells c.transaction (fun s => c.At s ∧ (room → s.RoomForKey)) (info l)
      (fun r s => c.Truthful l taken room r ∧ c.At s) := by
  refine truthful_read_sure hl (fun key => ?_)
  -- The call is answered from the key that the handle denotes, and always with `ok`.
  have hperform : Store.perform (.queryInfo key) =
      Store.withNode key .queryValue none fun n => .ok n.info := rfl
  refine (tells_read_held (.queryInfo key) .queryValue rfl hperform rfl rfl
    (Or.inl rfl)).mono_post ?_
  rintro r s ⟨hs, herror⟩
  refine ⟨hs, fun e he => ?_⟩
  rcases herror e he with ⟨n, hread, -⟩
  exact absurd hread (by simp)

/-- The names below a key are read until there are no more. -/
theorem truthful_subKeyNames (hl : l.path.Sound) :
    Tells c.transaction (fun s => c.At s ∧ (room → s.RoomForKey)) (subKeyNames l)
      (fun r s => c.Truthful l taken room r ∧ c.At s) := by
  refine truthful_read_sure hl (fun key => tells_enumerate_sure (fun index =>
    tells_item_held (.enumKey key index) .enumerateSubKeys rfl rfl rfl rfl (Or.inl rfl) ?_))
  -- The only error of an item is the one that ends the list.
  intro n e he
  split at he
  · exact absurd he (by simp)
  · exact (Except.error.inj he).symm

/-- The values of a key are read until there are no more. -/
theorem truthful_storedValues (hl : l.path.Sound) :
    Tells c.transaction (fun s => c.At s ∧ (room → s.RoomForKey)) (storedValues l)
      (fun r s => c.Truthful l taken room r ∧ c.At s) := by
  refine truthful_read_sure hl (fun key => tells_enumerate_sure (fun index =>
    tells_item_held (.enumValue key index) .queryValue rfl rfl rfl rfl (Or.inl rfl) ?_))
  intro n e he
  split at he
  · exact absurd he (by simp)
  · exact (Except.error.inj he).symm

/-- The keys below a key are named by what was read. -/
theorem truthful_subKeys (hl : l.path.Sound) :
    Tells c.transaction (fun s => c.At s ∧ (room → s.RoomForKey)) (subKeys l)
      (fun r s => c.Truthful l taken room r ∧ c.At s) :=
  truthful_from (truthful_subKeyNames hl) (fun names => .ok (names.map l.below)) (fun _ => rfl)
    (fun _ _ he => absurd he (by simp))

/-- The names of the values are those of what was read. -/
theorem truthful_valueNames (hl : l.path.Sound) :
    Tells c.transaction (fun s => c.At s ∧ (room → s.RoomForKey)) (valueNames l)
      (fun r s => c.Truthful l taken room r ∧ c.At s) :=
  truthful_from (truthful_storedValues hl) (fun stored => .ok (stored.map Prod.fst))
    (fun _ => rfl) (fun _ _ he => absurd he (by simp))

/-- Data that cannot be read is neither a key nor a value that is missing. -/
theorem truthful_decoded {h : Hives} {name : String} {data : ValueData} {e : RegistryError}
    (he : decoded l name data = .error e) : e.Truthful h l taken room := by
  rw [decoded] at he
  cases hdecode : Value.decode data with
  | ok value => exact absurd he (by simp [hdecode, Except.mapError])
  | error cause =>
    rw [hdecode] at he
    rw [← Except.error.inj he]
    trivial

/-- The first value that cannot be read is told, and it is neither missing nor a missing key. -/
theorem truthful_decodedAll {h : Hives} {e : RegistryError} {stored : List (String × ValueData)}
    (he : decodedAll l stored = .error e) : e.Truthful h l taken room := by
  induction stored with
  | nil => exact absurd he (by simp [decodedAll])
  | cons entry rest ih =>
    rcases entry with ⟨name, data⟩
    rw [decodedAll] at he
    cases hfirst : decoded l name data with
    | error e' =>
      rw [hfirst] at he
      rw [← Except.error.inj he]
      exact truthful_decoded hfirst
    | ok value =>
      rw [hfirst] at he
      cases hrest : decodedAll l rest with
      | error e' =>
        rw [hrest] at he
        exact ih (hrest.trans he)
      | ok values =>
        rw [hrest] at he
        exact absurd he (by simp [bind, Except.bind, pure, Except.pure])

/-- All values are read first, and decoded afterwards. -/
theorem truthful_values (hl : l.path.Sound) :
    Tells c.transaction (fun s => c.At s ∧ (room → s.RoomForKey)) (values l)
      (fun r s => c.Truthful l taken room r ∧ c.At s) :=
  truthful_from (truthful_storedValues hl) (decodedAll l) (fun _ => rfl)
    (fun _ _ => truthful_decodedAll)

/-- A value that is missing from what is read is missing from the key, if there was room for the
    handle of the key; and the key is there in any case. -/
theorem truthful_noSuchValue {name : String} (hopening : c.opening l access = .ok ())
    (hmissing : room → ∃ n, c.view.find? l = some n ∧ n.value? name = none) :
    (RegistryError.noSuchValue l.text name).Truthful c.view l taken room := by
  rcases Scene.found_of_opening hopening with ⟨n, hfound⟩
  refine ⟨rfl, n, hfound, fun hroom => ?_⟩
  -- The handle denotes the key itself if there was room for it, so the value is missing from the
  -- key.
  rcases hmissing hroom with ⟨n', hfound', hvalue⟩
  obtain rfl := Option.some.inj (hfound.symm.trans hfound')
  exact hvalue

/-- Only a value that is missing from the key is told to be missing. -/
theorem truthful_getValue (hl : l.path.Sound) (name : String) :
    Tells c.transaction (fun s => c.At s ∧ (room → s.RoomForKey)) (getValue l name)
      (fun r s => c.Truthful l taken room r ∧ c.At s) := by
  -- Two errors can arise: one of the call, and one of the data that it has answered.
  refine truthful_read hl (fun key => truthful_from (Tells.mapError (Tells.after_log ?_ _
    (fun s hs => Scene.held_note _ hs))) (decoded l name) (fun _ => rfl)
    (fun _ _ => truthful_decoded))
  refine (tells_read_held (.getValue key name c.transaction) .queryValue rfl rfl rfl rfl
    (Or.inr rfl)).mono_post ?_
  rintro r s ⟨hs, herror⟩
  refine ⟨?_, hs.scene⟩
  cases r with
  | ok data => exact Scene.truthful_ok data
  | error failure =>
    cases failure with
    | panic message => exact Scene.truthful_panic message
    | error e =>
      -- The only thing that can be missing from what the handle denotes is the value.
      rcases herror e rfl with ⟨n, hread, hroom⟩
      split at hread
      · exact absurd hread (by simp)
      · next hvalue =>
        rw [← Except.error.inj hread]
        exact Scene.truthful_error
          (truthful_noSuchValue hs.opening (fun h => ⟨n, hroom h, hvalue⟩))

/-- A value of another type than expected is told as such, and is not said to be missing. -/
theorem truthful_getSelected (hl : l.path.Sound) (name : String) (expected : ValueKind)
    (select : Value → Option α) :
    Tells c.transaction (fun s => c.At s ∧ (room → s.RoomForKey))
      (getSelected l name expected select) (fun r s => c.Truthful l taken room r ∧ c.At s) := by
  refine truthful_from (truthful_getValue hl name)
    (fun value => (select value).elim (.error (.typeMismatch l.text name expected value.kind)) .ok)
    (fun value => ?_) (fun value e he => ?_)
  · cases select value <;> rfl
  · cases hselect : select value with
    | some a => exact absurd he (by simp [hselect])
    | none =>
      rw [hselect] at he
      rw [← Except.error.inj he]
      trivial

/-! ## Changing -/

/-- A failure says the same, whatever the operation would have answered. -/
theorem honest_failure {failure : Failure RegistryError} {s : Store}
    (h : c.Honest l taken room (.error failure : Except (Failure RegistryError) β) s) :
    c.Honest l taken room (.error failure : Except (Failure RegistryError) α) s :=
  fun e he => h e (congrArg Except.error (Except.error.inj he))

/-- An operation that makes answers of some errors of another one, and passes the rest on. -/
theorem honest_attempt {act : Act Timeline RegistryError β}
    {f : Except RegistryError β → Act Timeline RegistryError α}
    (h : Tells t P act (c.Honest l taken room))
    (hf : ∀ result, (∃ a, f result = pure a) ∨ ∃ e, result = .error e ∧ f result = Act.fail e) :
    Tells t P (act.attempt >>= f) (c.Honest l taken room) := by
  -- What is made an answer of says nothing any more; what is passed on is as true as it was.
  refine h.attempt_bind (fun b => ?_) (fun e => ?_) (fun message s hs => honest_failure hs)
  · rcases hf (.ok b) with ⟨a, ha⟩ | ⟨e, hnever, -⟩
    · rw [ha]
      exact Act.tells_pure (fun s _ => Scene.honest_ok a s)
    · exact absurd hnever (by simp)
  · rcases hf (.error e) with ⟨a, ha⟩ | ⟨e', he, hfail⟩
    · rw [ha]
      exact Act.tells_pure (fun s _ => Scene.honest_ok a s)
    · obtain rfl := Except.error.inj he
      rw [hfail]
      exact Act.tells_throw (fun s hs => honest_failure hs)

/-- An operation that changes the values of a key tells the truth if what it does with the key
    does. -/
theorem honest_change (hl : l.path.Sound) {f : Route → KeyHandle → Act Timeline RegistryError α}
    (hf : ∀ key, Tells c.transaction (c.Held l access room key) (f ⟨c.transaction⟩ key)
      (c.Honest l taken room)) :
    Tells c.transaction (fun s => c.At s ∧ (room → s.RoomForKey))
      (do let route ← Route.current
          let key ← openAt route l access
          closing key (f route key))
      (c.Honest l taken room) := by
  refine tells_with_held hl room (c.lasting_honest l taken room) hf ?_
  exact fun e s hopening hs => Scene.honest_error (Scene.truthful_of_opening hopening) hs

/-- A call that changes the values of a key that is held open, with the entry in the log that tells
    of it. Its errors are told by `told`. -/
theorem honest_change_held (call : Call) {entry : LogEntry} {mutation : Location → Mutation}
    {told : NativeError → RegistryError} (hkey : call.key?.isSome)
    (hperform : ∀ s, c.Held l access room key s → Ends (Store.perform call) s (fun _ _ => True)
      (fun e s' => Scene.Lost c.transaction s' ∨ c.At s' ∧ (e = .accessDenied ∨
        ∃ m, c.view.contains m = true ∧ (room → m = l) ∧ c.Rejects (mutation m) e)))
    (hdenied : (told .accessDenied).Truthful c.view l taken room)
    (hrejected : ∀ m e, c.opening l access = .ok () → c.view.contains m = true → (room → m = l) →
      c.Rejects (mutation m) e → (told e).Truthful c.view l taken room) :
    Tells c.transaction (c.Held l access room key)
      (Act.mapError told (do Act.log entry; Act.call call)) (c.Honest l taken room) := by
  refine Tells.mapError (Tells.after_log (Act.tells_call hkey (fun s hs => ?_)) _
    (fun s hs => Scene.held_note _ hs))
  refine (hperform s hs).mono (fun a s' _ => Or.inr (Scene.honest_ok a s')) ?_
  rintro e s' (hlost | ⟨hs', rfl | ⟨m, hthere, hroom, hrejects⟩⟩)
  · exact Or.inl hlost
  · exact Or.inr (Scene.honest_error hdenied hs')
  · exact Or.inr (Scene.honest_error (hrejected m e hs.opening hthere hroom hrejects) hs')

/-- An entry in the log at the end of an operation takes nothing away. -/
theorem honest_then_log {act : Act Timeline RegistryError Unit} (entry : LogEntry)
    (h : Tells t P act (c.Honest l taken room)) :
    Tells t P (do act; Act.log entry) (c.Honest l taken room) := by
  refine h.bind (fun _ => ?_) (fun failure s hs => hs)
  refine (Act.tells_log entry (fun s hs =>
    c.lasting_honest l taken room _ s _ rfl rfl rfl hs)).mono_post ?_
  rintro r s ⟨rfl, -⟩
  exact Scene.honest_ok () s

/-- Setting a value never tells of a missing one. -/
theorem honest_setValue (hl : l.path.Sound) (name : String) (value : Value) :
    Tells c.transaction (fun s => c.At s ∧ (room → s.RoomForKey)) (setValue l name value)
      (c.Honest l taken room) := by
  unfold setValue
  cases hencode : value.encode with
  | error cause => exact Act.tells_throw (fun s hs => Scene.honest_error trivial hs.1)
  | ok data =>
    refine honest_change hl (f := fun route key => do
      onKey "RegSetValueEx" l (route.setValue key name data)
      Act.log (.debug "value set")) (fun key => honest_then_log _ ?_)
    refine honest_change_held (.setValue key name data c.transaction) rfl
      (fun s hs => Store.changeValue_held (.setValue · name data) hs rfl) trivial ?_
    -- Whichever key it is that the handle denotes, it is there, and so a value can be written.
    exact fun m e _ hthere _ hrejects =>
      absurd hrejects (Scene.not_rejects_setValue hthere name data e)

/-- A value is told to be missing only if the key does not have it. -/
theorem honest_deleteValue (hl : l.path.Sound) (name : String) :
    Tells c.transaction (fun s => c.At s ∧ (room → s.RoomForKey)) (deleteValue l name)
      (c.Honest l taken room) := by
  refine honest_change hl (f := fun route key => do
    onValue "RegDeleteValue" l name (route.deleteValue key name)
    Act.log (.debug "value deleted")) (fun key => honest_then_log _ ?_)
  refine honest_change_held (.deleteValue key name c.transaction) rfl
    (fun s hs => Store.changeValue_held (.deleteValue · name) hs rfl) trivial ?_
  intro m e hopening hthere hroom hrejects
  -- The trees have rejected the change of the key that the handle denotes, and that is this one if
  -- there was room for it.
  rcases hrejects.value_missing hthere with ⟨rfl, n, hfound, hvalue⟩
  exact truthful_noSuchValue hopening (fun h => ⟨n, hroom h ▸ hfound, hvalue⟩)

/-- That a value is missing is an answer here, and other errors are passed on. -/
theorem honest_valueExists (hl : l.path.Sound) (name : String) :
    Tells c.transaction (fun s => c.At s ∧ (room → s.RoomForKey)) (valueExists l name)
      (c.Honest l taken room) := by
  refine honest_attempt ((truthful_getValue hl name).mono_post (fun r s hs => hs.1.honest hs.2)) ?_
  rintro (e | value)
  · cases e with
    | invalidData => exact Or.inl ⟨_, rfl⟩
    | noSuchValue => exact Or.inl ⟨_, rfl⟩
    | _ => exact Or.inr ⟨_, rfl, rfl⟩
  · exact Or.inl ⟨_, rfl⟩

/-- A value that was missing is not told, and other errors are passed on. -/
theorem honest_deleteValueIfExists (hl : l.path.Sound) (name : String) :
    Tells c.transaction (fun s => c.At s ∧ (room → s.RoomForKey)) (deleteValueIfExists l name)
      (c.Honest l taken room) := by
  refine honest_attempt (honest_deleteValue hl name) ?_
  rintro (e | value)
  · cases e with
    | noSuchValue => exact Or.inl ⟨_, rfl⟩
    | _ => exact Or.inr ⟨_, rfl, rfl⟩
  · exact Or.inl ⟨_, rfl⟩

/-! ## Keys -/

/-- Whether a key is there is always answered. -/
theorem honest_exists (hl : l.path.Sound) :
    Tells c.transaction c.At (Registry.exists l) (c.Honest l taken room) := by
  refine (tells_exists hl).mono_post ?_
  rintro r s ⟨rfl, -⟩
  exact Scene.honest_ok _ s

/-- Creating a key that may be there tells of no key at all. -/
theorem honest_createIfMissing (hl : l.path.Sound) :
    Tells c.transaction c.At (createIfMissing l) (c.Honest l taken room) := by
  cases hroot : l.isRoot with
  -- Root keys are there, and are answered for without a call.
  | true =>
    have hanswer : (createIfMissing l : Act Timeline RegistryError Bool) = pure false :=
      funext (createIfMissing_of_isRoot hroot)
    rw [hanswer]
    exact Act.tells_pure (fun s _ => Scene.honest_ok false s)
  | false =>
    refine (tells_createIfMissing hl hroot).mono_post (fun r s hcreated => ?_)
    cases hcreated with
    | there => exact Scene.honest_ok _ s
    | made => exact Scene.honest_ok _ s
    | denied _ _ hs => exact Scene.honest_error trivial hs

/-- That a key exists already is told when it was found to be there. -/
theorem honest_create (hl : l.path.Sound) :
    Tells c.transaction c.At (create l) (c.Honest l (c.view.contains l = true) room) := by
  cases hroot : l.isRoot with
  | true =>
    -- No call is made for a root key: it is there without having been looked for.
    have hfails : (create l : Act Timeline RegistryError Unit) =
        Act.fail (.keyAlreadyExists l.text) :=
      funext fun ctx => (bind_of_ok (createIfMissing_of_isRoot hroot ctx)).trans rfl
    have hthere : c.view.contains l = true := by
      rw [Hives.contains, Hives.find?, (Location.isRoot_iff l).mp hroot]
      rfl
    rw [hfails]
    exact Act.tells_throw (fun s hs => Scene.honest_error ⟨rfl, hthere⟩ hs)
  | false =>
    refine (tells_create hl hroot).mono_post ?_
    rintro r s ⟨created, hcreated, rfl⟩
    cases hcreated with
    | there hthere hs => exact Scene.honest_error ⟨rfl, hthere⟩ hs
    | made => exact Scene.honest_ok () s
    | denied _ _ hs => exact Scene.honest_error trivial hs

/-- An operation that is refused on a root key. -/
theorem honest_refused {title : String} {rest : Act Timeline RegistryError α}
    (hroot : l.isRoot = true) :
    Tells t c.At (do refuseRoot title l; rest) (c.Honest l taken room) := by
  have hfails : (do refuseRoot title l; rest) = Act.fail (.rootKeyUnsupported title l.text) :=
    funext fun ctx => bind_of_error (refuseRoot_of_isRoot title hroot ctx)
  rw [hfails]
  exact Act.tells_throw (fun s hs => Scene.honest_error trivial hs)

/-- A change of a key tells the truth if it does where the trees reject it. -/
theorem honest_of_changed {operation : String} {m : Mutation} {a : α}
    {r : Except (Failure RegistryError) α} {s : Store} (h : c.Changed l operation m a r s)
    (hrejected : ∀ e, c.Rejects m e →
      (RegistryError.ofNative operation l.text e).Truthful c.view l taken room) :
    c.Honest l taken room r s := by
  cases h with
  | made => exact Scene.honest_ok a s
  | denied _ hs => exact Scene.honest_error trivial hs
  | rejected _ hrejects hs => exact Scene.honest_error (hrejected _ hrejects) hs

/-- A key is told to be missing when it is. -/
theorem honest_delete (hl : l.path.Sound) :
    Tells c.transaction c.At (delete l) (c.Honest l taken room) := by
  cases hroot : l.isRoot with
  | true => exact honest_refused hroot
  | false =>
    exact (tells_delete hl hroot).mono_post (fun r s hchanged =>
      honest_of_changed hchanged (fun e hrejects => hrejects.truthful_delete))

/-- A key that was missing is not told, and other errors are passed on. -/
theorem honest_deleteIfExists (hl : l.path.Sound) :
    Tells c.transaction c.At (deleteIfExists l) (c.Honest l taken room) := by
  refine honest_attempt (honest_delete hl) ?_
  rintro (e | value)
  · cases e with
    | noSuchKey => exact Or.inl ⟨_, rfl⟩
    | _ => exact Or.inr ⟨_, rfl, rfl⟩
  · exact Or.inl ⟨_, rfl⟩

/-- Of a new name it is told that it is taken, and of the key that it is missing. -/
theorem honest_rename (hl : l.path.Sound) (newName : String) :
    Tells c.transaction c.At (rename l newName)
      (c.Honest l (KeyOperation.Taken c.view l (.scripted (.rename newName))) room) := by
  cases hroot : l.isRoot with
  | true => exact honest_refused hroot
  | false =>
    exact (tells_rename hl hroot (Location.renamed?_eq hroot newName)).mono_post
      (fun r s hchanged => honest_of_changed hchanged (fun e hrejects => hrejects.truthful_rename))

end Registry

/-- Every operation that fails tells the truth. -/
theorem KeyOperation.honest {c : Scene} {l : Location} {room : Prop} (hl : l.path.Sound)
    (operation : KeyOperation) :
    Tells c.transaction (fun s => c.At s ∧ (room → s.RoomForKey)) (operation.act l)
      (c.Honest l (operation.Taken c.view l) room) := by
  -- Operations that read say the truth and leave the scene; the others need no room for a key.
  have reads : ∀ {α : Type} {act : Act Timeline RegistryError α} {taken : Prop},
      Tells c.transaction (fun s => c.At s ∧ (room → s.RoomForKey)) act
        (fun r s => c.Truthful l taken room r ∧ c.At s) →
      Tells c.transaction (fun s => c.At s ∧ (room → s.RoomForKey)) act (c.Honest l taken room) :=
    fun h => h.mono_post (fun r s hs => hs.1.honest hs.2)
  cases operation with
  | fullInfo => exact reads (Registry.truthful_info hl)
  | scripted step =>
    cases step with
    | «exists» => exact (Registry.honest_exists hl).mono_pre (fun s hs => hs.1)
    | create => exact (Registry.honest_create hl).mono_pre (fun s hs => hs.1)
    | createIfMissing => exact (Registry.honest_createIfMissing hl).mono_pre (fun s hs => hs.1)
    | delete => exact (Registry.honest_delete hl).mono_pre (fun s hs => hs.1)
    | deleteIfExists => exact (Registry.honest_deleteIfExists hl).mono_pre (fun s hs => hs.1)
    | rename newName => exact (Registry.honest_rename hl newName).mono_pre (fun s hs => hs.1)
    | info =>
      -- The time of the last write is left out; nothing else is done with the answer.
      exact reads (Registry.truthful_from (Registry.truthful_info hl)
        (fun info => .ok { info with lastWrite := 0 }) (fun _ => rfl)
        (fun _ _ he => absurd he (by simp)))
    | subKeyNames => exact reads (Registry.truthful_subKeyNames hl)
    | subKeys => exact reads (Registry.truthful_subKeys hl)
    | valueNames => exact reads (Registry.truthful_valueNames hl)
    | values => exact reads (Registry.truthful_values hl)
    | get name => exact reads (Registry.truthful_getValue hl name)
    | valueExists name => exact Registry.honest_valueExists hl name
    | set name value => exact Registry.honest_setValue hl name value
    | deleteValue name => exact Registry.honest_deleteValue hl name
    | deleteValueIfExists name => exact Registry.honest_deleteValueIfExists hl name
    | getString name => exact reads (Registry.truthful_getSelected hl name _ _)
    | getDword name => exact reads (Registry.truthful_getSelected hl name _ _)
    | getQword name => exact reads (Registry.truthful_getSelected hl name _ _)
    | getMultiString name => exact reads (Registry.truthful_getSelected hl name _ _)
    | getBinary name => exact reads (Registry.truthful_getSelected hl name _ _)

/-- Let anything have happened, let the trees in view be given, and let the names of a location be
    single, as they are in every location that is read from text. Let any operation on the key at
    the location fail with an error, while the transaction that is current, if there is one, stays
    active.

    Then the trees in view are as they were, and what the error says of the key is true of them. If
    it says that the key is missing, then it is. If it says that the key exists, then it does;
    unless the operation was to rename the key, when it is another key beside it that has the new
    name. If it says that the key has no value under a name, then the key is there and has none, as
    long as there was room for the handle that it was opened under. -/
theorem errors_tell_the_truth (ctx : Context Timeline) (h : Hives) (hsees : ctx.Sees h)
    (l : Location) (hl : l.path.Sound) (operation : KeyOperation)
    (hundisturbed : (operation.act l).Undisturbed ctx) (e : RegistryError)
    (herror : outcome (operation.act l) ctx = .error (.error e)) :
    (endState (operation.act l) ctx).Sees h ∧
    (∀ path, e = .noSuchKey path → path = l.text ∧ h.contains l = false) ∧
    (∀ path, e = .keyAlreadyExists path → path = l.text ∧ operation.Taken h l) ∧
    ∀ path name, e = .noSuchValue path name → path = l.text ∧
      ∃ n, h.find? l = some n ∧ (ctx.world.store.RoomForKey → n.value? name = none) := by
  rcases (KeyOperation.honest (c := ctx.scene h) hl operation).told_in hundisturbed
    ⟨hsees.scene_at, fun hroom => hroom⟩ with ⟨hhonest, hroute⟩
  rcases hhonest e herror with ⟨htrue, hscene⟩
  refine ⟨Context.sees_of_scene (h := h) hroute hscene, ?_, ?_, ?_⟩
  · rintro path rfl
    exact htrue
  · rintro path rfl
    exact htrue
  · rintro path name rfl
    exact htrue

/-- A key `B` in the tree of the user, and no key `A`. -/
def oneKey : Context Timeline where
  world := ⟨⟨0, []⟩, [.call (.createKey RootKey.currentUser.handle "B" .all none)]⟩
  ambient := []
  shared := []

/-- A value that is not there is looked for in a key that is. -/
theorem missing_value_is_told :
    let l := (Location.ofRoot .currentUser).below "b"
    outcome (Registry.getValue l "Count") oneKey =
        .error (.error (.noSuchValue l.text "Count")) ∧
      ∃ n, oneKey.world.store.hives.find? l = some n ∧ n.value? "Count" = none := by
  intro l
  have herror : outcome (Registry.getValue l "Count") oneKey =
      .error (.error (.noSuchValue l.text "Count")) := by
    decide +kernel
  rcases errors_tell_the_truth oneKey oneKey.world.store.hives rfl l (Path.sound_root.join _)
    (.scripted (.get "Count")) (by decide +kernel) _ herror with ⟨-, -, -, hvalue⟩
  rcases hvalue _ _ rfl with ⟨-, n, hfound, hmissing⟩
  have hroom : (KeyHandle.mk oneKey.world.store.nextHandle).root? = none := by decide +kernel
  exact ⟨herror, n, hfound, hmissing hroom⟩

/-- Of a renaming it is not true that a key exists if the operation fails because of that: `A` is
    missing, and renaming it to `B` fails because there is a `B`. -/
theorem renaming_takes_a_missing_key_for_present :
    ¬ ∀ (ctx : Context Timeline) (h : Hives) (l : Location) (newName path : String),
      ctx.Sees h → (Registry.rename l newName).Undisturbed ctx →
      outcome (Registry.rename l newName) ctx = .error (.error (.keyAlreadyExists path)) →
      path = l.text ∧ h.contains l = true := by
  intro hall
  have hthere := hall oneKey oneKey.world.store.hives ((Location.ofRoot .currentUser).below "A")
    "B" ((Location.ofRoot .currentUser).below "A").text rfl (by decide +kernel) (by decide +kernel)
  have hmissing :
      oneKey.world.store.hives.contains ((Location.ofRoot .currentUser).below "A") = false := by
    decide +kernel
  rw [hmissing] at hthere
  exact absurd hthere.2 (by simp)

end TransactionalRegistry
