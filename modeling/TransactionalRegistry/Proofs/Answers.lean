import TransactionalRegistry.Proofs.InScene

/-!
# What operations answer

In a scene every operation on a key has one way to end, which can be told from the trees that are
seen and from the protected places. Most operations answer from the key at their location and leave
the scene as it is; the others make one change to it, or are told why it cannot be made.

## Main definitions

* `Scene.Created`, `Scene.Changed`: How creating a key, and another change of a key, ends.
* `Scene.Written`: How writing a value ends.
* `Registry.itemAt`: The item that has a given index.
* `Registry.valueIn`: What reading the value of a key under a name answers.

## Theorems

* `Registry.tells_exists`, `Registry.tells_createIfMissing`, `Registry.tells_delete`,
  `Registry.tells_rename` and the like: Keys.
* `Registry.tells_enumerate`: What is listed by index is enumerated, each item once and in order.
* `Registry.tells_info`, `Registry.tells_subKeyNames`, `Registry.tells_storedValues` and the like:
  What there is in a key.
* `Registry.tells_getValue`, `Registry.tells_getSelected`, `Registry.tells_valueExists`,
  `Registry.tells_setValue`: Values.
-/

namespace TransactionalRegistry

namespace Scene

/-- How creating the key at a location ends, if it was missing or is protected or neither. -/
inductive Created (c : Scene) (l : Location) :
    Except (Failure RegistryError) Bool → Store → Prop
  | there {s : Store} : c.view.contains l = true → c.At s → Created c l (.ok false) s
  | made {s : Store} : c.view.contains l = false → c.isProtected l = false →
      c.Becomes (.createKey l) s → Created c l (.ok true) s
  | denied {s : Store} : c.view.contains l = false → c.isProtected l = true → c.At s →
      Created c l (.error (.error (.accessDenied l.text))) s

/-- How a change of the key at a location ends, with the answer `a` or with an error of the
    operation: it is made, or it is refused at a protected place, or the trees reject it. -/
inductive Changed {α : Type} (c : Scene) (l : Location) (operation : String) (m : Mutation)
    (a : α) : Except (Failure RegistryError) α → Store → Prop
  | made {s : Store} : c.isProtected l = false → c.Becomes m s →
      Changed c l operation m a (.ok a) s
  | denied {s : Store} : c.isProtected l = true → c.At s →
      Changed c l operation m a (.error (.error (.accessDenied l.text))) s
  | rejected {s : Store} {e : NativeError} : c.isProtected l = false → c.Rejects m e → c.At s →
      Changed c l operation m a (.error (.error (.ofNative operation l.text e))) s

/-- How creating a key has ended stays true while trees, transactions and protected keys do. -/
theorem Created.lasting (c : Scene) (l : Location) (r : Except (Failure RegistryError) Bool) :
    Store.Lasting (c.Created l r) := by
  intro s s' hhives htransactions hprotected h
  cases h with
  | there hthere hs => exact .there hthere (c.lasting_at _ _ hhives htransactions hprotected hs)
  | made hmissing hfree hs =>
    exact .made hmissing hfree (c.lasting_becomes _ _ _ hhives htransactions hprotected hs)
  | denied hmissing hdenied hs =>
    exact .denied hmissing hdenied (c.lasting_at _ _ hhives htransactions hprotected hs)

/-- How writing a value of the key at a location ends: it cannot be written, or the key cannot be
    opened to be changed, or it is written. -/
inductive Written (c : Scene) (l : Location) (name : String) (value : Value) :
    Except (Failure RegistryError) Unit → Store → Prop
  | unwritable {cause : ValueError} {s : Store} : value.encode = .error cause → c.At s →
      Written c l name value (.error (.error (.invalidData l.text name cause))) s
  | refused {e : RegistryError} {s : Store} : c.opening l .setValue = .error e → c.At s →
      Written c l name value (.error (.error e)) s
  | made {data : ValueData} {s : Store} : value.encode = .ok data →
      c.opening l .setValue = .ok () → c.Becomes (.setValue l name data) s →
      Written c l name value (.ok ()) s

/-- An answer that is made from another one. -/
theorem Changed.map {α β : Type} {c : Scene} {l : Location} {operation : String} {m : Mutation}
    {a : α} {r : Except (Failure RegistryError) α} {s : Store}
    (h : c.Changed l operation m a r s) (f : α → β) :
    c.Changed l operation m (f a) (r.map f) s := by
  cases h with
  | made hfree hs => exact .made hfree hs
  | denied hdenied hs => exact .denied hdenied hs
  | rejected hfree hrejects hs => exact .rejected hfree hrejects hs

/-- How a change has ended stays true while trees, transactions and protected keys do. -/
theorem Changed.lasting {α : Type} (c : Scene) (l : Location) (operation : String) (m : Mutation)
    (a : α) (r : Except (Failure RegistryError) α) :
    Store.Lasting (c.Changed l operation m a r) := by
  intro s s' hhives htransactions hprotected h
  cases h with
  | made hfree hs =>
    exact .made hfree (c.lasting_becomes _ _ _ hhives htransactions hprotected hs)
  | denied hdenied hs =>
    exact .denied hdenied (c.lasting_at _ _ hhives htransactions hprotected hs)
  | rejected hfree hrejects hs =>
    exact .rejected hfree hrejects (c.lasting_at _ _ hhives htransactions hprotected hs)

/-- How writing has ended stays true while trees, transactions and protected keys do. -/
theorem Written.lasting (c : Scene) (l : Location) (name : String) (value : Value)
    (r : Except (Failure RegistryError) Unit) : Store.Lasting (c.Written l name value r) := by
  intro s s' hhives htransactions hprotected h
  cases h with
  | unwritable hencode hs =>
    exact .unwritable hencode (c.lasting_at _ _ hhives htransactions hprotected hs)
  | refused hopening hs =>
    exact .refused hopening (c.lasting_at _ _ hhives htransactions hprotected hs)
  | made hencode hopening hs =>
    exact .made hencode hopening (c.lasting_becomes _ _ _ hhives htransactions hprotected hs)

/-- What may be opened to be changed is there, and is not protected. -/
theorem opening_modifying {c : Scene} {l : Location} {access : Access}
    (hmodifying : access.isModifying = true) (h : c.opening l access = .ok ()) :
    c.view.contains l = true ∧ c.isProtected l = false := by
  rw [opening, hmodifying, Bool.true_and] at h
  split at h
  · next hthere =>
    split at h
    · exact absurd h (by simp)
    · next hfree => exact ⟨hthere, Bool.eq_false_iff.mpr hfree⟩
  · exact absurd h (by simp)

/-- A value can be written of every key that is there. -/
theorem not_rejects_setValue {c : Scene} {l : Location} (hthere : c.view.contains l = true)
    (name : String) (data : ValueData) (e : NativeError) :
    ¬ c.Rejects (.setValue l name data) e := by
  rintro ⟨now, hrejected⟩
  rw [Mutation.apply, Hives.update_eq_error] at hrejected
  rcases hrejected with ⟨hmissing, -⟩ | ⟨found, -, hput⟩
  · rw [Hives.contains, Hives.find?, hmissing] at hthere
    exact absurd hthere (by simp)
  · exact absurd hput (by simp)

end Scene

namespace Registry

open Act (Tells)

variable {c : Scene} {l : Location} {α : Type}

/-! ## Keys -/

/-- Whether there is a key is answered by opening it for reading. -/
theorem tells_exists (hl : l.path.Sound) :
    Tells c.transaction c.At (Registry.exists l)
      (fun r s => r = .ok (c.view.contains l) ∧ c.At s) := by
  refine Act.tells_route (((tells_openAt hl .queryValue False).mono_pre
    (fun s hs => ⟨hs, False.elim⟩)).attempt_bind ?_ ?_ ?_)
  · intro key
    -- The key has been opened, so it is there.
    refine Tells.closing (Act.tells_pure (fun s hs => ?_)) (fun r => c.lasting_at.const_and _)
    refine ⟨?_, hs.1⟩
    have hopening := hs.2.1
    rw [Scene.opening] at hopening
    split at hopening
    · next hthere => rw [hthere]
    · exact absurd hopening (by simp)
  · intro e
    -- The only error is that there is no such key: nothing is protected from being read.
    have hmissing : ∀ s : Store, (c.At s ∧ ∃ e', Failure.error e = .error e' ∧
        c.opening l .queryValue = .error e') →
        c.view.contains l = false ∧ e = .noSuchKey l.text := by
      rintro s ⟨-, e', heq, hopening⟩
      obtain rfl := Failure.error.inj heq
      rw [Scene.opening] at hopening
      split at hopening
      · exact absurd hopening (by simp [show Access.queryValue.isModifying = false from rfl])
      · next hmissing => exact ⟨Bool.eq_false_iff.mpr hmissing, (Except.error.inj hopening).symm⟩
    cases e with
    | noSuchKey path =>
      exact Act.tells_pure (fun s hs => ⟨by rw [(hmissing s hs).1], hs.1⟩)
    | _ => exact Act.tells_throw (fun s hs => absurd (hmissing s hs).2 (by simp))
  · rintro message s ⟨-, e, heq, -⟩
    exact absurd heq (by simp)

/-- Creating a key that may be there answers whether it was made. -/
theorem tells_createIfMissing (hl : l.path.Sound) (hinner : l.isRoot = false) :
    Tells c.transaction c.At (createIfMissing l) (c.Created l) := by
  unfold createIfMissing
  rw [hinner]
  have hcreate : Tells c.transaction c.At (onKey "RegCreateKeyEx" l
      (Route.createKey ⟨c.transaction⟩ l.root.handle l.path.text .queryValue))
      (fun r s => c.Created l (r.map fun answer => decide (answer.2 = .createdNew)) s) := by
    refine Tells.mapError (Tells.after_log (Act.tells_call rfl (fun s hs => ?_)) _
      (fun s hs => hs.of_same rfl rfl rfl))
    refine (Store.createKey_in l.root l.path.text .queryValue (Location.below_text hl) hs
      rfl).mono ?_ ?_
    · rintro ⟨key, disposition⟩ s' (⟨hthere, rfl, hs'⟩ | ⟨hmissing, hfree, rfl, hs'⟩)
      · exact Or.inr (.there hthere hs')
      · exact Or.inr (.made hmissing hfree hs')
    · rintro e s' (hlost | ⟨hs', hmissing, hprotected, rfl⟩)
      · exact Or.inl hlost
      · exact Or.inr (.denied hmissing hprotected hs')
  -- The key that was opened is closed again, and only a new one is told of in the log.
  refine Act.tells_route (hcreate.bind ?_ ?_)
  · rintro ⟨key, disposition⟩
    refine Tells.closing ?_ (Scene.Created.lasting c l)
    cases disposition with
    | createdNew =>
      exact Tells.after_log (Act.tells_pure (fun s hs => hs)) _
        (fun s hs => Scene.Created.lasting c l _ s _ rfl rfl rfl hs)
    | openedExisting => exact Act.tells_pure (fun s hs => hs)
  · exact fun failure s hs => hs

/-- Creating a key fails with a telling error when the key was there. -/
theorem tells_create (hl : l.path.Sound) (hinner : l.isRoot = false) :
    Tells c.transaction c.At (create l) (fun r s =>
      ∃ created, c.Created l created s ∧
        r = match created with
          | .ok true => .ok ()
          | .ok false => .error (.error (.keyAlreadyExists l.text))
          | .error failure => .error failure) := by
  refine (tells_createIfMissing hl hinner).bind (fun created => ?_)
    (fun failure s hs => ⟨_, hs, rfl⟩)
  cases created with
  | true => exact Act.tells_pure (fun s hs => ⟨_, hs, rfl⟩)
  | false => exact Act.tells_throw (fun s hs => ⟨_, hs, rfl⟩)

/-- An operation goes on if the key at the location is not a root key. -/
theorem tells_refuseRoot {t : Option TransactionHandle} {P : Store → Prop} (operation : String)
    (hinner : l.isRoot = false) :
    Tells t P (refuseRoot operation l) (fun r s => r = .ok () ∧ P s) := by
  rw [refuseRoot, hinner]
  exact Act.tells_pure (fun s hs => ⟨rfl, hs⟩)

/-- A change of the key at a location, by path. -/
theorem tells_change {call : Call} {entry : LogEntry} {m : Mutation}
    {operation : String} (a : call.Answer) (hinner : l.isRoot = false) (hkey : call.key?.isSome)
    (hunit : ∀ b : call.Answer, b = a)
    (hperform : ∀ s, c.At s → Ends (Store.perform call) s
      (fun _ s' => l.isRoot = false ∧ c.isProtected l = false ∧ c.Becomes m s')
      (fun e s' => Scene.Lost c.transaction s' ∨ c.At s' ∧
        (Store.Untouchable c l ∧ e = .accessDenied ∨
          l.isRoot = false ∧ c.isProtected l = false ∧ c.Rejects m e))) :
    Tells c.transaction c.At (onKey operation l (do Act.log entry; Act.call call))
      (c.Changed l operation m a) := by
  refine Tells.mapError (Tells.after_log
    (Act.tells_call hkey (fun s hs => (hperform s hs).mono ?_ ?_)) _
    (fun s hs => hs.of_same rfl rfl rfl))
  · rintro b s' ⟨-, hfree, hs'⟩
    rw [hunit b]
    exact Or.inr (.made hfree hs')
  · -- A root key cannot be changed by path, but the location is none.
    rintro e s' (hlost | ⟨hs', ⟨hroot | hprotected, rfl⟩ | ⟨-, hfree, hrejects⟩⟩)
    · exact Or.inl hlost
    · exact absurd hroot (by rw [hinner]; simp)
    · exact Or.inr (.denied hprotected hs')
    · exact Or.inr (.rejected hfree hrejects hs')

/-- An operation that changes a key, which is not a root key, and has nothing to do with the trees
    after that. -/
theorem tells_changing {β : Type} {title operation : String} {m : Mutation} {a : β} {b : α}
    {change : Route → Act Timeline RegistryError β} {rest : β → Act Timeline RegistryError α}
    (hinner : l.isRoot = false)
    (hchange : Tells c.transaction c.At (change ⟨c.transaction⟩) (c.Changed l operation m a))
    (hunit : ∀ b : β, b = a)
    (hrest : ∀ P : Store → Prop, Store.Lasting P →
      Tells c.transaction P (rest a) (fun r s => r = .ok b ∧ P s)) :
    Tells c.transaction c.At
      (do refuseRoot title l
          let route ← Route.current
          let answer ← change route
          rest answer)
      (c.Changed l operation m b) := by
  refine Tells.bind (tells_refuseRoot _ hinner) (fun _ => Act.tells_route ?_)
    (fun failure s hs => absurd hs.1 (by simp))
  refine Tells.bind (hchange.mono_pre (fun s hs => hs.2)) (fun answer => ?_)
    (fun failure s hs => hs.map fun _ => b)
  rw [hunit answer]
  refine (hrest _ (Scene.Changed.lasting c l operation m a _)).mono_post ?_
  rintro r s ⟨rfl, hs⟩
  exact hs.map fun _ => b

/-- Deleting a key is a change of the trees. -/
theorem tells_delete (hl : l.path.Sound) (hinner : l.isRoot = false) :
    Tells c.transaction c.At (delete l) (c.Changed l "RegDeleteKeyEx" (.deleteKey l) ()) := by
  refine tells_changing hinner (tells_change () hinner rfl (fun _ => rfl) fun s hs =>
    Store.changeKey_in l.root l.path.text .deleteKey (Location.below_text hl) hs) (fun _ => rfl) ?_
  exact fun P hlasting => Act.tells_log _ (fun s hs => hlasting s _ rfl rfl rfl hs)

/-- A key that was missing is an answer; other errors are passed on. -/
theorem tells_deleteIfExists (hl : l.path.Sound) (hinner : l.isRoot = false) :
    Tells c.transaction c.At (deleteIfExists l) (fun r s =>
      ∃ deleted, c.Changed l "RegDeleteKeyEx" (.deleteKey l) () deleted s ∧
        r = match deleted with
          | .ok _ => .ok true
          | .error (.error (.noSuchKey _)) => .ok false
          | .error failure => .error failure) := by
  refine (tells_delete hl hinner).attempt_bind (fun _ => ?_) (fun e => ?_) ?_
  · exact Act.tells_pure (fun s hs => ⟨_, hs, rfl⟩)
  · cases e with
    | noSuchKey path => exact Act.tells_pure (fun s hs => ⟨_, hs, rfl⟩)
    | _ => exact Act.tells_throw (fun s hs => ⟨_, hs, rfl⟩)
  · exact fun message s hs => ⟨_, hs, rfl⟩

/-- Renaming a key is a change of the trees that answers the new location. -/
theorem tells_rename {m : Location} {newName : String} (hl : l.path.Sound)
    (hinner : l.isRoot = false) (hm : l.renamed? newName = some m) :
    Tells c.transaction c.At (rename l newName)
      (c.Changed l "RegRenameKey" (.renameKey l newName) m) := by
  refine tells_changing hinner (tells_change () hinner rfl (fun _ => rfl) fun s hs =>
    Store.changeKey_in l.root l.path.text (.renameKey · newName) (Location.below_text hl) hs)
    (fun _ => rfl) (fun P hlasting => ?_)
  refine Tells.after_log ?_ _ (fun s hs => hlasting s _ rfl rfl rfl hs)
  rw [hm]
  exact Act.tells_pure (fun s hs => ⟨rfl, hs⟩)

/-! ## What there is in a key -/

/-- A call that reads from the key at a location is answered from what is found there. -/
theorem tells_read_found (call : Call) {key : KeyHandle} {named : Option TransactionHandle}
    {access : Access} {read : Node → Except NativeError call.Answer} {n : Node}
    {result : Except NativeError call.Answer} (hread : read n = result)
    (hkey : call.key?.isSome) (hperform : Store.perform call = Store.withNode key access named read)
    (hright : access.contains access = true) (hbound : named.or c.transaction = c.transaction) :
    Tells c.transaction
      (fun s => c.Holding key ⟨l, access, c.transaction⟩ s ∧ c.view.find? l = some n)
      (Act.call call)
      (fun r s => r = result.mapError .error ∧
        c.Holding key ⟨l, access, c.transaction⟩ s ∧ c.view.find? l = some n) := by
  refine ((tells_read hkey hperform hright hbound).knowing (c.view.find? l = some n)).mono_post ?_
  rintro r s ⟨⟨rfl, hs⟩, hfound⟩
  refine ⟨?_, hs, hfound⟩
  rw [← hread, Store.readAt, hfound]

/-- What there is to know of a key is answered from the node that is found in view. -/
theorem tells_info (hl : l.path.Sound) :
    Tells c.transaction (fun s => c.At s ∧ s.RoomForKey) (info l)
      (fun r s => r = (c.reading l fun n => .ok n.info).mapError .error ∧ c.At s) := by
  refine tells_reading hl rfl (fun key n => Tells.mapError ?_)
  have hperform : Store.perform (.queryInfo key) =
      Store.withNode key .queryValue none fun n => .ok n.info := rfl
  refine (tells_read_found _ rfl rfl hperform rfl Option.none_or).mono_post ?_
  rintro r s ⟨rfl, hs, -⟩
  exact ⟨rfl, hs.scene⟩

/-- The item that has the given index among some items. -/
def itemAt (xs : List α) (index : Nat) : Except NativeError α :=
  match xs[index]? with
  | some a => .ok a
  | none => .error .noMoreItems

/-- There is an item at the index, and it is the first of what is left from there on. -/
theorem itemAt_eq_ok {xs : List α} {index : Nat} {a : α} (h : itemAt xs index = .ok a) :
    index < xs.length ∧ xs.drop index = a :: xs.drop (index + 1) := by
  rw [itemAt] at h
  split at h
  · next b hget =>
    rcases List.getElem?_eq_some_iff.mp hget with ⟨hlt, hb⟩
    refine ⟨hlt, ?_⟩
    rw [← List.getElem_cons_drop hlt, hb, Except.ok.inj h]
  · exact absurd h (by simp)

/-- There is nothing left from the index on. -/
theorem itemAt_eq_error {xs : List α} {index : Nat} {e : NativeError}
    (h : itemAt xs index = .error e) : e = .noMoreItems ∧ xs.drop index = [] := by
  rw [itemAt] at h
  split at h
  · exact absurd h (by simp)
  · next hget =>
    exact ⟨(Except.error.inj h).symm, List.drop_eq_nil_of_le (List.getElem?_eq_none_iff.mp hget)⟩

/-- Items that are listed by their indices are all enumerated, if there is an index left to tell
    that there are no more. -/
theorem tells_enumerate {t : Option TransactionHandle} {P : Store → Prop} {xs : List α}
    {item : UInt32 → Act Timeline NativeError α}
    (hitem : ∀ index, Tells t P (item index)
      (fun r s => r = (itemAt xs index.toNat).mapError .error ∧ P s)) :
    Tells t (fun s => P s ∧ xs.length < UInt32.size) (enumerate item)
      (fun r s => r = .ok xs ∧ P s) := by
  -- From an index on, what is left of the list is collected; the induction is on how many indices
  -- are left, which is more than there are items left.
  have hfrom : ∀ limit index, Tells t
      (fun s => P s ∧ index.toNat + limit = UInt32.size ∧ xs.length < UInt32.size)
      (enumerateFrom item limit index) (fun r s => r = .ok (xs.drop index.toNat) ∧ P s) := by
    intro limit
    induction limit with
    -- With no index left the sum would be the index alone, and a word cannot be as large as that.
    | zero =>
      intro index
      refine Act.tells_throw (fun s hs => absurd hs.2.1 ?_)
      have hbound : index.toNat < UInt32.size := index.toNat_lt
      omega
    | succ limit ih =>
      intro index
      refine ((hitem index).knowing _).attempt_bind (fun a => ?_) (fun e => ?_) ?_
      · refine Tells.bind (((ih (index + 1)).knowing (itemAt xs index.toNat = .ok a ∧
          (index + 1).toNat = index.toNat + 1)).mono_pre ?_) (fun rest => Act.tells_pure ?_) ?_
        · rintro s ⟨⟨hitem, hs⟩, hlimit, hlength⟩
          have hthere := Act.mapError_eq_ok.mp hitem.symm
          -- There is an item at this index, so it is not the last one that a word can hold.
          have hbefore := (itemAt_eq_ok hthere).1
          have hnext : (index + 1).toNat = index.toNat + 1 := by
            rw [UInt32.toNat_add]
            exact Nat.mod_eq_of_lt (by change index.toNat + 1 < UInt32.size; omega)
          exact ⟨⟨hs, by omega, hlength⟩, hthere, hnext⟩
        · rintro s ⟨⟨hrest, hs⟩, hthere, hnext⟩
          refine ⟨?_, hs⟩
          rw [Except.ok.inj hrest, hnext, (itemAt_eq_ok hthere).2]
        · exact fun failure s hs => absurd hs.1.1 (by simp)
      · -- The error at this index ends the list, and nothing is left of the items.
        change Tells _ _ (if e.isNoMoreItems then pure [] else Act.fail e) _
        by_cases hlast : e.isNoMoreItems = true
        · rw [if_pos hlast]
          refine Act.tells_pure (fun s hs => ⟨?_, hs.1.2⟩)
          rw [(itemAt_eq_error (Act.mapError_eq_error.mp hs.1.1.symm)).2]
        · rw [if_neg hlast]
          refine Act.tells_throw (fun s hs => absurd ?_ hlast)
          rw [(itemAt_eq_error (Act.mapError_eq_error.mp hs.1.1.symm)).1]
          rfl
      · exact fun message s hs => absurd hs.1.1.symm Act.mapError_ne_panic
  refine (hfrom UInt32.size 0).mono ?_ ?_
  · exact fun s hs => ⟨hs.1, Nat.zero_add _, hs.2⟩
  · exact fun r s hs => hs

/-- An operation that lists what a key holds, if that is not too much for an index. -/
theorem tells_listing {operation : String} {access : Access} {items : Node → List α}
    {item : KeyHandle → UInt32 → Act Timeline NativeError α} (hl : l.path.Sound)
    (hreading : access.isModifying = false)
    (hitem : ∀ key n index, Tells c.transaction
      (fun s => c.Holding key ⟨l, access, c.transaction⟩ s ∧ c.view.find? l = some n)
      (item key index) (fun r s => r = (itemAt (items n) index.toNat).mapError .error ∧
        c.Holding key ⟨l, access, c.transaction⟩ s ∧ c.view.find? l = some n))
    (hcount : ∀ n, c.view.find? l = some n → (items n).length < UInt32.size) :
    Tells c.transaction (fun s => c.At s ∧ s.RoomForKey)
      (do let route ← Route.current
          let key ← openAt route l access
          closing key (onKey operation l (enumerate (item key))))
      (fun r s => r = (c.reading l fun n => .ok (items n)).mapError .error ∧ c.At s) := by
  refine tells_reading hl hreading (f := fun _ key => onKey operation l (enumerate (item key)))
    (fun key n => Tells.mapError ?_)
  refine (tells_enumerate (hitem key n)).mono ?_ ?_
  · exact fun s hs => ⟨hs, hcount n hs.2⟩
  · rintro r s ⟨rfl, hs, -⟩
    exact ⟨rfl, hs.scene⟩

/-- The names below a key, as they are kept with it. -/
theorem tells_subKeyNames (hl : l.path.Sound)
    (hcount : ∀ n, c.view.find? l = some n → n.subKeys.length < UInt32.size) :
    Tells c.transaction (fun s => c.At s ∧ s.RoomForKey) (subKeyNames l)
      (fun r s => r = (c.reading l fun n => .ok (n.subKeys.map (·.2.name))).mapError .error ∧
        c.At s) := by
  refine tells_listing hl rfl (fun key n index =>
    tells_read_found (.enumKey key index) ?_ rfl rfl rfl Option.none_or) (fun n hfound => ?_)
  · -- Both sides look the index up, before or after the names are taken.
    rw [itemAt, List.getElem?_map]
    cases n.subKeys[index.toNat]? <;> rfl
  · rw [List.length_map]
    exact hcount n hfound

/-- The values of a key with their names, as they are kept with it. -/
theorem tells_storedValues (hl : l.path.Sound)
    (hcount : ∀ n, c.view.find? l = some n → n.values.length < UInt32.size) :
    Tells c.transaction (fun s => c.At s ∧ s.RoomForKey) (storedValues l)
      (fun r s => r = (c.reading l fun n =>
        .ok (n.values.map fun entry => (entry.2.name, entry.2.data))).mapError .error ∧
          c.At s) := by
  refine tells_listing hl rfl (fun key n index =>
    tells_read_found (.enumValue key index) ?_ rfl rfl rfl Option.none_or) (fun n hfound => ?_)
  · rw [itemAt, List.getElem?_map]
    cases n.values[index.toNat]? <;> rfl
  · rw [List.length_map]
    exact hcount n hfound

/-- An operation that goes by the answer of another one. -/
theorem tells_from {β : Type} {operation : Act Timeline RegistryError β} {P : Store → Prop}
    {result : Except RegistryError β}
    (h : Tells c.transaction P operation (fun r s => r = result.mapError .error ∧ c.At s))
    (f : β → Except RegistryError α) {rest : β → Act Timeline RegistryError α}
    (hrest : ∀ b, rest b = Act.ofExcept (f b)) :
    Tells c.transaction P (operation >>= rest)
      (fun r s => r = (result.bind f).mapError .error ∧ c.At s) := by
  refine h.bind (fun b => ?_) ?_
  · rw [hrest]
    refine Act.tells_ofExcept (fun s hs => ⟨?_, hs.2⟩)
    rw [Act.mapError_eq_ok.mp hs.1.symm]
    rfl
  · rintro failure s ⟨hresult, hs⟩
    refine ⟨?_, hs⟩
    cases result with
    | ok b => exact absurd hresult (by simp [Except.mapError])
    | error e =>
      rw [Except.error.inj hresult]
      rfl

/-- The locations below a key are made of the names that were listed. -/
theorem tells_subKeys (hl : l.path.Sound)
    (hcount : ∀ n, c.view.find? l = some n → n.subKeys.length < UInt32.size) :
    Tells c.transaction (fun s => c.At s ∧ s.RoomForKey) (subKeys l)
      (fun r s => r = ((c.reading l fun n => .ok (n.subKeys.map (·.2.name))).bind fun names =>
        .ok (names.map l.below)).mapError .error ∧ c.At s) :=
  tells_from (tells_subKeyNames hl hcount) (fun names => .ok (names.map l.below)) (fun _ => rfl)

/-- The names of the values are taken from what was listed. -/
theorem tells_valueNames (hl : l.path.Sound)
    (hcount : ∀ n, c.view.find? l = some n → n.values.length < UInt32.size) :
    Tells c.transaction (fun s => c.At s ∧ s.RoomForKey) (valueNames l)
      (fun r s => r = ((c.reading l fun n =>
        .ok (n.values.map fun entry => (entry.2.name, entry.2.data))).bind fun stored =>
        .ok (stored.map Prod.fst)).mapError .error ∧ c.At s) :=
  tells_from (tells_storedValues hl hcount) (fun stored => .ok (stored.map Prod.fst))
    (fun _ => rfl)

/-! ## Values -/

/-- What reading the value of a key under a name answers, for the key at a location. -/
def valueIn (l : Location) (name : String) (n : Node) : Except RegistryError Value :=
  match n.value? name with
  | none => .error (.noSuchValue l.text name)
  | some value => decoded l name value.data

/-- A value is read under its name and decoded. -/
theorem tells_getValue (hl : l.path.Sound) (name : String) :
    Tells c.transaction (fun s => c.At s ∧ s.RoomForKey) (getValue l name)
      (fun r s => r = (c.reading l (valueIn l name)).mapError .error ∧ c.At s) := by
  refine tells_reading hl rfl (fun key n => ?_)
  have hread : Tells c.transaction
      (fun s => c.Holding key ⟨l, .queryValue, c.transaction⟩ s ∧ c.view.find? l = some n)
      (onValue "RegGetValue" l name (Route.getValue ⟨c.transaction⟩ key name))
      (fun r s => r = ((n.value? name).elim (Except.error (RegistryError.noSuchValue l.text name))
        fun value => .ok value.data).mapError .error ∧ c.At s) := by
    refine Tells.mapError (Tells.after_log ?_ _ (fun s hs => ⟨holding_note s _ hs.1, hs.2⟩))
    refine (tells_read_found (.getValue key name c.transaction) rfl rfl rfl rfl
      Option.or_self).mono_post ?_
    rintro r s ⟨rfl, hs, -⟩
    refine ⟨?_, hs.scene⟩
    cases n.value? name <;> rfl
  -- The data is read first, and decoded when the key is closed again.
  refine (tells_from hread (decoded l name) (fun _ => rfl)).mono_post ?_
  rintro r s ⟨rfl, hs⟩
  refine ⟨?_, hs⟩
  rw [valueIn]
  cases n.value? name <;> rfl

/-- Another type than expected is an error; the right one is answered from. -/
theorem tells_getSelected (hl : l.path.Sound) (name : String) (expected : ValueKind)
    (select : Value → Option α) :
    Tells c.transaction (fun s => c.At s ∧ s.RoomForKey) (getSelected l name expected select)
      (fun r s => r = ((c.reading l (valueIn l name)).bind fun value =>
        match select value with
        | some a => .ok a
        | none => .error (.typeMismatch l.text name expected value.kind)).mapError .error ∧
          c.At s) := by
  refine tells_from (tells_getValue hl name) _ (fun value => ?_)
  cases select value <;> rfl

/-- Whether there is a value under a name, to go by what reading it answers: data that cannot be
    read is there all the same. -/
def presence : Except RegistryError Value → Except RegistryError Bool
  | .ok _ => .ok true
  | .error (.invalidData _ _ _) => .ok true
  | .error (.noSuchValue _ _) => .ok false
  | .error e => .error e

/-- Looking for a value by reading it finds the ones that are there. -/
theorem presence_reading (c : Scene) (l : Location) (name : String) :
    presence (c.reading l (valueIn l name)) =
      c.reading l (fun n => .ok (n.value? name).isSome) := by
  rw [Scene.reading, Scene.reading]
  cases c.view.find? l with
  | none => rfl
  | some n =>
    change presence (valueIn l name n) = .ok (n.value? name).isSome
    rw [valueIn]
    cases n.value? name with
    | none => rfl
    | some value =>
      change presence (decoded l name value.data) = .ok true
      rw [decoded]
      cases Value.decode value.data <;> rfl

/-- Whether there is a value is found out by reading it. -/
theorem tells_valueExists (hl : l.path.Sound) (name : String) :
    Tells c.transaction (fun s => c.At s ∧ s.RoomForKey) (valueExists l name)
      (fun r s => r = (c.reading l fun n => .ok (n.value? name).isSome).mapError .error ∧
        c.At s) := by
  rw [← presence_reading]
  refine (tells_getValue hl name).attempt_bind (fun value => ?_) (fun e => ?_) ?_
  · refine Act.tells_pure (fun s hs => ⟨?_, hs.2⟩)
    rw [Act.mapError_eq_ok.mp hs.1.symm]
    rfl
  · cases e with
    | invalidData path name cause =>
      refine Act.tells_pure (fun s hs => ⟨?_, hs.2⟩)
      rw [Act.mapError_eq_error.mp hs.1.symm]
      rfl
    | noSuchValue path name =>
      refine Act.tells_pure (fun s hs => ⟨?_, hs.2⟩)
      rw [Act.mapError_eq_error.mp hs.1.symm]
      rfl
    | _ =>
      refine Act.tells_throw (fun s hs => ⟨?_, hs.2⟩)
      rw [Act.mapError_eq_error.mp hs.1.symm]
      rfl
  · exact fun message s hs => absurd hs.1.symm Act.mapError_ne_panic

/-- A call that changes the values of a key that was opened for that, with the entry in the log
    that tells of it. -/
theorem tells_changeValue (call : Call) {key : KeyHandle} {entry : LogEntry} {m : Mutation}
    (a : call.Answer) (hkey : call.key?.isSome) (hunit : ∀ b : call.Answer, b = a)
    (hperform : ∀ s, c.Holding key ⟨l, .setValue, c.transaction⟩ s → c.isProtected l = false →
      Ends (Store.perform call) s (fun _ s' => c.Becomes m s')
        (fun e s' => Scene.Lost c.transaction s' ∨ c.At s' ∧ c.Rejects m e)) :
    Tells c.transaction
      (fun s => c.Holding key ⟨l, .setValue, c.transaction⟩ s ∧ c.opening l .setValue = .ok ())
      (do Act.log entry; Act.call call)
      (fun r s => c.opening l .setValue = .ok () ∧ match r with
        | .ok answer => answer = a ∧ c.Becomes m s
        | .error failure => ∃ e, failure = .error e ∧ c.Rejects m e ∧ c.At s) := by
  refine Tells.after_log (Act.tells_call hkey (fun s hs => ?_)) _
    (fun s hs => ⟨holding_note s _ hs.1, hs.2⟩)
  rcases hs with ⟨hs, hopening⟩
  refine (hperform s hs (Scene.opening_modifying rfl hopening).2).mono ?_ ?_
  · exact fun b _ hs' => Or.inr ⟨hopening, hunit b, hs'⟩
  · exact fun e _ hend => hend.imp_right (fun hs' => ⟨hopening, e, rfl, hs'.2, hs'.1⟩)

/-- Writing a value through a key that was opened for that. -/
theorem tells_write {name : String} {value : Value} {data : ValueData}
    (hencode : value.encode = .ok data) (key : KeyHandle) :
    Tells c.transaction
      (fun s => c.Holding key ⟨l, .setValue, c.transaction⟩ s ∧ c.opening l .setValue = .ok ())
      (do onKey "RegSetValueEx" l (Route.setValue ⟨c.transaction⟩ key name data)
          Act.log (.debug "value set"))
      (c.Written l name value) := by
  have hcall : ∀ s, c.Holding key ⟨l, .setValue, c.transaction⟩ s → c.isProtected l = false → _ :=
    fun s hs hfree => Store.changeValue_in (.setValue · name data) hs.scene hs.opened
      (show Access.setValue.contains .setValue = true from rfl) Option.or_self hfree
  refine Tells.bind (R := c.Written l name value) (Tells.mapError ?_) (fun _ => ?_)
    (fun failure s hs => ?_)
  · refine (tells_changeValue (.setValue key name data c.transaction) () rfl (fun _ => rfl)
      hcall).mono_post (fun r s hs => ?_)
    cases r with
    | ok _ => exact .made hencode hs.1 hs.2.2
    | error failure =>
      -- What could be opened is there, and then the trees do not reject a value.
      rcases hs with ⟨hopening, e, rfl, hrejects, -⟩
      exact absurd hrejects
        (Scene.not_rejects_setValue (Scene.opening_modifying rfl hopening).1 _ _ _)
  · refine (Act.tells_log _ (fun s hs =>
      Scene.Written.lasting c l name value _ s _ rfl rfl rfl hs)).mono_post ?_
    rintro r s ⟨rfl, hs⟩
    exact hs
  · cases hs with
    | unwritable hencode' hs => exact .unwritable hencode' hs
    | refused hopening hs => exact .refused hopening hs

theorem tells_setValue (hl : l.path.Sound) (name : String) (value : Value) :
    Tells c.transaction (fun s => c.At s ∧ s.RoomForKey) (setValue l name value)
      (c.Written l name value) := by
  unfold setValue
  cases hencode : value.encode with
  | error cause => exact Act.tells_throw (fun s hs => .unwritable hencode hs.1)
  | ok data =>
    exact tells_with_key hl
      (f := fun route key => do
        onKey "RegSetValueEx" l (route.setValue key name data)
        Act.log (.debug "value set"))
      (Scene.Written.lasting c l name value) (tells_write hencode)
      (fun e s hopening hs => .refused hopening hs)

end Registry

end TransactionalRegistry
