import TransactionalRegistry.Proofs.InScene

/-!
# Keys that are held open

An operation that reads or writes the values of a key holds it open meanwhile. The handle that the
key was opened under denotes it, unless the handles that are drawn one after the other have come to
that of a root key. There is no room for the key then, and its handle denotes the root key. Calls
through such a handle go on all the same: what it denotes is there in any trees, and whether it is
the key that was asked for is known just if there was room for the handle.

## Theorems

* `Scene.Held.grants`, `Scene.Held.there`: What the handle of a key that is held open denotes.
* `Store.view_held`, `Store.withNode_held`, `Store.changeValue_held`: Calls through such a handle.
* `Registry.tells_read_held`, `Registry.tells_item_held`: The same calls as they are made in work.
* `Registry.tells_enumerate_sure`: Items that only come to an end are enumerated without fail.
-/

namespace TransactionalRegistry

open Act (Tells)
open Scene (Lost)

namespace Scene

variable {c : Scene} {l : Location} {access : Access} {room : Prop} {key : KeyHandle} {s s' : Store}

theorem Held.of_sighted (h : c.Held l access room key s) (hsight : Store.Sighted c s s') :
    c.Held l access room key s' where
  scene := hsight.scene
  opening := h.opening
  opened := by
    rw [Store.opened, hsight.look.keys]
    exact h.opened

theorem held_note (entry : LogEntry) (h : c.Held l access room key s) :
    c.Held l access room key (s.note entry) where
  scene := h.scene.of_same rfl rfl rfl
  opening := h.opening
  opened := h.opened

/-- A key that is held open grants every right that it was opened with. -/
theorem Held.grants {k : OpenKey} {right : Access} (h : c.Held l access room key s)
    (hk : s.opened key = some k) (hright : access.contains right = true)
    (hall : Access.all.contains right = true) : k.access.contains right = true := by
  rcases h.opened with ⟨k', hk', hdenotes⟩
  obtain rfl := Option.some.inj (hk'.symm.trans hk)
  rcases hdenotes with rfl | ⟨-, root, rfl⟩
  · exact hright
  · exact hall

/-- What a handle denotes under which a key is held open is there; and it is that key, if there was
    room for the handle. -/
theorem Held.there {k : OpenKey} (h : c.Held l access room key s) (hk : s.opened key = some k) :
    c.view.contains k.location = true ∧ (room → k.location = l) ∧
      c.transaction.or k.transaction = c.transaction := by
  rcases h.opened with ⟨k', hk', hdenotes⟩
  obtain rfl := Option.some.inj (hk'.symm.trans hk)
  rcases hdenotes with rfl | ⟨hnone, root, rfl⟩
  · refine ⟨?_, fun _ => rfl, Option.or_self⟩
    rcases found_of_opening h.opening with ⟨n, hfound⟩
    rw [Hives.contains, hfound]
    rfl
  · exact ⟨Store.contains_ofRoot c.view root, fun hroom => absurd hroom hnone, Option.or_none⟩

end Scene

namespace Store

variable {c : Scene} {l : Location} {access right : Access} {room : Prop} {key : KeyHandle}
  {s : Store} {named : Option TransactionHandle} {α : Type}

/-- In the trees that are seen through a handle under which a key is held open, there is what it
    denotes; and this is what there is at the location of the key, if there was room for it. -/
theorem view_held {k : OpenKey} (hs : c.Held l access room key s) (hk : s.opened key = some k)
    (hnamed : named = none ∨ named = c.transaction) :
    Ends (view (named.or k.transaction)) s
      (fun h s' => c.Held l access room key s' ∧
        ∃ n, h.find? k.location = some n ∧ (room → c.view.find? l = some n))
      (fun _ s' => Lost c.transaction s') := by
  rcases hs.opened with ⟨k', hk', hdenotes⟩
  obtain rfl := Option.some.inj (hk'.symm.trans hk)
  rcases hdenotes with rfl | ⟨hnone, root, rfl⟩
  · have hbound : named.or c.transaction = c.transaction := by
      rcases hnamed with rfl | rfl
      · exact Option.none_or
      · exact Option.or_self
    rw [hbound]
    refine (view_in (.refl hs.scene)).mono ?_ (fun _ _ hlost => hlost)
    rintro h s' ⟨rfl, hsight⟩
    rcases Scene.found_of_opening hs.opening with ⟨n, hfound⟩
    exact ⟨hs.of_sighted hsight, n, hfound, fun _ => hfound⟩
  · -- A root key is there in any trees, those in view and the live ones.
    have hroot : ∀ h : Hives, ∃ n, h.find? (OpenKey.ofRoot root).location = some n ∧
        (room → c.view.find? l = some n) :=
      fun h => ⟨h.get root, rfl, fun hroom => absurd hroom hnone⟩
    rw [show named.or (OpenKey.ofRoot root).transaction = named from Option.or_none]
    rcases hnamed with rfl | rfl
    · exact ends_bind (ends_get (ends_pure ⟨hs, hroot _⟩))
    · refine (view_in (.refl hs.scene)).mono ?_ (fun _ _ hlost => hlost)
      exact fun h s' hview => ⟨hs.of_sighted hview.2, hroot h⟩

/-- What is read through a handle under which a key is held open. -/
theorem withNode_held (read : Node → Except NativeError α) (hs : c.Held l access room key s)
    (hright : access.contains right = true) (hall : Access.all.contains right = true)
    (hnamed : named = none ∨ named = c.transaction) :
    Ends (withNode key right named read) s
      (fun _ s' => Lost c.transaction s' ∨ c.Held l access room key s')
      (fun e s' => Lost c.transaction s' ∨ c.Held l access room key s' ∧
        ∃ n, read n = .error e ∧ (room → c.view.find? l = some n)) := by
  unfold withNode
  rcases hs.opened with ⟨k, hk, -⟩
  refine ends_lookUp_of hk ?_
  rw [hs.grants hk hright hall]
  refine (view_held hs hk hnamed).bind ?_ (fun _ _ hlost => Or.inl hlost)
  -- What the handle denotes is there, so nothing can fail but the reading of it.
  rintro h s' ⟨hs', n, hfound, hroom⟩
  simp only [hfound]
  cases hread : read n with
  | ok a => exact ends_pure (Or.inr hs')
  | error e => exact ends_throw (Or.inr ⟨hs', n, hread, hroom⟩)

/-- A change of values through a handle under which a key is held open is refused at a protected
    place, or the trees reject it of a key that is there. -/
theorem changeValue_held (mutation : Location → Mutation) (hs : c.Held l access room key s)
    (hright : access.contains .setValue = true) :
    Ends (changeValue key c.transaction mutation) s (fun _ _ => True)
      (fun e s' => Lost c.transaction s' ∨ c.At s' ∧ (e = .accessDenied ∨
        ∃ m, c.view.contains m = true ∧ (room → m = l) ∧ c.Rejects (mutation m) e)) := by
  unfold changeValue
  rcases hs.opened with ⟨k, hk, -⟩
  rcases hs.there hk with ⟨hthere, hroom, hbound⟩
  refine ends_lookUp_of hk ?_
  rw [hs.grants hk hright rfl, hbound]
  refine ends_requireUnprotected (fun _ => ?_) (fun _ => Or.inr ⟨hs.scene, Or.inl rfl⟩)
  refine (mutate_in _ (.refl hs.scene)).mono (fun _ _ _ => trivial) ?_
  rintro e s' (hlost | ⟨hsight, hrejects⟩)
  · exact Or.inl hlost
  · exact Or.inr ⟨hsight.scene, Or.inr ⟨k.location, hthere, hroom, hrejects⟩⟩

end Store

namespace Registry

variable {c : Scene} {l : Location} {access : Access} {room : Prop} {key : KeyHandle}
  {t : Option TransactionHandle} {P : Store → Prop} {α : Type}

/-- A call that reads through a handle under which a key is held open. -/
theorem tells_read_held (call : Call) (right : Access) {named : Option TransactionHandle}
    {read : Node → Except NativeError call.Answer} (hkey : call.key?.isSome)
    (hperform : Store.perform call = Store.withNode key right named read)
    (hright : access.contains right = true) (hall : Access.all.contains right = true)
    (hnamed : named = none ∨ named = c.transaction) :
    Tells c.transaction (c.Held l access room key) (Act.call call)
      (fun r s => c.Held l access room key s ∧ ∀ e, r = .error (.error e) →
        ∃ n, read n = .error e ∧ (room → c.view.find? l = some n)) := by
  refine Act.tells_call hkey (fun s hs => ?_)
  rw [hperform]
  refine (Store.withNode_held read hs hright hall hnamed).mono ?_ ?_
  · exact fun a s' hend => hend.imp_right (fun hs' => ⟨hs', fun e he => absurd he (by simp)⟩)
  · rintro e s' (hlost | ⟨hs', hread⟩)
    · exact Or.inl hlost
    · refine Or.inr ⟨hs', fun e' he => ?_⟩
      rw [← Failure.error.inj (Except.error.inj he)]
      exact hread

/-- A call that can only find that there are no more items. -/
theorem tells_item_held (call : Call) (right : Access) {named : Option TransactionHandle}
    {read : Node → Except NativeError call.Answer} (hkey : call.key?.isSome)
    (hperform : Store.perform call = Store.withNode key right named read)
    (hright : access.contains right = true) (hall : Access.all.contains right = true)
    (hnamed : named = none ∨ named = c.transaction)
    (hlast : ∀ n e, read n = .error e → e = .noMoreItems) :
    Tells c.transaction (c.Held l access room key) (Act.call call)
      (fun r s => c.Held l access room key s ∧ ∀ e, r = .error (.error e) → e = .noMoreItems) := by
  refine (tells_read_held call right hkey hperform hright hall hnamed).mono_post ?_
  rintro r s ⟨hs, herror⟩
  refine ⟨hs, fun e he => ?_⟩
  rcases herror e he with ⟨n, hread, -⟩
  exact hlast n e hread

/-- Items that can only be missing because there are no more of them are enumerated without
    fail. -/
theorem tells_enumerate_sure {item : UInt32 → Act Timeline NativeError α}
    (hitem : ∀ index, Tells t P (item index)
      (fun r s => P s ∧ ∀ e, r = .error (.error e) → e = .noMoreItems)) :
    Tells t P (enumerate item) (fun r s => P s ∧ ∀ e, r ≠ .error (.error e)) := by
  -- The induction is on how many indices are left.
  have hfrom : ∀ limit index, Tells t P (enumerateFrom item limit index)
      (fun r s => P s ∧ ∀ e, r ≠ .error (.error e)) := by
    intro limit
    induction limit with
    | zero => exact fun index => Act.tells_throw (fun s hs => ⟨hs, by simp⟩)
    | succ limit ih =>
      intro index
      refine (hitem index).attempt_bind (fun a => ?_) (fun e => ?_) ?_
      · refine Tells.bind ((ih (index + 1)).mono_pre (fun s hs => hs.1))
          (fun rest => Act.tells_pure (fun s hs => ⟨hs.1, by simp⟩)) ?_
        rintro failure s ⟨hs, hnever⟩
        exact ⟨hs, fun e he => hnever e (congrArg Except.error (Except.error.inj he))⟩
      · change Tells _ _ (if e.isNoMoreItems then pure [] else Act.fail e) _
        by_cases hlast : e.isNoMoreItems = true
        · rw [if_pos hlast]
          exact Act.tells_pure (fun s hs => ⟨hs.1, by simp⟩)
        · rw [if_neg hlast]
          refine Act.tells_throw (fun s hs => absurd ?_ hlast)
          rw [hs.2 e rfl]
          rfl
      · exact fun message s hs => ⟨hs.1, by simp⟩
  exact hfrom UInt32.size 0

end Registry

end TransactionalRegistry
