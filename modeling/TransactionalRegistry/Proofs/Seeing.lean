import TransactionalRegistry.Proofs.Isolation
import TransactionalRegistry.Proofs.Views

/-!
# Calls that see

As long as something is to be seen through a transaction, how a call on a key ends is settled by
little: by the trees that are seen, by the protected places, and by what the handle of the call
denotes. Looking once more makes no difference to these, however much time passes, until a look
finds that the transaction is over. From then on nothing is to be seen through it any more.

So a call that is made in a scene, in which some trees are seen, ends in one of three ways. It has
lost the scene; or it has left it as it was, with an answer or an error that is known beforehand; or
it has made its change to the trees that are seen.

## Main definitions

* `Scene`: A transaction, the trees that are seen through it, and the protected places.
* `Scene.At`: A scene is what there is in a store.
* `Scene.Lost`: Nothing is to be seen through the transaction of a scene.
* `Scene.with`: A scene in which other trees are seen.
* `Scene.Becomes`: A change was made to the trees of a scene.

## Theorems

* `Store.perform_keeps_lost`: A call on a key does not bring back a scene that is lost.
* `Store.ends_from_root`: The rule for what a call by path starts with.
* `Store.openKey_in`, `Store.createKey_in`, `Store.changeKey_in`: Calls by path from a root key.
* `Store.withNode_in`, `Store.changeValue_in`: Calls through a key that was opened in the scene.
-/

namespace TransactionalRegistry

/-- A transaction, or none, the trees that are seen through it, and the protected places. -/
structure Scene where
  transaction : Option TransactionHandle
  view : Hives
  protectedPlaces : List Location

namespace Scene

/-- A scene is what there is in a store. -/
structure At (c : Scene) (s : Store) : Prop where
  view : s.viewOf c.transaction = some c.view
  protectedPlaces : s.protectedPlaces = c.protectedPlaces

/-- Nothing is to be seen through a transaction: it is unknown, or it is over. -/
def Lost (transaction : Option TransactionHandle) (s : Store) : Prop :=
  s.viewOf transaction = none

/-- The scene with other trees in view. -/
def «with» (c : Scene) (h : Hives) : Scene :=
  { c with view := h }

/-- Whether a location is protected or lies below one that is. -/
def isProtected (c : Scene) (l : Location) : Bool :=
  c.protectedPlaces.any (l.isWithin ·)

/-- A change was made, at some time, to the trees that are seen. -/
def Becomes (c : Scene) (m : Mutation) (s : Store) : Prop :=
  ∃ now h, m.apply now c.view = .ok h ∧ (c.with h).At s

/-- A change cannot be made to the trees that are seen, and this is why. -/
def Rejects (c : Scene) (m : Mutation) (e : NativeError) : Prop :=
  ∃ now, m.apply now c.view = .error e

variable {c : Scene} {s s' : Store}

theorem At.isProtected (h : c.At s) (l : Location) : s.isProtected l = c.isProtected l := by
  rw [Store.isProtected, h.protectedPlaces, Scene.isProtected]

/-- A scene goes by the transactions, the live trees and the protected places alone. -/
theorem At.of_same (h : c.At s) (hhives : s'.hives = s.hives)
    (htransactions : s'.transactions = s.transactions)
    (hprotected : s'.protectedPlaces = s.protectedPlaces) : c.At s' where
  view := by
    rw [← h.view]
    cases c.transaction with
    | none => exact congrArg some hhives
    | some t => rw [Store.viewOf, Store.viewOf, Store.record?, Store.record?, htransactions, hhives]
  protectedPlaces := hprotected.trans h.protectedPlaces

theorem At.withKey (h : c.At s) (k : OpenKey) : c.At (s.withKey k) :=
  h.of_same rfl rfl rfl

end Scene

namespace Store

open Scene (Lost)

variable {c : Scene} {s s₁ s' : Store} {transaction : Option TransactionHandle}

/-! ## What is lost stays lost -/

theorem lost_iff_blind : Lost transaction s ↔ s.Blind transaction := by
  unfold Lost
  cases transaction with
  | none => exact ⟨fun h => absurd h (by simp [viewOf]), False.elim⟩
  | some t =>
    change _ ↔ ∀ r, s.record? t = some r → r.state ≠ .active
    cases hr : s.record? t with
    | none => simp [viewOf, hr]
    | some r => simp [viewOf, hr]

/-- A change of what another transaction sees, or of what this one does, brings nothing back. -/
theorem Changed.lost {through : Option TransactionHandle} {m : Mutation}
    (h : Changed through m s s') (hlost : Lost transaction s) : Lost transaction s' := by
  rw [lost_iff_blind] at hlost ⊢
  obtain ⟨seen, changed, hsees, _, rfl⟩ := h
  cases transaction with
  | none => exact hlost
  | some t =>
    cases through with
    | none => exact hlost
    | some t' =>
      obtain ⟨r, hr, hactive, _⟩ := hsees
      -- A change goes through a transaction that is active, and the lost one is not.
      by_cases heq : t' = t
      · subst heq
        exact absurd hactive (hlost r hr)
      · intro r' hr'
        rw [installed_some hr, record?_insert, if_neg heq] at hr'
        exact hlost r' hr'

theorem Looked.lost {through : Option TransactionHandle} (h : Looked through s s')
    (hlost : Lost transaction s) : Lost transaction s' := by
  rw [lost_iff_blind] at hlost ⊢
  cases transaction with
  | none => exact hlost
  | some t =>
    intro r' hr'
    obtain ⟨r, hr, hrecord⟩ := h.origin hr'
    -- A look expires a transaction or takes its copy; it does not make one active.
    cases hrecord with
    | same => exact hlost r' hr
    | expired => exact TransactionState.noConfusion
    | copied hactive => exact absurd hactive (hlost r hr)

/-- A call on a key does not bring back what is lost, whichever transaction it runs in. -/
theorem perform_keeps_lost {call : Call} (hkey : call.key?.isSome) :
    Keeps (Lost transaction) (perform call) := by
  intro s hlost
  refine (perform_ends call hkey s).mono ?_ (fun _ _ hobserved => hobserved.1.lost hlost)
  rintro answer s' ⟨s₁, s₂, hobserved, hchange, hsame⟩
  -- The looks that come before the change, the change itself, and what follows it.
  have hlost₁ := hobserved.1.lost hlost
  have hlost₂ : Lost transaction s₂ := by
    rcases hchange with ⟨_, rfl⟩ | ⟨m, _, hchanged⟩
    · exact hlost₁
    · exact hchanged.lost hlost₁
  cases transaction with
  | none => exact absurd hlost₂ (by simp [Lost, viewOf])
  | some t =>
    rw [Lost, viewOf, record?, hsame.transactions, hsame.hives]
    exact hlost₂

/-! ## Looking -/

/-- A look after which the scene is the same. -/
structure Sighted (c : Scene) (s s' : Store) : Prop where
  look : Looked c.transaction s s'
  scene : c.At s'

theorem Sighted.refl (hs : c.At s) : Sighted c s s where
  look := .refl _ s
  scene := hs

/-- What is seen after one more look are the trees of the scene. -/
theorem Sighted.again {h : Hives} {s₂ : Store} (hs : Sighted c s s₁)
    (hlook : Looked c.transaction s₁ s₂) (hsees : s₂.Sees c.transaction h) :
    h = c.view ∧ Sighted c s s₂ := by
  have hsame : some h = some c.view := (viewOf_of_sees hlook hsees).symm.trans hs.scene.view
  obtain rfl := Option.some.inj hsame
  refine ⟨rfl, hs.look.trans hlook, viewOf_of_sees (.refl _ s₂) hsees, ?_⟩
  exact hlook.protectedPlaces.trans hs.scene.protectedPlaces

theorem view_in (hs : Sighted c s s₁) :
    Ends (view c.transaction) s₁ (fun h s₂ => h = c.view ∧ Sighted c s s₂)
      (fun _ s₂ => Lost c.transaction s₂) :=
  (view_ends c.transaction s₁).mono (fun _ _ hend => hs.again hend.1 hend.2)
    (fun _ _ hend => lost_iff_blind.mpr hend.2.1)

/-- A root key is always there. -/
theorem contains_ofRoot (h : Hives) (root : RootKey) : h.contains (Location.ofRoot root) = true :=
  rfl

/-- The location that a text spells below a root key. -/
theorem target_in (root : RootKey) (subKey : String) (hs : c.At s) :
    Ends (target (OpenKey.ofRoot root) subKey c.transaction) s
      (fun l s₁ => l = (Location.ofRoot root).below subKey ∧ Sighted c s s₁)
      (fun _ s₁ => Lost c.transaction s₁) := by
  unfold target
  refine (view_in (.refl hs)).bind ?_ (fun _ _ h => h)
  rintro h s₁ ⟨rfl, hsight⟩
  have hthere : c.view.contains (OpenKey.ofRoot root).location = true :=
    contains_ofRoot c.view root
  rw [hthere]
  exact ends_pure ⟨rfl, hsight⟩

theorem opened_handle (s : Store) (root : RootKey) :
    s.opened root.handle = some (OpenKey.ofRoot root) := by
  cases root <;> rfl

/-! ## Changing -/

theorem at_installed {h : Hives} (m : Mutation) (hs : c.At s) :
    (c.with h).At (s.installed c.transaction h m) := by
  obtain ⟨transaction, view, places⟩ := c
  obtain ⟨hview, hplaces⟩ := hs
  cases transaction with
  | none => exact ⟨rfl, hplaces⟩
  | some t =>
    cases hr : s.record? t with
    | none => exact absurd hview (by simp [viewOf, hr])
    | some r =>
      rw [viewOf, hr, Option.bind_some] at hview
      split at hview
      · next hactive =>
        rw [installed_some hr]
        refine ⟨?_, hplaces⟩
        change viewOf _ (some t) = some h
        rw [viewOf, record?_insert, if_pos rfl, Option.bind_some, if_pos hactive, Option.getD_some]
      · exact absurd hview (by simp)

/-- A change is made to the trees of the scene, or they reject it. -/
theorem mutate_in (m : Mutation) (hs : Sighted c s s₁) :
    Ends (mutate c.transaction m) s₁
      (fun _ s' => c.Becomes m s')
      (fun e s' => Lost c.transaction s' ∨ Sighted c s s' ∧ c.Rejects m e) := by
  refine (mutate_ends c.transaction m s₁).mono ?_ ?_
  · rintro _ s' ⟨s₂, hlook, hchanged⟩
    obtain ⟨h, changed, hsees, happly, rfl⟩ := hchanged
    obtain ⟨rfl, hsight⟩ := hs.again hlook hsees
    exact ⟨_, changed, happly, at_installed m hsight.scene⟩
  · rintro e s' ⟨hlook, ⟨hblind, _⟩ | ⟨h, hsees, happly⟩⟩
    · exact Or.inl (lost_iff_blind.mpr hblind)
    · obtain ⟨rfl, hsight⟩ := hs.again hlook hsees
      exact Or.inr ⟨hsight, _, happly⟩

/-! ## Calls by path -/

/-- The rule for what a call by path from a root key starts with, followed by the rest. -/
theorem ends_from_root {α : Type} {f : OpenKey → Location → StoreM α} (root : RootKey)
    (subKey : String) {Q : α → Store → Prop} {E : NativeError → Store → Prop} (hs : c.At s)
    (hrest : ∀ s₁, Sighted c s s₁ →
      Ends (f (OpenKey.ofRoot root) ((Location.ofRoot root).below subKey)) s₁ Q E)
    (hlost : ∀ e s₁, Lost c.transaction s₁ → E e s₁) :
    Ends (do
      let parent ← lookUp root.handle
      let l ← target parent subKey (c.transaction.or parent.transaction)
      f parent l) s Q E := by
  refine ends_lookUp (fun p hp => ?_) (fun hnone => absurd hnone (by rw [opened_handle]; simp))
  obtain rfl := Option.some.inj ((opened_handle _ root).symm.trans hp)
  -- The handle of a root key is bound to no transaction, so the named one is used.
  rw [show c.transaction.or (OpenKey.ofRoot root).transaction = c.transaction from
    Option.or_none]
  refine (target_in root subKey hs).bind ?_ (fun _ _ h => hlost _ _ h)
  rintro l s₁ ⟨rfl, hsight⟩
  exact hrest s₁ hsight

/-- A key is opened if it is there, and if it may be opened with such rights. -/
theorem openKey_in (root : RootKey) (subKey : String) (access : Access) {l : Location}
    (hl : (Location.ofRoot root).below subKey = l) (hs : c.At s) :
    Ends (perform (.openKey root.handle subKey access c.transaction)) s
      (fun key s' => c.view.contains l = true ∧ (access.isModifying && c.isProtected l) = false ∧
        c.At s' ∧ key = ⟨s.nextHandle⟩ ∧
        s'.keys = Table.insert s.keys key ⟨l, access, c.transaction⟩)
      (fun e s' => Lost c.transaction s' ∨ c.At s' ∧
        (c.view.contains l = false ∧ e = .fileNotFound ∨
          c.view.contains l = true ∧ (access.isModifying && c.isProtected l) = true ∧
            e = .accessDenied)) := by
  subst hl
  refine ends_bind (ends_modify ?_)
  have hnoted : c.At (s.note (.trace ("open key" ++ variantSuffix c.transaction))) :=
    hs.of_same rfl rfl rfl
  unfold openKey
  refine ends_from_root root subKey hnoted (fun s₁ hsight => ?_) (fun _ _ hlost => Or.inl hlost)
  rw [show c.transaction.or (OpenKey.ofRoot root).transaction = c.transaction from
    Option.or_none]
  refine (view_in hsight).bind ?_ (fun _ _ hlost => Or.inl hlost)
  rintro h s₂ ⟨rfl, hsight⟩
  refine ends_require (fun hthere => ?_)
    (fun hmissing => Or.inr ⟨hsight.scene, Or.inl ⟨hmissing, rfl⟩⟩)
  rw [← hsight.scene.isProtected]
  refine ends_requireAdmissible (fun hadmits => ?_)
    (fun hdenied => Or.inr ⟨hsight.scene, Or.inr ⟨hthere, hdenied, rfl⟩⟩)
  refine ⟨hthere, hadmits, hsight.scene.withKey _, ?_, ?_⟩
  · exact congrArg KeyHandle.mk hsight.look.nextHandle
  · change Table.insert s₂.keys ⟨s₂.nextHandle⟩ _ = Table.insert s.keys ⟨s₂.nextHandle⟩ _
    rw [hsight.look.keys]
    rfl

/-- Why a call by path may not change the key at a location. -/
def Untouchable (c : Scene) (l : Location) : Prop :=
  l.isRoot = true ∨ c.isProtected l = true

/-- A key below a root key can be created unless it is protected. -/
theorem createMissing_in (root : RootKey) (subKey : String) (hs : Sighted c s s₁) :
    Ends (createMissing (OpenKey.ofRoot root) ((Location.ofRoot root).below subKey) c.transaction)
      s₁
      (fun _ s' => c.isProtected ((Location.ofRoot root).below subKey) = false ∧
        c.Becomes (.createKey ((Location.ofRoot root).below subKey)) s')
      (fun e s' => Lost c.transaction s' ∨ c.At s' ∧
        c.isProtected ((Location.ofRoot root).below subKey) = true ∧ e = .accessDenied) := by
  unfold createMissing
  have hright : (OpenKey.ofRoot root).access.contains .createSubKey = true :=
    show Access.all.contains .createSubKey = true by decide
  rw [hright, ← hs.scene.isProtected]
  refine ends_requireUnprotected (fun hfree => ?_)
    (fun hprotected => Or.inr ⟨hs.scene, hprotected, rfl⟩)
  refine (mutate_in _ hs).mono (fun _ _ hend => ⟨hfree, hend⟩) ?_
  -- Creating a key applies to any trees.
  rintro e s' (hlost | ⟨_, _, happly⟩)
  · exact Or.inl hlost
  · exact absurd happly (by simp [Mutation.apply])

/-- A key is opened if it is there, and created before that if it is not. -/
theorem createKey_in (root : RootKey) (subKey : String) (access : Access) {l : Location}
    (hl : (Location.ofRoot root).below subKey = l) (hs : c.At s)
    (hreading : access.isModifying = false) :
    Ends (perform (.createKey root.handle subKey access c.transaction)) s
      (fun answer s' =>
        c.view.contains l = true ∧ answer.2 = .openedExisting ∧ c.At s' ∨
        c.view.contains l = false ∧ c.isProtected l = false ∧ answer.2 = .createdNew ∧
          c.Becomes (.createKey l) s')
      (fun e s' => Lost c.transaction s' ∨ c.At s' ∧
        c.view.contains l = false ∧ c.isProtected l = true ∧ e = .accessDenied) := by
  subst hl
  refine ends_bind (ends_modify ?_)
  have hnoted : c.At (s.note (.trace ("create key" ++ variantSuffix c.transaction))) :=
    hs.of_same rfl rfl rfl
  unfold createKey
  refine ends_from_root root subKey hnoted (fun s₁ hsight => ?_) (fun _ _ hlost => Or.inl hlost)
  rw [show c.transaction.or (OpenKey.ofRoot root).transaction = c.transaction from
    Option.or_none]
  refine (view_in hsight).bind ?_ (fun _ _ hlost => Or.inl hlost)
  rintro h s₂ ⟨rfl, hsight⟩
  -- The rights are those of a reader, so protection does not keep the key from being opened.
  have hopens : ∀ (s₃ : Store), (access.isModifying &&
      s₃.isProtected ((Location.ofRoot root).below subKey)) = false := by
    intro s₃
    rw [hreading, Bool.false_and]
  cases hpresent : c.view.contains ((Location.ofRoot root).below subKey) with
  | true =>
    refine ends_requireAdmissible (fun _ => ?_) (fun hdenied => ?_)
    · exact Or.inl ⟨rfl, rfl, hsight.scene.withKey _⟩
    · exact absurd hdenied (by rw [hopens]; simp)
  | false =>
    refine (createMissing_in root subKey hsight).bind ?_ ?_
    · rintro _ s₃ ⟨hfree, now, h, happly, hscene⟩
      refine ends_requireAdmissible (fun _ => ?_) (fun hdenied => ?_)
      · exact Or.inr ⟨rfl, hfree, rfl, now, h, happly, hscene.withKey _⟩
      · exact absurd hdenied (by rw [hopens]; simp)
    · rintro e s₃ (hlost | ⟨hscene, hprotected, rfl⟩)
      · exact Or.inl hlost
      · exact Or.inr ⟨hscene, rfl, hprotected, rfl⟩

/-- A change of the key at a location is made, if it may be made there and applies to the trees. -/
theorem changeKey_in (root : RootKey) (subKey : String) (mutation : Location → Mutation)
    {l : Location} (hl : (Location.ofRoot root).below subKey = l) (hs : c.At s) :
    Ends (changeKey root.handle subKey c.transaction mutation) s
      (fun _ s' => l.isRoot = false ∧ c.isProtected l = false ∧ c.Becomes (mutation l) s')
      (fun e s' => Lost c.transaction s' ∨ c.At s' ∧
        (Untouchable c l ∧ e = .accessDenied ∨
          l.isRoot = false ∧ c.isProtected l = false ∧ c.Rejects (mutation l) e)) := by
  subst hl
  unfold changeKey
  refine ends_from_root root subKey hs (fun s₁ hsight => ?_) (fun _ _ hlost => Or.inl hlost)
  rw [show c.transaction.or (OpenKey.ofRoot root).transaction = c.transaction from
    Option.or_none]
  refine ends_require (fun hinner => ?_) (fun hroot => Or.inr ⟨hsight.scene, Or.inl ⟨?_, rfl⟩⟩)
  · rw [← hsight.scene.isProtected]
    have hinner' : ((Location.ofRoot root).below subKey).isRoot = false := by simpa using hinner
    refine ends_requireUnprotected (fun hfree => ?_) (fun hprotected => ?_)
    · refine (mutate_in _ hsight).mono (fun _ _ hend => ⟨hinner', hfree, hend⟩) ?_
      rintro e s' (hlost | ⟨hsight', hrejects⟩)
      · exact Or.inl hlost
      · exact Or.inr ⟨hsight'.scene, Or.inr ⟨hinner', hfree, hrejects⟩⟩
    · refine Or.inr ⟨hsight.scene, Or.inl ⟨Or.inr ?_, rfl⟩⟩
      rw [← hsight.scene.isProtected, hprotected]
  · exact Or.inl (by simpa using hroot)

/-! ## Calls through an open key -/

/-- What is read of the key at a location in some trees. -/
def readAt {α : Type} (h : Hives) (l : Location) (read : Node → Except NativeError α) :
    Except NativeError α :=
  match h.find? l with
  | none => .error .keyDeleted
  | some n => read n

/-- A key that is open is read in the trees of the scene. -/
theorem withNode_in {α : Type} {key : KeyHandle} {k : OpenKey} {access : Access}
    {named : Option TransactionHandle} (read : Node → Except NativeError α) (hs : c.At s)
    (hk : s.opened key = some k) (hright : k.access.contains access = true)
    (hbound : named.or k.transaction = c.transaction) :
    Ends (withNode key access named read) s
      (fun a s' => readAt c.view k.location read = .ok a ∧ Sighted c s s')
      (fun e s' => Lost c.transaction s' ∨
        readAt c.view k.location read = .error e ∧ Sighted c s s') := by
  unfold withNode
  refine ends_lookUp (fun k' hk' => ?_) (fun hnone => absurd hnone (by rw [hk]; simp))
  obtain rfl := Option.some.inj (hk.symm.trans hk')
  rw [hright, hbound]
  refine (view_in (.refl hs)).bind ?_ (fun _ _ hlost => Or.inl hlost)
  rintro h s₁ ⟨rfl, hsight⟩
  unfold readAt
  cases c.view.find? k.location with
  | none => exact ends_throw (Or.inr ⟨rfl, hsight⟩)
  | some n =>
    cases hread : read n with
    | ok a =>
      simp only [hread]
      exact ends_pure ⟨rfl, hsight⟩
    | error e =>
      simp only [hread]
      exact ends_throw (Or.inr ⟨rfl, hsight⟩)

/-- The values of a key that is open are changed in the trees of the scene. -/
theorem changeValue_in {key : KeyHandle} {k : OpenKey} {named : Option TransactionHandle}
    (mutation : Location → Mutation) (hs : c.At s) (hk : s.opened key = some k)
    (hright : k.access.contains .setValue = true)
    (hbound : named.or k.transaction = c.transaction)
    (hfree : c.isProtected k.location = false) :
    Ends (changeValue key named mutation) s
      (fun _ s' => c.Becomes (mutation k.location) s')
      (fun e s' => Lost c.transaction s' ∨ c.At s' ∧ c.Rejects (mutation k.location) e) := by
  unfold changeValue
  refine ends_lookUp (fun k' hk' => ?_) (fun hnone => absurd hnone (by rw [hk]; simp))
  obtain rfl := Option.some.inj (hk.symm.trans hk')
  rw [hright, hbound]
  refine ends_requireUnprotected (fun _ => ?_)
    (fun hprotected => absurd hprotected (by rw [hs.isProtected, hfree]; simp))
  refine (mutate_in _ (.refl hs)).mono (fun _ _ hend => hend) ?_
  rintro e s' (hlost | ⟨hsight, hrejects⟩)
  · exact Or.inl hlost
  · exact Or.inr ⟨hsight.scene, hrejects⟩

end Store

end TransactionalRegistry
