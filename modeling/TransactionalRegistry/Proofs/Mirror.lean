import TransactionalRegistry.Proofs.Agreement
import TransactionalRegistry.Proofs.Calls
import TransactionalRegistry.Proofs.Timeless

/-!
# One store inside a transaction, and one outside

Two stores mirror each other if what is seen through a transaction of the one is, up to times, what
the live trees of the other are, and the changes that the transaction keeps make its own live trees
the same. The same call, made in the transaction on the one store and in no transaction on the
other, is answered alike, and the stores still mirror each other afterwards, unless the time of the
transaction is over by then.

The store with the transaction has drawn one handle more, so it is one handle ahead. Handles that
were opened side by side denote the same key with the same rights; as long as no handle comes near
the fixed handles of the root keys, they serve the same purpose.

## Main definitions

* `Store.Late`: A deadline has come.
* `Handles`: The open handles of the two stores, and the next handle.
* `Mirrors`: The two stores mirror each other.
* `Standing`: They do, with handles as asked for.
* `Handles.Room`: No handle comes near those of the root keys.
* `Handles.Pairs`: Two handles were opened side by side.

## Theorems

* `perform_keeps_late`: A late store stays late.
* `Mirrors.look_plain`, `Mirrors.look_inside`: A look leaves the stores as they are to each other.
* `Mirrors.apply`, `Mirrors.change`: A change applies to both alike, and both are changed alike.
-/

namespace TransactionalRegistry

/-! ## Handles -/

theorem KeyHandle.root?_handle (root : RootKey) : root.handle.root? = some root := by
  cases root <;> decide

theorem KeyHandle.root?_eq_none {key : KeyHandle} (h : key.raw.toNat < 0x80000000) :
    key.root? = none := by
  refine List.find?_eq_none.mpr ?_
  intro root _ heq
  have hkey : root.handle = key := by simpa using heq
  have hroot : 0x80000000 ≤ root.handle.raw.toNat := by cases root <;> decide
  rw [hkey] at hroot
  omega

/-- The open key handles of two stores, and the next handle that the first of them draws; the second
    one is a handle ahead. -/
structure Handles where
  next : UInt64
  plain : Table KeyHandle OpenKey
  inside : Table KeyHandle OpenKey

namespace Handles

/-- The next handles lie below those of the root keys. -/
def Room (hs : Handles) : Prop :=
  hs.next.toNat + 4 < 0x80000000

/-- Two handles denote one key with the same rights, the first one in no transaction and the second
    one in `t`. -/
structure Pairs (t : TransactionHandle) (access : Access) (a b : KeyHandle) (hs : Handles) :
    Prop where
  plain_free : a.root? = none
  inside_free : b.root? = none
  found : ∃ l, Table.find? hs.plain a = some ⟨l, access, none⟩ ∧
    Table.find? hs.inside b = some ⟨l, access, some t⟩

end Handles

namespace Store

/-! ## Being late -/

/-- The deadline, if there is one, has come. -/
def Late (deadline : Option Time) (s : Store) : Prop :=
  ∃ due, deadline = some due ∧ due ≤ s.clock.now

variable {t : TransactionHandle} {deadline : Option Time} {hs : Handles} {s₁ s₁' s₂ s₂' : Store}

theorem Late.mono {s s' : Store} (h : s.Late deadline) (hle : s.clock.now ≤ s'.clock.now) :
    s'.Late deadline := by
  rcases h with ⟨due, hdue, hcome⟩
  exact ⟨due, hdue, Nat.le_trans hcome hle⟩

/-- A computation in which time does not run backwards keeps a late store late. -/
theorem keeps_late {α : Type} {m : StoreM α}
    (h : ∀ s, Ends m s (fun _ s' => s.clock.now ≤ s'.clock.now)
      (fun _ s' => s.clock.now ≤ s'.clock.now)) : Keeps (Late deadline) m :=
  fun s hlate => (h s).mono (fun _ _ hle => hlate.mono hle) (fun _ _ hle => hlate.mono hle)

/-- Time does not run backwards in a call on a key. -/
theorem perform_keeps_late (call : Call) (hkey : call.key?.isSome) :
    Keeps (Late deadline) (perform call) := by
  refine keeps_late (fun s => (perform_ends call hkey s).mono ?_ (fun _ _ h => h.1.clock))
  intro answer s' h
  rcases h with ⟨s₁, s₂, hobs, hchange, hsame⟩
  rw [hsame.clock]
  -- The clock is read by a look only; a change takes the time that the look has read.
  rcases hchange with ⟨_, rfl⟩ | ⟨m, _, hchanged⟩
  · exact hobs.1.clock
  · rw [hchanged.frame.clock]
    exact hobs.1.clock

/-! ## Stores that mirror each other -/

/-- The transaction `t` of the store `inside` is active with the given deadline. Up to times, what
    is seen through it is what the live trees of the store `plain` are, and its changes make the
    live trees of `inside` the same. -/
structure Mirrors (t : TransactionHandle) (deadline : Option Time) (hs : Handles)
    (plain inside : Store) : Prop where
  plain_keys : plain.keys = hs.plain
  inside_keys : inside.keys = hs.inside
  plain_next : plain.nextHandle = hs.next
  inside_next : inside.nextHandle = hs.next + handleStep
  protectedPlaces : inside.protectedPlaces = plain.protectedPlaces
  record : ∃ r, inside.record? t = some r ∧ r.state = .active ∧ r.deadline = deadline ∧
    (r.workspace.getD inside.hives).timeless = plain.hives.timeless ∧
    Mutation.replay 0 inside.hives.timeless r.log = .ok plain.hives.timeless

/-- The stores mirror each other, with handles as `F` asks for. -/
def Standing (t : TransactionHandle) (deadline : Option Time) (F : Handles → Prop)
    (plain inside : Store) : Prop :=
  ∃ hs, F hs ∧ Mirrors t deadline hs plain inside

namespace Mirrors

theorem note (h : Mirrors t deadline hs s₁ s₂) {entry : LogEntry} :
    Mirrors t deadline hs s₁ (s₂.note entry) :=
  ⟨h.plain_keys, h.inside_keys, h.plain_next, h.inside_next, h.protectedPlaces, h.record⟩

theorem note_plain (h : Mirrors t deadline hs s₁ s₂) {entry : LogEntry} :
    Mirrors t deadline hs (s₁.note entry) s₂ :=
  ⟨h.plain_keys, h.inside_keys, h.plain_next, h.inside_next, h.protectedPlaces, h.record⟩

theorem look_plain (h : Mirrors t deadline hs s₁ s₂) (hlook : Looked none s₁ s₁') :
    Mirrors t deadline hs s₁' s₂ where
  plain_keys := hlook.keys.trans h.plain_keys
  inside_keys := h.inside_keys
  plain_next := hlook.nextHandle.trans h.plain_next
  inside_next := h.inside_next
  protectedPlaces := h.protectedPlaces.trans hlook.protectedPlaces.symm
  record := by
    rw [hlook.hives]
    exact h.record

/-- A look through the transaction changes nothing about what is seen, unless it comes too late. -/
theorem look_inside (h : Mirrors t deadline hs s₁ s₂) (hlook : Looked (some t) s₂ s₂') :
    Late deadline s₂' ∨ Mirrors t deadline hs s₁ s₂' := by
  rcases h.record with ⟨r, hr, hactive, hdeadline, hseen, hreplay⟩
  rcases hlook.known t r hr with ⟨r', hr', hrecord⟩
  have hmirrors : r'.state = .active → r'.deadline = deadline →
      (r'.workspace.getD s₂.hives).timeless = s₁.hives.timeless → r'.log = r.log →
      Mirrors t deadline hs s₁ s₂' := by
    intro hactive' hdeadline' hseen' hlog
    refine ⟨h.plain_keys, hlook.keys.trans h.inside_keys, h.plain_next,
      hlook.nextHandle.trans h.inside_next, hlook.protectedPlaces.trans h.protectedPlaces, r', hr',
      hactive', hdeadline', ?_, ?_⟩
    · rw [hlook.hives]
      exact hseen'
    · rw [hlook.hives, hlog]
      exact hreplay
  -- A look has left the record as it was, found it out of time, or taken the first copy.
  cases hrecord with
  | same => exact Or.inr (hmirrors hactive hdeadline hseen rfl)
  | expired due _ hdue hcome => exact Or.inl ⟨due, hdeadline.symm.trans hdue, hcome⟩
  | copied _ hnone =>
    rw [hnone] at hseen
    exact Or.inr (hmirrors hactive hdeadline hseen rfl)

theorem not_blind (h : Mirrors t deadline hs s₁ s₂) : ¬ s₂.Blind (some t) := by
  intro hblind
  rcases h.record with ⟨r, hr, hactive, _⟩
  exact hblind r hr hactive

theorem sees (h : Mirrors t deadline hs s₁ s₂) {trees : Hives} (hsees : s₂.Sees (some t) trees) :
    trees.timeless = s₁.hives.timeless := by
  rcases h.record with ⟨r, hr, _, _, hseen, _⟩
  rcases hsees with ⟨r', hr', _, hworkspace⟩
  rw [hr, Option.some.injEq] at hr'
  subst hr'
  rw [hworkspace] at hseen
  exact hseen

theorem isProtected (h : Mirrors t deadline hs s₁ s₂) (l : Location) :
    s₂.isProtected l = s₁.isProtected l := by
  rw [Store.isProtected, Store.isProtected, h.protectedPlaces]

/-- A change applies to the trees that are seen through the transaction as it does to the live trees
    of the other store. -/
theorem apply (h : Mirrors t deadline hs s₁ s₂) {trees : Hives} (hsees : s₂.Sees (some t) trees)
    (m : Mutation) (now₁ now₂ : Time) :
    (m.apply now₂ trees).map Hives.timeless = (m.apply now₁ s₁.hives).map Hives.timeless := by
  rw [← Mutation.apply_timeless, ← Mutation.apply_timeless, h.sees hsees]

/-- It fails on the one if it fails on the other, with the same error. -/
theorem apply_fails (h : Mirrors t deadline hs s₁ s₂) {trees : Hives}
    (hsees : s₂.Sees (some t) trees) (m : Mutation) (now₁ now₂ : Time) (e : NativeError) :
    m.apply now₂ trees = .error e ↔ m.apply now₁ s₁.hives = .error e := by
  have hsame := h.apply hsees m now₁ now₂
  refine ⟨fun hfails => ?_, fun hfails => ?_⟩
  · rw [hfails] at hsame
    cases hlive : m.apply now₁ s₁.hives with
    | ok changed => exact absurd hsame (by simp [hlive, Except.map])
    | error e' =>
      rw [hlive] at hsame
      exact congrArg Except.error (Except.error.inj hsame.symm)
  · rw [hfails] at hsame
    cases hcopy : m.apply now₂ trees with
    | ok changed => exact absurd hsame (by simp [hcopy, Except.map])
    | error e' =>
      rw [hcopy] at hsame
      exact congrArg Except.error (Except.error.inj hsame)

/-- The same change is made inside the transaction and outside. -/
theorem change (h : Mirrors t deadline hs s₁ s₂) {m : Mutation} (hplain : Changed none m s₁ s₁')
    (hinside : Changed (some t) m s₂ s₂') : Mirrors t deadline hs s₁' s₂' := by
  have hframe := hinside.frame
  rcases hplain with ⟨_, changed₁, rfl, happly₁, rfl⟩
  rcases hinside with ⟨trees, changed₂, hsees, happly₂, rfl⟩
  have hsame := h.apply hsees m s₁.clock.now s₂.clock.now
  rw [happly₁, happly₂] at hsame
  have hseen' : changed₂.timeless = changed₁.timeless := Except.ok.inj hsame
  rcases h.record with ⟨r, hr, hactive, hdeadline, _, hreplay⟩
  refine ⟨h.plain_keys, hframe.keys.trans h.inside_keys, h.plain_next,
    hframe.nextHandle.trans h.inside_next, hframe.protectedPlaces.trans h.protectedPlaces, ?_⟩
  rw [installed_some hr]
  refine ⟨{ r with workspace := some changed₂, log := r.log ++ [m] },
    (record?_insert s₂ t t _).trans (if_pos rfl), hactive, hdeadline, hseen', ?_⟩
  -- The change is replayed last, on what the earlier ones have made of the live trees.
  have hlast : Mutation.replay 0 s₁.hives.timeless [m] = .ok changed₁.timeless := by
    rw [Mutation.replay, Mutation.apply_timeless s₁.clock.now, happly₁]
    rfl
  change Mutation.replay 0 s₂.hives.timeless (r.log ++ [m]) = .ok changed₁.timeless
  rw [Mutation.replay_append, hreplay]
  exact hlast

end Mirrors

end Store

end TransactionalRegistry
