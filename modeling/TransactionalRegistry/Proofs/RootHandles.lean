import TransactionalRegistry.Proofs.Timelines

/-!
# Handles of root keys

The root keys have handles that are fixed, and a handle is looked for among these first. Nothing
keeps the counter of handles away from them: it starts far below and at a multiple of four, and
moves on by four, which takes it past all of the fixed handles but the first, which is a multiple of
four as well.

So a key that is opened is found under its handle, unless the counter stands at that one number. The
key that is opened then is lost: its handle denotes a root key, and closing the handle leaves the
entry in the table. The counter comes to that number after more than five hundred million handles,
and not before.

## Main definitions

* `Store.Serves`, `Store.Loses`: What becomes of a key that was opened, if its handle is that of no
  root key, and if it is.
* `drawsToRoots`: The number of handles before that of a root key.
* `reopening`: A run that opens one key again and again.

## Theorems

* `Store.Aligned.root?_next`: The one root key whose handle can be drawn.
* `opened_keys_are_served`: What becomes of keys that are opened, after every run.
* `opened_keys_are_served_early`: No key is lost before `drawsToRoots` actions.
* `a_key_is_lost`: A run that is that long and loses a key.
-/

namespace TransactionalRegistry

open Store (firstHandle handleStep)

namespace Store

/-- A key is found under its handle, and closing that takes it out of the table. -/
structure Serves (s : Store) (key : KeyHandle) (k : OpenKey) : Prop where
  free : key.isPredefined = false
  opened : s.opened key = some k
  closing : Ends (perform (.closeKey key)) s
    (fun _ s' => s'.keys = Table.erase s.keys key ∧ s'.opened key = none) (fun _ _ => False)

/-- A key is in the table, but its handle is that of a root key: this is what it denotes, and
    closing it does nothing. -/
structure Loses (s : Store) (key : KeyHandle) (k : OpenKey) (root : RootKey) : Prop where
  taken : key = root.handle
  entry : Table.find? s.keys key = some k
  opened : s.opened key = some (OpenKey.ofRoot root)
  closing : Ends (perform (.closeKey key)) s (fun _ s' => s' = s) (fun _ _ => False)

section

variable {s s' : Store} {key : KeyHandle} {k : OpenKey}

/-- Of the handles of the root keys only the first can be drawn. -/
theorem Aligned.root?_next (h : s.Aligned) :
    (KeyHandle.mk s.nextHandle).root? =
      if s.nextHandle = RootKey.classesRoot.handle.raw then some .classesRoot else none := by
  split
  · next hnext =>
    rw [hnext]
    exact KeyHandle.root?_handle .classesRoot
  · next hnext =>
    refine List.find?_eq_none.mpr (fun root _ hroot => ?_)
    have hraw : root.handle.raw = s.nextHandle :=
      congrArg KeyHandle.raw (of_decide_eq_true hroot)
    -- Of the handles of the root keys only the first is a multiple of four.
    unfold Aligned at h
    rw [← hraw] at h hnext
    cases root with
    | classesRoot => exact hnext rfl
    | _ => exact absurd h (by decide)

theorem Enters.entry (h : Enters key k s s') : Table.find? s'.keys key = some k := by
  rw [h.keys, Table.find?_insert, if_pos rfl]

/-- A key whose handle is that of no root key is found under it, until it is closed. -/
theorem Enters.serves (h : Enters key k s s') (hfree : key.root? = none) : s'.Serves key k where
  free := by rw [KeyHandle.isPredefined, hfree]; rfl
  opened := by rw [opened, hfree]; exact h.entry
  closing := by
    refine (closeKey_ends key s').mono ?_ ?_
    · rintro _ s'' (⟨htaken, -⟩ | ⟨-, -, rfl⟩)
      · rw [KeyHandle.isPredefined, hfree] at htaken
        exact absurd htaken (by simp)
      · refine ⟨rfl, ?_⟩
        rw [opened, hfree]
        exact (Table.find?_erase _ _ _).trans (if_pos rfl)
    · rintro _ s'' ⟨-, hmissing, -⟩
      -- The entry is in the table, so closing it does not fail for want of it.
      rw [Table.contains, h.entry] at hmissing
      exact absurd hmissing (by simp)

/-- A key whose handle is that of a root key is lost. -/
theorem Enters.loses (h : Enters key k s s') {root : RootKey} (htaken : key = root.handle) :
    s'.Loses key k root where
  taken := htaken
  entry := h.entry
  opened := by rw [opened, htaken, KeyHandle.root?_handle]
  closing := by
    have hpredefined : key.isPredefined = true := by
      rw [KeyHandle.isPredefined, htaken, KeyHandle.root?_handle]
      rfl
    refine (closeKey_ends key s').mono ?_ ?_
    · rintro _ s'' (⟨-, hsame⟩ | ⟨hfree, -⟩)
      · exact hsame
      · exact absurd (hpredefined.symm.trans hfree) (by simp)
    · rintro _ s'' ⟨hfree, -⟩
      exact absurd (hpredefined.symm.trans hfree) (by simp)

end

end Store

/-- The number of handles that are drawn before that of a root key. -/
def drawsToRoots : Nat :=
  (RootKey.classesRoot.handle.raw.toNat - firstHandle.toNat) / handleStep.toNat

/-- Whatever has happened to a new store, a key that is opened is served, unless the counter of
    handles stands at the handle of the first root key. If it does, then the key is lost. -/
theorem opened_keys_are_served (l : Timeline) {call : Call} {parent : KeyHandle} {subKey : String}
    {access : Access} (hasks : call.asks? = some (parent, subKey, access)) {answer : call.Answer}
    (hok : outcome (Store.perform call) l.store = .ok answer) :
    ∃ p key, l.store.opened parent = some p ∧ call.handle? answer = some key ∧
      if l.store.nextHandle = RootKey.classesRoot.handle.raw then
        (l.after (.call call)).store.Loses key
          ⟨p.location.below subKey, access, l.store.transactionOf call⟩ .classesRoot
      else
        (l.after (.call call)).store.Serves key
          ⟨p.location.below subKey, access, l.store.transactionOf call⟩ := by
  obtain ⟨p, key, hp, hhandle, henters⟩ :=
    (Store.perform_enters hasks l.store).ok (eq_of_outcome hok)
  have haligned : l.store.Aligned := Chronicle.run_aligned l.clock l.actions
  refine ⟨p, key, hp, hhandle, ?_⟩
  rw [Timeline.store_call]
  split
  · next hnext =>
    refine henters.loses ?_
    rw [henters.handle, hnext]
  · next hnext =>
    refine henters.serves ?_
    rw [henters.handle, haligned.root?_next, if_neg hnext]

/-- As long as fewer actions than that have happened, no key that is opened is lost: an action draws
    one handle at most. -/
theorem opened_keys_are_served_early (l : Timeline) (hfew : l.actions.length < drawsToRoots)
    {call : Call} {parent : KeyHandle} {subKey : String} {access : Access}
    (hasks : call.asks? = some (parent, subKey, access)) {answer : call.Answer}
    (hok : outcome (Store.perform call) l.store = .ok answer) :
    ∃ p key, l.store.opened parent = some p ∧ call.handle? answer = some key ∧
      (l.after (.call call)).store.Serves key
        ⟨p.location.below subKey, access, l.store.transactionOf call⟩ := by
  obtain ⟨p, key, hp, hhandle, hserved⟩ := opened_keys_are_served l hasks hok
  refine ⟨p, key, hp, hhandle, ?_⟩
  -- Each action draws one handle at most, so the counter has not come up to the first root key.
  have hbelow : l.store.nextHandle.toNat < RootKey.classesRoot.handle.raw.toNat := by
    have hdraws : drawsToRoots = 536869888 := by decide
    have hroot : RootKey.classesRoot.handle.raw.toNat = 0x80000000 := rfl
    have hfirst : firstHandle.toNat = 0x1000 := rfl
    have hle := l.nextHandle_le
    omega
  rwa [if_neg (fun hnext => absurd (congrArg UInt64.toNat hnext) (Nat.ne_of_lt hbelow))] at hserved

/-! ## A run that loses a key -/

/-- A root key is opened. -/
def openRoot : Call :=
  .openKey RootKey.currentUser.handle "" .read none

/-- A root key is opened again and again. -/
def reopening (n : Nat) : Timeline :=
  ⟨⟨0, []⟩, List.replicate n (.call openRoot)⟩

theorem reopening_succ (n : Nat) : reopening (n + 1) = (reopening n).after (.call openRoot) := by
  rw [reopening, List.replicate_succ']
  rfl

/-- A root key can always be opened. -/
theorem enters_reopening (n : Nat) :
    ∃ key, Store.Enters key ⟨Location.ofRoot .currentUser, .read, none⟩
      (reopening n).store (reopening (n + 1)).store := by
  have hends : ∀ s : Store, Ends (Store.perform openRoot) s
      (fun key s' => Store.Enters key ⟨Location.ofRoot .currentUser, .read, none⟩ s s')
      (fun _ _ => False) := fun _ => ⟨rfl, rfl, rfl⟩
  rw [reopening_succ, Timeline.store_call]
  refine Ends.endState_total (P := fun s' => ∃ key, Store.Enters key _ (reopening n).store s') ?_
  exact (hends _).mono (fun key _ h => ⟨key, h⟩) (fun _ _ h => h)

theorem nextHandle_reopening (n : Nat) (hn : n ≤ drawsToRoots) :
    (reopening n).store.nextHandle.toNat = firstHandle.toNat + 4 * n := by
  have hdraws : drawsToRoots = 536869888 := by decide
  have hfirst : firstHandle.toNat = 0x1000 := rfl
  have hstep : handleStep.toNat = 4 := rfl
  induction n with
  | zero => rfl
  | succ n ih =>
    obtain ⟨_, henters⟩ := enters_reopening n
    -- Up to that point the sum is far from coming round.
    rw [henters.nextHandle, UInt64.toNat_add, hstep, ih (by omega)]
    omega

/-- The key that is opened after `drawsToRoots` others is lost. -/
theorem a_key_is_lost :
    (reopening (drawsToRoots + 1)).store.Loses RootKey.classesRoot.handle
      ⟨Location.ofRoot .currentUser, .read, none⟩ .classesRoot := by
  have hnext : (reopening drawsToRoots).store.nextHandle = RootKey.classesRoot.handle.raw := by
    refine UInt64.toNat_inj.mp ?_
    rw [nextHandle_reopening drawsToRoots (Nat.le_refl _)]
    decide
  obtain ⟨key, henters⟩ := enters_reopening drawsToRoots
  have hkey : key = RootKey.classesRoot.handle := henters.handle.trans (congrArg KeyHandle.mk hnext)
  exact hkey ▸ henters.loses hkey

end TransactionalRegistry
