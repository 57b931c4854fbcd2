import TransactionalRegistry.Proofs.Mirror

/-!
# Calls side by side

The same call is made on two stores that mirror each other, in the transaction on the one and in no
transaction on the other. The steps that calls are made of agree, and so the calls do: what a step
finds on the trees does not depend on their times, and all else that a step goes by is the same in
both stores.

## Main definitions

* `SameRead`: What is read of a key does not depend on times, up to a relation of answers.

## Theorems

* `agrees_view`, `agrees_mutate`: Looking at the trees and changing them.
* `agrees_openKey`, `agrees_createKey`, `agrees_changeKey`: Calls by path.
* `agrees_withNode`, `agrees_changeValue`, `agrees_closeKey`: Calls through handles that were opened
  side by side.
-/

namespace TransactionalRegistry

namespace Store

variable {t : TransactionHandle} {deadline : Option Time} {hs : Handles}
  {F : Handles → Prop} {α : Type}

/-! ## Steps -/

/-- Plainly and inside the transaction the same is seen, up to times. -/
theorem agrees_view :
    Agrees (Late deadline) (Mirrors t deadline hs) (view none) (view (some t))
      (fun trees₁ trees₂ s₁ s₂ =>
        trees₁.timeless = trees₂.timeless ∧ Mirrors t deadline hs s₁ s₂)
      (Mirrors t deadline hs) where
  late := keeps_late (fun s =>
    (view_ends (some t) s).mono (fun _ _ h => h.1.clock) (fun _ _ h => h.1.clock))
  run s₁ s₂ h := by
    have hplain : view none s₁ = .ok s₁.hives s₁ := rfl
    have hinside := view_ends (some t) s₂
    cases hview : view (some t) s₂ with
    | ok trees s₂' =>
      rcases hinside.ok hview with ⟨hlook, hsees⟩
      rw [endState_of_ok hview, hplain]
      refine (h.look_inside hlook).imp_right (fun h' => .ok ⟨?_, h'⟩)
      exact (h'.sees hsees).symm
    | error e s₂' =>
      -- The transaction is active, so that it is not blind to its view.
      rcases hinside.error hview with ⟨hlook, hblind, _⟩
      rw [endState_of_error hview]
      exact (h.look_inside hlook).imp_right (fun h' => absurd hblind h'.not_blind)

/-- What is seen is the same on both sides up to times, and the rest goes on from there. -/
theorem agrees_view_bind {f₁ f₂ : Hives → StoreM α} {Q : α → α → Store → Store → Prop}
    (hf : ∀ trees₁ trees₂ : Hives, trees₁.timeless = trees₂.timeless →
      Agrees (Late deadline) (Mirrors t deadline hs) (f₁ trees₁) (f₂ trees₂) Q
        (Mirrors t deadline hs)) :
    Agrees (Late deadline) (Mirrors t deadline hs) (view none >>= f₁) (view (some t) >>= f₂) Q
      (Mirrors t deadline hs) := by
  refine agrees_view.bind_of (R := fun trees₁ trees₂ => trees₁.timeless = trees₂.timeless)
    (fun _ _ _ _ h => h.1) (fun _ => rfl) ?_
  intro trees₁ trees₂ hsame
  exact (hf trees₁ trees₂ hsame).mono_pre (fun _ _ h => h.2)

/-- A change succeeds on both sides, or fails on both for the same reason. -/
theorem agrees_mutate (m : Mutation) :
    Agrees (Late deadline) (Mirrors t deadline hs) (mutate none m) (mutate (some t) m)
      (fun _ _ => Mirrors t deadline hs) (Mirrors t deadline hs) where
  late := by
    refine keeps_late (fun s => (mutate_ends (some t) m s).mono ?_ (fun _ _ h => h.1.clock))
    intro _ s' h
    rcases h with ⟨s₁, hlook, hchanged⟩
    rw [hchanged.frame.clock]
    exact hlook.clock
  run s₁ s₂ h := by
    have hplain := mutate_ends none m s₁
    have hinside := mutate_ends (some t) m s₂
    -- The run inside comes first, since it may be late; then there is nothing else to show.
    cases hmutate₂ : mutate (some t) m s₂ with
    | ok _ s₂' =>
      rcases hinside.ok hmutate₂ with ⟨s₂'', hlook₂, hchanged₂⟩
      rw [endState_of_ok hmutate₂]
      rcases h.look_inside hlook₂ with hlate | h'
      · exact Or.inl (hlate.mono (Nat.le_of_eq (congrArg Clock.now hchanged₂.frame.clock.symm)))
      · refine Or.inr ?_
        cases hmutate₁ : mutate none m s₁ with
        | ok _ s₁' =>
          rcases hplain.ok hmutate₁ with ⟨s₁'', hlook₁, hchanged₁⟩
          exact .ok ((h'.look_plain hlook₁).change hchanged₁ hchanged₂)
        | error e s₁' =>
          -- What applies inside applies outside.
          rcases hplain.error hmutate₁ with ⟨hlook₁, ⟨hblind, _⟩ | ⟨_, rfl, hfails₁⟩⟩
          · exact hblind.elim
          · rcases hchanged₂ with ⟨trees, changed, hsees, happly, _⟩
            have hfails₂ := ((h'.look_plain hlook₁).apply_fails hsees m s₁'.clock.now
              s₂''.clock.now e).mpr hfails₁
            exact absurd (happly.symm.trans hfails₂) (by simp)
    | error e s₂' =>
      rcases hinside.error hmutate₂ with ⟨hlook₂, hfails₂⟩
      rw [endState_of_error hmutate₂]
      refine (h.look_inside hlook₂).imp_right (fun h' => ?_)
      rcases hfails₂ with ⟨hblind, _⟩ | ⟨trees, hsees, hfails₂⟩
      · exact absurd hblind h'.not_blind
      · -- What fails inside fails outside, for the same reason.
        cases hmutate₁ : mutate none m s₁ with
        | ok _ s₁' =>
          rcases hplain.ok hmutate₁ with ⟨s₁'', hlook₁, _, changed, rfl, happly, _⟩
          have hfails₁ := ((h'.look_plain hlook₁).apply_fails hsees m s₁''.clock.now
            s₂'.clock.now e).mp hfails₂
          exact absurd (happly.symm.trans hfails₁) (by simp)
        | error e' s₁' =>
          rcases hplain.error hmutate₁ with ⟨hlook₁, ⟨hblind, _⟩ | ⟨_, rfl, hfails₁⟩⟩
          · exact hblind.elim
          · have hmirrors := h'.look_plain hlook₁
            have hsame := (hmirrors.apply_fails hsees m s₁'.clock.now s₂'.clock.now e).mp hfails₂
            have herror : e' = e := Except.error.inj (hfails₁.symm.trans hsame)
            subst herror
            exact .error hmirrors

/-- A condition that does not depend on the store is met on both sides or on neither. -/
theorem agrees_require {Late : Store → Prop} {P : Store → Store → Prop} (condition : Bool)
    (error : NativeError) :
    Agrees Late P (require condition error) (require condition error) (fun _ _ => P) P := by
  unfold require
  cases condition with
  | true => exact agrees_pure (fun _ _ h => h)
  | false => exact agrees_throw (fun _ _ h => h)

/-- What is required of a store is required of both if it holds in both or in none. -/
theorem agrees_get_require {condition : Store → Bool}
    (hsame : ∀ s₁ s₂, Mirrors t deadline hs s₁ s₂ → condition s₂ = condition s₁)
    (error : NativeError) :
    Agrees (Late deadline) (Mirrors t deadline hs) (get >>= fun s => require (condition s) error)
      (get >>= fun s => require (condition s) error) (fun _ _ => Mirrors t deadline hs)
      (Mirrors t deadline hs) where
  late := keeps_get.bind (fun s => (agrees_require (P := fun _ _ => True) _ _).late)
  run s₁ s₂ h := by
    change Late deadline (endState (require (condition s₂) error) s₂) ∨
      Alike _ _ (require (condition s₁) error s₁) (require (condition s₂) error s₂)
    rw [hsame s₁ s₂ h]
    exact (agrees_require (condition s₁) error).run s₁ s₂ h

/-- Both stores protect the same places. -/
theorem agrees_requireUnprotected (l : Location) :
    Agrees (Late deadline) (Mirrors t deadline hs) (requireUnprotected l) (requireUnprotected l)
      (fun _ _ => Mirrors t deadline hs) (Mirrors t deadline hs) := by
  refine agrees_get_require (fun s₁ s₂ h => ?_) .accessDenied
  rw [h.isProtected]

/-- Both stores allow the same rights. -/
theorem agrees_requireAdmissible (l : Location) (access : Access) :
    Agrees (Late deadline) (Mirrors t deadline hs) (requireAdmissible l access)
      (requireAdmissible l access) (fun _ _ => Mirrors t deadline hs)
      (Mirrors t deadline hs) := by
  refine agrees_get_require (fun s₁ s₂ h => ?_) .accessDenied
  rw [h.isProtected]

/-- The location below an open key is there on both sides or on neither. -/
theorem agrees_target (parent : OpenKey) (subKey : String) :
    Agrees (Late deadline) (Mirrors t deadline hs) (target parent subKey none)
      (target parent subKey (some t)) (fun l₁ l₂ s₁ s₂ => l₁ = l₂ ∧ Mirrors t deadline hs s₁ s₂)
      (Mirrors t deadline hs) := by
  unfold target
  refine agrees_view_bind (fun trees₁ trees₂ hsame => ?_)
  rw [Hives.contains_eq_of_timeless hsame]
  exact (agrees_require _ _).bind_unit (agrees_pure (fun _ _ h => ⟨rfl, h⟩))

/-- Two handles that are drawn side by side are a pair. -/
theorem agrees_addKey (hroom : hs.Room) (l : Location) (access : Access) :
    Agrees (Late deadline) (Mirrors t deadline hs) (addKey ⟨l, access, none⟩)
      (addKey ⟨l, access, some t⟩)
      (fun a b => Standing t deadline (Handles.Pairs t access a b)) (Mirrors t deadline hs) where
  late := fun s h => h
  run s₁ s₂ h := by
    -- Neither of the new handles is that of a root key.
    have hstep : (hs.next + handleStep).toNat < 0x80000000 := by
      unfold Handles.Room at hroom
      have hfour : handleStep.toNat = 4 := rfl
      rw [UInt64.toNat_add, hfour]
      omega
    have hfirst : hs.next.toNat < 0x80000000 := by
      unfold Handles.Room at hroom
      omega
    have hpairs : Handles.Pairs t access ⟨hs.next⟩ ⟨hs.next + handleStep⟩
        ⟨hs.next + handleStep, Table.insert hs.plain ⟨hs.next⟩ ⟨l, access, none⟩,
          Table.insert hs.inside ⟨hs.next + handleStep⟩ ⟨l, access, some t⟩⟩ := by
      refine ⟨KeyHandle.root?_eq_none hfirst, KeyHandle.root?_eq_none hstep, l, ?_, ?_⟩
      · rw [Table.find?_insert, if_pos rfl]
      · rw [Table.find?_insert, if_pos rfl]
    have hdrawn₁ : addKey ⟨l, access, none⟩ s₁ = .ok ⟨hs.next⟩ (s₁.withKey ⟨l, access, none⟩) := by
      rw [← h.plain_next]
      rfl
    have hdrawn₂ : addKey ⟨l, access, some t⟩ s₂
        = .ok ⟨hs.next + handleStep⟩ (s₂.withKey ⟨l, access, some t⟩) := by
      rw [← h.inside_next]
      rfl
    rw [hdrawn₁, hdrawn₂]
    refine Or.inr (.ok ⟨_, hpairs, ?_, ?_, ?_, ?_, h.protectedPlaces, h.record⟩)
    · change Table.insert s₁.keys ⟨s₁.nextHandle⟩ _ = _
      rw [h.plain_keys, h.plain_next]
    · change Table.insert s₂.keys ⟨s₂.nextHandle⟩ _ = _
      rw [h.inside_keys, h.inside_next]
    · change s₁.nextHandle + handleStep = _
      rw [h.plain_next]
    · change s₂.nextHandle + handleStep = _
      rw [h.inside_next]

/-- What is logged need not be the same. -/
theorem agrees_log (entry₁ entry₂ : LogEntry) :
    Agrees (Late deadline) (Mirrors t deadline hs) (log entry₁) (log entry₂)
      (fun _ _ => Mirrors t deadline hs) (Mirrors t deadline hs) where
  late := fun _ h => h
  run _ _ h := Or.inr (.ok h.note.note_plain)

/-! ## Calls by path -/

/-- Agreement for any handles that are as `F` says. -/
theorem agrees_of_standing {m₁ m₂ : StoreM α} {Q : α → α → Store → Store → Prop}
    (hlate : Keeps (Late deadline) m₂)
    (h : ∀ hs, F hs → Agrees (Late deadline) (Mirrors t deadline hs) m₁ m₂ Q
      (Mirrors t deadline hs)) :
    Agrees (Late deadline) (Standing t deadline F) m₁ m₂ Q (Standing t deadline F) where
  late := hlate
  run s₁ s₂ hstanding := by
    rcases hstanding with ⟨hs, hF, hmirrors⟩
    refine ((h hs hF).run s₁ s₂ hmirrors).imp_right (fun halike => ?_)
    exact halike.mono (fun _ _ _ _ hQ => hQ) (fun _ _ hE => ⟨hs, hF, hE⟩)

/-- The handle of a root key denotes it without having been opened. -/
theorem lookUp_handle (root : RootKey) : lookUp root.handle = pure (OpenKey.ofRoot root) := by
  unfold lookUp
  rw [KeyHandle.root?_handle]

/-- A key is opened on both sides, under a pair of handles, or on neither. -/
theorem agrees_openKey (hroom : hs.Room) (root : RootKey) (subKey : String) (access : Access) :
    Agrees (Late deadline) (Mirrors t deadline hs) (openKey root.handle subKey access none)
      (openKey root.handle subKey access (some t))
      (fun a b => Standing t deadline (Handles.Pairs t access a b)) (Mirrors t deadline hs) := by
  unfold openKey
  rw [lookUp_handle, pure_bind, pure_bind]
  refine (agrees_target (OpenKey.ofRoot root) subKey).bind_eq ?_
  intro l
  refine agrees_view_bind (fun trees₁ trees₂ hsame => ?_)
  rw [Hives.contains_eq_of_timeless hsame]
  refine (agrees_require _ _).bind_unit ?_
  exact (agrees_requireAdmissible l access).bind_unit (agrees_addKey hroom l access)

/-- A missing key is created on both sides or on neither. -/
theorem agrees_createMissing (parent : OpenKey) (l : Location) :
    Agrees (Late deadline) (Mirrors t deadline hs) (createMissing parent l none)
      (createMissing parent l (some t)) (fun _ _ => Mirrors t deadline hs)
      (Mirrors t deadline hs) := by
  unfold createMissing
  refine (agrees_require _ _).bind_unit ?_
  exact (agrees_requireUnprotected l).bind_unit (agrees_mutate _)

/-- A key is created on both sides, or opened, or refused on both. -/
theorem agrees_createKey (hroom : hs.Room) (root : RootKey) (subKey : String)
    (access : Access) :
    Agrees (Late deadline) (Mirrors t deadline hs) (createKey root.handle subKey access none)
      (createKey root.handle subKey access (some t))
      (fun a b s₁ s₂ =>
        a.2 = b.2 ∧ Standing t deadline (Handles.Pairs t access a.1 b.1) s₁ s₂)
      (Mirrors t deadline hs) := by
  unfold createKey
  rw [lookUp_handle, pure_bind, pure_bind]
  refine (agrees_target (OpenKey.ofRoot root) subKey).bind_eq ?_
  intro l
  refine agrees_view_bind (fun trees₁ trees₂ hsame => ?_)
  rw [Hives.contains_eq_of_timeless hsame]
  -- The key is opened in the end, whether it was there or has been created for it.
  have hopen : ∀ disposition : Disposition, Agrees (Late deadline) (Mirrors t deadline hs)
      (do requireAdmissible l access
          let handle ← addKey ⟨l, access, none⟩
          return (handle, disposition))
      (do requireAdmissible l access
          let handle ← addKey ⟨l, access, some t⟩
          return (handle, disposition))
      (fun a b s₁ s₂ =>
        a.2 = b.2 ∧ Standing t deadline (Handles.Pairs t access a.1 b.1) s₁ s₂)
      (Mirrors t deadline hs) := by
    intro disposition
    refine (agrees_requireAdmissible l access).bind_unit ?_
    refine (agrees_addKey hroom l access).bind ?_
    exact fun a b => agrees_pure (fun _ _ h => ⟨rfl, h⟩)
  cases trees₂.contains l with
  | true => exact hopen .openedExisting
  | false => exact (agrees_createMissing _ l).bind_unit (hopen .createdNew)

/-- A key is deleted or renamed on both sides or on neither. -/
theorem agrees_changeKey (root : RootKey) (subKey : String) (mutation : Location → Mutation) :
    Agrees (Late deadline) (Mirrors t deadline hs)
      (changeKey root.handle subKey none mutation)
      (changeKey root.handle subKey (some t) mutation) (fun _ _ => Mirrors t deadline hs)
      (Mirrors t deadline hs) := by
  unfold changeKey
  rw [lookUp_handle, pure_bind, pure_bind]
  refine (agrees_target (OpenKey.ofRoot root) subKey).bind_eq ?_
  intro l
  refine (agrees_require _ _).bind_unit ?_
  exact (agrees_requireUnprotected l).bind_unit (agrees_mutate _)

/-! ## Calls through a pair of handles -/

/-- A pair of handles denotes one location, plainly and inside the transaction. -/
theorem Mirrors.opened_pair {access : Access} {a b : KeyHandle} {s₁ s₂ : Store}
    (h : Mirrors t deadline hs s₁ s₂) (hpairs : hs.Pairs t access a b) :
    ∃ l, s₁.opened a = some ⟨l, access, none⟩ ∧ s₂.opened b = some ⟨l, access, some t⟩ := by
  rcases hpairs.found with ⟨l, hplain, hinside⟩
  refine ⟨l, ?_, ?_⟩
  · rw [opened, hpairs.plain_free, h.plain_keys]
    exact hplain
  · rw [opened, hpairs.inside_free, h.inside_keys]
    exact hinside

/-- The rule for work on the key behind a pair of handles. -/
theorem agrees_through_pair {access : Access} {a b : KeyHandle} {f₁ f₂ : OpenKey → StoreM α}
    {Q : α → α → Store → Store → Prop} (hF : ∀ hs, F hs → hs.Pairs t access a b)
    (hlate : Keeps (Late deadline) (lookUp b >>= f₂))
    (hf : ∀ hs l, F hs → Agrees (Late deadline) (Mirrors t deadline hs) (f₁ ⟨l, access, none⟩)
      (f₂ ⟨l, access, some t⟩) Q (Mirrors t deadline hs)) :
    Agrees (Late deadline) (Standing t deadline F) (lookUp a >>= f₁) (lookUp b >>= f₂) Q
      (Standing t deadline F) where
  late := hlate
  run s₁ s₂ hstanding := by
    rcases hstanding with ⟨hs, hheld, hmirrors⟩
    rcases hmirrors.opened_pair (hF hs hheld) with ⟨l, hplain, hinside⟩
    unfold endState
    rw [bind_of_ok (lookUp_of_opened hplain), bind_of_ok (lookUp_of_opened hinside)]
    refine ((hf hs l hheld).run s₁ s₂ hmirrors).imp_right (fun halike => ?_)
    exact halike.mono (fun _ _ _ _ hQ => hQ) (fun _ _ hE => ⟨hs, hheld, hE⟩)

/-- What is read of a key does not depend on times: from keys that are the same up to times, answers
    come that are related by `A`, or the same error. -/
def SameRead (A : α → α → Prop) (read : Node → Except NativeError α) : Prop :=
  ∀ n₁ n₂ : Node, n₁.timeless = n₂.timeless →
    (∃ x y, read n₁ = .ok x ∧ read n₂ = .ok y ∧ A x y) ∨
      ∃ e, read n₁ = .error e ∧ read n₂ = .error e

/-- What is read without looking at any time is read alike. -/
theorem sameRead_of_timeless {read : Node → Except NativeError α}
    (h : ∀ n, read n.timeless = read n) : SameRead Eq read := by
  intro n₁ n₂ hsame
  rw [← h n₁, ← h n₂, hsame]
  cases read n₂.timeless with
  | ok x => exact Or.inl ⟨x, x, rfl, rfl, rfl⟩
  | error e => exact Or.inr ⟨e, rfl, rfl⟩

/-- What is read through a pair of handles is the same on both sides. -/
theorem agrees_withNode {access right : Access} {a b : KeyHandle} {A : α → α → Prop}
    {read : Node → Except NativeError α} {transaction : Option TransactionHandle}
    (hF : ∀ hs, F hs → hs.Pairs t access a b) (hread : SameRead A read)
    (htransaction : transaction.or (some t) = some t)
    (hlate : Keeps (Late deadline) (withNode b right transaction read)) :
    Agrees (Late deadline) (Standing t deadline F) (withNode a right none read)
      (withNode b right transaction read)
      (fun x y s₁ s₂ => A x y ∧ Standing t deadline F s₁ s₂) (Standing t deadline F) := by
  refine agrees_through_pair hF hlate ?_
  intro hs l hheld
  simp only [htransaction]
  refine (agrees_require _ _).bind_unit ?_
  refine agrees_view_bind (fun trees₁ trees₂ hsame => ?_)
  have hfound : (trees₁.find? l).map Node.timeless = (trees₂.find? l).map Node.timeless := by
    rw [← Hives.find?_timeless, hsame, Hives.find?_timeless]
  -- The key is there on both sides or on neither.
  cases h₁ : trees₁.find? l with
  | none =>
    rw [h₁] at hfound
    rw [Option.map_eq_none_iff.mp hfound.symm]
    exact agrees_throw (fun _ _ h => h)
  | some n₁ =>
    rw [h₁, Option.map_some] at hfound
    rcases Option.map_eq_some_iff.mp hfound.symm with ⟨n₂, h₂, hnode⟩
    rw [h₂]
    simp only []
    rcases hread n₁ n₂ hnode.symm with ⟨x, y, hx, hy, hA⟩ | ⟨e, he₁, he₂⟩
    · rw [hx, hy]
      exact agrees_pure (fun _ _ h => ⟨hA, hs, hheld, h⟩)
    · rw [he₁, he₂]
      exact agrees_throw (fun _ _ h => h)

/-- Through a pair of handles a value is changed on both sides or on neither. -/
theorem agrees_changeValue {access : Access} {a b : KeyHandle} {mutation : Location → Mutation}
    (hF : ∀ hs, F hs → hs.Pairs t access a b)
    (hlate : Keeps (Late deadline) (changeValue b (some t) mutation)) :
    Agrees (Late deadline) (Standing t deadline F) (changeValue a none mutation)
      (changeValue b (some t) mutation) (fun _ _ => Standing t deadline F)
      (Standing t deadline F) := by
  refine agrees_through_pair hF hlate ?_
  intro hs l hheld
  refine (agrees_require _ _).bind_unit ?_
  refine (agrees_requireUnprotected l).bind_unit ?_
  exact (agrees_mutate _).mono_ok (fun _ _ _ _ h => ⟨hs, hheld, h⟩)

/-- A handle that is in the table can be closed. -/
theorem closeKey_of_find? {key : KeyHandle} {s : Store} {k : OpenKey} (hfree : key.root? = none)
    (hfound : Table.find? s.keys key = some k) :
    closeKey key s = .ok () { s with keys := Table.erase s.keys key } := by
  have hends := closeKey_ends key s
  cases hrun : closeKey key s with
  | ok _ s' =>
    rcases hends.ok hrun with ⟨hpredefined, _⟩ | ⟨_, _, rfl⟩
    · exact absurd hpredefined (by rw [KeyHandle.isPredefined, hfree]; simp)
    · rfl
  | error e s' =>
    rcases hends.error hrun with ⟨_, hmissing, _⟩
    exact absurd hmissing (by rw [Table.contains, hfound]; simp)

/-- Both handles of a pair can be closed. -/
theorem agrees_closeKey {access : Access} {a b : KeyHandle} :
    Agrees (Late deadline) (Standing t deadline (Handles.Pairs t access a b)) (closeKey a)
      (closeKey b) (fun _ _ => Standing t deadline fun _ => True) (fun _ _ => False) where
  late := perform_keeps_late (.closeKey b) rfl
  run s₁ s₂ hstanding := by
    rcases hstanding with ⟨hs, hpairs, hmirrors⟩
    rcases hpairs.found with ⟨l, hplain, hinside⟩
    rw [← hmirrors.plain_keys] at hplain
    rw [← hmirrors.inside_keys] at hinside
    rw [closeKey_of_find? hpairs.plain_free hplain, closeKey_of_find? hpairs.inside_free hinside]
    refine Or.inr (.ok ?_)
    exact ⟨⟨hs.next, Table.erase s₁.keys a, Table.erase s₂.keys b⟩, trivial, rfl, rfl,
      hmirrors.plain_next, hmirrors.inside_next, hmirrors.protectedPlaces, hmirrors.record⟩

end Store

end TransactionalRegistry
