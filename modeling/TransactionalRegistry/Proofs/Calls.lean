import TransactionalRegistry.Proofs.Looking
import TransactionalRegistry.Store.Native

/-!
# What a call on a key does

A call on a key resolves its handle, looks at the trees of its transaction, and may then make one
change, or open or close a handle. Which transaction that is depends on the call and on the handle
alone: the one that the call names, or else the one that the handle is bound to.

`Store.perform_ends` says this for all calls on keys at once. A call that fails has only looked; a
call that succeeds has looked and then made the change that `Store.changeOf` reads off it, or none.

## Main definitions

* `Store.opened`: What an open handle denotes.
* `Call.key?`: The handle that a call on a key starts from.
* `Store.transactionOf`: The transaction that a call runs in.
* `Store.looks`: Whether a call gets as far as looking at the trees.
* `Store.lookedThrough`: The transaction that a call looks through.
* `Store.changeOf`: The change that a successful call has made.
* `Store.Observed`: A look after which its transaction has looked.
* `Store.SameTrees`: Two stores that differ in open handles and in the log at most.
* `Store.Performed`: What a successful call does to the trees.

## Theorems

* `Store.ends_require`, `Store.ends_requireUnprotected`, `Store.ends_requireAdmissible`,
  `Store.ends_lookUp`: The rules for what a call checks first.
* `Store.openKey_ends`, `Store.createKey_ends`, `Store.changeKey_ends`, `Store.withNode_ends`,
  `Store.changeValue_ends`, `Store.closeKey_ends`: The calls one by one.
* `Store.perform_ends`: All calls on keys.
* `Store.looks_of_ok`, `Store.looks_of_changeOf`: A call that succeeds has looked.
-/

namespace TransactionalRegistry

/-- The handle that a call on a key starts from. -/
def Call.key? : Call → Option KeyHandle
  | openKey parent _ _ _ => some parent
  | createKey parent _ _ _ => some parent
  | deleteKey parent _ _ => some parent
  | renameKey parent _ _ _ => some parent
  | closeKey key => some key
  | queryInfo key => some key
  | enumKey key _ => some key
  | enumValue key _ => some key
  | getValue key _ _ => some key
  | setValue key _ _ _ => some key
  | deleteValue key _ _ => some key
  | _ => none

namespace Store

/-- What an open handle denotes. -/
def opened (s : Store) (key : KeyHandle) : Option OpenKey :=
  match key.root? with
  | some root => some (OpenKey.ofRoot root)
  | none => Table.find? s.keys key

/-- The transaction that a call runs in: the one that it names, or else the one that its handle is
    bound to. -/
def transactionOf (s : Store) (call : Call) : Option TransactionHandle :=
  call.transaction?.or ((call.key?.bind s.opened).bind (·.transaction))

/-- The transaction of a call that starts from an open handle. -/
theorem transactionOf_eq {s : Store} {call : Call} {key : KeyHandle} {k : OpenKey}
    (hkey : call.key? = some key) (hk : s.opened key = some k) :
    s.transactionOf call = call.transaction?.or k.transaction := by
  simp only [transactionOf, hkey, Option.bind_some, hk]

/-- Whether a handle is open and grants some rights. -/
def grants (s : Store) (key : KeyHandle) (access : Access) : Bool :=
  (s.opened key).any (·.access.contains access)

/-- Whether the values behind a handle may be written to. -/
def writable (s : Store) (key : KeyHandle) : Bool :=
  (s.opened key).any fun openKey =>
    openKey.access.contains .setValue && !s.isProtected openKey.location

/-- Whether a call gets as far as looking at the trees. -/
def looks (s : Store) : Call → Bool
  | .openKey parent _ _ _ => (s.opened parent).isSome
  | .createKey parent _ _ _ => (s.opened parent).isSome
  | .deleteKey parent _ _ => (s.opened parent).isSome
  | .renameKey parent _ _ _ => (s.opened parent).isSome
  | .queryInfo key => s.grants key .queryValue
  | .enumKey key _ => s.grants key .enumerateSubKeys
  | .enumValue key _ => s.grants key .queryValue
  | .getValue key _ _ => s.grants key .queryValue
  | .setValue key _ _ _ => s.writable key
  | .deleteValue key _ _ => s.writable key
  | _ => false

/-- The transaction that a call looks through, if it looks at the trees of a transaction. -/
def lookedThrough (s : Store) (call : Call) : Option TransactionHandle :=
  if s.looks call then s.transactionOf call else none

/-- The change that a successful call has made to the trees that it looked at. -/
def changeOf (s : Store) : (call : Call) → call.Answer → Option Mutation
  | .createKey parent subKey _ _, answer =>
    if answer.2 = .createdNew then
      (s.opened parent).map fun p => .createKey (p.location.below subKey)
    else none
  | .deleteKey parent subKey _, _ =>
    (s.opened parent).map fun p => .deleteKey (p.location.below subKey)
  | .renameKey parent subKey newName _, _ =>
    (s.opened parent).map fun p => .renameKey (p.location.below subKey) newName
  | .setValue key name data _, _ => (s.opened key).map fun k => .setValue k.location name data
  | .deleteValue key name _, _ => (s.opened key).map fun k => .deleteValue k.location name
  | _, _ => none

/-! ## Looks that have seen -/

/-- A look after which its transaction has looked: it is seen through, or it has ended. -/
def Observed (transaction : Option TransactionHandle) (s s' : Store) : Prop :=
  Looked transaction s s' ∧ (s'.Blind transaction ∨ ∃ h, s'.Sees transaction h)

/-- A transaction that has ended is not brought back by a look. -/
theorem Looked.blind {transaction : Option TransactionHandle} {s s' : Store}
    (hlook : Looked transaction s s') (hblind : s.Blind transaction) : s'.Blind transaction := by
  cases transaction with
  | none => exact hblind
  | some t =>
    intro r' hr'
    rcases hlook.origin hr' with ⟨r, hr, hrecord⟩
    cases hrecord with
    | same => exact hblind _ hr
    | expired _ hactive => exact absurd hactive (hblind r hr)
    | copied hactive => exact absurd hactive (hblind r hr)

/-- Looks that follow one that has seen find that it has seen. -/
theorem Observed.trans {transaction : Option TransactionHandle} {s s' s'' : Store}
    (h : Observed transaction s s') (h' : Looked transaction s' s'') :
    Observed transaction s s'' := by
  refine ⟨h.1.trans h', ?_⟩
  rcases h.2 with hblind | ⟨trees, hsees⟩
  · exact Or.inl (h'.blind hblind)
  · rcases h'.sees hsees with hsees' | hblind'
    · exact Or.inr ⟨trees, hsees'⟩
    · exact Or.inl hblind'

/-- A look that has seen may be preceded by any others. -/
theorem Looked.observed {transaction : Option TransactionHandle} {s s' s'' : Store}
    (h : Looked transaction s s') (h' : Observed transaction s' s'') :
    Observed transaction s s'' :=
  ⟨h.trans h'.1, h'.2⟩

/-- A look at the live trees has seen them. -/
theorem Looked.observed_live {s s' : Store} (h : Looked none s s') : Observed none s s' :=
  ⟨h, Or.inr ⟨s'.hives, rfl⟩⟩

/-- A look has seen, even where it fails: it does so only where nothing is to be seen. -/
theorem view_observes (transaction : Option TransactionHandle) (s : Store) :
    Ends (view transaction) s
      (fun h s' => Observed transaction s s' ∧ s'.Sees transaction h)
      (fun _ s' => Observed transaction s s') :=
  (view_ends transaction s).mono (fun h _ hview => ⟨⟨hview.1, Or.inr ⟨h, hview.2⟩⟩, hview.2⟩)
    (fun _ _ hview => ⟨hview.1, Or.inl hview.2.1⟩)

/-- A change looks first, so it has looked even if it does not apply. -/
theorem mutate_observes (transaction : Option TransactionHandle) (m : Mutation) (s : Store) :
    Ends (mutate transaction m) s
      (fun _ s' => ∃ s₁, Observed transaction s s₁ ∧ Changed transaction m s₁ s')
      (fun _ s' => Observed transaction s s') := by
  refine (mutate_ends transaction m s).mono ?_ ?_
  · intro _ s' hstep
    rcases hstep with ⟨s₁, hlook, h, changed, hsees, happly, rfl⟩
    exact ⟨s₁, ⟨hlook, Or.inr ⟨h, hsees⟩⟩, h, changed, hsees, happly, rfl⟩
  · intro e s' hstep
    -- If the change has failed, then because nothing was to be seen or because it did not apply to
    -- it.
    rcases hstep with ⟨hlook, ⟨hblind, _⟩ | ⟨h, hsees, _⟩⟩
    · exact ⟨hlook, Or.inl hblind⟩
    · exact ⟨hlook, Or.inr ⟨h, hsees⟩⟩

/-! ## The checks of a call -/

section

variable {α : Type} {s : Store} {Q : α → Store → Prop} {E : NativeError → Store → Prop}

/-- The rule for a check followed by the rest. -/
theorem ends_require {condition : Bool} {error : NativeError} {f : Unit → StoreM α}
    (hpass : condition = true → Ends (f ()) s Q E) (hfail : condition = false → E error s) :
    Ends (require condition error >>= f) s Q E := by
  unfold require
  cases condition with
  | true => exact ends_bind (ends_pure (hpass rfl))
  | false => exact ends_bind (ends_throw (hfail rfl))

/-- The rule for the check that a location is not protected, followed by the rest. -/
theorem ends_requireUnprotected {l : Location} {f : Unit → StoreM α}
    (hpass : s.isProtected l = false → Ends (f ()) s Q E)
    (hfail : s.isProtected l = true → E .accessDenied s) :
    Ends (requireUnprotected l >>= f) s Q E := by
  unfold requireUnprotected
  rw [bind_assoc]
  refine ends_bind (ends_get (ends_require ?_ ?_))
  · exact fun h => hpass (by simpa using h)
  · exact fun h => hfail (by simpa using h)

/-- The rule for the check that a location may be opened with the rights asked for, followed by the
    rest. -/
theorem ends_requireAdmissible {l : Location} {access : Access} {f : Unit → StoreM α}
    (hpass : (access.isModifying && s.isProtected l) = false → Ends (f ()) s Q E)
    (hfail : (access.isModifying && s.isProtected l) = true → E .accessDenied s) :
    Ends (requireAdmissible l access >>= f) s Q E := by
  unfold requireAdmissible
  rw [bind_assoc]
  refine ends_bind (ends_get (ends_require ?_ ?_))
  · exact fun h => hpass (by simpa only [Bool.not_eq_true'] using h)
  · exact fun h => hfail (by simpa only [Bool.not_eq_false'] using h)

theorem lookUp_of_opened {key : KeyHandle} {k : OpenKey} (h : s.opened key = some k) :
    lookUp key s = .ok k s := by
  unfold opened at h
  unfold lookUp
  cases hroot : key.root? with
  | some root =>
    rw [hroot] at h
    exact congrArg (EStateM.Result.ok · s) (Option.some.inj h)
  | none =>
    rw [hroot] at h
    have hfound : Table.find? s.keys key = some k := h
    exact (bind_of_ok rfl).trans (by rw [hfound]; rfl)

theorem lookUp_of_not_opened {key : KeyHandle} (h : s.opened key = none) :
    lookUp key s = .error .invalidHandle s := by
  unfold opened at h
  unfold lookUp
  cases hroot : key.root? with
  | some root =>
    rw [hroot] at h
    exact absurd h (by simp)
  | none =>
    rw [hroot] at h
    have hmissing : Table.find? s.keys key = none := h
    exact (bind_of_ok rfl).trans (by rw [hmissing]; rfl)

/-- The rule for finding what a handle denotes, followed by the rest. -/
theorem ends_lookUp {key : KeyHandle} {f : OpenKey → StoreM α}
    (hfound : ∀ k, s.opened key = some k → Ends (f k) s Q E)
    (hmissing : s.opened key = none → E .invalidHandle s) : Ends (lookUp key >>= f) s Q E := by
  unfold Ends
  cases hkey : s.opened key with
  | some k =>
    rw [bind_of_ok (lookUp_of_opened hkey)]
    exact hfound k hkey
  | none =>
    rw [bind_of_error (lookUp_of_not_opened hkey)]
    exact hmissing hkey

end

/-- Finding the place that a call means is a look, for the key that it goes from must still be
    there. -/
theorem target_ends (parent : OpenKey) (subKey : String)
    (transaction : Option TransactionHandle) (s : Store) :
    Ends (target parent subKey transaction) s
      (fun l s' => l = parent.location.below subKey ∧ Observed transaction s s')
      (fun _ s' => Observed transaction s s') := by
  unfold target
  refine (view_observes transaction s).bind ?_ (fun _ _ h => h)
  intro trees s' h
  exact ends_require (fun _ => ends_pure ⟨rfl, h.1⟩) (fun _ => h.1)

/-! ## Opening and closing -/

/-- Two stores that differ in open key handles and in the log at most; one handle may have been
    drawn. -/
structure SameTrees (s s' : Store) : Prop where
  hives : s'.hives = s.hives
  transactions : s'.transactions = s.transactions
  protectedPlaces : s'.protectedPlaces = s.protectedPlaces
  clock : s'.clock = s.clock
  nextHandle : s'.nextHandle = s.nextHandle ∨ s'.nextHandle = s.nextHandle + handleStep

theorem SameTrees.refl (s : Store) : SameTrees s s :=
  ⟨rfl, rfl, rfl, rfl, Or.inl rfl⟩

/-- The store with an open key under the next handle. -/
def withKey (s : Store) (openKey : OpenKey) : Store :=
  { s with
    keys := Table.insert s.keys ⟨s.nextHandle⟩ openKey
    nextHandle := s.nextHandle + handleStep }

/-- Opening a key under the next handle leaves the trees alone. -/
theorem sameTrees_withKey (s : Store) (openKey : OpenKey) : SameTrees s (s.withKey openKey) :=
  ⟨rfl, rfl, rfl, rfl, Or.inr rfl⟩

/-- A key is opened after a look, in the transaction of the call. -/
theorem openKey_ends (parent : KeyHandle) (subKey : String) (access : Access)
    (transaction : Option TransactionHandle) (s : Store) :
    Ends (openKey parent subKey access transaction) s
      (fun key s' => ∃ p s₁, s.opened parent = some p ∧
        Observed (transaction.or p.transaction) s s₁ ∧ key = ⟨s₁.nextHandle⟩ ∧
        s' = s₁.withKey
          ⟨p.location.below subKey, access, transaction.or p.transaction⟩)
      (fun _ s' => s.opened parent = none ∧ s' = s ∨
        ∃ p, s.opened parent = some p ∧ Observed (transaction.or p.transaction) s s') := by
  unfold openKey
  refine ends_lookUp (fun p hp => ?_) (fun hnone => Or.inl ⟨hnone, rfl⟩)
  refine (target_ends p subKey _ s).bind ?_ (fun _ _ h => Or.inr ⟨p, hp, h⟩)
  intro l s₁ htarget
  rcases htarget with ⟨rfl, hobs⟩
  refine (view_observes _ s₁).bind ?_ (fun _ _ h => Or.inr ⟨p, hp, hobs.1.observed h⟩)
  intro trees s₂ hview
  -- Whatever is refused from here on is refused after the last look.
  have hlast := hobs.1.observed hview.1
  refine ends_require (fun _ => ?_) (fun _ => Or.inr ⟨p, hp, hlast⟩)
  refine ends_requireAdmissible (fun _ => ?_) (fun _ => Or.inr ⟨p, hp, hlast⟩)
  exact ⟨p, s₂, hp, hlast, rfl, rfl⟩

/-- A missing key is created below a place that is not protected. -/
theorem createMissing_ends (parent : OpenKey) (l : Location)
    (transaction : Option TransactionHandle) (s : Store) :
    Ends (createMissing parent l transaction) s
      (fun _ s' => s.isProtected l = false ∧
        ∃ s₁, (Looked transaction s s₁ ∧ ∃ h, s₁.Sees transaction h) ∧
          Changed transaction (.createKey l) s₁ s')
      (fun _ s' => s' = s ∨ Observed transaction s s') := by
  unfold createMissing
  refine ends_require (fun _ => ?_) (fun _ => Or.inl rfl)
  refine ends_requireUnprotected (fun hunprotected => ?_) (fun _ => Or.inl rfl)
  refine (mutate_observes transaction _ s).mono ?_ (fun _ _ h => Or.inr h)
  intro _ s' hmutated
  rcases hmutated with ⟨s₁, hobs, h, changed, hsees, hrest⟩
  exact ⟨hunprotected, s₁, ⟨hobs.1, h, hsees⟩, h, changed, hsees, hrest⟩

/-- A key is opened after a look, and created before that if it was missing. It is never created by
    a call that fails: what could still refuse to open it has been checked before. -/
theorem createKey_ends (parent : KeyHandle) (subKey : String) (access : Access)
    (transaction : Option TransactionHandle) (s : Store) :
    Ends (createKey parent subKey access transaction) s
      (fun answer s' => ∃ p s₁ s₂, s.opened parent = some p ∧
        Observed (transaction.or p.transaction) s s₁ ∧
        (answer.2 = .openedExisting ∧ s₂ = s₁ ∨ answer.2 = .createdNew ∧
          Changed (transaction.or p.transaction) (.createKey (p.location.below subKey)) s₁ s₂) ∧
        answer.1 = ⟨s₂.nextHandle⟩ ∧
        s' = s₂.withKey
          ⟨p.location.below subKey, access, transaction.or p.transaction⟩)
      (fun _ s' => s.opened parent = none ∧ s' = s ∨
        ∃ p, s.opened parent = some p ∧ Observed (transaction.or p.transaction) s s') := by
  unfold createKey
  refine ends_lookUp (fun p hp => ?_) (fun hnone => Or.inl ⟨hnone, rfl⟩)
  refine (target_ends p subKey _ s).bind ?_ (fun _ _ h => Or.inr ⟨p, hp, h⟩)
  intro l s₁ htarget
  rcases htarget with ⟨rfl, hobs⟩
  refine (view_observes _ s₁).bind ?_ (fun _ _ h => Or.inr ⟨p, hp, hobs.1.observed h⟩)
  intro trees s₂ hview
  have hlast := hobs.1.observed hview.1
  -- A key that is there is opened; one that is missing is created first.
  cases hpresent : trees.contains (p.location.below subKey) with
  | true =>
    simp only [Bool.not_true, Bool.false_eq_true, if_false]
    refine ends_requireAdmissible (fun _ => ?_) (fun _ => Or.inr ⟨p, hp, hlast⟩)
    exact ⟨p, s₂, s₂, hp, hlast, Or.inl ⟨rfl, rfl⟩, rfl, rfl⟩
  | false =>
    simp only [Bool.not_false, if_true]
    refine (createMissing_ends p _ _ s₂).bind ?_ ?_
    · intro _ s₄ hcreated
      rcases hcreated with ⟨hunprotected, s₃, ⟨hlook, _⟩, hchanged⟩
      have hobs₃ : Observed _ s s₃ := hlast.trans hlook
      refine ends_requireAdmissible (fun _ => ?_) (fun hblocked => ?_)
      · exact ⟨p, s₃, s₄, hp, hobs₃, Or.inr ⟨rfl, hchanged⟩, rfl, rfl⟩
      · -- The place was not protected when the key was created, and still is not.
        have hstill : s₄.isProtected (p.location.below subKey) = false := by
          rw [isProtected, hchanged.frame.protectedPlaces, ← isProtected, hlook.isProtected]
          exact hunprotected
        rw [hstill, Bool.and_false] at hblocked
        exact absurd hblocked (by simp)
    · intro e s' hrefused
      rcases hrefused with rfl | hobs'
      · exact Or.inr ⟨p, hp, hlast⟩
      · exact Or.inr ⟨p, hp, hlast.1.observed hobs'⟩

/-- A key is deleted or renamed after a look. -/
theorem changeKey_ends (parent : KeyHandle) (subKey : String)
    (transaction : Option TransactionHandle) (mutation : Location → Mutation) (s : Store) :
    Ends (changeKey parent subKey transaction mutation) s
      (fun _ s' => ∃ p s₁, s.opened parent = some p ∧
        Observed (transaction.or p.transaction) s s₁ ∧
        Changed (transaction.or p.transaction) (mutation (p.location.below subKey)) s₁ s')
      (fun _ s' => s.opened parent = none ∧ s' = s ∨
        ∃ p, s.opened parent = some p ∧ Observed (transaction.or p.transaction) s s') := by
  unfold changeKey
  refine ends_lookUp (fun p hp => ?_) (fun hnone => Or.inl ⟨hnone, rfl⟩)
  refine (target_ends p subKey _ s).bind ?_ (fun _ _ h => Or.inr ⟨p, hp, h⟩)
  intro l s₁ htarget
  rcases htarget with ⟨rfl, hobs⟩
  -- The checks that follow touch nothing, so a refusal by them leaves the state of the look behind.
  refine ends_require (fun _ => ?_) (fun _ => Or.inr ⟨p, hp, hobs⟩)
  refine ends_requireUnprotected (fun _ => ?_) (fun _ => Or.inr ⟨p, hp, hobs⟩)
  refine (mutate_observes _ _ s₁).mono ?_ (fun _ _ h => Or.inr ⟨p, hp, hobs.trans h.1⟩)
  intro _ s' hmutated
  rcases hmutated with ⟨s₂, hobs₂, hchanged⟩
  exact ⟨p, s₂, hp, hobs.trans hobs₂.1, hchanged⟩

/-- Closing a handle changes nothing but the table of open handles. -/
theorem closeKey_ends (key : KeyHandle) (s : Store) :
    Ends (closeKey key) s
      (fun _ s' => key.isPredefined = true ∧ s' = s ∨
        key.isPredefined = false ∧ Table.contains s.keys key = true ∧
          s' = { s with keys := Table.erase s.keys key })
      (fun e s' => key.isPredefined = false ∧ Table.contains s.keys key = false ∧ s' = s ∧
        e = .invalidHandle) := by
  unfold closeKey
  by_cases hpredefined : key.isPredefined = true
  · rw [if_pos hpredefined]
    exact ends_pure (Or.inl ⟨hpredefined, rfl⟩)
  · rw [if_neg hpredefined]
    have hfalse : key.isPredefined = false := by simpa using hpredefined
    refine ends_bind (ends_get (ends_require ?_ ?_))
    · exact fun hcontains => ends_modify (Or.inr ⟨hfalse, hcontains, rfl⟩)
    · exact fun hmissing => ⟨hfalse, hmissing, rfl, rfl⟩

/-! ## Reading and writing -/

/-- Reading through a handle that grants it is a look; any other handle is refused before. -/
theorem withNode_ends {α : Type} (key : KeyHandle) (access : Access)
    (transaction : Option TransactionHandle) (read : Node → Except NativeError α) (s : Store) :
    Ends (withNode key access transaction read) s
      (fun _ s' => ∃ k, s.opened key = some k ∧ k.access.contains access = true ∧
        Observed (transaction.or k.transaction) s s')
      (fun _ s' => s.grants key access = false ∧ s' = s ∨
        ∃ k, s.opened key = some k ∧ k.access.contains access = true ∧
          Observed (transaction.or k.transaction) s s') := by
  unfold withNode
  refine ends_lookUp (fun k hk => ?_) (fun hnone => Or.inl ⟨by rw [grants, hnone]; rfl, rfl⟩)
  -- The rights are checked before anything is looked at: a refusal leaves the store untouched.
  have hgrants : s.grants key access = k.access.contains access := by
    rw [grants, hk]
    rfl
  refine ends_require (fun haccess => ?_) (fun hrefused => Or.inl ⟨hgrants.trans hrefused, rfl⟩)
  refine (view_observes _ s).bind ?_ (fun _ _ h => Or.inr ⟨k, hk, haccess, h⟩)
  intro trees s' hview
  -- What is read, and whether it can be, makes no difference to the store.
  have hend : ∃ k, s.opened key = some k ∧ k.access.contains access = true ∧
      Observed (transaction.or k.transaction) s s' := ⟨k, hk, haccess, hview.1⟩
  cases trees.find? k.location with
  | none => exact ends_throw (Or.inr hend)
  | some n =>
    simp only []
    cases read n with
    | ok a => exact ends_pure hend
    | error e => exact ends_throw (Or.inr hend)

/-- Writing through a handle that allows it is a look and a change; any other handle is refused
    before. -/
theorem changeValue_ends (key : KeyHandle) (transaction : Option TransactionHandle)
    (mutation : Location → Mutation) (s : Store) :
    Ends (changeValue key transaction mutation) s
      (fun _ s' => ∃ k s₁, s.opened key = some k ∧ s.writable key = true ∧
        Observed (transaction.or k.transaction) s s₁ ∧
        Changed (transaction.or k.transaction) (mutation k.location) s₁ s')
      (fun _ s' => s.writable key = false ∧ s' = s ∨
        ∃ k, s.opened key = some k ∧ s.writable key = true ∧
          Observed (transaction.or k.transaction) s s') := by
  unfold changeValue
  refine ends_lookUp (fun k hk => ?_) (fun hnone => Or.inl ⟨by rw [writable, hnone]; rfl, rfl⟩)
  have hwritable : s.writable key
      = (k.access.contains .setValue && !s.isProtected k.location) := by
    rw [writable, hk]
    rfl
  refine ends_require (fun haccess => ?_) (fun hrefused => ?_)
  · refine ends_requireUnprotected (fun hunprotected => ?_) (fun hprotected => ?_)
    · -- Both checks were passed, so the handle is one that may be written through.
      rw [haccess, hunprotected] at hwritable
      refine (mutate_observes _ _ s).mono ?_ (fun _ _ h => Or.inr ⟨k, hk, hwritable, h⟩)
      intro _ s' hmutated
      rcases hmutated with ⟨s₁, hobs, hchanged⟩
      exact ⟨k, s₁, hk, hwritable, hobs, hchanged⟩
    · rw [haccess, hprotected] at hwritable
      exact Or.inl ⟨hwritable, rfl⟩
  · rw [hrefused, Bool.false_and] at hwritable
    exact Or.inl ⟨hwritable, rfl⟩

/-! ## All calls on keys -/

/-- What a successful call does to the trees: it looks, makes at most one change, and may open or
    close a handle. -/
def Performed (transaction : Option TransactionHandle) (change : Option Mutation)
    (s s' : Store) : Prop :=
  ∃ s₁ s₂, Observed transaction s s₁ ∧
    (change = none ∧ s₂ = s₁ ∨ ∃ m, change = some m ∧ Changed transaction m s₁ s₂) ∧
    SameTrees s₂ s'

theorem Observed.performed {transaction : Option TransactionHandle} {s s' : Store}
    (h : Observed transaction s s') : Performed transaction none s s' :=
  ⟨s', s', h, Or.inl ⟨rfl, rfl⟩, .refl s'⟩

/-- A call that gets as far as looking looks through its transaction. -/
theorem lookedThrough_eq {s : Store} {call : Call} {key : KeyHandle} {k : OpenKey}
    (hlooks : s.looks call = true) (hkey : call.key? = some key) (hk : s.opened key = some k) :
    s.lookedThrough call = call.transaction?.or k.transaction := by
  simp only [lookedThrough, hlooks, if_true, transactionOf, hkey, Option.bind_some, hk]

theorem lookedThrough_of_not_looks {s : Store} {call : Call} (h : s.looks call = false) :
    s.lookedThrough call = none := by
  simp only [lookedThrough, h, Bool.false_eq_true, if_false]

/-- A call that does not get as far as looking leaves the trees alone. -/
theorem observed_of_not_looks {s : Store} {call : Call} (h : s.looks call = false) :
    Observed (s.lookedThrough call) s s := by
  rw [lookedThrough_of_not_looks h]
  exact (Looked.refl none s).observed_live

/-- A call by path that fails has only looked. -/
theorem observed_of_refused_path {s s' : Store} (call : Call) {key : KeyHandle}
    (hkey : call.key? = some key) (hlooks : s.looks call = (s.opened key).isSome)
    (h : s.opened key = none ∧ s' = s ∨
      ∃ p, s.opened key = some p ∧ Observed (call.transaction?.or p.transaction) s s') :
    Observed (s.lookedThrough call) s s' := by
  rcases h with ⟨hnone, rfl⟩ | ⟨p, hp, hobs⟩
  · exact observed_of_not_looks (by rw [hlooks, hnone]; rfl)
  · rw [lookedThrough_eq (by rw [hlooks, hp]; rfl) hkey hp]
    exact hobs

/-- A call that reads has only looked, whichever way it ends. -/
theorem withNode_observes {α : Type} {s : Store} (call : Call) {key : KeyHandle}
    {access : Access} {transaction : Option TransactionHandle} (hkey : call.key? = some key)
    (hlooks : s.looks call = s.grants key access) (htransaction : call.transaction? = transaction)
    (read : Node → Except NativeError α) :
    Ends (withNode key access transaction read) s
      (fun _ s' => Performed (s.lookedThrough call) none s s')
      (fun _ s' => Observed (s.lookedThrough call) s s') := by
  subst htransaction
  have hgranted : ∀ k, s.opened key = some k → k.access.contains access = true →
      s.looks call = true := by
    -- What the handle grants decides whether the call gets as far as looking.
    intro k hk haccess
    rw [hlooks, grants, hk]
    exact haccess
  refine (withNode_ends key access _ read s).mono ?_ ?_
  · intro _ s' hstep
    rcases hstep with ⟨k, hk, haccess, hobs⟩
    rw [lookedThrough_eq (hgranted k hk haccess) hkey hk]
    exact hobs.performed
  · intro _ s' hstep
    rcases hstep with ⟨hrefused, rfl⟩ | ⟨k, hk, haccess, hobs⟩
    · exact observed_of_not_looks (hlooks.trans hrefused)
    · rw [lookedThrough_eq (hgranted k hk haccess) hkey hk]
      exact hobs

/-- A call that deletes or renames a key has looked, and made its change if it succeeds. -/
theorem changeKey_performs {s : Store} (call : Call) {parent : KeyHandle} {subKey : String}
    {transaction : Option TransactionHandle} {mutation : Location → Mutation}
    (hkey : call.key? = some parent) (hlooks : s.looks call = (s.opened parent).isSome)
    (htransaction : call.transaction? = transaction) :
    Ends (changeKey parent subKey transaction mutation) s
      (fun _ s' => Performed (s.lookedThrough call)
        ((s.opened parent).map fun p => mutation (p.location.below subKey)) s s')
      (fun _ s' => Observed (s.lookedThrough call) s s') := by
  subst htransaction
  refine (changeKey_ends parent subKey _ mutation s).mono ?_ ?_
  · -- The change is the one that is read off the call, for the place that its handle denotes.
    intro _ s' hstep
    rcases hstep with ⟨p, s₁, hp, hobs, hchanged⟩
    rw [lookedThrough_eq (by rw [hlooks, hp]; rfl) hkey hp, hp]
    exact ⟨s₁, s', hobs, Or.inr ⟨_, rfl, hchanged⟩, .refl s'⟩
  · exact fun _ _ h => observed_of_refused_path call hkey hlooks h

/-- A call that writes or deletes a value has looked, and made its change if it succeeds. -/
theorem changeValue_performs {s : Store} (call : Call) {key : KeyHandle}
    {transaction : Option TransactionHandle} {mutation : Location → Mutation}
    (hkey : call.key? = some key) (hlooks : s.looks call = s.writable key)
    (htransaction : call.transaction? = transaction) :
    Ends (changeValue key transaction mutation) s
      (fun _ s' => Performed (s.lookedThrough call)
        ((s.opened key).map fun k => mutation k.location) s s')
      (fun _ s' => Observed (s.lookedThrough call) s s') := by
  subst htransaction
  refine (changeValue_ends key _ mutation s).mono ?_ ?_
  · intro _ s' hstep
    rcases hstep with ⟨k, s₁, hk, hwritable, hobs, hchanged⟩
    rw [lookedThrough_eq (hlooks.trans hwritable) hkey hk, hk]
    exact ⟨s₁, s', hobs, Or.inr ⟨_, rfl, hchanged⟩, .refl s'⟩
  · intro _ s' hstep
    rcases hstep with ⟨hrefused, rfl⟩ | ⟨k, hk, hwritable, hobs⟩
    · exact observed_of_not_looks (hlooks.trans hrefused)
    · rw [lookedThrough_eq (hlooks.trans hwritable) hkey hk]
      exact hobs

/-- A call on a key that fails has only looked; one that succeeds has looked and made the change
    that is read off it. -/
theorem perform_ends (call : Call) (hkey : call.key?.isSome) (s : Store) :
    Ends (perform call) s
      (fun answer s' => Performed (s.lookedThrough call) (s.changeOf call answer) s s')
      (fun _ s' => Observed (s.lookedThrough call) s s') := by
  cases call with
  | openKey parent subKey access transaction =>
    unfold perform
    refine ends_bind (ends_modify ?_)
    -- Logging the call changes nothing that the call goes by.
    refine (openKey_ends parent subKey access transaction _).mono ?_ ?_
    · intro key s' hstep
      rcases hstep with ⟨p, s₁, hp, hobs, rfl, rfl⟩
      have hp' : s.opened parent = some p := hp
      rw [lookedThrough_eq (by simp only [looks, hp', Option.isSome_some]) rfl hp']
      exact ⟨s₁, s₁, (looked_note _ s _).observed hobs, Or.inl ⟨rfl, rfl⟩, sameTrees_withKey _ _⟩
    · intro e s' h
      have hobs := observed_of_refused_path (.openKey parent subKey access transaction) rfl rfl h
      exact (looked_note _ s _).observed hobs
  | createKey parent subKey access transaction =>
    unfold perform
    refine ends_bind (ends_modify ?_)
    refine (createKey_ends parent subKey access transaction _).mono ?_ ?_
    · intro answer s' hstep
      rcases answer with ⟨key, disposition⟩
      rcases hstep with ⟨p, s₁, s₂, hp, hobs, hchange, rfl, rfl⟩
      have hp' : s.opened parent = some p := hp
      rw [lookedThrough_eq (by simp only [looks, hp', Option.isSome_some]) rfl hp']
      refine ⟨s₁, s₂, (looked_note _ s _).observed hobs, ?_, sameTrees_withKey _ _⟩
      -- The disposition tells whether a change was made.
      rcases hchange with ⟨hdisposition, rfl⟩ | ⟨hdisposition, hchanged⟩
      · left
        have hopened : disposition = .openedExisting := hdisposition
        subst hopened
        exact ⟨rfl, rfl⟩
      · right
        have hcreated : disposition = .createdNew := hdisposition
        subst hcreated
        refine ⟨_, ?_, hchanged⟩
        simp only [changeOf, if_true, hp', Option.map_some]
    · intro e s' h
      have hobs := observed_of_refused_path (.createKey parent subKey access transaction) rfl rfl h
      exact (looked_note _ s _).observed hobs
  | deleteKey parent subKey transaction =>
    unfold perform deleteKey
    exact changeKey_performs (.deleteKey parent subKey transaction) rfl rfl rfl
  | renameKey parent subKey newName transaction =>
    unfold perform renameKey
    exact changeKey_performs (.renameKey parent subKey newName transaction) rfl rfl rfl
  | closeKey key =>
    unfold perform
    -- Closing a handle is the one call on a key that looks at no trees.
    have hidle : Observed (s.lookedThrough (.closeKey key)) s s := observed_of_not_looks rfl
    refine (closeKey_ends key s).mono ?_ ?_
    · intro _ s' hstep
      rcases hstep with ⟨_, rfl⟩ | ⟨_, _, rfl⟩
      · exact hidle.performed
      · exact ⟨s, s, hidle, Or.inl ⟨rfl, rfl⟩, ⟨rfl, rfl, rfl, rfl, Or.inl rfl⟩⟩
    · intro e s' hstep
      rcases hstep with ⟨_, _, rfl, _⟩
      exact hidle
  | queryInfo key =>
    unfold perform queryInfo
    exact withNode_observes (.queryInfo key) rfl rfl rfl _
  | enumKey key index =>
    unfold perform enumKey
    exact withNode_observes (.enumKey key index) rfl rfl rfl _
  | enumValue key index =>
    unfold perform enumValue
    exact withNode_observes (.enumValue key index) rfl rfl rfl _
  | getValue key name transaction =>
    unfold perform getValue
    exact withNode_observes (.getValue key name transaction) rfl rfl rfl _
  | setValue key name data transaction =>
    unfold perform setValue
    exact changeValue_performs (.setValue key name data transaction) rfl rfl rfl
  | deleteValue key name transaction =>
    unfold perform deleteValue
    exact changeValue_performs (.deleteValue key name transaction) rfl rfl rfl
  | createTransaction => exact absurd hkey (by simp [Call.key?])
  | transactionOutcome => exact absurd hkey (by simp [Call.key?])
  | commitTransaction => exact absurd hkey (by simp [Call.key?])
  | rollbackTransaction => exact absurd hkey (by simp [Call.key?])
  | closeTransaction => exact absurd hkey (by simp [Call.key?])

/-- A call on a key that succeeds has looked at the trees, unless it was one to close a key. -/
theorem looks_of_ok {call : Call} (hkey : call.key?.isSome) (hopen : ∀ key, call ≠ .closeKey key)
    (s : Store) :
    Ends (perform call) s (fun _ _ => s.looks call = true) (fun _ _ => True) := by
  -- A call by path looks if the handle that it goes from is open, and a call through a handle if
  -- the handle grants what the call needs.
  have hparent : ∀ {key : KeyHandle} {p : OpenKey}, s.opened key = some p →
      (s.opened key).isSome = true := fun hp => by rw [hp]; rfl
  have hgrants : ∀ {key : KeyHandle} {access : Access} {k : OpenKey}, s.opened key = some k →
      k.access.contains access = true → s.grants key access = true := by
    intro key access k hk haccess
    rw [grants, hk]
    exact haccess
  -- What follows is said once for the three kinds of calls: those that read, those that write
  -- values and those that change keys.
  have hreads : ∀ {α : Type} (key : KeyHandle) (access : Access)
      (transaction : Option TransactionHandle) (read : Node → Except NativeError α),
      Ends (withNode key access transaction read) s (fun _ _ => s.grants key access = true)
        (fun _ _ => True) := by
    intro α key access transaction read
    refine (withNode_ends key access transaction read s).mono ?_ (fun _ _ _ => trivial)
    intro _ _ h
    rcases h with ⟨k, hk, haccess, _⟩
    exact hgrants hk haccess
  have hwrites : ∀ (key : KeyHandle) (transaction : Option TransactionHandle)
      (mutation : Location → Mutation), Ends (changeValue key transaction mutation) s
        (fun _ _ => s.writable key = true) (fun _ _ => True) := by
    intro key transaction mutation
    refine (changeValue_ends key transaction mutation s).mono ?_ (fun _ _ _ => trivial)
    intro _ _ h
    rcases h with ⟨_, _, _, hwritable, _⟩
    exact hwritable
  have hchanges : ∀ (parent : KeyHandle) (subKey : String)
      (transaction : Option TransactionHandle) (mutation : Location → Mutation),
      Ends (changeKey parent subKey transaction mutation) s
        (fun _ _ => (s.opened parent).isSome = true) (fun _ _ => True) := by
    intro parent subKey transaction mutation
    refine (changeKey_ends parent subKey transaction mutation s).mono ?_ (fun _ _ _ => trivial)
    intro _ _ h
    rcases h with ⟨p, _, hp, _⟩
    exact hparent hp
  cases call with
  | openKey parent subKey access transaction =>
    unfold perform
    refine ends_bind (ends_modify ?_)
    refine (openKey_ends parent subKey access transaction _).mono ?_ (fun _ _ _ => trivial)
    intro _ _ h
    rcases h with ⟨p, _, hp, _⟩
    exact hparent hp
  | createKey parent subKey access transaction =>
    unfold perform
    refine ends_bind (ends_modify ?_)
    refine (createKey_ends parent subKey access transaction _).mono ?_ (fun _ _ _ => trivial)
    intro _ _ h
    rcases h with ⟨p, _, _, hp, _⟩
    exact hparent hp
  | deleteKey parent subKey transaction =>
    unfold perform deleteKey
    exact hchanges parent subKey transaction _
  | renameKey parent subKey newName transaction =>
    unfold perform renameKey
    exact hchanges parent subKey transaction _
  | closeKey key => exact absurd rfl (hopen key)
  | queryInfo key =>
    unfold perform queryInfo
    exact hreads key _ none _
  | enumKey key index =>
    unfold perform enumKey
    exact hreads key _ none _
  | enumValue key index =>
    unfold perform enumValue
    exact hreads key _ none _
  | getValue key name transaction =>
    unfold perform getValue
    exact hreads key _ transaction _
  | setValue key name data transaction =>
    unfold perform setValue
    exact hwrites key transaction _
  | deleteValue key name transaction =>
    unfold perform deleteValue
    exact hwrites key transaction _
  | createTransaction => exact absurd hkey (by simp [Call.key?])
  | transactionOutcome => exact absurd hkey (by simp [Call.key?])
  | commitTransaction => exact absurd hkey (by simp [Call.key?])
  | rollbackTransaction => exact absurd hkey (by simp [Call.key?])
  | closeTransaction => exact absurd hkey (by simp [Call.key?])

/-- A call that has made a change has looked. -/
theorem looks_of_changeOf (call : Call) (s : Store) :
    Ends (perform call) s (fun answer _ => (s.changeOf call answer).isSome → s.looks call = true)
      (fun _ _ => True) := by
  by_cases hkey : call.key?.isSome
  · by_cases hopen : ∀ key, call ≠ .closeKey key
    · exact (looks_of_ok hkey hopen s).mono (fun _ _ hlooks _ => hlooks) (fun _ _ h => h)
    · rcases Classical.not_forall.mp hopen with ⟨key, hclose⟩
      obtain rfl : call = .closeKey key := Classical.not_not.mp hclose
      exact ends_of_forall (fun _ _ h => absurd h (by simp [changeOf])) (fun _ _ => trivial)
  · refine ends_of_forall (fun answer _ h => ?_) (fun _ _ => trivial)
    cases call with
    | createTransaction => exact absurd h (by simp [changeOf])
    | transactionOutcome => exact absurd h (by simp [changeOf])
    | commitTransaction => exact absurd h (by simp [changeOf])
    | rollbackTransaction => exact absurd h (by simp [changeOf])
    | closeTransaction => exact absurd h (by simp [changeOf])
    | _ => exact absurd rfl hkey

end Store

end TransactionalRegistry
