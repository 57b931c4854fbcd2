import TransactionalRegistry.Proofs.Calls

/-!
# What a call finds

A call on a key answers from the trees that its transaction sees: from its private copy if it has
looked before, from the live trees if this is its first look, and from nothing at all if it is not
active. A call may look more than once and time passes in between, but as long as the transaction
stays active each look finds the same trees, so there is one view for the whole call.

A call that fails has either nothing to do with what there is in any trees, or it is told by the
same view: there is no such key or value in it, or the change does not apply to it.

## Main definitions

* `Store.viewOf`: The trees that are seen through a transaction that is active.
* `Store.FoundIn`: The answer of a call is what there is in some trees.
* `Store.MissedIn`: The error of a call is what there is not in some trees.
* `NativeError.Apart`: An error that has to do with handles, rights or transactions.
* `Store.Finds`: How a call ends is told by the view of its transaction.

## Theorems

* `Store.view_finds`: Every look of a call finds the same trees.
* `Store.perform_finds`: Every call on a key finds what it ends with.
-/

namespace TransactionalRegistry

/-- An error that has to do with handles, rights or transactions, and nothing with what there is in
    any trees. -/
inductive NativeError.Apart : NativeError → Prop
  | invalidHandle : Apart .invalidHandle
  | accessDenied : Apart .accessDenied
  | transactionNotActive : Apart .transactionNotActive

namespace Store

theorem apart_viewError (s : Store) (transaction : Option TransactionHandle) :
    (s.viewError transaction).Apart := by
  unfold viewError
  split
  · exact .transactionNotActive
  · exact .invalidHandle

/-- The trees that are seen through a transaction that is active, now or at its first look; without
    a transaction, the live trees. -/
def viewOf (s : Store) : Option TransactionHandle → Option Hives
  | none => some s.hives
  | some t => (s.record? t).bind fun r =>
    if r.state = .active then some (r.workspace.getD s.hives) else none

/-- The answer of a call is what there is in the trees `h`, at the location that the handle of the
    call denotes. -/
def FoundIn (s : Store) (h : Hives) : (call : Call) → call.Answer → Prop
  | .openKey parent subKey _ _, _ =>
    ∃ p, s.opened parent = some p ∧ h.contains (p.location.below subKey) = true
  | .createKey parent subKey _ _, answer =>
    ∃ p, s.opened parent = some p ∧ answer.2 =
      if h.contains (p.location.below subKey) then .openedExisting else .createdNew
  | .queryInfo key, answer =>
    ∃ k n, s.opened key = some k ∧ h.find? k.location = some n ∧ answer = n.info
  | .enumKey key index, answer =>
    ∃ k n entry, s.opened key = some k ∧ h.find? k.location = some n ∧
      n.subKeys[index.toNat]? = some entry ∧ answer = entry.2.name
  | .enumValue key index, answer =>
    ∃ k n entry, s.opened key = some k ∧ h.find? k.location = some n ∧
      n.values[index.toNat]? = some entry ∧ answer = (entry.2.name, entry.2.data)
  | .getValue key name _, answer =>
    ∃ k n value, s.opened key = some k ∧ h.find? k.location = some n ∧
      n.value? name = some value ∧ answer = value.data
  | _, _ => True

/-- A key is missing at a location in the trees `h`. -/
def Gone (h : Hives) (l : Location) (e : NativeError) : Prop :=
  e = .keyDeleted ∧ h.find? l = none

/-- A change does not apply to the trees `h`. -/
def Rejects (h : Hives) (m : Mutation) (e : NativeError) : Prop :=
  ∃ now, m.apply now h = .error e

/-- The error of a call tells what there is not in the trees `h`, at the location that the handle of
    the call denotes, or that the change that the call would make does not apply to them. -/
def MissedIn (s : Store) (h : Hives) : Call → NativeError → Prop
  | .openKey parent subKey _ _, e => ∃ p, s.opened parent = some p ∧
      (Gone h p.location e ∨
        e = .fileNotFound ∧ h.contains (p.location.below subKey) = false)
  | .createKey parent subKey _ _, e => ∃ p, s.opened parent = some p ∧
      (Gone h p.location e ∨ Rejects h (.createKey (p.location.below subKey)) e)
  | .deleteKey parent subKey _, e => ∃ p, s.opened parent = some p ∧
      (Gone h p.location e ∨ Rejects h (.deleteKey (p.location.below subKey)) e)
  | .renameKey parent subKey newName _, e => ∃ p, s.opened parent = some p ∧
      (Gone h p.location e ∨ Rejects h (.renameKey (p.location.below subKey) newName) e)
  | .queryInfo key, e => ∃ k, s.opened key = some k ∧ Gone h k.location e
  | .enumKey key index, e => ∃ k, s.opened key = some k ∧ (Gone h k.location e ∨
      ∃ n, h.find? k.location = some n ∧ e = .noMoreItems ∧ n.subKeys[index.toNat]? = none)
  | .enumValue key index, e => ∃ k, s.opened key = some k ∧ (Gone h k.location e ∨
      ∃ n, h.find? k.location = some n ∧ e = .noMoreItems ∧ n.values[index.toNat]? = none)
  | .getValue key name _, e => ∃ k, s.opened key = some k ∧ (Gone h k.location e ∨
      ∃ n, h.find? k.location = some n ∧ e = .fileNotFound ∧ n.value? name = none)
  | .setValue key name data _, e => ∃ k, s.opened key = some k ∧
      Rejects h (.setValue k.location name data) e
  | .deleteValue key name _, e => ∃ k, s.opened key = some k ∧
      Rejects h (.deleteValue k.location name) e
  | _, _ => False

section

variable {transaction : Option TransactionHandle} {s s₁ : Store}

/-- What is seen after some looks is what was to be seen before them. -/
theorem viewOf_of_sees {h : Hives} (hlook : Looked transaction s s₁)
    (hsees : s₁.Sees transaction h) : s.viewOf transaction = some h := by
  cases transaction with
  | none => exact congrArg some (hlook.hives.symm.trans hsees)
  | some t =>
    rcases hsees with ⟨r₁, hr₁, hactive, hworkspace⟩
    rcases hlook.origin hr₁ with ⟨r, hr, hrecord⟩
    rw [viewOf, hr, Option.bind_some]
    cases hrecord with
    | same => rw [if_pos hactive, hworkspace, Option.getD_some]
    -- A transaction that is rolled back sees nothing.
    | expired => exact absurd hactive (by simp [TransactionRecord.discarded])
    | copied _ hnone =>
      -- The private copy was taken from trees that nobody has changed since.
      rw [if_pos hactive, hnone, Option.getD_none]
      exact hworkspace

/-- Every look of a call finds the same trees. -/
theorem view_finds (hlook : Looked transaction s s₁) :
    Ends (view transaction) s₁
      (fun h s₂ => Looked transaction s s₂ ∧ s.viewOf transaction = some h)
      (fun e _ => e.Apart) := by
  refine (view_ends transaction s₁).mono ?_ ?_
  · intro h s₂ hstep
    have hlooked := hlook.trans hstep.1
    exact ⟨hlooked, viewOf_of_sees hlooked hstep.2⟩
  · rintro e _ ⟨_, _, rfl⟩
    exact apart_viewError s₁ transaction

theorem target_finds (parent : OpenKey) (subKey : String) (hlook : Looked transaction s s₁) :
    Ends (target parent subKey transaction) s₁
      (fun l s₂ => l = parent.location.below subKey ∧ Looked transaction s s₂ ∧
        ∃ h, s.viewOf transaction = some h)
      (fun e _ => e.Apart ∨ ∃ h, s.viewOf transaction = some h ∧ Gone h parent.location e) := by
  unfold target
  refine (view_finds hlook).bind ?_ (fun _ _ h => Or.inl h)
  intro h s₂ hstep
  -- If the key is not in view, then there is nothing below it to be the target of a call.
  refine ends_require (fun _ => ends_pure ⟨rfl, hstep.1, h, hstep.2⟩) (fun hmissing => ?_)
  refine Or.inr ⟨h, hstep.2, rfl, ?_⟩
  rw [Hives.contains, Option.isSome_eq_false_iff, Option.isNone_iff_eq_none] at hmissing
  exact hmissing

/-- A key is opened if it is in the view of the transaction. -/
theorem openKey_finds (parent : KeyHandle) (subKey : String) (access : Access)
    (transaction : Option TransactionHandle) (s : Store) :
    Ends (openKey parent subKey access transaction) s
      (fun _ _ => ∃ p h, s.opened parent = some p ∧
        s.viewOf (transaction.or p.transaction) = some h ∧
        h.contains (p.location.below subKey) = true)
      (fun e _ => e.Apart ∨ ∃ p h, s.opened parent = some p ∧
        s.viewOf (transaction.or p.transaction) = some h ∧ (Gone h p.location e ∨
          e = .fileNotFound ∧ h.contains (p.location.below subKey) = false)) := by
  unfold openKey
  refine ends_lookUp (fun p hp => ?_) (fun _ => Or.inl .invalidHandle)
  refine (target_finds p subKey (.refl _ s)).bind ?_ ?_
  · intro l s₁ hstep
    rcases hstep with ⟨rfl, hlook, _⟩
    refine (view_finds hlook).bind ?_ (fun _ _ h => Or.inl h)
    intro h s₂ hview
    refine ends_require (fun hcontains => ?_)
      (fun hmissing => Or.inr ⟨p, h, hp, hview.2, Or.inr ⟨rfl, hmissing⟩⟩)
    exact ends_requireAdmissible (fun _ => ⟨p, h, hp, hview.2, hcontains⟩)
      (fun _ => Or.inl .accessDenied)
  · rintro e _ (hapart | ⟨h, hview, hgone⟩)
    · exact Or.inl hapart
    · exact Or.inr ⟨p, h, hp, hview, Or.inl hgone⟩

/-- A change is made where the transaction sees something, and to what it sees. -/
theorem mutate_finds (m : Mutation) (hlook : Looked transaction s s₁) :
    Ends (mutate transaction m) s₁ (fun _ _ => ∃ h, s.viewOf transaction = some h)
      (fun e _ => e.Apart ∨ ∃ h, s.viewOf transaction = some h ∧ Rejects h m e) := by
  unfold mutate
  refine (view_finds hlook).bind ?_ (fun _ _ h => Or.inl h)
  intro h s₂ hview
  refine ends_bind ?_
  change Ends _ { s₂ with clock := s₂.clock.read } _ _
  -- Whether the change applies may depend on the clock, since it stamps the keys that it makes.
  cases happly : m.apply s₂.clock.read.now h with
  | error e =>
    simp only []
    exact ends_throw (Or.inr ⟨h, hview.2, _, happly⟩)
  | ok changed =>
    simp only []
    refine (install_ends transaction changed m _).mono (fun _ _ _ => ⟨h, hview.2⟩) ?_
    exact fun _ _ hnever => hnever.elim

/-- Whether a key was there is told by the view of the transaction before it was created. -/
theorem createKey_finds (parent : KeyHandle) (subKey : String) (access : Access)
    (transaction : Option TransactionHandle) (s : Store) :
    Ends (createKey parent subKey access transaction) s
      (fun answer _ => ∃ p h, s.opened parent = some p ∧
        s.viewOf (transaction.or p.transaction) = some h ∧ answer.2 =
          if h.contains (p.location.below subKey) then .openedExisting else .createdNew)
      (fun e _ => e.Apart ∨ ∃ p h, s.opened parent = some p ∧
        s.viewOf (transaction.or p.transaction) = some h ∧
        (Gone h p.location e ∨ Rejects h (.createKey (p.location.below subKey)) e)) := by
  unfold createKey
  refine ends_lookUp (fun p hp => ?_) (fun _ => Or.inl .invalidHandle)
  refine (target_finds p subKey (.refl _ s)).bind ?_ ?_
  · intro l s₁ hstep
    rcases hstep with ⟨rfl, hlook, _⟩
    refine (view_finds hlook).bind ?_ (fun _ _ h => Or.inl h)
    intro h s₂ hview
    -- What comes after the second look has no influence on the disposition.
    cases hpresent : h.contains (p.location.below subKey) with
    | true =>
      refine ends_requireAdmissible (fun _ => ?_) (fun _ => Or.inl .accessDenied)
      exact ⟨p, h, hp, hview.2, by rw [hpresent]⟩
    | false =>
      have hmissing : Ends (createMissing p (p.location.below subKey)
            (transaction.or p.transaction)) s₂ (fun _ _ => True)
          (fun e _ => e.Apart ∨ ∃ h, s.viewOf (transaction.or p.transaction) = some h ∧
            Rejects h (.createKey (p.location.below subKey)) e) := by
        unfold createMissing
        refine ends_require (fun _ => ends_requireUnprotected (fun _ => ?_)
          (fun _ => Or.inl .accessDenied)) (fun _ => Or.inl .accessDenied)
        exact (mutate_finds _ hview.1).mono (fun _ _ _ => trivial) (fun _ _ h => h)
      refine hmissing.bind ?_ ?_
      · intro _ s₃ _
        refine ends_requireAdmissible (fun _ => ?_) (fun _ => Or.inl .accessDenied)
        exact ⟨p, h, hp, hview.2, by rw [hpresent]⟩
      · rintro e _ (hapart | ⟨h, hview, hrejects⟩)
        · exact Or.inl hapart
        · exact Or.inr ⟨p, h, hp, hview, Or.inr hrejects⟩
  · rintro e _ (hapart | ⟨h, hview, hgone⟩)
    · exact Or.inl hapart
    · exact Or.inr ⟨p, h, hp, hview, Or.inl hgone⟩

/-- What was read was read from the view of the transaction. -/
theorem withNode_finds {α : Type} (key : KeyHandle) (access : Access)
    (transaction : Option TransactionHandle) (read : Node → Except NativeError α) (s : Store) :
    Ends (withNode key access transaction read) s
      (fun a _ => ∃ k h n, s.opened key = some k ∧
        s.viewOf (transaction.or k.transaction) = some h ∧ h.find? k.location = some n ∧
        read n = .ok a)
      (fun e _ => e.Apart ∨ ∃ k h, s.opened key = some k ∧
        s.viewOf (transaction.or k.transaction) = some h ∧ (Gone h k.location e ∨
          ∃ n, h.find? k.location = some n ∧ read n = .error e)) := by
  unfold withNode
  refine ends_lookUp (fun k hk => ?_) (fun _ => Or.inl .invalidHandle)
  refine ends_require (fun _ => ?_) (fun _ => Or.inl .accessDenied)
  refine (view_finds (.refl _ s)).bind ?_ (fun _ _ h => Or.inl h)
  intro h s₁ hview
  cases hfound : h.find? k.location with
  | none => exact ends_throw (Or.inr ⟨k, h, hk, hview.2, Or.inl ⟨rfl, hfound⟩⟩)
  | some n =>
    simp only []
    cases hread : read n with
    | ok a => exact ends_pure ⟨k, h, n, hk, hview.2, hfound, hread⟩
    | error e => exact ends_throw (Or.inr ⟨k, h, hk, hview.2, Or.inr ⟨n, hfound, hread⟩⟩)

theorem changeKey_finds (parent : KeyHandle) (subKey : String)
    (transaction : Option TransactionHandle) (mutation : Location → Mutation) (s : Store) :
    Ends (changeKey parent subKey transaction mutation) s
      (fun _ _ => ∃ p h, s.opened parent = some p ∧
        s.viewOf (transaction.or p.transaction) = some h)
      (fun e _ => e.Apart ∨ ∃ p h, s.opened parent = some p ∧
        s.viewOf (transaction.or p.transaction) = some h ∧
        (Gone h p.location e ∨ Rejects h (mutation (p.location.below subKey)) e)) := by
  unfold changeKey
  refine ends_lookUp (fun p hp => ?_) (fun _ => Or.inl .invalidHandle)
  refine (target_finds p subKey (.refl _ s)).bind ?_ ?_
  · intro l s₁ hstep
    rcases hstep with ⟨rfl, hlook, _⟩
    refine ends_require (fun _ => ends_requireUnprotected (fun _ => ?_)
      (fun _ => Or.inl .accessDenied)) (fun _ => Or.inl .accessDenied)
    refine (mutate_finds _ hlook).mono ?_ ?_
    · rintro _ _ ⟨h, hview⟩
      exact ⟨p, h, hp, hview⟩
    · rintro e _ (hapart | ⟨h, hview, hrejects⟩)
      · exact Or.inl hapart
      · exact Or.inr ⟨p, h, hp, hview, Or.inr hrejects⟩
  · rintro e _ (hapart | ⟨h, hview, hgone⟩)
    · exact Or.inl hapart
    · exact Or.inr ⟨p, h, hp, hview, Or.inl hgone⟩

theorem changeValue_finds (key : KeyHandle) (transaction : Option TransactionHandle)
    (mutation : Location → Mutation) (s : Store) :
    Ends (changeValue key transaction mutation) s
      (fun _ _ => ∃ k h, s.opened key = some k ∧
        s.viewOf (transaction.or k.transaction) = some h)
      (fun e _ => e.Apart ∨ ∃ k h, s.opened key = some k ∧
        s.viewOf (transaction.or k.transaction) = some h ∧
        Rejects h (mutation k.location) e) := by
  unfold changeValue
  refine ends_lookUp (fun k hk => ?_) (fun _ => Or.inl .invalidHandle)
  refine ends_require (fun _ => ends_requireUnprotected (fun _ => ?_)
    (fun _ => Or.inl .accessDenied)) (fun _ => Or.inl .accessDenied)
  refine (mutate_finds _ (.refl _ s)).mono ?_ ?_
  · rintro _ _ ⟨h, hview⟩
    exact ⟨k, h, hk, hview⟩
  · rintro e _ (hapart | ⟨h, hview, hrejects⟩)
    · exact Or.inl hapart
    · exact Or.inr ⟨k, h, hk, hview, hrejects⟩

/-! ## Calls -/

/-- How a call on a key ends is told by the view of its transaction: it answers what there is in
    the trees that it sees, and if it fails, then for what is not in them, unless it is for the
    handle, its rights or the transaction. -/
def Finds (s : Store) (call : Call) (result : Except NativeError call.Answer) : Prop :=
  match result with
  | .ok answer => ∃ h, s.viewOf (s.transactionOf call) = some h ∧ s.FoundIn h call answer
  | .error e => e.Apart ∨ ∃ h, s.viewOf (s.transactionOf call) = some h ∧ s.MissedIn h call e

/-- Whatever a call sees, it sees in the transaction that it runs in. -/
theorem finds_of_ends {call : Call} {key : KeyHandle} {P : OpenKey → Hives → call.Answer → Prop}
    {M : OpenKey → Hives → NativeError → Prop} (hkey : call.key? = some key)
    (h : Ends (perform call) s
      (fun answer _ => ∃ k h, s.opened key = some k ∧
        s.viewOf (call.transaction?.or k.transaction) = some h ∧ P k h answer)
      (fun e _ => e.Apart ∨ ∃ k h, s.opened key = some k ∧
        s.viewOf (call.transaction?.or k.transaction) = some h ∧ M k h e))
    (hP : ∀ k h answer, s.opened key = some k → P k h answer → s.FoundIn h call answer)
    (hM : ∀ k h e, s.opened key = some k → M k h e → s.MissedIn h call e) :
    s.Finds call (outcome (perform call) s) := by
  refine Ends.outcome (P := fun result _ => s.Finds call result) (h.mono ?_ ?_)
  · -- The transaction of the call is the one it names or else the one that its key is bound to.
    rintro answer _ ⟨k, h, hk, hview, hfound⟩
    exact ⟨h, by rw [transactionOf_eq hkey hk]; exact hview, hP k h answer hk hfound⟩
  · rintro e _ (hapart | ⟨k, h, hk, hview, hmissed⟩)
    · exact Or.inl hapart
    · exact Or.inr ⟨h, by rw [transactionOf_eq hkey hk]; exact hview, hM k h e hk hmissed⟩

/-- What reading a key finds, as an answer or an error. -/
theorem finds_of_withNode {call : Call} {key : KeyHandle} {access : Access}
    {read : Node → Except NativeError call.Answer} (hkey : call.key? = some key)
    (hperform : perform call = withNode key access call.transaction? read)
    (hfound : ∀ k h n answer, s.opened key = some k → h.find? k.location = some n →
      read n = .ok answer → s.FoundIn h call answer)
    (hgone : ∀ k h e, s.opened key = some k → Gone h k.location e → s.MissedIn h call e)
    (hmissed : ∀ k h n e, s.opened key = some k → h.find? k.location = some n →
      read n = .error e → s.MissedIn h call e) :
    s.Finds call (outcome (perform call) s) := by
  refine finds_of_ends hkey (P := fun k h answer => ∃ n, h.find? k.location = some n ∧
      read n = .ok answer) (M := fun k h e => Gone h k.location e ∨
      ∃ n, h.find? k.location = some n ∧ read n = .error e) ?_ ?_ ?_
  · rw [hperform]
    refine (withNode_finds key access call.transaction? read s).mono ?_ (fun _ _ h => h)
    rintro answer _ ⟨k, h, n, hk, hview, hn, hread⟩
    exact ⟨k, h, hk, hview, n, hn, hread⟩
  · rintro k h answer hk ⟨n, hn, hread⟩
    exact hfound k h n answer hk hn hread
  · rintro k h e hk (hgone' | ⟨n, hn, hread⟩)
    · exact hgone k h e hk hgone'
    · exact hmissed k h n e hk hn hread

/-- What looking something up in a key finds: what there is, or that there is nothing. -/
theorem finds_of_lookup {β : Type} {call : Call} {key : KeyHandle} {access : Access}
    {read : Node → Except NativeError call.Answer} {missing : NativeError}
    (lookup : Node → Option β) (give : β → call.Answer) (hkey : call.key? = some key)
    (hperform : perform call = withNode key access call.transaction? read)
    (hsome : ∀ n b, lookup n = some b → read n = .ok (give b))
    (hnone : ∀ n, lookup n = none → read n = .error missing)
    (hfound : ∀ k h n b, s.opened key = some k → h.find? k.location = some n →
      lookup n = some b → s.FoundIn h call (give b))
    (hgone : ∀ k h e, s.opened key = some k → Gone h k.location e → s.MissedIn h call e)
    (hmissed : ∀ k h n, s.opened key = some k → h.find? k.location = some n →
      lookup n = none → s.MissedIn h call missing) :
    s.Finds call (outcome (perform call) s) := by
  refine finds_of_withNode hkey hperform ?_ hgone ?_
  · intro k h n answer hk hn hread
    -- Looking up tells apart the answers of the call from its errors.
    cases hentry : lookup n with
    | none => exact absurd (hread.symm.trans (hnone n hentry)) (by simp)
    | some b =>
      rw [Except.ok.inj (hread.symm.trans (hsome n b hentry))]
      exact hfound k h n b hk hn hentry
  · intro k h n e hk hn hread
    cases hentry : lookup n with
    | none =>
      rw [Except.error.inj (hread.symm.trans (hnone n hentry))]
      exact hmissed k h n hk hn hentry
    | some b => exact absurd (hread.symm.trans (hsome n b hentry)) (by simp)

/-- How a call on a key ends is told by the view of its transaction. -/
theorem perform_finds {call : Call} (hkey : call.key?.isSome) (hopen : ∀ key, call ≠ .closeKey key)
    (s : Store) : s.Finds call (outcome (perform call) s) := by
  cases call with
  | openKey parent subKey access transaction =>
    refine finds_of_ends rfl (ends_bind (ends_modify ?_))
      (fun p h _ hp hcontains => ⟨p, hp, hcontains⟩) (fun p h _ hp hmissed => ⟨p, hp, hmissed⟩)
    exact openKey_finds parent subKey access transaction (s.note _)
  | createKey parent subKey access transaction =>
    refine finds_of_ends rfl (ends_bind (ends_modify ?_))
      (fun p h _ hp hdisposition => ⟨p, hp, hdisposition⟩)
      (fun p h _ hp hmissed => ⟨p, hp, hmissed⟩)
    exact createKey_finds parent subKey access transaction (s.note _)
  | deleteKey parent subKey transaction =>
    refine finds_of_ends (P := fun _ _ _ => True) rfl ?_
      (fun _ _ _ _ _ => trivial) (fun p h _ hp hmissed => ⟨p, hp, hmissed⟩)
    refine (changeKey_finds parent subKey transaction .deleteKey s).mono ?_ (fun _ _ h => h)
    exact fun _ _ ⟨p, h, hp, hview⟩ => ⟨p, h, hp, hview, trivial⟩
  | renameKey parent subKey newName transaction =>
    refine finds_of_ends (P := fun _ _ _ => True) rfl ?_
      (fun _ _ _ _ _ => trivial) (fun p h _ hp hmissed => ⟨p, hp, hmissed⟩)
    refine (changeKey_finds parent subKey transaction (.renameKey · newName) s).mono ?_
      (fun _ _ h => h)
    exact fun _ _ ⟨p, h, hp, hview⟩ => ⟨p, h, hp, hview, trivial⟩
  | closeKey key => exact absurd rfl (hopen key)
  | queryInfo key =>
    have hperform : perform (.queryInfo key)
        = withNode key .queryValue none fun n => .ok n.info := rfl
    refine finds_of_withNode rfl hperform ?_ (fun k _ _ hk hgone => ⟨k, hk, hgone⟩) ?_
    · exact fun k h n answer hk hn hread => ⟨k, n, hk, hn, (Except.ok.inj hread).symm⟩
    · exact fun k h n e _ _ hread => absurd hread (by simp)
  | enumKey key index =>
    refine finds_of_lookup (·.subKeys[index.toNat]?) (·.2.name) rfl rfl
      (fun n entry h => by rw [h]) (fun n h => by rw [h]) ?_
      (fun k _ _ hk hgone => ⟨k, hk, Or.inl hgone⟩) ?_
    · exact fun k h n entry hk hn hentry => ⟨k, n, entry, hk, hn, hentry, rfl⟩
    · exact fun k h n hk hn hnone => ⟨k, hk, Or.inr ⟨n, hn, rfl, hnone⟩⟩
  | enumValue key index =>
    refine finds_of_lookup (·.values[index.toNat]?) (fun entry => (entry.2.name, entry.2.data))
      rfl rfl (fun n entry h => by rw [h]) (fun n h => by rw [h]) ?_
      (fun k _ _ hk hgone => ⟨k, hk, Or.inl hgone⟩) ?_
    · exact fun k h n entry hk hn hentry => ⟨k, n, entry, hk, hn, hentry, rfl⟩
    · exact fun k h n hk hn hnone => ⟨k, hk, Or.inr ⟨n, hn, rfl, hnone⟩⟩
  | getValue key name transaction =>
    refine finds_of_lookup (·.value? name) (·.data) rfl rfl
      (fun n value h => by rw [h]) (fun n h => by rw [h]) ?_
      (fun k _ _ hk hgone => ⟨k, hk, Or.inl hgone⟩) ?_
    · exact fun k h n value hk hn hvalue => ⟨k, n, value, hk, hn, hvalue, rfl⟩
    · exact fun k h n hk hn hnone => ⟨k, hk, Or.inr ⟨n, hn, rfl, hnone⟩⟩
  | setValue key name data transaction =>
    refine finds_of_ends (P := fun _ _ _ => True) rfl ?_
      (fun _ _ _ _ _ => trivial) (fun k h _ hk hmissed => ⟨k, hk, hmissed⟩)
    refine (changeValue_finds key transaction (.setValue · name data) s).mono ?_ (fun _ _ h => h)
    exact fun _ _ ⟨k, h, hk, hview⟩ => ⟨k, h, hk, hview, trivial⟩
  | deleteValue key name transaction =>
    refine finds_of_ends (P := fun _ _ _ => True) rfl ?_
      (fun _ _ _ _ _ => trivial) (fun k h _ hk hmissed => ⟨k, hk, hmissed⟩)
    refine (changeValue_finds key transaction (.deleteValue · name) s).mono ?_ (fun _ _ h => h)
    exact fun _ _ ⟨k, h, hk, hview⟩ => ⟨k, h, hk, hview, trivial⟩
  | createTransaction => exact absurd hkey (by simp [Call.key?])
  | transactionOutcome => exact absurd hkey (by simp [Call.key?])
  | commitTransaction => exact absurd hkey (by simp [Call.key?])
  | rollbackTransaction => exact absurd hkey (by simp [Call.key?])
  | closeTransaction => exact absurd hkey (by simp [Call.key?])

end

end Store

end TransactionalRegistry
