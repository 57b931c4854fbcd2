import TransactionalRegistry.Proofs.Destinations
import TransactionalRegistry.Proofs.Handles
import TransactionalRegistry.Proofs.Renaming
import TransactionalRegistry.Proofs.RootHandles

/-!
# Stale handles

An open handle keeps the place of the key that it was opened on, and not the key. Every call through
it goes by what stands at that place then. So when the key is deleted, or is carried elsewhere by a
renaming, the handle is dead: every call through it is refused and does nothing. But the handle is
dead for only as long as the place is empty. When another key comes to the place, because one is
created there or because a renaming brings one, then the old handle denotes that key, with the
rights that it was opened with for the old one.

That this must not happen is why handles are never reused; the place is reused in their stead. A
handle denotes the key that it was opened on or no key at all just as long as no other key comes to
its place.

## Main definitions

* `Call.through?`: The handle that a call reads or writes through.
* `Store.Dead`: Every plain call through a handle is refused.
* `Store.Denotes`: Plain calls through a handle read and write one key.
* `Store.followed`: Where a key is after some calls.
* `Store.NoSuccessor`: No call brings another key to a place.

## Theorems

* `Store.dead_of_empty`, `Store.denotes_of_found`: What a handle is good for.
* `Store.alone_iff_noSuccessor`: When a place is left to one key.
* `handles_are_opened_on_keys`: What a handle is opened on.
* `stale_handles_denote_what_comes_to_their_place`: What it denotes later, in every run.
* `a_stale_handle_denotes_a_new_key`: A handle that denotes a key that it was not opened on.
-/

namespace TransactionalRegistry

/-- The handle of a call that reads or writes the key behind it. -/
def Call.through? : Call → Option KeyHandle
  | queryInfo key => some key
  | enumKey key _ => some key
  | enumValue key _ => some key
  | getValue key _ _ => some key
  | setValue key _ _ _ => some key
  | deleteValue key _ _ => some key
  | _ => none

namespace Hives

variable {h h' : Hives} {l : Location} {n : Node} {missing : NativeError}
  {f : Node → Except NativeError Node}

/-- An update of a key that is there leaves what the key has become in its place. -/
theorem found_of_update (hfound : h.find? l = some n)
    (hok : h.update l.root l.path.names missing f = .ok h') :
    ∃ m, f n = .ok m ∧ h'.find? l = some m := by
  obtain ⟨n', m, hfound', hf, rfl⟩ := update_eq_ok.mp hok
  obtain rfl : n = n' := Option.some.inj (hfound.symm.trans hfound')
  refine ⟨m, hf, ?_⟩
  rw [find?, get_set, if_pos rfl]
  have hgraft := Node.find?_graft_append (m := m) hfound []
  rwa [List.append_nil] at hgraft

/-- An update that fails on a key that is there has failed for a reason of its own. -/
theorem error_of_update {e : NativeError} (hfound : h.find? l = some n)
    (herror : h.update l.root l.path.names missing f = .error e) : f n = .error e := by
  -- The key is not missing.
  rcases update_eq_error.mp herror with ⟨hmissing, -⟩ | ⟨n', hfound', hf⟩
  · exact absurd (hfound.symm.trans hmissing) (by simp)
  · rwa [Option.some.inj (hfound.symm.trans hfound')]

end Hives

namespace Store

variable {s : Store} {key : KeyHandle} {k : OpenKey}

/-! ## Through a handle -/

/-- Every plain call through a handle is refused and moves nothing. If the handle grants what the
    call needs, the error tells that the key was deleted. -/
def Dead (s : Store) (key : KeyHandle) : Prop :=
  ∀ call : Call, call.through? = some key → call.transaction? = none →
    s.Refuses call (· = if s.looks call then .keyDeleted else .accessDenied)

/-- Plain calls through a handle that grants what they need read and write the key `n`, which is at
    the location `l`. -/
structure Denotes (s : Store) (key : KeyHandle) (l : Location) (n : Node) : Prop where
  reads : ∀ {α : Type} (access : Access) (read : Node → Except NativeError α),
    s.grants key access = true → outcome (withNode key access none read) s = read n
  sets : ∀ name data, s.writable key = true → Ends (setValue key name data none) s
    (fun _ s' => ∃ now, s'.hives.find? l = some ((n.putValue name data).touch now))
    (fun _ _ => False)
  deletes : ∀ name, s.writable key = true → Ends (deleteValue key name none) s
    (fun _ s' => (n.value? name).isSome ∧
      ∃ now, s'.hives.find? l = some ((n.dropValue name).touch now))
    (fun e s' => n.value? name = none ∧ e = .fileNotFound ∧ s'.hives = s.hives)

/-- What a handle grants are the rights that its key was opened with. -/
theorem grants_eq (hopened : s.opened key = some k) (access : Access) :
    s.grants key access = k.access.contains access := by
  rw [grants, hopened]
  rfl

/-- A handle is writable by its rights, and as long as its place is not protected. -/
theorem writable_eq (hopened : s.opened key = some k) :
    s.writable key = (k.access.contains .setValue && !s.isProtected k.location) := by
  rw [writable, hopened]
  rfl

/-- The rule for a look at the live trees, followed by the rest. -/
theorem ends_view_live {α : Type} {f : Hives → StoreM α} {Q : α → Store → Prop}
    {E : NativeError → Store → Prop} (h : Ends (f s.hives) s Q E) :
    Ends (view none >>= f) s Q E :=
  ends_bind h

/-- A plain call that reads through a handle goes by what is at its place in the live trees. -/
theorem withNode_live {α : Type} (hopened : s.opened key = some k) (hplain : k.transaction = none)
    (access : Access) (read : Node → Except NativeError α) :
    Ends (withNode key access none read) s
      (fun a s' => s' = s ∧ s.grants key access = true ∧
        ∃ n, s.hives.find? k.location = some n ∧ read n = .ok a)
      (fun e s' => s' = s ∧ (s.grants key access = false ∧ e = .accessDenied ∨
        s.grants key access = true ∧ (s.hives.find? k.location = none ∧ e = .keyDeleted ∨
          ∃ n, s.hives.find? k.location = some n ∧ read n = .error e))) := by
  unfold withNode
  refine ends_lookUp (fun k' hk' => ?_) (fun hnone => absurd hnone (by rw [hopened]; simp))
  obtain rfl : k = k' := Option.some.inj (hopened.symm.trans hk')
  rw [grants_eq hopened, hplain]
  refine ends_require (fun hgrants => ends_view_live ?_)
    (fun hrefused => ⟨rfl, Or.inl ⟨hrefused, rfl⟩⟩)
  cases s.hives.find? k.location with
  | none => exact ends_throw ⟨rfl, Or.inr ⟨hgrants, Or.inl ⟨rfl, rfl⟩⟩⟩
  | some n =>
    simp only []
    cases hread : read n with
    | ok a => exact ends_pure ⟨rfl, hgrants, n, rfl, hread⟩
    | error e => exact ends_throw ⟨rfl, Or.inr ⟨hgrants, Or.inr ⟨n, rfl, hread⟩⟩⟩

/-- A change to the live trees is made as a whole, or nothing is moved. -/
theorem mutate_live (m : Mutation) (s : Store) :
    Ends (mutate none m) s (fun _ s' => ∃ now, m.apply now s.hives = .ok s'.hives)
      (fun e s' => Unmoved s s' ∧ ∃ now, m.apply now s.hives = .error e) := by
  unfold mutate
  refine ends_view_live (ends_bind ?_)
  change Ends _ { s with clock := s.clock.read } _ _
  -- The clock has been read, and that alone moves nothing.
  cases happly : m.apply s.clock.read.now s.hives with
  | ok changed =>
    simp only []
    exact ends_modify ⟨_, happly⟩
  | error e =>
    simp only []
    exact ends_throw ⟨⟨rfl, rfl, rfl, rfl, rfl⟩, _, happly⟩

/-- A plain call that writes through a handle makes its change to the live trees, at its place. -/
theorem changeValue_live (hopened : s.opened key = some k) (hplain : k.transaction = none)
    (mutation : Location → Mutation) :
    Ends (changeValue key none mutation) s
      (fun _ s' => ∃ now, (mutation k.location).apply now s.hives = .ok s'.hives)
      (fun e s' => Unmoved s s' ∧ (s.writable key = false ∧ e = .accessDenied ∨
        s.writable key = true ∧
          ∃ now, (mutation k.location).apply now s.hives = .error e)) := by
  unfold changeValue
  refine ends_lookUp (fun k' hk' => ?_) (fun hnone => absurd hnone (by rw [hopened]; simp))
  obtain rfl : k = k' := Option.some.inj (hopened.symm.trans hk')
  rw [writable_eq hopened, hplain]
  refine ends_require (fun hgrants => ?_) (fun hrefused => ⟨.refl s, Or.inl ⟨?_, rfl⟩⟩)
  · -- Only the rights and the protected places are looked at before the change.
    refine ends_requireUnprotected (fun hfree => ?_) (fun htaken => ⟨.refl s, Or.inl ⟨?_, rfl⟩⟩)
    · rw [hgrants, hfree]
      refine (mutate_live _ s).mono (fun _ _ h => h) ?_
      exact fun e s' h => ⟨h.1, Or.inr ⟨rfl, h.2⟩⟩
    · rw [htaken, Bool.not_true, Bool.and_false]
  · rw [hrefused, Bool.false_and]

/-- Through a handle whose place is empty nothing is read. -/
theorem withNode_dead {α : Type} (hopened : s.opened key = some k) (hplain : k.transaction = none)
    (hempty : s.hives.find? k.location = none) (access : Access)
    (read : Node → Except NativeError α) :
    Ends (withNode key access none read) s (fun _ _ => False)
      (fun e s' => (e = if s.grants key access then .keyDeleted else .accessDenied) ∧
        Unmoved s s') := by
  refine (withNode_live hopened hplain access read).mono ?_ ?_
  · rintro _ _ ⟨-, -, n, hfound, -⟩
    exact absurd (hempty.symm.trans hfound) (by simp)
  · rintro e s' ⟨rfl, ⟨hrefused, rfl⟩ | ⟨hgrants, ⟨-, rfl⟩ | ⟨n, hfound, -⟩⟩⟩
    · exact ⟨by rw [hrefused]; rfl, .refl _⟩
    · exact ⟨by rw [hgrants]; rfl, .refl _⟩
    · -- There is no key that could have been read.
      exact absurd (hempty.symm.trans hfound) (by simp)

/-- Through a handle whose place is empty nothing is written. -/
theorem changeValue_dead {mutation : Location → Mutation} (hopened : s.opened key = some k)
    (hplain : k.transaction = none)
    (hmissing : ∀ now, (mutation k.location).apply now s.hives = .error .keyDeleted) :
    Ends (changeValue key none mutation) s (fun _ _ => False)
      (fun e s' => (e = if s.writable key then .keyDeleted else .accessDenied) ∧
        Unmoved s s') := by
  refine (changeValue_live hopened hplain mutation).mono ?_ ?_
  · rintro _ s' ⟨now, happly⟩
    exact absurd ((hmissing now).symm.trans happly) (by simp)
  · rintro e s' ⟨hunmoved, ⟨hrefused, rfl⟩ | ⟨hwritable, now, happly⟩⟩
    · exact ⟨by rw [hrefused]; rfl, hunmoved⟩
    · -- The change was refused by the trees, for the key that is missing.
      rw [hmissing, Except.error.injEq] at happly
      exact ⟨by rw [hwritable, ← happly]; rfl, hunmoved⟩

/-- Through a handle whose place is empty nothing can be done. -/
theorem dead_of_empty (hopened : s.opened key = some k) (hplain : k.transaction = none)
    (hempty : s.hives.find? k.location = none) : s.Dead key := by
  -- A change of values is for a key that is there.
  have hmissing : ∀ f, s.hives.update k.location.root k.location.path.names .keyDeleted f =
      .error .keyDeleted := fun _ => Hives.update_eq_error.mpr (Or.inl ⟨hempty, rfl⟩)
  intro call hthrough hlive
  unfold Refuses
  cases call <;> simp only [Call.through?, Option.some.injEq, reduceCtorEq] at hthrough <;>
    subst hthrough
  case queryInfo =>
    unfold perform queryInfo
    exact withNode_dead hopened hplain hempty _ _
  case enumKey =>
    unfold perform enumKey
    exact withNode_dead hopened hplain hempty _ _
  case enumValue =>
    unfold perform enumValue
    exact withNode_dead hopened hplain hempty _ _
  case getValue key name transaction =>
    obtain rfl : transaction = none := hlive
    unfold perform getValue
    exact withNode_dead hopened hplain hempty _ _
  case setValue key name data transaction =>
    obtain rfl : transaction = none := hlive
    unfold perform setValue
    exact changeValue_dead hopened hplain (fun _ => hmissing _)
  case deleteValue key name transaction =>
    obtain rfl : transaction = none := hlive
    unfold perform deleteValue
    exact changeValue_dead hopened hplain (fun _ => hmissing _)

/-- Through a handle whose place is not empty, the key that is there now is read and written. -/
theorem denotes_of_found {n : Node} (hopened : s.opened key = some k)
    (hplain : k.transaction = none) (hfound : s.hives.find? k.location = some n) :
    s.Denotes key k.location n where
  reads access read hgrants := by
    refine Ends.outcome (P := fun result _ => result = read n) ?_
    refine (withNode_live hopened hplain access read).mono ?_ ?_
    · rintro a s' ⟨-, -, n', hfound', hread⟩
      rw [Option.some.inj (hfound.symm.trans hfound'), hread]
    · rintro e s' ⟨-, ⟨hrefused, -⟩ | ⟨-, ⟨hempty, -⟩ | ⟨n', hfound', hread⟩⟩⟩
      · exact absurd (hgrants.symm.trans hrefused) (by simp)
      · exact absurd (hfound.symm.trans hempty) (by simp)
      · -- The error is the one that reading this key gives.
        rw [Option.some.inj (hfound.symm.trans hfound'), hread]
  sets name data hwritable := by
    refine (changeValue_live hopened hplain (.setValue · name data)).mono ?_ ?_
    · rintro _ s' ⟨now, happly⟩
      obtain ⟨m, hput, hfound'⟩ := Hives.found_of_update hfound happly
      exact ⟨now, by rw [hfound', ← Except.ok.inj hput]⟩
    · rintro e s' ⟨-, ⟨hrefused, -⟩ | ⟨-, now, happly⟩⟩
      · exact absurd (hwritable.symm.trans hrefused) (by simp)
      · -- Setting a value of a key that is there does not fail.
        exact absurd (Hives.error_of_update hfound happly) (by simp)
  deletes name hwritable := by
    refine (changeValue_live hopened hplain (.deleteValue · name)).mono ?_ ?_
    · rintro _ s' ⟨now, happly⟩
      obtain ⟨m, hremove, hfound'⟩ := Hives.found_of_update hfound happly
      obtain ⟨hthere, rfl⟩ := Node.removeValue_eq_ok.mp hremove
      exact ⟨hthere, now, hfound'⟩
    · rintro e s' ⟨hunmoved, ⟨hrefused, -⟩ | ⟨-, now, happly⟩⟩
      · exact absurd (hwritable.symm.trans hrefused) (by simp)
      · -- Deleting one fails for the value alone.
        obtain ⟨hmissing, rfl⟩ :=
          Node.removeValue_eq_error.mp (Hives.error_of_update hfound happly)
        exact ⟨hmissing, rfl, hunmoved.hives⟩

/-! ## Opening a handle -/

/-- A key that is opened by a plain call is there. -/
theorem openKey_there {parent : KeyHandle} {p : OpenKey} (hp : s.opened parent = some p)
    {transaction : Option TransactionHandle} (hplain : transaction.or p.transaction = none)
    (subKey : String) (access : Access) :
    Ends (openKey parent subKey access transaction) s
      (fun _ s' => s'.hives.contains (p.location.below subKey) = true) (fun _ _ => True) := by
  unfold openKey
  refine ends_lookUp (fun p' hp' => ?_) (fun _ => trivial)
  obtain rfl : p = p' := Option.some.inj (hp.symm.trans hp')
  simp only [hplain]
  refine (target_ends p subKey none s).bind ?_ (fun _ _ _ => trivial)
  rintro l s₁ ⟨rfl, -⟩
  refine ends_view_live (ends_require (fun hthere => ?_) (fun _ => trivial))
  exact ends_requireAdmissible (fun _ => hthere) (fun _ => trivial)

/-- So is one that a plain call has created, if need be, and opened. -/
theorem createKey_there {parent : KeyHandle} {p : OpenKey} (hp : s.opened parent = some p)
    {transaction : Option TransactionHandle} (hplain : transaction.or p.transaction = none)
    (subKey : String) (access : Access) :
    Ends (createKey parent subKey access transaction) s
      (fun _ s' => s'.hives.contains (p.location.below subKey) = true) (fun _ _ => True) := by
  unfold createKey
  refine ends_lookUp (fun p' hp' => ?_) (fun _ => trivial)
  obtain rfl : p = p' := Option.some.inj (hp.symm.trans hp')
  simp only [hplain]
  refine (target_ends p subKey none s).bind ?_ (fun _ _ _ => trivial)
  rintro l s₁ ⟨rfl, -⟩
  refine ends_view_live ?_
  -- The key is there in the live trees, before the call or by its change.
  cases hpresent : s₁.hives.contains (p.location.below subKey) with
  | true =>
    simp only [Bool.not_true, Bool.false_eq_true, if_false]
    exact ends_requireAdmissible (fun _ => hpresent) (fun _ => trivial)
  | false =>
    simp only [Bool.not_false, if_true, createMissing, bind_assoc]
    refine ends_require (fun _ => ?_) (fun _ => trivial)
    refine ends_requireUnprotected (fun _ => ?_) (fun _ => trivial)
    refine (mutate_live _ s₁).bind ?_ (fun _ _ _ => trivial)
    rintro _ s₂ ⟨now, happly⟩
    have hcreated : s₁.hives.flat.Created s₂.hives.flat (p.location.below subKey) :=
      Mutation.turns_of_ok happly
    have hthere : s₂.hives.contains (p.location.below subKey) = true := by
      rw [Hives.contains_eq]
      exact hcreated.at_within ⟨[], (Flat.below_nil _).symm⟩
    exact ends_requireAdmissible (fun _ => hthere) (fun _ => trivial)

/-- When a plain call opens a handle, there is a key at the place that the handle keeps. -/
theorem perform_there {call : Call} {parent : KeyHandle} {subKey : String} {access : Access}
    (hasks : call.asks? = some (parent, subKey, access)) {p : OpenKey}
    (hp : s.opened parent = some p) (hplain : s.transactionOf call = none) :
    Ends (perform call) s
      (fun _ s' => s'.hives.contains (p.location.below subKey) = true) (fun _ _ => True) := by
  cases call <;> simp only [Call.asks?, Option.some.injEq, Prod.mk.injEq, reduceCtorEq] at hasks
  case openKey parent' subKey' access' transaction =>
    obtain ⟨rfl, rfl, rfl⟩ := hasks
    -- The entry in the log comes first, and has no part in what is opened.
    rw [transactionOf_eq rfl hp] at hplain
    unfold perform
    exact ends_bind (ends_modify (openKey_there (s := s.note _) hp hplain _ _))
  case createKey parent' subKey' access' transaction =>
    obtain ⟨rfl, rfl, rfl⟩ := hasks
    rw [transactionOf_eq rfl hp] at hplain
    unfold perform
    exact ends_bind (ends_modify (createKey_there (s := s.note _) hp hplain _ _))

/-! ## Keys and places, call by call -/

/-- Where the key at a place is after a call; nowhere, if the call has deleted it. -/
def destination? (s : Store) (call : Call) (p : Flat.Place) : Option Flat.Place :=
  match s.liveChange? call with
  | some m => m.destination? p
  | none => some p

/-- Where a key is after some calls, if it still is, and from where it was before them. -/
def followed (s : Store) (at? : Option Flat.Place) : List Call → Option Flat.Place
  | [] => at?
  | call :: rest => (endState (perform call) s).followed (at?.bind (s.destination? call)) rest

/-- A call brings a key to a place that was empty. -/
def Fills (s : Store) (p : Flat.Place) (call : Call) : Prop :=
  ∃ m ∈ s.liveChange? call, s.hives.flat.Fills p m

/-- No call brings a key to a place, unless it is the one that is followed. -/
def NoSuccessor (p : Flat.Place) (s : Store) (at? : Option Flat.Place) : List Call → Prop
  | [] => True
  | call :: rest => (at?.bind (s.destination? call) = some p ∨ ¬ s.Fills p call) ∧
      (endState (perform call) s).NoSuccessor p (at?.bind (s.destination? call)) rest

instance (s : Store) (p : Flat.Place) (call : Call) : Decidable (s.Fills p call) :=
  inferInstanceAs (Decidable (∃ m ∈ s.liveChange? call, s.hives.flat.Fills p m))

instance NoSuccessor.decidable (p : Flat.Place) (s : Store) (at? : Option Flat.Place) :
    (calls : List Call) → Decidable (s.NoSuccessor p at? calls)
  | [] => inferInstanceAs (Decidable True)
  | call :: rest =>
    have := NoSuccessor.decidable p (endState (perform call) s)
      (at?.bind (s.destination? call)) rest
    inferInstanceAs (Decidable ((at?.bind (s.destination? call) = some p ∨ ¬ s.Fills p call) ∧
      (endState (perform call) s).NoSuccessor p (at?.bind (s.destination? call)) rest))

/-- A key is where it is followed to; and if that is not the place `p`, nothing is there. -/
structure Alone (p : Flat.Place) (at? : Option Flat.Place) (s : Store) : Prop where
  there : ∀ q, at? = some q → q ∈ s.hives.flat.held
  empty : at? ≠ some p → s.hives.flat.at? p = none

variable {p : Flat.Place} {at? : Option Flat.Place} {call : Call}

/-- A key that is followed through a call is where it is said to be. -/
theorem held_at_destination (hkey : call.key?.isSome)
    (hthere : ∀ q, at? = some q → q ∈ s.hives.flat.held) (q : Flat.Place)
    (hq : at?.bind (s.destination? call) = some q) :
    q ∈ (endState (perform call) s).hives.flat.held := by
  obtain ⟨p, hp, hgoes⟩ := Option.bind_eq_some_iff.mp hq
  rw [destination?] at hgoes
  cases hlive : s.liveChange? call with
  -- Where no live tree is changed, the key stays where it is.
  | none =>
    rw [hlive] at hgoes
    rw [hives_of_no_liveChange hkey hlive, ← Option.some.inj hgoes]
    exact hthere p hp
  | some m =>
    rw [hlive] at hgoes
    exact (turns_of_liveChange hkey hlive).at_destination (hthere p hp) hgoes

/-- A call leaves a place empty that is not that of the key that is followed, unless it brings
    another key there. -/
theorem Alone.empty_iff (h : Alone p at? s) (hkey : call.key?.isSome)
    (haway : at?.bind (s.destination? call) ≠ some p) :
    (endState (perform call) s).hives.flat.at? p = none ↔ ¬ s.Fills p call := by
  rw [Fills]
  by_cases hhere : at? = some p
  · -- The key has left the place by this call.
    rw [hhere, Option.bind_some, destination?] at haway
    have hheld := h.there p hhere
    cases hlive : s.liveChange? call with
    | none =>
      rw [hlive] at haway
      exact absurd rfl haway
    | some m =>
      rw [hlive] at haway
      refine iff_of_true ((turns_of_liveChange hkey hlive).left_empty haway) ?_
      -- The place was that of the key, so it was not empty for another one to fill.
      rintro ⟨m', -, hfills⟩
      exact Flat.vacant hfills.empty (Flat.mem_held.mp hheld)
  · have hempty := h.empty hhere
    cases hlive : s.liveChange? call with
    | none =>
      rw [hives_of_no_liveChange hkey hlive]
      exact iff_of_true hempty (by simp)
    -- The place was empty, and so it is filled just if another key comes there.
    | some m =>
      have hfilled := Hives.filled_iff (turns_of_liveChange hkey hlive) hempty
      rw [← Option.not_isSome_iff_eq_none, hfilled]
      simp

/-- A call leaves a place to the key that is followed, or empty, unless it brings another key
    there. -/
theorem Alone.step_iff (h : Alone p at? s) (hkey : call.key?.isSome) :
    (at?.bind (s.destination? call) ≠ some p →
        (endState (perform call) s).hives.flat.at? p = none) ↔
      at?.bind (s.destination? call) = some p ∨ ¬ s.Fills p call := by
  constructor
  · intro hempty
    by_cases haway : at?.bind (s.destination? call) = some p
    · exact Or.inl haway
    · exact Or.inr ((h.empty_iff hkey haway).mp (hempty haway))
  · exact fun hnone haway => (h.empty_iff hkey haway).mpr (hnone.resolve_left haway)

/-- A place is left to one key, or is empty, throughout some calls on keys just if none of them
    brings another key there. -/
theorem alone_iff_noSuccessor (h : Alone p at? s) {calls : List Call}
    (hkeys : ∀ call ∈ calls, call.key?.isSome) :
    (∀ made, made <+: calls → s.followed at? made ≠ some p →
        ((made.map Action.call).foldl Store.after s).hives.flat.at? p = none) ↔
      s.NoSuccessor p at? calls := by
  -- What the first call does decides what the others find at the place.
  induction calls generalizing s at? with
  | nil =>
    refine iff_of_true (fun made hmade => ?_) trivial
    rw [List.prefix_nil.mp hmade]
    exact h.empty
  | cons call rest ih =>
    have hkey := hkeys call List.mem_cons_self
    have hrest := fun c hc => hkeys c (List.mem_cons_of_mem call hc)
    have hthere := held_at_destination hkey h.there
    rw [NoSuccessor, ← h.step_iff hkey]
    constructor
    · intro hall
      have hfirst := hall [call] (List.prefix_append [call] rest)
      refine ⟨hfirst, (ih ⟨hthere, hfirst⟩ hrest).mp (fun made hmade => ?_)⟩
      exact hall (call :: made) ((List.prefix_cons_inj call).mpr hmade)
    · -- The first call of the others is this one, or none was made yet.
      rintro ⟨hfirst, hmore⟩ made hmade
      cases made with
      | nil => exact h.empty
      | cons first made =>
        obtain ⟨rfl, hprefix⟩ := List.cons_prefix_cons.mp hmade
        exact (ih ⟨hthere, hfirst⟩ hrest).mpr hmore made hprefix

/-- A key that is there is alone at its place. -/
theorem alone_of_contains {l : Location} (hthere : s.hives.contains l = true) :
    Alone l.place (some l.place) s where
  there q hq := by
    rw [← Option.some.inj hq, Flat.mem_held, ← Hives.contains_eq]
    exact hthere
  empty hother := absurd rfl hother

end Store

/-! ## Every run -/

/-- A plain call that opens a handle opens it on a key: there is one at the place that the handle
    keeps. -/
theorem handles_are_opened_on_keys (l : Timeline) {call : Call} {parent : KeyHandle}
    {subKey : String} {access : Access} (hasks : call.asks? = some (parent, subKey, access))
    (hplain : l.store.transactionOf call = none) {answer : call.Answer}
    (hok : outcome (Store.perform call) l.store = .ok answer) :
    ∃ key k, call.handle? answer = some key ∧ k.access = access ∧ k.transaction = none ∧
      (l.after (.call call)).store.hives.contains k.location = true ∧
      (key.isPredefined = false → (l.after (.call call)).store.opened key = some k) := by
  have hresult := eq_of_outcome hok
  obtain ⟨p, key, hp, hhandle, henters⟩ := (Store.perform_enters hasks l.store).ok hresult
  have hthere := (Store.perform_there hasks hp hplain).ok hresult
  refine ⟨key, ⟨p.location.below subKey, access, none⟩, hhandle, rfl, rfl, ?_, fun hfree => ?_⟩
  · rw [Timeline.store_call]
    exact hthere
  · rw [hplain] at henters
    rw [Timeline.store_call]
    exact (henters.serves (KeyHandle.root?_of_free hfree)).opened

/-- Let anything have happened to a new store, let there be a key at the place of a plain handle,
    as there is when it is opened, and let any calls on keys be made then.

    The place holds that key or none throughout, also after the key was deleted or carried
    elsewhere, just if no call brings another key there. At every moment, as long as the handle is
    open, it goes by what is at its place then: if nothing is, then every plain call through it is
    refused and does nothing; and if a key is there, then plain calls through it read and write that
    key, whichever it is. -/
theorem stale_handles_denote_what_comes_to_their_place (l : Timeline) (k : OpenKey)
    (hplain : k.transaction = none) (hthere : l.store.hives.contains k.location = true)
    (calls : List Call) (hkeys : ∀ call ∈ calls, call.key?.isSome) :
    ((∀ made, made <+: calls →
        l.store.followed (some k.location.place) made ≠ some k.location.place →
        (l.extended (made.map .call)).store.hives.contains k.location = false) ↔
      l.store.NoSuccessor k.location.place (some k.location.place) calls) ∧
    ∀ made, made <+: calls → ∀ key, (l.extended (made.map .call)).store.opened key = some k →
      match (l.extended (made.map .call)).store.hives.find? k.location with
      | none => (l.extended (made.map .call)).store.Dead key
      | some n => (l.extended (made.map .call)).store.Denotes key k.location n := by
  constructor
  · simp only [Timeline.store_extended, Hives.contains_eq, Option.isSome_eq_false_iff,
      Option.isNone_iff_eq_none]
    exact Store.alone_iff_noSuccessor (Store.alone_of_contains hthere) hkeys
  · intro made _ key hopened
    cases hfound : (l.extended (made.map .call)).store.hives.find? k.location with
    | none => exact Store.dead_of_empty hopened hplain hfound
    | some n => exact Store.denotes_of_found hopened hplain hfound

/-- Two keys are created; the first is open under the handle 0x1000. -/
def createTwo : Timeline :=
  ⟨⟨0, []⟩,
    [.call (.createKey RootKey.currentUser.handle "A" .all none),
     .call (.createKey RootKey.currentUser.handle "B" .all none)]⟩

/-- What the handle of the first key denotes. -/
def firstOfTwo : OpenKey :=
  ⟨(Location.ofRoot .currentUser).below "A", .all, none⟩

/-- The first key is deleted, and the second is renamed, but not to the name of the first. -/
def deleteFirst : List Call :=
  [.deleteKey RootKey.currentUser.handle "A" none,
   .renameKey RootKey.currentUser.handle "B" "C" none]

/-- The old handle is dead after the deletion, since the renaming brings nothing to its place. -/
theorem dead_after_deleteFirst :
    createTwo.store.followed (some firstOfTwo.location.place) deleteFirst = none ∧
      createTwo.store.NoSuccessor firstOfTwo.location.place (some firstOfTwo.location.place)
        deleteFirst ∧
      (createTwo.extended (deleteFirst.map .call)).store.Dead ⟨0x1000⟩ := by
  obtain ⟨hiff, hgoes⟩ := stale_handles_denote_what_comes_to_their_place createTwo firstOfTwo rfl
    (by decide +kernel) deleteFirst (by decide +kernel)
  have hdeleted :
      createTwo.store.followed (some firstOfTwo.location.place) deleteFirst = none := by
    decide +kernel
  have hnone : createTwo.store.NoSuccessor firstOfTwo.location.place
      (some firstOfTwo.location.place) deleteFirst := by
    decide +kernel
  refine ⟨hdeleted, hnone, ?_⟩
  have hempty := hiff.mpr hnone deleteFirst (List.prefix_refl _) (by rw [hdeleted]; simp)
  have hmissing := Option.isNone_iff_eq_none.mp (Option.isSome_eq_false_iff.mp hempty)
  have hdead := hgoes deleteFirst (List.prefix_refl _) ⟨0x1000⟩ (by decide +kernel)
  rwa [hmissing] at hdead

/-- The first key is deleted, and one of the same name is created. -/
def recreateFirst : List Call :=
  [.deleteKey RootKey.currentUser.handle "A" none,
   .createKey RootKey.currentUser.handle "A" .all none]

/-- Without the condition on other keys nothing of the kind is true: the old handle denotes the key
    that was created in place of the one that it was opened on. -/
theorem a_stale_handle_denotes_a_new_key :
    ¬ ∀ (l : Timeline) (key : KeyHandle) (k : OpenKey) (calls : List Call),
      key.isPredefined = false → k.transaction = none → l.store.opened key = some k →
      l.store.hives.contains k.location = true →
      (∀ call ∈ calls, call.key?.isSome ∧ call.transaction? = none) →
      l.store.followed (some k.location.place) calls = none →
      (l.extended (calls.map .call)).store.opened key = some k →
      (l.extended (calls.map .call)).store.Dead key := by
  intro hall
  have hdead := hall createTwo ⟨0x1000⟩ firstOfTwo recreateFirst (by decide +kernel) rfl
    (by decide +kernel) (by decide +kernel) (by decide +kernel) (by decide +kernel)
    (by decide +kernel)
  have hread : (outcome (Store.perform (.queryInfo ⟨0x1000⟩))
      (createTwo.extended (recreateFirst.map .call)).store).isOk = true := by
    decide +kernel
  cases hresult : outcome (Store.perform (.queryInfo ⟨0x1000⟩))
      (createTwo.extended (recreateFirst.map .call)).store with
  | error e => exact absurd hread (by rw [hresult]; exact Bool.false_ne_true)
  | ok answer => exact (hdead (.queryInfo ⟨0x1000⟩) rfl rfl).ok (eq_of_outcome hresult)

end TransactionalRegistry
