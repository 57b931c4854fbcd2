import TransactionalRegistry.Proofs.Paths
import TransactionalRegistry.Proofs.Timelines

/-!
# Protected places

A call that would create, delete, rename or write to a key at a protected place, or below one, is
refused, whichever handle it goes through and however long that has been open. So what stands there
stays as it is, but for one kind of change: a call is checked against the place that it is about,
and a renaming changes more than that. It takes along all that is below the renamed key, and it
brings the key to another place, which nobody looks at.

A renaming therefore carries a protected key away if it is of a key above it; and where there is no
key yet at a protected place, a renaming can bring one there. Both are the same oversight, and
nothing else gets past the protection: what is at a protected place and below it stays the same
through some calls just as long as none of them, made in the live trees, is such a renaming.

## Main definitions

* `Flat.SameWithin`: Two maps have the same entries at a place and below it.
* `Flat.Carries`: A renaming carries a key away from a place, or to it.
* `Store.liveChange?`: The change that a call makes to the live trees.
* `Store.Spares`, `Store.Steady`: A call, and a sequence of calls, makes no such renaming in the
  live trees.

## Theorems

* `Flat.Turns.sameWithin_iff`: What a change does to a place that it is not about.
* `Store.perform_unprotected`: A call that has made a change was not about a protected place.
* `Store.perform_live`: A call on a key makes that change, or leaves the live trees alone.
* `Store.perform_sameWithin_iff`, `Store.sameWithin_iff_steady`: What a call, and what a sequence of
  calls does to a protected place.
* `protected_places_change_by_renaming_alone`: Protected places, after every run.
* `renaming_above_carries_a_protected_key_away`: A renaming that is not refused.
-/

namespace TransactionalRegistry

/-! ## Places -/

namespace Flat

variable {f f' f'' : Flat} {p q r : Place}

/-- What is below a place that is below another is below that one. -/
theorem Place.Within.trans (h : p.Within q) (h' : q.Within r) : p.Within r := by
  rw [Place.within_iff] at h h' ⊢
  exact ⟨h.1.trans h'.1, h'.2.trans h.2⟩

/-- Of two places above a third one, one is above the other. -/
theorem Place.Within.total (hp : r.Within p) (hq : r.Within q) : p.Within q ∨ q.Within p := by
  rw [Place.within_iff] at hp hq
  rw [Place.within_iff, Place.within_iff]
  have hroot := hp.1.symm.trans hq.1
  exact (List.prefix_or_prefix_of_prefix hp.2 hq.2).symm.imp (⟨hroot, ·⟩) (⟨hroot.symm, ·⟩)

/-- Two maps have the same entries at a place and below it. -/
def SameWithin (p : Place) (f f' : Flat) : Prop :=
  ∀ more, f'.at? (p.below more) = f.at? (p.below more)

/-- A map has the same entries as itself. -/
theorem SameWithin.refl (p : Place) (f : Flat) : SameWithin p f f :=
  fun _ => rfl

/-- Either map may be named first. -/
theorem SameWithin.symm (h : SameWithin p f f') : SameWithin p f' f :=
  fun more => (h more).symm

/-- What stays the same twice stays the same. -/
theorem SameWithin.trans (h : SameWithin p f f') (h' : SameWithin p f' f'') : SameWithin p f f'' :=
  fun more => (h' more).trans (h more)

/-- In particular the entry at the place itself is the same. -/
theorem SameWithin.at_place (h : SameWithin p f f') : f'.at? p = f.at? p := by
  have hnil := h []
  rwa [below_nil] at hnil

/-- Two maps that have nothing at a place have nothing below it. -/
theorem sameWithin_of_vacant (h : f.at? p = none) (h' : f'.at? p = none) : SameWithin p f f' :=
  fun more => (f'.closed p more h').trans (f.closed p more h).symm

end Flat

/-- What is left of the way to a place after as many names as there are on the way to `l`. -/
def Location.wayBelow (l : Location) (p : Flat.Place) : List String :=
  p.keys.drop l.path.folded.length

/-- Below a location all of the way is left. -/
theorem Location.wayBelow_place (l : Location) (more : List String) :
    l.wayBelow (l.place.below more) = more :=
  List.drop_left

/-- The new place of a key is as far down as the old one. -/
theorem Location.wayBelow_renamedPlace {l : Location} (hinner : l.path.names ≠ [])
    (newName : String) (more : List String) :
    l.wayBelow ((l.renamedPlace newName).below more) = more := by
  -- One name takes the place of another one.
  have hlength : l.path.folded.length = (l.path.folded.dropLast ++ [Text.fold newName]).length := by
    have hpos : l.path.folded.length ≠ 0 := by simp [Path.folded, hinner]
    simp only [List.length_append, List.length_dropLast, List.length_singleton]
    omega
  rw [Location.wayBelow, hlength]
  exact List.drop_left

/-- The place that a key is brought to is beside the old one: whatever the new place is below, the
    old one is below as well, but for the new place itself. -/
theorem Location.place_within_of_renamedPlace {l : Location} {newName : String} {p : Flat.Place}
    (h : (l.renamedPlace newName).Within p) :
    p.Within (l.renamedPlace newName) ∨ l.place.Within p := by
  rw [Flat.Place.within_iff] at h
  rcases p with ⟨root, keys⟩
  obtain ⟨rfl, hprefix⟩ := h
  rcases List.prefix_concat_iff.mp hprefix with hall | habove
  · -- The place is the new one itself.
    exact Or.inl (Flat.Place.within_iff.mpr ⟨rfl, hall ▸ List.prefix_refl _⟩)
  · -- The place is above the new one, and so it is above the old one.
    refine Or.inr (Flat.Place.within_iff.mpr ⟨rfl, ?_⟩)
    exact habove.trans (List.dropLast_prefix _)

/-! ## Changes -/

namespace Flat

variable {f f' : Flat} {p : Place} {m : Mutation} {l : Location} {newName : String}

/-- A renaming, not of the letter case alone, carries a key away from a place or to it: the key
    that is as far below the renamed one as the place is below where that was, or will be. -/
def Carries (f : Flat) (p : Place) : Mutation → Prop
  | .renameKey l newName => l.renamedPlace newName ≠ l.place ∧
      (p = l.place.below (l.wayBelow p) ∨ p = (l.renamedPlace newName).below (l.wayBelow p)) ∧
      (f.at? (l.place.below (l.wayBelow p))).isSome
  | _ => False

instance (f : Flat) (p : Place) : (m : Mutation) → Decidable (f.Carries p m)
  | .renameKey l newName => inferInstanceAs (Decidable (l.renamedPlace newName ≠ l.place ∧
      (p = l.place.below (l.wayBelow p) ∨ p = (l.renamedPlace newName).below (l.wayBelow p)) ∧
      (f.at? (l.place.below (l.wayBelow p))).isSome))
  | .createKey _ => inferInstanceAs (Decidable False)
  | .deleteKey _ => inferInstanceAs (Decidable False)
  | .setValue .. => inferInstanceAs (Decidable False)
  | .deleteValue .. => inferInstanceAs (Decidable False)

/-- Creating a key elsewhere leaves a place and all below it alone. -/
theorem Created.sameWithin (h : Created f f' l) (htarget : ¬ l.place.Within p) :
    SameWithin p f f' := by
  intro more
  refine h.apart _ ?_
  rintro ⟨hroot, -, hway⟩
  -- A place on the way to the location has the location below it.
  exact htarget (.trans (Place.within_iff.mpr ⟨hroot.symm, hway⟩) ⟨more, rfl⟩)

/-- A change of the entry at one place leaves every other place alone. -/
theorem sameWithin_of_update {e : Option Entry}
    (h : f'.at? = Function.update f.at? l.place e) (htarget : ¬ l.place.Within p) :
    SameWithin p f f' := by
  intro more
  have hne : p.below more ≠ l.place := fun heq => htarget ⟨more, heq.symm⟩
  rw [h, Function.update_of_ne hne]

/-- A change of letter case retitles the key alone. -/
theorem Moved.sameWithin_of_retitled (h : Moved f f' l newName) (htarget : ¬ l.place.Within p)
    (hsame : l.renamedPlace newName = l.place) : SameWithin p f f' := by
  intro more
  by_cases hbelow : (p.below more).Within l.place
  · obtain ⟨rest, hrest⟩ := hbelow
    cases rest with
    -- This would be the key itself, and it is not below the place.
    | nil => exact absurd ⟨more, (hrest.trans (below_nil _)).symm⟩ htarget
    | cons key rest =>
      have hmoved := h.moved (key :: rest)
      rw [hsame] at hmoved
      rw [hrest, hmoved]
      cases f.at? (l.place.below (key :: rest)) <;> rfl
  · exact h.apart _ hbelow (hsame ▸ hbelow)

/-- A renaming leaves alone what is neither above nor below one of its two places. -/
theorem Moved.sameWithin_of_apart (h : Moved f f' l newName) (htarget : ¬ l.place.Within p)
    (hold : ¬ p.Within l.place) (hnew : ¬ p.Within (l.renamedPlace newName)) :
    SameWithin p f f' := by
  intro more
  have hmore : (p.below more).Within p := ⟨more, rfl⟩
  refine h.apart _ (fun hbelow => ?_) (fun hbelow => ?_)
  · -- Of two places above one, one would be above the other, and both are excluded.
    exact (hmore.total hbelow).elim hold htarget
  · refine (hmore.total hbelow).elim hnew (fun hwithin => ?_)
    exact (Location.place_within_of_renamedPlace hwithin).elim hnew htarget

/-- Below one of the two places, to be carried means that there is a key as far below the old
    one. -/
theorem Renamed.carries_iff (h : Renamed f f' l newName)
    (hmoves : l.renamedPlace newName ≠ l.place) {more : List String}
    (hp : p = l.place.below more ∨ p = (l.renamedPlace newName).below more) :
    f.Carries p (.renameKey l newName) ↔ (f.at? (l.place.below more)).isSome := by
  have hway : l.wayBelow p = more := by
    rcases hp with rfl | rfl
    · exact l.wayBelow_place more
    · exact Location.wayBelow_renamedPlace h.inner newName more
  rw [Carries, hway]
  exact ⟨fun hcarries => hcarries.2.2, fun hsome => ⟨hmoves, hp, hsome⟩⟩

/-- What is at a place that a renaming is not about stays the same just if no key is carried. -/
theorem Renamed.sameWithin_iff (h : Renamed f f' l newName) (htarget : ¬ l.place.Within p) :
    SameWithin p f f' ↔ ¬ f.Carries p (.renameKey l newName) := by
  by_cases hsame : l.renamedPlace newName = l.place
  · exact iff_of_true (h.sameWithin_of_retitled htarget hsame) (fun hcarries => hcarries.1 hsame)
  by_cases hold : p.Within l.place
  · -- The key at the place, if there is one, is carried away.
    obtain ⟨more, rfl⟩ := hold
    rw [h.carries_iff hsame (Or.inl rfl), Option.not_isSome_iff_eq_none]
    have hleft := h.left hsame more
    exact ⟨fun hsw => hsw.at_place.symm.trans hleft, fun hnone => sameWithin_of_vacant hnone hleft⟩
  by_cases hnew : p.Within (l.renamedPlace newName)
  · -- A key that comes to the place has been as far below the renamed one.
    obtain ⟨more, rfl⟩ := hnew
    rw [h.carries_iff hsame (Or.inr rfl), Option.not_isSome_iff_eq_none]
    have hfree := h.free hsame more
    have hmoved := h.moved more
    constructor
    · intro hsw
      rw [hsw.at_place, hfree] at hmoved
      exact Option.map_eq_none_iff.mp hmoved.symm
    · intro hnone
      rw [hnone, Option.map_none] at hmoved
      exact sameWithin_of_vacant hfree hmoved
  · -- Far from both places nothing is carried and nothing changes.
    refine iff_of_true (h.sameWithin_of_apart htarget hold hnew) ?_
    rintro ⟨-, hp | hp, -⟩
    · exact hold ⟨_, hp⟩
    · exact hnew ⟨_, hp⟩

/-- A change that is about another place leaves a place and all below it alone, unless it is a
    renaming that carries a key away from the place or to it. -/
theorem Turns.sameWithin_iff (h : f.Turns f' m) (htarget : ¬ m.target.place.Within p) :
    SameWithin p f f' ↔ ¬ f.Carries p m := by
  cases m with
  | createKey l => exact iff_of_true (Created.sameWithin h htarget) id
  | deleteKey l => exact iff_of_true (sameWithin_of_update (Deleted.after h) htarget) id
  | renameKey l newName => exact Renamed.sameWithin_iff h htarget
  | setValue l name data =>
    obtain ⟨e, -, hafter⟩ := h
    exact iff_of_true (sameWithin_of_update hafter htarget) id
  | deleteValue l name =>
    obtain ⟨e, -, -, hafter⟩ := h
    exact iff_of_true (sameWithin_of_update hafter htarget) id

end Flat

/-! ## Calls -/

namespace Store

variable {s : Store} {P : Location}

/-- What is protected lies not below what a call may change. -/
theorem not_within_of_unprotected {l : Location} (hP : P ∈ s.protectedPlaces)
    (h : s.isProtected l = false) : ¬ l.place.Within P.place := by
  rw [← Location.isWithin_iff]
  exact List.any_eq_false.mp h P hP

/-- A key is made only where none is protected. -/
theorem createKey_unprotected (parent : KeyHandle) (subKey : String) (access : Access)
    (transaction : Option TransactionHandle) (s : Store) :
    Ends (createKey parent subKey access transaction) s
      (fun answer _ => answer.2 = .createdNew → ∀ p, s.opened parent = some p →
        s.isProtected (p.location.below subKey) = false)
      (fun _ _ => True) := by
  unfold createKey
  refine ends_lookUp (fun p hp => ?_) (fun _ => trivial)
  refine (target_ends p subKey _ s).bind ?_ (fun _ _ _ => trivial)
  rintro l s₁ ⟨rfl, hobs⟩
  refine (view_observes _ s₁).bind ?_ (fun _ _ _ => trivial)
  intro trees s₂ hview
  cases hpresent : trees.contains (p.location.below subKey) with
  | true =>
    simp only [Bool.not_true, Bool.false_eq_true, if_false]
    exact ends_requireAdmissible (fun _ hcreated => absurd hcreated (by simp)) (fun _ => trivial)
  | false =>
    simp only [Bool.not_false, if_true]
    refine (createMissing_ends p _ _ s₂).bind ?_ (fun _ _ _ => trivial)
    rintro _ s₃ ⟨hunprotected, -⟩
    refine ends_requireAdmissible (fun _ _ p' hp' => ?_) (fun _ => trivial)
    obtain rfl : p = p' := Option.some.inj (hp.symm.trans hp')
    -- Looking has left the protected places alone.
    rw [hview.1.1.isProtected, hobs.1.isProtected] at hunprotected
    exact hunprotected

/-- A key is deleted or renamed only where none is protected. -/
theorem changeKey_unprotected (parent : KeyHandle) (subKey : String)
    (transaction : Option TransactionHandle) (mutation : Location → Mutation) (s : Store) :
    Ends (changeKey parent subKey transaction mutation) s
      (fun _ _ => ∀ p, s.opened parent = some p →
        s.isProtected (p.location.below subKey) = false)
      (fun _ _ => True) := by
  unfold changeKey
  refine ends_lookUp (fun p hp => ?_) (fun _ => trivial)
  refine (target_ends p subKey _ s).bind ?_ (fun _ _ _ => trivial)
  rintro l s₁ ⟨rfl, hobs⟩
  refine ends_require (fun _ => ?_) (fun _ => trivial)
  refine ends_requireUnprotected (fun hunprotected => ?_) (fun _ => trivial)
  rw [hobs.1.isProtected] at hunprotected
  refine ends_of_forall (fun _ _ p' hp' => ?_) (fun _ _ => trivial)
  obtain rfl : p = p' := Option.some.inj (hp.symm.trans hp')
  exact hunprotected

/-- A value is changed only where the key is not protected. -/
theorem changeValue_unprotected (key : KeyHandle) (transaction : Option TransactionHandle)
    (mutation : Location → Mutation) (s : Store) :
    Ends (changeValue key transaction mutation) s
      (fun _ _ => ∀ k, s.opened key = some k → s.isProtected k.location = false)
      (fun _ _ => True) := by
  refine (changeValue_ends key transaction mutation s).mono ?_ (fun _ _ _ => trivial)
  rintro _ s' ⟨k, s₁, hk, hwritable, -⟩ k' hk'
  obtain rfl : k = k' := Option.some.inj (hk.symm.trans hk')
  rw [writable, hk, Option.any_some, Bool.and_eq_true, Bool.not_eq_true'] at hwritable
  exact hwritable.2

/-- A change that is read off an open handle is about the location that was found unprotected. -/
theorem unprotected_of_map (mutation : Location → Mutation)
    (htarget : ∀ l, (mutation l).target = l) {key : KeyHandle} {place : OpenKey → Location}
    {m : Mutation} (hplace : ∀ k, s.opened key = some k → s.isProtected (place k) = false)
    (hm : ((s.opened key).map fun k => mutation (place k)) = some m) :
    s.isProtected m.target = false := by
  obtain ⟨k, hk, rfl⟩ := Option.map_eq_some_iff.mp hm
  rw [htarget]
  exact hplace k hk

/-- A call that has made a change was not about a protected place. -/
theorem perform_unprotected (call : Call) (s : Store) :
    Ends (perform call) s
      (fun answer _ => ∀ m, s.changeOf call answer = some m → s.isProtected m.target = false)
      (fun _ _ => True) := by
  cases call with
  | createKey parent subKey access transaction =>
    unfold perform
    refine ends_bind (ends_modify ?_)
    refine (createKey_unprotected parent subKey access transaction _).mono ?_ (fun _ _ h => h)
    intro answer s' hunprotected m hm
    rw [changeOf] at hm
    split at hm
    · next hcreated => exact unprotected_of_map .createKey (fun _ => rfl) (hunprotected hcreated) hm
    · exact absurd hm (by simp)
  | deleteKey parent subKey transaction =>
    exact (changeKey_unprotected parent subKey transaction .deleteKey s).mono
      (fun _ _ h _ hm => unprotected_of_map .deleteKey (fun _ => rfl) h hm) (fun _ _ h => h)
  | renameKey parent subKey newName transaction =>
    exact (changeKey_unprotected parent subKey transaction (.renameKey · newName) s).mono
      (fun _ _ h _ hm => unprotected_of_map (.renameKey · newName) (fun _ => rfl) h hm)
      (fun _ _ h => h)
  | setValue key name data transaction =>
    exact (changeValue_unprotected key transaction (.setValue · name data) s).mono
      (fun _ _ h _ hm => unprotected_of_map (.setValue · name data) (fun _ => rfl) h hm)
      (fun _ _ h => h)
  | deleteValue key name transaction =>
    exact (changeValue_unprotected key transaction (.deleteValue · name) s).mono
      (fun _ _ h _ hm => unprotected_of_map (.deleteValue · name) (fun _ => rfl) h hm)
      (fun _ _ h => h)
  -- The other calls make no change at all.
  | _ => exact ends_of_forall (fun _ _ _ hm => absurd hm (by simp [changeOf])) (fun _ _ => trivial)

/-- The change that a call makes to the live trees, if it succeeds and runs in no transaction. -/
def liveChange? (s : Store) (call : Call) : Option Mutation :=
  match outcome (perform call) s with
  | .ok answer => if s.transactionOf call = none then s.changeOf call answer else none
  | .error _ => none

/-- A change to the live trees is one of a call that has succeeded in no transaction. -/
theorem liveChange?_eq_some_iff {call : Call} {m : Mutation} :
    s.liveChange? call = some m ↔ ∃ answer, outcome (perform call) s = .ok answer ∧
      s.transactionOf call = none ∧ s.changeOf call answer = some m := by
  rw [liveChange?]
  cases outcome (perform call) s with
  | ok answer => by_cases hlive : s.transactionOf call = none <;> simp [hlive]
  | error e => simp

/-- A call on a key makes its change to the live trees, and leaves them alone if it has none. -/
theorem perform_live (call : Call) (hkey : call.key?.isSome) (s : Store) :
    match s.liveChange? call with
    | some m => ∃ now, m.apply now s.hives = .ok (endState (perform call) s).hives
    | none => (endState (perform call) s).hives = s.hives := by
  have hends := (perform_ends call hkey s).and (looks_of_changeOf call s)
  -- A call that fails has looked at most.
  cases hresult : perform call s with
  | error e s' =>
    simp only [liveChange?, outcome, hresult]
    rw [endState_of_error hresult]
    exact (hends.error hresult).1.1.hives
  | ok answer s' =>
    obtain ⟨⟨s₁, s₂, hobs, hchange, htrees⟩, hlooks⟩ := hends.ok hresult
    simp only [liveChange?, outcome, hresult]
    rw [endState_of_ok hresult, htrees.hives]
    rcases hchange with ⟨hnone, rfl⟩ | ⟨m, hm, hchanged⟩
    · simp only [hnone, ite_self]
      exact hobs.1.hives
    · -- A call that has made a change has looked, and so it is known where the change was made.
      rw [lookedThrough, if_pos (hlooks (by rw [hm]; rfl))] at hobs hchanged
      cases hin : s.transactionOf call with
      | some t =>
        -- A change in a transaction is made to its private copy.
        rw [hin] at hchanged
        simp only [reduceCtorEq, if_false]
        exact (hchanged.confined.hives rfl).trans hobs.1.hives
      | none =>
        rw [hin] at hchanged
        obtain ⟨trees, changed, hsees, happly, rfl⟩ := hchanged
        have hlive : s.hives = trees := hobs.1.hives.symm.trans hsees
        simp only [if_true, hm, hlive]
        exact ⟨s₁.clock.now, happly⟩

/-- A call that changes no live tree leaves them as they are. -/
theorem hives_of_no_liveChange {call : Call} (hkey : call.key?.isSome)
    (hnone : s.liveChange? call = none) : (endState (perform call) s).hives = s.hives := by
  have hlive := perform_live call hkey s
  rwa [hnone] at hlive

/-- A call turns the live trees as its change says. -/
theorem turns_of_liveChange {call : Call} {m : Mutation} (hkey : call.key?.isSome)
    (hsome : s.liveChange? call = some m) :
    s.hives.flat.Turns (endState (perform call) s).hives.flat m := by
  have hlive := perform_live call hkey s
  rw [hsome] at hlive
  obtain ⟨now, happly⟩ := hlive
  exact Mutation.turns_of_ok happly

/-- A call makes no renaming in the live trees that carries a key away from a place or to it. -/
def Spares (p : Flat.Place) (s : Store) (call : Call) : Prop :=
  match outcome (perform call) s with
  | .ok answer => s.transactionOf call = none →
      ∀ m ∈ s.changeOf call answer, ¬ s.hives.flat.Carries p m
  | .error _ => True

instance (p : Flat.Place) (s : Store) (call : Call) : Decidable (s.Spares p call) :=
  match h : outcome (perform call) s with
  | .ok answer =>
    decidable_of_iff (s.transactionOf call = none →
      ∀ m ∈ s.changeOf call answer, ¬ s.hives.flat.Carries p m) (by rw [Spares, h])
  | .error _ => decidable_of_iff True (by rw [Spares, h])

/-- To spare a place is to make no change to the live trees that carries something away or to it. -/
theorem spares_iff {p : Flat.Place} {call : Call} :
    s.Spares p call ↔ ∀ m, s.liveChange? call = some m → ¬ s.hives.flat.Carries p m := by
  simp only [liveChange?_eq_some_iff, Spares]
  cases outcome (perform call) s with
  | error e => simp
  | ok answer =>
    simp only [Except.ok.injEq, exists_eq_left', Option.mem_def]
    exact ⟨fun hall m hm => hall hm.1 m hm.2, fun hall hlive m hm => hall m ⟨hlive, hm⟩⟩

/-- A call on a key leaves what is at a protected place and below it alone just if it spares the
    place. -/
theorem perform_sameWithin_iff (hP : P ∈ s.protectedPlaces) (call : Call)
    (hkey : call.key?.isSome) :
    Flat.SameWithin P.place s.hives.flat (endState (perform call) s).hives.flat ↔
      s.Spares P.place call := by
  rw [spares_iff]
  cases hlive : s.liveChange? call with
  | none =>
    rw [hives_of_no_liveChange hkey hlive]
    exact iff_of_true (.refl _ _) (fun m hm => absurd hm (by simp))
  | some m =>
    obtain ⟨answer, hok, -, hm⟩ := liveChange?_eq_some_iff.mp hlive
    -- The call has passed the check, so it was not about the place or what is below it.
    have hunprotected := (perform_unprotected call s).ok (eq_of_outcome hok) m hm
    have hiff := (turns_of_liveChange hkey hlive).sameWithin_iff
      (not_within_of_unprotected hP hunprotected)
    exact hiff.trans ⟨fun hspared m' hm' => Option.some.inj hm' ▸ hspared, fun hall => hall m rfl⟩

/-- No call of a sequence makes a renaming in the live trees that carries a key away from a place or
    to it. -/
def Steady (p : Flat.Place) (s : Store) : List Call → Prop
  | [] => True
  | call :: rest => s.Spares p call ∧ (endState (perform call) s).Steady p rest

instance Steady.decidable (p : Flat.Place) (s : Store) :
    (calls : List Call) → Decidable (s.Steady p calls)
  | [] => inferInstanceAs (Decidable True)
  | call :: rest =>
    have := Steady.decidable p (endState (perform call) s) rest
    inferInstanceAs (Decidable (s.Spares p call ∧ (endState (perform call) s).Steady p rest))

/-- What is at a protected place and below it stays the same throughout some calls on keys just if
    all of them spare the place. -/
theorem sameWithin_iff_steady (hP : P ∈ s.protectedPlaces) {calls : List Call}
    (hkeys : ∀ call ∈ calls, call.key?.isSome) :
    (∀ made, made <+: calls → Flat.SameWithin P.place s.hives.flat
      ((made.map Action.call).foldl Store.after s).hives.flat) ↔ s.Steady P.place calls := by
  -- The calls get longer at the front. What the first one spares is what the others have to leave
  -- alone.
  induction calls generalizing s with
  | nil =>
    refine iff_of_true (fun made hmade => ?_) trivial
    rw [List.prefix_nil.mp hmade]
    exact .refl _ _
  | cons call rest ih =>
    have hkey := hkeys call List.mem_cons_self
    have hP' : P ∈ (endState (perform call) s).protectedPlaces :=
      (perform_confined call hkey s).protectedPlaces.symm ▸ hP
    rw [Steady, ← perform_sameWithin_iff hP call hkey,
      ← ih hP' (fun c hc => hkeys c (List.mem_cons_of_mem _ hc))]
    constructor
    · intro hall
      have hfirst := hall [call] (List.prefix_append [call] rest)
      refine ⟨hfirst, fun made hmade => hfirst.symm.trans ?_⟩
      exact hall (call :: made) ((List.prefix_cons_inj call).mpr hmade)
    · -- Where nothing was done yet, all is the same; else the first call comes first.
      rintro ⟨hfirst, hrest⟩ made hmade
      cases made with
      | nil => exact .refl _ _
      | cons first made =>
        obtain ⟨rfl, hmore⟩ := List.cons_prefix_cons.mp hmade
        exact hfirst.trans (hrest made hmore)

/-! ## Every run -/

theorem Managed.protectedPlaces {created : Option TransactionHandle} {s' : Store}
    (h : Managed s created s') : s'.protectedPlaces = s.protectedPlaces := by
  cases h with
  | looked hlook => exact hlook.protectedPlaces
  | created hcreated => exact hcreated.protectedPlaces
  | settled hchecked hsettled _ =>
    exact hsettled.protectedPlaces.trans hchecked.look.protectedPlaces
  | discarded hchecked hdiscarded _ =>
    exact hdiscarded.protectedPlaces.trans hchecked.look.protectedPlaces
  | closed _ _ hprotected _ _ _ => exact hprotected

/-- No call protects a place or gives one free. -/
theorem perform_protectedPlaces (haligned : s.Aligned) (call : Call) :
    (endState (perform call) s).protectedPlaces = s.protectedPlaces := by
  cases hkey : call.key? with
  | some key => exact (perform_confined call (by rw [hkey]; rfl) s).protectedPlaces
  | none =>
    exact ((perform_manages haligned call hkey).mono (fun _ _ h => h.protectedPlaces)
      (fun _ _ h => h.protectedPlaces)).endState

/-- What is protected stays protected. -/
theorem protected_after (haligned : s.Aligned) (hP : P ∈ s.protectedPlaces) (action : Action) :
    P ∈ (s.after action).protectedPlaces := by
  cases action with
  | call call => exact (perform_protectedPlaces haligned call).symm ▸ hP
  | ask t =>
    have hchecked : Checked t s (s.after (.ask t)) :=
      (transactionState?_ends t s).endState_total
    exact hchecked.look.protectedPlaces.symm ▸ hP
  | protect l => exact List.mem_append_left _ hP
  | pass time => exact hP
  | note entry => exact hP

end Store

namespace Timeline

variable {l : Timeline} {P : Location}

/-- A place that was protected at some time still is. -/
theorem protected_of_mem (h : .protect P ∈ l.actions) : P ∈ l.store.protectedPlaces := by
  rcases l with ⟨clock, actions⟩
  -- Either it was protected by the last action, or it was before and no action takes that back.
  induction actions using List.reverseRecOn with
  | nil => exact absurd h (by simp)
  | append_singleton actions action ih =>
    change P ∈ (after ⟨clock, actions⟩ action).store.protectedPlaces
    rw [store_after]
    rcases List.mem_append.mp h with hearlier | hlast
    · exact Store.protected_after (Chronicle.run_aligned clock actions) (ih hearlier) action
    · rw [← List.mem_singleton.mp hlast]
      exact List.mem_append_right _ (List.mem_singleton.mpr rfl)

end Timeline

/-- Let anything have happened to a new store, the protection of a location included, and let any
    calls on keys be made then, with any handles, paths, names and data and any outcomes.

    What is at the protected place and below it in the live trees stays the same throughout, which
    keys are there, with which names and values, just if no call that runs in no transaction has
    renamed a key so that one was carried away from the place or to it. -/
theorem protected_places_change_by_renaming_alone (l : Timeline) (P : Location)
    (hprotected : .protect P ∈ l.actions) (calls : List Call)
    (hkeys : ∀ call ∈ calls, call.key?.isSome) :
    (∀ made, made <+: calls → Flat.SameWithin P.place l.store.hives.flat
      (l.extended (made.map .call)).store.hives.flat) ↔ l.store.Steady P.place calls := by
  simp only [Timeline.store_extended]
  exact Store.sameWithin_iff_steady (Timeline.protected_of_mem hprotected) hkeys

/-- A key below `Software`, protected after it was created. -/
def policy : Location :=
  (Location.ofRoot .currentUser).below "Software\\Policy"

/-- The key is created through a handle that stays open, and then it is protected. -/
def createAndProtect : Timeline :=
  ⟨⟨0, []⟩,
    [.call (.createKey RootKey.currentUser.handle "Software\\Policy" .all none),
     .protect policy]⟩

/-- The key is protected by the last of these actions. -/
theorem protect_mem_createAndProtect : .protect policy ∈ createAndProtect.actions :=
  List.mem_cons_of_mem _ List.mem_cons_self

/-- A value is written through the old handle, which is refused; a key is created beside the
    protected one and renamed; and the protected key is renamed, which is refused. -/
def workBeside : List Call :=
  [.setValue ⟨0x1000⟩ "Level" ⟨4, [7, 0, 0, 0]⟩ none,
   .createKey RootKey.currentUser.handle "Software\\Beside" .all none,
   .renameKey RootKey.currentUser.handle "Software\\Beside" "Aside" none,
   .renameKey ⟨0x1000⟩ "" "Mine" none]

theorem policy_same_after_workBeside :
    createAndProtect.store.Steady policy.place workBeside ∧
      Flat.SameWithin policy.place createAndProtect.store.hives.flat
        (createAndProtect.extended (workBeside.map .call)).store.hives.flat := by
  have hsteady : createAndProtect.store.Steady policy.place workBeside := by decide +kernel
  exact ⟨hsteady, (protected_places_change_by_renaming_alone createAndProtect policy
    protect_mem_createAndProtect workBeside (by decide +kernel)).mpr hsteady _ (List.prefix_refl _)⟩

/-- Without the condition on renamings nothing of the kind is true: a renaming of the key above is
    not refused, and there is no key at the protected place afterwards. -/
theorem renaming_above_carries_a_protected_key_away :
    ¬ ∀ (l : Timeline) (P : Location) (calls : List Call), .protect P ∈ l.actions →
      (∀ call ∈ calls, call.key?.isSome ∧ call.transaction? = none) →
      Flat.SameWithin P.place l.store.hives.flat
        (l.extended (calls.map .call)).store.hives.flat := by
  intro hall
  have hsame := (hall createAndProtect policy
    [.renameKey RootKey.currentUser.handle "Software" "Moved" none] protect_mem_createAndProtect
    (by decide +kernel)).at_place
  have hbefore : (createAndProtect.store.hives.flat.at? policy.place).isSome = true := by
    decide +kernel
  have hafter : ((createAndProtect.extended
      [.call (.renameKey RootKey.currentUser.handle "Software" "Moved" none)]).store.hives.flat.at?
        policy.place).isSome = false := by
    decide +kernel
  rw [← hsame] at hbefore
  exact absurd (hbefore.symm.trans hafter) (by simp)

end TransactionalRegistry
