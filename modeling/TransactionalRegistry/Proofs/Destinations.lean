import TransactionalRegistry.Proofs.Existence
import TransactionalRegistry.Proofs.ProtectedPlaces

/-!
# Where keys go

A key is one and the same from its creation to its deletion, whatever becomes of its place: a
renaming takes it elsewhere, with all that is below it, and every other change leaves it where it
is. So the keys before a change and those after it can be paired. A key that was there before is
found again at its destination, unless it was deleted, and no two are found at one place; a place
that a key has left is empty; and an empty place is filled by a creation at it or below it, or by a
renaming that takes a key there, and by nothing else.

## Main definitions

* `Mutation.destination?`: Where the key at a place is after a change.
* `Flat.Fills`: A change brings a key to an empty place.

## Theorems

* `Flat.Turns.at_destination`: A key is found at its destination.
* `Flat.Turns.destination_inj`: No two keys are found at one place.
* `Flat.Turns.origin`: Every key was there before, unless keys were created.
* `Flat.Turns.left_empty`: A place that its key has left is empty.
* `Hives.filled_iff`: When a key comes to an empty place.
-/

namespace TransactionalRegistry

/-- Where the key at a place is after a change; nowhere, if it was deleted. -/
def Mutation.destination? (m : Mutation) (p : Flat.Place) : Option Flat.Place :=
  match m with
  | .deleteKey l => if p = l.place then none else some p
  | .renameKey l newName => some (l.carried newName p)
  | _ => some p

namespace Flat

instance (p q : Place) : Decidable (p.Within q) :=
  decidable_of_iff _ Place.within_iff.symm

/-- A change brings a key to an empty place: it creates one there or below, or it takes the key
    there that is as far below the renamed one as the place is below where that goes. -/
def Fills (f : Flat) (p : Place) : Mutation → Prop
  | .createKey l => f.at? p = none ∧ l.place.Within p
  | .renameKey l newName => f.at? p = none ∧ p = (l.renamedPlace newName).below (l.wayBelow p) ∧
      (f.at? (l.place.below (l.wayBelow p))).isSome
  | _ => False

instance (f : Flat) (p : Place) : DecidablePred (f.Fills p)
  | .createKey l => inferInstanceAs (Decidable (f.at? p = none ∧ l.place.Within p))
  | .renameKey l newName => inferInstanceAs (Decidable (f.at? p = none ∧
      p = (l.renamedPlace newName).below (l.wayBelow p) ∧
      (f.at? (l.place.below (l.wayBelow p))).isSome))
  | .deleteKey _ => inferInstanceAs (Decidable False)
  | .setValue .. => inferInstanceAs (Decidable False)
  | .deleteValue .. => inferInstanceAs (Decidable False)

variable {f f' : Flat} {m : Mutation} {p q r : Place}

theorem Fills.empty (h : f.Fills p m) : f.at? p = none := by
  cases m with
  | createKey l => exact h.1
  | renameKey l newName => exact h.1
  | deleteKey l => exact h.elim
  | setValue l name data => exact h.elim
  | deleteValue l name => exact h.elim

/-- A change of the entry at one place, where there was one, keeps every key where it is. -/
theorem isSome_of_update {e : Entry} (hthere : (f.at? p).isSome)
    (h : f'.at? = Function.update f.at? p (some e)) (q : Place) :
    (f'.at? q).isSome = (f.at? q).isSome := by
  rw [h, Function.update_apply]
  split
  · next hq => rw [hq, hthere, Option.isSome_some]
  · rfl

/-- Setting and deleting a value keep every key where it is. -/
theorem Turns.isSome_setValue {l : Location} {name : String} {data : ValueData}
    (h : f.Turns f' (.setValue l name data)) (q : Place) :
    (f'.at? q).isSome = (f.at? q).isSome := by
  obtain ⟨e, hthere, hafter⟩ := h
  exact isSome_of_update (by rw [hthere]; rfl) hafter q

theorem Turns.isSome_deleteValue {l : Location} {name : String}
    (h : f.Turns f' (.deleteValue l name)) (q : Place) : (f'.at? q).isSome = (f.at? q).isSome := by
  obtain ⟨e, hthere, -, hafter⟩ := h
  exact isSome_of_update (by rw [hthere]; rfl) hafter q

/-- A key that is not deleted is found at its destination. -/
theorem Turns.at_destination (h : f.Turns f' m) (hheld : p ∈ f.held)
    (hgoes : m.destination? p = some q) : q ∈ f'.held := by
  rw [mem_held] at hheld ⊢
  cases m with
  | createKey l =>
    obtain rfl : p = q := Option.some.inj hgoes
    obtain ⟨e, he⟩ := Option.isSome_iff_exists.mp hheld
    rw [Created.kept h p e he, Option.isSome_some]
  | deleteKey l =>
    rw [Mutation.destination?] at hgoes
    split at hgoes
    · exact absurd hgoes (by simp)
    · next hother =>
      obtain rfl : p = q := Option.some.inj hgoes
      rwa [Deleted.after h, Function.update_of_ne hother]
  | renameKey l newName =>
    obtain rfl : l.carried newName p = q := Option.some.inj hgoes
    -- A renaming takes every key to a place of its own.
    exact (Renamed.bijective h).mapsTo hheld
  | setValue l name data =>
    obtain rfl : p = q := Option.some.inj hgoes
    rwa [h.isSome_setValue]
  | deleteValue l name =>
    obtain rfl : p = q := Option.some.inj hgoes
    rwa [h.isSome_deleteValue]

/-- No two keys are found at one place. -/
theorem Turns.destination_inj (h : f.Turns f' m) (hp : p ∈ f.held) (hq : q ∈ f.held)
    (hpr : m.destination? p = some r) (hqr : m.destination? q = some r) : p = q := by
  cases m with
  | renameKey l newName =>
    have hcarried : l.carried newName p = l.carried newName q :=
      Option.some.inj (hpr.trans hqr.symm)
    exact (Renamed.bijective h).injOn hp hq hcarried
  | deleteKey l =>
    simp only [Mutation.destination?, Option.ite_none_left_eq_some, Option.some.injEq] at hpr hqr
    exact hpr.2.trans hqr.2.symm
  | createKey l => exact (Option.some.inj hpr).trans (Option.some.inj hqr).symm
  | setValue l name data => exact (Option.some.inj hpr).trans (Option.some.inj hqr).symm
  | deleteValue l name => exact (Option.some.inj hpr).trans (Option.some.inj hqr).symm

/-- Every key was there before, unless keys were created. -/
theorem Turns.origin (h : f.Turns f' m) (hcreate : ∀ l, m ≠ .createKey l) (hq : q ∈ f'.held) :
    ∃ p ∈ f.held, m.destination? p = some q := by
  rw [mem_held] at hq
  cases m with
  | createKey l => exact absurd rfl (hcreate l)
  | deleteKey l =>
    rw [Deleted.after h] at hq
    by_cases hplace : q = l.place
    · -- The place of the deleted key is empty now, so it is not where a key is.
      rw [hplace, Function.update_self] at hq
      exact absurd hq Bool.false_ne_true
    · rw [Function.update_of_ne hplace] at hq
      exact ⟨q, hq, if_neg hplace⟩
  | renameKey l newName =>
    obtain ⟨p, hp, rfl⟩ := (Renamed.bijective h).surjOn hq
    exact ⟨p, hp, rfl⟩
  | setValue l name data => exact ⟨q, by rwa [mem_held, ← h.isSome_setValue], rfl⟩
  | deleteValue l name => exact ⟨q, by rwa [mem_held, ← h.isSome_deleteValue], rfl⟩

/-- A place that its key has left is empty. -/
theorem Turns.left_empty (h : f.Turns f' m) (hleaves : m.destination? p ≠ some p) :
    f'.at? p = none := by
  cases m with
  | deleteKey l =>
    simp only [Mutation.destination?, ne_eq, Option.ite_none_left_eq_some, and_true,
      not_not] at hleaves
    rw [Deleted.after h, hleaves, Function.update_self]
  | renameKey l newName =>
    have hmoves : l.carried newName p ≠ p := fun hsame => hleaves (congrArg some hsame)
    by_cases hwithin : p.Within l.place
    · -- Only the renamed key and those below it move, and what they leave stays empty.
      obtain ⟨more, rfl⟩ := hwithin
      rw [carried_below] at hmoves
      refine Moved.left (Renamed.toMoved h) (fun hsame => hmoves ?_) more
      rw [hsame]
    · exact absurd (carried_apart hwithin) hmoves
  | createKey l => exact absurd rfl hleaves
  | setValue l name data => exact absurd rfl hleaves
  | deleteValue l name => exact absurd rfl hleaves

/-- A renaming fills the empty places that it takes a key to. -/
theorem Renamed.filled_iff {l : Location} {newName : String} (h : Renamed f f' l newName)
    (hempty : f.at? p = none) : (f'.at? p).isSome ↔ f.Fills p (.renameKey l newName) := by
  constructor
  · intro hfilled
    obtain ⟨q, hq, rfl⟩ := h.bijective.surjOn (mem_held.mpr hfilled)
    by_cases hwithin : q.Within l.place
    · -- A key that has moved comes from below the renamed one; any other was there before.
      obtain ⟨more, rfl⟩ := hwithin
      rw [carried_below] at hempty ⊢
      have hway := Location.wayBelow_renamedPlace h.inner newName more
      exact ⟨hempty, by rw [hway], by rwa [hway]⟩
    · rw [carried_apart hwithin] at hempty
      exact absurd (mem_held.mp hq) (vacant hempty)
  · rintro ⟨-, hp, hthere⟩
    rw [hp, h.moved, Option.isSome_map]
    exact hthere

end Flat

/-- An empty place is filled by a change that brings a key there, and by no other. -/
theorem Hives.filled_iff {h h' : Hives} {m : Mutation} (hturns : h.flat.Turns h'.flat m)
    {p : Flat.Place} (hempty : h.flat.at? p = none) :
    (h'.flat.at? p).isSome ↔ h.flat.Fills p m := by
  cases m with
  | createKey l =>
    constructor
    · intro hfilled
      refine ⟨hempty, Flat.Place.within_iff.mpr ?_⟩
      -- A place off the way that was created is as empty as before.
      by_contra hoff
      rw [Flat.Created.apart hturns p (fun hon => hoff ⟨hon.1.symm, hon.2.2⟩), hempty] at hfilled
      exact absurd hfilled (by simp)
    · rintro ⟨-, hwithin⟩
      exact Flat.Created.at_within hturns hwithin
  | deleteKey l =>
    -- What deletes a key, and what changes values, fills no place.
    refine iff_of_false ?_ (fun hnever => hnever)
    rw [Flat.Deleted.after hturns, Function.update_apply]
    split
    · exact Bool.false_ne_true
    · exact Flat.vacant hempty
  | renameKey l newName => exact Flat.Renamed.filled_iff hturns hempty
  | setValue l name data =>
    refine iff_of_false ?_ (fun hnever => hnever)
    rw [hturns.isSome_setValue]
    exact Flat.vacant hempty
  | deleteValue l name =>
    refine iff_of_false ?_ (fun hnever => hnever)
    rw [hturns.isSome_deleteValue]
    exact Flat.vacant hempty

end TransactionalRegistry
