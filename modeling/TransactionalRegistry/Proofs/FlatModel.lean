import Mathlib.Data.List.Basic
import Mathlib.Data.Set.Function
import TransactionalRegistry.Proofs.Flattening

/-!
# The flat model

The trees are meant to be no more than a map from places to entries. Each of the five changes is
described here on such a map, with no tree in sight: what must stand where for the change to be
made, and what stands where afterwards. Creating adds entries and touches none; deleting and the two
changes of values touch a single place; renaming carries a place and all that is below it elsewhere.

The changes to the trees refine that description. A change that applies takes the trees, laid flat,
where the description says; and one that fails does so exactly when the description refuses it, with
the error code that it gives.

## Main definitions

* `Flat.Created`, `Flat.Deleted`, `Flat.Renamed`: What the changes of keys do to a map.
* `Location.carried`: Where a renaming takes a place.
* `Flat.Turns`: What a change does to a map.
* `Flat.Refuses`: When a change is refused, and with what.

## Theorems

* `Flat.Turns.not_refuses`, `Flat.Refuses.unique`: No change is both made and refused, and none is
  refused for two reasons.
* `Flat.Moved.bijOn`: A renaming carries the places that hold a key one to one.
* `Mutation.apply_flat`: The changes to the trees refine the description.
-/

namespace TransactionalRegistry

namespace Flat

/-! ## The description -/

/-- Whether `p` is `q` or a place below it. -/
def Place.Within (p q : Place) : Prop :=
  ∃ more, p = q.below more

/-- The places that hold a key. -/
def held (f : Flat) : Set Place :=
  {p | (f.at? p).isSome}

/-- The entry with another value, or none, under a name. -/
def Entry.withValue (e : Entry) (name : String) (value : Option StoredValue) : Entry :=
  { e with values := Function.update e.values (Text.fold name) value }

/-- The entry at the end of a way below a key that has been renamed: on the empty way it is the key
    itself, which has a new name. -/
def Entry.retitled (newName : String) : List String → Entry → Entry
  | [], e => { e with name := newName }
  | _ :: _, e => e

/-- All keys on the way to a location are there: those that were stay as they were, and the others
    have the names that the location gives them and no values. -/
structure Created (f f' : Flat) (l : Location) : Prop where
  kept : ∀ p e, f.at? p = some e → f'.at? p = some e
  made : ∀ above name, above ++ [name] <+: l.path.names →
    f.at? ⟨l.root, (above ++ [name]).map Text.fold⟩ = none →
    f'.at? ⟨l.root, (above ++ [name]).map Text.fold⟩ = some ⟨name, fun _ => none⟩
  apart : ∀ p : Place, ¬ (p.root = l.root ∧ p.keys ≠ [] ∧ p.keys <+: l.path.folded) →
    f'.at? p = f.at? p

/-- The key at a location is gone, which was below another one and had none below it itself. -/
structure Deleted (f f' : Flat) (l : Location) : Prop where
  inner : l.path.names ≠ []
  present : (f.at? l.place).isSome
  leaf : ∀ more, more ≠ [] → f.at? (l.place.below more) = none
  after : f'.at? = Function.update f.at? l.place none

end Flat

namespace Location

/-- The place that a location has with another last name. -/
def renamedPlace (l : Location) (newName : String) : Flat.Place :=
  ⟨l.root, l.path.folded.dropLast ++ [Text.fold newName]⟩

/-- Where a place is carried when the key at a location is renamed. -/
def carried (l : Location) (newName : String) (p : Flat.Place) : Flat.Place :=
  if p.root = l.root ∧ l.path.folded <+: p.keys then
    (l.renamedPlace newName).below (p.keys.drop l.path.folded.length)
  else p

end Location

namespace Flat

/-- The key at a location and all that is below it stand under a new name, and nothing else has
    changed. Unless only the letter case is new, that place was free and the old one is empty. -/
structure Moved (f f' : Flat) (l : Location) (newName : String) : Prop where
  moved : ∀ more, f'.at? ((l.renamedPlace newName).below more) =
    (f.at? (l.place.below more)).map (Entry.retitled newName more)
  free : l.renamedPlace newName ≠ l.place →
    ∀ more, f.at? ((l.renamedPlace newName).below more) = none
  left : l.renamedPlace newName ≠ l.place → ∀ more, f'.at? (l.place.below more) = none
  apart : ∀ p, ¬ p.Within l.place → ¬ p.Within (l.renamedPlace newName) → f'.at? p = f.at? p

/-- A key that is below another one has been given a single name. No key is lost on the way, no two
    are merged, and none is doubled: the places that hold a key are carried one to one. -/
structure Renamed (f f' : Flat) (l : Location) (newName : String) : Prop
    extends Moved f f' l newName where
  single : newName ≠ "" ∧ Path.separator ∉ newName.toList
  inner : l.path.names ≠ []
  present : (f.at? l.place).isSome
  others : ∀ p e, f.at? p = some e → ¬ p.Within l.place → f'.at? p = some e
  bijective : Set.BijOn (l.carried newName) f.held f'.held

/-- What a change does to a map. -/
def Turns (f f' : Flat) : Mutation → Prop
  | .createKey l => Created f f' l
  | .deleteKey l => Deleted f f' l
  | .renameKey l newName => Renamed f f' l newName
  | .setValue l name data =>
    ∃ e, f.at? l.place = some e ∧
      f'.at? = Function.update f.at? l.place (some (e.withValue name (some ⟨name, data⟩)))
  | .deleteValue l name =>
    ∃ e, f.at? l.place = some e ∧ (e.values (Text.fold name)).isSome ∧
      f'.at? = Function.update f.at? l.place (some (e.withValue name none))

/-- When a change is refused, and with what. Creating is never refused. -/
inductive Refuses (f : Flat) : Mutation → NativeError → Prop
  | deleteRoot {l : Location} (hroot : l.path.names = []) : Refuses f (.deleteKey l) .accessDenied
  | deleteMissing {l : Location} (hinner : l.path.names ≠ []) (hmissing : f.at? l.place = none) :
    Refuses f (.deleteKey l) .fileNotFound
  | deleteInner {l : Location} (hinner : l.path.names ≠ []) (more : List String) (hmore : more ≠ [])
      (hbelow : (f.at? (l.place.below more)).isSome) : Refuses f (.deleteKey l) .accessDenied
  | renameName {l : Location} {newName : String}
      (hname : ¬ (newName ≠ "" ∧ Path.separator ∉ newName.toList)) :
    Refuses f (.renameKey l newName) .invalidParameter
  | renameRoot {l : Location} {newName : String}
      (hname : newName ≠ "" ∧ Path.separator ∉ newName.toList) (hroot : l.path.names = []) :
    Refuses f (.renameKey l newName) .accessDenied
  | renameTaken {l : Location} {newName : String}
      (hname : newName ≠ "" ∧ Path.separator ∉ newName.toList) (hinner : l.path.names ≠ [])
      (hother : l.renamedPlace newName ≠ l.place)
      (htaken : (f.at? (l.renamedPlace newName)).isSome) :
    Refuses f (.renameKey l newName) .alreadyExists
  | renameMissing {l : Location} {newName : String}
      (hname : newName ≠ "" ∧ Path.separator ∉ newName.toList) (hinner : l.path.names ≠ [])
      (hfree : l.renamedPlace newName = l.place ∨ f.at? (l.renamedPlace newName) = none)
      (hmissing : f.at? l.place = none) : Refuses f (.renameKey l newName) .fileNotFound
  | setValueMissing {l : Location} {name : String} {data : ValueData}
      (hmissing : f.at? l.place = none) : Refuses f (.setValue l name data) .keyDeleted
  | deleteValueKey {l : Location} {name : String} (hmissing : f.at? l.place = none) :
    Refuses f (.deleteValue l name) .keyDeleted
  | deleteValueMissing {l : Location} {name : String} {e : Entry}
      (hpresent : f.at? l.place = some e) (hmissing : e.values (Text.fold name) = none) :
      Refuses f (.deleteValue l name) .fileNotFound

/-! ## Made or refused -/

variable {f f' : Flat} {m : Mutation} {l : Location} {newName : String}

theorem below_nil (p : Place) : p.below [] = p := by
  rw [Place.below, List.append_nil]

theorem mem_held {p : Place} : p ∈ f.held ↔ (f.at? p).isSome :=
  Iff.rfl

/-- A place that is empty holds no key. -/
theorem vacant {p : Place} (hempty : f.at? p = none) : ¬ (f.at? p).isSome := by
  rw [hempty]
  exact Bool.false_ne_true

/-- A change that is made is not refused: what the description of the one asks for rules out each
    reason for the other. -/
theorem Turns.not_refuses (hturns : f.Turns f' m) (e : NativeError) : ¬ f.Refuses m e := by
  intro hrefuses
  cases hrefuses with
  | deleteRoot hroot => exact hturns.inner hroot
  | deleteMissing _ hmissing => exact vacant hmissing hturns.present
  | deleteInner _ more hmore hbelow => exact vacant (hturns.leaf more hmore) hbelow
  | renameName hname => exact hname hturns.single
  | renameRoot _ hroot => exact hturns.inner hroot
  -- The new name is taken, so the renaming would have to be one of letter case alone.
  | renameTaken _ _ hother htaken =>
    have hfree := hturns.free hother []
    rw [below_nil] at hfree
    exact vacant hfree htaken
  | renameMissing _ _ _ hmissing => exact vacant hmissing hturns.present
  | setValueMissing hmissing =>
    obtain ⟨e, hpresent, -⟩ := hturns
    exact absurd (hmissing.symm.trans hpresent) (by simp)
  | deleteValueKey hmissing =>
    obtain ⟨e, hpresent, -⟩ := hturns
    exact absurd (hmissing.symm.trans hpresent) (by simp)
  -- The value would have been found in the entry that is there.
  | deleteValueMissing hpresent hmissing =>
    obtain ⟨e, hpresent', hvalue, -⟩ := hturns
    rw [← Option.some.inj (hpresent.symm.trans hpresent'), hmissing] at hvalue
    exact absurd hvalue Bool.false_ne_true

/-- A change is refused for one reason at most: no two of them hold of the same change and map, or
    they come with the same error. -/
theorem Refuses.unique {e e' : NativeError} (h : f.Refuses m e) (h' : f.Refuses m e') : e = e' := by
  cases h with
  | deleteRoot hroot =>
    cases h' with
    | deleteMissing hinner _ => exact absurd hroot hinner
    | _ => rfl
  | deleteMissing hinner hmissing =>
    cases h' with
    | deleteRoot hroot => exact absurd hroot hinner
    | deleteMissing => rfl
    | deleteInner _ more _ hbelow =>
      -- There is nothing below a place where there is nothing.
      exact absurd hbelow (vacant (f.closed _ more hmissing))
  | deleteInner _ more _ hbelow =>
    cases h' with
    | deleteMissing _ hmissing => exact absurd hbelow (vacant (f.closed _ more hmissing))
    | _ => rfl
  | renameName hname =>
    -- A name is single or it is not, and all other reasons want a single one.
    cases h' with
    | renameName => rfl
    | renameRoot hname' _ => exact absurd hname' hname
    | renameTaken hname' _ _ _ => exact absurd hname' hname
    | renameMissing hname' _ _ _ => exact absurd hname' hname
  | renameRoot hname hroot =>
    cases h' with
    | renameName hname' => exact absurd hname hname'
    | renameRoot => rfl
    | renameTaken _ hinner _ _ => exact absurd hroot hinner
    | renameMissing _ hinner _ _ => exact absurd hroot hinner
  | renameTaken hname hinner hother htaken =>
    cases h' with
    | renameName hname' => exact absurd hname hname'
    | renameRoot _ hroot => exact absurd hroot hinner
    | renameTaken => rfl
    | renameMissing _ _ hfree _ =>
      -- The new place is free, or it is the old one, so it cannot be taken.
      rcases hfree with hsame | hempty
      · exact absurd hsame hother
      · exact absurd htaken (vacant hempty)
  | renameMissing hname hinner hfree hmissing =>
    cases h' with
    | renameName hname' => exact absurd hname hname'
    | renameRoot _ hroot => exact absurd hroot hinner
    | renameTaken _ _ hother htaken =>
      rcases hfree with hsame | hempty
      · exact absurd hsame hother
      · exact absurd htaken (vacant hempty)
    | renameMissing => rfl
  | setValueMissing => cases h'; rfl
  | deleteValueKey hmissing =>
    cases h' with
    | deleteValueKey => rfl
    | deleteValueMissing hpresent _ => exact absurd (hmissing.symm.trans hpresent) (by simp)
  | deleteValueMissing hpresent hmissing =>
    cases h' with
    | deleteValueKey hmissing' => exact absurd (hmissing'.symm.trans hpresent) (by simp)
    | deleteValueMissing => rfl

/-! ## Renaming one to one -/

/-- What is at the renamed key or below it is carried to the new place. -/
theorem carried_below (l : Location) (newName : String) (more : List String) :
    l.carried newName (l.place.below more) = (l.renamedPlace newName).below more := by
  rw [Location.carried, if_pos ⟨rfl, List.prefix_append _ _⟩]
  simp only [Location.place, Place.below, List.drop_left]

/-- What is elsewhere is carried nowhere. -/
theorem carried_apart {p : Place} (hapart : ¬ p.Within l.place) : l.carried newName p = p := by
  rw [Location.carried, if_neg]
  obtain ⟨root, keys⟩ := p
  rintro ⟨rfl, more, rfl⟩
  exact hapart ⟨more, rfl⟩

/-- A key that is not below the renamed one stays where it is. -/
theorem Moved.others (hmoved : Moved f f' l newName) {p : Place} (hheld : p ∈ f.held)
    (hapart : ¬ p.Within l.place) : f'.at? p = f.at? p := by
  -- A key at the new place can only be the renamed one, in another letter case.
  refine hmoved.apart p hapart ?_
  rintro ⟨more, rfl⟩
  by_cases hsame : l.renamedPlace newName = l.place
  · exact hapart ⟨more, by rw [hsame]⟩
  · exact absurd (mem_held.mp hheld) (vacant (hmoved.free hsame more))

/-- Where there was a key, there is one at the place that it is carried to. -/
theorem Moved.mapsTo (hmoved : Moved f f' l newName) :
    Set.MapsTo (l.carried newName) f.held f'.held := by
  intro p hheld
  rw [mem_held] at hheld ⊢
  -- Below the renamed key the places move along; all others stay.
  by_cases hwithin : p.Within l.place
  · obtain ⟨more, rfl⟩ := hwithin
    rwa [carried_below, hmoved.moved, Option.isSome_map]
  · rwa [carried_apart hwithin, hmoved.others hheld hwithin]

/-- No two keys are carried to one place. -/
theorem Moved.injOn (hmoved : Moved f f' l newName) :
    Set.InjOn (l.carried newName) f.held := by
  -- What was held at the new place already was held at the old one: only the case is new.
  have hold : ∀ more, (l.renamedPlace newName).below more ∈ f.held →
      ((l.renamedPlace newName).below more).Within l.place := by
    intro more hheld
    by_cases hsame : l.renamedPlace newName = l.place
    · exact ⟨more, by rw [hsame]⟩
    · exact absurd (mem_held.mp hheld) (vacant (hmoved.free hsame more))
  -- Two keys are both carried, or both stay, or one would come to where the other is.
  intro p hp q hq hcarried
  by_cases hpw : p.Within l.place
  · obtain ⟨more, rfl⟩ := hpw
    rw [carried_below] at hcarried
    by_cases hqw : q.Within l.place
    · obtain ⟨more', rfl⟩ := hqw
      rw [carried_below] at hcarried
      rw [Place.below, Place.below, Place.mk.injEq] at hcarried
      rw [List.append_cancel_left hcarried.2]
    · rw [carried_apart hqw] at hcarried
      rw [← hcarried] at hq hqw
      exact absurd (hold more hq) hqw
  · rw [carried_apart hpw] at hcarried
    by_cases hqw : q.Within l.place
    · obtain ⟨more, rfl⟩ := hqw
      rw [carried_below] at hcarried
      rw [hcarried] at hp hpw
      exact absurd (hold more hp) hpw
    · rw [carried_apart hqw] at hcarried
      exact hcarried

/-- Every key that is there afterwards was carried to its place. -/
theorem Moved.surjOn (hmoved : Moved f f' l newName) :
    Set.SurjOn (l.carried newName) f.held f'.held := by
  intro q hq
  by_cases hnew : q.Within (l.renamedPlace newName)
  · obtain ⟨more, rfl⟩ := hnew
    refine ⟨l.place.below more, ?_, carried_below l newName more⟩
    rwa [mem_held, hmoved.moved, Option.isSome_map] at hq
  · -- Below the old place there is nothing any more, unless it is the new one as well.
    have hold : ¬ q.Within l.place := by
      rintro ⟨more, rfl⟩
      by_cases hsame : l.renamedPlace newName = l.place
      · exact hnew ⟨more, by rw [hsame]⟩
      · exact absurd (mem_held.mp hq) (vacant (hmoved.left hsame more))
    refine ⟨q, ?_, carried_apart hold⟩
    rwa [mem_held, hmoved.apart q hold hnew] at hq

/-- A renaming carries the places that hold a key one to one. -/
theorem Moved.bijOn (hmoved : Moved f f' l newName) :
    Set.BijOn (l.carried newName) f.held f'.held :=
  ⟨hmoved.mapsTo, hmoved.injOn, hmoved.surjOn⟩

end Flat

/-! ## The trees refine the description -/

namespace Location

variable {l : Location} {above : List String} {name : String}

/-- The places below a location, by the names on the way to it. -/
theorem place_below (hnames : l.path.names = above ++ [name]) (more : List String) :
    l.place.below more = ⟨l.root, above.map Text.fold ++ Text.fold name :: more⟩ := by
  rw [place, Flat.Place.below, Path.folded, hnames, List.map_append, List.append_assoc]
  rfl

/-- The places below the renamed key, by the names on the way to it. -/
theorem renamedPlace_below (hnames : l.path.names = above ++ [name]) (newName : String)
    (more : List String) :
    (l.renamedPlace newName).below more =
      ⟨l.root, above.map Text.fold ++ Text.fold newName :: more⟩ := by
  rw [renamedPlace, Flat.Place.below, Path.folded, hnames, List.map_append, List.map_singleton,
    List.dropLast_concat, List.append_assoc]
  rfl

/-- The place of a location ends with its last name. -/
theorem place_eq (hnames : l.path.names = above ++ [name]) :
    l.place = ⟨l.root, above.map Text.fold ++ [Text.fold name]⟩ := by
  rw [← place_below hnames, Flat.below_nil]

theorem renamedPlace_eq (hnames : l.path.names = above ++ [name]) (newName : String) :
    l.renamedPlace newName = ⟨l.root, above.map Text.fold ++ [Text.fold newName]⟩ := by
  rw [← renamedPlace_below hnames, Flat.below_nil]

/-- A renaming leaves a key in its place just if the names differ in letter case alone. -/
theorem renamedPlace_eq_place_iff (hnames : l.path.names = above ++ [name]) (newName : String) :
    l.renamedPlace newName = l.place ↔ Text.fold name = Text.fold newName := by
  rw [renamedPlace_eq hnames, place_eq hnames]
  simp only [Flat.Place.mk.injEq, true_and, List.append_cancel_left_eq, List.cons.injEq, and_true]
  exact eq_comm

end Location

/-- A key under a new name, laid flat: the entry of the key itself has the new name. -/
theorem Node.flat_retitled (now : Time) (newName : String) (child : Node) (more : List String) :
    ({ child with name := newName, lastWrite := now } : Node).flat more =
      (child.flat more).map (Flat.Entry.retitled newName more) := by
  cases more with
  | nil =>
    rw [Node.flat_nil, Node.flat_nil]
    rfl
  -- Only the key itself has another name; below it the entries are the same.
  | cons key rest =>
    have hbelow := Node.flat_cons_of_subKeys (n := child)
      (m := { child with name := newName, lastWrite := now }) rfl key rest
    rw [hbelow]
    cases child.flat (key :: rest) <;> rfl

namespace Hives

variable {h h' : Hives} {l : Location} {now : Time} {e : NativeError} {found child : Node}
  {above : List String} {name newName : String}

/-- What stands at a location whose way above leads to `found`. -/
theorem flat_place (hnames : l.path.names = above ++ [name])
    (hfound : (h.get l.root).find? above = some found) :
    h.flat.at? l.place = (found.child? name).map Node.entry := by
  rw [Location.place_eq hnames, flat_found hfound, Node.flat_child_nil]

/-- What stands at the new place of a key, if its way above leads to `found`. -/
theorem flat_renamedPlace (hnames : l.path.names = above ++ [name])
    (hfound : (h.get l.root).find? above = some found) (newName : String) :
    h.flat.at? (l.renamedPlace newName) = (found.child? newName).map Node.entry := by
  rw [Location.renamedPlace_eq hnames, flat_found hfound, Node.flat_child_nil]

/-- Creating a key does what the description says. -/
theorem flat_created (now : Time) (h : Hives) (l : Location) :
    h.flat.Created (h.set l.root (Node.create now l.path.names (h.get l.root))).flat l where
  kept p e hthere := by
    simp only [flat, get_set] at hthere ⊢
    -- The other root keys are not touched.
    by_cases hroot : l.root = p.root
    · rw [if_pos hroot, hroot]
      exact Node.flat_create_kept now _ hthere
    · rw [if_neg hroot, hthere]
  made above name hway hmissing := by
    simp only [flat, get_set, if_true] at hmissing ⊢
    exact Node.flat_create_made now hway hmissing
  apart p hapart := by
    simp only [flat, get_set]
    by_cases hroot : l.root = p.root
    · rw [if_pos hroot, hroot]
      exact Node.flat_create_apart now (fun hway => hapart ⟨hroot.symm, hway⟩)
    · rw [if_neg hroot]

/-- Deleting a key does what the description says. -/
theorem flat_deleted (hok : Mutation.apply now h (.deleteKey l) = .ok h') :
    h.flat.Deleted h'.flat l := by
  rcases List.eq_nil_or_concat' l.path.names with hroot | ⟨above, name, hnames⟩
  · rw [Mutation.apply, updateAbove_of_root hroot] at hok
    exact absurd hok (by simp)
  · rw [Mutation.apply, updateAbove_of_name hnames, update_eq_ok] at hok
    obtain ⟨found, m, hfound, hremove, rfl⟩ := hok
    obtain ⟨child, hchild, hsub, rfl⟩ := Node.removeLeaf_eq_ok.mp hremove
    -- The child was a leaf, so all places below it were empty already.
    have hbelow : ∀ more, more ≠ [] → found.flat (Text.fold name :: more) = none := by
      intro more hmore
      obtain ⟨key, rest, rfl⟩ := List.exists_cons_of_ne_nil hmore
      rw [Node.flat_child, hchild, Option.bind_some, Node.flat_cons, hsub]
      rfl
    exact {
      inner := by simp [hnames]
      present := by rw [flat_place hnames hfound, hchild]; rfl
      leaf more hmore := by rw [Location.place_below hnames, flat_found hfound, hbelow more hmore]
      after := by
        rw [Location.place_eq hnames]
        -- The place that is emptied is the only one where the graft makes a difference.
        refine flat_graft_eq_update hfound (fun more => ?_)
        rw [Node.flat_touch]
        cases more with
        | nil => rw [Node.flat_dropChild_nil, if_neg (by simp)]
        | cons key rest =>
          rw [Node.flat_dropChild_cons]
          by_cases hkey : Text.fold name = key
          · subst hkey
            cases rest with
            | nil => rw [if_pos rfl, if_pos rfl]
            | cons next rest => rw [if_pos rfl, if_neg (by simp), hbelow _ (by simp)]
          · rw [if_neg hkey, if_neg (by simp [Ne.symm hkey])] }


/-- A deletion that fails is refused, for the reason that the description gives. -/
theorem flat_not_deleted (herror : Mutation.apply now h (.deleteKey l) = .error e) :
    h.flat.Refuses (.deleteKey l) e := by
  rw [Mutation.apply] at herror
  rcases List.eq_nil_or_concat' l.path.names with hroot | ⟨above, name, hnames⟩
  · rw [updateAbove_of_root hroot, Except.error.injEq] at herror
    rw [← herror]
    exact .deleteRoot hroot
  · have hinner : l.path.names ≠ [] := by simp [hnames]
    rw [updateAbove_of_name hnames, update_eq_error] at herror
    rcases herror with ⟨hmissing, rfl⟩ | ⟨found, hfound, hremove⟩
    · refine .deleteMissing hinner ?_
      rw [Location.place_eq hnames, flat_missing hmissing]
    · rcases Node.removeLeaf_eq_error.mp hremove with ⟨hchild, rfl⟩ | ⟨child, hchild, hsub, rfl⟩
      · refine .deleteMissing hinner ?_
        rw [flat_place hnames hfound, hchild]
        rfl
      · -- A key that is no leaf has something right below it.
        rw [ne_eq, Node.subKeys_eq_nil_iff, not_forall] at hsub
        obtain ⟨key, hkey⟩ := hsub
        refine .deleteInner hinner [key] (by simp) ?_
        rw [Location.place_below hnames, flat_found hfound, Node.flat_child, hchild,
          Option.bind_some]
        exact Option.isSome_iff_ne_none.mpr hkey

/-- A renaming that applies has moved the key, if only to another letter case. -/
theorem flat_moved (hname : isSingleName newName = true)
    (hok : Mutation.apply now h (.renameKey l newName) = .ok h') :
    l.path.names ≠ [] ∧ (h.flat.at? l.place).isSome ∧ h.flat.Moved h'.flat l newName := by
  rw [Mutation.apply, if_pos hname] at hok
  rcases List.eq_nil_or_concat' l.path.names with hroot | ⟨above, name, hnames⟩
  · rw [updateAbove_of_root hroot] at hok
    exact absurd hok (by simp)
  · rw [updateAbove_of_name hnames, update_eq_ok] at hok
    obtain ⟨found, m, hfound, hrename, rfl⟩ := hok
    obtain ⟨hfree, child, hchild, rfl⟩ := Node.renameChild_eq_ok.mp hrename
    have hsame := Location.renamedPlace_eq_place_iff hnames newName
    refine ⟨by simp [hnames], by rw [flat_place hnames hfound, hchild]; rfl, ?_, ?_, ?_, ?_⟩
    · -- Below the new place there is what was below the old one.
      intro more
      rw [Location.renamedPlace_below hnames, Location.place_below hnames,
        flat_graft_within hfound, flat_found hfound, Node.flat_moveChild_new, Node.flat_child,
        hchild, Option.bind_some]
      exact Node.flat_retitled now newName child more
    · -- The new place was free, and so was all below it.
      intro hmoves more
      have hempty := hfree.resolve_left (fun h => hmoves (hsame.mpr h))
      rw [Location.renamedPlace_below hnames, flat_found hfound, Node.flat_child, hempty]
      rfl
    · -- The old place is left empty, with all below it.
      intro hmoves more
      have hkey : Text.fold name ≠ Text.fold newName := fun h => hmoves (hsame.mpr h)
      rw [Location.place_below hnames, flat_graft_within hfound,
        Node.flat_moveChild_of_ne now _ _ _ hkey, if_pos rfl]
    · -- Everything else is not below the key above, or there it is under another name.
      intro p hplace hrenamed
      by_cases hway : p.root = l.root ∧ above.map Text.fold <+: p.keys
      · obtain ⟨root, keys⟩ := p
        obtain ⟨rfl, more, rfl⟩ := hway
        rw [flat_graft_within hfound, flat_found hfound]
        cases more with
        | nil => rw [Node.flat_moveChild_nil]
        | cons key rest =>
          have hkey : Text.fold name ≠ key := by
            rintro rfl
            exact hplace ⟨rest, (Location.place_below hnames rest).symm⟩
          have hkey' : key ≠ Text.fold newName := by
            rintro rfl
            exact hrenamed ⟨rest, (Location.renamedPlace_below hnames newName rest).symm⟩
          rw [Node.flat_moveChild_of_ne now _ _ _ hkey', if_neg hkey]
      · exact flat_graft_apart hway

/-- A renaming that applies does what the description says. -/
theorem flat_renamed (hok : Mutation.apply now h (.renameKey l newName) = .ok h') :
    h.flat.Renamed h'.flat l newName := by
  have hname : isSingleName newName = true := by
    by_contra hname
    rw [Mutation.apply, if_neg hname] at hok
    exact absurd hok (by simp)
  obtain ⟨hinner, hpresent, hmoved⟩ := flat_moved hname hok
  exact {
    toMoved := hmoved
    single := (isSingleName_iff newName).mp hname
    inner := hinner
    present := hpresent
    others p e hthere hapart := by
      rw [hmoved.others (Flat.mem_held.mpr (by rw [hthere]; rfl)) hapart, hthere]
    bijective := hmoved.bijOn }

/-- A renaming that fails is refused, for the reason that the description gives. -/
theorem flat_not_renamed (herror : Mutation.apply now h (.renameKey l newName) = .error e) :
    h.flat.Refuses (.renameKey l newName) e := by
  rw [Mutation.apply] at herror
  by_cases hname : isSingleName newName = true
  · rw [if_pos hname] at herror
    have hsingle := (isSingleName_iff newName).mp hname
    rcases List.eq_nil_or_concat' l.path.names with hroot | ⟨above, name, hnames⟩
    · rw [updateAbove_of_root hroot, Except.error.injEq] at herror
      rw [← herror]
      exact .renameRoot hsingle hroot
    · have hinner : l.path.names ≠ [] := by simp [hnames]
      have hsame := Location.renamedPlace_eq_place_iff hnames newName
      rw [updateAbove_of_name hnames, update_eq_error] at herror
      rcases herror with ⟨hmissing, rfl⟩ | ⟨found, hfound, hrename⟩
      · -- Without the key above, both places are empty.
        refine .renameMissing hsingle hinner (.inr ?_) ?_
        · rw [Location.renamedPlace_eq hnames, flat_missing hmissing]
        · rw [Location.place_eq hnames, flat_missing hmissing]
      · have hplace := flat_place hnames hfound
        have hrenamed := flat_renamedPlace hnames hfound newName
        rcases Node.renameChild_eq_error.mp hrename with ⟨hother, htaken, rfl⟩ | ⟨hfree, hold, rfl⟩
        · refine .renameTaken hsingle hinner (fun h => hother (hsame.mp h)) ?_
          rwa [hrenamed, Option.isSome_map]
        · refine .renameMissing hsingle hinner (hfree.imp hsame.mpr (fun hnew => ?_)) ?_
          · rw [hrenamed, hnew]
            rfl
          · rw [hplace, hold]
            rfl
  · rw [if_neg hname, Except.error.injEq] at herror
    rw [← herror]
    exact .renameName (fun hsingle => hname ((isSingleName_iff newName).mpr hsingle))

/-- What stands at the place of a key that is found. -/
theorem flat_place_of_found (hfound : (h.get l.root).find? l.path.names = some found) :
    h.flat.at? l.place = some found.entry :=
  Node.flat_of_find? hfound

theorem flat_place_of_missing (hmissing : (h.get l.root).find? l.path.names = none) :
    h.flat.at? l.place = none :=
  Node.flat_of_missing hmissing

/-- A change of the values of a key is a change of its entry. -/
theorem flat_value {m : Node} {value : Option StoredValue} (name : String)
    (hfound : (h.get l.root).find? l.path.names = some found)
    (hname : m.name = found.name) (hsub : m.subKeys = found.subKeys)
    (hvalues : ∀ key, Table.find? m.values key =
      if Text.fold name = key then value else Table.find? found.values key) :
    (h.set l.root (Node.graft m l.path.names (h.get l.root))).flat.at? =
      Function.update h.flat.at? l.place (some (found.entry.withValue name value)) := by
  have hplace : l.place = ⟨l.root, l.path.names.map Text.fold ++ []⟩ := by
    rw [List.append_nil]
    rfl
  rw [hplace]
  refine flat_graft_eq_update hfound (fun more => ?_)
  cases more with
  -- The entry itself has the new values, and all below it keep theirs.
  | nil =>
    rw [if_pos rfl, Node.flat_nil, Node.entry, Flat.Entry.withValue, hname]
    refine congrArg (fun values => some (Flat.Entry.mk found.name values)) (funext fun key => ?_)
    rw [hvalues, Function.update_apply]
    simp only [eq_comm]
    rfl
  | cons key rest => rw [if_neg (by simp), Node.flat_cons_of_subKeys hsub]

end Hives

namespace Mutation

variable {h h' : Hives} {now : Time} {m : Mutation} {e : NativeError}

/-- A change that applies does what the description says. -/
theorem turns_of_ok (hok : apply now h m = .ok h') : h.flat.Turns h'.flat m := by
  cases m with
  | createKey l =>
    rw [apply, Except.ok.injEq] at hok
    rw [← hok]
    exact Hives.flat_created now h l
  | deleteKey l => exact Hives.flat_deleted hok
  | renameKey l newName => exact Hives.flat_renamed hok
  | setValue l name data =>
    rw [apply, Hives.update_eq_ok] at hok
    obtain ⟨found, m, hfound, hput, rfl⟩ := hok
    rw [Except.ok.injEq] at hput
    -- A value is set in the entry that is there.
    refine ⟨found.entry, Hives.flat_place_of_found hfound, ?_⟩
    refine Hives.flat_value name hfound (by rw [← hput]; rfl) (by rw [← hput]; rfl) (fun key => ?_)
    rw [← hput]
    exact Table.find?_insert found.values _ _ key
  | deleteValue l name =>
    rw [apply, Hives.update_eq_ok] at hok
    obtain ⟨found, m, hfound, hremove, rfl⟩ := hok
    -- A value is deleted that was there.
    obtain ⟨hvalue, rfl⟩ := Node.removeValue_eq_ok.mp hremove
    refine ⟨found.entry, Hives.flat_place_of_found hfound, hvalue, ?_⟩
    exact Hives.flat_value name hfound rfl rfl (fun key => Table.find?_erase found.values _ key)

/-- A change that fails is refused, for the reason that the description gives. -/
theorem refuses_of_error (herror : apply now h m = .error e) : h.flat.Refuses m e := by
  cases m with
  | createKey l => exact absurd herror (by simp [apply])
  | deleteKey l => exact Hives.flat_not_deleted herror
  | renameKey l newName => exact Hives.flat_not_renamed herror
  | setValue l name data =>
    rw [apply, Hives.update_eq_error] at herror
    rcases herror with ⟨hmissing, rfl⟩ | ⟨found, -, hput⟩
    · exact .setValueMissing (Hives.flat_place_of_missing hmissing)
    · exact absurd hput (by simp)
  | deleteValue l name =>
    rw [apply, Hives.update_eq_error] at herror
    rcases herror with ⟨hmissing, rfl⟩ | ⟨found, hfound, hremove⟩
    · exact .deleteValueKey (Hives.flat_place_of_missing hmissing)
    · obtain ⟨hvalue, rfl⟩ := Node.removeValue_eq_error.mp hremove
      exact .deleteValueMissing (Hives.flat_place_of_found hfound) hvalue

/-- The changes to the trees refine the description: one that applies takes the trees, laid flat,
    where the description says, and one that fails is refused there, for that reason and no
    other. -/
theorem apply_flat (now : Time) (h : Hives) (m : Mutation) :
    match apply now h m with
    | .ok h' => h.flat.Turns h'.flat m ∧ ∀ e, ¬ h.flat.Refuses m e
    | .error e => ∀ e', h.flat.Refuses m e' ↔ e' = e := by
  cases hresult : apply now h m with
  | ok h' =>
    have hturns := turns_of_ok hresult
    exact ⟨hturns, hturns.not_refuses⟩
  | error e =>
    have hrefuses := refuses_of_error hresult
    intro e'
    constructor
    · intro hrefuses'
      exact hrefuses'.unique hrefuses
    · rintro rfl
      exact hrefuses

end Mutation

end TransactionalRegistry
