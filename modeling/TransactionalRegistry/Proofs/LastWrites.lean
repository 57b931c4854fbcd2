import TransactionalRegistry.Proofs.Destinations

/-!
# Times of last write

Every key keeps the time at which it was last written to. No lookup depends on it, and each of the
five changes stamps what it writes to in a place of its own: a deletion the key above, a renaming
both the key and the one above, a value its own key, and a creation only the keys that it makes. So
of all the changes a creation alone leaves a key with a time that does not tell what happened to it:
there is a new key below it, and it still has the time that it had.

The times are read off the trees as the entries of keys are. What a change does to a key besides is
read off the flat picture of the trees: the values of the key at its destination, and the names
right below. The two meet in what a change writes to. What it does not write to has the content
that it had, and what it does write to has something new about it, unless the change rewrites it in
any case.

## Main definitions

* `Mutation.WritesTo`: What a change stamps of what was there.
* `Mutation.Rewrites`: What it stamps, be there anything new about it or not.
* `Hives.node?`: The key at a place.
* `Flat.SameContent`, `Node.SameContent`: Two keys have the same values and the same names below.

## Theorems

* `Hives.node?_place`: The key at the place of a location is the one that is found there.
* `Hives.stamp_of_ok`: The time of a key that was there before a change.
* `Hives.stamp_of_new`: The time of a key that was not.
* `Flat.Turns.sameContent`: What a change does not write to has the content that it had.
* `last_write_follows_content`: When the time of last write is that of the change.
* `creation_does_not_write_to_the_key_above`: Where it is not, and should be.
-/

namespace TransactionalRegistry

/-- The place right above a place; a root is above itself. -/
def Flat.Place.above (p : Flat.Place) : Flat.Place :=
  ⟨p.root, p.keys.dropLast⟩

/-- A change writes to the key at a place: to one that it deletes a key below, to one that it
    renames and the one above that, and to one that it sets or deletes a value of. -/
def Mutation.WritesTo (m : Mutation) (p : Flat.Place) : Prop :=
  match m with
  | .createKey _ => False
  | .deleteKey l => p = l.place.above
  | .renameKey l _ => p = l.place ∨ p = l.place.above
  | .setValue l _ _ => p = l.place
  | .deleteValue l _ => p = l.place

instance (m : Mutation) (p : Flat.Place) : Decidable (m.WritesTo p) :=
  match m with
  | .createKey _ => inferInstanceAs (Decidable False)
  | .deleteKey l => inferInstanceAs (Decidable (p = l.place.above))
  | .renameKey l _ => inferInstanceAs (Decidable (p = l.place ∨ p = l.place.above))
  | .setValue l _ _ => inferInstanceAs (Decidable (p = l.place))
  | .deleteValue l _ => inferInstanceAs (Decidable (p = l.place))

/-- A change rewrites the key that it renames, with the one above that, and the key that it sets or
    deletes a value of, be there anything new about them or not. -/
def Mutation.Rewrites (m : Mutation) (p : Flat.Place) : Prop :=
  match m with
  | .renameKey l _ => p = l.place ∨ p = l.place.above
  | .setValue l _ _ => p = l.place
  | .deleteValue l _ => p = l.place
  | _ => False

namespace Node

/-- The name of the key right below a key under a folded name. -/
def subKeyName? (n : Node) (key : String) : Option String :=
  (Table.find? n.subKeys key).map Node.name

/-- The time of the last write is the same for all keys that are alike without their subkeys. -/
theorem shallow_lastWrite : Shallow lastWrite :=
  fun _ _ => rfl

/-- A key that is written to takes the time. -/
theorem probe_touch_nil (n : Node) (now : Time) :
    (n.touch now).probe lastWrite [] = some now :=
  probe_nil lastWrite (n.touch now)

/-- The keys below a key are as they were when it is written to. -/
theorem probe_touch_cons {α : Type} (f : Node → α) (n : Node) (now : Time) (key : String)
    (rest : List String) : (n.touch now).probe f (key :: rest) = n.probe f (key :: rest) :=
  probe_cons_of_subKeys rfl key rest

end Node

namespace Location

variable {l : Location} {above : List String} {name : String}

/-- Right above a key is the key at the names before its own. -/
theorem above_eq (hnames : l.path.names = above ++ [name]) :
    l.place.above = ⟨l.root, above.map Text.fold⟩ := by
  rw [place_eq hnames, Flat.Place.above, List.dropLast_concat]

/-- A renamed key stays below the same key. -/
theorem above_renamedPlace (l : Location) (newName : String) :
    (l.renamedPlace newName).above = l.place.above := by
  rw [renamedPlace, Flat.Place.above, List.dropLast_concat]
  rfl

end Location

namespace Hives

/-- The key at a place, if there is one. -/
def node? (h : Hives) (p : Flat.Place) : Option Node :=
  h.probe id p

variable {h h' : Hives} {l : Location} {t : Time} {p : Flat.Place} {n : Node}

/-- The key at the place of a location is the one that is found there. -/
theorem node?_place (h : Hives) (l : Location) : h.node? l.place = h.find? l := by
  have hplace : l.place = ⟨l.root, l.path.names.map Text.fold ++ []⟩ := by
    rw [List.append_nil]
    rfl
  cases hfound : h.find? l with
  | none => exact Node.probe_of_missing hfound
  | some n =>
    rw [hplace, node?, probe_found hfound]
    rfl

/-- What is to be observed of a place is read off the key there. -/
theorem probe_of_node {α : Type} (f : Node → α) (hn : h.node? p = some n) :
    h.probe f p = some (f n) := by
  rw [probe_eq_map, ← node?, hn, Option.map_some]

/-- The flat trees hold the places that there are keys at. -/
theorem mem_held_iff_node : p ∈ h.flat.held ↔ ∃ n, h.node? p = some n := by
  rw [Flat.mem_held, flat_eq_probe, probe_eq_map, Option.isSome_map, Option.isSome_iff_exists]
  rfl

/-- The flat trees have the entry of the key that is there. -/
theorem flat_of_node (hn : h.node? p = some n) : h.flat.at? p = some n.entry := by
  rw [flat_eq_probe, probe_of_node Node.entry hn]

/-- The names of the keys right below a key are read off the places right below its own. -/
theorem flat_below_node (hn : h.node? p = some n) (key : String) :
    (h.flat.at? (p.below [key])).map Flat.Entry.name = n.subKeyName? key := by
  have happend : h.probe Node.entry (p.below [key]) = n.probe Node.entry [key] :=
    Node.probe_append hn [key]
  rw [flat_eq_probe, happend, Node.probe_cons, Node.subKeyName?]
  cases Table.find? n.subKeys key with
  | none => rfl
  | some child => rfl

/-- When a key is put in place that has been written to, then it takes the time, and a key keeps its
    own that is not below it or that is kept there. -/
theorem stamp_of_graft {root : RootKey} {names : List String} {m found : Node}
    (hfound : (h.get root).find? names = some found)
    (hkept : ∀ key rest, p = ⟨root, names.map Text.fold ++ key :: rest⟩ →
      m.probe Node.lastWrite (key :: rest) = found.probe Node.lastWrite (key :: rest)) :
    (h.set root (Node.graft (m.touch t) names (h.get root))).probe Node.lastWrite p =
      if p = ⟨root, names.map Text.fold⟩ then some t else h.probe Node.lastWrite p := by
  -- At the place itself the time is new, below it the key that was put there decides, and elsewhere
  -- nothing has changed.
  by_cases hwithin : p.root = root ∧ names.map Text.fold <+: p.keys
  · obtain ⟨proot, keys⟩ := p
    obtain ⟨rfl, more, rfl⟩ := hwithin
    rw [probe_graft_within hfound, probe_found hfound]
    cases more with
    | nil => rw [List.append_nil, if_pos rfl, Node.probe_touch_nil]
    | cons key rest => rw [if_neg (by simp), Node.probe_touch_cons, hkept key rest rfl]
  · rw [probe_graft_apart Node.shallow_lastWrite hwithin, if_neg]
    rintro rfl
    exact hwithin ⟨rfl, List.prefix_rfl⟩

/-- The key above a deleted one takes the time, and all others keep theirs. -/
theorem stamp_deleted (hok : Mutation.apply t h (.deleteKey l) = .ok h') (hheld : p ∈ h.flat.held)
    (hother : p ≠ l.place) :
    h'.probe Node.lastWrite p =
      if p = l.place.above then some t else h.probe Node.lastWrite p := by
  have hleaf := (flat_deleted hok).leaf
  rcases List.eq_nil_or_concat' l.path.names with hroot | ⟨above, name, hnames⟩
  · rw [Mutation.apply, updateAbove_of_root hroot] at hok
    exact absurd hok (by simp)
  · rw [Mutation.apply, updateAbove_of_name hnames, update_eq_ok] at hok
    obtain ⟨found, m, hfound, hremove, rfl⟩ := hok
    obtain ⟨child, -, -, rfl⟩ := Node.removeLeaf_eq_ok.mp hremove
    rw [Location.above_eq hnames]
    refine stamp_of_graft hfound (fun key rest hp => ?_)
    rw [Node.probe_dropChild_cons, if_neg]
    -- Below the deleted key there is none, for it was a leaf.
    rintro rfl
    rw [← Location.place_below hnames] at hp
    rw [hp] at hheld hother
    refine Flat.vacant (hleaf rest ?_) (Flat.mem_held.mp hheld)
    rintro rfl
    exact hother (Flat.below_nil _)

/-- A renamed key takes the time and so does the key above it; all others are carried with
    theirs. -/
theorem stamp_renamed {newName : String} (hok : Mutation.apply t h (.renameKey l newName) = .ok h')
    (hheld : p ∈ h.flat.held) :
    h'.probe Node.lastWrite (l.carried newName p) =
      if p = l.place ∨ p = l.place.above then some t else h.probe Node.lastWrite p := by
  have hrenamed := flat_renamed hok
  have hname := (isSingleName_iff newName).mpr hrenamed.single
  rcases List.eq_nil_or_concat' l.path.names with hroot | ⟨above, name, hnames⟩
  · exact absurd hroot hrenamed.inner
  rw [Mutation.apply, if_pos hname, updateAbove_of_name hnames, update_eq_ok] at hok
  obtain ⟨found, m, hfound, hrename, rfl⟩ := hok
  obtain ⟨-, child, hchild, rfl⟩ := Node.renameChild_eq_ok.mp hrename
  by_cases hbelow : p.Within l.place
  · -- The key itself takes the time, and those below it keep theirs.
    obtain ⟨more, rfl⟩ := hbelow
    rw [Flat.carried_below, Location.renamedPlace_below hnames, probe_graft_within hfound,
      Node.probe_moveChild_new]
    cases more with
    | nil => rw [if_pos (Or.inl (Flat.below_nil _))]; rfl
    | cons key rest =>
      -- This place lies below the renamed one, so it is neither the place itself nor the one above.
      rw [if_neg, Location.place_below hnames, probe_found hfound, Node.probe_child, hchild]
      · rfl
      · rw [Location.above_eq hnames, Location.place_below hnames, Location.place_eq hnames]
        simp
  · have hother : p ≠ l.place := fun hp => hbelow ⟨[], hp.trans (Flat.below_nil _).symm⟩
    rw [Flat.carried_apart hbelow, Location.above_eq hnames, Node.moveChild]
    simp only [hother, false_or]
    refine stamp_of_graft hfound (fun key rest hp => ?_)
    have hold : Text.fold name ≠ key := by
      rintro rfl
      exact hbelow ⟨rest, hp.trans (Location.place_below hnames rest).symm⟩
    have hnew : Text.fold newName ≠ key := by
      rintro rfl
      -- A key at the new place is the renamed one.
      rw [← Location.renamedPlace_below hnames] at hp
      by_cases hsame : l.renamedPlace newName = l.place
      · exact hbelow ⟨rest, hp.trans (by rw [hsame])⟩
      · exact Flat.vacant (hrenamed.free hsame rest) (Flat.mem_held.mp (hp ▸ hheld))
    rw [Node.probe_putChild_cons, if_neg hnew, Node.probe_dropChild_cons, if_neg hold]

/-- A key that was there keeps its time when another one is created. -/
theorem stamp_created (hok : Mutation.apply t h (.createKey l) = .ok h') (hheld : p ∈ h.flat.held) :
    h'.probe Node.lastWrite p = h.probe Node.lastWrite p := by
  rw [Mutation.apply, Except.ok.injEq] at hok
  obtain ⟨n, hn⟩ := mem_held_iff_node.mp hheld
  have htime := probe_of_node Node.lastWrite hn
  rw [htime, ← hok]
  simp only [probe, get_set] at htime ⊢
  by_cases hroot : l.root = p.root
  · rw [if_pos hroot, hroot]
    exact Node.probe_create_kept Node.shallow_lastWrite t _ htime
  · rw [if_neg hroot, htime]

/-- A key that is created takes the time. -/
theorem stamp_made (hok : Mutation.apply t h (.createKey l) = .ok h') (hheld : p ∈ h'.flat.held)
    (hnew : p ∉ h.flat.held) : h'.probe Node.lastWrite p = some t := by
  have hcreated : h.flat.Created h'.flat l := Mutation.turns_of_ok hok
  rw [Flat.mem_held] at hheld
  rw [Flat.mem_held, Option.not_isSome_iff_eq_none] at hnew
  rw [Mutation.apply, Except.ok.injEq] at hok
  -- Only on the way to the new key can there be keys that were not there.
  by_cases hway : p.root = l.root ∧ p.keys ≠ [] ∧ p.keys <+: l.path.folded
  · obtain ⟨root, keys⟩ := p
    obtain ⟨rfl, hinner, hkeys⟩ := hway
    obtain ⟨names, hnames, rfl⟩ := List.prefix_map_iff.mp hkeys
    obtain ⟨above, name, rfl⟩ := (List.eq_nil_or_concat' names).resolve_left
      (fun hnil => hinner (by rw [hnil]; rfl))
    -- The key at the end of this part of the way was missing, and so it has been made.
    rw [flat_eq_probe, probe_eq_map, Option.map_eq_none_iff] at hnew
    have hmissing : h.probe Node.lastWrite ⟨l.root, (above ++ [name]).map Text.fold⟩ = none := by
      rw [probe_eq_map, hnew, Option.map_none]
    rw [← hok, probe, get_set, if_pos rfl]
    exact Node.probe_create_made Node.shallow_lastWrite t hnames hmissing
  · rw [hcreated.apart p hway, hnew] at hheld
    exact absurd hheld (by simp)

/-- A key that a value is set or deleted of takes the time. -/
theorem stamp_value {missing : NativeError} {f : Node → Except NativeError Node}
    (hf : ∀ n m, f n = .ok m → ∃ n' : Node, m = n'.touch t ∧ n'.subKeys = n.subKeys)
    (hok : h.update l.root l.path.names missing f = .ok h') :
    h'.probe Node.lastWrite p = if p = l.place then some t else h.probe Node.lastWrite p := by
  obtain ⟨found, m, hfound, hput, rfl⟩ := update_eq_ok.mp hok
  obtain ⟨n', rfl, hsub⟩ := hf found m hput
  exact stamp_of_graft hfound (fun key rest _ => Node.probe_cons_of_subKeys hsub key rest)

/-- What a change does to the times of the keys that it leaves there: those that it writes to take
    the time, and the others keep theirs. -/
theorem stamp_of_ok {m : Mutation} {q : Flat.Place} (hok : m.apply t h = .ok h')
    (hheld : p ∈ h.flat.held) (hq : m.destination? p = some q) :
    h'.probe Node.lastWrite q = if m.WritesTo p then some t else h.probe Node.lastWrite p := by
  -- The cases are those of the change; each one writes where it says.
  cases m with
  | createKey l =>
    obtain rfl : p = q := Option.some.inj hq
    exact stamp_created hok hheld
  | deleteKey l =>
    simp only [Mutation.destination?, Option.ite_none_left_eq_some, Option.some.injEq] at hq
    obtain ⟨hother, rfl⟩ := hq
    exact stamp_deleted hok hheld hother
  | renameKey l newName =>
    obtain rfl : l.carried newName p = q := Option.some.inj hq
    exact stamp_renamed hok hheld
  | setValue l name data =>
    obtain rfl : p = q := Option.some.inj hq
    refine stamp_value (fun n m hput => ?_) hok
    exact ⟨n.putValue name data, (Except.ok.inj hput).symm, rfl⟩
  | deleteValue l name =>
    obtain rfl : p = q := Option.some.inj hq
    refine stamp_value (fun n m hremove => ?_) hok
    exact ⟨n.dropValue name, (Node.removeValue_eq_ok.mp hremove).2.symm, rfl⟩

/-- Every new key takes the time. -/
theorem stamp_of_new {m : Mutation} {q : Flat.Place} (hok : m.apply t h = .ok h')
    (hheld : q ∈ h'.flat.held) (hnew : ∀ p ∈ h.flat.held, m.destination? p ≠ some q) :
    h'.probe Node.lastWrite q = some t := by
  by_cases hcreate : ∃ l, m = .createKey l
  · obtain ⟨l, rfl⟩ := hcreate
    -- A creation makes new keys; all other changes leave only keys that come from old ones.
    exact stamp_made hok hheld (fun hthere => hnew q hthere rfl)
  · obtain ⟨p, hp, hq⟩ := (Mutation.turns_of_ok hok).origin (not_exists.mp hcreate) hheld
    exact absurd hq (hnew p hp)

end Hives

/-! ## What a change leaves as it is -/

namespace Flat

variable {f f' : Flat} {m : Mutation} {p q : Place}

/-- A place is right above what is right below it. -/
theorem Place.above_below (p : Place) (key : String) : (p.below [key]).above = p := by
  rw [Place.below, Place.above, List.dropLast_concat]

/-- Below what is below a place is below the place. -/
theorem Place.below_below (p : Place) (more rest : List String) :
    (p.below more).below rest = p.below (more ++ rest) := by
  rw [Place.below, Place.below, Place.below, List.append_assoc]

/-- What is right below a place is below another one if the place is, unless it is there itself. -/
theorem Place.within_of_below {key : String} (h : (p.below [key]).Within q) :
    p.Within q ∨ p = q.above := by
  obtain ⟨hroot, hprefix⟩ := Place.within_iff.mp h
  rcases List.prefix_concat_iff.mp hprefix with hall | hless
  · refine Or.inr ?_
    rw [Place.above, hall, List.dropLast_concat, ← hroot]
    rfl
  · exact Or.inl (Place.within_iff.mpr ⟨hroot, hless⟩)

/-- The keys at two places have the same values, and so have the keys right below them the same
    names. -/
structure SameContent (f f' : Flat) (p q : Place) : Prop where
  values : (f'.at? q).map Entry.values = (f.at? p).map Entry.values
  subKeys : ∀ key, (f'.at? (q.below [key])).map Entry.name = (f.at? (p.below [key])).map Entry.name

/-- A change of the entry at one place shows elsewhere only by the name of a key right below. -/
theorem sameContent_of_update {l : Location} {e : Option Entry}
    (h : f'.at? = Function.update f.at? l.place e) (hplace : p ≠ l.place)
    (hname : p = l.place.above → e.map Entry.name = (f.at? l.place).map Entry.name) :
    SameContent f f' p p where
  values := by rw [h, Function.update_of_ne hplace]
  subKeys key := by
    rw [h, Function.update_apply]
    split
    · -- The place right below is the changed one, so the key has a subkey that may have gone or
      -- come.
      next hbelow =>
      rw [hbelow]
      exact hname (by rw [← hbelow, Place.above_below])
    · rfl

/-- A renaming writes to the renamed key and to the one above it, and every other key has the
    content that it had. -/
theorem Renamed.sameContent {l : Location} {newName : String} (h : Renamed f f' l newName)
    (hheld : p ∈ f.held) (hplace : p ≠ l.place) (habove : p ≠ l.place.above) :
    SameContent f f' p (l.carried newName p) := by
  by_cases hbelow : p.Within l.place
  · -- Below the renamed key, all is carried along as it is.
    obtain ⟨more, rfl⟩ := hbelow
    obtain ⟨key, rest, rfl⟩ := List.exists_cons_of_ne_nil
      (fun hnil : more = [] => hplace (by rw [hnil, below_nil]))
    have hsame : ∀ rest, f'.at? ((l.renamedPlace newName).below (key :: rest)) =
        f.at? (l.place.below (key :: rest)) := by
      intro rest
      rw [h.moved]
      cases f.at? (l.place.below (key :: rest)) <;> rfl
    rw [carried_below]
    refine ⟨by rw [hsame], fun next => ?_⟩
    rw [Place.below_below, Place.below_below, List.cons_append, hsame]
  · rw [carried_apart hbelow]
    refine ⟨by rw [h.toMoved.others hheld hbelow], fun key => ?_⟩
    rw [h.apart]
    · -- Neither the old place nor the new one is right below this key.
      intro hwithin
      rcases Place.within_of_below hwithin with hp | habove'
      · exact hbelow hp
      · exact habove habove'
    · intro hwithin
      rcases Place.within_of_below hwithin with ⟨more, hp⟩ | habove'
      · -- What is at the new place is the renamed key.
        by_cases hsame : l.renamedPlace newName = l.place
        · exact hbelow ⟨more, hp.trans (by rw [hsame])⟩
        · exact vacant (h.free hsame more) (mem_held.mp (hp ▸ hheld))
      · exact habove (habove'.trans (Location.above_renamedPlace l newName))

/-- A change that neither writes to a key nor creates keys leaves the key with the content that it
    had. -/
theorem Turns.sameContent (h : f.Turns f' m) (hcreate : ∀ l, m ≠ .createKey l) (hheld : p ∈ f.held)
    (hq : m.destination? p = some q) (hwrites : ¬ m.WritesTo p) : SameContent f f' p q := by
  cases m with
  | createKey l => exact absurd rfl (hcreate l)
  | deleteKey l =>
    simp only [Mutation.destination?, Option.ite_none_left_eq_some, Option.some.injEq] at hq
    obtain ⟨hother, rfl⟩ := hq
    exact sameContent_of_update (Deleted.after h) hother (fun habove => absurd habove hwrites)
  | renameKey l newName =>
    obtain rfl : l.carried newName p = q := Option.some.inj hq
    exact Renamed.sameContent h hheld (fun hp => hwrites (Or.inl hp))
      (fun hp => hwrites (Or.inr hp))
  | setValue l name data =>
    obtain rfl : p = q := Option.some.inj hq
    obtain ⟨e, hthere, hafter⟩ := h
    exact sameContent_of_update hafter hwrites (fun _ => by rw [hthere]; rfl)
  | deleteValue l name =>
    obtain rfl : p = q := Option.some.inj hq
    obtain ⟨e, hthere, -, hafter⟩ := h
    exact sameContent_of_update hafter hwrites (fun _ => by rw [hthere]; rfl)

/-- The key above a deleted one has other keys below it afterwards. -/
theorem Deleted.not_sameContent {l : Location} (h : Deleted f f' l) :
    ¬ SameContent f f' l.place.above l.place.above := by
  intro hsame
  obtain ⟨above, name, hnames⟩ := (List.eq_nil_or_concat' l.path.names).resolve_left h.inner
  have hplace : l.place.above.below [Text.fold name] = l.place := by
    rw [Location.above_eq hnames, Location.place_eq hnames]
    rfl
  -- The deleted key was right below, and it is not any more.
  have hkey := hsame.subKeys (Text.fold name)
  rw [hplace, h.after, Function.update_self, Option.map_none] at hkey
  exact vacant (Option.map_eq_none_iff.mp hkey.symm) h.present

/-- What a change writes to without rewriting it is above the key that it deletes. -/
theorem Turns.not_sameContent (h : f.Turns f' m) (hq : m.destination? p = some q)
    (hwrites : m.WritesTo p) (hrewrites : ¬ m.Rewrites p) : ¬ SameContent f f' p q := by
  cases m with
  | createKey l => exact hwrites.elim
  | deleteKey l =>
    simp only [Mutation.destination?, Option.ite_none_left_eq_some, Option.some.injEq] at hq
    obtain ⟨-, rfl⟩ := hq
    obtain rfl : p = l.place.above := hwrites
    exact Deleted.not_sameContent h
  | renameKey l newName => exact absurd hwrites hrewrites
  | setValue l name data => exact absurd hwrites hrewrites
  | deleteValue l name => exact absurd hwrites hrewrites

end Flat

/-- Two keys have the same values, and the keys right below them have the same names. -/
structure Node.SameContent (n n' : Node) : Prop where
  values : n'.entry.values = n.entry.values
  subKeys : n'.subKeyName? = n.subKeyName?

/-- Two keys have the same content exactly if the flat trees say so of their places. -/
theorem Hives.sameContent_iff {h h' : Hives} {p q : Flat.Place} {n n' : Node}
    (hn : h.node? p = some n) (hn' : h'.node? q = some n') :
    Flat.SameContent h.flat h'.flat p q ↔ n.SameContent n' := by
  have hbelow : ∀ key, (h'.flat.at? (q.below [key])).map Flat.Entry.name =
      (h.flat.at? (p.below [key])).map Flat.Entry.name ↔ n'.subKeyName? key = n.subKeyName? key :=
    fun key => by rw [flat_below_node hn, flat_below_node hn']
  constructor
  · rintro ⟨hvalues, hsub⟩
    rw [flat_of_node hn, flat_of_node hn'] at hvalues
    exact ⟨Option.some.inj hvalues, funext fun key => (hbelow key).mp (hsub key)⟩
  · rintro ⟨hvalues, hsub⟩
    refine ⟨?_, fun key => (hbelow key).mpr (congrFun hsub key)⟩
    rw [flat_of_node hn, flat_of_node hn']
    exact congrArg some hvalues

/-- Let any change be made to any trees, at the time `t`.

    Every key that was there and was not deleted is there at its destination. If it has other values
    now, or if there are other keys right below it, then `t` is the time of its last write, unless
    the change was a creation: that leaves the key with the time that it had. If nothing is new
    about it, and the change did not rewrite it, then it has the time that it had as well. Every key
    that was not there has the time `t`. -/
theorem last_write_follows_content (t : Time) (h h' : Hives) (m : Mutation)
    (hok : m.apply t h = .ok h') :
    (∀ p q n, h.node? p = some n → m.destination? p = some q → ∃ n', h'.node? q = some n' ∧
      (¬ n.SameContent n' →
        n'.lastWrite = match m with | .createKey _ => n.lastWrite | _ => t) ∧
      (¬ m.Rewrites p → n'.name = n.name → n.SameContent n' → n'.lastWrite = n.lastWrite)) ∧
    (∀ q n', h'.node? q = some n' →
      (∀ p n, h.node? p = some n → m.destination? p ≠ some q) → n'.lastWrite = t) := by
  have hturns := Mutation.turns_of_ok hok
  constructor
  · intro p q n hn hq
    have hheld := Hives.mem_held_iff_node.mpr ⟨n, hn⟩
    -- Its destination is there, and whether it has the new time depends on whether it was written
    -- to.
    obtain ⟨n', hn'⟩ := Hives.mem_held_iff_node.mp (hturns.at_destination hheld hq)
    have hstamp := Hives.stamp_of_ok hok hheld hq
    rw [Hives.probe_of_node _ hn, Hives.probe_of_node _ hn'] at hstamp
    have hsame := Hives.sameContent_iff hn hn'
    refine ⟨n', hn', fun hchanged => ?_, fun hrewrites _ hunchanged => ?_⟩
    · by_cases hcreate : ∃ l, m = .createKey l
      · obtain ⟨l, rfl⟩ := hcreate
        rw [if_neg (show ¬ (Mutation.createKey l).WritesTo p from id)] at hstamp
        exact Option.some.inj hstamp
      · have hcreate := not_exists.mp hcreate
        -- Had the change not written to it, its content would be the same.
        have hwrites : m.WritesTo p :=
          of_not_not (fun hnot => hchanged (hsame.mp (hturns.sameContent hcreate hheld hq hnot)))
        rw [if_pos hwrites] at hstamp
        cases m with
        | createKey l => exact absurd rfl (hcreate l)
        | _ => exact Option.some.inj hstamp
    · -- Had the change written to it without rewriting it, its content would be another one.
      have hwrites : ¬ m.WritesTo p :=
        fun hwrites => hturns.not_sameContent hq hwrites hrewrites (hsame.mpr hunchanged)
      rw [if_neg hwrites] at hstamp
      exact Option.some.inj hstamp
  · intro q n' hn' hnew
    have hheld := Hives.mem_held_iff_node.mpr ⟨n', hn'⟩
    have hstamp := Hives.stamp_of_new hok hheld (fun p hp => by
      obtain ⟨n, hn⟩ := Hives.mem_held_iff_node.mp hp
      exact hnew p n hn)
    rw [Hives.probe_of_node _ hn'] at hstamp
    exact Option.some.inj hstamp

/-- `HKEY_CURRENT_USER\A`, in empty trees. -/
def firstKey : Location :=
  (Location.ofRoot .currentUser).below "A"

/-- Empty trees with one key created at the time 5. -/
def afterFirstKey : Hives :=
  (Hives.empty 0).set .currentUser (((Hives.empty 0).get .currentUser).create 5 firstKey.path.names)

/-- The same trees with that key deleted at the time 9. -/
def afterDeletion : Hives :=
  (Hives.empty 0).set .currentUser (((Hives.empty 0).get .currentUser).touch 9)

/-- The key has the time of its creation; when it is deleted, the root takes the time of that, and
    another root has the time that it had. -/
theorem first_key_comes_and_goes :
    (Mutation.apply 5 (Hives.empty 0) (.createKey firstKey) = .ok afterFirstKey ∧
      ∃ n, afterFirstKey.node? firstKey.place = some n ∧ n.lastWrite = 5) ∧
    Mutation.apply 9 afterFirstKey (.deleteKey firstKey) = .ok afterDeletion ∧
      (afterDeletion.get .currentUser).lastWrite = 9 ∧
      (afterDeletion.get .users).lastWrite = 0 := by
  constructor
  · have hok : Mutation.apply 5 (Hives.empty 0) (.createKey firstKey) = .ok afterFirstKey := rfl
    obtain ⟨n, hn⟩ : ∃ n, afterFirstKey.node? firstKey.place = some n :=
      Option.isSome_iff_exists.mp (by decide +kernel)
    refine ⟨hok, n, hn, (last_write_follows_content 5 _ _ _ hok).2 _ n hn ?_⟩
    intro p old hold hp
    obtain rfl : p = firstKey.place := Option.some.inj hp
    have hfree : ((Hives.empty 0).node? firstKey.place).isNone = true := by decide +kernel
    rw [hold] at hfree
    exact absurd hfree (by simp)
  · have hok : Mutation.apply 9 afterFirstKey (.deleteKey firstKey) = .ok afterDeletion := rfl
    have hthere := (last_write_follows_content 9 _ _ _ hok).1
    obtain ⟨n, hn, htime, -⟩ := hthere ⟨.currentUser, []⟩ ⟨.currentUser, []⟩
      (afterFirstKey.get .currentUser) rfl (by decide +kernel)
    obtain ⟨other, hother, -, hkept⟩ := hthere ⟨.users, []⟩ ⟨.users, []⟩
      (afterFirstKey.get .users) rfl (by decide +kernel)
    obtain rfl : afterDeletion.get .currentUser = n := Option.some.inj hn
    obtain rfl : afterDeletion.get .users = other := Option.some.inj hother
    refine ⟨hok, htime (fun hsame => ?_), hkept id rfl ⟨rfl, rfl⟩⟩
    exact absurd (congrFun hsame.subKeys (Text.fold "A")) (by decide +kernel)

/-- Of a creation it is not true that every key with something new about it takes the time: the
    root has a key below it now, and the time that it had. -/
theorem creation_does_not_write_to_the_key_above :
    ¬ ∀ (t : Time) (h h' : Hives) (m : Mutation) (p q : Flat.Place) (n n' : Node),
      m.apply t h = .ok h' → h.node? p = some n → m.destination? p = some q →
      h'.node? q = some n' → ¬ n.SameContent n' → n'.lastWrite = t := by
  intro hall
  have htime : (afterFirstKey.get .currentUser).lastWrite = 5 :=
    hall 5 (Hives.empty 0) afterFirstKey (.createKey firstKey) ⟨.currentUser, []⟩ ⟨.currentUser, []⟩
      ((Hives.empty 0).get .currentUser) (afterFirstKey.get .currentUser) rfl rfl rfl rfl (by
        intro hsame
        have hbelow := congrFun hsame.subKeys (Text.fold "A")
        exact absurd hbelow (by decide +kernel))
  have hkept : (afterFirstKey.get .currentUser).lastWrite = 0 := by decide +kernel
  rw [hkept] at htime
  exact absurd htime (by decide)

end TransactionalRegistry
