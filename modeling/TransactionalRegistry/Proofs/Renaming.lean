import TransactionalRegistry.Proofs.Answers

/-!
# Renaming

A renaming is checked by the trees, which take one single name, and answered by the operation, which
builds the new location from the text of that name. The two agree: a name that the trees accept is
read as itself, and a name that would be read as something else is refused.

What a key has below it goes along with it. At the end of every way below the new location there is
what was there below the old one, with the same values and the same keys below it, and nothing apart
from the two has changed. If only the letter case of the name is new, then the two are one place.

## Main definitions

* `Location.beside`: The location with another last name.
* `Node.contents`: What a key holds.
* `Hives.Carried`: Trees in which a key has been carried from one location to another.

## Theorems

* `Node.find?_append`, `Node.find?_graft_append`: Ways in two parts.
* `Hives.carried_of_rename`: What a renaming does to the trees.
* `Hives.not_renamed`: Why a key cannot be renamed.
* `renaming_moves_the_key_it_names`: The operation, in every reachable state.
-/

namespace TransactionalRegistry

namespace Location

variable {l : Location} {name : String}

/-- The location with another last name. -/
def beside (l : Location) (name : String) : Location :=
  ⟨l.root, ⟨l.path.names.dropLast ++ [name]⟩⟩

theorem place_beside (l : Location) (name : String) :
    (l.beside name).place = l.renamedPlace name := by
  rw [place, renamedPlace, beside, Path.folded, Path.folded, List.map_append, List.map_dropLast]
  rfl

theorem renamed?_eq (hinner : l.isRoot = false) (name : String) :
    l.renamed? name = some ⟨l.root, (Path.mk l.path.names.dropLast).join name⟩ := by
  have hnames : l.path.names.isEmpty = false := hinner
  rw [renamed?, Path.withName?, Path.parent?, hnames]
  rfl

end Location

namespace Node

variable {n m found : Node} {names : List String}

/-- What a key holds: its values and the keys below it. -/
def contents (n : Node) : Table String StoredValue × List (String × Node) :=
  (n.values, n.subKeys)

theorem find?_append (n : Node) (names more : List String) :
    n.find? (names ++ more) = (n.find? names).bind (·.find? more) := by
  induction names generalizing n with
  | nil => rfl
  | cons name rest ih =>
    rw [List.cons_append, find?_cons, find?_cons]
    cases n.child? name with
    | none => rfl
    | some child => exact ih child

/-- After a graft, the grafted key is found where the other one was. -/
theorem find?_graft_append (hfound : n.find? names = some found) (more : List String) :
    (graft m names n).find? (names ++ more) = m.find? more := by
  induction names generalizing n with
  | nil => rfl
  | cons name rest ih =>
    rw [find?_cons] at hfound
    cases hchild : n.child? name with
    | none => exact absurd hfound (by simp [hchild])
    | some child =>
      rw [hchild, Option.bind_some] at hfound
      -- What was put under a name is what is found under it, whatever its own name is.
      have hput : ((n.putChild name (graft m rest child)).child? name) =
          some (graft m rest child) := by
        rw [child?, putChild, Table.find?_insert, if_pos rfl]
      rw [List.cons_append, find?_cons, graft, hchild]
      simp only [hput, Option.bind_some]
      exact ih hfound

theorem child?_moveChild (now : Time) (new old : String) (child n : Node) :
    (moveChild now new old child n).child? new =
      some { child with name := new, lastWrite := now } := by
  rw [child?, moveChild, touch, putChild, Table.find?_insert, if_pos rfl]

/-- Keys that hold the same hold the same at the end of every way below them. -/
theorem contents_find? (h : m.contents = n.contents) (more : List String) :
    (m.find? more).map contents = (n.find? more).map contents := by
  have hsub : m.subKeys = n.subKeys := congrArg Prod.snd h
  cases more with
  | nil => exact congrArg some h
  | cons name rest => rw [find?_cons, find?_cons, child?, child?, hsub]

end Node

namespace Hives

variable {h h' : Hives} {l : Location} {now : Time} {newName : String} {e : NativeError}

/-- The key at `l` has been carried to `m`, with what it holds at every depth, and nothing that is
    apart from the two has changed. Unless they are one place, nothing is left at `l`. -/
structure Carried (h h' : Hives) (l m : Location) : Prop where
  arrived : h'.contains m = true
  held : ∀ relative, (h'.find? (m.below relative)).map Node.contents =
    (h.find? (l.below relative)).map Node.contents
  left : m.same l = false → h'.contains l = false
  apart : ∀ other, other.isWithin l = false → other.isWithin m = false →
    (h'.find? other).map Node.entry = (h.find? other).map Node.entry

/-- No key other than the one at `l` has the place that `l` would have with another last name. -/
def FreeBeside (h : Hives) (l : Location) (newName : String) : Prop :=
  ∀ name, Text.fold name = Text.fold newName → h.contains (l.beside name) = true →
    (l.beside name).same l = true

theorem freeBeside_iff : h.FreeBeside l newName ↔
    (l.renamedPlace newName ≠ l.place → h.flat.at? (l.renamedPlace newName) = none) := by
  -- Names that differ in letter case alone lead to one place.
  have hplace : ∀ name, Text.fold name = Text.fold newName →
      (l.beside name).place = l.renamedPlace newName := by
    intro name hfold
    rw [Location.place_beside, Location.renamedPlace, Location.renamedPlace, hfold]
  constructor
  · intro hfree hmoves
    by_contra htaken
    refine hmoves ?_
    rw [← hplace newName rfl, ← Location.same_iff]
    refine hfree newName rfl ?_
    rw [contains_eq, hplace newName rfl]
    exact Option.isSome_iff_ne_none.mpr htaken
  · intro hempty name hfold hthere
    rw [contains_eq, hplace name hfold] at hthere
    rw [Location.same_iff, hplace name hfold]
    by_contra hmoves
    rw [hempty hmoves] at hthere
    exact absurd hthere (by simp)

/-- At the end of every way below the renamed key there is what was there before. -/
theorem held_of_rename (hok : Mutation.apply now h (.renameKey l newName) = .ok h')
    (relative : String) :
    (h'.find? ((l.beside newName).below relative)).map Node.contents =
      (h.find? (l.below relative)).map Node.contents := by
  rw [Mutation.apply] at hok
  split at hok
  · rcases List.eq_nil_or_concat' l.path.names with hroot | ⟨above, name, hnames⟩
    · rw [updateAbove_of_root hroot] at hok
      exact absurd hok (by simp)
    · rw [updateAbove_of_name hnames, update_eq_ok] at hok
      rcases hok with ⟨found, m, hfound, hrename, rfl⟩
      rcases Node.renameChild_eq_ok.mp hrename with ⟨-, child, hchild, rfl⟩
      -- Both ways go through the key above; from there, one goes by the old name and the other by
      -- the new one, to keys that hold the same.
      have hold : h.find? (l.below relative) = child.find? (Path.ofText relative).names := by
        rw [find?, Location.below, Path.join, hnames, List.append_assoc, Node.find?_append, hfound,
          Option.bind_some, List.singleton_append, Node.find?_cons, hchild, Option.bind_some]
      rw [hold, find?, Location.below, Path.join, Location.beside, hnames, List.dropLast_concat,
        List.append_assoc, get_set, if_pos rfl, Node.find?_graft_append hfound,
        List.singleton_append, Node.find?_cons, Node.child?_moveChild, Option.bind_some]
      exact Node.contents_find? (m := { child with name := newName, lastWrite := now })
        (n := child) rfl _
  · exact absurd hok (by simp)

/-- A key that can be renamed is there, its new name is single, and its new place is free; and it
    is carried there. -/
theorem carried_of_rename (hok : Mutation.apply now h (.renameKey l newName) = .ok h') :
    (newName ≠ "" ∧ Path.separator ∉ newName.toList) ∧ h.contains l = true ∧
      h.FreeBeside l newName ∧ h.Carried h' l (l.beside newName) := by
  have hrenamed := flat_renamed hok
  have hthere : h.contains l = true := by
    rw [contains_eq]
    exact hrenamed.present
  refine ⟨hrenamed.single, hthere, ?_, ?_, held_of_rename hok, ?_, ?_⟩
  · rw [freeBeside_iff]
    intro hmoves
    rw [← Flat.below_nil (l.renamedPlace newName)]
    exact hrenamed.free hmoves []
  · have hmoved := hrenamed.moved []
    rw [Flat.below_nil, Flat.below_nil] at hmoved
    rw [contains_eq, Location.place_beside, hmoved, Option.isSome_map]
    exact hrenamed.present
  · intro hother
    have hmoves : l.renamedPlace newName ≠ l.place := by
      rw [← Location.place_beside, ne_eq, ← Location.same_iff, hother]
      exact Bool.false_ne_true
    rw [contains_eq, ← Flat.below_nil l.place, hrenamed.left hmoves []]
    rfl
  · intro other hold hnew
    rw [← Bool.not_eq_true, Location.isWithin_iff] at hold hnew
    rw [Location.place_beside] at hnew
    rw [← flat_at_place, ← flat_at_place]
    exact hrenamed.apart other.place hold hnew

/-- A key cannot be renamed if its new name is not single, or it is not there, or another key has
    the new name. -/
theorem not_renamed (hinner : l.isRoot = false)
    (herror : Mutation.apply now h (.renameKey l newName) = .error e) :
    ¬ ((newName ≠ "" ∧ Path.separator ∉ newName.toList) ∧ h.contains l = true ∧
      h.FreeBeside l newName) := by
  rintro ⟨hsingle, hthere, hfree⟩
  rw [contains_eq] at hthere
  cases flat_not_renamed herror with
  | renameName hname => exact hname hsingle
  | renameRoot _ hroot => exact absurd ((Location.isRoot_iff l).mpr hroot) (by rw [hinner]; simp)
  | renameTaken _ _ hmoves htaken =>
    rw [freeBeside_iff.mp hfree hmoves] at htaken
    exact absurd htaken (by simp)
  | renameMissing _ _ _ hmissing =>
    rw [hmissing] at hthere
    exact absurd hthere (by simp)

end Hives

/-- Let anything have happened, let the trees in view be given, and let a location be no root key
    and not be protected, and its names be single, as they are in every location that is read from
    text. Let the key at the location be renamed, and the transaction that is current, if there is
    one, be active until that is done.

    It succeeds just if the new name is a single one, the key exists, and no other key beside it has
    that name up to letter case. Then the answer is the location with the new name in place of the
    last one, and the key has been carried there with all that is below it. If it does not succeed,
    then the trees in view are as they were. -/
theorem renaming_moves_the_key_it_names (ctx : Context Timeline) (h : Hives) (hsees : ctx.Sees h)
    (l : Location) (hl : l.path.Sound) (hinner : l.isRoot = false)
    (hfree : ctx.world.store.isProtected l = false) (newName : String)
    (hundisturbed : (Registry.rename l newName).Undisturbed ctx) :
    ((∃ m, outcome (Registry.rename l newName) ctx = .ok m) ↔
      (newName ≠ "" ∧ Path.separator ∉ newName.toList) ∧ h.contains l = true ∧
        h.FreeBeside l newName) ∧
    (∀ m, outcome (Registry.rename l newName) ctx = .ok m →
      m = l.beside newName ∧
        ∃ h', (endState (Registry.rename l newName) ctx).Sees h' ∧ h.Carried h' l m) ∧
    ∀ failure, outcome (Registry.rename l newName) ctx = .error failure →
      (endState (Registry.rename l newName) ctx).Sees h := by
  rcases (Registry.tells_rename (c := ctx.scene h) hl hinner
    (Location.renamed?_eq hinner newName)).told_in hundisturbed hsees.scene_at
    with ⟨hchanged, hroute⟩
  generalize outcome (Registry.rename l newName) ctx = r at hchanged ⊢
  cases hchanged with
  | made _ hbecomes =>
    rcases hbecomes with ⟨now, h', happly, hscene⟩
    rcases Hives.carried_of_rename happly with ⟨hsingle, hthere, hbeside, hcarried⟩
    refine ⟨iff_of_true ⟨_, rfl⟩ ⟨hsingle, hthere, hbeside⟩, ?_,
      fun _ hnever => absurd hnever (by simp)⟩
    rintro m hm
    obtain rfl := Except.ok.inj hm
    rw [Path.join_single hsingle]
    exact ⟨rfl, h', Context.sees_of_scene (h := h) hroute hscene, hcarried⟩
  | denied hdenied _ => exact absurd (hfree.symm.trans hdenied) (by simp)
  | rejected _ hrejects hscene =>
    rcases hrejects with ⟨now, herror⟩
    -- The trees reject a renaming only for one of the reasons that the condition excludes.
    refine ⟨iff_of_false (fun ⟨_, hok⟩ => absurd hok (by simp)) (Hives.not_renamed hinner herror),
      fun _ hok => absurd hok (by simp), fun _ _ => Context.sees_of_scene (h := h) hroute hscene⟩

/-- Work in a transaction, in which a key with one key below it and a value was created. -/
def workingWithKeys : Context Timeline where
  world := ⟨⟨0, []⟩,
    [.call (.createTransaction 0 none),
     .call (.createKey RootKey.currentUser.handle "Outer\\Inner" .all (some ⟨0x1000⟩)),
     .call (.setValue ⟨0x1004⟩ "Count" ⟨4, [1, 0, 0, 0]⟩ none)]⟩
  ambient := [some ⟨0, ⟨0x1000⟩, .zero, none⟩]
  shared := [⟨true, false, 1⟩]

/-- The trees that are in view there. -/
def keysInView : Hives :=
  (workingWithKeys.world.store.viewOf (some ⟨0x1000⟩)).getD (Hives.empty 0)

/-- A change of letter case alone is a renaming like any other. -/
theorem outer_key_is_renamed_in_letter_case :
    let outer := (Location.ofRoot .currentUser).below "Outer"
    (Registry.rename outer "OUTER").Undisturbed workingWithKeys ∧
      outcome (Registry.rename outer "OUTER") workingWithKeys = .ok (outer.beside "OUTER") ∧
      ∃ h', (endState (Registry.rename outer "OUTER") workingWithKeys).Sees h' ∧
        keysInView.Carried h' outer (outer.beside "OUTER") := by
  intro outer
  have hundisturbed : (Registry.rename outer "OUTER").Undisturbed workingWithKeys := by
    decide +kernel
  have hok : outcome (Registry.rename outer "OUTER") workingWithKeys =
      .ok (outer.beside "OUTER") := by
    decide +kernel
  rcases renaming_moves_the_key_it_names workingWithKeys keysInView rfl outer
    (Path.sound_root.join _) rfl rfl "OUTER" hundisturbed with ⟨-, hmoved, -⟩
  exact ⟨hundisturbed, hok, (hmoved _ hok).2⟩

end TransactionalRegistry
