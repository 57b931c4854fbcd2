import TransactionalRegistry.Proofs.Answers

/-!
# Creation and deletion

Whether a key exists decides how creating and deleting it ends, and the answers of the four
operations that do so say no more and no less. All of them go by the trees in view. Creating a key
makes the keys on the way to it as well, and neither makes nor changes anything else; deleting takes
away that one key, which must have no keys below it.

This is about keys that are neither root keys nor protected, and it is said of work that keeps its
transaction, if it has one, until it is done.

## Main definitions

* `Hives.Grown`: Trees with a key more, and with the keys on the way to it.
* `Hives.hasSubKeys`: Whether the key at a location has keys below it.

## Theorems

* `Flat.Created.grown`: What the creation of a key does, said of locations.
* `creation_and_deletion_follow_existence`: The five operations, in every reachable state.
-/

namespace TransactionalRegistry

namespace Hives

/-- The key at a location is there and so are those on the way to it. Keys that were there have the
    names and values that they had, and the keys below them that they had, and no other key has come
    to be. -/
structure Grown (h h' : Hives) (l : Location) : Prop where
  present : ∀ m, l.isWithin m = true → h'.contains m = true
  kept : ∀ m n, h.find? m = some n → ∃ n', h'.find? m = some n' ∧ n'.name = n.name ∧
    (∀ name, n'.value? name = n.value? name) ∧
    ∀ name, (n.child? name).isSome → (n'.child? name).isSome
  only : ∀ m, h'.contains m = true → h.contains m = true ∨ l.isWithin m = true

/-- Whether there is a key with keys below it at a location. -/
def hasSubKeys (h : Hives) (l : Location) : Bool :=
  (h.find? l).any fun n => !n.subKeys.isEmpty

variable {h h' : Hives} {l : Location}

/-- Keys that have the same entry at their place have the same name and values. -/
theorem find?_of_entry {n : Node} {m : Location} (hentry : h'.flat.at? m.place = some n.entry) :
    ∃ n', h'.find? m = some n' ∧ n'.name = n.name ∧ ∀ name, n'.value? name = n.value? name := by
  rw [flat_at_place, Option.map_eq_some_iff] at hentry
  rcases hentry with ⟨n', hfound, hentry⟩
  refine ⟨n', hfound, congrArg Flat.Entry.name hentry, fun name => ?_⟩
  exact congrFun (congrArg Flat.Entry.values hentry) (Text.fold name)

/-- A root key stands at the beginning of every way. -/
theorem flat_root (h : Hives) (root : RootKey) : (h.flat.at? ⟨root, []⟩).isSome := by
  change ((h.get root).flat []).isSome
  rw [Node.flat_nil]
  rfl

end Hives

namespace Flat.Created

variable {h h' : Hives} {l : Location}

/-- What was at a place still is. -/
theorem present_of (hcreated : h.flat.Created h'.flat l) {p : Flat.Place}
    (hthere : (h.flat.at? p).isSome) : (h'.flat.at? p).isSome := by
  rcases Option.isSome_iff_exists.mp hthere with ⟨e, he⟩
  rw [hcreated.kept p e he]
  rfl

/-- Every place on the way to the created key holds one. -/
theorem on_the_way (hcreated : h.flat.Created h'.flat l) {names : List String}
    (hway : names <+: l.path.names) : (h'.flat.at? ⟨l.root, names.map Text.fold⟩).isSome := by
  -- What is not there already was made, except for the root key, which is always there.
  by_cases hthere : (h.flat.at? ⟨l.root, names.map Text.fold⟩).isSome
  · exact hcreated.present_of hthere
  · rcases List.eq_nil_or_concat' names with rfl | ⟨above, name, rfl⟩
    · exact absurd (h.flat_root l.root) hthere
    · rw [hcreated.made above name hway (Option.not_isSome_iff_eq_none.mp hthere)]
      rfl

/-- A place above the created one is named by the first names of its path. -/
theorem at_within (hcreated : h.flat.Created h'.flat l) {p : Flat.Place}
    (hwithin : l.place.Within p) : (h'.flat.at? p).isSome := by
  obtain ⟨hroot, hway⟩ := Flat.Place.within_iff.mp hwithin
  obtain ⟨names, hnames, hkeys⟩ := List.prefix_map_iff.mp hway
  have hplace : p = ⟨l.root, names.map Text.fold⟩ :=
    Flat.Place.mk.injEq .. ▸ ⟨hroot.symm, hkeys⟩
  rw [hplace]
  exact hcreated.on_the_way hnames

/-- Creating a key lets the trees grow by it. -/
theorem grown (hcreated : h.flat.Created h'.flat l) : h.Grown h' l where
  present m hwithin := by
    rw [Location.isWithin_iff] at hwithin
    rw [Hives.contains_eq]
    exact hcreated.at_within hwithin
  kept m n hfound := by
    have hentry := hcreated.kept m.place n.entry (by rw [Hives.flat_at_place, hfound]; rfl)
    rcases Hives.find?_of_entry hentry with ⟨n', hfound', hname, hvalues⟩
    -- A key below is a place like any other, so it is still there.
    refine ⟨n', hfound', hname, hvalues, fun name hchild => ?_⟩
    have hbelow : (h.flat.at? (m.place.below [Text.fold name])).isSome := by
      rw [Hives.flat_below_place hfound, Option.isSome_map]
      exact hchild
    have hbelow' := hcreated.present_of hbelow
    rwa [Hives.flat_below_place hfound', Option.isSome_map] at hbelow'
  only m hthere := by
    -- What is not on the way to the location is not touched.
    rw [Hives.contains_eq] at hthere ⊢
    by_cases hway : l.isWithin m = true
    · exact Or.inr hway
    · left
      rw [Location.isWithin_iff, Flat.Place.within_iff] at hway
      rwa [hcreated.apart m.place (fun hon => hway ⟨hon.1.symm, hon.2.2⟩)] at hthere

/-- Where there is a key at a location, nothing is left to be created. -/
theorem of_present {f : Flat} (hthere : (f.at? l.place).isSome) : f.Created f l where
  kept _ _ he := he
  -- All places on the way to a key that is there hold keys, so none of them was made.
  made above name hway hmissing := by
    have hwithin : l.place.Within ⟨l.root, (above ++ [name]).map Text.fold⟩ :=
      Flat.Place.within_iff.mpr ⟨rfl, hway.map Text.fold⟩
    rcases hwithin with ⟨more, hplace⟩
    rw [hplace, f.closed _ more hmissing] at hthere
    exact absurd hthere (by simp)
  apart _ _ := rfl

end Flat.Created

namespace Hives

variable {h h' : Hives} {l : Location} {now : Time} {e : NativeError}

/-- The key at a location, and no other one, is gone. -/
structure Shrunk (h h' : Hives) (l : Location) : Prop where
  gone : h'.contains l = false
  kept : ∀ m n, h.find? m = some n → m.same l = false → ∃ n', h'.find? m = some n' ∧
    n'.name = n.name ∧ ∀ name, n'.value? name = n.value? name
  only : ∀ m, h'.contains m = true → h.contains m = true

/-- No key is below a location just if all places below its own are empty. -/
theorem hasSubKeys_eq_false_iff :
    h.hasSubKeys l = false ↔ ∀ more, more ≠ [] → h.flat.at? (l.place.below more) = none := by
  rw [hasSubKeys]
  cases hfound : h.find? l with
  -- Where there is no key, there is none below it either.
  | none => exact iff_of_true rfl (fun more _ => flat_missing hfound more)
  | some n =>
    have hbelow : ∀ more, h.flat.at? (l.place.below more) = n.flat more := flat_found hfound
    have hempty : Option.any (fun n => !n.subKeys.isEmpty) (some n) = false ↔ n.subKeys = [] := by
      simp
    rw [hempty]
    constructor
    · intro hnone more hmore
      rcases List.exists_cons_of_ne_nil hmore with ⟨key, rest, rfl⟩
      rw [hbelow, Node.flat_cons, hnone]
      rfl
    · intro hnone
      rw [Node.subKeys_eq_nil_iff]
      exact fun key => (hbelow [key]).symm.trans (hnone [key] (by simp))

/-- A key that can be deleted is there and has no keys below it; and it alone is gone then. -/
theorem shrunk_of_delete (hok : Mutation.apply now h (.deleteKey l) = .ok h') :
    h.contains l = true ∧ h.hasSubKeys l = false ∧ h.Shrunk h' l := by
  have hdeleted := flat_deleted hok
  refine ⟨by rw [contains_eq]; exact hdeleted.present, hasSubKeys_eq_false_iff.mpr hdeleted.leaf,
    ?_, ?_, ?_⟩
  · -- The place itself is the one that is emptied.
    rw [contains_eq, hdeleted.after, Function.update_self]
    rfl
  · intro m n hfound hother
    refine find?_of_entry ?_
    -- Another location has another place, and that is not touched.
    have hplace : m.place ≠ l.place := by
      rw [ne_eq, ← Location.same_iff, hother]
      exact Bool.false_ne_true
    rw [hdeleted.after, Function.update_of_ne hplace, flat_at_place, hfound]
    rfl
  · intro m hthere
    rw [contains_eq, hdeleted.after, Function.update_apply] at hthere
    rw [contains_eq]
    split at hthere
    · exact absurd hthere (by simp)
    · exact hthere

/-- A key cannot be deleted because it is not there, or because of the keys below it. -/
theorem not_deleted (hinner : l.isRoot = false)
    (herror : Mutation.apply now h (.deleteKey l) = .error e) :
    h.contains l = false ∧ e = .fileNotFound ∨
      h.contains l = true ∧ h.hasSubKeys l = true ∧ e = .accessDenied := by
  cases flat_not_deleted herror with
  | deleteRoot hroot => exact absurd ((Location.isRoot_iff l).mpr hroot) (by rw [hinner]; simp)
  | deleteMissing _ hmissing => exact Or.inl ⟨by rw [contains_eq, hmissing]; rfl, rfl⟩
  | deleteInner _ more hmore hbelow =>
    refine Or.inr ⟨?_, ?_, rfl⟩
    · -- Below a key that is missing there is nothing.
      rw [contains_eq]
      by_contra hnone
      have hclosed := h.flat.closed _ more (Option.not_isSome_iff_eq_none.mp hnone)
      rw [hclosed] at hbelow
      exact absurd hbelow (by simp)
    · rw [← Bool.not_eq_false, hasSubKeys_eq_false_iff]
      intro hnone
      rw [hnone more hmore] at hbelow
      exact absurd hbelow (by simp)

end Hives

/-! ## The operations -/

section

variable {ctx : Context Timeline} {h : Hives} {l : Location}

/-- However the creation of a key that may be created has ended, the trees have grown by it. -/
theorem Scene.Created.sees_grown {ctx' : Context Timeline} {r : Except (Failure RegistryError) Bool}
    (hcreated : (ctx.scene h).Created l r ctx'.world.store) (hroute : ctx'.route = ctx.route)
    (hfree : ctx.world.store.isProtected l = false) :
    r = .ok (!h.contains l) ∧ ∃ h', ctx'.Sees h' ∧ h.Grown h' l := by
  cases hcreated with
  | there hthere hscene =>
    -- Nothing had to be created: the trees have grown by nothing.
    have hthere' : h.contains l = true := hthere
    refine ⟨by rw [hthere']; rfl, h, Context.sees_of_scene (h := h) hroute hscene, ?_⟩
    rw [Hives.contains_eq] at hthere'
    exact Flat.Created.grown (.of_present hthere')
  | made hmissing _ hbecomes =>
    have hmissing' : h.contains l = false := hmissing
    -- The change was made to the trees in view, and took them where the description says.
    rcases hbecomes with ⟨now, h', happly, hscene⟩
    refine ⟨by rw [hmissing']; rfl, h', Context.sees_of_scene (h := h) hroute hscene, ?_⟩
    exact Flat.Created.grown (Mutation.turns_of_ok happly)
  | denied _ hdenied _ => exact absurd (hfree.symm.trans hdenied) (by simp)

/-- How deleting a key ends that may be deleted as far as its place goes. -/
theorem Scene.Changed.sees_shrunk {ctx' : Context Timeline}
    {r : Except (Failure RegistryError) Unit} {operation : String}
    (hchanged : (ctx.scene h).Changed l operation (.deleteKey l) () r ctx'.world.store)
    (hroute : ctx'.route = ctx.route) (hinner : l.isRoot = false)
    (hfree : ctx.world.store.isProtected l = false) :
    r = (if h.contains l then
          if h.hasSubKeys l then .error (.error (.accessDenied l.text)) else .ok ()
        else .error (.error (.noSuchKey l.text))) ∧
      (r = .ok () → ∃ h', ctx'.Sees h' ∧ h.Shrunk h' l) ∧ (r ≠ .ok () → ctx'.Sees h) := by
  cases hchanged with
  | made _ hbecomes =>
    rcases hbecomes with ⟨now, h', happly, hscene⟩
    -- A key that was deleted was there and had no keys below it.
    rcases Hives.shrunk_of_delete happly with ⟨hthere, hleaf, hshrunk⟩
    rw [show h.contains l = true from hthere, show h.hasSubKeys l = false from hleaf]
    refine ⟨rfl, fun _ => ⟨h', Context.sees_of_scene (h := h) hroute hscene, hshrunk⟩, ?_⟩
    exact fun hother => absurd rfl hother
  | denied hdenied _ => exact absurd (hfree.symm.trans hdenied) (by simp)
  | rejected _ hrejects hscene =>
    rcases hrejects with ⟨now, herror⟩
    refine ⟨?_, fun hok => absurd hok (by simp),
      fun _ => Context.sees_of_scene (h := h) hroute hscene⟩
    -- The change was rejected, and there are two reasons for that.
    rcases Hives.not_deleted hinner herror with ⟨hmissing, rfl⟩ | ⟨hthere, hsub, rfl⟩
    · rw [show h.contains l = false from hmissing]
      rfl
    · rw [show h.contains l = true from hthere, show h.hasSubKeys l = true from hsub]
      rfl

/-- Let anything have happened, let the trees in view be given, and let a location be no root key
    and not be protected, and its names be single, as they are in every location that is read from
    text. Each of the following is said of an operation that keeps its transaction, if there is one,
    until it is done.

    Asking whether the key exists answers just that. Creating it succeeds if it does not exist and
    fails because of that if it does; creating it if missing answers the same as a truth value.
    After both, the trees have grown by the key, and by nothing but it and those on the way to it.
    Deleting it succeeds if it exists and has no keys below it, and fails for the one reason or the
    other if not; deleting it if it exists does the same, but makes an answer of its absence. After
    a success that key alone is gone, and otherwise the trees are as they were. -/
theorem creation_and_deletion_follow_existence (ctx : Context Timeline) (h : Hives)
    (hsees : ctx.Sees h) (l : Location) (hl : l.path.Sound) (hinner : l.isRoot = false)
    (hfree : ctx.world.store.isProtected l = false) :
    ((Registry.exists l).Undisturbed ctx →
      outcome (Registry.exists l) ctx = .ok (h.contains l) ∧
        (endState (Registry.exists l) ctx).Sees h) ∧
    ((Registry.create l).Undisturbed ctx →
      outcome (Registry.create l) ctx =
          (if h.contains l then .error (.error (.keyAlreadyExists l.text)) else .ok ()) ∧
        ∃ h', (endState (Registry.create l) ctx).Sees h' ∧ h.Grown h' l) ∧
    ((Registry.createIfMissing l).Undisturbed ctx →
      outcome (Registry.createIfMissing l) ctx = .ok (!h.contains l) ∧
        ∃ h', (endState (Registry.createIfMissing l) ctx).Sees h' ∧ h.Grown h' l) ∧
    ((Registry.delete l).Undisturbed ctx →
      outcome (Registry.delete l) ctx =
          (if h.contains l then
            if h.hasSubKeys l then .error (.error (.accessDenied l.text)) else .ok ()
          else .error (.error (.noSuchKey l.text))) ∧
        (outcome (Registry.delete l) ctx = .ok () →
          ∃ h', (endState (Registry.delete l) ctx).Sees h' ∧ h.Shrunk h' l) ∧
        (outcome (Registry.delete l) ctx ≠ .ok () → (endState (Registry.delete l) ctx).Sees h)) ∧
    ((Registry.deleteIfExists l).Undisturbed ctx →
      outcome (Registry.deleteIfExists l) ctx =
          (if h.contains l then
            if h.hasSubKeys l then .error (.error (.accessDenied l.text)) else .ok true
          else .ok false) ∧
        (outcome (Registry.deleteIfExists l) ctx = .ok true →
          ∃ h', (endState (Registry.deleteIfExists l) ctx).Sees h' ∧ h.Shrunk h' l) ∧
        (outcome (Registry.deleteIfExists l) ctx ≠ .ok true →
          (endState (Registry.deleteIfExists l) ctx).Sees h)) := by
  have hscene := hsees.scene_at
  refine ⟨fun hundisturbed => ?_, fun hundisturbed => ?_, fun hundisturbed => ?_,
    fun hundisturbed => ?_, fun hundisturbed => ?_⟩
  · -- Asking whether the key exists is only a look.
    rcases (Registry.tells_exists (c := ctx.scene h) hl).told_in hundisturbed hscene
      with ⟨⟨houtcome, hend⟩, hroute⟩
    exact ⟨houtcome, Context.sees_of_scene (h := h) hroute hend⟩
  · -- Creating it: the answer tells whether there was anything to create.
    rcases (Registry.tells_create (c := ctx.scene h) hl hinner).told_in hundisturbed hscene
      with ⟨⟨created, hcreated, houtcome⟩, hroute⟩
    rcases hcreated.sees_grown hroute hfree with ⟨rfl, hgrown⟩
    refine ⟨?_, hgrown⟩
    rw [houtcome]
    cases h.contains l <;> rfl
  · -- Creating it if it is missing answers the same, and fails for nothing.
    rcases (Registry.tells_createIfMissing (c := ctx.scene h) hl hinner).told_in hundisturbed hscene
      with ⟨hcreated, hroute⟩
    exact hcreated.sees_grown hroute hfree
  · -- Deleting it.
    rcases (Registry.tells_delete (c := ctx.scene h) hl hinner).told_in hundisturbed hscene
      with ⟨hchanged, hroute⟩
    exact hchanged.sees_shrunk hroute hinner hfree
  · -- Deleting it if it exists: a missing key is an answer and no error.
    rcases (Registry.tells_deleteIfExists (c := ctx.scene h) hl hinner).told_in hundisturbed hscene
      with ⟨⟨deleted, hchanged, houtcome⟩, hroute⟩
    rcases hchanged.sees_shrunk hroute hinner hfree with ⟨rfl, hmade, hfailed⟩
    rw [houtcome]
    generalize h.contains l = there at hmade hfailed ⊢
    generalize h.hasSubKeys l = inner at hmade hfailed ⊢
    -- Of the three cases only one answers that the key was deleted.
    cases there with
    | false => exact ⟨rfl, fun hok => absurd hok (by simp), fun _ => hfailed (by simp)⟩
    | true =>
      cases inner with
      | true => exact ⟨rfl, fun hok => absurd hok (by simp), fun _ => hfailed (by simp)⟩
      | false => exact ⟨rfl, fun _ => hmade rfl, fun hother => absurd rfl hother⟩

end

/-- Work in a transaction; a key with one key below it was created before. -/
def workingBesideKeys : Context Timeline where
  world := ⟨⟨0, []⟩,
    [.call (.createKey RootKey.currentUser.handle "Outer\\Inner" .all none),
     .call (.createTransaction 0 none)]⟩
  ambient := [some ⟨0, ⟨0x1004⟩, .zero, none⟩]
  shared := [⟨true, false, 1⟩]

theorem inner_key_is_deleted_in_transaction :
    let inner := (Location.ofRoot .currentUser).below "OUTER\\inner"
    (Registry.delete inner).Undisturbed workingBesideKeys ∧
      outcome (Registry.exists inner) workingBesideKeys = .ok true ∧
      outcome (Registry.delete inner) workingBesideKeys = .ok () ∧
      ∃ h', (endState (Registry.delete inner) workingBesideKeys).Sees h' ∧
        workingBesideKeys.world.store.hives.Shrunk h' inner := by
  intro inner
  rcases creation_and_deletion_follow_existence workingBesideKeys
    workingBesideKeys.world.store.hives rfl inner (Path.sound_root.join _) rfl rfl
    with ⟨hexists, -, -, hdelete, -⟩
  have hundisturbed : (Registry.delete inner).Undisturbed workingBesideKeys := by decide +kernel
  have hdeleted : outcome (Registry.delete inner) workingBesideKeys = .ok () := by decide +kernel
  rcases hdelete hundisturbed with ⟨-, hshrunk, -⟩
  refine ⟨hundisturbed, ?_, hdeleted, hshrunk hdeleted⟩
  rw [(hexists (by decide +kernel)).1]
  decide +kernel

end TransactionalRegistry
