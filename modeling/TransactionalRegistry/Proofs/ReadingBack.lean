import TransactionalRegistry.Proofs.Answers
import TransactionalRegistry.Proofs.Codec
import TransactionalRegistry.Proofs.Passages

/-!
# What is set is what is read

A value that was written is read under its name, in any letter case of the name and of the names on
the way to the key; and no value under another name, or of another key, reads otherwise than before.
The two operations open the key each for itself, and look at the trees each at its own time. What
connects them are the trees in view.

What reading a value answers depends on little of these trees: on what stands under one name at one
place. Writing a value changes that for one name at one place.

## Main definitions

* `Hives.valueAt?`: What stands under a name of the key at a location, if the key is there.
* `Registry.answerFor`: What reading a value answers, given what stands under its name.
* `Context.ReadsAs`: What reading a value answers, and selecting a part of it.
* `Context.ReadsAlike`: Reading a value answers alike in two contexts.

## Theorems

* `KeyOperation.before`: The world goes on under an operation.
* `Scene.reading_valueIn`: What reading a value goes by.
* `Hives.valueAt?_of_setValue`: What writing a value changes of that.
* `Scene.Written.sees`: What is in view after writing.
* `what_is_set_is_what_is_read`: Writing, then reading, in every reachable state.
-/

namespace TransactionalRegistry

/-! ## The world goes on -/

/-- The session of what only says that the world has gone on from where it was. -/
def Context.goingOn (ctx : Context Timeline) : Session Timeline ctx.route.transaction :=
  .keeping (fun ctx' => ctx.world.Before ctx'.world ∧ ctx'.route = ctx.route)
    (fun _ h => congrArg Route.transaction h.2)
    (fun ctx' entry h => ⟨h.1.trans (Timeline.before_after ctx'.world (.note entry)), h.2⟩)
    (fun call _ ctx' h => by
      -- Every call is one action more on the timeline, whichever way it ends.
      have hgone := h.1.trans (Timeline.before_after ctx'.world (.call call))
      refine (Context.ends_call_after call ctx').mono ?_ ?_
      · rintro _ _ ⟨_, rfl⟩
        exact ⟨hgone, h.2⟩
      · rintro _ _ ⟨_, _, _, rfl⟩
        exact ⟨hgone, h.2⟩)

theorem KeyOperation.before (operation : KeyOperation) (l : Location) (ctx : Context Timeline) :
    ctx.world.Before (endState (operation.act l) ctx).world :=
  ((ctx.goingOn.keyOperation l operation).endState ⟨Timeline.Before.refl _, rfl⟩).1

/-! ## What stands under a name -/

/-- What stands under a name of the key at a location, if the key is there. -/
def Hives.valueAt? (h : Hives) (l : Location) (name : String) : Option (Option StoredValue) :=
  (h.find? l).map (·.value? name)

theorem Hives.valueAt?_eq (h : Hives) (l : Location) (name : String) :
    h.valueAt? l name = (h.flat.at? l.place).map fun e => e.values (Text.fold name) := by
  rw [valueAt?, flat_at_place, Option.map_map]
  rfl

/-- What reading a value answers, given what stands under its name. -/
def Registry.answerFor (l : Location) (name : String) :
    Option (Option StoredValue) → Except RegistryError Value
  | none => .error (.noSuchKey l.text)
  | some none => .error (.noSuchValue l.text name)
  | some (some value) => decoded l name value.data

theorem Scene.reading_valueIn (c : Scene) (l : Location) (name : String) :
    c.reading l (Registry.valueIn l name) = Registry.answerFor l name (c.view.valueAt? l name) := by
  rw [reading, Hives.valueAt?]
  cases c.view.find? l with
  | none => rfl
  | some n =>
    change Registry.valueIn l name n = Registry.answerFor l name (some (n.value? name))
    rw [Registry.valueIn]
    cases n.value? name <;> rfl

/-- Writing a value changes what stands under its name at the place of its key, and nothing else of
    that kind. -/
theorem Hives.valueAt?_of_setValue {h h' : Hives} {now : Time} {l : Location} {name : String}
    {data : ValueData} (hok : Mutation.apply now h (.setValue l name data) = .ok h') (m : Location)
    (other : String) :
    h'.valueAt? m other =
      if m.same l = true ∧ Text.fold other = Text.fold name then some (some ⟨name, data⟩)
      else h.valueAt? m other := by
  rcases Mutation.turns_of_ok hok with ⟨e, he, hafter⟩
  have hsame := Location.same_iff m l
  rw [valueAt?_eq, valueAt?_eq, hafter, Function.update_apply]
  by_cases hplace : m.place = l.place
  · -- At the place of the key, the values stand under their folded names, and one is replaced.
    rw [if_pos hplace, hplace, he, Option.map_some, Option.map_some, Flat.Entry.withValue]
    change some (Function.update e.values (Text.fold name) (some ⟨name, data⟩)
      (Text.fold other)) = _
    rw [Function.update_apply]
    by_cases hname : Text.fold other = Text.fold name
    · rw [if_pos hname, if_pos ⟨hsame.mpr hplace, hname⟩]
    · rw [if_neg hname, if_neg (fun hboth => hname hboth.2)]
  · rw [if_neg hplace, if_neg (fun hboth => hplace (hsame.mp hboth.1))]

/-! ## Reading in a context -/

namespace Context

variable {ctx ctx' : Context Timeline} {h h' : Hives} {l m : Location} {name other : String}
  {value : Value}

/-- The value under a name of a key is read as `value`, and so are the parts that are selected from
    it; each reading keeps its transaction, if it has one, until it is done. -/
structure ReadsAs (ctx : Context Timeline) (l : Location) (name : String) (value : Value) :
    Prop where
  whole : (Registry.getValue l name).Undisturbed ctx →
    outcome (Registry.getValue l name) ctx = .ok value
  part : ∀ (α : Type) (expected : ValueKind) (select : Value → Option α),
    (Registry.getSelected l name expected select).Undisturbed ctx →
    outcome (Registry.getSelected l name expected select) ctx = match select value with
      | some a => .ok a
      | none => .error (.error (.typeMismatch l.text name expected value.kind))

/-- Reading a value answers in `ctx'` what it answers in `ctx`, if its transaction is still active
    after the reading in both. -/
def ReadsAlike (ctx ctx' : Context Timeline) (l : Location) (name : String) : Prop :=
  (Registry.getValue l name).Undisturbed ctx → (Registry.getValue l name).Undisturbed ctx' →
    outcome (Registry.getValue l name) ctx' = outcome (Registry.getValue l name) ctx

theorem outcome_getValue (hsees : ctx.Sees h) (hbelow : ctx.world.Below) (hl : l.path.Sound)
    (hundisturbed : (Registry.getValue l name).Undisturbed ctx) :
    outcome (Registry.getValue l name) ctx =
      (Registry.answerFor l name (h.valueAt? l name)).mapError .error := by
  -- Reading is told by the scene, and in it by what stands under the name.
  have htold := (Registry.tells_getValue (c := ctx.scene h) hl name).told_in hundisturbed
    ⟨hsees.scene_at, hbelow.roomForKey⟩
  rw [htold.1.1, Scene.reading_valueIn]
  rfl

theorem outcome_getSelected {α : Type} {expected : ValueKind} {select : Value → Option α}
    (hsees : ctx.Sees h) (hbelow : ctx.world.Below) (hl : l.path.Sound)
    (hundisturbed : (Registry.getSelected l name expected select).Undisturbed ctx) :
    outcome (Registry.getSelected l name expected select) ctx =
      ((Registry.answerFor l name (h.valueAt? l name)).bind fun value =>
        match select value with
        | some a => .ok a
        | none => .error (.typeMismatch l.text name expected value.kind)).mapError .error := by
  have htold := (Registry.tells_getSelected (c := ctx.scene h) hl name expected select).told_in
    hundisturbed ⟨hsees.scene_at, hbelow.roomForKey⟩
  rw [htold.1.1, Scene.reading_valueIn]
  rfl

/-- Reading goes by what stands under the name. -/
theorem readsAlike_of_valueAt (hsees : ctx.Sees h) (hsees' : ctx'.Sees h')
    (hbelow : ctx.world.Below) (hbelow' : ctx'.world.Below) (hl : l.path.Sound)
    (hvalue : h'.valueAt? l name = h.valueAt? l name) : ctx.ReadsAlike ctx' l name := by
  intro hundisturbed hundisturbed'
  rw [outcome_getValue hsees' hbelow' hl hundisturbed',
    outcome_getValue hsees hbelow hl hundisturbed, hvalue]

/-- What was written stands in a form that is read back. -/
theorem readsAs_of_valueAt {data : ValueData} {stored : String} (hsees : ctx.Sees h)
    (hbelow : ctx.world.Below) (hl : l.path.Sound) (hencode : value.encode = .ok data)
    (hvalue : h.valueAt? l name = some (some ⟨stored, data⟩)) : ctx.ReadsAs l name value := by
  -- The data under the name are those of the value, so they are decoded to it.
  have hanswer : Registry.answerFor l name (h.valueAt? l name) = .ok value := by
    rw [hvalue, Registry.answerFor, Registry.decoded, Value.decode_of_encode hencode]
    rfl
  constructor
  · intro hundisturbed
    rw [outcome_getValue hsees hbelow hl hundisturbed, hanswer]
    rfl
  · intro α expected select hundisturbed
    rw [outcome_getSelected hsees hbelow hl hundisturbed, hanswer]
    change Except.mapError _ (match select value with | some a => _ | none => _) = _
    cases select value <;> rfl

end Context

/-- What is in view when a value was written, or when it was not. -/
theorem Scene.Written.sees {ctx ctx' : Context Timeline} {h : Hives} {l : Location} {name : String}
    {value : Value} {r : Except (Failure RegistryError) Unit}
    (hwritten : (ctx.scene h).Written l name value r ctx'.world.store)
    (hroute : ctx'.route = ctx.route) :
    (∃ failure, r = .error failure) ∧ ctx'.Sees h ∨
      r = .ok () ∧ ∃ data now h', value.encode = .ok data ∧
        Mutation.apply now h (.setValue l name data) = .ok h' ∧ ctx'.Sees h' := by
  cases hwritten with
  | unwritable _ hscene =>
    exact Or.inl ⟨⟨_, rfl⟩, Context.sees_of_scene (h := h) hroute hscene⟩
  | refused _ hscene =>
    exact Or.inl ⟨⟨_, rfl⟩, Context.sees_of_scene (h := h) hroute hscene⟩
  | made hencode _ hbecomes =>
    rcases hbecomes with ⟨now, h', happly, hscene⟩
    exact Or.inr ⟨rfl, _, now, h', hencode, happly,
      Context.sees_of_scene (h := h) hroute hscene⟩

/-- Let anything have happened, and let a value be written under a name of the key at a location,
    whose names are single, as they are in every location that is read from text. Let the
    transaction that is current, if there is one, be active until that is done, and let the counter
    of handles not have come up to those of the root keys.

    If the value was written, then it is read under that name of that key, in any letter case of
    both, as a whole and by every part that may be selected from it, the parts of an expected type
    included; and under other names and of other keys, reading answers what it answered before. If
    it was not written, reading answers the same as before throughout. -/
theorem what_is_set_is_what_is_read (ctx : Context Timeline) (l : Location) (hl : l.path.Sound)
    (name : String) (value : Value)
    (hundisturbed : (Registry.setValue l name value).Undisturbed ctx)
    (hbelow : (endState (Registry.setValue l name value) ctx).world.Below) :
    (outcome (Registry.setValue l name value) ctx = .ok () → ∀ m other, m.path.Sound →
      (m.same l = true ∧ Text.fold other = Text.fold name →
        (endState (Registry.setValue l name value) ctx).ReadsAs m other value) ∧
      (¬ (m.same l = true ∧ Text.fold other = Text.fold name) →
        ctx.ReadsAlike (endState (Registry.setValue l name value) ctx) m other)) ∧
    ∀ failure, outcome (Registry.setValue l name value) ctx = .error failure →
      ∀ m other, m.path.Sound →
        ctx.ReadsAlike (endState (Registry.setValue l name value) ctx) m other := by
  have hbelow₀ : ctx.world.Below :=
    hbelow.before (KeyOperation.before (.scripted (.set name value)) l ctx)
  have htells : ∀ h, Act.Tells ctx.route.transaction _ (Registry.setValue l name value) _ :=
    fun h => Registry.tells_setValue (c := ctx.scene h) hl name value
  have hsees : ∃ h, ctx.Sees h := (htells (Hives.empty 0)).seen_before rfl hundisturbed
  rcases hsees with ⟨h, hsees⟩
  rcases (htells h).told_in hundisturbed ⟨hsees.scene_at, hbelow₀.roomForKey⟩
    with ⟨hwritten, hroute⟩
  rcases hwritten.sees hroute
    with ⟨⟨failure, hfailed⟩, hsees'⟩ | ⟨hok, data, now, h', hencode, happly, hsees'⟩
  · -- Nothing was written: all that reading goes by is as it was.
    rw [hfailed]
    refine ⟨fun hok => absurd hok (by simp), fun _ _ m other hm => ?_⟩
    exact Context.readsAlike_of_valueAt hsees hsees' hbelow₀ hbelow hm rfl
  · -- The value was written: it is found where the two names agree, and elsewhere what was there.
    rw [hok]
    have hvalue := Hives.valueAt?_of_setValue happly
    refine ⟨fun _ m other hm => ⟨fun hboth => ?_, fun hother => ?_⟩,
      fun _ herror => absurd herror (by simp)⟩
    · exact Context.readsAs_of_valueAt hsees' hbelow hm hencode
        ((hvalue m other).trans (if_pos hboth))
    · refine Context.readsAlike_of_valueAt hsees hsees' hbelow₀ hbelow hm ?_
      rw [hvalue, if_neg hother]

/-- Work in a transaction; a key was created before. -/
def workingBesideKey : Context Timeline where
  world := ⟨⟨0, []⟩,
    [.call (.createKey RootKey.currentUser.handle "Notes" .all none),
     .call (.createTransaction 0 none)]⟩
  ambient := [some ⟨0, ⟨0x1004⟩, .zero, none⟩]
  shared := [⟨true, false, 1⟩]

/-- Both names are given in another letter case for reading, and the text has a character that takes
    two code units. -/
theorem note_is_read_in_other_letter_case :
    let notes := (Location.ofRoot .currentUser).below "Notes"
    let write : Act Timeline RegistryError Unit :=
      Registry.setValue notes "Title" (.string "ü😀")
    write.Undisturbed workingBesideKey ∧ outcome write workingBesideKey = .ok () ∧
      (endState write workingBesideKey).ReadsAs ((Location.ofRoot .currentUser).below "NOTES")
        "TITLE" (.string "ü😀") := by
  intro notes write
  have hundisturbed : write.Undisturbed workingBesideKey := by decide +kernel
  have hwritten : outcome write workingBesideKey = .ok () := by decide +kernel
  rcases what_is_set_is_what_is_read workingBesideKey notes (Path.sound_root.join _) "Title"
    (.string "ü😀") hundisturbed (by decide +kernel) with ⟨hread, -⟩
  refine ⟨hundisturbed, hwritten, ?_⟩
  exact (hread hwritten _ "TITLE" (Path.sound_root.join _)).1 (by decide +kernel)

end TransactionalRegistry
