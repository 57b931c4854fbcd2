import TransactionalRegistry.Proofs.Answers
import TransactionalRegistry.Proofs.Utf8
import TransactionalRegistry.Proofs.WellNamed

/-!
# Listing, measuring and looking up

What a key holds can be asked in three ways: its items are listed one by one until there are no
more, they are counted and measured, and they are looked up by their names. The first two go through
the tables from the front to the back and take the names that the entries have themselves; the third
goes by the folded names that the entries stand under. They agree because the tables of every key
are tidy, in every state that can come about.

## Main definitions

* `Node.subKeyNames`, `Node.valueNames`: The names of what a key holds, as they are listed.
* `Text.InOrder`: Names in the order of the bytes of their folded forms.
* `Node.Bounded`: A key with no more in it than can be counted by words.
* `Node.Measured`: What is told of a key is the number and the size of what it holds.
* `Context.Answers`: An operation answers, and leaves the trees in view as they are.

## Theorems

* `Table.Ordered.find?_eq_some_iff`: In a table in order, every entry is found under its key.
* `Node.Tidy.isSome_child?`, `Node.Tidy.isSome_value?`: What is found is what is listed.
* `Node.measured_info`: What is told of a key that is not too large.
* `listings_agree_with_lookup`: The operations, in every reachable state.
-/

namespace TransactionalRegistry

/-! ## Tables in order -/

namespace Table

variable {α : Type} {table : Table String α} {key : String} {a : α}

/-- In a table in order, what is found under a key is the one entry that stands there. -/
theorem Ordered.find?_eq_some_iff (h : Ordered table) :
    find? table key = some a ↔ (key, a) ∈ table := by
  refine ⟨mem_of_find?, fun hmem => ?_⟩
  -- The table is in order behind its first entry as well, so the induction goes along it.
  induction table with
  | nil => exact absurd hmem List.not_mem_nil
  | cons head rest ih =>
    rcases head with ⟨k, b⟩
    rcases List.pairwise_cons.mp h with ⟨hhead, hrest⟩
    rcases List.mem_cons.mp hmem with heq | hmem'
    · rcases Prod.mk.inj heq with ⟨rfl, rfl⟩
      rw [find?, if_pos rfl]
    · -- What stands further back has a larger key than the first entry.
      have hne : k ≠ key := fun heq => String.lt_irrefl key (heq ▸ hhead _ hmem')
      rw [find?, if_neg hne]
      exact ih hrest hmem'

variable {nameOf : α → String}

/-- Where every entry stands under its folded name, the names in the table are those that are found
    under themselves. -/
theorem Ordered.mem_names_iff (h : Ordered table)
    (hfolded : ∀ entry ∈ table, entry.1 = Text.fold (nameOf entry.2)) (name : String) :
    name ∈ table.map (fun entry => nameOf entry.2) ↔
      ∃ a, find? table (Text.fold name) = some a ∧ nameOf a = name := by
  rw [List.mem_map]
  constructor
  · rintro ⟨⟨k, a⟩, hmem, rfl⟩
    have hk : k = Text.fold (nameOf a) := hfolded _ hmem
    exact ⟨a, h.find?_eq_some_iff.mpr (hk ▸ hmem), rfl⟩
  · rintro ⟨a, hfound, hname⟩
    exact ⟨_, mem_of_find? hfound, hname⟩

/-- Where every entry stands under its folded name, something is found under a name exactly if a
    name in the table is the same but for letter case. -/
theorem Ordered.isSome_find? (h : Ordered table)
    (hfolded : ∀ entry ∈ table, entry.1 = Text.fold (nameOf entry.2)) (name : String) :
    (find? table (Text.fold name)).isSome = true ↔
      Text.fold name ∈ (table.map fun entry => nameOf entry.2).map Text.fold := by
  rw [Option.isSome_iff_exists, List.map_map, List.mem_map]
  constructor
  · rintro ⟨a, hfound⟩
    have hmem := mem_of_find? hfound
    exact ⟨_, hmem, (hfolded _ hmem).symm⟩
  · rintro ⟨⟨k, a⟩, hmem, hname⟩
    have hk : k = Text.fold name := (hfolded _ hmem).trans hname
    exact ⟨a, h.find?_eq_some_iff.mpr (hk ▸ hmem)⟩

end Table

/-! ## Names in order -/

/-- The folded forms of the names come in the order of their bytes, with none of them twice. -/
def Text.InOrder (names : List String) : Prop :=
  names.Pairwise fun name later => utf8 (fold name) < utf8 (fold later)

/-- A table in order lists its names in the order of their folded forms. -/
theorem Table.Ordered.names_inOrder {α : Type} {table : Table String α} {nameOf : α → String}
    (h : Ordered table) (hfolded : ∀ entry ∈ table, entry.1 = Text.fold (nameOf entry.2)) :
    Text.InOrder (table.map fun entry => nameOf entry.2) := by
  rw [Text.InOrder, List.pairwise_map]
  -- The order of the folded names as texts is that of their bytes.
  refine h.imp_of_mem (fun {entry later} hentry hlater hlt => Text.utf8_lt ?_)
  rwa [← hfolded entry hentry, ← hfolded later hlater]

/-! ## Measures -/

namespace Node

/-- The names of the keys right below a key, as they are listed. -/
def subKeyNames (n : Node) : List String :=
  n.subKeys.map fun entry => entry.2.name

/-- The names of the values of a key, as they are listed. -/
def valueNames (n : Node) : List String :=
  n.values.map fun entry => entry.2.name

/-- The numbers of bytes that the values of a key take. -/
def dataLengths (n : Node) : List Nat :=
  n.values.map fun entry => entry.2.data.bytes.length

/-- What a key holds can be counted and measured by words of 32 bits. -/
structure Bounded (n : Node) : Prop where
  subKeys : n.subKeyNames.length < UInt32.size
  values : n.valueNames.length < UInt32.size
  names : ∀ name ∈ n.subKeyNames ++ n.valueNames, Utf16.length name < UInt32.size
  data : ∀ length ∈ n.dataLengths, length < UInt32.size

/-- What is told of a key: how many keys and values there are in it, how many code units the longest
    names have, and how many bytes the largest value takes, or zero where there are none. -/
structure Measured (n : Node) (info : KeyInfo) : Prop where
  subKeyCount : info.subKeyCount.toNat = n.subKeyNames.length
  valueCount : info.valueCount.toNat = n.valueNames.length
  maxSubKeyLength : info.maxSubKeyLength.toNat = (n.subKeyNames.map Utf16.length).max?.getD 0
  maxValueNameLength : info.maxValueNameLength.toNat = (n.valueNames.map Utf16.length).max?.getD 0
  maxValueLength : info.maxValueLength.toNat = n.dataLengths.max?.getD 0

/-- The larger of two words is the larger of two numbers. -/
theorem toNat_max (a b : UInt32) : (max a b).toNat = max a.toNat b.toNat := by
  change (if a ≤ b then b else a).toNat = _
  rw [Nat.max_def]
  by_cases h : a ≤ b
  · rw [if_pos h, if_pos (UInt32.le_iff_toNat_le.mp h)]
  · rw [if_neg h, if_neg (fun hle => h (UInt32.le_iff_toNat_le.mpr hle))]

/-- Starting from zero makes no difference to the largest of some numbers. -/
theorem max?_getD_zero (numbers : List Nat) : numbers.max?.getD 0 = numbers.foldl max 0 := by
  cases numbers with
  | nil => rfl
  | cons first rest => rw [List.max?_cons', Option.getD_some, List.foldl_cons, Nat.zero_max]

/-- The largest of some words is the largest of the numbers, as long as none is too large for a
    word. -/
theorem toNat_largest {numbers : List Nat} (h : ∀ number ∈ numbers, number < UInt32.size) :
    (largest numbers).toNat = numbers.max?.getD 0 := by
  -- The largest so far is arbitrary for the sake of the induction.
  have hfold : ∀ most : UInt32,
      ((numbers.map UInt32.ofNat).foldl max most).toNat = numbers.foldl max most.toNat := by
    induction numbers with
    | nil => exact fun most => rfl
    | cons first rest ih =>
      intro most
      have hfirst := UInt32.toNat_ofNat_of_lt' (h first List.mem_cons_self)
      rw [List.map_cons, List.foldl_cons, List.foldl_cons,
        ih (fun number hnumber => h number (List.mem_cons_of_mem _ hnumber)), toNat_max, hfirst]
  rw [largest, hfold, max?_getD_zero]
  rfl

/-- What is told of a key is true of it, as long as its counts and lengths fit into words. -/
theorem measured_info {n : Node} (h : n.Bounded) : n.Measured n.info where
  subKeyCount := by
    rw [info, UInt32.toNat_ofNat_of_lt', subKeyNames, List.length_map]
    simpa [subKeyNames] using h.subKeys
  valueCount := by
    rw [info, UInt32.toNat_ofNat_of_lt', valueNames, List.length_map]
    simpa [valueNames] using h.values
  maxSubKeyLength := by
    -- The names of the keys are the first of those that the bound is about.
    have hlengths : ∀ length ∈ n.subKeyNames.map Utf16.length, length < UInt32.size :=
      List.forall_mem_map.mpr fun name hname => h.names name (List.mem_append_left _ hname)
    rw [← toNat_largest hlengths, subKeyNames, List.map_map]
    rfl
  maxValueNameLength := by
    have hlengths : ∀ length ∈ n.valueNames.map Utf16.length, length < UInt32.size :=
      List.forall_mem_map.mpr fun name hname => h.names name (List.mem_append_right _ hname)
    rw [← toNat_largest hlengths, valueNames, List.map_map]
    rfl
  maxValueLength := toNat_largest h.data

namespace Tidy

variable {n : Node}

/-- The names of the keys below one are listed in order. -/
theorem subKeys_inOrder (h : n.Tidy) : Text.InOrder n.subKeyNames :=
  h.subKeys_ordered.names_inOrder h.subKeys_folded

theorem values_inOrder (h : n.Tidy) : Text.InOrder n.valueNames :=
  h.values_ordered.names_inOrder h.values_folded

/-- A key is listed just if it is found under its own name. -/
theorem mem_subKeyNames (h : n.Tidy) (name : String) :
    name ∈ n.subKeyNames ↔ ∃ child, n.child? name = some child ∧ child.name = name :=
  h.subKeys_ordered.mem_names_iff h.subKeys_folded name

theorem mem_valueNames (h : n.Tidy) (name : String) :
    name ∈ n.valueNames ↔ ∃ value, n.value? name = some value ∧ value.name = name :=
  h.values_ordered.mem_names_iff h.values_folded name

/-- A key is found just if its name is listed, up to letter case. -/
theorem isSome_child? (h : n.Tidy) (name : String) :
    (n.child? name).isSome = true ↔ Text.fold name ∈ n.subKeyNames.map Text.fold :=
  h.subKeys_ordered.isSome_find? h.subKeys_folded name

theorem isSome_value? (h : n.Tidy) (name : String) :
    (n.value? name).isSome = true ↔ Text.fold name ∈ n.valueNames.map Text.fold :=
  h.values_ordered.isSome_find? h.values_folded name

/-- A listed name is a single one. -/
theorem single (h : n.Tidy) {name : String} (hname : name ∈ n.subKeyNames) :
    name ≠ "" ∧ Path.separator ∉ name.toList := by
  rcases List.mem_map.mp hname with ⟨entry, hentry, rfl⟩
  exact h.subKeys_single entry hentry

end Tidy

end Node

/-! ## What is in view is well named -/

/-- What is in view of some transaction is among the trees that the store keeps. -/
theorem Store.hasTrees_of_viewOf {s : Store} {t : Option TransactionHandle} {h : Hives}
    (hview : s.viewOf t = some h) : s.HasTrees h := by
  cases t with
  | none => exact Or.inl (Option.some.inj hview).symm
  | some t =>
    rcases Option.bind_eq_some_iff.mp hview with ⟨r, hr, hcopy⟩
    split at hcopy
    · -- A transaction sees its private copy, or the live trees until it has one.
      cases hworkspace : r.workspace with
      | none => exact Or.inl (by rw [← Option.some.inj hcopy, hworkspace]; rfl)
      | some copy =>
        rw [hworkspace] at hcopy
        exact Or.inr ⟨t, r, hr, by rw [hworkspace, ← Option.some.inj hcopy]; rfl⟩
    · -- Of a transaction that is no longer active nothing is in view.
      exact absurd hcopy (by simp)

/-! ## The operations -/

/-- The key above one whose path has one name more. -/
theorem Location.parent?_concat (l : Location) (name : String) :
    (Location.mk l.root ⟨l.path.names ++ [name]⟩).parent? = some l := by
  have hnames : (l.path.names ++ [name]).isEmpty = false := by simp
  rw [parent?, Path.parent?, List.dropLast_concat, hnames, if_neg Bool.false_ne_true]
  rfl

namespace Context

variable {α : Type} {ctx : Context Timeline} {h : Hives} {l : Location} {n : Node}

/-- An operation answers `a` and leaves the trees in view as they are, if its transaction, should
    it have one, is active when it is done. -/
def Answers (ctx : Context Timeline) (h : Hives) (act : Act Timeline RegistryError α) (a : α) :
    Prop :=
  act.Undisturbed ctx → outcome act ctx = .ok a ∧ (endState act ctx).Sees h

/-- A key in view is tidy, for all trees that a run has led to are well named. -/
theorem Sees.tidy (hsees : ctx.Sees h) (hfound : h.find? l = some n) : n.Tidy := by
  have hwell := (Store.WellNamed.run ctx.world.clock ctx.world.actions).hasTrees
    (Store.hasTrees_of_viewOf hsees)
  exact ((Node.wellNamed_iff n).mp ((hwell l.root).1.find? hfound)).1

/-- An operation that is told to answer `a` does so if its transaction lasts. -/
theorem answers_of_tells {P : Store → Prop} {act : Act Timeline RegistryError α} {a : α}
    (hP : P ctx.world.store)
    (htells : Act.Tells ctx.route.transaction P act
      (fun r s => r = .ok a ∧ (ctx.scene h).At s)) : ctx.Answers h act a := by
  intro hundisturbed
  rcases htells.told_in hundisturbed hP with ⟨⟨houtcome, hend⟩, hroute⟩
  exact ⟨houtcome, sees_of_scene (h := h) hroute hend⟩

/-- An operation that reads from a key that is there answers what there is to read. -/
theorem answers_of_reading {act : Act Timeline RegistryError α} {a : α}
    {result : Except RegistryError α} (hsees : ctx.Sees h) (hbelow : ctx.world.Below)
    (htells : Act.Tells ctx.route.transaction
      (fun s => (ctx.scene h).At s ∧ s.RoomForKey) act
      (fun r s => r = result.mapError .error ∧ (ctx.scene h).At s))
    (hresult : result = .ok a) : ctx.Answers h act a := by
  rw [hresult] at htells
  exact answers_of_tells ⟨hsees.scene_at, hbelow.roomForKey⟩ htells

/-- Reading at a location reads from the key that is found there. -/
theorem scene_reading (hfound : h.find? l = some n) (read : Node → Except RegistryError α) :
    (ctx.scene h).reading l read = read n := by
  have hview : (ctx.scene h).view.find? l = some n := hfound
  rw [Scene.reading, hview]

/-- Whether there is a key right below one that is there is known from that one. -/
theorem answers_exists_below {text name : String} (hsees : ctx.Sees h) (hl : l.path.Sound)
    (hfound : h.find? l = some n) (htext : (Path.ofText text).names = [name]) :
    ctx.Answers h (Registry.exists (l.below text)) (n.child? name).isSome := by
  -- The place of the location is the one right below, under the folded name.
  have hthere : h.contains (l.below text) = (n.child? name).isSome := by
    rw [Hives.contains_eq, Location.place_of_below, Path.folded, htext, List.map_singleton,
      Hives.flat_below_place hfound, Option.isSome_map]
  rw [← hthere]
  exact answers_of_tells hsees.scene_at
    (Registry.tells_exists (c := ctx.scene h) (l := l.below text) (hl.join text))

end Context

/-- Let anything have happened, the counter of handles not having come up to those of the root keys;
    let the trees in view be given and hold a key at a location, whose names are single, as they are
    in every location that is read from text; and let what the key holds be within the bounds of
    words. Each of the following is said of an operation that keeps its transaction, if there is
    one, until it is done.

    The names of the keys right below the key and those of its values are listed, each once and in
    the order of the bytes of its folded form, and they are the names that are found under
    themselves. What is told of the key is how many names there are and how large the longest of
    them and the largest value are. The keys below are those at the listed names: each has the path
    of the key with that name at its end, has the key above it, and exists. There is a value under
    each listed name; and no key is there under a single name that differs from all that are
    listed by more than letter case. -/
theorem listings_agree_with_lookup (ctx : Context Timeline) (hbelow : ctx.world.Below) (h : Hives)
    (hsees : ctx.Sees h) (l : Location) (hl : l.path.Sound) (n : Node)
    (hfound : h.find? l = some n) (hbounded : n.Bounded) :
    (ctx.Answers h (Registry.subKeyNames l) n.subKeyNames ∧
      ctx.Answers h (Registry.valueNames l) n.valueNames) ∧
    (Text.InOrder n.subKeyNames ∧ Text.InOrder n.valueNames) ∧
    (∀ name, (name ∈ n.subKeyNames ↔ ∃ child, n.child? name = some child ∧ child.name = name) ∧
      (name ∈ n.valueNames ↔ ∃ value, n.value? name = some value ∧ value.name = name)) ∧
    (ctx.Answers h (Registry.info l) n.info ∧ n.Measured n.info) ∧
    (ctx.Answers h (Registry.subKeys l) (n.subKeyNames.map l.below) ∧
      ∀ name ∈ n.subKeyNames, (l.below name).root = l.root ∧
        (l.below name).path.names = l.path.names ++ [name] ∧
        (l.below name).parent? = some l ∧
        ctx.Answers h (Registry.exists (l.below name)) true) ∧
    (∀ name ∈ n.valueNames, ctx.Answers h (Registry.valueExists l name) true) ∧
    ∀ text name, (Path.ofText text).names = [name] →
      Text.fold name ∉ n.subKeyNames.map Text.fold →
      ctx.Answers h (Registry.exists (l.below text)) false := by
  have htidy := hsees.tidy hfound
  -- The bounds are those of the key that is found, and no other one is found there.
  have hnode : ∀ m, (ctx.scene h).view.find? l = some m → m = n :=
    fun m hm => Option.some.inj (hm.symm.trans hfound)
  have hsubKeys : ∀ m, (ctx.scene h).view.find? l = some m → m.subKeys.length < UInt32.size := by
    intro m hm
    rw [hnode m hm, ← List.length_map (fun entry => entry.2.name)]
    exact hbounded.subKeys
  have hvalues : ∀ m, (ctx.scene h).view.find? l = some m → m.values.length < UInt32.size := by
    intro m hm
    rw [hnode m hm, ← List.length_map (fun entry => entry.2.name)]
    exact hbounded.values
  refine ⟨⟨?_, ?_⟩, ⟨htidy.subKeys_inOrder, htidy.values_inOrder⟩,
    fun name => ⟨htidy.mem_subKeyNames name, htidy.mem_valueNames name⟩,
    ⟨?_, Node.measured_info hbounded⟩, ⟨?_, fun name hname => ?_⟩, fun name hname => ?_,
    fun text name htext hother => ?_⟩
  · -- The names of the keys, as they are listed.
    exact Context.answers_of_reading hsees hbelow (Registry.tells_subKeyNames hl hsubKeys)
      (Context.scene_reading hfound _)
  · refine Context.answers_of_reading hsees hbelow (Registry.tells_valueNames hl hvalues) ?_
    rw [Context.scene_reading hfound]
    -- The data of the values is listed with their names, and left out afterwards.
    change Except.ok ((n.values.map fun entry => (entry.2.name, entry.2.data)).map Prod.fst) = _
    rw [List.map_map]
    rfl
  · -- What is told of the key: its counts and measures.
    refine Context.answers_of_reading hsees hbelow (Registry.tells_info (c := ctx.scene h) hl) ?_
    rw [Context.scene_reading hfound]
  · -- The locations of the keys below are made from the listed names.
    refine Context.answers_of_reading hsees hbelow (Registry.tells_subKeys hl hsubKeys) ?_
    rw [Context.scene_reading hfound]
    rfl
  · -- A listed name is a single one and is found under itself.
    have hbelow' := Location.below_single (l := l) (htidy.single hname)
    have hexists := Context.answers_exists_below hsees hl hfound
      (congrArg Path.names (Path.ofText_single (htidy.single hname)))
    rw [(htidy.isSome_child? name).mpr (List.mem_map_of_mem hname)] at hexists
    refine ⟨rfl, congrArg (·.path.names) hbelow', ?_, hexists⟩
    rw [hbelow']
    exact Location.parent?_concat l name
  · -- A value exists just if its name is listed, up to letter case.
    refine Context.answers_of_reading hsees hbelow
      (Registry.tells_valueExists (c := ctx.scene h) hl name) ?_
    rw [Context.scene_reading hfound,
      (htidy.isSome_value? name).mpr (List.mem_map_of_mem hname)]
  · -- Whatever is found under a name is listed, up to letter case.
    have hexists := Context.answers_exists_below hsees hl hfound htext
    rwa [Bool.eq_false_iff.mpr (fun hthere => hother ((htidy.isSome_child? name).mp hthere))]
      at hexists

/-- Work in a transaction, in which a key with two keys below it and a value was created. -/
def workingAtShelf : Context Timeline where
  world := ⟨⟨0, []⟩,
    [.call (.createTransaction 0 none),
     .call (.createKey RootKey.currentUser.handle "Shelf" .all (some ⟨0x1000⟩)),
     .call (.setValue ⟨0x1004⟩ "Count" ⟨4, [1, 0, 0, 0]⟩ none),
     .call (.createKey ⟨0x1004⟩ "beta" .all none),
     .call (.createKey ⟨0x1004⟩ "Alpha" .all none)]⟩
  ambient := [some ⟨0, ⟨0x1000⟩, .zero, none⟩]
  shared := [⟨true, false, 1⟩]

/-- The order of the names does not go by their letter case. -/
theorem keys_on_shelf_are_listed_in_transaction :
    let shelf := (Location.ofRoot .currentUser).below "SHELF"
    (Registry.subKeyNames shelf).Undisturbed workingAtShelf ∧
      outcome (Registry.subKeyNames shelf) workingAtShelf = .ok ["Alpha", "beta"] ∧
      outcome (Registry.valueNames shelf) workingAtShelf = .ok ["Count"] ∧
      outcome (Registry.exists (shelf.below "gamma")) workingAtShelf = .ok false := by
  intro shelf
  have hview : (workingAtShelf.world.store.viewOf (some ⟨0x1000⟩)).isSome = true := by
    decide +kernel
  rcases Option.isSome_iff_exists.mp hview with ⟨h, hsees⟩
  have hthere : ((workingAtShelf.world.store.viewOf (some ⟨0x1000⟩)).bind (·.find? shelf)).any
      (fun n => n.subKeyNames = ["Alpha", "beta"] ∧ n.valueNames = ["Count"] ∧
        n.dataLengths = [4]) = true := by decide +kernel
  rw [hsees, Option.bind_some] at hthere
  rcases (Option.any_eq_true _ _).mp hthere with ⟨n, hfound, hn⟩
  rcases of_decide_eq_true hn with ⟨hkeys, hvalues, hdata⟩
  have hbounded : n.Bounded := by
    refine ⟨?_, ?_, ?_, ?_⟩
    · rw [hkeys]; decide
    · rw [hvalues]; decide
    · rw [hkeys, hvalues]; decide
    · rw [hdata]; decide
  rcases listings_agree_with_lookup workingAtShelf (by decide +kernel) h hsees shelf
    (Path.sound_root.join _) n hfound hbounded
    with ⟨⟨hlisted, hlistedValues⟩, -, -, -, -, -, hother⟩
  have hundisturbed : (Registry.subKeyNames shelf).Undisturbed workingAtShelf := by
    decide +kernel
  have hmissing := hother "gamma" "gamma" (by decide) (by rw [hkeys]; decide +kernel)
  rw [hkeys] at hlisted
  rw [hvalues] at hlistedValues
  exact ⟨hundisturbed, (hlisted hundisturbed).1, (hlistedValues (by decide +kernel)).1,
    (hmissing (by decide +kernel)).1⟩

end TransactionalRegistry
