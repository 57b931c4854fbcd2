import TransactionalRegistry.Proofs.Paths
import TransactionalRegistry.Proofs.Timeless

/-!
# The letter case of names

Trees look names up by what they fold to. So a way that is spelled in another letter case leads to
the same key, or to none as before, whether the tree is well formed or not; and a change that goes
by the way alone is the same change.

Creating keys is the one change that a spelling shows in: the new keys have the names as given, and
keys that were there keep theirs. What two spellings create is compared after the names of the new
keys have been folded. A key is new if it is not in the tree that the change started from, and the
tree without the letter case of its new names is made by going down both trees at once.

A transaction keeps its changes to make them once more when it commits, and by then other keys may
be new. Changes that differ in spelling are then compared with no older tree: they fail alike, or
leave trees that differ in the letter case of names alone.

## Main definitions

* `Location.folded`, `Mutation.folded`: Locations and changes without their spelling.
* `Node.uncased`, `Hives.uncased`: Trees without the letter case of the keys that an older tree does
  not have.
* `Node.UpToCase`, `Hives.UpToCase`: Trees that differ in the letter case of names alone.

## Theorems

* `Node.find?_of_folded`, `Hives.find?_of_place`: What is found does not depend on the spelling.
* `Mutation.AtKey.apply_of_place`: Nor does what a change does, apart from creating keys.
* `Node.create_uncased`, `Mutation.createKey_uncased`: What two spellings create differs in the
  letter case of new keys alone.
* `Mutation.apply_upToCase`, `Mutation.replay_upToCase`: Pending changes that differ in spelling.
-/

namespace TransactionalRegistry

/-- Two results that are equal after their values were mapped. -/
theorem Except.map_eq_cases {ε α β : Type} {f : α → β} {x y : Except ε α}
    (h : x.map f = y.map f) :
    (∃ e, x = .error e ∧ y = .error e) ∨ ∃ a b, x = .ok a ∧ y = .ok b ∧ f a = f b := by
  cases x with
  | error e =>
    cases y with
    | error e' => exact Or.inl ⟨e, rfl, congrArg _ (Except.error.inj h).symm⟩
    | ok b => exact absurd h (by simp [Except.map])
  | ok a =>
    cases y with
    | error e => exact absurd h (by simp [Except.map])
    | ok b => exact Or.inr ⟨a, b, rfl, rfl, Except.ok.inj h⟩

/-! ## Ways that fold to the same -/

namespace Node

variable {as bs : List String} {a b : String}

/-- A child is found under its name in whatever letter case. -/
theorem child?_of_fold (h : Text.fold a = Text.fold b) (n : Node) : n.child? a = n.child? b := by
  rw [child?, child?, h]

/-- A child is put under its name in whatever letter case. -/
theorem putChild_of_fold (h : Text.fold a = Text.fold b) (n : Node) :
    n.putChild a = n.putChild b := by
  funext child
  rw [putChild, putChild, h]

/-- Ways that fold to the same go down by the same names in turn. -/
theorem folded_cons_iff :
    (a :: as).map Text.fold = (b :: bs).map Text.fold ↔
      Text.fold a = Text.fold b ∧ as.map Text.fold = bs.map Text.fold := by
  rw [List.map_cons, List.map_cons, List.cons.injEq]

/-- A key is found by ways that fold to the same. -/
theorem find?_of_folded (h : as.map Text.fold = bs.map Text.fold) (n : Node) :
    n.find? as = n.find? bs := by
  induction as generalizing bs n with
  | nil => rw [List.map_eq_nil_iff.mp h.symm]
  | cons a as ih =>
    cases bs with
    | nil => exact absurd h (by simp)
    | cons b bs =>
      obtain ⟨hname, hrest⟩ := folded_cons_iff.mp h
      rw [find?, find?, child?_of_fold hname]
      cases n.child? b with
      | none => rfl
      | some child => exact ih hrest child

/-- A key is changed by ways that fold to the same. -/
theorem update_of_folded {ε : Type} (missing : ε) (f : Node → Except ε Node)
    (h : as.map Text.fold = bs.map Text.fold) (n : Node) :
    update missing f as n = update missing f bs n := by
  induction as generalizing bs n with
  | nil => rw [List.map_eq_nil_iff.mp h.symm]
  | cons a as ih =>
    cases bs with
    | nil => exact absurd h (by simp)
    | cons b bs =>
      obtain ⟨hname, hrest⟩ := folded_cons_iff.mp h
      rw [update, update, child?_of_fold hname, putChild_of_fold hname]
      cases n.child? b with
      | none => rfl
      | some child => simp only [ih hrest child]

end Node

/-- A place is that of a root key, however it is spelled. -/
theorem Location.isRoot_of_place {l m : Location} (h : l.place = m.place) :
    l.isRoot = m.isRoot := by
  have hroot : ∀ l : Location, l.isRoot = l.place.keys.isEmpty := fun l => by
    rw [isRoot, Path.isRoot, place, Path.folded, List.isEmpty_map]
  rw [hroot, hroot, h]

/-- Two spellings of a location have a last name or none together, and the keys above them are one
    key. -/
theorem Location.above_cases {l m : Location} (h : l.place = m.place) :
    (l.path.name? = none ∧ m.path.name? = none) ∨
      ∃ a b, l.path.name? = some a ∧ m.path.name? = some b ∧ Text.fold a = Text.fold b ∧
        (mk l.root ⟨l.path.names.dropLast⟩).place = (mk m.root ⟨m.path.names.dropLast⟩).place := by
  -- The last name of the folded path is the last name of the path folded.
  rw [place, place, Flat.Place.mk.injEq] at h
  have hlast : l.path.name?.map Text.fold = m.path.name?.map Text.fold := by
    rw [Path.name?, Path.name?, ← List.getLast?_map, ← List.getLast?_map]
    exact congrArg List.getLast? h.2
  have habove : (mk l.root ⟨l.path.names.dropLast⟩).place =
      (mk m.root ⟨m.path.names.dropLast⟩).place := by
    rw [place, place, Flat.Place.mk.injEq, Path.folded, Path.folded, List.map_dropLast,
      List.map_dropLast]
    exact ⟨h.1, congrArg List.dropLast h.2⟩
  cases hl : l.path.name? with
  | none =>
    rw [hl] at hlast
    exact Or.inl ⟨rfl, Option.map_eq_none_iff.mp hlast.symm⟩
  | some a =>
    rw [hl] at hlast
    obtain ⟨b, hm, hfold⟩ := Option.map_eq_some_iff.mp hlast.symm
    exact Or.inr ⟨a, b, rfl, hm, hfold.symm, habove⟩

namespace Hives

variable {l m : Location}

/-- A key is found at its location in whatever letter case. -/
theorem find?_of_place (h : l.place = m.place) (trees : Hives) :
    trees.find? l = trees.find? m := by
  rw [Location.place, Location.place, Flat.Place.mk.injEq] at h
  rw [find?, find?, h.1, Node.find?_of_folded h.2]

/-- Whether there is a key does not depend on how the way to it is spelled. -/
theorem contains_of_place (h : l.place = m.place) (trees : Hives) :
    trees.contains l = trees.contains m := by
  rw [contains, contains, find?_of_place h]

/-- A key is changed at its location in whatever letter case. -/
theorem update_of_place (h : l.place = m.place) (missing : NativeError)
    (f : Node → Except NativeError Node) (trees : Hives) :
    trees.update l.root l.path.names missing f = trees.update m.root m.path.names missing f := by
  rw [Location.place, Location.place, Flat.Place.mk.injEq] at h
  rw [update, update, h.1, Node.update_of_folded missing f h.2]

/-- What is done above a key depends on how its last name folds, and on nothing else of it. -/
theorem updateAbove_of_place (h : l.place = m.place)
    {f : String → Node → Except NativeError Node}
    (hf : ∀ a b, Text.fold a = Text.fold b → f a = f b) (trees : Hives) :
    trees.updateAbove l f = trees.updateAbove m f := by
  rw [updateAbove, updateAbove]
  rcases Location.above_cases h with ⟨hl, hm⟩ | ⟨a, b, hl, hm, hfold, habove⟩
  · rw [hl, hm]
  · rw [hl, hm]
    dsimp only
    rw [hf a b hfold]
    exact update_of_place habove _ _ trees

end Hives

/-- The changes that are made at a location, other than creating a key there. -/
inductive Mutation.AtKey : (Location → Mutation) → Prop
  | deleteKey : AtKey .deleteKey
  | renameKey (newName : String) : AtKey (.renameKey · newName)
  | setValue (name : String) (data : ValueData) : AtKey (.setValue · name data)
  | deleteValue (name : String) : AtKey (.deleteValue · name)

/-- A change to a key that is there does not depend on how the way to it is spelled. -/
theorem Mutation.AtKey.apply_of_place {change : Location → Mutation} (hchange : AtKey change)
    {l m : Location} (h : l.place = m.place) (now : Time) (trees : Hives) :
    apply now trees (change l) = apply now trees (change m) := by
  cases hchange with
  | deleteKey =>
    refine Hives.updateAbove_of_place h (fun a b hfold => ?_) trees
    funext n
    rw [Node.removeLeaf, Node.removeLeaf, Node.child?_of_fold hfold, Node.dropChild,
      Node.dropChild, hfold]
  | renameKey newName =>
    rw [apply, apply]
    -- Whether the new name is one does not depend on the location.
    split
    · refine Hives.updateAbove_of_place h (fun a b hfold => ?_) trees
      funext n
      rw [Node.renameChild, Node.renameChild, Node.child?_of_fold hfold, Node.dropChild,
        Node.dropChild, hfold]
    · rfl
  | setValue name data => exact Hives.update_of_place h _ _ trees
  | deleteValue name => exact Hives.update_of_place h _ _ trees

/-! ## The letter case of new keys -/

/-- The key with its name and those of the keys below it folded, but for the ones that `old`
    has. -/
def Node.uncased : (old : Option Node) → Node → Node
  | old, ⟨name, subKeys, values, lastWrite⟩ =>
    ⟨if old.isSome then name else Text.fold name, below old subKeys, values, lastWrite⟩
where
  /-- The entries of a table of keys, each compared with the key that `old` has in its place. -/
  below : (old : Option Node) → List (String × Node) → List (String × Node)
    | _, [] => []
    | old, (key, child) :: rest =>
      (key, child.uncased (old.bind (Table.find? ·.subKeys key))) :: below old rest

namespace Node

variable {as bs : List String} {a b : String}

/-- The entries of a table are each compared with the older one in their place. -/
theorem uncased_below (old : Option Node) (subKeys : List (String × Node)) :
    uncased.below old subKeys = subKeys.map fun entry =>
      (entry.1, entry.2.uncased (old.bind (Table.find? ·.subKeys entry.1))) := by
  induction subKeys with
  | nil => rfl
  | cons head rest ih =>
    rw [uncased.below, ih]
    rfl

/-- Below a key, a child is compared with the child that the older key has under its name. -/
theorem uncased_putChild (old : Option Node) (n : Node) (name : String) (child : Node) :
    (n.putChild name child).uncased old =
      (n.uncased old).putChild name (child.uncased (old.bind (·.child? name))) := by
  -- That entries are folded one by one does not change where a new one gets.
  cases n
  simp only [putChild, uncased, uncased_below]
  exact congrArg (Node.mk _ · _ _)
    (Table.insert_mapped (fun key child => uncased (old.bind (Table.find? ·.subKeys key)) child)
      _ _ _).symm

/-- A key that is there, or a new one under either of two names that fold to the same. -/
theorem uncased_getD (h : Text.fold a = Text.fold b) (now : Time) (old : Option Node) :
    (old.getD (empty a now)).uncased old = (old.getD (empty b now)).uncased old := by
  cases old with
  | none => simp only [Option.getD_none, empty, uncased, Option.isSome_none, Bool.false_eq_true,
      if_false, h]
  | some n => rfl

/-- A new key has no children. -/
theorem child?_getD (old : Option Node) (a name : String) (now : Time) :
    (old.getD (empty a now)).child? name = old.bind (·.child? name) := by
  cases old <;> rfl

/-- Creating a key along two ways that fold to the same, from a key that is there or from a new one,
    leaves trees that differ in the letter case of new keys alone. -/
theorem create_getD_uncased (now : Time) (hname : Text.fold a = Text.fold b)
    (h : as.map Text.fold = bs.map Text.fold) (old : Option Node) :
    (create now as (old.getD (empty a now))).uncased old =
      (create now bs (old.getD (empty b now))).uncased old := by
  -- Both ways go down to the child that the older tree has, or to a new one in both.
  induction as generalizing a b bs old with
  | nil =>
    rw [List.map_eq_nil_iff.mp h.symm]
    exact uncased_getD hname now old
  | cons c as ih =>
    cases bs with
    | nil => exact absurd h (by simp)
    | cons d bs =>
      obtain ⟨hfirst, hrest⟩ := folded_cons_iff.mp h
      -- The older tree has the same child under both names, if it has one.
      have hsame : old.bind (·.child? c) = old.bind (·.child? d) :=
        congrArg old.bind (funext fun n => child?_of_fold hfirst n)
      rw [create, create, uncased_putChild, uncased_putChild, uncased_getD hname, child?_getD,
        child?_getD, hsame, putChild_of_fold hfirst]
      exact congrArg _ (ih hfirst hrest _)

/-- The same for the ways from one key. -/
theorem create_uncased (now : Time) (h : as.map Text.fold = bs.map Text.fold) (n : Node) :
    (create now as n).uncased (some n) = (create now bs n).uncased (some n) :=
  create_getD_uncased now (Eq.refl (Text.fold n.name)) h (some n)

end Node

/-- The trees with the names of their keys folded, but for the keys that `old` has. -/
def Hives.uncased (old h : Hives) : Hives where
  classesRoot := h.classesRoot.uncased (some old.classesRoot)
  currentUser := h.currentUser.uncased (some old.currentUser)
  localMachine := h.localMachine.uncased (some old.localMachine)
  users := h.users.uncased (some old.users)
  currentConfig := h.currentConfig.uncased (some old.currentConfig)

/-- Replacing one tree and folding the names of all is done in either order. -/
theorem Hives.uncased_set (old h : Hives) (root : RootKey) (n : Node) :
    old.uncased (h.set root n) = (old.uncased h).set root (n.uncased (some (old.get root))) := by
  cases root <;> rfl

/-- Keys that are created at one place under two spellings differ in the letter case of new keys
    alone. -/
theorem Mutation.createKey_uncased {l m : Location} (h : l.place = m.place) (now : Time)
    (trees : Hives) :
    (apply now trees (.createKey l)).map trees.uncased =
      (apply now trees (.createKey m)).map trees.uncased := by
  rw [Location.place, Location.place, Flat.Place.mk.injEq] at h
  rw [apply, apply, Except.map, Except.map, Hives.uncased_set, Hives.uncased_set, h.1,
    Node.create_uncased now h.2]

/-! ## Pending changes under another spelling -/

/-- The location with the names on the way to it folded. -/
def Location.folded (l : Location) : Location :=
  ⟨l.root, ⟨l.path.folded⟩⟩

/-- Locations fold to the same exactly if they are spellings of one place. -/
theorem Location.folded_eq_iff {l m : Location} : l.folded = m.folded ↔ l.place = m.place := by
  rw [folded, folded, place, place, Location.mk.injEq, Path.mk.injEq, Flat.Place.mk.injEq]

/-- The change with the location that it is made at folded. -/
def Mutation.folded : Mutation → Mutation
  | createKey l => createKey l.folded
  | deleteKey l => deleteKey l.folded
  | renameKey l newName => renameKey l.folded newName
  | setValue l name data => setValue l.folded name data
  | deleteValue l name => deleteValue l.folded name

/-- Two trees that differ in the letter case of names alone. -/
def Node.UpToCase (n₁ n₂ : Node) : Prop :=
  n₁.uncased none = n₂.uncased none

namespace Node

variable {as bs : List String} {a b : String} {n₁ n₂ c₁ c₂ : Node}

/-- Compared with nothing, a key and all keys below it are folded. -/
theorem uncased_mk (name : String) (subKeys : List (String × Node))
    (values : Table String StoredValue) (now : Time) :
    uncased none ⟨name, subKeys, values, now⟩ =
      ⟨Text.fold name, subKeys.map (Prod.map id (uncased none)), values, now⟩ := by
  rw [uncased, uncased_below]
  rfl

/-- The children of a folded key are the folded children of the key. -/
theorem child?_uncased (n : Node) (name : String) :
    (n.uncased none).child? name = (n.child? name).map (uncased none) := by
  cases n
  rw [uncased_mk, child?, child?, Table.find?_map]

namespace UpToCase

/-- Keys that differ in letter case alone have the same children, up to letter case. -/
theorem child? (h : UpToCase n₁ n₂) (hname : Text.fold a = Text.fold b) :
    (n₁.child? a = none ∧ n₂.child? b = none) ∨
      ∃ c₁ c₂, n₁.child? a = some c₁ ∧ n₂.child? b = some c₂ ∧ UpToCase c₁ c₂ := by
  have hsame : (n₁.child? a).map (uncased none) = (n₂.child? b).map (uncased none) := by
    rw [← child?_uncased, ← child?_uncased, child?_of_fold hname, h]
  cases h₁ : n₁.child? a with
  | none =>
    rw [h₁] at hsame
    exact Or.inl ⟨rfl, Option.map_eq_none_iff.mp hsame.symm⟩
  | some c₁ =>
    rw [h₁] at hsame
    obtain ⟨c₂, h₂, hchild⟩ := Option.map_eq_some_iff.mp hsame.symm
    exact Or.inr ⟨c₁, c₂, rfl, h₂, hchild.symm⟩

/-- Children that differ in letter case alone are put under one name. -/
theorem putChild (h : UpToCase n₁ n₂) (hname : Text.fold a = Text.fold b)
    (hchild : UpToCase c₁ c₂) : UpToCase (n₁.putChild a c₁) (n₂.putChild b c₂) := by
  rw [UpToCase, uncased_putChild, uncased_putChild, h, putChild_of_fold hname]
  exact congrArg _ hchild

/-- A change that names have no part in. -/
theorem step (h : UpToCase n₁ n₂) (g : Node → Node)
    (hg : ∀ n, (g n).uncased none = g (n.uncased none)) : UpToCase (g n₁) (g n₂) := by
  rw [UpToCase, hg, hg]
  exact congrArg g h

/-- A child is taken away from both. -/
theorem dropChild (h : UpToCase n₁ n₂) (name : String) :
    UpToCase (n₁.dropChild name) (n₂.dropChild name) :=
  h.step (Node.dropChild · name) fun n => by
    cases n
    simp only [Node.dropChild, uncased_mk, Table.erase_map]

/-- Both are written at the same time. -/
theorem touch (h : UpToCase n₁ n₂) (now : Time) : UpToCase (n₁.touch now) (n₂.touch now) :=
  h.step (Node.touch · now) fun n => by
    cases n
    simp only [Node.touch, uncased_mk]

/-- The same value is put in both. -/
theorem putValue (h : UpToCase n₁ n₂) (name : String) (data : ValueData) :
    UpToCase (n₁.putValue name data) (n₂.putValue name data) :=
  h.step (Node.putValue · name data) fun n => by
    cases n
    simp only [Node.putValue, uncased_mk]

/-- The same value is taken from both. -/
theorem dropValue (h : UpToCase n₁ n₂) (name : String) :
    UpToCase (n₁.dropValue name) (n₂.dropValue name) :=
  h.step (Node.dropValue · name) fun n => by
    cases n
    simp only [Node.dropValue, uncased_mk]

/-- Values have no part in the letter case of names. -/
theorem values (h : UpToCase n₁ n₂) : n₁.values = n₂.values := by
  have hvalues : ∀ n : Node, (n.uncased none).values = n.values := fun n => by
    cases n
    rw [uncased_mk]
  rw [← hvalues, h, hvalues]

/-- There are keys below both, or below none. -/
theorem isLeaf (h : UpToCase n₁ n₂) : n₁.subKeys.isEmpty = n₂.subKeys.isEmpty := by
  have hleaf : ∀ n : Node, (n.uncased none).subKeys.isEmpty = n.subKeys.isEmpty := fun n => by
    cases n
    rw [uncased_mk, List.isEmpty_map]
  rw [← hleaf, h, hleaf]

/-- What treats two keys alike does so at the end of two ways that fold to the same. -/
theorem update {missing : NativeError} {f₁ f₂ : Node → Except NativeError Node}
    (hf : ∀ n₁ n₂, UpToCase n₁ n₂ → (f₁ n₁).map (uncased none) = (f₂ n₂).map (uncased none))
    (hway : as.map Text.fold = bs.map Text.fold) (h : UpToCase n₁ n₂) :
    (Node.update missing f₁ as n₁).map (uncased none) =
      (Node.update missing f₂ bs n₂).map (uncased none) := by
  induction as generalizing bs n₁ n₂ with
  | nil =>
    rw [List.map_eq_nil_iff.mp hway.symm]
    exact hf n₁ n₂ h
  | cons a as ih =>
    cases bs with
    | nil => exact absurd hway (by simp)
    | cons b bs =>
      obtain ⟨hname, hrest⟩ := folded_cons_iff.mp hway
      rw [Node.update, Node.update]
      rcases h.child? hname with ⟨h₁, h₂⟩ | ⟨c₁, c₂, h₁, h₂, hchild⟩
      · rw [h₁, h₂]
      · rw [h₁, h₂]
        dsimp only
        -- The two children are changed alike, or fail alike.
        rcases Except.map_eq_cases (ih hrest hchild) with ⟨e, h₁, h₂⟩ | ⟨c₁, c₂, h₁, h₂, hchild⟩
        · rw [h₁, h₂]
          rfl
        · rw [h₁, h₂]
          exact congrArg Except.ok (h.putChild hname hchild)

/-- A key is created along ways that fold to the same. -/
theorem create (now : Time) (hway : as.map Text.fold = bs.map Text.fold) (h : UpToCase n₁ n₂) :
    UpToCase (Node.create now as n₁) (Node.create now bs n₂) := by
  induction as generalizing bs n₁ n₂ with
  | nil =>
    rw [List.map_eq_nil_iff.mp hway.symm]
    exact h
  | cons a as ih =>
    cases bs with
    | nil => exact absurd hway (by simp)
    | cons b bs =>
      obtain ⟨hname, hrest⟩ := folded_cons_iff.mp hway
      rw [Node.create, Node.create]
      refine h.putChild hname (ih hrest ?_)
      -- Either there is a child under this name in both, or both get a new one.
      rcases h.child? hname with ⟨h₁, h₂⟩ | ⟨c₁, c₂, h₁, h₂, hchild⟩
      · rw [h₁, h₂]
        exact uncased_getD hname now none
      · rw [h₁, h₂]
        exact hchild

/-- A key without keys below it is taken away from both, or refused in both. -/
theorem removeLeaf (now : Time) (hname : Text.fold a = Text.fold b) (h : UpToCase n₁ n₂) :
    (Node.removeLeaf now a n₁).map (uncased none) =
      (Node.removeLeaf now b n₂).map (uncased none) := by
  rw [Node.removeLeaf, Node.removeLeaf]
  rcases h.child? hname with ⟨h₁, h₂⟩ | ⟨c₁, c₂, h₁, h₂, hchild⟩
  · rw [h₁, h₂]
  · rw [h₁, h₂]
    dsimp only
    rw [hchild.isLeaf, Node.dropChild, hname, ← Node.dropChild]
    split
    · exact congrArg Except.ok ((h.dropChild b).touch now)
    · rfl

/-- A key that is moved to a name has it as given, whatever its name was before. -/
theorem moved (h : UpToCase n₁ n₂) (name : String) (now : Time) :
    UpToCase { n₁ with name := name, lastWrite := now }
      { n₂ with name := name, lastWrite := now } := by
  have hmoved : ∀ n : Node, uncased none { n with name := name, lastWrite := now } =
      { n.uncased none with name := Text.fold name, lastWrite := now } := fun n => by
    cases n
    simp only [uncased_mk]
  rw [UpToCase, hmoved, hmoved, h]

/-- A key is renamed in both, or refused in both. -/
theorem renameChild (now : Time) (new : String) (hname : Text.fold a = Text.fold b)
    (h : UpToCase n₁ n₂) :
    (Node.renameChild now new a n₁).map (uncased none) =
      (Node.renameChild now new b n₂).map (uncased none) := by
  -- The new name is taken in both or free in both.
  have hfree : (n₁.child? new).isSome = (n₂.child? new).isSome := by
    rcases h.child? (Eq.refl (Text.fold new)) with ⟨h₁, h₂⟩ | ⟨c₁, c₂, h₁, h₂, -⟩ <;>
      rw [h₁, h₂]
    rfl
  rw [Node.renameChild, Node.renameChild, hname, hfree]
  split
  · rfl
  · rcases h.child? hname with ⟨h₁, h₂⟩ | ⟨c₁, c₂, h₁, h₂, hchild⟩
    · rw [h₁, h₂]
    · rw [h₁, h₂]
      dsimp only
      rw [Node.dropChild, hname, ← Node.dropChild]
      exact congrArg Except.ok
        (((h.dropChild b).putChild rfl (hchild.moved new now)).touch now)

/-- A value is taken from both, or missing in both. -/
theorem removeValue (now : Time) (name : String) (h : UpToCase n₁ n₂) :
    (Node.removeValue now name n₁).map (uncased none) =
      (Node.removeValue now name n₂).map (uncased none) := by
  rw [Node.removeValue, Node.removeValue, Node.value?, Node.value?, h.values]
  cases Table.find? n₂.values (Text.fold name) with
  | none => rfl
  | some value => exact congrArg Except.ok ((h.dropValue name).touch now)

end UpToCase

end Node

namespace Hives

/-- Five trees that differ in the letter case of names alone from five others. -/
def UpToCase (h₁ h₂ : Hives) : Prop :=
  ∀ root, (h₁.get root).UpToCase (h₂.get root)

/-- Two results that are the same error, or trees that differ in the letter case of names alone. -/
inductive AlikeUpToCase : Except NativeError Hives → Except NativeError Hives → Prop
  | error (e : NativeError) : AlikeUpToCase (.error e) (.error e)
  | ok {h₁ h₂ : Hives} : h₁.UpToCase h₂ → AlikeUpToCase (.ok h₁) (.ok h₂)

variable {h₁ h₂ : Hives} {l m : Location}

/-- Trees that differ in letter case alone are put in place of one another. -/
theorem UpToCase.set (h : h₁.UpToCase h₂) (root : RootKey) {n₁ n₂ : Node}
    (hn : n₁.UpToCase n₂) : (h₁.set root n₁).UpToCase (h₂.set root n₂) := by
  intro other
  rw [get_set, get_set]
  split
  · exact hn
  · exact h other

/-- What treats two keys alike does so on all five trees. -/
theorem UpToCase.update (h : h₁.UpToCase h₂) (hplace : l.place = m.place) {missing : NativeError}
    {f₁ f₂ : Node → Except NativeError Node}
    (hf : ∀ n₁ n₂, n₁.UpToCase n₂ →
      (f₁ n₁).map (Node.uncased none) = (f₂ n₂).map (Node.uncased none)) :
    AlikeUpToCase (h₁.update l.root l.path.names missing f₁)
      (h₂.update m.root m.path.names missing f₂) := by
  rw [Location.place, Location.place, Flat.Place.mk.injEq] at hplace
  rw [Hives.update, Hives.update, hplace.1]
  rcases Except.map_eq_cases ((h m.root).update hf hplace.2) with
    ⟨e, h₁, h₂⟩ | ⟨n₁, n₂, h₁, h₂, hn⟩
  · rw [h₁, h₂]
    exact .error e
  · rw [h₁, h₂]
    exact .ok (h.set m.root hn)

/-- What is done from the key above is done alike from both. -/
theorem UpToCase.updateAbove (h : h₁.UpToCase h₂) (hplace : l.place = m.place)
    {f : String → Node → Except NativeError Node}
    (hf : ∀ a b, Text.fold a = Text.fold b → ∀ n₁ n₂, n₁.UpToCase n₂ →
      (f a n₁).map (Node.uncased none) = (f b n₂).map (Node.uncased none)) :
    AlikeUpToCase (h₁.updateAbove l f) (h₂.updateAbove m f) := by
  rw [Hives.updateAbove, Hives.updateAbove]
  rcases Location.above_cases hplace with ⟨hl, hm⟩ | ⟨a, b, hl, hm, hfold, habove⟩
  · rw [hl, hm]
    exact .error .accessDenied
  · rw [hl, hm]
    exact h.update habove (hf a b hfold)

end Hives

namespace Mutation

variable {h₁ h₂ : Hives}

/-- Changes that differ in spelling alone do the same to trees that do. -/
theorem apply_upToCase {m₁ m₂ : Mutation} (hchange : m₁.folded = m₂.folded) (now : Time)
    (h : h₁.UpToCase h₂) : Hives.AlikeUpToCase (apply now h₁ m₁) (apply now h₂ m₂) := by
  -- Changes of different kinds are never spellings of one another.
  cases m₁ with
  | createKey l =>
    cases m₂ with
    | createKey m =>
      have hplace := Location.folded_eq_iff.mp (createKey.inj hchange)
      rw [Location.place, Location.place, Flat.Place.mk.injEq] at hplace
      rw [apply, apply, hplace.1]
      exact .ok (h.set m.root ((h m.root).create now hplace.2))
    | _ => exact absurd hchange (by simp [folded])
  | deleteKey l =>
    cases m₂ with
    | deleteKey m =>
      have hplace := Location.folded_eq_iff.mp (deleteKey.inj hchange)
      exact h.updateAbove hplace fun a b hfold n₁ n₂ hn => hn.removeLeaf now hfold
    | _ => exact absurd hchange (by simp [folded])
  | renameKey l newName =>
    cases m₂ with
    | renameKey m newName' =>
      obtain ⟨hlocation, rfl⟩ := renameKey.inj hchange
      have hplace := Location.folded_eq_iff.mp hlocation
      rw [apply, apply]
      split
      · exact h.updateAbove hplace fun a b hfold n₁ n₂ hn => hn.renameChild now newName hfold
      · exact .error .invalidParameter
    | _ => exact absurd hchange (by simp [folded])
  | setValue l name data =>
    cases m₂ with
    | setValue m name' data' =>
      obtain ⟨hlocation, rfl, rfl⟩ := setValue.inj hchange
      have hplace := Location.folded_eq_iff.mp hlocation
      exact h.update hplace fun n₁ n₂ hn =>
        congrArg Except.ok ((hn.putValue name data).touch now)
    | _ => exact absurd hchange (by simp [folded])
  | deleteValue l name =>
    cases m₂ with
    | deleteValue m name' =>
      obtain ⟨hlocation, rfl⟩ := deleteValue.inj hchange
      have hplace := Location.folded_eq_iff.mp hlocation
      exact h.update hplace fun n₁ n₂ hn => hn.removeValue now name
    | _ => exact absurd hchange (by simp [folded])

/-- Pending changes that differ in spelling have the same effect when they are made, up to the
    letter case of names, or fail for the same reason. -/
theorem replay_upToCase {log₁ log₂ : List Mutation}
    (hlog : log₁.map folded = log₂.map folded) (now : Time) (h : h₁.UpToCase h₂) :
    Hives.AlikeUpToCase (replay now h₁ log₁) (replay now h₂ log₂) := by
  induction log₁ generalizing log₂ h₁ h₂ with
  | nil =>
    rw [List.map_eq_nil_iff.mp hlog.symm]
    exact .ok h
  | cons m₁ log₁ ih =>
    cases log₂ with
    | nil => exact absurd hlog (by simp)
    | cons m₂ log₂ =>
      rw [List.map_cons, List.map_cons, List.cons.injEq] at hlog
      -- The first changes have one outcome in common, and the logs go on from there if it is a
      -- success.
      have hfirst := apply_upToCase hlog.1 now h
      rw [replay, replay]
      generalize apply now h₁ m₁ = r₁ at hfirst
      generalize apply now h₂ m₂ = r₂ at hfirst
      cases hfirst with
      | error e => exact .error e
      | ok hafter => exact ih hlog.2 hafter

end Mutation

end TransactionalRegistry
