import TransactionalRegistry.Tree.Mutation

/-!
# Trees without their times

Two trees are the same up to the times of last write when they are equal after every such time has
been set to zero. Setting the times to zero is a map from trees to trees, and every change to the
trees commutes with it: applying a change at some time and then forgetting the times is forgetting
the times first and applying the change at time zero.

So a change, and a whole sequence of changes, cannot tell trees apart that differ in times alone,
neither in whether it applies nor in what it leaves behind. The clock readings at which the changes
of a transaction were made, and at which they are made once more when it commits, drop out of every
comparison of the two.

## Main definitions

* `Node.timeless`: A tree with every time of last write set to zero.
* `Hives.timeless`: The five trees with every time of last write set to zero.

## Theorems

* `Table.find?_map`, `Table.insert_map`, `Table.erase_map`: Tables whose entries are mapped.
* `Node.find?_timeless`, `Hives.find?_timeless`: Looking up commutes with forgetting times.
* `Node.update_timeless`, `Node.create_timeless`: So does changing the key at the end of a way.
* `Mutation.apply_timeless`: A change commutes with forgetting times.
* `Mutation.replay_timeless`: So does a sequence of changes.
* `Mutation.replay_append`: Two sequences one after the other are one sequence.
-/

namespace TransactionalRegistry

/-! ## Tables -/

namespace Table

variable {κ α β : Type} [DecidableEq κ]

theorem find?_map (f : α → β) (table : Table κ α) (key : κ) :
    find? (table.map (Prod.map id f)) key = (find? table key).map f := by
  induction table with
  | nil => rfl
  | cons head rest ih =>
      rcases head with ⟨k, a⟩
      simp only [List.map_cons, Prod.map_apply, id_eq, find?]
      by_cases hk : k = key
      · rw [if_pos hk, if_pos hk, Option.map_some]
      · rw [if_neg hk, if_neg hk, ih]

/-- Inserting into a table whose entries were mapped along with their keys. -/
theorem insert_mapped [LT κ] [DecidableLT κ] (f : κ → α → β) (table : Table κ α) (key : κ)
    (entry : α) :
    insert (table.map fun entry => (entry.1, f entry.1 entry.2)) key (f key entry) =
      (insert table key entry).map fun entry => (entry.1, f entry.1 entry.2) := by
  induction table with
  | nil => rfl
  | cons head rest ih =>
      rcases head with ⟨k, a⟩
      simp only [List.map_cons, insert]
      -- The keys of the table are the same ones before and after, so the entry goes to the same
      -- place.
      by_cases hk : key = k
      · rw [if_pos hk, if_pos hk]
        rfl
      · rw [if_neg hk, if_neg hk]
        by_cases hlt : key < k
        · rw [if_pos hlt, if_pos hlt]
          rfl
        · rw [if_neg hlt, if_neg hlt, ih]
          rfl

theorem insert_map [LT κ] [DecidableLT κ] (f : α → β) (table : Table κ α) (key : κ) (entry : α) :
    insert (table.map (Prod.map id f)) key (f entry) =
      (insert table key entry).map (Prod.map id f) :=
  insert_mapped (fun _ => f) table key entry

theorem erase_map (f : α → β) (table : Table κ α) (key : κ) :
    erase (table.map (Prod.map id f)) key = (erase table key).map (Prod.map id f) := by
  simp only [erase, List.filter_map]
  rfl

end Table

/-! ## Keys -/

/-- The tree with every time of last write set to zero. -/
def Node.timeless : Node → Node
  | ⟨name, subKeys, values, _⟩ => ⟨name, below subKeys, values, 0⟩
where
  /-- The entries of a table of keys, each without its times. -/
  below : List (String × Node) → List (String × Node)
    | [] => []
    | (folded, child) :: rest => (folded, child.timeless) :: below rest

namespace Node

/-- The children of a key lose their times one by one. -/
theorem timeless_below (subKeys : List (String × Node)) :
    timeless.below subKeys = subKeys.map (Prod.map id timeless) := by
  -- The recursion through the table of children is a map over it.
  induction subKeys with
  | nil => rfl
  | cons head rest ih =>
    rcases head with ⟨folded, child⟩
    rw [timeless.below, ih]
    rfl

@[simp] theorem timeless_name (n : Node) : n.timeless.name = n.name := by
  cases n
  rfl

@[simp] theorem timeless_values (n : Node) : n.timeless.values = n.values := by
  cases n
  rfl

@[simp] theorem timeless_lastWrite (n : Node) : n.timeless.lastWrite = 0 := by
  cases n
  rfl

theorem timeless_subKeys (n : Node) :
    n.timeless.subKeys = n.subKeys.map (Prod.map id timeless) := by
  cases n
  exact timeless_below _

theorem timeless_mk (name : String) (subKeys : List (String × Node))
    (values : Table String StoredValue) (now : Time) :
    timeless ⟨name, subKeys, values, now⟩ =
      ⟨name, subKeys.map (Prod.map id timeless), values, 0⟩ := by
  rw [timeless, timeless_below]

/-! ## Operations on a key -/

theorem child?_timeless (n : Node) (name : String) :
    n.timeless.child? name = (n.child? name).map timeless := by
  rw [child?, child?, timeless_subKeys, Table.find?_map]

theorem value?_timeless (n : Node) (name : String) : n.timeless.value? name = n.value? name := by
  rw [value?, value?, timeless_values]

theorem putChild_timeless (n child : Node) (name : String) :
    n.timeless.putChild name child.timeless = (n.putChild name child).timeless := by
  cases n
  simp only [timeless_mk, putChild, Table.insert_map]

theorem dropChild_timeless (n : Node) (name : String) :
    n.timeless.dropChild name = (n.dropChild name).timeless := by
  cases n
  simp only [timeless_mk, dropChild, Table.erase_map]

theorem putValue_timeless (n : Node) (name : String) (data : ValueData) :
    n.timeless.putValue name data = (n.putValue name data).timeless := by
  cases n
  simp only [timeless_mk, putValue]

theorem dropValue_timeless (n : Node) (name : String) :
    n.timeless.dropValue name = (n.dropValue name).timeless := by
  cases n
  simp only [timeless_mk, dropValue]

theorem touch_timeless (n : Node) (now : Time) : n.timeless.touch 0 = (n.touch now).timeless := by
  cases n
  simp only [timeless_mk, touch]

theorem empty_timeless (name : String) (now : Time) :
    empty name 0 = (empty name now).timeless := by
  simp only [empty, timeless_mk, List.map_nil]

theorem find?_timeless (names : List String) (n : Node) :
    n.timeless.find? names = (n.find? names).map timeless := by
  induction names generalizing n with
  | nil => rfl
  | cons name rest ih =>
    rw [find?, find?, child?_timeless]
    cases n.child? name with
    | none => rfl
    | some child => exact ih child

theorem update_timeless {ε : Type} (missing : ε) {f g : Node → Except ε Node}
    (hfg : ∀ n, g n.timeless = (f n).map timeless) (names : List String) (n : Node) :
    update missing g names n.timeless = (update missing f names n).map timeless := by
  induction names generalizing n with
  | nil => exact hfg n
  | cons name rest ih =>
    rw [update, update, child?_timeless]
    cases n.child? name with
    | none => rfl
    | some child =>
      -- On the way back every child is put in its place again, and that leaves times alone too.
      simp only [Option.map_some, ih child]
      cases update missing f rest child with
      | error e => rfl
      | ok changed =>
        simp only [Except.map]
        rw [putChild_timeless]

/-- Keys that are created at any time are the same up to times. -/
theorem create_timeless (now : Time) (names : List String) (n : Node) :
    create 0 names n.timeless = (create now names n).timeless := by
  induction names generalizing n with
  | nil => rfl
  -- A key that is missing is made at the time zero, like one without its times.
  | cons name rest ih =>
    have hchild : (n.timeless.child? name).getD (empty name 0)
        = ((n.child? name).getD (empty name now)).timeless := by
      rw [child?_timeless, empty_timeless name now, Option.getD_map]
    rw [create, create, hchild, ih, putChild_timeless]

/-- Whether a key can be deleted does not depend on times. -/
theorem removeLeaf_timeless (now : Time) (name : String) (n : Node) :
    removeLeaf 0 name n.timeless = (removeLeaf now name n).map timeless := by
  rw [removeLeaf, removeLeaf, child?_timeless]
  cases n.child? name with
  | none => rfl
  | some child =>
    simp only [Option.map_some, timeless_subKeys, List.isEmpty_map]
    -- Whether the child has keys below it does not depend on times.
    rw [dropChild_timeless, touch_timeless _ now]
    split <;> rfl

/-- Whether a key can be renamed does not depend on times. -/
theorem renameChild_timeless (now : Time) (new old : String) (n : Node) :
    renameChild 0 new old n.timeless = (renameChild now new old n).map timeless := by
  simp only [renameChild, child?_timeless, Option.isSome_map]
  split
  · rfl
  · cases n.child? old with
    | none => rfl
    | some child =>
      -- A child gets its new name and its time of last write at once.
      have hmoved : { child.timeless with name := new, lastWrite := 0 }
          = ({ child with name := new, lastWrite := now } : Node).timeless := by
        cases child
        simp only [timeless_mk]
      simp only [Option.map_some, Except.map]
      rw [hmoved, dropChild_timeless, putChild_timeless, touch_timeless _ now]

theorem removeValue_timeless (now : Time) (name : String) (n : Node) :
    removeValue 0 name n.timeless = (removeValue now name n).map timeless := by
  rw [removeValue, removeValue, value?_timeless]
  cases n.value? name with
  | none => rfl
  | some value =>
    simp only [Except.map]
    rw [dropValue_timeless, touch_timeless _ now]

end Node

/-! ## The five trees -/

namespace Hives

/-- The five trees with every time of last write set to zero. -/
def timeless (h : Hives) : Hives where
  classesRoot := h.classesRoot.timeless
  currentUser := h.currentUser.timeless
  localMachine := h.localMachine.timeless
  users := h.users.timeless
  currentConfig := h.currentConfig.timeless

theorem get_timeless (h : Hives) (root : RootKey) :
    h.timeless.get root = (h.get root).timeless := by
  cases root <;> rfl

theorem set_timeless (h : Hives) (root : RootKey) (n : Node) :
    h.timeless.set root n.timeless = (h.set root n).timeless := by
  cases root <;> rfl

theorem empty_timeless (now : Time) : empty 0 = (empty now).timeless := by
  simp only [empty, timeless, Node.empty_timeless _ now]

theorem find?_timeless (h : Hives) (l : Location) :
    h.timeless.find? l = (h.find? l).map Node.timeless := by
  rw [find?, find?, get_timeless, Node.find?_timeless]

theorem contains_timeless (h : Hives) (l : Location) : h.timeless.contains l = h.contains l := by
  rw [contains, contains, find?_timeless, Option.isSome_map]

theorem contains_eq_of_timeless {h h' : Hives} (hsame : h.timeless = h'.timeless) (l : Location) :
    h.contains l = h'.contains l := by
  rw [← h.contains_timeless, hsame, h'.contains_timeless]

theorem update_timeless (h : Hives) (root : RootKey) (names : List String)
    (missing : NativeError) {f g : Node → Except NativeError Node}
    (hfg : ∀ n, g n.timeless = (f n).map Node.timeless) :
    h.timeless.update root names missing g = (h.update root names missing f).map timeless := by
  rw [update, update, get_timeless, Node.update_timeless missing hfg]
  cases Node.update missing f names (h.get root) with
  | error e => rfl
  | ok n => exact congrArg Except.ok (set_timeless h root n)

theorem updateAbove_timeless (h : Hives) (l : Location)
    {f g : String → Node → Except NativeError Node}
    (hfg : ∀ name n, g name n.timeless = (f name n).map Node.timeless) :
    h.timeless.updateAbove l g = (h.updateAbove l f).map timeless := by
  rw [updateAbove, updateAbove]
  cases l.path.name? with
  | none => rfl
  | some name => exact update_timeless h _ _ _ (hfg name)

end Hives

/-! ## Changes -/

namespace Mutation

/-- Whether a change applies, and what it makes of the trees, does not depend on times. -/
theorem apply_timeless (now : Time) (h : Hives) (m : Mutation) :
    apply 0 h.timeless m = (apply now h m).map Hives.timeless := by
  cases m with
  | createKey l =>
    simp only [apply, Except.map]
    rw [Hives.get_timeless, Node.create_timeless now, Hives.set_timeless]
  | deleteKey l => exact Hives.updateAbove_timeless h l (Node.removeLeaf_timeless now)
  | renameKey l newName =>
    simp only [apply]
    -- Whether the new name is a single one does not depend on the trees.
    split
    · exact Hives.updateAbove_timeless h l
        (fun old n => Node.renameChild_timeless now newName old n)
    · rfl
  | setValue l name data =>
    refine Hives.update_timeless h _ _ _ (fun n => ?_)
    simp only [Except.map]
    rw [Node.putValue_timeless, Node.touch_timeless _ now]
  | deleteValue l name =>
    exact Hives.update_timeless h _ _ _ (Node.removeValue_timeless now name)

/-- Neither does what a sequence of changes makes of them. -/
theorem replay_timeless (now : Time) (h : Hives) (changes : List Mutation) :
    replay 0 h.timeless changes = (replay now h changes).map Hives.timeless := by
  induction changes generalizing h with
  | nil => rfl
  | cons m rest ih =>
    -- The changes are applied one after the other, each to trees without times.
    rw [replay, replay, apply_timeless now]
    cases apply now h m with
    | error e => rfl
    | ok changed => exact ih changed

theorem replay_append (now : Time) (h : Hives) (first second : List Mutation) :
    replay now h (first ++ second) = (replay now h first).bind (replay now · second) := by
  induction first generalizing h with
  | nil => rfl
  | cons m rest ih =>
    rw [List.cons_append, replay, replay]
    cases apply now h m with
    | error e => rfl
    | ok changed => exact ih changed

end Mutation

end TransactionalRegistry
