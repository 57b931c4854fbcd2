import TransactionalRegistry.Tree.Mutation

/-!
# Grafting

Every change but the creation of keys finds the key at the end of a way, makes a new key out of it,
and puts that one in its place. The two halves are told apart here: which key is found and what
becomes of it is one question, and what it means for a tree to have another key at the end of a way
is the other. A property of trees is then followed through a change by following it through the new
key, and through one graft.

## Main definitions

* `Node.graft`: A tree with another key at the end of a way.
* `Node.moveChild`: A key with one of the keys below it under another name.

## Theorems

* `Node.update_of_found`: An update finds a key, changes it, and grafts what it has become.
* `Node.update_of_missing`: It fails where there is no key.
* `Node.removeLeaf_eq_ok`, `Node.renameChild_eq_ok`, `Node.removeValue_eq_ok`: When a key can be
  changed, and into what; `Node.removeLeaf_eq_error` and the others: with what it fails.
* `Hives.update_eq_ok`, `Hives.update_eq_error`: When an update of the five trees succeeds, and with
  what it fails.
* `Hives.updateAbove_of_root`, `Hives.updateAbove_of_name`: The same for the key above a location.
-/

namespace TransactionalRegistry

namespace Node

/-- The tree with `m` in place of the key at the end of a list of names. A way that leads to no key
    leaves the tree as it is. -/
def graft (m : Node) : List String → Node → Node
  | [], _ => m
  | name :: rest, n =>
    match n.child? name with
    | none => n
    | some child => n.putChild name (graft m rest child)

theorem find?_cons (n : Node) (name : String) (rest : List String) :
    n.find? (name :: rest) = (n.child? name).bind (·.find? rest) := by
  rw [find?]
  cases n.child? name <;> rfl

/-- An update on a way that leads to no key fails, whatever it was to do. -/
theorem update_of_missing {ε : Type} (missing : ε) (f : Node → Except ε Node) {names : List String}
    {n : Node} (hmissing : n.find? names = none) : update missing f names n = .error missing := by
  induction names generalizing n with
  | nil => exact absurd hmissing (by simp [find?])
  | cons name rest ih =>
    rw [find?_cons] at hmissing
    rw [update]
    cases hchild : n.child? name with
    | none => rfl
    | some child =>
      rw [hchild, Option.bind_some] at hmissing
      -- The error comes up through the children on the way unchanged.
      simp only [ih hmissing, Except.map]

/-- An update changes the key at the end of the way, and grafts the changed key in its place. -/
theorem update_of_found {ε : Type} (missing : ε) (f : Node → Except ε Node) {names : List String}
    {n found : Node} (hfound : n.find? names = some found) :
    update missing f names n = (f found).map (graft · names n) := by
  induction names generalizing n with
  | nil =>
    rw [find?, Option.some.injEq] at hfound
    rw [update, hfound]
    cases f found <;> rfl
  | cons name rest ih =>
    rw [find?_cons] at hfound
    rw [update]
    cases hchild : n.child? name with
    | none => exact absurd hfound (by simp [hchild])
    | some child =>
      rw [hchild, Option.bind_some] at hfound
      -- On the way back each child is put in the place that it was found at.
      simp only [ih hfound, graft, hchild]
      cases f found <;> rfl

/-! ## What becomes of a key -/

variable {n m : Node} {now : Time} {e : NativeError}

theorem removeLeaf_eq_ok {name : String} :
    removeLeaf now name n = .ok m ↔
      ∃ child, n.child? name = some child ∧ child.subKeys = [] ∧
        (n.dropChild name).touch now = m := by
  rw [removeLeaf]
  cases n.child? name with
  | none => simp
  | some child => by_cases hleaf : child.subKeys = [] <;> simp [hleaf]

theorem removeLeaf_eq_error {name : String} :
    removeLeaf now name n = .error e ↔
      (n.child? name = none ∧ .fileNotFound = e) ∨
        ∃ child, n.child? name = some child ∧ child.subKeys ≠ [] ∧ .accessDenied = e := by
  rw [removeLeaf]
  cases n.child? name with
  | none => simp
  | some child => by_cases hleaf : child.subKeys = [] <;> simp [hleaf]

/-- The key `n` after the key `child` below it has been moved from one name to another. -/
def moveChild (now : Time) (new old : String) (child n : Node) : Node :=
  ((n.dropChild old).putChild new { child with name := new, lastWrite := now }).touch now

/-- A child can be renamed if it is there, and no other one has the new name. -/
theorem renameChild_eq_ok {new old : String} :
    renameChild now new old n = .ok m ↔
      (Text.fold old = Text.fold new ∨ n.child? new = none) ∧
        ∃ child, n.child? old = some child ∧ moveChild now new old child n = m := by
  rw [renameChild]
  -- A key may get its own name in another spelling, though that name is taken, by itself.
  by_cases hfold : Text.fold old = Text.fold new
  · cases n.child? old <;> simp [hfold, moveChild]
  · cases n.child? new <;> cases n.child? old <;> simp [hfold, moveChild]

theorem renameChild_eq_error {new old : String} :
    renameChild now new old n = .error e ↔
      (Text.fold old ≠ Text.fold new ∧ (n.child? new).isSome ∧ .alreadyExists = e) ∨
        ((Text.fold old = Text.fold new ∨ n.child? new = none) ∧ n.child? old = none ∧
          .fileNotFound = e) := by
  rw [renameChild]
  by_cases hfold : Text.fold old = Text.fold new
  · cases n.child? old <;> simp [hfold]
  · cases n.child? new <;> cases n.child? old <;> simp [hfold]

theorem removeValue_eq_ok {name : String} :
    removeValue now name n = .ok m ↔
      (n.value? name).isSome ∧ (n.dropValue name).touch now = m := by
  rw [removeValue]
  cases n.value? name <;> simp

theorem removeValue_eq_error {name : String} :
    removeValue now name n = .error e ↔ n.value? name = none ∧ .fileNotFound = e := by
  rw [removeValue]
  cases n.value? name <;> simp

end Node

namespace Hives

variable {h : Hives} {l : Location} {root : RootKey} {names : List String} {missing : NativeError}
  {f : Node → Except NativeError Node}

theorem update_eq_ok {h' : Hives} :
    h.update root names missing f = .ok h' ↔
      ∃ found m, (h.get root).find? names = some found ∧ f found = .ok m ∧
        h' = h.set root (Node.graft m names (h.get root)) := by
  rw [update]
  cases hfound : (h.get root).find? names with
  | none =>
    rw [Node.update_of_missing missing f hfound]
    simp [Except.map]
  | some found =>
    rw [Node.update_of_found missing f hfound]
    cases hf : f found with
    | error e => simp [Except.map, hf]
    | ok m => simp [Except.map, hf, eq_comm]

theorem update_eq_error {e : NativeError} :
    h.update root names missing f = .error e ↔
      ((h.get root).find? names = none ∧ missing = e) ∨
        ∃ found, (h.get root).find? names = some found ∧ f found = .error e := by
  rw [update]
  cases hfound : (h.get root).find? names with
  | none =>
    rw [Node.update_of_missing missing f hfound]
    simp [Except.map]
  | some found =>
    rw [Node.update_of_found missing f hfound]
    cases hf : f found with
    | error e' => simp [Except.map, hf]
    | ok m => simp [Except.map, hf]

variable {f : String → Node → Except NativeError Node}

/-- Above a root key there is nothing to update. -/
theorem updateAbove_of_root (hroot : l.path.names = []) :
    h.updateAbove l f = .error .accessDenied := by
  rw [updateAbove, Path.name?, hroot]
  rfl

theorem updateAbove_of_name {above : List String} {name : String}
    (hnames : l.path.names = above ++ [name]) :
    h.updateAbove l f = h.update l.root above .fileNotFound (f name) := by
  rw [updateAbove, Path.name?, hnames, List.getLast?_concat]
  simp only [List.dropLast_concat]

end Hives

/-- A text is a single name when it is not empty and holds no separator. -/
theorem isSingleName_iff (text : String) :
    isSingleName text = true ↔ text ≠ "" ∧ Path.separator ∉ text.toList := by
  simp [isSingleName]

end TransactionalRegistry
