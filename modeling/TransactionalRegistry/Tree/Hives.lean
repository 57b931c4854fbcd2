import TransactionalRegistry.Location
import TransactionalRegistry.Tree.Node

/-!
# The five trees

## Main definitions

* `Hives`: The trees of the five root keys.
* `Hives.empty`: Five root keys with nothing below them.
* `Hives.find?`: The key at a location.
* `Hives.listing`: Every location that holds a key, each before those below it.

## Theorems

* `get_set`: Replacing the tree of one root key leaves the other trees as they are.
-/

namespace TransactionalRegistry

/-- The trees of the five root keys. -/
structure Hives where
  classesRoot : Node
  currentUser : Node
  localMachine : Node
  users : Node
  currentConfig : Node

namespace Hives

/-- Five root keys with nothing below them. -/
def empty (now : Time) : Hives where
  classesRoot := Node.empty RootKey.classesRoot.name now
  currentUser := Node.empty RootKey.currentUser.name now
  localMachine := Node.empty RootKey.localMachine.name now
  users := Node.empty RootKey.users.name now
  currentConfig := Node.empty RootKey.currentConfig.name now

/-- The tree of a root key. -/
def get (h : Hives) : RootKey → Node
  | .classesRoot => h.classesRoot
  | .currentUser => h.currentUser
  | .localMachine => h.localMachine
  | .users => h.users
  | .currentConfig => h.currentConfig

/-- The trees with the tree of a root key replaced. -/
def set (h : Hives) (root : RootKey) (n : Node) : Hives :=
  match root with
  | .classesRoot => { h with classesRoot := n }
  | .currentUser => { h with currentUser := n }
  | .localMachine => { h with localMachine := n }
  | .users => { h with users := n }
  | .currentConfig => { h with currentConfig := n }

theorem get_set (h : Hives) (root other : RootKey) (n : Node) :
    (h.set root n).get other = if root = other then n else h.get other := by
  cases root <;> cases other <;> rfl

/-- The key at a location. -/
def find? (h : Hives) (l : Location) : Option Node :=
  (h.get l.root).find? l.path.names

/-- Whether there is a key at a location. -/
def contains (h : Hives) (l : Location) : Bool :=
  (h.find? l).isSome

end Hives

/-- The paths of a key and of all keys below it, each before those below it. -/
def Node.paths : Node → List (List String)
  | ⟨_, subKeys, _, _⟩ => [] :: below subKeys
where
  /-- The paths of the entries of a table of keys, each under its name. -/
  below : List (String × Node) → List (List String)
    | [] => []
    | (_, child) :: rest => child.paths.map (child.name :: ·) ++ below rest

/-- Every location that holds a key, each before those below it. -/
def Hives.listing (h : Hives) : List Location :=
  RootKey.all.flatMap fun root => (h.get root).paths.map fun names => ⟨root, ⟨names⟩⟩

end TransactionalRegistry
