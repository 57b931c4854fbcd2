import TransactionalRegistry.ErrorCode
import TransactionalRegistry.Tree.Hives

/-!
# Mutations

Every change to the trees is one of five mutations. The same mutation is applied to the live trees
when a plain call makes it, to the private copy of a transaction when a transacted call makes it,
and once more to the live trees when that transaction commits.

A mutation either applies as a whole or fails with an error code and changes nothing. Keys that it
writes to take the time at which it is applied; creating a key below another one is no write to the
key above.

## Main definitions

* `Mutation`: A change to the trees.
* `Mutation.apply`: The trees after a change.
* `Mutation.replay`: The trees after a sequence of changes.
-/

namespace TransactionalRegistry

/-- A change to the trees. -/
inductive Mutation where
  | createKey (target : Location)
  | deleteKey (target : Location)
  | renameKey (target : Location) (newName : String)
  | setValue (target : Location) (name : String) (data : ValueData)
  | deleteValue (target : Location) (name : String)
  deriving DecidableEq, Repr

namespace Hives

/-- The trees with the key at the end of a list of names changed by `f`. -/
def update (h : Hives) (root : RootKey) (names : List String) (missing : NativeError)
    (f : Node → Except NativeError Node) : Except NativeError Hives :=
  (Node.update missing f names (h.get root)).map (h.set root)

/-- The trees with the key above a location changed by `f`, which is given the last name on the way
    to the location. A root key is not below any key, and is refused. -/
def updateAbove (h : Hives) (l : Location) (f : String → Node → Except NativeError Node) :
    Except NativeError Hives :=
  match l.path.name? with
  | none => .error .accessDenied
  | some name => h.update l.root l.path.names.dropLast .fileNotFound (f name)

end Hives

namespace Node

/-- The key without the key of that name below it, which must have no keys below it itself. -/
def removeLeaf (now : Time) (name : String) (n : Node) : Except NativeError Node :=
  match n.child? name with
  | none => .error .fileNotFound
  | some child =>
    if child.subKeys.isEmpty then .ok ((n.dropChild name).touch now) else .error .accessDenied

/-- The key with the key below it under `old` moved to `new`. A change of letter case alone is a
    move to the same place; any other place must be free. -/
def renameChild (now : Time) (new old : String) (n : Node) : Except NativeError Node :=
  if Text.fold old ≠ Text.fold new ∧ (n.child? new).isSome then .error .alreadyExists
  else
    match n.child? old with
    | none => .error .fileNotFound
    | some child =>
      .ok (((n.dropChild old).putChild new { child with name := new, lastWrite := now }).touch now)

/-- The key without the value of that name. -/
def removeValue (now : Time) (name : String) (n : Node) : Except NativeError Node :=
  match n.value? name with
  | none => .error .fileNotFound
  | some _ => .ok ((n.dropValue name).touch now)

end Node

/-- Whether a text is a single name: not empty, and without separators. -/
def isSingleName (text : String) : Bool :=
  !text.isEmpty && !text.toList.contains Path.separator

namespace Mutation

/-- The trees after a change made at the time `now`. -/
def apply (now : Time) (h : Hives) : Mutation → Except NativeError Hives
  | createKey l => .ok (h.set l.root ((h.get l.root).create now l.path.names))
  | deleteKey l => h.updateAbove l (Node.removeLeaf now)
  | renameKey l newName =>
    if isSingleName newName then h.updateAbove l (fun old => Node.renameChild now newName old)
    else .error .invalidParameter
  | setValue l name data =>
    h.update l.root l.path.names .keyDeleted fun n => .ok ((n.putValue name data).touch now)
  | deleteValue l name =>
    h.update l.root l.path.names .keyDeleted (Node.removeValue now name)

/-- The trees after a sequence of changes made at the time `now`; the first change that fails fails
    the whole sequence. -/
def replay (now : Time) (h : Hives) : List Mutation → Except NativeError Hives
  | [] => .ok h
  | m :: rest => (apply now h m).bind (replay now · rest)

end Mutation

end TransactionalRegistry
