import TransactionalRegistry.Path
import TransactionalRegistry.Table
import TransactionalRegistry.Text.Utf16
import TransactionalRegistry.Value.Kind

/-!
# Keys of a tree

A key has a name, keys below it, values, and the time of its last write. The keys below and the
values stand in tables under their folded names; the names themselves keep the letter case that they
were given.

## Main definitions

* `Time`: A reading of the clock.
* `StoredValue`: A value with its name.
* `Node`: A key of a tree.
* `Node.find?`: The key at the end of a list of names.
* `Node.update`: The tree with the key at the end of a list of names changed.
* `Node.create`: The tree with every key along a list of names present.
* `Node.info`: What can be asked about a key.
-/

namespace TransactionalRegistry

/-- A reading of the clock, in nanoseconds. -/
abbrev Time : Type := Nat

/-- A value with the name that it was given. -/
structure StoredValue where
  name : String
  data : ValueData
  deriving DecidableEq, Repr

/-- A key of a tree. -/
structure Node where
  name : String
  subKeys : List (String × Node)
  values : Table String StoredValue
  lastWrite : Time

/-- What can be asked about a key: counts, the longest names in UTF-16 code units, the largest
    value in bytes, and the last write. -/
structure KeyInfo where
  subKeyCount : UInt32
  valueCount : UInt32
  maxSubKeyLength : UInt32
  maxValueNameLength : UInt32
  maxValueLength : UInt32
  lastWrite : Time
  deriving DecidableEq, Repr

namespace Node

/-- A key with nothing in it. -/
def empty (name : String) (now : Time) : Node :=
  ⟨name, [], [], now⟩

/-- The key below `n` under a name. -/
def child? (n : Node) (name : String) : Option Node :=
  Table.find? n.subKeys (Text.fold name)

/-- The value of `n` under a name. -/
def value? (n : Node) (name : String) : Option StoredValue :=
  Table.find? n.values (Text.fold name)

/-- The key with `child` below it, under its name. -/
def putChild (n : Node) (name : String) (child : Node) : Node :=
  { n with subKeys := Table.insert n.subKeys (Text.fold name) child }

/-- The key without a key of that name below it. -/
def dropChild (n : Node) (name : String) : Node :=
  { n with subKeys := Table.erase n.subKeys (Text.fold name) }

/-- The key with a value under a name. -/
def putValue (n : Node) (name : String) (data : ValueData) : Node :=
  { n with values := Table.insert n.values (Text.fold name) ⟨name, data⟩ }

/-- The key without a value of that name. -/
def dropValue (n : Node) (name : String) : Node :=
  { n with values := Table.erase n.values (Text.fold name) }

/-- The key as written at the time `now`. -/
def touch (n : Node) (now : Time) : Node :=
  { n with lastWrite := now }

/-- The key at the end of a list of names. -/
def find? (n : Node) : List String → Option Node
  | [] => some n
  | name :: rest =>
    match n.child? name with
    | none => none
    | some child => child.find? rest

/-- The tree with the key at the end of a list of names changed by `f`. It fails with `missing` if
    there is no such key, and as `f` does. -/
def update {ε : Type} (missing : ε) (f : Node → Except ε Node) : List String → Node → Except ε Node
  | [], n => f n
  | name :: rest, n =>
    match n.child? name with
    | none => .error missing
    | some child => (update missing f rest child).map (n.putChild name)

/-- The tree with every key along a list of names present. Keys that are there stay as they are; a
    new one has the name as given. -/
def create (now : Time) : List String → Node → Node
  | [], n => n
  | name :: rest, n =>
    n.putChild name (create now rest ((n.child? name).getD (empty name now)))

/-- The largest of some numbers, as 32-bit words; zero if there are none. -/
def largest (numbers : List Nat) : UInt32 :=
  (numbers.map UInt32.ofNat).foldl max 0

/-- What can be asked about a key. -/
def info (n : Node) : KeyInfo where
  subKeyCount := UInt32.ofNat n.subKeys.length
  valueCount := UInt32.ofNat n.values.length
  maxSubKeyLength := largest (n.subKeys.map fun entry => Utf16.length entry.2.name)
  maxValueNameLength := largest (n.values.map fun entry => Utf16.length entry.2.name)
  maxValueLength := largest (n.values.map fun entry => entry.2.data.bytes.length)
  lastWrite := n.lastWrite

end Node

end TransactionalRegistry
