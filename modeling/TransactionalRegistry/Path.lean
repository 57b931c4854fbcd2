import TransactionalRegistry.Text.Bytes
import TransactionalRegistry.Text.Fold

/-!
# Paths

A path names a key below a root key by the names on the way to it. As text, the names stand between
backslashes; backslashes at either end or next to each other are dropped, and `/` is an ordinary
character of a name. The empty path is the root key itself.

Paths keep letter case and are compared without regard to it, name by name: a path is compared
through the list of its folded names, never through its folded text, because what a sigma folds to
depends on where its word ends.

## Main definitions

* `Path`: The names on the way to a key.
* `Path.ofText`: The path that a text spells.
* `Path.text`: A path as text.
* `Path.join`, `Path.parent?`, `Path.withName?`: Moving below, above and beside a path.
* `Path.startsWith`, `Path.same`: Comparison without regard to letter case.
* `Path.hashInput`: The bytes under which equal paths hash alike.
-/

namespace TransactionalRegistry

/-- The names on the way from a root key to a key. -/
structure Path where
  names : List String
  deriving DecidableEq, Repr

namespace Path

/-- The character between two names. -/
def separator : Char := '\\'

/-! ## Text -/

/-- The pieces of a text between separators, empty ones included. -/
def pieces : List Char → List (List Char)
  | [] => [[]]
  | c :: rest =>
    if c = separator then [] :: pieces rest
    else
      match pieces rest with
      | [] => [[c]]
      | piece :: more => (c :: piece) :: more

/-- The names that a text spells: its pieces that are not empty. -/
def namesIn (cs : List Char) : List (List Char) :=
  (pieces cs).filter (· ≠ [])

/-- The names with one separator between neighbours. -/
def joined : List (List Char) → List Char
  | [] => []
  | [name] => name
  | name :: next :: rest => name ++ separator :: joined (next :: rest)

/-- The path that a text spells. -/
def ofText (text : String) : Path :=
  ⟨(namesIn text.toList).map String.ofList⟩

/-- A path as text: its names with one separator between neighbours. -/
def text (p : Path) : String :=
  String.ofList (joined (p.names.map String.toList))

/-! ## Moving -/

/-- The path of the root key. -/
def root : Path := ⟨[]⟩

/-- Whether the path is that of the root key. -/
def isRoot (p : Path) : Bool :=
  p.names.isEmpty

/-- The last name of a path; the path of the root key has none. -/
def name? (p : Path) : Option String :=
  p.names.getLast?

/-- The path of the key above; there is none above the root key. -/
def parent? (p : Path) : Option Path :=
  if p.names.isEmpty then none else some ⟨p.names.dropLast⟩

/-- The path that a text spells when it is read below `p`. -/
def join (p : Path) (relative : String) : Path :=
  ⟨p.names ++ (ofText relative).names⟩

/-- The path with what `name` spells in place of its last name; the root key's has no last name. -/
def withName? (p : Path) (name : String) : Option Path :=
  p.parent?.map (·.join name)

/-! ## Comparison -/

/-- The names of a path as they are looked up. -/
def folded (p : Path) : List String :=
  p.names.map Text.fold

/-- Whether two names are equal up to letter case. -/
def sameName (a b : String) : Bool :=
  Text.fold a = Text.fold b

/-- Whether `p` is `ancestor` or lies below it. -/
def startsWith (p ancestor : Path) : Bool :=
  ancestor.names.length ≤ p.names.length &&
    (p.names.zip ancestor.names).all fun pair => sameName pair.1 pair.2

/-- Whether two paths name the same place. -/
def same (p q : Path) : Bool :=
  p.names.length = q.names.length && p.startsWith q

/-- The UTF-8 bytes of a folded name and the byte `0xFF` after it, which no UTF-8 text holds. -/
def hashedName (name : String) : List UInt8 :=
  (Text.fold name).toUTF8.toList ++ [0xFF]

/-- The bytes that a path is hashed by: each folded name in turn, then how many there are. -/
def hashInput (p : Path) : List UInt8 :=
  p.names.flatMap hashedName ++ Bytes.littleEndian 8 p.names.length

end Path

end TransactionalRegistry
