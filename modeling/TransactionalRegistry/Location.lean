import TransactionalRegistry.Path
import TransactionalRegistry.RootKey
import TransactionalRegistry.Text.Quoted

/-!
# Locations

A location is a root key and a path below it. It says where a key is, or would be, and holds on to
nothing: the key may come and go.

As text, a location is the name of its root key, then its path. Reading takes the long or the short
name of the root key in any case of ASCII letters, and passes over separators in front of it.

## Main definitions

* `Location`: A root key and a path below it.
* `Location.ofText?`: The location that a text spells.
* `Location.text`: A location as text, with the long name of the root key.
* `Location.below`, `Location.parent?`, `Location.renamed?`: Moving from a location to another.
* `Location.same`: Whether two locations are one place.
* `Location.isWithin`: Whether a location is another or lies below it.
-/

namespace TransactionalRegistry

/-- A root key and a path below it. -/
structure Location where
  root : RootKey
  path : Path
  deriving DecidableEq, Repr

namespace Location

/-- The location of a root key. -/
def ofRoot (root : RootKey) : Location :=
  ⟨root, Path.root⟩

/-- A text without the separators in front. -/
def trimmed (cs : List Char) : List Char :=
  cs.dropWhile (· = Path.separator)

/-- The name of the root key that a text begins with. -/
def rootPart (text : String) : String :=
  String.ofList ((trimmed text.toList).takeWhile (· ≠ Path.separator))

/-- What follows the name of the root key and the separator after it. -/
def pathPart (text : String) : String :=
  String.ofList (((trimmed text.toList).dropWhile (· ≠ Path.separator)).drop 1)

/-- The location that a text spells; `none` if it does not begin with the name of a root key. -/
def ofText? (text : String) : Option Location :=
  (RootKey.ofName? (rootPart text)).map fun root => ⟨root, Path.ofText (pathPart text)⟩

/-- Whether the location is that of a root key. -/
def isRoot (l : Location) : Bool :=
  l.path.isRoot

/-- The last name on the way to the location, or the name of the root key. -/
def name (l : Location) : String :=
  l.path.name?.getD l.root.name

/-- A location as text. -/
def text (l : Location) : String :=
  if l.isRoot then l.root.name
  else l.root.name ++ String.singleton Path.separator ++ l.path.text

/-- The location that a text spells when it is read below `l`. -/
def below (l : Location) (relative : String) : Location :=
  ⟨l.root, l.path.join relative⟩

/-- The location above; there is none above a root key. -/
def parent? (l : Location) : Option Location :=
  l.path.parent?.map fun path => ⟨l.root, path⟩

/-- The location with what `name` spells in place of its last name. -/
def renamed? (l : Location) (name : String) : Option Location :=
  (l.path.withName? name).map fun path => ⟨l.root, path⟩

/-- Whether two locations are one place. -/
def same (l m : Location) : Bool :=
  l.root = m.root && l.path.same m.path

/-- Whether `l` is `ancestor` or lies below it: the way to `ancestor`, in folded names, is the
    beginning of the way to `l`. -/
def isWithin (l ancestor : Location) : Bool :=
  l.root = ancestor.root && ancestor.path.folded.isPrefixOf l.path.folded

/-- A location as diagnostic text. -/
def debugText (l : Location) : String :=
  "RegistryKey \x7b root: " ++ l.root.debugText ++ ", path: RegistryPath \x7b components: " ++
    Text.quoteList l.path.names ++ " \x7d, .. \x7d"

end Location

end TransactionalRegistry
