/-!
# Root keys

There are five trees of keys, and each has a root key that always exists. A root key has a long and
a short name; both are read without regard to the case of ASCII letters.

## Main definitions

* `RootKey`: The five root keys.
* `RootKey.all`: The five root keys in their customary order.
* `RootKey.name`, `RootKey.shortName`: The names of a root key.
* `RootKey.ofName?`: The root key of a name.
-/

namespace TransactionalRegistry

/-- The five root keys. -/
inductive RootKey where
  | classesRoot
  | currentUser
  | localMachine
  | users
  | currentConfig
  deriving DecidableEq, Repr

namespace RootKey

/-- The five root keys in their customary order. -/
def all : List RootKey :=
  [classesRoot, currentUser, localMachine, users, currentConfig]

/-- The long name of a root key. -/
def name : RootKey → String
  | classesRoot => "HKEY_CLASSES_ROOT"
  | currentUser => "HKEY_CURRENT_USER"
  | localMachine => "HKEY_LOCAL_MACHINE"
  | users => "HKEY_USERS"
  | currentConfig => "HKEY_CURRENT_CONFIG"

/-- The short name of a root key. -/
def shortName : RootKey → String
  | classesRoot => "HKCR"
  | currentUser => "HKCU"
  | localMachine => "HKLM"
  | users => "HKU"
  | currentConfig => "HKCC"

/-- The word for a root key in diagnostic text. -/
def debugText : RootKey → String
  | classesRoot => "ClassesRoot"
  | currentUser => "CurrentUser"
  | localMachine => "LocalMachine"
  | users => "Users"
  | currentConfig => "CurrentConfig"

/-- Whether two texts are equal up to the case of ASCII letters. -/
def sameLetters (a b : String) : Bool :=
  a.toList.map Char.toLower = b.toList.map Char.toLower

/-- The root key with the given long or short name, in any case of ASCII letters. -/
def ofName? (text : String) : Option RootKey :=
  all.find? fun root => sameLetters root.name text || sameLetters root.shortName text

end RootKey

end TransactionalRegistry
