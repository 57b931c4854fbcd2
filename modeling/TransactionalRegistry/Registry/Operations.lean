import TransactionalRegistry.Location
import TransactionalRegistry.Registry.Error
import TransactionalRegistry.Registry.Route

/-!
# Operations on keys

An operation is given the location of a key. It opens the key with the fewest rights that it needs,
in the transaction that is current, makes its call, and closes the key again before it ends, however
it ends. Nothing stays open between two operations.

## Main definitions

* `Registry.exists`, `Registry.create`, `Registry.createIfMissing`, `Registry.delete`,
  `Registry.deleteIfExists`, `Registry.rename`: Operations on a key as a whole.
* `Registry.info`, `Registry.subKeyNames`, `Registry.subKeys`: What there is to know about a key.
* `Registry.valueNames`, `Registry.values`, `Registry.getValue`, `Registry.valueExists`,
  `Registry.setValue`, `Registry.deleteValue`, `Registry.deleteValueIfExists`: Values of a key.
* `Registry.getString`, `Registry.getDword`, `Registry.getQword`, `Registry.getMultiString`,
  `Registry.getBinary`: Values of an expected type.
-/

namespace TransactionalRegistry

namespace Registry

variable {W : Type} [Native W]

/-- The location that a text spells. -/
def parse (text : String) : Except RegistryError Location :=
  match Location.ofText? text with
  | some l => .ok l
  | none => .error (.unknownRoot (Location.rootPart text))

/-- A failed call on the key at a location. -/
def onKey {α : Type} (operation : String) (l : Location) (act : Act W NativeError α) :
    Act W RegistryError α :=
  act.mapError (.ofNative operation l.text)

/-- A failed call on a value of the key at a location. -/
def onValue {α : Type} (operation : String) (l : Location) (name : String)
    (act : Act W NativeError α) : Act W RegistryError α :=
  act.mapError (.ofNativeValue operation l.text name)

/-- Opens the key at a location. -/
def openAt (route : Route) (l : Location) (access : Access) : Act W RegistryError KeyHandle :=
  onKey "RegOpenKeyEx" l (route.openKey l.root.handle l.path.text access)

/-- Fails on a root key. -/
def refuseRoot (operation : String) (l : Location) : Act W RegistryError Unit :=
  if l.isRoot then Act.fail (.rootKeyUnsupported operation l.text) else pure ()

/-! ## Keys -/

/-- Whether there is a key at a location. -/
def «exists» (l : Location) : Act W RegistryError Bool := do
  let route ← Route.current
  match ← (openAt route l .queryValue).attempt with
  | .ok key => closing key (return true)
  | .error (.noSuchKey _) => return false
  | .error e => Act.fail e

/-- Creates a key and those missing on the way to it, unless it exists. Answers whether it was
    created; a root key always exists. -/
def createIfMissing (l : Location) : Act W RegistryError Bool := do
  if l.isRoot then return false
  let route ← Route.current
  let (key, disposition) ←
    onKey "RegCreateKeyEx" l (route.createKey l.root.handle l.path.text .queryValue)
  closing key do
    if disposition = .createdNew then
      Act.log (.debug "key created")
      return true
    return false

/-- Creates a key and those missing on the way to it; fails if it exists. -/
def create (l : Location) : Act W RegistryError Unit := do
  if !(← createIfMissing l) then Act.fail (.keyAlreadyExists l.text)

/-- Deletes a key that has no keys below it. -/
def delete (l : Location) : Act W RegistryError Unit := do
  refuseRoot "delete" l
  let route ← Route.current
  onKey "RegDeleteKeyEx" l (route.deleteKey l.root.handle l.path.text)
  Act.log (.debug "key deleted")

/-- Deletes a key if it exists. Answers whether it did. -/
def deleteIfExists (l : Location) : Act W RegistryError Bool := do
  match ← (delete l).attempt with
  | .ok _ => return true
  | .error (.noSuchKey _) => return false
  | .error e => Act.fail e

/-- Renames a key. Answers its new location. -/
def rename (l : Location) (newName : String) : Act W RegistryError Location := do
  refuseRoot "rename" l
  let route ← Route.current
  onKey "RegRenameKey" l (route.renameKey l.root.handle l.path.text newName)
  Act.log (.debug "key renamed")
  match l.renamed? newName with
  | some renamed => return renamed
  | none => Act.fail (.rootKeyUnsupported "rename" l.text)

/-- What can be asked about a key. -/
def info (l : Location) : Act W RegistryError KeyInfo := do
  let route ← Route.current
  let key ← openAt route l .queryValue
  closing key (onKey "RegQueryInfoKey" l (Act.call (.queryInfo key)))

/-- The names of the keys directly below a key. -/
def subKeyNames (l : Location) : Act W RegistryError (List String) := do
  let route ← Route.current
  let key ← openAt route l .enumerateSubKeys
  closing key (onKey "RegEnumKeyEx" l (enumerate fun index => Act.call (.enumKey key index)))

/-- The locations of the keys directly below a key. -/
def subKeys (l : Location) : Act W RegistryError (List Location) := do
  return (← subKeyNames l).map l.below

/-! ## Values -/

/-- The stored values of a key with their names. -/
def storedValues (l : Location) : Act W RegistryError (List (String × ValueData)) := do
  let route ← Route.current
  let key ← openAt route l .queryValue
  closing key (onKey "RegEnumValue" l (enumerate fun index => Act.call (.enumValue key index)))

/-- The names of the values of a key. -/
def valueNames (l : Location) : Act W RegistryError (List String) := do
  return (← storedValues l).map Prod.fst

/-- The value of a stored form, found under a name. -/
def decoded (l : Location) (name : String) (data : ValueData) : Except RegistryError Value :=
  (Value.decode data).mapError (.invalidData l.text name)

/-- The values of stored forms with their names; the first that cannot be read fails all. -/
def decodedAll (l : Location) :
    List (String × ValueData) → Except RegistryError (List (String × Value))
  | [] => .ok []
  | (name, data) :: rest => do
    let value ← decoded l name data
    return (name, value) :: (← decodedAll l rest)

/-- The values of a key with their names. -/
def values (l : Location) : Act W RegistryError (List (String × Value)) := do
  Act.ofExcept (decodedAll l (← storedValues l))

/-- The value of a key under a name. -/
def getValue (l : Location) (name : String) : Act W RegistryError Value := do
  let route ← Route.current
  let key ← openAt route l .queryValue
  closing key do
    let data ← onValue "RegGetValue" l name (route.getValue key name)
    Act.ofExcept (decoded l name data)

/-- Whether a key has a value under a name, readable or not. -/
def valueExists (l : Location) (name : String) : Act W RegistryError Bool := do
  match ← (getValue l name).attempt with
  | .ok _ => return true
  | .error (.invalidData _ _ _) => return true
  | .error (.noSuchValue _ _) => return false
  | .error e => Act.fail e

/-- Writes a value of a key under a name. -/
def setValue (l : Location) (name : String) (value : Value) : Act W RegistryError Unit := do
  let data ← Act.ofExcept (value.encode.mapError (.invalidData l.text name))
  let route ← Route.current
  let key ← openAt route l .setValue
  closing key do
    onKey "RegSetValueEx" l (route.setValue key name data)
    Act.log (.debug "value set")

/-- Deletes the value of a key under a name. -/
def deleteValue (l : Location) (name : String) : Act W RegistryError Unit := do
  let route ← Route.current
  let key ← openAt route l .setValue
  closing key do
    onValue "RegDeleteValue" l name (route.deleteValue key name)
    Act.log (.debug "value deleted")

/-- Deletes the value of a key under a name if there is one. Answers whether there was. -/
def deleteValueIfExists (l : Location) (name : String) : Act W RegistryError Bool := do
  match ← (deleteValue l name).attempt with
  | .ok _ => return true
  | .error (.noSuchValue _ _) => return false
  | .error e => Act.fail e

/-! ## Values of an expected type -/

/-- The part of a value that `select` finds in it; a value without one is of an unexpected type. -/
def getSelected {α : Type} (l : Location) (name : String) (expected : ValueKind)
    (select : Value → Option α) : Act W RegistryError α := do
  let value ← getValue l name
  match select value with
  | some a => return a
  | none => Act.fail (.typeMismatch l.text name expected value.kind)

/-- A string value, with or without variables in it. -/
def getString (l : Location) (name : String) : Act W RegistryError String :=
  getSelected l name .sz fun
    | .string text => some text
    | .expandString text => some text
    | _ => none

/-- A 32-bit number in either byte order. -/
def getDword (l : Location) (name : String) : Act W RegistryError UInt32 :=
  getSelected l name .dword fun
    | .dword n => some n
    | .dwordBigEndian n => some n
    | _ => none

/-- A 64-bit number. -/
def getQword (l : Location) (name : String) : Act W RegistryError UInt64 :=
  getSelected l name .qword fun
    | .qword n => some n
    | _ => none

/-- A list of strings. -/
def getMultiString (l : Location) (name : String) : Act W RegistryError (List String) :=
  getSelected l name .multiSz fun
    | .multiString texts => some texts
    | _ => none

/-- Raw bytes. -/
def getBinary (l : Location) (name : String) : Act W RegistryError (List UInt8) :=
  getSelected l name .binary fun
    | .binary bytes => some bytes
    | _ => none

end Registry

end TransactionalRegistry
