import TransactionalRegistry.Store.Basic

/-!
# Keys of the store

A call on a key by its path goes from an open handle and finds the key anew, in the trees of the
transaction that the call names, or else of the one that the handle is bound to, or else in the live
trees. The handle of a root key is always open.

What a call may do is checked against the rights that the handle was opened with, and against the
protected locations: below those no key can be created, deleted, renamed or written to, nor opened
with a right that would allow it.

## Main definitions

* `Store.openKey`, `Store.createKey`: Opening a key, and creating it first if it is missing.
* `Store.deleteKey`, `Store.renameKey`: Deleting and renaming a key.
* `Store.closeKey`: Closing a handle.
* `Store.queryInfo`, `Store.enumKey`, `Store.enumValue`, `Store.getValue`: Reading through a handle.
* `Store.setValue`, `Store.deleteValue`: Writing through a handle.
-/

namespace TransactionalRegistry

namespace Store

/-- Fails with `error` unless `condition` holds. -/
def require (condition : Bool) (error : NativeError) : StoreM Unit :=
  if condition then pure () else throw error

/-- What an open handle denotes. -/
def lookUp (key : KeyHandle) : StoreM OpenKey := do
  match key.root? with
  | some root => return OpenKey.ofRoot root
  | none =>
    match Table.find? (← get).keys key with
    | some openKey => return openKey
    | none => throw .invalidHandle

/-- The location that a text spells below an open key, which must still be there. -/
def target (parent : OpenKey) (subKey : String) (transaction : Option TransactionHandle) :
    StoreM Location := do
  require ((← view transaction).contains parent.location) .keyDeleted
  return parent.location.below subKey

/-- Fails if a location is protected. -/
def requireUnprotected (l : Location) : StoreM Unit := do
  require (!(← get).isProtected l) .accessDenied

/-- Fails if a protected location would be opened with a right that changes it. -/
def requireAdmissible (l : Location) (access : Access) : StoreM Unit := do
  require (!(access.isModifying && (← get).isProtected l)) .accessDenied

/-- Puts an open key under a handle of its own. -/
def addKey (openKey : OpenKey) : StoreM KeyHandle := do
  let handle : KeyHandle := ⟨← drawHandle⟩
  modify fun s => { s with keys := Table.insert s.keys handle openKey }
  return handle

/-! ## Keys -/

/-- Opens a key. -/
def openKey (parent : KeyHandle) (subKey : String) (access : Access)
    (transaction : Option TransactionHandle) : StoreM KeyHandle := do
  let parent ← lookUp parent
  let transaction := transaction.or parent.transaction
  let l ← target parent subKey transaction
  require ((← view transaction).contains l) .fileNotFound
  requireAdmissible l access
  addKey ⟨l, access, transaction⟩

/-- Creates a key that is missing, with every missing key on the way to it. -/
def createMissing (parent : OpenKey) (l : Location) (transaction : Option TransactionHandle) :
    StoreM Unit := do
  require (parent.access.contains .createSubKey) .accessDenied
  requireUnprotected l
  mutate transaction (.createKey l)

/-- Opens a key, creating it first if it is missing. -/
def createKey (parent : KeyHandle) (subKey : String) (access : Access)
    (transaction : Option TransactionHandle) : StoreM (KeyHandle × Disposition) := do
  let parent ← lookUp parent
  let transaction := transaction.or parent.transaction
  let l ← target parent subKey transaction
  let present := (← view transaction).contains l
  if !present then createMissing parent l transaction
  requireAdmissible l access
  let handle ← addKey ⟨l, access, transaction⟩
  return (handle, if present then .openedExisting else .createdNew)

/-- Changes a key at or below an open key: no root key, and no protected one. -/
def changeKey (parent : KeyHandle) (subKey : String) (transaction : Option TransactionHandle)
    (mutation : Location → Mutation) : StoreM Unit := do
  let parent ← lookUp parent
  let transaction := transaction.or parent.transaction
  let l ← target parent subKey transaction
  require (!l.isRoot) .accessDenied
  requireUnprotected l
  mutate transaction (mutation l)

/-- Deletes a key that has no keys below it. -/
def deleteKey (parent : KeyHandle) (subKey : String) (transaction : Option TransactionHandle) :
    StoreM Unit :=
  changeKey parent subKey transaction .deleteKey

/-- Renames a key. -/
def renameKey (parent : KeyHandle) (subKey newName : String)
    (transaction : Option TransactionHandle) : StoreM Unit :=
  changeKey parent subKey transaction (.renameKey · newName)

/-- Closes a handle; the handle of a root key stays open. -/
def closeKey (key : KeyHandle) : StoreM Unit := do
  if key.isPredefined then return ()
  require (Table.contains (← get).keys key) .invalidHandle
  modify fun s => { s with keys := Table.erase s.keys key }

/-! ## Reading -/

/-- The key behind an open handle that grants `access`, and what `read` finds in it. -/
def withNode {α : Type} (key : KeyHandle) (access : Access)
    (transaction : Option TransactionHandle) (read : Node → Except NativeError α) : StoreM α := do
  let openKey ← lookUp key
  require (openKey.access.contains access) .accessDenied
  match (← view (transaction.or openKey.transaction)).find? openKey.location with
  | none => throw .keyDeleted
  | some n =>
    match read n with
    | .ok a => return a
    | .error e => throw e

/-- What can be asked about a key. -/
def queryInfo (key : KeyHandle) : StoreM KeyInfo :=
  withNode key .queryValue none fun n => .ok n.info

/-- The name of the key below that has the given index. -/
def enumKey (key : KeyHandle) (index : UInt32) : StoreM String :=
  withNode key .enumerateSubKeys none fun n =>
    match n.subKeys[index.toNat]? with
    | some entry => .ok entry.2.name
    | none => .error .noMoreItems

/-- The value that has the given index, with its name. -/
def enumValue (key : KeyHandle) (index : UInt32) : StoreM (String × ValueData) :=
  withNode key .queryValue none fun n =>
    match n.values[index.toNat]? with
    | some entry => .ok (entry.2.name, entry.2.data)
    | none => .error .noMoreItems

/-- The value under a name. -/
def getValue (key : KeyHandle) (name : String) (transaction : Option TransactionHandle) :
    StoreM ValueData :=
  withNode key .queryValue transaction fun n =>
    match n.value? name with
    | some value => .ok value.data
    | none => .error .fileNotFound

/-! ## Writing -/

/-- Changes the values of the key behind an open handle. -/
def changeValue (key : KeyHandle) (transaction : Option TransactionHandle)
    (mutation : Location → Mutation) : StoreM Unit := do
  let openKey ← lookUp key
  require (openKey.access.contains .setValue) .accessDenied
  requireUnprotected openKey.location
  mutate (transaction.or openKey.transaction) (mutation openKey.location)

/-- Writes a value. -/
def setValue (key : KeyHandle) (name : String) (data : ValueData)
    (transaction : Option TransactionHandle) : StoreM Unit :=
  changeValue key transaction (.setValue · name data)

/-- Deletes a value. -/
def deleteValue (key : KeyHandle) (name : String) (transaction : Option TransactionHandle) :
    StoreM Unit :=
  changeValue key transaction (.deleteValue · name)

end Store

end TransactionalRegistry
