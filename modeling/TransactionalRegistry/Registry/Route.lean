import TransactionalRegistry.Ambient

/-!
# Routes

An operation on a key makes all its calls by one route: in the transaction that is current when the
operation starts, by the transacted variant of every call, or without a transaction, by the plain
variant. Calls that take a handle only need no route, since a handle stays bound to the transaction
that it was opened in.

## Main definitions

* `Route`: The transaction that an operation makes its calls in, if any.
* `Route.current`: The route of the transaction that is current.
* `Registry.closing`: Works with an open key and closes it afterwards.
* `Registry.enumerate`: Everything that an enumeration lists.
-/

namespace TransactionalRegistry

/-- The transaction that an operation makes its calls in, if any. -/
structure Route where
  transaction : Option TransactionHandle
  deriving DecidableEq, Repr

namespace Route

variable {W ε : Type}

/-- The route of the transaction that is current. -/
def current : Act W ε Route := do
  return ⟨(← Ambient.current).map (·.handle)⟩

variable [Native W]

/-- Logs the name of a call that is about to be made. -/
def trace (route : Route) (plain transacted : String) : Act W ε Unit :=
  Act.log (.trace (if route.transaction.isSome then transacted else plain))

/-- Opens a key. -/
def openKey (route : Route) (parent : KeyHandle) (subKey : String) (access : Access) :
    Act W NativeError KeyHandle := do
  route.trace "RegOpenKeyEx" "RegOpenKeyTransacted"
  Act.call (.openKey parent subKey access route.transaction)

/-- Opens a key, creating it first if it is missing. -/
def createKey (route : Route) (parent : KeyHandle) (subKey : String) (access : Access) :
    Act W NativeError (KeyHandle × Disposition) := do
  route.trace "RegCreateKeyEx" "RegCreateKeyTransacted"
  Act.call (.createKey parent subKey access route.transaction)

/-- Deletes a key. -/
def deleteKey (route : Route) (parent : KeyHandle) (subKey : String) : Act W NativeError Unit := do
  route.trace "RegDeleteKeyEx" "RegDeleteKeyTransacted"
  Act.call (.deleteKey parent subKey route.transaction)

/-- Renames a key. -/
def renameKey (route : Route) (parent : KeyHandle) (subKey newName : String) :
    Act W NativeError Unit := do
  route.trace "RegRenameKey" "RegRenameKey transacted"
  Act.call (.renameKey parent subKey newName route.transaction)

/-- Reads a value. -/
def getValue (route : Route) (key : KeyHandle) (name : String) : Act W NativeError ValueData := do
  route.trace "RegGetValue" "RegGetValue transacted"
  Act.call (.getValue key name route.transaction)

/-- Writes a value. -/
def setValue (route : Route) (key : KeyHandle) (name : String) (data : ValueData) :
    Act W NativeError Unit := do
  route.trace "RegSetValueEx" "RegSetValueEx transacted"
  Act.call (.setValue key name data route.transaction)

/-- Deletes a value. -/
def deleteValue (route : Route) (key : KeyHandle) (name : String) : Act W NativeError Unit := do
  route.trace "RegDeleteValue" "RegDeleteValue transacted"
  Act.call (.deleteValue key name route.transaction)

end Route

namespace Registry

variable {W ε α : Type} [Native W]

/-- Closes a key; a failure to do so is logged and is no failure of the work. -/
def closeKey (key : KeyHandle) : Act W ε Unit := do
  match ← Act.attempt (Act.call (.closeKey key)) with
  | .ok _ => return ()
  | .error e =>
    Act.log (.warn "failed to close registry key" [("key", key.text), ("error", e.message)])

/-- Works with an open key and closes it afterwards. -/
def closing (key : KeyHandle) (act : Act W ε α) : Act W ε α :=
  act.ensuring (closeKey key)

/-- The items from `index` on, at most `limit` of them. There is no index after the last one that a
    32-bit word can hold, and going on to it panics. -/
def enumerateFrom (item : UInt32 → Act W NativeError α) :
    (limit : Nat) → UInt32 → Act W NativeError (List α)
  | 0, _ => Act.panic "attempt to add with overflow"
  | limit + 1, index => do
    match ← (item index).attempt with
    | .ok a => return a :: (← enumerateFrom item limit (index + 1))
    | .error e => if e.isNoMoreItems then return [] else Act.fail e

/-- Everything that an enumeration lists, up to the index at which it reports its end. Every index
    that a 32-bit word can hold is asked for. -/
def enumerate (item : UInt32 → Act W NativeError α) : Act W NativeError (List α) :=
  enumerateFrom item UInt32.size 0

end Registry

end TransactionalRegistry
