import TransactionalRegistry.Text.Numeral

/-!
# Error codes

A call on the store fails with a numeric error code. The codes that the library itself looks at have
names here; every other code passes through as a number. Each code has a text, and codes without a
text of their own share one.

## Main definitions

* `NativeError`: A failed call, as its error code.
* `NativeError.text`: The text of an error code.
* `NativeError.message`: The text of an error code followed by the number.
-/

namespace TransactionalRegistry

/-- A failed call, as its error code. -/
structure NativeError where
  code : UInt32
  deriving DecidableEq, Repr

namespace NativeError

/-- The code of a call that did not fail. -/
def success : NativeError := ⟨0⟩

/-- There is no key or value of that name. -/
def fileNotFound : NativeError := ⟨2⟩

/-- The handle, or the place, does not allow the call. -/
def accessDenied : NativeError := ⟨5⟩

/-- The handle denotes nothing. -/
def invalidHandle : NativeError := ⟨6⟩

/-- A call failed and left no code of its own. -/
def genFailure : NativeError := ⟨31⟩

/-- An argument is outside its range. -/
def invalidParameter : NativeError := ⟨87⟩

/-- There is a key of that name already. -/
def alreadyExists : NativeError := ⟨183⟩

/-- The index is past the end of an enumeration. -/
def noMoreItems : NativeError := ⟨259⟩

/-- The key behind the handle is gone. -/
def keyDeleted : NativeError := ⟨1018⟩

/-- The transaction has been decided. -/
def transactionNotActive : NativeError := ⟨6701⟩

/-- The transaction has been rolled back. -/
def transactionAlreadyAborted : NativeError := ⟨6704⟩

/-- The transaction has been committed. -/
def transactionAlreadyCommitted : NativeError := ⟨6705⟩

/-- The changes of the transaction do not apply to the live trees. -/
def transactionalConflict : NativeError := ⟨6800⟩

/-- The codes that have a text of their own. -/
def texts : List (NativeError × String) :=
  [
    (success, "the operation completed successfully"),
    (fileNotFound, "the system cannot find the file specified"),
    (accessDenied, "access is denied"),
    (invalidHandle, "the handle is invalid"),
    (genFailure, "a device attached to the system is not functioning"),
    (invalidParameter, "the parameter is incorrect"),
    (alreadyExists, "cannot create a file when that file already exists"),
    (noMoreItems, "no more data is available"),
    (keyDeleted,
      "illegal operation attempted on a registry key that has been marked for deletion"),
    (transactionNotActive, "the transaction handle is not active"),
    (transactionAlreadyAborted, "the transaction has already been aborted"),
    (transactionAlreadyCommitted, "the transaction has already been committed"),
    (transactionalConflict,
      "the function attempted to use a name that is reserved for use by another transaction")]

/-- The text of an error code. -/
def text (error : NativeError) : String :=
  (texts.lookup error).getD "unrecognized native error"

/-- The text of an error code, followed by the number. -/
def message (error : NativeError) : String :=
  error.text ++ " (error " ++ Text.decimal error.code.toNat ++ ")"

/-- Whether nothing was found under a name. -/
def isNotFound (error : NativeError) : Bool :=
  error = fileNotFound

/-- Whether a handle denoted nothing. -/
def isInvalidHandle (error : NativeError) : Bool :=
  error = invalidHandle

/-- Whether an enumeration has come to its end. -/
def isNoMoreItems (error : NativeError) : Bool :=
  error = noMoreItems

end NativeError

end TransactionalRegistry
