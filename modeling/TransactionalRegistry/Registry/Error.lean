import TransactionalRegistry.Transaction.Error
import TransactionalRegistry.Value.Codec

/-!
# Registry errors

## Main definitions

* `RegistryError`: Why an operation on a key failed.
* `RegistryError.ofNative`: A failed call on a key.
* `RegistryError.ofNativeValue`: A failed call on a value.
-/

namespace TransactionalRegistry

/-- Why an operation on a key failed. A path is the full text of a location. -/
inductive RegistryError where
  | noSuchKey (path : String)
  | noSuchValue (path name : String)
  | accessDenied (path : String)
  | invalidHandle (path : String)
  | keyAlreadyExists (path : String)
  | rootKeyUnsupported (operation path : String)
  | unknownRoot (name : String)
  | invalidData (path name : String) (cause : ValueError)
  | typeMismatch (path name : String) (expected actual : ValueKind)
  | native (operation : String) (error : NativeError) (path : String)
  | transaction (error : TransactionError)
  deriving DecidableEq, Repr

namespace RegistryError

/-- The text of a registry error. -/
def message : RegistryError → String
  | noSuchKey path => "registry key not found: " ++ path
  | noSuchValue path name => "registry value not found: " ++ path ++ " [" ++ name ++ "]"
  | accessDenied path => "access denied: " ++ path
  | invalidHandle path => "invalid handle for " ++ path
  | keyAlreadyExists path => "registry key already exists: " ++ path
  | rootKeyUnsupported operation path => operation ++ " is not supported on root key " ++ path
  | unknownRoot name => "unknown root key: " ++ name
  | invalidData path name cause =>
    "invalid data in " ++ path ++ " [" ++ name ++ "]: " ++ cause.message
  | typeMismatch path name expected actual =>
    path ++ " [" ++ name ++ "] is " ++ actual.name ++ ", expected " ++ expected.name
  | native operation error path => operation ++ " failed on " ++ path ++ ": " ++ error.message
  | transaction error => error.message

/-- A failed call on a key: a name that was not found is the key's. -/
def ofNative (operation path : String) (error : NativeError) : RegistryError :=
  if error = .fileNotFound ∨ error = .keyDeleted then noSuchKey path
  else if error = .accessDenied then accessDenied path
  else if error = .invalidHandle then invalidHandle path
  else if error = .alreadyExists then keyAlreadyExists path
  else native operation error path

/-- A failed call on a value: a name that was not found is the value's. -/
def ofNativeValue (operation path name : String) (error : NativeError) : RegistryError :=
  if error.isNotFound then noSuchValue path name else ofNative operation path error

/-- Whether a key or a value was not found. -/
def isNotFound : RegistryError → Bool
  | noSuchKey _ => true
  | noSuchValue _ _ => true
  | _ => false

end RegistryError

end TransactionalRegistry
