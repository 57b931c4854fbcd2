import TransactionalRegistry.Value.Kind

/-!
# Typed values

## Main definitions

* `Value`: A typed value.
* `Value.kind`: The type that a value is stored under.
-/

namespace TransactionalRegistry

/-- A typed value. -/
inductive Value where
  | none
  | string (text : String)
  | expandString (text : String)
  | binary (bytes : List UInt8)
  | dword (n : UInt32)
  | dwordBigEndian (n : UInt32)
  | multiString (texts : List String)
  | qword (n : UInt64)
  deriving DecidableEq, Repr

/-- The type that a value is stored under. -/
def Value.kind : Value → ValueKind
  | none => .none
  | string _ => .sz
  | expandString _ => .expandSz
  | binary _ => .binary
  | dword _ => .dword
  | dwordBigEndian _ => .dwordBigEndian
  | multiString _ => .multiSz
  | qword _ => .qword

end TransactionalRegistry
