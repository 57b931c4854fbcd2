/-!
# Value types

A stored value is a type code and raw bytes. Twelve codes have a name; a value with any other code
is still stored and read back as it is.

## Main definitions

* `ValueKind`: The twelve named value types.
* `ValueKind.ofCode?`: The type of a code.
* `ValueData`: A type code and raw bytes.
-/

namespace TransactionalRegistry

/-- The named value types. -/
inductive ValueKind where
  | none
  | sz
  | expandSz
  | binary
  | dword
  | dwordBigEndian
  | link
  | multiSz
  | resourceList
  | fullResourceDescriptor
  | resourceRequirementsList
  | qword
  deriving DecidableEq, Repr

namespace ValueKind

/-- The named value types in the order of their codes. -/
def all : List ValueKind :=
  [none, sz, expandSz, binary, dword, dwordBigEndian, link, multiSz, resourceList,
    fullResourceDescriptor, resourceRequirementsList, qword]

/-- The code of a value type. -/
def code : ValueKind → UInt32
  | none => 0
  | sz => 1
  | expandSz => 2
  | binary => 3
  | dword => 4
  | dwordBigEndian => 5
  | link => 6
  | multiSz => 7
  | resourceList => 8
  | fullResourceDescriptor => 9
  | resourceRequirementsList => 10
  | qword => 11

/-- The value type of a code, if it has a name. -/
def ofCode? (code : UInt32) : Option ValueKind :=
  all.find? fun kind => kind.code = code

/-- The name of a value type. -/
def name : ValueKind → String
  | none => "REG_NONE"
  | sz => "REG_SZ"
  | expandSz => "REG_EXPAND_SZ"
  | binary => "REG_BINARY"
  | dword => "REG_DWORD"
  | dwordBigEndian => "REG_DWORD_BIG_ENDIAN"
  | link => "REG_LINK"
  | multiSz => "REG_MULTI_SZ"
  | resourceList => "REG_RESOURCE_LIST"
  | fullResourceDescriptor => "REG_FULL_RESOURCE_DESCRIPTOR"
  | resourceRequirementsList => "REG_RESOURCE_REQUIREMENTS_LIST"
  | qword => "REG_QWORD"

/-- Whether values of the type hold one string. -/
def isString : ValueKind → Bool
  | sz | expandSz | link => true
  | _ => false

/-- Whether values of the type hold an integer. -/
def isInteger : ValueKind → Bool
  | dword | dwordBigEndian | qword => true
  | _ => false

end ValueKind

/-- A stored value: its type code and raw bytes. -/
structure ValueData where
  code : UInt32
  bytes : List UInt8
  deriving DecidableEq, Repr

namespace ValueData

/-- Raw bytes under a named type. -/
def ofKind (kind : ValueKind) (bytes : List UInt8) : ValueData :=
  ⟨kind.code, bytes⟩

/-- The type of a stored value, if its code has a name. -/
def kind? (data : ValueData) : Option ValueKind :=
  ValueKind.ofCode? data.code

end ValueData

end TransactionalRegistry
