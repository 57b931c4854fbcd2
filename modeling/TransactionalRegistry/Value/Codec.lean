import TransactionalRegistry.Text.Bytes
import TransactionalRegistry.Text.Numeral
import TransactionalRegistry.Text.Utf16
import TransactionalRegistry.Value.Basic

/-!
# Values as bytes

A string is stored as little-endian UTF-16 code units with a zero unit at its end, a list of strings
as its strings stored one after the other with one more zero unit at the end, a number as the bytes
of its fixed width.

Writing refuses what could not be read back: a zero inside a string, which would end it early, and
an empty string in a list, which would end the list. Reading is generous: the zero units at the end
may be missing, and what follows them is passed over.

## Main definitions

* `ValueError`: Why a value cannot be written or read.
* `Value.encode`: The stored form of a value.
* `Value.decode`: The value of a stored form.
* `splitAtZero`: The entries between zero units.
-/

namespace TransactionalRegistry

/-- Why a value cannot be written or read. -/
inductive ValueError where
  | interiorNul
  | emptyMultiStringEntry
  | wrongLength (kind : ValueKind) (expected actual : Nat)
  | oddLength (length : Nat)
  | invalidUtf16
  | unsupportedType (code : UInt32)
  deriving DecidableEq, Repr

/-- The text of a failure to write or read a value. -/
def ValueError.message : ValueError → String
  | interiorNul => "string contains an interior NUL"
  | emptyMultiStringEntry => "multi-string entries must not be empty"
  | wrongLength kind expected actual =>
    kind.name ++ " data must be " ++ Text.decimal expected ++ " bytes, got " ++ Text.decimal actual
  | oddLength length => "string data has an odd length of " ++ Text.decimal length ++ " bytes"
  | invalidUtf16 => "string data is not valid UTF-16"
  | unsupportedType code => "unsupported value type " ++ Text.decimal code.toNat

namespace Value

/-! ## Writing -/

/-- The code units of a string with the zero unit at its end, unless a zero stands inside. -/
def terminated (text : String) : Except ValueError (List UInt16) :=
  if 0 ∈ Utf16.encode text then .error .interiorNul else .ok (Utf16.encode text ++ [0])

/-- The code units of the strings of a list, each with the zero unit at its end. The first string
    that is empty or holds a zero is refused. -/
def terminatedAll : List String → Except ValueError (List UInt16)
  | [] => .ok []
  | text :: rest => do
    if text.isEmpty then throw .emptyMultiStringEntry
    let units ← terminated text
    let more ← terminatedAll rest
    return units ++ more

/-- The raw bytes of a value. -/
def bytes : Value → Except ValueError (List UInt8)
  | none => .ok []
  | string text | expandString text => return Bytes.ofUnits (← terminated text)
  | binary bytes => .ok bytes
  | dword n => .ok (Bytes.littleEndian 4 n.toNat)
  | dwordBigEndian n => .ok (Bytes.bigEndian 4 n.toNat)
  | multiString texts => return Bytes.ofUnits ((← terminatedAll texts) ++ [0])
  | qword n => .ok (Bytes.littleEndian 8 n.toNat)

/-- The stored form of a value. -/
def encode (value : Value) : Except ValueError ValueData :=
  value.bytes.map (ValueData.ofKind value.kind)

/-! ## Reading -/

/-- The entries that zero units set apart: one more than there are zero units. -/
def splitAtZero : List UInt16 → List (List UInt16)
  | [] => [[]]
  | u :: rest =>
    if u = 0 then [] :: splitAtZero rest
    else
      match splitAtZero rest with
      | [] => [[u]]
      | entry :: entries => (u :: entry) :: entries

/-- The code units that bytes hold. -/
def units (bytes : List UInt8) : Except ValueError (List UInt16) :=
  match Bytes.toUnits? bytes with
  | some units => .ok units
  | Option.none => .error (.oddLength bytes.length)

/-- The text that code units spell. -/
def textOf (units : List UInt16) : Except ValueError String :=
  match Utf16.decode units with
  | some text => .ok text
  | Option.none => .error .invalidUtf16

/-- The string that bytes hold: the code units up to the first zero. -/
def readString (bytes : List UInt8) : Except ValueError String := do
  textOf ((← units bytes).takeWhile (· ≠ 0))

/-- The strings that bytes hold: the entries up to the first empty one. -/
def readStrings (bytes : List UInt8) : Except ValueError (List String) := do
  ((splitAtZero (← units bytes)).takeWhile (· ≠ [])).mapM textOf

/-- The number that bytes of the given width spell under `order`. -/
def readNumber (kind : ValueKind) (width : Nat) (order : List UInt8 → Nat) (bytes : List UInt8) :
    Except ValueError Nat :=
  if bytes.length = width then .ok (order bytes)
  else .error (.wrongLength kind width bytes.length)

/-- The value of raw bytes under a named type. -/
def ofBytes (kind : ValueKind) (bytes : List UInt8) : Except ValueError Value :=
  match kind with
  | .none => .ok none
  | .sz => string <$> readString bytes
  | .expandSz => expandString <$> readString bytes
  | .binary => .ok (binary bytes)
  | .dword => return dword (.ofNat (← readNumber kind 4 Bytes.ofLittleEndian bytes))
  | .dwordBigEndian => return dwordBigEndian (.ofNat (← readNumber kind 4 Bytes.ofBigEndian bytes))
  | .multiSz => multiString <$> readStrings bytes
  | .qword => return qword (.ofNat (← readNumber kind 8 Bytes.ofLittleEndian bytes))
  | .link | .resourceList | .fullResourceDescriptor | .resourceRequirementsList =>
    .error (.unsupportedType kind.code)

/-- The value of a stored form. -/
def decode (data : ValueData) : Except ValueError Value :=
  match data.kind? with
  | some kind => ofBytes kind data.bytes
  | Option.none => .error (.unsupportedType data.code)

end Value

end TransactionalRegistry
