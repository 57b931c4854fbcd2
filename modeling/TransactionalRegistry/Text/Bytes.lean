/-!
# Numbers and code units as bytes

A number of a fixed width is stored as its bytes, least significant first (little-endian) or most
significant first (big-endian). A sequence of UTF-16 code units is stored as the little-endian bytes
of each unit in turn.

## Main definitions

* `Bytes.littleEndian`: The bytes of a number, least significant first.
* `Bytes.bigEndian`: The bytes of a number, most significant first.
* `Bytes.ofLittleEndian`, `Bytes.ofBigEndian`: The number that bytes spell in either order.
* `Bytes.ofUnits`: The bytes of a sequence of code units.
* `Bytes.toUnits?`: The code units that bytes hold, if their number is even.
-/

namespace TransactionalRegistry

namespace Bytes

/-- The `width` low bytes of a number, least significant first. -/
def littleEndian : (width : Nat) → Nat → List UInt8
  | 0, _ => []
  | width + 1, n => UInt8.ofNat n :: littleEndian width (n / 256)

/-- The `width` low bytes of a number, most significant first. -/
def bigEndian (width n : Nat) : List UInt8 :=
  (littleEndian width n).reverse

/-- The number that bytes spell, least significant first. -/
def ofLittleEndian : List UInt8 → Nat
  | [] => 0
  | b :: rest => b.toNat + 256 * ofLittleEndian rest

/-- The number that bytes spell, most significant first. -/
def ofBigEndian (bytes : List UInt8) : Nat :=
  ofLittleEndian bytes.reverse

/-- The bytes of a sequence of code units. -/
def ofUnits (units : List UInt16) : List UInt8 :=
  units.flatMap fun u => littleEndian 2 u.toNat

/-- The code units that bytes hold; `none` if one byte is left over. -/
def toUnits? : List UInt8 → Option (List UInt16)
  | [] => some []
  | [_] => none
  | a :: b :: rest => (toUnits? rest).map (UInt16.ofNat (ofLittleEndian [a, b]) :: ·)

end Bytes

end TransactionalRegistry
