/-!
# UTF-16

Strings are stored as UTF-16 code units and their lengths are reported in code units. A character
below `U+10000` is one unit, its own number; any other is a high surrogate followed by a low one.

`decode` is strict: a surrogate that is not half of a pair makes the whole sequence unreadable.

## Main definitions

* `Utf16.unitsOf`: The code units of a character.
* `Utf16.encode`: The code units of a text.
* `Utf16.length`: How many code units a text has.
* `Utf16.decode`: The text that a sequence of code units spells, if there is one.
-/

namespace TransactionalRegistry

namespace Utf16

/-- The code units of a character. -/
def unitsOf (c : Char) : List UInt16 :=
  if c.toNat < 0x10000 then [UInt16.ofNat c.toNat]
  else
    [UInt16.ofNat (0xD800 + (c.toNat - 0x10000) / 0x400),
     UInt16.ofNat (0xDC00 + (c.toNat - 0x10000) % 0x400)]

/-- The code units of a list of characters. -/
def encodeChars (cs : List Char) : List UInt16 :=
  cs.flatMap unitsOf

/-- The code units of a text. -/
def encode (text : String) : List UInt16 :=
  encodeChars text.toList

/-- The length of a text in code units. -/
def length (text : String) : Nat :=
  (encode text).length

/-- Whether a unit is the first half of a pair. -/
def isHigh (u : UInt16) : Bool :=
  0xD800 ≤ u && u < 0xDC00

/-- Whether a unit is the second half of a pair. -/
def isLow (u : UInt16) : Bool :=
  0xDC00 ≤ u && u < 0xE000

/-- The character that a pair of surrogates stands for. -/
def pairChar (high low : UInt16) : Char :=
  Char.ofNat (0x10000 + (high.toNat - 0xD800) * 0x400 + (low.toNat - 0xDC00))

/-- The characters that a sequence of code units spells; `none` if a surrogate stands alone. -/
def decodeChars : List UInt16 → Option (List Char)
  | [] => some []
  | u :: rest =>
    if isHigh u then
      match rest with
      | [] => none
      | v :: rest => if isLow v then (decodeChars rest).map (pairChar u v :: ·) else none
    else if isLow u then none
    else (decodeChars rest).map (Char.ofNat u.toNat :: ·)

/-- The text that a sequence of code units spells; `none` if a surrogate stands alone. -/
def decode (units : List UInt16) : Option String :=
  (decodeChars units).map String.ofList

end Utf16

end TransactionalRegistry
