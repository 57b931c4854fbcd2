/-!
# Numerals

How numbers are written out: in decimal, and in hexadecimal with the mark `0x` in front, lower-case
and without leading zeros.

## Main definitions

* `Text.decimal`: A number in decimal digits.
* `Text.hexDigits`: A number in hexadecimal digits.
* `Text.hexadecimal`: A number in hexadecimal digits behind the mark `0x`.
-/

namespace TransactionalRegistry

namespace Text

/-- A number in decimal digits. -/
def decimal (n : Nat) : String :=
  String.ofList (Nat.toDigits 10 n)

/-- A number in lower-case hexadecimal digits. -/
def hexDigits (n : Nat) : String :=
  String.ofList (Nat.toDigits 16 n)

/-- A number in lower-case hexadecimal digits behind the mark `0x`. -/
def hexadecimal (n : Nat) : String :=
  "0x" ++ hexDigits n

/-- An integer in decimal digits, with a minus sign if it is negative. -/
def signedDecimal (n : Int) : String :=
  if n < 0 then "-" ++ decimal n.natAbs else decimal n.natAbs

end Text

end TransactionalRegistry
