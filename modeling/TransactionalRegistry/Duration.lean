import TransactionalRegistry.Text.Numeral

/-!
# Durations

A duration is a number of whole seconds and a number of nanoseconds below one second. Its diagnostic
text uses the largest of seconds, milliseconds, microseconds and nanoseconds that gives a whole
part, and as many places as are needed.

A timeout is handed to the store in whole milliseconds. Zero stands for no timeout, and the largest
32-bit number is set apart for an unlimited one, so a timeout is rounded up, and one that does not
stay below that number is refused.

## Main definitions

* `Duration`: A length of time.
* `Duration.totalNanos`: A duration in nanoseconds.
* `Duration.text`: A duration as diagnostic text.
* `Duration.wholeMillis?`: A timeout in whole milliseconds, rounded up.
-/

namespace TransactionalRegistry

/-- A length of time. -/
structure Duration where
  secs : UInt64
  nanos : Fin 1000000000
  deriving DecidableEq, Repr

namespace Duration

/-- No time at all. -/
def zero : Duration := ⟨0, 0⟩

/-- A duration in nanoseconds. -/
def totalNanos (d : Duration) : Nat :=
  d.secs.toNat * 1000000000 + d.nanos.val

/-- The decimal places of `fraction / 10 ^ places`, without zeros at the end. -/
def places (fraction places : Nat) : List Char :=
  let digits := Nat.toDigits 10 fraction
  ((List.replicate (places - digits.length) '0' ++ digits).reverse.dropWhile (· = '0')).reverse

/-- A whole part and a fraction of `width` places, followed by a unit. -/
def decimalText (whole fraction width : Nat) (unit : String) : String :=
  match places fraction width with
  | [] => Text.decimal whole ++ unit
  | digits => Text.decimal whole ++ "." ++ String.ofList digits ++ unit

/-- A duration as diagnostic text. -/
def text (d : Duration) : String :=
  let nanos := d.nanos.val
  if 0 < d.secs then decimalText d.secs.toNat nanos 9 "s"
  else if 1000000 ≤ nanos then decimalText (nanos / 1000000) (nanos % 1000000) 6 "ms"
  else if 1000 ≤ nanos then decimalText (nanos / 1000) (nanos % 1000) 3 "µs"
  else decimalText nanos 0 1 "ns"

/-- A timeout in whole milliseconds, rounded up; `none` if it does not stay below the number that
    stands for an unlimited timeout. -/
def wholeMillis? (d : Duration) : Option UInt32 :=
  let millis := (d.totalNanos + 999999) / 1000000
  if millis < 0xFFFFFFFF then some (UInt32.ofNat millis) else none

end Duration

end TransactionalRegistry
