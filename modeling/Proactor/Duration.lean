/-!
# Durations

Spans of time in whole nanoseconds, with the short text that names them in the largest fitting
unit, as a decimal fraction without trailing zeros.
-/

namespace Proactor

/-- A span of time. -/
structure Duration where
  nanoseconds : Nat
  deriving DecidableEq, Repr, Inhabited

namespace Duration

def zero : Duration := ⟨0⟩

def ofMilliseconds (n : Nat) : Duration := ⟨n * 1000000⟩

/-- Whole seconds and the nanoseconds beyond them. -/
def ofSeconds (seconds nanoseconds : Nat) : Duration := ⟨seconds * 1000000000 + nanoseconds⟩

/-- Whole seconds. -/
def seconds (d : Duration) : Nat := d.nanoseconds / 1000000000

/-- Nanoseconds beyond the whole seconds. -/
def fraction (d : Duration) : Nat := d.nanoseconds % 1000000000

def isZero (d : Duration) : Bool := d.nanoseconds == 0

/-- The digits of `n` in `width` places, without the zeros at their end. -/
def fractionDigits (width n : Nat) : List Char :=
  let digits := Nat.toDigits 10 n
  let padded := List.replicate (width - digits.length) '0' ++ digits
  (padded.reverse.dropWhile (· == '0')).reverse

/-- `n` over `10 ^ places` as a decimal fraction. -/
def decimalText (places n : Nat) : String :=
  let digits := fractionDigits places (n % Nat.pow 10 places)
  let whole := (n / Nat.pow 10 places).repr
  if digits.isEmpty then whole else whole ++ "." ++ String.ofList digits

/-- The text of a span: in seconds from one second on, else in milliseconds from one on, else
in microseconds from one on, else in nanoseconds. -/
def text (d : Duration) : String :=
  let n := d.nanoseconds
  if 1000000000 ≤ n then decimalText 9 n ++ "s"
  else if 1000000 ≤ n then decimalText 6 n ++ "ms"
  else if 1000 ≤ n then decimalText 3 n ++ "µs"
  else n.repr ++ "ns"

end Duration

end Proactor
