import SmtCount.Power

/-!
# Spans of time

A span of time is a whole number of nanoseconds.  Its seconds are a word of 64 bits.

## Main definitions

* `Duration` — a span of time.
* `Duration.ofMillis` — so many milliseconds.
* `Duration.text` — a span in the largest unit that makes it one or more.
-/

namespace SmtCount

/-- A span of time, of less than `2 ^ 64` seconds. -/
structure Duration where
  nanos : Nat
  bounded : nanos < 2 ^ 64 * 10 ^ 9
  deriving DecidableEq, Repr

namespace Duration

/-- No time at all. -/
def zero : Duration := ⟨0, by decide⟩

theorem millis_bounded (millis : UInt64) : millis.toNat * 10 ^ 6 < 2 ^ 64 * 10 ^ 9 := by
  have hmillis : millis.toNat < 2 ^ 64 := millis.toNat_lt
  omega

/-- So many milliseconds. -/
def ofMillis (millis : UInt64) : Duration := ⟨millis.toNat * 10 ^ 6, millis_bounded millis⟩

/-! ### Texts -/

/-- The last `places` digits of a number, without zeros at the end. -/
def fraction (n places : Nat) : List Char :=
  -- the one in front keeps the zeros at the start
  let digits := (Nat.toDigits 10 (10 ^ places + n % 10 ^ places)).drop 1
  (digits.reverse.dropWhile (· == '0')).reverse

/-- `n / 10 ^ places`, with as many places as it takes. -/
def decimalText (n places : Nat) : String :=
  match fraction n places with
  | [] => (n / 10 ^ places).repr
  | digits => (n / 10 ^ places).repr ++ "." ++ String.ofList digits

/-- A span of time in the largest unit that makes it one or more, and in nanoseconds if none does. -/
def text (d : Duration) : String :=
  if 10 ^ 9 ≤ d.nanos then decimalText d.nanos 9 ++ "s"
  else if 10 ^ 6 ≤ d.nanos then decimalText d.nanos 6 ++ "ms"
  else if 10 ^ 3 ≤ d.nanos then decimalText d.nanos 3 ++ "µs"
  else decimalText d.nanos 0 ++ "ns"

end Duration

end SmtCount
