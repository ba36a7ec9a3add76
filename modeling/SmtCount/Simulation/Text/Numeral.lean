import SmtCount.Power
import SmtCount.Simulation.Text.Bytes

/-!
# Numerals

Integers as programs read them from their arguments: blanks, a sign, and as many digits as come.  The
digits may say their base, with a leading zero for eight and `0x` for sixteen.

## Main definitions

* `Numeral` — what has been read, and what comes after.
* `Numeral.read` — reads a numeral.
* `wrap64` — a number in a signed word of 64 bits.
-/

namespace SmtCount.Simulation.Text

/-- A number in a signed word of 64 bits, counted modulo `2 ^ 64`. -/
def wrap64 (n : Int) : Int := Int.bmod n (2 ^ 64)

/-- Is this a blank of a numeral? -/
def isGap (c : Char) : Bool :=
  c == ' ' || (9 ≤ c.toNat && c.toNat ≤ 13)

/-- The value of a digit in any base up to 36. -/
def digitIn? (base : Nat) (c : Char) : Option Nat :=
  let d :=
    if c.isDigit then c.toNat - '0'.toNat
    else if 'a' ≤ c ∧ c ≤ 'z' then c.toNat - 'a'.toNat + 10
    else if 'A' ≤ c ∧ c ≤ 'Z' then c.toNat - 'A'.toNat + 10
    else base
  if d < base then some d else none

/-- Reads digits that continue the number `n`. -/
def digitsIn (base : Nat) : Nat → Bytes → Nat × Bytes
  | n, [] => (n, [])
  | n, c :: cs =>
    match digitIn? base c with
    | some d => digitsIn base (base * n + d) cs
    | none => (n, c :: cs)

/-- What has been read of a text. -/
structure Numeral where
  negative : Bool := false
  /-- The value without its sign. -/
  magnitude : Nat := 0
  /-- What comes after the digits; the whole text if there are none. -/
  rest : Bytes
  /-- Are there digits? -/
  found : Bool

namespace Numeral

/-- The base that digits have, and where they begin. -/
def baseOf : Bytes → Nat × Bytes
  | '0' :: x :: d :: rest =>
    if (x == 'x' || x == 'X') && (digitIn? 16 d).isSome then (16, d :: rest) else (8, '0' :: x :: d :: rest)
  | '0' :: rest => (8, '0' :: rest)
  | cs => (10, cs)

/-- Reads a numeral; without a base, the digits say it themselves. -/
def read (base : Option Nat) (cs : Bytes) : Numeral :=
  let text := cs.dropWhile isGap
  let (negative, digits) := match text with
    | '-' :: rest => (true, rest)
    | '+' :: rest => (false, rest)
    | text => (false, text)
  let (base, digits) := match base with
    | some base => (base, digits)
    | none => baseOf digits
  match digits with
  | [] => { rest := cs, found := false }
  | c :: _ =>
    if (digitIn? base c).isNone then { rest := cs, found := false }
    else
      let (magnitude, rest) := digitsIn base 0 digits
      { negative, magnitude, rest, found := true }

/-- The value. -/
def value (n : Numeral) : Int :=
  if n.negative then -(n.magnitude : Int) else n.magnitude

/-- The value in a signed word of 64 bits, or the end of the range that lies nearest. -/
def signed (n : Numeral) : Int :=
  max (-2 ^ 63) (min (2 ^ 63 - 1) n.value)

/-- Does a signed word of 64 bits hold the value? -/
def isBeyond (n : Numeral) : Bool := n.signed ≠ n.value

/-- The integer that a whole text is, perhaps with blanks around it. -/
def integer? (base : Option Nat) (cs : Bytes) : Option Int :=
  let n := read base cs
  if n.isBeyond || !n.rest.all isGap then none
  else if n.found then some n.value
  else if base.isNone && cs.all isGap then some 0
  else none

end Numeral

end SmtCount.Simulation.Text
