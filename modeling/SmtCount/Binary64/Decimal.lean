import SmtCount.Binary64.Round
import SmtCount.Text.Integer

/-!
# Decimal numbers and binary64

Decimal numbers, their text, and the two ways between them and binary64 words: the word nearest to a
decimal number, and the shortest decimal number that is nearest to a word.

## Main definitions

* `Decimal` — a coefficient and a power of ten.
* `Decimal.read?` — digits with an optional point and an optional exponent.
* `Decimal.magnitude` — the magnitude nearest to a decimal number.
* `Decimal.shortest m` — of the decimal numbers whose nearest magnitude is `m`, one with the fewest
  places.
* `Decimal.positional` — the text without an exponent.
-/

namespace SmtCount

/-- The number `coefficient * 10 ^ exponent`. -/
structure Decimal where
  coefficient : Nat
  exponent : Int
  deriving DecidableEq, Repr

namespace Decimal

/-! ### Reading -/

/-- The number that decimal digits stand for. -/
def ofDigits (cs : List Char) : Nat :=
  Nat.ofDigitChars 10 cs 0

/-- Reads one digit or more, and nothing else. -/
def readDigits? (cs : List Char) : Option Nat :=
  if !cs.isEmpty && cs.all Char.isDigit then some (ofDigits cs) else none

/-- Reads what follows the digits of a number: nothing, or an exponent. -/
def readExponent? : List Char → Option Int
  | [] => some 0
  | c :: cs =>
    if c = 'e' ∨ c = 'E' then
      match cs with
      | '-' :: ds => (readDigits? ds).map fun n => -n
      | '+' :: ds => (readDigits? ds).map Int.ofNat
      | ds => (readDigits? ds).map Int.ofNat
    else none

/-- What stands after a point, if there is a point: the digits and what follows them. -/
def splitFraction : List Char → List Char × List Char
  | '.' :: cs => (cs.takeWhile Char.isDigit, cs.dropWhile Char.isDigit)
  | cs => ([], cs)

/-- Reads an unsigned decimal number: digits with a point before, among or after them or none at
all, then an optional exponent.  At least one digit comes before the exponent. -/
def read? (cs : List Char) : Option Decimal :=
  let whole := cs.takeWhile Char.isDigit
  let (fraction, rest) := splitFraction (cs.dropWhile Char.isDigit)
  if whole.isEmpty && fraction.isEmpty then none
  else
    (readExponent? rest).map fun e => ⟨ofDigits (whole ++ fraction), e - fraction.length⟩

/-! ### The nearest word -/

/-- The magnitude nearest to a decimal number.  Powers of ten that lead past infinity or below half
of the least positive value are not computed. -/
def magnitude (x : Decimal) : Nat :=
  if x.coefficient = 0 then 0
  else
    match x.exponent with
    | .ofNat k =>
      if 310 < k then Binary64.infinityMagnitude else Binary64.nearest (x.coefficient * 10 ^ k) 1
    | .negSucc k =>
      if x.coefficient.log2 + 327 < k + 1 then 0 else Binary64.nearest x.coefficient (10 ^ (k + 1))

/-! ### The shortest decimal -/

/-- The decimal number with `places` places that is nearest to the magnitude `m`, if it reads back.
Of the two neighbours of `m` among these numbers either may read back alone; a tie goes up. -/
def candidate? (m places : Nat) : Option Decimal :=
  -- the value is `scaled / unitsPerOne` of the last place
  let scaled := Binary64.unitsOf m * 10 ^ places
  let low : Decimal := ⟨scaled / Binary64.unitsPerOne, -places⟩
  let high : Decimal := ⟨scaled / Binary64.unitsPerOne + 1, -places⟩
  let lowFits := low.magnitude == m
  let highFits := high.magnitude == m
  if lowFits && (!highFits || 2 * (scaled % Binary64.unitsPerOne) < Binary64.unitsPerOne) then
    some low
  else if highFits then some high
  else none

/-- Tries `places` places and, as long as nothing reads back, more of them, at most `fuel` times.
With 1074 places every finite value is a decimal number itself. -/
def searchFrom (m : Nat) : Nat → Nat → Decimal
  | 0, _ => ⟨Binary64.unitsOf m * 10 ^ 1074 / Binary64.unitsPerOne, -1074⟩
  | fuel + 1, places => (candidate? m places).getD (searchFrom m fuel (places + 1))

/-- The nearest decimal number with the fewest places, one at least, whose nearest magnitude is `m`.-/
def shortest (m : Nat) : Decimal :=
  searchFrom m 1073 1

/-! ### Text -/

/-- `n` in exactly `places` digits. -/
def padded (places n : Nat) : List Char :=
  (Nat.toDigits 10 (10 ^ places + n)).drop 1

/-- The digits of `coefficient / 10 ^ places`, with a point. -/
def positional (coefficient places : Nat) : List Char :=
  Nat.toDigits 10 (coefficient / 10 ^ places) ++
    '.' :: padded places (coefficient % 10 ^ places)

end Decimal

namespace Binary64

/-- The text of the absolute value of a word: never an exponent, a point and at least one place when
it is finite, and no more places than it takes to read the same word back. -/
def magnitudeText (x : Binary64) : List Char :=
  if x.isNaN then "NaN".toList
  else if x.isInfinite then "inf".toList
  else if x.isWhole then Decimal.positional (x.units / unitsPerOne * 10) 1
  else
    let d := Decimal.shortest x.magnitude
    Decimal.positional d.coefficient d.exponent.natAbs

/-- The words that stand for an infinity or a NaN, without regard to case. -/
def readWord? (cs : List Char) : Option Nat :=
  let w := cs.map Char.toLower
  if w = "inf".toList || w = "infinity".toList then some infinityMagnitude
  else if w = "nan".toList then some nanMagnitude
  else none

/-- Reads a number without a sign. -/
def readMagnitude? (cs : List Char) : Option Nat :=
  (readWord? cs).or ((Decimal.read? cs).map Decimal.magnitude)

/-- Reads a number with an optional sign. -/
def read? : List Char → Option Binary64
  | '-' :: cs => (readMagnitude? cs).map (ofMagnitude true)
  | '+' :: cs => (readMagnitude? cs).map (ofMagnitude false)
  | cs => (readMagnitude? cs).map (ofMagnitude false)

end Binary64

end SmtCount
