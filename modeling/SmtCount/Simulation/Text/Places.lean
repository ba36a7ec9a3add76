import SmtCount.Binary64.Decimal
import SmtCount.Simulation.Text.Numeral

/-!
# Numbers with a given number of places

The decimal text of a binary64 number with as many places as one asks for.  The value is rounded
exactly; a tie goes to the even digit.

## Main definitions

* `fixedText` — without an exponent.
* `scientificText` — with an exponent.
* `generalText` — whichever of the two is shorter, without zeros at the end.
* `readFront` — reads a number at the front of a text.
-/

namespace SmtCount.Simulation.Text

open Binary64 (unitsPerOne nearest ofMagnitude readMagnitude?)

/-- A whole number of `10 ^ -places` as digits with a point; without places, the point is left out
unless it is asked for. -/
def withPoint (point : Bool) (coefficient places : Nat) : List Char :=
  let digits := Nat.toDigits 10 coefficient
  let digits := List.replicate (places + 1 - digits.length) '0' ++ digits
  let whole := digits.length - places
  if places = 0 then digits ++ (if point then ['.'] else [])
  else digits.take whole ++ '.' :: digits.drop whole

/-- The digits of a value without an exponent. -/
def fixedText (x : Binary64) (point : Bool) (places : Nat) : List Char :=
  withPoint point (divNearest (x.units * 10 ^ places) unitsPerOne) places

/-- The exponent `e` for which `10 ^ e ≤ n / d < 10 ^ (e + 1)`, for `n` that is not zero. -/
def decimalExponent (n d : Nat) : Int :=
  if d ≤ n then ((Nat.toDigits 10 (n / d)).length : Int) - 1
  else
    -- `d / n` rounded up has as many digits as there are places up to the first that is not zero
    -((Nat.toDigits 10 ((d - 1) / n)).length : Int)

/-- The value rounded to `places + 1` digits, and the exponent of the first of them. -/
def significant (x : Binary64) (places : Nat) : Nat × Int :=
  if x.isZero then (0, 0)
  else
    let e := decimalExponent x.units unitsPerOne
    let shift := (places : Int) - e
    let c := divNearest (x.units * 10 ^ shift.toNat) (unitsPerOne * 10 ^ (-shift).toNat)
    -- rounding up may lead to one digit more, which is then followed by zeros
    if c = 10 ^ (places + 1) then (10 ^ places, e + 1) else (c, e)

/-- An exponent with its sign and two digits at least. -/
def exponentText (e : Int) : List Char :=
  let digits := Nat.toDigits 10 e.natAbs
  (if e < 0 then '-' else '+') :: (if digits.length < 2 then '0' :: digits else digits)

/-- The digits of a value with an exponent. -/
def scientificText (x : Binary64) (point : Bool) (places : Nat) : List Char :=
  let (c, e) := significant x places
  withPoint point c places ++ 'e' :: exponentText e

/-- Digits without the zeros after the point. -/
def dropZeros (cs : List Char) : List Char :=
  if cs.contains '.' then
    ((cs.reverse.dropWhile (· == '0')).dropWhile (· == '.')).reverse
  else cs

/-- The digits of a value, `digits` of them, with an exponent only if it is small or large. -/
def generalText (x : Binary64) (keepZeros : Bool) (digits : Nat) : List Char :=
  let digits := max digits 1
  let (c, e) := significant x (digits - 1)
  let trim (cs : List Char) := if keepZeros then cs else dropZeros cs
  if e < -4 ∨ (digits : Int) ≤ e then
    trim (withPoint keepZeros c (digits - 1)) ++ 'e' :: exponentText e
  else trim (fixedText x keepZeros ((digits : Int) - 1 - e).toNat)

/-! ### Reading -/

/-- How many characters at the front of a text are a number without a sign. -/
def frontLength (cs : List Char) : Nat :=
  let lower := (cs.take 8).map Char.toLower
  if "infinity".toList.isPrefixOf lower then 8
  else if "inf".toList.isPrefixOf lower || "nan".toList.isPrefixOf lower then 3
  else
    let whole := (cs.takeWhile Char.isDigit).length
    let places := match cs.drop whole with
      | '.' :: rest => (rest.takeWhile Char.isDigit).length
      | _ => 0
    if whole = 0 ∧ places = 0 then 0
    else
      let point := if (cs.drop whole).head? = some '.' then 1 else 0
      let mantissa := whole + point + places
      match cs.drop mantissa with
      | c :: rest =>
        if c = 'e' ∨ c = 'E' then
          let sign := match rest with
            | '-' :: _ | '+' :: _ => 1
            | _ => 0
          let digits := ((rest.drop sign).takeWhile Char.isDigit).length
          if digits = 0 then mantissa else mantissa + 1 + sign + digits
        else mantissa
      | [] => mantissa

/-- Reads a number of hexadecimal digits and a power of two after its mark: its magnitude, and what comes
after it. -/
def readHexadecimal? : List Char → Option (Nat × List Char)
  | '0' :: x :: digits =>
    let isDigit (c : Char) : Bool := (digitIn? 16 c).isSome
    let whole := digits.takeWhile isDigit
    let afterWhole := digits.drop whole.length
    let places := match afterWhole with
      | '.' :: rest => rest.takeWhile isDigit
      | _ => []
    if (x ≠ 'x' ∧ x ≠ 'X') ∨ (whole ++ places).isEmpty then none
    else
      let rest := if afterWhole.head? = some '.' then afterWhole.drop (places.length + 1) else afterWhole
      let (exponent, rest) : Int × List Char := match rest with
        | p :: more =>
          let n := Numeral.read (some 10) more
          if (p = 'p' ∨ p = 'P') ∧ n.found ∧ !(more.head?.any isGap) then
            (max (-5000) (min 5000 n.value), n.rest)
          else (0, rest)
        | [] => (0, [])
      let m := (digitsIn 16 0 (whole ++ places)).1
      let power := exponent - 4 * places.length
      some (nearest (m * 2 ^ power.toNat) (2 ^ (-power).toNat), rest)
  | _ => none

/-- Reads a number at the front of a text, after blanks and a sign; gives what comes after it, or the
whole text if there is no number. -/
def readFront (cs : List Char) : Binary64 × List Char :=
  let text := cs.dropWhile fun c => c == ' ' || (9 ≤ c.toNat && c.toNat ≤ 13)
  let (negative, digits) := match text with
    | '-' :: rest => (true, rest)
    | '+' :: rest => (false, rest)
    | text => (false, text)
  match readHexadecimal? digits with
  | some (m, rest) => (ofMagnitude negative m, rest)
  | none =>
    let n := frontLength digits
    match (if n = 0 then none else readMagnitude? (digits.take n)) with
    | some m => (ofMagnitude negative m, digits.drop n)
    | none => (ofMagnitude false 0, cs)

end SmtCount.Simulation.Text
