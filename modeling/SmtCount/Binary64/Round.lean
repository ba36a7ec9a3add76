import SmtCount.Binary64.Basic

/-!
# Rounding to binary64

The word nearest to a quotient of natural numbers, and with it division.  A quotient between two
words goes to the nearer one, one half-way between them to the word whose last bit is zero, and one
too large for any finite word to infinity.

## Main definitions

* `divNearest n d` — `n / d` as a whole number, ties to even.
* `Binary64.nearest n d` — the magnitude nearest to `n / d`.
* `Binary64.div` — IEEE division.
-/

namespace SmtCount

/-- The whole number nearest to `n / d`; a tie goes to the even one. -/
def divNearest (n d : Nat) : Nat :=
  let q := n / d
  let r := n % d
  if 2 * r < d ∨ (2 * r = d ∧ q % 2 = 0) then q else q + 1

theorem divNearest_mul_self {d : Nat} (h : 0 < d) (q : Nat) : divNearest (q * d) d = q := by
  simp [divNearest, Nat.mul_div_cancel _ h, h]

namespace Binary64

/-- The magnitude nearest to `n / d`.  In units the quotient has `log2 + 1` bits, and a word keeps 53
of them: the rest is the step that the quotient is rounded to.  A step of `2 ^ s` begins at the
magnitude `s * 2 ^ 52`, and a carry out of the 53 bits leads to the next exponent by itself. -/
def nearest (n d : Nat) : Nat :=
  -- the quotient in units is `u / d`; whole units below `2 ^ 53` are exact already
  let u := n * unitsPerOne
  let s := (u / d).log2 - 52
  min infinityMagnitude (s * 2 ^ 52 + divNearest u (d * 2 ^ s))

/-- Division.  A NaN, a quotient of infinities and a quotient of zeros give a NaN.  Every other quotient has one
word only, but any NaN may stand for these: that it is `nan` is a choice. -/
def div (x y : Binary64) : Binary64 :=
  if x.isNaN || y.isNaN || (x.isInfinite && y.isInfinite) || (x.isZero && y.isZero) then nan
  else
    ofMagnitude (x.isNegative != y.isNegative)
      (if x.isInfinite || y.isZero then infinityMagnitude
        else if y.isInfinite then 0
        else nearest x.units y.units)

end Binary64

end SmtCount
