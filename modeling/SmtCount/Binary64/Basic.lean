import SmtCount.Power

/-!
# Binary floating point, 64 bits

The real constants of a formula are words of the IEEE 754 format binary64, and two constants are the
same constant when their words are: a NaN equals itself, and the two zeros differ.  So a value is
kept as its word, and what the format says about it is read off the fields.

The word without its sign is the *magnitude*.  Magnitudes are ordered as the values they stand for:
zero, the finite ones, infinity, and the NaNs above.  Every finite value is a whole number of *units*
of `2 ^ -1074`, the least positive value, so that exact arithmetic needs natural numbers only.

## Main definitions

* `Binary64` — a word.
* `Binary64.magnitude`, `Binary64.isNegative` — the fields.
* `Binary64.units` — the absolute value of a finite word, in units.
* `Binary64.neg`, `Binary64.ofMagnitude` — change the sign, put a word together.
-/

namespace SmtCount

/-- A word of the format binary64.  Equality is equality of the words. -/
structure Binary64 where
  /-- Sign, exponent and fraction, from the highest bit down. -/
  bits : UInt64
  deriving DecidableEq, Hashable, Repr, Inhabited

namespace Binary64

/-- The magnitude of the infinities: every exponent bit, and no fraction. -/
def infinityMagnitude : Nat := 2047 * 2 ^ 52

/-- The magnitude of `nan`. -/
def nanMagnitude : Nat := 4095 * 2 ^ 51

/-- The number of units in one. -/
def unitsPerOne : Nat := 2 ^ 1074

/-- The word with a sign and a magnitude below `2 ^ 63`. -/
def ofMagnitude (negative : Bool) (m : Nat) : Binary64 :=
  ⟨UInt64.ofNat (if negative then 2 ^ 63 + m else m)⟩

/-- The NaN that arithmetic gives.  The format leaves open which NaN that is, its sign and its fraction; this is
one of the words that it may be. -/
def nan : Binary64 := ofMagnitude false nanMagnitude

/-- The sign bit. -/
def isNegative (x : Binary64) : Bool :=
  2 ^ 63 ≤ x.bits.toNat

/-- The word without its sign. -/
def magnitude (x : Binary64) : Nat :=
  x.bits.toNat % 2 ^ 63

/-- The same magnitude with the other sign. -/
def neg (x : Binary64) : Binary64 :=
  ofMagnitude (!x.isNegative) x.magnitude

def isNaN (x : Binary64) : Bool :=
  infinityMagnitude < x.magnitude

def isInfinite (x : Binary64) : Bool :=
  x.magnitude == infinityMagnitude

def isFinite (x : Binary64) : Bool :=
  x.magnitude < infinityMagnitude

def isZero (x : Binary64) : Bool :=
  x.magnitude == 0

/-- Does the value lie below zero?  Negative zero and the NaNs do not. -/
def belowZero (x : Binary64) : Bool :=
  x.isNegative && !x.isZero && !x.isNaN

/-- The units that a finite magnitude stands for.  Up to the second exponent magnitude and units are
the same number; from there on each exponent doubles the step. -/
def unitsOf (m : Nat) : Nat :=
  if m < 2 ^ 53 then m else (2 ^ 52 + m % 2 ^ 52) * 2 ^ (m / 2 ^ 52 - 1)

/-- The absolute value of a finite word, in units. -/
def units (x : Binary64) : Nat :=
  unitsOf x.magnitude

/-- Is the value a whole number? -/
def isWhole (x : Binary64) : Bool :=
  x.isFinite && x.units % unitsPerOne == 0

/-! ### The fields of a word -/

theorem toNat_ofMagnitude {negative : Bool} {m : Nat} (h : m < 2 ^ 63) :
    (ofMagnitude negative m).bits.toNat = if negative then 2 ^ 63 + m else m := by
  have h64 : (if negative then 2 ^ 63 + m else m) < 2 ^ 64 := by
    split <;> omega
  simp only [ofMagnitude, UInt64.toNat_ofNat']
  exact Nat.mod_eq_of_lt h64

@[simp] theorem isNegative_ofMagnitude {negative : Bool} {m : Nat} (h : m < 2 ^ 63) :
    (ofMagnitude negative m).isNegative = negative := by
  rw [isNegative, toNat_ofMagnitude h]
  cases negative with
  | false => exact decide_eq_false (Nat.not_le_of_lt h)
  | true => exact decide_eq_true (Nat.le_add_right _ m)

@[simp] theorem magnitude_ofMagnitude {negative : Bool} {m : Nat} (h : m < 2 ^ 63) :
    (ofMagnitude negative m).magnitude = m := by
  rw [magnitude, toNat_ofMagnitude h]
  cases negative with
  | false => exact Nat.mod_eq_of_lt h
  | true => exact (Nat.add_mod_left _ m).trans (Nat.mod_eq_of_lt h)

theorem magnitude_lt (x : Binary64) : x.magnitude < 2 ^ 63 :=
  Nat.mod_lt _ (by decide)

/-- A word is its sign and its magnitude. -/
@[simp] theorem ofMagnitude_magnitude (x : Binary64) :
    ofMagnitude x.isNegative x.magnitude = x := by
  obtain ⟨b⟩ := x
  have hb : b.toNat < 2 ^ 64 := b.toNat_lt
  simp only [ofMagnitude, isNegative, magnitude, mk.injEq]
  apply UInt64.toNat_inj.mp
  rw [UInt64.toNat_ofNat']
  by_cases h : 2 ^ 63 ≤ b.toNat
  · simp only [h, decide_true, if_true]
    omega
  · simp only [h, decide_false, Bool.false_eq_true, if_false]
    omega

@[simp] theorem magnitude_neg (x : Binary64) : x.neg.magnitude = x.magnitude :=
  magnitude_ofMagnitude x.magnitude_lt

@[simp] theorem isNegative_neg (x : Binary64) : x.neg.isNegative = !x.isNegative :=
  isNegative_ofMagnitude x.magnitude_lt

/-- Changing the sign twice changes nothing. -/
@[simp] theorem neg_neg (x : Binary64) : x.neg.neg = x := by
  rw [neg, magnitude_neg, isNegative_neg, Bool.not_not, ofMagnitude_magnitude]

end Binary64

end SmtCount
