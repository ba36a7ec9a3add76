import SmtCount.Binary64.Decimal
import SmtCount.Variable

/-!
# Constants

The values that a formula mentions and that a model assigns: truth values, integers of 64 bits, and
reals, which are binary64 words and are compared as such.

## Main definitions

* `Constant` — a value.
* `Constant.sort?` — its sort; a truth value has none.
* `Constant.text` — its SMT-LIB text.  A value below zero is written as the negation of its absolute
  value, which SMT-LIB has no literal for otherwise.
-/

namespace SmtCount

/-- A constant value. -/
inductive Constant
  | bool (value : Bool)
  | int (value : Int64)
  | real (value : Binary64)
  deriving DecidableEq, Hashable, Repr

namespace Constant

/-- The sort of a constant; a truth value has none. -/
def sort? : Constant → Option VarSort
  | .bool _ => none
  | .int _ => some .int
  | .real _ => some .real

/-- The value of an integer constant. -/
def asInt? : Constant → Option Int64
  | .int value => some value
  | _ => none

/-- The value of a real constant. -/
def asReal? : Constant → Option Binary64
  | .real value => some value
  | _ => none

/-- The negation of a numeral, as SMT-LIB writes it. -/
def negated (numeral : String) : String :=
  "(- " ++ numeral ++ ")"

/-- The SMT-LIB text of an integer. -/
def intText (value : Int64) : String :=
  let digits := String.ofList (Nat.toDigits 10 value.toInt.natAbs)
  if value.toInt < 0 then negated digits else digits

/-- The SMT-LIB text of a real.  Negative zero is not below zero and keeps its sign. -/
def realText (value : Binary64) : String :=
  let digits := String.ofList value.magnitudeText
  if value.belowZero then negated digits
  else if value.isNegative && value.isZero then "-" ++ digits
  else digits

/-- The SMT-LIB text of a constant. -/
def text : Constant → String
  | .bool value => if value then "true" else "false"
  | .int value => intText value
  | .real value => realText value

end Constant

end SmtCount
