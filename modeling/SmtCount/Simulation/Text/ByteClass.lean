import SmtCount.Simulation.Text.Bytes

/-!
# Classes of bytes

The named classes that patterns and expressions have for bytes.  A byte outside of ASCII belongs to
none of them.

## Main definitions

* `byteClass?` — the class with a name.
-/

namespace SmtCount.Simulation.Text

/-- Is this a visible byte? -/
def isGraphic (c : Char) : Bool := 33 ≤ c.toNat && c.toNat ≤ 126

/-- Is this one of the white bytes? -/
def isWhite (c : Char) : Bool := c == ' ' || (9 ≤ c.toNat && c.toNat ≤ 13)

/-- The class with a name. -/
def byteClass? (name : Bytes) : Option (Char → Bool) :=
  match String.ofList name with
  | "alpha" => some Char.isAlpha
  | "digit" => some Char.isDigit
  | "alnum" => some Char.isAlphanum
  | "upper" => some Char.isUpper
  | "lower" => some Char.isLower
  | "space" => some isWhite
  | "blank" => some fun c => c == ' ' || c == '\t'
  | "punct" => some fun c => isGraphic c && !c.isAlphanum
  | "print" => some fun c => isGraphic c || c == ' '
  | "graph" => some isGraphic
  | "cntrl" => some fun c => c.toNat < 32 || c.toNat = 127
  | "xdigit" => some fun c =>
      c.isDigit || (('a' ≤ c && c ≤ 'f') || ('A' ≤ c && c ≤ 'F'))
  | _ => none

end SmtCount.Simulation.Text
