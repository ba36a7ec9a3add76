import SmtCount.Expr.Basic
import SmtCount.Form
import SmtCount.Table

/-!
# Unsatisfiable cores

Reading the conjuncts that a solver names as the reason why a query cannot be satisfied: labels
between blanks, inside parentheses or not.

## Main definitions

* `coreLabels` — the labels that a text lists.
* `Core.read` — the conjuncts that they stand for.
-/

namespace SmtCount

/-- Expressions that cannot hold together, each once. -/
abbrev Core := List Expr

/-- The words that a text lists. -/
def coreLabels (output : String) : List String :=
  let text := Text.trim output.toList
  (Text.words ((inside? text).getD text)).map String.ofList

/-- Reads a core.  A label that is not in the table stands for nothing. -/
def Core.read (output : String) (labels : Table String Expr) : Core :=
  ((coreLabels output).filterMap labels.get?).eraseDups

end SmtCount
