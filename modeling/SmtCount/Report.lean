import SmtCount.Log

/-!
# Reports

What a component says about itself when the host asks: lines under the name of the component.

## Main definitions

* `Report` — the lines of a component.
* `Report.toLog` — a report as lines of the log.
-/

namespace SmtCount

/-- The lines that a component reports. -/
structure Report where
  component : String
  lines : List String
  deriving DecidableEq, Repr

/-- A report as lines of the log. -/
def Report.toLog (r : Report) : Log :=
  r.lines.map fun line => ⟨.info, r.component ++ ": " ++ line⟩

end SmtCount
