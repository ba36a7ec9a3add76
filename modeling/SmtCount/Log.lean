/-!
# Log lines

What the operations of this library have to say beside their answers.

## Main definitions

* `Level` — how much a line matters.
* `LogLine` — a level and a message.
-/

namespace SmtCount

/-- How much a log line matters. -/
inductive Level
  | error
  | warn
  | info
  | debug
  deriving DecidableEq, Repr

/-- The name of a level. -/
def Level.name : Level → String
  | .error => "ERROR"
  | .warn => "WARN"
  | .info => "INFO"
  | .debug => "DEBUG"

/-- A line of the log. -/
structure LogLine where
  level : Level
  message : String
  deriving DecidableEq, Repr

/-- Lines of the log, oldest first. -/
abbrev Log := List LogLine

end SmtCount
