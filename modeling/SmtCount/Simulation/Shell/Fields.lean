import SmtCount.Simulation.Shell.Pattern

/-!
# Fields

How an expanded word is split into fields.  Of the bytes that separate fields, blanks count as one
separator if they lie side by side, and also together with another separator.

## Main definitions

* `splitFields` — the fields of an expanded word.
* `splitLine` — the fields of a line that is read into a number of variables.
-/

namespace SmtCount.Simulation.Shell

/-- Is this a separator of which many count as one? -/
def isBlankSeparator (c : Char) : Bool := c == ' ' || c == '\t' || c == '\n'

/-- The fields of the part of a word that has been read. -/
structure Splitting where
  /-- The fields that are complete, last one first. -/
  fields : List Bytes := []
  /-- The bytes of the current field, last one first; `none` if no field has begun. -/
  current : Option Bytes := none
  /-- Does the last field end with blanks, so that another separator belongs to them? -/
  blanks : Bool := false

namespace Splitting

/-- Ends the current field, if one has begun. -/
def finish (s : Splitting) (blanks : Bool) : Splitting :=
  match s.current with
  | some bs => { fields := bs.reverse :: s.fields, blanks }
  | none => s

/-- Goes past a part of a word. -/
def step (separators : Bytes) (s : Splitting) : Symbol → Splitting
  | .empty => { s with current := some (s.current.getD []) }
  | .gap => s.finish true
  | .byte c _ splits =>
    if !splits || !separators.contains c then
      { s with current := some (c :: s.current.getD []), blanks := false }
    else if isBlankSeparator c then s.finish true
    else
      match s.current with
      | some _ => s.finish false
      | none =>
        if s.blanks then { s with blanks := false }
        else { s with fields := [] :: s.fields }

end Splitting

/-- The fields of an expanded word. -/
def splitFields (separators : Bytes) (word : List Symbol) : List Bytes :=
  let s : Splitting := word.foldl (Splitting.step separators) {}
  (s.finish false).fields.reverse

/-- The first field of a line and what comes after it, with whether a separator that is no blank lies
between them. -/
def firstField (separators : Bytes) (line : List Mark) : List Mark × List Mark :=
  let separates (m : Mark) := !m.2 && separators.contains m.1
  let blank (m : Mark) := separates m && isBlankSeparator m.1
  let field := line.takeWhile fun m => !separates m
  let rest := (line.drop field.length).dropWhile blank
  -- blanks and one other separator, with blanks on both sides, are one separator
  match rest with
  | m :: more =>
    if separates m && !blank m then (field, more.dropWhile blank) else (field, rest)
  | [] => (field, [])

/-- The fields of a line for `count` variables: the last one gets all that is left, but for blanks at
its end.  A quoted byte separates nothing. -/
def splitLine (separators : Bytes) : Nat → List Mark → List Bytes
  | 0, _ => []
  | count + 1, line =>
    let separates (m : Mark) := !m.2 && separators.contains m.1
    let blank (m : Mark) := separates m && isBlankSeparator m.1
    let line := line.dropWhile blank
    if line.isEmpty then []
    else
      let (field, rest) := firstField separators line
      if count = 0 then
        -- a single field is taken without what separates it from nothing
        if rest.isEmpty then [field.map Prod.fst]
        else [((line.reverse.dropWhile blank).reverse).map Prod.fst]
      else field.map Prod.fst :: splitLine separators count rest

end SmtCount.Simulation.Shell
