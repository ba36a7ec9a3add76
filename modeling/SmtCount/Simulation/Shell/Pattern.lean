import SmtCount.Simulation.Shell.Syntax
import SmtCount.Simulation.Text.ByteClass

/-!
# Patterns

The patterns of choices and of parameters: a star matches anything, a question mark matches one byte,
and brackets match one byte out of a set.  A quoted byte matches itself.

Matching goes through the pattern once and keeps, for every place of the text, whether what has been
read of the pattern matches the text up to there.

## Main definitions

* `Symbol` — a part of an expanded word.
* `Element` — what a pattern is made of.
* `matchesPattern` — does a pattern match a whole text?
* `dropStartMatch`, `dropEndMatch` — a text without what a pattern matches at one of its ends.
-/

namespace SmtCount.Simulation.Shell

/-- A part of an expanded word. -/
inductive Symbol
  /-- A byte.  One that comes out of an expansion may separate fields. -/
  | byte (c : Char) (quoted splits : Bool)
  /-- Nothing, but quoted, so that there is a field. -/
  | empty
  /-- What lies between two fields. -/
  | gap
  deriving DecidableEq, Repr

/-- The bytes of an expanded word; a space lies between fields. -/
def plainBytes (symbols : List Symbol) : Bytes :=
  symbols.filterMap fun s =>
    match s with
    | .byte c _ _ => some c
    | .empty => none
    | .gap => some ' '

/-- A byte with whether it is quoted. -/
abbrev Mark := Char × Bool

/-- What a pattern is made of. -/
inductive Element
  | byte (c : Char)
  | any
  | star
  | set (negated : Bool) (members : List (Char → Bool))

/-- The bytes of a pattern, where a backslash quotes the next one. -/
def marksOf : List Symbol → List Mark
  | [] => []
  | .byte '\\' false _ :: .byte c _ _ :: rest => (c, true) :: marksOf rest
  | .byte c quoted _ :: rest => (c, quoted) :: marksOf rest
  | _ :: rest => marksOf rest

/-- Reads the members of a set up to the closing bracket.  A bracket that comes first is a member. -/
def setMembers : Nat → Bool → List Mark → Option (List (Char → Bool) × List Mark)
  | 0, _, _ => none
  | _ + 1, _, [] => none
  | steps + 1, first, (c, quoted) :: rest =>
    if c = ']' && !quoted && !first then some ([], rest)
    else
      let more (member : Char → Bool) (rest : List Mark) :=
        (setMembers steps false rest).map fun (ms, rest) => (member :: ms, rest)
      match c, quoted, rest with
      | '[', false, (':', _) :: inner =>
        let name := (inner.takeWhile fun m => m.1 ≠ ':').map Prod.fst
        match inner.drop name.length, Text.byteClass? name with
        | (':', _) :: (']', _) :: after, some member => more member after
        | _, _ => more (· == '[') rest
      | _, _, ('-', false) :: (d, dq) :: after =>
        if d = ']' && !dq then more (· == c) rest
        else more (fun x => c ≤ x && x ≤ d) after
      | _, _, _ => more (· == c) rest

/-- The elements of a pattern. -/
def elementsOf : Nat → List Mark → List Element
  | 0, _ => []
  | _ + 1, [] => []
  | steps + 1, (c, quoted) :: rest =>
    match c, quoted with
    | '*', false => .star :: elementsOf steps rest
    | '?', false => .any :: elementsOf steps rest
    | '[', false =>
      let (negated, inner) := match rest with
        | ('!', false) :: inner | ('^', false) :: inner => (true, inner)
        | inner => (false, inner)
      match setMembers (inner.length + 1) true inner with
      | some (members, after) => .set negated members :: elementsOf steps after
      | none => .byte '[' :: elementsOf steps rest
    | _, _ => .byte c :: elementsOf steps rest

/-- The elements of an expanded word. -/
def patternOf (symbols : List Symbol) : List Element :=
  let marks := marksOf symbols
  elementsOf (marks.length + 1) marks

/-- Does an element match a byte? -/
def Element.accepts (c : Char) : Element → Bool
  | .byte d => c == d
  | .any | .star => true
  | .set negated members => (members.any fun m => m c) != negated

/-- Goes past an element: from the places up to which a pattern matches a text to those up to which it
matches with one more element. -/
def advance (e : Element) (cs : Bytes) (reached : List Bool) : List Bool :=
  match e with
  | .star =>
    (reached.foldl (fun (before, seen) r => (before || r, (before || r) :: seen))
      (false, ([] : List Bool))).2.reverse
  | e => false :: (cs.zip reached).map fun (c, r) => r && e.accepts c

/-- For each place of a text, whether the pattern matches the text up to there. -/
def matchPlaces (pattern : List Element) (cs : Bytes) : List Bool :=
  pattern.foldl (fun reached e => advance e cs reached) (true :: cs.map fun _ => false)

/-- Does a pattern match a whole text? -/
def matchesPattern (pattern : List Element) (cs : Bytes) : Bool :=
  (matchPlaces pattern cs).getLast? = some true

/-- How much of the start of a text the pattern matches, at least or at most. -/
def matchLength? (longest : Bool) (pattern : List Element) (cs : Bytes) : Option Nat :=
  let places := matchPlaces pattern cs
  if longest then
    (places.foldl (fun (n, best) r => (n + 1, if r then some n else best))
      (0, (none : Option Nat))).2
  else if places.contains true then some (places.takeWhile (!·)).length
  else none

/-- The text without the shortest or the longest part that the pattern matches at its start. -/
def dropStartMatch (longest : Bool) (pattern : List Element) (cs : Bytes) : Bytes :=
  match matchLength? longest pattern cs with
  | some n => cs.drop n
  | none => cs

/-- The text without the shortest or the longest part that the pattern matches at its end. -/
def dropEndMatch (longest : Bool) (pattern : List Element) (cs : Bytes) : Bytes :=
  match matchLength? longest pattern.reverse cs.reverse with
  | some n => cs.take (cs.length - n)
  | none => cs

end SmtCount.Simulation.Shell
