import SmtCount.Simulation.Text.Bytes

/-!
# Regular expressions

Regular expressions over bytes, with groups, and the search for what one matches in a text: the match
that begins first, and of these the longest.

The search goes through the text once.  It keeps the places of the expression that what has been read
may have led to, those that are preferred first.  Each place is kept once, so that a text is searched in
time proportional to its length, whatever the expression is.  Only an expression that asks for what a
group has matched before keeps a place once for each way that leads to it.

## Main definitions

* `Regex` — regular expressions.
* `Regex.code` — an expression as instructions.
* `Matcher.search` — finds a match.
-/

namespace SmtCount.Simulation

/-- Whether a word, or the text, begins or ends at a place. -/
inductive Edge
  | textStart
  | textEnd
  | wordStart
  | wordEnd
  | wordEdge
  | noWordEdge
  /-- The byte before is not one of a word. -/
  | noWordBefore
  /-- The byte after is not one of a word. -/
  | noWordAfter
  deriving DecidableEq, Repr

/-- Is this a byte of a word? -/
def isWordByte (c : Char) : Bool := c.isAlphanum || c == '_'

/-- Does a place between two bytes have a property? -/
def Edge.holds (before after : Option Char) : Edge → Bool
  | .textStart => before.isNone
  | .textEnd => after.isNone
  | .wordStart => !before.any isWordByte && after.any isWordByte
  | .wordEnd => before.any isWordByte && !after.any isWordByte
  | .wordEdge => before.any isWordByte != after.any isWordByte
  | .noWordEdge => before.any isWordByte == after.any isWordByte
  | .noWordBefore => !before.any isWordByte
  | .noWordAfter => !after.any isWordByte

/-- A regular expression. -/
inductive Regex
  | empty
  | byte (member : Char → Bool)
  | edge (e : Edge)
  | seq (a b : Regex)
  | either (a b : Regex)
  /-- At least, and at most, so many times. -/
  | times (a : Regex) (least : Nat) (most : Option Nat)
  | group (number : Nat) (a : Regex)
  /-- What a group has matched before. -/
  | same (number : Nat)

/-- A step of a search. -/
inductive Instruction
  | byte (member : Char → Bool)
  | edge (e : Edge)
  /-- Goes to both places, but prefers the first one. -/
  | fork (first second : Nat)
  | jump (target : Nat)
  /-- Notes the place in the text. -/
  | mark (slot : Nat)
  | same (number : Nat)
  | done

namespace Regex

/-- So many copies of what an expression becomes at a place. -/
def copies (body : Nat → List Instruction) : Nat → Nat → List Instruction
  | 0, _ => []
  | n + 1, start =>
    let first := body start
    first ++ copies body n (start + first.length)

/-- At most so many copies, each of which may be the last. -/
def optionals (body : Nat → List Instruction) : Nat → Nat → List Instruction
  | 0, _ => []
  | n + 1, start =>
    let first := body (start + 1)
    let rest := optionals body n (start + 1 + first.length)
    .fork (start + 1) (start + 1 + first.length + rest.length) :: first ++ rest

/-- As many copies as there are. -/
def unbounded (body : Nat → List Instruction) (start : Nat) : List Instruction :=
  let first := body (start + 1)
  .fork (start + 1) (start + first.length + 2) :: first ++ [.jump start]

/-- The instructions for an expression, the first of which is at `start`. -/
def code : Regex → Nat → List Instruction
  | empty, _ => []
  | byte member, _ => [.byte member]
  | edge e, _ => [.edge e]
  | seq a b, start =>
    let first := a.code start
    first ++ b.code (start + first.length)
  | either a b, start =>
    let first := a.code (start + 1)
    let second := b.code (start + first.length + 2)
    .fork (start + 1) (start + first.length + 2) :: first ++
      .jump (start + first.length + second.length + 2) :: second
  | times a least most, start =>
    let needed := copies a.code least start
    let start := start + needed.length
    needed ++ match most with
      | none => unbounded a.code start
      | some most => optionals a.code (most - least) start
  | group number a, start =>
    .mark (2 * number) :: a.code (start + 1) ++ [.mark (2 * number + 1)]
  | same number, _ => [.same number]

/-- Does an expression ask for what a group has matched? -/
def looksBack : Regex → Bool
  | empty | byte _ | edge _ => false
  | seq a b | either a b => a.looksBack || b.looksBack
  | times a _ _ | group _ a => a.looksBack
  | same _ => true

end Regex

/-- An expression that is ready to search with. -/
structure Matcher where
  code : Array Instruction
  /-- Does it matter by which way a place has been reached? -/
  exact : Bool

/-- An expression, ready to search with. -/
def Regex.matcher (r : Regex) : Matcher where
  code := (r.code 0 ++ [Instruction.done]).toArray
  exact := r.looksBack

/-- What has been found: the part of the text, and the places that have been noted. -/
structure Match where
  start : Nat
  stop : Nat
  marks : List (Nat × Nat)
  deriving DecidableEq, Repr

namespace Match

/-- A place that has been noted. -/
def mark? (m : Match) (slot : Nat) : Option Nat := (m.marks.find? (·.1 = slot)).map Prod.snd

/-- The part of the text that a group has matched; the whole match for zero. -/
def group? (m : Match) (number : Nat) : Option (Nat × Nat) :=
  if number = 0 then some (m.start, m.stop)
  else
    match m.mark? (2 * number), m.mark? (2 * number + 1) with
    | some i, some j => if i ≤ j then some (i, j) else none
    | _, _ => none

end Match

/-- A way that a search has taken. -/
structure Way where
  /-- The instruction that comes next. -/
  next : Nat
  start : Nat
  marks : List (Nat × Nat) := []
  /-- How much of what a group has matched has come again. -/
  progress : Nat := 0
  deriving DecidableEq

namespace Matcher

/-- A place of a text. -/
structure Spot where
  index : Nat
  before : Option Char
  after : Option Char

/-- What is known at a place of a text. -/
structure Front where
  /-- The ways that have been taken to each instruction. -/
  seen : Array (List Way)
  /-- The ways that wait for a byte, the preferred one last. -/
  waiting : List Way := []
  best : Option Match

variable (m : Matcher)

/-- The length of what a group has matched on a way. -/
def groupLength (w : Way) (number : Nat) : Option (Nat × Nat) :=
  match w.marks.find? (·.1 = 2 * number), w.marks.find? (·.1 = 2 * number + 1) with
  | some (_, i), some (_, j) => if i ≤ j then some (i, j - i) else none
  | _, _ => none

/-- The better one of two matches. -/
def better (found : Match) : Option Match → Match
  | none => found
  | some known =>
    if found.start < known.start ∨ found.start = known.start ∧ known.stop < found.stop then found
    else known

/-- Follows ways, in at most so many steps, until each of them waits for a byte. -/
def settle (spot : Spot) : Nat → List Way → Front → Front
  | 0, _, f => f
  | _ + 1, [], f => f
  | steps + 1, w :: ways, f =>
    let known := f.seen.getD w.next []
    if (if m.exact then known.contains w else !known.isEmpty) then settle spot steps ways f
    else
      let f := { f with seen := f.seen.setIfInBounds w.next (w :: known) }
      let onward : Way := { w with next := w.next + 1 }
      match m.code[w.next]? with
      | none => settle spot steps ways f
      | some (.byte _) => settle spot steps ways { f with waiting := w :: f.waiting }
      | some (.edge e) =>
        settle spot steps (if e.holds spot.before spot.after then onward :: ways else ways) f
      | some (.fork a b) => settle spot steps ({ w with next := a } :: { w with next := b } :: ways) f
      | some (.jump a) => settle spot steps ({ w with next := a } :: ways) f
      | some (.mark slot) =>
        let marks := (slot, spot.index) :: w.marks.filter (·.1 ≠ slot)
        settle spot steps ({ onward with marks } :: ways) f
      | some (.same number) =>
        match groupLength w number with
        | none => settle spot steps ways f
        | some (_, 0) => settle spot steps (onward :: ways) f
        | some _ => settle spot steps ways { f with waiting := w :: f.waiting }
      | some .done =>
        settle spot steps ways { f with best := better ⟨w.start, spot.index, w.marks⟩ f.best }

/-- Where a way leads to with a byte. -/
def advance (text : Array Char) (c : Char) (w : Way) : Option Way :=
  match m.code[w.next]? with
  | some (.byte member) => if member c then some { w with next := w.next + 1 } else none
  | some (.same number) =>
    match groupLength w number with
    | some (start, length) =>
      if text[start + w.progress]? = some c then
        if w.progress + 1 = length then some { w with next := w.next + 1, progress := 0 }
        else some { w with progress := w.progress + 1 }
      else none
    | none => none
  | _ => none

/-- Searches what is left of a text. -/
def searchFrom (text : Array Char) : Option Char → Nat → Bytes → List Way → Option Match → Option Match
  | before, index, rest, ways, best =>
    let ways := if best.isNone then ways ++ [{ next := 0, start := index }] else ways
    let steps := (ways.length + 1) * (2 * m.code.size + 2)
    let front := m.settle ⟨index, before, rest.head?⟩ steps ways
      { seen := Array.replicate m.code.size [], best }
    match rest with
    | [] => front.best
    | c :: cs =>
      let useful := front.waiting.filter fun w => front.best.all fun found => w.start ≤ found.start
      let next := useful.reverse.filterMap (m.advance text c)
      if next.isEmpty && front.best.isSome then front.best
      else searchFrom text (some c) (index + 1) cs next front.best

/-- Finds the first of the longest matches that do not begin before an index. -/
def search (text : Bytes) (start : Nat := 0) : Option Match :=
  let before := if start = 0 then none else text[start - 1]?
  m.searchFrom text.toArray before start (text.drop start) [] none

/-- Does an expression match some part of a text? -/
def occurs (text : Bytes) : Bool := (m.search text).isSome

end Matcher

end SmtCount.Simulation
