import SmtCount.Simulation.Regex.Basic
import SmtCount.Simulation.Text.ByteClass
import SmtCount.Simulation.Text.Format

/-!
# Writing regular expressions

The two ways in which regular expressions are written.  In the basic one, groups, alternatives and
bounds are marked by a backslash; in the extended one, a backslash takes their meaning away.

## Main definitions

* `Dialect` — how an expression is written.
* `Regex.parse` — reads an expression.
-/

namespace SmtCount.Simulation

/-- How an expression is written. -/
structure Dialect where
  extended : Bool := false
  ignoresCase : Bool := false
  /-- Do letters after a backslash stand for bytes that cannot be seen? -/
  escapes : Bool := false

namespace Regex

/-- What is left of an expression, and how many groups have been opened. -/
structure Reading where
  rest : Bytes
  groups : Nat := 0

/-- A part of reading an expression. -/
abbrev Parse := StateT Reading (Except String)

def ahead : Parse Bytes := do return (← get).rest

def skip (count : Nat) : Parse Unit := modify fun r => { r with rest := r.rest.drop count }

variable (d : Dialect)

/-- A set of bytes, in either case if case does not matter. -/
def bytes (member : Char → Bool) : Regex :=
  if d.ignoresCase then .byte fun c => member c || member c.toLower || member c.toUpper
  else .byte member

/-- The byte for a letter after a backslash. -/
def controlByte? (c : Char) : Option Char :=
  if "abfnrtv".toList.contains c && c ≠ 'b' then Text.escapeLetter? c else none

/-- The byte that a set has next, and what comes after it. -/
def setElement? : Bytes → Option (Char × Bytes)
  | [] => none
  | '[' :: '.' :: c :: '.' :: ']' :: rest | '[' :: '=' :: c :: '=' :: ']' :: rest => some (c, rest)
  | '\\' :: c :: rest =>
    match if d.escapes then controlByte? c else none with
    | some b => some (b, rest)
    | none => some ('\\', c :: rest)
  | c :: rest => some (c, rest)

/-- Reads the members of a set, up to the bracket that closes it. -/
def setMembers : Nat → Bool → Bytes → Except String (List (Char → Bool) × Bytes)
  | 0, _, _ => .error "Unmatched [, [^, [:, [., or [="
  | steps + 1, first, bs => do
    if bs.head? = some ']' && !first then return ([], bs.tail)
    else
      let name := (bs.drop 2).takeWhile (· ≠ ':')
      match bs, (bs.drop 2).drop name.length with
      | '[' :: ':' :: _, ':' :: ']' :: after =>
        match Text.byteClass? name with
        | none => throw "Invalid character class name"
        | some member =>
          let (members, rest) ← setMembers steps false after
          return (member :: members, rest)
      | _, _ =>
        match setElement? d bs with
        | none => throw "Unmatched [, [^, [:, [., or [="
        | some (c, rest) =>
          match rest with
          | '-' :: more =>
            if more.head? = some ']' then
              let (members, rest) ← setMembers steps false rest
              return ((· == c) :: members, rest)
            else
              match setElement? d more with
              | none => throw "Unmatched [, [^, [:, [., or [="
              | some (e, rest) =>
                if e < c then throw "Invalid range end"
                let (members, rest) ← setMembers steps false rest
                return ((fun x => c ≤ x && x ≤ e) :: members, rest)
          | rest =>
            let (members, rest) ← setMembers steps false rest
            return ((· == c) :: members, rest)

/-- Reads a set after the bracket that opens it. -/
def set : Parse Regex := do
  let r ← get
  let (negated, bs) := match r.rest with
    | '^' :: rest => (true, rest)
    | rest => (false, rest)
  let (members, rest) ← setMembers d (bs.length + 1) true bs
  MonadStateOf.set { r with rest }
  let positive (c : Char) : Bool := members.any (· c)
  let either (c : Char) : Bool :=
    positive c || d.ignoresCase && (positive c.toLower || positive c.toUpper)
  return .byte fun c => either c != negated

/-- Reads bounds after the brace that opens them. -/
def bounds? (bs : Bytes) : Option (Nat × Option Nat × Bytes) :=
  let least := bs.takeWhile Char.isDigit
  let number (ds : Bytes) : Nat := Nat.ofDigitChars 10 ds 0
  let closed (after : Bytes) : Option Bytes :=
    match d.extended, after with
    | true, '}' :: rest | false, '\\' :: '}' :: rest => some rest
    | _, _ => none
  match bs.drop least.length with
  | ',' :: more =>
    let most := more.takeWhile Char.isDigit
    (closed (more.drop most.length)).map fun rest =>
      (number least, if most.isEmpty then none else some (number most), rest)
  | after =>
    if least.isEmpty then none
    else (closed after).map fun rest => (number least, some (number least), rest)

/-- Puts the bounds after an expression to it, all of them. -/
def repetitions : Nat → Regex → Parse Regex
  | 0, r => return r
  | steps + 1, r => do
    let again (count least : Nat) (most : Option Nat) : Parse Regex := do
      skip count
      repetitions steps (.times r least most)
    let bounded (count : Nat) (after : Bytes) : Parse Regex := do
      match bounds? d after with
      | some (least, most, rest) =>
        if most.any (· < least) then throw "Invalid content of \\\x7b\\\x7d"
        if 32767 < most.getD least then throw "Regular expression too big"
        modify fun s => { s with rest }
        repetitions steps (.times r least most)
      | none =>
        if d.extended then return r
        else throw (if after.isEmpty || count = 0 then "Unmatched \\\x7b" else "Invalid content of \\\x7b\\\x7d")
    match d.extended, ← ahead with
    | _, '*' :: _ => again 1 0 none
    | true, '+' :: _ => again 1 1 none
    | true, '?' :: _ => again 1 0 (some 1)
    | true, '\x7b' :: after => bounded 1 after
    | false, '\\' :: '+' :: _ => again 2 1 none
    | false, '\\' :: '?' :: _ => again 2 0 (some 1)
    | false, '\\' :: '\x7b' :: after => bounded 2 after
    | _, _ => return r

/-- The expression for a letter after a backslash that has a meaning of its own. -/
def special? (c : Char) : Option Regex :=
  match c with
  | 'w' => some (.byte isWordByte)
  | 'W' => some (.byte fun c => !isWordByte c)
  | 's' => some (.byte Text.isWhite)
  | 'S' => some (.byte fun c => !Text.isWhite c)
  | 'b' => some (.edge .wordEdge)
  | 'B' => some (.edge .noWordEdge)
  | '<' => some (.edge .wordStart)
  | '>' => some (.edge .wordEnd)
  | '\x60' => some (.edge .textStart)
  | '\'' => some (.edge .textEnd)
  | c => if d.escapes then (controlByte? c).map fun b => .byte (· == b) else none

/-- Does a branch end here? -/
def endsBranch (depth : Nat) (bs : Bytes) : Bool :=
  match d.extended, bs with
  | _, [] => true
  | true, '|' :: _ | false, '\\' :: '|' :: _ => true
  | true, ')' :: _ | false, '\\' :: ')' :: _ => 0 < depth
  | _, _ => false

mutual

/-- Reads alternatives. -/
def alternatives : Nat → Nat → Parse Regex
  | 0, _ => throw "Regular expression too big"
  | steps + 1, depth => do
    let first ← branch steps depth true .empty
    match d.extended, ← ahead with
    | true, '|' :: _ =>
      skip 1
      return .either first (← alternatives steps depth)
    | false, '\\' :: '|' :: _ =>
      skip 2
      return .either first (← alternatives steps depth)
    | _, _ => return first

/-- Reads a branch, of which `before` has been read. -/
def branch : Nat → Nat → Bool → Regex → Parse Regex
  | 0, _, _, _ => throw "Regular expression too big"
  | steps + 1, depth, first, before => do
    if endsBranch d depth (← ahead) then return before
    else
      let (piece, bare) ← atom steps depth first
      let piece ← if bare then pure piece else repetitions d (← ahead).length piece
      branch steps depth false (.seq before piece)

/-- Reads what a repetition may follow; says if nothing is repeated after it. -/
def atom : Nat → Nat → Bool → Parse (Regex × Bool)
  | 0, _, _ => throw "Regular expression too big"
  | steps + 1, depth, first => do
    let group (count : Nat) : Parse (Regex × Bool) := do
      skip count
      let number := (← get).groups + 1
      modify fun r => { r with groups := number }
      let inner ← alternatives steps (depth + 1)
      if (← ahead).isEmpty then throw "Unmatched ( or \\("
      skip count
      return (.group number inner, false)
    let plain (c : Char) (count : Nat) : Parse (Regex × Bool) := do
      skip count
      return (bytes d (· == c), false)
    match d.extended, ← ahead with
    | _, [] => return (.empty, true)
    | true, '(' :: _ => group 1
    | false, '\\' :: '(' :: _ => group 2
    | true, ')' :: _ | false, '\\' :: ')' :: _ => throw "Unmatched ) or \\)"
    | _, '[' :: _ => do
      skip 1
      return (← set d, false)
    | _, '.' :: _ =>
      skip 1
      return (.byte fun _ => true, false)
    | true, '^' :: _ =>
      skip 1
      return (.edge .textStart, true)
    | true, '$' :: _ =>
      skip 1
      return (.edge .textEnd, true)
    | false, '^' :: _ =>
      if first then
        skip 1
        return (.edge .textStart, true)
      else plain '^' 1
    | false, '$' :: rest =>
      if endsBranch d depth rest then
        skip 1
        return (.edge .textEnd, true)
      else plain '$' 1
    | true, '*' :: _ | true, '+' :: _ | true, '?' :: _ =>
      -- there is nothing to repeat
      skip 1
      return (.empty, true)
    | false, '\\' :: '\x7b' :: _ => throw "Invalid preceding regular expression"
    | _, ['\\'] => throw "Trailing backslash"
    | _, '\\' :: c :: _ =>
      match special? d c with
      | some r =>
        skip 2
        return (r, false)
      | none =>
        if c.isDigit && c ≠ '0' then
          skip 2
          let number := c.toNat - '0'.toNat
          if (← get).groups < number then throw "Invalid back reference"
          return (.same number, false)
        else plain c 2
    | _, c :: _ => plain c 1

end

/-- Reads an expression; gives how many groups it has as well. -/
def parse (text : Bytes) : Except String (Regex × Nat) := do
  let (r, reading) ← (alternatives d (3 * text.length + 3) 0).run { rest := text }
  return (r, reading.groups)

/-- The expression that matches a text only. -/
def literal (text : Bytes) : Regex :=
  text.foldr (fun c r => .seq (bytes d (· == c)) r) .empty

end Regex

end SmtCount.Simulation
