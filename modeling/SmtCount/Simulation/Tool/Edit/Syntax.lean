import SmtCount.Simulation.Regex.Parser

/-!
# Editing scripts

Scripts for an editor that goes through its input line by line.  A command may be meant for some lines
only; it changes the line, keeps it for later, prints something, or says which command comes next.

## Main definitions

* `Selector` — the lines that a command is meant for.
* `Action`, `Step` — a command.
* `parseScript` — reads a script.
-/

namespace SmtCount.Simulation.Tool.Edit

/-- A condition on a line. -/
inductive Address
  | line (number : Nat)
  /-- Every so many lines from the first one on. -/
  | every (first step : Nat)
  | last
  /-- A part of the line matches; without an expression, the one that has been used last counts. -/
  | pattern (m : Option Matcher)

/-- Where a range of lines ends. -/
inductive RangeEnd
  | address (a : Address)
  /-- After so many more lines. -/
  | lines (count : Nat)
  /-- At a line whose number is a multiple of this one. -/
  | multiple (n : Nat)

/-- The lines that a command is meant for. -/
structure Selector where
  first : Option Address := none
  last : Option RangeEnd := none
  negated : Bool := false

/-- A part of what is put in the place of a match. -/
inductive Piece
  | text (bs : Bytes)
  | group (number : Nat)
  /-- What follows changes its case, as the letter says. -/
  | letters (how : Char)

/-- How matches are replaced. -/
structure Substitution where
  matcher : Option Matcher
  pieces : List Piece
  /-- The first match that is replaced. -/
  number : Nat := 1
  /-- Are the matches after it replaced as well? -/
  all : Bool := false
  /-- Is the line printed if something has been replaced? -/
  prints : Bool := false
  file : Option Bytes := none

/-- When a command is skipped to. -/
inductive JumpWhen
  | always
  /-- If something has, or has not, been replaced since the last line was read. -/
  | replaced (expected : Bool)

/-- What a command does. -/
inductive Action
  | enter
  | leave
  | label (name : Bytes)
  | jump (when : JumpWhen) (target : Bytes)
  | append (text : Bytes)
  | insert (text : Bytes)
  | change (text : Bytes)
  | substitute (s : Substitution)
  | translate (pairs : List (Char × Char))
  /-- A command that is only a letter. -/
  | plain (letter : Char)
  | quit (prints : Bool) (status : Nat)
  /-- Prints a file, or its next line, after the line. -/
  | readFile (path : Bytes)
  /-- Writes the line, or only its first part, to a file. -/
  | writeFile (path : Bytes) (firstPart : Bool)

/-- A command with the lines that it is meant for. -/
structure Step where
  selector : Selector
  action : Action

/-- A part of reading a script. -/
abbrev Parse := StateT Bytes (Except String)

def ahead : Parse (Option Char) := do return (← get).head?

def skip : Parse Unit := modify List.tail

def skipWhile (p : Char → Bool) : Parse Unit := modify (List.dropWhile p)

/-- Reads as many bytes as have a property. -/
def takeAll (p : Char → Bool) : Parse Bytes := do
  let bs ← get
  set (bs.dropWhile p)
  return bs.takeWhile p

def isSpace (c : Char) : Bool := c == ' ' || c == '\t'

/-- Reads a number. -/
def number : Parse Nat := do return Nat.ofDigitChars 10 (← takeAll Char.isDigit) 0

/-- Reads up to a delimiter.  A backslash before it takes its meaning away; in a pattern, it makes a
line end of a letter. -/
def delimited (delimiter : Char) (pattern : Bool) : Nat → Bytes → Bytes → Option (Bytes × Bytes)
  | 0, _, _ | _ + 1, _, [] => none
  | steps + 1, seen, c :: rest =>
    if c = delimiter then some (seen.reverse, rest)
    else if c = '\\' then
      match rest with
      | [] => none
      | e :: rest =>
        if e = 'n' && pattern then delimited delimiter pattern steps ('\n' :: seen) rest
        else if e = '\n' || e = delimiter && (pattern || e ≠ '&') then
          delimited delimiter pattern steps (e :: seen) rest
        else delimited delimiter pattern steps (e :: '\\' :: seen) rest
    else delimited delimiter pattern steps (c :: seen) rest

/-- Reads up to a delimiter, which is what an error names. -/
def upTo (delimiter : Char) (pattern : Bool) (what : String) : Parse Bytes := do
  let bs ← get
  match delimited delimiter pattern (bs.length + 1) [] bs with
  | none => throw what
  | some (text, rest) =>
    set rest
    return text

variable (extended : Bool)

/-- The expression for a pattern; none if it is empty. -/
def matcherOf (text : Bytes) (ignoresCase : Bool) : Parse (Option Matcher × Nat) := do
  if text.isEmpty then return (none, 0)
  else
    let (r, groups) ← (Regex.parse { extended, ignoresCase, escapes := true } text : Except String _)
    return (some r.matcher, groups)

/-- Reads an address, if there is one. -/
def address? : Parse (Option Address) := do
  let pattern (delimiter : Char) : Parse (Option Address) := do
    let text ← upTo delimiter true "unterminated address regex"
    let flags ← takeAll fun c => c == 'I' || c == 'M'
    let (m, _) ← matcherOf extended text (flags.contains 'I')
    return some (.pattern m)
  match ← get with
  | '$' :: _ =>
    skip
    return some .last
  | '/' :: _ =>
    skip
    pattern '/'
  | '\\' :: delimiter :: rest =>
    set rest
    pattern delimiter
  | c :: _ =>
    if c.isDigit then
      let first ← number
      skipWhile isSpace
      if (← ahead) = some '~' then
        skip
        return some (.every first (← number))
      else return some (.line first)
    else return none
  | [] => return none

/-- Reads what a command is meant for. -/
def selector : Parse Selector := do
  let first ← address? extended
  skipWhile isSpace
  let last ← if first.isSome && (← ahead) = some ',' then
      skip
      skipWhile isSpace
      match ← ahead with
      | some '+' =>
        skip
        pure (some (RangeEnd.lines (← number)))
      | some '~' =>
        skip
        pure (some (RangeEnd.multiple (← number)))
      | _ =>
        match ← address? extended with
        | some a => pure (some (RangeEnd.address a))
        | none => throw "unexpected \x60,'"
    else pure none
  skipWhile isSpace
  let negated := (← ahead) = some '!'
  skipWhile fun c => isSpace c || c == '!'
  return { first, last, negated }

/-- The parts of what is put in the place of a match; `seen` is the text before them, last byte first. -/
def piecesOf : Bytes → Bytes → List Piece
  | seen, [] => if seen.isEmpty then [] else [.text seen.reverse]
  | seen, '&' :: rest => .text seen.reverse :: .group 0 :: piecesOf [] rest
  | seen, '\\' :: c :: rest =>
    if c.isDigit then .text seen.reverse :: .group (c.toNat - '0'.toNat) :: piecesOf [] rest
    else if "LUElu".toList.contains c then .text seen.reverse :: .letters c :: piecesOf [] rest
    else piecesOf ((Regex.controlByte? c).getD c :: seen) rest
  | seen, c :: rest => piecesOf (c :: seen) rest

/-- Reads the flags of a substitution. -/
def flags : Nat → Substitution → Bool → Parse (Substitution × Bool)
  | 0, s, ignoresCase => return (s, ignoresCase)
  | steps + 1, s, ignoresCase => do
    match ← ahead with
    | some 'g' =>
      skip
      flags steps { s with all := true } ignoresCase
    | some 'p' =>
      skip
      flags steps { s with prints := true } ignoresCase
    | some 'i' | some 'I' =>
      skip
      flags steps s true
    | some 'm' | some 'M' =>
      skip
      flags steps s ignoresCase
    | some 'w' =>
      skip
      skipWhile isSpace
      let file ← takeAll (· ≠ '\n')
      if file.isEmpty then throw "missing filename in r/R/w/W commands"
      return ({ s with file := some file }, ignoresCase)
    | some c =>
      if c.isDigit then
        let number ← number
        if number = 0 then throw "number option to \x60s' command may not be zero"
        flags steps { s with number } ignoresCase
      else return (s, ignoresCase)
    | none => return (s, ignoresCase)

/-- Reads a substitution. -/
def substitution : Parse Substitution := do
  match ← get with
  | [] => throw "unterminated \x60s' command"
  | delimiter :: rest =>
    set rest
    let text ← upTo delimiter true "unterminated \x60s' command"
    let replacement ← upTo delimiter false "unterminated \x60s' command"
    let pieces := piecesOf [] replacement
    let (s, ignoresCase) ← flags ((← get).length + 1) { matcher := none, pieces } false
    let (matcher, groups) ← matcherOf extended text ignoresCase
    let asked := pieces.filterMap fun
      | .group n => some n
      | _ => none
    if matcher.isSome && asked.any (groups < ·) then
      throw "invalid reference on \x60s' command's RHS"
    return { s with matcher }

/-- The bytes of one side of a table. -/
def tableBytes : Bytes → Bytes
  | '\\' :: '\\' :: rest => '\\' :: tableBytes rest
  | '\\' :: c :: rest =>
    match Regex.controlByte? c with
    | some b => b :: tableBytes rest
    | none => '\\' :: tableBytes (c :: rest)
  | c :: rest => c :: tableBytes rest
  | [] => []

/-- Reads a table of bytes. -/
def table : Parse (List (Char × Char)) := do
  match ← get with
  | [] => throw "unterminated \x60y' command"
  | delimiter :: rest =>
    set rest
    let a := tableBytes (← upTo delimiter true "unterminated \x60y' command")
    let b := tableBytes (← upTo delimiter true "unterminated \x60y' command")
    if a.length ≠ b.length then throw "strings for \x60y' command are different lengths"
    return a.zip b

/-- A text up to a line end that no backslash stands before. -/
def textLines : Bytes → Bytes → Bytes × Bytes
  | seen, [] => (seen.reverse, [])
  | seen, '\\' :: c :: rest => textLines ((Regex.controlByte? c).getD c :: seen) rest
  | seen, ['\\'] => (seen.reverse, [])
  | seen, '\n' :: rest => (seen.reverse, rest)
  | seen, c :: rest => textLines (c :: seen) rest

/-- Reads the text of a command. -/
def commandText : Parse Bytes := do
  skipWhile isSpace
  match ← get with
  | '\\' :: '\n' :: rest | '\\' :: rest => set rest
  | _ => pure ()
  if (← ahead).isNone then throw "expected \\ after \x60a', \x60c' or \x60i'"
  let (text, rest) := textLines [] (← get)
  set rest
  return text ++ ['\n']

/-- Reads a name up to a blank or a semicolon. -/
def labelName : Parse Bytes := do
  skipWhile isSpace
  takeAll fun c => !isSpace c && c ≠ '\n' && c ≠ ';'

/-- Reads a file's name, which goes up to the end of the line. -/
def fileName : Parse Bytes := do
  skipWhile isSpace
  let name ← takeAll (· ≠ '\n')
  if name.isEmpty then throw "missing filename in r/R/w/W commands"
  return name

/-- Reads an exit status. -/
def exitStatus : Parse Nat := do
  skipWhile isSpace
  number

/-- Reads what a command does. -/
def action : Parse Action := do
  match ← get with
  | [] => throw "missing command"
  | c :: rest =>
    set rest
    match c with
    | '\x7b' => return .enter
    | '\x7d' => return .leave
    | ':' =>
      let name ← labelName
      if name.isEmpty then throw "\":\" lacks a label"
      return .label name
    | 'b' => return .jump .always (← labelName)
    | 't' => return .jump (.replaced true) (← labelName)
    | 'T' => return .jump (.replaced false) (← labelName)
    | 'a' => return .append (← commandText)
    | 'i' => return .insert (← commandText)
    | 'c' => return .change (← commandText)
    | 's' => return .substitute (← substitution extended)
    | 'y' => return .translate (← table)
    | 'q' => return .quit true (← exitStatus)
    | 'Q' => return .quit false (← exitStatus)
    | 'r' => return .readFile (← fileName)
    | 'w' => return .writeFile (← fileName) false
    | 'W' => return .writeFile (← fileName) true
    | c =>
      if "=dDgGhHlnNpPxzF".toList.contains c then return .plain c
      else throw ("unknown command: \x60" ++ String.singleton c ++ "'")

/-- Reads what comes after a command: nothing, a line end, a semicolon or a comment; or the brace that
closes a block. -/
def commandEnd (a : Action) : Parse Unit := do
  match a with
  | .append _ | .insert _ | .change _ | .enter => pure ()
  | _ =>
    skipWhile isSpace
    match ← ahead with
    | none | some '#' | some '\x7d' => pure ()
    | some '\n' | some ';' => skip
    | some _ => throw "unknown option to \x60s'"

/-- Reads the commands of a script. -/
def steps : Nat → Parse (List Step)
  | 0 => return []
  | more + 1 => do
    skipWhile fun c => isSpace c || c == '\n' || c == ';'
    match ← ahead with
    | none => return []
    | some '#' =>
      skipWhile (· ≠ '\n')
      steps more
    | some _ =>
      let selector ← selector extended
      let action ← action extended
      commandEnd action
      return { selector, action } :: (← steps more)

/-- Is every block closed, and only blocks, from some depth on? -/
def isBalanced : Nat → List Step → Bool
  | depth, [] => depth = 0
  | depth, s :: rest =>
    match s.action with
    | .enter => isBalanced (depth + 1) rest
    | .leave => 0 < depth && isBalanced (depth - 1) rest
    | _ => isBalanced depth rest

/-- The label that a command goes to although there is no such label. -/
def missingLabel? (script : List Step) : Option Bytes :=
  script.findSome? fun s =>
    match s.action with
    | .jump _ target =>
      let isTarget (t : Step) : Bool := match t.action with
        | .label name => name = target
        | _ => false
      if target.isEmpty || script.any isTarget then none else some target
    | _ => none

/-- Reads a script. -/
def parseScript (text : Bytes) : Except String (Array Step) := do
  let (script, _) ← (steps extended (text.length + 1)).run text
  if !isBalanced 0 script then throw "unmatched \x60\x7b'"
  match missingLabel? script with
  | some name => throw ("can't find label for jump to \x60" ++ String.ofList name ++ "'")
  | none => return script.toArray

end SmtCount.Simulation.Tool.Edit
