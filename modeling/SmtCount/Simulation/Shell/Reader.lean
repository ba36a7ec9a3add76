import SmtCount.Simulation.Shell.Syntax

/-!
# Reading bytes of scripts

A script is read from the front.  The part of it that has come so far may end in the middle of
something; then one has to begin again when more has come.

A line that ends in a backslash goes on with the next one, so a reader that looks at the next byte
does not see the two bytes between them.

## Main definitions

* `Source` — what has not been read.
* `Reader α` — reads an `α`.
* `Reader.peek`, `Reader.skip` — look at the next byte, and go past it.
-/

namespace SmtCount.Simulation.Shell

/-- A text that a redirection has announced, and that begins on the next line. -/
structure Announced where
  number : Nat
  /-- The line that ends the text. -/
  ending : Bytes
  /-- Are tabs at the start of its lines dropped? -/
  dropTabs : Bool
  /-- Are there expansions in it? -/
  expands : Bool

/-- What has not been read, and what has come up in reading. -/
structure Source where
  rest : Bytes
  /-- Is there nothing after `rest`? -/
  final : Bool := true
  line : Nat := 1
  announced : List Announced := []
  /-- The texts in the script. -/
  documents : Table Nat Word := {}
  nextDocument : Nat := 0

/-- Why nothing can be read. -/
inductive Trouble
  /-- The text ends in the middle of something. -/
  | unfinished
  | wrong (line : Nat) (message : String)

/-- Reads an `α`. -/
abbrev Reader := StateT Source (Except Trouble)

/-- Does the byte end a word? -/
def isMeta (c : Char) : Bool :=
  c == ' ' || c == '\t' || c == '\n' || c == ';' || c == '&' || c == '|' || c == '<' || c == '>' ||
    c == '(' || c == ')'

/-- The reserved words. -/
def keywords : List String :=
  ["!", "\x7b", "\x7d", "case", "do", "done", "elif", "else", "esac", "fi", "for", "if", "in", "then",
    "until", "while"]

namespace Reader

/-- Fails with a message. -/
def wrong {α : Type} (message : String) : Reader α := do
  throw (.wrong (← get).line message)

/-- Drops the ends of lines that go on with the next one; gives how many there were. -/
def joinLines : Bytes → Nat → Bytes × Nat
  | '\\' :: '\n' :: cs, lines => joinLines cs (lines + 1)
  | cs, lines => (cs, lines)

/-- The bytes from here on, of which at least `least` are there unless the script ends before.  A
backslash may turn out to belong to the end of a line, so it is not the last byte. -/
def ahead (least : Nat) : Reader Bytes := do
  let s ← get
  let (cs, lines) := joinLines s.rest 0
  if lines ≠ 0 then set { s with rest := cs, line := s.line + lines }
  if !s.final && ((cs.drop (least - 1)).isEmpty || cs == ['\\']) then throw .unfinished
  return cs

/-- The next byte, if there is one. -/
def peek : Reader (Option Char) := do
  return (← ahead 1).head?

/-- Goes past a byte. -/
def skip : Reader Unit :=
  modify fun s =>
    { s with
      rest := s.rest.tail
      line := if s.rest.head? = some '\n' then s.line + 1 else s.line }

/-- Goes past the next byte if it is `c`. -/
def skipIf (c : Char) : Reader Bool := do
  if (← peek) = some c then
    skip
    return true
  else return false

/-- Reads the next byte, which may belong to the end of a line that goes on. -/
def rawByte : Reader (Option Char) := do
  let s ← get
  match s.rest with
  | [] => if s.final then return none else throw .unfinished
  | c :: _ =>
    skip
    return some c

/-- Reads bytes as long as they have a property. -/
def takeWhile (p : Char → Bool) : Reader Bytes := do
  let s ← get
  let taken := s.rest.takeWhile p
  let rest := s.rest.drop taken.length
  if rest.isEmpty && !s.final then throw .unfinished
  set { s with rest, line := s.line + taken.count '\n' }
  return taken

/-- Reads the bytes of a name. -/
def nameBytes : Reader Bytes := do
  let _ ← peek
  takeWhile isNameChar

/-- Goes past blanks and a comment. -/
def skipBlanks : Nat → Reader Unit
  | 0 => pure ()
  | steps + 1 => do
    match ← peek with
    | some ' ' | some '\t' =>
      skip
      skipBlanks steps
    | some '#' =>
      let _ ← takeWhile (· ≠ '\n')
    | _ => pure ()

/-- The bytes up to the end of the word that comes next. -/
def wordAhead : Reader Bytes := do
  let cs ← ahead 1
  let word := cs.takeWhile fun c => !isMeta c
  if (cs.drop word.length).isEmpty && !(← get).final then throw .unfinished
  return word

/-- The reserved word that comes next, if one does. -/
def keyword? : Reader (Option String) := do
  let word ← wordAhead
  let word := String.ofList word
  return if keywords.contains word then some word else none

/-- Goes past a reserved word if it comes next. -/
def skipKeyword (word : String) : Reader Bool := do
  if (← keyword?) = some word then
    modify fun s => { s with rest := s.rest.drop word.length }
    return true
  else return false

/-- What comes next, as messages name it. -/
def tokenAhead : Reader String := do
  match ← ahead 2 with
  | [] => return "end of file"
  | '\n' :: _ => return "newline"
  | ';' :: ';' :: _ => return "\";;\""
  | ';' :: _ => return "\";\""
  | '&' :: '&' :: _ => return "\"&&\""
  | '&' :: _ => return "\"&\""
  | '|' :: '|' :: _ => return "\"||\""
  | '|' :: _ => return "\"|\""
  | '(' :: _ => return "\"(\""
  | ')' :: _ => return "\")\""
  | '<' :: _ | '>' :: _ => return "redirection"
  | _ =>
    match ← keyword? with
    | some word => return "\"" ++ word ++ "\""
    | none => return "word"

/-- Fails because of what comes next. -/
def surprised {α : Type} (hint : String) : Reader α := do
  let token ← tokenAhead
  -- the end of a line counts as a part of the next one
  if (← ahead 1).head? = some '\n' then skip
  wrong ("Syntax error: " ++ token ++ " unexpected" ++ hint)

/-- Fails because of what comes next. -/
def unexpected {α : Type} : Reader α := surprised ""

/-- Fails because something else should come next. -/
def expected {α : Type} (what : String) : Reader α := surprised (" (expecting \"" ++ what ++ "\")")

/-- Goes past a reserved word, which has to come next. -/
def requireKeyword (word : String) : Reader Unit := do
  if !(← skipKeyword word) then expected word

end Reader

end SmtCount.Simulation.Shell
