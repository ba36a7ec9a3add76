import SmtCount.Simulation.Regex.Parser
import SmtCount.Simulation.Tool.Options

/-!
# Searching lines

A tool that prints the lines of its input in which a pattern occurs.

## Main definitions

* `Search` — what is looked for, and what is printed.
* `grep` — the tool.
-/

namespace SmtCount.Simulation.Tool

open Kernel (Act)

/-- What is looked for, and what is printed. -/
structure Search where
  matcher : Matcher
  options : Options
  /-- Are the names of the files printed? -/
  named : Bool
  /-- How many lines before and after each that is found are printed. -/
  before : Nat
  after : Nat
  /-- After how many lines the search of a file ends. -/
  limit : Option Nat

/-- How far the search of a file has come. -/
structure Searching where
  line : Nat := 0
  /-- How many lines have been found. -/
  found : Nat := 0
  /-- The lines that may be printed because one is found after them, last one first. -/
  kept : List (Nat × Bytes) := []
  /-- How many lines are printed because one has been found before them. -/
  owed : Nat := 0
  /-- The number of the last line that has been printed. -/
  printed : Option Nat := none

namespace Search

variable (s : Search)

def has (c : Char) : Bool := s.options.has c

/-- Are only names, numbers or nothing printed instead of lines? -/
def isTerse : Bool := s.has 'q' || s.has 'c' || s.has 'l' || s.has 'L'

/-- Prints a line, after its file and its number. -/
def printLine (file : Bytes) (mark : Char) (line : Nat) (text : Bytes) : Tool Unit :=
  emitLine ((if s.named then file ++ [mark] else []) ++
    (if s.has 'n' then decimal line ++ [mark] else []) ++ text)

/-- The parts of a line that match, in at most so many steps. -/
def parts (text : Bytes) : Nat → Nat → List Bytes
  | 0, _ => []
  | steps + 1, start =>
    match s.matcher.search text start with
    | none => []
    | some found =>
      if found.stop = found.start then
        if found.start < text.length then parts text steps (found.start + 1) else []
      else (text.take found.stop).drop found.start :: parts text steps found.stop

/-- Prints several texts of one line. -/
def printParts (file : Bytes) (line : Nat) : List Bytes → Tool Unit
  | [] => pure ()
  | part :: rest => do
    s.printLine file ':' line part
    printParts file line rest

/-- Prints lines that are near to one that has been found. -/
def printContext (file : Bytes) : List (Nat × Bytes) → Tool Unit
  | [] => pure ()
  | (line, text) :: rest => do
    s.printLine file '-' line text
    printContext file rest

/-- Prints a line that has been found, and what comes with it. -/
def printFound (file : Bytes) (g : Searching) (text : Bytes) : Tool Unit := do
  let kept := g.kept.reverse
  let first := (kept.head?.map Prod.fst).getD g.line
  if (0 < s.before || 0 < s.after) && g.printed.any (· + 1 < first) then emitLine ['-', '-']
  if s.has 'o' then
    if !s.has 'v' then s.printParts file g.line (s.parts text (text.length + 1) 0)
  else
    s.printContext file kept
    s.printLine file ':' g.line text

/-- Searches the lines of the input, in at most so many turns. -/
def run (file : Bytes) : Nat → Searching → Tool Searching
  | 0, g => pure g
  | turns + 1, g => do
    match ← nextLine with
    | none => pure g
    | some (text, _) =>
      let g := { g with line := g.line + 1 }
      if s.matcher.occurs text != s.has 'v' then
        let g := { g with found := g.found + 1 }
        if s.has 'q' || s.has 'l' || s.has 'L' then pure g
        else
          if !s.has 'c' then s.printFound file g text
          let g := { g with kept := [], owed := s.after, printed := some g.line }
          if s.limit = some g.found then
            if s.after = 0 then pure g else rest turns g
          else run file turns g
      else if s.isTerse then run file turns g
      else if 0 < g.owed then
        if !s.has 'o' then s.printLine file '-' g.line text
        run file turns { g with owed := g.owed - 1, printed := some g.line }
      else run file turns { g with kept := ((g.line, text) :: g.kept).take s.before }
where
  /-- Prints what comes after the last line that is looked for. -/
  rest : Nat → Searching → Tool Searching
    | 0, g => pure g
    | turns + 1, g => do
      if g.owed = 0 then pure g
      else
        match ← nextLine with
        | none => pure g
        | some (text, _) =>
          let g := { g with line := g.line + 1 }
          if s.matcher.occurs text != s.has 'v' then pure g
          else
            if !s.has 'o' then s.printLine file '-' g.line text
            rest turns { g with owed := g.owed - 1, printed := some g.line }

/-- Searches files; says whether something has been found. -/
def searchFiles (found : Bool) : List Bytes → Tool Bool
  | [] => pure found
  | file :: files => do
    if ← openSearched file then
      let shown := if file = ['-'] then "(standard input)".toList else file
      let g ← if s.limit = some 0 then pure {} else s.run shown Act.manyTurns {}
      closeInput
      let some := 0 < g.found
      if s.has 'q' then
        if some then Act.exit 0
      else if s.has 'l' then
        if some then emitLine shown
      else if s.has 'L' then
        if !some then emitLine shown
      else if s.has 'c' then
        emitLine ((if s.named then shown ++ [':'] else []) ++ decimal g.found)
      searchFiles (found || some) files
    else searchFiles found files
where
  openSearched (file : Bytes) : Tool Bool := do
    if s.has 's' && file ≠ ['-'] then
      match ← Act.openFile file .read with
      | .ok fd =>
        Act.modify fun t => { t with input := fd, buffer := [] }
        pure true
      | .error _ =>
        setStatus 2
        pure false
    else
      let opened ← openInput file
      if !opened then setStatus 2
      pure opened

end Search

/-- The options with a number that stands by itself as the number of lines around what is found. -/
def spellContext : List Bytes → List Bytes
  | ('-' :: c :: cs) :: rest =>
    if (c :: cs).all Char.isDigit then ('-' :: 'C' :: c :: cs) :: spellContext rest
    else ('-' :: c :: cs) :: (if c = '-' && cs.isEmpty then rest else spellContext rest)
  | arg :: rest => arg :: spellContext rest
  | [] => []

/-- The lines of some files that hold patterns. -/
def patternsOf : List Bytes → Tool (List Bytes)
  | [] => pure []
  | file :: files => do
    if ← openInput file then
      let bs ← readAll
      closeInput
      return linesOf bs ++ (← patternsOf files)
    else die 2 []

/-- The expression for a pattern. -/
def searchedRegex (o : Options) (extended : Bool) (literal : Bool) (pattern : Bytes) :
    Except String Regex := do
  let dialect : Dialect := { extended, ignoresCase := o.has 'i' || o.has 'y' }
  let r ← if literal then pure (Regex.literal dialect pattern) else Prod.fst <$> Regex.parse dialect pattern
  if o.has 'x' then return .seq (.edge .textStart) (.seq r (.edge .textEnd))
  else if o.has 'w' then return .seq (.edge .noWordBefore) (.seq r (.edge .noWordAfter))
  else return r

/-- Prints the lines in which a pattern occurs; `kind` says how patterns are written if no option says
it. -/
def grep (kind : Char) (args : List Bytes) : Tool Unit := do
  let o ← parseOptions (grammar "EFGPivcnoqslLhHwxyazbuUrRI#T" "efmABCdD"
    [("extended-regexp", 'E'), ("fixed-strings", 'F'), ("basic-regexp", 'G'), ("ignore-case", 'i'),
      ("invert-match", 'v'), ("count", 'c'), ("line-number", 'n'), ("only-matching", 'o'),
      ("quiet", 'q'), ("silent", 'q'), ("no-messages", 's'), ("files-with-matches", 'l'),
      ("files-without-match", 'L'), ("no-filename", 'h'), ("with-filename", 'H'),
      ("word-regexp", 'w'), ("line-regexp", 'x'), ("regexp", 'e'), ("file", 'f'),
      ("max-count", 'm'), ("after-context", 'A'), ("before-context", 'B'), ("context", 'C'),
      ("text", 'a'), ("null-data", 'z'), ("line-buffered", '#'), ("byte-offset", 'b'),
      ("color", 'T'), ("colour", 'T')]) 2 (spellContext args)
  let given := o.all 'e'
  let files := o.all 'f'
  let fromFiles ← patternsOf files
  let own := given.isEmpty && files.isEmpty
  if own && o.operands.isEmpty then
    die 2 "usage: grep [OPTION]... PATTERNS [FILE]...".toList
  let texts := if own then o.operands.take 1 else given
  let patterns := texts.flatMap (·.splitOn '\n') ++ fromFiles
  let operands := if own then o.operands.drop 1 else o.operands
  let written := (o.last? ['E', 'F', 'G', 'P']).getD kind
  match patterns.mapM (searchedRegex o (written = 'E' || written = 'P') (written = 'F')) with
  | .error message => die 2 message.toList
  | .ok regexes =>
    let matcher := match regexes.reverse with
      | [] => (Regex.byte fun _ => false).matcher
      | last :: others => (others.foldl (fun r other => .either other r) last).matcher
    let number (c : Char) : Option Nat := (o.get? c).bind amount?
    let around := (number 'C').getD 0
    let operands := if operands.isEmpty then [['-']] else operands
    let search : Search :=
      { matcher, options := o
        named := o.last? ['h', 'H'] = some 'H' || o.last? ['h', 'H'] = none && 1 < operands.length
        before := (number 'B').getD around
        after := (number 'A').getD around
        limit := number 'm' }
    Act.modify fun s =>
      { s with
        eager := s.eager || o.has '#'
        ending := if o.has 'z' then byteOf 0 else '\n' }
    let found ← search.searchFiles false operands
    if (← Act.get).status = 0 then setStatus (if found then 0 else 1)

end SmtCount.Simulation.Tool
