import SmtCount.Simulation.Tool.Options

/-!
# Tools that copy

Tools that print what they read, all of it or a part.

## Main definitions

* `cat`, `head`, `tail`, `tac`, `tee`, `yes` — the tools.
-/

namespace SmtCount.Simulation.Tool

open Kernel (Act Access)

/-! ### All of the input -/

/-- Writes the input as it comes. -/
def copyThrough : Tool Unit :=
  Act.forever do
    match ← readChunk with
    | [] => pure false
    | bs =>
      put bs
      pure true

/-- A byte as visible text. -/
def visible (tabs : Bool) (c : Char) : Bytes :=
  let low (n : Nat) : Bytes :=
    if n < 32 then ['^', Char.ofNat (n + 64)] else if n = 127 then ['^', '?'] else [Char.ofNat n]
  if c = '\t' then (if tabs then ['^', 'I'] else [c])
  else if 128 ≤ c.toNat then 'M' :: '-' :: low (c.toNat - 128)
  else low c.toNat

/-- The number of a line, as it stands before the line. -/
def lineNumber (n : Nat) : Bytes :=
  let digits := decimal n
  List.replicate (6 - digits.length) ' ' ++ digits ++ ['\t']

/-- Writes the lines of the input with additions; gives the number of the last one. -/
def catLines (o : Options) : Tool Unit := do
  let numbersFilled := o.has 'b'
  let numbers := o.has 'n' || numbersFilled
  let shows := o.has 'v' || o.has 'A' || o.has 'e' || o.has 't'
  let tabs := o.has 'T' || o.has 'A' || o.has 't'
  let ends := o.has 'E' || o.has 'A' || o.has 'e'
  go numbers numbersFilled (o.has 's') shows tabs ends Act.manyTurns 1 false
where
  go (numbers numbersFilled squeezes shows tabs ends : Bool) : Nat → Nat → Bool → Tool Unit
    | 0, _, _ => pure ()
    | turns + 1, n, wasEmpty => do
      match ← nextLine with
      | none => pure ()
      | some (line, hasEnd) =>
        if squeezes && line.isEmpty && wasEmpty then
          go numbers numbersFilled squeezes shows tabs ends turns n true
        else
          let numbered := numbers && !(numbersFilled && line.isEmpty)
          let text := line.flatMap fun c =>
            if shows || c = '\t' && tabs then visible tabs c else [c]
          put ((if numbered then lineNumber n else []) ++ text ++
            (if ends && hasEnd then ['$'] else []) ++ (if hasEnd then ['\n'] else []))
          go numbers numbersFilled squeezes shows tabs ends turns (if numbered then n + 1 else n)
            line.isEmpty

/-- Prints files. -/
def cat (args : List Bytes) : Tool Unit := do
  let o ← parseOptions (grammar "AbeEnstTuv" ""
    [("show-all", 'A'), ("number-nonblank", 'b'), ("show-ends", 'E'), ("number", 'n'),
      ("squeeze-blank", 's'), ("show-tabs", 'T'), ("show-nonprinting", 'v')]) 1 args
  let plain := (o.found.filter (·.1 ≠ 'u')).isEmpty
  forFiles o.operands fun _ => if plain then copyThrough else catLines o

/-! ### The start of the input -/

/-- So many lines from the start of a text, and how many are missing. -/
def takeLines : Nat → Bytes → Bytes × Nat
  | 0, _ => ([], 0)
  | count + 1, bs =>
    let line := bs.takeWhile (· ≠ '\n')
    match bs.drop line.length with
    | [] => (line, count + 1)
    | _ :: rest =>
      let (more, missing) := takeLines count rest
      (line ++ '\n' :: more, missing)

/-- Prints so many lines of the input, in at most so many chunks. -/
def headLines : Nat → Nat → Tool Unit
  | 0, _ | _ + 1, 0 => pure ()
  | chunks + 1, count => do
    match ← readChunk with
    | [] => pure ()
    | bs =>
      let (lines, missing) := takeLines count bs
      emit lines
      headLines chunks missing

/-- Prints so many bytes of the input, in at most so many chunks. -/
def headBytes : Nat → Nat → Tool Unit
  | 0, _ | _ + 1, 0 => pure ()
  | chunks + 1, count => do
    let s ← Act.get
    match ← Act.read s.input (min count s.chunk) with
    | .ok (c :: cs) =>
      emit (c :: cs)
      headBytes chunks (count - (c :: cs).length)
    | _ => pure ()

/-- The number of lines from the end of a text on which the part to be printed begins. -/
def dropLastLines (count : Nat) (bs : Bytes) : Bytes :=
  let lines := linesOf bs
  let kept := lines.take (lines.length - count)
  -- a last line without an end keeps none
  if kept.length = lines.length then bs else kept.flatMap (· ++ ['\n'])

/-- The arguments with a count that stands by itself as the argument of an option. -/
def spellCount : List Bytes → List Bytes
  | ('-' :: c :: cs) :: rest =>
    if (c :: cs).all Char.isDigit then "-n".toList :: (c :: cs) :: rest else ('-' :: c :: cs) :: rest
  | args => args

/-- Prints the name of a file over its part, if there are several files. -/
def title (shown : Bool) (first : Bool) (file : Bytes) : Tool Unit := do
  if shown then
    let name := if file = ['-'] then "standard input".toList else file
    emit ((if first then [] else ['\n']) ++ "==> ".toList ++ name ++ " <==\n".toList)

/-- The part of a file that a count asks for. -/
structure Part where
  lines : Bool
  /-- Is the count one of what is left out at the other end? -/
  other : Bool
  count : Nat

/-- The part that options ask for; `sign` marks a count of what is left out. -/
def partOf (o : Options) (sign : Char) : Tool Part := do
  let letter := (o.last? ['n', 'c']).getD 'n'
  let text := (o.get? letter).getD "10".toList
  let plain := match text with
    | '-' :: cs | '+' :: cs => cs
    | cs => cs
  match amount? plain with
  | some count => pure ⟨letter = 'n', text.head? = some sign, count⟩
  | none =>
    die 1 ("invalid number of ".toList ++ (if letter = 'n' then "lines" else "bytes").toList ++
      ": '".toList ++ text ++ ['\''])

/-- Prints a part of each of some files, and titles if there are several. -/
def printParts (o : Options) (act : Tool Unit) : Tool Unit := do
  let files := if o.operands.isEmpty then [['-']] else o.operands
  let shown := o.has 'v' || 1 < files.length && !o.has 'q'
  go shown true files
where
  go (shown first : Bool) : List Bytes → Tool Unit
    | [] => pure ()
    | file :: files => do
      if ← openInput file then
        title shown first file
        act
        closeInput
        go shown false files
      else go shown first files

/-- The options of tools that print parts. -/
def partGrammar : Grammar :=
  grammar "qvzfF" "ncs"
    [("lines", 'n'), ("bytes", 'c'), ("quiet", 'q'), ("silent", 'q'), ("verbose", 'v'),
      ("follow", 'f')]

/-- Prints the start of files. -/
def head (args : List Bytes) : Tool Unit := do
  let o ← parseOptions partGrammar 1 (spellCount args)
  let part ← partOf o '-'
  printParts o do
    if part.other then
      let bs ← readAll
      emit (if part.lines then dropLastLines part.count bs else bs.take (bs.length - part.count))
    else if part.lines then headLines Act.manyTurns part.count
    else headBytes Act.manyTurns part.count

/-! ### The end of the input -/

/-- So many lines from the end of a text. -/
def lastLines (count : Nat) (bs : Bytes) : Bytes :=
  let lines := linesOf bs
  let skipped := lines.take (lines.length - count)
  bs.drop (skipped.flatten.length + skipped.length)

/-- Drops so many lines from the start of a text; gives how many are missing. -/
def dropLines : Nat → Bytes → Bytes × Nat
  | 0, bs => (bs, 0)
  | count + 1, bs =>
    match bs.dropWhile (· ≠ '\n') with
    | [] => ([], count + 1)
    | _ :: rest => dropLines count rest

/-- Prints the input but for so many lines at its start, in at most so many chunks. -/
def tailFromLine : Nat → Nat → Tool Unit
  | 0, _ => pure ()
  | chunks + 1, count => do
    match ← readChunk with
    | [] => pure ()
    | bs =>
      let (rest, missing) := dropLines count bs
      emit rest
      tailFromLine chunks missing

/-- Prints the end of files. -/
def tail (args : List Bytes) : Tool Unit := do
  let args := match args with
    | ('+' :: c :: cs) :: rest => "-n".toList :: ('+' :: c :: cs) :: rest
    | args => spellCount args
  let o ← parseOptions partGrammar 1 args
  let part ← partOf o '+'
  printParts o do
    if part.other then
      if part.lines then tailFromLine Act.manyTurns (part.count - 1)
      else
        let bs ← readAll
        emit (bs.drop (part.count - 1))
    else
      let bs ← readAll
      emit (if part.lines then lastLines part.count bs else bs.drop (bs.length - part.count))
  if o.has 'f' || o.has 'F' then
    flush
    Act.forever do
      Act.pause 1000000000
      pure true

/-! ### Other copies -/

/-- Prints the lines of files, the last one first. -/
def tac (args : List Bytes) : Tool Unit := do
  forFiles (args.filter (· ≠ ['-', '-'])) fun _ => do
    let bs ← readAll
    let lines := bs.splitOn '\n'
    -- each line ends where it ended before, so the last one may have no end
    let ends := lines.dropLast.map (· ++ ['\n']) ++ [lines.getLast?.getD []]
    emit (ends.reverse.flatten)

/-- Opens the files to which a copy goes. -/
def openCopies (access : Access) : List Bytes → Tool (List Nat)
  | [] => pure []
  | file :: files => do
    match ← Act.openFile file access with
    | .ok fd => return fd :: (← openCopies access files)
    | .error e =>
      complain (file ++ ": ".toList ++ e.message.toList)
      setStatus 1
      openCopies access files

/-- Writes to several descriptors. -/
def putAll (bs : Bytes) : List Nat → Tool Unit
  | [] => pure ()
  | fd :: fds => do
    let _ ← Act.write fd bs
    putAll bs fds

/-- Prints the input, and writes it to files as well. -/
def tee (args : List Bytes) : Tool Unit := do
  let o ← parseOptions (grammar "aip" "" [("append", 'a'), ("ignore-interrupts", 'i')]) 1 args
  let fds ← openCopies (if o.has 'a' then .append else .write) o.operands
  Act.forever do
    match ← readChunk with
    | [] => pure false
    | bs =>
      put bs
      putAll bs fds
      pure true

/-- Prints a line again and again. -/
def yes (args : List Bytes) : Tool Unit := do
  let words := args.filter (· ≠ ['-', '-'])
  let line := (if words.isEmpty then ['y'] else List.intercalate [' '] words) ++ ['\n']
  let block := (List.replicate (max 1 (8192 / line.length)) line).flatten
  Act.forever do
    put block
    pure true

end SmtCount.Simulation.Tool
