import SmtCount.Simulation.Tool.Edit.Syntax
import SmtCount.Simulation.Tool.Options

/-!
# Editing lines

How an editing script is run: for each line of the input, the commands that are meant for it are done
one after another, and what has become of the line is printed.

## Main definitions

* `Editor` — the state.
* `sed` — the tool.
-/

namespace SmtCount.Simulation.Tool

open Kernel (Act)

namespace Edit

/-- What is printed after a line. -/
inductive Appended
  | text (bs : Bytes)
  | file (path : Bytes)

/-- How far the range of a command has come. -/
inductive RangeState
  | outside
  /-- Up to the line with this number, or up to a line that the end of the range says. -/
  | inside (last : Option Nat)
  | closed
  deriving DecidableEq

/-- What an editor knows. -/
structure Editor where
  script : Array Step
  /-- Is only printed what commands print? -/
  quiet : Bool
  /-- The files that have not been opened. -/
  files : List Bytes
  /-- The files that are written to, with their descriptors. -/
  outputs : List (Bytes × Nat) := []
  line : Nat := 0
  space : Bytes := []
  hold : Bytes := []
  /-- Has the line an end? -/
  hasEnd : Bool := true
  /-- Has what was printed last no end? -/
  lacksEnd : Bool := false
  appended : List Appended := []
  /-- Has something been replaced since the last line was read? -/
  replaced : Bool := false
  ranges : Array RangeState
  lastUsed : Option Matcher := none

/-- Where the script goes on. -/
inductive Onward
  | next
  | goTo (index : Nat)
  /-- The line is done; `prints` says if it is printed. -/
  | finished (prints : Bool)
  /-- The script begins again with what is left of the line. -/
  | again
  | quit (prints : Bool) (status : Nat)

/-! ### Input and output -/

/-- Opens the next file that can be opened; says if there is one. -/
def openNext : List Bytes → Tool (Option (List Bytes))
  | [] => pure none
  | file :: files => do
    if ← openInput file then pure (some files)
    else
      setStatus 2
      openNext files

/-- Is there no more input?  Goes on to the next file if there is more in it. -/
def atEnd : Nat → Editor → Tool (Bool × Editor)
  | 0, e => pure (true, e)
  | turns + 1, e => do
    if !(← Act.get).buffer.isEmpty then pure (false, e)
    else
      let more ← readChunk
      unread more
      if !more.isEmpty then pure (false, e)
      else
        match ← openNext e.files with
        | none => pure (true, { e with files := [] })
        | some files => atEnd turns { e with files }

/-- The next line of all files. -/
def readLine : Nat → Editor → Tool (Option (Bytes × Bool) × Editor)
  | 0, e => pure (none, e)
  | turns + 1, e => do
    match ← nextLine with
    | some (line, hasEnd) =>
      -- only the last line of all may have no end
      let (last, e) ← if hasEnd then pure (false, e) else atEnd (e.files.length + 1) e
      pure (some (line, hasEnd || !last), { e with line := e.line + 1, replaced := false })
    | none =>
      closeInput
      match ← openNext e.files with
      | none => pure (none, { e with files := [] })
      | some files => readLine turns { e with files }

/-- Prints something, in a line of its own. -/
def print (bs : Bytes) (hasEnd : Bool) (e : Editor) : Tool Editor := do
  let ending := (← Act.get).ending
  emit ((if e.lacksEnd then [ending] else []) ++ bs ++ if hasEnd then [ending] else [])
  pure { e with lacksEnd := !hasEnd }

/-- Prints what comes after a line. -/
def printAppended : List Appended → Editor → Tool Editor
  | [], e => pure e
  | .text bs :: rest, e => do
    if e.lacksEnd then emit ['\n']
    emit bs
    printAppended rest { e with lacksEnd := false }
  | .file path :: rest, e => do
    match ← Act.openFile path .read with
    | .error _ => printAppended rest e
    | .ok fd =>
      let s ← Act.get
      Act.set { s with input := fd }
      let bs ← readFrom Act.manyTurns []
      let _ ← Act.close fd
      Act.modify fun t => { t with input := s.input }
      if bs.isEmpty then printAppended rest e
      else
        if e.lacksEnd then emit ['\n']
        emit bs
        printAppended rest { e with lacksEnd := false }

/-- Prints a line to a file that the script writes to. -/
def printTo (path : Bytes) (bs : Bytes) (e : Editor) : Tool Editor := do
  if path = "/dev/stdout".toList then print bs e.hasEnd e
  else
    match e.outputs.find? (·.1 = path) with
    | none => pure e
    | some (_, fd) =>
      let _ ← Act.write fd (bs ++ ['\n'])
      pure e

/-- What ends with a line: it is printed, and what comes after it. -/
def finishLine (prints : Bool) (e : Editor) : Tool Editor := do
  let e ← if prints && !e.quiet then print e.space e.hasEnd e else pure e
  let e ← printAppended e.appended e
  pure { e with appended := [] }

/-! ### Lines that commands are meant for -/

/-- The expression that is meant, which counts as the one used last. -/
def useMatcher (m : Option Matcher) (e : Editor) : Tool (Matcher × Editor) :=
  match m.or e.lastUsed with
  | some m => pure (m, { e with lastUsed := some m })
  | none => die 1 "no previous regular expression".toList

/-- Does the line meet a condition? -/
def meets (a : Address) (e : Editor) : Tool (Bool × Editor) := do
  match a with
  | .line n => pure (e.line = n, e)
  | .every first step =>
    pure (if step = 0 then e.line = first else first ≤ e.line && (e.line - first) % step = 0, e)
  | .last => atEnd (e.files.length + 1) e
  | .pattern m =>
    let (m, e) ← useMatcher m e
    pure (m.occurs e.space, e)

/-- Does a range begin with the line?  Says how the range goes on. -/
def begins (first : Address) (last : RangeEnd) (e : Editor) : Tool (Bool × RangeState × Editor) := do
  let (found, e) ← meets first e
  if !found then pure (false, .outside, e)
  else
    let upTo (n : Nat) : RangeState := if n ≤ e.line then .outside else .inside (some n)
    match last with
    | .lines count => pure (true, upTo (e.line + count), e)
    | .multiple n => pure (true, upTo (if n = 0 then 0 else (e.line + n - 1) / n * n), e)
    | .address (.line n) => pure (true, upTo n, e)
    | .address _ => pure (true, .inside none, e)

/-- Is a command meant for the line? -/
def selects (index : Nat) (s : Selector) (e : Editor) : Tool (Bool × Editor) := do
  let (found, e) ← match s.first, s.last with
    | none, _ => pure (true, e)
    | some a, none => meets a e
    | some a, some last =>
      match e.ranges.getD index .outside with
      | .closed => pure (false, e)
      | .inside (some n) =>
        let state : RangeState := if n ≤ e.line then .outside else .inside (some n)
        if n < e.line then
          -- lines have been passed over, so that the line may begin the range anew
          let (found, state, e) ← begins a last e
          pure (found, { e with ranges := e.ranges.setIfInBounds index state })
        else pure (true, { e with ranges := e.ranges.setIfInBounds index state })
      | .inside none =>
        match last with
        | .address a =>
          let (found, e) ← meets a e
          let state : RangeState := if found then .outside else .inside none
          pure (true, { e with ranges := e.ranges.setIfInBounds index state })
        | _ => pure (true, e)
      | .outside =>
        let (found, state, e) ← begins a last e
        pure (found, { e with ranges := e.ranges.setIfInBounds index state })
  pure (found != s.negated, e)

/-- Where a command stands that comes after a block. -/
def afterBlock (script : Array Step) : Nat → Nat → Nat → Nat
  | 0, index, _ => index
  | steps + 1, index, depth =>
    match script[index]?.map Step.action with
    | none => index
    | some .enter => afterBlock script steps (index + 1) (depth + 1)
    | some .leave => if depth = 0 then index + 1 else afterBlock script steps (index + 1) (depth - 1)
    | some _ => afterBlock script steps (index + 1) depth

/-! ### Commands -/

/-- What a match is replaced by; `how` is the case that letters have, and `once` that of the next. -/
def replacement (text : Array Char) (found : Match) : List Piece → Option Char → Option Char → Bytes
  | [], _, _ => []
  | .letters c :: rest, how, _ =>
    match c with
    | 'L' | 'U' => replacement text found rest (some c) none
    | 'E' => replacement text found rest none none
    | c => replacement text found rest how (some c)
  | .text bs :: rest, how, once => add rest how once bs
  | .group n :: rest, how, once =>
    add rest how once
      (match found.group? n with
      | some (i, j) => (text.extract i j).toList
      | none => [])
where
  add (rest : List Piece) (how once : Option Char) (bs : Bytes) : Bytes :=
    let shaped := match how with
      | some 'L' => bs.map Char.toLower
      | some 'U' => bs.map Char.toUpper
      | _ => bs
    match shaped, once with
    | [], _ => replacement text found rest how once
    | c :: cs, some 'l' => c.toLower :: cs ++ replacement text found rest how none
    | c :: cs, some 'u' => c.toUpper :: cs ++ replacement text found rest how none
    | shaped, _ => shaped ++ replacement text found rest how none

/-- How far a substitution has come. -/
structure Replacing where
  /-- What is left of the line, and the byte before it. -/
  rest : Bytes
  before : Option Char := none
  index : Nat := 0
  /-- Where the last match has ended, if it was not empty. -/
  last : Option Nat := none
  /-- How many matches there have been. -/
  count : Nat := 0
  /-- The new line, last part first. -/
  seen : List Bytes := []
  done : Bool := false

namespace Replacing

/-- The new line, and whether something has been replaced. -/
def result (r : Replacing) : Bytes × Bool := ((r.rest :: r.seen).reverse.flatten, r.done)

/-- Goes past so many bytes, in the place of which the new line has others. -/
def pass (r : Replacing) (count : Nat) (new : Bytes) : Replacing :=
  { r with
    rest := r.rest.drop count
    before := if count = 0 then r.before else r.rest[count - 1]?
    index := r.index + count
    seen := new :: r.seen }

/-- Goes past so many bytes that stay. -/
def keep (r : Replacing) (count : Nat) : Replacing := r.pass count (r.rest.take count)

end Replacing

/-- Replaces matches, in at most so many steps. -/
def replace (m : Matcher) (s : Substitution) (text : Array Char) : Nat → Replacing → Bytes × Bool
  | 0, r => r.result
  | steps + 1, r =>
    match m.searchFrom text r.before r.index r.rest [] none with
    | none => r.result
    | some found =>
      let r := r.keep (found.start - r.index)
      let length := found.stop - found.start
      if length = 0 && r.last = some found.start then
        -- nothing right after a match does not count as one
        if r.rest.isEmpty then r.result else replace m s text steps { r.keep 1 with last := none }
      else
        let count := r.count + 1
        let chosen := if s.all then s.number ≤ count else count = s.number
        let r :=
          if chosen then r.pass length (replacement text found s.pieces none none) else r.keep length
        let r := { r with count, done := r.done || chosen }
        if chosen && !s.all then r.result
        else if length = 0 then
          if r.rest.isEmpty then r.result else replace m s text steps { r.keep 1 with last := none }
        else replace m s text steps { r with last := some found.stop }

/-- Does a substitution. -/
def substitute (s : Substitution) (e : Editor) : Tool Editor := do
  let (m, e) ← useMatcher s.matcher e
  let (space, done) := replace m s e.space.toArray (e.space.length + 2) { rest := e.space }
  if !done then pure e
  else
    let e := { e with space, replaced := true }
    let e ← if s.prints then print e.space e.hasEnd e else pure e
    match s.file with
    | some path => printTo path e.space e
    | none => pure e

/-- A line in visible form, cut into pieces of 69 bytes. -/
def visibleLine (bs : Bytes) : Bytes :=
  let shown (c : Char) : Bytes :=
    match c with
    | '\\' => ['\\', '\\']
    | '\n' => ['\\', 'n']
    | '\t' => ['\\', 't']
    | '\r' => ['\\', 'r']
    | c =>
      match c.toNat with
      | 7 => ['\\', 'a']
      | 8 => ['\\', 'b']
      | 11 => ['\\', 'v']
      | 12 => ['\\', 'f']
      | n =>
        if 32 ≤ n ∧ n < 127 then [c]
        else
          let digits := Nat.toDigits 8 n
          '\\' :: List.replicate (3 - digits.length) '0' ++ digits
  let step := fun (known : Bytes × Nat) (c : Char) =>
    let part := shown c
    if 69 < known.2 + part.length then (part.reverse ++ '\n' :: '\\' :: known.1, part.length)
    else (part.reverse ++ known.1, known.2 + part.length)
  ('$' :: (bs.foldl step ([], 0)).1).reverse

/-- Reads the next line as the line, for the command `n`; or adds it to the line, for `N`. -/
def readOn (adds : Bool) (e : Editor) : Tool (Onward × Editor) := do
  let (last, e) ← atEnd (e.files.length + 1) e
  if last then pure (.quit true 0, e)
  else
    let e ← if adds then
        let e ← printAppended e.appended e
        pure { e with appended := [] }
      else finishLine true e
    match ← readLine (e.files.length + 1) e with
    | (none, e) => pure (.quit false 0, e)
    | (some (line, hasEnd), e) =>
      pure (.next, { e with hasEnd, space := if adds then e.space ++ '\n' :: line else line })

/-- Does a command that is only a letter. -/
def doPlain (letter : Char) (e : Editor) : Tool (Onward × Editor) := do
  match letter with
  | '=' => return (.next, ← print (decimal e.line) true e)
  | 'd' => return (.finished false, e)
  | 'D' =>
    if e.space.contains '\n' then
      return (.again, { e with space := (e.space.dropWhile (· ≠ '\n')).tail })
    else return (.finished false, e)
  | 'g' => return (.next, { e with space := e.hold })
  | 'G' => return (.next, { e with space := e.space ++ '\n' :: e.hold })
  | 'h' => return (.next, { e with hold := e.space })
  | 'H' => return (.next, { e with hold := e.hold ++ '\n' :: e.space })
  | 'x' => return (.next, { e with space := e.hold, hold := e.space })
  | 'z' => return (.next, { e with space := [] })
  | 'F' => return (.next, ← print ['-'] true e)
  | 'l' => return (.next, ← print (visibleLine e.space) true e)
  | 'p' => return (.next, ← print e.space e.hasEnd e)
  | 'P' => return (.next, ← print (e.space.takeWhile (· ≠ '\n')) true e)
  | 'n' => readOn false e
  | _ => readOn true e

/-- Does a command. -/
def perform (index : Nat) (step : Step) (e : Editor) : Tool (Onward × Editor) := do
  match step.action with
  | .enter | .leave | .label _ => pure (.next, e)
  | .jump when target =>
    let (taken, e) := match when with
      | .always => (true, e)
      | .replaced expected => (e.replaced == expected, { e with replaced := false })
    if !taken then pure (.next, e)
    else
      let isTarget (s : Step) : Bool := match s.action with
        | .label name => name = target
        | _ => false
      match e.script.findIdx? isTarget with
      | some index => pure (.goTo index, e)
      | none => pure (.finished true, e)
  | .append text => pure (.next, { e with appended := e.appended ++ [.text text] })
  | .insert text => do
    if e.lacksEnd then emit ['\n']
    emit text
    pure (.next, { e with lacksEnd := false })
  | .change text => do
    let inside := match step.selector.last, e.ranges.getD index .outside with
      | some _, .inside _ => !step.selector.negated
      | _, _ => false
    if inside then pure (.finished false, e)
    else
      if e.lacksEnd then emit ['\n']
      emit text
      pure (.finished false, { e with lacksEnd := false })
  | .substitute s => return (.next, ← substitute s e)
  | .translate pairs =>
    let new (c : Char) : Char := ((pairs.find? (·.1 = c)).map Prod.snd).getD c
    pure (.next, { e with space := e.space.map new })
  | .plain letter => doPlain letter e
  | .quit prints status => pure (.quit prints status, e)
  | .readFile path => pure (.next, { e with appended := e.appended ++ [.file path] })
  | .writeFile path firstPart =>
    return (.next, ← printTo path (if firstPart then e.space.takeWhile (· ≠ '\n') else e.space) e)

/-- Runs the script from a command on, for at most so many commands. -/
def runFrom : Nat → Nat → Editor → Tool (Onward × Editor)
  | 0, _, e => pure (.quit false 0, e)
  | turns + 1, index, e => do
    match e.script[index]? with
    | none => pure (.finished true, e)
    | some step =>
      let (selected, e) ← selects index step.selector e
      if !selected then
        let next := match step.action with
          | .enter => afterBlock e.script e.script.size (index + 1) 0
          | _ => index + 1
        runFrom turns next e
      else
        match ← perform index step e with
        | (.next, e) => runFrom turns (index + 1) e
        | (.goTo index, e) => runFrom turns index e
        | result => pure result

/-- Runs the script for every line; `fresh` says if a line is to be read first. -/
def runLines : Nat → Bool → Editor → Tool Unit
  | 0, _, _ => pure ()
  | turns + 1, fresh, e => do
    let (line, e) ← if fresh then readLine (e.files.length + 1) e else pure (some (e.space, e.hasEnd), e)
    match line with
    | none => pure ()
    | some (space, hasEnd) =>
      let e := { e with space, hasEnd }
      match ← runFrom Act.manyTurns 0 e with
      | (.finished prints, e) =>
        let e ← finishLine prints e
        runLines turns true e
      | (.again, e) =>
        let e ← finishLine false e
        runLines turns false e
      | (.quit prints status, e) =>
        let _ ← finishLine prints e
        if status ≠ 0 then setStatus status
      | (_, e) => runLines turns true e

/-- Opens the files that a script writes to. -/
def openOutputs : List Bytes → Tool (List (Bytes × Nat))
  | [] => pure []
  | path :: paths => do
    if path = "/dev/stdout".toList then openOutputs paths
    else
      match ← Act.openFile path .write with
      | .ok fd => return (path, fd) :: (← openOutputs paths)
      | .error error => die 4 ("couldn't open file ".toList ++ path ++ ": ".toList ++ error.message.toList)

/-- The files that a script writes to. -/
def outputsOf (script : Array Step) : List Bytes :=
  (script.toList.filterMap fun s =>
    match s.action with
    | .writeFile path _ => some path
    | .substitute s => s.file
    | _ => none).eraseDups

end Edit

open Edit in
/-- Edits lines as a script says. -/
def sed (args : List Bytes) : Tool Unit := do
  let o ← parseOptions (grammar "nrEsuz#" "efl"
    [("quiet", 'n'), ("silent", 'n'), ("expression", 'e'), ("file", 'f'), ("regexp-extended", 'E'),
      ("separate", 's'), ("unbuffered", 'u'), ("null-data", 'z'), ("line-length", 'l'),
      ("posix", '#')]) 1 args
  let parts := o.found.filter fun f => f.1 = 'e' || f.1 = 'f'
  if parts.isEmpty && o.operands.isEmpty then die 1 "usage: sed [OPTION]... SCRIPT [FILE]...".toList
  let texts ← scriptTexts (if parts.isEmpty then [('e', o.operands.headD [])] else parts)
  let text := List.intercalate ['\n'] texts
  match parseScript (o.has 'E' || o.has 'r') text with
  | .error message => die 1 ("-e expression #1, char 0: ".toList ++ message.toList)
  | .ok script =>
    let outputs ← openOutputs (outputsOf script)
    let operands := if parts.isEmpty then o.operands.drop 1 else o.operands
    let operands := if operands.isEmpty then [['-']] else operands
    Act.modify fun s =>
      { s with
        chunk := if o.has 'u' then 1 else s.chunk
        eager := s.eager || o.has 'u'
        ending := if o.has 'z' then byteOf 0 else '\n' }
    match ← openNext operands with
    | none => pure ()
    | some files =>
      runLines Act.manyTurns true
        { script, files, outputs
          quiet := o.has 'n' || text.take 3 = "#n\n".toList
          ranges := script.map fun s =>
            match s.selector.first, s.selector.last with
            | some (.line 0), some (.address (.pattern _)) => .inside none
            | _, _ => .outside }
where
  scriptTexts : List (Char × Bytes) → Tool (List Bytes)
    | [] => pure []
    | ('f', file) :: rest => do
      if ← openInput file then
        let bs ← readAll
        closeInput
        return (if bs.getLast? = some '\n' then bs.dropLast else bs) :: (← scriptTexts rest)
      else die 1 []
    | (_, text) :: rest => return text :: (← scriptTexts rest)

end SmtCount.Simulation.Tool
