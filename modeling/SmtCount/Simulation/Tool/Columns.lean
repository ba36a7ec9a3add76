import SmtCount.Simulation.Text.Numeral
import SmtCount.Simulation.Tool.Options

/-!
# Tools for columns

Tools that take lines apart, put them side by side, or change how wide they are.

## Main definitions

* `Ranges` — the columns that a list names.
* `cut`, `paste`, `fold`, `expand`, `rev` — the tools.
-/

namespace SmtCount.Simulation.Tool

open Kernel (Act)

/-! ### Lists of columns -/

/-- Some columns, counted from one; `none` stands for all that come after the first. -/
abbrev Ranges := List (Nat × Option Nat)

namespace Ranges

/-- Reads a range. -/
def readRange? (bs : Bytes) : Option (Nat × Option Nat) :=
  let number? (ds : Bytes) : Option Nat :=
    if !ds.isEmpty && ds.all Char.isDigit then some (Nat.ofDigitChars 10 ds 0) else none
  let first := bs.takeWhile (· ≠ '-')
  match bs.drop first.length with
  | [] => (number? first).bind fun n => if n = 0 then none else some (n, some n)
  | _ :: last =>
    if first.isEmpty && last.isEmpty then none
    else do
      let m ← if first.isEmpty then some 1 else number? first
      if m = 0 then none
      if last.isEmpty then some (m, none)
      else
        let n ← number? last
        if n < m then none else some (m, some n)

/-- Puts ranges together that have columns in common; they are in the order of their starts. -/
def merge : Ranges → Ranges
  | [] => []
  | (a, b) :: rest =>
    match merge rest with
    | [] => [(a, b)]
    | (c, d) :: more =>
      match b, d with
      | none, _ => [(a, none)]
      | some b, none => if c ≤ b then [(a, none)] else (a, some b) :: (c, d) :: more
      | some b, some d =>
        if c ≤ b then (a, some (max b d)) :: more else (a, some b) :: (c, some d) :: more

/-- Reads a list of ranges. -/
def read? (bs : Bytes) : Option Ranges :=
  ((bs.splitOnP fun c => c == ',' || Text.isGap c).mapM readRange?).map fun rs =>
    merge (rs.mergeSort fun a b => a.1 ≤ b.1)

/-- Is a column named? -/
def has (rs : Ranges) (n : Nat) : Bool :=
  rs.any fun (a, b) => a ≤ n && b.all (n ≤ ·)

/-- Does a range begin with a column? -/
def begins (rs : Ranges) (n : Nat) : Bool := rs.any (·.1 = n)

/-- The columns that are not named. -/
def complement (rs : Ranges) : Ranges := go 1 rs
where
  go (start : Nat) : Ranges → Ranges
    | [] => [(start, none)]
    | (a, b) :: rest =>
      let gap := if start < a then [(start, some (a - 1))] else []
      match b with
      | none => gap
      | some b => gap ++ go (b + 1) rest

end Ranges

/-- The bytes of a line in some columns, with a text before every range but the first. -/
def pickBytes (ranges : Ranges) (between : Bytes) (line : Bytes) : Bytes :=
  let picked := (line.zipIdx 1).filter fun (_, n) => ranges.has n
  match picked with
  | [] => []
  | (c, _) :: rest =>
    if between.isEmpty then picked.map Prod.fst
    else c :: rest.flatMap fun (c, n) => if ranges.begins n then between ++ [c] else [c]

/-- Prints some columns of lines. -/
def cut (args : List Bytes) : Tool Unit := do
  let o ← parseOptions (grammar "snz~" "bcdfo"
    [("bytes", 'b'), ("characters", 'c'), ("delimiter", 'd'), ("fields", 'f'),
      ("only-delimited", 's'), ("complement", '~'), ("output-delimiter", 'o'),
      ("zero-terminated", 'z')]) 1 args
  match o.found.filter fun f => "bcf".toList.contains f.1 with
  | [] => die 1 "you must specify a list of bytes, characters, or fields".toList
  | _ :: _ :: _ => die 1 "only one list may be specified".toList
  | [(kind, list)] =>
    match Ranges.read? list with
    | none => die 1 ("invalid field value '".toList ++ list ++ ['\''])
    | some ranges =>
      let ranges := if o.has '~' then ranges.complement else ranges
      let mark := (o.get? 'd').getD ['\t']
      if 1 < mark.length then die 1 "the delimiter must be a single character".toList
      if kind ≠ 'f' && o.has 'd' then
        die 1 "an input delimiter may be specified only when operating on fields".toList
      let separator := mark.head?.getD (byteOf 0)
      if o.has 'z' then Act.modify fun s => { s with ending := byteOf 0 }
      forFiles o.operands fun _ => forEachLine fun line =>
        if kind ≠ 'f' then emitLine (pickBytes ranges ((o.get? 'o').getD []) line)
        else if line.contains separator then
          let fields := ((line.splitOn separator).zipIdx 1).filter fun (_, n) => ranges.has n
          emitLine (List.intercalate ((o.get? 'o').getD [separator]) (fields.map Prod.fst))
        else if o.has 's' then pure ()
        else emitLine line

/-! ### Side by side -/

/-- The bytes that a list of separators names; `none` stands for none. -/
def separatorsOf : Bytes → List (Option Char)
  | [] => []
  | '\\' :: 'n' :: rest => some '\n' :: separatorsOf rest
  | '\\' :: 't' :: rest => some '\t' :: separatorsOf rest
  | '\\' :: '0' :: rest => none :: separatorsOf rest
  | '\\' :: c :: rest => some c :: separatorsOf rest
  | c :: rest => some c :: separatorsOf rest

/-- Joins texts with separators that are used in turn. -/
def joinWith (separators : List (Option Char)) : List Bytes → Bytes
  | [] => []
  | text :: texts => text ++ go separators texts
where
  go : List (Option Char) → List Bytes → Bytes
    | _, [] => []
    | c :: cs, text :: texts => c.toList ++ text ++ go (if cs.isEmpty then separators else cs) texts
    | [], text :: texts => text ++ go [] texts

/-- The first lines of some columns, of which the shared one may be used several times, and what is
left. -/
def firstRow : List (Option (List Bytes)) → List Bytes →
    List (Option Bytes) × List (Option (List Bytes)) × List Bytes
  | [], common => ([], [], common)
  | none :: columns, common =>
    let (row, rest, left) := firstRow columns common.tail
    (common.head? :: row, none :: rest, left)
  | some lines :: columns, common =>
    let (row, rest, left) := firstRow columns common
    (lines.head? :: row, some lines.tail :: rest, left)

/-- Prints rows, as long as a column has a line for them. -/
def printRows (separators : List (Option Char)) :
    Nat → List (Option (List Bytes)) → List Bytes → Tool Unit
  | 0, _, _ => pure ()
  | rows + 1, columns, common => do
    let (row, columns, common) := firstRow columns common
    if row.any Option.isSome then
      emitLine (joinWith separators (row.map (·.getD [])))
      printRows separators rows columns common

/-- Prints the lines of files side by side. -/
def paste (args : List Bytes) : Tool Unit := do
  let o ← parseOptions (grammar "sz" "d"
    [("delimiters", 'd'), ("serial", 's'), ("zero-terminated", 'z')]) 1 args
  let separators := separatorsOf ((o.get? 'd').getD ['\t'])
  let separators := if separators.isEmpty then [none] else separators
  let files := if o.operands.isEmpty then [['-']] else o.operands
  if o.has 'z' then Act.modify fun s => { s with ending := byteOf 0 }
  let ending := (← Act.get).ending
  if o.has 's' then
    forFiles files fun _ => do
      let bs ← readAll
      emitLine (joinWith separators (linesOf bs ending))
  else
    let contents ← contentOf (files.filter (· ≠ ['-']) ++ [['-']].filter files.contains)
    let common := if files.contains ['-'] then linesOf (contents.getLast?.getD []) ending else []
    let columns := spread files (contents.map fun c => linesOf c ending)
    let total := (columns.flatMap fun c => c.getD []).length + common.length
    printRows separators (total + 1) columns common
where
  spread : List Bytes → List (List Bytes) → List (Option (List Bytes))
    | ['-'] :: files, contents => none :: spread files contents
    | _ :: files, content :: contents => some content :: spread files contents
    | _, _ => []

/-! ### Widths -/

/-- Cuts a line into pieces of a width, at blanks if that is asked for. -/
def foldLine (width : Nat) (atBlanks : Bool) : Nat → Bytes → List Bytes
  | 0, line => [line]
  | steps + 1, line =>
    if line.length ≤ width then [line]
    else
      let piece := line.take width
      let kept := (piece.reverse.dropWhile fun c => c ≠ ' ' && c ≠ '\t').reverse
      let piece := if atBlanks && !kept.isEmpty then kept else piece
      piece :: foldLine width atBlanks steps (line.drop piece.length)

/-- Cuts lines that are too wide. -/
def fold (args : List Bytes) : Tool Unit := do
  let args := match args with
    | ('-' :: c :: cs) :: rest =>
      if (c :: cs).all Char.isDigit then "-w".toList :: (c :: cs) :: rest
      else ('-' :: c :: cs) :: rest
    | args => args
  let o ← parseOptions (grammar "bs" "w" [("bytes", 'b'), ("spaces", 's'), ("width", 'w')]) 1 args
  match amount? ((o.get? 'w').getD "80".toList) with
  | none | some 0 =>
    die 1 ("invalid number of columns: '".toList ++ (o.get? 'w').getD [] ++ ['\''])
  | some width =>
    forFiles o.operands fun _ => forLines fun line hasEnd => do
      emit (List.intercalate ['\n'] (foldLine width (o.has 's') line.length line))
      if hasEnd then emit ['\n']
      pure true

/-- Replaces tabs by blanks up to the next column. -/
def expandLine (width : Nat) : Nat → Bytes → Bytes
  | _, [] => []
  | column, '\t' :: rest =>
    let missing := width - column % width
    List.replicate missing ' ' ++ expandLine width (column + missing) rest
  | column, c :: rest => c :: expandLine width (column + 1) rest

/-- Replaces tabs by blanks. -/
def expand (args : List Bytes) : Tool Unit := do
  let o ← parseOptions (grammar "i" "t" [("tabs", 't'), ("initial", 'i')]) 1 args
  match amount? ((o.get? 't').getD ['8']) with
  | none | some 0 => die 1 ("tab size contains invalid character(s): '".toList ++ (o.get? 't').getD [] ++ ['\''])
  | some width =>
    forFiles o.operands fun _ => forLines fun line hasEnd => do
      emit (expandLine width 0 line ++ if hasEnd then ['\n'] else [])
      pure true

/-- Prints every line backwards. -/
def rev (args : List Bytes) : Tool Unit := do
  let o ← parseOptions (grammar "" "" []) 1 args
  forFiles o.operands fun _ => forLines fun line hasEnd => do
    emit (line.reverse ++ if hasEnd then ['\n'] else [])
    pure true

end SmtCount.Simulation.Tool
