import SmtCount.Simulation.Text.ByteClass
import SmtCount.Simulation.Text.Format
import SmtCount.Simulation.Tool.Copy

/-!
# Tools that count

Tools that print numbers: of what they read, before the lines they read, and one after another.

## Main definitions

* `wc`, `nl`, `seq`, `sleep` — the tools.
-/

namespace SmtCount.Simulation.Tool

open Kernel (Act Kind)

/-! ### Counts of what is read -/

/-- What has been counted. -/
structure Counts where
  lines : Nat := 0
  words : Nat := 0
  bytes : Nat := 0
  /-- The length of the longest line. -/
  longest : Nat := 0
  /-- The length of the current line. -/
  current : Nat := 0
  /-- Is the last byte in a word? -/
  inWord : Bool := false

namespace Counts

/-- Counts a byte. -/
def step (n : Counts) (c : Char) : Counts :=
  let white := Text.isWhite c
  let current :=
    if c = '\n' ∨ c = '\r' ∨ c.toNat = 12 then 0
    else if c = '\t' then n.current + (8 - n.current % 8)
    else if Text.isGraphic c ∨ c = ' ' then n.current + 1
    else n.current
  { lines := if c = '\n' then n.lines + 1 else n.lines
    words := if !white && !n.inWord then n.words + 1 else n.words
    bytes := n.bytes + 1
    longest := max n.longest current
    current
    inWord := !white }

def add (a b : Counts) : Counts :=
  { lines := a.lines + b.lines, words := a.words + b.words, bytes := a.bytes + b.bytes,
    longest := max a.longest b.longest }

/-- The counts that are asked for. -/
def shown (n : Counts) (o : Options) : List Nat :=
  let all := !(o.has 'l' || o.has 'w' || o.has 'c' || o.has 'm' || o.has 'L')
  (if o.has 'l' || all then [n.lines] else []) ++ (if o.has 'w' || all then [n.words] else []) ++
    (if o.has 'm' then [n.bytes] else []) ++ (if o.has 'c' || all then [n.bytes] else []) ++
    (if o.has 'L' then [n.longest] else [])

end Counts

/-- A number with spaces before it up to a width. -/
def rightAligned (width n : Nat) : Bytes :=
  let digits := decimal n
  List.replicate (width - digits.length) ' ' ++ digits

/-- Counts what is read, in at most so many chunks. -/
def countInput : Nat → Counts → Tool Counts
  | 0, n => pure n
  | chunks + 1, n => do
    match ← readChunk with
    | [] => pure n
    | bs => countInput chunks (bs.foldl Counts.step n)

/-- How wide the counts of some files are: as wide as the number of their bytes, and wider if there is
something else than files. -/
def countWidth (files : List Bytes) (single : Bool) : Tool Nat := do
  if single && files.length ≤ 1 then pure 1
  else go files 0 1
where
  go : List Bytes → Nat → Nat → Tool Nat
    | [], total, least => pure (max least (decimal total).length)
    | file :: files, total, least => do
      let kind ← if file = ['-'] then Act.inspectOpen 0 else Act.inspect file
      match kind with
      | .ok (.file size _) => go files (total + size) least
      | .ok _ => go files total 7
      | .error _ => go files total least

/-- Prints how many lines, words and bytes there are. -/
def wc (args : List Bytes) : Tool Unit := do
  let o ← parseOptions (grammar "lwcmL" ""
    [("lines", 'l'), ("words", 'w'), ("bytes", 'c'), ("chars", 'm'), ("max-line-length", 'L')]) 1 args
  let files := if o.operands.isEmpty then [['-']] else o.operands
  let width ← countWidth files ((({} : Counts).shown o).length = 1)
  let line (n : Counts) (name : Bytes) : Bytes :=
    List.intercalate [' '] ((n.shown o).map (rightAligned width)) ++
      (if name.isEmpty then [] else ' ' :: name)
  let total ← go o line files {}
  if 1 < files.length then emitLine (line total "total".toList)
where
  go (o : Options) (line : Counts → Bytes → Bytes) : List Bytes → Counts → Tool Counts
    | [], total => pure total
    | file :: files, total => do
      if ← openInput file then
        let n ← countInput Act.manyTurns {}
        closeInput
        emitLine (line n (if o.operands.isEmpty then [] else file))
        go o line files (total.add n)
      else go o line files total

/-! ### Numbers before lines -/

/-- Prints lines with numbers before them. -/
def nl (args : List Bytes) : Tool Unit := do
  let o ← parseOptions (grammar "p" "bhfdilnsvw" [("body-numbering", 'b')]) 1 args
  let width := ((o.get? 'w').bind amount?).getD 6
  let separator := (o.get? 's').getD ['\t']
  let step := ((o.get? 'i').bind amount?).getD 1
  let all := o.get? 'b' = some ['a']
  let never := o.get? 'b' = some ['n']
  let bs := (← contentOf o.operands).flatten
  let start := ((o.get? 'v').bind amount?).getD 1
  let style := o.get? 'n'
  go width separator step all never style start (linesOf bs)
where
  go (width : Nat) (separator : Bytes) (step : Nat) (all never : Bool) (style : Option Bytes) :
      Nat → List Bytes → Tool Unit
    | _, [] => pure ()
    | n, line :: lines => do
      if (all || !line.isEmpty) && !never then
        let digits := decimal n
        let missing := width - digits.length
        let number :=
          if style = some "ln".toList then digits ++ List.replicate missing ' '
          else if style = some "rz".toList then List.replicate missing '0' ++ digits
          else List.replicate missing ' ' ++ digits
        emitLine (number ++ separator ++ line)
        go width separator step all never style (n + step) lines
      else
        emitLine (List.replicate (width + separator.length) ' ' ++ line)
        go width separator step all never style n lines

/-! ### Numbers one after another -/

/-- A decimal number as an integer of so many places. -/
structure Scaled where
  value : Int
  places : Nat

/-- Reads a decimal number. -/
def readScaled? (bs : Bytes) : Option Scaled :=
  let (negative, digits) := match bs.dropWhile Text.isGap with
    | '-' :: rest => (true, rest)
    | '+' :: rest => (false, rest)
    | rest => (false, rest)
  let whole := digits.takeWhile Char.isDigit
  let places := match digits.drop whole.length with
    | '.' :: rest => some rest
    | [] => some []
    | _ => none
  match places with
  | none => none
  | some places =>
    if !places.all Char.isDigit || (whole ++ places).isEmpty then none
    else
      let n : Int := Nat.ofDigitChars 10 (whole ++ places) 0
      some ⟨if negative then -n else n, places.length⟩

namespace Scaled

/-- The same number with more places. -/
def scaleTo (x : Scaled) (places : Nat) : Int := x.value * 10 ^ (places - x.places)

/-- The text of an integer of so many places. -/
def text (places : Nat) (n : Int) : Bytes :=
  let digits := Text.withPoint false n.natAbs places
  if n < 0 then '-' :: digits else digits

/-- A text filled up with zeros after its sign. -/
def padded (width : Nat) (bs : Bytes) : Bytes :=
  let missing := List.replicate (width - bs.length) '0'
  match bs with
  | '-' :: digits => '-' :: missing ++ digits
  | digits => missing ++ digits

end Scaled

/-- Prints so many numbers, with separators between them. -/
def printNumbers (render : Int → Bytes) (separator : Bytes) (step : Int) : Nat → Int → Tool Unit
  | 0, _ => pure ()
  | 1, n => emitLine (render n)
  | count + 2, n => do
    emit (render n ++ separator)
    printNumbers render separator step (count + 1) (n + step)

/-- The operands of `seq` among its arguments, which may be negative numbers. -/
def protectNumbers (args : List Bytes) : List Bytes :=
  let numbers := args.reverse.takeWhile fun a => (readScaled? a).isSome
  let others := args.take (args.length - numbers.length)
  if others.any (· = ['-', '-']) then args
  else if others.getLast?.any fun a => a = ['-', 's'] || a = ['-', 'f'] then
    others ++ numbers.reverse.take 1 ++ ['-', '-'] :: numbers.reverse.drop 1
  else others ++ ['-', '-'] :: numbers.reverse

/-- Prints numbers from one to another. -/
def seq (args : List Bytes) : Tool Unit := do
  let o ← parseOptions (grammar "w" "sf"
    [("separator", 's'), ("equal-width", 'w'), ("format", 'f')]) 1 (protectNumbers args)
  let one : Scaled := ⟨1, 0⟩
  match o.operands.mapM readScaled? with
  | none =>
    die 1 ("invalid floating point argument: '".toList ++
      ((o.operands.find? fun a => (readScaled? a).isNone).getD []) ++ ['\''])
  | some [] => die 1 "missing operand".toList
  | some [last] => print o one one last
  | some [first, last] => print o first one last
  | some [first, step, last] =>
    if step.value = 0 then die 1 "invalid Zero increment value: '0'".toList
    else print o first step last
  | some (_ :: _ :: _ :: _) =>
    die 1 ("extra operand '".toList ++ (o.operands[3]?.getD []) ++ ['\''])
where
  print (o : Options) (first step last : Scaled) : Tool Unit := do
    let places := max first.places step.places
    let all := max places last.places
    let start := first.scaleTo all
    let increment := step.scaleTo all
    let distance := last.scaleTo all - start
    let count :=
      if 0 < increment then (if distance < 0 then 0 else (distance / increment).toNat + 1)
      else (if 0 < distance then 0 else (-distance / -increment).toNat + 1)
    let scale : Int := 10 ^ (all - places)
    let plain (n : Int) : Bytes := Scaled.text places (n / scale)
    let final := start + increment * (count - 1)
    let width := max (plain start).length (plain final).length
    let render (n : Int) : Bytes :=
      match o.get? 'f' with
      | some pattern => (Text.format pattern [plain n]).bytes
      | none => if o.has 'w' then Scaled.padded width (plain n) else plain n
    printNumbers render ((o.get? 's').getD ['\n']) increment count start

/-- The nanoseconds that an operand of `sleep` stands for. -/
def duration? (bs : Bytes) : Option Nat :=
  if bs = "infinity".toList ∨ bs = "inf".toList then some (10 ^ 30)
  else
    let (digits, unit) := match bs.getLast? with
      | some 's' => (bs.dropLast, 1)
      | some 'm' => (bs.dropLast, 60)
      | some 'h' => (bs.dropLast, 3600)
      | some 'd' => (bs.dropLast, 86400)
      | _ => (bs, 1)
    (readScaled? digits).bind fun x =>
      if x.value < 0 then none else some (x.value.toNat * unit * 1000000000 / 10 ^ x.places)

/-- Does nothing for some time. -/
def sleep (args : List Bytes) : Tool Unit := do
  let operands := args.filter (· ≠ ['-', '-'])
  match operands.mapM duration? with
  | some (time :: times) => Act.pause (times.foldl (· + ·) time)
  | some [] => die 1 "missing operand".toList
  | none =>
    die 1 ("invalid time interval '".toList ++
      ((operands.find? fun a => (duration? a).isNone).getD []) ++ ['\''])

end SmtCount.Simulation.Tool
