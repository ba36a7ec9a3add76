import SmtCount.Simulation.Text.ByteClass
import SmtCount.Simulation.Tool.Options

/-!
# Tools for the order of lines

Tools that sort lines, and that compare lines which are in order.

## Main definitions

* `Place`, `SortKey` — the part of a line that counts for its order, and how it counts.
* `SortRules` — the keys of an order, and what else it depends on.
* `SortRules.compareLines` — the order.
* `sort`, `uniq`, `comm` — the tools.
-/

namespace SmtCount.Simulation.Tool

open Kernel (Act)

/-! ### Keys -/

/-- Is this a blank between fields? -/
def isFieldBlank (c : Char) : Bool := c == ' ' || c == '\t' || c == '\n'

/-- A place in a line: a field, and a byte in it. -/
structure Place where
  field : Nat
  byte : Nat
  /-- Are the blanks at the start of the field skipped? -/
  skips : Bool := false

/-- The part of a line that counts for its order, and how it counts. -/
structure SortKey where
  start : Place := { field := 0, byte := 0 }
  /-- The byte after the part; the end of the line without it. -/
  stop : Option Place := none
  /-- The letters of the options that say how the part counts. -/
  letters : Bytes := []

/-- A field, which includes the blanks before it, and what comes after it. -/
def spanField (separator : Option Char) (bs : Bytes) : Bytes × Bytes :=
  match separator with
  | some c => bs.span (· ≠ c)
  | none =>
    let blanks := bs.takeWhile isFieldBlank
    let (word, rest) := (bs.drop blanks.length).span fun c => !isFieldBlank c
    (blanks ++ word, rest)

/-- A line without so many fields at its start. -/
def dropFields (separator : Option Char) : Nat → Bytes → Bytes
  | 0, bs => bs
  | n + 1, bs =>
    let (_, rest) := spanField separator bs
    dropFields separator n (if separator.isSome then rest.tail else rest)

namespace SortKey

variable (k : SortKey)

/-- The number of bytes before the part. -/
def startIn (separator : Option Char) (line : Bytes) : Nat :=
  let rest := dropFields separator k.start.field line
  let rest := if k.start.skips then rest.dropWhile isFieldBlank else rest
  line.length - (rest.drop k.start.byte).length

/-- The number of bytes up to the end of the part. -/
def stopIn (separator : Option Char) (line : Bytes) : Nat :=
  match k.stop with
  | none => line.length
  | some place =>
    let rest := dropFields separator place.field line
    let rest :=
      if place.byte = 0 then (spanField separator rest).2
      else
        let rest := if place.skips then rest.dropWhile isFieldBlank else rest
        rest.drop place.byte
    line.length - rest.length

/-- The part of a line. -/
def part (separator : Option Char) (line : Bytes) : Bytes :=
  (line.take (k.stopIn separator line)).drop (k.startIn separator line)

end SortKey

/-! ### Comparing -/

/-- The number at the start of a text, as an integer of so many places, and what comes after it. -/
def leadingNumber (bs : Bytes) : Int × Nat × Bytes :=
  let (negative, digits) := match bs.dropWhile isFieldBlank with
    | '-' :: rest => (true, rest)
    | rest => (false, rest)
  let whole := digits.takeWhile Char.isDigit
  let (places, rest) := match digits.drop whole.length with
    | '.' :: rest => rest.span Char.isDigit
    | rest => ([], rest)
  let n : Int := Nat.ofDigitChars 10 (whole ++ places) 0
  (if negative then -n else n, places.length, rest)

/-- Compares the numbers at the start of two texts. -/
def compareNumbers (a b : Bytes) : Ordering :=
  let (m, i, _) := leadingNumber a
  let (n, j, _) := leadingNumber b
  compare (m * 10 ^ j) (n * 10 ^ i)

/-- The sign of a number, and the power of its unit, by which numbers with units are compared first. -/
def unitRank (bs : Bytes) : Int :=
  let (n, _, rest) := leadingNumber bs
  let power : Int := match rest.head? with
    | some 'k' | some 'K' => 1
    | some 'M' => 2
    | some 'G' => 3
    | some 'T' => 4
    | some 'P' => 5
    | some 'E' => 6
    | some 'Z' => 7
    | some 'Y' => 8
    | _ => 0
  if n < 0 then -1 - power else if n = 0 then 0 else 1 + power

/-- The months, by the first three letters of their names. -/
def months : List String :=
  ["JAN", "FEB", "MAR", "APR", "MAY", "JUN", "JUL", "AUG", "SEP", "OCT", "NOV", "DEC"]

/-- The number of the month at the start of a text; zero if there is none. -/
def leadingMonth (bs : Bytes) : Nat :=
  let name := ((bs.dropWhile isFieldBlank).take 3).map Char.toUpper
  match months.findIdx? fun m => m.toList = name with
  | some n => n + 1
  | none => 0

/-- Compares two parts of lines. -/
def compareParts (letters : Bytes) (a b : Bytes) : Ordering :=
  if letters.contains 'n' || letters.contains 'g' then compareNumbers a b
  else if letters.contains 'h' then (compare (unitRank a) (unitRank b)).then (compareNumbers a b)
  else if letters.contains 'M' then compare (leadingMonth a) (leadingMonth b)
  else
    let counts (c : Char) : Bool :=
      if letters.contains 'd' then c == ' ' || c == '\t' || c.isAlphanum
      else if letters.contains 'i' then c == ' ' || Text.isGraphic c
      else true
    let shape (bs : Bytes) : Bytes :=
      (bs.filter counts).map fun c => if letters.contains 'f' then c.toUpper else c
    compareBytes (shape a) (shape b)

/-- The keys of an order, and what else it depends on. -/
structure SortRules where
  keys : List SortKey
  separator : Option Char := none
  /-- Is the order turned around when the keys leave it open? -/
  reverse : Bool := false
  /-- Are lines left as they come when the keys leave their order open? -/
  stable : Bool := false

namespace SortRules

variable (r : SortRules)

/-- Compares lines by their keys, of which the first that tells them apart decides. -/
def compareKeys (a b : Bytes) : Ordering :=
  r.keys.foldl
    (fun known k =>
      known.then
        (let found := compareParts k.letters (k.part r.separator a) (k.part r.separator b)
        if k.letters.contains 'r' then found.swap else found))
    .eq

/-- Compares lines. -/
def compareLines (a b : Bytes) : Ordering :=
  (r.compareKeys a b).then
    (if r.stable then .eq
    else if r.reverse then (compareBytes a b).swap
    else compareBytes a b)

end SortRules

/-- Reads a place, and the letters after it. -/
def readPlace? (bs : Bytes) : Option (Place × Bytes) :=
  let field := bs.takeWhile Char.isDigit
  let (byte, letters) := match bs.drop field.length with
    | '.' :: rest => rest.span Char.isDigit
    | rest => ([], rest)
  if field.isEmpty || !letters.all "bdfgihMnrRV".toList.contains then none
  else
    some
      ({ field := Nat.ofDigitChars 10 field 0, byte := Nat.ofDigitChars 10 byte 0,
         skips := letters.contains 'b' }, letters)

/-- Reads a key; `plain` are the letters for keys without letters of their own. -/
def readKey? (plain : Bytes) (bs : Bytes) : Option SortKey :=
  let first := bs.takeWhile (· ≠ ',')
  match readPlace? first, bs.drop first.length with
  | some (start, letters), [] =>
    if start.field = 0 then none else some (key start none letters)
  | some (start, letters), _ :: last =>
    match readPlace? last with
    | some (stop, more) =>
      if start.field = 0 || stop.field = 0 then none else some (key start (some stop) (letters ++ more))
    | none => none
  | none, _ => none
where
  key (start : Place) (stop : Option Place) (letters : Bytes) : SortKey :=
    let own := !letters.isEmpty
    let skips := plain.contains 'b'
    { start := ⟨start.field - 1, start.byte - 1, if own then start.skips else skips⟩
      stop := stop.map fun p => ⟨p.field - 1, p.byte, if own then p.skips else skips⟩
      letters := if own then letters else plain }

/-- Lines of which each differs from the one before it. -/
def dropRepeated (same : Bytes → Bytes → Bool) : Option Bytes → List Bytes → List Bytes
  | _, [] => []
  | before, line :: lines =>
    if before.any (same · line) then dropRepeated same before lines
    else line :: dropRepeated same (some line) lines

/-- The first line that is out of order, with its number. -/
def firstDisorder (wrong : Bytes → Bytes → Bool) : Nat → List Bytes → Option (Nat × Bytes)
  | n, a :: b :: rest => if wrong a b then some (n + 1, b) else firstDisorder wrong (n + 1) (b :: rest)
  | _, _ => none

/-- Prints lines, perhaps to a file. -/
def printLines (file : Option Bytes) (lines : List Bytes) : Tool Unit := do
  let ending := (← Act.get).ending
  let bs := lines.flatMap (· ++ [ending])
  match file with
  | none => emit bs
  | some path =>
    match ← Act.openFile path .write with
    | .error e => die 2 ("open failed: ".toList ++ path ++ ": ".toList ++ e.message.toList)
    | .ok fd =>
      let _ ← Act.write fd bs
      let _ ← Act.close fd

/-- Prints lines in order. -/
def sort (args : List Bytes) : Tool Unit := do
  let o ← parseOptions (grammar "bdfghiMnrRVcCmsuz" "koStT"
    [("reverse", 'r'), ("numeric-sort", 'n'), ("unique", 'u'), ("key", 'k'), ("output", 'o'),
      ("field-separator", 't'), ("stable", 's'), ("ignore-case", 'f'), ("check", 'c'),
      ("ignore-leading-blanks", 'b'), ("zero-terminated", 'z'), ("merge", 'm'),
      ("human-numeric-sort", 'h'), ("general-numeric-sort", 'g'), ("month-sort", 'M'),
      ("dictionary-order", 'd'), ("ignore-nonprinting", 'i')]) 2 args
  let plain := (o.found.map Prod.fst).filter "bdfghiMnrRV".toList.contains
  match (o.all 'k').mapM (readKey? plain) with
  | none => die 2 "invalid field specification".toList
  | some keys =>
    let separator ← match o.get? 't' with
      | none => pure none
      | some [c] => pure (some c)
      | some ['\\', '0'] => pure (some (byteOf 0))
      | some [] => die 2 "empty tab".toList
      | some text => die 2 ("multi-character tab '".toList ++ text ++ ['\''])
    let whole : SortKey :=
      { start := ⟨0, 0, plain.contains 'b'⟩, letters := plain }
    let rules : SortRules :=
      { keys := if keys.isEmpty then [whole] else keys
        separator
        reverse := plain.contains 'r'
        stable := o.has 's' || o.has 'u' }
    if o.has 'z' then Act.modify fun s => { s with ending := byteOf 0 }
    let ending := (← Act.get).ending
    let contents ← contentOf o.operands
    if (← Act.get).status ≠ 0 then
      setStatus 2
      finish
    let lines := contents.flatMap fun c => linesOf c ending
    if o.has 'c' || o.has 'C' then
      let wrong (a b : Bytes) : Bool :=
        match rules.compareLines a b with
        | .gt => true
        | .eq => o.has 'u'
        | .lt => false
      match firstDisorder wrong 1 lines with
      | none => pure ()
      | some (n, line) =>
        if o.has 'c' then
          complain ((o.operands.head?.getD ['-']) ++ ':' :: decimal n ++ ": disorder: ".toList ++ line)
        setStatus 1
    else
      let sorted := lines.mergeSort fun a b => (rules.compareLines a b).isLE
      let same (a b : Bytes) : Bool := (rules.compareKeys a b).isEq
      printLines (o.get? 'o') (if o.has 'u' then dropRepeated same none sorted else sorted)

/-! ### Lines that are in order -/

/-- How `uniq` prints lines that are the same. -/
structure UniqRules where
  counts : Bool
  /-- Are lines printed that are there once? -/
  single : Bool
  /-- Are lines printed that are there several times? -/
  repeated : Bool
  /-- Are all of these printed? -/
  all : Bool
  /-- What counts for whether lines are the same. -/
  key : Bytes → Bytes

/-- Prints a line that is there so many times. -/
def UniqRules.print (r : UniqRules) (line : Bytes) (count : Nat) : Tool Unit := do
  if !r.all && (if count = 1 then r.single else r.repeated) then
    let digits := decimal count
    emitLine
      ((if r.counts then List.replicate (7 - digits.length) ' ' ++ digits ++ [' '] else []) ++ line)

/-- Goes through the input; `before` is the last line and how often it has come. -/
def UniqRules.run (r : UniqRules) : Nat → Option (Bytes × Nat) → Tool Unit
  | 0, _ => pure ()
  | turns + 1, before => do
    match ← nextLine, before with
    | none, none => pure ()
    | none, some (line, count) => r.print line count
    | some (line, _), none => r.run turns (some (line, 1))
    | some (line, _), some (last, count) =>
      if r.key line = r.key last then
        if r.all then
          if count = 1 then emitLine last
          emitLine line
        r.run turns (some (last, count + 1))
      else
        r.print last count
        r.run turns (some (line, 1))

/-- Prints lines, but those that repeat the one before them only once. -/
def uniq (args : List Bytes) : Tool Unit := do
  let o ← parseOptions (grammar "cdDuiz" "fsw"
    [("count", 'c'), ("repeated", 'd'), ("unique", 'u'), ("ignore-case", 'i'), ("all-repeated", 'D'),
      ("skip-fields", 'f'), ("skip-chars", 's'), ("check-chars", 'w'), ("zero-terminated", 'z')]) 1 args
  let number (c : Char) : Nat := ((o.get? c).bind amount?).getD 0
  let key (line : Bytes) : Bytes :=
    let rest := (dropFields none (number 'f') line).drop (number 's')
    let rest := if o.has 'w' then rest.take (number 'w') else rest
    if o.has 'i' then rest.map Char.toLower else rest
  if o.has 'z' then Act.modify fun s => { s with ending := byteOf 0 }
  let rules : UniqRules :=
    { counts := o.has 'c', single := !o.has 'd', repeated := !o.has 'u', all := o.has 'D', key }
  match o.operands with
  | [] => rules.run Act.manyTurns none
  | [file] => forFiles [file] fun _ => rules.run Act.manyTurns none
  | [file, target] =>
    forFiles [file] fun _ => do
      match ← Act.openFile target .write with
      | .error e => die 1 (target ++ ": ".toList ++ e.message.toList)
      | .ok fd =>
        let _ ← Act.copy fd 1
        rules.run Act.manyTurns none
  | _ :: _ :: third :: _ => die 1 ("extra operand '".toList ++ third ++ ['\''])

/-- The lines of two columns that are in order, each with the column it belongs to: the first, the
second, or both, which is the third. -/
def mergeColumns : Nat → List Bytes → List Bytes → List (Nat × Bytes)
  | 0, _, _ => []
  | _ + 1, [], [] => []
  | steps + 1, a :: as, [] => (1, a) :: mergeColumns steps as []
  | steps + 1, [], b :: bs => (2, b) :: mergeColumns steps [] bs
  | steps + 1, a :: as, b :: bs =>
    match compareBytes a b with
    | .lt => (1, a) :: mergeColumns steps as (b :: bs)
    | .gt => (2, b) :: mergeColumns steps (a :: as) bs
    | .eq => (3, a) :: mergeColumns steps as bs

/-- Prints which lines two files have in common. -/
def comm (args : List Bytes) : Tool Unit := do
  let o ← parseOptions (grammar "123z" "o" [("output-delimiter", 'o')]) 1 args
  match o.operands with
  | [first, second] =>
    match ← contentOf [first, second] with
    | [a, b] =>
      let hidden (n : Nat) : Bool := o.has (Char.ofNat (48 + n))
      let separator := (o.get? 'o').getD ['\t']
      let as := linesOf a
      let bs := linesOf b
      go hidden separator (mergeColumns (as.length + bs.length) as bs)
    | _ => finish
  | [] => die 1 "missing operand".toList
  | [file] => die 1 ("missing operand after '".toList ++ file ++ ['\''])
  | _ :: _ :: third :: _ => die 1 ("extra operand '".toList ++ third ++ ['\''])
where
  go (hidden : Nat → Bool) (separator : Bytes) : List (Nat × Bytes) → Tool Unit
    | [] => pure ()
    | (n, line) :: rest => do
      if !hidden n then
        let before := ((List.range n).filter fun k => 1 ≤ k && !hidden k).flatMap fun _ => separator
        emitLine (before ++ line)
      go hidden separator rest

end SmtCount.Simulation.Tool
