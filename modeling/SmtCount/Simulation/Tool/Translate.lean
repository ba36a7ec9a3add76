import SmtCount.Simulation.Text.ByteClass
import SmtCount.Simulation.Text.Format
import SmtCount.Simulation.Tool.Options

/-!
# Replacing bytes

A tool that replaces, drops or merges the bytes of some sets.

## Main definitions

* `ByteSet` — what a set is made of.
* `tr` — the tool.
-/

namespace SmtCount.Simulation.Tool

open Kernel (Act)

/-- A part of a set of bytes. -/
inductive SetPart
  | bytes (cs : Bytes)
  /-- The members of a class, and its name. -/
  | named (name : Bytes) (cs : Bytes)
  /-- A byte as often as the set needs to be as long as the other one. -/
  | filling (c : Char)

/-- All bytes, in order. -/
def allBytes : Bytes := (List.range 256).map Char.ofNat

/-- A byte of a set, which may be written as an escape, and what comes after it. -/
def setByte : Bytes → Option (Char × Bytes)
  | [] => none
  | '\\' :: rest =>
    match rest with
    | [] => some ('\\', [])
    | c :: cs =>
      if Text.isOctal c then
        let (n, after) := Text.octal 3 0 (c :: cs)
        some (byteOf n, after)
      else some (if c = 'e' then c else (Text.escapeLetter? c).getD c, cs)
  | c :: rest => some (c, rest)

/-- Reads the parts of a set, in at most so many steps. -/
def setParts : Nat → Bytes → Except Bytes (List SetPart)
  | 0, _ | _ + 1, [] => .ok []
  | steps + 1, '[' :: ':' :: rest => do
    let name := rest.takeWhile (· ≠ ':')
    match rest.drop name.length, Text.byteClass? name with
    | ':' :: ']' :: after, some member =>
      return .named name (allBytes.filter member) :: (← setParts steps after)
    | ':' :: ']' :: _, none => .error ("invalid character class '".toList ++ name ++ ['\''])
    | _, _ => return .bytes ['['] :: (← setParts steps (':' :: rest))
  | steps + 1, '[' :: '=' :: c :: '=' :: ']' :: after =>
    return .bytes [c] :: (← setParts steps after)
  | steps + 1, bs => do
    let repeated : Option (SetPart × Bytes) := match bs with
      | '[' :: inner =>
        (setByte inner).bind fun (c, rest) =>
          match rest with
          | '*' :: rest =>
            let digits := rest.takeWhile Char.isDigit
            match rest.drop digits.length with
            | ']' :: after =>
              let base := if digits.head? = some '0' then 8 else 10
              let count := Nat.ofDigitChars base digits 0
              some (if count = 0 then .filling c else .bytes (List.replicate count c), after)
            | _ => none
          | _ => none
      | _ => none
    match repeated with
    | some (part, after) => return part :: (← setParts steps after)
    | none =>
      match setByte bs with
      | none => .ok []
      | some (c, '-' :: rest) =>
        match setByte rest with
        | none => return .bytes [c, '-'] :: (← setParts steps [])
        | some (d, after) =>
          if d < c then
            .error ("range-endpoints of '".toList ++ [c, '-', d] ++
              "' are in reverse collating sequence order".toList)
          else
            return .bytes (allBytes.filter fun x => c ≤ x && x ≤ d) :: (← setParts steps after)
      | some (c, rest) => return .bytes [c] :: (← setParts steps rest)

/-- The bytes of a set that is to have a length. -/
def setBytes (length : Nat) (parts : List SetPart) : Bytes :=
  let known := parts.flatMap fun
    | .bytes cs | .named _ cs => cs
    | .filling _ => []
  parts.flatMap fun
    | .bytes cs | .named _ cs => cs
    | .filling c => List.replicate (length - known.length) c

/-- Pairs of bytes, where the last byte of the second set stands for all that are missing. -/
def pairUp (shorter : Bool) : Bytes → Bytes → Option Char → List (Char × Char)
  | [], _, _ => []
  | c :: cs, d :: ds, _ => (c, d) :: pairUp shorter cs ds (some d)
  | c :: cs, [], some d => if shorter then [] else (c, d) :: pairUp shorter cs [] (some d)
  | _ :: _, [], none => []

/-- Drops bytes of a set that repeat the one before them. -/
def squeeze (member : Char → Bool) : Option Char → Bytes → Bytes → Bytes × Option Char
  | before, seen, [] => (seen.reverse, before)
  | before, seen, c :: cs =>
    if before = some c ∧ member c then squeeze member before seen cs
    else squeeze member (some c) (c :: seen) cs

/-- What is done to the bytes of the input. -/
structure Translation where
  /-- What becomes of a byte, if anything. -/
  map : Char → Option Char := some
  /-- Is a repeated byte dropped? -/
  squeezes : Char → Bool := fun _ => false

/-- Does something to the bytes of the input, in at most so many chunks. -/
def translate (t : Translation) : Nat → Option Char → Tool Unit
  | 0, _ => pure ()
  | chunks + 1, before => do
    match ← readChunk with
    | [] => pure ()
    | bs =>
      let (out, before) := squeeze t.squeezes before [] (bs.filterMap t.map)
      emit out
      translate t chunks before

/-- Is the other case of letters meant by two sets, for the classes at the same place? -/
def mapsCase (a b : List SetPart) : Option Bool :=
  match a, b with
  | [.named x _], [.named y _] =>
    if x = "lower".toList ∧ y = "upper".toList then some true
    else if x = "upper".toList ∧ y = "lower".toList then some false
    else none
  | _, _ => none

/-- A table of what becomes of bytes; of two rows the later counts. -/
def tableOf (pairs : List (Char × Char)) : Array Char :=
  pairs.foldl (fun t (c, d) => t.set! c.toNat d) allBytes.toArray

/-- A table of the members of a set. -/
def membersOf (cs : Bytes) : Array Bool :=
  cs.foldl (fun t c => t.set! c.toNat true) (Array.replicate 256 false)

/-- Replaces, drops or merges bytes. -/
def tr (args : List Bytes) : Tool Unit := do
  let o ← parseOptions { grammar "cCdst" ""
    [("complement", 'c'), ("delete", 'd'), ("squeeze-repeats", 's'), ("truncate-set1", 't')] with
    ordered := true } 1 args
  let partsOf (bs : Bytes) : Tool (List SetPart) := do
    match setParts (bs.length + 1) bs with
    | .ok parts => pure parts
    | .error message => die 1 message
  match o.operands with
  | [] => die 1 "missing operand".toList
  | first :: more => do
    let a ← partsOf first
    let complement := o.has 'c' || o.has 'C'
    let plain := setBytes 0 a
    let members := membersOf plain
    let set := if complement then allBytes.filter fun c => !members[c.toNat]! else plain
    let inSet := membersOf set
    let isMember (c : Char) : Bool := inSet[c.toNat]!
    match more with
    | [] =>
      if o.has 'd' then
        translate { map := fun c => if isMember c then none else some c } Act.manyTurns none
      else if o.has 's' then translate { squeezes := isMember } Act.manyTurns none
      else die 1 ("missing operand after '".toList ++ first ++ ['\''])
    | second :: _ => do
      let b ← partsOf second
      let target := setBytes set.length b
      let inTarget := membersOf target
      if o.has 'd' then
        if !o.has 's' then die 1 ("extra operand '".toList ++ second ++ ['\''])
        translate
          { map := fun c => if isMember c then none else some c
            squeezes := fun c => inTarget[c.toNat]! } Act.manyTurns none
      else
        if target.isEmpty then
          die 1 "when not truncating set1, string2 must be non-empty".toList
        let pairs := match mapsCase a b with
          | some true => (set.map fun c => (c, c.toUpper))
          | some false => (set.map fun c => (c, c.toLower))
          | none => pairUp (o.has 't') set target none
        let table := tableOf pairs
        translate
          { map := fun c => some (table[c.toNat]!)
            squeezes := fun c => o.has 's' && inTarget[c.toNat]! } Act.manyTurns none

end SmtCount.Simulation.Tool
