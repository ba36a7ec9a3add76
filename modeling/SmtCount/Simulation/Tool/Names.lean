import SmtCount.Simulation.Text.Format
import SmtCount.Simulation.Tool.Condition
import SmtCount.Simulation.Tool.Options

/-!
# Tools for words

Tools that print their arguments, or something about them, and tools that only give a status.

## Main definitions

* `echo`, `printf`, `basename`, `dirname`, `uname`, `pwd` — tools that print.
* `constant`, `test` — tools that give a status.
-/

namespace SmtCount.Simulation.Tool

open Kernel (Act)

/-- A tool that only gives a status. -/
def constant (status : Nat) (_ : List Bytes) : Tool Unit := setStatus status

/-! ### Printing arguments -/

/-- Is this an argument of letters that say how to print? -/
def isEchoOption : Bytes → Bool
  | '-' :: c :: cs => (c :: cs).all "neE".toList.contains
  | _ => false

/-- Writes escapes that only the tools know as escapes that are known everywhere. -/
def spellEscapes : Bytes → Bytes
  | '\\' :: '"' :: rest => '"' :: spellEscapes rest
  | '\\' :: 'x' :: c :: d :: rest =>
    match Text.digitIn? 16 c, Text.digitIn? 16 d with
    | some m, some n => octalEscape (16 * m + n) ++ spellEscapes rest
    | some m, none => octalEscape m ++ spellEscapes (d :: rest)
    | none, _ => '\\' :: 'x' :: spellEscapes (c :: d :: rest)
  | '\\' :: c :: rest => '\\' :: c :: spellEscapes rest
  | c :: rest => c :: spellEscapes rest
  | [] => []
where
  octalEscape (n : Nat) : Bytes :=
    let digits := Nat.toDigits 8 n
    '\\' :: List.replicate (3 - digits.length) '0' ++ digits

/-- Prints its arguments with blanks between them. -/
def echo (args : List Bytes) : Tool Unit := do
  let letters := (args.takeWhile isEchoOption).flatMap List.tail
  let text := List.intercalate [' '] (args.dropWhile isEchoOption)
  let escapes := (letters.filter (· ≠ 'n')).getLast? = some 'e'
  let (bs, ended) := if escapes then Text.unescape (spellEscapes text) else (text, false)
  emit (if letters.contains 'n' || ended then bs else bs ++ ['\n'])

/-- Writes what is wrong with arguments. -/
def complainAll : List Bytes → Tool Unit
  | [] => pure ()
  | message :: rest => do
    complain message
    complainAll rest

/-- Prints as a format says. -/
def printf (args : List Bytes) : Tool Unit := do
  match match args with
    | ['-', '-'] :: rest => rest
    | args => args with
  | [] => die 1 "missing operand".toList
  | pattern :: args =>
    let f := Text.format (spellEscapes pattern) args
    emit f.bytes
    match f.broken with
    | some message => die 1 message
    | none =>
      if !f.complaints.isEmpty then
        flush
        complainAll f.complaints
        setStatus 1

/-- Drops the slashes at the end of a path. -/
def trimSlashes (path : Bytes) : Bytes := (path.reverse.dropWhile (· = '/')).reverse

/-- The last name of a path. -/
def lastName (path : Bytes) : Bytes :=
  let trimmed := trimSlashes path
  if trimmed.isEmpty then path.take 1 else (trimmed.reverse.takeWhile (· ≠ '/')).reverse

/-- A path without its last name. -/
def directoryName (path : Bytes) : Bytes :=
  let trimmed := trimSlashes path
  let before := (trimmed.reverse.dropWhile (· ≠ '/')).reverse
  if trimmed.isEmpty then (if path.isEmpty then ['.'] else ['/'])
  else if before.isEmpty then ['.']
  else
    let directory := trimSlashes before
    if directory.isEmpty then ['/'] else directory

/-- A name without an ending, which is not all of it. -/
def dropEnding (ending name : Bytes) : Bytes :=
  if name ≠ ending && ending.isSuffixOf name then name.take (name.length - ending.length) else name

/-- Prints several lines. -/
def emitLines : List Bytes → Tool Unit
  | [] => pure ()
  | line :: lines => do
    emitLine line
    emitLines lines

/-- Prints the last names of paths. -/
def basename (args : List Bytes) : Tool Unit := do
  let o ← parseOptions { grammar "az" "s" [("multiple", 'a'), ("suffix", 's'), ("zero", 'z')] with
    ordered := true } 1 args
  if o.has 'z' then Act.modify fun s => { s with ending := byteOf 0 }
  match o.operands with
  | [] => die 1 "missing operand".toList
  | path :: rest =>
    if o.has 'a' || o.has 's' then
      emitLines ((path :: rest).map fun p => dropEnding ((o.get? 's').getD []) (lastName p))
    else
      match rest with
      | [] => emitLine (lastName path)
      | [ending] => emitLine (dropEnding ending (lastName path))
      | _ :: extra :: _ => die 1 ("extra operand '".toList ++ extra ++ ['\''])

/-- Prints paths without their last names. -/
def dirname (args : List Bytes) : Tool Unit := do
  let o ← parseOptions (grammar "z" "" [("zero", 'z')]) 1 args
  if o.has 'z' then Act.modify fun s => { s with ending := byteOf 0 }
  if o.operands.isEmpty then die 1 "missing operand".toList
  emitLines (o.operands.map directoryName)

/-! ### Where a program runs -/

/-- Prints what kind of system this is. -/
def uname (args : List Bytes) : Tool Unit := do
  let o ← parseOptions (grammar "s" "" [("kernel-name", 's')]) 1 args
  if o.operands.isEmpty then emitLine "Linux".toList
  else die 1 ("extra operand '".toList ++ o.operands.headD [] ++ ['\''])

/-- Prints the directory that the tool works in. -/
def pwd (_ : List Bytes) : Tool Unit := do emitLine (← Act.directory)

/-! ### Conditions -/

/-- Gives the status of a condition; with a bracket before it, there is one after it. -/
def test (bracket : Bool) (args : List Bytes) : Tool Unit := do
  if bracket && args.getLast? ≠ some [']'] then die 2 "missing ']'".toList
  match ← Condition.check (if bracket then args.dropLast else args) with
  | .ok holds => setStatus (if holds then 0 else 1)
  | .error message => die 2 message

end SmtCount.Simulation.Tool
