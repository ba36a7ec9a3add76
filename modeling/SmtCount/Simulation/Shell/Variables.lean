import SmtCount.Simulation.Shell.Fields
import SmtCount.Simulation.Shell.Options
import SmtCount.Simulation.Text.Numeral

/-!
# Variables

The commands with which a script changes its variables and its arguments.

## Main definitions

* `forget`, `setOptions` — forgets variables, and sets options and arguments.
* `Interpreter.exportOrFix` — hands variables to programs, or makes them stay as they are.
* `Interpreter.readInto` — reads a line into variables.
* `Interpreter.nextOption` — goes through the options among some arguments.
-/

namespace SmtCount.Simulation.Shell

open Kernel (Act)

/-- The status of a command that the shell has done itself, or what is wrong. -/
abbrev Outcome := Except Bytes Nat

/-- Writes what a command prints. -/
def say (command : String) (bs : Bytes) : Script Outcome := do
  match ← Act.write 1 bs with
  | .ok () => pure (.ok 0)
  | .error _ =>
    complain (command.toList ++ ": ".toList ++ command.toList ++ ": I/O error".toList)
    pure (.ok 1)

/-- A text between single quotes, as a script would write it. -/
def singleQuoted (bs : Bytes) : Bytes :=
  '\'' :: bs.flatMap (fun c => if c = '\'' then "'\"'\"'".toList else [c]) ++ ['\'']

/-- The variables with a property, as assignments in the order of their names. -/
def listing (before : String) (p : Parameter → Bool) (s : Shell) : Bytes :=
  let rows := s.parameters.rows.filter fun r => p r.2
  (rows.mergeSort fun a b => (compareBytes a.1 b.1).isLE).flatMap fun (name, p) =>
    before.toList ++ name ++
      (match p.value with
        | some v => '=' :: singleQuoted v
        | none => []) ++ ['\n']

/-- Forgets the variables, or functions, that operands name. -/
def forget (functions : Bool) : List Bytes → Script Outcome
  | [] => pure (.ok 0)
  | ['-', 'f'] :: rest => forget true rest
  | ['-', 'v'] :: rest => forget false rest
  | ['-', '-'] :: rest => forget functions rest
  | name :: rest => do
    let s ← Act.get
    if functions then
      Act.set { s with functions := s.functions.erase name }
      forget functions rest
    else if !isName name then pure (.error (name ++ ": bad variable name".toList))
    else if (s.parameters.get? name).any Parameter.fixed then
      pure (.error (name ++ ": is read only".toList))
    else
      Act.set { s with parameters := s.parameters.erase name }
      forget functions rest

/-- Sets options and arguments. -/
def setOptions (args : List Bytes) : Script Outcome := do
  let s ← Act.get
  if args.isEmpty then say "set" (listing "" (·.value.isSome) s)
  else
    match readOptions false (args.length + 1) { options := s.options, args } with
    | .error message => pure (.error message)
    | .ok r =>
      let args := if r.ended || !r.args.isEmpty then r.args else s.args
      Act.set { s with options := r.options, args }
      pure (.ok 0)

/-- Reads the bytes of a line; says whether the input has ended before the line.  Unless it is `raw`, a
backslash quotes the next byte or joins two lines. -/
def readMarks (raw : Bool) : Nat → Bool → List Mark → Script (List Mark × Bool)
  | 0, _, seen => pure (seen.reverse, true)
  | turns + 1, escaped, seen => do
    match ← Act.read 0 1 with
    | .ok (c :: _) =>
      if c.toNat = 0 then readMarks raw turns escaped seen
      else if escaped then
        readMarks raw turns false (if c = '\n' then seen else (c, true) :: seen)
      else if c = '\\' && !raw then readMarks raw turns true seen
      else if c = '\n' then pure (seen.reverse, false)
      else readMarks raw turns false ((c, false) :: seen)
    | _ => pure (seen.reverse, true)

namespace Interpreter

variable (I : Interpreter)

/-- Changes what is known of the variables that operands name, and gives them values. -/
def exportOrFix (change : Parameter → Parameter) : List Bytes → Script Outcome
  | [] => pure (.ok 0)
  | operand :: rest => do
    let name := operand.takeWhile (· ≠ '=')
    if !isName name then pure (.error (name ++ ": bad variable name".toList))
    else
      if operand.length ≠ name.length then I.assign name (operand.drop (name.length + 1))
      Act.modify fun s =>
        let p := (s.parameters.get? name).getD {}
        { s with parameters := s.parameters.insert name (change p) }
      exportOrFix change rest

/-- Makes the variables that operands name belong to the current function. -/
def makeLocal : List Bytes → Script Outcome
  | [] => pure (.ok 0)
  | operand :: rest => do
    let name := operand.takeWhile (· ≠ '=')
    if operand = ['-'] then makeLocal rest
    else if !isName name then pure (.error (name ++ ": bad variable name".toList))
    else
      Act.modify fun s => s.shadowed name
      if operand.length ≠ name.length then I.assign name (operand.drop (name.length + 1))
      makeLocal rest

/-! ### Reading lines -/

/-- Gives variables the fields of a line; those that are left over become empty. -/
def assignFields : List Bytes → List Bytes → Script Unit
  | [], _ => pure ()
  | name :: names, fields => do
    I.assign name (fields.head?.getD [])
    assignFields names fields.tail

/-- Reads a line into variables. -/
def readInto (raw : Bool) : List Bytes → Script Outcome
  | ['-', 'r'] :: rest => readInto true rest
  | ['-', '-'] :: rest => intoVariables raw rest
  | ['-', 'p'] :: prompt :: rest => do
    let _ := prompt
    readInto raw rest
  | names => intoVariables raw names
where
  /-- Reads a line into the variables with some names. -/
  intoVariables (raw : Bool) (names : List Bytes) : Script Outcome := do
    match names.find? fun n => !isName n with
    | some name => pure (.error (name ++ ": bad variable name".toList))
    | none =>
      if names.isEmpty then pure (.error "arg count".toList)
      else
        let (marks, ended) ← readMarks raw Act.manyTurns false []
        let fields := splitLine (← Act.get).separators names.length marks
        I.assignFields names fields
        pure (.ok (if ended then 1 else 0))

/-! ### Options among arguments -/

/-- Gives the variables of `getopts` their values. -/
def giveOption (name letter : Bytes) (argument : Option Bytes) (place scanned status : Nat) :
    Script Outcome := do
  match argument with
  | some text => I.assign "OPTARG".toList text
  | none => Act.modify fun s => { s with parameters := s.parameters.erase "OPTARG".toList }
  I.assign "OPTIND".toList (decimal place)
  I.assign name letter
  Act.modify fun s => { s with scanned }
  pure (.ok status)

/-- Goes to the next option among some arguments. -/
def nextOption (letters name : Bytes) (args : List Bytes) : Script Outcome := do
  let s ← Act.get
  let place := ((s.stored? "OPTIND".toList).bind fun v =>
    (Text.Numeral.integer? (some 10) v).map Int.toNat).getD 1
  let quiet := letters.head? = some ':'
  -- the letters that are left of the argument before, or those of the next one
  let current := ((args[place - 2]?).getD []).drop s.scanned
  let inside := 2 ≤ place && 0 < s.scanned && !current.isEmpty
  let word := if inside then current else
    match args[place - 1]? with
    | some ('-' :: c :: cs) => c :: cs
    | _ => []
  let place := if inside then place else place + 1
  let start := if inside then s.scanned else 1
  match word with
  | [] => I.giveOption name ['?'] none (place - 1) 0 1
  | ['-'] => I.giveOption name ['?'] none (if inside then place else place) 0 1
  | c :: rest =>
    let after := (letters.dropWhile (· ≠ c)).drop 1
    if c = ':' || !letters.contains c then
      if quiet then I.giveOption name ['?'] (some [c]) place (if rest.isEmpty then 0 else start + 1) 0
      else
        let _ ← Act.write 2 ("Illegal option -".toList ++ [c, '\n'])
        I.giveOption name ['?'] none place (if rest.isEmpty then 0 else start + 1) 0
    else if after.head? = some ':' then
      match rest, args[place - 1]? with
      | _ :: _, _ => I.giveOption name [c] (some rest) place 0 0
      | [], some argument => I.giveOption name [c] (some argument) (place + 1) 0 0
      | [], none =>
        if quiet then I.giveOption name [':'] (some [c]) place 0 0
        else
          let _ ← Act.write 2 ("No arg for -".toList ++ [c] ++ " option\n".toList)
          I.giveOption name ['?'] none place 0 0
    else I.giveOption name [c] (some []) place (if rest.isEmpty then 0 else start + 1) 0

end Interpreter

end SmtCount.Simulation.Shell
