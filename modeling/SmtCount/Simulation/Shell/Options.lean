import SmtCount.Simulation.Shell.State

/-!
# Options

The letters and names of the options of a shell, and how arguments set them.

## Main definitions

* `optionNames` — the letters with their names.
* `readOptions` — sets the options that come first among some arguments.
-/

namespace SmtCount.Simulation.Shell

/-- The letters of the options, with their names. -/
def optionNames : List (Char × String) :=
  [('e', "errexit"), ('f', "noglob"), ('I', "ignoreeof"), ('i', "interactive"), ('m', "monitor"),
    ('n', "noexec"), ('s', "stdin"), ('x', "xtrace"), ('v', "verbose"), ('V', "vi"), ('E', "emacs"),
    ('C', "noclobber"), ('a', "allexport"), ('b', "notify"), ('u', "nounset"), ('p', "privileged")]

/-- Sets or unsets an option. -/
def withOption (options : List Char) (letter : Char) (on : Bool) : List Char :=
  let others := options.filter (· ≠ letter)
  -- the letters stand in the order of their names
  if on then (optionNames.map Prod.fst).filter fun c => c = letter || others.contains c else others

/-- What arguments have said. -/
structure OptionReading where
  options : List Char
  /-- The arguments that are left. -/
  args : List Bytes
  /-- Is there a script among the arguments? -/
  script : Bool := false
  /-- Has an argument ended the options, so that those that are left are new arguments even if there
  are none? -/
  ended : Bool := false
  /-- Are all options to be shown? -/
  shows : Bool := false

/-- Reads the letters of an argument. -/
def readLetters (start on : Bool) : Bytes → OptionReading → Except Bytes OptionReading
  | [], r => .ok r
  | 'c' :: cs, r =>
    if start then readLetters start on cs { r with script := true }
    else .error (("Illegal option -c").toList)
  | 'o' :: cs, r =>
    match r.args with
    | [] => readLetters start on cs { r with shows := true }
    | name :: args =>
      match optionNames.find? fun o => o.2.toList = name with
      | some (letter, _) =>
        readLetters start on cs { r with options := withOption r.options letter on, args }
      | none => .error ("Illegal option -o ".toList ++ name)
  | c :: cs, r =>
    if start && c = 'l' then readLetters start on cs r
    else if optionNames.any (·.1 == c) then
      readLetters start on cs { r with options := withOption r.options c on }
    else .error ("Illegal option -".toList ++ [c])

/-- Sets the options that come first among some arguments, in at most so many steps.  At the `start`
of a shell, a letter says that a script comes next. -/
def readOptions (start : Bool) : Nat → OptionReading → Except Bytes OptionReading
  | 0, r => .ok r
  | steps + 1, r =>
    match r.args with
    | ['-'] :: args =>
      .ok { r with
        args
        options := if start then r.options else r.options.filter fun c => c ≠ 'x' && c ≠ 'v' }
    | ['-', '-'] :: args => .ok { r with args, ended := true }
    | ('-' :: letters) :: args => do
      readOptions start steps (← readLetters start true letters { r with args })
    | ('+' :: letters) :: args => do
      readOptions start steps (← readLetters start false letters { r with args })
    | _ => .ok r

end SmtCount.Simulation.Shell
