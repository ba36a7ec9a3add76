import SmtCount.Simulation.Tool.Basic

/-!
# Options of tools

How the options of a tool stand among its arguments: letters after a minus sign, several of them
together, with their arguments behind them or in the next word; or long names after two minus signs.
Options may come after operands.

## Main definitions

* `Options` — the options and the operands.
* `Grammar` — the options that a tool knows.
* `parseOptions` — finds the options among some arguments.
-/

namespace SmtCount.Simulation.Tool

open Kernel (Act)

/-- Has an option an argument? -/
inductive Arity
  | none
  | one
  /-- Only if it stands in the same word. -/
  | maybe
  deriving DecidableEq

/-- The options that a tool knows: letters, and long names for them. -/
structure Grammar where
  letters : List (Char × Arity)
  names : List (String × Char) := []
  /-- Do all arguments after the first operand belong to it? -/
  ordered : Bool := false

/-- The options, each with its argument, and the operands. -/
structure Options where
  found : List (Char × Bytes) := []
  operands : List Bytes := []

namespace Options

variable (o : Options)

/-- Is an option there? -/
def has (c : Char) : Bool := o.found.any (·.1 == c)

/-- The argument of an option; the last one counts. -/
def get? (c : Char) : Option Bytes := (o.found.filter (·.1 == c)).getLast?.map Prod.snd

/-- The arguments of an option. -/
def all (c : Char) : List Bytes := (o.found.filter (·.1 == c)).map Prod.snd

/-- Which of some options comes last? -/
def last? (cs : List Char) : Option Char :=
  (o.found.filter fun f => cs.contains f.1).getLast?.map Prod.fst

def add (c : Char) (argument : Bytes) : Options :=
  { o with found := o.found ++ [(c, argument)] }

end Options

namespace Grammar

variable (g : Grammar)

def arity? (c : Char) : Option Arity := (g.letters.find? (·.1 == c)).map Prod.snd

/-- The letters of a word, the last of which may need an argument. -/
def readLetters (rest : List Bytes) : Bytes → Options → Except Bytes (Options × List Bytes)
  | [], o => .ok (o, rest)
  | c :: cs, o =>
    match g.arity? c with
    | none => .error ("invalid option -- '".toList ++ [c, '\''])
    | some .none => readLetters rest cs (o.add c [])
    | some .maybe => .ok (o.add c cs, rest)
    | some .one =>
      if !cs.isEmpty then .ok (o.add c cs, rest)
      else
        match rest with
        | argument :: rest => .ok (o.add c argument, rest)
        | [] => .error ("option requires an argument -- '".toList ++ [c, '\''])

/-- A long name, which may be cut short as long as it is the only one that begins like this. -/
def readName (word : Bytes) (rest : List Bytes) (o : Options) : Except Bytes (Options × List Bytes) :=
  let name := word.takeWhile (· ≠ '=')
  let hasArgument := name.length ≠ word.length
  let argument := word.drop (name.length + 1)
  let whole := g.names.filter fun n => n.1.toList == name
  let begun := g.names.filter fun n => name.isPrefixOf n.1.toList
  let unknown : Except Bytes (Options × List Bytes) :=
    .error ("unrecognized option '--".toList ++ word ++ ['\''])
  match if whole.isEmpty then begun else whole with
  | [(_, c)] =>
    match g.arity? c with
    | some .one =>
      if hasArgument then .ok (o.add c argument, rest)
      else
        match rest with
        | argument :: rest => .ok (o.add c argument, rest)
        | [] => .error ("option '--".toList ++ name ++ "' requires an argument".toList)
    | some .maybe => .ok (o.add c argument, rest)
    | some .none =>
      if hasArgument then .error ("option '--".toList ++ name ++ "' doesn't allow an argument".toList)
      else .ok (o.add c [], rest)
    | none => unknown
  | _ => unknown

/-- Finds the options among some arguments, in at most so many steps. -/
def parse : Nat → List Bytes → Options → Except Bytes Options
  | 0, _, o => .ok o
  | _ + 1, [], o => .ok o
  | steps + 1, word :: rest, o =>
    match word with
    | ['-', '-'] => .ok { o with operands := o.operands ++ rest }
    | '-' :: '-' :: name => do
      let (o, rest) ← g.readName name rest o
      parse steps rest o
    | '-' :: c :: cs => do
      let (o, rest) ← g.readLetters rest (c :: cs) o
      parse steps rest o
    | operand =>
      if g.ordered then .ok { o with operands := o.operands ++ operand :: rest }
      else parse steps rest { o with operands := o.operands ++ [operand] }

end Grammar

/-- A grammar of letters without arguments, and of letters with arguments. -/
def grammar (plain withArgument : String) (names : List (String × Char)) : Grammar where
  letters := plain.toList.map (·, .none) ++ withArgument.toList.map (·, .one)
  names

/-- Finds the options among some arguments; if there is something wrong with them, the tool ends. -/
def parseOptions (g : Grammar) (status : Nat) (args : List Bytes) : Tool Options := do
  match g.parse (args.length + 1) args {} with
  | .ok o => pure o
  | .error message => die status message

/-- A number with a letter for a power of 1024, or 1000, behind it. -/
def amount? (bs : Bytes) : Option Nat :=
  let digits := bs.takeWhile Char.isDigit
  if digits.isEmpty then none
  else
    let n := Nat.ofDigitChars 10 digits 0
    match String.ofList (bs.drop digits.length) with
    | "" => some n
    | "b" => some (n * 512)
    | "kB" => some (n * 1000)
    | "k" | "K" | "KiB" => some (n * 1024)
    | "MB" => some (n * 1000000)
    | "m" | "M" | "MiB" => some (n * 1048576)
    | "GB" => some (n * 1000000000)
    | "G" | "GiB" => some (n * 1073741824)
    | _ => none

end SmtCount.Simulation.Tool
