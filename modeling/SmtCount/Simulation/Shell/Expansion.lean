import SmtCount.Simulation.Shell.Arithmetic
import SmtCount.Simulation.Shell.Fields
import SmtCount.Simulation.Shell.State

/-!
# Expanding words

What the words of a command stand for: parameters, the values of expressions and the output of
commands take the place of what names them, and what comes out unquoted is split into fields.

## Main definitions

* `Interpreter.expandWord` — a word, with what is known about its bytes.
* `Interpreter.fieldsOf`, `Interpreter.textOf`, `Interpreter.patternIn` — a word as fields, as one
  text, and as a pattern.
-/

namespace SmtCount.Simulation.Shell

open Kernel (Act)

/-- How a word is expanded. -/
structure Expanding where
  /-- Do arguments stay apart? -/
  fields : Bool := false
  /-- Can bytes of the word itself separate fields? -/
  splits : Bool := false

/-- A text that comes out of an expansion. -/
def symbolsOf (quoted : Bool) (bs : Bytes) : List Symbol :=
  bs.map fun c => .byte c quoted !quoted

/-- All arguments, as they come out of an expansion. -/
def argumentSymbols (s : Shell) (e : Expanding) (apart quoted : Bool) : List Symbol :=
  if e.fields && (apart || !quoted) then
    List.intercalate [.gap] (s.args.map fun a =>
      if quoted then .empty :: symbolsOf true a else symbolsOf false a)
  else symbolsOf quoted (List.intercalate s.joint s.args)

/-- A parameter as it comes out of an expansion, if it has a value. -/
def parameterSymbols? (s : Shell) (e : Expanding) (name : Bytes) (quoted : Bool) :
    Option (List Symbol) :=
  if name = ['@'] ∨ name = ['*'] then
    some (argumentSymbols s e (name = ['@']) quoted)
  else (s.value? name).map (symbolsOf quoted)

/-- Reads the output of a child up to its end, in at most so many pieces. -/
def readAll (fd : Nat) : Nat → List Bytes → Script Bytes
  | 0, seen => pure seen.reverse.flatten
  | pieces + 1, seen => do
    match ← Act.read fd 4096 with
    | .ok (c :: cs) => readAll fd pieces ((c :: cs) :: seen)
    | _ => pure seen.reverse.flatten

namespace Interpreter

variable (I : Interpreter)

/-- The output of a command, without the ends of lines at its end. -/
def outputOf (c : Command) : Script Bytes := do
  match c with
  | .skip => pure []
  | c =>
    let (input, output) ← Act.newPipe
    let child ← I.fork do
      let _ ← Act.close input
      if output ≠ 1 then
        let _ ← Act.copy output 1
        let _ ← Act.close output
      I.run { last := true } c
    let _ ← Act.close output
    let bs ← readAll input Kernel.Act.manyTurns []
    let _ ← Act.close input
    let status ← waitFor child
    Act.modify fun s => { s with substituted := status }
    pure ((bs.filter fun c => c.toNat ≠ 0).reverse.dropWhile (· == '\n')).reverse

/-- The value of an expression. -/
def valueOf (expression : Bytes) : Script Bytes := do
  let s ← Act.get
  match calculate (fun name => (s.stored? name).getD []) expression with
  | .error e => I.fail (e.message expression)
  | .ok (v, assigned) =>
    assigned.rows.forM fun r => I.assign r.1 r.2
    pure v.repr.toList

/-- Ends the shell because a parameter has no value. -/
def reportUnset {α : Type} (name message : Bytes) : Script α :=
  I.fail (name ++ ": ".toList ++ message)

mutual

/-- Expands the pieces of a word. -/
def expandWord (e : Expanding) : List Piece → Script (List Symbol)
  | [] => pure []
  | piece :: rest => do
    let symbols ← expandPiece e piece
    let more ← expandWord e rest
    pure (symbols ++ more)

/-- Expands a piece of a word. -/
def expandPiece (e : Expanding) : Piece → Script (List Symbol)
  | .text [] quoted => pure (if quoted then [.empty] else [])
  | .text bytes quoted => pure (bytes.map fun c => .byte c quoted (e.splits && !quoted))
  | .home => do
    pure (symbolsOf true (((← Act.get).stored? "HOME".toList).getD ['~']))
  | .arith expression quoted => do
    let symbols ← expandWord {} expression
    let v ← I.valueOf (plainBytes symbols)
    pure (symbolsOf quoted v)
  | .output c quoted => do
    let bs ← I.outputOf c
    pure (symbolsOf quoted bs)
  | .param name modifier word quoted => do
    let s ← Act.get
    let value := parameterSymbols? s e name quoted
    -- a value that has no bytes is as good as none for some modifiers
    let worth (empty : Bool) := value.any fun v => !empty || !(plainBytes v).isEmpty
    let inner : Expanding := { e with splits := !quoted }
    match modifier with
    | .plain =>
      match value with
      | some v => pure v
      | none =>
        if s.isSet 'u' then I.reportUnset name "parameter not set".toList
        else pure []
    | .length =>
      match value with
      | some v => pure (symbolsOf quoted (decimal (plainBytes v).length))
      | none =>
        if s.isSet 'u' then I.reportUnset name "parameter not set".toList
        else pure (symbolsOf quoted ['0'])
    | .default empty => if worth empty then pure (value.getD []) else expandWord inner word
    | .alternative empty => if worth empty then expandWord inner word else pure []
    | .assign empty =>
      if worth empty then pure (value.getD [])
      else
        let symbols ← expandWord {} word
        let text := plainBytes symbols
        if !isName name then I.fail (name ++ ": bad variable name".toList)
        I.assign name text
        pure (symbolsOf quoted text)
    | .demand empty =>
      if worth empty then pure (value.getD [])
      else
        let symbols ← expandWord {} word
        let message := match word with
          | [] => if empty then "parameter not set or null" else "parameter not set"
          | _ => ""
        I.reportUnset name (if word.isEmpty then message.toList else plainBytes symbols)
    | .dropStart longest =>
      if value.isNone && s.isSet 'u' then I.reportUnset name "parameter not set".toList
      else
        let pattern ← expandWord {} word
        pure (symbolsOf quoted
          (dropStartMatch longest (patternOf pattern) (plainBytes (value.getD []))))
    | .dropEnd longest =>
      if value.isNone && s.isSet 'u' then I.reportUnset name "parameter not set".toList
      else
        let pattern ← expandWord {} word
        pure (symbolsOf quoted
          (dropEndMatch longest (patternOf pattern) (plainBytes (value.getD []))))
    | .unknown => I.fail "Bad substitution".toList

end

/-- The fields of a word. -/
def fieldsOf (word : Word) : Script (List Bytes) := do
  let symbols ← I.expandWord { fields := true } word
  pure (splitFields (← Act.get).separators symbols)

/-- The fields of some words. -/
def allFieldsOf : List Word → Script (List Bytes)
  | [] => pure []
  | word :: words => do
    let fields ← I.fieldsOf word
    let more ← allFieldsOf words
    pure (fields ++ more)

/-- A word as one text. -/
def textOf (word : Word) : Script Bytes := do
  let symbols ← I.expandWord {} word
  pure (plainBytes symbols)

/-- A word as a pattern. -/
def patternIn (word : Word) : Script (List Element) := do
  let symbols ← I.expandWord {} word
  pure (patternOf symbols)

end Interpreter

end SmtCount.Simulation.Shell
