import SmtCount.Simulation.Kernel.Program
import SmtCount.Simulation.Text.Numeral

/-!
# Conditions

The conditions that programs check for scripts: about texts, numbers and files, joined by "and", "or",
"not" and parentheses.  Whether a word is an operator depends on the words after it.

## Main definitions

* `Operator` — the operators, with how many operands each has.
* `Condition.check` — does a condition hold?
-/

namespace SmtCount.Simulation.Tool

open Kernel (Act Kind)
open Text (Numeral)

/-- What kind of operator a word is. -/
inductive OperatorKind
  | unary
  | binary
  | negation
  | conjunction
  | disjunction
  | opening
  | closing
  deriving DecidableEq

/-- The kind of operator that a word is, if it is one. -/
def operatorKind? (word : Bytes) : Option OperatorKind :=
  match String.ofList word with
  | "!" => some .negation
  | "-a" => some .conjunction
  | "-o" => some .disjunction
  | "(" => some .opening
  | ")" => some .closing
  | "=" | "!=" | "<" | ">" | "-eq" | "-ne" | "-gt" | "-ge" | "-lt" | "-le" | "-nt" | "-ot"
  | "-ef" => some .binary
  | "-r" | "-w" | "-x" | "-e" | "-f" | "-d" | "-c" | "-b" | "-p" | "-u" | "-g" | "-k" | "-s" | "-t"
  | "-z" | "-n" | "-h" | "-O" | "-G" | "-L" | "-S" => some .unary
  | _ => none

namespace Condition

variable {σ : Type}

/-- A check with the words that have not been passed, which fails with a message. -/
abbrev Check (σ : Type) := StateT (List Bytes) (ExceptT Bytes (Act σ))

/-- Fails with a message about an operator. -/
def refuse {α : Type} (what : Bytes) (message : String) : Check σ α :=
  throw (if what.isEmpty then message.toList else what ++ ": ".toList ++ message.toList)

/-- Does the unary operator in front of some words belong to a text that looks like one? -/
def isOperand : List Bytes → Bool
  | _ :: next :: _ :: _ => operatorKind? next == some .binary
  | _ :: _ :: [] => false
  | _ => true

/-- The kind of operator in front of some words, if there is one. -/
def kindAhead? : List Bytes → Option OperatorKind
  | [] => none
  | word :: rest =>
    match operatorKind? word with
    | some .unary => if isOperand (word :: rest) then none else some .unary
    | some .opening => if rest.isEmpty then none else some .opening
    | kind => kind

/-- The number that an operand is. -/
def number (word : Bytes) : Check σ Int :=
  match Numeral.integer? (some 10) word with
  | some n => return n
  | none => throw ("Illegal number: ".toList ++ word)

/-- What there is at a path, if there is something. -/
def kindAt? (path : Bytes) : Check σ (Option Kind) := fun words state next =>
  Act.inspect path state fun answer state => next (.ok (answer.toOption, words)) state

/-- Does a unary operator hold? -/
def checkUnary (op operand : Bytes) : Check σ Bool := do
  match String.ofList op with
  | "-z" => return operand.isEmpty
  | "-n" => return !operand.isEmpty
  | "-t" =>
    let _ ← number operand
    return false
  | "-b" | "-u" | "-g" | "-k" | "-h" | "-L" | "-S" => return false
  | op =>
    match ← kindAt? operand with
    | none => return false
    | some kind =>
      match op, kind with
      | "-f", .file .. => return true
      | "-f", _ => return false
      | "-d", kind => return kind = .directory
      | "-c", kind => return kind = .device
      | "-p", kind => return kind = .pipe
      | "-s", .file size _ => return 0 < size
      | "-s", kind => return kind = .directory
      | "-x", .file _ executable => return executable
      | "-x", kind => return kind = .directory
      | _, _ => return true

/-- Does a binary operator hold? -/
def checkBinary (op a b : Bytes) : Check σ Bool := do
  match String.ofList op with
  | "=" => return a == b
  | "!=" => return a != b
  | "<" => return a < b
  | ">" => return b < a
  | "-nt" => return (← kindAt? a).isSome && (← kindAt? b).isNone
  | "-ot" => return (← kindAt? a).isNone && (← kindAt? b).isSome
  | "-ef" => return a == b && (← kindAt? a).isSome
  | op =>
    let m ← number a
    let n ← number b
    match op with
    | "-eq" => return m == n
    | "-ne" => return m != n
    | "-gt" => return n < m
    | "-ge" => return n ≤ m
    | "-lt" => return m < n
    | _ => return m ≤ n

/-- Does an operator follow the current word? -/
def operatorAfter (words : List Bytes) (kind : OperatorKind) : Bool :=
  kindAhead? words.tail == some kind

/-- Goes past a word. -/
def pass : Check σ Unit := modify List.tail

mutual

/-- Checks alternatives, from the current word on.  The last word of the last alternative is left. -/
def alternatives : Nat → Check σ Bool
  | 0 => return false
  | steps + 1 => do
    let a ← conditions steps
    if operatorAfter (← get) .disjunction then
      pass
      pass
      let b ← alternatives steps
      return a || b
    else return a

/-- Checks conditions that all have to hold. -/
def conditions : Nat → Check σ Bool
  | 0 => return false
  | steps + 1 => do
    let a ← negations steps
    if operatorAfter (← get) .conjunction then
      pass
      pass
      let b ← conditions steps
      return a && b
    else return a

/-- Checks a condition that may be negated. -/
def negations : Nat → Check σ Bool
  | 0 => return false
  | steps + 1 => do
    if kindAhead? (← get) = some .negation then
      if (← get).tail ≠ [] then
        pass
        return !(← negations steps)
      else return true
    else single steps

/-- Checks a single condition. -/
def single : Nat → Check σ Bool
  | 0 => return false
  | steps + 1 => do
    match ← get with
    | [] => return false
    | word :: rest =>
      match kindAhead? (word :: rest) with
      | some .opening =>
        pass
        if kindAhead? rest = some .closing then return false
        else
          let a ← alternatives steps
          pass
          if kindAhead? (← get) ≠ some .closing then refuse [] "closing paren expected"
          return a
      | some .unary =>
        pass
        match rest with
        | [] => refuse word "argument expected"
        | operand :: _ => checkUnary word operand
      | _ =>
        match rest with
        | op :: more =>
          if kindAhead? rest = some .binary then
            pass
            pass
            match more with
            | [] => refuse op "argument expected"
            | b :: _ => checkBinary op word b
          else return !word.isEmpty
        | [] => return !word.isEmpty

end

/-- Checks a condition that goes on to the last word. -/
def whole (words : List Bytes) : Check σ Bool := do
  set words
  let holds ← alternatives (8 * words.length + 8)
  match ← get with
  | word :: _ :: _ => refuse word "unexpected operator"
  | _ => return holds

/-- Checks words of which the first and the last may only hold the others together, in at most so many
steps. -/
def checkWords : Nat → List Bytes → Check σ Bool
  | 0, _ | _ + 1, [] => return false
  | steps + 1, words => do
    match words with
    | [a, op, b] =>
      -- three words around a binary operator are texts, whatever they look like
      if operatorKind? op = some .binary then checkBinary op a b
      else if a = ['('] ∧ b = [')'] then whole [op]
      else if a = ['!'] then return !(← checkWords steps [op, b])
      else whole words
    | [a, b, c, d] =>
      if a = ['('] ∧ d = [')'] then whole [b, c]
      else if a = ['!'] then return !(← checkWords steps [b, c, d])
      else whole words
    | _ => whole words

/-- Does a condition hold?  Fails with a message if it is none. -/
def check (words : List Bytes) : Act σ (Except Bytes Bool) :=
  (((checkWords (words.length + 1) words).run words).map Prod.fst).run

end Condition

end SmtCount.Simulation.Tool
