import SmtCount.Simulation.Shell.Syntax
import SmtCount.Simulation.Text.Numeral

/-!
# Arithmetic in scripts

Expressions over signed words of 64 bits, with the usual operators, the names of parameters, and
assignments to them.  What an expression does not need for its value is read but has no effect.

## Main definitions

* `Calculation` — a reader with the values of parameters.
* `calculate` — the value of an expression and the assignments in it.
-/

namespace SmtCount.Simulation.Shell

open Text (Numeral wrap64 isGap)

/-- What has not been read of an expression, and what parameters are worth by now. -/
structure Calculation where
  rest : Bytes
  /-- The assignments so far, each with its new value. -/
  assigned : Table Bytes Bytes := {}

/-- Why an expression has no value. -/
inductive ArithmeticError
  | expects (what : String)
  | divisionByZero
  | noNumber (text : Bytes)

/-- The wording of an `ArithmeticError` about an expression. -/
def ArithmeticError.message (expression : Bytes) : ArithmeticError → Bytes
  | .expects what =>
    ("arithmetic expression: expecting " ++ what ++ ": \"").toList ++ expression ++ ['"']
  | .divisionByZero => "arithmetic expression: division by zero: \"".toList ++ expression ++ ['"']
  | .noNumber text => "Illegal number: ".toList ++ text

abbrev Calculator := StateT Calculation (Except ArithmeticError)

/-- The operators, longest first. -/
def arithmeticOperators : List String :=
  ["<<=", ">>=", "||", "&&", "==", "!=", "<=", ">=", "<<", ">>", "*=", "/=", "%=", "+=", "-=", "&=",
    "^=", "|=", "|", "^", "&", "<", ">", "+", "-", "*", "/", "%", "!", "~", "?", ":", "=", "(", ")"]

/-- How tightly a binary operator binds, if it is one that needs both operands. -/
def strength? (op : String) : Option Nat :=
  match op with
  | "*" | "/" | "%" => some 8
  | "+" | "-" => some 7
  | "<<" | ">>" => some 6
  | "<" | "<=" | ">" | ">=" => some 5
  | "==" | "!=" => some 4
  | "&" => some 3
  | "^" => some 2
  | "|" => some 1
  | _ => none

/-- The operator of an assignment with an operator. -/
def updating? (op : String) : Option String :=
  if ["*=", "/=", "%=", "+=", "-=", "<<=", ">>=", "&=", "^=", "|="].contains op then
    some (String.ofList (op.toList.dropLast))
  else none

/-- A truth value as a number. -/
def truthValue (b : Bool) : Int := if b then 1 else 0

/-- An operation on the bits of two words. -/
def onBits (f : UInt64 → UInt64 → UInt64) (a b : Int) : Int :=
  (f (UInt64.ofInt a) (UInt64.ofInt b)).toInt64.toInt

/-- The value of an operation.  Division goes toward zero, and shifts count modulo 64. -/
def applyOperator (op : String) (a b : Int) : Except ArithmeticError Int :=
  match op with
  | "*" => .ok (wrap64 (a * b))
  | "/" => if b = 0 then .error .divisionByZero else .ok (wrap64 (a.tdiv b))
  | "%" => if b = 0 then .error .divisionByZero else .ok (a.tmod b)
  | "+" => .ok (wrap64 (a + b))
  | "-" => .ok (wrap64 (a - b))
  | "<<" => .ok (wrap64 (a * 2 ^ (b % 64).toNat))
  | ">>" => .ok (a / 2 ^ (b % 64).toNat)
  | "<" => .ok (truthValue (a < b))
  | "<=" => .ok (truthValue (a ≤ b))
  | ">" => .ok (truthValue (b < a))
  | ">=" => .ok (truthValue (b ≤ a))
  | "==" => .ok (truthValue (a == b))
  | "!=" => .ok (truthValue (a != b))
  | "&" => .ok (onBits (· &&& ·) a b)
  | "^" => .ok (onBits (· ^^^ ·) a b)
  | _ => .ok (onBits (· ||| ·) a b)

/-- Goes past blanks. -/
def skipGaps : Calculator Unit :=
  modify fun s => { s with rest := s.rest.dropWhile isGap }

/-- The operator that comes next. -/
def operatorAhead : Calculator (Option String) := do
  skipGaps
  let rest := (← get).rest
  return arithmeticOperators.find? fun op => op.toList.isPrefixOf rest

/-- Goes past an operator. -/
def skipOperator (op : String) : Calculator Unit :=
  modify fun s => { s with rest := s.rest.drop op.length }

/-- The value of a parameter as a number. -/
def numberOf (valueOf : Bytes → Bytes) (name : Bytes) : Calculator Int := do
  let text := ((← get).assigned.get? name).getD (valueOf name)
  match Numeral.integer? none text with
  | some n => return n
  | none => throw (.noNumber text)

/-- The name that comes next, if one does. -/
def nameAhead : Calculator (Option Bytes) := do
  skipGaps
  match (← get).rest with
  | c :: cs => return if isNameStart c then some (c :: cs.takeWhile isNameChar) else none
  | [] => return none

mutual

/-- Reads an operand.  If `live` is false, its value does not count. -/
def primary (valueOf : Bytes → Bytes) (live : Bool) : Nat → Calculator Int
  | 0 => throw (.expects "primary")
  | steps + 1 => do
    match ← nameAhead with
    | some name =>
      modify fun s => { s with rest := s.rest.drop name.length }
      if live then numberOf valueOf name else return 0
    | none =>
      let n := Numeral.read none (← get).rest
      if n.found && (← get).rest.head?.any Char.isDigit then
        modify fun s => { s with rest := n.rest }
        return n.signed
      else
        match ← operatorAhead with
        | some "(" =>
          skipOperator "("
          let v ← assignment valueOf live steps
          if (← operatorAhead) ≠ some ")" then throw (.expects "')'")
          skipOperator ")"
          return v
        | some "+" =>
          skipOperator "+"
          primary valueOf live steps
        | some "-" =>
          skipOperator "-"
          return wrap64 (-(← primary valueOf live steps))
        | some "!" =>
          skipOperator "!"
          return truthValue ((← primary valueOf live steps) == 0)
        | some "~" =>
          skipOperator "~"
          return -(← primary valueOf live steps) - 1
        | _ => throw (.expects "primary")

/-- Applies the operators that come next to a first operand, if they bind at least as tightly as
`least`. -/
def operations (valueOf : Bytes → Bytes) (live : Bool) (least : Nat) : Nat → Int → Calculator Int
  | 0, v => return v
  | steps + 1, v => do
    match ← operatorAhead with
    | none => return v
    | some op =>
      match strength? op with
      | none => return v
      | some strength =>
        if strength < least then return v
        else
          skipOperator op
          let w ← primary valueOf live steps
          let w ← operations valueOf live (strength + 1) steps w
          let v ← if live then (applyOperator op v w : Except _ _) else pure 0
          operations valueOf live least steps v

/-- Reads operands of which all have to be true. -/
def conjunction (valueOf : Bytes → Bytes) (live : Bool) : Nat → Calculator Int
  | 0 => throw (.expects "primary")
  | steps + 1 => do
    let v ← operations valueOf live 1 steps (← primary valueOf live steps)
    if (← operatorAhead) = some "&&" then
      skipOperator "&&"
      let w ← conjunction valueOf (live && v ≠ 0) steps
      return truthValue (v ≠ 0 && w ≠ 0)
    else return v

/-- Reads operands of which one has to be true. -/
def disjunction (valueOf : Bytes → Bytes) (live : Bool) : Nat → Calculator Int
  | 0 => throw (.expects "primary")
  | steps + 1 => do
    let v ← conjunction valueOf live steps
    if (← operatorAhead) = some "||" then
      skipOperator "||"
      let w ← disjunction valueOf (live && v == 0) steps
      return truthValue (v ≠ 0 || w ≠ 0)
    else return v

/-- Reads a choice between two values. -/
def selection (valueOf : Bytes → Bytes) (live : Bool) : Nat → Calculator Int
  | 0 => throw (.expects "primary")
  | steps + 1 => do
    let v ← disjunction valueOf live steps
    if (← operatorAhead) = some "?" then
      skipOperator "?"
      let a ← assignment valueOf (live && v ≠ 0) steps
      if (← operatorAhead) ≠ some ":" then throw (.expects "':'")
      skipOperator ":"
      let b ← selection valueOf (live && v == 0) steps
      return if v ≠ 0 then a else b
    else return v

/-- Reads an assignment, or a value. -/
def assignment (valueOf : Bytes → Bytes) (live : Bool) : Nat → Calculator Int
  | 0 => throw (.expects "primary")
  | steps + 1 => do
    let before ← get
    match ← nameAhead with
    | none => selection valueOf live steps
    | some name =>
      modify fun s => { s with rest := s.rest.drop name.length }
      let op ← operatorAhead
      match op with
      | some "=" =>
        skipOperator "="
        let v ← assignment valueOf live steps
        assign name v
      | some op =>
        match updating? op with
        | none =>
          set before
          selection valueOf live steps
        | some plain =>
          skipOperator op
          let w ← assignment valueOf live steps
          if live then
            let v ← numberOf valueOf name
            let v ← (applyOperator plain v w : Except _ _)
            assign name v
          else return w
      | none =>
        set before
        selection valueOf live steps
where
  /-- Gives a parameter a value. -/
  assign (name : Bytes) (v : Int) : Calculator Int := do
    if live then modify fun s => { s with assigned := s.assigned.insert name v.repr.toList }
    return v

end

/-- The value of an expression and the assignments in it, with a text for each parameter. -/
def calculate (valueOf : Bytes → Bytes) (expression : Bytes) :
    Except ArithmeticError (Int × Table Bytes Bytes) := do
  let (v, s) ← (assignment valueOf true (8 * expression.length + 8)).run { rest := expression }
  if s.rest.all isGap then return (v, s.assigned)
  else throw (.expects "EOF")

end SmtCount.Simulation.Shell
