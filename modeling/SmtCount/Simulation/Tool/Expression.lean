import SmtCount.Simulation.Regex.Parser
import SmtCount.Simulation.Tool.Basic

/-!
# Expressions of words

A tool that works out an expression whose operands and operators are its arguments.  Every value is a
text; operators on numbers ask for texts that are integers.

## Main definitions

* `Expression.value` — the value of an expression.
* `expr` — the tool.
-/

namespace SmtCount.Simulation.Tool

open Kernel (Act)

namespace Expression

/-- A part of working out an expression: the words that are left, or what is wrong. -/
abbrev Eval := StateT (List Bytes) (Except Bytes)

/-- The integer that a text is. -/
def integer? (bs : Bytes) : Option Int :=
  let digits := if bs.head? = some '-' then bs.tail else bs
  if digits.isEmpty || !digits.all Char.isDigit then none
  else
    let n : Int := Nat.ofDigitChars 10 digits 0
    some (if bs.head? = some '-' then -n else n)

/-- An integer as a text. -/
def ofInt (n : Int) : Bytes := if n < 0 then '-' :: decimal n.natAbs else decimal n.natAbs

def ofBool (b : Bool) : Bytes := if b then ['1'] else ['0']

/-- Does a value count as false? -/
def isNull (bs : Bytes) : Bool := bs.isEmpty || integer? bs = some 0

/-- The operators that bind equally, the weakest first. -/
def levels : List (List String) :=
  [["|"], ["&"], ["<", "<=", "=", "==", "!=", ">=", ">"], ["+", "-"], ["*", "/", "%"], [":"]]

/-- Compares two values, as numbers if both are. -/
def compareValues (a b : Bytes) : Ordering :=
  match integer? a, integer? b with
  | some m, some n => compare m n
  | _, _ => if a = b then .eq else if a < b then .lt else .gt

/-- The integer that an operand has to be. -/
def operand (bs : Bytes) : Eval Int :=
  match integer? bs with
  | some n => return n
  | none => throw "non-integer argument".toList

/-- Matches the start of a text: the first group, or how much matches. -/
def matchStart (text pattern : Bytes) : Eval Bytes := do
  match Regex.parse {} pattern with
  | .error message => throw message.toList
  | .ok (r, groups) =>
    -- only matches at the start count
    let found := (Regex.seq (.edge .textStart) r).matcher.search text
    match found with
    | none => return (if groups = 0 then ['0'] else [])
    | some found =>
      if groups = 0 then return decimal (found.stop - found.start)
      else
        match found.group? 1 with
        | some (i, j) => return (text.take j).drop i
        | none => return []

/-- Applies an operator.  What is not `live` is not asked for, so that nothing can be wrong with it. -/
def apply (live : Bool) (op : String) (a b : Bytes) : Eval Bytes := do
  if !live then return []
  else
    match op with
    | "<" => return ofBool ((compareValues a b).isLT)
    | "<=" => return ofBool ((compareValues a b).isLE)
    | "=" | "==" => return ofBool ((compareValues a b).isEq)
    | "!=" => return ofBool ((compareValues a b).isNe)
    | ">=" => return ofBool ((compareValues a b).isGE)
    | ">" => return ofBool ((compareValues a b).isGT)
    | ":" => matchStart a b
    | op =>
      let m ← operand a
      let n ← operand b
      match op with
      | "+" => return ofInt (m + n)
      | "-" => return ofInt (m - n)
      | "*" => return ofInt (m * n)
      | _ =>
        if n = 0 then throw "division by zero".toList
        else return ofInt (if op = "/" then m.tdiv n else m.tmod n)

/-- The next word, which must be there. -/
def word (before : Bytes) : Eval Bytes := do
  match ← get with
  | w :: rest =>
    set rest
    return w
  | [] => throw ("syntax error: missing argument after '".toList ++ before ++ ['\''])

mutual

/-- Works out an expression of operators that bind at least so strongly. -/
def level : Nat → List (List String) → Bool → Eval Bytes
  | 0, _, _ => throw "syntax error".toList
  | steps + 1, [], live => atom steps live
  | steps + 1, ops :: more, live => do
    let first ← level steps more live
    operators steps ops more live first

/-- Works out the operands that follow the first one. -/
def operators : Nat → List String → List (List String) → Bool → Bytes → Eval Bytes
  | 0, _, _, _, _ => throw "syntax error".toList
  | steps + 1, ops, more, live, a => do
    match ← get with
    | [] => return a
    | w :: rest =>
      let op := String.ofList w
      if !ops.contains op then return a
      else
        set rest
        if rest.isEmpty then throw ("syntax error: missing argument after '".toList ++ w ++ ['\''])
        match op with
        | "|" =>
          let b ← level steps more (live && isNull a)
          operators steps ops more live
            (if !isNull a then a else if isNull b then ['0'] else b)
        | "&" =>
          let b ← level steps more (live && !isNull a)
          operators steps ops more live (if isNull a || isNull b then ['0'] else a)
        | op =>
          let b ← level steps more live
          operators steps ops more live (← apply live op a b)

/-- Works out an operand. -/
def atom : Nat → Bool → Eval Bytes
  | 0, _ => throw "syntax error".toList
  | steps + 1, live => do
    let w ← word []
    match String.ofList w with
    | "(" =>
      let a ← level steps levels live
      match ← get with
      | [')'] :: rest =>
        set rest
        return a
      | [] => throw "syntax error: expecting ')'".toList
      | other :: _ => throw ("syntax error: expecting ')' instead of '".toList ++ other ++ ['\''])
    | ")" => throw "syntax error: unexpected ')'".toList
    | "+" => word w
    | "length" => return decimal (← atom steps live).length
    | "match" =>
      let a ← atom steps live
      let b ← atom steps live
      apply live ":" a b
    | "index" =>
      let a ← atom steps live
      let b ← atom steps live
      return decimal (((a.findIdx? b.contains).map (· + 1)).getD 0)
    | "substr" =>
      let a ← atom steps live
      let start ← atom steps live
      let length ← atom steps live
      match integer? start, integer? length with
      | some i, some n =>
        if 0 < i ∧ 0 < n then return (a.drop (i.toNat - 1)).take n.toNat else return []
      | _, _ => return []
    | _ => return w

end

/-- The value of an expression. -/
def value (words : List Bytes) : Except Bytes Bytes := do
  let (a, rest) ← (level (16 * words.length + 16) levels true).run words
  match rest with
  | [] => return a
  | w :: _ => throw ("syntax error: unexpected argument '".toList ++ w ++ ['\''])

end Expression

/-- Prints the value of an expression. -/
def expr (args : List Bytes) : Tool Unit := do
  let words := match args with
    | ['-', '-'] :: rest => rest
    | args => args
  if words.isEmpty then die 2 "missing operand".toList
  match Expression.value words with
  | .error message => die 2 message
  | .ok a =>
    emitLine a
    if Expression.isNull a then setStatus 1

end SmtCount.Simulation.Tool
