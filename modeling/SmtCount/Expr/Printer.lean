import SmtCount.Expr.Basic

/-!
# The SMT-LIB text of an expression

## Main definitions

* `Expr.render symbol e` — the text of `e`, with `symbol v` for each variable `v`.
* `Expr.text e` — the text with the variables' own symbols.
-/

namespace SmtCount.Expr

/-- An operator before its arguments, in parentheses. -/
def applied (operator arguments : String) : String :=
  "(" ++ operator ++ arguments ++ ")"

mutual

/-- The text of an expression, with a symbol for each variable.  SMT-LIB has no conjunction and no
disjunction without parts; their values stand for them. -/
def render (symbol : Variable → String) : Expr → String
  | .const c => c.text
  | .var v => symbol v
  | .not a => applied "not" (" " ++ render symbol a)
  | .and parts => if parts.isEmpty then "true" else applied "and" (renderAll symbol parts)
  | .or parts => if parts.isEmpty then "false" else applied "or" (renderAll symbol parts)
  | .implies a b => applied "=>" (" " ++ render symbol a ++ " " ++ render symbol b)
  | .rel op a b => applied op.word (" " ++ render symbol a ++ " " ++ render symbol b)
  | .arith op a b => applied op.word (" " ++ render symbol a ++ " " ++ render symbol b)
  | .neg a => applied "-" (" " ++ render symbol a)

/-- The texts of some expressions, each after a space. -/
def renderAll (symbol : Variable → String) : List Expr → String
  | [] => ""
  | a :: as => " " ++ render symbol a ++ renderAll symbol as

end

/-- The text of an expression, with the variables' own symbols. -/
def text (e : Expr) : String :=
  e.render Variable.symbol

end SmtCount.Expr
