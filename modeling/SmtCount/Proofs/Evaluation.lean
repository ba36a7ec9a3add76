import Mathlib
import SmtCount.Proofs.Counting

/-!
# The semantics of integers

A truth semantics for formulas over integers.  Arithmetic is exact, and an expression that mixes sorts,
has a constant that is no integer or a variable without a value, has no value itself, unless the parts
of a conjunction or a disjunction before it decide.

## Main definitions

* `Datum` — a truth value or an integer, and `Expr.value?` — that of an expression.
* `integers` — **the truth semantics of integers**.
-/

namespace SmtCount

/-- What a formula or a term comes to. -/
inductive Datum
  | truth (b : Bool)
  | int (n : Int)
  deriving DecidableEq, Repr

namespace Datum

def truth? : Datum → Option Bool
  | .truth b => some b
  | .int _ => none

def int? : Datum → Option Int
  | .int n => some n
  | .truth _ => none

end Datum

/-- Does a relation hold between two integers? -/
def RelOp.holds : RelOp → Int → Int → Bool
  | .eq, a, b => a == b
  | .ne, a, b => a != b
  | .lt, a, b => a < b
  | .le, a, b => a ≤ b
  | .gt, a, b => a > b
  | .ge, a, b => a ≥ b

/-- The result of an operation on two integers. -/
def ArithOp.apply : ArithOp → Int → Int → Int
  | .add, a, b => a + b
  | .sub, a, b => a - b
  | .mul, a, b => a * b

/-- What a constant comes to. -/
def Constant.datum? : Constant → Option Datum
  | .bool b => some (.truth b)
  | .int n => some (.int n.toInt)
  | .real _ => none

namespace Expr

mutual

/-- What an expression comes to, under values for some variables. -/
def value? (s : Variable → Option Int) : Expr → Option Datum
  | .const c => c.datum?
  | .var v => (s v).map .int
  | .not a => do
    let b ← (← value? s a).truth?
    pure (.truth !b)
  | .and parts => (decides? s false parts).map fun found => .truth !found
  | .or parts => (decides? s true parts).map .truth
  | .implies a b => do
    if ← (← value? s a).truth? then
      let c ← (← value? s b).truth?
      pure (.truth c)
    else pure (.truth true)
  | .rel op a b => do
    let m ← (← value? s a).int?
    let n ← (← value? s b).int?
    pure (.truth (op.holds m n))
  | .arith op a b => do
    let m ← (← value? s a).int?
    let n ← (← value? s b).int?
    pure (.int (op.apply m n))
  | .neg a => do
    let n ← (← value? s a).int?
    pure (.int (-n))

/-- Has one of the parts, taken from left to right, this truth value? -/
def decides? (s : Variable → Option Int) (b : Bool) : List Expr → Option Bool
  | [] => some false
  | a :: as => do
    if (← (← value? s a).truth?) = b then pure true
    else decides? s b as

end

mutual

/-- Only the variables that occur in an expression matter for what it comes to. -/
theorem value?_congr {s t : Variable → Option Int} :
    ∀ e : Expr, (∀ v, Mentions v e → s v = t v) → e.value? s = e.value? t
  | .const _, _ => rfl
  | .var v, h => by rw [value?, value?, h v .var]
  | .not a, h => by
    rw [value?, value?, value?_congr a fun v hv => h v (.inside (by simp [children]) hv)]
  | .neg a, h => by
    rw [value?, value?, value?_congr a fun v hv => h v (.inside (by simp [children]) hv)]
  | .and parts, h => by
    rw [value?, value?, decides?_congr false parts fun a ha v hv => h v (.inside ha hv)]
  | .or parts, h => by
    rw [value?, value?, decides?_congr true parts fun a ha v hv => h v (.inside ha hv)]
  | .implies a b, h | .rel _ a b, h | .arith _ a b, h => by
    rw [value?, value?, value?_congr a fun v hv => h v (.inside (by simp [children]) hv),
      value?_congr b fun v hv => h v (.inside (by simp [children]) hv)]

theorem decides?_congr {s t : Variable → Option Int} (b : Bool) :
    ∀ es : List Expr, (∀ a ∈ es, ∀ v, Mentions v a → s v = t v) → decides? s b es = decides? t b es
  | [], _ => rfl
  | a :: as, h => by
    rw [decides?, decides?, value?_congr a (h a List.mem_cons_self),
      decides?_congr b as fun c hc => h c (List.mem_cons_of_mem a hc)]

end

/-- No part of a conjunction is false exactly if all of them are true. -/
theorem decides?_false_eq (s : Variable → Option Int) (parts : List Expr) :
    decides? s false parts = some false ↔ ∀ p ∈ parts, p.value? s = some (.truth true) := by
  induction parts with
  | nil => simp [decides?]
  | cons a as ih =>
    rw [List.forall_mem_cons, ← ih, decides?]
    cases ha : a.value? s with
    | none => simp
    | some d =>
      cases d with
      | int n => simp [Datum.truth?]
      | truth b => cases b <;> simp [Datum.truth?]

end Expr

/-- **The truth semantics of integers**: an expression holds when it comes to true. -/
def integers : TruthSemantics Int where
  Holds e s := e.value? s = some (.truth true)
  holds_and parts s := by
    rw [← Expr.decides?_false_eq, Expr.value?]
    cases Expr.decides? s false parts with
    | none => simp
    | some b => cases b <;> simp
  holds_tt _ := rfl
  holds_congr e s t h := by
    rw [Expr.value?_congr e fun v hv => h v (Expr.mem_freeVariables.mpr hv)]

end SmtCount
