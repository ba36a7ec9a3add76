import SmtCount.Expr.Basic

/-!
# Conjuncts and free variables

Two walks over an expression.  Both keep the subexpressions that are still to be visited in a list,
so that neither depends on how deep an expression is nested.

## Main definitions

* `Expr.conjuncts e` — what `e` is the conjunction of, from left to right, with conjunctions inside
  conjunctions taken apart.
* `Expr.freeVariables e` — the variables of `e`, sorted and without repeats.
-/

namespace SmtCount.Expr

/-- The expressions right below an expression. -/
def children : Expr → List Expr
  | .const _ | .var _ => []
  | .not a | .neg a => [a]
  | .and parts | .or parts => parts
  | .implies a b | .rel _ a b | .arith _ a b => [a, b]

mutual

/-- The number of subexpressions of an expression, with itself. -/
def size : Expr → Nat
  | .const _ | .var _ => 1
  | .not a | .neg a => size a + 1
  | .and parts | .or parts => sizeAll parts + 1
  | .implies a b | .rel _ a b | .arith _ a b => size a + size b + 1

/-- The number of subexpressions of the expressions in a list. -/
def sizeAll : List Expr → Nat
  | [] => 0
  | a :: as => size a + sizeAll as

end

theorem sizeAll_append (as bs : List Expr) : sizeAll (as ++ bs) = sizeAll as + sizeAll bs := by
  induction as with
  | nil => simp [sizeAll]
  | cons a as ih => simp only [List.cons_append, sizeAll, ih]; omega

theorem size_eq (a : Expr) : size a = sizeAll a.children + 1 := by
  cases a <;> simp [size, children, sizeAll]

/-- There is less to visit below an expression than in the expression. -/
theorem sizeAll_children_append_lt (a : Expr) (rest : List Expr) :
    sizeAll (a.children ++ rest) < sizeAll (a :: rest) := by
  rw [sizeAll_append, sizeAll, size_eq a]
  omega

theorem sizeAll_lt_cons (a : Expr) (rest : List Expr) : sizeAll rest < sizeAll (a :: rest) := by
  rw [sizeAll, size_eq a]
  omega

/-- The conjuncts of the expressions in a list, from left to right. -/
def conjunctsOf : List Expr → List Expr
  | [] => []
  | .and parts :: rest => conjunctsOf (parts ++ rest)
  | a :: rest => a :: conjunctsOf rest
termination_by pending => sizeAll pending
decreasing_by
  · exact sizeAll_children_append_lt (.and parts) rest
  · exact sizeAll_lt_cons a rest

/-- What an expression is the conjunction of.  An expression that is no conjunction is its own single
conjunct; the empty conjunction has none. -/
def conjuncts (e : Expr) : List Expr :=
  conjunctsOf [e]

/-- The conjuncts that say something: the literal `true` says nothing. -/
def properConjuncts (e : Expr) : List Expr :=
  e.conjuncts.filter fun c => !c.isTrue

/-- Adds the variables of the expressions in a list to a sorted list of variables. -/
def addVariables (found : List Variable) : List Expr → List Variable
  | [] => found
  | .var v :: rest => addVariables (Variable.insert v found) rest
  | a :: rest => addVariables found (a.children ++ rest)
termination_by pending => sizeAll pending
decreasing_by
  · exact sizeAll_lt_cons (.var v) rest
  · exact sizeAll_children_append_lt a rest

/-- The variables of an expression, sorted and without repeats. -/
def freeVariables (e : Expr) : List Variable :=
  addVariables [] [e]

@[simp] theorem conjunctsOf_nil : conjunctsOf [] = [] := by
  rw [conjunctsOf]

@[simp] theorem conjunctsOf_and (parts rest : List Expr) :
    conjunctsOf (.and parts :: rest) = conjunctsOf (parts ++ rest) := by
  rw [conjunctsOf]

/-- The conjuncts of two lists together are those of the first, then those of the second. -/
theorem conjunctsOf_append (as bs : List Expr) :
    conjunctsOf (as ++ bs) = conjunctsOf as ++ conjunctsOf bs := by
  fun_induction conjunctsOf as with
  | case1 => rfl
  | case2 parts rest ih => simpa [List.append_assoc] using ih
  | case3 a rest h ih =>
    rw [List.cons_append, conjunctsOf, ih, List.cons_append]
    exact h

end SmtCount.Expr
