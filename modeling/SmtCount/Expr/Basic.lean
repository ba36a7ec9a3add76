import SmtCount.Constant

/-!
# Expressions

Constraints over typed variables.  An expression is its structure: two expressions are equal when
they were built the same way.  Nothing here looks at sorts, so the terms of arithmetic and the
formulas over them are one type.

## Main definitions

* `Expr` — expressions.
* `Expr.negate`, `Expr.conjunction` — the negation that undoes itself, and the conjunction of any
  number of parts.
* `Expr.isTrue`, `Expr.isFalse` — the two literals.
-/

namespace SmtCount

/-- The relations between two terms. -/
inductive RelOp
  | eq
  | ne
  | lt
  | le
  | gt
  | ge
  deriving DecidableEq, Hashable, Repr

/-- The SMT-LIB word of a relation. -/
def RelOp.word : RelOp → String
  | .eq => "="
  | .ne => "distinct"
  | .lt => "<"
  | .le => "<="
  | .gt => ">"
  | .ge => ">="

/-- The operations on two terms. -/
inductive ArithOp
  | add
  | sub
  | mul
  deriving DecidableEq, Hashable, Repr

/-- The SMT-LIB word of an operation. -/
def ArithOp.word : ArithOp → String
  | .add => "+"
  | .sub => "-"
  | .mul => "*"

/-- An expression. -/
inductive Expr
  /-- A constant value. -/
  | const (value : Constant)
  /-- A variable. -/
  | var (v : Variable)
  /-- `a` does not hold. -/
  | not (a : Expr)
  /-- All parts hold; there may be none. -/
  | and (parts : List Expr)
  /-- Some part holds; there may be none. -/
  | or (parts : List Expr)
  /-- If `a` holds, so does `b`. -/
  | implies (a b : Expr)
  /-- A relation between two terms. -/
  | rel (op : RelOp) (a b : Expr)
  /-- An operation on two terms. -/
  | arith (op : ArithOp) (a b : Expr)
  /-- The term `a` with the other sign. -/
  | neg (a : Expr)
  deriving Repr, Inhabited

namespace Expr

/-! ### Equality -/

mutual

/-- Were two expressions built the same way? -/
def same : Expr → Expr → Bool
  | .const c, .const d => c == d
  | .var v, .var w => v == w
  | .not a, .not b => same a b
  | .and as, .and bs => sameAll as bs
  | .or as, .or bs => sameAll as bs
  | .implies a b, .implies c d => same a c && same b d
  | .rel o a b, .rel p c d => o == p && same a c && same b d
  | .arith o a b, .arith p c d => o == p && same a c && same b d
  | .neg a, .neg b => same a b
  | _, _ => false

/-- Were the expressions of two lists built the same way, one by one? -/
def sameAll : List Expr → List Expr → Bool
  | [], [] => true
  | a :: as, b :: bs => same a b && sameAll as bs
  | _, _ => false

end

mutual

theorem eq_of_same : ∀ {a b : Expr}, same a b = true → a = b
  | .const _, b, h => by cases b <;> simp_all [same]
  | .var _, b, h => by cases b <;> simp_all [same]
  | .not a, b, h => by
    cases b <;> simp [same] at h
    exact congrArg _ (eq_of_same h)
  | .and as, b, h => by
    cases b <;> simp [same] at h
    exact congrArg _ (eq_of_sameAll h)
  | .or as, b, h => by
    cases b <;> simp [same] at h
    exact congrArg _ (eq_of_sameAll h)
  | .implies a b, c, h => by
    cases c <;> simp [same] at h
    rw [eq_of_same h.1, eq_of_same h.2]
  | .rel _ a b, c, h => by
    cases c <;> simp [same] at h
    rw [h.1.1, eq_of_same h.1.2, eq_of_same h.2]
  | .arith _ a b, c, h => by
    cases c <;> simp [same] at h
    rw [h.1.1, eq_of_same h.1.2, eq_of_same h.2]
  | .neg a, b, h => by
    cases b <;> simp [same] at h
    exact congrArg _ (eq_of_same h)

theorem eq_of_sameAll : ∀ {as bs : List Expr}, sameAll as bs = true → as = bs
  | [], bs, h => by cases bs <;> simp_all [sameAll]
  | a :: as, bs, h => by
    cases bs <;> simp [sameAll] at h
    rw [eq_of_same h.1, eq_of_sameAll h.2]

end

mutual

theorem same_refl : ∀ a : Expr, same a a = true
  | .const _ | .var _ => by simp [same]
  | .not a | .neg a => by rw [same]; exact same_refl a
  | .and as | .or as => by rw [same]; exact sameAll_refl as
  | .implies a b | .rel _ a b | .arith _ a b => by simp [same, same_refl a, same_refl b]

theorem sameAll_refl : ∀ as : List Expr, sameAll as as = true
  | [] => by rw [sameAll]
  | a :: as => by rw [sameAll, same_refl a, sameAll_refl as]; rfl

end

instance : DecidableEq Expr := fun a b =>
  if h : same a b = true then .isTrue (eq_of_same h)
  else .isFalse fun e => h (e ▸ same_refl a)

/-! ### Hashing -/

mutual

/-- A hash that depends on the structure alone. -/
def hashOf : Expr → UInt64
  | .const c => mixHash 1 (hash c)
  | .var v => mixHash 2 (hash v)
  | .not a => mixHash 3 (hashOf a)
  | .and as => mixHash 4 (hashAll as)
  | .or as => mixHash 5 (hashAll as)
  | .implies a b => mixHash 6 (mixHash (hashOf a) (hashOf b))
  | .rel o a b => mixHash (mixHash 7 (hash o)) (mixHash (hashOf a) (hashOf b))
  | .arith o a b => mixHash (mixHash 8 (hash o)) (mixHash (hashOf a) (hashOf b))
  | .neg a => mixHash 9 (hashOf a)

/-- The hash of a list of expressions. -/
def hashAll : List Expr → UInt64
  | [] => 11
  | a :: as => mixHash (hashOf a) (hashAll as)

end

instance : Hashable Expr := ⟨hashOf⟩

/-! ### Building expressions -/

/-- The expression that always holds. -/
def tt : Expr := .const (.bool true)

/-- The expression that never holds. -/
def ff : Expr := .const (.bool false)

/-- The negation of an expression; a negation loses its `not` instead of getting a second one. -/
def negate : Expr → Expr
  | .not a => a
  | a => .not a

/-- The conjunction of some expressions: one part is its own conjunction, and without any part the
conjunction always holds. -/
def conjunction : List Expr → Expr
  | [] => tt
  | [a] => a
  | parts => .and parts

/-- Is this the literal `true`? -/
def isTrue : Expr → Bool
  | .const (.bool true) => true
  | _ => false

/-- Is this the literal `false`? -/
def isFalse : Expr → Bool
  | .const (.bool false) => true
  | _ => false

theorem isTrue_iff {a : Expr} : a.isTrue = true ↔ a = tt := by
  constructor
  · intro h
    unfold isTrue at h
    split at h
    · rfl
    · cases h
  · rintro rfl
    rfl

end Expr

end SmtCount
