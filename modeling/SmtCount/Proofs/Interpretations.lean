import Mathlib
import SmtCount.Proofs.Evaluation
import SmtCount.Proofs.Rendering

/-!
# Values under an interpretation

What constants and operators mean is left to whoever reads a formula: over truth values, integers, reals or anything
else, with exact arithmetic or not, with values for all expressions or for some.  Whatever they mean, the value of an
expression is put together from those right below it.  So it depends on the values of the free variables, and on no
others.

## Main definitions

* `Interpretation D` — what constants and operators mean, over the values `D`.
* `Interpretation.value m s e` — the value of `e`, with the value `s v` for each variable `v`.
* `Interpretation.integers` — the meanings behind `Expr.value?`.
* `Interpretation.syntactic` — expressions as values, so that the value is the expression with others put in for
  its variables.

## Main results

* `Interpretation.value_congr` — **only the values of the free variables matter**.
* `Expr.mem_freeVariables_iff_matters` — each of them does, under some interpretation.
* `Expr.value?_eq_value` — the semantics of integers is one of these.
-/

universe u

namespace SmtCount

/-- What variables have, and everything else has once it holds of what is right below, holds of every expression. -/
theorem Expr.induction_var {P : Expr → Prop} (var : ∀ v, P (.var v))
    (other : ∀ e, (∀ v, e ≠ .var v) → (∀ a ∈ e.children, P a) → P e) (e : Expr) : P e := by
  induction e using induction_children with
  | h e ih =>
    cases e with
    | var v => exact var v
    | _ => exact other _ (by simp) ih

/-- What constants and operators mean, over some values. -/
structure Interpretation (D : Type u) where
  const : Constant → D
  not : D → D
  and : List D → D
  or : List D → D
  implies : D → D → D
  rel : RelOp → D → D → D
  arith : ArithOp → D → D → D
  neg : D → D

namespace Interpretation

variable {D : Type u}

mutual

/-- The value of an expression, under values for the variables. -/
def value (m : Interpretation D) (s : Variable → D) : Expr → D
  | .const c => m.const c
  | .var v => s v
  | .not a => m.not (value m s a)
  | .and parts => m.and (values m s parts)
  | .or parts => m.or (values m s parts)
  | .implies a b => m.implies (value m s a) (value m s b)
  | .rel op a b => m.rel op (value m s a) (value m s b)
  | .arith op a b => m.arith op (value m s a) (value m s b)
  | .neg a => m.neg (value m s a)

/-- The values of the expressions in a list. -/
def values (m : Interpretation D) (s : Variable → D) : List Expr → List D
  | [] => []
  | a :: as => value m s a :: values m s as

end

theorem values_eq_map (m : Interpretation D) (s : Variable → D) (es : List Expr) :
    m.values s es = es.map (m.value s) := by
  induction es with
  | nil => rfl
  | cons e es ih => rw [values, ih, List.map_cons]

/-! ### Which variables matter -/

section

variable {m : Interpretation D} {s t : Variable → D} {e : Expr}

/-- What is no variable has its value from what is right below it. -/
theorem value_congr_children (hvar : ∀ v, e ≠ .var v)
    (h : ∀ a ∈ e.children, m.value s a = m.value t a) : m.value s e = m.value t e := by
  cases e with
  | var v => exact absurd rfl (hvar v)
  | const c => rfl
  | and parts | or parts =>
    have hparts : parts.map (m.value s) = parts.map (m.value t) := List.map_congr_left h
    rw [value, value, values_eq_map, values_eq_map, hparts]
  | not a | neg a => rw [value, value, h a (by simp [Expr.children])]
  | implies a b | rel op a b | arith op a b =>
    rw [value, value, h a (by simp [Expr.children]), h b (by simp [Expr.children])]

/-- **Only the values of the variables that occur matter**, whatever constants and operators mean. -/
theorem value_congr (h : ∀ v, e.Mentions v → s v = t v) : m.value s e = m.value t e := by
  induction e using Expr.induction_var with
  | var v => exact h v .var
  | other e hvar ih => exact value_congr_children hvar fun a ha => ih a ha fun v hv => h v (.inside ha hv)

end

/-- Expressions mean themselves. -/
def syntactic : Interpretation Expr where
  const := .const
  not := .not
  and := .and
  or := .or
  implies := .implies
  rel := .rel
  arith := .arith
  neg := .neg

section

variable {s t : Variable → Expr} {e : Expr}

/-- The operators are constructors, so what is right below can be told from the value. -/
theorem value_syntactic_children (hvar : ∀ v, e ≠ .var v) (h : syntactic.value s e = syntactic.value t e) :
    ∀ a ∈ e.children, syntactic.value s a = syntactic.value t a := by
  cases e with
  | var v => exact absurd rfl (hvar v)
  | const c => exact fun a ha => absurd ha List.not_mem_nil
  | not a => exact List.forall_mem_singleton.mpr (Expr.not.inj h)
  | neg a => exact List.forall_mem_singleton.mpr (Expr.neg.inj h)
  | and parts =>
    have hparts := Expr.and.inj h
    rw [values_eq_map, values_eq_map] at hparts
    exact List.map_inj_left.mp hparts
  | or parts =>
    have hparts := Expr.or.inj h
    rw [values_eq_map, values_eq_map] at hparts
    exact List.map_inj_left.mp hparts
  | implies a b =>
    obtain ⟨ha, hb⟩ := Expr.implies.inj h
    exact List.forall_mem_cons.mpr ⟨ha, List.forall_mem_singleton.mpr hb⟩
  | rel op a b =>
    obtain ⟨-, ha, hb⟩ := Expr.rel.inj h
    exact List.forall_mem_cons.mpr ⟨ha, List.forall_mem_singleton.mpr hb⟩
  | arith op a b =>
    obtain ⟨-, ha, hb⟩ := Expr.arith.inj h
    exact List.forall_mem_cons.mpr ⟨ha, List.forall_mem_singleton.mpr hb⟩

/-- Two ways to put expressions in for the variables give the same expression only if they agree on all variables
that occur. -/
theorem value_syntactic_eq_iff :
    syntactic.value s e = syntactic.value t e ↔ ∀ v, e.Mentions v → s v = t v := by
  refine ⟨fun h => ?_, value_congr⟩
  induction e using Expr.induction_var with
  | var w =>
    intro v hv
    obtain rfl := Expr.mentions_var_iff.mp hv
    exact h
  | other e hvar ih =>
    intro v hv
    obtain ⟨a, ha, hv⟩ := (Expr.mentions_iff_children hvar).mp hv
    exact ih a ha (value_syntactic_children hvar h a ha) v hv

end

/-! ### Integers -/

/-- Has one of some values, taken from left to right, this truth value? -/
def anyIs (b : Bool) : List (Option Datum) → Option Bool
  | [] => some false
  | d :: ds => do
    if (← (← d).truth?) = b then pure true
    else anyIs b ds

/-- Exact arithmetic of integers.  There may be no value. -/
def integers : Interpretation (Option Datum) where
  const c := c.datum?
  not d := do
    let b ← (← d).truth?
    pure (.truth !b)
  and ds := (anyIs false ds).map fun found => .truth !found
  or ds := (anyIs true ds).map .truth
  implies c d := do
    if ← (← c).truth? then
      let b ← (← d).truth?
      pure (.truth b)
    else pure (.truth true)
  rel op c d := do
    let m ← (← c).int?
    let n ← (← d).int?
    pure (.truth (op.holds m n))
  arith op c d := do
    let m ← (← c).int?
    let n ← (← d).int?
    pure (.int (op.apply m n))
  neg d := do
    let n ← (← d).int?
    pure (.int (-n))

end Interpretation

namespace Expr

/-- **A variable is free exactly if its value matters** under some interpretation. -/
theorem mem_freeVariables_iff_matters {v : Variable} {e : Expr} :
    v ∈ e.freeVariables ↔ ∃ (m : Interpretation Expr) (s : Variable → Expr) (x : Expr),
      m.value (Function.update s v x) e ≠ m.value s e := by
  rw [mem_freeVariables]
  constructor
  · intro hv
    -- where expressions mean themselves, another one in place of the variable shows
    refine ⟨.syntactic, fun _ => tt, ff, fun heq => ?_⟩
    have hff : Function.update (fun _ => tt) v ff v = tt := Interpretation.value_syntactic_eq_iff.mp heq v hv
    rw [Function.update_self] at hff
    exact absurd hff (by decide)
  · rintro ⟨m, s, x, hne⟩
    by_contra hv
    refine hne (Interpretation.value_congr fun w hw => Function.update_of_ne ?_ x s)
    rintro rfl
    exact hv hw

section

variable (s : Variable → Option Int)

theorem decides?_eq_anyIs (b : Bool) (es : List Expr)
    (h : ∀ a ∈ es, a.value? s = Interpretation.integers.value (fun v => (s v).map .int) a) :
    decides? s b es = Interpretation.anyIs b (Interpretation.integers.values (fun v => (s v).map .int) es) := by
  induction es with
  | nil => rfl
  | cons a as ih =>
    obtain ⟨ha, has⟩ := List.forall_mem_cons.mp h
    rw [decides?, ha, ih has]
    rfl

/-- What an expression comes to over the integers is its value under their interpretation. -/
theorem value?_eq_value (e : Expr) :
    e.value? s = Interpretation.integers.value (fun v => (s v).map .int) e := by
  induction e using induction_children with
  | h e ih =>
    cases e with
    | const c | var v => rfl
    | and parts | or parts =>
      rw [value?, decides?_eq_anyIs s _ parts ih]
      rfl
    | not a | neg a =>
      rw [value?, ih a (by simp [children])]
      rfl
    | implies a b | rel op a b | arith op a b =>
      rw [value?, ih a (by simp [children]), ih b (by simp [children])]
      rfl

end

end Expr

end SmtCount
