import Mathlib
import SmtCount.Factorization

/-!
# What the walks over an expression find

The two walks keep a list of what is still to be visited.  What they find is said here without that
list: the conjuncts of an expression are all there is to a property that conjunctions share with
their parts, and the free variables are those that occur.

## Main definitions

* `Expr.Mentions v e` — the variable `v` occurs in `e`.

## Main results

* `Expr.forall_mem_conjuncts` — what holds of a conjunction exactly if it holds of the parts, holds of an
  expression exactly if it holds of its conjuncts.
* `Expr.conjuncts_and`, `Expr.conjuncts_of_ne_and` — the conjuncts by recursion.
* `Expr.mem_freeVariables` — **the free variables are the variables that occur**.
* `Expr.mem_freeVariables_conjunction`, `Expr.mem_freeVariables_iff_conjuncts` — those of a conjunction and
  of an expression are those of the parts and of the conjuncts.
-/

namespace SmtCount

namespace Expr

/-! ### Conjuncts -/

/-- What a conjunction shares with its parts, some expressions share with their conjuncts. -/
theorem forall_mem_conjunctsOf {P : Expr → Prop}
    (hand : ∀ parts, P (.and parts) ↔ ∀ p ∈ parts, P p) (pending : List Expr) :
    (∀ c ∈ conjunctsOf pending, P c) ↔ ∀ e ∈ pending, P e := by
  fun_induction conjunctsOf pending with
  | case1 => rfl
  | case2 parts rest ih =>
    rw [ih, List.forall_mem_append, List.forall_mem_cons, hand]
  | case3 a rest _ ih =>
    rw [List.forall_mem_cons, List.forall_mem_cons, ih]

/-- What a conjunction shares with its parts, an expression shares with its conjuncts. -/
theorem forall_mem_conjuncts {P : Expr → Prop}
    (hand : ∀ parts, P (.and parts) ↔ ∀ p ∈ parts, P p) (e : Expr) :
    (∀ c ∈ e.conjuncts, P c) ↔ P e := by
  rw [conjuncts, forall_mem_conjunctsOf hand, List.forall_mem_singleton]

/-- The conjuncts of a list are those of its expressions, one after another. -/
theorem conjunctsOf_eq_flatMap (pending : List Expr) : conjunctsOf pending = pending.flatMap conjuncts := by
  induction pending with
  | nil => rw [conjunctsOf_nil, List.flatMap_nil]
  | cons e rest ih => rw [← List.singleton_append, conjunctsOf_append, ih]; rfl

/-- The conjuncts of a conjunction are those of its parts, from left to right. -/
theorem conjuncts_and (parts : List Expr) : (Expr.and parts).conjuncts = parts.flatMap conjuncts := by
  rw [conjuncts, conjunctsOf_and, List.append_nil, conjunctsOf_eq_flatMap]

/-- What is no conjunction is its own single conjunct. -/
theorem conjuncts_of_ne_and {e : Expr} (h : ∀ parts, e ≠ .and parts) : e.conjuncts = [e] := by
  rw [conjuncts, conjunctsOf, conjunctsOf_nil]
  exact h

theorem ne_and_of_mem_conjunctsOf {pending : List Expr} {c : Expr} (h : c ∈ conjunctsOf pending)
    (parts : List Expr) : c ≠ .and parts := by
  fun_induction conjunctsOf pending with
  | case1 => exact absurd h List.not_mem_nil
  | case2 _ _ ih => exact ih h
  | case3 a rest hand ih =>
    rcases List.mem_cons.mp h with rfl | h
    · exact hand parts
    · exact ih h

/-- No conjunct is a conjunction, so it is its own single conjunct. -/
theorem conjuncts_of_mem_conjuncts {e c : Expr} (h : c ∈ e.conjuncts) : c.conjuncts = [c] :=
  conjuncts_of_ne_and (ne_and_of_mem_conjunctsOf h)

/-- The conjuncts of a conjunction are those of its parts, whatever form it has, if it has parts. -/
theorem conjuncts_conjunction {parts : List Expr} (h : parts ≠ []) :
    (conjunction parts).conjuncts = parts.flatMap conjuncts := by
  match parts with
  | [] => exact absurd rfl h
  | [a] => rw [conjunction, List.flatMap_singleton]
  | _ :: _ :: _ => exact conjuncts_and _

theorem mem_properConjuncts {f c : Expr} : c ∈ f.properConjuncts ↔ c ∈ f.conjuncts ∧ c.isTrue = false := by
  rw [properConjuncts, List.mem_filter, Bool.not_eq_true']

theorem mem_distinctConjuncts {f c : Expr} : c ∈ f.distinctConjuncts ↔ c ∈ f.properConjuncts :=
  List.mem_eraseDups

/-- The literal `true` may be left out when it has the property anyway, and so may repeats. -/
theorem forall_mem_distinctConjuncts {P : Expr → Prop}
    (hand : ∀ parts, P (.and parts) ↔ ∀ p ∈ parts, P p) (htt : P tt) (e : Expr) :
    (∀ c ∈ e.distinctConjuncts, P c) ↔ P e := by
  simp only [← forall_mem_conjuncts hand e, mem_distinctConjuncts, mem_properConjuncts]
  refine ⟨fun h c hc => ?_, fun h c hc => h c hc.1⟩
  by_cases htrue : c.isTrue = true
  · rw [isTrue_iff.mp htrue]
    exact htt
  · exact h c ⟨hc, by simpa using htrue⟩

/-! ### Variables -/

/-- Does the variable occur in the expression? -/
inductive Mentions (v : Variable) : Expr → Prop
  /-- A variable occurs in itself. -/
  | var : Mentions v (.var v)
  /-- What occurs in an expression right below occurs in the expression. -/
  | inside {e a : Expr} : a ∈ e.children → Mentions v a → Mentions v e

theorem mentions_var_iff {v w : Variable} : Mentions v (.var w) ↔ v = w := by
  constructor
  · intro h
    cases h with
    | var => rfl
    | inside h _ => exact absurd h List.not_mem_nil
  · rintro rfl
    exact .var

/-- What occurs in an expression that is no variable occurs right below it. -/
theorem mentions_iff_children {v : Variable} {e : Expr} (h : ∀ w, e ≠ .var w) :
    Mentions v e ↔ ∃ a ∈ e.children, Mentions v a := by
  refine ⟨fun hm => ?_, fun ⟨a, ha, hm⟩ => .inside ha hm⟩
  cases hm with
  | var => exact absurd rfl (h v)
  | inside ha hm => exact ⟨_, ha, hm⟩

theorem mem_addVariables {v : Variable} (found : List Variable) (pending : List Expr) :
    v ∈ addVariables found pending ↔ v ∈ found ∨ ∃ e ∈ pending, Mentions v e := by
  fun_induction addVariables found pending with
  | case1 found => simp
  | case2 found w rest ih =>
    rw [ih, Variable.mem_insert, List.exists_mem_cons_iff, mentions_var_iff, or_comm (a := v = w),
      or_assoc]
  | case3 found a rest hvar ih =>
    rw [ih, List.exists_mem_cons_iff, mentions_iff_children hvar]
    simp only [List.mem_append, or_and_right, exists_or]

/-- **The free variables are the variables that occur.** -/
theorem mem_freeVariables {v : Variable} {e : Expr} : v ∈ e.freeVariables ↔ Mentions v e := by
  simp [freeVariables, mem_addVariables]

theorem mem_freeVariables_and {v : Variable} {parts : List Expr} :
    v ∈ (Expr.and parts).freeVariables ↔ ∃ p ∈ parts, v ∈ p.freeVariables := by
  simp only [mem_freeVariables]
  exact mentions_iff_children fun _ => by simp

@[simp] theorem freeVariables_tt : tt.freeVariables = [] := by
  refine List.eq_nil_iff_forall_not_mem.mpr fun v hv => ?_
  obtain ⟨a, ha, -⟩ := (mentions_iff_children fun _ => by simp [tt]).mp (mem_freeVariables.mp hv)
  exact absurd ha List.not_mem_nil

/-- The variables of a conjunction are those of its parts, whatever form it has. -/
theorem mem_freeVariables_conjunction {v : Variable} {parts : List Expr} :
    v ∈ (conjunction parts).freeVariables ↔ ∃ p ∈ parts, v ∈ p.freeVariables := by
  match parts with
  | [] => simp [conjunction]
  | [a] => simp [conjunction]
  | _ :: _ :: _ => exact mem_freeVariables_and

/-- A variable that does not occur in a conjunction occurs in no part, and conversely. -/
theorem not_mem_freeVariables_and {v : Variable} (parts : List Expr) :
    v ∉ (Expr.and parts).freeVariables ↔ ∀ p ∈ parts, v ∉ p.freeVariables := by
  rw [mem_freeVariables_and]
  simp

/-- The variables of an expression are those of its conjuncts. -/
theorem mem_freeVariables_iff_conjuncts {v : Variable} {e : Expr} :
    v ∈ e.freeVariables ↔ ∃ c ∈ e.conjuncts, v ∈ c.freeVariables := by
  rw [← not_iff_not, ← forall_mem_conjuncts (P := fun e => v ∉ e.freeVariables)
    not_mem_freeVariables_and e]
  simp

/-- The variables of an expression are those of the conjuncts that are grouped. -/
theorem mem_freeVariables_iff_distinctConjuncts {v : Variable} {e : Expr} :
    v ∈ e.freeVariables ↔ ∃ c ∈ e.distinctConjuncts, v ∈ c.freeVariables := by
  rw [← not_iff_not, ← forall_mem_distinctConjuncts (P := fun e => v ∉ e.freeVariables)
    not_mem_freeVariables_and (by simp) e]
  simp

end Expr

end SmtCount
