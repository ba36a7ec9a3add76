import Mathlib
import SmtCount.Proofs.Factors
import SmtCount.Task

/-!
# What a context saves

A context knows the free variables of the conjuncts of one formula, and is used for the factors of another
one.  It saves collecting the variables of the conjuncts that the two have in common, neither more nor less,
and decides nothing.  The formula behind a context is what holds for a task, so what is saved is what the task
and the tasks above it say already.

## Main definitions

* `Task.Lineage t line` — the tasks above a task, topmost first, and the task itself.

## Main results

* `FactorContext.variables?_ofFormula` — what a context knows.
* `reused_eq_card` — **the conjuncts that are taken from a context** are the common ones.
* `Task.conjuncts_fullExpression` — what holds for a task, conjunct by conjunct.
* `context_saves_common_conjuncts` — the factors with a context and without, and what the context saves.
-/

namespace SmtCount

/-! ### What a context knows -/

/-- **A context knows the conjuncts of its formula** that say something, with their free variables. -/
theorem FactorContext.variables?_ofFormula (g c : Expr) :
    (ofFormula g).variables? c = if c ∈ g.properConjuncts then some c.freeVariables else none := by
  have hknown : ((ofFormula g).variables? c).isSome ↔ c ∈ g.properConjuncts := by
    refine Table.isSome_get?_ofRows.trans ?_
    rw [List.map_map]
    exact iff_of_eq (congrArg (c ∈ ·) (List.map_id _))
  cases hfound : (ofFormula g).variables? c with
  | none =>
    rw [if_neg]
    rw [← hknown, hfound]
    exact Bool.false_ne_true
  | some vs =>
    rw [if_pos (hknown.mp (by rw [hfound]; rfl)), sound_ofFormula g c vs hfound]

/-- Of the conjuncts that say something, a context knows those that its formula has. -/
theorem FactorContext.knows_iff {f g c : Expr} (hc : c ∈ f.properConjuncts) :
    ((ofFormula g).variables? c).isSome ↔ c ∈ g.conjuncts := by
  have hproper : c ∈ g.properConjuncts ↔ c ∈ g.conjuncts := by
    rw [Expr.mem_properConjuncts, (Expr.mem_properConjuncts.mp hc).2]
    exact and_iff_left rfl
  rw [variables?_ofFormula, ← hproper]
  split
  · rename_i hmem
    exact iff_of_true rfl hmem
  · rename_i hmem
    exact iff_of_false Bool.false_ne_true hmem

/-- What is taken from a context is what the context knows. -/
theorem reused_eq_length_filter (f : Expr) (context : FactorContext) :
    (factorize f (some context)).reused =
      (f.distinctConjuncts.filter fun c => (context.variables? c).isSome).length := by
  have hfound : (factorize f (some context)).reused =
      (f.distinctConjuncts.map context.variables?).countP Option.isSome := rfl
  rw [hfound, List.countP_map, List.countP_eq_length_filter]
  rfl

/-- **The conjuncts that are taken from a context** are those that say something, each once, and that the
formula of the context has as well. -/
theorem reused_eq_card (f g : Expr) {common : Expr → Prop} [DecidablePred common]
    (hcommon : ∀ c ∈ f.properConjuncts, c ∈ g.conjuncts ↔ common c) :
    (factorize f (some (.ofFormula g))).reused = (f.properConjuncts.toFinset.filter common).card := by
  have hnodup : (f.distinctConjuncts.filter fun c =>
      ((FactorContext.ofFormula g).variables? c).isSome).Nodup := (nodup_eraseDups _).filter _
  rw [reused_eq_length_filter, ← List.toFinset_card_of_nodup hnodup]
  congr 1
  ext c
  rw [List.mem_toFinset, List.mem_filter, Expr.mem_distinctConjuncts, Finset.mem_filter, List.mem_toFinset]
  refine and_congr_right fun hc => ?_
  rw [FactorContext.knows_iff hc, hcommon c hc]

/-! ### What holds for a task -/

namespace Task

/-- Is this the list of the tasks above a task, topmost first, with the task itself at its end? -/
inductive Lineage : Task → List Task → Prop
  /-- A task without a parent has no task above it. -/
  | root {t : Task} : t.parent = none → Lineage t [t]
  /-- Above a task with a parent are the parent and the tasks above that. -/
  | child {t parent : Task} {line : List Task} : t.parent = some parent → Lineage parent line →
    Lineage t (line ++ [t])

/-- The expressions that hold for a task are those of its lineage. -/
theorem exists_lineage : ∀ t : Task, ∃ line, Lineage t line ∧ t.chain = line.map expression
  | .mk id source none e => ⟨_, .root rfl, rfl⟩
  | .mk id source (some parent) e => by
    obtain ⟨line, hline, hchain⟩ := exists_lineage parent
    refine ⟨_, .child rfl hline, ?_⟩
    rw [chain, hchain, List.map_append]
    rfl

theorem chain_ne_nil (t : Task) : t.chain ≠ [] := by
  obtain ⟨id, source, parent, e⟩ := t
  cases parent <;> simp [chain]

/-- **What holds for a task, conjunct by conjunct**: the conjuncts of the topmost task, and so on down to its
own. -/
theorem conjuncts_fullExpression {t : Task} {line : List Task} (h : t.chain = line.map expression) :
    t.fullExpression.conjuncts = line.flatMap fun u => u.expression.conjuncts := by
  rw [fullExpression, Expr.conjuncts_conjunction t.chain_ne_nil, h, List.flatMap_map]

end Task

/-! ### Factors with a context -/

/-- **A context saves the common conjuncts and decides nothing.**  The factors of a formula are the same with
the context of any other formula and without; taken from the context are the conjuncts of the one that the
other has, too, each once and without the literal `true`.  When the context is that of what holds for a task,
these are the conjuncts that the task or one above it has. -/
theorem context_saves_common_conjuncts (f g : Expr) :
    (factorize f (some (.ofFormula g))).factors = (factorize f none).factors ∧
    (factorize f (some (.ofFormula g))).reused =
      (f.properConjuncts.toFinset ∩ g.conjuncts.toFinset).card ∧
    ∀ t : Task, ∃ line, t.Lineage line ∧
      t.fullExpression.conjuncts = line.flatMap (fun u => u.expression.conjuncts) ∧
      (∀ c ∈ f.properConjuncts, ((FactorContext.ofFormula t.fullExpression).variables? c).isSome ↔
        ∃ u ∈ line, c ∈ u.expression.conjuncts) ∧
      (factorize f (some (.ofFormula t.fullExpression))).reused =
        (f.properConjuncts.toFinset.filter fun c => ∃ u ∈ line, c ∈ u.expression.conjuncts).card := by
  refine ⟨?_, ?_, fun t => ?_⟩
  · have hsound : ∀ c ∈ some (FactorContext.ofFormula g), c.Sound := by
      intro c hc
      exact Option.some.inj hc ▸ FactorContext.sound_ofFormula g
    rw [factors_eq f hsound, factors_eq f fun c hc => absurd hc (Option.not_mem_none c)]
  · have hcommon : ∀ c ∈ f.properConjuncts, c ∈ g.conjuncts ↔ c ∈ g.conjuncts.toFinset :=
      fun c _ => List.mem_toFinset.symm
    rw [reused_eq_card f g hcommon, Finset.filter_mem_eq_inter]
  · obtain ⟨line, hline, hchain⟩ := t.exists_lineage
    have hconjuncts := Task.conjuncts_fullExpression hchain
    have hmem (c : Expr) : c ∈ t.fullExpression.conjuncts ↔ ∃ u ∈ line, c ∈ u.expression.conjuncts := by
      rw [hconjuncts, List.mem_flatMap]
    refine ⟨line, hline, hconjuncts, fun c hc => ?_, reused_eq_card f _ fun c _ => hmem c⟩
    rw [FactorContext.knows_iff hc, hmem]

end SmtCount
