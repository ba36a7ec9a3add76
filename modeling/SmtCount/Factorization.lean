import SmtCount.DisjointSets
import SmtCount.Expr.Traversal
import SmtCount.Log
import SmtCount.Table

/-!
# Factorization

A formula is the conjunction of its factors: groups of conjuncts such that conjuncts of different
groups have no variable in common.  The models of the formula are then the combinations of models of
its factors, and the number of its models is the product of theirs.

The groups are the connected components of the conjuncts under "has a variable in common with".  Each
variable is owned by the first conjunct that has it, and every later conjunct with the variable is
joined to the owner.

## Main definitions

* `FactorContext` — the variables of the conjuncts of a formula, kept for later.
* `Expr.distinctConjuncts` — the conjuncts that are grouped.
* `components` — the root of the component of each conjunct.
* `factorize` — the factors of a formula.
-/

namespace SmtCount

/-! ### Contexts -/

/-- The variables of the conjuncts of a formula.  Factorizing another formula with the same conjuncts
takes their variables from here. -/
structure FactorContext where
  /-- The variables of each conjunct. -/
  known : Table Expr (List Variable)
  deriving Repr

namespace FactorContext

/-- The context of a formula. -/
def ofFormula (formula : Expr) : FactorContext :=
  ⟨.ofRows (formula.properConjuncts.map fun c => (c, c.freeVariables))⟩

/-- The number of conjuncts that the context knows. -/
def size (context : FactorContext) : Nat :=
  context.known.size

def isEmpty (context : FactorContext) : Bool :=
  context.known.isEmpty

/-- The variables of a conjunct that the context knows. -/
def variables? (context : FactorContext) (conjunct : Expr) : Option (List Variable) :=
  context.known.get? conjunct

end FactorContext

/-! ### Components -/

/-- The conjuncts of a formula that say something, each once, in the order of first appearance. -/
def Expr.distinctConjuncts (formula : Expr) : List Expr :=
  formula.properConjuncts.eraseDups

/-- The owners of the variables met so far, and the conjuncts joined so far. -/
structure Linking (n : Nat) where
  owners : Table Variable (Fin n)
  sets : DisjointSets n

namespace Linking

variable {n : Nat}

/-- No variable met, nothing joined. -/
def start (n : Nat) : Linking n :=
  ⟨.empty, .singletons n⟩

/-- Meets a variable of the conjunct `i`: joins `i` to the owner, or makes it the owner. -/
def meet (i : Fin n) (l : Linking n) (v : Variable) : Linking n :=
  match l.owners.get? v with
  | some j => { l with sets := l.sets.union i j }
  | none => { l with owners := l.owners.insert v i }

/-- Meets the variables of every conjunct. -/
def meetAll (l : Linking n) (occurrences : List (Fin n × List Variable)) : Linking n :=
  occurrences.foldl (fun l (i, vs) => vs.foldl (meet i) l) l

end Linking

/-- The root of the component of each conjunct, when `vars` lists the variables of each conjunct. -/
def components (vars : List (List Variable)) : List (Fin vars.length) :=
  let indices := List.finRange vars.length
  let linked := (Linking.start vars.length).meetAll (indices.zip vars)
  linked.sets.findAll indices

/-- The conjuncts that have a given root. -/
def membersOf {n : Nat} (root : Fin n) (rooted : List (Fin n × Expr)) : List Expr :=
  (rooted.filter fun p => p.1 = root).map Prod.snd

/-- Groups conjuncts by their roots, in the order of the first conjunct of each group. -/
def groups {n : Nat} (rooted : List (Fin n × Expr)) : List (List Expr) :=
  (rooted.map Prod.fst).eraseDups.map fun root => membersOf root rooted

/-! ### Factors -/

/-- The factors of a formula, with what it took to find them. -/
structure Factorization where
  /-- The number of distinct conjuncts. -/
  conjuncts : Nat
  /-- The number of conjuncts whose variables came from a context. -/
  reused : Nat
  /-- The factors, in the order of their first conjuncts. -/
  factors : List Expr
  deriving DecidableEq, Repr

/-- The log line of a factorization. -/
def Factorization.line (f : Factorization) : LogLine :=
  ⟨.debug, "factorize: " ++ f.conjuncts.repr ++ " conjuncts (" ++ f.reused.repr ++
    " from context) -> " ++ f.factors.length.repr ++ " factors"⟩

/-- Splits a formula into its factors.  A context saves collecting the variables of the conjuncts that
it knows, and decides nothing. -/
def factorize (formula : Expr) (context : Option FactorContext) : Factorization :=
  let conjuncts := formula.distinctConjuncts
  -- what the context knows is what `freeVariables` would give
  let found := conjuncts.map fun c => context.bind (·.variables? c)
  let vars := (conjuncts.zip found).map fun (c, vs) => vs.getD c.freeVariables
  { conjuncts := conjuncts.length
    reused := found.countP Option.isSome
    factors := (groups ((components vars).zip conjuncts)).map Expr.conjunction }

end SmtCount
