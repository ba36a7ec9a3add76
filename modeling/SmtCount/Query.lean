import SmtCount.Expr.Printer
import SmtCount.Expr.Traversal
import SmtCount.Log
import SmtCount.Table

/-!
# Queries

The text that asks a solver about a formula, and the two tables that its answer is read with: the
symbol that stands for each variable, and the conjunct behind each label.

Every symbol of a query has one meaning.  A variable is declared under its own symbol, unless an
earlier variable has that symbol, which happens when the two have one name and different sorts; then
it gets a numbered symbol that is free.  A conjunct is labelled by its number; a label that a variable
is declared under is lengthened until it is free.

## Main definitions

* `firstFree` — the first of a sequence of symbols that is not taken.
* `Naming` — the symbols given to variables.
* `Query`, `Query.ofFormula` — the query about a formula.
-/

namespace SmtCount

/-! ### Free symbols -/

/-- The first of the symbols `candidate k`, `candidate (k + 1)`, … that is not taken, among the first
`tries` of them, or else the one after these. -/
def firstFree (taken : List String) (candidate : Nat → String) : Nat → Nat → String
  | 0, k => candidate k
  | tries + 1, k =>
    if candidate k ∈ taken then firstFree taken candidate tries (k + 1) else candidate k

/-- The first symbol from `candidate k` on that is not taken.  Among different symbols one more than
are taken, one is free. -/
def freeSymbol (taken : List String) (candidate : Nat → String) (k : Nat) : String :=
  firstFree taken candidate taken.length k

/-! ### Symbols of variables -/

/-- Symbols given to variables. -/
structure Naming where
  /-- The symbol of each variable named so far. -/
  symbols : Table Variable String
  /-- The variables whose own symbol was taken already. -/
  clashing : List Variable
  deriving Repr

namespace Naming

/-- The symbols that are given away. -/
def taken (n : Naming) : List String :=
  n.symbols.values

/-- Names a variable by its own symbol, if that is free. -/
def keep (n : Naming) (v : Variable) : Naming :=
  if v.symbol ∈ n.taken then { n with clashing := n.clashing ++ [v] }
  else { n with symbols := n.symbols.insert v v.symbol }

/-- The symbol of the name with a number. -/
def numbered (v : Variable) (k : Nat) : String :=
  Variable.quoteName (v.name ++ "!" ++ k.repr)

/-- Names a variable by its first numbered symbol that is free. -/
def renumber (n : Naming) (v : Variable) : Naming :=
  { n with symbols := n.symbols.insert v (freeSymbol n.taken (numbered v) 1) }

/-- Names every variable of a list: first those that keep their own symbols, then the others. -/
def ofVariables (vs : List Variable) : Naming :=
  let kept := vs.foldl keep ⟨.empty, []⟩
  kept.clashing.foldl renumber kept

/-- The symbol of a variable; one without a name has its own. -/
def symbol (n : Naming) (v : Variable) : String :=
  (n.symbols.get? v).getD v.symbol

/-- A line for each variable that does not have its own symbol. -/
def log (n : Naming) : Log :=
  n.clashing.map fun v =>
    ⟨.debug, "variable " ++ v.name ++ " of sort " ++ v.sort.name ++ " declared as " ++ n.symbol v⟩

end Naming

/-- The text of an expression, with the symbols of a table; a variable without an entry has its own
symbol. -/
def Expr.renderWith (symbols : Table Variable String) (e : Expr) : String :=
  e.render fun v => (symbols.get? v).getD v.symbol

/-! ### The query -/

/-- A query and the tables to read its answer with. -/
structure Query where
  /-- One line that declares, asserts and asks. -/
  text : String
  /-- The symbol of each variable. -/
  symbols : Table Variable String
  /-- The conjunct behind each label. -/
  labels : Table String Expr
  deriving Repr

namespace Query

/-- What the solver has to keep for the answer. -/
def options : String :=
  "(set-option :produce-models true) (set-option :produce-unsat-cores true)"

/-- The declaration of a variable. -/
def declaration (n : Naming) (v : Variable) : String :=
  " (declare-fun " ++ n.symbol v ++ " () " ++ v.sort.name ++ ")"

/-- The assertion of a conjunct under its label. -/
def assertion (n : Naming) (label : String) (conjunct : Expr) : String :=
  " (assert (! " ++ conjunct.renderWith n.symbols ++ " :named " ++ label ++ "))"

/-- A label with `k` more characters than the number of the conjunct takes. -/
def longLabel (i k : Nat) : String :=
  String.ofList (List.replicate k '_' ++ 'c' :: Nat.toDigits 10 i)

/-- The label of the conjunct with the number `i`. -/
def label (n : Naming) (i : Nat) : String :=
  freeSymbol n.taken (longLabel i) 0

/-- The conjuncts of a formula that say something, each with its label. -/
def labelled (n : Naming) (formula : Expr) : List (String × Expr) :=
  formula.properConjuncts.zipIdx.map fun (c, i) => (label n i, c)

/-- The names of the variables of a formula. -/
def naming (formula : Expr) : Naming :=
  .ofVariables formula.freeVariables

/-- The query about a formula. -/
def ofFormula (formula : Expr) : Query :=
  let n := naming formula
  let clauses := labelled n formula
  { text := options ++ String.join (formula.freeVariables.map (declaration n)) ++
      String.join (clauses.map fun (l, c) => assertion n l c) ++ " (check-sat)"
    symbols := n.symbols
    labels := .ofRows clauses }

end Query

end SmtCount
