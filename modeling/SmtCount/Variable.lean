/-!
# Variables

Typed variables and the symbols that a solver knows them by.  A variable is its name and its sort:
`x` of sort `Int` and `x` of sort `Real` are two variables.

SMT-LIB writes a symbol either plainly, when it is made of certain characters only, or between bars.
Between bars anything may stand except a bar and a backslash, so a name is any text without these
two that is not empty, and each name has a symbol.

## Main definitions

* `VarSort` — the sorts.
* `Variable` — a name fit to be a symbol, and a sort.
* `Variable.ofName` — the variable with a given name, or what is wrong with the name.
* `Variable.symbol` — the name as an SMT-LIB symbol.
* `Variable.lt` — the order in which variables are listed: by name, then by sort.
* `Variable.insert` — puts a variable into a sorted list without repeats.
-/

namespace SmtCount

/-- The sort of a variable. -/
inductive VarSort
  /-- The integers. -/
  | int
  /-- The reals. -/
  | real
  deriving DecidableEq, Hashable, Repr, Inhabited

/-- The SMT-LIB name of a sort. -/
def VarSort.name : VarSort → String
  | .int => "Int"
  | .real => "Real"

/-- Can the text stand between bars? -/
def IsName (name : String) : Prop :=
  name ≠ "" ∧ '|' ∉ name.toList ∧ '\\' ∉ name.toList

instance (name : String) : Decidable (IsName name) :=
  inferInstanceAs (Decidable (_ ∧ _ ∧ _))

/-- A variable: a name that can be an SMT-LIB symbol, and a sort. -/
structure Variable where
  name : String
  sort : VarSort
  isName : IsName name
  deriving DecidableEq, Repr

instance : Hashable Variable := ⟨fun v => mixHash (hash v.name) (hash v.sort)⟩

/-- What is wrong with the name of a variable. -/
inductive NameError
  /-- The name is the empty text. -/
  | empty
  /-- The name holds a bar or a backslash. -/
  | unquotable (name : String)
  deriving DecidableEq, Repr

/-- The wording of a `NameError`. -/
def NameError.message : NameError → String
  | .empty => "Variable names must be non-empty"
  | .unquotable name => "Variable name `" ++ name ++ "` contains `|` or `\\`"

namespace Variable

/-- The variable with a name and a sort. -/
def ofName (name : String) (sort : VarSort) : Except NameError Variable :=
  if h : IsName name then .ok ⟨name, sort, h⟩
  else .error (if name = "" then .empty else .unquotable name)

/-- May the character begin a symbol without bars? -/
def beginsPlain (c : Char) : Bool :=
  c.isAlpha || c == '_' || c == '.' || c == '$'

/-- May the character continue a symbol without bars? -/
def continuesPlain (c : Char) : Bool :=
  c.isAlphanum || c == '_' || c == '.' || c == '$' || c == '-' || c == '!' || c == '?'

/-- Is the name written without bars? -/
def isPlain : List Char → Bool
  | [] => false
  | c :: cs => beginsPlain c && cs.all continuesPlain

/-- The symbol of a name: the name itself, between bars unless it is plain. -/
def quoteName (name : String) : String :=
  if isPlain name.toList then name else "|" ++ name ++ "|"

/-- The name as an SMT-LIB symbol. -/
def symbol (v : Variable) : String :=
  quoteName v.name

/-! ### The order of variables -/

/-- Does `v` come before `w`?  Names are compared by code points; of one name the integer variable
comes first. -/
def lt (v w : Variable) : Bool :=
  v.name < w.name || (v.name == w.name && v.sort == .int && w.sort == .real)

/-- Puts a variable into a sorted list that does not hold it yet; a list that holds it stays as it
is. -/
def insert (v : Variable) : List Variable → List Variable
  | [] => [v]
  | w :: ws => if v = w then w :: ws else if lt v w then v :: w :: ws else w :: insert v ws

/-- The variables of a list, sorted and without repeats. -/
def sorted (vs : List Variable) : List Variable :=
  vs.foldl (fun ws v => insert v ws) []

theorem mem_insert {v w : Variable} {ws : List Variable} : w ∈ insert v ws ↔ w = v ∨ w ∈ ws := by
  induction ws with
  | nil => simp [insert]
  | cons u us ih => grind [insert]

theorem mem_sorted {v : Variable} {vs : List Variable} : v ∈ sorted vs ↔ v ∈ vs := by
  have hfold (us : List Variable) : v ∈ vs.foldl (fun ws w => insert w ws) us ↔ v ∈ us ∨ v ∈ vs := by
    induction vs generalizing us with
    | nil => simp
    | cons w vs ih => rw [List.foldl_cons, ih, mem_insert, List.mem_cons, or_comm (a := v = w), or_assoc]
  simpa [sorted] using hfold []

end Variable

end SmtCount
