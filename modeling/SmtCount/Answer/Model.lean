import SmtCount.Constant
import SmtCount.Form
import SmtCount.Table
import SmtCount.Text.Integer

/-!
# Models

Reading the assignment that a solver prints for a satisfiable query.  The text is a list of
definitions, perhaps inside one more pair of parentheses and perhaps with a word in front of it there:

```text
(model
  (define-fun x () Int (- 5))
  (define-fun y () Real (/ 5.0 2.0)))
```

A definition with parameters defines a function and assigns nothing.  Of several definitions of one
name the last counts.

## Main definitions

* `ModelError` — why a text cannot be read.
* `definitions` — the values that a text defines, as text.
* `readInt`, `readReal?` — the two kinds of values.
* `Model`, `Model.read` — an assignment, and reading it for a table of symbols.
-/

namespace SmtCount

/-- Why the text of a model cannot be read. -/
inductive ModelError
  /-- The parentheses of the text go wrong. -/
  | unbalanced (place : Unbalanced)
  /-- The value of an integer variable is no integer of 64 bits. -/
  | integer (name text : String) (cause : Text.IntegerError)
  /-- The value of a real variable is not built from numbers. -/
  | real (name text : String)
  deriving DecidableEq, Repr

/-- The wording of a `ModelError`. -/
def ModelError.message : ModelError → String
  | .unbalanced u => "unbalanced parentheses in solver output at byte " ++ u.offset.repr
  | .integer name text _ => "invalid integer value `" ++ text ++ "` for `" ++ name ++ "`"
  | .real name text => "invalid real value `" ++ text ++ "` for `" ++ name ++ "`"

/-! ### Definitions -/

/-- Is the form a definition? -/
def isDefinition (form : List Char) : Bool :=
  match inside? form with
  | some body => "define-fun".toList.isPrefixOf (Text.trimStart body)
  | none => false

/-- The forms of a model: those of the text, or those inside its only form, if that is no
definition. -/
def modelForms (text : List Char) : Except Unbalanced (List (List Char)) :=
  (splitForms text).bind fun forms =>
    match forms with
    | [single] =>
      -- a lone definition has no second pair of parentheses around it
      if isDefinition single then .ok [single]
      else
        match inside? single with
        | some body => splitForms body
        | none => .ok [single]
    | forms => .ok forms

/-- The name and the value that a definition gives it, as texts.  A definition has a word, a name, no
parameters, a sort and a value. -/
def definedValue? : List (List Char) → Option (List Char × List Char)
  | [_, name, parameters, _, value] =>
    if parameters = ['(', ')'] then some (name, value) else none
  | _ => none

/-- Adds what the definitions among some forms define. -/
def addDefinitions (defined : Table (List Char) (List Char)) :
    List (List Char) → Except Unbalanced (Table (List Char) (List Char))
  | [] => .ok defined
  | form :: forms =>
    match inside? form with
    | none => addDefinitions defined forms
    | some body =>
      if isDefinition form then
        (splitForms body).bind fun parts =>
          match definedValue? parts with
          | some (name, value) => addDefinitions (defined.insert name value) forms
          | none => addDefinitions defined forms
      else addDefinitions defined forms

/-- The names that a text defines, with their values as texts. -/
def definitions (text : List Char) : Except Unbalanced (Table (List Char) (List Char)) :=
  (modelForms text).bind (addDefinitions .empty)

/-! ### Values -/

/-- The text `-v` in place of the form `(- v)`; every other text stays as it is. -/
def joinMinus (text : List Char) : Except Unbalanced (List Char) :=
  match inside? text with
  | none => .ok text
  | some body =>
    (splitForms body).map fun parts =>
      match parts with
      | [op, value] => if op = ['-'] then '-' :: value else text
      | _ => text

/-- Reads the value of an integer variable. -/
def readInt (text : List Char) : Except Unbalanced (Except Text.IntegerError Int64) :=
  (joinMinus text).map Text.readInt64

/-- A form inside a form is shorter. -/
theorem shorter {text body form : List Char} {parts : List (List Char)}
    (hbody : inside? text = some body) (hparts : splitForms body = .ok parts) (h : form ∈ parts) :
    form.length < text.length :=
  Nat.lt_of_le_of_lt (length_le_of_mem_splitForms hparts form h) (length_inside?_lt hbody)

/-- Reads the value of a real variable: a number, the negation of a value, or the quotient of two. -/
def readReal? (text : List Char) : Option Binary64 :=
  match _hbody : inside? text with
  | none => Binary64.read? text
  | some body =>
    match _hparts : splitForms body with
    | .ok [op, a] => if op = ['-'] then (readReal? a).map Binary64.neg else none
    | .ok [op, a, b] =>
      if op = ['/'] then
        match readReal? a, readReal? b with
        | some x, some y => some (x.div y)
        | _, _ => none
      else none
    | _ => none
termination_by text.length
decreasing_by
  · exact shorter _hbody _hparts (by simp)
  · exact shorter _hbody _hparts (by simp)
  · exact shorter _hbody _hparts (by simp)

/-- Reads the value of a variable that the solver knows by `name`. -/
def readValue (v : Variable) (name : String) (text : List Char) : Except ModelError Constant :=
  match v.sort with
  | .int =>
    match readInt text with
    | .error u => .error (.unbalanced u)
    | .ok (.error e) => .error (.integer name (String.ofList text) e)
    | .ok (.ok value) => .ok (.int value)
  | .real =>
    match readReal? text with
    | some value => .ok (.real value)
    | none => .error (.real name (String.ofList text))

/-! ### Models -/

/-- An assignment of constants to variables, in the order in which they were read.  A variable without a row
may have any value. -/
abbrev Model := Table Variable Constant

/-- Reads the values of some variables, which are the rows `(v, name)`. -/
def readValues (defined : Table (List Char) (List Char)) (model : Model) :
    List (Variable × String) → Except ModelError Model
  | [] => .ok model
  | (v, name) :: rest =>
    match defined.get? name.toList with
    | none => readValues defined model rest
    | some text =>
      (readValue v name text).bind fun value => readValues defined (model.insert v value) rest

/-- The rows of a table of symbols, in the order of the table and one for each variable. -/
def symbolRows (symbols : Table Variable String) : List (Variable × String) :=
  symbols.keys.eraseDups.filterMap fun v => (symbols.get? v).map (v, ·)

/-- Reads a model: each variable of the table has the value that is defined for its symbol.  The variables are
read in the order of the table; the first whose value cannot be read ends it. -/
def Model.read (output : String) (symbols : Table Variable String) : Except ModelError Model :=
  match definitions output.toList with
  | .error u => .error (.unbalanced u)
  | .ok defined => readValues defined .empty (symbolRows symbols)

end SmtCount
