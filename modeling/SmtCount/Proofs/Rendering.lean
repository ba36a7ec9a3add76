import Mathlib
import SmtCount.Proofs.ModelValues
import SmtCount.Proofs.Splitting
import SmtCount.Proofs.Traversal

/-!
# Rendered expressions, read back

The text of an expression is one form.  The reader that takes answers apart finds in it, level by level,
what the expression was built from: the operator, the parts from left to right, the constants, and for
every variable the symbol that stands for it.  Nothing in the name of a variable can change that, since
the symbol of a name is one form wherever it is put between blanks.

## Main definitions

* `IsForm f` — an atom, or a text in parentheses.
* `listForm forms` — forms in parentheses, with one space between them.
* `parts? form` — the parts that the reader finds in a form in parentheses.
* `Expr.Reads symbols e form` — the reader finds the expression `e` in the form.

## Main results

* `parts?_listForm` — the reader finds the forms that were put in parentheses.
* `splitForms_between_spaces` — **an atom between spaces is one form**, and changes no other form.
* `Expr.reads_renderWith` — **a rendered expression is read back**, variable by variable.
-/

namespace SmtCount

/-! ### Forms in a row -/

/-- Is the text one form: an atom, or a text in parentheses? -/
def IsForm (form : List Char) : Prop :=
  IsAtom form ∨ ∃ body, Balanced body ∧ form = parens body

/-- Forms with a space in front of each. -/
def spaced : List (List Char) → List Char
  | [] => []
  | form :: forms => ' ' :: (form ++ spaced forms)

/-- Forms with one space between them. -/
def phrase : List (List Char) → List Char
  | [] => []
  | form :: forms => form ++ spaced forms

/-- Forms in parentheses, with one space between them. -/
def listForm (forms : List (List Char)) : List Char :=
  parens (phrase forms)

theorem endsAtom_spaced (forms : List (List Char)) : EndsAtom (spaced forms) := by
  cases forms with
  | nil => trivial
  | cons form forms => exact .inl (by decide)

theorem spaced_append (forms forms' : List (List Char)) :
    spaced (forms ++ forms') = spaced forms ++ spaced forms' := by
  induction forms with
  | nil => rfl
  | cons form forms ih => simp [spaced, ih]

theorem phrase_append {forms : List (List Char)} (hne : forms ≠ []) (rest : List (List Char)) :
    phrase (forms ++ rest) = phrase forms ++ spaced rest := by
  cases forms with
  | nil => exact absurd rfl hne
  | cons form forms => simp [phrase, spaced_append]

/-- One more form in front of a text. -/
theorem IsForm.laidOut_cons {form text : List Char} {forms : List (List Char)} (h : IsForm form)
    (hends : EndsAtom text) (htext : LaidOut forms text) : LaidOut (form :: forms) (form ++ text) := by
  rcases h with hatom | ⟨body, hbody, rfl⟩
  · exact .atom hatom hends htext
  · exact .parens hbody htext

/-- A text of forms behind another one. -/
theorem LaidOut.append {forms forms' : List (List Char)} {text text' : List Char}
    (h : LaidOut forms text) (h' : LaidOut forms' text') (hends : EndsAtom text') :
    LaidOut (forms ++ forms') (text ++ text') := by
  induction h with
  | nil => exact h'
  | blank hc _ ih => exact .blank hc ih
  | @atom a forms text ha hnext _ ih =>
    have hrest : EndsAtom (text ++ text') := by
      cases text with
      | nil => exact hends
      | cons c text => exact hnext
    rw [List.append_assoc]
    exact .atom ha hrest ih
  | parens hbody _ ih =>
    rw [List.append_assoc]
    exact .parens hbody ih

section Rows

variable {forms : List (List Char)} (h : ∀ f ∈ forms, IsForm f)

include h

theorem laidOut_spaced : LaidOut forms (spaced forms) := by
  induction forms with
  | nil => exact .nil
  | cons form forms ih =>
    obtain ⟨hform, hforms⟩ := List.forall_mem_cons.mp h
    exact .blank (by decide) (hform.laidOut_cons (endsAtom_spaced forms) (ih hforms))

theorem laidOut_phrase : LaidOut forms (phrase forms) := by
  cases forms with
  | nil => exact .nil
  | cons form forms =>
    obtain ⟨hform, hforms⟩ := List.forall_mem_cons.mp h
    exact hform.laidOut_cons (endsAtom_spaced forms) (laidOut_spaced hforms)

theorem isForm_listForm : IsForm (listForm forms) :=
  .inr ⟨phrase forms, (laidOut_phrase h).balanced, rfl⟩

end Rows

theorem splitForms_of_isForm {form : List Char} (h : IsForm form) : splitForms form = .ok [form] := by
  have hlaid : LaidOut [form] (form ++ []) := h.laidOut_cons trivial .nil
  rw [List.append_nil] at hlaid
  exact splitForms_of_laidOut hlaid

/-- **An atom between spaces is one form**, whatever stands between its bars, and the forms around it are
the same as without it. -/
theorem splitForms_between_spaces {a before behind : List Char} {forms forms' : List (List Char)}
    (ha : IsAtom a) (hbefore : splitForms before = .ok forms) (hbehind : splitForms behind = .ok forms') :
    splitForms (before ++ ' ' :: (a ++ ' ' :: behind)) = .ok (forms ++ a :: forms') := by
  have hspace : Text.isBlank ' ' = true := by decide
  have hrest : LaidOut (a :: forms') (' ' :: (a ++ ' ' :: behind)) :=
    .blank hspace (.atom ha (.inl hspace) (.blank hspace (splitForms_eq_ok_iff.mp hbehind)))
  exact splitForms_of_laidOut ((splitForms_eq_ok_iff.mp hbefore).append hrest (.inl hspace))

/-! ### The parts of a form -/

/-- The parts that the reader finds between the parentheses of a form; none if it has no parentheses or
they do not match. -/
def parts? (form : List Char) : Option (List (List Char)) :=
  (inside? form).bind fun body => (splitForms body).toOption

/-- The reader finds the forms that were put in parentheses. -/
theorem parts?_listForm {forms : List (List Char)} (h : ∀ f ∈ forms, IsForm f) :
    parts? (listForm forms) = some forms := by
  rw [parts?, listForm, inside?_parens, Option.bind_some, splitForms_of_laidOut (laidOut_phrase h)]
  rfl

instance : DecidablePred IsPlainChar :=
  fun c => inferInstanceAs (Decidable (Text.isBlank c = false ∧ c ≠ '(' ∧ c ≠ ')' ∧ c ≠ '|'))

/-- A word of plain characters is an atom. -/
theorem isAtom_of_all_isPlainChar {a : List Char} (hne : a ≠ [])
    (h : (a.all fun c => decide (IsPlainChar c)) = true) : IsAtom a := by
  refine isAtom_of_forall_isPlainChar hne ?_
  intro c hc
  exact of_decide_eq_true (List.all_eq_true.mp h c hc)

/-! ### Constants -/

theorem isAtom_true : IsAtom "true".toList :=
  isAtom_of_all_isPlainChar (by decide) (by decide)

theorem isAtom_false : IsAtom "false".toList :=
  isAtom_of_all_isPlainChar (by decide) (by decide)

theorem toList_negated (numeral : String) :
    (Constant.negated numeral).toList = listForm [['-'], numeral.toList] := by
  simp [Constant.negated, listForm, phrase, spaced, parens]

theorem isForm_negated {numeral : String} (h : IsAtom numeral.toList) :
    IsForm (Constant.negated numeral).toList := by
  rw [toList_negated]
  refine isForm_listForm ?_
  simp only [List.forall_mem_cons, List.not_mem_nil, false_implies, implies_true, and_true]
  exact ⟨.inl isAtom_minus, .inl h⟩

/-- The text of a constant is one form. -/
theorem isForm_text (c : Constant) : IsForm c.text.toList := by
  cases c with
  | bool b =>
    cases b
    · exact .inl isAtom_false
    · exact .inl isAtom_true
  | int n =>
    have hatom : IsAtom (String.ofList (Nat.toDigits 10 n.toInt.natAbs)).toList := by
      rw [String.toList_ofList]
      exact isAtom_toDigits _
    change IsForm (Constant.intText n).toList
    unfold Constant.intText
    dsimp only
    split
    · exact isForm_negated hatom
    · exact .inl hatom
  | real x =>
    have hatom : IsAtom (String.ofList x.magnitudeText).toList := by
      rw [String.toList_ofList]
      exact isAtom_magnitudeText x
    change IsForm (Constant.realText x).toList
    unfold Constant.realText
    dsimp only
    split
    · exact isForm_negated hatom
    split
    · -- negative zero keeps its sign, and that is a plain character
      rw [String.toList_append]
      exact .inl ⟨by simp, .char isPlainChar_minus hatom.2⟩
    · exact .inl hatom

/-! ### Expressions -/

theorem RelOp.isAtom_word (op : RelOp) : IsAtom op.word.toList := by
  cases op <;> exact isAtom_of_all_isPlainChar (by decide) (by decide)

theorem ArithOp.isAtom_word (op : ArithOp) : IsAtom op.word.toList := by
  cases op <;> exact isAtom_of_all_isPlainChar (by decide) (by decide)

namespace Expr

/-- What holds of an expression whenever it holds of the expressions right below it holds of every
expression. -/
theorem induction_children {P : Expr → Prop} (h : ∀ e, (∀ a ∈ e.children, P a) → P e) (e : Expr) : P e := by
  induction hsize : e.size using Nat.strong_induction_on generalizing e with
  | _ n ih =>
    subst hsize
    refine h e fun a ha => ih a.size ?_ a rfl
    obtain ⟨before, behind, hsplit⟩ := List.append_of_mem ha
    rw [size_eq e, hsplit, sizeAll_append, sizeAll]
    omega

/-- The word in front of the parts of an expression, if it is written in parentheses. -/
def operator? : Expr → Option String
  | .const _ | .var _ | .and [] | .or [] => none
  | .not _ => some "not"
  | .and (_ :: _) => some "and"
  | .or (_ :: _) => some "or"
  | .implies _ _ => some "=>"
  | .rel op _ _ => some op.word
  | .arith op _ _ => some op.word
  | .neg _ => some "-"

/-- What has no operator is a constant, a variable, or has no parts. -/
theorem induction_operator {P : Expr → Prop} (const : ∀ c, P (.const c)) (var : ∀ v, P (.var v))
    (noConjunct : P (.and [])) (noDisjunct : P (.or []))
    (applied : ∀ e word, e.operator? = some word → (∀ a ∈ e.children, P a) → P e) (e : Expr) : P e := by
  induction e using induction_children with
  | h e ih =>
    cases hword : e.operator? with
    | some word => exact applied e word hword ih
    | none =>
      cases e with
      | const c => exact const c
      | var v => exact var v
      | and parts =>
        cases parts with
        | nil => exact noConjunct
        | cons a as => cases hword
      | or parts =>
        cases parts with
        | nil => exact noDisjunct
        | cons a as => cases hword
      | not a => cases hword
      | implies a b => cases hword
      | rel op a b => cases hword
      | arith op a b => cases hword
      | neg a => cases hword

theorem isAtom_of_operator? {e : Expr} {word : String} (h : e.operator? = some word) :
    IsAtom word.toList := by
  cases e with
  | const c => cases h
  | var v => cases h
  | not a => cases h; exact isAtom_of_all_isPlainChar (by decide) (by decide)
  | and parts =>
    cases parts with
    | nil => cases h
    | cons a as => cases h; exact isAtom_of_all_isPlainChar (by decide) (by decide)
  | or parts =>
    cases parts with
    | nil => cases h
    | cons a as => cases h; exact isAtom_of_all_isPlainChar (by decide) (by decide)
  | implies a b => cases h; exact isAtom_of_all_isPlainChar (by decide) (by decide)
  | rel op a b => cases h; exact RelOp.isAtom_word op
  | arith op a b => cases h; exact ArithOp.isAtom_word op
  | neg a => cases h; exact isAtom_minus

/-- The texts of some expressions, each after a space. -/
theorem toList_renderAll (symbol : Variable → String) (es : List Expr) :
    (renderAll symbol es).toList = spaced (es.map fun a => (a.render symbol).toList) := by
  induction es with
  | nil => rfl
  | cons e es ih => simp [renderAll, spaced, ih]

/-- An operator and its arguments, in parentheses. -/
theorem toList_applied (word : String) (forms : List (List Char)) {arguments : String}
    (h : arguments.toList = spaced forms) :
    (applied word arguments).toList = listForm (word.toList :: forms) := by
  simp [applied, listForm, parens, phrase, h]

/-- An expression in parentheses is its operator in front of its parts. -/
theorem toList_render {e : Expr} {word : String} (h : e.operator? = some word)
    (symbol : Variable → String) :
    (e.render symbol).toList =
      listForm (word.toList :: e.children.map fun a => (a.render symbol).toList) := by
  have hone (a : Expr) : (" " ++ a.render symbol).toList = spaced ([a].map fun a => (a.render symbol).toList) := by
    simp [spaced]
  have htwo (a b : Expr) : (" " ++ a.render symbol ++ " " ++ b.render symbol).toList =
      spaced ([a, b].map fun a => (a.render symbol).toList) := by
    simp [spaced]
  cases e with
  | const c => cases h
  | var v => cases h
  | not a => cases h; rw [render]; exact toList_applied _ _ (hone a)
  | and parts =>
    cases parts with
    | nil => cases h
    | cons a as => cases h; rw [render]; exact toList_applied _ _ (toList_renderAll symbol (a :: as))
  | or parts =>
    cases parts with
    | nil => cases h
    | cons a as => cases h; rw [render]; exact toList_applied _ _ (toList_renderAll symbol (a :: as))
  | implies a b => cases h; rw [render]; exact toList_applied _ _ (htwo a b)
  | rel op a b => cases h; rw [render]; exact toList_applied _ _ (htwo a b)
  | arith op a b => cases h; rw [render]; exact toList_applied _ _ (htwo a b)
  | neg a => cases h; rw [render]; exact toList_applied _ _ (hone a)

/-- The reader finds the expression in the form: its operator and its parts, and in the place of a variable
the atom that the table has for it. -/
inductive Reads (symbols : Table Variable String) : Expr → List Char → Prop
  /-- A constant is its text. -/
  | const (c : Constant) : Reads symbols (.const c) c.text.toList
  /-- A variable is the symbol that stands for it. -/
  | var {v : Variable} {symbol : String} : symbols.get? v = some symbol → IsAtom symbol.toList →
    Reads symbols (.var v) symbol.toList
  /-- A conjunction without parts is its value. -/
  | andNil : Reads symbols (.and []) "true".toList
  /-- A disjunction without parts is its value. -/
  | orNil : Reads symbols (.or []) "false".toList
  /-- Everything else is in parentheses. -/
  | applied {e : Expr} {word : String} {form : List Char} {forms : List (List Char)} :
    e.operator? = some word → parts? form = some (word.toList :: forms) →
    List.Forall₂ (Reads symbols) e.children forms → Reads symbols e form

/-- **A rendered expression is one form and is read back**, when the table has an atom for every variable
of the expression. -/
theorem reads_renderWith {symbols : Table Variable String} (e : Expr)
    (h : ∀ v, Mentions v e → ∃ symbol, symbols.get? v = some symbol ∧ IsAtom symbol.toList) :
    IsForm (e.renderWith symbols).toList ∧ Reads symbols e (e.renderWith symbols).toList := by
  induction e using induction_operator with
  | const c => exact ⟨isForm_text c, .const c⟩
  | var v =>
    obtain ⟨symbol, hsymbol, hatom⟩ := h v .var
    have htext : (Expr.var v).renderWith symbols = symbol := by
      simp [renderWith, render, hsymbol]
    rw [htext]
    exact ⟨.inl hatom, .var hsymbol hatom⟩
  | noConjunct => exact ⟨.inl isAtom_true, .andNil⟩
  | noDisjunct => exact ⟨.inl isAtom_false, .orNil⟩
  | applied e word hword ih =>
    have hparts (a : Expr) (ha : a ∈ e.children) :
        IsForm (a.renderWith symbols).toList ∧ Reads symbols a (a.renderWith symbols).toList :=
      ih a ha fun v hv => h v (.inside ha hv)
    have htext : (e.renderWith symbols).toList =
        listForm (word.toList :: e.children.map fun a => (a.renderWith symbols).toList) :=
      toList_render hword _
    have hforms : ∀ f ∈ word.toList :: e.children.map fun a => (a.renderWith symbols).toList, IsForm f := by
      rw [List.forall_mem_cons, List.forall_mem_map]
      exact ⟨.inl (isAtom_of_operator? hword), fun a ha => (hparts a ha).1⟩
    rw [htext]
    refine ⟨isForm_listForm hforms, .applied hword (parts?_listForm hforms) ?_⟩
    rw [List.forall₂_map_right_iff, List.forall₂_same]
    exact fun a ha => (hparts a ha).2

end Expr

end SmtCount
