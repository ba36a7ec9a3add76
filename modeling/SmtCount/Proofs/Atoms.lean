import Mathlib
import SmtCount.Proofs.Rendering

/-!
# The atoms of a rendered expression

The text of an expression is made of atoms and parentheses.  From left to right the atoms are what the
expression is made of: the symbol of a variable, the word of an operator, a truth value, or the digits of
the absolute value of a number.  Nothing else is an atom of it, apart from the text of negative zero, which is
not below zero and is written with its sign.

## Main definitions

* `atoms form` — the atoms in a form, however deep they stand in parentheses.
* `Reading` — what an atom stands for, and `Reading.text` — its text.
* `Expr.readings e` — what the atoms of `e` stand for.
* `IsNumeral a`, `IsDecimal a` — the unsigned literals of SMT-LIB.

## Main results

* `Expr.atoms_render` — **the atoms of a rendered expression** are the texts of its readings.
* `isDecimal_magnitudeText` — the absolute value of a finite real is a decimal literal.
-/

namespace SmtCount

/-! ### The atoms of a form -/

/-- The atoms in a form, from left to right, however deep they stand in parentheses. -/
def atoms (form : List Char) : List (List Char) :=
  match _ : inside? form with
  | none => [form]
  | some body =>
    match _ : splitForms body with
    | .error _ => [form]
    | .ok forms => forms.attach.flatMap fun f => atoms f.1
termination_by form.length
decreasing_by
  exact Nat.lt_of_le_of_lt (length_le_of_mem_splitForms ‹_› f.1 f.2) (length_inside?_lt ‹_›)

theorem atoms_of_isAtom {a : List Char} (h : IsAtom a) : atoms a = [a] := by
  have hinside := inside?_of_isAtom h
  rw [atoms]
  split
  · rfl
  · rename_i hbody
    rw [hinside] at hbody
    cases hbody

/-- The atoms of forms in parentheses are those of the forms. -/
theorem atoms_listForm {forms : List (List Char)} (h : ∀ f ∈ forms, IsForm f) :
    atoms (listForm forms) = forms.flatMap atoms := by
  have hinside : inside? (listForm forms) = some (phrase forms) := inside?_parens _
  have hforms : splitForms (phrase forms) = .ok forms := splitForms_of_laidOut (laidOut_phrase h)
  rw [atoms]
  split
  · rename_i hnone
    rw [hinside] at hnone
    cases hnone
  · rename_i body hbody
    obtain rfl := Option.some.inj (hinside.symm.trans hbody)
    split
    · rename_i herror
      rw [hforms] at herror
      cases herror
    · rename_i forms' hforms'
      obtain rfl := Except.ok.inj (hforms.symm.trans hforms')
      rw [List.flatMap_def, List.attach_map_val, ← List.flatMap_def]

/-! ### Literals -/

/-- Is the text a numeral: digits, and at least one? -/
def IsNumeral (a : List Char) : Prop :=
  a ≠ [] ∧ ∀ c ∈ a, c.isDigit = true

/-- Is the text a decimal: digits, a point and digits? -/
def IsDecimal (a : List Char) : Prop :=
  ∃ whole places, IsNumeral whole ∧ IsNumeral places ∧ a = whole ++ '.' :: places

theorem isNumeral_toDigits (n : Nat) : IsNumeral (Nat.toDigits 10 n) :=
  ⟨Nat.toDigits_ne_nil, fun _ hc => Decimal.isDigit_of_mem_toDigits hc⟩

theorem isDecimal_positional (coefficient : Nat) {places : Nat} (h : 0 < places) :
    IsDecimal (Decimal.positional coefficient places) := by
  have hlength := (Decimal.padded_spec (Nat.mod_lt coefficient (Nat.pow_pos (n := places) (by decide)))).1
  refine ⟨_, _, isNumeral_toDigits _, ⟨?_, fun _ hc => Decimal.isDigit_of_mem_padded hc⟩, rfl⟩
  exact List.ne_nil_of_length_pos (Nat.lt_of_lt_of_eq h hlength.symm)

/-- The search for the shortest decimal number begins with one place. -/
theorem exists_exponent_searchFrom (m fuel : Nat) {places : Nat} (h : 0 < places) :
    ∃ k : Nat, 0 < k ∧ (Decimal.searchFrom m fuel places).exponent = -k := by
  induction fuel generalizing places with
  | zero => exact ⟨1074, by decide, rfl⟩
  | succ fuel ih =>
    rw [Decimal.searchFrom]
    cases hcandidate : Decimal.candidate? m places with
    | none => exact ih (Nat.succ_pos places)
    | some d => exact ⟨places, h, (Decimal.candidate?_spec hcandidate).2⟩

/-- **The absolute value of a finite real is a decimal literal.** -/
theorem isDecimal_magnitudeText {x : Binary64} (h : x.isFinite = true) : IsDecimal x.magnitudeText := by
  have hlt : x.magnitude < Binary64.infinityMagnitude := by simpa [Binary64.isFinite] using h
  have hnan : x.isNaN = false := by
    simp [Binary64.isNaN, Nat.le_of_lt hlt]
  have hinfinite : x.isInfinite = false := by
    simpa [Binary64.isInfinite] using Nat.ne_of_lt hlt
  unfold Binary64.magnitudeText
  rw [hnan, hinfinite, if_neg Bool.false_ne_true, if_neg Bool.false_ne_true]
  split
  · exact isDecimal_positional _ Nat.one_pos
  · obtain ⟨k, hk, hexponent⟩ := exists_exponent_searchFrom x.magnitude 1073 Nat.one_pos
    rw [← Decimal.shortest] at hexponent
    refine isDecimal_positional _ ?_
    rw [hexponent, Int.natAbs_neg, Int.natAbs_natCast]
    exact hk

/-! ### What atoms stand for -/

namespace Binary64

/-- The word without its sign. -/
def absolute (x : Binary64) : Binary64 :=
  ofMagnitude false x.magnitude

@[simp] theorem magnitude_absolute (x : Binary64) : x.absolute.magnitude = x.magnitude :=
  magnitude_ofMagnitude x.magnitude_lt

@[simp] theorem isNegative_absolute (x : Binary64) : x.absolute.isNegative = false :=
  isNegative_ofMagnitude x.magnitude_lt

/-- The text of the absolute value depends on the magnitude only. -/
theorem magnitudeText_congr {x y : Binary64} (h : x.magnitude = y.magnitude) :
    x.magnitudeText = y.magnitudeText := by
  simp [magnitudeText, isNaN, isInfinite, isWhole, isFinite, units, h]

end Binary64

/-- What an atom of a rendered expression stands for. -/
inductive Reading
  /-- A variable. -/
  | var (v : Variable)
  /-- An operator. -/
  | operator (word : String)
  /-- A truth value. -/
  | truth (value : Bool)
  /-- The absolute value of an integer. -/
  | numeral (n : Nat)
  /-- The absolute value of a real. -/
  | decimal (x : Binary64)
  /-- Negative zero. -/
  | negativeZero
  deriving DecidableEq

/-- The text of an atom, with a symbol for each variable. -/
def Reading.text (symbol : Variable → String) : Reading → String
  | .var v => symbol v
  | .operator word => word
  | .truth value => Constant.text (.bool value)
  | .numeral n => String.ofList (Nat.toDigits 10 n)
  | .decimal x => String.ofList x.magnitudeText
  | .negativeZero => "-0.0"

/-- What the atoms of a constant stand for: a value below zero is the negation of its absolute value. -/
def Constant.readings : Constant → List Reading
  | .bool value => [.truth value]
  | .int value =>
    if value.toInt < 0 then [.operator "-", .numeral value.toInt.natAbs] else [.numeral value.toInt.natAbs]
  | .real value =>
    if value.belowZero then [.operator "-", .decimal value.absolute]
    else if value.isNegative && value.isZero then [.negativeZero]
    else [.decimal value.absolute]

namespace Expr

mutual

/-- What the atoms of an expression stand for, from left to right.  A conjunction or disjunction without parts
is its value. -/
def readings : Expr → List Reading
  | .const c => c.readings
  | .var v => [.var v]
  | .not a => .operator "not" :: readings a
  | .and parts => if parts.isEmpty then [.truth true] else .operator "and" :: readingsAll parts
  | .or parts => if parts.isEmpty then [.truth false] else .operator "or" :: readingsAll parts
  | .implies a b => .operator "=>" :: (readings a ++ readings b)
  | .rel op a b => .operator op.word :: (readings a ++ readings b)
  | .arith op a b => .operator op.word :: (readings a ++ readings b)
  | .neg a => .operator "-" :: readings a

/-- What the atoms of some expressions stand for. -/
def readingsAll : List Expr → List Reading
  | [] => []
  | a :: as => readings a ++ readingsAll as

end

theorem readingsAll_eq_flatMap (es : List Expr) : readingsAll es = es.flatMap readings := by
  induction es with
  | nil => rfl
  | cons e es ih => rw [readingsAll, ih, List.flatMap_cons]

/-- An expression in parentheses is its operator, and then its parts. -/
theorem readings_of_operator? {e : Expr} {word : String} (h : e.operator? = some word) :
    e.readings = .operator word :: e.children.flatMap readings := by
  cases e with
  | const c => cases h
  | var v => cases h
  | and parts =>
    cases parts with
    | nil => cases h
    | cons a as => cases h; rw [readings, readingsAll_eq_flatMap]; rfl
  | or parts =>
    cases parts with
    | nil => cases h
    | cons a as => cases h; rw [readings, readingsAll_eq_flatMap]; rfl
  | not a => cases h; simp [readings, children]
  | neg a => cases h; simp [readings, children]
  | implies a b => cases h; simp [readings, children]
  | rel op a b => cases h; simp [readings, children]
  | arith op a b => cases h; simp [readings, children]

end Expr

/-! ### The atoms of texts -/

theorem magnitudeText_of_isZero {x : Binary64} (h : x.isZero = true) : x.magnitudeText = "0.0".toList := by
  have hzero : x.magnitude = (Binary64.ofMagnitude false 0).magnitude := by
    rw [Binary64.magnitude_ofMagnitude (by decide)]
    simpa [Binary64.isZero] using h
  rw [Binary64.magnitudeText_congr hzero]
  decide +kernel

theorem atoms_negated {numeral : String} (h : IsAtom numeral.toList) :
    atoms (Constant.negated numeral).toList = ["-".toList, numeral.toList] := by
  have hforms : ∀ f ∈ [['-'], numeral.toList], IsForm f := by
    simp only [List.forall_mem_cons, List.not_mem_nil, false_implies, implies_true, and_true]
    exact ⟨.inl isAtom_minus, .inl h⟩
  rw [toList_negated, atoms_listForm hforms, List.flatMap_cons, List.flatMap_cons, List.flatMap_nil,
    atoms_of_isAtom isAtom_minus, atoms_of_isAtom h]
  rfl

/-- The atoms of a constant. -/
theorem atoms_text (symbol : Variable → String) (c : Constant) :
    atoms c.text.toList = c.readings.map fun r => (r.text symbol).toList := by
  cases c with
  | bool b =>
    cases b
    · exact atoms_of_isAtom isAtom_false
    · exact atoms_of_isAtom isAtom_true
  | int n =>
    have hatom : IsAtom (String.ofList (Nat.toDigits 10 n.toInt.natAbs)).toList := by
      rw [String.toList_ofList]
      exact isAtom_toDigits _
    change atoms (Constant.intText n).toList = _
    unfold Constant.intText Constant.readings
    dsimp only
    split
    · exact atoms_negated hatom
    · exact atoms_of_isAtom hatom
  | real x =>
    have hatom : IsAtom (String.ofList x.magnitudeText).toList := by
      rw [String.toList_ofList]
      exact isAtom_magnitudeText x
    have habsolute : x.absolute.magnitudeText = x.magnitudeText :=
      Binary64.magnitudeText_congr x.magnitude_absolute
    change atoms (Constant.realText x).toList = _
    unfold Constant.realText Constant.readings
    dsimp only
    split
    · rw [atoms_negated hatom, ← habsolute]
      rfl
    split
    · rename_i hzero
      rw [magnitudeText_of_isZero (Bool.and_eq_true_iff.mp hzero).2]
      exact atoms_of_isAtom (isAtom_of_all_isPlainChar (by decide) (by decide))
    · rw [atoms_of_isAtom hatom, ← habsolute]
      rfl

/-- **The atoms of a rendered expression** are the texts of its readings, in order, when the symbols of its
variables are atoms. -/
theorem Expr.atoms_render {symbol : Variable → String} (e : Expr)
    (h : ∀ v, Mentions v e → IsAtom (symbol v).toList) :
    IsForm (e.render symbol).toList ∧
      atoms (e.render symbol).toList = e.readings.map fun r => (r.text symbol).toList := by
  induction e using induction_operator with
  | const c => exact ⟨isForm_text c, atoms_text symbol c⟩
  | var v => exact ⟨.inl (h v .var), atoms_of_isAtom (h v .var)⟩
  | noConjunct => exact ⟨.inl isAtom_true, atoms_of_isAtom isAtom_true⟩
  | noDisjunct => exact ⟨.inl isAtom_false, atoms_of_isAtom isAtom_false⟩
  | applied e word hword ih =>
    have hparts (a : Expr) (ha : a ∈ e.children) := ih a ha fun v hv => h v (.inside ha hv)
    have hatom := isAtom_of_operator? hword
    have hforms : ∀ f ∈ word.toList :: e.children.map fun a => (a.render symbol).toList, IsForm f := by
      rw [List.forall_mem_cons, List.forall_mem_map]
      exact ⟨.inl hatom, fun a ha => (hparts a ha).1⟩
    rw [toList_render hword]
    refine ⟨isForm_listForm hforms, ?_⟩
    rw [atoms_listForm hforms, List.flatMap_cons, atoms_of_isAtom hatom, readings_of_operator? hword,
      List.map_cons, List.map_flatMap, List.flatMap_map, List.singleton_append]
    exact congrArg (word.toList :: ·) (List.flatMap_congr fun a ha => (hparts a ha).2)

end SmtCount
