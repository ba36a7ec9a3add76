import Mathlib
import SmtCount.Proofs.CoreText
import SmtCount.Proofs.Words

/-!
# One reading for every text

The text of an expression says which expression it is, once a negative number is read as the negation of its
absolute value, and a conjunction or disjunction without parts as its value.  This needs that no variable is
named `true` or `false`: of all words with a meaning these two alone stand where a variable can stand.

Negative zero is not below zero.  It is written as a word of its own, which is no literal of SMT-LIB.

## Main definitions

* `Expr.normal e` — `e` with truth values for conjunctions and disjunctions without parts, and with negations
  for negative constants.
* `Expr.Written symbol e form` — the form is how the normal expression `e` is written.
* `Query.IsReadable f` — how the query about `f` can be read.
* `Query.Unambiguous f` — a query about `f` has no exceptions.

## Main results

* `Expr.written_normal` — a rendered expression is how its normal expression is written.
* `Expr.Written.unique` — **a form is the text of one normal expression**.
* `Query.atoms_are_readings` — what stands in a query, and how it can be read.
* `Query.not_unambiguous` — the exceptions.
-/

namespace SmtCount

/-! ### Normal expressions -/

/-- A constant whose absolute value is a constant is written as its negation, if it is below zero.  The least
integer stays: its absolute value is no integer of 64 bits. -/
def Constant.normal : Constant → Expr
  | .int value =>
    if value.toInt < 0 ∧ value ≠ Int64.minValue then .neg (.const (.int (.ofInt value.toInt.natAbs)))
    else .const (.int value)
  | .real value => if value.belowZero then .neg (.const (.real value.absolute)) else .const (.real value)
  | .bool value => .const (.bool value)

namespace Expr

mutual

/-- The expression with truth values for conjunctions and disjunctions without parts, and with negations of
absolute values for negative constants. -/
def normal : Expr → Expr
  | .const c => c.normal
  | .var v => .var v
  | .not a => .not (normal a)
  | .and parts => if parts.isEmpty then tt else .and (normalAll parts)
  | .or parts => if parts.isEmpty then ff else .or (normalAll parts)
  | .implies a b => .implies (normal a) (normal b)
  | .rel op a b => .rel op (normal a) (normal b)
  | .arith op a b => .arith op (normal a) (normal b)
  | .neg a => .neg (normal a)

/-- The normal expressions of some expressions. -/
def normalAll : List Expr → List Expr
  | [] => []
  | a :: as => normal a :: normalAll as

end

theorem normalAll_eq_map (es : List Expr) : normalAll es = es.map normal := by
  induction es with
  | nil => rfl
  | cons e es ih => rw [normalAll, ih, List.map_cons]

/-- An expression in parentheses keeps its operator. -/
theorem normal_of_operator? {e : Expr} {word : String} (h : e.operator? = some word) :
    e.normal.operator? = some word ∧ e.normal.children = e.children.map normal := by
  cases e with
  | const c => cases h
  | var v => cases h
  | and parts =>
    cases parts with
    | nil => cases h
    | cons a as => exact ⟨h, congrArg (normal a :: ·) (normalAll_eq_map as)⟩
  | or parts =>
    cases parts with
    | nil => cases h
    | cons a as => exact ⟨h, congrArg (normal a :: ·) (normalAll_eq_map as)⟩
  | not a => exact ⟨h, rfl⟩
  | neg a => exact ⟨h, rfl⟩
  | implies a b => exact ⟨h, rfl⟩
  | rel op a b => exact ⟨h, rfl⟩
  | arith op a b => exact ⟨h, rfl⟩

/-- The expression that an operator and some parts make, if they make one. -/
def build? (word : String) (parts : List Expr) : Option Expr :=
  if word = "and" then some (.and parts)
  else if word = "or" then some (.or parts)
  else
    match parts with
    | [a] => if word = "not" then some (.not a) else some (.neg a)
    | [a, b] =>
      if word = "=>" then some (.implies a b)
      else
        (([.eq, .ne, .lt, .le, .gt, .ge].find? fun op => RelOp.word op = word).map fun op => .rel op a b).or
          (([.add, .sub, .mul].find? fun op => ArithOp.word op = word).map fun op => .arith op a b)
    | _ => none

/-- An expression in parentheses is made of its operator and its parts. -/
theorem build?_of_operator? {e : Expr} {word : String} (h : e.operator? = some word) :
    build? word e.children = some e := by
  cases e with
  | const c => cases h
  | var v => cases h
  | and parts =>
    cases parts with
    | nil => cases h
    | cons a as => cases h; rfl
  | or parts =>
    cases parts with
    | nil => cases h
    | cons a as => cases h; rfl
  | not a => cases h; rfl
  | neg a => cases h; rfl
  | implies a b => cases h; rfl
  | rel op a b => cases h; cases op <;> rfl
  | arith op a b => cases h; cases op <;> rfl

/-- What the one atom of a normal expression without parentheses stands for. -/
def leaf? : Expr → Option Reading
  | .const (.bool value) => some (.truth value)
  | .const (.int value) => if value.toInt < 0 then none else some (.numeral value.toInt.natAbs)
  | .const (.real value) =>
    if value.belowZero then none
    else if value.isNegative && value.isZero then some .negativeZero
    else some (.decimal value.absolute)
  | .var v => some (.var v)
  | _ => none

theorem readings_of_leaf? {e : Expr} {r : Reading} (h : e.leaf? = some r) : e.readings = [r] := by
  unfold leaf? at h
  split at h
  · obtain rfl := Option.some.inj h
    rfl
  · split at h
    · cases h
    · rename_i hnonneg
      obtain rfl := Option.some.inj h
      rw [readings, Constant.readings, if_neg hnonneg]
  · split at h
    · cases h
    rename_i hnonneg
    split at h
    · rename_i hzero
      obtain rfl := Option.some.inj h
      rw [readings, Constant.readings, if_neg hnonneg, if_pos hzero]
    · rename_i hzero
      obtain rfl := Option.some.inj h
      rw [readings, Constant.readings, if_neg hnonneg, if_neg hzero]
  · obtain rfl := Option.some.inj h
    rfl
  · cases h

theorem isOperator_of_leaf? {e : Expr} {r : Reading} (h : e.leaf? = some r) : r.isOperator = false := by
  unfold leaf? at h
  split at h
  · obtain rfl := Option.some.inj h
    rfl
  · split at h
    · cases h
    · obtain rfl := Option.some.inj h
      rfl
  · split at h
    · cases h
    split at h
    · obtain rfl := Option.some.inj h
      rfl
    · obtain rfl := Option.some.inj h
      rfl
  · obtain rfl := Option.some.inj h
    rfl
  · cases h

/-- The expression whose one atom stands for something. -/
def ofLeaf : Reading → Expr
  | .var v => .var v
  | .truth value => .const (.bool value)
  | .numeral n => .const (.int (.ofInt n))
  | .decimal x => .const (.real x)
  | .negativeZero => .const (.real (.ofMagnitude true 0))
  | .operator _ => tt

/-- A word that is not below zero, not negative zero and finite has no sign. -/
theorem absolute_eq_self {x : Binary64} (hfinite : x.isFinite = true) (hbelow : ¬ x.belowZero = true)
    (hzero : ¬ (x.isNegative && x.isZero) = true) : x.absolute = x := by
  have hlt : x.magnitude < Binary64.infinityMagnitude := by simpa [Binary64.isFinite] using hfinite
  have hnan : x.isNaN = false := by
    simp [Binary64.isNaN, Nat.le_of_lt hlt]
  have hsign : x.isNegative = false := by
    rw [Binary64.belowZero, hnan] at hbelow
    cases hnegative : x.isNegative with
    | false => rfl
    | true =>
      rw [hnegative] at hbelow hzero
      cases hx : x.isZero <;> simp_all
  rw [Binary64.absolute, ← hsign, Binary64.ofMagnitude_magnitude]

/-- The atom says which expression it is. -/
theorem eq_ofLeaf {e : Expr} {r : Reading} (h : e.leaf? = some r) (hfinite : e.HasFiniteReals) :
    e = ofLeaf r := by
  unfold leaf? at h
  split at h
  · obtain rfl := Option.some.inj h
    rfl
  · split at h
    · cases h
    · rename_i n hnonneg
      obtain rfl := Option.some.inj h
      rw [ofLeaf, Int.natAbs_of_nonneg (Int.not_lt.mp hnonneg), Int64.ofInt_toInt]
  · rename_i x
    split at h
    · cases h
    rename_i hbelow
    split at h
    · rename_i hzero
      obtain rfl := Option.some.inj h
      obtain ⟨hnegative, hmagnitude⟩ := Bool.and_eq_true_iff.mp hzero
      have hmagnitude : x.magnitude = 0 := by simpa [Binary64.isZero] using hmagnitude
      rw [ofLeaf, ← hnegative, ← hmagnitude, Binary64.ofMagnitude_magnitude]
    · rename_i hzero
      obtain rfl := Option.some.inj h
      rw [ofLeaf, absolute_eq_self (hfinite x .const) hbelow hzero]
  · obtain rfl := Option.some.inj h
    rfl
  · cases h

/-! ### How normal expressions are written -/

/-- The text of the least integer, which is the negation of a number that is no integer of 64 bits. -/
def leastForm (symbol : Variable → String) : List Char :=
  listForm ["-".toList, ((Reading.numeral (2 ^ 63)).text symbol).toList]

/-- Is the form how the normal expression is written, with a symbol for each variable? -/
inductive Written (symbol : Variable → String) : Expr → List Char → Prop
  /-- One atom. -/
  | leaf {e : Expr} {r : Reading} : e.leaf? = some r → Written symbol e (r.text symbol).toList
  /-- The least integer. -/
  | least : Written symbol (.const (.int Int64.minValue)) (leastForm symbol)
  /-- An operator and the parts, in parentheses. -/
  | applied {e : Expr} {word : String} {form : List Char} {forms : List (List Char)} :
    e.operator? = some word → parts? form = some (word.toList :: forms) →
    List.Forall₂ (Written symbol) e.children forms → Written symbol e form

section Written

variable {symbol : Variable → String}

/-- The three ways in which a normal expression is written. -/
theorem Written.cases {e : Expr} {form : List Char} (h : Written symbol e form) :
    (∃ r, e.leaf? = some r ∧ form = (r.text symbol).toList) ∨
    (e = .const (.int Int64.minValue) ∧ form = leastForm symbol) ∨
    ∃ word forms, e.operator? = some word ∧ parts? form = some (word.toList :: forms) ∧
      List.Forall₂ (Written symbol) e.children forms := by
  cases h with
  | leaf hr => exact .inl ⟨_, hr, rfl⟩
  | least => exact .inr (.inl ⟨rfl, rfl⟩)
  | applied hword hparts hchildren => exact .inr (.inr ⟨_, _, hword, hparts, hchildren⟩)

theorem parts?_of_isAtom {a : List Char} (h : IsAtom a) : parts? a = none := by
  rw [parts?, inside?_of_isAtom h]
  rfl

/-- A number below zero is written as a negation. -/
theorem written_neg {a : Expr} {numeral : String} (hatom : IsAtom numeral.toList)
    (ha : Written symbol a numeral.toList) : Written symbol (.neg a) (Constant.negated numeral).toList := by
  have hforms : ∀ f ∈ [['-'], numeral.toList], IsForm f := by
    simp only [List.forall_mem_cons, List.not_mem_nil, false_implies, implies_true, and_true]
    exact ⟨.inl isAtom_minus, .inl hatom⟩
  have hword : (Expr.neg a).operator? = some "-" := rfl
  refine .applied hword ?_ (.cons ha .nil)
  rw [toList_negated, parts?_listForm hforms]
  rfl

theorem written_normal_int (n : Int64) : Written symbol (Constant.int n).normal (Constant.int n).text.toList := by
  have hatom : IsAtom (String.ofList (Nat.toDigits 10 n.toInt.natAbs)).toList := by
    rw [String.toList_ofList]
    exact isAtom_toDigits _
  change Written symbol _ (Constant.intText n).toList
  unfold Constant.intText Constant.normal
  dsimp only
  by_cases hneg : n.toInt < 0
  · rw [if_pos hneg]
    by_cases hleast : n = Int64.minValue
    · subst hleast
      rw [if_neg fun h => h.2 rfl, toList_negated]
      exact .least
    · have hrange : (Int64.ofInt n.toInt.natAbs).toInt = n.toInt.natAbs := by
        have hlow := n.le_toInt
        have hne : n.toInt ≠ -2 ^ 63 := fun h => hleast (Int64.toInt_inj.mp (h.trans Int64.toInt_minValue.symm))
        exact Int64.toInt_ofInt_of_le (by omega) (by omega)
      rw [if_pos ⟨hneg, hleast⟩]
      refine written_neg hatom (.leaf (r := .numeral n.toInt.natAbs) ?_)
      rw [leaf?, hrange, if_neg (Int.not_lt.mpr (Int.natCast_nonneg _)), Int.natAbs_natCast]
  · rw [if_neg hneg, if_neg fun h => hneg h.1]
    refine .leaf (r := .numeral n.toInt.natAbs) ?_
    rw [leaf?, if_neg hneg]

theorem written_normal_real (x : Binary64) :
    Written symbol (Constant.real x).normal (Constant.real x).text.toList := by
  have hatom : IsAtom (String.ofList x.magnitudeText).toList := by
    rw [String.toList_ofList]
    exact isAtom_magnitudeText x
  have habsolute : x.absolute.magnitudeText = x.magnitudeText :=
    Binary64.magnitudeText_congr x.magnitude_absolute
  change Written symbol _ (Constant.realText x).toList
  unfold Constant.realText Constant.normal
  dsimp only
  by_cases hbelow : x.belowZero = true
  · rw [if_pos hbelow, if_pos hbelow]
    refine written_neg hatom ?_
    rw [← habsolute]
    refine .leaf (r := .decimal x.absolute) ?_
    have htwice : x.absolute.absolute = x.absolute := by
      rw [Binary64.absolute, Binary64.magnitude_absolute, Binary64.absolute]
    rw [leaf?, Binary64.belowZero, Binary64.isNegative_absolute, htwice]
    rfl
  · rw [if_neg hbelow, if_neg hbelow]
    by_cases hzero : (x.isNegative && x.isZero) = true
    · rw [if_pos hzero, magnitudeText_of_isZero (Bool.and_eq_true_iff.mp hzero).2]
      refine .leaf (r := .negativeZero) ?_
      rw [leaf?, if_neg hbelow, if_pos hzero]
    · rw [if_neg hzero, ← habsolute]
      refine .leaf (r := .decimal x.absolute) ?_
      rw [leaf?, if_neg hbelow, if_neg hzero]

/-- **Constants are written as their normal expressions.** -/
theorem written_normal_const (c : Constant) : Written symbol c.normal c.text.toList := by
  cases c with
  | bool value => exact .leaf (r := .truth value) rfl
  | int n => exact written_normal_int n
  | real x => exact written_normal_real x

/-- **A rendered expression** is how its normal expression is written. -/
theorem written_normal (e : Expr) (h : ∀ v, Mentions v e → IsAtom (symbol v).toList) :
    Written symbol e.normal (e.render symbol).toList := by
  induction e using induction_operator with
  | const c => exact written_normal_const c
  | var v => exact .leaf (r := .var v) rfl
  | noConjunct => exact .leaf (r := .truth true) rfl
  | noDisjunct => exact .leaf (r := .truth false) rfl
  | applied e word hword ih =>
    obtain ⟨hoperator, hchildren⟩ := normal_of_operator? hword
    have hforms : ∀ f ∈ word.toList :: e.children.map fun a => (a.render symbol).toList, IsForm f := by
      rw [List.forall_mem_cons, List.forall_mem_map]
      exact ⟨.inl (isAtom_of_operator? hword), fun a ha => (a.atoms_render fun v hv => h v (.inside ha hv)).1⟩
    rw [toList_render hword]
    refine .applied hoperator (parts?_listForm hforms) ?_
    rw [hchildren, List.forall₂_map_left_iff, List.forall₂_map_right_iff, List.forall₂_same]
    exact fun a ha => ih a ha fun v hv => h v (.inside ha hv)

end Written

/-! ### A form is the text of one expression -/

theorem isOver_of_children {vs : List Variable} {e : Expr} {word : String} (hword : e.operator? = some word)
    (h : ∀ a ∈ e.children, a.IsOver vs) : e.IsOver vs := by
  constructor
  · intro v hv
    cases hv with
    | var => cases hword
    | inside ha hv => exact (h _ ha).mentions v hv
  · intro x hx
    cases hx with
    | const => cases hword
    | inside ha hx => exact (h _ ha).finite x hx

theorem isOver_var {vs : List Variable} {v : Variable} (h : v ∈ vs) : (Expr.var v).IsOver vs := by
  constructor
  · intro w hw
    rw [mentions_var_iff.mp hw]
    exact h
  · intro x hx
    cases hx with
    | inside ha _ => exact absurd ha List.not_mem_nil

theorem isOver_const {vs : List Variable} {c : Constant} (h : ∀ x, c = .real x → x.isFinite = true) :
    (Expr.const c).IsOver vs := by
  constructor
  · intro v hv
    cases hv with
    | inside ha _ => exact absurd ha List.not_mem_nil
  · intro x hx
    generalize hc : Constant.real x = d at hx
    cases hx with
    | const => exact h x hc.symm
    | inside ha _ => exact absurd ha List.not_mem_nil

/-- A normal expression is made of nothing but what the expression is made of. -/
theorem IsOver.normal {vs : List Variable} {e : Expr} (h : e.IsOver vs) : e.normal.IsOver vs := by
  have htruth (b : Bool) : (Expr.const (.bool b)).IsOver vs := isOver_const fun x hx => nomatch hx
  have hint (n : Int64) : (Expr.const (.int n)).IsOver vs := isOver_const fun x hx => nomatch hx
  have hneg {a : Expr} (ha : a.IsOver vs) : (Expr.neg a).IsOver vs := by
    have hword : (Expr.neg a).operator? = some "-" := rfl
    exact isOver_of_children hword fun b hb => List.mem_singleton.mp hb ▸ ha
  induction e using induction_operator with
  | const c =>
    cases c with
    | bool value => exact htruth value
    | int n =>
      rw [Expr.normal, Constant.normal]
      split
      · exact hneg (hint _)
      · exact hint n
    | real x =>
      have hx := h.finite x .const
      rw [Expr.normal, Constant.normal]
      split
      · refine hneg (isOver_const fun y hy => ?_)
        obtain rfl := Constant.real.inj hy
        simpa [Binary64.isFinite] using hx
      · exact isOver_const fun y hy => Constant.real.inj hy ▸ hx
  | var v => exact h
  | noConjunct => exact htruth true
  | noDisjunct => exact htruth false
  | applied e word hword ih =>
    obtain ⟨hoperator, hchildren⟩ := normal_of_operator? hword
    refine isOver_of_children hoperator fun b hb => ?_
    rw [hchildren] at hb
    obtain ⟨a, ha, rfl⟩ := List.mem_map.mp hb
    exact ih a ha (h.child ha)

/-- Two lists that belong to the same texts are equal, if what belongs to a text is unique. -/
theorem eq_of_forall₂ {α β : Type} {R : α → β → Prop} {as bs : List α} {texts : List β}
    (has : List.Forall₂ R as texts) (hbs : List.Forall₂ R bs texts)
    (h : ∀ a ∈ as, ∀ b ∈ bs, ∀ text, R a text → R b text → a = b) : as = bs := by
  induction has generalizing bs with
  | nil =>
    cases hbs
    rfl
  | cons ha _ ih =>
    cases hbs with
    | cons hb hrest =>
      rw [h _ List.mem_cons_self _ List.mem_cons_self _ ha hb]
      exact congrArg _ (ih hrest fun a ha b hb =>
        h a (List.mem_cons_of_mem _ ha) b (List.mem_cons_of_mem _ hb))

section Unique

variable {vs : List Variable} {symbol : Variable → String} (hsymbol : WellNamed vs symbol)

include hsymbol

/-- Expressions of one atom with one text are the same. -/
theorem eq_of_leaf? {e e' : Expr} (he : e.IsOver vs) (he' : e'.IsOver vs) {r r' : Reading}
    (h : e.leaf? = some r) (h' : e'.leaf? = some r') (htext : r.text symbol = r'.text symbol) : e = e' := by
  have hr := he.occurs r (readings_of_leaf? h ▸ List.mem_singleton_self r)
  have hr' := he'.occurs r' (readings_of_leaf? h' ▸ List.mem_singleton_self r')
  have hoperator : r.isOperator = r'.isOperator := by
    rw [isOperator_of_leaf? h, isOperator_of_leaf? h']
  obtain rfl := Reading.text_injective hsymbol hr hr' (.inl hoperator) htext
  rw [eq_ofLeaf h he.finite, eq_ofLeaf h' he'.finite]

/-- The least integer is no operator in front of the parts of an expression. -/
theorem not_applied_least {e : Expr} (he : e.IsOver vs) {word : String} {forms : List (List Char)}
    (hparts : parts? (leastForm symbol) = some (word.toList :: forms))
    (hchildren : List.Forall₂ (Written symbol) e.children forms) : False := by
  have hoccurs : (Reading.numeral (2 ^ 63)).Occurs vs := trivial
  have hdigits : IsAtom ((Reading.numeral (2 ^ 63)).text symbol).toList := Reading.isAtom_text hsymbol hoccurs
  rw [leastForm, parts?_listForm (by simpa using ⟨.inl isAtom_minus, .inl hdigits⟩)] at hparts
  obtain ⟨-, rfl⟩ := List.cons.inj (Option.some.inj hparts)
  obtain ⟨a, as, ha, has, heq⟩ := List.forall₂_cons_right_iff.mp hchildren
  have hover : a.IsOver vs := he.child (heq ▸ List.mem_cons_self)
  -- the one part would be an integer that is out of range
  rcases ha.cases with ⟨r, hr, htext⟩ | ⟨-, htext⟩ | ⟨_, _, -, hparts, -⟩
  · have hoccurs := hover.occurs r (readings_of_leaf? hr ▸ List.mem_singleton_self r)
    have hoperator := isOperator_of_leaf? hr
    have hleast : (Reading.numeral (2 ^ 63)).Occurs vs := trivial
    obtain rfl := Reading.text_injective hsymbol hoccurs hleast (.inl hoperator)
      (String.toList_inj.mp htext.symm)
    have hint := eq_ofLeaf hr hover.finite
    rw [hint] at hr
    exact absurd hr (by decide)
  · exact not_isAtom_parens _ (htext ▸ hdigits)
  · rw [parts?_of_isAtom hdigits] at hparts
    cases hparts

/-- **A form is the text of one normal expression.** -/
theorem Written.unique {e e' : Expr} (he : e.IsOver vs) (he' : e'.IsOver vs) {form : List Char}
    (h : Written symbol e form) (h' : Written symbol e' form) : e = e' := by
  have hatom {a : Expr} (ha : a.IsOver vs) {r : Reading} (hr : a.leaf? = some r) :
      IsAtom (r.text symbol).toList :=
    Reading.isAtom_text hsymbol (ha.occurs r (readings_of_leaf? hr ▸ List.mem_singleton_self r))
  induction e using induction_children generalizing e' form with
  | h e ih =>
    rcases h.cases with ⟨r, hr, rfl⟩ | ⟨rfl, rfl⟩ | ⟨word, forms, hword, hparts, hchildren⟩
    · rcases h'.cases with ⟨r', hr', htext⟩ | ⟨-, htext⟩ | ⟨_, _, -, hparts', -⟩
      · exact eq_of_leaf? hsymbol he he' hr hr' (String.toList_inj.mp htext)
      · exact absurd (htext ▸ hatom he hr) (not_isAtom_parens _)
      · rw [parts?_of_isAtom (hatom he hr)] at hparts'
        cases hparts'
    · rcases h'.cases with ⟨r', hr', htext⟩ | ⟨rfl, -⟩ | ⟨_, _, -, hparts', hchildren'⟩
      · exact absurd (htext ▸ hatom he' hr') (not_isAtom_parens _)
      · rfl
      · exact (not_applied_least hsymbol he' hparts' hchildren').elim
    · rcases h'.cases with ⟨r', hr', rfl⟩ | ⟨-, rfl⟩ | ⟨word', forms', hword', hparts', hchildren'⟩
      · rw [parts?_of_isAtom (hatom he' hr')] at hparts
        cases hparts
      · exact (not_applied_least hsymbol he hparts hchildren).elim
      · -- the same operator, and the same parts one by one
        obtain ⟨hwords, rfl⟩ := List.cons.inj (Option.some.inj (hparts.symm.trans hparts'))
        obtain rfl := String.toList_inj.mp hwords
        have hsame : e.children = e'.children := eq_of_forall₂ hchildren hchildren' fun a ha b hb f hf hf' =>
          ih a ha (he.child ha) (he'.child hb) hf hf'
        have hbuild := build?_of_operator? hword
        rw [hsame, build?_of_operator? hword'] at hbuild
        exact (Option.some.inj hbuild).symm

end Unique

end Expr

/-! ### Queries -/

/-- Is the constant below zero? -/
def Constant.isBelowZero : Constant → Bool
  | .bool _ => false
  | .int value => value.toInt < 0
  | .real value => value.belowZero

/-- A negative number is written as the negation of an unsigned literal. -/
theorem Constant.text_of_isBelowZero {c : Constant} (h : c.isBelowZero = true)
    (hfinite : ∀ x, c = .real x → x.isFinite = true) :
    ∃ literal, (IsNumeral literal.toList ∨ IsDecimal literal.toList) ∧ c.text = negated literal := by
  cases c with
  | bool value => cases h
  | int n =>
    refine ⟨String.ofList (Nat.toDigits 10 n.toInt.natAbs), .inl ?_, if_pos (of_decide_eq_true h)⟩
    rw [String.toList_ofList]
    exact isNumeral_toDigits _
  | real x =>
    refine ⟨String.ofList x.magnitudeText, .inr ?_, if_pos h⟩
    rw [String.toList_ofList]
    exact isDecimal_magnitudeText (hfinite x rfl)

namespace Query

variable {f : Expr}

/-- The symbol of a variable of a formula is that of a name. -/
theorem exists_symbol_eq {v : Variable} (hv : v ∈ f.freeVariables) :
    (naming f).symbols.get? v = some ((naming f).symbol v) ∧
      ∃ name, '|' ∉ name.toList ∧ (naming f).symbol v = Variable.quoteName name := by
  obtain ⟨symbol, hget, -, rfl⟩ := isAtom_symbol hv
  exact ⟨hget, Naming.exists_quoteName_eq f.pairwise_freeVariables hget⟩

/-- Variables are written well, unless one is named as a truth value. -/
theorem wellNamed_naming (h : ∀ v ∈ f.freeVariables, v.name ∉ truthWords) :
    WellNamed f.freeVariables (naming f).symbol where
  quoted v hv := (exists_symbol_eq hv).2
  injective v hv w hw heq := by
    have hv := (exists_symbol_eq hv).1
    rw [heq] at hv
    exact (Naming.distinct_ofVariables f.freeVariables).injective v w _ hv (exists_symbol_eq hw).1
  no_truth v hv hmem := by
    have hname := Naming.name_eq_of_mem_words f.pairwise_freeVariables (exists_symbol_eq hv).1
      (List.mem_append_right _ (List.mem_append_left _ hmem))
    exact h v hv (hname ▸ hmem)

/-- The conjuncts of a formula are expressions over its variables. -/
theorem isOver_of_mem_properConjuncts (hf : f.HasFiniteReals) {c : Expr} (hc : c ∈ f.properConjuncts) :
    c.IsOver f.freeVariables := by
  refine ⟨fun v hv => mem_freeVariables_of_mem_properConjuncts hc hv, ?_⟩
  have hand (parts : List Expr) : (Expr.and parts).HasFiniteReals ↔ ∀ p ∈ parts, p.HasFiniteReals := by
    constructor
    · exact fun h p hp x hx => h x (.inside hp hx)
    · intro h x hx
      cases hx with
      | inside hp hx => exact h _ hp x hx
  exact (Expr.forall_mem_conjuncts hand f).mpr hf c (Expr.mem_properConjuncts.mp hc).1

/-- The atoms of a clause are what the conjunct is made of. -/
theorem atoms_clause {c : Expr} (hc : c ∈ f.properConjuncts) :
    atoms (c.renderWith (ofFormula f).symbols).toList =
      c.readings.map fun r => (r.text (naming f).symbol).toList := by
  refine (c.atoms_render fun v hv => ?_).2
  obtain ⟨-, name, hbar, hname⟩ := exists_symbol_eq (mem_freeVariables_of_mem_properConjuncts hc hv)
  show IsAtom ((naming f).symbol v).toList
  rw [hname]
  exact Variable.isAtom_quoteName hbar

/-- How the query about a formula can be read. -/
structure IsReadable (f : Expr) : Prop where
  /-- The atoms of a clause are what the conjunct is made of, in order. -/
  atoms : ∀ c ∈ f.properConjuncts, atoms (c.renderWith (ofFormula f).symbols).toList =
    c.readings.map fun r => (r.text (naming f).symbol).toList
  /-- They are variables with their symbols, operators, truth values, unsigned literals and negative zero. -/
  occurs : ∀ c ∈ f.properConjuncts, ∀ r ∈ c.readings, r.Occurs f.freeVariables
  declared : ∀ v ∈ f.freeVariables, (ofFormula f).symbols.get? v = some ((naming f).symbol v)
  numeral : ∀ n, IsNumeral ((Reading.numeral n).text (naming f).symbol).toList
  decimal : ∀ x, x.isFinite = true → IsDecimal ((Reading.decimal x).text (naming f).symbol).toList
  /-- A number below zero is the negation of an unsigned literal. -/
  negative : ∀ c : Constant, c.isBelowZero = true → (∀ x, c = .real x → x.isFinite = true) →
    ∃ literal, (IsNumeral literal.toList ∨ IsDecimal literal.toList) ∧ c.text = Constant.negated literal
  /-- No symbol is a literal or negative zero, and one that is a word with a meaning is the name of its
  variable. -/
  symbols : ∀ v s, (ofFormula f).symbols.get? v = some s →
    ¬ IsNumeral s.toList ∧ ¬ IsDecimal s.toList ∧ s ≠ "-0.0" ∧
      (s ∈ operatorWords ++ (truthWords ++ reservedWords) → v.name = s)
  /-- If no variable is named by an operator or a truth value, then different atoms have different texts. -/
  unique : (∀ v ∈ f.freeVariables, v.name ∉ operatorWords ++ truthWords) →
    ∀ r r' : Reading, r.Occurs f.freeVariables → r'.Occurs f.freeVariables →
      r.text (naming f).symbol = r'.text (naming f).symbol → r = r'
  /-- If none is named by a truth value, then different normal expressions have different texts. -/
  texts : (∀ v ∈ f.freeVariables, v.name ∉ truthWords) →
    ∀ e e' : Expr, e.IsOver f.freeVariables → e'.IsOver f.freeVariables →
      e.renderWith (ofFormula f).symbols = e'.renderWith (ofFormula f).symbols → e.normal = e'.normal

/-- **What stands in a query, and how it can be read.**  All clauses of the query about a formula with finite
reals are made of the symbols of its variables, operators, truth values, unsigned literals and negative zero,
where the formula has them.  Apart from variables that are named by an operator or a truth value, an atom can
be read in one way, and so can an expression. -/
theorem atoms_are_readings (f : Expr) (hf : f.HasFiniteReals) : IsReadable f where
  atoms c hc := atoms_clause hc
  occurs c hc := (isOver_of_mem_properConjuncts hf hc).occurs
  declared v hv := (exists_symbol_eq hv).1
  numeral n := by
    rw [Reading.text, String.toList_ofList]
    exact isNumeral_toDigits n
  decimal x hx := by
    rw [Reading.text, String.toList_ofList]
    exact isDecimal_magnitudeText hx
  negative c hc hfinite := Constant.text_of_isBelowZero hc hfinite
  symbols v s hs := by
    obtain ⟨name, -, rfl⟩ := Naming.exists_quoteName_eq f.pairwise_freeVariables hs
    obtain ⟨hnumeral, hdecimal, hzero⟩ := not_literal_quoteName name
    exact ⟨hnumeral, hdecimal, hzero, Naming.name_eq_of_mem_words f.pairwise_freeVariables hs⟩
  unique hnames r r' hr hr' := by
    have htruth : ∀ v ∈ f.freeVariables, v.name ∉ truthWords :=
      fun v hv hmem => hnames v hv (List.mem_append_right _ hmem)
    refine Reading.text_injective (wellNamed_naming htruth) hr hr' (.inr fun v hv hmem => ?_)
    have hname := Naming.name_eq_of_mem_words f.pairwise_freeVariables (exists_symbol_eq hv).1
      (List.mem_append_left _ hmem)
    exact hnames v hv (List.mem_append_left _ (hname ▸ hmem))
  texts hnames e e' he he' htext := by
    have hsymbol := wellNamed_naming hnames
    have hwritten {a : Expr} (ha : a.IsOver f.freeVariables) :
        Expr.Written (naming f).symbol a.normal (a.renderWith (ofFormula f).symbols).toList := by
      refine a.written_normal fun v hv => ?_
      obtain ⟨name, hbar, hname⟩ := hsymbol.quoted v (ha.mentions v hv)
      exact hname ▸ Variable.isAtom_quoteName hbar
    exact Expr.Written.unique hsymbol he.normal he'.normal (hwritten he) (htext ▸ hwritten he')

/-! ### Exceptions -/

/-- Has the query about a formula no exceptions?  All its atoms are symbols, words or unsigned literals, no
symbol is a word with a meaning, and normal expressions over the variables have different texts. -/
structure Unambiguous (f : Expr) : Prop where
  atoms : ∀ c ∈ f.properConjuncts, ∀ a ∈ SmtCount.atoms (c.renderWith (ofFormula f).symbols).toList,
    (∃ v ∈ f.freeVariables, ((naming f).symbol v).toList = a) ∨
      (∃ word ∈ operatorWords ++ truthWords, word.toList = a) ∨ IsNumeral a ∨ IsDecimal a
  symbols : ∀ v ∈ f.freeVariables, (naming f).symbol v ∉ operatorWords ++ (truthWords ++ reservedWords)
  texts : ∀ e e' : Expr, e.IsOver f.freeVariables → e'.IsOver f.freeVariables →
    e.renderWith (ofFormula f).symbols = e'.renderWith (ofFormula f).symbols → e.normal = e'.normal

/-- A variable that is compared with a constant. -/
def comparison (op : RelOp) (v : Variable) (c : Constant) : Expr :=
  .rel op (.var v) (.const c)

section Comparison

variable {op : RelOp} {v : Variable} {c : Constant}

theorem mem_freeVariables_comparison : v ∈ (comparison op v c).freeVariables :=
  Expr.mem_freeVariables.mpr (.inside List.mem_cons_self .var)

theorem hasFiniteReals_comparison (h : ∀ x, c = .real x → x.isFinite = true) :
    (comparison op v c).HasFiniteReals := by
  have hword : (comparison op v c).operator? = some op.word := rfl
  suffices hover : (comparison op v c).IsOver [v] from hover.finite
  refine Expr.isOver_of_children hword fun a ha => ?_
  rcases List.mem_cons.mp ha with rfl | ha
  · exact Expr.isOver_var (List.mem_singleton_self v)
  · rw [List.mem_singleton.mp ha]
    exact Expr.isOver_const h

theorem comparison_mem_properConjuncts : comparison op v c ∈ (comparison op v c).properConjuncts := by
  rw [Expr.mem_properConjuncts, Expr.conjuncts_of_ne_and fun parts h => by cases h]
  exact ⟨List.mem_singleton_self _, rfl⟩

/-- An integer variable has its own symbol. -/
theorem symbol_comparison (hint : v.sort = .int) : (naming (comparison op v c)).symbol v = v.symbol := by
  have hkeeps : ¬ Naming.Clashes (comparison op v c).freeVariables v := by
    rintro ⟨hreal, -⟩
    rw [hint] at hreal
    cases hreal
  rw [Naming.symbol, naming, Naming.symbol_of_not_clashes (Expr.pairwise_freeVariables _)
    mem_freeVariables_comparison hkeeps, Option.getD_some]

end Comparison

/-- A real that is compared with negative zero. -/
def zeroFormula : Expr :=
  comparison .eq ⟨"y", .real, isName_y⟩ (.real (.ofMagnitude true 0))

/-- Its atoms are read in order. -/
theorem atoms_are_readings_of_zeroFormula : zeroFormula.HasFiniteReals ∧ IsReadable zeroFormula := by
  have hfinite : zeroFormula.HasFiniteReals := hasFiniteReals_comparison fun x hx => by
    obtain rfl := Constant.real.inj hx
    decide
  exact ⟨hfinite, atoms_are_readings zeroFormula hfinite⟩

/-- A variable that is named by a reserved word. -/
def letFormula : Expr :=
  comparison .lt ⟨"let", .int, by decide⟩ (.int 0)

/-- A variable that is named by a truth value. -/
def trueFormula : Expr :=
  comparison .lt ⟨"true", .int, by decide⟩ (.int 0)

/-- **The exceptions.**  Negative zero is an atom of its own; a variable is declared under a reserved word that is
its name; and a variable that is named by a truth value has the same text. -/
theorem not_unambiguous :
    (zeroFormula.HasFiniteReals ∧ ¬ Unambiguous zeroFormula) ∧
      (letFormula.HasFiniteReals ∧ ¬ Unambiguous letFormula) ∧
        trueFormula.HasFiniteReals ∧ ¬ Unambiguous trueFormula := by
  have hint {n : Int64} : ∀ x, Constant.int n = .real x → x.isFinite = true := fun x hx => nomatch hx
  have hfinite : zeroFormula.HasFiniteReals := hasFiniteReals_comparison fun x hx => by
    obtain rfl := Constant.real.inj hx
    decide
  refine ⟨⟨hfinite, fun h => ?_⟩, ⟨hasFiniteReals_comparison hint, fun h => ?_⟩,
    hasFiniteReals_comparison hint, fun h => ?_⟩
  · have hclause : zeroFormula ∈ zeroFormula.properConjuncts := comparison_mem_properConjuncts
    have hmem : "-0.0".toList ∈ SmtCount.atoms (zeroFormula.renderWith (ofFormula zeroFormula).symbols).toList := by
      rw [atoms_clause hclause]
      exact List.mem_map.mpr ⟨.negativeZero, List.mem_of_getElem? (i := 2) rfl, rfl⟩
    rcases h.atoms _ hclause _ hmem with ⟨v, hv, hsymbol⟩ | hword | hnumeral | hdecimal
    · obtain ⟨-, name, -, hname⟩ := exists_symbol_eq hv
      rw [hname] at hsymbol
      exact (not_literal_quoteName name).2.2 (String.toList_inj.mp hsymbol)
    · exact absurd hword (by decide +kernel)
    · exact absurd (hnumeral.2 '-' (by decide)) (by decide)
    · obtain ⟨whole, places, hwhole, -, htext⟩ := hdecimal
      obtain ⟨c, cs, rfl⟩ := List.exists_cons_of_ne_nil hwhole.1
      obtain ⟨rfl, -⟩ := List.cons.inj (htext : '-' :: _ = c :: _)
      exact absurd (hwhole.2 '-' List.mem_cons_self) (by decide)
  · refine h.symbols ⟨"let", .int, by decide⟩ mem_freeVariables_comparison ?_
    rw [letFormula, symbol_comparison rfl]
    decide +kernel
  · have hover : ∀ b, (Expr.const (.bool b)).IsOver trueFormula.freeVariables :=
      fun b => Expr.isOver_const fun x hx => nomatch hx
    have hsame : (Expr.var ⟨"true", .int, by decide⟩).renderWith (ofFormula trueFormula).symbols =
        Expr.tt.renderWith (ofFormula trueFormula).symbols := by
      have hsymbol : (naming trueFormula).symbol ⟨"true", .int, by decide⟩ =
          Variable.symbol ⟨"true", .int, by decide⟩ := symbol_comparison rfl
      exact hsymbol.trans (by decide +kernel)
    exact absurd (h.texts _ _ (Expr.isOver_var mem_freeVariables_comparison) (hover true) hsame)
      (by intro hnormal; cases hnormal)

end Query

end SmtCount
