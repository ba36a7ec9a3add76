import Mathlib
import SmtCount.Proofs.Atoms
import SmtCount.Proofs.Symbols

/-!
# Atoms and words with a meaning

A variable may be named by a word that has a meaning already: an operator, a truth value, or a word that SMT-LIB
reserves.  Such a name is made of plain characters mostly, so it is declared as it is.  Apart from that no symbol
of a query is a word with a meaning, and no symbol is a literal, so that an atom of a query can be read in one way.

## Main definitions

* `operatorWords`, `truthWords`, `reservedWords` — the words that have a meaning.
* `Expr.IsOver vs e` — `e` is an expression over the variables `vs`, with finite reals.
* `Reading.Occurs vs` — what an atom can stand for in such an expression.
* `AtomKind.of a` — the kind of a text, which shows what it can stand for.
* `WellNamed vs symbol` — no variable is named by a truth value.

## Main results

* `Naming.name_eq_of_mem_words` — a symbol that is a word with a meaning is the name of its variable.
* `Expr.IsOver.occurs` — what the atoms of an expression stand for can occur.
* `Reading.kind_of_text` — the kind of an atom shows in its text.
* `Reading.text_injective` — **different atoms have different texts**.
-/

namespace SmtCount

/-! ### Words with a meaning -/

/-- The words of the operators. -/
def operatorWords : List String :=
  ["not", "and", "or", "=>", "=", "distinct", "<", "<=", ">", ">=", "+", "-", "*"]

/-- The words of the truth values. -/
def truthWords : List String :=
  ["true", "false"]

/-- The reserved words of SMT-LIB, with the names of its commands. -/
def reservedWords : List String :=
  ["!", "_", "as", "BINARY", "DECIMAL", "exists", "HEXADECIMAL", "forall", "let", "match", "NUMERAL", "par",
    "STRING", "assert", "check-sat", "check-sat-assuming", "declare-const", "declare-datatype",
    "declare-datatypes", "declare-fun", "declare-sort", "define-fun", "define-fun-rec", "define-funs-rec",
    "define-sort", "echo", "exit", "get-assertions", "get-assignment", "get-info", "get-model", "get-option",
    "get-proof", "get-unsat-assumptions", "get-unsat-core", "get-value", "pop", "push", "reset",
    "reset-assertions", "set-info", "set-logic", "set-option"]

theorem mem_operatorWords_of_operator? {e : Expr} {word : String} (h : e.operator? = some word) :
    word ∈ operatorWords := by
  cases e with
  | const c => cases h
  | var v => cases h
  | and parts =>
    cases parts with
    | nil => cases h
    | cons a as => cases h; decide
  | or parts =>
    cases parts with
    | nil => cases h
    | cons a as => cases h; decide
  | not a => cases h; decide
  | neg a => cases h; decide
  | implies a b => cases h; decide
  | rel op a b => cases h; cases op <;> decide
  | arith op a b => cases h; cases op <;> decide

/-- The symbol of a name begins with no digit and with no sign. -/
theorem Variable.head_quoteName {name : String} {c : Char} {cs : List Char}
    (h : (quoteName name).toList = c :: cs) : c.isDigit = false ∧ c ≠ '-' := by
  unfold quoteName at h
  split at h
  · rename_i hplain
    rw [h] at hplain
    have hbegins := (Bool.and_eq_true_iff.mp hplain).1
    constructor
    · simp only [beginsPlain, Char.isAlpha, Char.isUpper, Char.isLower, Bool.or_eq_true, Bool.and_eq_true,
        decide_eq_true_eq, beq_iff_eq, ge_iff_le, UInt32.le_iff_toNat_le] at hbegins
      simp only [Char.isDigit, Bool.and_eq_false_iff, decide_eq_false_iff_not, ge_iff_le,
        UInt32.le_iff_toNat_le]
      rcases hbegins with (((hbegins | hbegins) | rfl) | rfl) | rfl
      · exact .inr fun hle => absurd (Nat.le_trans hbegins.1 hle) (by decide)
      · exact .inr fun hle => absurd (Nat.le_trans hbegins.1 hle) (by decide)
      all_goals decide
    · rintro rfl
      exact absurd hbegins (by decide)
  · have htext : ("|" ++ name ++ "|").toList = '|' :: (name.toList ++ ['|']) := by simp
    rw [htext] at h
    obtain ⟨rfl, -⟩ := List.cons.inj h
    decide

namespace Naming

/-- **A symbol that is a word with a meaning** is the name of its variable. -/
theorem name_eq_of_mem_words {vs : List Variable} (hvs : Sorted vs) {v : Variable} {s : String}
    (hs : (ofVariables vs).symbols.get? v = some s)
    (hmem : s ∈ operatorWords ++ (truthWords ++ reservedWords)) : v.name = s := by
  have hbar : ∀ w ∈ operatorWords ++ (truthWords ++ reservedWords), w.toList.head? ≠ some '|' := by
    decide +kernel
  have hmark : ∀ w ∈ operatorWords ++ (truthWords ++ reservedWords), '!' ∈ w.toList → w.toList.length = 1 := by
    decide +kernel
  have hquoted (name : String) : ("|" ++ name ++ "|").toList.head? = some '|' := by simp
  have hv : v ∈ vs := (isSome_get?_ofVariables vs v).mp (by rw [hs]; rfl)
  by_cases hclashes : Clashes vs v
  · -- a numbered name has a mark behind its first character, which no word has
    obtain ⟨k, hk, -⟩ := symbol_of_clashes hvs hv hclashes
    obtain rfl := Option.some.inj (hs.symm.trans hk)
    unfold numbered Variable.quoteName at hmem
    split at hmem
    · have hlength := hmark _ hmem (by simp)
      have hne : v.name.length ≠ 0 := by
        intro h0
        exact v.isName.1 (String.length_eq_zero_iff.mp h0)
      simp only [String.toList_append, List.length_append, String.length_toList] at hlength
      have hone : "!".length = 1 := rfl
      omega
    · exact absurd (hquoted _) (hbar _ hmem)
  · rw [symbol_of_not_clashes hvs hv hclashes] at hs
    obtain rfl := Option.some.inj hs
    unfold Variable.symbol Variable.quoteName at hmem ⊢
    split
    · rfl
    · rename_i hplain
      rw [if_neg hplain] at hmem
      exact absurd (hquoted _) (hbar _ hmem)

end Naming

/-- The symbol of a name is no literal. -/
theorem not_literal_quoteName (name : String) :
    ¬ IsNumeral (Variable.quoteName name).toList ∧ ¬ IsDecimal (Variable.quoteName name).toList ∧
      Variable.quoteName name ≠ "-0.0" := by
  refine ⟨fun h => ?_, fun h => ?_, fun h => ?_⟩
  · obtain ⟨c, cs, htext⟩ := List.exists_cons_of_ne_nil h.1
    have hdigit : c.isDigit = true := h.2 c (htext ▸ List.mem_cons_self)
    rw [(Variable.head_quoteName htext).1] at hdigit
    cases hdigit
  · obtain ⟨whole, places, hwhole, -, htext⟩ := h
    obtain ⟨c, cs, rfl⟩ := List.exists_cons_of_ne_nil hwhole.1
    have hdigit : c.isDigit = true := hwhole.2 c List.mem_cons_self
    rw [(Variable.head_quoteName htext).1] at hdigit
    cases hdigit
  · have htext : (Variable.quoteName name).toList = '-' :: ['0', '.', '0'] := by
      rw [h]
      rfl
    exact (Variable.head_quoteName htext).2 rfl

/-! ### What can occur -/

namespace Expr

/-- Does the constant occur in the expression? -/
inductive HasConstant (c : Constant) : Expr → Prop
  /-- A constant occurs in itself. -/
  | const : HasConstant c (.const c)
  /-- What occurs in an expression right below occurs in the expression. -/
  | inside {e a : Expr} : a ∈ e.children → HasConstant c a → HasConstant c e

/-- Are all reals in the expression finite? -/
def HasFiniteReals (e : Expr) : Prop :=
  ∀ x, HasConstant (.real x) e → x.isFinite = true

/-- Is this an expression over some variables, with finite reals? -/
structure IsOver (vs : List Variable) (e : Expr) : Prop where
  mentions : ∀ v, Mentions v e → v ∈ vs
  finite : e.HasFiniteReals

theorem IsOver.child {vs : List Variable} {e a : Expr} (h : e.IsOver vs) (ha : a ∈ e.children) : a.IsOver vs :=
  ⟨fun v hv => h.mentions v (.inside ha hv), fun x hx => h.finite x (.inside ha hx)⟩

end Expr

namespace Reading

/-- Can an atom stand for this in an expression over the variables `vs`? -/
def Occurs (vs : List Variable) : Reading → Prop
  | .var v => v ∈ vs
  | .operator word => word ∈ operatorWords
  | .decimal x => x.isFinite = true ∧ x.isNegative = false
  | .truth _ | .numeral _ | .negativeZero => True

/-- Is this an operator? -/
def isOperator : Reading → Bool
  | .operator _ => true
  | _ => false

end Reading

/-- The absolute value of a finite real is one that can occur. -/
theorem occurs_decimal_absolute (vs : List Variable) {x : Binary64} (h : x.isFinite = true) :
    (Reading.decimal x.absolute).Occurs vs :=
  ⟨by simpa [Binary64.isFinite] using h, x.isNegative_absolute⟩

theorem occurs_of_mem_readings_const {vs : List Variable} {c : Constant} (h : (Expr.const c).IsOver vs) :
    ∀ r ∈ (Expr.const c).readings, r.Occurs vs := by
  have hminus : "-" ∈ operatorWords := by decide
  intro r hr
  cases c with
  | bool b =>
    obtain rfl := List.mem_singleton.mp hr
    trivial
  | int n =>
    rw [Expr.readings, Constant.readings] at hr
    split at hr
    · rcases List.mem_cons.mp hr with rfl | hr
      · exact hminus
      · obtain rfl := List.mem_singleton.mp hr
        trivial
    · obtain rfl := List.mem_singleton.mp hr
      trivial
  | real x =>
    have habsolute := occurs_decimal_absolute vs (h.finite x .const)
    rw [Expr.readings, Constant.readings] at hr
    split at hr
    · rcases List.mem_cons.mp hr with rfl | hr
      · exact hminus
      · exact List.mem_singleton.mp hr ▸ habsolute
    split at hr
    · obtain rfl := List.mem_singleton.mp hr
      trivial
    · exact List.mem_singleton.mp hr ▸ habsolute

/-- **What the atoms of an expression stand for** can occur. -/
theorem Expr.IsOver.occurs {vs : List Variable} {e : Expr} (h : e.IsOver vs) :
    ∀ r ∈ e.readings, r.Occurs vs := by
  induction e using induction_operator with
  | const c => exact occurs_of_mem_readings_const h
  | var v =>
    intro r hr
    obtain rfl := List.mem_singleton.mp hr
    exact h.mentions v .var
  | noConjunct =>
    intro r hr
    obtain rfl := List.mem_singleton.mp hr
    trivial
  | noDisjunct =>
    intro r hr
    obtain rfl := List.mem_singleton.mp hr
    trivial
  | applied e word hword ih =>
    rw [readings_of_operator? hword]
    intro r hr
    rcases List.mem_cons.mp hr with rfl | hr
    · exact mem_operatorWords_of_operator? hword
    · obtain ⟨a, ha, hr⟩ := List.mem_flatMap.mp hr
      exact ih a ha (h.child ha) r hr

/-! ### Different atoms have different texts -/

/-- The kinds of texts that atoms have. -/
inductive AtomKind
  | word
  | truth
  | numeral
  | decimal
  | negativeZero
  deriving DecidableEq

/-- The kind of a text, by its first character mostly. -/
def AtomKind.of (a : String) : AtomKind :=
  if (a.toList.head?.map Char.isDigit) = some true then (if '.' ∈ a.toList then .decimal else .numeral)
  else if a = "-0.0" then .negativeZero
  else if a ∈ truthWords then .truth
  else .word

/-- The kind of the text of an atom, by what it stands for. -/
def Reading.kind : Reading → AtomKind
  | .var _ | .operator _ => .word
  | .truth _ => .truth
  | .numeral _ => .numeral
  | .decimal _ => .decimal
  | .negativeZero => .negativeZero

theorem not_point_mem_of_isNumeral {a : List Char} (h : IsNumeral a) : '.' ∉ a :=
  fun hmem => absurd (h.2 '.' hmem) (by decide)

theorem kind_of_isNumeral {a : String} (h : IsNumeral a.toList) : AtomKind.of a = .numeral := by
  obtain ⟨c, cs, htext⟩ := List.exists_cons_of_ne_nil h.1
  have hc : c.isDigit = true := h.2 c (htext ▸ List.mem_cons_self)
  rw [AtomKind.of, if_neg (not_point_mem_of_isNumeral h), htext, List.head?_cons, Option.map_some, hc,
    if_pos rfl]

theorem kind_of_isDecimal {a : String} (h : IsDecimal a.toList) : AtomKind.of a = .decimal := by
  obtain ⟨whole, places, hwhole, -, htext⟩ := h
  obtain ⟨c, cs, rfl⟩ := List.exists_cons_of_ne_nil hwhole.1
  have hc : c.isDigit = true := hwhole.2 c List.mem_cons_self
  have hpoint : '.' ∈ a.toList := htext ▸ List.mem_append_right _ List.mem_cons_self
  rw [AtomKind.of, if_pos hpoint, htext, List.cons_append, List.head?_cons, Option.map_some, hc, if_pos rfl]

/-- A symbol that is no truth value is a word. -/
theorem kind_of_quoteName {name : String} (h : Variable.quoteName name ∉ truthWords) :
    AtomKind.of (Variable.quoteName name) = .word := by
  have hdigit : (Variable.quoteName name).toList.head?.map Char.isDigit ≠ some true := by
    intro hhead
    obtain ⟨c, hc, hdigit⟩ := Option.map_eq_some_iff.mp hhead
    obtain ⟨cs, htext⟩ := List.head?_eq_some_iff.mp hc
    rw [(Variable.head_quoteName htext).1] at hdigit
    cases hdigit
  rw [AtomKind.of, if_neg hdigit, if_neg (not_literal_quoteName name).2.2, if_neg h]

/-- How variables are written: each by a symbol of its own, which is that of a name and no truth value. -/
structure WellNamed (vs : List Variable) (symbol : Variable → String) : Prop where
  quoted : ∀ v ∈ vs, ∃ name, '|' ∉ name.toList ∧ symbol v = Variable.quoteName name
  injective : ∀ v ∈ vs, ∀ w ∈ vs, symbol v = symbol w → v = w
  no_truth : ∀ v ∈ vs, symbol v ∉ truthWords

namespace Reading

variable {vs : List Variable} {symbol : Variable → String}

/-- **The kind of an atom** shows in its text. -/
theorem kind_of_text (hsymbol : WellNamed vs symbol) {r : Reading} (h : r.Occurs vs) :
    AtomKind.of (r.text symbol) = r.kind := by
  cases r with
  | var v =>
    obtain ⟨name, -, hname⟩ := hsymbol.quoted v h
    have htruth := hsymbol.no_truth v h
    rw [text, hname]
    rw [hname] at htruth
    exact kind_of_quoteName htruth
  | operator word =>
    have hwords : ∀ w ∈ operatorWords, AtomKind.of w = .word := by decide +kernel
    exact hwords word h
  | truth value =>
    have htruth : ∀ b, AtomKind.of (Constant.text (.bool b)) = .truth := by decide +kernel
    exact htruth value
  | numeral n =>
    refine kind_of_isNumeral ?_
    rw [text, String.toList_ofList]
    exact isNumeral_toDigits n
  | decimal x =>
    refine kind_of_isDecimal ?_
    rw [text, String.toList_ofList]
    exact isDecimal_magnitudeText h.1
  | negativeZero =>
    have hzero : AtomKind.of "-0.0" = .negativeZero := by decide +kernel
    exact hzero

/-- The text of what can occur is an atom. -/
theorem isAtom_text (hsymbol : WellNamed vs symbol) {r : Reading} (h : r.Occurs vs) :
    IsAtom (r.text symbol).toList := by
  cases r with
  | var v =>
    obtain ⟨name, hbar, hname⟩ := hsymbol.quoted v h
    rw [text, hname]
    exact Variable.isAtom_quoteName hbar
  | operator word =>
    have hwords : ∀ w ∈ operatorWords, w.toList ≠ [] ∧ (w.toList.all fun c => decide (IsPlainChar c)) = true := by
      decide +kernel
    exact isAtom_of_all_isPlainChar (hwords word h).1 (hwords word h).2
  | truth value =>
    cases value
    · exact isAtom_false
    · exact isAtom_true
  | numeral n =>
    rw [text, String.toList_ofList]
    exact isAtom_toDigits n
  | decimal x =>
    rw [text, String.toList_ofList]
    exact isAtom_magnitudeText x
  | negativeZero =>
    have hzero : IsAtom "-0.0".toList := isAtom_of_all_isPlainChar (by decide) (by decide)
    exact hzero

theorem toDigits_injective {m n : Nat} (h : Nat.toDigits 10 m = Nat.toDigits 10 n) : m = n := by
  have hvalue := congrArg (fun cs => Nat.ofDigitChars 10 cs 0) h
  simpa only [Nat.ofDigitChars_ten_toDigits] using hvalue

theorem magnitudeText_injective {x y : Binary64} (hx : x.isFinite = true ∧ x.isNegative = false)
    (hy : y.isFinite = true ∧ y.isNegative = false) (h : x.magnitudeText = y.magnitudeText) : x = y := by
  have hnan {z : Binary64} (hz : z.isFinite = true) : z.isNaN = false := by
    have hlt : z.magnitude < Binary64.infinityMagnitude := by simpa [Binary64.isFinite] using hz
    simp [Binary64.isNaN, Nat.le_of_lt hlt]
  -- the text is read back as the magnitude
  have hmagnitude := congrArg Binary64.readMagnitude? h
  rw [Binary64.readMagnitude?_magnitudeText (hnan hx.1), Binary64.readMagnitude?_magnitudeText (hnan hy.1)] at hmagnitude
  rw [← Binary64.ofMagnitude_magnitude x, ← Binary64.ofMagnitude_magnitude y, hx.2, hy.2,
    Option.some.inj hmagnitude]

/-- **Different atoms have different texts**, unless one is an operator and the other is a variable that is
named by its word. -/
theorem text_injective (hsymbol : WellNamed vs symbol) {r r' : Reading} (hr : r.Occurs vs) (hr' : r'.Occurs vs)
    (hoperator : r.isOperator = r'.isOperator ∨ ∀ v ∈ vs, symbol v ∉ operatorWords)
    (h : r.text symbol = r'.text symbol) : r = r' := by
  have hkind : r.kind = r'.kind := by
    rw [← kind_of_text hsymbol hr, ← kind_of_text hsymbol hr', h]
  cases r with
  | var v =>
    cases r' with
    | var w => rw [hsymbol.injective v hr w hr' h]
    | operator word =>
      rcases hoperator with hoperator | hoperator
      · cases hoperator
      · have hword : symbol v = word := h
        exact absurd (hword ▸ hr') (hoperator v hr)
    | _ => cases hkind
  | operator word =>
    cases r' with
    | var w =>
      rcases hoperator with hoperator | hoperator
      · cases hoperator
      · have hword : word = symbol w := h
        exact absurd (hword ▸ hr) (hoperator w hr')
    | operator word' => rw [show word = word' from h]
    | _ => cases hkind
  | truth value =>
    cases r' with
    | truth value' =>
      have hinjective : ∀ b c, Constant.text (.bool b) = Constant.text (.bool c) → b = c := by decide
      rw [hinjective value value' h]
    | _ => cases hkind
  | numeral n =>
    cases r' with
    | numeral n' => rw [toDigits_injective (String.ofList_inj.mp h)]
    | _ => cases hkind
  | decimal x =>
    cases r' with
    | decimal y => rw [magnitudeText_injective hr hr' (String.ofList_inj.mp h)]
    | _ => cases hkind
  | negativeZero =>
    cases r' with
    | negativeZero => rfl
    | _ => cases hkind

end Reading

end SmtCount
