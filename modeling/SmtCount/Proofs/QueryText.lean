import Mathlib
import SmtCount.Proofs.Rendering

/-!
# What a query says

A query is one text and two tables, made from the formula one by one.  Read by the reader that takes
answers apart, the text says what the tables say: it declares every variable under the symbol that the table
of symbols has for it, and asserts every conjunct under the label that the table of labels has it behind.

## Main definitions

* `Declares q v form` — the form declares the variable under its symbol.
* `Asserts q label c form` — the form asserts the conjunct under the label.

## Main results

* `Expr.pairwise_freeVariables` — the variables of an expression are listed in order.
* `Query.label_injective` — different conjuncts get different labels.
* `Query.get?_labels_eq_some_iff` — the conjunct behind a label.
* `Query.text_agrees_with_tables` — **the text says what the tables say**.
-/

namespace SmtCount

/-! ### The order of variables -/

namespace Variable

theorem lt_trans {u v w : Variable} (huv : lt u v = true) (hvw : lt v w = true) : lt u w = true := by
  simp only [lt, Bool.or_eq_true, Bool.and_eq_true, decide_eq_true_eq, beq_iff_eq] at huv hvw ⊢
  rcases huv with huv | ⟨⟨huv, hu⟩, hv⟩
  · rcases hvw with hvw | ⟨⟨hvw, -⟩, -⟩
    · exact .inl (String.lt_trans huv hvw)
    · exact .inl (hvw ▸ huv)
  · rcases hvw with hvw | ⟨⟨-, hv'⟩, -⟩
    · exact .inl (huv ▸ hvw)
    · rw [hv] at hv'
      cases hv'

/-- Of two variables one comes first. -/
theorem lt_of_ne {v w : Variable} (hne : v ≠ w) (hlt : lt v w = false) : lt w v = true := by
  obtain ⟨name, sort, hname⟩ := v
  obtain ⟨name', sort', hname'⟩ := w
  simp only [lt, Bool.or_eq_false_iff, Bool.and_eq_false_iff, decide_eq_false_iff_not, beq_eq_false_iff_ne,
    Bool.or_eq_true, Bool.and_eq_true, decide_eq_true_eq, beq_iff_eq] at hlt ⊢
  obtain ⟨hle, hsort⟩ := hlt
  rcases lt_trichotomy name name' with h | rfl | h
  · exact absurd h hle
  · -- of one name there is the integer variable and the real one
    cases sort <;> cases sort' <;> simp_all
  · exact .inl h

/-- A variable is put into a sorted list in its place. -/
theorem pairwise_insert {vs : List Variable} (h : vs.Pairwise fun v w => lt v w = true) (v : Variable) :
    (insert v vs).Pairwise fun v w => lt v w = true := by
  induction vs with
  | nil => exact List.pairwise_singleton _ v
  | cons w ws ih =>
    obtain ⟨hw, hws⟩ := List.pairwise_cons.mp h
    rw [insert]
    split
    · exact h
    · rename_i hne
      split
      · rename_i hlt
        refine List.pairwise_cons.mpr ⟨?_, h⟩
        intro u hu
        rcases List.mem_cons.mp hu with rfl | hu
        · exact hlt
        · exact lt_trans hlt (hw u hu)
      · rename_i hlt
        refine List.pairwise_cons.mpr ⟨?_, ih hws⟩
        intro u hu
        rcases mem_insert.mp hu with rfl | hu
        · exact lt_of_ne hne (by simpa using hlt)
        · exact hw u hu

end Variable

/-- The variables of an expression are listed in order, each once. -/
theorem Expr.pairwise_freeVariables (e : Expr) :
    e.freeVariables.Pairwise fun v w => v.lt w = true := by
  have hadd (found : List Variable) (pending : List Expr)
      (h : found.Pairwise fun v w => v.lt w = true) :
      (addVariables found pending).Pairwise fun v w => v.lt w = true := by
    fun_induction addVariables found pending with
    | case1 found => exact h
    | case2 found v rest ih => exact ih (Variable.pairwise_insert h v)
    | case3 found a rest _ ih => exact ih h
  exact hadd [] [e] List.Pairwise.nil

namespace Query

/-! ### Labels -/

/-- The number of a conjunct stands in its label behind the first character that is no underscore. -/
theorem dropWhile_longLabel (i k : Nat) :
    (longLabel i k).toList.dropWhile (· == '_') = 'c' :: Nat.toDigits 10 i := by
  rw [longLabel, String.toList_ofList]
  induction k with
  | zero => rfl
  | succ k ih => exact ih

/-- Different conjuncts get different labels, however far they are lengthened. -/
theorem label_injective (n : Naming) : Function.Injective (label n) := by
  intro i j h
  obtain ⟨k, hk⟩ := exists_freeSymbol_eq n.taken (longLabel i) 0
  obtain ⟨l, hl⟩ := exists_freeSymbol_eq n.taken (longLabel j) 0
  have hlong : longLabel i k = longLabel j l := by
    rw [← hk, ← hl]
    exact h
  have hdigits := congrArg (fun s : String => s.toList.dropWhile (· == '_')) hlong
  simp only [dropWhile_longLabel, List.cons.injEq, true_and] at hdigits
  simpa using congrArg (Nat.ofDigitChars 10 · 0) hdigits

theorem isAtom_label (n : Naming) (i : Nat) : IsAtom (label n i).toList := by
  obtain ⟨k, hk⟩ := exists_freeSymbol_eq n.taken (longLabel i) 0
  have hlabel : label n i = longLabel i k := hk
  rw [hlabel, longLabel, String.toList_ofList]
  refine isAtom_of_forall_isPlainChar (by simp) ?_
  intro c hc
  rcases List.mem_append.mp hc with hc | hc
  · rw [List.eq_of_mem_replicate hc]
    decide
  · rcases List.mem_cons.mp hc with rfl | hc
    · decide
    · exact (isNumeralChar_of_isDigit (Decimal.isDigit_of_mem_toDigits hc)).isPlainChar

theorem map_snd_labelled (n : Naming) (f : Expr) : (labelled n f).map Prod.snd = f.properConjuncts := by
  rw [labelled, List.map_map]
  exact List.zipIdx_map_fst 0 f.properConjuncts

theorem nodup_labels (n : Naming) (f : Expr) : ((labelled n f).map Prod.fst).Nodup := by
  have hlabels : (labelled n f).map Prod.fst = (f.properConjuncts.zipIdx.map Prod.snd).map (label n) := by
    rw [labelled, List.map_map, List.map_map]
    rfl
  rw [hlabels, List.zipIdx_map_snd]
  exact (List.nodup_range' 1 Nat.one_pos).map (label_injective n)

/-- Behind a label is the conjunct with its number. -/
theorem get?_labels_eq_some_iff {f : Expr} {l : String} {c : Expr} :
    (ofFormula f).labels.get? l = some c ↔ ∃ i, f.properConjuncts[i]? = some c ∧ label (naming f) i = l := by
  rw [ofFormula, Table.get?_ofRows_eq_some_iff (nodup_labels (naming f) f), labelled, List.mem_map]
  constructor
  · rintro ⟨⟨d, i⟩, hmem, hrow⟩
    obtain ⟨rfl, rfl⟩ := Prod.mk.inj hrow
    exact ⟨i, List.mem_zipIdx_iff_getElem?.mp hmem, rfl⟩
  · rintro ⟨i, hi, rfl⟩
    exact ⟨(c, i), List.mem_zipIdx_iff_getElem?.mpr hi, rfl⟩

/-! ### The forms of a query -/

/-- Does the form declare the variable, under the symbol that the table has for it? -/
def Declares (q : Query) (v : Variable) (form : List Char) : Prop :=
  ∃ symbol, q.symbols.get? v = some symbol ∧ IsAtom symbol.toList ∧
    parts? form = some ["declare-fun".toList, symbol.toList, "()".toList, v.sort.name.toList]

/-- Does the form assert the conjunct under the label, behind which the table has it? -/
structure Asserts (q : Query) (label : String) (c : Expr) (form : List Char) : Prop where
  /-- The conjunct and its label are in a form of their own. -/
  parts : parts? form =
    some ["assert".toList, ("(! " ++ c.renderWith q.symbols ++ " :named " ++ label ++ ")").toList]
  named : parts? ("(! " ++ c.renderWith q.symbols ++ " :named " ++ label ++ ")").toList =
    some ["!".toList, (c.renderWith q.symbols).toList, ":named".toList, label.toList]
  /-- The conjunct is one form, in which its variables are the symbols of the table. -/
  single : splitForms (c.renderWith q.symbols).toList = .ok [(c.renderWith q.symbols).toList]
  reads : c.Reads q.symbols (c.renderWith q.symbols).toList
  behind : q.labels.get? label = some c

/-- The forms that say what to keep for the answer. -/
def optionForms : List (List Char) :=
  ["(set-option :produce-models true)".toList, "(set-option :produce-unsat-cores true)".toList]

/-- The form that asks for an answer. -/
def questionForm : List Char :=
  "(check-sat)".toList

/-- The form that declares a variable. -/
def declarationForm (n : Naming) (v : Variable) : List Char :=
  listForm ["declare-fun".toList, (n.symbol v).toList, "()".toList, v.sort.name.toList]

/-- A conjunct and its label. -/
def namedForm (n : Naming) (label : String) (c : Expr) : List Char :=
  listForm ["!".toList, (c.renderWith n.symbols).toList, ":named".toList, label.toList]

/-- The form that asserts a conjunct. -/
def assertionForm (n : Naming) (label : String) (c : Expr) : List Char :=
  listForm ["assert".toList, namedForm n label c]

theorem toList_declaration (n : Naming) (v : Variable) :
    (declaration n v).toList = spaced [declarationForm n v] := by
  -- not by its equation, which takes long to derive for a concatenation of strings
  delta declaration
  simp [declarationForm, listForm, phrase, spaced, parens]

theorem toList_named (n : Naming) (label : String) (c : Expr) :
    ("(! " ++ c.renderWith n.symbols ++ " :named " ++ label ++ ")").toList = namedForm n label c := by
  simp [namedForm, listForm, phrase, spaced, parens]

theorem toList_assertion (n : Naming) (label : String) (c : Expr) :
    (assertion n label c).toList = spaced [assertionForm n label c] := by
  delta assertion
  simp [assertionForm, namedForm, listForm, phrase, spaced, parens]

/-- Texts that each have a space in front of a form are these forms in a row. -/
theorem toList_join {texts : List String} {forms : List (List Char)}
    (h : List.Forall₂ (fun text form => text.toList = spaced [form]) texts forms) :
    (String.join texts).toList = spaced forms := by
  induction h with
  | nil => rfl
  | cons h _ ih => simp [String.join_cons, h, ih, spaced]

/-- The text of a query is a row of forms. -/
theorem toList_text (f : Expr) :
    (ofFormula f).text.toList =
      phrase (optionForms ++ (f.freeVariables.map (declarationForm (naming f)) ++
        ((labelled (naming f) f).map (fun r => assertionForm (naming f) r.1 r.2) ++ [questionForm]))) := by
  have hoptions : options.toList = phrase optionForms := by
    decide +kernel
  have hquestion : " (check-sat)".toList = spaced [questionForm] := by
    decide +kernel
  have hne : optionForms ≠ [] := List.cons_ne_nil _ _
  rw [phrase_append hne, spaced_append, spaced_append, ← hoptions, ← hquestion, ofFormula]
  simp only [String.toList_append, List.append_assoc]
  refine congrArg (options.toList ++ ·) (congrArg₂ (· ++ ·) (toList_join ?_) (congrArg (· ++ _) (toList_join ?_)))
  · rw [List.forall₂_map_left_iff, List.forall₂_map_right_iff, List.forall₂_same]
    exact fun v _ => toList_declaration (naming f) v
  · rw [List.forall₂_map_left_iff, List.forall₂_map_right_iff, List.forall₂_same]
    exact fun r _ => toList_assertion (naming f) r.1 r.2

/-! ### The tables of a query -/

/-- Exactly the variables of the formula have a symbol, and it is an atom. -/
theorem isAtom_symbol {f : Expr} {v : Variable} (hv : v ∈ f.freeVariables) :
    ∃ symbol, (naming f).symbols.get? v = some symbol ∧ IsAtom symbol.toList ∧ (naming f).symbol v = symbol := by
  have hsome : ((naming f).symbols.get? v).isSome := (Naming.isSome_get?_ofVariables f.freeVariables v).mpr hv
  obtain ⟨symbol, hsymbol⟩ := Option.isSome_iff_exists.mp hsome
  refine ⟨symbol, hsymbol, (Naming.distinct_ofVariables f.freeVariables).isAtom v symbol hsymbol, ?_⟩
  rw [Naming.symbol, hsymbol, Option.getD_some]

/-- The variables of a conjunct are variables of the formula. -/
theorem mem_freeVariables_of_mem_properConjuncts {f c : Expr} (hc : c ∈ f.properConjuncts) {v : Variable}
    (hv : Expr.Mentions v c) : v ∈ f.freeVariables := by
  refine Expr.mem_freeVariables_iff_conjuncts.mpr ⟨c, ?_, Expr.mem_freeVariables.mpr hv⟩
  exact (Expr.mem_properConjuncts.mp hc).1

theorem isForm_of_mem_optionForms {form : List Char} (h : form ∈ optionForms) : IsForm form := by
  have hoption (key : List Char) (hne : key ≠ []) (hkey : (key.all fun c => decide (IsPlainChar c)) = true) :
      IsForm (listForm ["set-option".toList, key, "true".toList]) := by
    refine isForm_listForm ?_
    simp only [List.forall_mem_cons, List.not_mem_nil, false_implies, implies_true, and_true]
    exact ⟨.inl (isAtom_of_all_isPlainChar (by decide) (by decide)),
      .inl (isAtom_of_all_isPlainChar hne hkey), .inl isAtom_true⟩
  rcases List.mem_cons.mp h with rfl | h
  · exact hoption ":produce-models".toList (by decide) (by decide)
  · rw [List.mem_singleton.mp h]
    exact hoption ":produce-unsat-cores".toList (by decide) (by decide)

theorem isForm_questionForm : IsForm questionForm := by
  have hform : questionForm = listForm ["check-sat".toList] := by
    decide +kernel
  rw [hform]
  refine isForm_listForm ?_
  intro form hmem
  rw [List.mem_singleton.mp hmem]
  exact .inl (isAtom_of_all_isPlainChar (by decide) (by decide))

theorem declares_declarationForm {f : Expr} {v : Variable} (hv : v ∈ f.freeVariables) :
    IsForm (declarationForm (naming f) v) ∧ Declares (ofFormula f) v (declarationForm (naming f) v) := by
  obtain ⟨symbol, hsymbol, hatom, heq⟩ := isAtom_symbol hv
  have hforms : ∀ form ∈ ["declare-fun".toList, symbol.toList, "()".toList, v.sort.name.toList], IsForm form := by
    have hword : IsAtom "declare-fun".toList := isAtom_of_all_isPlainChar (by decide) (by decide)
    have hsort : IsAtom v.sort.name.toList := by
      cases v.sort
      · exact isAtom_of_all_isPlainChar (by decide) (by decide)
      · exact isAtom_of_all_isPlainChar (by decide) (by decide)
    have hnone : IsForm "()".toList := .inr ⟨[], .nil, rfl⟩
    simp only [List.forall_mem_cons, List.not_mem_nil, false_implies, implies_true, and_true]
    exact ⟨.inl hword, .inl hatom, hnone, .inl hsort⟩
  rw [declarationForm, heq]
  exact ⟨isForm_listForm hforms, symbol, hsymbol, hatom, parts?_listForm hforms⟩

theorem asserts_assertionForm {f : Expr} {label : String} {c : Expr} (h : (label, c) ∈ labelled (naming f) f) :
    IsForm (assertionForm (naming f) label c) ∧
      Asserts (ofFormula f) label c (assertionForm (naming f) label c) := by
  have hc : c ∈ f.properConjuncts := by
    rw [← map_snd_labelled (naming f) f]
    exact List.mem_map_of_mem h
  have hlabel : IsAtom label.toList := by
    obtain ⟨⟨d, i⟩, -, hrow⟩ := List.mem_map.mp h
    obtain ⟨rfl, rfl⟩ := Prod.mk.inj hrow
    exact isAtom_label (naming f) i
  have hsymbols (v : Variable) (hv : Expr.Mentions v c) :
      ∃ symbol, (naming f).symbols.get? v = some symbol ∧ IsAtom symbol.toList := by
    obtain ⟨symbol, hsymbol, hatom, -⟩ := isAtom_symbol (mem_freeVariables_of_mem_properConjuncts hc hv)
    exact ⟨symbol, hsymbol, hatom⟩
  obtain ⟨hform, hreads⟩ := c.reads_renderWith hsymbols
  have hinner : ∀ form ∈ ["!".toList, (c.renderWith (naming f).symbols).toList, ":named".toList, label.toList],
      IsForm form := by
    simp only [List.forall_mem_cons, List.not_mem_nil, false_implies, implies_true, and_true]
    exact ⟨.inl (isAtom_of_all_isPlainChar (by decide) (by decide)), hform,
      .inl (isAtom_of_all_isPlainChar (by decide) (by decide)), .inl hlabel⟩
  have houter : ∀ form ∈ ["assert".toList, namedForm (naming f) label c], IsForm form := by
    simp only [List.forall_mem_cons, List.not_mem_nil, false_implies, implies_true, and_true]
    exact ⟨.inl (isAtom_of_all_isPlainChar (by decide) (by decide)), isForm_listForm hinner⟩
  have htext : ("(! " ++ c.renderWith (ofFormula f).symbols ++ " :named " ++ label ++ ")").toList =
      namedForm (naming f) label c := toList_named (naming f) label c
  refine ⟨isForm_listForm houter, ⟨?_, ?_, splitForms_of_isForm hform, hreads, ?_⟩⟩
  · rw [htext]
    exact parts?_listForm houter
  · rw [htext]
    exact parts?_listForm hinner
  · exact (Table.get?_ofRows_eq_some_iff (nodup_labels (naming f) f)).mpr h

/-- **The text of a query says what its tables say**, read by the reader that takes answers apart.  Its
forms are the two options, a declaration for each variable in order, an assertion for each conjunct in
order, and the question; the tables have a symbol for every variable and a conjunct for every label of
these, and for nothing else.  A name that a variable can have stays inside its symbol, wherever the symbol
is written between spaces. -/
theorem text_agrees_with_tables (f : Expr) :
    let q := ofFormula f
    (∃ (declarations assertions : List (List Char)) (rows : List (String × Expr)),
      splitForms q.text.toList = .ok (optionForms ++ (declarations ++ (assertions ++ [questionForm]))) ∧
      List.Forall₂ (Declares q) f.freeVariables declarations ∧
      List.Forall₂ (fun row form => Asserts q row.1 row.2 form) rows assertions ∧
      rows.map Prod.snd = f.properConjuncts ∧ (rows.map Prod.fst).Nodup ∧
      ∀ label, (q.labels.get? label).isSome ↔ label ∈ rows.map Prod.fst) ∧
    (f.freeVariables.Pairwise fun v w => v.lt w = true) ∧
    (∀ v, (q.symbols.get? v).isSome ↔ v ∈ f.freeVariables) ∧
    ∀ name sort v, Variable.ofName name sort = .ok v →
      ∀ before behind forms forms', splitForms before = .ok forms → splitForms behind = .ok forms' →
        splitForms (before ++ ' ' :: (v.symbol.toList ++ ' ' :: behind)) =
          .ok (forms ++ v.symbol.toList :: forms') := by
  intro q
  refine ⟨⟨f.freeVariables.map (declarationForm (naming f)),
    (labelled (naming f) f).map (fun r => assertionForm (naming f) r.1 r.2), labelled (naming f) f,
    ?_, ?_, ?_, map_snd_labelled (naming f) f, nodup_labels (naming f) f, ?_⟩,
    f.pairwise_freeVariables, Naming.isSome_get?_ofVariables f.freeVariables, ?_⟩
  · rw [show q.text.toList = _ from toList_text f]
    refine splitForms_of_laidOut (laidOut_phrase ?_)
    intro form hform
    rcases List.mem_append.mp hform with hform | hform
    · exact isForm_of_mem_optionForms hform
    rcases List.mem_append.mp hform with hform | hform
    · obtain ⟨v, hv, rfl⟩ := List.mem_map.mp hform
      exact (declares_declarationForm hv).1
    rcases List.mem_append.mp hform with hform | hform
    · obtain ⟨r, hr, rfl⟩ := List.mem_map.mp hform
      exact (asserts_assertionForm hr).1
    · rw [List.mem_singleton.mp hform]
      exact isForm_questionForm
  · rw [List.forall₂_map_right_iff, List.forall₂_same]
    exact fun v hv => (declares_declarationForm hv).2
  · rw [List.forall₂_map_right_iff, List.forall₂_same]
    exact fun r hr => (asserts_assertionForm hr).2
  · intro label
    rw [Option.isSome_iff_exists]
    constructor
    · rintro ⟨c, hc⟩
      exact List.mem_map_of_mem (Table.mem_of_get?_ofRows hc)
    · intro hlabel
      obtain ⟨⟨l, c⟩, hrow, rfl⟩ := List.mem_map.mp hlabel
      exact ⟨c, (Table.get?_ofRows_eq_some_iff (nodup_labels (naming f) f)).mpr hrow⟩
  · intro name sort v _ before behind forms forms' hbefore hbehind
    exact splitForms_between_spaces (Variable.isAtom_quoteName v.isName.2.1) hbefore hbehind

end Query

end SmtCount
