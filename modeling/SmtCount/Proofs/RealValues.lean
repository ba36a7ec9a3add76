import Mathlib
import SmtCount.Proofs.LastValues

/-!
# The value of a real variable

A real is written as a number, as the negation of a real, or as the quotient of two, with any blanks in it.  This is
a grammar with one nonterminal, and its trees are evaluated from the leaves: numbers by their words, negation by the
sign, quotients by division.

The reader has no tree.  It takes the text of an operand apart again each time, and what is taken out of a form is
shorter than the form, so it comes to an end.  It gives a value to the forms of the grammar, and to nothing else: one
operand that is no real spoils all forms around it.

## Main definitions

* `RealTree`, `RealTree.value` — a real as it is written, and its value.
* `RealForm t tree` — the grammar.
* `Operand u t` — a form that may have to be read to read another one.
* `readRealWithin?` — the reader, cut off at a depth.

## Main results

* `readRealWithin?_eq` — **reading ends**, as many levels down as the form is long.
* `IsForm.readReal?_eq_some_iff` — **a real is read from the forms of the grammar.**
* `RealForm.exists_of_reaches` — all operands of a real are reals.
* `Model.reals_are_read_by_grammar` — both, and what this means for a variable of a model.
-/

namespace SmtCount

/-! ### The grammar -/

/-- A real as it is written. -/
inductive RealTree
  | number (x : Binary64)
  | negation (a : RealTree)
  | quotient (a b : RealTree)
  deriving DecidableEq, Repr

/-- The value of a tree, from its leaves. -/
def RealTree.value : RealTree → Binary64
  | .number x => x
  | .negation a => a.value.neg
  | .quotient a b => a.value.div b.value

/-- Is the form a real, written as the tree says? -/
inductive RealForm : List Char → RealTree → Prop
  | number {a : List Char} {x : Binary64} : IsAtom a → Binary64.read? a = some x → RealForm a (.number x)
  | negation {a body : List Char} {tree : RealTree} : LaidOut [['-'], a] body → RealForm a tree →
    RealForm (parens body) (.negation tree)
  | quotient {a b body : List Char} {tree tree' : RealTree} : LaidOut [['/'], a, b] body → RealForm a tree →
    RealForm b tree' → RealForm (parens body) (.quotient tree tree')

/-- Is the first form one of those behind the head of the second? -/
def Operand (u t : List Char) : Prop :=
  ∃ body head operands, inside? t = some body ∧ splitForms body = .ok (head :: operands) ∧ u ∈ operands

section Grammar

variable {t : List Char}

theorem realForm_iff_of_isAtom (h : IsAtom t) {tree : RealTree} :
    RealForm t tree ↔ ∃ x, Binary64.read? t = some x ∧ tree = .number x := by
  constructor
  · intro ht
    cases ht with
    | number _ hx => exact ⟨_, hx, rfl⟩
    | negation _ _ => exact absurd h (not_isAtom_parens _)
    | quotient _ _ _ => exact absurd h (not_isAtom_parens _)
  · rintro ⟨x, hx, rfl⟩
    exact .number h hx

/-- What a form in parentheses can be. -/
theorem RealForm.parens_cases {body : List Char} {tree : RealTree} (h : RealForm (parens body) tree) :
    (∃ a tree', LaidOut [['-'], a] body ∧ RealForm a tree' ∧ tree = .negation tree') ∨
      ∃ a b tree' tree'', LaidOut [['/'], a, b] body ∧ RealForm a tree' ∧ RealForm b tree'' ∧
        tree = .quotient tree' tree'' := by
  generalize hform : parens body = form at h
  cases h with
  | number hatom _ => exact absurd (hform ▸ hatom) (not_isAtom_parens body)
  | negation hbody ha =>
    obtain rfl := parens_injective hform
    exact .inl ⟨_, _, hbody, ha, rfl⟩
  | quotient hbody ha hb =>
    obtain rfl := parens_injective hform
    exact .inr ⟨_, _, _, _, hbody, ha, hb, rfl⟩

/-- **A real is written as one tree.** -/
theorem RealForm.unique {tree tree' : RealTree} (h : RealForm t tree) (h' : RealForm t tree') : tree = tree' := by
  induction h generalizing tree' with
  | number hatom hx =>
    obtain ⟨y, hy, rfl⟩ := (realForm_iff_of_isAtom hatom).mp h'
    rw [Option.some.inj (hx.symm.trans hy)]
  | negation hbody _ ih =>
    rcases h'.parens_cases with ⟨a, tree, hbody', ha, rfl⟩ | ⟨_, _, _, _, hbody', -⟩
    · have hparts := hbody.unique hbody'
      simp only [List.cons.injEq, and_true, true_and] at hparts
      subst hparts
      rw [ih ha]
    · cases hbody.unique hbody'
  | quotient hbody _ _ iha ihb =>
    rcases h'.parens_cases with ⟨_, _, hbody', -⟩ | ⟨a, b, tree, tree', hbody', ha, hb, rfl⟩
    · cases hbody.unique hbody'
    · have hparts := hbody.unique hbody'
      simp only [List.cons.injEq, and_true, true_and] at hparts
      obtain ⟨rfl, rfl⟩ := hparts
      rw [iha ha, ihb hb]

/-- An operand of a real is a real. -/
theorem RealForm.exists_of_operand {u : List Char} {tree : RealTree} (h : RealForm t tree) (hu : Operand u t) :
    ∃ tree', RealForm u tree' := by
  obtain ⟨body, head, operands, hinside, hsplit, hmem⟩ := hu
  have hlaid : LaidOut (head :: operands) body := splitForms_eq_ok_iff.mp hsplit
  cases h with
  | number hatom _ =>
    rw [inside?_of_isAtom hatom] at hinside
    cases hinside
  | @negation a _ _ hbody ha =>
    obtain rfl := Option.some.inj ((inside?_parens _).symm.trans hinside)
    obtain ⟨-, rfl⟩ := List.cons.inj (hbody.unique hlaid)
    obtain rfl := List.mem_singleton.mp hmem
    exact ⟨_, ha⟩
  | @quotient a b _ _ _ hbody ha hb =>
    obtain rfl := Option.some.inj ((inside?_parens _).symm.trans hinside)
    obtain ⟨-, rfl⟩ := List.cons.inj (hbody.unique hlaid)
    rcases List.mem_pair.mp hmem with rfl | rfl
    · exact ⟨_, ha⟩
    · exact ⟨_, hb⟩

/-- **All operands of a real are reals**, at any depth. -/
theorem RealForm.exists_of_reaches {u : List Char} (hu : Relation.ReflTransGen Operand u t) {tree : RealTree}
    (h : RealForm t tree) : ∃ tree', RealForm u tree' := by
  induction hu using Relation.ReflTransGen.head_induction_on with
  | refl => exact ⟨tree, h⟩
  | head hstep _ ih =>
    obtain ⟨tree', htree'⟩ := ih
    exact htree'.exists_of_operand hstep

/-- One operand that is no real spoils the forms around it. -/
theorem not_realForm_of_reaches {u : List Char} (hu : Relation.ReflTransGen Operand u t)
    (hnone : ∀ tree, ¬RealForm u tree) {tree : RealTree} : ¬RealForm t tree := by
  intro h
  obtain ⟨tree', htree'⟩ := h.exists_of_reaches hu
  exact hnone tree' htree'

end Grammar

/-! ### Reading -/

/-- The value of a tree is read from its form. -/
theorem RealForm.readReal?_eq {t : List Char} {tree : RealTree} (h : RealForm t tree) :
    readReal? t = some tree.value := by
  induction h with
  | number hatom hx => rw [readReal?_of_isAtom hatom, hx, RealTree.value]
  | negation hbody _ ih => rw [readReal?_of_laidOut hbody, ih, Option.map_some, RealTree.value]
  | quotient hbody _ _ iha ihb =>
    have hparts : (splitForms _).toOption = some _ := congrArg Except.toOption (splitForms_of_laidOut hbody)
    rw [readReal?_parens, hparts, Option.bind_some, realOfParts?, if_pos rfl, iha, ihb, Option.bind_some,
      Option.map_some, RealTree.value]

/-- The parts of a form have a value if they are an operator and its operands, and these have one. -/
theorem realOfParts?_eq_some_iff {parts : List (List Char)} {x : Binary64} : realOfParts? parts = some x ↔
    (∃ a y, parts = [['-'], a] ∧ readReal? a = some y ∧ y.neg = x) ∨
      ∃ a b y z, parts = [['/'], a, b] ∧ readReal? a = some y ∧ readReal? b = some z ∧ y.div z = x := by
  unfold realOfParts?
  split
  · rename_i op a
    by_cases hop : op = ['-']
    · simp [hop]
    · simp [hop]
  · rename_i op a b
    by_cases hop : op = ['/']
    · simp [hop, Option.bind_eq_some_iff]
    · simp [hop]
  · rename_i hone htwo
    constructor
    · intro h
      cases h
    · rintro (⟨a, y, rfl, -⟩ | ⟨a, b, y, z, rfl, -⟩)
      · exact absurd rfl (hone _ _)
      · exact absurd rfl (htwo _ _ _)

/-- Only reals are read. -/
theorem IsForm.exists_realForm {t : List Char} (h : IsForm t) {x : Binary64} (hx : readReal? t = some x) :
    ∃ tree, RealForm t tree ∧ tree.value = x := by
  induction hlength : t.length using Nat.strong_induction_on generalizing t x with
  | _ n ih =>
    subst hlength
    rcases h with hatom | ⟨body, hbody, rfl⟩
    · rw [readReal?_of_isAtom hatom] at hx
      exact ⟨.number x, .number hatom hx, rfl⟩
    · obtain ⟨parts, hparts⟩ := hbody.exists_splitForms
      have hlaid : LaidOut parts body := splitForms_eq_ok_iff.mp hparts
      -- the operands are shorter forms
      have hoperand {a : List Char} (ha : a ∈ parts) {y : Binary64} (hy : readReal? a = some y) :
          ∃ tree, RealForm a tree ∧ tree.value = y :=
        ih a.length (shorter (inside?_parens body) hparts ha) (isForm_of_mem_splitForms hparts a ha) hy rfl
      rw [readReal?_parens, hparts] at hx
      change realOfParts? parts = some x at hx
      rcases realOfParts?_eq_some_iff.mp hx with ⟨a, y, rfl, hy, rfl⟩ | ⟨a, b, y, z, rfl, hy, hz, rfl⟩
      · obtain ⟨tree, htree, rfl⟩ := hoperand (by simp) hy
        exact ⟨.negation tree, .negation hlaid htree, rfl⟩
      · obtain ⟨tree, htree, rfl⟩ := hoperand (by simp) hy
        obtain ⟨tree', htree', rfl⟩ := hoperand (by simp) hz
        exact ⟨.quotient tree tree', .quotient hlaid htree htree', rfl⟩

/-- **A real is read from the forms of the grammar, and from nothing else.** -/
theorem IsForm.readReal?_eq_some_iff {t : List Char} (h : IsForm t) {x : Binary64} :
    readReal? t = some x ↔ ∃ tree, RealForm t tree ∧ tree.value = x := by
  constructor
  · exact h.exists_realForm
  · rintro ⟨tree, htree, rfl⟩
    exact htree.readReal?_eq

/-- What is no real is not read. -/
theorem IsForm.readReal?_eq_none {t : List Char} (h : IsForm t) (hnone : ∀ tree, ¬RealForm t tree) :
    readReal? t = none := by
  cases hx : readReal? t with
  | none => rfl
  | some x =>
    obtain ⟨tree, htree, -⟩ := h.exists_realForm hx
    exact absurd htree (hnone tree)

/-! ### The end of reading -/

/-- Reads a real, but only so many levels down; `none` if that is not enough. -/
def readRealWithin? : Nat → List Char → Option (Option Binary64)
  | 0, _ => none
  | depth + 1, text =>
    match inside? text with
    | none => some (Binary64.read? text)
    | some body =>
      match splitForms body with
      | .ok [op, a] =>
        if op = ['-'] then (readRealWithin? depth a).map (Option.map Binary64.neg) else some none
      | .ok [op, a, b] =>
        if op = ['/'] then
          match readRealWithin? depth a with
          | none => none
          -- the second operand is left alone if there is no first one
          | some none => some none
          | some (some x) => (readRealWithin? depth b).map (Option.map x.div)
        else some none
      | _ => some none

/-- **Reading ends**: as many levels as the form is long are enough. -/
theorem readRealWithin?_eq {t : List Char} (h : IsForm t) {depth : Nat} (hdepth : t.length < depth) :
    readRealWithin? depth t = some (readReal? t) := by
  induction depth generalizing t with
  | zero => omega
  | succ depth ih =>
    rw [readRealWithin?]
    rcases h with hatom | ⟨body, hbody, rfl⟩
    · rw [inside?_of_isAtom hatom, readReal?_of_isAtom hatom]
    · obtain ⟨parts, hparts⟩ := hbody.exists_splitForms
      have hoperand {a : List Char} (ha : a ∈ parts) : readRealWithin? depth a = some (readReal? a) := by
        have hshorter : a.length < (parens body).length := shorter (inside?_parens body) hparts ha
        exact ih (isForm_of_mem_splitForms hparts a ha) (by omega)
      rw [inside?_parens, readReal?_parens, hparts]
      dsimp only
      rw [hparts]
      change _ = some (realOfParts? parts)
      rcases parts with _ | ⟨op, _ | ⟨a, _ | ⟨b, _ | ⟨c, rest⟩⟩⟩⟩
      · rfl
      · rfl
      · have ha : readRealWithin? depth a = some (readReal? a) := hoperand (by simp)
        simp only [realOfParts?, ha, Option.map_some]
        split <;> rfl
      · have ha : readRealWithin? depth a = some (readReal? a) := hoperand (by simp)
        have hb : readRealWithin? depth b = some (readReal? b) := hoperand (by simp)
        simp only [realOfParts?, ha, hb, Option.map_some]
        split
        · cases readReal? a with
          | none => rfl
          | some x => cases readReal? b <;> rfl
        · rfl
      · rfl

/-! ### Real variables -/

section Variables

variable {v : Variable} {value : List Char}

theorem readValue_of_realForm (hsort : v.sort = .real) (name : String) {tree : RealTree}
    (h : RealForm value tree) : readValue v name value = .ok (.real tree.value) := by
  rw [readValue, hsort]
  dsimp only
  rw [h.readReal?_eq]

theorem readValue_of_not_realForm (hsort : v.sort = .real) (hvalue : IsForm value) (name : String)
    (hnone : ∀ tree, ¬RealForm value tree) :
    readValue v name value = .error (.real name (String.ofList value)) := by
  rw [readValue, hsort]
  dsimp only
  rw [hvalue.readReal?_eq_none hnone]

end Variables

/-- **Reals are read by one grammar.**

For a form that a text is taken apart into, reading ends, and it gives a value exactly if the form is a real of the
grammar, which it is in one way at most: the value of its tree.  If any of the forms that are operands in it, or
operands of these, and so on, is no real, there is no value.

A real variable, whose symbol has its last definition with a form as its value, has the value of this form in the
model, as long as the other variables can be read; if the form or one of these operands is no real, it is refused as
it was written, and as a whole. -/
theorem Model.reals_are_read_by_grammar :
    (∀ text forms, splitForms text = .ok forms → ∀ t ∈ forms,
      (∀ depth, t.length < depth → readRealWithin? depth t = some (readReal? t)) ∧
      (∀ x, readReal? t = some x ↔ ∃ tree, RealForm t tree ∧ tree.value = x) ∧
      (∀ tree tree', RealForm t tree → RealForm t tree' → tree = tree') ∧
      ∀ u, Relation.ReflTransGen Operand u t → (∀ tree, ¬RealForm u tree) → readReal? t = none) ∧
    ∀ (output : String) (symbols : Table Variable String) (v : Variable) (name : String) (value : List Char)
      (others : Model), v.sort = .real → symbols.get? v = some name → LastValue output.toList name.toList value →
      Model.read output (symbols.erase v) = .ok others →
      (∀ tree, RealForm value tree → ∃ m, Model.read output symbols = .ok m ∧
        m.get? v = some (.real tree.value) ∧ ∀ w, w ≠ v → m.get? w = others.get? w) ∧
      ∀ u, Relation.ReflTransGen Operand u value → (∀ tree, ¬RealForm u tree) →
        Model.read output symbols = .error (.real name (String.ofList value)) := by
  refine ⟨fun text forms hforms t ht => ?_, ?_⟩
  · have hform : IsForm t := isForm_of_mem_splitForms hforms t ht
    refine ⟨fun depth hdepth => readRealWithin?_eq hform hdepth, fun x => hform.readReal?_eq_some_iff,
      fun tree tree' h h' => h.unique h', fun u hu hnone => ?_⟩
    exact hform.readReal?_eq_none fun _ => not_realForm_of_reaches hu hnone
  · intro output symbols v name value others hsort hname hvalue hothers
    constructor
    · intro tree htree
      have hread := readValue_of_realForm hsort name htree
      obtain ⟨m, hm, hget⟩ := (Model.exists_read_iff hname hvalue hothers).mpr hread
      exact ⟨m, hm, hget, fun w hw => Model.get?_of_others hothers hm hw⟩
    · intro u hu hnone
      exact (Model.read_eq_error_iff hname hvalue hothers).mpr
        (readValue_of_not_realForm hsort hvalue.isForm name fun _ => not_realForm_of_reaches hu hnone)

/-! ### An instance -/

/-- A variable whose value is a form with operands of operands. -/
def nestedVariable : Variable := ⟨"nested", .real, by decide⟩

/-- Another variable. -/
def wholeVariable : Variable := ⟨"whole", .int, by decide⟩

/-- The symbols of both. -/
def nestedSymbols : Table Variable String :=
  ⟨[(nestedVariable, "nested"), (wholeVariable, "whole")]⟩

/-- A text that defines both. -/
def nestedModel : String :=
  "((define-fun whole () Int 7) (define-fun nested () Real (- (/ 1.0\n(/ -4 2)))))"

/-- A negation of a quotient by a quotient is read, through all its operands. -/
theorem Model.reals_are_read_by_grammar_nested :
    LastValue nestedModel.toList "nested".toList (parens "- (/ 1.0\n(/ -4 2))".toList) ∧
      Model.read nestedModel (nestedSymbols.erase nestedVariable) = .ok ⟨[(wholeVariable, .int 7)]⟩ ∧
      ∃ m, Model.read nestedModel nestedSymbols = .ok m ∧
        m.get? nestedVariable = some (.real ⟨0x3FE0000000000000⟩) := by
  have hforms : modelForms nestedModel.toList = .ok ([parens "define-fun whole () Int 7".toList] ++
      [parens "define-fun nested () Real (- (/ 1.0\n(/ -4 2)))".toList]) := by decide +kernel
  have hgives : GivesValue "nested".toList (parens "- (/ 1.0\n(/ -4 2))".toList)
      (parens "define-fun nested () Real (- (/ 1.0\n(/ -4 2)))".toList) :=
    ⟨by decide +kernel, _, "define-fun".toList, "Real".toList, inside?_parens _, by decide +kernel⟩
  have hvalue : LastValue nestedModel.toList "nested".toList (parens "- (/ 1.0\n(/ -4 2))".toList) :=
    ⟨_, _, [], hforms, hgives, fun g hg => absurd hg List.not_mem_nil⟩
  have hothers : Model.read nestedModel (nestedSymbols.erase nestedVariable) = .ok ⟨[(wholeVariable, .int 7)]⟩ := by
    decide +kernel
  -- the value comes from the reader with a depth, and its tree from the value
  have hsplit : splitForms (parens "- (/ 1.0\n(/ -4 2))".toList) = .ok [parens "- (/ 1.0\n(/ -4 2))".toList] := by
    decide +kernel
  obtain ⟨hends, hgrammar, -⟩ := Model.reals_are_read_by_grammar.1 _ _ hsplit _ List.mem_cons_self
  have hwithin : readRealWithin? 30 (parens "- (/ 1.0\n(/ -4 2))".toList) = some (some ⟨0x3FE0000000000000⟩) := by
    decide +kernel
  have hread := Option.some.inj ((hends 30 (by decide)).symm.trans hwithin)
  obtain ⟨tree, htree, htreeValue⟩ := (hgrammar _).mp hread
  obtain ⟨m, hm, hget, -⟩ :=
    (Model.reals_are_read_by_grammar.2 _ _ _ _ _ _ rfl rfl hvalue hothers).1 tree htree
  exact ⟨hvalue, hothers, m, hm, htreeValue ▸ hget⟩

end SmtCount
