import Mathlib
import SmtCount.Answer.Core
import SmtCount.Proofs.Evaluation
import SmtCount.Proofs.Symbols

/-!
# Reading a core back

A solver that cannot satisfy a query lists labels of the query.  What is read from such a list are the
conjuncts behind these labels, whatever blanks and other words the list holds: no label has a blank in it, and
no two conjuncts have one label.

## Main definitions

* `Text.Lists words text` — the text is these words, with blanks between them and around.
* `Listed words text` — such a text in parentheses.

## Main results

* `coreLabels_of_listed` — the words of a list are read back.
* `Query.core_of_labels` — **a core is the conjuncts whose labels are listed**, and says what the formula says
  if all are.
-/

namespace SmtCount

/-! ### Words and blanks -/

namespace Text

/-- Is this a text without blanks that is not empty? -/
def IsWord (w : List Char) : Prop :=
  w ≠ [] ∧ ∀ c ∈ w, isBlank c = false

/-- What needs no bars is a word. -/
theorem isWord_of_isPlain {w : List Char} (h : Variable.isPlain w = true) : IsWord w := by
  refine ⟨Variable.ne_nil_of_isPlain h, fun c hc => ?_⟩
  exact (Variable.isPlainChar_of_continuesPlain (Variable.continuesPlain_of_isPlain h c hc)).1

/-- Does a word end before this text: is there nothing or a blank? -/
def EndsWord : List Char → Prop
  | [] => True
  | c :: _ => isBlank c = true

/-- Is the text these words, with blanks between them and around? -/
inductive Lists : List (List Char) → List Char → Prop
  /-- No word and no text. -/
  | nil : Lists [] []
  /-- A blank in front. -/
  | blank {c : Char} {words : List (List Char)} {text : List Char} : isBlank c = true → Lists words text →
    Lists words (c :: text)
  /-- A word in front. -/
  | word {w : List Char} {words : List (List Char)} {text : List Char} : EndsWord text → Lists words text →
    Lists (w :: words) (w ++ text)

theorem words_of_isWord {w : List Char} (hw : IsWord w) : words w = [w] := by
  rw [words, List.splitOnP_eq_singleton hw.2]
  simp [hw.1]

/-- A word that ends is the first one of its text. -/
theorem words_append {w : List Char} (hw : IsWord w) {text : List Char} (hends : EndsWord text) :
    words (w ++ text) = w :: words text := by
  cases text with
  | nil => rw [List.append_nil, words_of_isWord hw, words_nil]
  | cons c text =>
    have hsplit : words (w ++ c :: text) = words w ++ words text := by
      rw [words, List.splitOnP_append_cons w text hends, List.filter_append]
      rfl
    rw [hsplit, words_of_isWord hw, words_cons_of_isBlank hends, List.singleton_append]

/-- The words of a text are those that it lists. -/
theorem Lists.words_eq {ws : List (List Char)} {text : List Char} (h : Lists ws text)
    (hwords : ∀ w ∈ ws, IsWord w) : words text = ws := by
  induction h with
  | nil => exact words_nil
  | blank hc _ ih => rw [words_cons_of_isBlank hc, ih hwords]
  | word hends _ ih =>
    obtain ⟨hw, hrest⟩ := List.forall_mem_cons.mp hwords
    rw [words_append hw hends, ih hrest]

/-- Blanks around a text in parentheses are dropped. -/
theorem trim_parens {before behind : List Char} (hbefore : ∀ c ∈ before, isBlank c = true)
    (hbehind : ∀ c ∈ behind, isBlank c = true) (body : List Char) :
    trim (before ++ (parens body ++ behind)) = parens body := by
  have hopen : isBlank '(' = false := by decide
  have hclose : isBlank ')' = false := by decide
  have hstart : trimStart (before ++ (parens body ++ behind)) = parens body ++ behind := by
    rw [trimStart, List.dropWhile_append_of_pos hbefore, parens, List.cons_append,
      List.dropWhile_cons_of_neg (by rw [hopen]; exact Bool.false_ne_true)]
  have hreverse : (parens body ++ behind).reverse = behind.reverse ++ ')' :: ('(' :: body).reverse := by
    simp [parens]
  rw [trim, hstart, trimEnd, hreverse,
    List.dropWhile_append_of_pos fun c hc => hbehind c (List.mem_reverse.mp hc),
    List.dropWhile_cons_of_neg (by rw [hclose]; exact Bool.false_ne_true)]
  simp [parens]

end Text

/-! ### Lists of labels -/

/-- Is this a text of the words in parentheses, with any blanks between the words and around? -/
def Listed (words : List (List Char)) (text : List Char) : Prop :=
  ∃ before body behind, text = before ++ (parens body ++ behind) ∧ Text.Lists words body ∧
    (∀ c ∈ before, Text.isBlank c = true) ∧ ∀ c ∈ behind, Text.isBlank c = true

/-- **The words of a list are read back.** -/
theorem coreLabels_of_listed {tokens : List String} {output : String}
    (h : Listed (tokens.map String.toList) output.toList) (htokens : ∀ t ∈ tokens, Text.IsWord t.toList) :
    coreLabels output = tokens := by
  obtain ⟨before, body, behind, htext, hbody, hbefore, hbehind⟩ := h
  have hwords : Text.words body = tokens.map String.toList :=
    hbody.words_eq (List.forall_mem_map.mpr htokens)
  rw [coreLabels, htext, Text.trim_parens hbefore hbehind, inside?_parens, Option.getD_some, hwords, List.map_map]
  simp

/-- A core holds what stands behind the labels, each once. -/
theorem Core.mem_read {output : String} {labels : Table String Expr} {c : Expr} :
    c ∈ Core.read output labels ↔ ∃ l ∈ coreLabels output, labels.get? l = some c := by
  rw [Core.read, List.mem_eraseDups, List.mem_filterMap]

namespace Query

/-- A label is a word. -/
theorem isWord_label (n : Naming) (i : Nat) : Text.IsWord (label n i).toList := by
  obtain ⟨k, hk, -⟩ := label_eq_longLabel n i
  rw [hk]
  exact Text.isWord_of_isPlain (isPlain_longLabel i k)

/-- **A core is the conjuncts whose labels are listed**, whatever other words there are and however the list is
laid out.  If all labels are listed, the conjunction of the core holds exactly when the formula does. -/
theorem core_of_labels (f : Expr) {tokens : List String} {output : String}
    (htokens : ∀ t ∈ tokens, ((ofFormula f).labels.get? t).isSome ∨ Text.IsWord t.toList)
    (houtput : Listed (tokens.map String.toList) output.toList) :
    let q := ofFormula f
    let core := Core.read output q.labels
    core.Nodup ∧
    (∀ c, c ∈ core ↔ ∃ i, f.properConjuncts[i]? = some c ∧ label (naming f) i ∈ tokens) ∧
    (∀ c ∈ core, c ∈ f.properConjuncts) ∧
    ((∀ l, (q.labels.get? l).isSome → l ∈ tokens) →
      ∀ {Value : Type} (sem : TruthSemantics Value) (s : Variable → Option Value) (parts : List Expr),
        (∀ c, c ∈ parts ↔ c ∈ core) → (sem.Holds (Expr.conjunction parts) s ↔ sem.Holds f s)) := by
  intro q core
  have hwords : ∀ t ∈ tokens, Text.IsWord t.toList := by
    intro t ht
    refine (htokens t ht).elim (fun hlabel => ?_) id
    obtain ⟨c, hc⟩ := Option.isSome_iff_exists.mp hlabel
    obtain ⟨i, -, rfl⟩ := get?_labels_eq_some_iff.mp hc
    exact isWord_label (naming f) i
  have hcore (c : Expr) : c ∈ core ↔ ∃ i, f.properConjuncts[i]? = some c ∧ label (naming f) i ∈ tokens := by
    rw [Core.mem_read, coreLabels_of_listed houtput hwords]
    simp only [q, get?_labels_eq_some_iff]
    grind
  refine ⟨nodup_eraseDups _, hcore, fun c hc => ?_, fun hall Value sem s parts hparts => ?_⟩
  · obtain ⟨i, hi, -⟩ := (hcore c).mp hc
    exact List.mem_of_getElem? hi
  · have hmem (c : Expr) : c ∈ core ↔ c ∈ f.distinctConjuncts := by
      rw [hcore, Expr.mem_distinctConjuncts, List.mem_iff_getElem?]
      refine exists_congr fun i => and_iff_left_of_imp fun hi => hall _ ?_
      exact Option.isSome_iff_exists.mpr ⟨c, get?_labels_eq_some_iff.mpr ⟨i, hi, rfl⟩⟩
    rw [sem.holds_conjunction, sem.holds_iff_distinctConjuncts f]
    simp only [hparts, hmem]

/-! A formula with one conjunct at two positions, and a variable that has the name of a label. -/

/-- A variable against a number. -/
def bound (name : String) (h : IsName name) (op : RelOp) (n : Int64) : Expr :=
  .rel op (.var ⟨name, .int, h⟩) (.const (.int n))

theorem isName_y : IsName "y" := by decide

/-- The formula `c0 < 3 ∧ true ∧ (y > 0 ∧ c0 < 3)`. -/
def repeating : Expr :=
  .and [bound "c0" (by decide) .lt 3, Expr.tt, .and [bound "y" isName_y .gt 0, bound "c0" (by decide) .lt 3]]

/-- A list of its labels with a strange word among them. -/
def repeatingOutput : String :=
  " (c2 zz\n c1 _c0 )\n"

theorem listed_repeatingOutput :
    Listed (["c2", "zz", "c1", "_c0"].map String.toList) repeatingOutput.toList := by
  have htext : repeatingOutput.toList = [' '] ++ (parens "c2 zz\n c1 _c0 ".toList ++ ['\n']) := by decide +kernel
  have hbody : "c2 zz\n c1 _c0 ".toList =
      ['c', '2'] ++ ' ' :: (['z', 'z'] ++ '\n' :: ' ' :: (['c', '1'] ++ ' ' :: (['_', 'c', '0'] ++ [' ']))) := by
    decide +kernel
  have hwords : Text.Lists (["c2", "zz", "c1", "_c0"].map String.toList) "c2 zz\n c1 _c0 ".toList := by
    rw [hbody]
    exact .word rfl (.blank rfl (.word rfl (.blank rfl (.blank rfl (.word rfl (.blank rfl (.word rfl
      (.blank rfl .nil))))))))
  exact ⟨_, _, _, htext, hwords, List.forall_mem_singleton.mpr rfl, List.forall_mem_singleton.mpr rfl⟩

/-- The conjunct with two labels is read once, and the core says what the formula says. -/
theorem core_of_repeatingOutput :
    let core := Core.read repeatingOutput (ofFormula repeating).labels
    core = [bound "c0" (by decide) .lt 3, bound "y" (by decide) .gt 0] ∧ core.Nodup ∧
      ∀ s, integers.Holds (Expr.conjunction core) s ↔ integers.Holds repeating s := by
  have hplain : ∀ t ∈ ["c2", "zz", "c1", "_c0"], Variable.isPlain t.toList = true := by decide +kernel
  have htokens : ∀ t ∈ ["c2", "zz", "c1", "_c0"],
      ((ofFormula repeating).labels.get? t).isSome ∨ Text.IsWord t.toList :=
    fun t ht => .inr (Text.isWord_of_isPlain (hplain t ht))
  have hkeys : ∀ l ∈ (ofFormula repeating).labels.keys, l ∈ ["c2", "zz", "c1", "_c0"] := by
    decide +kernel
  have hall (l : String) (hl : ((ofFormula repeating).labels.get? l).isSome) : l ∈ ["c2", "zz", "c1", "_c0"] := by
    obtain ⟨c, hc⟩ := Option.isSome_iff_exists.mp hl
    exact hkeys l (Table.mem_keys_of_get? hc)
  obtain ⟨hnodup, -, -, hholds⟩ := core_of_labels repeating htokens listed_repeatingOutput
  exact ⟨by decide +kernel, hnodup, fun s => hholds hall integers s _ fun _ => Iff.rfl⟩

end Query

end SmtCount
