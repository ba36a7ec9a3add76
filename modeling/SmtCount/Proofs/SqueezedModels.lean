import Mathlib
import SmtCount.Proofs.Squeezing

/-!
# Models with other blanks

A text of squeezed forms is read as the same model as the text of the forms themselves: a squeezed atom is the atom,
and a squeezed form in parentheses is taken apart into the squeezed forms inside.  The word in front of a definition
is squeezed with the rest, and stays in front.

## Main definitions

* `Squeezed f f'` — the second form is the first one, squeezed.

## Main results

* `isDefinition_squeeze` — a form is a definition if and only if its squeezed form is.
* `similarity_squeezed` — squeezed forms are taken apart alike.
* `Model.read_squeezed` — **a text of squeezed forms is read as the same model.**
-/

namespace SmtCount

/-! ### Squeezed definitions -/

theorem trimStart_squeeze (text : List Char) : Text.trimStart (squeeze text) = squeeze (Text.trimStart text) := by
  have hfrom (after : Bool) :
      Text.trimStart (squeezeFrom false after text) = squeeze (Text.trimStart text) := by
    induction text generalizing after with
    | nil => rfl
    | cons c cs ih =>
      cases hc : Text.isBlank c with
      | true =>
        rw [Text.trimStart_cons_of_isBlank hc, ← ih true, squeezeFrom_blank hc]
        cases after with
        | true => rfl
        | false => exact Text.trimStart_cons_of_isBlank (by decide) _
      | false =>
        rw [Text.trimStart_cons_of_not_isBlank hc, squeeze, squeezeFrom_of_not_blank hc,
          Text.trimStart_cons_of_not_isBlank hc, squeezeFrom_of_not_blank hc]
  exact hfrom false

/-- A text begins with the same words when it is squeezed. -/
theorem isPrefixOf_squeeze {word : List Char} (hword : ∀ c ∈ word, IsPlainChar c)
    (text : List Char) : word.isPrefixOf (squeeze text) = word.isPrefixOf text := by
  induction word generalizing text with
  | nil => rfl
  | cons d word ih =>
    obtain ⟨⟨hd, _, _, hbar⟩, hword⟩ := List.forall_mem_cons.mp hword
    cases text with
    | nil => rfl
    | cons c cs =>
      cases hc : Text.isBlank c with
      | true =>
        have hne {b : Char} (hb : Text.isBlank b = true) : (d == b) = false := by
          rw [beq_eq_false_iff_ne]
          rintro rfl
          exact Bool.false_ne_true (hd.symm.trans hb)
        rw [squeeze, squeezeFrom_blank hc, if_neg Bool.false_ne_true, List.singleton_append,
          List.isPrefixOf_cons_cons, List.isPrefixOf_cons_cons, hne (by decide), hne hc]
        rfl
      | false =>
        rw [squeeze, squeezeFrom_of_not_blank hc, List.isPrefixOf_cons_cons, List.isPrefixOf_cons_cons]
        by_cases hdc : d = c
        · rw [← hdc, decide_eq_false hbar]
          exact congrArg _ (ih hword cs)
        · rw [beq_eq_false_iff_ne.mpr hdc]
          rfl

theorem isDefinition_squeeze {f : List Char} (hf : IsForm f) : isDefinition (squeeze f) = isDefinition f := by
  rcases hf with hatom | ⟨body, hbody, rfl⟩
  · rw [squeeze_of_isAtom hatom]
  · rw [squeeze_parens hbody, isDefinition, isDefinition, inside?_parens, inside?_parens]
    change "define-fun".toList.isPrefixOf (Text.trimStart (squeeze body)) = _
    rw [trimStart_squeeze, isPrefixOf_squeeze isPlainChar_of_mem_defineFun]

/-! ### Squeezed forms -/

/-- Is the second form the first one, squeezed? -/
def Squeezed (f f' : List Char) : Prop :=
  IsForm f ∧ f' = squeeze f

theorem forall₂_squeezed {forms : List (List Char)} (h : ∀ f ∈ forms, IsForm f) :
    List.Forall₂ Squeezed forms (forms.map squeeze) := by
  induction forms with
  | nil => exact .nil
  | cons f forms ih =>
    obtain ⟨hf, hforms⟩ := List.forall_mem_cons.mp h
    exact .cons ⟨hf, rfl⟩ (ih hforms)

/-- What is squeezed corresponds form by form. -/
theorem SqueezedForms.agree {text : List Char} {x : Except Unbalanced (List (List Char))}
    (h : SqueezedForms (splitForms text) x) : Agree (List.Forall₂ Squeezed) (splitForms text) x := by
  cases hsplit : splitForms text with
  | error u =>
    rw [hsplit] at h
    cases h
    exact .error _ _
  | ok forms =>
    rw [hsplit] at h
    obtain ⟨rfl⟩ := h
    exact .ok (forall₂_squeezed (isForm_of_mem_splitForms hsplit))

/-- **Squeezed forms are taken apart alike.** -/
theorem similarity_squeezed : Similarity Squeezed where
  isDefinition_eq := by
    rintro f _ ⟨hf, rfl⟩
    exact isDefinition_squeeze hf
  apart := by
    rintro f _ ⟨hf, rfl⟩
    rcases hf with hatom | ⟨body, hbody, rfl⟩
    · exact .inl ⟨hatom, squeeze_of_isAtom hatom⟩
    · exact .inr ⟨body, squeeze body, rfl, squeeze_parens hbody, squeeze_eq_nil_iff, (splitForms_squeeze body).agree⟩

/-- **A text of squeezed forms is read as the model**, for a table whose symbols are atoms. -/
theorem Model.read_squeezed {symbols : Table Variable String}
    (hsymbols : ∀ v s, symbols.get? v = some s → IsAtom s.toList) {output output' : String}
    (h : SqueezedForms (splitForms output.toList) (splitForms output'.toList)) :
    Agree Eq (Model.read output symbols) (Model.read output' symbols) :=
  (similarity_squeezed.read (fun v s hs => inside?_of_isAtom (hsymbols v s hs)) h.agree).agree

end SmtCount
