import Mathlib
import SmtCount.Proofs.Nesting
import SmtCount.Proofs.Spellings

/-!
# Forms inside of forms

A model is read by taking forms apart, level by level.  A text can go wrong only at the outermost level: what is
inside a form is balanced, and a balanced text is laid out in some forms.  So the place that an error names is a place
in the text that was given, never one inside a form, and a text that is taken apart is refused only for the value of a
variable.

## Main definitions

* `Resplit output body` — the body is the inside of a form that may be taken apart while the output is read.
* `IsValueError v name value e` — the error is about the value of a variable.

## Main results

* `Balanced.exists_laidOut` — **what is balanced can be taken apart.**
* `Resplit.balanced` — what is taken apart later is balanced.
* `Model.only_outermost_unbalanced` — **only the outermost text can be unbalanced.**
-/

namespace SmtCount

/-! ### Balanced texts are texts of forms -/

theorem AtomText.append {a b : List Char} (ha : AtomText a) (hb : AtomText b) : AtomText (a ++ b) := by
  induction ha with
  | nil => exact hb
  | char hc _ ih => exact .char hc ih
  | bars hq _ ih =>
    rw [List.cons_append, List.append_assoc, List.cons_append]
    exact .bars hq ih

/-- An atom in front of a text is its first form, or the begin of it. -/
theorem LaidOut.exists_atom_append {a text : List Char} {forms : List (List Char)} (ha : IsAtom a)
    (h : LaidOut forms text) : ∃ forms', LaidOut forms' (a ++ text) := by
  cases h with
  | nil => exact ⟨[a], .atom ha trivial .nil⟩
  | blank hc h => exact ⟨_, .atom ha (.inl hc) (.blank hc h)⟩
  | @atom b _ _ hb hends h =>
    obtain ⟨hne, ha⟩ := ha
    rw [← List.append_assoc]
    exact ⟨_, .atom ⟨List.append_ne_nil_of_left_ne_nil hne b, ha.append hb.2⟩ hends h⟩
  | parens hbody h => exact ⟨_, .atom ha (.inr rfl) (.parens hbody h)⟩

/-- **What is balanced can be taken apart.** -/
theorem Balanced.exists_laidOut {body : List Char} (h : Balanced body) : ∃ forms, LaidOut forms body := by
  induction h with
  | nil => exact ⟨[], .nil⟩
  | @char c body hopen hclose hbar _ ih =>
    obtain ⟨forms, hforms⟩ := ih
    cases hblank : Text.isBlank c with
    | true => exact ⟨forms, .blank hblank hforms⟩
    | false => exact hforms.exists_atom_append ⟨List.cons_ne_nil c [], .char ⟨hblank, hopen, hclose, hbar⟩ .nil⟩
  | @bars q body hq _ ih =>
    obtain ⟨forms, hforms⟩ := ih
    have hatom : IsAtom ('|' :: (q ++ ['|'])) := ⟨List.cons_ne_nil _ _, .bars hq .nil⟩
    simpa using hforms.exists_atom_append hatom
  | @parens inner body hinner _ _ ih =>
    obtain ⟨forms, hforms⟩ := ih
    exact ⟨SmtCount.parens inner :: forms, by simpa [SmtCount.parens] using LaidOut.parens hinner hforms⟩

theorem Balanced.exists_splitForms {body : List Char} (h : Balanced body) :
    ∃ parts, splitForms body = .ok parts := by
  obtain ⟨parts, hparts⟩ := h.exists_laidOut
  exact ⟨parts, splitForms_of_laidOut hparts⟩

section Inside

variable {f body : List Char}

/-- What is inside a form is balanced. -/
theorem IsForm.balanced_inside (hf : IsForm f) (h : inside? f = some body) : Balanced body ∧ f = parens body := by
  rcases hf with hatom | ⟨inner, hinner, rfl⟩
  · rw [inside?_of_isAtom hatom] at h
    cases h
  · rw [inside?_parens] at h
    obtain rfl := Option.some.inj h
    exact ⟨hinner, rfl⟩

/-- A form has an inside if and only if it is in parentheses. -/
theorem IsForm.isSome_inside?_iff (hf : IsForm f) : (inside? f).isSome = true ↔ IsEnclosed f := by
  rw [isEnclosed_iff]
  constructor
  · intro h
    obtain ⟨body, hbody⟩ := Option.isSome_iff_exists.mp h
    exact ⟨body, hf.balanced_inside hbody⟩
  · rintro ⟨body, -, rfl⟩
    rw [inside?_parens]
    rfl

end Inside

/-! ### Definitions -/

section Definitions

variable {text : List Char} {forms : List (List Char)}

theorem isForm_of_mem_modelForms (h : modelForms text = .ok forms) : ∀ f ∈ forms, IsForm f := by
  unfold modelForms at h
  cases hsplit : splitForms text with
  | error u =>
    rw [hsplit] at h
    cases h
  | ok outer =>
    have houter := isForm_of_mem_splitForms hsplit
    rw [hsplit] at h
    dsimp only [Except.bind] at h
    split at h
    · split at h
      · obtain rfl := Except.ok.inj h
        exact houter
      · split at h
        · exact isForm_of_mem_splitForms h
        · obtain rfl := Except.ok.inj h
          exact houter
    · obtain rfl := Except.ok.inj h
      exact houter

/-- What is inside the only form of a text is taken apart like the text. -/
theorem exists_modelForms (h : splitForms text = .ok forms) : ∃ gs, modelForms text = .ok gs := by
  have hforms := isForm_of_mem_splitForms h
  rw [modelForms, h]
  dsimp only [Except.bind]
  split
  · rename_i single
    split
    · exact ⟨_, rfl⟩
    · split
      · rename_i body hinside
        exact ((hforms single List.mem_cons_self).balanced_inside hinside).1.exists_splitForms
      · exact ⟨_, rfl⟩
  · exact ⟨_, rfl⟩

theorem IsForm.exists_definition? {form : List Char} (h : IsForm form) : ∃ d, definition? form = .ok d := by
  rw [definition?]
  split
  · exact ⟨_, rfl⟩
  · rename_i body hinside
    split
    · obtain ⟨parts, hparts⟩ := (h.balanced_inside hinside).1.exists_splitForms
      exact ⟨_, by rw [hparts]; rfl⟩
    · exact ⟨_, rfl⟩

theorem exists_addDefinitions (hforms : ∀ f ∈ forms, IsForm f) (t : Table (List Char) (List Char)) :
    ∃ t', addDefinitions t forms = .ok t' := by
  induction forms generalizing t with
  | nil => exact ⟨t, rfl⟩
  | cons form forms ih =>
    obtain ⟨hform, hforms⟩ := List.forall_mem_cons.mp hforms
    obtain ⟨d, hd⟩ := hform.exists_definition?
    rw [addDefinitions_cons, hd]
    exact ih hforms (define t d)

/-- A value that a table has is one of those it began with, or a form gives it. -/
theorem get?_addDefinitions {t t' : Table (List Char) (List Char)} (h : addDefinitions t forms = .ok t')
    {name value : List Char} (hget : t'.get? name = some value) :
    t.get? name = some value ∨ ∃ form ∈ forms, GivesValue name value form := by
  induction forms generalizing t with
  | nil =>
    obtain rfl := Except.ok.inj h
    exact .inl hget
  | cons form forms ih =>
    rw [addDefinitions_cons] at h
    cases hdefinition : definition? form with
    | error u =>
      rw [hdefinition] at h
      cases h
    | ok d =>
      rw [hdefinition] at h
      rcases ih h with hbefore | ⟨g, hg, hgives⟩
      · cases d with
        | none => exact .inl hbefore
        | some d =>
          obtain ⟨k, v⟩ := d
          rw [define, Table.get?_insert] at hbefore
          split at hbefore
          · rename_i hk
            obtain rfl := Option.some.inj hbefore
            exact .inr ⟨form, List.mem_cons_self, hk ▸ givesValue_of_definition? hdefinition⟩
          · exact .inl hbefore
      · exact .inr ⟨g, List.mem_cons_of_mem form hg, hgives⟩

/-- **Definitions go wrong only where the text does.** -/
theorem definitions_eq_error_iff {u : Unbalanced} : definitions text = .error u ↔ splitForms text = .error u := by
  cases hsplit : splitForms text with
  | error u' =>
    rw [definitions, modelForms, hsplit]
    change Except.error u' = Except.error u ↔ _
    rw [Except.error.injEq, Except.error.injEq]
  | ok forms =>
    obtain ⟨gs, hgs⟩ := exists_modelForms hsplit
    obtain ⟨t, ht⟩ := exists_addDefinitions (isForm_of_mem_modelForms hgs) .empty
    rw [definitions, hgs]
    dsimp only [Except.bind]
    rw [ht]
    constructor
    · intro h
      cases h
    · intro h
      cases h

/-- What is defined for a name is the value that a form gives it. -/
theorem exists_givesValue {defined : Table (List Char) (List Char)} (h : definitions text = .ok defined)
    {name value : List Char} (hget : defined.get? name = some value) :
    ∃ gs form, modelForms text = .ok gs ∧ form ∈ gs ∧ GivesValue name value form := by
  cases hgs : modelForms text with
  | error u =>
    rw [definitions, hgs] at h
    cases h
  | ok gs =>
    rw [definitions, hgs] at h
    rcases get?_addDefinitions h hget with hempty | ⟨form, hform, hgives⟩
    · cases hempty
    · exact ⟨gs, form, rfl, hform, hgives⟩

theorem GivesValue.isForm {name value form : List Char} (h : GivesValue name value form) : IsForm value := by
  obtain ⟨-, body, word, sort, -, hsplit⟩ := h
  exact isForm_of_mem_splitForms hsplit value (by simp)

end Definitions

/-! ### Texts that are taken apart later -/

/-- Is this the inside of a form that may be taken apart while the output is read? -/
inductive Resplit (output : List Char) : List Char → Prop
  /-- The inside of the only form, if that is no definition. -/
  | wrapper {single body : List Char} : splitForms output = .ok [single] → isDefinition single = false →
    inside? single = some body → Resplit output body
  /-- The inside of a definition. -/
  | definition {forms : List (List Char)} {form body : List Char} : modelForms output = .ok forms → form ∈ forms →
    isDefinition form = true → inside? form = some body → Resplit output body
  /-- The inside of a value: a negated number, or a quotient. -/
  | value {defined : Table (List Char) (List Char)} {name value body : List Char} :
    definitions output = .ok defined → defined.get? name = some value → inside? value = some body →
    Resplit output body
  /-- The inside of an operand, at any depth. -/
  | operand {body operand inner : List Char} {parts : List (List Char)} : Resplit output body →
    splitForms body = .ok parts → operand ∈ parts → inside? operand = some inner → Resplit output inner

/-- **What is taken apart later is balanced.** -/
theorem Resplit.balanced {output body : List Char} (h : Resplit output body) : Balanced body := by
  cases h with
  | wrapper hsplit _ hinside =>
    exact ((isForm_of_mem_splitForms hsplit _ List.mem_cons_self).balanced_inside hinside).1
  | definition hforms hform _ hinside => exact ((isForm_of_mem_modelForms hforms _ hform).balanced_inside hinside).1
  | value hdefined hget hinside =>
    obtain ⟨_, _, _, _, hgives⟩ := exists_givesValue hdefined hget
    exact (hgives.isForm.balanced_inside hinside).1
  | operand _ hsplit hoperand hinside =>
    exact ((isForm_of_mem_splitForms hsplit _ hoperand).balanced_inside hinside).1

/-! ### Errors of a model -/

/-- Is the error about this value of a variable, as the sort of the variable asks for? -/
inductive IsValueError (v : Variable) (name : String) (value : List Char) : ModelError → Prop
  | integer (cause : Text.IntegerError) : v.sort = .int →
    IsValueError v name value (.integer name (String.ofList value) cause)
  | real : v.sort = .real → IsValueError v name value (.real name (String.ofList value))

theorem IsForm.exists_readInt {value : List Char} (h : IsForm value) : ∃ r, readInt value = .ok r := by
  rcases h with hatom | ⟨body, hbody, rfl⟩
  · exact ⟨_, by rw [readInt, joinMinus_of_isAtom hatom]; rfl⟩
  · obtain ⟨parts, hparts⟩ := hbody.exists_splitForms
    exact ⟨_, by rw [readInt_parens, hparts]; rfl⟩

/-- A value that is a form is never unbalanced. -/
theorem IsForm.isValueError {v : Variable} {name : String} {value : List Char} (h : IsForm value) {e : ModelError}
    (he : readValue v name value = .error e) : IsValueError v name value e := by
  unfold readValue at he
  split at he
  · rename_i hsort
    obtain ⟨r, hr⟩ := h.exists_readInt
    rw [hr] at he
    cases r with
    | error cause =>
      obtain rfl := Except.error.inj he
      exact .integer cause hsort
    | ok n => cases he
  · rename_i hsort
    split at he
    · cases he
    · obtain rfl := Except.error.inj he
      exact .real hsort

/-- An error is about a row, and about what is defined for its name. -/
theorem exists_readValue_of_error {defined : Table (List Char) (List Char)} {vars : List (Variable × String)}
    {m : Model} {e : ModelError} (h : readValues defined m vars = .error e) :
    ∃ v name value, (v, name) ∈ vars ∧ defined.get? name.toList = some value ∧ readValue v name value = .error e := by
  induction vars generalizing m with
  | nil => cases h
  | cons r vars ih =>
    obtain ⟨v, name⟩ := r
    have hlater {m : Model} (h : readValues defined m vars = .error e) : ∃ w symbol value,
        (w, symbol) ∈ (v, name) :: vars ∧ defined.get? symbol.toList = some value ∧
          readValue w symbol value = .error e := by
      obtain ⟨w, symbol, value, hw, hvalue⟩ := ih h
      exact ⟨w, symbol, value, List.mem_cons_of_mem _ hw, hvalue⟩
    rw [readValues] at h
    cases hget : defined.get? name.toList with
    | none =>
      rw [hget] at h
      exact hlater h
    | some value =>
      rw [hget] at h
      cases hvalue : readValue v name value with
      | error e' =>
        dsimp only at h
        rw [hvalue] at h
        obtain rfl := Except.error.inj h
        exact ⟨v, name, value, List.mem_cons_self, hget, hvalue⟩
      | ok c =>
        dsimp only at h
        rw [hvalue] at h
        exact hlater h

section Read

variable {output : String} {symbols : Table Variable String}

/-- **A text that is taken apart is refused only for the value of a variable**, which a definition gives to its
symbol. -/
theorem Model.isValueError_of_read {forms : List (List Char)} (hsplit : splitForms output.toList = .ok forms)
    {e : ModelError} (h : Model.read output symbols = .error e) :
    ∃ v name value, symbols.get? v = some name ∧ IsValueError v name value e ∧
      ∃ gs form, modelForms output.toList = .ok gs ∧ form ∈ gs ∧ GivesValue name.toList value form := by
  cases hdefined : definitions output.toList with
  | error u =>
    rw [definitions_eq_error_iff.mp hdefined] at hsplit
    cases hsplit
  | ok defined =>
    rw [Model.read, hdefined] at h
    obtain ⟨v, name, value, hrow, hget, hvalue⟩ := exists_readValue_of_error h
    obtain ⟨gs, form, hgs, hform, hgives⟩ := exists_givesValue hdefined hget
    exact ⟨v, name, value, mem_symbolRows.mp hrow, hgives.isForm.isValueError hvalue, gs, form, hgs, hform, hgives⟩

/-- The place where a text goes wrong is the place where its forms do. -/
theorem Model.read_eq_unbalanced_iff {u : Unbalanced} :
    Model.read output symbols = .error (.unbalanced u) ↔ splitForms output.toList = .error u := by
  constructor
  · intro h
    cases hsplit : splitForms output.toList with
    | error u' =>
      rw [Model.read, definitions_eq_error_iff.mpr hsplit] at h
      obtain rfl := ModelError.unbalanced.inj (Except.error.inj h)
      rfl
    | ok forms =>
      obtain ⟨_, _, _, _, herror, _⟩ := Model.isValueError_of_read hsplit h
      cases herror
  · intro h
    rw [Model.read, definitions_eq_error_iff.mpr h]

end Read

/-- **Only the outermost text can be unbalanced.**

A model is refused as unbalanced exactly where its text is, whatever the symbols.  Every text that is taken apart
later is the inside of a form and can be taken apart, and the forms with an inside are those in parentheses.  So a
balanced text is refused only for a value, and the value is given to the symbol of a variable by a definition without
parameters. -/
theorem Model.only_outermost_unbalanced (output : String) (symbols : Table Variable String) :
    (∀ u, Model.read output symbols = .error (.unbalanced u) ↔ splitForms output.toList = .error u) ∧
    (∀ body, Resplit output.toList body → ∃ parts, splitForms body = .ok parts) ∧
    (∀ text forms, splitForms text = .ok forms → ∀ f ∈ forms, (inside? f).isSome = true ↔ IsEnclosed f) ∧
    ∀ forms, splitForms output.toList = .ok forms → ∀ e, Model.read output symbols = .error e →
      ∃ v name value, symbols.get? v = some name ∧ IsValueError v name value e ∧
        ∃ gs form, modelForms output.toList = .ok gs ∧ form ∈ gs ∧ GivesValue name.toList value form :=
  ⟨fun _ => Model.read_eq_unbalanced_iff, fun _ h => h.balanced.exists_splitForms,
    fun _ _ h f hf => (isForm_of_mem_splitForms h f hf).isSome_inside?_iff,
    fun _ hsplit _ h => Model.isValueError_of_read hsplit h⟩

end SmtCount
