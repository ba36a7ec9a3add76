import Mathlib
import SmtCount.Proofs.NestedForms

/-!
# The value of one variable

A variable of the query is read from the last definition of its symbol, and no other variable has a say in what
it is read as: the others decide whether there is a model at all.  So as long as the others can be read, a text is
read exactly if the value of this one variable can be read, and an error is the error of this value.

## Main definitions

* `LastValue text name value` — the last definition of the name gives it this value.

## Main results

* `get?_definitions_of_lastValue`, `lastValue_of_get?_definitions` — what is defined for a name is its last value.
* `Model.exists_read_iff`, `Model.read_eq_error_iff` — **the value of one variable decides**, if the others can be
  read.
* `Model.get?_of_others` — the others have the values that they have without this variable.
-/

namespace SmtCount

/-! ### The last definition -/

/-- Is this the value that the last definition of the name gives it? -/
def LastValue (text name value : List Char) : Prop :=
  ∃ before form behind, modelForms text = .ok (before ++ form :: behind) ∧ GivesValue name value form ∧
    ∀ g ∈ behind, ∀ value', ¬GivesValue name value' g

section LastValue

variable {text name value : List Char}

/-- A form that gives a name a value is a definition of the name. -/
theorem GivesValue.definition?_eq {form : List Char} (h : GivesValue name value form) :
    definition? form = .ok (some (name, value)) := by
  obtain ⟨hdefinition, body, word, sort, hinside, hsplit⟩ := h
  rw [definition?, hinside]
  dsimp only
  rw [if_pos hdefinition, hsplit]
  rfl

/-- **What is defined for a name is its last value.** -/
theorem get?_definitions_of_lastValue (h : LastValue text name value) {defined : Table (List Char) (List Char)}
    (hdefined : definitions text = .ok defined) : defined.get? name = some value := by
  obtain ⟨before, form, behind, htext, hgives, hlast⟩ := h
  rw [definitions, htext] at hdefined
  simp only [Except.bind, addDefinitions_append] at hdefined
  cases hbefore : addDefinitions .empty before with
  | error u =>
    rw [hbefore] at hdefined
    cases hdefined
  | ok t =>
    rw [hbefore] at hdefined
    dsimp only at hdefined
    rw [addDefinitions_cons, hgives.definition?_eq] at hdefined
    have hafter : (define t (some (name, value))).get? name = some value := by
      rw [define, Table.get?_insert, if_pos rfl]
    rw [get?_addDefinitions_of_forall_not hlast hdefined, hafter]

/-- Among the members that are of a kind there is a last one. -/
theorem exists_last {α : Type} {P : α → Prop} {l : List α} (h : ∃ a ∈ l, P a) :
    ∃ before a behind, l = before ++ a :: behind ∧ P a ∧ ∀ b ∈ behind, ¬P b := by
  induction l with
  | nil =>
    obtain ⟨a, ha, -⟩ := h
    exact absurd ha List.not_mem_nil
  | cons c l ih =>
    by_cases hl : ∃ a ∈ l, P a
    · obtain ⟨before, a, behind, rfl, ha, hbehind⟩ := ih hl
      exact ⟨c :: before, a, behind, rfl, ha, hbehind⟩
    · -- no other member is of the kind, so it is the first
      obtain ⟨a, ha, hP⟩ := h
      rcases List.mem_cons.mp ha with rfl | ha
      · exact ⟨[], a, l, rfl, hP, fun b hb hb' => hl ⟨b, hb, hb'⟩⟩
      · exact absurd ⟨a, ha, hP⟩ hl

/-- **Every value that is defined for a name is its last value.** -/
theorem lastValue_of_get?_definitions {defined : Table (List Char) (List Char)}
    (hdefined : definitions text = .ok defined) (hget : defined.get? name = some value) : LastValue text name value := by
  obtain ⟨forms, form, hforms, hmem, hgives⟩ := exists_givesValue hdefined hget
  obtain ⟨before, form, behind, rfl, ⟨value', hgives⟩, hbehind⟩ :=
    exists_last (P := fun g => ∃ value', GivesValue name value' g) ⟨form, hmem, value, hgives⟩
  have hlast : LastValue text name value' :=
    ⟨before, form, behind, hforms, hgives, fun g hg value'' hgives' => hbehind g hg ⟨value'', hgives'⟩⟩
  obtain rfl := Option.some.inj ((get?_definitions_of_lastValue hlast hdefined).symm.trans hget)
  exact hlast

/-- The value of a name is a form. -/
theorem LastValue.isForm (h : LastValue text name value) : IsForm value := by
  obtain ⟨_, _, _, _, hgives, _⟩ := h
  exact hgives.isForm

end LastValue

/-! ### One variable among others -/

section Others

variable {output : String} {symbols : Table Variable String} {v : Variable} {name : String} {value : List Char}
  {others : Model}

/-- A variable that is read has the value that its last definition gives it. -/
theorem Model.readValue_of_read (hname : symbols.get? v = some name)
    (hvalue : LastValue output.toList name.toList value) {m : Model} (hm : Model.read output symbols = .ok m) :
    ∃ c, readValue v name value = .ok c ∧ m.get? v = some c := by
  obtain ⟨defined, hdefined, hget⟩ := Model.get?_of_read hm
  have hdefault : defined.get? name.toList = some value := get?_definitions_of_lastValue hvalue hdefined
  have hreads : readValues defined .empty (symbolRows symbols) = .ok m := by
    rw [Model.read, hdefined] at hm
    exact hm
  obtain ⟨c, hc⟩ := exists_readValue_eq hreads (mem_symbolRows.mpr hname) hdefault
  refine ⟨c, hc, ?_⟩
  rw [hget v, ownValue?, hname, Option.bind_some, hdefault, Option.bind_some, hc]
  rfl

/-- **If the others can be read, an error is the error of this variable.** -/
theorem Model.readValue_of_read_error (hname : symbols.get? v = some name)
    (hvalue : LastValue output.toList name.toList value)
    (hothers : Model.read output (symbols.erase v) = .ok others) {e : ModelError}
    (he : Model.read output symbols = .error e) : readValue v name value = .error e := by
  obtain ⟨defined, hdefined, -⟩ := Model.get?_of_read hothers
  rw [Model.read, hdefined] at he hothers
  obtain ⟨w, symbol, text, hrow, htext, herror⟩ := exists_readValue_of_error he
  have hsymbol : symbols.get? w = some symbol := mem_symbolRows.mp hrow
  by_cases hvw : v = w
  · -- the row is that of the variable itself
    subst hvw
    obtain rfl : symbol = name := Option.some.inj (hsymbol.symm.trans hname)
    have hsame : value = text :=
      Option.some.inj ((get?_definitions_of_lastValue hvalue hdefined).symm.trans htext)
    rw [hsame, herror]
  · -- the row is one of those that can be read
    have hother : (w, symbol) ∈ symbolRows (symbols.erase v) := by
      rw [mem_symbolRows, Table.get?_erase, if_neg hvw, hsymbol]
    obtain ⟨c, hc⟩ := exists_readValue_eq hothers hother htext
    rw [hc] at herror
    cases herror

/-- **The value of the variable decides whether there is a model.** -/
theorem Model.exists_read_iff (hname : symbols.get? v = some name)
    (hvalue : LastValue output.toList name.toList value)
    (hothers : Model.read output (symbols.erase v) = .ok others) {c : Constant} :
    (∃ m, Model.read output symbols = .ok m ∧ m.get? v = some c) ↔ readValue v name value = .ok c := by
  constructor
  · rintro ⟨m, hm, hget⟩
    obtain ⟨d, hd, hget'⟩ := Model.readValue_of_read hname hvalue hm
    rw [hd, Option.some.inj (hget'.symm.trans hget)]
  · intro hc
    cases hread : Model.read output symbols with
    | error e =>
      rw [Model.readValue_of_read_error hname hvalue hothers hread] at hc
      cases hc
    | ok m =>
      obtain ⟨d, hd, hget⟩ := Model.readValue_of_read hname hvalue hread
      rw [hd] at hc
      exact ⟨m, rfl, by rw [hget, Except.ok.inj hc]⟩

/-- **The error of the variable is the error of the text.** -/
theorem Model.read_eq_error_iff (hname : symbols.get? v = some name)
    (hvalue : LastValue output.toList name.toList value)
    (hothers : Model.read output (symbols.erase v) = .ok others) {e : ModelError} :
    Model.read output symbols = .error e ↔ readValue v name value = .error e := by
  constructor
  · exact Model.readValue_of_read_error hname hvalue hothers
  · intro he
    cases hread : Model.read output symbols with
    | error e' =>
      rw [Model.readValue_of_read_error hname hvalue hothers hread] at he
      rw [Except.error.inj he]
    | ok m =>
      obtain ⟨c, hc, -⟩ := Model.readValue_of_read hname hvalue hread
      rw [hc] at he
      cases he

/-- **The others have the values that they have without this variable.** -/
theorem Model.get?_of_others (hothers : Model.read output (symbols.erase v) = .ok others) {m : Model}
    (hm : Model.read output symbols = .ok m) {w : Variable} (hw : w ≠ v) : m.get? w = others.get? w := by
  obtain ⟨defined, hdefined, hget⟩ := Model.get?_of_read hm
  obtain ⟨defined', hdefined', hget'⟩ := Model.get?_of_read hothers
  obtain rfl : defined = defined' := Except.ok.inj (hdefined.symm.trans hdefined')
  have hsymbol : (symbols.erase v).get? w = symbols.get? w := by
    rw [Table.get?_erase, if_neg (Ne.symm hw)]
  rw [hget w, hget' w, ownValue?, ownValue?, hsymbol]

end Others

end SmtCount
