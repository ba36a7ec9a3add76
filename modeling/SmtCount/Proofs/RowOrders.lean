import Mathlib
import SmtCount.Proofs.LastValues

/-!
# The order of the variables

A model is read variable by variable, in the order of a table of symbols, and the first value that cannot be read
ends it.  A table is a map, and the order of its rows says nothing.  A text that can be read in one order can be read
in every order, and the values are the same.  A text that cannot be read in one order cannot be read in any, but the
orders may differ in the value that they come upon first: every value that cannot be read is the first one in some
order.

## Main definitions

* `IsFlaw output symbols e` — this is one of the things that are wrong with a text.

## Main results

* `Model.exists_read_iff_forall_not_isFlaw` — a text is read when nothing is wrong with it.
* `Model.read_of_perm` — **a model does not depend on the order.**
* `Model.exists_perm_read_eq_error_iff` — **the errors of all orders are what is wrong with the text.**
* `Query.read_in_every_order` — both, for the symbols of a query.
-/

namespace SmtCount

/-- Is this one of the things that are wrong with a text?  It goes wrong itself, or the value that it gives a variable
last cannot be read. -/
inductive IsFlaw (output : String) (symbols : Table Variable String) : ModelError → Prop
  | unbalanced {u : Unbalanced} : splitForms output.toList = .error u → IsFlaw output symbols (.unbalanced u)
  | value {v : Variable} {name : String} {value : List Char} {e : ModelError} : symbols.get? v = some name →
    LastValue output.toList name.toList value → readValue v name value = .error e → IsFlaw output symbols e

section Read

variable {output : String} {symbols symbols' : Table Variable String} {e : ModelError}

/-- What is wrong with a text does not depend on the order of the rows. -/
theorem IsFlaw.of_get?_eq (h : IsFlaw output symbols e) (hsame : ∀ v, symbols'.get? v = symbols.get? v) :
    IsFlaw output symbols' e := by
  cases h with
  | unbalanced hsplit => exact .unbalanced hsplit
  | value hname hvalue he => exact .value ((hsame _).trans hname) hvalue he

/-- An error is something that is wrong with the text. -/
theorem isFlaw_of_read (h : Model.read output symbols = .error e) : IsFlaw output symbols e := by
  rw [Model.read] at h
  cases hdefined : definitions output.toList with
  | error u =>
    rw [hdefined] at h
    obtain rfl := Except.error.inj h
    exact .unbalanced (definitions_eq_error_iff.mp hdefined)
  | ok defined =>
    rw [hdefined] at h
    obtain ⟨v, name, value, hrow, hget, hvalue⟩ := exists_readValue_of_error h
    exact .value (mem_symbolRows.mp hrow) (lastValue_of_get?_definitions hdefined hget) hvalue

/-- A text with a last value has definitions. -/
theorem LastValue.exists_definitions {text name value : List Char} (h : LastValue text name value) :
    ∃ defined, definitions text = .ok defined ∧ defined.get? name = some value := by
  cases hdefined : definitions text with
  | error u =>
    obtain ⟨before, form, behind, hforms, -⟩ := h
    rw [modelForms, definitions_eq_error_iff.mp hdefined] at hforms
    cases hforms
  | ok defined => exact ⟨defined, rfl, get?_definitions_of_lastValue h hdefined⟩

/-- A text with which something is wrong cannot be read. -/
theorem IsFlaw.read_ne_ok (h : IsFlaw output symbols e) (m : Model) : Model.read output symbols ≠ .ok m := by
  intro hm
  rw [Model.read] at hm
  cases h with
  | unbalanced hsplit =>
    rw [definitions_eq_error_iff.mpr hsplit] at hm
    cases hm
  | value hname hvalue he =>
    obtain ⟨defined, hdefined, hget⟩ := hvalue.exists_definitions
    rw [hdefined] at hm
    obtain ⟨c, hc⟩ := exists_readValue_eq hm (mem_symbolRows.mpr hname) hget
    rw [hc] at he
    cases he

/-- **A text is read when nothing is wrong with it.** -/
theorem Model.exists_read_iff_forall_not_isFlaw :
    (∃ m, Model.read output symbols = .ok m) ↔ ∀ e, ¬IsFlaw output symbols e := by
  constructor
  · rintro ⟨m, hm⟩ e he
    exact he.read_ne_ok m hm
  · intro h
    cases hread : Model.read output symbols with
    | error e => exact absurd (isFlaw_of_read hread) (h e)
    | ok m => exact ⟨m, rfl⟩

/-- **A model does not depend on the order** in which its variables are read. -/
theorem Model.read_of_perm (hkeys : symbols.keys.Nodup) (hperm : symbols'.rows.Perm symbols.rows) {m : Model}
    (hm : Model.read output symbols = .ok m) :
    ∃ m', Model.read output symbols' = .ok m' ∧ ∀ v, m'.get? v = m.get? v := by
  have hsame : ∀ v, symbols'.get? v = symbols.get? v := Table.get?_of_perm hkeys hperm
  have hflawless : ∀ e, ¬IsFlaw output symbols' e := by
    intro e he
    exact (he.of_get?_eq fun v => (hsame v).symm).read_ne_ok m hm
  obtain ⟨m', hm'⟩ := Model.exists_read_iff_forall_not_isFlaw.mpr hflawless
  refine ⟨m', hm', fun v => ?_⟩
  obtain ⟨defined, hdefined, hget⟩ := Model.get?_of_read hm
  obtain ⟨defined', hdefined', hget'⟩ := Model.get?_of_read hm'
  obtain rfl : defined = defined' := Except.ok.inj (hdefined.symm.trans hdefined')
  rw [hget v, hget' v, ownValue?, ownValue?, hsame v]

/-- A variable that is read first ends it if its value cannot be read. -/
theorem Model.read_of_first {v : Variable} {name : String} {rest : List (Variable × String)} {value : List Char}
    (hrows : symbols.rows = (v, name) :: rest) (hvalue : LastValue output.toList name.toList value)
    (he : readValue v name value = .error e) : Model.read output symbols = .error e := by
  obtain ⟨defined, hdefined, hget⟩ := hvalue.exists_definitions
  have hfirst : ∃ rest, symbolRows symbols = (v, name) :: rest := by
    have hname : symbols.get? v = some name := by
      rw [Table.get?, hrows, Table.lookup, if_pos rfl]
    rw [symbolRows, Table.keys, hrows, List.map_cons, List.eraseDups_cons,
      List.filterMap_cons_some (by rw [hname]; rfl)]
    exact ⟨_, rfl⟩
  obtain ⟨rest', hfirst⟩ := hfirst
  rw [Model.read, hdefined, hfirst]
  dsimp only
  rw [readValues, hget]
  dsimp only
  rw [he]
  rfl

/-- **The errors of all orders are what is wrong with the text**: in which order the variables are read decides among
these, and nothing else is reported. -/
theorem Model.exists_perm_read_eq_error_iff (hkeys : symbols.keys.Nodup) :
    (∃ symbols', symbols'.rows.Perm symbols.rows ∧ Model.read output symbols' = .error e) ↔
      IsFlaw output symbols e := by
  constructor
  · rintro ⟨symbols', hperm, he⟩
    exact (isFlaw_of_read he).of_get?_eq fun v => (Table.get?_of_perm hkeys hperm v).symm
  · intro h
    cases h with
    | unbalanced hsplit =>
      refine ⟨symbols, .refl _, ?_⟩
      rw [Model.read, definitions_eq_error_iff.mpr hsplit]
    | @value v name _ _ hname hvalue he =>
      -- the order that begins with the variable
      refine ⟨⟨(v, name) :: (symbols.erase v).rows⟩, (Table.rows_perm_erase hkeys hname).symm, ?_⟩
      exact Model.read_of_first rfl hvalue he

end Read

/-! ### The symbols of a query -/

/-- A variable is named once. -/
theorem Naming.nodup_keys_ofVariables (vs : List Variable) : (Naming.ofVariables vs).symbols.keys.Nodup := by
  have hkept : (vs.foldl keep ⟨.empty, []⟩).symbols.keys.Nodup := by
    refine List.foldlRecOn (motive := fun n : Naming => n.symbols.keys.Nodup) vs keep ?_ fun n hn v _ => ?_
    · exact List.nodup_nil
    · unfold keep
      split
      · exact hn
      · exact Table.nodup_keys_insert hn _ _
  exact List.foldlRecOn (motive := fun n : Naming => n.symbols.keys.Nodup) _ renumber hkept
    fun n hn v _ => Table.nodup_keys_insert hn _ _

/-- **The answer to a query does not depend on the order of its symbols**: it is the same model in every order, or it
is refused in every order, and then with the errors that the answer has. -/
theorem Query.read_in_every_order (f : Expr) (output : String) :
    (∀ m, Model.read output (ofFormula f).symbols = .ok m →
      ∀ symbols, symbols.rows.Perm (ofFormula f).symbols.rows →
        ∃ m', Model.read output symbols = .ok m' ∧ ∀ v, m'.get? v = m.get? v) ∧
    ∀ e, (∃ symbols, symbols.rows.Perm (ofFormula f).symbols.rows ∧ Model.read output symbols = .error e) ↔
      IsFlaw output (ofFormula f).symbols e := by
  have hkeys : (ofFormula f).symbols.keys.Nodup := Naming.nodup_keys_ofVariables f.freeVariables
  exact ⟨fun _ hm _ hperm => Model.read_of_perm hkeys hperm hm,
    fun _ => Model.exists_perm_read_eq_error_iff hkeys⟩

/-- Of two values that cannot be read, the order decides which is reported. -/
example :
    let x : Variable := ⟨"x", .int, by decide⟩
    let y : Variable := ⟨"y", .int, by decide⟩
    let output := "((define-fun x () Int a) (define-fun y () Int b))"
    Model.read output ⟨[(x, "x"), (y, "y")]⟩ = .error (.integer "x" "a" .invalidDigit) ∧
      Model.read output ⟨[(y, "y"), (x, "x")]⟩ = .error (.integer "y" "b" .invalidDigit) := by
  decide +kernel

end SmtCount
