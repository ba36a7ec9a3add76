import Mathlib
import SmtCount.Proofs.ModelValues
import SmtCount.Proofs.Splitting

/-!
# Texts of models

What a solver may print for an assignment: a definition for each assigned variable, in any order and
with any blanks between the tokens, and between them functions and names that the query did not
declare.  The definitions may stand alone, in one more pair of parentheses, or there behind a word.  All
of these texts are read as the assignment they were made from.

Different variables have different symbols, so what is defined under the symbol of a variable is the
text of its own value, and nothing that is defined later changes it.

## Main definitions

* `IsAssignment f a` — the values that `a` gives to variables of `f` are values of their sorts.
* `Listing symbols rows forms` — the forms define the rows, and other things.
* `Wrapped forms text` — the three ways to print the forms of a model.
* `definition? form` — the name that a form defines, and its value.
* `ownValue?` — the value that a text defines for the symbol of a variable.

## Main results

* `definitions_of_wrapped` — the forms are found in all three.
* `addDefinitions_of_listing` — every symbol has the value that its variable has.
* `readValues_ok` — the values are read variable by variable.
* `Model.get?_of_read` — a variable has the value that is defined for its own symbol.
* `Model.read_of_wrapped` — **the text of an assignment is read as the assignment**.
-/

namespace SmtCount

/-! ### Assignments and their texts -/

/-- Does a partial assignment give values to variables of the formula only, each of the sort of its
variable and none a NaN? -/
def IsAssignment (f : Expr) (a : Variable → Option Constant) : Prop :=
  ∀ v c, a v = some c → v ∈ f.freeVariables ∧ c.sort? = some v.sort ∧ ∀ x, c = .real x → x.isNaN = false

/-- Are these the rows of the assignment, in some order? -/
def IsOrder (a : Variable → Option Constant) (rows : List (Variable × Constant)) : Prop :=
  rows.Nodup ∧ ∀ v c, (v, c) ∈ rows ↔ a v = some c

/-- Is this a definition with these parts? -/
def DefinitionOf (parts : List (List Char)) (form : List Char) : Prop :=
  ∃ body, form = parens body ∧ LaidOut ("define-fun".toList :: parts) body

/-- Does the form define the symbol of a variable as a value of its sort? -/
def Defines (symbols : Table Variable String) (v : Variable) (c : Constant) (form : List Char) : Prop :=
  ∃ symbol value, symbols.get? v = some symbol ∧ SameTokens c.text.toList value ∧
    DefinitionOf [symbol.toList, ['(', ')'], v.sort.name.toList, value] form

/-- Does the form define something that no variable of the query stands for? -/
inductive Irrelevant (symbols : Table Variable String) : List Char → Prop
  /-- A definition with parameters. -/
  | function {name p sort value parameters form : List Char} {ps : List (List Char)} :
    LaidOut (p :: ps) parameters → DefinitionOf [name, parens parameters, sort, value] form →
    Irrelevant symbols form
  /-- A definition of a name that is the symbol of no variable. -/
  | stranger {name parameters sort value form : List Char} :
    (∀ v symbol, symbols.get? v = some symbol → symbol.toList ≠ name) →
    DefinitionOf [name, parameters, sort, value] form → Irrelevant symbols form

/-- Do the forms define these rows, one by one, with irrelevant definitions before, between and behind? -/
inductive Listing (symbols : Table Variable String) : List (Variable × Constant) → List (List Char) → Prop
  | nil : Listing symbols [] []
  | defines {v : Variable} {c : Constant} {form : List Char} {rows : List (Variable × Constant)}
    {forms : List (List Char)} : Defines symbols v c form → Listing symbols rows forms →
    Listing symbols ((v, c) :: rows) (form :: forms)
  | irrelevant {form : List Char} {rows : List (Variable × Constant)} {forms : List (List Char)} :
    Irrelevant symbols form → Listing symbols rows forms → Listing symbols rows (form :: forms)

/-- Is this a text of the forms as a model: by themselves, in parentheses, or in parentheses behind a
word? -/
inductive Wrapped (forms : List (List Char)) : List Char → Prop
  | unwrapped {text : List Char} : LaidOut forms text → Wrapped forms text
  | bare {body text : List Char} : LaidOut forms body → LaidOut [parens body] text → Wrapped forms text
  | model {body text : List Char} : LaidOut ("model".toList :: forms) body → LaidOut [parens body] text →
    Wrapped forms text

/-! ### Definitions -/

theorem Text.trimStart_cons_of_isBlank {c : Char} (h : isBlank c = true) (cs : List Char) :
    trimStart (c :: cs) = trimStart cs := by
  simp [trimStart, h]

theorem Text.trimStart_cons_of_not_isBlank {c : Char} (h : isBlank c = false) (cs : List Char) :
    trimStart (c :: cs) = c :: cs := by
  simp [trimStart, h]

/-- An atom does not begin with a blank. -/
theorem trimStart_of_isAtom {a : List Char} (ha : IsAtom a) (cs : List Char) :
    Text.trimStart (a ++ cs) = a ++ cs := by
  obtain ⟨hne, htext⟩ := ha
  cases htext with
  | nil => exact absurd rfl hne
  | char hc _ => exact Text.trimStart_cons_of_not_isBlank hc.1 _
  | bars _ _ => exact Text.trimStart_cons_of_not_isBlank (by decide) _

/-- Behind the blanks a text begins with its first form, if it has one. -/
theorem exists_trimStart_eq {forms : List (List Char)} {text : List Char} (h : LaidOut forms text) :
    ∃ rest, Text.trimStart text = forms.headD [] ++ rest ∧ (forms = [] → rest = []) := by
  induction h with
  | nil => exact ⟨[], rfl, fun _ => rfl⟩
  | blank hc _ ih => rwa [Text.trimStart_cons_of_isBlank hc]
  | @atom a forms text ha _ _ _ => exact ⟨text, trimStart_of_isAtom ha text, fun h => (nomatch h)⟩
  | @parens body forms text _ _ _ =>
    exact ⟨text, Text.trimStart_cons_of_not_isBlank (by decide) _, fun h => (nomatch h)⟩

/-- A form is a definition if the first form inside begins like one. -/
theorem isDefinition_parens {forms : List (List Char)} {body : List Char} (h : LaidOut forms body) :
    ∃ rest, isDefinition (parens body) = "define-fun".toList.isPrefixOf (forms.headD [] ++ rest) ∧
      (forms = [] → rest = []) := by
  obtain ⟨rest, hrest, hnil⟩ := exists_trimStart_eq h
  exact ⟨rest, by rw [isDefinition, inside?_parens]; exact congrArg _ hrest, hnil⟩

theorem DefinitionOf.isDefinition {parts : List (List Char)} {form : List Char}
    (h : DefinitionOf parts form) : isDefinition form = true := by
  obtain ⟨body, rfl, hbody⟩ := h
  obtain ⟨rest, hrest, -⟩ := isDefinition_parens hbody
  rw [hrest]
  exact List.isPrefixOf_iff_prefix.mpr ⟨rest, rfl⟩

/-- The name that a form defines and its value, if the form is a definition without parameters. -/
def definition? (form : List Char) : Except Unbalanced (Option (List Char × List Char)) :=
  match inside? form with
  | none => .ok none
  | some body => if isDefinition form then (splitForms body).map definedValue? else .ok none

/-- The table with what a form defines. -/
def define (t : Table (List Char) (List Char)) : Option (List Char × List Char) → Table (List Char) (List Char)
  | none => t
  | some (name, value) => t.insert name value

/-- Definitions are added one after the other. -/
theorem addDefinitions_cons (t : Table (List Char) (List Char)) (form : List Char) (forms : List (List Char)) :
    addDefinitions t (form :: forms) = (definition? form).bind fun d => addDefinitions (define t d) forms := by
  rw [addDefinitions, definition?]
  cases inside? form with
  | none => rfl
  | some body =>
    dsimp only
    split
    · cases splitForms body with
      | error u => rfl
      | ok parts =>
        simp only [Except.bind, Except.map]
        cases definedValue? parts <;> rfl
    · rfl

theorem addDefinitions_append (t : Table (List Char) (List Char)) (before forms : List (List Char)) :
    addDefinitions t (before ++ forms) = (addDefinitions t before).bind fun t => addDefinitions t forms := by
  induction before generalizing t with
  | nil => rfl
  | cons form before ih =>
    rw [List.cons_append, addDefinitions_cons, addDefinitions_cons]
    cases definition? form with
    | error u => rfl
    | ok d => exact ih (define t d)

/-- What a definition with four parts behind the word defines. -/
theorem addDefinitions_definition {name parameters sort value form : List Char}
    (h : DefinitionOf [name, parameters, sort, value] form) (t : Table (List Char) (List Char))
    (forms : List (List Char)) :
    addDefinitions t (form :: forms) =
      addDefinitions (if parameters = ['(', ')'] then t.insert name value else t) forms := by
  have hdefinition := h.isDefinition
  obtain ⟨body, rfl, hbody⟩ := h
  rw [addDefinitions, inside?_parens]
  simp only [hdefinition, if_true, splitForms_of_laidOut hbody, Except.bind, definedValue?]
  by_cases hparameters : parameters = ['(', ')']
  · simp only [if_pos hparameters]
  · simp only [if_neg hparameters]

theorem addDefinitions_atom {a : List Char} (ha : IsAtom a) (t : Table (List Char) (List Char))
    (forms : List (List Char)) : addDefinitions t (a :: forms) = addDefinitions t forms := by
  rw [addDefinitions, inside?_of_isAtom ha]

/-- What is irrelevant is a definition, and adds at most a name that is no symbol. -/
theorem Irrelevant.step {symbols : Table Variable String} {form : List Char} (h : Irrelevant symbols form)
    (t : Table (List Char) (List Char)) (forms : List (List Char)) :
    ∃ t', addDefinitions t (form :: forms) = addDefinitions t' forms ∧
      ∀ v symbol, symbols.get? v = some symbol → t'.get? symbol.toList = t.get? symbol.toList := by
  cases h with
  | @function name p sort value parameters form ps hparameters hform =>
    -- with a parameter there is something between the parentheses
    have hne : parens parameters ≠ ['(', ')'] := fun h => by
      have hnil : parameters = [] := by simpa [parens] using h
      obtain rfl := hnil
      exact absurd (hparameters.unique .nil) (List.cons_ne_nil p ps)
    rw [addDefinitions_definition hform, if_neg hne]
    exact ⟨t, rfl, fun _ _ _ => rfl⟩
  | @stranger name parameters sort value form hname hform =>
    refine ⟨_, addDefinitions_definition hform t forms, fun v symbol hsymbol => ?_⟩
    split
    · rw [Table.get?_insert, if_neg (Ne.symm (hname v symbol hsymbol))]
    · rfl

/-- What is irrelevant is a definition. -/
theorem Irrelevant.exists_definitionOf {symbols : Table Variable String} {form : List Char}
    (h : Irrelevant symbols form) : ∃ parts, DefinitionOf parts form := by
  cases h with
  | function _ hform => exact ⟨_, hform⟩
  | stranger _ hform => exact ⟨_, hform⟩

section Listing

variable {symbols : Table Variable String} {rows : List (Variable × Constant)} {forms : List (List Char)}

/-- All forms of a listing are definitions. -/
theorem Listing.exists_definitionOf (h : Listing symbols rows forms) :
    ∀ form ∈ forms, ∃ parts, DefinitionOf parts form := by
  induction h with
  | nil => exact fun _ h => absurd h List.not_mem_nil
  | defines hform _ ih =>
    obtain ⟨_, _, _, _, hform⟩ := hform
    exact List.forall_mem_cons.mpr ⟨⟨_, hform⟩, ih⟩
  | irrelevant hform _ ih => exact List.forall_mem_cons.mpr ⟨hform.exists_definitionOf, ih⟩

/-- **Every symbol has the value of its variable.**  A variable is defined once and no other has its
symbol, so that what is defined later does not matter. -/
theorem addDefinitions_of_listing (h : Listing symbols rows forms) (hkeys : (rows.map Prod.fst).Nodup)
    (hinj : ∀ v w s, symbols.get? v = some s → symbols.get? w = some s → v = w)
    (t : Table (List Char) (List Char)) : ∃ t', addDefinitions t forms = .ok t' ∧
      ∀ v symbol, symbols.get? v = some symbol →
        (∀ c, (v, c) ∈ rows → ∃ value, t'.get? symbol.toList = some value ∧ SameTokens c.text.toList value) ∧
        ((∀ c, (v, c) ∉ rows) → t'.get? symbol.toList = t.get? symbol.toList) := by
  induction h generalizing t with
  | nil => exact ⟨t, rfl, fun _ _ _ => ⟨fun _ h => (nomatch h), fun _ => rfl⟩⟩
  | @defines w d form rows forms hform _ ih =>
    obtain ⟨symbol, value, hsymbol, hvalue, hform⟩ := hform
    obtain ⟨hw, hkeys⟩ := List.nodup_cons.mp hkeys
    have hfirst (c : Constant) : (w, c) ∉ rows := fun h => hw (List.mem_map.mpr ⟨(w, c), h, rfl⟩)
    obtain ⟨t', ht', hdefined⟩ := ih hkeys (t.insert symbol.toList value)
    refine ⟨t', by rw [addDefinitions_definition hform, if_pos rfl, ht'], fun v s hs => ?_⟩
    -- a variable that is not among the other rows keeps what its symbol has by now
    refine ⟨fun c hc => ?_, fun hc => ?_⟩
    · rcases List.mem_cons.mp hc with hc | hc
      · obtain ⟨rfl, rfl⟩ := Prod.mk.inj hc
        obtain rfl := Option.some.inj (hsymbol.symm.trans hs)
        exact ⟨value, by rw [(hdefined v symbol hs).2 hfirst, Table.get?_insert, if_pos rfl], hvalue⟩
      · exact (hdefined v s hs).1 c hc
    · have hne : symbol.toList ≠ s.toList := fun h => by
        obtain rfl := String.toList_inj.mp h
        obtain rfl := hinj v w symbol hs hsymbol
        exact hc d List.mem_cons_self
      rw [(hdefined v s hs).2 fun c h => hc c (List.mem_cons_of_mem _ h), Table.get?_insert, if_neg hne]
  | @irrelevant form rows forms hform _ ih =>
    obtain ⟨u, hu, hsame⟩ := hform.step t forms
    obtain ⟨t', ht', hdefined⟩ := ih hkeys u
    refine ⟨t', hu.trans ht', fun v s hs => ⟨(hdefined v s hs).1, fun hc => ?_⟩⟩
    rw [(hdefined v s hs).2 hc, hsame v s hs]

end Listing

/-- A form in parentheses is no definition if the forms inside are definitions, also behind the word. -/
theorem isDefinition_eq_false {forms : List (List Char)}
    (hforms : ∀ form ∈ forms, ∃ parts, DefinitionOf parts form) {body : List Char}
    (h : LaidOut forms body ∨ LaidOut ("model".toList :: forms) body) :
    isDefinition (parens body) = false := by
  rcases h with h | h
  · obtain ⟨rest, hrest, hnil⟩ := isDefinition_parens h
    rw [hrest]
    cases forms with
    | nil => rw [hnil rfl]; rfl
    | cons form forms =>
      obtain ⟨_, _, rfl, _⟩ := hforms form List.mem_cons_self
      rfl
  · obtain ⟨rest, hrest, -⟩ := isDefinition_parens h
    rw [hrest]
    rfl

/-- **The definitions of a model are found in all three layouts.** -/
theorem definitions_of_wrapped {forms : List (List Char)} {text : List Char} (h : Wrapped forms text)
    (hforms : ∀ form ∈ forms, ∃ parts, DefinitionOf parts form) :
    definitions text = addDefinitions .empty forms := by
  have hinner {body text : List Char} {inner : List (List Char)} (hbody : LaidOut inner body)
      (htext : LaidOut [parens body] text) (hdefinition : isDefinition (parens body) = false) :
      modelForms text = .ok inner := by
    simp [modelForms, splitForms_of_laidOut htext, Except.bind, hdefinition, splitForms_of_laidOut hbody]
  cases h with
  | unwrapped h =>
    have hall : modelForms text = .ok forms := by
      rw [modelForms, splitForms_of_laidOut h]
      cases forms with
      | nil => rfl
      | cons form rest =>
        obtain ⟨parts, hform⟩ := hforms form List.mem_cons_self
        cases rest with
        | nil => simp [Except.bind, hform.isDefinition]
        | cons _ _ => rfl
    rw [definitions, hall]
    rfl
  | bare hbody htext =>
    rw [definitions, hinner hbody htext (isDefinition_eq_false hforms (.inl hbody))]
    rfl
  | model hbody htext =>
    have hword : IsAtom "model".toList := isAtom_of_all_continuesPlain (by decide) (by decide)
    rw [definitions, hinner hbody htext (isDefinition_eq_false hforms (.inr hbody))]
    exact addDefinitions_atom hword .empty forms

/-! ### Models -/

theorem mem_symbolRows {symbols : Table Variable String} {v : Variable} {name : String} :
    (v, name) ∈ symbolRows symbols ↔ symbols.get? v = some name := by
  simp only [symbolRows, List.mem_filterMap, List.mem_eraseDups, Option.map_eq_some_iff, Prod.mk.injEq]
  constructor
  · rintro ⟨w, -, s, hs, rfl, rfl⟩
    exact hs
  · exact fun h => ⟨v, Table.mem_keys_of_get? h, name, h, rfl, rfl⟩

/-- Is the value of the variable, if it has one, what is defined for its symbol? -/
def ReadsAs (defined : Table (List Char) (List Char)) (a : Variable → Option Constant) (v : Variable)
    (name : String) : Prop :=
  (defined.get? name.toList = none ∧ a v = none) ∨
    ∃ text c, defined.get? name.toList = some text ∧ a v = some c ∧ readValue v name text = .ok c

/-- **The values are read variable by variable.** -/
theorem readValues_ok {defined : Table (List Char) (List Char)} {a : Variable → Option Constant}
    {vars : List (Variable × String)} (h : ∀ v name, (v, name) ∈ vars → ReadsAs defined a v name)
    (m : Model) : ∃ m', readValues defined m vars = .ok m' ∧
      ∀ v, m'.get? v = if v ∈ vars.map Prod.fst then (a v).or (m.get? v) else m.get? v := by
  induction vars generalizing m with
  | nil => exact ⟨m, rfl, fun _ => rfl⟩
  | cons r vars ih =>
    obtain ⟨w, name⟩ := r
    have hrest := fun v name hv => h v name (List.mem_cons_of_mem _ hv)
    rcases h w name List.mem_cons_self with ⟨hnone, ha⟩ | ⟨text, c, hsome, ha, hread⟩
    · obtain ⟨m', hm', hget⟩ := ih hrest m
      refine ⟨m', by rw [readValues, hnone]; exact hm', fun v => ?_⟩
      rw [hget]
      grind
    · obtain ⟨m', hm', hget⟩ := ih hrest (m.insert w c)
      refine ⟨m', by rw [readValues, hsome]; simp only [hread]; exact hm', fun v => ?_⟩
      rw [hget, Table.get?_insert]
      grind

/-- The value that a text defines for the symbol of a variable, if it is one. -/
def ownValue? (symbols : Table Variable String) (defined : Table (List Char) (List Char)) (v : Variable) :
    Option Constant :=
  (symbols.get? v).bind fun name =>
    (defined.get? name.toList).bind fun text => (readValue v name text).toOption

/-- When the values of some variables are read, all of those that are defined can be. -/
theorem exists_readValue_eq {defined : Table (List Char) (List Char)} {vars : List (Variable × String)}
    {m m' : Model} (h : readValues defined m vars = .ok m') {v : Variable} {name : String} (hv : (v, name) ∈ vars)
    {text : List Char} (htext : defined.get? name.toList = some text) : ∃ c, readValue v name text = .ok c := by
  induction vars generalizing m with
  | nil => exact absurd hv List.not_mem_nil
  | cons r vars ih =>
    obtain ⟨w, symbol⟩ := r
    rw [readValues] at h
    cases hw : defined.get? symbol.toList with
    | none =>
      rw [hw] at h
      refine ih h ((List.mem_cons.mp hv).resolve_left ?_)
      rintro ⟨⟩
      rw [hw] at htext
      cases htext
    | some text' =>
      rw [hw] at h
      dsimp only at h
      cases hread : readValue w symbol text' with
      | error e =>
        rw [hread] at h
        cases h
      | ok c =>
        rw [hread] at h
        rcases List.mem_cons.mp hv with hv | hv
        · obtain ⟨rfl, rfl⟩ := Prod.mk.inj hv
          obtain rfl := Option.some.inj (hw.symm.trans htext)
          exact ⟨c, hread⟩
        · exact ih h hv

/-- **A variable has the value that is defined for its own symbol**, and none if nothing is. -/
theorem Model.get?_of_read {output : String} {symbols : Table Variable String} {m : Model}
    (h : Model.read output symbols = .ok m) :
    ∃ defined, definitions output.toList = .ok defined ∧ ∀ v, m.get? v = ownValue? symbols defined v := by
  rw [Model.read] at h
  cases hdefined : definitions output.toList with
  | error u =>
    rw [hdefined] at h
    cases h
  | ok defined =>
    rw [hdefined] at h
    refine ⟨defined, rfl, ?_⟩
    have hreads (v : Variable) (name : String) (hv : (v, name) ∈ symbolRows symbols) :
        ReadsAs defined (ownValue? symbols defined) v name := by
      have hown : ownValue? symbols defined v =
          (defined.get? name.toList).bind fun text => (readValue v name text).toOption := by
        rw [ownValue?, mem_symbolRows.mp hv]
        rfl
      cases htext : defined.get? name.toList with
      | none => exact .inl ⟨htext, by rw [hown, htext]; rfl⟩
      | some text =>
        obtain ⟨c, hc⟩ := exists_readValue_eq h hv htext
        exact .inr ⟨text, c, htext, by rw [hown, htext, Option.bind_some, hc]; rfl, hc⟩
    obtain ⟨m', hm', hget⟩ := readValues_ok hreads .empty
    obtain rfl := Except.ok.inj (hm'.symm.trans h)
    intro v
    rw [hget v, Table.get?_empty, Option.or_none]
    refine ite_eq_left_iff.mpr fun hv => ?_
    cases hname : symbols.get? v with
    | none => simp [ownValue?, hname]
    | some name => exact absurd (List.mem_map_of_mem (mem_symbolRows.mpr hname)) hv

/-- **The text of an assignment is read as the assignment**, whatever the order of the definitions, what
else is defined, and how it is laid out. -/
theorem Model.read_of_wrapped {f : Expr} {a : Variable → Option Constant} (ha : IsAssignment f a)
    {rows : List (Variable × Constant)} (hrows : IsOrder a rows) {forms : List (List Char)}
    (hforms : Listing (Query.ofFormula f).symbols rows forms) {text : String}
    (htext : Wrapped forms text.toList) :
    ∃ m, Model.read text (Query.ofFormula f).symbols = .ok m ∧ ∀ v, m.get? v = a v := by
  have hnaming := Naming.distinct_ofVariables f.freeVariables
  have hsymbol (v : Variable) : ((Query.ofFormula f).symbols.get? v).isSome ↔ v ∈ f.freeVariables :=
    Naming.isSome_get?_ofVariables f.freeVariables v
  have hkeys : (rows.map Prod.fst).Nodup := by
    refine hrows.1.map_on fun r hr r' hr' hfst => ?_
    obtain ⟨v, c⟩ := r
    obtain ⟨w, d⟩ := r'
    obtain rfl : v = w := hfst
    have hc := ((hrows.2 v c).mp hr).symm.trans ((hrows.2 v d).mp hr')
    rw [Option.some.inj hc]
  obtain ⟨defined, hdefined, hvalues⟩ := addDefinitions_of_listing hforms hkeys hnaming.injective .empty
  have hreads (v : Variable) (name : String) (hv : (v, name) ∈ symbolRows (Query.ofFormula f).symbols) :
      ReadsAs defined a v name := by
    obtain ⟨hlisted, hunlisted⟩ := hvalues v name (mem_symbolRows.mp hv)
    cases hc : a v with
    | none => exact .inl ⟨hunlisted fun c h => Option.some_ne_none c (((hrows.2 v c).mp h).symm.trans hc), hc⟩
    | some c =>
      obtain ⟨value, hvalue, htokens⟩ := hlisted c ((hrows.2 v c).mpr hc)
      obtain ⟨-, hsort, hnumber⟩ := ha v c hc
      exact .inr ⟨value, c, hvalue, hc, readValue_of_sameTokens hsort hnumber htokens name⟩
  obtain ⟨m, hm, hget⟩ := readValues_ok hreads .empty
  refine ⟨m, ?_, fun v => ?_⟩
  · rw [Model.read, definitions_of_wrapped htext hforms.exists_definitionOf, hdefined]
    exact hm
  · rw [hget v, Table.get?_empty, Option.or_none]
    refine ite_eq_left_iff.mpr fun hv => ?_
    cases hc : a v with
    | none => rfl
    | some c =>
      obtain ⟨name, hname⟩ := Option.isSome_iff_exists.mp ((hsymbol v).mpr (ha v c hc).1)
      exact absurd (List.mem_map_of_mem (mem_symbolRows.mpr hname)) hv

/-! ### An instance -/

/-- Variables of one name, with a blank and a parenthesis in it, and of different sorts. -/
def clashVariable (sort : VarSort) : Variable :=
  ⟨"u (", sort, by decide⟩

/-- A formula about both. -/
def clash : Expr :=
  .rel .gt (.var (clashVariable .int)) (.var (clashVariable .real))

/-- The least integer, and negative zero. -/
def clashAssignment (v : Variable) : Option Constant :=
  if v = clashVariable .int then some (.int Int64.minValue)
  else if v = clashVariable .real then some (.real (.ofMagnitude true 0))
  else none

/-- The definitions of both, and two more. -/
def clashForms : List (List Char) :=
  ["define-fun f ((n Int)) Int n", "define-fun |u (!1| () Real -0.0", "define-fun k () Bool true",
    "define-fun |u (| () Int (- \n 9223372036854775808)"].map fun body => parens body.toList

theorem isAssignment_clash : IsAssignment clash clashAssignment := by
  intro v c hc
  unfold clashAssignment at hc
  split at hc
  · rename_i hv
    obtain rfl := Option.some.inj hc
    subst hv
    exact ⟨by decide +kernel, rfl, fun _ h => (nomatch h)⟩
  split at hc
  · rename_i hv
    obtain rfl := Option.some.inj hc
    subst hv
    exact ⟨by decide +kernel, rfl, fun x hx => Constant.real.inj hx ▸ by decide +kernel⟩
  · cases hc

theorem isOrder_clash : IsOrder clashAssignment
    [(clashVariable .real, .real (.ofMagnitude true 0)), (clashVariable .int, .int Int64.minValue)] := by
  refine ⟨by decide, fun v c => ?_⟩
  simp only [clashAssignment, List.mem_cons, Prod.mk.injEq, List.not_mem_nil, or_false]
  have hne : clashVariable .int ≠ clashVariable .real := by decide
  grind

theorem listing_clash : Listing (Query.ofFormula clash).symbols
    [(clashVariable .real, .real (.ofMagnitude true 0)), (clashVariable .int, .int Int64.minValue)]
    clashForms := by
  have hint : (Query.ofFormula clash).symbols.get? (clashVariable .int) = some "|u (|" := by decide +kernel
  have hreal : (Query.ofFormula clash).symbols.get? (clashVariable .real) = some "|u (!1|" := by
    decide +kernel
  have hothers : ∀ s ∈ (Query.ofFormula clash).symbols.values, s.toList ≠ "k".toList := by decide +kernel
  have hword {w : List Char} (hne : w ≠ []) (h : w.all Variable.continuesPlain = true) : SameTokens w w :=
    .atom (isAtom_of_all_continuesPlain hne h)
  have hzero : (Constant.real (.ofMagnitude true 0)).text = "-0.0" := by decide +kernel
  have hleast : (Constant.int Int64.minValue).text.toList = parens "- 9223372036854775808".toList := by
    decide +kernel
  have hparts : LaidOut ["-".toList, "9223372036854775808".toList] "- 9223372036854775808".toList ∧
      LaidOut ["-".toList, "9223372036854775808".toList] "- \n 9223372036854775808".toList := by
    decide +kernel
  have hbroken : SameTokens (Constant.int Int64.minValue).text.toList
      (parens "- \n 9223372036854775808".toList) := by
    rw [hleast]
    exact .parens hparts.1 hparts.2
      (.cons (hword (by decide) (by decide)) (.cons (hword (by decide) (by decide)) .nil))
  have hparameter : LaidOut ["(n Int)".toList] "(n Int)".toList := by decide +kernel
  have hfunction : DefinitionOf ["f".toList, parens "(n Int)".toList, "Int".toList, "n".toList]
      (parens "define-fun f ((n Int)) Int n".toList) := ⟨_, rfl, by decide +kernel⟩
  have hstranger : DefinitionOf ["k".toList, "()".toList, "Bool".toList, "true".toList]
      (parens "define-fun k () Bool true".toList) := ⟨_, rfl, by decide +kernel⟩
  have hnegative : DefinitionOf ["|u (!1|".toList, "()".toList, "Real".toList, "-0.0".toList]
      (parens "define-fun |u (!1| () Real -0.0".toList) := ⟨_, rfl, by decide +kernel⟩
  have hlow : DefinitionOf
      ["|u (|".toList, "()".toList, "Int".toList, parens "- \n 9223372036854775808".toList]
      (parens "define-fun |u (| () Int (- \n 9223372036854775808)".toList) := ⟨_, rfl, by decide +kernel⟩
  have hzero : SameTokens (Constant.real (.ofMagnitude true 0)).text.toList "-0.0".toList := by
    rw [hzero]
    exact hword (by decide) (by decide)
  rw [clashForms]
  simp only [List.map_cons, List.map_nil]
  exact .irrelevant (.function hparameter hfunction) (.defines ⟨_, _, hreal, hzero, hnegative⟩
    (.irrelevant (.stranger (fun v s hs => hothers s (Table.mem_values_of_get? hs)) hstranger)
      (.defines ⟨_, _, hint, hbroken, hlow⟩ .nil)))

/-- Their text, inside a pair of parentheses. -/
def clashModel : List Char :=
  "model (define-fun f ((n Int)) Int n)".toList ++ "(define-fun |u (!1| () Real -0.0)\n".toList ++
    "(define-fun k () Bool true)".toList ++ " (define-fun |u (| () Int (- \n 9223372036854775808))".toList

theorem Model.read_clash :
    ∃ m, Model.read (String.ofList (parens clashModel)) (Query.ofFormula clash).symbols = .ok m ∧
      ∀ v, m.get? v = clashAssignment v := by
  have hinner : LaidOut ("model".toList :: clashForms) clashModel := by decide +kernel
  have houter : LaidOut [parens clashModel] (String.ofList (parens clashModel)).toList := by
    rw [String.toList_ofList, ← List.append_nil (parens clashModel)]
    exact .parens hinner.balanced .nil
  exact Model.read_of_wrapped isAssignment_clash isOrder_clash listing_clash (.model hinner houter)

end SmtCount
