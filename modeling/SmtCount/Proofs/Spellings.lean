import Mathlib
import SmtCount.Proofs.ModelText
import SmtCount.Proofs.Words

/-!
# Two spellings of one symbol

A simple symbol of SMT-LIB may be written between bars or without them, and is the same symbol.  A model is read by
the texts of the names, so a variable is found under the spelling that it was declared with and under no other: a
definition under the other spelling is read as the definition of a name that nobody asked for.

A variable is declared without bars if its name is plain.  The plain names are fewer than the simple symbols, but for
the reserved words.  So if a solver uses bars only where they are needed, the variables with the names between are
not found.

## Main definitions

* `isSimpleSymbol name`, `standardSpelling name` — a symbol that needs no bars, and a symbol with no more than it needs.
* `NamesSecond name form` — the form has five parts, and the second one is this name.
* `Respelled s s' text text'` — one definition of `s` in a text defines `s'` in its place.
* `SpellingsAlike` — a variable is found under every spelling of its symbol.

## Main results

* `get?_addDefinitions_of_forall_not` — a name that no definition gives a value keeps its value.
* `Query.counts_as_spelled` — **a definition counts for the variable that is declared as the definition spells it**.
* `Variable.quoteName_eq_standardSpelling_iff` — which variables are declared in their standard spelling.
* `not_spellingsAlike` — a variable that is not found.
-/

namespace SmtCount

/-! ### Spellings -/

/-- May the character stand in a simple symbol of SMT-LIB? -/
def isSimpleChar (c : Char) : Bool :=
  c.isAlphanum || "~!@$%^&*_-+=<>.?/".toList.contains c

/-- Is the text a simple symbol of SMT-LIB?  It has simple characters only, no digit in front, and is not reserved. -/
def isSimpleSymbol (name : String) : Bool :=
  name ≠ "" && name.toList.all isSimpleChar && !name.toList.head?.any Char.isDigit && name ∉ reservedWords

/-- The symbol of a name, with bars only if it needs them. -/
def standardSpelling (name : String) : String :=
  if isSimpleSymbol name then name else "|" ++ name ++ "|"

namespace Variable

theorem isSimpleChar_of_continuesPlain {c : Char} (h : continuesPlain c = true) : isSimpleChar c = true := by
  simp only [continuesPlain, Bool.or_eq_true, beq_iff_eq] at h
  unfold isSimpleChar
  rcases h with (((((h | rfl) | rfl) | rfl) | rfl) | rfl) | rfl
  · rw [h, Bool.true_or]
  all_goals decide

/-- A plain name is a simple symbol, unless it is reserved. -/
theorem isSimpleSymbol_of_isPlain {name : String} (h : isPlain name.toList = true) :
    isSimpleSymbol name = true ↔ name ∉ reservedWords := by
  have hne : name ≠ "" := by
    rintro rfl
    cases h
  have hall : name.toList.all isSimpleChar = true :=
    List.all_eq_true.mpr fun c hc => isSimpleChar_of_continuesPlain (continuesPlain_of_isPlain h c hc)
  have hhead : name.toList.head?.any Char.isDigit = false := by
    cases hname : name.toList with
    | nil => rfl
    | cons c cs =>
      have hquoted : (quoteName name).toList = c :: cs := by rw [quoteName, if_pos h, hname]
      exact (head_quoteName hquoted).1
  simp [isSimpleSymbol, hne, hall, hhead]

/-- **Which variables are declared in their standard spelling**: a plain name must not be reserved, and a simple
symbol must be plain. -/
theorem quoteName_eq_standardSpelling_iff (name : String) :
    quoteName name = standardSpelling name ↔
      (isPlain name.toList = true → name ∉ reservedWords) ∧
        (isSimpleSymbol name = true → isPlain name.toList = true) := by
  have hbars : name ≠ "|" ++ name ++ "|" := fun h => by
    have hlength := congrArg String.length h
    simp only [String.length_append] at hlength
    have hone : "|".length = 1 := rfl
    omega
  unfold quoteName standardSpelling
  by_cases hplain : isPlain name.toList = true
  · rw [if_pos hplain, ← isSimpleSymbol_of_isPlain hplain]
    by_cases hsimple : isSimpleSymbol name = true
    · simp [hsimple, hplain]
    · simp [hsimple, hplain, hbars]
  · by_cases hsimple : isSimpleSymbol name = true
    · simp [hsimple, hplain, hbars.symm]
    · simp [hsimple, hplain]

end Variable

/-- No other spelling of a symbol of a query is a symbol of the query. -/
theorem Query.symbol_ne_spelling {f : Expr} {v w : Variable} {symbol symbol' spelling : String}
    (hsymbol : (ofFormula f).symbols.get? v = some symbol) (hspelling : unquoted spelling = unquoted symbol)
    (hne : spelling ≠ symbol) (hsymbol' : (ofFormula f).symbols.get? w = some symbol') : symbol' ≠ spelling := by
  rintro rfl
  obtain ⟨name, hbar, rfl⟩ := Naming.exists_quoteName_eq f.pairwise_freeVariables hsymbol
  obtain ⟨name', hbar', rfl⟩ := Naming.exists_quoteName_eq f.pairwise_freeVariables hsymbol'
  rw [unquoted_quoteName hbar, unquoted_quoteName hbar'] at hspelling
  exact hne (congrArg Variable.quoteName hspelling)

/-! ### Names that are not asked for -/

/-- Do the tables have the same values, but for this name? -/
def SameBut (name : List Char) (t t' : Table (List Char) (List Char)) : Prop :=
  ∀ k, k ≠ name → t.get? k = t'.get? k

section SameBut

variable {name : List Char} {t t' : Table (List Char) (List Char)} (h : SameBut name t t')

include h

theorem SameBut.define (d : Option (List Char × List Char)) : SameBut name (define t d) (define t' d) := by
  intro k hk
  cases d with
  | none => exact h k hk
  | some d => rw [SmtCount.define, SmtCount.define, Table.get?_insert, Table.get?_insert, h k hk]

/-- Definitions add the same values to tables that differ in one name. -/
theorem SameBut.addDefinitions (forms : List (List Char)) :
    (∃ u, addDefinitions t forms = .error u ∧ addDefinitions t' forms = .error u) ∨
      ∃ s s', addDefinitions t forms = .ok s ∧ addDefinitions t' forms = .ok s' ∧ SameBut name s s' := by
  induction forms generalizing t t' with
  | nil => exact .inr ⟨t, t', rfl, rfl, h⟩
  | cons form forms ih =>
    rw [addDefinitions_cons, addDefinitions_cons]
    cases definition? form with
    | error u => exact .inl ⟨u, rfl, rfl⟩
    | ok d => exact ih (h.define d)

end SameBut

/-- Only the values of the symbols are read. -/
theorem readValues_congr {defined defined' : Table (List Char) (List Char)} {vars : List (Variable × String)}
    (h : ∀ v name, (v, name) ∈ vars → defined.get? name.toList = defined'.get? name.toList) (m : Model) :
    readValues defined m vars = readValues defined' m vars := by
  induction vars generalizing m with
  | nil => rfl
  | cons r vars ih =>
    obtain ⟨v, name⟩ := r
    have hrest := fun w symbol hw => h w symbol (List.mem_cons_of_mem _ hw)
    rw [readValues, readValues, h v name List.mem_cons_self]
    cases defined'.get? name.toList with
    | none => exact ih hrest m
    | some text => exact congrArg ((readValue v name text).bind ·) (funext fun c => ih hrest _)

/-- **A definition of a name that is no symbol does not count.** -/
theorem Model.read_of_stranger {symbols : Table Variable String} {name parameters sort value form : List Char}
    (hname : ∀ v symbol, symbols.get? v = some symbol → symbol.toList ≠ name)
    (hform : DefinitionOf [name, parameters, sort, value] form) {before behind : List (List Char)}
    {text text' : String} (htext : modelForms text.toList = .ok (before ++ form :: behind))
    (htext' : modelForms text'.toList = .ok (before ++ behind)) :
    Model.read text symbols = Model.read text' symbols := by
  have hdefinitions : definitions text.toList = (addDefinitions .empty before).bind fun t =>
      addDefinitions (if parameters = ['(', ')'] then t.insert name value else t) behind := by
    rw [definitions, htext]
    simp only [Except.bind, addDefinitions_append, addDefinitions_definition hform]
  have hdefinitions' : definitions text'.toList = (addDefinitions .empty before).bind fun t =>
      addDefinitions t behind := by
    rw [definitions, htext']
    simp only [Except.bind, addDefinitions_append]
  rw [Model.read, Model.read, hdefinitions, hdefinitions']
  cases addDefinitions .empty before with
  | error u => rfl
  | ok t =>
    have hsame : SameBut name (if parameters = ['(', ')'] then t.insert name value else t) t := by
      intro k hk
      split
      · rw [Table.get?_insert, if_neg (Ne.symm hk)]
      · rfl
    simp only [Except.bind]
    rcases hsame.addDefinitions behind with ⟨u, hu, hu'⟩ | ⟨s, s', hs, hs', hafter⟩
    · rw [hu, hu']
    · rw [hs, hs']
      exact readValues_congr (fun v symbol hv => hafter _ (hname v symbol (mem_symbolRows.mp hv))) _

/-! ### Names that are asked for -/

/-- Does the form have five parts, the second of which is this name? -/
def NamesSecond (name form : List Char) : Prop :=
  ∃ body word parameters sort value, inside? form = some body ∧
    splitForms body = .ok [word, name, parameters, sort, value]

/-- Is the form a definition that gives this value to the name?  It has a word, the name, no parameters, a sort and
the value. -/
def GivesValue (name value form : List Char) : Prop :=
  isDefinition form = true ∧ ∃ body word sort, inside? form = some body ∧
    splitForms body = .ok [word, name, ['(', ')'], sort, value]

theorem givesValue_of_definition? {name value form : List Char} (h : definition? form = .ok (some (name, value))) :
    GivesValue name value form := by
  unfold definition? at h
  split at h
  · cases h
  · rename_i body hinside
    split at h
    · rename_i hdefinition
      cases hsplit : splitForms body with
      | error u =>
        rw [hsplit] at h
        cases h
      | ok parts =>
        rw [hsplit] at h
        have hdefined : definedValue? parts = some (name, value) := Except.ok.inj h
        unfold definedValue? at hdefined
        split at hdefined
        · split at hdefined
          · rename_i hparameters
            subst hparameters
            obtain ⟨rfl, rfl⟩ := Prod.mk.inj (Option.some.inj hdefined)
            exact ⟨hdefinition, body, _, _, hinside, hsplit⟩
          · cases hdefined
        · cases hdefined
    · cases h

theorem GivesValue.namesSecond {name value form : List Char} (h : GivesValue name value form) :
    NamesSecond name form := by
  obtain ⟨-, body, word, sort, hinside, hsplit⟩ := h
  exact ⟨body, word, _, sort, value, hinside, hsplit⟩

/-- **A name that no definition gives a value keeps its value.** -/
theorem get?_addDefinitions_of_forall_not {name : List Char} {forms : List (List Char)}
    (hforms : ∀ form ∈ forms, ∀ value, ¬GivesValue name value form) {t t' : Table (List Char) (List Char)}
    (h : addDefinitions t forms = .ok t') : t'.get? name = t.get? name := by
  induction forms generalizing t with
  | nil =>
    obtain rfl := Except.ok.inj h
    rfl
  | cons form forms ih =>
    obtain ⟨hform, hforms⟩ := List.forall_mem_cons.mp hforms
    rw [addDefinitions_cons] at h
    cases hdefinition : definition? form with
    | error u =>
      rw [hdefinition] at h
      cases h
    | ok d =>
      rw [hdefinition] at h
      have hkept : (define t d).get? name = t.get? name := by
        cases d with
        | none => rfl
        | some d =>
          rw [define, Table.get?_insert, if_neg]
          rintro rfl
          exact hform _ (givesValue_of_definition? hdefinition)
      rw [ih hforms h, hkept]

/-- The last definition of a name counts. -/
theorem get?_definitions_of_last {name sort value form : List Char}
    (hform : DefinitionOf [name, ['(', ')'], sort, value] form) {before behind : List (List Char)}
    (hbehind : ∀ g ∈ behind, ¬NamesSecond name g) {text : List Char}
    (htext : modelForms text = .ok (before ++ form :: behind)) {defined : Table (List Char) (List Char)}
    (h : definitions text = .ok defined) : defined.get? name = some value := by
  rw [definitions, htext] at h
  simp only [Except.bind, addDefinitions_append, addDefinitions_definition hform, if_true] at h
  cases hbefore : addDefinitions .empty before with
  | error u =>
    rw [hbefore] at h
    cases h
  | ok t =>
    rw [hbefore] at h
    have hnot : ∀ g ∈ behind, ∀ value, ¬GivesValue name value g :=
      fun g hg value hgives => hbehind g hg hgives.namesSecond
    rw [get?_addDefinitions_of_forall_not hnot h, Table.get?_insert, if_pos rfl]

/-! ### Variables under their spellings -/

/-- **A definition counts for the variable that is declared as the definition spells it.**  If it spells the symbol
of a variable in another way, the model is that of a text without this definition.  If it spells the symbol as it was
declared, and no definition behind it does, the variable has its value. -/
theorem Query.counts_as_spelled (f : Expr) {v : Variable} {symbol spelling : String}
    (hsymbol : (ofFormula f).symbols.get? v = some symbol) (hspelling : unquoted spelling = unquoted symbol)
    {sort value form : List Char} (hform : DefinitionOf [spelling.toList, ['(', ')'], sort, value] form)
    {before behind : List (List Char)} {text : String}
    (htext : modelForms text.toList = .ok (before ++ form :: behind)) :
    (spelling ≠ symbol → ∀ text' : String, modelForms text'.toList = .ok (before ++ behind) →
      Model.read text (ofFormula f).symbols = Model.read text' (ofFormula f).symbols) ∧
    (spelling = symbol → (∀ g ∈ behind, ¬NamesSecond symbol.toList g) →
      ∀ m, Model.read text (ofFormula f).symbols = .ok m →
        ∃ c, readValue v symbol value = .ok c ∧ m.get? v = some c) := by
  constructor
  · intro hne text' htext'
    refine Model.read_of_stranger (fun w symbol' hsymbol' h => ?_) hform htext htext'
    exact symbol_ne_spelling hsymbol hspelling hne hsymbol' (String.toList_inj.mp h)
  · rintro rfl hbehind m hm
    obtain ⟨defined, hdefined, hget⟩ := Model.get?_of_read hm
    have hvalue : defined.get? spelling.toList = some value := get?_definitions_of_last hform hbehind htext hdefined
    have hown : m.get? v = (readValue v spelling value).toOption := by
      rw [hget v, ownValue?, hsymbol, Option.bind_some, hvalue, Option.bind_some]
    have hreads : readValues defined .empty (symbolRows (ofFormula f).symbols) = .ok m := by
      rw [Model.read, hdefined] at hm
      exact hm
    obtain ⟨c, hc⟩ := exists_readValue_eq hreads (mem_symbolRows.mpr hsymbol) hvalue
    exact ⟨c, hc, by rw [hown, hc]; rfl⟩

/-- A variable whose name is a simple symbol and is not plain. -/
def sumVariable : Variable :=
  ⟨"a+b", .int, by decide⟩

/-- A formula about it. -/
def aboutSum : Expr :=
  .rel .gt (.var sumVariable) (.const (.int 0))

theorem get?_symbols_aboutSum : (Query.ofFormula aboutSum).symbols.get? sumVariable = some "|a+b|" := by
  decide +kernel

/-- Of two definitions the one that spells the symbol as it was declared counts. -/
theorem Query.counts_as_spelled_aboutSum : ∃ m,
    Model.read "((define-fun |a+b| () Int 4) (define-fun a+b () Int 3))" (ofFormula aboutSum).symbols = .ok m ∧
      m.get? sumVariable = some (.int 4) := by
  have hquoted : DefinitionOf ["|a+b|".toList, ['(', ')'], "Int".toList, ['4']]
      (parens "define-fun |a+b| () Int 4".toList) := ⟨_, rfl, by decide +kernel⟩
  have hsimple : DefinitionOf ["a+b".toList, ['(', ')'], "Int".toList, ['3']]
      (parens "define-fun a+b () Int 3".toList) := ⟨_, rfl, by decide +kernel⟩
  have hboth : modelForms "((define-fun |a+b| () Int 4) (define-fun a+b () Int 3))".toList =
      .ok ([parens "define-fun |a+b| () Int 4".toList] ++ parens "define-fun a+b () Int 3".toList :: []) := by
    decide +kernel
  have hone : modelForms "((define-fun |a+b| () Int 4))".toList =
      .ok ([] ++ parens "define-fun |a+b| () Int 4".toList :: []) := by decide +kernel
  have hread : Model.read "((define-fun |a+b| () Int 4))" (ofFormula aboutSum).symbols =
      .ok ⟨[(sumVariable, .int 4)]⟩ := by decide +kernel
  have hdropped := (counts_as_spelled aboutSum get?_symbols_aboutSum (by decide +kernel) hsimple hboth).1
    (by decide) "((define-fun |a+b| () Int 4))" hone
  obtain ⟨c, hc, hvalue⟩ := (counts_as_spelled aboutSum get?_symbols_aboutSum rfl hquoted hone).2 rfl
    (fun g hg => absurd hg List.not_mem_nil) _ hread
  have hfour : readValue sumVariable "|a+b|" ['4'] = .ok (.int 4) := by decide +kernel
  obtain rfl := Except.ok.inj (hc.symm.trans hfour)
  exact ⟨_, hdropped.trans hread, hvalue⟩

/-- Is the second text the first one, but for one definition that defines another name there? -/
def Respelled (name name' : List Char) (text text' : String) : Prop :=
  ∃ before behind form form' rest,
    modelForms text.toList = .ok (before ++ form :: behind) ∧
      modelForms text'.toList = .ok (before ++ form' :: behind) ∧
      DefinitionOf (name :: rest) form ∧ DefinitionOf (name' :: rest) form'

/-- Is a variable that is declared as a simple symbol found under both spellings of the symbol? -/
def SpellingsAlike : Prop :=
  ∀ (f : Expr) (v : Variable) (n : String), isSimpleSymbol n = true →
    ((Query.ofFormula f).symbols.get? v = some n ∨ (Query.ofFormula f).symbols.get? v = some ("|" ++ n ++ "|")) →
    ∀ text text' : String, Respelled n.toList ("|" ++ n ++ "|").toList text text' →
      Model.read text (Query.ofFormula f).symbols = Model.read text' (Query.ofFormula f).symbols

/-- **A variable is not found** under the standard spelling of its symbol, if it was declared in the other one. -/
theorem not_spellingsAlike :
    ¬SpellingsAlike ∧ ∃ m m',
      Model.read "((define-fun |a+b| () Int 3))" (Query.ofFormula aboutSum).symbols = .ok m ∧
      m.get? sumVariable = some (.int 3) ∧
      Model.read "((define-fun a+b () Int 3))" (Query.ofFormula aboutSum).symbols = .ok m' ∧
      m'.get? sumVariable = none := by
  have hquoted : modelForms "((define-fun |a+b| () Int 3))".toList =
      .ok ([] ++ parens "define-fun |a+b| () Int 3".toList :: []) := by decide +kernel
  have hsimple : modelForms "((define-fun a+b () Int 3))".toList =
      .ok ([] ++ parens "define-fun a+b () Int 3".toList :: []) := by decide +kernel
  have hread : Model.read "((define-fun |a+b| () Int 3))" (Query.ofFormula aboutSum).symbols =
      .ok ⟨[(sumVariable, .int 3)]⟩ := by decide +kernel
  have hread' : Model.read "((define-fun a+b () Int 3))" (Query.ofFormula aboutSum).symbols = .ok .empty := by
    decide +kernel
  refine ⟨fun h => ?_, _, _, hread, by decide +kernel, hread', by decide +kernel⟩
  have hrespelled : Respelled "a+b".toList "|a+b|".toList "((define-fun a+b () Int 3))"
      "((define-fun |a+b| () Int 3))" :=
    ⟨[], [], _, _, [['(', ')'], "Int".toList, ['3']], hsimple, hquoted, ⟨_, rfl, by decide +kernel⟩,
      ⟨_, rfl, by decide +kernel⟩⟩
  have hsame := h aboutSum sumVariable "a+b" (by decide +kernel) (.inr get?_symbols_aboutSum) _ _ hrespelled
  rw [hread, hread'] at hsame
  cases hsame

end SmtCount
