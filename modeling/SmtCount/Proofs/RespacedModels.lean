import Mathlib
import SmtCount.Proofs.Respacing

/-!
# Models in other layouts

How a text is laid out does not matter for the model that is read from it, as long as the pairs of parentheses
with nothing inside stay as they are.  The parameters of a definition are compared as a text with such a pair, so a
definition with a blank in the pair is taken for one with parameters, and its value is lost.

## Main definitions

* `LayoutInsensitive` — no change of blanks matters, between two parentheses neither.

## Main results

* `similarity_respaced` — forms with other blanks are taken apart alike.
* `Model.read_respaced` — **a text with other blanks is read alike.**
* `not_layoutInsensitive` — the exception.
-/

namespace SmtCount

/-! ### Beginnings of definitions -/

section Beginnings

variable {blanks blanks' behind : List Char} {word : List Char} (hblanks : AreBlanks blanks)
  (hblanks' : AreBlanks blanks') (hword : ∀ c ∈ word, IsPlainChar c)

/-- A word does not go on where there is a blank, a parenthesis or nothing. -/
theorem isPrefixOf_blanks_append {d : Char} (hd : IsPlainChar d) (hblanks : AreBlanks blanks)
    (h : blanks ≠ [] ∨ ∀ c ∈ behind.head?, IsParen c) : (d :: word).isPrefixOf (blanks ++ behind) = false := by
  have hne {c : Char} {cs : List Char} (hc : c ≠ d) : (d :: word).isPrefixOf (c :: cs) = false := by
    rw [List.isPrefixOf_cons_cons, beq_eq_false_iff_ne.mpr hc.symm, Bool.false_and]
  by_cases hnil : blanks = []
  · subst hnil
    rw [List.nil_append]
    cases behind with
    | nil => rfl
    | cons c behind =>
      have hparen : IsParen c := (h.resolve_left (· rfl)) c rfl
      exact hne fun hc => not_isParen_of_isPlainChar hd (hc ▸ hparen)
  · obtain ⟨c, cs, hcs, hc⟩ := hblanks.head? hnil behind
    rw [hcs]
    exact hne fun heq => Bool.false_ne_true (hd.1.symm.trans (heq ▸ hc))

include hblanks hblanks' hword

/-- A text with other blanks, but not in front, begins with the same word. -/
theorem isPrefixOf_respace {before : List Char} (hne : before ≠ [])
    (hplace : (blanks ≠ [] ∧ blanks' ≠ []) ∨ FreePlace before behind) :
    word.isPrefixOf (before ++ (blanks' ++ behind)) = word.isPrefixOf (before ++ (blanks ++ behind)) := by
  induction before generalizing word with
  | nil => exact absurd rfl hne
  | cons c before ih =>
    cases word with
    | nil => rfl
    | cons d word =>
      obtain ⟨hd, hword⟩ := List.forall_mem_cons.mp hword
      rw [List.cons_append, List.cons_append, List.isPrefixOf_cons_cons, List.isPrefixOf_cons_cons]
      by_cases hdc : d = c
      · subst hdc
        refine congrArg _ ?_
        by_cases hnil : before = []
        · subst hnil
          cases word with
          | nil => rfl
          | cons e word =>
            have he := hword e List.mem_cons_self
            have hends : (blanks ≠ [] ∧ blanks' ≠ []) ∨ ∀ c ∈ behind.head?, IsParen c :=
              hplace.imp_right fun h => h.edge.resolve_left fun hlast =>
                not_isParen_of_isPlainChar hd (hlast d rfl)
            rw [List.nil_append, List.nil_append, isPrefixOf_blanks_append he hblanks' (hends.imp_left And.right),
              isPrefixOf_blanks_append he hblanks (hends.imp_left And.left)]
        · exact ih hword hnil (hplace.imp_right fun h => .of_append [d] h)
      · rw [beq_eq_false_iff_ne.mpr hdc, Bool.false_and, Bool.false_and]

/-- Behind the blanks in front, a text with other blanks begins with the same word. -/
theorem isPrefixOf_trimStart_respace {before : List Char}
    (hplace : (blanks ≠ [] ∧ blanks' ≠ []) ∨ FreePlace before behind) :
    word.isPrefixOf (Text.trimStart (before ++ (blanks' ++ behind))) =
      word.isPrefixOf (Text.trimStart (before ++ (blanks ++ behind))) := by
  induction before with
  | nil => rw [List.nil_append, List.nil_append, trimStart_blanks hblanks', trimStart_blanks hblanks]
  | cons c before ih =>
    cases hc : Text.isBlank c with
    | true =>
      rw [List.cons_append, List.cons_append, Text.trimStart_cons_of_isBlank hc, Text.trimStart_cons_of_isBlank hc]
      exact ih (hplace.imp_right fun h => .of_append [c] h)
    | false =>
      have hsame := isPrefixOf_respace hblanks hblanks' hword (List.cons_ne_nil c before) hplace
      rwa [List.cons_append, List.cons_append, Text.trimStart_cons_of_not_isBlank hc,
        Text.trimStart_cons_of_not_isBlank hc]

end Beginnings

/-- A form is a definition if and only if it is one with other blanks. -/
theorem isDefinition_respaced {body body' : List Char} (h : Respaced FreePlace body body') :
    isDefinition (parens body') = isDefinition (parens body) := by
  obtain ⟨-, hblanks, hblanks', hplace⟩ := h
  rw [isDefinition, isDefinition, inside?_parens, inside?_parens]
  exact isPrefixOf_trimStart_respace hblanks hblanks' isPlainChar_of_mem_defineFun hplace

/-! ### Other layouts -/

/-- **Forms with other blanks are taken apart alike.** -/
theorem similarity_respaced : Similarity RespacedForm where
  isDefinition_eq := by
    intro f f' h
    cases h with
    | atom _ => rfl
    | parens _ _ hbody =>
      cases hbody with
      | refl => rfl
      | single h => exact isDefinition_respaced h
  apart := by
    intro f f' h
    cases h with
    | atom ha => exact .inl ⟨ha, rfl⟩
    | @parens body body' hbalanced hnil hbody =>
      refine .inr ⟨body, body', rfl, rfl, hnil, ?_⟩
      cases hbody with
      | refl =>
        cases hsplit : splitForms body with
        | error u => exact .error u u
        | ok forms => exact .ok (forall₂_respacedForm (isForm_of_mem_splitForms hsplit))
      | single h => exact splitForms_respaced h

/-- Next to a parenthesis blanks are as good as none, but for a pair of parentheses with nothing inside. -/
theorem NextToParen.freePlace {before behind : List Char} (h : NextToParen before behind)
    (hpair : ¬(before.getLast? = some '(' ∧ behind.head? = some ')')) : FreePlace before behind where
  edge := by
    rcases h with ⟨c, hc, hparen⟩ | ⟨c, hc, hparen⟩
    · exact .inl fun d hd => Option.mem_unique hc hd ▸ hparen
    · exact .inr fun d hd => Option.mem_unique hc hd ▸ hparen
  not_pair := hpair

theorem FreePlace.before_open (before behind : List Char) : FreePlace before ('(' :: behind) :=
  NextToParen.freePlace (.inr ⟨'(', rfl, .inl rfl⟩) fun h => by cases h.2

/-- A text with other blanks in one place. -/
theorem Respaced.of_eq {place : List Char → List Char → Prop} {text text' : List Char}
    (before blanks blanks' behind : List Char) (htext : before ++ (blanks ++ behind) = text)
    (htext' : before ++ (blanks' ++ behind) = text') (heven : Even (before.count '|')) (hblanks : AreBlanks blanks)
    (hblanks' : AreBlanks blanks') (hplace : (blanks ≠ [] ∧ blanks' ≠ []) ∨ place before behind) :
    Respaced place text text' :=
  htext ▸ htext' ▸ .intro heven hblanks hblanks' hplace

/-- **A text with other blanks is read alike**, as the same model or with an error of the same kind.  The blanks
may be changed in any number of places that are not between two parentheses with nothing inside, and no symbol of the
table may be in parentheses. -/
theorem Model.read_respaced {symbols : Table Variable String}
    (hsymbols : ∀ v s, symbols.get? v = some s → inside? s.toList = none) {output output' : String}
    (h : Relation.ReflTransGen (Respaced FreePlace) output.toList output'.toList) :
    SameResult (Model.read output symbols) (Model.read output' symbols) := by
  generalize htext : output'.toList = text at h
  induction h generalizing output' with
  | refl =>
    obtain rfl := String.toList_inj.mp htext
    exact .refl _
  | @tail text text' _ hstep ih =>
    have hmiddle : (String.ofList text).toList = text := String.toList_ofList
    refine (ih hmiddle).trans (similarity_respaced.read hsymbols ?_)
    rw [hmiddle, htext]
    exact splitForms_respaced hstep

theorem isName_x : IsName "x" := by decide

/-- A variable that is its own symbol. -/
def plainVariable : Variable :=
  ⟨"x", .int, isName_x⟩

/-- The table of this symbol. -/
def plainSymbols : Table Variable String :=
  .ofRows [(plainVariable, "x")]

/-- A definition on a line of its own, without blanks in front of parentheses. -/
theorem Model.read_compact : ∃ m,
    Model.read "(model (define-fun x () Int (- 5)))" plainSymbols = .ok m ∧
      Model.read "(model\n (define-fun x() Int(- 5)))" plainSymbols = .ok m ∧
      m.get? plainVariable = some (.int (-5)) := by
  have hsymbols : ∀ v s, plainSymbols.get? v = some s → inside? s.toList = none := by
    intro v s hs
    have hvalue : s ∈ ["x"] := Table.mem_values_of_get? hs
    obtain rfl := List.mem_singleton.mp hvalue
    decide
  have hline : Respaced FreePlace "(model (define-fun x () Int (- 5)))".toList
      "(model\n (define-fun x () Int (- 5)))".toList :=
    .of_eq "(model".toList [' '] ['\n', ' '] "(define-fun x () Int (- 5)))".toList (by decide +kernel)
      (by decide +kernel) (by decide +kernel) (by decide) (by decide) (.inl (by decide))
  have hname : Respaced FreePlace "(model\n (define-fun x () Int (- 5)))".toList
      "(model\n (define-fun x() Int (- 5)))".toList :=
    .of_eq "(model\n (define-fun x".toList [' '] [] ('(' :: ") Int (- 5)))".toList) (by decide +kernel)
      (by decide +kernel) (by decide +kernel) (by decide) (by decide)
      (.inr (.before_open _ _))
  have hvalue : Respaced FreePlace "(model\n (define-fun x() Int (- 5)))".toList
      "(model\n (define-fun x() Int(- 5)))".toList :=
    .of_eq "(model\n (define-fun x() Int".toList [' '] [] ('(' :: "- 5)))".toList) (by decide +kernel)
      (by decide +kernel) (by decide +kernel) (by decide) (by decide)
      (.inr (.before_open _ _))
  have hsame := Model.read_respaced hsymbols (((Relation.ReflTransGen.single hline).tail hname).tail hvalue)
  have hread : Model.read "(model (define-fun x () Int (- 5)))" plainSymbols =
      .ok ⟨[(plainVariable, .int (-5))]⟩ := by decide +kernel
  rw [hread] at hsame
  generalize hcompact : Model.read "(model\n (define-fun x() Int(- 5)))" plainSymbols = compact at hsame
  cases hsame
  exact ⟨_, hread, rfl, by decide +kernel⟩

/-! ### Blanks in a pair of parentheses -/

/-- Does no change of blanks matter that replaces a run by another run, or is next to a parenthesis? -/
def LayoutInsensitive : Prop :=
  ∀ (symbols : Table Variable String) (output output' : String),
    Relation.ReflTransGen (Respaced NextToParen) output.toList output'.toList →
      SameResult (Model.read output symbols) (Model.read output' symbols)

/-- A definition is passed over if there are blanks in place of its parameters. -/
theorem addDefinitions_of_blank_parameters {name blanks sort value form : List Char} (hne : blanks ≠ [])
    (h : DefinitionOf [name, parens blanks, sort, value] form) (t : Table (List Char) (List Char))
    (forms : List (List Char)) : addDefinitions t (form :: forms) = addDefinitions t forms := by
  have hparameters : parens blanks ≠ ['(', ')'] := fun heq => hne (parens_injective (heq : _ = parens []))
  rw [addDefinitions_definition h, if_neg hparameters]

/-- **A blank between two parentheses can lose a value.** -/
theorem not_layoutInsensitive :
    ¬LayoutInsensitive ∧ ∃ m m',
      Model.read "((define-fun x () Int 1))" plainSymbols = .ok m ∧ m.get? plainVariable = some (.int 1) ∧
      Model.read "((define-fun x ( ) Int 1))" plainSymbols = .ok m' ∧ m'.get? plainVariable = none := by
  have hread : Model.read "((define-fun x () Int 1))" plainSymbols = .ok ⟨[(plainVariable, .int 1)]⟩ := by
    decide +kernel
  have hread' : Model.read "((define-fun x ( ) Int 1))" plainSymbols = .ok .empty := by decide +kernel
  refine ⟨fun h => ?_, _, _, hread, by decide +kernel, hread', by decide +kernel⟩
  have hblank : Respaced NextToParen "((define-fun x () Int 1))".toList "((define-fun x ( ) Int 1))".toList :=
    .of_eq "((define-fun x (".toList [] [' '] (')' :: " Int 1))".toList) (by decide +kernel) (by decide +kernel)
      (by decide +kernel) (by decide) (by decide) (.inr (.inr ⟨')', rfl, .inr rfl⟩))
  have hsame := h plainSymbols _ _ (.single hblank)
  rw [hread, hread'] at hsame
  cases hsame

end SmtCount
