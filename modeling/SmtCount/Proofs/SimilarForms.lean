import Mathlib
import SmtCount.Proofs.ModelText
import SmtCount.Proofs.Rendering

/-!
# Forms that are taken apart alike

A model is read by taking forms apart, level by level, and a text is only looked at as a whole where it is an
atom.  So two texts are read as the same model if their forms correspond to each other, and those inside them,
and so on, until there are atoms on both sides, which are equal.

Such a correspondence is a relation between forms that is kept by taking apart.  Two texts of corresponding forms
have the same model or the same kind of error; the places in an error and the texts that it quotes are those of
each text.

## Main definitions

* `Agree R x y` — two results are both errors, or values that are related by `R`.
* `Similarity R` — related forms are equal atoms, or have related forms inside.
* `SimilarTables R t t'` — the tables have related values under each name that is not in parentheses.
* `integerOfParts`, `realOfParts?` — the numbers that are written in parentheses.
* `SameResult` — two results of reading are the same value, or errors of the same kind.

## Main results

* `Similarity.definitions` — similar forms define similar values.
* `Similarity.readInt`, `Similarity.readReal?` — similar values are the same number.
* `Similarity.read` — **texts of similar forms are read alike.**
-/

namespace SmtCount

/-! ### Results that agree -/

/-- Are the results both errors, or values that belong together? -/
inductive Agree {ε ε' α β : Type} (R : α → β → Prop) : Except ε α → Except ε' β → Prop
  | ok {a : α} {b : β} : R a b → Agree R (.ok a) (.ok b)
  | error (e : ε) (e' : ε') : Agree R (.error e) (.error e')

namespace Agree

variable {ε ε' α β γ δ : Type} {R : α → β → Prop} {Q : γ → δ → Prop} {x : Except ε α} {y : Except ε' β}

theorem refl (x : Except ε α) : Agree Eq x x := by
  cases x with
  | error e => exact .error e e
  | ok a => exact .ok rfl

/-- What is equal to something agrees with whatever that agrees with. -/
theorem trans {z : Except ε' α} (h : Agree Eq x z) (h' : Agree R z y) : Agree R x y := by
  cases h with
  | ok heq =>
    subst heq
    cases h' with
    | ok hR => exact .ok hR
  | error e _ =>
    cases h' with
    | error _ e' => exact .error e e'

theorem eq_ok_iff {z : Except ε' α} (h : Agree Eq x z) {a : α} : x = .ok a ↔ z = .ok a := by
  cases h with
  | ok heq =>
    subst heq
    simp
  | error e e' => simp

theorem bind {f : α → Except ε γ} {g : β → Except ε' δ} (h : Agree R x y)
    (hf : ∀ a b, x = .ok a → R a b → Agree Q (f a) (g b)) : Agree Q (x.bind f) (y.bind g) := by
  cases h with
  | ok hR => exact hf _ _ rfl hR
  | error e e' => exact .error e e'

theorem map {f : α → γ} {g : β → δ} (h : Agree R x y) (hf : ∀ a b, x = .ok a → R a b → Q (f a) (g b)) :
    Agree Q (x.map f) (y.map g) := by
  cases h with
  | ok hR => exact .ok (hf _ _ rfl hR)
  | error e e' => exact .error e e'

end Agree

/-! ### Forms of forms -/

/-- What a text is taken apart into are forms. -/
theorem isForm_of_mem_splitForms {text : List Char} {forms : List (List Char)}
    (h : splitForms text = .ok forms) : ∀ f ∈ forms, IsForm f := by
  have hlaid := splitForms_eq_ok_iff.mp h
  clear h
  induction hlaid with
  | nil => exact fun f hf => absurd hf List.not_mem_nil
  | blank _ _ ih => exact ih
  | atom ha _ _ ih => exact List.forall_mem_cons.mpr ⟨.inl ha, ih⟩
  | parens hbody _ ih => exact List.forall_mem_cons.mpr ⟨.inr ⟨_, hbody, rfl⟩, ih⟩

theorem parens_injective : Function.Injective parens := fun body body' h => by
  have hinside := congrArg inside? h
  rw [inside?_parens, inside?_parens] at hinside
  exact Option.some.inj hinside

theorem isPlainChar_of_mem_defineFun : ∀ c ∈ "define-fun".toList, IsPlainChar c := by
  have hplain : "define-fun".toList.all Variable.continuesPlain = true := by decide
  exact fun c hc => Variable.isPlainChar_of_continuesPlain (List.all_eq_true.mp hplain c hc)

/-- The integer that is written as these parts: a sign and a numeral. -/
def integerOfParts : List (List Char) → Except Text.IntegerError Int64
  | [op, value] => if op = ['-'] then Text.readInt64 ('-' :: value) else .error .invalidDigit
  | _ => .error .invalidDigit

theorem readInt_parens (body : List Char) : readInt (parens body) = (splitForms body).map integerOfParts := by
  rw [readInt, joinMinus, inside?_parens]
  dsimp only
  cases splitForms body with
  | error u => rfl
  | ok parts =>
    refine congrArg Except.ok ?_
    rcases parts with _ | ⟨op, _ | ⟨value, _ | ⟨_, _⟩⟩⟩
    · rfl
    · rfl
    · dsimp only [integerOfParts]
      split <;> rfl
    · rfl

/-- The real that is written as these parts: the negation of a value, or the quotient of two. -/
def realOfParts? : List (List Char) → Option Binary64
  | [op, a] => if op = ['-'] then (readReal? a).map Binary64.neg else none
  | [op, a, b] => if op = ['/'] then (readReal? a).bind fun x => (readReal? b).map fun y => x.div y else none
  | _ => none

theorem readReal?_parens (body : List Char) :
    readReal? (parens body) = (splitForms body).toOption.bind realOfParts? := by
  rw [readReal?]
  split
  · rename_i hbody
    rw [inside?_parens] at hbody
    cases hbody
  · rename_i hbody
    rw [inside?_parens] at hbody
    obtain rfl := Option.some.inj hbody
    split
    · rename_i hparts
      rw [hparts]
      rfl
    · rename_i hparts
      rw [hparts]
      change _ = ite _ _ _
      split
      · split
        · rename_i hx hy
          rw [hx, hy]
          rfl
        · rename_i hother
          cases hx : readReal? _ with
          | none => rfl
          | some x =>
            cases hy : readReal? _ with
            | none => rfl
            | some y => exact absurd hy (hother x y hx)
      · rfl
    · rename_i hone htwo
      cases hparts : splitForms body with
      | error u => rfl
      | ok parts =>
        rcases parts with _ | ⟨op, _ | ⟨a, _ | ⟨b, _ | ⟨_, _⟩⟩⟩⟩
        · rfl
        · rfl
        · exact absurd hparts (hone op a)
        · exact absurd hparts (htwo op a b)
        · rfl

/-! ### Results of reading -/

/-- Are the errors of one kind?  An error of a value is about the same variable, and an integer is refused for
the same reason. -/
inductive ModelError.SameKind : ModelError → ModelError → Prop
  | unbalanced (place place' : Unbalanced) : SameKind (.unbalanced place) (.unbalanced place')
  | integer (name text text' : String) (cause : Text.IntegerError) :
    SameKind (.integer name text cause) (.integer name text' cause)
  | real (name text text' : String) : SameKind (.real name text) (.real name text')

/-- Are the results the same value, or errors of the same kind? -/
inductive SameResult {α : Type} : Except ModelError α → Except ModelError α → Prop
  | ok (a : α) : SameResult (.ok a) (.ok a)
  | error {e e' : ModelError} : e.SameKind e' → SameResult (.error e) (.error e')

theorem ModelError.SameKind.trans {e e' e'' : ModelError} (h : e.SameKind e') (h' : e'.SameKind e'') :
    e.SameKind e'' := by
  cases h with
  | unbalanced place _ =>
    cases h' with
    | unbalanced _ place'' => exact .unbalanced place place''
  | integer name text _ cause =>
    cases h' with
    | integer _ _ text'' _ => exact .integer name text text'' cause
  | real name text _ =>
    cases h' with
    | real _ _ text'' => exact .real name text text''

namespace SameResult

variable {α β : Type} {x y z : Except ModelError α}

theorem refl (x : Except ModelError α) : SameResult x x := by
  cases x with
  | ok a => exact .ok a
  | error e =>
    refine .error ?_
    cases e with
    | unbalanced place => exact .unbalanced place place
    | integer name text cause => exact .integer name text text cause
    | real name text => exact .real name text text

theorem trans (h : SameResult x y) (h' : SameResult y z) : SameResult x z := by
  cases h with
  | ok a => exact h'
  | error he =>
    cases h' with
    | error he' => exact .error (he.trans he')

theorem bind {f g : α → Except ModelError β} (h : SameResult x y) (hf : ∀ a, SameResult (f a) (g a)) :
    SameResult (x.bind f) (y.bind g) := by
  cases h with
  | ok a => exact hf a
  | error he => exact .error he

theorem agree (h : SameResult x y) : Agree Eq x y := by
  cases h with
  | ok a => exact .ok rfl
  | error _ => exact .error _ _

end SameResult

/-! ### Similar forms -/

/-- Do these tables have values under the same names, and related ones?  Names in parentheses do not count. -/
def SimilarTables (R : List Char → List Char → Prop) (t t' : Table (List Char) (List Char)) : Prop :=
  ∀ name, inside? name = none → Option.Rel R (t.get? name) (t'.get? name)

/-- Is this relation between forms kept by taking them apart?  Related forms are equal atoms, or in parentheses
with related forms inside, and if there is nothing at all inside one of them, so it is with the other. -/
structure Similarity (R : List Char → List Char → Prop) : Prop where
  isDefinition_eq {f f' : List Char} : R f f' → isDefinition f' = isDefinition f
  apart {f f' : List Char} : R f f' → (IsAtom f ∧ f' = f) ∨
    ∃ body body', f = parens body ∧ f' = parens body' ∧ (body' = [] ↔ body = []) ∧
      Agree (List.Forall₂ R) (splitForms body) (splitForms body')

namespace Similarity

variable {R : List Char → List Char → Prop} (hR : Similarity R) {f f' : List Char}

include hR

/-- A name that is not in parentheses is related to itself only. -/
theorem eq_iff (h : R f f') {name : List Char} (hname : inside? name = none) : f' = name ↔ f = name := by
  have hne (body : List Char) : parens body ≠ name := by
    rintro rfl
    rw [inside?_parens] at hname
    cases hname
  rcases hR.apart h with ⟨-, rfl⟩ | ⟨body, body', rfl, rfl, -⟩
  · rfl
  · exact iff_of_false (hne body') (hne body)

theorem eq_parens_nil_iff (h : R f f') : f' = ['(', ')'] ↔ f = ['(', ')'] := by
  change f' = parens [] ↔ f = parens []
  rcases hR.apart h with ⟨-, rfl⟩ | ⟨body, body', rfl, rfl, hnil, -⟩
  · rfl
  · rw [parens_injective.eq_iff, parens_injective.eq_iff, hnil]

/-- The forms of two models are similar if the forms of their texts are. -/
theorem modelForms {text text' : List Char}
    (h : Agree (List.Forall₂ R) (splitForms text) (splitForms text')) :
    Agree (List.Forall₂ R) (modelForms text) (modelForms text') := by
  refine h.bind fun forms forms' _ hforms => ?_
  match forms, forms', hforms with
  | [], _, .nil => exact .ok .nil
  | _ :: _ :: _, _, .cons h₁ (.cons h₂ hrest) => exact .ok (.cons h₁ (.cons h₂ hrest))
  | [single], _, .cons (b := single') hsingle .nil =>
    dsimp only
    rw [hR.isDefinition_eq hsingle]
    split
    · exact .ok (.cons hsingle .nil)
    · rcases hR.apart hsingle with ⟨hatom, rfl⟩ | ⟨body, body', rfl, rfl, -, hbody⟩
      · rw [inside?_of_isAtom hatom]
        exact .ok (.cons hsingle .nil)
      · rw [inside?_parens, inside?_parens]
        exact hbody

theorem definedValue? {parts parts' : List (List Char)} (h : List.Forall₂ R parts parts') :
    Option.Rel (fun d d' => R d.1 d'.1 ∧ R d.2 d'.2) (definedValue? parts) (definedValue? parts') := by
  match parts, parts', h with
  | [_, _, _, _, _], _, .cons _ (.cons hname (.cons hparameters (.cons _ (.cons hvalue .nil)))) =>
    simp only [SmtCount.definedValue?, hR.eq_parens_nil_iff hparameters]
    split
    · exact .some ⟨hname, hvalue⟩
    · exact .none
  | [], _, .nil => exact .none
  | [_], _, .cons _ .nil => exact .none
  | [_, _], _, .cons _ (.cons _ .nil) => exact .none
  | [_, _, _], _, .cons _ (.cons _ (.cons _ .nil)) => exact .none
  | [_, _, _, _], _, .cons _ (.cons _ (.cons _ (.cons _ .nil))) => exact .none
  | _ :: _ :: _ :: _ :: _ :: _ :: _, _, .cons _ (.cons _ (.cons _ (.cons _ (.cons _ (.cons _ _))))) =>
    exact .none

/-- Similar forms define related values under related names. -/
theorem definition? (h : R f f') :
    Agree (Option.Rel fun d d' => R d.1 d'.1 ∧ R d.2 d'.2) (definition? f) (definition? f') := by
  rw [SmtCount.definition?, SmtCount.definition?, hR.isDefinition_eq h]
  rcases hR.apart h with ⟨hatom, rfl⟩ | ⟨body, body', rfl, rfl, -, hbody⟩
  · rw [inside?_of_isAtom hatom]
    exact .ok .none
  · rw [inside?_parens, inside?_parens]
    dsimp only
    split
    · exact hbody.map fun _ _ _ hparts => hR.definedValue? hparts
    · exact .ok .none

theorem define {t t' : Table (List Char) (List Char)} (h : SimilarTables R t t')
    {d d' : Option (List Char × List Char)} (hd : Option.Rel (fun d d' => R d.1 d'.1 ∧ R d.2 d'.2) d d') :
    SimilarTables R (define t d) (define t' d') := by
  cases hd with
  | none => exact h
  | @some d d' hd =>
    intro a ha
    rw [SmtCount.define, SmtCount.define, Table.get?_insert, Table.get?_insert]
    by_cases hname : d.1 = a
    · rw [if_pos hname, if_pos ((hR.eq_iff hd.1 ha).mpr hname)]
      exact .some hd.2
    · rw [if_neg hname, if_neg fun hname' => hname ((hR.eq_iff hd.1 ha).mp hname')]
      exact h a ha

/-- **Similar forms define similar values.** -/
theorem addDefinitions {forms forms' : List (List Char)} (hforms : List.Forall₂ R forms forms')
    {t t' : Table (List Char) (List Char)} (h : SimilarTables R t t') :
    Agree (SimilarTables R) (addDefinitions t forms) (addDefinitions t' forms') := by
  induction hforms generalizing t t' with
  | nil => exact .ok h
  | cons hf _ ih =>
    rw [addDefinitions_cons, addDefinitions_cons]
    exact (hR.definition? hf).bind fun d d' _ hd => ih (hR.define h hd)

theorem definitions {text text' : List Char}
    (h : Agree (List.Forall₂ R) (splitForms text) (splitForms text')) :
    Agree (SimilarTables R) (definitions text) (definitions text') :=
  (hR.modelForms h).bind fun _ _ _ hforms => hR.addDefinitions hforms fun _ _ => .none

/-! ### Similar values -/

/-- Behind a sign only an atom is an integer. -/
theorem readInt64_minus (h : R f f') : Text.readInt64 ('-' :: f') = Text.readInt64 ('-' :: f) := by
  rcases hR.apart h with ⟨-, rfl⟩ | ⟨body, body', rfl, rfl, -⟩
  · rfl
  · rfl

theorem readInt (h : R f f') : Agree Eq (readInt f) (readInt f') := by
  rcases hR.apart h with ⟨-, rfl⟩ | ⟨body, body', rfl, rfl, -, hbody⟩
  · exact .refl _
  · rw [readInt_parens, readInt_parens]
    refine hbody.map fun parts parts' _ hparts => ?_
    match parts, parts', hparts with
    | [op, value], _, .cons hop (.cons hvalue .nil) =>
      simp only [integerOfParts, hR.eq_iff hop (inside?_of_isAtom isAtom_minus), hR.readInt64_minus hvalue]
    | [], _, .nil => rfl
    | [_], _, .cons _ .nil => rfl
    | _ :: _ :: _ :: _, _, .cons _ (.cons _ (.cons _ _)) => rfl

theorem readReal? (h : R f f') : readReal? f' = readReal? f := by
  induction hlength : f.length using Nat.strong_induction_on generalizing f f' with
  | _ n ih =>
    subst hlength
    rcases hR.apart h with ⟨-, rfl⟩ | ⟨body, body', rfl, rfl, -, hbody⟩
    · rfl
    · rw [readReal?_parens, readReal?_parens]
      cases hparts : splitForms body with
      | error u =>
        rw [hparts] at hbody
        generalize splitForms body' = split' at hbody ⊢
        cases hbody
        rfl
      | ok parts =>
        rw [hparts] at hbody
        generalize splitForms body' = split' at hbody ⊢
        obtain ⟨hforms⟩ := hbody
        rename_i parts'
        -- what is inside is shorter
        have hread {a a' : List Char} (ha : a ∈ parts) (haa' : R a a') :
            SmtCount.readReal? a' = SmtCount.readReal? a :=
          ih a.length (shorter (inside?_parens body) hparts ha) haa' rfl
        clear hparts
        change realOfParts? parts' = realOfParts? parts
        match parts, parts', hforms, @hread with
        | [op, a], _, .cons hop (.cons ha .nil), hread =>
          simp only [realOfParts?, hR.eq_iff hop (inside?_of_isAtom isAtom_minus), hread (by simp) ha]
        | [op, a, b], _, .cons hop (.cons ha (.cons hb .nil)), hread =>
          have hover : inside? ['/'] = none := rfl
          simp only [realOfParts?, hR.eq_iff hop hover, hread (by simp) ha, hread (by simp) hb]
        | [], _, .nil, _ => rfl
        | [_], _, .cons _ .nil, _ => rfl
        | _ :: _ :: _ :: _ :: _, _, .cons _ (.cons _ (.cons _ (.cons _ _))), _ => rfl

theorem readValue (v : Variable) (name : String) (h : R f f') :
    SameResult (readValue v name f) (readValue v name f') := by
  unfold SmtCount.readValue
  cases v.sort with
  | int =>
    have hint := hR.readInt h
    dsimp only
    generalize SmtCount.readInt f = r at hint ⊢
    generalize SmtCount.readInt f' = r' at hint ⊢
    cases hint with
    | error u u' => exact .error (.unbalanced u u')
    | @ok value _ hvalue =>
      subst hvalue
      cases value with
      | error e => exact .error (.integer name _ _ e)
      | ok n => exact .ok _
  | real =>
    dsimp only
    rw [hR.readReal? h]
    cases SmtCount.readReal? f with
    | none => exact .error (.real name _ _)
    | some x => exact .ok _

/-! ### Similar models -/

/-- From tables of similar values the same values are read for variables whose symbols are not in parentheses. -/
theorem readValues {defined defined' : Table (List Char) (List Char)} (h : SimilarTables R defined defined')
    {vars : List (Variable × String)} (hvars : ∀ v name, (v, name) ∈ vars → inside? name.toList = none)
    (m : Model) : SameResult (readValues defined m vars) (readValues defined' m vars) := by
  induction vars generalizing m with
  | nil => exact .ok m
  | cons r vars ih =>
    obtain ⟨v, name⟩ := r
    have hrest := fun w symbol hw => hvars w symbol (List.mem_cons_of_mem _ hw)
    rw [SmtCount.readValues, SmtCount.readValues]
    have hget := h _ (hvars v name List.mem_cons_self)
    generalize defined.get? name.toList = value at hget ⊢
    generalize defined'.get? name.toList = value' at hget ⊢
    cases hget with
    | none => exact ih hrest m
    | some hvalue => exact (hR.readValue v name hvalue).bind fun c => ih hrest (m.insert v c)

/-- **Texts of similar forms are read alike**: as the same model, or with an error of the same kind. -/
theorem read {symbols : Table Variable String}
    (hsymbols : ∀ v s, symbols.get? v = some s → inside? s.toList = none) {output output' : String}
    (h : Agree (List.Forall₂ R) (splitForms output.toList) (splitForms output'.toList)) :
    SameResult (Model.read output symbols) (Model.read output' symbols) := by
  have hdefinitions := hR.definitions h
  rw [Model.read, Model.read]
  generalize SmtCount.definitions output.toList = d at hdefinitions ⊢
  generalize SmtCount.definitions output'.toList = d' at hdefinitions ⊢
  cases hdefinitions with
  | error u u' => exact .error (.unbalanced u u')
  | ok htables => exact hR.readValues htables (fun v s hv => hsymbols v s (mem_symbolRows.mp hv)) _

end Similarity

end SmtCount
