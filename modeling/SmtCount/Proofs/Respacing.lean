import Mathlib
import SmtCount.Proofs.SimilarForms

/-!
# Texts with other blanks

A text can be laid out in another way: a run of blanks outside of bars may be replaced by another run, and blanks
may be added or removed there next to a parenthesis, or at an end of the text.  All but one of these changes leave
the forms of the text what they are, up to changes of the same sort inside of parentheses.  The exception are
the blanks in a pair of parentheses with nothing else inside: there they make the difference between nothing and
something.

A change is a cut through the text, and no bar is open at the cut.  So the cut never goes through a symbol between
bars, and the induction is on how the text is laid out: the cut is before, inside or behind its first form.

## Main definitions

* `Respaced place text text'` — the texts differ in one run of blanks; where `place` holds, a run may be empty.
* `NextToParen`, `FreePlace` — next to a parenthesis, and where blanks are as good as none.
* `RespacedForm f f'` — the forms are equal atoms, or in parentheses with one such difference inside.

## Main results

* `Balanced.respace` — other blanks do not change what may stand between parentheses.
* `LaidOut.respace` — a text with other blanks has the same forms, with other blanks inside.
* `splitForms_respaced` — **a text with other blanks is taken apart in the same way.**
-/

namespace SmtCount

/-! ### Changes of blanks -/

/-- Is the character a parenthesis? -/
def IsParen (c : Char) : Prop :=
  c = '(' ∨ c = ')'

instance : DecidablePred IsParen :=
  fun c => inferInstanceAs (Decidable (c = '(' ∨ c = ')'))

/-- Are these blanks, or nothing? -/
def AreBlanks (cs : List Char) : Prop :=
  ∀ c ∈ cs, Text.isBlank c = true

instance : DecidablePred AreBlanks :=
  fun cs => decidable_of_iff (cs.all Text.isBlank = true) List.all_eq_true

/-- Do the texts differ in one run of blanks outside of bars?  Either run may be empty only where `place` holds of
what is before and behind. -/
inductive Respaced (place : List Char → List Char → Prop) : List Char → List Char → Prop
  | intro {before blanks blanks' behind : List Char} : Even (before.count '|') → AreBlanks blanks →
    AreBlanks blanks' → (blanks ≠ [] ∧ blanks' ≠ []) ∨ place before behind →
    Respaced place (before ++ (blanks ++ behind)) (before ++ (blanks' ++ behind))

/-- Is a parenthesis next to this place, on either side? -/
def NextToParen (before behind : List Char) : Prop :=
  (∃ c ∈ before.getLast?, IsParen c) ∨ ∃ c ∈ behind.head?, IsParen c

/-- Are blanks in this place as good as none?  Next to it is a parenthesis or an end of the text, and it is not
between two parentheses with nothing inside. -/
structure FreePlace (before behind : List Char) : Prop where
  edge : (∀ c ∈ before.getLast?, IsParen c) ∨ ∀ c ∈ behind.head?, IsParen c
  not_pair : ¬(before.getLast? = some '(' ∧ behind.head? = some ')')

theorem Respaced.symm {place : List Char → List Char → Prop} {text text' : List Char}
    (h : Respaced place text text') : Respaced place text' text := by
  obtain ⟨heven, hblanks, hblanks', hplace⟩ := h
  exact ⟨heven, hblanks', hblanks, hplace.imp_left And.symm⟩

/-- Where a text begins does not matter for its places. -/
theorem FreePlace.of_append (front : List Char) {before behind : List Char} (h : FreePlace (front ++ before) behind) :
    FreePlace before behind := by
  obtain ⟨hedge, hpair⟩ := h
  cases hlast : before.getLast? with
  | none =>
    obtain rfl := List.getLast?_eq_none_iff.mp hlast
    exact ⟨.inl fun c hc => (nomatch hc), fun h => (nomatch h.1)⟩
  | some d =>
    have hsame : (front ++ before).getLast? = before.getLast? := by rw [List.getLast?_append, hlast]; rfl
    rw [hsame] at hedge hpair
    exact ⟨hedge, hpair⟩

/-- Where a text ends does not matter for its places. -/
theorem FreePlace.of_append_right {before behind back : List Char} (h : FreePlace before (behind ++ back)) :
    FreePlace before behind := by
  obtain ⟨hedge, hpair⟩ := h
  cases behind with
  | nil => exact ⟨.inr fun c hc => (nomatch hc), fun h => (nomatch h.2)⟩
  | cons d behind => exact ⟨hedge, hpair⟩

/-! ### Characters at the ends of forms -/

theorem not_isParen_of_isPlainChar {c : Char} (h : IsPlainChar c) : ¬IsParen c :=
  not_or_intro h.2.1 h.2.2.1

theorem AtomText.head? {a : List Char} (h : AtomText a) :
    ∀ c ∈ a.head?, Text.isBlank c = false ∧ ¬IsParen c := by
  cases h with
  | nil => exact fun c hc => (nomatch hc)
  | char hc _ =>
    intro c hmem
    obtain rfl := Option.some.inj hmem
    exact ⟨hc.1, not_isParen_of_isPlainChar hc⟩
  | bars _ _ =>
    intro c hmem
    obtain rfl := Option.some.inj hmem
    decide

theorem AtomText.getLast? {a : List Char} (h : AtomText a) : ∀ c ∈ a.getLast?, ¬IsParen c := by
  induction h with
  | nil => exact fun c hc => (nomatch hc)
  | @char d cs hd _ ih =>
    rw [List.getLast?_cons]
    intro c hc
    obtain rfl := Option.some.inj hc
    cases hlast : cs.getLast? with
    | none => exact not_isParen_of_isPlainChar hd
    | some e => exact ih e hlast
  | @bars q cs _ _ ih =>
    intro c hc
    cases hlast : cs.getLast? with
    | none =>
      obtain rfl := List.getLast?_eq_none_iff.mp hlast
      have hbar : ('|' :: (q ++ ['|'])).getLast? = some '|' := by
        rw [← List.cons_append, List.getLast?_concat]
      obtain rfl := Option.some.inj (hbar.symm.trans hc)
      decide
    | some e =>
      have hsame : ('|' :: (q ++ '|' :: cs)).getLast? = some e := by
        rw [← List.cons_append, List.getLast?_append, List.getLast?_cons, hlast]
        rfl
      obtain rfl := Option.some.inj (hsame.symm.trans hc)
      exact ih _ hlast

/-- What begins with a closing parenthesis is no text of forms. -/
theorem not_laidOut_close {forms : List (List Char)} {cs : List Char} : ¬LaidOut forms (')' :: cs) := by
  intro h
  generalize htext : ')' :: cs = text at h
  cases h with
  | nil => cases htext
  | blank hc _ =>
    obtain ⟨rfl, -⟩ := List.cons.inj htext
    exact absurd hc (by decide)
  | @atom a forms text ha _ _ =>
    obtain ⟨hne, ha⟩ := ha
    cases a with
    | nil => exact hne rfl
    | cons c a =>
      obtain ⟨rfl, -⟩ := List.cons.inj htext
      exact (ha.head? _ rfl).2 (.inr rfl)
  | parens _ _ => cases htext

/-- A blank in front of a text of forms can be left out. -/
theorem LaidOut.of_blank {forms : List (List Char)} {c : Char} {text : List Char} (hc : Text.isBlank c = true)
    (h : LaidOut forms (c :: text)) : LaidOut forms text := by
  generalize htext : c :: text = t at h
  cases h with
  | nil => cases htext
  | blank _ h =>
    obtain ⟨-, rfl⟩ := List.cons.inj htext
    exact h
  | @atom a forms rest ha _ _ =>
    obtain ⟨hne, ha⟩ := ha
    cases a with
    | nil => exact absurd rfl hne
    | cons d a =>
      obtain ⟨rfl, -⟩ := List.cons.inj htext
      exact absurd hc (Bool.eq_false_iff.mp (ha.head? _ rfl).1)
  | parens _ _ =>
    obtain ⟨rfl, -⟩ := List.cons.inj htext
    exact absurd rfl (ne_of_isBlank hc).1

/-! ### Blanks in front -/

section Blanks

variable {blanks blanks' behind : List Char}

theorem AreBlanks.head? (h : AreBlanks blanks) (hne : blanks ≠ []) (behind : List Char) :
    ∃ c cs, blanks ++ behind = c :: cs ∧ Text.isBlank c = true := by
  cases blanks with
  | nil => exact absurd rfl hne
  | cons c cs => exact ⟨c, cs ++ behind, rfl, h c List.mem_cons_self⟩

/-- A text that does not begin with a blank has no blanks in front. -/
theorem AreBlanks.eq_nil (h : AreBlanks blanks) {c : Char} {cs : List Char} (hc : Text.isBlank c = false)
    (heq : blanks ++ behind = c :: cs) : blanks = [] := by
  by_contra hne
  obtain ⟨d, ds, hd, hblank⟩ := h.head? hne behind
  obtain ⟨rfl, -⟩ := List.cons.inj (hd.symm.trans heq)
  rw [hblank] at hc
  cases hc

theorem trimStart_blanks (h : AreBlanks blanks) : Text.trimStart (blanks ++ behind) = Text.trimStart behind := by
  induction blanks with
  | nil => rfl
  | cons c blanks ih =>
    obtain ⟨hc, hblanks⟩ := List.forall_mem_cons.mp h
    rw [List.cons_append, Text.trimStart_cons_of_isBlank hc, ih hblanks]

theorem Balanced.blanks_append (h : Balanced behind) (hblanks : AreBlanks blanks) :
    Balanced (blanks ++ behind) := by
  induction blanks with
  | nil => exact h
  | cons c blanks ih =>
    obtain ⟨hc, hblanks⟩ := List.forall_mem_cons.mp hblanks
    obtain ⟨hopen, hclose, hbar⟩ := ne_of_isBlank hc
    exact .char hopen hclose hbar (ih hblanks)

theorem Balanced.of_blanks_append (h : Balanced (blanks ++ behind)) (hblanks : AreBlanks blanks) :
    Balanced behind := by
  induction blanks with
  | nil => exact h
  | cons c blanks ih =>
    obtain ⟨hc, hblanks⟩ := List.forall_mem_cons.mp hblanks
    obtain ⟨hopen, -, hbar⟩ := ne_of_isBlank hc
    refine ih ?_ hblanks
    rw [List.cons_append] at h
    generalize blanks ++ behind = rest at h ⊢
    cases h with
    | char _ _ _ h => exact h
    | bars _ _ => exact absurd rfl hbar
    | parens _ _ => exact absurd rfl hopen

theorem LaidOut.blanks_append {forms : List (List Char)} (h : LaidOut forms behind) (hblanks : AreBlanks blanks) :
    LaidOut forms (blanks ++ behind) := by
  induction blanks with
  | nil => exact h
  | cons c blanks ih =>
    obtain ⟨hc, hblanks⟩ := List.forall_mem_cons.mp hblanks
    exact .blank hc (ih hblanks)

theorem LaidOut.of_blanks_append {forms : List (List Char)} (h : LaidOut forms (blanks ++ behind))
    (hblanks : AreBlanks blanks) : LaidOut forms behind := by
  induction blanks with
  | nil => exact h
  | cons c blanks ih =>
    obtain ⟨hc, hblanks⟩ := List.forall_mem_cons.mp hblanks
    exact ih (.of_blank hc h) hblanks

end Blanks

/-! ### Cuts

A cut outside of bars through a text goes through no symbol between bars. -/

theorem Balanced.even_bars {body : List Char} (h : Balanced body) : Even (body.count '|') := by
  induction h with
  | nil => decide
  | char _ _ hbar _ ih => rwa [List.count_cons_of_ne hbar]
  | @bars q cs hq _ ih =>
    rw [List.count_cons_self, List.count_append, List.count_eq_zero.mpr hq, List.count_cons_self]
    rw [Nat.zero_add, add_assoc]
    exact ih.add (by decide)
  | @parens inner cs _ _ ihinner ih =>
    rw [List.count_cons_of_ne (by decide), List.count_append, List.count_cons_of_ne (by decide)]
    exact ihinner.add ih

theorem even_of_append {front before : List Char} (hfront : Even (front.count '|'))
    (h : Even ((front ++ before).count '|')) : Even (before.count '|') := by
  rw [List.count_append] at h
  exact (Nat.even_add.mp h).mp hfront

/-- A cut behind an opening bar is behind the closing bar too. -/
theorem cut_bars {q cs before rest : List Char} (hq : '|' ∉ q) (heven : Even (('|' :: before).count '|'))
    (h : q ++ '|' :: cs = before ++ rest) :
    ∃ before', before = q ++ '|' :: before' ∧ cs = before' ++ rest ∧ Even (before'.count '|') := by
  have hmem : '|' ∈ before := by
    by_contra hnot
    rw [List.count_cons_self, List.count_eq_zero.mpr hnot] at heven
    exact absurd heven (by decide)
  have hcut : ∃ before', before = q ++ '|' :: before' ∧ cs = before' ++ rest := by
    rcases List.append_eq_append_iff.mp h with ⟨middle, rfl, hrest⟩ | ⟨middle, rfl, -⟩
    · cases middle with
      | nil => exact absurd hmem (by simpa using hq)
      | cons c middle =>
        obtain ⟨rfl, rfl⟩ := List.cons.inj hrest
        exact ⟨middle, rfl, rfl⟩
    · exact absurd (List.mem_append_left middle hmem) hq
  obtain ⟨before', rfl, hcs⟩ := hcut
  have hbars : Even (('|' :: (q ++ ['|'])).count '|') := (Balanced.bars hq .nil).even_bars
  refine ⟨before', rfl, hcs, even_of_append hbars ?_⟩
  simpa using heven

/-- A run of blanks behind an opening parenthesis is inside, or behind the closing one. -/
theorem cut_parens {body cs before blanks behind : List Char} (hbody : Balanced body)
    (heven : Even (before.count '|')) (hblanks : AreBlanks blanks)
    (h : body ++ ')' :: cs = before ++ (blanks ++ behind)) :
    (∃ inner, body = before ++ (blanks ++ inner) ∧ behind = inner ++ ')' :: cs) ∨
      ∃ before', before = body ++ ')' :: before' ∧ cs = before' ++ (blanks ++ behind) ∧
        Even (before'.count '|') := by
  have hblank : Text.isBlank ')' = false := by decide
  rcases List.append_eq_append_iff.mp h with ⟨middle, rfl, hrest⟩ | ⟨middle, rfl, hrest⟩
  · cases middle with
    | nil =>
      obtain rfl := hblanks.eq_nil hblank hrest.symm
      exact .inl ⟨[], by simp, hrest.symm⟩
    | cons c middle =>
      obtain ⟨rfl, rfl⟩ := List.cons.inj hrest
      refine .inr ⟨middle, rfl, rfl, ?_⟩
      have hclosed := even_of_append hbody.even_bars heven
      rwa [List.count_cons_of_ne (by decide)] at hclosed
  · rcases List.append_eq_append_iff.mp hrest with ⟨inner, rfl, hbehind⟩ | ⟨front, rfl, hfront⟩
    · exact .inl ⟨inner, rfl, hbehind⟩
    · -- a closing parenthesis is no blank, so the run ends in front of it
      have hnil : front = [] :=
        AreBlanks.eq_nil (fun c hc => hblanks c (List.mem_append_right middle hc)) hblank hfront.symm
      subst hnil
      exact .inl ⟨[], by simp, hfront.symm⟩

/-- Both sides of a cut through an atom are texts of atoms. -/
theorem AtomText.cut {before behind : List Char} (h : AtomText (before ++ behind))
    (heven : Even (before.count '|')) : AtomText before ∧ AtomText behind := by
  generalize htext : before ++ behind = text at h
  induction h generalizing before with
  | nil =>
    obtain ⟨rfl, rfl⟩ := List.append_eq_nil_iff.mp htext
    exact ⟨.nil, .nil⟩
  | @char c cs hc hcs ih =>
    cases before with
    | nil =>
      obtain rfl : behind = c :: cs := htext
      exact ⟨.nil, .char hc hcs⟩
    | cons d before =>
      obtain ⟨rfl, hrest⟩ := List.cons.inj htext
      rw [List.count_cons_of_ne hc.2.2.2] at heven
      obtain ⟨hbefore, hbehind⟩ := ih heven hrest
      exact ⟨.char hc hbefore, hbehind⟩
  | @bars q cs hq hcs ih =>
    cases before with
    | nil =>
      obtain rfl : behind = '|' :: (q ++ '|' :: cs) := htext
      exact ⟨.nil, .bars hq hcs⟩
    | cons d before =>
      obtain ⟨rfl, hrest⟩ := List.cons.inj htext
      obtain ⟨before', rfl, hcut, heven'⟩ := cut_bars hq heven hrest.symm
      obtain ⟨hbefore, hbehind⟩ := ih heven' hcut.symm
      exact ⟨.bars hq hbefore, hbehind⟩

/-! ### Other blanks between parentheses -/

/-- **Other blanks do not change what may stand between parentheses.** -/
theorem Balanced.respace {before blanks blanks' behind : List Char}
    (h : Balanced (before ++ (blanks ++ behind))) (heven : Even (before.count '|')) (hblanks : AreBlanks blanks)
    (hblanks' : AreBlanks blanks') : Balanced (before ++ (blanks' ++ behind)) := by
  have hfront {behind text : List Char} (htext : blanks ++ behind = text) (h : Balanced text) :
      Balanced (blanks' ++ behind) := ((htext ▸ h).of_blanks_append hblanks).blanks_append hblanks'
  generalize htext : before ++ (blanks ++ behind) = text at h
  induction h generalizing before behind with
  | nil =>
    obtain ⟨rfl, hrest⟩ := List.append_eq_nil_iff.mp htext
    exact hfront hrest .nil
  | @char c cs hopen hclose hbar hcs ih =>
    cases before with
    | nil => exact hfront htext (.char hopen hclose hbar hcs)
    | cons d before =>
      obtain ⟨rfl, hrest⟩ := List.cons.inj htext
      rw [List.count_cons_of_ne hbar] at heven
      exact .char hopen hclose hbar (ih heven hrest)
  | @bars q cs hq hcs ih =>
    cases before with
    | nil => exact hfront htext (.bars hq hcs)
    | cons d before =>
      obtain ⟨rfl, hrest⟩ := List.cons.inj htext
      obtain ⟨before', rfl, hcut, heven'⟩ := cut_bars hq heven hrest.symm
      rw [List.cons_append, List.append_assoc, List.cons_append]
      exact .bars hq (ih heven' hcut.symm)
  | @parens body cs hbody hcs ihbody ih =>
    cases before with
    | nil => exact hfront htext (.parens hbody hcs)
    | cons d before =>
      obtain ⟨rfl, hrest⟩ := List.cons.inj htext
      rw [List.count_cons_of_ne (by decide)] at heven
      rcases cut_parens hbody heven hblanks hrest.symm with ⟨inner, hinner, rfl⟩ | ⟨before', rfl, hcut, heven'⟩
      · simpa using Balanced.parens (ihbody heven hinner.symm) hcs
      · rw [List.cons_append, List.append_assoc, List.cons_append]
        exact .parens hbody (ih heven' hcut.symm)

/-! ### Other blanks between forms -/

/-- Are the forms equal atoms, or in parentheses with one difference in blanks inside?  There is something inside
both or neither. -/
inductive RespacedForm : List Char → List Char → Prop
  | atom {a : List Char} : IsAtom a → RespacedForm a a
  | parens {body body' : List Char} : Balanced body → (body' = [] ↔ body = []) →
    Relation.ReflGen (Respaced FreePlace) body body' → RespacedForm (parens body) (parens body')

theorem RespacedForm.refl {f : List Char} (h : IsForm f) : RespacedForm f f := by
  rcases h with hatom | ⟨body, hbody, rfl⟩
  · exact .atom hatom
  · exact .parens hbody .rfl .refl

theorem forall₂_respacedForm {forms : List (List Char)} (h : ∀ f ∈ forms, IsForm f) :
    List.Forall₂ RespacedForm forms forms :=
  List.forall₂_same.mpr fun f hf => .refl (h f hf)

theorem LaidOut.forall₂_respacedForm {forms : List (List Char)} {text : List Char} (h : LaidOut forms text) :
    List.Forall₂ RespacedForm forms forms :=
  SmtCount.forall₂_respacedForm (isForm_of_mem_splitForms (splitForms_of_laidOut h))

section Respace

variable {before blanks blanks' behind : List Char} (hblanks : AreBlanks blanks) (hblanks' : AreBlanks blanks')
  (hplace : (blanks ≠ [] ∧ blanks' ≠ []) ∨ FreePlace before behind)

include hblanks hplace

/-- Blanks are not added or removed inside an atom. -/
theorem eq_nil_of_atomText {middle rest : List Char} (hbefore : before ≠ []) (hatom : AtomText (before ++ middle))
    (heven : Even (before.count '|')) (h : blanks ++ behind = middle ++ rest) : middle = [] := by
  obtain ⟨hfront, hmiddle⟩ := hatom.cut heven
  cases middle with
  | nil => rfl
  | cons c middle =>
    obtain ⟨hc, hparen⟩ := hmiddle.head? c rfl
    obtain rfl := hblanks.eq_nil hc h
    rcases hplace with ⟨hne, -⟩ | ⟨hlast | hfirst, -⟩
    · exact absurd rfl hne
    · exact absurd (hlast _ (List.getLast?_eq_some_getLast hbefore))
        (hfront.getLast? _ (List.getLast?_eq_some_getLast hbefore))
    · rw [List.nil_append] at h
      rw [h] at hfirst
      exact absurd (hfirst c rfl) hparen

/-- A cut through a text that begins with an atom is in front of the atom or behind it. -/
theorem cut_atom {a text : List Char} (ha : IsAtom a) (hbefore : before ≠ []) (heven : Even (before.count '|'))
    (h : before ++ (blanks ++ behind) = a ++ text) :
    ∃ before', before = a ++ before' ∧ text = before' ++ (blanks ++ behind) ∧ Even (before'.count '|') := by
  have hcut : ∃ before', before = a ++ before' ∧ text = before' ++ (blanks ++ behind) := by
    rcases List.append_eq_append_iff.mp h with ⟨middle, rfl, hrest⟩ | ⟨before', hfront, hrest⟩
    · obtain rfl := eq_nil_of_atomText hblanks hplace hbefore ha.2 heven hrest
      exact ⟨[], by simp, by simpa using hrest.symm⟩
    · exact ⟨before', hfront, hrest⟩
  obtain ⟨before', rfl, htext⟩ := hcut
  have hbars : Even (a.count '|') := by simpa using (ha.2.append_balanced .nil).even_bars
  exact ⟨before', rfl, htext, even_of_append hbars heven⟩

include hblanks'

/-- The atom before other blanks ends there too. -/
theorem endsAtom_respace {forms : List (List Char)} (hatom : IsAtom before)
    (htext : LaidOut forms (blanks ++ behind)) : EndsAtom (blanks' ++ behind) := by
  by_cases hnil : blanks' = []
  · subst hnil
    rcases hplace with ⟨-, hne⟩ | ⟨hlast | hfirst, -⟩
    · exact absurd rfl hne
    · exact absurd (hlast _ (List.getLast?_eq_some_getLast hatom.1))
        (hatom.2.getLast? _ (List.getLast?_eq_some_getLast hatom.1))
    · cases behind with
      | nil => trivial
      | cons c behind =>
        rcases hfirst c rfl with rfl | rfl
        · exact .inr rfl
        · exact absurd (htext.of_blanks_append hblanks) not_laidOut_close
  · obtain ⟨c, cs, hcs, hc⟩ := hblanks'.head? hnil behind
    rw [hcs]
    exact .inl hc

/-- Behind an atom a text with other blanks begins with what ends an atom, too. -/
theorem endsAtom_append_respace {a before' : List Char} {forms : List (List Char)} (ha : IsAtom a)
    (hbefore : before = a ++ before') (hends : EndsAtom (before' ++ (blanks ++ behind)))
    (htext : LaidOut forms (before' ++ (blanks ++ behind))) : EndsAtom (before' ++ (blanks' ++ behind)) := by
  cases before' with
  | nil =>
    rw [List.append_nil] at hbefore
    subst hbefore
    have hnext : EndsAtom (blanks' ++ behind) := endsAtom_respace hblanks hblanks' hplace ha htext
    exact hnext
  | cons c before' => exact hends

end Respace

/-- There is something in parentheses with other blanks if and only if there was something before. -/
theorem respace_eq_nil_iff {before blanks blanks' inner rest : List Char}
    (hplace : (blanks ≠ [] ∧ blanks' ≠ []) ∨ FreePlace ('(' :: before) (inner ++ ')' :: rest)) :
    before ++ (blanks' ++ inner) = [] ↔ before ++ (blanks ++ inner) = [] := by
  simp only [List.append_eq_nil_iff]
  refine and_congr_right fun hbefore => and_congr_left fun hinner => ?_
  subst hbefore hinner
  rcases hplace with ⟨hne, hne'⟩ | ⟨-, hpair⟩
  · exact iff_of_false hne' hne
  · exact absurd ⟨rfl, rfl⟩ hpair

/-- Other blanks inside the first form of a text. -/
theorem LaidOut.respace_inside {forms : List (List Char)} {before blanks blanks' inner rest : List Char}
    (hbody : Balanced (before ++ (blanks ++ inner))) (hrest : LaidOut forms rest) (heven : Even (before.count '|'))
    (hblanks : AreBlanks blanks) (hblanks' : AreBlanks blanks')
    (hplace : (blanks ≠ [] ∧ blanks' ≠ []) ∨ FreePlace ('(' :: before) (inner ++ ')' :: rest)) :
    ∃ forms', LaidOut forms' ('(' :: before ++ (blanks' ++ (inner ++ ')' :: rest))) ∧
      List.Forall₂ RespacedForm (SmtCount.parens (before ++ (blanks ++ inner)) :: forms) forms' := by
  have hinside : Respaced FreePlace (before ++ (blanks ++ inner)) (before ++ (blanks' ++ inner)) :=
    .intro heven hblanks hblanks' (hplace.imp_right fun h => (h.of_append ['(']).of_append_right)
  refine ⟨SmtCount.parens (before ++ (blanks' ++ inner)) :: forms, ?_,
    .cons (.parens hbody (respace_eq_nil_iff hplace) (.single hinside)) hrest.forall₂_respacedForm⟩
  simpa [SmtCount.parens] using LaidOut.parens (hbody.respace heven hblanks hblanks') hrest

/-- **A text with other blanks has the same forms**, with other blanks in at most one of them. -/
theorem LaidOut.respace {forms : List (List Char)} {before blanks blanks' behind : List Char}
    (h : LaidOut forms (before ++ (blanks ++ behind))) (heven : Even (before.count '|'))
    (hblanks : AreBlanks blanks) (hblanks' : AreBlanks blanks')
    (hplace : (blanks ≠ [] ∧ blanks' ≠ []) ∨ FreePlace before behind) :
    ∃ forms', LaidOut forms' (before ++ (blanks' ++ behind)) ∧ List.Forall₂ RespacedForm forms forms' := by
  have hfront {forms : List (List Char)} {behind text : List Char} (htext : blanks ++ behind = text)
      (h : LaidOut forms text) :
      ∃ forms', LaidOut forms' (blanks' ++ behind) ∧ List.Forall₂ RespacedForm forms forms' :=
    ⟨forms, ((htext ▸ h).of_blanks_append hblanks).blanks_append hblanks', h.forall₂_respacedForm⟩
  have hlater (front : List Char) {before behind : List Char}
      (hplace : (blanks ≠ [] ∧ blanks' ≠ []) ∨ FreePlace (front ++ before) behind) :
      (blanks ≠ [] ∧ blanks' ≠ []) ∨ FreePlace before behind := hplace.imp_right (.of_append front)
  generalize htext : before ++ (blanks ++ behind) = text at h
  induction h generalizing before behind with
  | nil =>
    obtain ⟨rfl, hrest⟩ := List.append_eq_nil_iff.mp htext
    exact hfront hrest .nil
  | @blank c forms text hc h ih =>
    cases before with
    | nil => exact hfront htext (.blank hc h)
    | cons d before =>
      obtain ⟨rfl, hrest⟩ := List.cons.inj htext
      rw [List.count_cons_of_ne (ne_of_isBlank hc).2.2] at heven
      obtain ⟨forms', hforms', hsame⟩ := ih heven (hlater [d] hplace) hrest
      exact ⟨forms', .blank hc hforms', hsame⟩
  | @atom a forms text ha hends h ih =>
    cases before with
    | nil => exact hfront htext (.atom ha hends h)
    | cons d before =>
      obtain ⟨before', hbefore, rfl, heven'⟩ := cut_atom hblanks hplace ha (List.cons_ne_nil d before) heven htext
      have hnext := endsAtom_append_respace hblanks hblanks' hplace ha hbefore hends h
      rw [hbefore] at hplace ⊢
      obtain ⟨forms', hforms', hsame⟩ := ih heven' (hlater a hplace) rfl
      rw [List.append_assoc]
      exact ⟨a :: forms', .atom ha hnext hforms', .cons (.atom ha) hsame⟩
  | @parens body forms text hbody h ih =>
    cases before with
    | nil => exact hfront htext (.parens hbody h)
    | cons d before =>
      rw [SmtCount.parens, List.cons_append, List.cons_append, List.append_assoc] at htext
      obtain ⟨rfl, hrest⟩ := List.cons.inj htext
      rw [List.count_cons_of_ne (by decide)] at heven
      rcases cut_parens hbody heven hblanks hrest.symm with ⟨inner, rfl, rfl⟩ | ⟨before', rfl, hcut, heven'⟩
      · exact LaidOut.respace_inside hbody h heven hblanks hblanks' hplace
      · obtain ⟨forms', hforms', hsame⟩ := ih heven'
          (hlater ('(' :: (body ++ [')'])) (by simpa using hplace)) hcut.symm
        refine ⟨SmtCount.parens body :: forms', ?_, .cons (.refl (.inr ⟨body, hbody, rfl⟩)) hsame⟩
        simpa [SmtCount.parens] using LaidOut.parens hbody hforms'

theorem LaidOut.respaced {forms : List (List Char)} {text text' : List Char} (h : LaidOut forms text)
    (htext : Respaced FreePlace text text') :
    ∃ forms', LaidOut forms' text' ∧ List.Forall₂ RespacedForm forms forms' := by
  obtain ⟨heven, hblanks, hblanks', hplace⟩ := htext
  exact h.respace heven hblanks hblanks' hplace

/-- **A text with other blanks is taken apart in the same way**, if it can be taken apart. -/
theorem splitForms_respaced {text text' : List Char} (h : Respaced FreePlace text text') :
    Agree (List.Forall₂ RespacedForm) (splitForms text) (splitForms text') := by
  cases hsplit : splitForms text with
  | ok forms =>
    obtain ⟨forms', hforms', hsame⟩ := (splitForms_eq_ok_iff.mp hsplit).respaced h
    rw [splitForms_of_laidOut hforms']
    exact .ok hsame
  | error u =>
    cases hsplit' : splitForms text' with
    | error u' => exact .error u u'
    | ok forms' =>
      -- the change could be undone
      obtain ⟨forms, hforms, -⟩ := (splitForms_eq_ok_iff.mp hsplit').respaced h.symm
      rw [splitForms_of_laidOut hforms] at hsplit
      cases hsplit

end SmtCount
