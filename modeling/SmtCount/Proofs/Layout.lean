import Mathlib
import SmtCount.Form

/-!
# Texts of forms

What a text of forms looks like, said without the scanner: forms with blanks between them, as many as one
likes, and none where the forms are apart without them.  The scanner takes every such text apart into the
forms it was laid out from, whatever stands between bars.

## Main definitions

* `Balanced` — a text that may stand between parentheses.
* `IsAtom` — a form without parentheses.
* `LaidOut forms text` — the text is these forms, with any blanks between them.
* `SameTokens f g` — two forms that differ in the blanks between their tokens only.

## Main results

* `splitForms_of_laidOut` — **a text is taken apart into the forms it was laid out from**.
* `SameTokens.eq_of_isAtom`, `SameTokens.laidOut` — what is left open by the tokens of a form.
-/

namespace SmtCount

/-! ### Texts -/

/-- Has the character no meaning between forms: is it no blank, parenthesis or bar? -/
def IsPlainChar (c : Char) : Prop :=
  Text.isBlank c = false ∧ c ≠ '(' ∧ c ≠ ')' ∧ c ≠ '|'

/-- A text between parentheses: characters, symbols between bars, and texts in parentheses. -/
inductive Balanced : List Char → Prop
  | nil : Balanced []
  | char {c : Char} {cs : List Char} : c ≠ '(' → c ≠ ')' → c ≠ '|' → Balanced cs → Balanced (c :: cs)
  | bars {q cs : List Char} : '|' ∉ q → Balanced cs → Balanced ('|' :: (q ++ '|' :: cs))
  | parens {body cs : List Char} : Balanced body → Balanced cs →
    Balanced ('(' :: (body ++ ')' :: cs))

/-- The characters of an atom: plain ones, and anything between bars. -/
inductive AtomText : List Char → Prop
  | nil : AtomText []
  | char {c : Char} {cs : List Char} : IsPlainChar c → AtomText cs → AtomText (c :: cs)
  | bars {q cs : List Char} : '|' ∉ q → AtomText cs → AtomText ('|' :: (q ++ '|' :: cs))

/-- Is this a form without parentheses around it? -/
def IsAtom (a : List Char) : Prop :=
  a ≠ [] ∧ AtomText a

/-- A text in parentheses. -/
def parens (body : List Char) : List Char :=
  '(' :: (body ++ [')'])

/-- Does an atom end before this text: is there nothing, a blank or a parenthesis? -/
def EndsAtom : List Char → Prop
  | [] => True
  | c :: _ => Text.isBlank c = true ∨ c = '('

/-- Is the text these forms, with any blanks between them? -/
inductive LaidOut : List (List Char) → List Char → Prop
  /-- No form and no text. -/
  | nil : LaidOut [] []
  /-- A blank in front. -/
  | blank {c : Char} {forms : List (List Char)} {text : List Char} : Text.isBlank c = true →
    LaidOut forms text → LaidOut forms (c :: text)
  /-- An atom in front. -/
  | atom {a : List Char} {forms : List (List Char)} {text : List Char} : IsAtom a → EndsAtom text →
    LaidOut forms text → LaidOut (a :: forms) (a ++ text)
  /-- A form in parentheses in front. -/
  | parens {body : List Char} {forms : List (List Char)} {text : List Char} : Balanced body →
    LaidOut forms text → LaidOut (parens body :: forms) (parens body ++ text)

theorem ne_of_isBlank {c : Char} (h : Text.isBlank c = true) : c ≠ '(' ∧ c ≠ ')' ∧ c ≠ '|' := by
  refine ⟨?_, ?_, ?_⟩ <;> rintro rfl <;> exact absurd h (by decide)

/-- An atom does not begin with a parenthesis. -/
theorem not_isAtom_parens (body : List Char) : ¬IsAtom (parens body) := by
  rintro ⟨-, h⟩
  cases h with
  | char hc _ => exact hc.2.1 rfl

theorem AtomText.append_balanced {a cs : List Char} (h : AtomText a) (hcs : Balanced cs) :
    Balanced (a ++ cs) := by
  induction h with
  | nil => exact hcs
  | char hc _ ih => exact .char hc.2.1 hc.2.2.1 hc.2.2.2 ih
  | bars hq _ ih =>
    rw [List.cons_append, List.append_assoc, List.cons_append]
    exact .bars hq ih

/-- What is laid out may stand between parentheses. -/
theorem LaidOut.balanced {forms : List (List Char)} {text : List Char} (h : LaidOut forms text) :
    Balanced text := by
  induction h with
  | nil => exact .nil
  | blank hc _ ih =>
    obtain ⟨hopen, hclose, hbar⟩ := ne_of_isBlank hc
    exact .char hopen hclose hbar ih
  | atom ha _ _ ih => exact ha.2.append_balanced ih
  | parens hbody _ ih =>
    rw [SmtCount.parens, List.cons_append, List.append_assoc]
    exact .parens hbody ih

/-! ### Scanning -/

namespace Scanner

/-- The state after some characters, if they can be read. -/
def readAll? (s : Scanner) : List Char → Option Scanner
  | [] => some s
  | c :: cs => (s.step? c).bind fun t => t.readAll? cs

/-- Adds a text to the form that has begun. -/
def pushAll (s : Scanner) (cs : List Char) : Scanner :=
  { s with current := cs.reverse ++ s.current }

/-- The same state with another number of open parentheses. -/
def withDepth (s : Scanner) (depth : Nat) : Scanner :=
  { s with depth }

theorem pushAll_push (s : Scanner) (c : Char) (cs : List Char) :
    (s.push c).pushAll cs = s.pushAll (c :: cs) := by
  simp [pushAll, push]

theorem readAll?_cons (s : Scanner) (c : Char) (cs : List Char) :
    s.readAll? (c :: cs) = (s.step? c).bind fun t => t.readAll? cs := rfl

/-- A text that can be read to its end has the forms of the state it leads to. -/
theorem run_of_readAll? {s t : Scanner} {cs : List Char} (h : s.readAll? cs = some t)
    (hdepth : t.depth = 0) (hquoted : t.quoted = false) (offset : Nat) :
    s.run offset cs = .ok t.flush.ended.reverse := by
  induction cs generalizing s offset with
  | nil =>
    obtain rfl := Option.some.inj h
    rw [run, if_pos ⟨hdepth, by rw [hquoted]; rfl⟩]
  | cons c cs ih =>
    obtain ⟨u, hu, hrest⟩ := Option.bind_eq_some_iff.mp h
    rw [run, hu]
    exact ih hrest _

section Steps

variable {s : Scanner}

/-- Between bars everything up to the bar that closes is kept. -/
theorem readAll?_bars (h : s.quoted = false) {q : List Char} (hq : '|' ∉ q) (cs : List Char) :
    s.readAll? ('|' :: (q ++ '|' :: cs)) = (s.pushAll ('|' :: (q ++ ['|']))).readAll? cs := by
  have hkeep (q : List Char) (t : Scanner) (ht : t.quoted = true) (hq : '|' ∉ q) :
      t.readAll? (q ++ '|' :: cs) =
        ({ t.pushAll (q ++ ['|']) with quoted := false } : Scanner).readAll? cs := by
    induction q generalizing t with
    | nil => simp [readAll?_cons, step?, ht, pushAll, push]
    | cons c q ih =>
      obtain ⟨hc, hq⟩ := List.ne_and_not_mem_of_not_mem_cons hq
      have hstep : t.step? c = some (t.push c) := by
        simp [step?, ht, push, Ne.symm hc]
      rw [List.cons_append, readAll?_cons, hstep, Option.bind_some, ih (t.push c) ht hq, pushAll_push,
        List.cons_append]
  have hopen : s.step? '|' = some { s.push '|' with quoted := true } := by
    simp [step?, h]
  rw [readAll?_cons, hopen, Option.bind_some, hkeep q _ rfl hq]
  congr 1
  simp [pushAll, push, h]

theorem step?_open (hquoted : s.quoted = false) (hdepth : s.depth ≠ 0) :
    s.step? '(' = some ((s.push '(').withDepth (s.depth + 1)) := by
  simp [step?, hquoted, openParen, hdepth, withDepth]

theorem step?_close {depth : Nat} (hquoted : s.quoted = false) (hdepth : s.depth = depth + 2) :
    s.step? ')' = some ((s.push ')').withDepth (depth + 1)) := by
  simp [step?, hquoted, closeParen?, hdepth, withDepth]

/-- Inside parentheses a balanced text is kept as it is. -/
theorem readAll?_balanced {body : List Char} (hbody : Balanced body) (hquoted : s.quoted = false)
    (hdepth : s.depth ≠ 0) (cs : List Char) :
    s.readAll? (body ++ cs) = (s.pushAll body).readAll? cs := by
  induction hbody generalizing s cs with
  | nil => rfl
  | @char c body hopen hclose hbar _ ih =>
    have hstep : s.step? c = some (s.push c) := by
      simp [step?, hquoted, hopen, hclose, hbar, hdepth]
    rw [List.cons_append, readAll?_cons, hstep, Option.bind_some, ih (s := s.push c) hquoted hdepth,
      pushAll_push]
  | @bars q body hq _ ih =>
    rw [List.cons_append, List.append_assoc, List.cons_append, readAll?_bars hquoted hq,
      ih (s := s.pushAll _) hquoted hdepth]
    simp [pushAll]
  | @parens inner body _ _ ihinner ih =>
    obtain ⟨d, hd⟩ := Nat.exists_eq_succ_of_ne_zero hdepth
    let opened := (s.push '(').withDepth (s.depth + 1)
    let closed := ((opened.pushAll inner).push ')').withDepth (d + 1)
    have hclose : (opened.pushAll inner).step? ')' = some closed :=
      step?_close hquoted (congrArg (· + 1) hd)
    have hclosed : closed.pushAll body = s.pushAll ('(' :: (inner ++ ')' :: body)) := by
      simp [closed, opened, pushAll, push, withDepth, hd]
    calc s.readAll? ('(' :: (inner ++ ')' :: body) ++ cs)
      _ = opened.readAll? (inner ++ ')' :: (body ++ cs)) := by
        rw [List.cons_append, readAll?_cons, step?_open hquoted hdepth, Option.bind_some]
        simp [opened]
      _ = closed.readAll? (body ++ cs) := by
        rw [ihinner (s := opened) hquoted (Nat.succ_ne_zero _), readAll?_cons, hclose, Option.bind_some]
      _ = (s.pushAll ('(' :: (inner ++ ')' :: body))).readAll? cs := by
        rw [ih (s := closed) hquoted (Nat.succ_ne_zero _), hclosed]

/-- Outside of parentheses the characters of an atom are kept. -/
theorem readAll?_atom {a : List Char} (ha : AtomText a) (hquoted : s.quoted = false)
    (hdepth : s.depth = 0) (cs : List Char) :
    s.readAll? (a ++ cs) = (s.pushAll a).readAll? cs := by
  induction ha generalizing s with
  | nil => rfl
  | @char c a hc _ ih =>
    obtain ⟨hblank, hopen, hclose, hbar⟩ := hc
    have hstep : s.step? c = some (s.push c) := by
      simp [step?, hquoted, hopen, hclose, hbar, hblank]
    rw [List.cons_append, readAll?_cons, hstep, Option.bind_some, ih (s := s.push c) hquoted hdepth,
      pushAll_push]
  | @bars q a hq _ ih =>
    rw [List.cons_append, List.append_assoc, List.cons_append, readAll?_bars hquoted hq,
      ih (s := s.pushAll _) hquoted hdepth]
    simp [pushAll]

/-- Outside of parentheses a blank ends the form that has begun. -/
theorem step?_blank {c : Char} (hc : Text.isBlank c = true) (hquoted : s.quoted = false)
    (hdepth : s.depth = 0) : s.step? c = some s.flush := by
  obtain ⟨hopen, hclose, hbar⟩ := ne_of_isBlank hc
  simp [step?, hquoted, hopen, hclose, hbar, hdepth, hc]

/-- The outermost parentheses make one form of what is inside. -/
theorem readAll?_parens {body : List Char} (hbody : Balanced body) (hquoted : s.quoted = false)
    (hdepth : s.depth = 0) (hcurrent : s.current = []) (cs : List Char) :
    s.readAll? (parens body ++ cs) =
      ({ s with ended := parens body :: s.ended } : Scanner).readAll? cs := by
  let opened := (s.push '(').withDepth 1
  have hopen : s.step? '(' = some opened := by
    simp [opened, step?, hquoted, openParen, hdepth, flush, hcurrent, withDepth]
  have hclose : (opened.pushAll body).step? ')' =
      some { s with ended := parens body :: s.ended } := by
    simp [opened, step?, closeParen?, withDepth, pushAll, push, flush, hquoted, hdepth, hcurrent, parens]
  calc s.readAll? (parens body ++ cs)
    _ = opened.readAll? (body ++ ')' :: cs) := by
      rw [parens, List.cons_append, readAll?_cons, hopen, Option.bind_some, List.append_assoc,
        List.singleton_append]
    _ = _ := by
      rw [readAll?_balanced (s := opened) hbody hquoted Nat.one_ne_zero, readAll?_cons, hclose,
        Option.bind_some]

/-- What ends an atom is read as if the atom had ended before. -/
theorem readAll?_of_endsAtom {c : Char} (hc : Text.isBlank c = true ∨ c = '(')
    (hquoted : s.quoted = false) (hdepth : s.depth = 0) (cs : List Char) :
    s.readAll? (c :: cs) = s.flush.readAll? (c :: cs) := by
  have hflush : s.flush.flush = s.flush ∧ s.flush.quoted = s.quoted ∧ s.flush.depth = s.depth := by
    unfold flush
    split <;> exact ⟨rfl, rfl, rfl⟩
  have hstep : s.step? c = s.flush.step? c := by
    obtain ⟨htwice, hq, hd⟩ := hflush
    rcases hc with hc | rfl
    · rw [step?_blank hc hquoted hdepth, step?_blank hc (hq.trans hquoted) (hd.trans hdepth), htwice]
    · simp [step?, hq, hquoted, openParen, hd, hdepth, htwice]
  rw [readAll?_cons, readAll?_cons, hstep]

end Steps

/-- A laid out text is read into its forms, behind those that have ended before. -/
theorem readAll?_laidOut {forms : List (List Char)} {text : List Char} (h : LaidOut forms text)
    (before : List (List Char)) : ∃ t : Scanner, readAll? { ended := before } text = some t ∧
      t.depth = 0 ∧ t.quoted = false ∧ t.flush.ended = forms.reverse ++ before := by
  induction h generalizing before with
  | nil => exact ⟨_, rfl, rfl, rfl, rfl⟩
  | blank hc _ ih =>
    rw [readAll?_cons, step?_blank hc rfl rfl]
    exact ih before
  | @atom a forms text ha hends _ ih =>
    obtain ⟨t, ht, hdepth, hquoted, hforms⟩ := ih (a :: before)
    have hflush : (pushAll { ended := before } a).flush = { ended := a :: before } := by
      simp [pushAll, flush, ha.1]
    rw [readAll?_atom ha.2 rfl rfl]
    cases text with
    | nil =>
      refine ⟨_, rfl, rfl, rfl, ?_⟩
      obtain rfl := Option.some.inj ht
      rw [hflush]
      simpa [flush] using hforms
    | cons c text =>
      rw [readAll?_of_endsAtom hends rfl rfl, hflush]
      exact ⟨t, ht, hdepth, hquoted, by simpa using hforms⟩
  | @parens body forms text hbody _ ih =>
    obtain ⟨t, ht, hdepth, hquoted, hforms⟩ := ih (parens body :: before)
    rw [readAll?_parens hbody rfl rfl rfl]
    exact ⟨t, ht, hdepth, hquoted, by simpa using hforms⟩

end Scanner

/-- **A text is taken apart into the forms it was laid out from.** -/
theorem splitForms_of_laidOut {forms : List (List Char)} {text : List Char} (h : LaidOut forms text) :
    splitForms text = .ok forms := by
  obtain ⟨t, ht, hdepth, hquoted, hforms⟩ := Scanner.readAll?_laidOut h []
  rw [splitForms, Scanner.run_of_readAll? ht hdepth hquoted, hforms]
  simp

/-- The forms of a text are determined by the text. -/
theorem LaidOut.unique {forms forms' : List (List Char)} {text : List Char} (h : LaidOut forms text)
    (h' : LaidOut forms' text) : forms = forms' :=
  Except.ok.inj ((splitForms_of_laidOut h).symm.trans (splitForms_of_laidOut h'))

/-! ### Parentheses around a form -/

@[simp] theorem inside?_parens (body : List Char) : inside? (parens body) = some body := by
  simp [inside?, parens]

/-- An atom has no inside. -/
theorem inside?_of_isAtom {a : List Char} (ha : IsAtom a) : inside? a = none := by
  unfold inside?
  split
  · cases ha.2 with
    | char hc _ => exact absurd rfl hc.2.1
  · rfl

/-! ### Blanks between tokens -/

/-- Do two forms differ in the blanks between their tokens only? -/
inductive SameTokens : List Char → List Char → Prop
  | atom {a : List Char} : IsAtom a → SameTokens a a
  | parens {forms forms' : List (List Char)} {body body' : List Char} : LaidOut forms body →
    LaidOut forms' body' → List.Forall₂ SameTokens forms forms' →
    SameTokens (parens body) (parens body')

/-- There are no blanks inside an atom. -/
theorem SameTokens.eq_of_isAtom {a f : List Char} (h : SameTokens a f) (ha : IsAtom a) : f = a := by
  cases h with
  | atom _ => rfl
  | parens _ _ _ => exact absurd ha (not_isAtom_parens _)

theorem forall₂_eq_of_isAtom {atoms forms : List (List Char)} (h : List.Forall₂ SameTokens atoms forms)
    (hatoms : ∀ a ∈ atoms, IsAtom a) : forms = atoms := by
  induction h with
  | nil => rfl
  | cons h _ ih =>
    rw [h.eq_of_isAtom (hatoms _ List.mem_cons_self), ih fun a ha => hatoms a (List.mem_cons_of_mem _ ha)]

/-- Between atoms in parentheses there may be other blanks. -/
theorem SameTokens.laidOut {atoms : List (List Char)} {body f : List Char}
    (h : SameTokens (SmtCount.parens body) f) (hbody : LaidOut atoms body) (hatoms : ∀ a ∈ atoms, IsAtom a) :
    ∃ body', f = SmtCount.parens body' ∧ LaidOut atoms body' := by
  generalize hg : SmtCount.parens body = g at h
  cases h with
  | atom ha => exact absurd (hg ▸ ha) (not_isAtom_parens body)
  | @parens forms forms' body₁ body' hlaid hlaid' hforms =>
    have hinside := congrArg inside? hg
    rw [inside?_parens, inside?_parens] at hinside
    obtain rfl := Option.some.inj hinside
    obtain rfl := hlaid.unique hbody
    rw [forall₂_eq_of_isAtom hforms hatoms] at hlaid'
    exact ⟨body', rfl, hlaid'⟩

end SmtCount
