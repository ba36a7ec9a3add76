import Mathlib
import SmtCount.Proofs.Layout

/-!
# Texts that can be taken apart

The scanner takes apart no other texts than those that are laid out: what a state needs to read the rest
of a text is the rest of the form that has begun, and then other forms.  A step backwards puts a
character in front of what is needed.

## Main definitions

* `ClosesForm`, `EndsForm` — what may stand behind the begin of a form.
* `Scanner.Needs` — what a state needs to end with certain forms.

## Main results

* `Scanner.Needs.step` — a step backwards.
* `splitForms_eq_ok_iff` — **exactly the texts that are laid out can be taken apart**.
-/

namespace SmtCount

/-! ### Ends of forms -/

/-- The rest of an atom, or of a form with as many open parentheses. -/
inductive ClosesForm : Nat → List Char → Prop
  | atom {b : List Char} : AtomText b → ClosesForm 0 b
  | last {body : List Char} : Balanced body → ClosesForm 1 (body ++ [')'])
  | next {depth : Nat} {body b : List Char} : Balanced body → ClosesForm (depth + 1) b →
    ClosesForm (depth + 2) (body ++ ')' :: b)

/-- The rest of a form that has begun, with as many open parentheses and perhaps an open bar. -/
def EndsForm (depth : Nat) : Bool → List Char → Prop
  | false, b => ClosesForm depth b
  | true, b => ∃ q b', b = q ++ '|' :: b' ∧ '|' ∉ q ∧ ClosesForm depth b'

theorem ClosesForm.plain {b : List Char} (h : ClosesForm 0 b) {c : Char} (hc : IsPlainChar c) :
    ClosesForm 0 (c :: b) := by
  cases h with
  | atom h => exact .atom (.char hc h)

theorem ClosesForm.char {depth : Nat} {b : List Char} (h : ClosesForm (depth + 1) b) {c : Char}
    (hopen : c ≠ '(') (hclose : c ≠ ')') (hbar : c ≠ '|') : ClosesForm (depth + 1) (c :: b) := by
  cases h with
  | last h => exact .last (.char hopen hclose hbar h)
  | next h hb => exact .next (.char hopen hclose hbar h) hb

theorem ClosesForm.bars {depth : Nat} {b : List Char} (h : ClosesForm depth b) {q : List Char}
    (hq : '|' ∉ q) : ClosesForm depth ('|' :: (q ++ '|' :: b)) := by
  cases h with
  | atom h => exact .atom (.bars hq h)
  | last h => simpa using ClosesForm.last (.bars hq h)
  | next h hb => simpa using ClosesForm.next (.bars hq h) hb

theorem ClosesForm.open {depth : Nat} {b : List Char} (h : ClosesForm (depth + 2) b) :
    ClosesForm (depth + 1) ('(' :: b) := by
  cases h with
  | @next depth body b h hb =>
    cases hb with
    | last hinner => simpa using ClosesForm.last (.parens h hinner)
    | next hinner hb => simpa using ClosesForm.next (.parens h hinner) hb

/-- A form that begins with a parenthesis and is closed. -/
theorem ClosesForm.exists_parens {b : List Char} (h : ClosesForm 1 b) :
    ∃ body, '(' :: b = SmtCount.parens body ∧ Balanced body := by
  cases h with
  | @last body h => exact ⟨body, rfl, h⟩

/-- The form that has begun, as the only form or none. -/
def begunForm (f : List Char) : List (List Char) :=
  if f = [] then [] else [f]

@[simp] theorem begunForm_nil : begunForm [] = [] := rfl

@[simp] theorem reverse_begunForm (f : List Char) : (begunForm f).reverse = begunForm f := by
  unfold begunForm
  split <;> rfl

/-! ### Steps backwards -/

namespace Scanner

/-- What a state needs for these forms: the rest of the form that has begun, and the other forms. -/
def Needs (s : Scanner) (forms : List (List Char)) (cs : List Char) : Prop :=
  ∃ b text rest, cs = b ++ text ∧ EndsForm s.depth s.quoted b ∧ (s.depth = 0 → EndsAtom text) ∧
    LaidOut rest text ∧ forms = s.ended.reverse ++ begunForm (s.current.reverse ++ b) ++ rest

theorem flush_eq (s : Scanner) :
    s.flush = { s with current := [], ended := begunForm s.current.reverse ++ s.ended } := by
  unfold flush begunForm
  split
  · obtain ⟨depth, quoted, current, ended⟩ := s
    simp_all
  · simp_all

section Needs

variable {s t : Scanner} {forms : List (List Char)} {cs : List Char}

/-- Between forms a state needs other forms only. -/
theorem Needs.exists_laidOut (h : t.Needs forms cs) (hdepth : t.depth = 0) (hquoted : t.quoted = false)
    (hcurrent : t.current = []) : ∃ rest, LaidOut rest cs ∧ forms = t.ended.reverse ++ rest := by
  obtain ⟨b, text, rest, rfl, hb, hends, hrest, rfl⟩ := h
  rw [hdepth, hquoted] at hb
  refine ⟨begunForm b ++ rest, ?_, by rw [hcurrent]; simp⟩
  cases hb with
  | atom hb =>
    unfold begunForm
    split
    · rename_i hnil
      rwa [hnil]
    · rename_i hne
      exact .atom ⟨hne, hb⟩ (hends hdepth) hrest

/-- A state that ends its form here needs what the state behind it needs. -/
theorem Needs.of_flush {c : Char} (h : LaidOut forms (c :: cs)) (hdepth : s.depth = 0)
    (hquoted : s.quoted = false) (hc : Text.isBlank c = true ∨ c = '(') :
    s.Needs (s.flush.ended.reverse ++ forms) (c :: cs) := by
  refine ⟨[], c :: cs, forms, rfl, ?_, fun _ => hc, h, by simp [flush_eq]⟩
  rw [hdepth, hquoted]
  exact .atom .nil

/-- A character that is kept is part of the form that has begun. -/
theorem Needs.of_push (h : t.Needs forms cs) {c : Char} (hcurrent : t.current = c :: s.current)
    (hended : t.ended = s.ended) (hdepth : s.depth = 0 → t.depth = 0)
    (hform : ∀ b, EndsForm t.depth t.quoted b → EndsForm s.depth s.quoted (c :: b)) :
    s.Needs forms (c :: cs) := by
  obtain ⟨b, text, rest, rfl, hb, hends, hrest, rfl⟩ := h
  refine ⟨c :: b, text, rest, rfl, hform b hb, fun h => hends (hdepth h), hrest, ?_⟩
  rw [hcurrent, hended]
  simp

theorem Needs.of_quoted (hquoted : s.quoted = true) {c : Char}
    (h : ({ s.push c with quoted := c ≠ '|' } : Scanner).Needs forms cs) : s.Needs forms (c :: cs) := by
  refine h.of_push rfl rfl id fun b hb => ?_
  rw [hquoted]
  by_cases hc : c = '|'
  · subst hc
    exact ⟨[], b, rfl, List.not_mem_nil, hb⟩
  · simp only [ne_eq, hc, not_false_eq_true, decide_true] at hb
    obtain ⟨q, b', rfl, hq, hb'⟩ := hb
    exact ⟨c :: q, b', rfl, List.not_mem_cons_of_ne_of_not_mem (Ne.symm hc) hq, hb'⟩

theorem Needs.of_openParen (hquoted : s.quoted = false) (h : s.openParen.Needs forms cs) :
    s.Needs forms ('(' :: cs) := by
  unfold openParen at h
  split at h
  · rename_i hdepth
    obtain ⟨b, text, rest, rfl, hb, -, hrest, rfl⟩ := h
    simp only [push, flush_eq, hdepth, hquoted] at hb
    obtain ⟨body, hbody, hbalanced⟩ := ClosesForm.exists_parens hb
    have hlaid : LaidOut (parens body :: rest) ('(' :: (b ++ text)) := by
      rw [← List.cons_append, hbody]
      exact .parens hbalanced hrest
    have hneeds := Needs.of_flush hlaid hdepth hquoted (.inr rfl)
    rw [← hbody] at hneeds
    simpa [push, flush_eq, begunForm] using hneeds
  · rename_i hdepth
    obtain ⟨d, hd⟩ := Nat.exists_eq_succ_of_ne_zero hdepth
    refine h.of_push rfl rfl (fun h => absurd h hdepth) fun b hb => ?_
    simp only [push, hquoted, hd] at hb ⊢
    exact ClosesForm.open hb

theorem Needs.of_closeParen? (hquoted : s.quoted = false) (hstep : s.closeParen? = some t)
    (h : t.Needs forms cs) : s.Needs forms (')' :: cs) := by
  unfold closeParen? at hstep
  split at hstep
  · cases hstep
  · rename_i hdepth
    obtain rfl := Option.some.inj hstep
    rw [flush_eq] at h
    obtain ⟨rest, hrest, rfl⟩ := h.exists_laidOut rfl hquoted rfl
    refine ⟨[')'], cs, rest, rfl, ?_, fun h => ?_, hrest, by simp [push]⟩
    · rw [hdepth, hquoted]
      exact .last .nil
    · rw [hdepth] at h
      cases h
  · rename_i d hdepth
    obtain rfl := Option.some.inj hstep
    refine h.of_push rfl rfl (fun h => ?_) fun b hb => ?_
    · rw [hdepth] at h
      cases h
    · simp only [push, hquoted, hdepth] at hb ⊢
      exact ClosesForm.next .nil hb

/-- What a state needs begins with the character that leads to the next state. -/
theorem Needs.step {c : Char} (hstep : s.step? c = some t) (h : t.Needs forms cs) :
    s.Needs forms (c :: cs) := by
  unfold step? at hstep
  split at hstep
  · rename_i hquoted
    obtain rfl := Option.some.inj hstep
    exact h.of_quoted hquoted
  rename_i hquoted
  rw [Bool.not_eq_true] at hquoted
  split at hstep
  · rename_i hc
    subst hc
    obtain rfl := Option.some.inj hstep
    refine h.of_push rfl rfl id fun b hb => ?_
    obtain ⟨q, b', rfl, hq, hb'⟩ := hb
    rw [hquoted]
    exact hb'.bars hq
  rename_i hbar
  split at hstep
  · rename_i hc
    subst hc
    obtain rfl := Option.some.inj hstep
    exact h.of_openParen hquoted
  rename_i hopen
  split at hstep
  · rename_i hc
    subst hc
    exact h.of_closeParen? hquoted hstep
  rename_i hclose
  split at hstep
  · rename_i hblank
    obtain ⟨hdepth, hblank⟩ := Bool.and_eq_true_iff.mp hblank
    obtain rfl := Option.some.inj hstep
    have hdepth : s.depth = 0 := of_decide_eq_true hdepth
    obtain ⟨rest, hrest, rfl⟩ :=
      h.exists_laidOut (by rw [flush_eq]; exact hdepth) (by rw [flush_eq]; exact hquoted) (by rw [flush_eq])
    exact .of_flush (.blank hblank hrest) hdepth hquoted (.inl hblank)
  · rename_i hplain
    obtain rfl := Option.some.inj hstep
    refine h.of_push rfl rfl id fun b hb => ?_
    simp only [push, hquoted] at hb ⊢
    cases hdepth : s.depth with
    | zero =>
      rw [hdepth] at hb
      have hblank : Text.isBlank c = false := by simpa [hdepth] using hplain
      exact ClosesForm.plain hb ⟨hblank, hopen, hclose, hbar⟩
    | succ d =>
      rw [hdepth] at hb
      exact ClosesForm.char hb hopen hclose hbar

end Needs

/-- What is read to its end is what the state needed. -/
theorem needs_of_run {cs : List Char} {s : Scanner} {offset : Nat} {forms : List (List Char)}
    (h : s.run offset cs = .ok forms) : s.Needs forms cs := by
  induction cs generalizing s offset with
  | nil =>
    rw [run] at h
    split at h
    · rename_i hend
      obtain ⟨hdepth, hquoted⟩ := hend
      refine ⟨[], [], [], rfl, ?_, fun _ => trivial, .nil, ?_⟩
      · rw [hdepth, Bool.not_eq_eq_eq_not.mp hquoted]
        exact .atom .nil
      · rw [← Except.ok.inj h, flush_eq]
        simp
    · cases h
  | cons c cs ih =>
    rw [run] at h
    cases hstep : s.step? c with
    | none => rw [hstep] at h; cases h
    | some t =>
      rw [hstep] at h
      exact (ih h).step hstep

end Scanner

/-- **Exactly the texts that are laid out can be taken apart**, each into the forms it was laid out
from. -/
theorem splitForms_eq_ok_iff {text : List Char} {forms : List (List Char)} :
    splitForms text = .ok forms ↔ LaidOut forms text := by
  refine ⟨fun h => ?_, splitForms_of_laidOut⟩
  obtain ⟨rest, hrest, rfl⟩ := (Scanner.needs_of_run h).exists_laidOut rfl rfl rfl
  exact hrest

instance (forms : List (List Char)) (text : List Char) : Decidable (LaidOut forms text) :=
  decidable_of_iff _ splitForms_eq_ok_iff

end SmtCount
