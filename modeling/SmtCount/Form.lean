import SmtCount.Text.Blank

/-!
# Forms

What a solver prints is a sequence of forms: atoms, and forms in parentheses.  A text is taken apart
one level at a time, and what is inside a parenthesized form stays text until it is needed.

A symbol between bars is kept whole, whatever it holds; a bar never ends an atom.  Blanks end an atom
and are dropped between forms.

## Main definitions

* `splitForms` — the forms of a text, or where its parentheses go wrong.
* `inside?` — the text inside the parentheses of a form.

## Main results

* `length_le_of_mem_splitForms` — no form is longer than the text it was taken from.
* `length_inside?_lt` — the inside of a form is shorter than the form.
-/

namespace SmtCount

/-- A byte offset at which a text stops being balanced: a parenthesis that closes nothing, or the end
of the text if something is open there. -/
structure Unbalanced where
  offset : Nat
  deriving DecidableEq, Repr

/-- What is known in the middle of a text. -/
structure Scanner where
  /-- How many parentheses are open. -/
  depth : Nat := 0
  /-- Is a bar open? -/
  quoted : Bool := false
  /-- The form that has begun, last character first; empty if none has. -/
  current : List Char := []
  /-- The forms that have ended, last form first. -/
  ended : List (List Char) := []
  deriving Repr

namespace Scanner

/-- Ends the form that has begun, if one has. -/
def flush (s : Scanner) : Scanner :=
  if s.current.isEmpty then s
  else { s with current := [], ended := s.current.reverse :: s.ended }

/-- Adds a character to the form that has begun, or begins one with it. -/
def push (s : Scanner) (c : Char) : Scanner :=
  { s with current := c :: s.current }

/-- Opens a parenthesis.  Outside of all others it begins a form. -/
def openParen (s : Scanner) : Scanner :=
  let s := if s.depth = 0 then s.flush else s
  { s.push '(' with depth := s.depth + 1 }

/-- Closes a parenthesis.  The outermost one ends its form. -/
def closeParen? (s : Scanner) : Option Scanner :=
  match s.depth with
  | 0 => none
  | 1 => some { s.push ')' with depth := 0 }.flush
  | depth + 2 => some { s.push ')' with depth := depth + 1 }

/-- Reads a character.  Only a parenthesis that closes nothing cannot be read. -/
def step? (s : Scanner) (c : Char) : Option Scanner :=
  -- between bars nothing has a meaning but the bar that closes
  if s.quoted then some { s.push c with quoted := c ≠ '|' }
  else if c = '|' then some { s.push c with quoted := true }
  else if c = '(' then some s.openParen
  else if c = ')' then s.closeParen?
  -- inside parentheses a blank belongs to the form
  else if s.depth = 0 && Text.isBlank c then some s.flush
  else some (s.push c)

/-- Reads the rest of a text, which begins at a byte offset, and gives all forms. -/
def run (s : Scanner) (offset : Nat) : List Char → Except Unbalanced (List (List Char))
  | [] => if s.depth = 0 ∧ !s.quoted then .ok s.flush.ended.reverse else .error ⟨offset⟩
  | c :: cs =>
    match s.step? c with
    | none => .error ⟨offset⟩
    | some s => s.run (offset + c.utf8Size) cs

end Scanner

/-- The forms of a text, from left to right. -/
def splitForms (text : List Char) : Except Unbalanced (List (List Char)) :=
  Scanner.run {} 0 text

/-- The text between the parentheses around a form; `none` for an atom. -/
def inside? : List Char → Option (List Char)
  | '(' :: cs => if cs.getLast? = some ')' then some cs.dropLast else none
  | _ => none

/-! ### Lengths -/

/-- The inside of a form is shorter than the form. -/
theorem length_inside?_lt {form body : List Char} (h : inside? form = some body) :
    body.length < form.length := by
  unfold inside? at h
  split at h
  · split at h
    · cases h
      simp only [List.length_dropLast, List.length_cons]
      omega
    · cases h
  · cases h

namespace Scanner

/-- The forms that have ended are no longer than `limit`, and the one that has begun leaves room for
`left` more characters. -/
def Fits (limit left : Nat) (s : Scanner) : Prop :=
  s.current.length + left ≤ limit ∧ ∀ f ∈ s.ended, f.length ≤ limit

theorem Fits.flush {limit left : Nat} {s : Scanner} (h : s.Fits limit left) :
    s.flush.Fits limit left := by
  obtain ⟨h, hended⟩ := h
  unfold Scanner.flush
  split
  · exact ⟨h, hended⟩
  · refine ⟨by simp only [List.length_nil]; omega, ?_⟩
    simp only [List.mem_cons, forall_eq_or_imp, List.length_reverse]
    exact ⟨by omega, hended⟩

theorem Fits.push {limit left : Nat} {s : Scanner} (h : s.Fits limit (left + 1)) (c : Char) :
    (s.push c).Fits limit left :=
  ⟨by have := h.1; simp only [Scanner.push, List.length_cons]; omega, h.2⟩

theorem Fits.mono {limit left : Nat} {s : Scanner} (h : s.Fits limit (left + 1)) :
    s.Fits limit left :=
  ⟨by have := h.1; omega, h.2⟩

theorem Fits.step {limit left : Nat} {s t : Scanner} {c : Char} (h : s.Fits limit (left + 1))
    (hstep : s.step? c = some t) : t.Fits limit left := by
  unfold step? at hstep
  split at hstep
  · cases hstep; exact h.push c
  split at hstep
  · cases hstep; exact h.push c
  split at hstep
  -- an opening parenthesis may end an atom first, and then begins the next form
  · cases hstep
    unfold openParen
    split
    · exact h.flush.push '('
    · exact h.push '('
  split at hstep
  · unfold closeParen? at hstep
    split at hstep
    · cases hstep
    · cases hstep
      exact Fits.flush (s := { s.push ')' with depth := 0 }) (h.push ')')
    · cases hstep; exact h.push ')'
  split at hstep
  · cases hstep; exact h.flush.mono
  · cases hstep; exact h.push c

theorem length_le_of_run {limit : Nat} (cs : List Char) :
    ∀ {s : Scanner} {offset : Nat} {forms : List (List Char)}, s.Fits limit cs.length →
      s.run offset cs = .ok forms → ∀ f ∈ forms, f.length ≤ limit := by
  induction cs with
  | nil =>
    intro s offset forms hs h
    rw [run] at h
    split at h
    · cases h
      intro f hf
      exact hs.flush.2 f (List.mem_reverse.mp hf)
    · cases h
  | cons c cs ih =>
    intro s offset forms hs h
    rw [run] at h
    cases hstep : s.step? c with
    | none => rw [hstep] at h; cases h
    | some t =>
      rw [hstep] at h
      exact ih (hs.step hstep) h

end Scanner

/-- No form is longer than the text it was taken from. -/
theorem length_le_of_mem_splitForms {text : List Char} {forms : List (List Char)}
    (h : splitForms text = .ok forms) : ∀ f ∈ forms, f.length ≤ text.length :=
  Scanner.length_le_of_run text ⟨by simp, by simp⟩ h

end SmtCount
