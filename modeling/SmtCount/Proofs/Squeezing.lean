import Mathlib
import SmtCount.Proofs.SimilarForms

/-!
# Blanks that do not matter

How many blanks stand between two tokens of a text does not matter, nor which ones they are.  A text with one
space in place of each run of blanks outside of bars can be taken apart if and only if the text can, and its forms
are the forms of the text with one space in place of each run.

The two texts are scanned side by side: after each character the form that has begun in the second is the squeezed
form that has begun in the first, and a blank that is squeezed away changes nothing.

## Main definitions

* `squeeze text` — the text with one space in place of each run of blanks outside of bars.
* `SqueezedForms` — the second forms are the first ones, squeezed, or both are errors.
* `Scanner.Squeezes` — a state has read the squeezed text of what another state has read.

## Main results

* `squeeze_of_isAtom`, `squeeze_parens` — an atom is not changed, and parentheses stay where they are.
* `Scanner.Squeezes.run` — the two states end with the same forms but for blanks.
* `splitForms_squeeze` — **a squeezed text is taken apart into squeezed forms.**
-/

namespace SmtCount

/-! ### One space for many blanks -/

/-- The rest of a text with one space in place of each run of blanks outside of bars.  A bar may be open, and
the character before may have been such a blank. -/
def squeezeFrom : Bool → Bool → List Char → List Char
  | _, _, [] => []
  | true, _, c :: cs => c :: squeezeFrom (c ≠ '|') false cs
  | false, after, c :: cs =>
    if Text.isBlank c then (if after then [] else [' ']) ++ squeezeFrom false true cs
    else c :: squeezeFrom (c = '|') false cs

/-- A text with one space in place of each run of blanks outside of bars. -/
def squeeze (text : List Char) : List Char :=
  squeezeFrom false false text

section Squeeze

variable {c : Char} {cs : List Char} {after : Bool}

@[simp] theorem squeezeFrom_nil (quoted after : Bool) : squeezeFrom quoted after [] = [] := by
  cases quoted <;> rfl

@[simp] theorem squeeze_nil : squeeze [] = [] := rfl

theorem squeezeFrom_quoted (after : Bool) (c : Char) (cs : List Char) :
    squeezeFrom true after (c :: cs) = c :: squeezeFrom (c ≠ '|') false cs := rfl

theorem squeezeFrom_blank (hc : Text.isBlank c = true) (after : Bool) (cs : List Char) :
    squeezeFrom false after (c :: cs) = (if after then [] else [' ']) ++ squeezeFrom false true cs := by
  rw [squeezeFrom, if_pos hc]

theorem squeezeFrom_of_not_blank (hc : Text.isBlank c = false) (after : Bool) (cs : List Char) :
    squeezeFrom false after (c :: cs) = c :: squeezeFrom (c = '|') false cs := by
  rw [squeezeFrom, hc, if_neg Bool.false_ne_true]

/-- Between bars nothing changes. -/
theorem squeezeFrom_bars {q : List Char} (hq : '|' ∉ q) (after : Bool) (cs : List Char) :
    squeezeFrom false after ('|' :: (q ++ '|' :: cs)) = '|' :: (q ++ '|' :: squeezeFrom false false cs) := by
  have hkeep (q : List Char) (after : Bool) (hq : '|' ∉ q) :
      squeezeFrom true after (q ++ '|' :: cs) = q ++ '|' :: squeezeFrom false false cs := by
    induction q generalizing after with
    | nil => rfl
    | cons c q ih =>
      obtain ⟨hc, hq⟩ := List.ne_and_not_mem_of_not_mem_cons hq
      rw [List.cons_append, squeezeFrom_quoted, decide_eq_true (Ne.symm hc), ih false hq]
      rfl
  rw [squeezeFrom_of_not_blank (by decide)]
  exact congrArg ('|' :: ·) (hkeep q false hq)

/-- There are no blanks to squeeze in an atom. -/
theorem squeeze_atomText {a : List Char} (ha : AtomText a) (cs : List Char) :
    squeeze (a ++ cs) = a ++ squeeze cs := by
  induction ha with
  | nil => rfl
  | @char c a hc _ ih =>
    rw [squeeze, List.cons_append, squeezeFrom_of_not_blank hc.1, decide_eq_false hc.2.2.2]
    exact congrArg (c :: ·) ih
  | @bars q a hq _ ih =>
    rw [squeeze, List.cons_append, List.append_assoc, List.cons_append, squeezeFrom_bars hq,
      List.cons_append, List.append_assoc, List.cons_append]
    exact congrArg (fun text => '|' :: (q ++ '|' :: text)) ih

theorem squeeze_of_isAtom {a : List Char} (ha : IsAtom a) : squeeze a = a := by
  simpa using squeeze_atomText ha.2 []

/-- A text between parentheses can be squeezed by itself. -/
theorem squeezeFrom_balanced {body : List Char} (hbody : Balanced body) (after : Bool)
    (hc : Text.isBlank c = false) (cs : List Char) :
    squeezeFrom false after (body ++ c :: cs) =
      squeezeFrom false after body ++ c :: squeezeFrom (c = '|') false cs := by
  -- no bar is open behind a balanced text, so the text behind it is squeezed as if it stood alone
  induction hbody generalizing after c cs with
  | nil => rw [List.nil_append, squeezeFrom_of_not_blank hc, squeezeFrom_nil, List.nil_append]
  | @char d body _ _ hbar _ ih =>
    rw [List.cons_append]
    cases hd : Text.isBlank d with
    | true => rw [squeezeFrom_blank hd, squeezeFrom_blank hd, ih true hc, List.append_assoc]
    | false =>
      rw [squeezeFrom_of_not_blank hd, squeezeFrom_of_not_blank hd, decide_eq_false hbar, ih false hc,
        List.cons_append]
  | @bars q body hq _ ih =>
    rw [List.cons_append, List.append_assoc, List.cons_append, squeezeFrom_bars hq, squeezeFrom_bars hq,
      ih false hc]
    simp
  | @parens inner body _ _ ihinner ih =>
    have hopen : Text.isBlank '(' = false := by decide
    have hclose : Text.isBlank ')' = false := by decide
    rw [List.cons_append, List.append_assoc, List.cons_append, squeezeFrom_of_not_blank hopen,
      squeezeFrom_of_not_blank hopen]
    simp only [show decide ('(' = '|') = false from rfl]
    rw [ihinner false hclose, ihinner false hclose]
    simp only [show decide (')' = '|') = false from rfl]
    rw [ih false hc]
    simp

/-- The parentheses around a text stay where they are. -/
theorem squeeze_parens {body : List Char} (hbody : Balanced body) :
    squeeze (parens body) = parens (squeeze body) := by
  rw [squeeze, parens, squeezeFrom_of_not_blank (by decide)]
  exact congrArg ('(' :: ·) (squeezeFrom_balanced hbody false (by decide) [])

theorem squeeze_eq_nil_iff {text : List Char} : squeeze text = [] ↔ text = [] := by
  cases text with
  | nil => simp
  | cons c cs =>
    refine iff_of_false ?_ (List.cons_ne_nil c cs)
    rw [squeeze]
    cases hc : Text.isBlank c with
    | true =>
      rw [squeezeFrom_blank hc]
      exact List.cons_ne_nil _ _
    | false =>
      rw [squeezeFrom_of_not_blank hc]
      exact List.cons_ne_nil _ _

end Squeeze

/-! ### Taking a squeezed text apart -/

/-- Are the second forms the first ones, squeezed, or is there an error in both places? -/
abbrev SqueezedForms (forms forms' : Except Unbalanced (List (List Char))) : Prop :=
  Agree (fun forms forms' => forms' = forms.map squeeze) forms forms'

theorem begunForm_squeeze (f : List Char) : begunForm (squeeze f) = (begunForm f).map squeeze := by
  unfold begunForm
  by_cases hf : f = []
  · rw [if_pos hf, if_pos (squeeze_eq_nil_iff.mpr hf)]
    rfl
  · rw [if_neg hf, if_neg fun h => hf (squeeze_eq_nil_iff.mp h)]
    rfl

namespace Scanner

/-- Has the second state read the squeezed text of what the first one has read?  The last character read may
have been a blank that is squeezed. -/
structure Squeezes (after : Bool) (s s' : Scanner) : Prop where
  depth_eq : s'.depth = s.depth
  quoted_eq : s'.quoted = s.quoted
  ended_eq : s'.ended = s.ended.map squeeze
  fresh : s.current = [] → s'.current = [] ∧ s.depth = 0 ∧ s.quoted = false
  /-- What is to come is squeezed as it is in the form that has begun. -/
  begun : s.current ≠ [] → ∀ cs,
    squeeze (s.current.reverse ++ cs) = s'.current.reverse ++ squeezeFrom s.quoted after cs
  between : s.depth = 0 → after = true → s.current = []

section Squeezes

variable {after : Bool} {s s' : Scanner} {c : Char}

theorem Squeezes.current_eq (h : Squeezes after s s') : squeeze s.current.reverse = s'.current.reverse := by
  by_cases hcurrent : s.current = []
  · rw [hcurrent, (h.fresh hcurrent).1]
    rfl
  · simpa using h.begun hcurrent []

/-- Between forms it does not matter what was read before. -/
theorem Squeezes.flush (h : Squeezes after s s') (hdepth : s.depth = 0) (hquoted : s.quoted = false)
    (after' : Bool) : Squeezes after' s.flush s'.flush := by
  rw [flush_eq, flush_eq]
  refine ⟨h.depth_eq, h.quoted_eq, ?_, fun _ => ⟨rfl, hdepth, hquoted⟩, fun hne => absurd rfl hne,
    fun _ _ => rfl⟩
  dsimp only
  rw [← h.current_eq, begunForm_squeeze, h.ended_eq, List.map_append]

/-- A character that is kept, in the form that has begun or as the first one of a form. -/
theorem Squeezes.push (h : Squeezes after s s') {t t' : Scanner} {c' : Char} {after' : Bool}
    (hcurrent : t.current = c :: s.current) (hcurrent' : t'.current = c' :: s'.current)
    (hended : t.ended = s.ended) (hended' : t'.ended = s'.ended) (hdepth : t'.depth = t.depth)
    (hquoted : t'.quoted = t.quoted)
    (hstep : ∀ cs, squeezeFrom s.quoted after (c :: cs) = c' :: squeezeFrom t.quoted after' cs)
    (hfirst : s.current = [] → ∀ cs, squeeze (c :: cs) = c' :: squeezeFrom t.quoted after' cs)
    (hafter : t.depth = 0 → after' = false) : Squeezes after' t t' := by
  refine ⟨hdepth, hquoted, ?_, fun hnil => ?_, fun _ cs => ?_, fun hzero hblank => ?_⟩
  · rw [hended', hended, h.ended_eq]
  · rw [hcurrent] at hnil
    cases hnil
  · simp only [hcurrent, hcurrent', List.reverse_cons, List.append_assoc, List.singleton_append]
    -- a form that begins here is squeezed from this character on
    by_cases hnil : s.current = []
    · rw [hnil, (h.fresh hnil).1, List.reverse_nil, List.nil_append, List.nil_append, hfirst hnil]
    · rw [h.begun hnil, hstep]
  · rw [hafter hzero] at hblank
    cases hblank

/-- Between bars the next character is kept. -/
theorem Squeezes.step_quoted (h : Squeezes after s s') (hquoted : s.quoted = true) :
    ∃ t t', s.step? c = some t ∧ s'.step? c = some t' ∧ Squeezes false t t' ∧
      ∀ cs, squeezeFrom true after (c :: cs) = c :: squeezeFrom t.quoted false cs := by
  have hquoted' : s'.quoted = true := h.quoted_eq.trans hquoted
  refine ⟨{ s.push c with quoted := c ≠ '|' }, { s'.push c with quoted := c ≠ '|' }, ?_, ?_, ?_,
    fun cs => rfl⟩
  · rw [step?, if_pos hquoted]
  · rw [step?, if_pos hquoted']
  · refine h.push rfl rfl rfl rfl h.depth_eq rfl (fun cs => ?_) (fun hnil => ?_) fun _ => rfl
    · rw [hquoted]
      rfl
    · rw [(h.fresh hnil).2.2] at hquoted
      cases hquoted

/-- Outside of bars a character that is no blank is kept as it is. -/
theorem Squeezes.keep (h : Squeezes after s s') (hquoted : s.quoted = false) (hc : Text.isBlank c = false)
    {t t' : Scanner} (hcurrent : t.current = c :: s.current) (hcurrent' : t'.current = c :: s'.current)
    (hended : t.ended = s.ended) (hended' : t'.ended = s'.ended) (hdepth : t'.depth = t.depth)
    (ht : t.quoted = decide (c = '|')) (ht' : t'.quoted = decide (c = '|')) : Squeezes false t t' := by
  refine h.push hcurrent hcurrent' hended hended' hdepth (ht'.trans ht.symm) (fun cs => ?_)
    (fun _ cs => ?_) fun _ => rfl
  · rw [hquoted, ht, squeezeFrom_of_not_blank hc]
  · rw [squeeze, ht, squeezeFrom_of_not_blank hc]

/-- Can neither state read the character, or do both read and keep it? -/
def KeepsAlike (s s' : Scanner) (c : Char) : Prop :=
  (s.step? c = none ∧ s'.step? c = none) ∨
    ∃ t t', s.step? c = some t ∧ s'.step? c = some t' ∧ Squeezes false t t' ∧ t.quoted = decide (c = '|')

theorem Squeezes.step_bar (h : Squeezes after s s') (hquoted : s.quoted = false) : KeepsAlike s s' '|' := by
  have hquoted' : s'.quoted = false := h.quoted_eq.trans hquoted
  refine .inr ⟨{ s.push '|' with quoted := true }, { s'.push '|' with quoted := true }, ?_, ?_, ?_, rfl⟩
  · simp [step?, hquoted]
  · simp [step?, hquoted']
  · exact h.keep hquoted (by decide) rfl rfl rfl rfl h.depth_eq rfl rfl

theorem Squeezes.step_open (h : Squeezes after s s') (hquoted : s.quoted = false) : KeepsAlike s s' '(' := by
  have hquoted' : s'.quoted = false := h.quoted_eq.trans hquoted
  refine .inr ⟨s.openParen, s'.openParen, ?_, ?_, ?_⟩
  · simp [step?, hquoted]
  · simp [step?, hquoted']
  unfold openParen
  rw [h.depth_eq]
  by_cases hdepth : s.depth = 0
  · have hflush := h.flush hdepth hquoted false
    have hflushed : s.flush.quoted = false := by rw [flush_eq]; exact hquoted
    have hflushed' : s'.flush.quoted = false := hflush.quoted_eq.trans hflushed
    rw [if_pos hdepth, if_pos hdepth]
    exact ⟨hflush.keep hflushed (by decide) rfl rfl rfl rfl (congrArg (· + 1) hflush.depth_eq) hflushed
      hflushed', hflushed⟩
  · rw [if_neg hdepth, if_neg hdepth]
    exact ⟨h.keep hquoted (by decide) rfl rfl rfl rfl (congrArg (· + 1) h.depth_eq) hquoted hquoted', hquoted⟩

theorem Squeezes.step_close (h : Squeezes after s s') (hquoted : s.quoted = false) : KeepsAlike s s' ')' := by
  have hquoted' : s'.quoted = false := h.quoted_eq.trans hquoted
  have hs : s.step? ')' = s.closeParen? := by simp [step?, hquoted]
  have hs' : s'.step? ')' = s'.closeParen? := by simp [step?, hquoted']
  rw [KeepsAlike, hs, hs']
  unfold closeParen?
  rw [h.depth_eq]
  split
  · exact .inl ⟨rfl, rfl⟩
  · -- the form that ends here is kept with its parenthesis first
    have hpushed : Squeezes false { s.push ')' with depth := 0 } { s'.push ')' with depth := 0 } :=
      h.keep hquoted (by decide) rfl rfl rfl rfl rfl hquoted hquoted'
    refine .inr ⟨_, _, rfl, rfl, hpushed.flush rfl hquoted false, ?_⟩
    rw [flush_eq]
    exact hquoted
  · exact .inr ⟨_, _, rfl, rfl, h.keep hquoted (by decide) rfl rfl rfl rfl rfl hquoted hquoted', hquoted⟩

theorem Squeezes.step_plain (h : Squeezes after s s') (hquoted : s.quoted = false) (hc : IsPlainChar c) :
    KeepsAlike s s' c := by
  obtain ⟨hblank, hopen, hclose, hbar⟩ := hc
  have hquoted' : s'.quoted = false := h.quoted_eq.trans hquoted
  have hnobar : decide (c = '|') = false := decide_eq_false hbar
  refine .inr ⟨s.push c, s'.push c, ?_, ?_, ?_, hquoted.trans hnobar.symm⟩
  · simp [step?, hquoted, hbar, hopen, hclose, hblank]
  · simp [step?, hquoted', hbar, hopen, hclose, hblank]
  · exact h.keep hquoted hblank rfl rfl rfl rfl h.depth_eq (hquoted.trans hnobar.symm) (hquoted'.trans hnobar.symm)

/-- Outside of bars the next character is kept if it is no blank and can be read. -/
theorem Squeezes.step_of_not_blank (h : Squeezes after s s') (hquoted : s.quoted = false)
    (hc : Text.isBlank c = false) : KeepsAlike s s' c := by
  by_cases hbar : c = '|'
  · exact hbar ▸ h.step_bar hquoted
  by_cases hopen : c = '('
  · exact hopen ▸ h.step_open hquoted
  by_cases hclose : c = ')'
  · exact hclose ▸ h.step_close hquoted
  · exact h.step_plain hquoted ⟨hc, hopen, hclose, hbar⟩

/-- Outside of bars a blank is squeezed. -/
theorem Squeezes.step_blank (h : Squeezes after s s') (hquoted : s.quoted = false)
    (hc : Text.isBlank c = true) :
    ∃ t, s.step? c = some t ∧ t.quoted = false ∧
      if after then Squeezes true t s' else ∃ t', s'.step? ' ' = some t' ∧ Squeezes true t t' := by
  have hquoted' : s'.quoted = false := h.quoted_eq.trans hquoted
  obtain ⟨hopen, hclose, hbar⟩ := ne_of_isBlank hc
  have hspace : Text.isBlank ' ' = true := by decide
  by_cases hdepth : s.depth = 0
  · refine ⟨s.flush, step?_blank hc hquoted hdepth, by rw [flush_eq]; exact hquoted, ?_⟩
    cases hafter : after with
    | true =>
      rw [if_pos rfl]
      have hnil := h.between hdepth hafter
      have hflush : s.flush = s := by
        rw [Scanner.flush, hnil]
        rfl
      rw [hflush]
      exact hafter ▸ h
    | false => exact ⟨_, step?_blank hspace hquoted' (h.depth_eq.trans hdepth), h.flush hdepth hquoted true⟩
  · have hbegun : s.current ≠ [] := fun hnil => hdepth (h.fresh hnil).2.1
    refine ⟨s.push c, by simp [step?, hquoted, hbar, hopen, hclose, hdepth], hquoted, ?_⟩
    cases hafter : after with
    | true =>
      rw [if_pos rfl]
      subst hafter
      refine ⟨h.depth_eq, h.quoted_eq, h.ended_eq, fun hnil => absurd hnil (List.cons_ne_nil _ _),
        fun _ cs => ?_, fun hzero _ => absurd hzero hdepth⟩
      simp only [Scanner.push, List.reverse_cons, List.append_assoc, List.singleton_append]
      rw [h.begun hbegun, hquoted, squeezeFrom_blank hc]
      rfl
    | false =>
      have hnot : ¬false = true := Bool.false_ne_true
      rw [if_neg hnot]
      refine ⟨s'.push ' ', by simp [step?, hquoted', h.depth_eq, hdepth], ?_⟩
      refine h.push rfl rfl rfl rfl h.depth_eq h.quoted_eq (fun cs => ?_) (fun hnil => absurd hnil hbegun)
        fun hzero => absurd hzero hdepth
      rw [hafter, hquoted, squeezeFrom_blank hc]
      simp [Scanner.push, hquoted]

/-- **The forms of a squeezed text** are the squeezed forms of the text. -/
theorem Squeezes.run (h : Squeezes after s s') (cs : List Char) (offset offset' : Nat) :
    SqueezedForms (s.run offset cs) (s'.run offset' (squeezeFrom s.quoted after cs)) := by
  induction cs generalizing after s s' offset offset' with
  | nil =>
    rw [squeezeFrom_nil, Scanner.run, Scanner.run, h.depth_eq, h.quoted_eq]
    split
    · rename_i hend
      obtain ⟨hdepth, hquoted⟩ := hend
      have hflush := h.flush hdepth (by simpa using hquoted) false
      refine .ok ?_
      rw [hflush.ended_eq, List.map_reverse]
    · exact .error _ _
  | cons c cs ih =>
    rw [Scanner.run]
    cases hquoted : s.quoted with
    | true =>
      obtain ⟨t, t', ht, ht', hsqueezes, hrest⟩ := h.step_quoted (c := c) hquoted
      rw [ht, hrest, Scanner.run, ht']
      exact ih hsqueezes _ _
    | false =>
      cases hc : Text.isBlank c with
      | false =>
        rw [squeezeFrom_of_not_blank hc, Scanner.run]
        rcases h.step_of_not_blank hquoted hc with ⟨ht, ht'⟩ | ⟨t, t', ht, ht', hsqueezes, hnext⟩
        · rw [ht, ht']
          exact .error _ _
        · rw [ht, ht', ← hnext]
          exact ih hsqueezes _ _
      | true =>
        obtain ⟨t, ht, hnext, hsqueezes⟩ := h.step_blank hquoted hc
        rw [ht, squeezeFrom_blank hc, ← hnext]
        cases hafter : after with
        | true =>
          -- the second state stays where it is: this blank was squeezed away
          rw [hafter, if_pos rfl] at hsqueezes
          exact ih hsqueezes _ _
        | false =>
          rw [hafter] at hsqueezes
          obtain ⟨t', ht', hsqueezes⟩ := hsqueezes
          rw [if_neg Bool.false_ne_true, List.singleton_append, Scanner.run, ht']
          exact ih hsqueezes _ _

end Squeezes

end Scanner

/-- **A squeezed text is taken apart into squeezed forms**, if the text can be taken apart. -/
theorem splitForms_squeeze (text : List Char) : SqueezedForms (splitForms text) (splitForms (squeeze text)) := by
  have hstart : Scanner.Squeezes false {} {} :=
    ⟨rfl, rfl, rfl, fun _ => ⟨rfl, rfl, rfl⟩, fun hne => absurd rfl hne, fun _ h => Bool.noConfusion h⟩
  exact hstart.run text 0 0

end SmtCount
