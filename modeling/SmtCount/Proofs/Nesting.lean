import Mathlib
import SmtCount.Proofs.Respacing

/-!
# Parentheses outside of bars

How a text is taken apart depends on the characters that stand outside of bars, and among them on how many
parentheses are open.  Here both are read off the text, without a scanner: bars open and close in turn, and
parentheses count up and down.  The scanner keeps the two numbers; it stops at the first parenthesis that closes
nothing, and at the end of a text in which something is open.

A form in parentheses is then a text that opens one with its first character and closes it with its last one, and
not before.  An atom is a text that has no blank and no parenthesis outside of bars.

## Main definitions

* `outside quoted text`, `barOpen quoted text` — the characters outside of bars, and whether a bar is open behind.
* `level depth quoted text`, `nesting text` — how many parentheses are open behind a text.
* `Stray text before` — behind `before` the text has a parenthesis that closes nothing.
* `IsEnclosed`, `IsBare` — forms with parentheses around them, and without.

## Main results

* `Scanner.readAll?_eq_none_iff` — **a text that cannot be read has a parenthesis that closes nothing.**
* `splitForms_of_stray`, `splitForms_of_open`, `exists_splitForms_eq_ok` — where a text goes wrong, and when not.
* `isEnclosed_iff`, `isBare_iff` — the forms are the texts in parentheses and the atoms.
-/

namespace SmtCount

/-! ### Bars and levels -/

/-- The characters of a text that stand outside of bars.  A bar may be open in front. -/
def outside : Bool → List Char → List Char
  | _, [] => []
  | quoted, c :: cs =>
    if c = '|' then outside (!quoted) cs
    else if quoted then outside quoted cs
    else c :: outside quoted cs

/-- Is a bar open behind a text?  Each bar opens or closes. -/
def barOpen (quoted : Bool) (text : List Char) : Bool :=
  text.foldl (fun quoted c => if c = '|' then !quoted else quoted) quoted

/-- How many parentheses are open behind a character; one that closes nothing leaves none open. -/
def nest (depth : Nat) (c : Char) : Nat :=
  if c = '(' then depth + 1 else if c = ')' then depth - 1 else depth

/-- How many parentheses are open behind a text, with what is open in front. -/
def level (depth : Nat) (quoted : Bool) (text : List Char) : Nat :=
  (outside quoted text).foldl nest depth

/-- How many parentheses are open behind a text. -/
def nesting (text : List Char) : Nat :=
  level 0 false text

theorem barOpen_cons (quoted : Bool) (c : Char) (cs : List Char) :
    barOpen quoted (c :: cs) = barOpen (if c = '|' then !quoted else quoted) cs := rfl

/-- A bar is open behind an odd number of bars. -/
theorem barOpen_eq_false_iff {text : List Char} : barOpen false text = false ↔ Even (text.count '|') := by
  have hparity (quoted : Bool) (text : List Char) :
      barOpen quoted text = (quoted ^^ decide (Odd (text.count '|'))) := by
    induction text generalizing quoted with
    | nil => cases quoted <;> rfl
    | cons c cs ih =>
      rw [barOpen_cons, ih]
      by_cases hc : c = '|'
      · subst hc
        rw [if_pos rfl, List.count_cons_self]
        by_cases hodd : Odd (cs.count '|')
        · simp [Nat.odd_add_one, hodd]
        · simp [Nat.odd_add_one, hodd]
      · rw [if_neg hc, List.count_cons_of_ne hc]
  rw [hparity]
  simp

theorem level_nil (depth : Nat) (quoted : Bool) : level depth quoted [] = depth := rfl

/-- One character moves both numbers; between bars only a bar does. -/
theorem level_cons (depth : Nat) (quoted : Bool) (c : Char) (cs : List Char) :
    level depth quoted (c :: cs) =
      level (if quoted then depth else nest depth c) (if c = '|' then !quoted else quoted) cs := by
  cases quoted with
  | true =>
    by_cases hc : c = '|'
    · simp [level, outside, hc]
    · simp [level, outside, hc]
  | false =>
    by_cases hc : c = '|'
    · simp [level, outside, hc, nest]
    · simp [level, outside, hc]

theorem level_append (depth : Nat) (quoted : Bool) (as bs : List Char) :
    level depth quoted (as ++ bs) = level (level depth quoted as) (barOpen quoted as) bs := by
  induction as generalizing depth quoted with
  | nil => rfl
  | cons c as ih => rw [List.cons_append, level_cons, ih, level_cons, barOpen_cons]

theorem nest_of_ne {c : Char} (hopen : c ≠ '(') (hclose : c ≠ ')') (depth : Nat) : nest depth c = depth := by
  rw [nest, if_neg hopen, if_neg hclose]

/-- What stands between bars is skipped. -/
theorem outside_bars {q : List Char} (hq : '|' ∉ q) (cs : List Char) :
    outside false ('|' :: (q ++ '|' :: cs)) = outside false cs := by
  have hskip : outside true (q ++ '|' :: cs) = outside false cs := by
    induction q with
    | nil => rfl
    | cons c q ih =>
      obtain ⟨hc, hq⟩ := List.ne_and_not_mem_of_not_mem_cons hq
      rw [List.cons_append, outside, if_neg (Ne.symm hc), if_pos rfl, ih hq]
  rw [outside, if_pos rfl]
  exact hskip

theorem level_bars {q : List Char} (hq : '|' ∉ q) (depth : Nat) (cs : List Char) :
    level depth false ('|' :: (q ++ '|' :: cs)) = level depth false cs := by
  rw [level, outside_bars hq, level]

/-! ### What the scanner keeps -/

/-- Does a closing parenthesis stand behind `before` in the text, outside of bars, when none is open? -/
structure Stray (text before : List Char) : Prop where
  found : before ++ [')'] <+: text
  even : Even (before.count '|')
  nesting_eq : nesting before = 0

namespace Scanner

/-- Only a parenthesis that closes nothing cannot be read. -/
theorem step?_eq_none_iff {s : Scanner} {c : Char} :
    s.step? c = none ↔ s.quoted = false ∧ c = ')' ∧ s.depth = 0 := by
  unfold step?
  split
  · rename_i hquoted
    simp [hquoted]
  rename_i hquoted
  rw [Bool.not_eq_true] at hquoted
  split
  · rename_i hc
    simp [hc]
  split
  · rename_i hc
    simp [hc]
  split
  · rename_i hc
    unfold closeParen?
    split
    · rename_i hdepth
      simp [hquoted, hc, hdepth]
    · rename_i hdepth
      simp [hdepth]
    · rename_i hdepth
      simp [hdepth]
  rename_i hclose
  split <;> simp [hclose]

/-- The two numbers behind a character. -/
theorem step?_eq_some {s t : Scanner} {c : Char} (h : s.step? c = some t) :
    t.depth = (if s.quoted then s.depth else nest s.depth c) ∧
      t.quoted = if c = '|' then !s.quoted else s.quoted := by
  unfold step? at h
  split at h
  · rename_i hquoted
    cases h
    by_cases hc : c = '|' <;> simp [push, hquoted, hc]
  rename_i hquoted
  rw [Bool.not_eq_true] at hquoted
  rw [hquoted]
  split at h
  · rename_i hc
    cases h
    simp [push, nest, hc]
  rename_i hbar
  rw [if_neg hbar]
  split at h
  · rename_i hc
    cases h
    unfold openParen
    split <;> simp [push, flush_eq, nest, hc, hquoted]
  split at h
  · rename_i hc
    unfold closeParen? at h
    split at h
    · cases h
    · rename_i hdepth
      cases h
      simp [push, flush_eq, nest, hc, hquoted, hdepth]
    · rename_i hdepth
      cases h
      simp [push, nest, hc, hquoted, hdepth]
  rename_i hopen hclose
  rw [if_neg Bool.false_ne_true, nest_of_ne hopen hclose]
  split at h
  · cases h
    simp [flush_eq, hquoted]
  · cases h
    simp [push, hquoted]

/-- **The scanner keeps the two numbers of the text that it has read.** -/
theorem readAll?_eq_some {s t : Scanner} {cs : List Char} (h : s.readAll? cs = some t) :
    t.depth = level s.depth s.quoted cs ∧ t.quoted = barOpen s.quoted cs := by
  induction cs generalizing s with
  | nil =>
    obtain rfl := Option.some.inj h
    exact ⟨rfl, rfl⟩
  | cons c cs ih =>
    obtain ⟨u, hu, hrest⟩ := Option.bind_eq_some_iff.mp h
    obtain ⟨hdepth, hquoted⟩ := step?_eq_some hu
    rw [level_cons, barOpen_cons, ← hdepth, ← hquoted]
    exact ih hrest

theorem readAll?_append (s : Scanner) (as bs : List Char) :
    s.readAll? (as ++ bs) = (s.readAll? as).bind fun t => t.readAll? bs := by
  induction as generalizing s with
  | nil => rfl
  | cons c as ih =>
    rw [List.cons_append, readAll?_cons, readAll?_cons, Option.bind_assoc]
    exact congrArg _ (funext fun t => ih t)

/-- What cannot be read has a character that cannot be read, behind some that can. -/
theorem exists_of_readAll?_eq_none {s : Scanner} {cs : List Char} (h : s.readAll? cs = none) :
    ∃ before t, before ++ [')'] <+: cs ∧ s.readAll? before = some t ∧ t.quoted = false ∧ t.depth = 0 := by
  induction cs generalizing s with
  | nil => cases h
  | cons c cs ih =>
    rw [readAll?_cons] at h
    cases hstep : s.step? c with
    | none =>
      obtain ⟨hquoted, rfl, hdepth⟩ := step?_eq_none_iff.mp hstep
      exact ⟨[], s, ⟨cs, rfl⟩, rfl, hquoted, hdepth⟩
    | some u =>
      rw [hstep, Option.bind_some] at h
      obtain ⟨before, t, ⟨behind, rfl⟩, ht, hnumbers⟩ := ih h
      refine ⟨c :: before, t, ⟨behind, rfl⟩, ?_, hnumbers⟩
      rw [readAll?_cons, hstep, Option.bind_some, ht]

/-- **A text that cannot be read has a parenthesis that closes nothing**, and conversely. -/
theorem readAll?_eq_none_iff {text : List Char} : readAll? {} text = none ↔ ∃ before, Stray text before := by
  constructor
  · intro h
    obtain ⟨before, t, hfound, ht, hquoted, hdepth⟩ := exists_of_readAll?_eq_none h
    obtain ⟨hlevel, hbar⟩ := readAll?_eq_some ht
    exact ⟨before, hfound, barOpen_eq_false_iff.mp (hbar.symm.trans hquoted), hlevel.symm.trans hdepth⟩
  · rintro ⟨before, ⟨behind, rfl⟩, heven, hnesting⟩
    rw [List.append_assoc, readAll?_append]
    cases hread : readAll? {} before with
    | none => rfl
    | some t =>
      obtain ⟨hlevel, hbar⟩ := readAll?_eq_some hread
      have hstep : t.step? ')' = none :=
        step?_eq_none_iff.mpr ⟨hbar.trans (barOpen_eq_false_iff.mpr heven), rfl, hlevel.trans hnesting⟩
      rw [Option.bind_some, List.singleton_append, readAll?_cons, hstep]
      rfl

/-- Behind what can be read the scanner goes on from where it is. -/
theorem run_append {s t : Scanner} {before : List Char} (h : s.readAll? before = some t) (offset : Nat)
    (cs : List Char) : s.run offset (before ++ cs) = t.run (offset + String.utf8Len before) cs := by
  induction before generalizing s offset with
  | nil =>
    obtain rfl := Option.some.inj h
    rfl
  | cons c before ih =>
    obtain ⟨u, hu, hrest⟩ := Option.bind_eq_some_iff.mp h
    rw [List.cons_append, run, hu]
    dsimp only
    rw [ih hrest, String.utf8Len_cons, Nat.add_comm (String.utf8Len before), ← Nat.add_assoc]

end Scanner

/-! ### Where a text goes wrong -/

section Errors

variable {text : List Char}

theorem exists_readAll?_eq_some (h : ∀ before, ¬Stray text before) : ∃ t : Scanner,
    Scanner.readAll? {} text = some t ∧ t.depth = nesting text ∧ t.quoted = barOpen false text := by
  cases hread : Scanner.readAll? {} text with
  | none =>
    obtain ⟨before, hstray⟩ := Scanner.readAll?_eq_none_iff.mp hread
    exact absurd hstray (h before)
  | some t => exact ⟨t, rfl, Scanner.readAll?_eq_some hread⟩

/-- **A text goes wrong at the first parenthesis that closes nothing.** -/
theorem splitForms_of_stray {before : List Char} (hstray : Stray text before) (hfirst : ∀ b, ¬Stray before b) :
    splitForms text = .error ⟨String.utf8Len before⟩ := by
  obtain ⟨⟨behind, rfl⟩, heven, hnesting⟩ := hstray
  obtain ⟨t, hread, hdepth, hquoted⟩ := exists_readAll?_eq_some hfirst
  have hstep : t.step? ')' = none :=
    Scanner.step?_eq_none_iff.mpr ⟨hquoted.trans (barOpen_eq_false_iff.mpr heven), rfl, hdepth.trans hnesting⟩
  rw [splitForms, List.append_assoc, Scanner.run_append hread, Nat.zero_add, List.singleton_append,
    Scanner.run, hstep]

/-- A text with a parenthesis that closes nothing has a first one. -/
theorem exists_first_stray {before : List Char} (h : Stray text before) :
    ∃ first, Stray text first ∧ ∀ b, ¬Stray first b := by
  induction hlength : before.length using Nat.strong_induction_on generalizing before with
  | _ n ih =>
    subst hlength
    by_cases hfirst : ∃ b, Stray before b
    · obtain ⟨b, hb⟩ := hfirst
      have hshorter : b.length < before.length := by
        have hle := hb.found.length_le
        rw [List.length_append, List.length_singleton] at hle
        omega
      have hfound : b ++ [')'] <+: text := hb.found.trans ((List.prefix_append before [')']).trans h.found)
      exact ih b.length hshorter ⟨hfound, hb.even, hb.nesting_eq⟩ rfl
    · exact ⟨before, h, fun b hb => hfirst ⟨b, hb⟩⟩

/-- **A text in which something stays open goes wrong at its end.** -/
theorem splitForms_of_open (h : ∀ before, ¬Stray text before)
    (hopen : nesting text ≠ 0 ∨ ¬Even (text.count '|')) :
    splitForms text = .error ⟨String.utf8Len text⟩ := by
  obtain ⟨t, hread, hdepth, hquoted⟩ := exists_readAll?_eq_some h
  have hend : ¬(t.depth = 0 ∧ (!t.quoted) = true) := by
    rintro ⟨hzero, hclosed⟩
    rw [Bool.not_eq_true', hquoted, barOpen_eq_false_iff] at hclosed
    exact hopen.elim (fun hne => hne (hdepth.symm.trans hzero)) fun hodd => hodd hclosed
  have hrun := Scanner.run_append hread 0 []
  rw [List.append_nil, Nat.zero_add] at hrun
  rw [splitForms, hrun, Scanner.run, if_neg hend]

/-- **Every other text is taken apart.** -/
theorem exists_splitForms_eq_ok (h : ∀ before, ¬Stray text before) (hnesting : nesting text = 0)
    (heven : Even (text.count '|')) : ∃ forms, splitForms text = .ok forms := by
  obtain ⟨t, hread, hdepth, hquoted⟩ := exists_readAll?_eq_some h
  exact ⟨_, Scanner.run_of_readAll? hread (hdepth.trans hnesting)
    (hquoted.trans (barOpen_eq_false_iff.mpr heven)) 0⟩

theorem nesting_of_splitForms_eq_ok {forms : List (List Char)} (h : splitForms text = .ok forms) :
    nesting text = 0 ∧ Even (text.count '|') := by
  have hstray : ∀ before, ¬Stray text before := fun before hbefore => by
    obtain ⟨first, hfirst, hnone⟩ := exists_first_stray hbefore
    rw [splitForms_of_stray hfirst hnone] at h
    cases h
  by_contra hopen
  rw [splitForms_of_open hstray (not_and_or.mp hopen)] at h
  cases h

end Errors

/-! ### Atoms -/

/-- Is this a form without parentheses around it: is it not empty, and is there no blank and no parenthesis outside
of its bars? -/
structure IsBare (a : List Char) : Prop where
  ne_nil : a ≠ []
  even : Even (a.count '|')
  plain : ∀ c ∈ outside false a, Text.isBlank c = false ∧ ¬IsParen c

theorem AtomText.even_bars {a : List Char} (h : AtomText a) : Even (a.count '|') := by
  have hbalanced := h.append_balanced .nil
  rw [List.append_nil] at hbalanced
  exact hbalanced.even_bars

theorem AtomText.plain_outside {a : List Char} (h : AtomText a) :
    ∀ c ∈ outside false a, Text.isBlank c = false ∧ ¬IsParen c := by
  induction h with
  | nil => exact fun c hc => absurd hc List.not_mem_nil
  | @char c cs hc _ ih =>
    rw [outside, if_neg hc.2.2.2, if_neg Bool.false_ne_true]
    exact List.forall_mem_cons.mpr ⟨⟨hc.1, not_isParen_of_isPlainChar hc⟩, ih⟩
  | bars hq _ ih => rwa [outside_bars hq]

theorem atomText_of_plain_outside {a : List Char} (heven : Even (a.count '|'))
    (hplain : ∀ c ∈ outside false a, Text.isBlank c = false ∧ ¬IsParen c) : AtomText a := by
  induction hlength : a.length using Nat.strong_induction_on generalizing a with
  | _ n ih =>
    subst hlength
    cases a with
    | nil => exact .nil
    | cons c cs =>
      by_cases hc : c = '|'
      · subst hc
        -- the number of bars is even, so there is one that closes
        have hmem : '|' ∈ cs := by
          by_contra hnot
          rw [List.count_cons_self, List.count_eq_zero.mpr hnot] at heven
          exact absurd heven (by decide)
        obtain ⟨q, rest, rfl, hq⟩ := List.eq_append_cons_of_mem hmem
        rw [outside_bars hq] at hplain
        have hbars : Even (('|' :: (q ++ ['|'])).count '|') := (Balanced.bars hq .nil).even_bars
        refine .bars hq (ih rest.length (by simp; omega) (even_of_append hbars ?_) hplain rfl)
        simpa using heven
      · rw [outside, if_neg hc, if_neg Bool.false_ne_true, List.forall_mem_cons] at hplain
        rw [List.count_cons_of_ne hc] at heven
        obtain ⟨⟨hblank, hparen⟩, hplain⟩ := hplain
        obtain ⟨hopen, hclose⟩ := not_or.mp hparen
        exact .char ⟨hblank, hopen, hclose, hc⟩ (ih cs.length (by simp) heven hplain rfl)

/-- **The forms without parentheses around them are the atoms.** -/
theorem isBare_iff {a : List Char} : IsBare a ↔ IsAtom a :=
  ⟨fun h => ⟨h.ne_nil, atomText_of_plain_outside h.even h.plain⟩,
    fun h => ⟨h.1, h.2.even_bars, h.2.plain_outside⟩⟩

/-! ### Forms in parentheses -/

/-- Is this a form with parentheses around it: does its first character open one that its last character closes,
and none before? -/
structure IsEnclosed (f : List Char) : Prop where
  head : f.head? = some '('
  closed : nesting f = 0
  open_before : ∀ g, g <+: f → g ≠ [] → g ≠ f → nesting g ≠ 0

/-- The begin of two texts in a row is that of the first, or all of it and the begin of the second. -/
theorem isPrefix_append {a b c : List Char} (h : a <+: b ++ c) : a <+: b ∨ ∃ t, a = b ++ t ∧ t <+: c := by
  obtain ⟨rest, hrest⟩ := h
  rcases List.append_eq_append_iff.mp hrest with ⟨as, rfl, -⟩ | ⟨bs, rfl, rfl⟩
  · exact .inl (List.prefix_append a as)
  · exact .inr ⟨bs, rfl, List.prefix_append bs rest⟩

/-- A balanced text closes what it opens. -/
theorem Balanced.level_append {body : List Char} (h : Balanced body) (depth : Nat) (cs : List Char) :
    level depth false (body ++ cs) = level depth false cs := by
  induction h generalizing depth cs with
  | nil => rfl
  | @char c body hopen hclose hbar _ ih =>
    rw [List.cons_append, level_cons, if_neg hbar, if_neg Bool.false_ne_true, nest_of_ne hopen hclose, ih]
  | @bars q body hq _ ih =>
    rw [List.cons_append, List.append_assoc, List.cons_append, level_bars hq, ih]
  | @parens inner body _ _ ihinner ih =>
    rw [List.cons_append, List.append_assoc, List.cons_append, level_cons]
    change level (depth + 1) false (inner ++ ')' :: (body ++ cs)) = _
    rw [ihinner, level_cons]
    exact ih depth cs

/-- Between bars nothing is opened or closed. -/
theorem level_quoted {q : List Char} (hq : '|' ∉ q) (depth : Nat) : level depth true q = depth := by
  induction q with
  | nil => rfl
  | cons c q ih =>
    obtain ⟨hc, hq⟩ := List.ne_and_not_mem_of_not_mem_cons hq
    rw [level_cons, if_pos rfl, if_neg (Ne.symm hc), ih hq]

/-- A balanced text closes nothing that was open in front of it. -/
theorem Balanced.le_level {body : List Char} (h : Balanced body) {g : List Char} (hg : g <+: body) (depth : Nat) :
    depth ≤ level depth false g := by
  induction h generalizing depth g with
  | nil =>
    rw [List.prefix_nil.mp hg]
    exact le_rfl
  | @char c body hopen hclose hbar _ ih =>
    rcases List.prefix_cons_iff.mp hg with rfl | ⟨g, rfl, hrest⟩
    · exact le_rfl
    · rw [level_cons, if_neg hbar, if_neg Bool.false_ne_true, nest_of_ne hopen hclose]
      exact ih hrest depth
  | @bars q body hq _ ih =>
    rcases List.prefix_cons_iff.mp hg with rfl | ⟨g, rfl, hrest⟩
    · exact le_rfl
    rcases isPrefix_append hrest with hinside | ⟨t, rfl, ht⟩
    · -- the text ends between the bars
      have hbars : '|' ∉ g := fun hmem => hq (hinside.subset hmem)
      rw [level_cons, if_neg Bool.false_ne_true, if_pos rfl, nest_of_ne (by decide) (by decide)]
      exact (level_quoted hbars depth).ge
    · rcases List.prefix_cons_iff.mp ht with rfl | ⟨t, rfl, hbehind⟩
      · rw [List.append_nil, level_cons, if_neg Bool.false_ne_true, if_pos rfl, nest_of_ne (by decide) (by decide)]
        exact (level_quoted hq depth).ge
      · rw [level_bars hq]
        exact ih hbehind depth
  | @parens inner body hinner _ ihinner ih =>
    rcases List.prefix_cons_iff.mp hg with rfl | ⟨g, rfl, hrest⟩
    · exact le_rfl
    · change depth ≤ level (depth + 1) false g
      rcases isPrefix_append hrest with hinside | ⟨t, rfl, ht⟩
      · exact (Nat.le_succ depth).trans (ihinner hinside (depth + 1))
      · rw [hinner.level_append]
        rcases List.prefix_cons_iff.mp ht with rfl | ⟨t, rfl, hbehind⟩
        · exact Nat.le_succ depth
        · exact ih hbehind depth

/-- A text of forms that begins with a parenthesis begins with a form in parentheses. -/
theorem LaidOut.exists_parens {forms : List (List Char)} {cs : List Char} (h : LaidOut forms ('(' :: cs)) :
    ∃ body text, Balanced body ∧ '(' :: cs = SmtCount.parens body ++ text := by
  generalize hf : '(' :: cs = f at h ⊢
  cases h with
  | nil => cases hf
  | blank hc _ =>
    obtain ⟨rfl, -⟩ := List.cons.inj hf
    exact absurd rfl (ne_of_isBlank hc).1
  | @atom a _ _ ha _ _ =>
    obtain ⟨hne, ha⟩ := ha
    cases a with
    | nil => exact absurd rfl hne
    | cons c a =>
      obtain ⟨rfl, -⟩ := List.cons.inj hf
      exact absurd (.inl rfl) (ha.head? _ rfl).2
  | @parens body _ text hbody _ => exact ⟨body, text, hbody, rfl⟩

namespace IsEnclosed

variable {f : List Char}

/-- Nothing is closed in a form that is not open. -/
theorem not_stray (h : IsEnclosed f) (before : List Char) : ¬Stray f before := by
  rintro ⟨hfound, -, hnesting⟩
  by_cases hnil : before = []
  · subst hnil
    obtain ⟨behind, rfl⟩ := hfound
    exact absurd (Option.some.inj h.head) (by decide)
  · have hshorter : before ≠ f := by
      rintro rfl
      have hle := hfound.length_le
      rw [List.length_append, List.length_singleton] at hle
      omega
    exact h.open_before before ((List.prefix_append before [')']).trans hfound) hnil hshorter hnesting

/-- No bar is open behind the character that closes the form. -/
theorem even_bars (h : IsEnclosed f) : Even (f.count '|') := by
  rcases List.eq_nil_or_concat f with rfl | ⟨init, c, rfl⟩
  · exact absurd h.head (by decide)
  rw [List.concat_eq_append] at h ⊢
  have hclosed : level (nesting init) (barOpen false init) [c] = 0 :=
    (level_append 0 false init [c]).symm.trans h.closed
  have hopen : nesting init ≠ 0 := by
    by_cases hnil : init = []
    · subst hnil
      obtain rfl := Option.some.inj h.head
      cases hclosed
    · exact h.open_before init (List.prefix_append init [c]) hnil (by simp)
  rw [level_cons, level_nil] at hclosed
  cases hbar : barOpen false init with
  | true =>
    rw [hbar, if_pos rfl] at hclosed
    exact absurd hclosed hopen
  | false =>
    rw [hbar, if_neg Bool.false_ne_true] at hclosed
    have hc : c ≠ '|' := by
      rintro rfl
      exact hopen hclosed
    rw [List.count_append, List.count_singleton, if_neg (by simpa using hc), Nat.add_zero]
    exact barOpen_eq_false_iff.mp hbar

end IsEnclosed

/-- **The forms with parentheses around them are the balanced texts in parentheses.** -/
theorem isEnclosed_iff {f : List Char} : IsEnclosed f ↔ ∃ body, Balanced body ∧ f = parens body := by
  constructor
  · intro h
    obtain ⟨forms, hforms⟩ := exists_splitForms_eq_ok h.not_stray h.closed h.even_bars
    obtain ⟨cs, rfl⟩ := List.head?_eq_some_iff.mp h.head
    obtain ⟨body, text, hbody, hf⟩ := (splitForms_eq_ok_iff.mp hforms).exists_parens
    have hclosed := (nesting_of_splitForms_eq_ok (splitForms_of_isForm (.inr ⟨body, hbody, rfl⟩))).1
    refine ⟨body, hbody, ?_⟩
    by_contra hne
    exact h.open_before (parens body) ⟨text, hf.symm⟩ (List.cons_ne_nil _ _) (Ne.symm hne) hclosed
  · rintro ⟨body, hbody, rfl⟩
    refine ⟨rfl, (nesting_of_splitForms_eq_ok (splitForms_of_isForm (.inr ⟨body, hbody, rfl⟩))).1, ?_⟩
    intro g hg hne hnot
    rcases List.prefix_cons_iff.mp hg with rfl | ⟨g, rfl, hinside⟩
    · exact absurd rfl hne
    rcases List.prefix_concat_iff.mp hinside with rfl | hinside
    · exact absurd rfl hnot
    · exact Nat.ne_of_gt (hbody.le_level hinside 1)

end SmtCount
