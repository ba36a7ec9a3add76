import Mathlib
import SmtCount.Proofs.Nesting

/-!
# Where the forms of a text are

Nothing of a text is lost when it is taken apart.  What is not in a form is blank, and there is one way only to
see the text as forms with blanks between them.

The forms are kept as texts here.  A reader that keeps offsets into the text instead takes the same steps: it
knows where the form that has begun begins, and cuts the text there when the form ends.  Offsets count bytes
while the text is read by characters, so it has to be seen that no cut goes through a character.  The invariant is
that the part of the text that has been read is what is in front of the form that has begun, and that form.

## Main definitions

* `Spread` — a text as blanks and forms in turn; `Spread.IsProper` — two atoms in a row have blanks between them.
* `Span`, `Span.slice`, `Span.Fits` — a piece of a text by its byte offsets.
* `formSpans` — the pieces of a text that are its forms, found by a scanner that keeps offsets.

## Main results

* `Spread.IsProper.unique` — a text is blanks and forms in one way only.
* `slice_formSpans`, `fits_of_mem_formSpans` — both scanners find the same forms, and the offsets are between
  characters of the text.
* `splitForms_loses_nothing` — **which texts are taken apart, into what, and where the others go wrong.**
-/

namespace SmtCount

/-! ### Blanks and forms in turn -/

/-- A text as blanks and forms in turn. -/
@[ext]
structure Spread where
  /-- The blanks in front of all forms. -/
  front : List Char
  /-- The forms, each with the blanks behind it. -/
  pieces : List (List Char × List Char)

/-- Forms with the blanks behind them, as a text. -/
def joinPieces (pieces : List (List Char × List Char)) : List Char :=
  pieces.flatMap fun p => p.1 ++ p.2

namespace Spread

/-- The text that has been seen in this way. -/
def text (s : Spread) : List Char :=
  s.front ++ joinPieces s.pieces

/-- The forms from left to right. -/
def forms (s : Spread) : List (List Char) :=
  s.pieces.map Prod.fst

/-- Are these blanks and forms, and are there blanks between two atoms in a row? -/
structure IsProper (s : Spread) : Prop where
  front : AreBlanks s.front
  blanks : ∀ p ∈ s.pieces, AreBlanks p.2
  form : ∀ p ∈ s.pieces, IsEnclosed p.1 ∨ IsBare p.1
  apart : s.pieces.IsChain fun p q => IsBare p.1 → IsBare q.1 → p.2 ≠ []

end Spread

theorem joinPieces_cons (p : List Char × List Char) (pieces : List (List Char × List Char)) :
    joinPieces (p :: pieces) = p.1 ++ (p.2 ++ joinPieces pieces) := by
  rw [joinPieces, List.flatMap_cons, List.append_assoc]
  rfl

/-- The first character of a form is no blank. -/
theorem isBlank_head_form {f : List Char} (h : IsEnclosed f ∨ IsBare f) (rest : List Char) :
    ∀ c ∈ (f ++ rest).head?, Text.isBlank c = false := by
  have hhead : ∃ c cs, f = c :: cs ∧ Text.isBlank c = false := by
    rcases h with henclosed | hbare
    · obtain ⟨cs, rfl⟩ := List.head?_eq_some_iff.mp henclosed.head
      exact ⟨'(', cs, rfl, by decide⟩
    · obtain ⟨hne, hatom⟩ := isBare_iff.mp hbare
      obtain ⟨c, cs, rfl⟩ := List.exists_cons_of_ne_nil hne
      exact ⟨c, cs, rfl, (hatom.head? c rfl).1⟩
  obtain ⟨c, cs, rfl, hc⟩ := hhead
  rintro d hd
  obtain rfl := Option.some.inj hd
  exact hc

/-- The first character of an atom ends no atom. -/
theorem not_endsAtom_bare {a : List Char} (h : IsBare a) (rest : List Char) : ¬EndsAtom (a ++ rest) := by
  obtain ⟨hne, hatom⟩ := isBare_iff.mp h
  obtain ⟨c, cs, rfl⟩ := List.exists_cons_of_ne_nil hne
  obtain ⟨hblank, hparen⟩ := hatom.head? c rfl
  rintro (hc | hc)
  · rw [hblank] at hc
    cases hc
  · exact hparen (.inl hc)

/-- A form in front of blanks and forms in turn; behind an atom there must be what ends it. -/
theorem Spread.IsProper.cons {s : Spread} (h : s.IsProper) {f : List Char} (hf : IsEnclosed f ∨ IsBare f)
    (hends : IsBare f → EndsAtom s.text) : (⟨[], (f, s.front) :: s.pieces⟩ : Spread).IsProper where
  front := fun _ hc => absurd hc List.not_mem_nil
  blanks := List.forall_mem_cons.mpr ⟨h.front, h.blanks⟩
  form := List.forall_mem_cons.mpr ⟨hf, h.form⟩
  apart := by
    obtain ⟨front, pieces⟩ := s
    cases pieces with
    | nil => exact .singleton _
    | cons q pieces =>
      refine .cons_cons (fun hbare hq hnil => ?_) h.apart
      obtain rfl : front = [] := hnil
      refine not_endsAtom_bare hq (q.2 ++ joinPieces pieces) ?_
      rw [← joinPieces_cons]
      exact hends hbare

/-- A text that is laid out is blanks and forms in turn. -/
theorem LaidOut.exists_spread {forms : List (List Char)} {text : List Char} (h : LaidOut forms text) :
    ∃ s : Spread, s.IsProper ∧ s.text = text ∧ s.forms = forms := by
  induction h with
  | nil => exact ⟨⟨[], []⟩, ⟨by simp [AreBlanks], by simp, by simp, .nil⟩, rfl, rfl⟩
  | @blank c forms text hc _ ih =>
    obtain ⟨s, hproper, rfl, rfl⟩ := ih
    exact ⟨⟨c :: s.front, s.pieces⟩, { hproper with front := List.forall_mem_cons.mpr ⟨hc, hproper.front⟩ }, rfl, rfl⟩
  | atom ha hends _ ih =>
    obtain ⟨s, hproper, rfl, rfl⟩ := ih
    exact ⟨_, hproper.cons (.inr (isBare_iff.mpr ha)) fun _ => hends, joinPieces_cons _ _, rfl⟩
  | @parens body forms text hbody _ ih =>
    obtain ⟨s, hproper, rfl, rfl⟩ := ih
    have hnotBare : ¬IsBare (SmtCount.parens body) := fun hbare => not_isAtom_parens body (isBare_iff.mp hbare)
    exact ⟨_, hproper.cons (.inl (isEnclosed_iff.mpr ⟨body, hbody, rfl⟩)) fun hbare => absurd hbare hnotBare,
      joinPieces_cons _ _, rfl⟩

/-- Blanks and forms in turn are a text that is laid out. -/
theorem Spread.IsProper.laidOut {s : Spread} (h : s.IsProper) : LaidOut s.forms s.text := by
  obtain ⟨front, pieces⟩ := s
  obtain ⟨hfront, hblanks, hform, hapart⟩ := h
  refine LaidOut.blanks_append ?_ hfront
  change LaidOut (pieces.map Prod.fst) (joinPieces pieces)
  clear hfront
  induction pieces with
  | nil => exact .nil
  | cons p pieces ih =>
    obtain ⟨hw, hblanks⟩ := List.forall_mem_cons.mp hblanks
    obtain ⟨hp, hform⟩ := List.forall_mem_cons.mp hform
    have hrest : LaidOut (pieces.map Prod.fst) (p.2 ++ joinPieces pieces) :=
      (ih hblanks hform hapart.tail).blanks_append hw
    rw [joinPieces_cons, List.map_cons]
    rcases hp with henclosed | hbare
    · obtain ⟨body, hbody, hparens⟩ := isEnclosed_iff.mp henclosed
      rw [hparens]
      exact .parens hbody hrest
    · refine .atom (isBare_iff.mp hbare) ?_ hrest
      by_cases hnil : p.2 = []
      · -- only a form in parentheses can follow at once
        rw [hnil, List.nil_append]
        cases pieces with
        | nil => trivial
        | cons q pieces =>
          rcases hform q List.mem_cons_self with henclosed | hq
          · obtain ⟨body, -, hparens⟩ := isEnclosed_iff.mp henclosed
            rw [joinPieces_cons, hparens]
            exact .inr rfl
          · exact absurd hnil ((List.isChain_cons_cons.mp hapart).1 hbare hq)
      · obtain ⟨c, cs, hcs, hc⟩ := hw.head? hnil (joinPieces pieces)
        rw [hcs]
        exact .inl hc

/-- The blanks in front of a text are determined by the text. -/
theorem AreBlanks.append_inj {w w' rest rest' : List Char} (hw : AreBlanks w) (hw' : AreBlanks w')
    (hrest : ∀ c ∈ rest.head?, Text.isBlank c = false) (hrest' : ∀ c ∈ rest'.head?, Text.isBlank c = false)
    (h : w ++ rest = w' ++ rest') : w = w' ∧ rest = rest' := by
  have hnil {w rest rest' : List Char} (hw : AreBlanks w) (hrest : ∀ c ∈ rest.head?, Text.isBlank c = false)
      (h : rest = w ++ rest') : w = [] := by
    cases w with
    | nil => rfl
    | cons c w =>
      subst h
      exact absurd (hw c List.mem_cons_self) (Bool.eq_false_iff.mp (hrest c rfl))
  rcases List.append_eq_append_iff.mp h with ⟨m, rfl, hm⟩ | ⟨m, rfl, hm⟩
  · obtain rfl := hnil (fun c hc => hw' c (List.mem_append_right w hc)) hrest hm
    exact ⟨(List.append_nil w).symm, hm⟩
  · obtain rfl := hnil (fun c hc => hw c (List.mem_append_right w' hc)) hrest' hm
    exact ⟨List.append_nil w', hm.symm⟩

/-- The blanks of a text are determined by its forms. -/
theorem eq_of_joinPieces_eq {w w' : List Char} {pieces pieces' : List (List Char × List Char)}
    (hw : AreBlanks w) (hw' : AreBlanks w') (hblanks : ∀ p ∈ pieces, AreBlanks p.2)
    (hblanks' : ∀ p ∈ pieces', AreBlanks p.2) (hform : ∀ p ∈ pieces, IsEnclosed p.1 ∨ IsBare p.1)
    (hsame : pieces.map Prod.fst = pieces'.map Prod.fst) (h : w ++ joinPieces pieces = w' ++ joinPieces pieces') :
    w = w' ∧ pieces = pieces' := by
  induction pieces generalizing w w' pieces' with
  | nil =>
    obtain rfl := List.map_eq_nil_iff.mp hsame.symm
    exact ⟨List.append_cancel_right h, rfl⟩
  | cons p pieces ih =>
    cases pieces' with
    | nil => cases hsame
    | cons q pieces' =>
      obtain ⟨f, v⟩ := p
      obtain ⟨g, v'⟩ := q
      obtain ⟨rfl, hrest⟩ := List.cons.inj hsame
      obtain ⟨hv, hblanks⟩ := List.forall_mem_cons.mp hblanks
      obtain ⟨hv', hblanks'⟩ := List.forall_mem_cons.mp hblanks'
      obtain ⟨hf, hform⟩ := List.forall_mem_cons.mp hform
      rw [joinPieces_cons, joinPieces_cons] at h
      obtain ⟨rfl, hbehind⟩ := hw.append_inj hw' (isBlank_head_form hf _) (isBlank_head_form hf _) h
      obtain ⟨rfl, rfl⟩ := ih hv hv' hblanks hblanks' hform hrest (List.append_cancel_left hbehind)
      exact ⟨rfl, rfl⟩

/-- **A text is blanks and forms in one way only.** -/
theorem Spread.IsProper.unique {s t : Spread} (hs : s.IsProper) (ht : t.IsProper) (h : s.text = t.text) : s = t := by
  have hsame : s.forms = t.forms := hs.laidOut.unique (h ▸ ht.laidOut)
  obtain ⟨hfront, hpieces⟩ :=
    eq_of_joinPieces_eq hs.front ht.front hs.blanks ht.blanks hs.form hsame h
  exact Spread.ext hfront hpieces

/-! ### Pieces of a text -/

/-- A piece of a text, by the byte offsets of its begin and its end. -/
structure Span where
  start : Nat
  stop : Nat
  deriving DecidableEq, Repr

namespace Span

/-- The text of the piece. -/
def slice (text : String) (p : Span) : List Char :=
  (String.Pos.Raw.extract text ⟨p.start⟩ ⟨p.stop⟩).toList

/-- Are both offsets in the text and between characters, and is something between them? -/
structure Fits (text : String) (p : Span) : Prop where
  start_valid : String.Pos.Raw.IsValid text ⟨p.start⟩
  stop_valid : String.Pos.Raw.IsValid text ⟨p.stop⟩
  start_lt : p.start < p.stop

end Span

/-- What is known in the middle of a text, by offsets into it. -/
structure SpanScanner where
  /-- How many parentheses are open. -/
  depth : Nat := 0
  /-- Is a bar open? -/
  quoted : Bool := false
  /-- Where the form that has begun begins. -/
  start : Option Nat := none
  /-- The forms that have ended, last form first. -/
  ended : List Span := []
  deriving Repr

namespace SpanScanner

/-- Ends the form that has begun at an offset, if one has. -/
def endAt (m : SpanScanner) (offset : Nat) : SpanScanner :=
  match m.start with
  | none => m
  | some start => { m with start := none, ended := ⟨start, offset⟩ :: m.ended }

@[simp] theorem endAt_depth (m : SpanScanner) (offset : Nat) : (m.endAt offset).depth = m.depth := by
  unfold endAt
  split <;> rfl

/-- No form has begun behind the end of one. -/
@[simp] theorem endAt_start (m : SpanScanner) (offset : Nat) : (m.endAt offset).start = none := by
  unfold endAt
  split
  · assumption
  · rfl

/-- Begins a form at an offset, if none has begun. -/
def beginAt (m : SpanScanner) (offset : Nat) : SpanScanner :=
  { m with start := some (m.start.getD offset) }

/-- Opens a parenthesis at an offset.  Outside of all others it begins a form. -/
def openAt (m : SpanScanner) (offset : Nat) : SpanScanner :=
  if m.depth = 0 then { m.endAt offset with start := some offset, depth := 1 }
  else { m with depth := m.depth + 1 }

/-- Closes a parenthesis at an offset.  The outermost one ends its form behind it. -/
def closeAt? (m : SpanScanner) (offset : Nat) : Option SpanScanner :=
  match m.depth with
  | 0 => none
  | 1 => some ({ m with depth := 0 }.endAt (offset + 1))
  | depth + 2 => some { m with depth := depth + 1 }

/-- Reads a character at an offset. -/
def step? (m : SpanScanner) (offset : Nat) (c : Char) : Option SpanScanner :=
  if m.quoted then some { m with quoted := c ≠ '|' }
  else if c = '|' then some { m.beginAt offset with quoted := true }
  else if c = '(' then some (m.openAt offset)
  else if c = ')' then m.closeAt? offset
  else if Text.isBlank c then some (if m.depth = 0 then m.endAt offset else m)
  else some (m.beginAt offset)

/-- Reads the rest of a text, which begins at a byte offset, and gives all forms. -/
def run (m : SpanScanner) (offset : Nat) : List Char → Except Unbalanced (List Span)
  | [] => if m.depth = 0 ∧ !m.quoted then .ok (m.endAt offset).ended.reverse else .error ⟨offset⟩
  | c :: cs =>
    match m.step? offset c with
    | none => .error ⟨offset⟩
    | some m => m.run (offset + c.utf8Size) cs

end SpanScanner

/-- The pieces of a text that are its forms, from left to right. -/
def formSpans (text : String) : Except Unbalanced (List Span) :=
  SpanScanner.run {} 0 text.toList

/-! ### The same steps -/

/-- Is this form in the text at this piece? -/
structure SpanOf (text : List Char) (p : Span) (f : List Char) : Prop where
  ne_nil : f ≠ []
  found : ∃ front behind, text = front ++ f ++ behind ∧ p.start = String.utf8Len front ∧
    p.stop = String.utf8Len (front ++ f)

/-- Has the form that is at the end of the text begun at this offset? -/
def BegunAt (before current : List Char) : Option Nat → Prop
  | none => current = []
  | some start => current ≠ [] ∧ ∃ front, before = front ++ current ∧ start = String.utf8Len front

/-- Do both scanners know the same behind a text?  A form has begun where something is open. -/
structure Traces (before : List Char) (m : SpanScanner) (s : Scanner) : Prop where
  depth : m.depth = s.depth
  quoted : m.quoted = s.quoted
  begun : BegunAt before s.current.reverse m.start
  ended : List.Forall₂ (SpanOf before) m.ended s.ended
  open_begun : m.depth ≠ 0 ∨ m.quoted = true → m.start.isSome = true

theorem SpanOf.append {text : List Char} {p : Span} {f : List Char} (h : SpanOf text p f) (behind : List Char) :
    SpanOf (text ++ behind) p f := by
  obtain ⟨hne, front, rest, rfl, hstart, hstop⟩ := h
  exact ⟨hne, front, rest ++ behind, List.append_assoc _ rest behind, hstart, hstop⟩

namespace Traces

variable {before : List Char} {m : SpanScanner} {s : Scanner}

/-- Where a form has begun none is begun. -/
theorem beginAt_eq (h : Traces before m s) (hopen : m.depth ≠ 0 ∨ m.quoted = true) (offset : Nat) :
    m.beginAt offset = m := by
  obtain ⟨start, hstart⟩ := Option.isSome_iff_exists.mp (h.open_begun hopen)
  obtain ⟨depth, quoted, _, ended⟩ := m
  obtain rfl : _ = some start := hstart
  rfl

/-- A character is added to the form that has begun. -/
theorem push (h : Traces before m s) (c : Char) :
    Traces (before ++ [c]) (m.beginAt (String.utf8Len before)) (s.push c) := by
  obtain ⟨hdepth, hquoted, hbegun, hended, -⟩ := h
  refine ⟨hdepth, hquoted, ?_, hended.imp fun _ _ hp => hp.append [c], fun _ => rfl⟩
  rw [Scanner.push, List.reverse_cons, SpanScanner.beginAt]
  cases hstart : m.start with
  | none =>
    rw [hstart] at hbegun
    have hnil : s.current.reverse = [] := hbegun
    rw [hnil]
    exact ⟨List.cons_ne_nil c [], before, rfl, rfl⟩
  | some start =>
    rw [hstart] at hbegun
    obtain ⟨-, front, hfront, hlen⟩ := hbegun
    exact ⟨List.concat_ne_nil c _, front, by rw [hfront, List.append_assoc], hlen⟩

/-- The form that has begun is ended here. -/
theorem flush (h : Traces before m s) (hdepth : m.depth = 0) (hquoted : m.quoted = false) :
    Traces before (m.endAt (String.utf8Len before)) s.flush := by
  have hclosed : ¬(m.depth ≠ 0 ∨ m.quoted = true) := by
    rw [hquoted]
    exact fun h => h.elim (fun hne => hne hdepth) Bool.false_ne_true
  obtain ⟨hd, hq, hbegun, hended, -⟩ := h
  rw [Scanner.flush_eq, SpanScanner.endAt]
  cases hstart : m.start with
  | none =>
    rw [hstart] at hbegun
    have hnil : s.current.reverse = [] := hbegun
    rw [hnil]
    refine ⟨hd, hq, ?_, hended, fun hopen => absurd hopen hclosed⟩
    rw [hstart]
    rfl
  | some start =>
    rw [hstart] at hbegun
    obtain ⟨hne, front, hfront, hlen⟩ := hbegun
    have hform : SpanOf before ⟨start, String.utf8Len before⟩ s.current.reverse :=
      ⟨hne, front, [], by rw [List.append_nil, hfront], hlen, congrArg _ hfront⟩
    rw [begunForm, if_neg hne]
    exact ⟨hd, hq, rfl, .cons hform hended, fun hopen => absurd hopen hclosed⟩

/-- A blank is left out where no form has begun. -/
theorem skip (h : Traces before m s) (hstart : m.start = none) (c : Char) : Traces (before ++ [c]) m s := by
  obtain ⟨hdepth, hquoted, hbegun, hended, hopen⟩ := h
  rw [hstart] at hbegun
  refine ⟨hdepth, hquoted, ?_, hended.imp fun _ _ hp => hp.append [c], hopen⟩
  rw [hstart]
  exact hbegun

theorem withDepth (h : Traces before m s) (hstart : m.start.isSome = true) (depth : Nat) :
    Traces before { m with depth } { s with depth } :=
  ⟨rfl, h.quoted, h.begun, h.ended, fun _ => hstart⟩

theorem withQuoted (h : Traces before m s) (hstart : m.start.isSome = true) (quoted : Bool) :
    Traces before { m with quoted } { s with quoted } :=
  ⟨h.depth, rfl, h.begun, h.ended, fun _ => hstart⟩

theorem openAt (h : Traces before m s) (hquoted : m.quoted = false) :
    Traces (before ++ ['(']) (m.openAt (String.utf8Len before)) s.openParen := by
  unfold SpanScanner.openAt Scanner.openParen
  rw [← h.depth]
  by_cases hdepth : m.depth = 0
  · have hflush := h.flush hdepth hquoted
    have hzero : s.flush.depth = 0 := by rw [← hflush.depth, SpanScanner.endAt_depth, hdepth]
    have hpush := (hflush.push '(').withDepth rfl 1
    rw [SpanScanner.beginAt, SpanScanner.endAt_start] at hpush
    rw [if_pos hdepth, if_pos hdepth]
    dsimp only
    rw [hzero]
    exact hpush
  · have hpush := h.push '('
    rw [h.beginAt_eq (.inl hdepth)] at hpush
    rw [if_neg hdepth, if_neg hdepth]
    dsimp only
    rw [← h.depth]
    exact hpush.withDepth (h.open_begun (.inl hdepth)) (m.depth + 1)

theorem closeAt? (h : Traces before m s) (hquoted : m.quoted = false) :
    Option.Rel (Traces (before ++ [')'])) (m.closeAt? (String.utf8Len before)) s.closeParen? := by
  have hoffset : String.utf8Len (before ++ [')']) = String.utf8Len before + 1 := String.utf8Len_append _ _
  have hkeep (hopen : m.depth ≠ 0) (depth : Nat) :
      Traces (before ++ [')']) { m with depth } { s.push ')' with depth } := by
    have hpush := h.push ')'
    rw [h.beginAt_eq (.inl hopen)] at hpush
    exact hpush.withDepth (h.open_begun (.inl hopen)) depth
  unfold SpanScanner.closeAt? Scanner.closeParen?
  rw [← h.depth]
  rcases hdepth : m.depth with _ | _ | depth
  · exact .none
  · rw [← hoffset]
    exact .some ((hkeep (by omega) 0).flush rfl hquoted)
  · exact .some (hkeep (by omega) (depth + 1))

/-- **Both scanners take the same step.** -/
theorem step? (h : Traces before m s) (c : Char) :
    Option.Rel (Traces (before ++ [c])) (m.step? (String.utf8Len before) c) (s.step? c) := by
  have hpush := h.push c
  unfold SpanScanner.step? Scanner.step?
  rw [← h.quoted, ← h.depth]
  by_cases hquoted : m.quoted = true
  · rw [h.beginAt_eq (.inr hquoted)] at hpush
    rw [if_pos hquoted, if_pos hquoted]
    exact .some (hpush.withQuoted (h.open_begun (.inr hquoted)) _)
  rw [if_neg hquoted, if_neg hquoted]
  rw [Bool.not_eq_true] at hquoted
  by_cases hbar : c = '|'
  · rw [if_pos hbar, if_pos hbar]
    exact .some (hpush.withQuoted rfl true)
  rw [if_neg hbar, if_neg hbar]
  by_cases hopen : c = '('
  · subst hopen
    exact .some (h.openAt hquoted)
  rw [if_neg hopen, if_neg hopen]
  by_cases hclose : c = ')'
  · subst hclose
    exact h.closeAt? hquoted
  rw [if_neg hclose, if_neg hclose]
  by_cases hblank : Text.isBlank c = true
  · by_cases hdepth : m.depth = 0
    · have hskip := (h.flush hdepth hquoted).skip (m.endAt_start _) c
      simpa [hblank, hdepth] using Option.Rel.some hskip
    · rw [h.beginAt_eq (.inl hdepth)] at hpush
      simpa [hblank, hdepth] using Option.Rel.some hpush
  · simpa [hblank] using Option.Rel.some hpush

end Traces

/-- Do both scanners give the same forms of a text, or the same error? -/
inductive SpansOf (text : List Char) :
    Except Unbalanced (List Span) → Except Unbalanced (List (List Char)) → Prop
  | ok {spans : List Span} {forms : List (List Char)} : List.Forall₂ (SpanOf text) spans forms →
    SpansOf text (.ok spans) (.ok forms)
  | error (u : Unbalanced) : SpansOf text (.error u) (.error u)

/-- **Both scanners read the rest of a text in the same way.** -/
theorem Traces.run {before : List Char} {m : SpanScanner} {s : Scanner} (h : Traces before m s) (cs : List Char) :
    SpansOf (before ++ cs) (m.run (String.utf8Len before) cs) (s.run (String.utf8Len before) cs) := by
  induction cs generalizing before m s with
  | nil =>
    rw [SpanScanner.run, Scanner.run, ← h.depth, ← h.quoted]
    split
    · rename_i hend
      obtain ⟨hdepth, hquoted⟩ := hend
      have hflush := h.flush hdepth (by simpa using hquoted)
      rw [List.append_nil]
      exact .ok (List.rel_reverse hflush.ended)
    · exact .error _
  | cons c cs ih =>
    rw [SpanScanner.run, Scanner.run]
    have hstep := h.step? c
    generalize m.step? (String.utf8Len before) c = m', s.step? c = s' at hstep ⊢
    cases hstep with
    | none => exact .error _
    | some hnext =>
      have hoffset : String.utf8Len (before ++ [c]) = String.utf8Len before + c.utf8Size := by simp
      have hrest := ih hnext
      rw [hoffset, ← List.append_cons] at hrest
      exact hrest

/-- Both scanners begin with nothing. -/
theorem traces_nil : Traces [] {} {} :=
  ⟨rfl, rfl, rfl, .nil, by simp⟩

theorem spansOf_formSpans (text : String) : SpansOf text.toList (formSpans text) (splitForms text.toList) :=
  traces_nil.run text.toList

/-! ### Cuts between characters -/

theorem isValid_utf8Len {text : String} {front behind : List Char} (h : text.toList = front ++ behind) :
    String.Pos.Raw.IsValid text ⟨String.utf8Len front⟩ := by
  refine String.Pos.Raw.isValid_iff_exists_append.mpr ⟨String.ofList front, String.ofList behind, ?_, ?_⟩
  · rw [← String.ofList_append, ← h, String.ofList_toList]
  · rw [String.rawEndPos_ofList]

section SpanOf

variable {text : String} {p : Span} {f : List Char}

/-- A form that is in the text at a piece is the text of the piece. -/
theorem SpanOf.slice_eq (h : SpanOf text.toList p f) : p.slice text = f := by
  obtain ⟨-, front, behind, htext, hstart, hstop⟩ := h
  have hsliced := String.extract_of_valid front f behind
  rw [← htext, String.ofList_toList, ← String.utf8Len_append, ← hstart, ← hstop] at hsliced
  rw [Span.slice, hsliced, String.toList_ofList]

theorem SpanOf.fits (h : SpanOf text.toList p f) : p.Fits text := by
  obtain ⟨hne, front, behind, htext, hstart, hstop⟩ := h
  refine ⟨?_, ?_, ?_⟩
  · rw [hstart]
    exact isValid_utf8Len (htext.trans (List.append_assoc front f behind))
  · rw [hstop]
    exact isValid_utf8Len htext
  · have hpos : String.utf8Len f ≠ 0 := fun hzero => hne (String.utf8Len_eq_zero.mp hzero)
    rw [hstart, hstop, String.utf8Len_append]
    omega

end SpanOf

/-- **Both scanners find the same forms**, or the same error. -/
theorem slice_formSpans (text : String) :
    (formSpans text).map (List.map (Span.slice text)) = splitForms text.toList := by
  have h := spansOf_formSpans text
  generalize formSpans text = spans, splitForms text.toList = forms at h ⊢
  cases h with
  | ok h =>
    refine congrArg Except.ok ?_
    induction h with
    | nil => rfl
    | cons hp _ ih => rw [List.map_cons, hp.slice_eq, ih]
  | error u => rfl

/-- **The offsets are between characters of the text.** -/
theorem fits_of_mem_formSpans {text : String} {spans : List Span} (h : formSpans text = .ok spans) :
    ∀ p ∈ spans, p.Fits text := by
  have hspans := spansOf_formSpans text
  rw [h] at hspans
  generalize splitForms text.toList = forms at hspans
  cases hspans with
  | ok hforms =>
    clear h
    induction hforms with
    | nil => exact fun p hp => absurd hp List.not_mem_nil
    | cons hp _ ih => exact List.forall_mem_cons.mpr ⟨hp.fits, ih⟩

/-! ### Nothing is lost -/

/-- **Which texts are taken apart, into what, and where the others go wrong.**

A text goes wrong at its first parenthesis that closes nothing, or at its end if a parenthesis or a bar is open
there.  Every other text is blanks and forms in turn, in one way only, and those are its forms.  Offsets that are
kept while the text is read cut the same forms out of it, each between two characters. -/
theorem splitForms_loses_nothing (text : String) :
    (∀ before, Stray text.toList before → (∀ b, ¬Stray before b) →
      splitForms text.toList = .error ⟨String.utf8Len before⟩) ∧
    ((∃ before, Stray text.toList before) → ∃ before, Stray text.toList before ∧ ∀ b, ¬Stray before b) ∧
    ((∀ before, ¬Stray text.toList before) → nesting text.toList ≠ 0 ∨ ¬Even (text.toList.count '|') →
      splitForms text.toList = .error ⟨text.utf8ByteSize⟩) ∧
    ((∀ before, ¬Stray text.toList before) → nesting text.toList = 0 → Even (text.toList.count '|') →
      ∃ s : Spread, splitForms text.toList = .ok s.forms ∧ s.IsProper ∧ s.text = text.toList ∧
        ∀ t : Spread, t.IsProper → t.text = text.toList → t = s) ∧
    (formSpans text).map (List.map (Span.slice text)) = splitForms text.toList ∧
    ∀ spans, formSpans text = .ok spans → ∀ p ∈ spans, p.Fits text := by
  refine ⟨fun before => splitForms_of_stray, fun ⟨before, h⟩ => exists_first_stray h, fun hstray hopen => ?_,
    fun hstray hnesting heven => ?_, slice_formSpans text, fun spans => fits_of_mem_formSpans⟩
  · rw [splitForms_of_open hstray hopen, String.utf8Len_toList]
  · obtain ⟨forms, hforms⟩ := exists_splitForms_eq_ok hstray hnesting heven
    obtain ⟨s, hs, htext, rfl⟩ := (splitForms_eq_ok_iff.mp hforms).exists_spread
    exact ⟨s, hforms, hs, htext, fun t ht h => ht.unique hs (h.trans htext.symm)⟩

end SmtCount
