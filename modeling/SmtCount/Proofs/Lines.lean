import Mathlib
import SmtCount.Proofs.ModelText
import SmtCount.Text.Lines

/-!
# Texts in one line

Joining the lines of a text puts a space in place of the end of each line, but for the last one.  The ends of
lines are blanks and so is the space, so the words of a text stay the same, and what is trimmed off it are
the same blanks.

## Main definitions

* `Text.inOneLine` — a text with a space in place of each end of a line.

## Main results

* `Text.lines_feed`, `Text.lines_return_feed`, `Text.lines_cons` — the lines of a text, from its first character on.
* `Text.line_induction` — what holds of a text, from its first character or end of a line on.
* `Text.exists_inOneLine_eq` — **the joined lines are the text in one line**, but for a space behind them.
* `Text.words_append_inOneLine` — the words stay the same.
* `Text.trimStart_inOneLine`, `Text.trimEnd_inOneLine` — a text may be trimmed before or after.
-/

namespace SmtCount

namespace Text

/-! ### Lines -/

theorem splitOn_feed (cs : List Char) : ('\n' :: cs).splitOn '\n' = [] :: cs.splitOn '\n' := by
  simp [List.splitOn, List.splitOnP_cons_eq_if_modifyHead]

theorem splitOn_cons {c : Char} (hc : c ≠ '\n') (cs : List Char) :
    (c :: cs).splitOn '\n' = (cs.splitOn '\n').modifyHead (c :: ·) := by
  simp [List.splitOn, List.splitOnP_cons_eq_if_modifyHead, hc]

theorem exists_splitOn_eq (cs : List Char) : ∃ piece pieces, cs.splitOn '\n' = piece :: pieces :=
  List.exists_cons_of_ne_nil (List.splitOnP_ne_nil _ cs)

theorem lines_feed (cs : List Char) : lines ('\n' :: cs) = [] :: lines cs := by
  obtain ⟨piece, pieces, hpieces⟩ := exists_splitOn_eq cs
  rw [lines, lines, splitOn_feed, hpieces]
  rfl

theorem lines_return_feed (cs : List Char) : lines ('\r' :: '\n' :: cs) = [] :: lines cs := by
  obtain ⟨piece, pieces, hpieces⟩ := exists_splitOn_eq cs
  rw [lines, lines, splitOn_cons (by decide), splitOn_feed, hpieces]
  rfl

theorem dropReturn_cons {c : Char} {line : List Char} (h : c = '\r' → line ≠ []) :
    dropReturn (c :: line) = c :: dropReturn line := by
  unfold dropReturn
  cases line with
  | nil =>
    have hc : c ≠ '\r' := fun hc => h hc rfl
    simp [hc]
  | cons d line =>
    rw [List.getLast?_cons_cons]
    split <;> rfl

/-- A character that ends no line stands in the first one. -/
theorem lines_cons {c : Char} {cs : List Char} (hfeed : c ≠ '\n')
    (hreturn : ∀ rest, c = '\r' → cs ≠ '\n' :: rest) :
    lines (c :: cs) = (c :: (lines cs).headD []) :: (lines cs).tail := by
  obtain ⟨piece, pieces, hpieces⟩ := exists_splitOn_eq cs
  rw [lines, lines, splitOn_cons hfeed, hpieces, List.modifyHead_cons]
  cases pieces with
  | nil => cases piece <;> rfl
  | cons next pieces =>
    -- an empty piece in front of others ends with a line feed
    have hline : c = '\r' → piece ≠ [] := by
      rintro hc rfl
      cases cs with
      | nil => cases hpieces
      | cons d rest =>
        have hd : d ≠ '\n' := fun hd => hreturn rest hc (hd ▸ rfl)
        obtain ⟨first, others, hrest⟩ := exists_splitOn_eq rest
        rw [splitOn_cons hd, hrest] at hpieces
        cases hpieces
    have hstep (line : List Char) :
        linesOfPieces (line :: next :: pieces) = dropReturn line :: linesOfPieces (next :: pieces) := rfl
    rw [hstep, hstep, dropReturn_cons hline]
    rfl

/-! ### One line -/

/-- A text with a space in place of each end of a line. -/
def inOneLine : List Char → List Char
  | [] => []
  | '\n' :: cs => ' ' :: inOneLine cs
  | '\r' :: '\n' :: cs => ' ' :: inOneLine cs
  | c :: cs => c :: inOneLine cs

theorem inOneLine_feed (cs : List Char) : inOneLine ('\n' :: cs) = ' ' :: inOneLine cs := rfl

theorem inOneLine_return_feed (cs : List Char) : inOneLine ('\r' :: '\n' :: cs) = ' ' :: inOneLine cs := rfl

theorem inOneLine_cons {c : Char} {cs : List Char} (hfeed : c ≠ '\n')
    (hreturn : ∀ rest, c = '\r' → cs ≠ '\n' :: rest) : inOneLine (c :: cs) = c :: inOneLine cs := by
  rw [inOneLine]
  · exact hfeed
  · exact hreturn

/-- A text begins with the end of a line, of one of both kinds, or with another character. -/
@[elab_as_elim]
theorem line_induction {motive : List Char → Prop} (nil : motive [])
    (feed : ∀ cs, motive cs → motive ('\n' :: cs))
    (return_feed : ∀ cs, motive cs → motive ('\r' :: '\n' :: cs))
    (cons : ∀ c cs, c ≠ '\n' → (∀ rest, c = '\r' → cs ≠ '\n' :: rest) → motive cs → motive (c :: cs))
    (text : List Char) : motive text :=
  inOneLine.induct motive nil feed return_feed cons text

theorem lines_eq_nil_iff {text : List Char} : lines text = [] ↔ text = [] := by
  induction text using line_induction with
  | nil => exact iff_of_true rfl rfl
  | feed cs _ => simp [lines_feed]
  | return_feed cs _ => simp [lines_return_feed]
  | cons c cs hfeed hreturn _ => simp [lines_cons hfeed hreturn]

theorem intercalate_nil_cons (sep : List Char) {rest : List (List Char)} (h : rest ≠ []) :
    List.intercalate sep ([] :: rest) = sep ++ List.intercalate sep rest := by
  obtain ⟨line, rest, rfl⟩ := List.exists_cons_of_ne_nil h
  simp

/-- What is behind the end of the last line is dropped when lines are joined. -/
theorem exists_inOneLine_eq (text : List Char) :
    ∃ behind, inOneLine text = List.intercalate [' '] (lines text) ++ behind ∧ (behind = [] ∨ behind = [' ']) := by
  -- an end of a line is a space, unless nothing follows
  have hend (cs : List Char)
      (ih : ∃ behind, inOneLine cs = List.intercalate [' '] (lines cs) ++ behind ∧ (behind = [] ∨ behind = [' '])) :
      ∃ behind, ' ' :: inOneLine cs = List.intercalate [' '] ([] :: lines cs) ++ behind ∧
        (behind = [] ∨ behind = [' ']) := by
    by_cases hcs : cs = []
    · subst hcs
      exact ⟨[' '], rfl, .inr rfl⟩
    · obtain ⟨behind, heq, hbehind⟩ := ih
      refine ⟨behind, ?_, hbehind⟩
      rw [intercalate_nil_cons _ (lines_eq_nil_iff.not.mpr hcs), heq]
      rfl
  induction text using line_induction with
  | nil => exact ⟨[], rfl, .inl rfl⟩
  | feed cs ih =>
    rw [lines_feed]
    exact hend cs ih
  | return_feed cs ih =>
    rw [lines_return_feed]
    exact hend cs ih
  | cons c cs hfeed hreturn ih =>
    obtain ⟨behind, heq, hbehind⟩ := ih
    refine ⟨behind, ?_, hbehind⟩
    rw [inOneLine_cons hfeed hreturn, lines_cons hfeed hreturn, heq]
    cases hlines : lines cs with
    | nil => simp
    | cons line rest => cases rest <;> simp

/-! ### Words in one line -/

theorem isBlank_feed : isBlank '\n' = true := by decide

theorem isBlank_return : isBlank '\r' = true := by decide

theorem isBlank_space : isBlank ' ' = true := by decide

/-- A blank ends a word. -/
theorem words_append_cons_of_isBlank {c : Char} (hc : isBlank c = true) (w cs : List Char) :
    words (w ++ c :: cs) = words w ++ words cs := by
  rw [words, List.splitOnP_append_cons w cs hc, List.filter_append]
  rfl

/-- The words of a text are those that it has in one line, also behind the begin of one. -/
theorem words_append_inOneLine (w text : List Char) : words (w ++ inOneLine text) = words (w ++ text) := by
  induction text using line_induction generalizing w with
  | nil => rfl
  | feed cs ih =>
    rw [inOneLine_feed, words_append_cons_of_isBlank isBlank_space, words_append_cons_of_isBlank isBlank_feed]
    exact congrArg _ (ih [])
  | return_feed cs ih =>
    rw [inOneLine_return_feed, words_append_cons_of_isBlank isBlank_space, words_append_cons_of_isBlank isBlank_return,
      words_cons_of_isBlank isBlank_feed]
    exact congrArg _ (ih [])
  | cons c cs hfeed hreturn ih =>
    rw [inOneLine_cons hfeed hreturn]
    simpa using ih (w ++ [c])

theorem trimStart_inOneLine (text : List Char) : trimStart (inOneLine text) = inOneLine (trimStart text) := by
  induction text using line_induction with
  | nil => rfl
  | feed cs ih =>
    rw [inOneLine_feed, trimStart_cons_of_isBlank isBlank_space, trimStart_cons_of_isBlank isBlank_feed, ih]
  | return_feed cs ih =>
    rw [inOneLine_return_feed, trimStart_cons_of_isBlank isBlank_space, trimStart_cons_of_isBlank isBlank_return,
      trimStart_cons_of_isBlank isBlank_feed, ih]
  | cons c cs hfeed hreturn ih =>
    rw [inOneLine_cons hfeed hreturn]
    cases hc : isBlank c with
    | true => rw [trimStart_cons_of_isBlank hc, trimStart_cons_of_isBlank hc, ih]
    | false =>
      rw [trimStart_cons_of_not_isBlank hc, trimStart_cons_of_not_isBlank hc, inOneLine_cons hfeed hreturn]

/-- Two texts in one line, if no end of a line lies on both sides. -/
theorem inOneLine_append {cs ds : List Char} (h : cs.getLast? = some '\r' → ds.head? ≠ some '\n') :
    inOneLine (cs ++ ds) = inOneLine cs ++ inOneLine ds := by
  have hrest {c : Char} {cs : List Char} (h : (c :: cs).getLast? = some '\r' → ds.head? ≠ some '\n') :
      cs.getLast? = some '\r' → ds.head? ≠ some '\n' := fun hlast =>
    h (by rw [List.getLast?_cons, hlast]; rfl)
  induction cs using line_induction with
  | nil => rfl
  | feed cs ih =>
    rw [List.cons_append, inOneLine_feed, inOneLine_feed, ih (hrest h)]
    rfl
  | return_feed cs ih =>
    rw [List.cons_append, List.cons_append, inOneLine_return_feed, inOneLine_return_feed, ih (hrest (hrest h))]
    rfl
  | cons c cs hfeed hreturn ih =>
    -- a carriage return in front of the line feed of the other text is the one thing that could go wrong
    have hboth (rest : List Char) (hc : c = '\r') : cs ++ ds ≠ '\n' :: rest := by
      cases cs with
      | nil =>
        intro hds
        rw [List.nil_append] at hds
        exact h (by rw [hc]; rfl) (by rw [hds]; rfl)
      | cons d cs => exact fun hcs => hreturn cs hc (by rw [(List.cons.inj hcs).1])
    rw [List.cons_append, inOneLine_cons hfeed hboth, inOneLine_cons hfeed hreturn, ih (hrest h)]
    rfl

theorem getLast?_inOneLine (text : List Char) :
    (inOneLine text).getLast? = text.getLast?.map fun c => if c = '\n' then ' ' else c := by
  induction text using line_induction with
  | nil => rfl
  | feed cs ih =>
    rw [inOneLine_feed, List.getLast?_cons, List.getLast?_cons, ih]
    cases cs.getLast? <;> rfl
  | return_feed cs ih =>
    rw [inOneLine_return_feed, List.getLast?_cons, List.getLast?_cons, List.getLast?_cons, ih]
    cases cs.getLast? <;> rfl
  | cons c cs hfeed hreturn ih =>
    rw [inOneLine_cons hfeed hreturn, List.getLast?_cons, List.getLast?_cons, ih]
    cases cs.getLast? with
    | none => exact congrArg some (if_neg hfeed).symm
    | some d => rfl

theorem isBlank_of_mem_inOneLine {text : List Char} (h : ∀ c ∈ text, isBlank c = true) :
    ∀ c ∈ inOneLine text, isBlank c = true := by
  induction text using line_induction with
  | nil => exact h
  | feed cs ih => exact List.forall_mem_cons.mpr ⟨isBlank_space, ih (List.forall_mem_cons.mp h).2⟩
  | return_feed cs ih =>
    exact List.forall_mem_cons.mpr ⟨isBlank_space, ih (List.forall_mem_cons.mp (List.forall_mem_cons.mp h).2).2⟩
  | cons c cs hfeed hreturn ih =>
    rw [inOneLine_cons hfeed hreturn]
    obtain ⟨hc, hcs⟩ := List.forall_mem_cons.mp h
    exact List.forall_mem_cons.mpr ⟨hc, ih hcs⟩

/-! ### Blanks at the end -/

theorem trimEnd_append {behind : List Char} (h : ∀ c ∈ behind, isBlank c = true) (cs : List Char) :
    trimEnd (cs ++ behind) = trimEnd cs := by
  rw [trimEnd, trimEnd, List.reverse_append,
    List.dropWhile_append_of_pos fun c hc => h c (List.mem_reverse.mp hc)]

theorem trim_append {behind : List Char} (h : ∀ c ∈ behind, isBlank c = true) (cs : List Char) :
    trim (cs ++ behind) = trim cs := by
  rw [trim, trim]
  unfold trimStart
  rw [List.dropWhile_append]
  split
  · rename_i hnil
    rw [List.isEmpty_iff.mp hnil, List.dropWhile_eq_nil_iff.mpr h]
  · exact trimEnd_append h _

/-- What does not end with a blank stays as it is. -/
theorem trimEnd_eq_self {cs : List Char} (h : ∀ c, cs.getLast? = some c → isBlank c = false) :
    trimEnd cs = cs := by
  induction cs using List.reverseRecOn with
  | nil => rfl
  | append_singleton cs c _ =>
    have hc := h c List.getLast?_concat
    simp [trimEnd, hc]

/-- A text is what is left of it, and blanks. -/
theorem exists_eq_trimEnd_append (text : List Char) : ∃ behind, text = trimEnd text ++ behind ∧
    (∀ c ∈ behind, isBlank c = true) ∧ ∀ c, (trimEnd text).getLast? = some c → isBlank c = false := by
  refine ⟨(text.reverse.takeWhile isBlank).reverse, ?_, fun c hc => ?_, fun c hc => ?_⟩
  · rw [trimEnd, ← List.reverse_append, List.takeWhile_append_dropWhile, List.reverse_reverse]
  · exact List.mem_takeWhile_imp (List.mem_reverse.mp hc)
  · rw [trimEnd, List.getLast?_reverse] at hc
    have hfirst := List.head?_dropWhile_not isBlank text.reverse
    rw [hc] at hfirst
    simpa using hfirst

theorem trimEnd_inOneLine (text : List Char) : trimEnd (inOneLine text) = inOneLine (trimEnd text) := by
  obtain ⟨behind, htext, hbehind, hlast⟩ := exists_eq_trimEnd_append text
  generalize trimEnd text = kept at htext hlast ⊢
  have hreturn : kept.getLast? = some '\r' → behind.head? ≠ some '\n' := fun h =>
    absurd (hlast _ h) (by rw [isBlank_return]; exact Bool.noConfusion)
  -- what is kept ends with no blank, so it does not end with half an end of a line
  rw [htext, inOneLine_append hreturn, trimEnd_append (isBlank_of_mem_inOneLine hbehind)]
  refine trimEnd_eq_self fun c hc => ?_
  rw [getLast?_inOneLine] at hc
  obtain ⟨d, hd, rfl⟩ := Option.map_eq_some_iff.mp hc
  have hfeed : d ≠ '\n' := by
    rintro rfl
    exact Bool.false_ne_true ((hlast _ hd).symm.trans isBlank_feed)
  rw [if_neg hfeed]
  exact hlast d hd

end Text

end SmtCount
