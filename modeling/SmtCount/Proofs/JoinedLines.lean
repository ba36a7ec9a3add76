import Mathlib
import SmtCount.Answer.Core
import SmtCount.Proofs.Lines
import SmtCount.Proofs.SqueezedModels

/-!
# Answers in one line

What a solver prints behind its verdict is read after its lines have been joined.  A core is the same in one
line.  A model is the same if its lines end outside of bars: there the end of a line is a blank like any other.
Between bars it is part of a name, and joined lines have another name in its place; that name may be the
symbol of another variable.

## Main definitions

* `endsLinesOutside` — all lines of a text end outside of bars.
* `JoiningLosesNothing` — joined lines are read as the text is, always.

## Main results

* `coreLabels_joinLines` — the labels of a core are the same in one line.
* `splitForms_joinLines` — the forms are the same but for their blanks, if the lines end outside of bars.
* `joined_answer_reads_alike` — **joining the lines loses nothing** of a core, nor of a model whose lines end
  outside of bars.
* `not_joiningLosesNothing` — **a line that ends between bars can give a value to another variable.**
-/

namespace SmtCount

/-! ### Cores in one line -/

theorem inside?_inOneLine (text : List Char) :
    inside? (Text.inOneLine text) = (inside? text).map Text.inOneLine := by
  cases text using Text.line_induction with
  | nil => rfl
  | feed cs _ => rfl
  | return_feed cs _ => rfl
  | cons c cs hfeed hreturn _ =>
    rw [Text.inOneLine_cons hfeed hreturn]
    by_cases hc : c = '('
    · subst hc
      rw [inside?, inside?, Text.getLast?_inOneLine]
      by_cases hclose : cs.getLast? = some ')'
      · obtain ⟨body, rfl⟩ := List.getLast?_eq_some_iff.mp hclose
        have hbody : Text.inOneLine (body ++ [')']) = Text.inOneLine body ++ [')'] :=
          Text.inOneLine_append fun _ h => absurd h (by decide)
        rw [if_pos hclose, hclose, hbody, List.dropLast_concat, List.dropLast_concat]
        rfl
      · -- a space in place of a line feed is no parenthesis either
        rw [if_neg hclose, if_neg]
        · rfl
        · intro h
          obtain ⟨d, hd, hlast⟩ := Option.map_eq_some_iff.mp h
          by_cases hd' : d = '\n'
          · rw [if_pos hd'] at hlast
            exact absurd hlast (by decide)
          · rw [if_neg hd'] at hlast
            exact hclose (hlast ▸ hd)
    · have hnone (cs : List Char) : inside? (c :: cs) = none := by
        unfold inside?
        split
        · rename_i h
          exact absurd (List.cons.inj h).1 hc
        · rfl
      rw [hnone, hnone]
      rfl

/-- **The labels of a core are the same in one line.** -/
theorem coreLabels_joinLines (text : String) : coreLabels (Text.joinLines text) = coreLabels text := by
  obtain ⟨behind, htext, hbehind⟩ := Text.exists_inOneLine_eq text.toList
  have hblank : ∀ c ∈ behind, Text.isBlank c = true := by
    rcases hbehind with rfl | rfl
    · exact fun c hc => absurd hc List.not_mem_nil
    · exact List.forall_mem_singleton.mpr Text.isBlank_space
  have htrim : Text.trim (Text.joinLines text).toList = Text.inOneLine (Text.trim text.toList) := by
    rw [Text.joinLines, String.toList_ofList, ← Text.trim_append hblank, ← htext, Text.trim, Text.trimStart_inOneLine,
      Text.trimEnd_inOneLine]
    rfl
  have hwords (cs : List Char) : Text.words (Text.inOneLine cs) = Text.words cs :=
    Text.words_append_inOneLine [] cs
  rw [coreLabels, coreLabels, htrim, inside?_inOneLine]
  cases inside? (Text.trim text.toList) with
  | none => exact congrArg _ (hwords _)
  | some body => exact congrArg _ (hwords body)

/-! ### Forms in one line -/

namespace Scanner

/-- A blank behind a text is no form and changes no form. -/
theorem run_append_space (s : Scanner) (offset offset' : Nat) (cs : List Char) :
    Agree Eq (s.run offset cs) (s.run offset' (cs ++ [' '])) := by
  induction cs generalizing s offset offset' with
  | nil =>
    rw [List.nil_append, Scanner.run, Scanner.run]
    cases hquoted : s.quoted with
    | true =>
      have hstep : s.step? ' ' = some { s.push ' ' with quoted := true } := by simp [step?, hquoted]
      rw [hstep]
      simpa [Scanner.run] using Agree.error _ _
    | false =>
      by_cases hdepth : s.depth = 0
      · have hflush : s.flush.flush.ended = s.flush.ended ∧ s.flush.depth = 0 ∧ s.flush.quoted = false := by
          rw [flush_eq, flush_eq]
          exact ⟨rfl, hdepth, hquoted⟩
        obtain ⟨hended, hdepth', hquoted'⟩ := hflush
        rw [step?_blank Text.isBlank_space hquoted hdepth, if_pos ⟨hdepth, rfl⟩]
        dsimp only
        rw [Scanner.run, if_pos ⟨hdepth', by rw [hquoted']; rfl⟩, hended]
        exact .refl _
      · have hstep : s.step? ' ' = some (s.push ' ') := by simp [step?, hquoted, hdepth]
        rw [hstep, if_neg fun h => hdepth h.1]
        dsimp only
        rw [Scanner.run, if_neg fun h => hdepth h.1]
        exact .error _ _
  | cons c cs ih =>
    rw [List.cons_append, Scanner.run, Scanner.run]
    cases s.step? c with
    | none => exact .error _ _
    | some t => exact ih t _ _

end Scanner

/-- Do all lines of a text end outside of bars?  A bar may be open. -/
def endsLinesOutside : Bool → List Char → Bool
  | _, [] => true
  | quoted, c :: cs => !(quoted && c == '\n') && endsLinesOutside (if c = '|' then !quoted else quoted) cs

theorem squeezeFrom_inOneLine {text : List Char} {quoted : Bool} (h : endsLinesOutside quoted text = true)
    (after : Bool) : squeezeFrom quoted after (Text.inOneLine text) = squeezeFrom quoted after text := by
  induction text using Text.line_induction generalizing quoted after with
  | nil => rfl
  | feed cs ih =>
    cases quoted with
    | true => cases h
    | false =>
      rw [Text.inOneLine_feed, squeezeFrom_blank Text.isBlank_space, squeezeFrom_blank Text.isBlank_feed]
      exact congrArg _ (ih h true)
  | return_feed cs ih =>
    cases quoted with
    | true => cases h
    | false =>
      rw [Text.inOneLine_return_feed, squeezeFrom_blank Text.isBlank_space, squeezeFrom_blank Text.isBlank_return,
        squeezeFrom_blank Text.isBlank_feed]
      exact congrArg _ (ih h true)
  | cons c cs hfeed hreturn ih =>
    obtain ⟨-, hrest⟩ := Bool.and_eq_true_iff.mp h
    rw [Text.inOneLine_cons hfeed hreturn]
    cases quoted with
    | true =>
      have hstate : (if c = '|' then !true else true) = decide (c ≠ '|') := by split <;> simp_all
      rw [hstate] at hrest
      rw [squeezeFrom_quoted, squeezeFrom_quoted, ih hrest]
    | false =>
      cases hc : Text.isBlank c with
      | true =>
        obtain ⟨-, -, hbar⟩ := ne_of_isBlank hc
        rw [if_neg hbar] at hrest
        rw [squeezeFrom_blank hc, squeezeFrom_blank hc, ih hrest]
      | false =>
        have hstate : (if c = '|' then !false else false) = decide (c = '|') := by split <;> simp_all
        rw [hstate] at hrest
        rw [squeezeFrom_of_not_blank hc, squeezeFrom_of_not_blank hc, ih hrest]

/-- The forms of the joined lines are those of the text, squeezed to one space each. -/
theorem splitForms_joinLines {text : String} (h : endsLinesOutside false text.toList = true) :
    SqueezedForms (splitForms (Text.joinLines text).toList) (splitForms (squeeze text.toList)) := by
  obtain ⟨behind, htext, hbehind⟩ := Text.exists_inOneLine_eq text.toList
  have hjoined : (Text.joinLines text).toList ++ behind = Text.inOneLine text.toList := by
    rw [Text.joinLines, String.toList_ofList, htext]
  have hbehind : Agree Eq (splitForms (Text.joinLines text).toList) (splitForms (Text.inOneLine text.toList)) := by
    rw [← hjoined]
    rcases hbehind with rfl | rfl
    · rw [List.append_nil]
      exact .refl _
    · exact Scanner.run_append_space {} 0 0 _
  have hsqueeze := splitForms_squeeze (Text.inOneLine text.toList)
  rw [squeeze, squeezeFrom_inOneLine h] at hsqueeze
  exact hbehind.trans hsqueeze

/-! ### Answers in one line -/

/-- Does joining the lines of an answer lose nothing, whatever the formula and the answer are? -/
def JoiningLosesNothing : Prop :=
  ∀ (f : Expr) (text : String),
    let q := Query.ofFormula f
    (∀ m, Model.read (Text.joinLines text) q.symbols = .ok m ↔ Model.read text q.symbols = .ok m) ∧
      Core.read (Text.joinLines text) q.labels = Core.read text q.labels

/-- **Joining the lines loses nothing** of a core, and nothing of a model if the lines end outside of bars: then
every variable has the value that the text defines for its own symbol. -/
theorem joined_answer_reads_alike (f : Expr) (text : String) :
    let q := Query.ofFormula f
    Core.read (Text.joinLines text) q.labels = Core.read text q.labels ∧
      (endsLinesOutside false text.toList = true →
        (∀ m, Model.read (Text.joinLines text) q.symbols = .ok m ↔ Model.read text q.symbols = .ok m) ∧
        ∀ m, Model.read (Text.joinLines text) q.symbols = .ok m →
          ∃ defined, definitions text.toList = .ok defined ∧ ∀ v, m.get? v = ownValue? q.symbols defined v) := by
  intro q
  refine ⟨by rw [Core.read, Core.read, coreLabels_joinLines], fun h => ?_⟩
  have hsymbols : ∀ v s, q.symbols.get? v = some s → IsAtom s.toList :=
    (Naming.distinct_ofVariables f.freeVariables).isAtom
  have hsqueezed : (String.ofList (squeeze text.toList)).toList = squeeze text.toList := String.toList_ofList
  -- both are squeezed to one text
  have hjoined : Agree Eq (Model.read (Text.joinLines text) q.symbols)
      (Model.read (String.ofList (squeeze text.toList)) q.symbols) :=
    Model.read_squeezed hsymbols (by rw [hsqueezed]; exact splitForms_joinLines h)
  have hbroken : Agree Eq (Model.read text q.symbols) (Model.read (String.ofList (squeeze text.toList)) q.symbols) :=
    Model.read_squeezed hsymbols (by rw [hsqueezed]; exact splitForms_squeeze text.toList)
  have hsame (m : Model) :
      Model.read (Text.joinLines text) q.symbols = .ok m ↔ Model.read text q.symbols = .ok m :=
    hjoined.eq_ok_iff.trans hbroken.eq_ok_iff.symm
  exact ⟨hsame, fun m hm => Model.get?_of_read ((hsame m).mp hm)⟩

/-! ### Names that differ in a line feed -/

/-- A variable that has a line feed in its name. -/
def brokenVariable : Variable :=
  ⟨"a\nb", .int, by decide⟩

/-- A variable that has a space there. -/
def spacedVariable : Variable :=
  ⟨"a b", .int, by decide⟩

/-- A formula about both. -/
def breaking : Expr :=
  .rel .lt (.var brokenVariable) (.var spacedVariable)

/-- A model that has its line ends between the forms only. -/
def unbrokenOutput : String :=
  "(\n(define-fun |a b| () Int\r\n (- 5)))\n"

theorem unbrokenOutput_reads_alike :
    endsLinesOutside false unbrokenOutput.toList = true ∧
      ∃ m, Model.read (Text.joinLines unbrokenOutput) (Query.ofFormula breaking).symbols = .ok m ∧
        Model.read unbrokenOutput (Query.ofFormula breaking).symbols = .ok m ∧
        m.get? brokenVariable = none ∧ m.get? spacedVariable = some (.int (-5)) := by
  have houtside : endsLinesOutside false unbrokenOutput.toList = true := by decide +kernel
  obtain ⟨hsame, -⟩ := (joined_answer_reads_alike breaking unbrokenOutput).2 houtside
  have hread : Model.read unbrokenOutput (Query.ofFormula breaking).symbols =
      .ok ⟨[(spacedVariable, .int (-5))]⟩ := by decide +kernel
  exact ⟨houtside, _, (hsame _).mpr hread, hread, by decide +kernel, by decide +kernel⟩

/-- A model that defines the symbol with the line feed. -/
def brokenOutput : String :=
  "((define-fun |a\nb| () Int 1))"

/-- **Joining the lines can give a value to another variable.** -/
theorem not_joiningLosesNothing :
    ¬JoiningLosesNothing ∧ ∃ m m',
      Model.read brokenOutput (Query.ofFormula breaking).symbols = .ok m ∧
      m.get? brokenVariable = some (.int 1) ∧ m.get? spacedVariable = none ∧
      Model.read (Text.joinLines brokenOutput) (Query.ofFormula breaking).symbols = .ok m' ∧
      m'.get? brokenVariable = none ∧ m'.get? spacedVariable = some (.int 1) := by
  have hread : Model.read brokenOutput (Query.ofFormula breaking).symbols =
      .ok ⟨[(brokenVariable, .int 1)]⟩ := by decide +kernel
  have hjoined : Model.read (Text.joinLines brokenOutput) (Query.ofFormula breaking).symbols =
      .ok ⟨[(spacedVariable, .int 1)]⟩ := by decide +kernel
  refine ⟨fun h => ?_, _, _, hread, by decide +kernel, by decide +kernel, hjoined, by decide +kernel,
    by decide +kernel⟩
  have hsame := ((h breaking brokenOutput).1 _).mp hjoined
  rw [hread] at hsame
  exact absurd hsame (by decide +kernel)

end SmtCount
