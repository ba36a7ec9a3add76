import Mathlib
import SmtCount.Proofs.Solver.Protocol

/-!
# Calls that are cut off

The watchdog may end the program at any moment of a conversation.  From then on something may be impossible
to write, and output may end anywhere, be it in the middle of a line or of a character.  A call that is cut
off never has an answer, and nothing that was read of its output is taken for one; but only a call that
could write and read everything up to that point reports the time limit, and any other reports its
pipes.

## Main definitions

* `Environment.Lasting` — a watchdog that has fired stays so.
* `CutOff` — the watchdog has fired by the end of a conversation.
* `ReportsTimeLimit` — every call that is cut off reports the time limit.

## Main results

* `cutOff_reported` — **what a call that is cut off reports**.
* `not_reportsTimeLimit` — it need not be the time limit.
-/

namespace SmtCount

/-- Does a watchdog that has fired stay so? -/
structure Environment.Lasting {σ : Type} (env : Environment σ) : Prop where
  write : ∀ s text, env.timedOut s = true → env.timedOut (env.write s text).2 = true
  closeInput : ∀ s, env.timedOut s = true → env.timedOut (env.closeInput s) = true
  readLine : ∀ s, env.timedOut s = true → env.timedOut (env.readLine s).2 = true
  readRest : ∀ s, env.timedOut s = true → env.timedOut (env.readRest s).2 = true

namespace Solver

section

variable {σ : Type} (env : Environment σ)

/-- Has the watchdog ended the program of a call by the end of the conversation? -/
def CutOff (config : SolverConfig) (query : String) : Prop :=
  ∃ s, env.spawn config = .ok s ∧ expired env config (converse env config query s).2 = true

/-- Has a call no answer, for this reason and with this line about it? -/
def Reports (solver : Solver) (query : String) (symbols : Table Variable String) (labels : Table String Expr)
    (e : SolverError) (line : LogLine) : Prop :=
  (solver.trySolve env query symbols labels).1 = .error e ∧
    (solver.solve env query symbols labels).1.isNone ∧ (solver.solve env query symbols labels).2.1 = [line]

/-- The line about a call that failed on its pipes. -/
def pipeLine (cause : Cause) : LogLine :=
  ⟨.error, "solver call failed: solver pipe failed: " ++ cause⟩

/-- The warning about a call that took too long. -/
def timeLimitLine (limit : Duration) : LogLine :=
  ⟨.warn, "solver gave no answer: " ++ (SolverError.timeout limit).message⟩

/-- Does every call that is cut off report the time limit, with a warning? -/
def ReportsTimeLimit : Prop :=
  ∀ (solver : Solver) (query : String) (symbols : Table Variable String) (labels : Table String Expr)
    (limit : Duration), solver.config.timeout = some limit → CutOff env solver.config query →
    Reports env solver query symbols labels (.timeout limit) (timeLimitLine limit)

variable {env}

/-- A call without an answer is reported by one line. -/
theorem reports_of_trySolve {solver : Solver} {query : String} {symbols : Table Variable String}
    {labels : Table String Expr} {e : SolverError}
    (h : (solver.trySolve env query symbols labels).1 = .error e) :
    Reports env solver query symbols labels e (failureLine e) := by
  have hsolve : solver.solve env query symbols labels =
      (none, [failureLine e], (solver.trySolve env query symbols labels).2) := by
    rw [solve]
    rcases htry : solver.trySolve env query symbols labels with ⟨answer, solver'⟩
    rw [htry] at h
    obtain rfl : answer = .error e := h
    rfl
  exact ⟨h, by rw [hsolve]; rfl, by rw [hsolve]⟩

/-- A conversation that is cut off ends with the time limit, or with the pipes. -/
theorem Course.eq_of_fired {config : SolverConfig} {query : String} {events : List Event}
    {result : Except SolverError (Verdict × String)} (h : Course config query true events result) :
    (∃ cause, result = .error (.pipe cause)) ∨ result = .error (timeLimitError config) := by
  cases h with
  | lateVerdict _ _ | lateAnswer _ _ _ => exact .inr rfl
  | _ => exact .inl ⟨_, rfl⟩

/-- **What a call that is cut off reports**: its pipes if something could not be written or read, with the reason,
and the time limit otherwise.  It never has an answer, and what was read of the output is not reported as a line
that is no verdict, nor as an answer that cannot be read. -/
theorem cutOff_reported {solver : Solver} {query : String} {symbols : Table Variable String}
    {labels : Table String Expr} {limit : Duration} (hlimit : solver.config.timeout = some limit)
    (hcut : CutOff env solver.config query) :
    ∃ events, transcript env solver.config query = .ok events ∧
      ((∃ cause, (∃ e ∈ events, e.Fails cause) ∧
          Reports env solver query symbols labels (.pipe cause) (pipeLine cause)) ∨
        (∀ cause, ∀ e ∈ events, ¬e.Fails cause) ∧
          Reports env solver query symbols labels (.timeout limit) (timeLimitLine limit)) := by
  obtain ⟨s, hs, hfired⟩ := hcut
  obtain ⟨result, t, events, hconverse, hsession, htranscript, hcourse⟩ :=
    transcript_eq env solver.config hs query
  rw [hconverse] at hfired
  rw [hfired] at hcourse
  have hanswer : (solver.trySolve env query symbols labels).1 = answerOf symbols labels _ :=
    trySolve_of_session hsession
  have htime : timeLimitError solver.config = .timeout limit := by rw [timeLimitError, hlimit]; rfl
  refine ⟨_, htranscript, ?_⟩
  rcases hcourse.eq_of_fired with ⟨cause, rfl⟩ | rfl
  · exact .inl ⟨cause, (fails_append_cleanup ..).mpr (hcourse.pipe_iff.mp rfl), reports_of_trySolve hanswer⟩
  · refine .inr ⟨fun cause e he hfails => ?_, ?_⟩
    · have hpipe := hcourse.pipe_iff.mpr ((fails_append_cleanup ..).mp ⟨e, he, hfails⟩)
      rw [htime] at hpipe
      cases hpipe
    · rw [htime] at hanswer
      exact reports_of_trySolve hanswer

end

/-! ### A program that is ended in the middle of a line -/

/-- A program that reads its input or does not, and prints the beginning of a line when its time is over.  The
state says whether the watchdog has fired. -/
def stalled (reads : Bool) (line : ByteArray) : Environment Bool where
  spawn _ := .ok false
  write s _ := if reads then (.ok (), s) else (.error "Broken pipe (os error 32)", true)
  closeInput := id
  readLine _ := (.ok line, true)
  readRest _ := (.ok .empty, true)
  timedOut := id
  disarm := id
  kill := id
  reap := id
  elapsed _ := 0

theorem lasting_stalled (reads : Bool) (line : ByteArray) : (stalled reads line).Lasting where
  write := by
    intro s text hs
    cases reads with
    | true => exact hs
    | false => rfl
  closeInput := fun _ hs => hs
  readLine := fun _ _ => rfl
  readRest := fun _ _ => rfl

/-- The first two letters of a verdict are no verdict, and so the time limit is reported. -/
theorem stalled_reported :
    let env := stalled true "sa".toByteArray
    halfSecond.config.timeout = some (.ofMillis 500) ∧ CutOff env halfSecond.config "(check-sat)" ∧
      Reports env halfSecond "(check-sat)" {} {} (.timeout (.ofMillis 500))
        ⟨.warn, "solver gave no answer: solver exceeded the time limit of 500ms"⟩ := by
  intro env
  have htext : decode (.ok "sa".toByteArray) = .ok "sa" := decode_toByteArray "sa"
  have hline : (firstLine "sa").bind Verdict.ofLine? = none := by decide
  have hcut : CutOff env halfSecond.config "(check-sat)" := by
    refine ⟨false, rfl, ?_⟩
    simp [converse, say, env, stalled, expired, htext, hline, halfSecond]
  have htranscript : transcript env halfSecond.config "(check-sat)" =
      .ok (told "(check-sat)" ++ [.readLine (.ok "sa".toByteArray)] ++ cleanup halfSecond.config) := by
    simp [transcript, session, converse, say, release, env, stalled, Environment.recorded, htext, hline,
      expired, told, cleanup, halfSecond, Except.map]
  obtain ⟨events, hevents, hreports⟩ :=
    @cutOff_reported _ env halfSecond "(check-sat)" {} {} (.ofMillis 500) rfl hcut
  rcases hreports with ⟨cause, hfails, -⟩ | ⟨-, hreports⟩
  · -- everything could be written and read
    obtain rfl := Except.ok.inj (htranscript.symm.trans hevents)
    rw [fails_append_cleanup] at hfails
    simp [told, Event.Fails, htext] at hfails
  · have hline : timeLimitLine (.ofMillis 500) =
        ⟨.warn, "solver gave no answer: solver exceeded the time limit of 500ms"⟩ := rfl
    rw [hline] at hreports
    exact ⟨rfl, hcut, hreports⟩

/-- **A call that is cut off need not report the time limit**: not when it ends in the middle of a character, nor
when the program does not read all of the query. -/
theorem not_reportsTimeLimit :
    (stalled true ⟨#[0xC3]⟩).Lasting ∧ ¬ReportsTimeLimit (stalled true ⟨#[0xC3]⟩) ∧
      (stalled false .empty).Lasting ∧ ¬ReportsTimeLimit (stalled false .empty) := by
  refine ⟨lasting_stalled _ _, fun h => ?_, lasting_stalled _ _, fun h => ?_⟩
  · have hchar : decode (.ok ⟨#[0xC3]⟩) = .error notText := by
      have htext : String.fromUTF8? ⟨#[0xC3]⟩ = none := by cbv
      simp [decode, Except.bind, htext]
    have hcut : CutOff (stalled true ⟨#[0xC3]⟩) halfSecond.config "(check-sat)" := by
      refine ⟨false, rfl, ?_⟩
      simp [converse, say, stalled, expired, hchar, halfSecond]
    have hanswer := (h halfSecond "(check-sat)" {} {} (.ofMillis 500) rfl hcut).1
    simp [trySolve, exchange, session, converse, say, stalled, hchar, Except.map] at hanswer
  · have hcut : CutOff (stalled false .empty) halfSecond.config "(check-sat)" := by
      refine ⟨false, rfl, ?_⟩
      simp [converse, say, stalled, expired, halfSecond]
    have hanswer := (h halfSecond "(check-sat)" {} {} (.ofMillis 500) rfl hcut).1
    simp [trySolve, exchange, session, converse, say, stalled, Except.map] at hanswer

end Solver

end SmtCount
