import Mathlib
import SmtCount.Solver.Basic

/-!
# What is done to a solver, in order

A call talks to a program through an environment.  Here an environment keeps a record of everything that is
done to the program and everything that comes of it.  Keeping the record changes nothing else, so what
is true of the records is true of all calls, whatever the programs do.

## Main definitions

* `Solver.Event` — one thing that is done to a program, with what comes of it.
* `Environment.recorded` — the environment that keeps a record.
* `Solver.Course` — how a conversation may go, with a case for each place where it may end.
* `Solver.transcript` — the record of a whole call.

## Main results

* `Solver.course_converse` — **every conversation** takes one of these courses.
* `Solver.transcript_eq` — the record of a call is that of its conversation, and then the program is ended.
-/

namespace SmtCount

namespace Solver

/-- What is done to a program, and what comes of it. -/
inductive Event
  /-- A text was to be written, all of it. -/
  | wrote (text : String) (sent : Except Cause Unit)
  | closedInput
  /-- Output was to be read up to the end of a line. -/
  | readLine (output : Except Cause ByteArray)
  /-- Output was to be read up to its end. -/
  | readRest (output : Except Cause ByteArray)
  | disarmed
  | killed
  | reaped
  deriving DecidableEq

end Solver

open Solver (Event)

/-- The environment that keeps a record of what is done, oldest first. -/
def Environment.recorded {σ : Type} (env : Environment σ) : Environment (σ × List Event) where
  spawn config := (env.spawn config).map fun s => (s, [])
  write s text :=
    let (sent, t) := env.write s.1 text
    (sent, t, s.2 ++ [.wrote text sent])
  closeInput s := (env.closeInput s.1, s.2 ++ [.closedInput])
  readLine s :=
    let (output, t) := env.readLine s.1
    (output, t, s.2 ++ [.readLine output])
  readRest s :=
    let (output, t) := env.readRest s.1
    (output, t, s.2 ++ [.readRest output])
  timedOut s := env.timedOut s.1
  disarm s := (env.disarm s.1, s.2 ++ [.disarmed])
  kill s := (env.kill s.1, s.2 ++ [.killed])
  reap s := (env.reap s.1, s.2 ++ [.reaped])
  elapsed s := env.elapsed s.1

namespace Solver

/-! ### Conversations -/

/-- The record of a message that was sent. -/
def told (message : String) : List Event :=
  [.wrote message (.ok ()), .wrote "\n" (.ok ())]

/-- The record of a message of which something could not be written. -/
inductive Unsent (message : String) (cause : Cause) : List Event → Prop
  | text : Unsent message cause [.wrote message (.error cause)]
  | lineEnd : Unsent message cause [.wrote message (.ok ()), .wrote "\n" (.error cause)]

/-- The record of a conversation up to the point where the answer is read. -/
def asked (query : String) (output : Except Cause ByteArray) (verdict : Verdict) : List Event :=
  told query ++ .readLine output :: told (verdict.request ++ "(exit)") ++ [.closedInput]

/-- How a conversation may go, whether the watchdog has fired by its end, and what comes of it: there are eight
ways to end. -/
inductive Course (config : SolverConfig) (query : String) :
    Bool → List Event → Except SolverError (Verdict × String) → Prop
  /-- The query cannot be written. -/
  | unsent {fired : Bool} {cause : Cause} {said : List Event} (hsaid : Unsent query cause said) :
      Course config query fired said (.error (.pipe cause))
  /-- The first line cannot be read. -/
  | unread {fired : Bool} {output : Except Cause ByteArray} {cause : Cause}
      (houtput : decode output = .error cause) :
      Course config query fired (told query ++ [.readLine output]) (.error (.pipe cause))
  /-- The first line is no verdict. -/
  | noVerdict {output : Except Cause ByteArray} {text : String} (htext : decode output = .ok text)
      (hline : (firstLine text).bind Verdict.ofLine? = none) :
      Course config query false (told query ++ [.readLine output]) (.error (.protocol (firstLine text)))
  /-- The first line is no verdict, since the program was ended. -/
  | lateVerdict {output : Except Cause ByteArray} {text : String} (htext : decode output = .ok text)
      (hline : (firstLine text).bind Verdict.ofLine? = none) :
      Course config query true (told query ++ [.readLine output]) (.error (timeLimitError config))
  /-- The answer cannot be asked for. -/
  | unasked {fired : Bool} {output : Except Cause ByteArray} {text : String} {verdict : Verdict}
      {cause : Cause} {said : List Event} (htext : decode output = .ok text)
      (hverdict : (firstLine text).bind Verdict.ofLine? = some verdict)
      (hsaid : Unsent (verdict.request ++ "(exit)") cause said) :
      Course config query fired (told query ++ .readLine output :: said) (.error (.pipe cause))
  /-- The answer cannot be read. -/
  | unanswered {fired : Bool} {output rest : Except Cause ByteArray} {text : String} {verdict : Verdict}
      {cause : Cause} (htext : decode output = .ok text)
      (hverdict : (firstLine text).bind Verdict.ofLine? = some verdict) (hrest : decode rest = .error cause) :
      Course config query fired (asked query output verdict ++ [.readRest rest]) (.error (.pipe cause))
  /-- The answer may have been cut off, since the program was ended. -/
  | lateAnswer {output rest : Except Cause ByteArray} {text answer : String} {verdict : Verdict}
      (htext : decode output = .ok text)
      (hverdict : (firstLine text).bind Verdict.ofLine? = some verdict)
      (hanswer : decode rest = .ok answer) :
      Course config query true (asked query output verdict ++ [.readRest rest])
        (.error (timeLimitError config))
  /-- The answer is there. -/
  | answered {output rest : Except Cause ByteArray} {text answer : String} {verdict : Verdict}
      (htext : decode output = .ok text)
      (hverdict : (firstLine text).bind Verdict.ofLine? = some verdict)
      (hanswer : decode rest = .ok answer) :
      Course config query false (asked query output verdict ++ [.readRest rest])
        (.ok (verdict, Text.joinLines answer))

section

variable {σ : Type} (env : Environment σ) (config : SolverConfig)

/-- Whether the watchdog has fired does not depend on the record. -/
theorem expired_recorded (s : σ) (past : List Event) :
    expired env.recorded config (s, past) = expired env config s := rfl

/-- **A message** is sent, or something of it could not be written. -/
theorem say_recorded (message : String) (s : σ) :
    ∃ sent t said, say env message s = (sent, t) ∧
      (∀ past, say env.recorded message (s, past) = (sent, t, past ++ said)) ∧
      match sent with
      | .ok () => said = told message
      | .error cause => Unsent message cause said := by
  rcases htext : env.write s message with ⟨cause | ⟨⟩, t⟩
  · refine ⟨.error cause, t, [Event.wrote message (.error cause)], ?_, fun past => ?_, .text⟩
    · simp [say, htext]
    · simp [say, Environment.recorded, htext]
  rcases hend : env.write t "\n" with ⟨cause | ⟨⟩, u⟩
  · refine ⟨.error cause, u, [Event.wrote message (.ok ()), .wrote "\n" (.error cause)], ?_, fun past => ?_, .lineEnd⟩
    · simp [say, htext, hend]
    · simp [say, Environment.recorded, htext, hend]
  · refine ⟨.ok (), u, told message, ?_, fun past => ?_, rfl⟩
    · simp [say, htext, hend]
    · simp [say, Environment.recorded, htext, hend, told]

/-- What follows the verdict. -/
theorem course_fetchAnswer {query : String} {output : Except Cause ByteArray} {text : String} {verdict : Verdict}
    (htext : decode output = .ok text) (hverdict : (firstLine text).bind Verdict.ofLine? = some verdict)
    (s : σ) :
    ∃ result t said, fetchAnswer env config verdict s = (result, t) ∧
      (∀ past, fetchAnswer env.recorded config verdict (s, past) = (result, t, past ++ said)) ∧
      Course config query (expired env config t) (told query ++ .readLine output :: said) result := by
  obtain ⟨sent, t, said, hsay, hrecord, hsaid⟩ := say_recorded env (verdict.request ++ "(exit)") s
  cases sent with
  | error cause =>
    refine ⟨.error (.pipe cause), t, said, ?_, fun past => ?_, .unasked htext hverdict hsaid⟩
    · rw [fetchAnswer, hsay]
    · rw [fetchAnswer, hrecord]
  | ok sent =>
    obtain rfl : said = told (verdict.request ++ "(exit)") := hsaid
    rcases hread : env.readRest (env.closeInput t) with ⟨rest, u⟩
    -- what the environment that keeps the record reads
    have hread' (past : List Event) :
        env.recorded.readRest (env.recorded.closeInput (t, past)) =
          (rest, u, past ++ [.closedInput] ++ [.readRest rest]) := by
      simp only [Environment.recorded, hread]
    have hsaid : told query ++ .readLine output :: (told (verdict.request ++ "(exit)") ++
        [.closedInput, .readRest rest]) = asked query output verdict ++ [.readRest rest] := by
      simp [asked]
    cases hrest : decode rest with
    | error cause =>
      refine ⟨.error (.pipe cause), u, told (verdict.request ++ "(exit)") ++ [Event.closedInput, .readRest rest],
        ?_, fun past => ?_, ?_⟩
      · simp [fetchAnswer, hsay, hread, hrest]
      · simp [fetchAnswer, hrecord, hread', hrest]
      · rw [hsaid]
        exact .unanswered htext hverdict hrest
    | ok answer =>
      cases hfired : expired env config u with
      | true =>
        refine ⟨.error (timeLimitError config), u, told (verdict.request ++ "(exit)") ++
          [Event.closedInput, .readRest rest], ?_, fun past => ?_, ?_⟩
        · simp [fetchAnswer, hsay, hread, hrest, hfired]
        · simp [fetchAnswer, hrecord, hread', hrest, expired_recorded, hfired]
        · rw [hsaid, hfired]
          exact .lateAnswer htext hverdict hrest
      | false =>
        refine ⟨.ok (verdict, Text.joinLines answer), u, told (verdict.request ++ "(exit)") ++
          [Event.closedInput, .readRest rest], ?_, fun past => ?_, ?_⟩
        · simp [fetchAnswer, hsay, hread, hrest, hfired]
        · simp [fetchAnswer, hrecord, hread', hrest, expired_recorded, hfired]
        · rw [hsaid, hfired]
          exact .answered htext hverdict hrest

/-- **Every conversation** takes one of the courses, with or without a record. -/
theorem course_converse (query : String) (s : σ) :
    ∃ result t events, converse env config query s = (result, t) ∧
      (∀ past, converse env.recorded config query (s, past) = (result, t, past ++ events)) ∧
      Course config query (expired env config t) events result := by
  obtain ⟨sent, t, said, hsay, hrecord, hsaid⟩ := say_recorded env query s
  cases sent with
  | error cause =>
    refine ⟨.error (.pipe cause), t, said, ?_, fun past => ?_, .unsent hsaid⟩
    · simp [converse, hsay]
    · simp [converse, hrecord]
  | ok sent =>
    obtain rfl : said = told query := hsaid
    rcases hread : env.readLine t with ⟨output, u⟩
    have hread' (past : List Event) :
        env.recorded.readLine (t, past) = (output, u, past ++ [.readLine output]) := by
      simp only [Environment.recorded, hread]
    cases htext : decode output with
    | error cause =>
      refine ⟨.error (.pipe cause), u, told query ++ [Event.readLine output], ?_, fun past => ?_, .unread htext⟩
      · simp [converse, hsay, hread, htext]
      · simp [converse, hrecord, hread', htext]
    | ok text =>
      cases hline : (firstLine text).bind Verdict.ofLine? with
      | none =>
        cases hfired : expired env config u with
        | true =>
          refine ⟨.error (timeLimitError config), u, told query ++ [Event.readLine output], ?_, fun past => ?_, ?_⟩
          · simp [converse, hsay, hread, htext, hline, hfired]
          · simp [converse, hrecord, hread', htext, hline, expired_recorded, hfired]
          · rw [hfired]
            exact .lateVerdict htext hline
        | false =>
          refine ⟨.error (.protocol (firstLine text)), u, told query ++ [Event.readLine output], ?_,
            fun past => ?_, ?_⟩
          · simp [converse, hsay, hread, htext, hline, hfired]
          · simp [converse, hrecord, hread', htext, hline, expired_recorded, hfired]
          · rw [hfired]
            exact .noVerdict htext hline
      | some verdict =>
        obtain ⟨result, v, said, hfetch, hfetch', hcourse⟩ := course_fetchAnswer env config htext hline u
        refine ⟨result, v, told query ++ Event.readLine output :: said, ?_, fun past => ?_, hcourse⟩
        · simp [converse, hsay, hread, htext, hline, hfetch]
        · simp [converse, hrecord, hread', htext, hline, hfetch']

/-! ### Calls -/

/-- The record of ending a program. -/
def cleanup : List Event :=
  .closedInput :: (if config.timeout.isSome then [.disarmed] else []) ++ [.killed, .reaped]

/-- The record of a call, if the program can be started. -/
def transcript (query : String) : Except Cause (List Event) :=
  (session env.recorded config query).map fun r => r.2.2

theorem release_recorded (s : σ) (past : List Event) :
    release env.recorded config (s, past) = (release env config s, past ++ cleanup config) := by
  unfold release cleanup
  cases config.timeout with
  | none => simp [Environment.recorded]
  | some limit => simp [Environment.recorded]

/-- **A call that starts its program** takes one of the courses, and then the program is ended. -/
theorem transcript_eq {s : σ} (hs : env.spawn config = .ok s) (query : String) :
    ∃ result t events, converse env config query s = (result, t) ∧
      session env config query = .ok (result, release env config t) ∧
      transcript env config query = .ok (events ++ cleanup config) ∧
      Course config query (expired env config t) events result := by
  obtain ⟨result, t, events, hconverse, hrecord, hcourse⟩ := course_converse env config query s
  refine ⟨result, t, events, hconverse, ?_, ?_, hcourse⟩
  · simp [session, hs, hconverse, Except.map]
  · have hspawn : env.recorded.spawn config = .ok (s, []) := by
      simp only [Environment.recorded, hs, Except.map]
    simp [transcript, session, hspawn, hrecord, release_recorded, Except.map]

/-- A call whose program cannot be started does nothing. -/
theorem transcript_eq_error {cause : Cause} (hs : env.spawn config = .error cause) (query : String) :
    session env config query = .error cause ∧ transcript env config query = .error cause := by
  constructor
  · simp [session, hs, Except.map]
  · simp [transcript, session, Environment.recorded, hs, Except.map]

end

end Solver

end SmtCount
