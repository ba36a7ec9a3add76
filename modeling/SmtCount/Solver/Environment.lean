import SmtCount.Config

/-!
# Running programs

What an exchange with a solver needs to know about programs: how one is started, what goes in and out
of it, and when its time is over.  The programs themselves are not part of the library, and what they
do is not assumed.

## Main definitions

* `Cause` — why something could not be done.
* `Environment σ` — the operations on a running program, whose state is a value of `σ`.
-/

namespace SmtCount

/-- What there is to say about something that could not be done.  The words are not those of the library. -/
abbrev Cause := String

/-- The operations on running programs. -/
structure Environment (σ : Type) where
  /-- Starts the program of a configuration, and its watchdog if there is a time limit.  It may be that
  the program cannot be started. -/
  spawn : SolverConfig → Except Cause σ
  /-- Writes to the input of the program.  It may be that not everything can be written. -/
  write : σ → String → Except Cause Unit × σ
  /-- Ends the input of the program, unless that has been done. -/
  closeInput : σ → σ
  /-- Reads output up to the end of a line, or up to the end of the output if that comes first.  Reading
  may fail. -/
  readLine : σ → Except Cause ByteArray × σ
  /-- Reads output up to its end.  Reading may fail. -/
  readRest : σ → Except Cause ByteArray × σ
  /-- Has the watchdog stopped the program? -/
  timedOut : σ → Bool
  /-- Calls the watchdog off, and waits until it is gone. -/
  disarm : σ → σ
  /-- Ends the program, unless it has ended. -/
  kill : σ → σ
  /-- Waits until the program has ended, and takes note of it. -/
  reap : σ → σ
  /-- How many nanoseconds have passed since the program was started. -/
  elapsed : σ → Nat

end SmtCount
