import Mathlib
import SmtCount.Proofs.Solver.Protocol
import SmtCount.Solver.Interleaving

/-!
# The time of calls that run at the same time

A call whose exchange comes to a verdict adds its time twice, to the total and to the counter of the verdict, and
other calls may add theirs in between.  No addition is lost and none is made twice: at any moment each counter holds,
up to its width, the times of the calls that are past their addition to it.  When no call is in between, the total is
the sum of the two others.

A call that fails before it has an answer adds nothing.  One whose answer cannot be read fails as well, but its time
has been added by then.

## Main definitions

* `Inquiry.time?` — the time that a call takes for a verdict, if it comes to it.
* `Inquiry.outcome` — what a call gives if there are no others.
* `Stage.Fits` — a call has learned what its exchange says.
* `Callers.Accounts` — the counters hold what has been added to them.
* `Callers.ChargedOnce` — what holds of the counters and of the calls at any moment.

## Main results

* `Callers.run_alone` — a call without others is `Solver.trySolve`, or `Solver.solve` if it keeps a log.
* `Caller.account_step` — **what one action adds**.
* `Callers.Accounts.run` — **the accounts are kept**, whatever the schedule.
* `Callers.time_is_charged_once` — **every exchange with a verdict is charged once**, and nothing else is.
-/

namespace SmtCount

/-! ### Counters -/

namespace SolverTimes

/-- The counter of a verdict. -/
def ofVerdict (t : SolverTimes) : Verdict → UInt64
  | .sat => t.sat
  | .unsat => t.unsat

@[simp] theorem total_addTotal (t : SolverTimes) (n : Nat) : (t.addTotal n).total = t.total + nanosWord n := rfl

@[simp] theorem ofVerdict_addTotal (t : SolverTimes) (n : Nat) (v : Verdict) :
    (t.addTotal n).ofVerdict v = t.ofVerdict v := by
  cases v <;> rfl

@[simp] theorem total_addVerdict (t : SolverTimes) (v : Verdict) (n : Nat) : (t.addVerdict v n).total = t.total := by
  cases v <;> rfl

theorem ofVerdict_addVerdict (t : SolverTimes) (v v' : Verdict) (n : Nat) : (t.addVerdict v n).ofVerdict v' =
    if v = v' then t.ofVerdict v' + nanosWord n else t.ofVerdict v' := by
  cases v <;> cases v' <;> rfl

end SolverTimes

namespace Solver

variable {σ : Type}

/-! ### One call -/

/-- An exchange does not fail for what it has not read. -/
theorem exchange_ne_parse (env : Environment σ) (config : SolverConfig) (query : String) (cause : ModelError) :
    exchange env config query ≠ .error (.parse cause) := by
  cases hs : env.spawn config with
  | error cause =>
    rw [exchange, (transcript_eq_error env config hs query).1]
    simp
  | ok s =>
    obtain ⟨result, t, events, -, hsession, -, hcourse⟩ := transcript_eq env config hs query
    rw [exchange, hsession]
    cases result with
    | ok r => simp [Except.map]
    | error e =>
      intro h
      exact hcourse.ne_parse cause (congrArg Except.error (Except.error.inj h))

namespace Inquiry

/-- What a call gives if there are no others. -/
def outcome (i : Inquiry σ) (config : SolverConfig) : Except SolverError SolveResult :=
  (Solver.trySolve i.env { config } i.query i.symbols i.labels).1

/-- The nanoseconds that a call takes for a verdict, as far as a word can hold them; `none` if its exchange does not
come to the verdict. -/
def time? (i : Inquiry σ) (config : SolverConfig) (v : Verdict) : Option Nat :=
  match exchange i.env config i.query with
  | .ok (verdict, _, nanos) => if verdict = v then some (min nanos (2 ^ 64 - 1)) else none
  | .error _ => none

variable {i : Inquiry σ} {config : SolverConfig} {verdict : Verdict} {answer : String} {nanos : Nat} {e : SolverError}

theorem outcome_of_ok (h : exchange i.env config i.query = .ok (verdict, answer, nanos)) :
    i.outcome config = readAnswer i.symbols i.labels answer verdict := by
  rw [outcome, trySolve, h]

theorem outcome_of_error (h : exchange i.env config i.query = .error e) : i.outcome config = .error e := by
  rw [outcome, trySolve, h]

theorem time?_of_ok (h : exchange i.env config i.query = .ok (verdict, answer, nanos)) (v : Verdict) :
    i.time? config v = if verdict = v then some (min nanos (2 ^ 64 - 1)) else none := by
  rw [time?, h]

theorem time?_of_error (h : exchange i.env config i.query = .error e) (v : Verdict) : i.time? config v = none := by
  rw [time?, h]

/-- **An answer that cannot be read is the answer to `sat`**, and its time counts. -/
theorem time?_of_outcome_eq_parse {cause : ModelError} (h : i.outcome config = .error (.parse cause)) :
    (i.time? config .sat).isSome = true := by
  cases hexchange : exchange i.env config i.query with
  | error e =>
    rw [outcome_of_error hexchange] at h
    obtain rfl := Except.error.inj h
    exact absurd hexchange (exchange_ne_parse _ _ _ _)
  | ok r =>
    obtain ⟨verdict, answer, nanos⟩ := r
    rw [outcome_of_ok hexchange] at h
    rw [time?_of_ok hexchange]
    cases verdict with
    | sat => rfl
    | unsat => cases h

/-- **Every other error is one of the exchange.** -/
theorem exchange_of_outcome_eq_error (he : ∀ cause, e ≠ .parse cause) (h : i.outcome config = .error e) :
    exchange i.env config i.query = .error e := by
  cases hexchange : exchange i.env config i.query with
  | error e' =>
    rw [outcome_of_error hexchange] at h
    rw [Except.error.inj h]
  | ok r =>
    obtain ⟨verdict, answer, nanos⟩ := r
    rw [outcome_of_ok hexchange] at h
    cases verdict with
    | sat =>
      rw [readAnswer] at h
      split at h
      · cases h
      · exact absurd (Except.error.inj h).symm (he _)
    | unsat => cases h

end Inquiry

/-- **A call without others** is the call of the solver, with the same answer, the same times and the same log. -/
theorem Callers.run_alone (solver : Solver) (i : Inquiry σ) :
    (⟨solver, [{ inquiry := i }]⟩ : Callers σ).run [0, 0, 0, 0] =
      (⟨(solver.trySolve i.env i.query i.symbols i.labels).2,
          [⟨i, .ended (solver.trySolve i.env i.query i.symbols i.labels).1⟩]⟩,
        if i.logged then (solver.solve i.env i.query i.symbols i.labels).2.1 else []) := by
  rw [solve, trySolve]
  cases hexchange : exchange i.env solver.config i.query with
  | error e => simp [run, step, Caller.step, Caller.finish, hexchange]
  | ok r =>
    obtain ⟨verdict, answer, nanos⟩ := r
    dsimp only
    cases hread : readAnswer i.symbols i.labels answer verdict with
    | error e => simp [run, step, Caller.step, Caller.finish, hexchange, hread, SolverTimes.record]
    | ok result => simp [run, step, Caller.step, Caller.finish, hexchange, hread, SolverTimes.record]

/-! ### Accounts -/

namespace Stage

/-- Is the time of the call in the total, if it has one? -/
def isCharged : Stage → Bool
  | .exchanging | .charging .. => false
  | .crediting .. | .reading .. | .ended _ => true

/-- Is the time of the call in the counter of its verdict, if it has one? -/
def isCredited : Stage → Bool
  | .exchanging | .charging .. | .crediting .. => false
  | .reading .. | .ended _ => true

/-- Is the call over? -/
def isEnded : Stage → Bool
  | .ended _ => true
  | _ => false

/-- Is the call over, or has its exchange not come to an end? -/
def isQuiet : Stage → Bool
  | .exchanging | .ended _ => true
  | _ => false

/-- Has the call learned what its exchange says? -/
inductive Fits (config : SolverConfig) (i : Inquiry σ) : Stage → Prop
  | exchanging : Fits config i .exchanging
  | charging {verdict : Verdict} {answer : String} {nanos : Nat}
    (h : exchange i.env config i.query = .ok (verdict, answer, nanos)) :
    Fits config i (.charging verdict answer nanos)
  | crediting {verdict : Verdict} {answer : String} {nanos : Nat}
    (h : exchange i.env config i.query = .ok (verdict, answer, nanos)) :
    Fits config i (.crediting verdict answer nanos)
  | reading {verdict : Verdict} {answer : String} {nanos : Nat}
    (h : exchange i.env config i.query = .ok (verdict, answer, nanos)) : Fits config i (.reading verdict answer)
  | ended : Fits config i (.ended (i.outcome config))

end Stage

namespace Caller

variable (config : SolverConfig) (c : Caller σ)

/-- What a call has added to the total. -/
def charged : Nat :=
  if c.stage.isCharged then
    ((c.inquiry.time? config .sat).getD 0) + ((c.inquiry.time? config .unsat).getD 0)
  else 0

/-- What a call has added to the counter of a verdict. -/
def credited (v : Verdict) : Nat :=
  if c.stage.isCredited then (c.inquiry.time? config v).getD 0 else 0

end Caller

/-- What an action does to a counter: it adds as much as the account of the call grows by. -/
def Adds (old new : UInt64) (before after : Nat) : Prop :=
  ∃ n, after = before + n ∧ new = old + UInt64.ofNat n

theorem Adds.refl (counter : UInt64) (n : Nat) : Adds counter counter n n :=
  ⟨0, rfl, by simp⟩

/-- What one action of a call does to the counters. -/
structure Caller.Account (solver solver' : Solver) (c c' : Caller σ) : Prop where
  inquiry_eq : c'.inquiry = c.inquiry
  config_eq : solver'.config = solver.config
  fits : c'.stage.Fits solver.config c'.inquiry
  total : Adds solver.times.total solver'.times.total (c.charged solver.config) (c'.charged solver.config)
  verdict : ∀ v, Adds (solver.times.ofVerdict v) (solver'.times.ofVerdict v) (c.credited solver.config v)
    (c'.credited solver.config v)

/-- The time of a call that has come to a verdict is one of the two. -/
theorem Inquiry.nanos_eq {i : Inquiry σ} {config : SolverConfig} {verdict : Verdict} {answer : String} {nanos : Nat}
    (h : exchange i.env config i.query = .ok (verdict, answer, nanos)) :
    (i.time? config .sat).getD 0 + (i.time? config .unsat).getD 0 = min nanos (2 ^ 64 - 1) := by
  rw [time?_of_ok h, time?_of_ok h]
  cases verdict <;> simp

/-- **What one action adds** to the counters, it adds to the account of the call. -/
theorem Caller.account_step {solver : Solver} {c : Caller σ} (h : c.stage.Fits solver.config c.inquiry) :
    c.Account solver (c.step solver).2.1 (c.step solver).1 := by
  obtain ⟨i, stage⟩ := c
  dsimp only at h
  cases h with
  | exchanging =>
    -- whatever comes of the exchange, nothing is added yet
    cases hexchange : exchange i.env solver.config i.query with
    | error e =>
      have hnone (v : Verdict) : (i.time? solver.config v).getD 0 = 0 := by
        rw [Inquiry.time?_of_error hexchange]
        rfl
      have hstep : (⟨i, .exchanging⟩ : Caller σ).step solver =
          (⟨i, .ended (.error e)⟩, solver, if i.logged then [failureLine e] else []) := by
        simp [step, finish, hexchange]
      rw [hstep, ← Inquiry.outcome_of_error hexchange]
      refine ⟨rfl, rfl, .ended, ?_, fun v => ?_⟩
      · simpa [charged, Stage.isCharged, hnone] using Adds.refl _ 0
      · simpa [credited, Stage.isCredited, hnone] using Adds.refl _ 0
    | ok r =>
      obtain ⟨verdict, answer, nanos⟩ := r
      have hstep : (⟨i, .exchanging⟩ : Caller σ).step solver =
          (⟨i, .charging verdict answer nanos⟩, solver, []) := by
        simp [step, hexchange]
      rw [hstep]
      exact ⟨rfl, rfl, .charging hexchange, .refl _ _, fun v => .refl _ _⟩
  | @charging verdict answer nanos h =>
    refine ⟨rfl, rfl, .crediting h, ⟨min nanos (2 ^ 64 - 1), ?_, ?_⟩, fun v => ?_⟩
    · have hcharged := Inquiry.nanos_eq h
      simpa [charged, step, Stage.isCharged] using hcharged
    · exact SolverTimes.total_addTotal _ _
    · simpa [credited, step, Stage.isCredited] using Adds.refl _ 0
  | @crediting verdict answer nanos h =>
    refine ⟨rfl, rfl, .reading h, ?_, fun v => ?_⟩
    · simpa [charged, step, Stage.isCharged] using Adds.refl _ _
    · have htimes : (step solver (⟨i, .crediting verdict answer nanos⟩ : Caller σ)).2.1.times.ofVerdict v =
          (solver.times.addVerdict verdict nanos).ofVerdict v := rfl
      rw [htimes, SolverTimes.ofVerdict_addVerdict]
      refine ⟨if verdict = v then min nanos (2 ^ 64 - 1) else 0, ?_, ?_⟩
      · by_cases hv : verdict = v
        · simp [credited, step, Stage.isCredited, Inquiry.time?_of_ok h, hv]
        · simp [credited, step, Stage.isCredited, Inquiry.time?_of_ok h, hv]
      · split
        · rfl
        · simp
  | @reading verdict answer nanos h =>
    have hends : ((⟨i, .reading verdict answer⟩ : Caller σ).step solver).1 = ⟨i, .ended (i.outcome solver.config)⟩ := by
      rw [Inquiry.outcome_of_ok h]
      rfl
    rw [hends]
    exact ⟨rfl, rfl, .ended, .refl _ _, fun v => .refl _ _⟩
  | ended => exact ⟨rfl, rfl, .ended, .refl _ _, fun v => .refl _ _⟩

/-! ### Several calls -/

namespace Callers

/-- Do the counters hold what the calls have added to them? -/
structure Accounts (w : Callers σ) : Prop where
  fits : ∀ c ∈ w.calls, c.stage.Fits w.solver.config c.inquiry
  total_eq : w.solver.times.total = UInt64.ofNat (w.calls.map (Caller.charged w.solver.config)).sum
  verdict_eq : ∀ v, w.solver.times.ofVerdict v =
    UInt64.ofNat (w.calls.map fun c => c.credited w.solver.config v).sum

variable {w : Callers σ} {i : Nat} {c : Caller σ}

theorem step_of_some (h : w.calls[i]? = some c) :
    (w.step i).1 = ⟨(c.step w.solver).2.1, w.calls.set i (c.step w.solver).1⟩ := by
  rw [step, h]

theorem step_of_none (h : w.calls[i]? = none) : w.step i = (w, []) := by
  rw [step, h]

/-- What is added to a counter for one call, is added to the sum over all calls. -/
theorem eq_sum_of_adds {f : Caller σ → Nat} {c' : Caller σ} {old new : UInt64} (hadds : Adds old new (f c) (f c'))
    (hcall : w.calls[i]? = some c) (hold : old = UInt64.ofNat (w.calls.map f).sum) :
    new = UInt64.ofNat ((w.calls.set i c').map f).sum := by
  obtain ⟨n, hn, rfl⟩ := hadds
  obtain ⟨hlt, rfl⟩ := List.getElem?_eq_some_iff.mp hcall
  have hbefore : (w.calls.map f).sum = f w.calls[i] + ((w.calls.eraseIdx i).map f).sum := by
    rw [← ((List.getElem_cons_eraseIdx_perm hlt).map f).sum_eq, List.map_cons, List.sum_cons]
  have hafter : ((w.calls.set i c').map f).sum = f c' + ((w.calls.eraseIdx i).map f).sum := by
    rw [((List.set_perm_cons_eraseIdx hlt c').map f).sum_eq, List.map_cons, List.sum_cons]
  have hsum : ((w.calls.set i c').map f).sum = (w.calls.map f).sum + n := by omega
  rw [hold, hsum, UInt64.ofNat_add]

/-- An action of one call keeps the accounts. -/
theorem Accounts.step (h : w.Accounts) (i : Nat) : (w.step i).1.Accounts := by
  cases hcall : w.calls[i]? with
  | none =>
    rw [step_of_none hcall]
    exact h
  | some c =>
    have haccount := Caller.account_step (h.fits c (List.mem_of_getElem? hcall))
    have hconfig := haccount.config_eq
    rw [step_of_some hcall]
    refine ⟨fun c' hc' => ?_, ?_, fun v => ?_⟩
    · dsimp only
      rw [hconfig]
      rcases List.mem_or_eq_of_mem_set hc' with hmem | rfl
      · exact h.fits c' hmem
      · exact haccount.fits
    · dsimp only
      rw [hconfig]
      exact eq_sum_of_adds haccount.total hcall h.total_eq
    · dsimp only
      rw [hconfig]
      exact eq_sum_of_adds (haccount.verdict v) hcall (h.verdict_eq v)

/-- An action of one call keeps the configuration, and what the calls are about. -/
theorem kept_step (h : w.Accounts) (i : Nat) : (w.step i).1.solver.config = w.solver.config ∧
    (w.step i).1.calls.map Caller.inquiry = w.calls.map Caller.inquiry := by
  cases hcall : w.calls[i]? with
  | none =>
    rw [step_of_none hcall]
    exact ⟨rfl, rfl⟩
  | some c =>
    have haccount := Caller.account_step (h.fits c (List.mem_of_getElem? hcall))
    rw [step_of_some hcall]
    refine ⟨haccount.config_eq, ?_⟩
    obtain ⟨hlt, rfl⟩ := List.getElem?_eq_some_iff.mp hcall
    rw [List.map_set, haccount.inquiry_eq, ← List.getElem_map Caller.inquiry (h := by simpa using hlt),
      List.set_getElem_self]

theorem run_cons (w : Callers σ) (i : Nat) (schedule : List Nat) :
    (w.run (i :: schedule)).1 = ((w.step i).1.run schedule).1 := rfl

/-- **The accounts are kept**, whatever the schedule. -/
theorem Accounts.run (h : w.Accounts) (schedule : List Nat) : (w.run schedule).1.Accounts := by
  induction schedule generalizing w with
  | nil => exact h
  | cons i schedule ih =>
    rw [run_cons]
    exact ih (h.step i)

/-- The solver stays the same, and so do the calls that are made. -/
theorem kept_run (h : w.Accounts) (schedule : List Nat) :
    (w.run schedule).1.solver.config = w.solver.config ∧
      (w.run schedule).1.calls.map Caller.inquiry = w.calls.map Caller.inquiry := by
  induction schedule generalizing w with
  | nil => exact ⟨rfl, rfl⟩
  | cons i schedule ih =>
    obtain ⟨hconfig, hcalls⟩ := ih (h.step i)
    rw [run_cons, hconfig, hcalls]
    exact kept_step h i

/-- Before the first action there are no times, and no call has added anything. -/
theorem accounts_start (config : SolverConfig) (inquiries : List (Inquiry σ)) :
    (start config inquiries).Accounts := by
  have hsum (f : Caller σ → Nat) (hf : ∀ inquiry, f { inquiry } = 0) :
      ((start config inquiries).calls.map f).sum = 0 := by
    rw [start, List.map_map]
    refine List.sum_eq_zero fun n hn => ?_
    obtain ⟨inquiry, -, rfl⟩ := List.mem_map.mp hn
    exact hf inquiry
  refine ⟨fun c hc => ?_, ?_, fun v => ?_⟩
  · obtain ⟨inquiry, -, rfl⟩ := List.mem_map.mp hc
    exact .exchanging
  · rw [hsum _ fun _ => rfl]
    rfl
  · rw [hsum _ fun _ => rfl]
    cases v <;> rfl

/-! ### When no call is in between -/

/-- Is every call over, or has not come to the end of its exchange? -/
def IsQuiet (w : Callers σ) : Prop :=
  ∀ c ∈ w.calls, c.stage.isQuiet = true

/-- The times of the calls that are over and whose exchange came to the verdict. -/
def spent (w : Callers σ) (v : Verdict) : List Nat :=
  (w.calls.filter fun c => c.stage.isEnded).filterMap fun c => c.inquiry.time? w.solver.config v

/-- A call that is not in between has added to both counters or to none. -/
theorem charged_of_isQuiet {config : SolverConfig} (h : c.stage.isQuiet = true) :
    c.charged config = c.credited config .sat + c.credited config .unsat := by
  obtain ⟨inquiry, stage⟩ := c
  cases stage with
  | exchanging => rfl
  | ended outcome => rfl
  | charging _ _ _ | crediting _ _ _ | reading _ _ => cases h

/-- What has been added for a verdict is the time of the calls that came to it. -/
theorem sum_credited {config : SolverConfig} {v : Verdict} {calls : List (Caller σ)}
    (h : ∀ c ∈ calls, c.stage.isQuiet = true) : (calls.map fun c => c.credited config v).sum =
      ((calls.filter fun c => c.stage.isEnded).filterMap fun c => c.inquiry.time? config v).sum := by
  induction calls with
  | nil => rfl
  | cons c calls ih =>
    obtain ⟨hc, hcalls⟩ := List.forall_mem_cons.mp h
    obtain ⟨inquiry, stage⟩ := c
    rw [List.map_cons, List.sum_cons, ih hcalls]
    cases stage with
    | exchanging => simp [Caller.credited, Stage.isCredited, Stage.isEnded]
    | ended outcome =>
      cases htime : inquiry.time? config v with
      | none => simp [Caller.credited, Stage.isCredited, Stage.isEnded, htime]
      | some n => simp [Caller.credited, Stage.isCredited, Stage.isEnded, htime]
    | charging _ _ _ | crediting _ _ _ | reading _ _ => cases hc

/-- The counter of a verdict is the time of the calls that came to it. -/
theorem Accounts.toNat_ofVerdict (h : w.Accounts) (hquiet : w.IsQuiet) (v : Verdict) :
    (w.solver.times.ofVerdict v).toNat = (w.spent v).sum % 2 ^ 64 := by
  rw [h.verdict_eq, UInt64.toNat_ofNat', sum_credited hquiet]
  rfl

/-- The total is the sum of the two counters. -/
theorem Accounts.total_eq_add (h : w.Accounts) (hquiet : w.IsQuiet) :
    w.solver.times.total = w.solver.times.sat + w.solver.times.unsat := by
  have hcharged : w.calls.map (Caller.charged w.solver.config) =
      w.calls.map fun c => c.credited w.solver.config .sat + c.credited w.solver.config .unsat :=
    List.map_congr_left fun c hc => charged_of_isQuiet (hquiet c hc)
  have hsat : w.solver.times.sat = _ := h.verdict_eq .sat
  have hunsat : w.solver.times.unsat = _ := h.verdict_eq .unsat
  rw [h.total_eq, hcharged, List.sum_map_add, UInt64.ofNat_add, ← hsat, ← hunsat]

/-- A call that fails without an answer adds nothing. -/
theorem Accounts.solver_step_of_error (h : w.Accounts) (hcall : w.calls[i]? = some c) {e : SolverError}
    (he : exchange c.inquiry.env w.solver.config c.inquiry.query = .error e) :
    (w.step i).1.solver = w.solver := by
  have hfits := h.fits c (List.mem_of_getElem? hcall)
  rw [step_of_some hcall]
  obtain ⟨inquiry, stage⟩ := c
  dsimp only at he hfits ⊢
  cases hfits with
  | exchanging => simp [Caller.step, he]
  | charging hok | crediting hok | reading hok =>
    rw [he] at hok
    cases hok
  | ended => rfl

/-- What is true of the counters and the calls at any moment. -/
structure ChargedOnce (config : SolverConfig) (inquiries : List (Inquiry σ)) (w : Callers σ) : Prop where
  /-- The calls are those that are made, on a solver of this configuration. -/
  config_eq : w.solver.config = config
  inquiries_eq : w.calls.map Caller.inquiry = inquiries
  /-- The total is the sum of the other counters, unless a call is in between. -/
  total_eq : w.IsQuiet → w.solver.times.total.toNat =
    (w.solver.times.sat.toNat + w.solver.times.unsat.toNat) % 2 ^ 64
  /-- The counter of a verdict is the time of the exchanges that came to it. -/
  verdict_eq : w.IsQuiet → ∀ v, (w.solver.times.ofVerdict v).toNat = (w.spent v).sum % 2 ^ 64
  /-- A call that is over has given what it gives without others. -/
  outcome_eq : ∀ c ∈ w.calls, ∀ outcome, c.stage = .ended outcome → outcome = c.inquiry.outcome config
  /-- A call whose answer cannot be read has come to `sat`, and has a time. -/
  unread : ∀ c ∈ w.calls, ∀ cause, c.inquiry.outcome config = .error (.parse cause) →
    (c.inquiry.time? config .sat).isSome = true
  /-- A call that fails in any other way has no time, and nothing that it does changes a counter. -/
  failed : ∀ i c, w.calls[i]? = some c → ∀ e, (∀ cause, e ≠ .parse cause) → c.inquiry.outcome config = .error e →
    (∀ v, c.inquiry.time? config v = none) ∧ (w.step i).1.solver.times = w.solver.times

/-- **Every exchange with a verdict is charged once**, to the total and to the counter of its verdict, however the
calls get into each other's way.

Let any calls be made on a new solver, and let their actions come in any order.  At any moment when no call is between
its exchange and its end, the total is the sum of the counters of `sat` and `unsat`, and each of these is the sum of
the times of the calls with this verdict that are over, those included whose answer could not be read; sums are taken
up to the width of the counters, and a time that is longer than a word counts as the greatest word.  Calls that fail
otherwise leave the counters alone, at every step of theirs. -/
theorem time_is_charged_once (config : SolverConfig) (inquiries : List (Inquiry σ)) (schedule : List Nat) :
    ((start config inquiries).run schedule).1.ChargedOnce config inquiries := by
  have hstart := accounts_start config inquiries
  obtain ⟨hconfig, hinquiries⟩ := kept_run hstart schedule
  have hrun := hstart.run schedule
  have hcalls : (start config inquiries).calls.map Caller.inquiry = inquiries := by
    rw [start, List.map_map]
    exact List.map_id inquiries
  replace hconfig : ((start config inquiries).run schedule).1.solver.config = config := hconfig
  rw [hcalls] at hinquiries
  generalize ((start config inquiries).run schedule).1 = w at hrun hconfig hinquiries
  refine ⟨hconfig, hinquiries, fun hquiet => ?_, hrun.toNat_ofVerdict, ?_, ?_, ?_⟩
  · rw [hrun.total_eq_add hquiet, UInt64.toNat_add]
  · intro c hc outcome houtcome
    have hfits := hrun.fits c hc
    rw [houtcome, hconfig] at hfits
    cases hfits
    rfl
  · intro c _ cause houtcome
    exact Inquiry.time?_of_outcome_eq_parse houtcome
  · intro i c hcall e he houtcome
    have hexchange := Inquiry.exchange_of_outcome_eq_error he houtcome
    refine ⟨Inquiry.time?_of_error hexchange, ?_⟩
    rw [hrun.solver_step_of_error hcall (hconfig ▸ hexchange)]

/-! ### An instance -/

/-- A program that prints a line and an answer, and takes some time for it. -/
def answering (line answer : String) (nanos : Nat) : Environment Unit where
  spawn _ := .ok ()
  write _ _ := (.ok (), ())
  closeInput := id
  readLine _ := (.ok line.toByteArray, ())
  readRest _ := (.ok answer.toByteArray, ())
  timedOut _ := false
  disarm := id
  kill := id
  reap := id
  elapsed _ := nanos

/-- A query without symbols, for a program that answers. -/
def inquiryFor (line answer : String) (nanos : Nat) : Inquiry Unit :=
  ⟨answering line answer nanos, "(check-sat)", {}, {}, false⟩

section Answering

variable {line : String}

/-- A program that says a verdict is asked for its answer. -/
theorem exchange_inquiryFor {verdict : Verdict} (h : (firstLine line).bind Verdict.ofLine? = some verdict)
    (answer : String) (nanos : Nat) (config : SolverConfig) :
    exchange (inquiryFor line answer nanos).env config (inquiryFor line answer nanos).query =
      .ok (verdict, Text.joinLines answer, nanos) := by
  have hline := decode_toByteArray line
  have hanswer := decode_toByteArray answer
  simp [exchange, session, converse, fetchAnswer, say, release, inquiryFor, answering, expired, hline, hanswer, h,
    Except.map]

/-- A program that says no verdict is not. -/
theorem exchange_inquiryFor_none (h : (firstLine line).bind Verdict.ofLine? = none) (answer : String) (nanos : Nat)
    (config : SolverConfig) :
    exchange (inquiryFor line answer nanos).env config (inquiryFor line answer nanos).query =
      .error (.protocol (firstLine line)) := by
  have hline := decode_toByteArray line
  simp [exchange, session, converse, say, release, inquiryFor, answering, expired, hline, h, Except.map]

end Answering

/-- A call whose answer cannot be read, after more time than a word can hold. -/
def unreadInquiry : Inquiry Unit := inquiryFor "sat" "(" (2 ^ 64)

/-- A call with a model. -/
def modelInquiry : Inquiry Unit := inquiryFor "sat" "()" 3

/-- A call with a core. -/
def coreInquiry : Inquiry Unit := inquiryFor "unsat" "()" 9

/-- A call without a verdict. -/
def unknownInquiry : Inquiry Unit := inquiryFor "unknown" "" 5

/-- The additions of three calls cross each other, and the fourth one fails in between. -/
def crossing : List Nat :=
  [0, 1, 2, 3, 1, 0, 2, 2, 0, 1, 1, 0, 2]

/-- All four calls end, and the counter of `sat` has wrapped around. -/
theorem time_is_charged_once_crossing :
    let w := ((start halfSecond.config [unreadInquiry, modelInquiry, coreInquiry, unknownInquiry]).run crossing).1
    w.IsQuiet ∧ w.solver.times.sat.toNat = 2 ∧ w.solver.times.unsat.toNat = 9 ∧
      w.solver.times.total.toNat = 11 := by
  intro w
  have hcharged : w.ChargedOnce halfSecond.config _ := time_is_charged_once _ _ crossing
  have hunread : exchange unreadInquiry.env halfSecond.config unreadInquiry.query =
      .ok (.sat, Text.joinLines "(", 2 ^ 64) := exchange_inquiryFor (by decide) _ _ _
  have hmodel : exchange modelInquiry.env halfSecond.config modelInquiry.query =
      .ok (.sat, Text.joinLines "()", 3) := exchange_inquiryFor (by decide) _ _ _
  have hcore : exchange coreInquiry.env halfSecond.config coreInquiry.query =
      .ok (.unsat, Text.joinLines "()", 9) := exchange_inquiryFor (by decide) _ _ _
  have hunknown : exchange unknownInquiry.env halfSecond.config unknownInquiry.query =
      .error (.protocol (firstLine "unknown")) := exchange_inquiryFor_none (by decide) _ _ _
  have hcalls : ∃ a b c d, w.calls = [⟨unreadInquiry, .ended a⟩, ⟨modelInquiry, .ended b⟩, ⟨coreInquiry, .ended c⟩,
      ⟨unknownInquiry, .ended d⟩] := by
    simp [w, start, crossing, run, step, Caller.step, Caller.finish, hunread, hmodel, hcore, hunknown]
  obtain ⟨a, b, c, d, hcalls⟩ := hcalls
  have hquiet : w.IsQuiet := by
    simp [IsQuiet, hcalls, Stage.isQuiet]
  have hspent (v : Verdict) : w.spent v = [unreadInquiry, modelInquiry, coreInquiry, unknownInquiry].filterMap
      fun i => i.time? halfSecond.config v := by
    rw [spent, hcalls, hcharged.config_eq]
    rfl
  have hsat : w.solver.times.sat.toNat = 2 := by
    have htimes : w.spent .sat = [2 ^ 64 - 1, 3] := by
      rw [hspent]
      simp [Inquiry.time?_of_ok hunread, Inquiry.time?_of_ok hmodel, Inquiry.time?_of_ok hcore,
        Inquiry.time?_of_error hunknown]
    have hsum := hcharged.verdict_eq hquiet .sat
    rw [htimes] at hsum
    exact hsum
  have hunsat : w.solver.times.unsat.toNat = 9 := by
    have htimes : w.spent .unsat = [9] := by
      rw [hspent]
      simp [Inquiry.time?_of_ok hunread, Inquiry.time?_of_ok hmodel, Inquiry.time?_of_ok hcore,
        Inquiry.time?_of_error hunknown]
    have hsum := hcharged.verdict_eq hquiet .unsat
    rw [htimes] at hsum
    exact hsum
  have htotal := hcharged.total_eq hquiet
  rw [hsat, hunsat] at htotal
  exact ⟨hquiet, hsat, hunsat, htotal⟩

end Callers

end Solver

end SmtCount
