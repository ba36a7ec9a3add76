import SmtCount.Power

/-!
# Integers in decimal digits

Reading an integer that has to fit a machine word.  A text is read from left to right and the first
thing wrong decides the error: a character that is no digit, or a digit that leaves the range.

## Main definitions

* `IntegerError` — why a text is no integer of the range.
* `readDigits limit` — reads digits whose value must not exceed `limit`.
* `readInt64`, `readUInt64` — the two words that are read, and the signs each admits.

## Main results

* `readDigits_toDigits` — the digits of a number within the limit are read back.
-/

namespace SmtCount.Text

/-- Why a text is no integer of the range asked for. -/
inductive IntegerError
  /-- There is nothing to read. -/
  | empty
  /-- Something is no digit. -/
  | invalidDigit
  /-- The value lies above the range. -/
  | tooLarge
  /-- The value lies below the range. -/
  | tooSmall
  deriving DecidableEq, Repr

/-- The wording of an `IntegerError`. -/
def IntegerError.message : IntegerError → String
  | .empty => "cannot parse integer from empty string"
  | .invalidDigit => "invalid digit found in string"
  | .tooLarge => "number too large to fit in target type"
  | .tooSmall => "number too small to fit in target type"

/-- The value of an ASCII digit. -/
def digitValue? (c : Char) : Option Nat :=
  if '0' ≤ c ∧ c ≤ '9' then some (c.toNat - '0'.toNat) else none

/-- Reads `cs` as digits that continue the number `n`; a value above `limit` is the error `beyond`.
No text at all continues the number by nothing. -/
def readDigits (limit : Nat) (beyond : IntegerError) : Nat → List Char → Except IntegerError Nat
  | n, [] => .ok n
  | n, c :: cs =>
    match digitValue? c with
    | none => .error .invalidDigit
    | some d => if 10 * n + d ≤ limit then readDigits limit beyond (10 * n + d) cs else .error beyond

/-- Reads one digit or more. -/
def readNatural (limit : Nat) (beyond : IntegerError) : List Char → Except IntegerError Nat
  | [] => .error .invalidDigit
  | c :: cs => readDigits limit beyond 0 (c :: cs)

/-- Reads a signed word of 64 bits: an optional sign and digits. -/
def readInt64 : List Char → Except IntegerError Int64
  | [] => .error .empty
  | '+' :: cs => (readNatural (2 ^ 63 - 1) .tooLarge cs).map fun n => Int64.ofInt n
  | '-' :: cs => (readNatural (2 ^ 63) .tooSmall cs).map fun n => Int64.ofInt (-n)
  | cs => (readNatural (2 ^ 63 - 1) .tooLarge cs).map fun n => Int64.ofInt n

/-- Reads an unsigned word of 64 bits: an optional plus sign and digits. -/
def readUInt64 : List Char → Except IntegerError UInt64
  | [] => .error .empty
  | '+' :: cs => (readNatural (2 ^ 64 - 1) .tooLarge cs).map fun n => UInt64.ofNat n
  | cs => (readNatural (2 ^ 64 - 1) .tooLarge cs).map fun n => UInt64.ofNat n

/-! ### Reading back -/

theorem digitValue?_digitChar {d : Nat} (h : d < 10) : digitValue? (Nat.digitChar d) = some d := by
  match d, h with
  | 0, _ | 1, _ | 2, _ | 3, _ | 4, _ | 5, _ | 6, _ | 7, _ | 8, _ | 9, _ => decide

theorem readDigits_append (limit : Nat) (beyond : IntegerError) (n : Nat) (cs ds : List Char) :
    readDigits limit beyond n (cs ++ ds) =
      (readDigits limit beyond n cs).bind fun m => readDigits limit beyond m ds := by
  induction cs generalizing n with
  | nil => rfl
  | cons c cs ih =>
    rw [List.cons_append, readDigits, readDigits]
    cases digitValue? c with
    | none => rfl
    | some d =>
      dsimp only
      split
      · exact ih _
      · rfl

/-- The digits of a number within the limit are read back. -/
theorem readDigits_toDigits {limit : Nat} {beyond : IntegerError} (n : Nat) (h : n ≤ limit) :
    readDigits limit beyond 0 (Nat.toDigits 10 n) = .ok n := by
  induction n using Nat.strongRecOn with
  | _ n ih =>
    by_cases hn : n < 10
    · rw [Nat.toDigits_of_lt_base hn]
      simp [readDigits, digitValue?_digitChar hn, h]
    · rw [Nat.toDigits_of_base_le (by decide) (by omega), readDigits_append,
        ih (n / 10) (by omega) (by omega)]
      have hd : 10 * (n / 10) + n % 10 = n := by omega
      simp [Except.bind, readDigits, digitValue?_digitChar (Nat.mod_lt n (by decide)), hd, h]

end SmtCount.Text
