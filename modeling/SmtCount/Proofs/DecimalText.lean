import Mathlib
import SmtCount.Binary64.Decimal

/-!
# Binary64 words and their decimal texts

The text of a word is read back as the word.  A quotient that is a word exactly is rounded to that word;
a text with a point is read as the decimal number it was made from; and the shortest decimal number that
is printed was accepted because its nearest word is the one to print.  When no shorter number is
accepted, 1074 places are enough to print the word exactly.

## Main results

* `Binary64.nearest_of_exact` — what is a word exactly is rounded to it.
* `Decimal.read?_positional` — digits with a point are read as they were written.
* `Decimal.read?_positional_shortest` — the shortest decimal number leads back to its word.
* `Binary64.readMagnitude?_magnitudeText` — **the text of a word is read back**.
-/

namespace SmtCount

namespace Binary64

/-! ### Exact quotients -/

theorem unitsOf_of_lt {m : Nat} (h : m < 2 ^ 53) : unitsOf m = m :=
  if_pos h

theorem unitsOf_of_le {m : Nat} (h : 2 ^ 53 ≤ m) :
    unitsOf m = (2 ^ 52 + m % 2 ^ 52) * 2 ^ (m / 2 ^ 52 - 1) :=
  if_neg (Nat.not_lt.mpr h)

theorem unitsOf_ne_zero {m : Nat} (h : m ≠ 0) : unitsOf m ≠ 0 := by
  by_cases hm : m < 2 ^ 53
  · rwa [unitsOf_of_lt hm]
  · rw [unitsOf_of_le (Nat.not_lt.mp hm)]
    have hpow : 0 < 2 ^ (m / 2 ^ 52 - 1) := Nat.two_pow_pos _
    exact Nat.ne_of_gt (Nat.mul_pos (by omega) hpow)

/-- The step that a word is a multiple of, as the number of bits that its units have above 53. -/
theorem log2_unitsOf {m : Nat} (h : 2 ^ 53 ≤ m) : (unitsOf m).log2 - 52 = m / 2 ^ 52 - 1 := by
  have hlog : (unitsOf m).log2 = 52 + (m / 2 ^ 52 - 1) := by
    rw [Nat.log2_eq_iff (unitsOf_ne_zero (by omega)), unitsOf_of_le h]
    have hrest : m % 2 ^ 52 < 2 ^ 52 := Nat.mod_lt _ (Nat.two_pow_pos 52)
    constructor
    · rw [Nat.pow_add]
      exact Nat.mul_le_mul_right _ (Nat.le_add_right _ _)
    · rw [Nat.add_right_comm, Nat.pow_add]
      exact Nat.mul_lt_mul_of_pos_right (by omega) (Nat.two_pow_pos _)
  omega

/-- **What is a word exactly is rounded to it.** -/
theorem nearest_of_exact {n d m : Nat} (hm : m < infinityMagnitude) (hd : 0 < d)
    (h : n * unitsPerOne = unitsOf m * d) : nearest n d = m := by
  have hquotient : n * unitsPerOne / d = unitsOf m := by
    rw [h, Nat.mul_div_cancel _ hd]
  have hmagnitude : ((unitsOf m).log2 - 52) * 2 ^ 52 +
      divNearest (unitsOf m * d) (d * 2 ^ ((unitsOf m).log2 - 52)) = m := by
    by_cases hsmall : m < 2 ^ 53
    · have hzero : (unitsOf m).log2 - 52 = 0 := by
        rw [unitsOf_of_lt hsmall]
        by_cases h0 : m = 0
        · rw [h0]
          rfl
        · have := (Nat.log2_lt h0).mpr hsmall
          omega
      rw [hzero, Nat.zero_mul, Nat.zero_add, Nat.pow_zero, Nat.mul_one, divNearest_mul_self hd,
        unitsOf_of_lt hsmall]
    · have hlarge : 2 ^ 53 ≤ m := Nat.not_lt.mp hsmall
      have hstep : 0 < d * 2 ^ (m / 2 ^ 52 - 1) := Nat.mul_pos hd (Nat.two_pow_pos _)
      have hunits : unitsOf m * d = (2 ^ 52 + m % 2 ^ 52) * (d * 2 ^ (m / 2 ^ 52 - 1)) := by
        rw [unitsOf_of_le hlarge, Nat.mul_assoc, Nat.mul_comm d]
      rw [log2_unitsOf hlarge, hunits, divNearest_mul_self hstep]
      omega
  rw [nearest, hquotient, h, hmagnitude]
  exact Nat.min_eq_right (Nat.le_of_lt hm)

end Binary64

namespace Decimal

/-! ### Digits -/

theorem isDigit_of_mem_toDigits {n : Nat} {c : Char} (h : c ∈ Nat.toDigits 10 n) : c.isDigit = true :=
  Nat.isDigit_of_mem_toDigits (by decide) (by decide) h

/-- Digits stand for less than the power of ten after them. -/
theorem ofDigits_lt {cs : List Char} (h : ∀ c ∈ cs, c.isDigit = true) : ofDigits cs < 10 ^ cs.length := by
  induction cs with
  | nil => exact Nat.one_pos
  | cons c cs ih =>
    have hc : c.toNat - '0'.toNat ≤ 9 := by
      have hdigit := h c List.mem_cons_self
      simp only [Char.isDigit, Bool.and_eq_true, decide_eq_true_eq, ge_iff_le] at hdigit
      have hle : c.toNat ≤ 57 := hdigit.2
      have hzero : '0'.toNat = 48 := rfl
      omega
    have hrest := ih fun d hd => h d (List.mem_cons_of_mem c hd)
    rw [ofDigits, Nat.ofDigitChars_cons, Nat.ofDigitChars_eq_ofDigitChars_zero, List.length_cons,
      Nat.pow_succ]
    have hmul : 10 ^ cs.length * (10 * 0 + (c.toNat - '0'.toNat)) ≤ 10 ^ cs.length * 9 :=
      Nat.mul_le_mul_left _ (by omega)
    rw [ofDigits] at hrest
    omega

/-- Digits and more digits. -/
theorem ofDigits_append (as bs : List Char) :
    ofDigits (as ++ bs) = 10 ^ bs.length * ofDigits as + ofDigits bs := by
  rw [ofDigits, Nat.ofDigitChars_append, Nat.ofDigitChars_eq_ofDigitChars_zero]
  rfl

theorem isDigit_of_mem_padded {places n : Nat} {c : Char} (h : c ∈ padded places n) :
    c.isDigit = true :=
  isDigit_of_mem_toDigits (List.mem_of_mem_drop h)

/-- A number in a given number of places has that many digits, and they stand for it. -/
theorem padded_spec {places n : Nat} (h : n < 10 ^ places) :
    (padded places n).length = places ∧ ofDigits (padded places n) = n := by
  have hlength : (Nat.toDigits 10 (10 ^ places + n)).length = places + 1 := by
    have hle := (Nat.length_toDigits_le_iff (n := 10 ^ places + n) (b := 10) (k := places + 1)
      (by decide) (by omega)).mpr (by rw [Nat.pow_succ]; omega)
    by_cases h0 : places = 0
    · have hpos : 0 < (Nat.toDigits 10 (10 ^ places + n)).length := Nat.length_toDigits_pos
      omega
    · have hgt := mt (Nat.length_toDigits_le_iff (n := 10 ^ places + n) (b := 10) (k := places)
        (by decide) (by omega)).mp (by omega)
      omega
  have hvalue : ofDigits (Nat.toDigits 10 (10 ^ places + n)) = 10 ^ places + n :=
    Nat.ofDigitChars_ten_toDigits
  have hdigits : ∀ c ∈ padded places n, c.isDigit = true := fun c hc => isDigit_of_mem_padded hc
  unfold padded at hdigits ⊢
  generalize Nat.toDigits 10 (10 ^ places + n) = l at hlength hvalue hdigits ⊢
  cases l with
  | nil => exact absurd hlength (by simp)
  | cons c cs =>
    rw [List.drop_succ_cons, List.drop_zero] at hdigits ⊢
    have hcs : cs.length = places := by simpa using hlength
    have hlt := ofDigits_lt hdigits
    rw [← List.singleton_append, ofDigits_append, hcs] at hvalue
    rw [hcs] at hlt
    refine ⟨hcs, ?_⟩
    -- the first digit is a one, since the others stand for less than `10 ^ places`
    generalize ofDigits [c] = d at hvalue
    obtain _ | _ | d := d
    · omega
    · omega
    · rw [Nat.mul_add, Nat.mul_add] at hvalue
      omega

/-! ### Reading a text with a point -/

/-- **Digits with a point are read as they were written.** -/
theorem read?_positional (coefficient places : Nat) :
    read? (positional coefficient places) = some ⟨coefficient, -places⟩ := by
  have hpos : 0 < 10 ^ places := Nat.pow_pos (by decide)
  obtain ⟨hlength, hvalue⟩ := padded_spec (Nat.mod_lt coefficient hpos)
  have hwhole : ∀ c ∈ Nat.toDigits 10 (coefficient / 10 ^ places), c.isDigit = true :=
    fun c hc => isDigit_of_mem_toDigits hc
  have hplaces : ∀ c ∈ padded places (coefficient % 10 ^ places), c.isDigit = true :=
    fun c hc => isDigit_of_mem_padded hc
  have hdigits : ofDigits (Nat.toDigits 10 (coefficient / 10 ^ places)) = coefficient / 10 ^ places :=
    Nat.ofDigitChars_ten_toDigits
  have hne : (Nat.toDigits 10 (coefficient / 10 ^ places)).isEmpty = false := by
    simp
  have hcoefficient : 10 ^ places * (coefficient / 10 ^ places) + coefficient % 10 ^ places = coefficient :=
    Nat.div_add_mod _ _
  rw [positional, read?, List.takeWhile_append_of_pos hwhole, List.dropWhile_append_of_pos hwhole]
  generalize padded places (coefficient % 10 ^ places) = fraction at *
  have hend : fraction.dropWhile Char.isDigit = [] := List.dropWhile_eq_nil_iff.mpr hplaces
  have hall : fraction.takeWhile Char.isDigit = fraction := List.takeWhile_eq_self_iff.mpr hplaces
  simp [splitFraction, readExponent?, ofDigits_append, hlength, hvalue, hdigits, hcoefficient, hend, hall]

/-! ### The shortest decimal -/

/-- A candidate is only taken if it leads back. -/
theorem candidate?_spec {m places : Nat} {d : Decimal} (h : candidate? m places = some d) :
    d.magnitude = m ∧ d.exponent = -places := by
  unfold candidate? at h
  dsimp only at h
  split at h
  · rename_i hlow
    obtain rfl := Option.some.inj h
    exact ⟨eq_of_beq (Bool.and_eq_true_iff.mp hlow).1, rfl⟩
  · split at h
    · rename_i hhigh
      obtain rfl := Option.some.inj h
      exact ⟨eq_of_beq hhigh, rfl⟩
    · cases h

/-- A decimal number that is the word exactly leads to it. -/
theorem magnitude_of_exact {coefficient places m : Nat} (hm : m < Binary64.infinityMagnitude) (h0 : m ≠ 0)
    (hplaces : places ≠ 0) (hexact : coefficient * Binary64.unitsPerOne = Binary64.unitsOf m * 10 ^ places)
    (hlog : places ≤ coefficient.log2 + 327) : magnitude ⟨coefficient, -places⟩ = m := by
  obtain ⟨k, rfl⟩ := Nat.exists_eq_succ_of_ne_zero hplaces
  have hpow : 0 < 10 ^ (k + 1) := Nat.pow_pos (by decide)
  have hne : coefficient ≠ 0 := by
    rintro rfl
    rw [Nat.zero_mul] at hexact
    exact Nat.mul_ne_zero (Binary64.unitsOf_ne_zero h0) (Nat.ne_of_gt hpow) hexact.symm
  rw [magnitude, if_neg hne]
  show (if coefficient.log2 + 327 < k + 1 then 0 else Binary64.nearest coefficient (10 ^ (k + 1))) = m
  rw [if_neg (Nat.not_lt.mpr hlog)]
  exact Binary64.nearest_of_exact hm hpow hexact

theorem scaled_div (u k : Nat) : u * 10 ^ k / 2 ^ k * 2 ^ k = u * 10 ^ k := by
  have hpow : u * 10 ^ k = u * 5 ^ k * 2 ^ k := by
    rw [Nat.mul_assoc, ← Nat.mul_pow]
  rw [hpow, Nat.mul_div_cancel _ (Nat.two_pow_pos k)]

theorem le_log2_scaled_div {u k : Nat} (hu : u ≠ 0) : k ≤ (u * 10 ^ k / 2 ^ k).log2 := by
  have hle : 2 ^ k ≤ u * 10 ^ k / 2 ^ k := by
    rw [Nat.le_div_iff_mul_le (Nat.two_pow_pos k), ← Nat.mul_pow]
    calc (2 * 2) ^ k ≤ 10 ^ k := Nat.pow_le_pow_left (by decide) k
      _ ≤ u * 10 ^ k := Nat.le_mul_of_pos_left _ (Nat.pos_of_ne_zero hu)
  rwa [Nat.le_log2 (Nat.ne_of_gt (Nat.lt_of_lt_of_le (Nat.two_pow_pos k) hle))]

/-- With 1074 places the decimal number is the word itself. -/
theorem magnitude_most_places {m : Nat} (hm : m < Binary64.infinityMagnitude) (h0 : m ≠ 0) :
    magnitude ⟨Binary64.unitsOf m * 10 ^ 1074 / Binary64.unitsPerOne, -1074⟩ = m := by
  have hunits : Binary64.unitsPerOne = 2 ^ 1074 := by
    unfold Binary64.unitsPerOne
    exact Eq.refl _
  have hexponent : (-1074 : Int) = -(1074 : Nat) := rfl
  rw [hexponent, hunits]
  -- the powers are too large to be computed
  generalize hk : 1074 = k at hunits ⊢
  refine magnitude_of_exact hm h0 (by omega) ?_ ?_
  · rw [hunits, scaled_div]
  · have := le_log2_scaled_div (k := k) (Binary64.unitsOf_ne_zero h0)
    omega

/-- The search leads back to the word, wherever it begins. -/
theorem searchFrom_spec {m : Nat} (hm : m < Binary64.infinityMagnitude) (h0 : m ≠ 0) (fuel places : Nat) :
    ∃ k : Nat, (searchFrom m fuel places).exponent = -k ∧ (searchFrom m fuel places).magnitude = m := by
  induction fuel generalizing places with
  | zero => exact ⟨1074, rfl, magnitude_most_places hm h0⟩
  | succ fuel ih =>
    rw [searchFrom]
    cases hcandidate : candidate? m places with
    | none => exact ih (places + 1)
    | some d =>
      obtain ⟨hmagnitude, hexponent⟩ := candidate?_spec hcandidate
      exact ⟨places, hexponent, hmagnitude⟩

/-- **The shortest decimal number leads back to its word**, and so does its text. -/
theorem read?_positional_shortest {m : Nat} (hm : m < Binary64.infinityMagnitude) (h0 : m ≠ 0) :
    (read? (positional (shortest m).coefficient (shortest m).exponent.natAbs)).map magnitude = some m := by
  obtain ⟨k, hexponent, hmagnitude⟩ := searchFrom_spec hm h0 1073 1
  rw [← shortest] at hexponent hmagnitude
  rw [read?_positional, hexponent, Int.natAbs_neg, Int.natAbs_natCast, ← hexponent]
  exact congrArg some hmagnitude

end Decimal

/-! ### The text of a word -/

namespace Binary64

/-- A text with a point is no word. -/
theorem readWord?_of_point {cs : List Char} (h : '.' ∈ cs) : readWord? cs = none := by
  have hmem : '.' ∈ cs.map Char.toLower := List.mem_map.mpr ⟨'.', h, by decide⟩
  have hne (w : List Char) (hw : '.' ∉ w) : cs.map Char.toLower ≠ w := fun heq => hw (heq ▸ hmem)
  simp [readWord?, hne]

theorem readMagnitude?_positional (coefficient places : Nat) :
    readMagnitude? (Decimal.positional coefficient places) =
      (Decimal.read? (Decimal.positional coefficient places)).map Decimal.magnitude := by
  rw [readMagnitude?, readWord?_of_point (by simp [Decimal.positional]), Option.none_or]

/-- A whole number with one place. -/
theorem magnitude_whole {m : Nat} (hm : m < infinityMagnitude) (hwhole : unitsOf m % unitsPerOne = 0) :
    Decimal.magnitude ⟨unitsOf m / unitsPerOne * 10, -1⟩ = m := by
  by_cases h0 : m = 0
  · rw [h0, unitsOf_of_lt (Nat.two_pow_pos 53), Nat.zero_div, Nat.zero_mul]
    rfl
  · have hexponent : (-1 : Int) = -(1 : Nat) := rfl
    rw [hexponent]
    refine Decimal.magnitude_of_exact hm h0 Nat.one_ne_zero ?_ (by omega)
    rw [Nat.mul_right_comm, Nat.div_mul_cancel (Nat.dvd_of_mod_eq_zero hwhole), Nat.pow_one]

/-- **The text of a word is read back.** -/
theorem readMagnitude?_magnitudeText {x : Binary64} (hx : x.isNaN = false) :
    readMagnitude? x.magnitudeText = some x.magnitude := by
  have hle : x.magnitude ≤ infinityMagnitude := by simpa [isNaN] using hx
  unfold magnitudeText
  rw [hx, if_neg Bool.false_ne_true]
  split
  · rename_i hinfinite
    have heq : x.magnitude = infinityMagnitude := by simpa [isInfinite] using hinfinite
    rw [heq]
    rfl
  · rename_i hinfinite
    have hlt : x.magnitude < infinityMagnitude := by
      have hne : x.magnitude ≠ infinityMagnitude := by simpa [isInfinite] using hinfinite
      omega
    split
    · rename_i hwhole
      have hmod : unitsOf x.magnitude % unitsPerOne = 0 := by
        simpa [isWhole, units] using (Bool.and_eq_true_iff.mp hwhole).2
      rw [readMagnitude?_positional, Decimal.read?_positional]
      exact congrArg some (magnitude_whole hlt hmod)
    · rename_i hwhole
      have h0 : x.magnitude ≠ 0 := by
        intro h0
        refine hwhole ?_
        simp [isWhole, isFinite, units, h0, unitsOf, infinityMagnitude]
      rw [readMagnitude?_positional]
      exact Decimal.read?_positional_shortest hlt h0

end Binary64

end SmtCount
