import Mathlib
import SmtCount.Answer.Model
import SmtCount.Proofs.DecimalText
import SmtCount.Proofs.Naming

/-!
# The values of a model

A value is read as the constant it is the text of.  The text of a value below zero is a form with a sign
and a numeral, which may have any blanks between them; an integer is read from the sign and the numeral put
together, so that the least one is read although its absolute value is out of range.

## Main results

* `readInt_of_sameTokens`, `readReal?_of_sameTokens` — the texts of an integer and a real are read back.
* `readValue_of_sameTokens` — **the text of a constant is read back**, for a variable of its sort.
-/

namespace SmtCount

/-! ### Numerals -/

/-- Is the character a letter, a digit or a point? -/
def IsNumeralChar (c : Char) : Prop :=
  c.isAlphanum = true ∨ c = '.'

instance : DecidablePred IsNumeralChar :=
  fun c => inferInstanceAs (Decidable (c.isAlphanum = true ∨ c = '.'))

theorem IsNumeralChar.isPlainChar {c : Char} (h : IsNumeralChar c) : IsPlainChar c := by
  rcases h with h | rfl
  · exact Variable.isPlainChar_of_continuesPlain (by simp [Variable.continuesPlain, h])
  · exact Variable.isPlainChar_of_continuesPlain (by decide)

theorem isNumeralChar_of_isDigit {c : Char} (h : c.isDigit = true) : IsNumeralChar c :=
  .inl (by simp [Char.isAlphanum, h])

theorem isAtom_toDigits (n : Nat) : IsAtom (Nat.toDigits 10 n) :=
  isAtom_of_forall_isPlainChar Nat.toDigits_ne_nil fun _ hc =>
    (isNumeralChar_of_isDigit (Decimal.isDigit_of_mem_toDigits hc)).isPlainChar

theorem isNumeralChar_of_mem_positional {coefficient places : Nat} {c : Char}
    (h : c ∈ Decimal.positional coefficient places) : IsNumeralChar c := by
  rcases List.mem_append.mp h with h | h
  · exact isNumeralChar_of_isDigit (Decimal.isDigit_of_mem_toDigits h)
  · rcases List.mem_cons.mp h with rfl | h
    · exact .inr rfl
    · exact isNumeralChar_of_isDigit (Decimal.isDigit_of_mem_padded h)

theorem isNumeralChar_of_mem_magnitudeText {x : Binary64} {c : Char} (h : c ∈ x.magnitudeText) :
    IsNumeralChar c := by
  have hword {w : List Char} (hw : w.all Char.isAlphanum = true) (h : c ∈ w) : IsNumeralChar c :=
    .inl (List.all_eq_true.mp hw c h)
  unfold Binary64.magnitudeText at h
  split at h
  · exact hword (by decide) h
  split at h
  · exact hword (by decide) h
  split at h
  · exact isNumeralChar_of_mem_positional h
  · exact isNumeralChar_of_mem_positional h

theorem magnitudeText_ne_nil (x : Binary64) : x.magnitudeText ≠ [] := by
  unfold Binary64.magnitudeText
  split
  · decide
  split
  · decide
  split
  · simp [Decimal.positional]
  · simp [Decimal.positional]

theorem isAtom_magnitudeText (x : Binary64) : IsAtom x.magnitudeText :=
  isAtom_of_forall_isPlainChar (magnitudeText_ne_nil x) fun _ hc =>
    (isNumeralChar_of_mem_magnitudeText hc).isPlainChar

/-! ### Signs -/

theorem isPlainChar_minus : IsPlainChar '-' :=
  Variable.isPlainChar_of_continuesPlain (by decide)

theorem isAtom_minus : IsAtom ['-'] :=
  ⟨List.cons_ne_nil _ _, .char isPlainChar_minus .nil⟩

/-- The negation of a numeral may have any blanks around the sign. -/
theorem exists_laidOut_of_negated {numeral : String} (hnumeral : IsAtom numeral.toList) {text : List Char}
    (h : SameTokens (Constant.negated numeral).toList text) :
    ∃ body, text = parens body ∧ LaidOut [['-'], numeral.toList] body := by
  have htext : (Constant.negated numeral).toList = parens (['-'] ++ (' ' :: (numeral.toList ++ []))) := by
    simp [Constant.negated, parens]
  rw [htext] at h
  have hlaid : LaidOut [['-'], numeral.toList] (['-'] ++ (' ' :: (numeral.toList ++ []))) :=
    .atom isAtom_minus (.inl (by decide)) (.blank (by decide) (.atom hnumeral trivial .nil))
  refine h.laidOut hlaid ?_
  simp only [List.forall_mem_cons, List.not_mem_nil, false_implies, implies_true, and_true]
  exact ⟨isAtom_minus, hnumeral⟩

theorem joinMinus_of_isAtom {a : List Char} (ha : IsAtom a) : joinMinus a = .ok a := by
  rw [joinMinus, inside?_of_isAtom ha]

theorem joinMinus_of_laidOut {a body : List Char} (h : LaidOut [['-'], a] body) :
    joinMinus (parens body) = .ok ('-' :: a) := by
  rw [joinMinus, inside?_parens]
  simp only [splitForms_of_laidOut h]
  rfl

/-! ### Integers -/

/-- The digits of a number within the limit are read, and are no sign. -/
theorem readNatural_toDigits {limit n : Nat} (h : n ≤ limit) (beyond : Text.IntegerError) :
    Text.readNatural limit beyond (Nat.toDigits 10 n) = .ok n := by
  have hread : Text.readDigits limit beyond 0 (Nat.toDigits 10 n) = .ok n := Text.readDigits_toDigits n h
  generalize hdigits : Nat.toDigits 10 n = digits at hread
  cases digits with
  | nil => exact absurd hdigits Nat.toDigits_ne_nil
  | cons c cs => exact hread

theorem readInt64_toDigits {n : Nat} (h : n ≤ 2 ^ 63 - 1) :
    Text.readInt64 (Nat.toDigits 10 n) = .ok (Int64.ofInt n) := by
  have hread := readNatural_toDigits h .tooLarge
  have hdigits : ∀ c ∈ Nat.toDigits 10 n, c.isDigit = true := fun c hc => Decimal.isDigit_of_mem_toDigits hc
  unfold Text.readInt64
  split
  · rename_i hnil
    exact absurd hnil Nat.toDigits_ne_nil
  · rename_i hplus
    exact absurd (hdigits '+' (hplus ▸ List.mem_cons_self)) (by decide)
  · rename_i hminus
    exact absurd (hdigits '-' (hminus ▸ List.mem_cons_self)) (by decide)
  · rw [hread]
    rfl

theorem readInt64_minus_toDigits {n : Nat} (h : n ≤ 2 ^ 63) :
    Text.readInt64 ('-' :: Nat.toDigits 10 n) = .ok (Int64.ofInt (-n)) := by
  rw [Text.readInt64, readNatural_toDigits h]
  rfl

/-- The text of an integer is read back; the least one as well. -/
theorem readInt_of_sameTokens {value : Int64} {text : List Char}
    (h : SameTokens (Constant.intText value).toList text) : readInt text = .ok (.ok value) := by
  have hlow : -2 ^ 63 ≤ value.toInt := value.le_toInt
  have hhigh : value.toInt < 2 ^ 63 := value.toInt_lt
  unfold Constant.intText at h
  dsimp only at h
  split at h
  · rename_i hneg
    obtain ⟨body, rfl, hbody⟩ := exists_laidOut_of_negated (by simpa using isAtom_toDigits _) h
    rw [String.toList_ofList] at hbody
    have hvalue : -(value.toInt.natAbs : Int) = value.toInt := by omega
    rw [readInt, joinMinus_of_laidOut hbody]
    simp only [Except.map, readInt64_minus_toDigits (show value.toInt.natAbs ≤ 2 ^ 63 by omega), hvalue,
      Int64.ofInt_toInt]
  · rename_i hnonneg
    rw [String.toList_ofList] at h
    obtain rfl := h.eq_of_isAtom (isAtom_toDigits _)
    have hvalue : (value.toInt.natAbs : Int) = value.toInt := by omega
    rw [readInt, joinMinus_of_isAtom (isAtom_toDigits _)]
    simp only [Except.map, readInt64_toDigits (show value.toInt.natAbs ≤ 2 ^ 63 - 1 by omega), hvalue,
      Int64.ofInt_toInt]

/-! ### Reals -/

theorem readReal?_of_isAtom {a : List Char} (ha : IsAtom a) : readReal? a = Binary64.read? a := by
  rw [readReal?]
  split
  · rfl
  · rename_i hbody
    rw [inside?_of_isAtom ha] at hbody
    cases hbody

theorem readReal?_of_laidOut {a body : List Char} (h : LaidOut [['-'], a] body) :
    readReal? (parens body) = (readReal? a).map Binary64.neg := by
  have hparts := splitForms_of_laidOut h
  rw [readReal?]
  split
  · rename_i hbody
    rw [inside?_parens] at hbody
    cases hbody
  · rename_i hbody
    rw [inside?_parens] at hbody
    obtain rfl := Option.some.inj hbody
    split
    · rename_i hsplit
      rw [hparts] at hsplit
      simp only [Except.ok.injEq, List.cons.injEq, and_true] at hsplit
      obtain ⟨rfl, rfl⟩ := hsplit
      exact if_pos rfl
    · rename_i hsplit
      rw [hparts] at hsplit
      simp at hsplit
    · rename_i hother _
      exact absurd hparts (hother _ _)

/-- A numeral is read without a sign, and behind one. -/
theorem read?_magnitudeText {x : Binary64} (hx : x.isNaN = false) :
    Binary64.read? x.magnitudeText = some (.ofMagnitude false x.magnitude) ∧
      Binary64.read? ('-' :: x.magnitudeText) = some (.ofMagnitude true x.magnitude) := by
  have hread := Binary64.readMagnitude?_magnitudeText hx
  have hsign {s : Char} {cs : List Char} (h : x.magnitudeText = s :: cs) : IsNumeralChar s :=
    isNumeralChar_of_mem_magnitudeText (h ▸ List.mem_cons_self)
  constructor
  · unfold Binary64.read?
    split
    · rename_i hminus
      exact absurd (hsign hminus) (by decide)
    · rename_i hplus
      exact absurd (hsign hplus) (by decide)
    · rw [hread, Option.map_some]
  · rw [Binary64.read?, hread, Option.map_some]

/-- The text of a real that is no NaN is read back. -/
theorem readReal?_of_sameTokens {value : Binary64} (hvalue : value.isNaN = false) {text : List Char}
    (h : SameTokens (Constant.realText value).toList text) : readReal? text = some value := by
  obtain ⟨hunsigned, hminus⟩ := read?_magnitudeText hvalue
  have hatom := isAtom_magnitudeText value
  have hnegative : value.isNegative = true → .ofMagnitude true value.magnitude = value := fun hneg => by
    rw [← hneg, Binary64.ofMagnitude_magnitude]
  unfold Constant.realText at h
  dsimp only at h
  split at h
  · rename_i hbelow
    obtain ⟨body, rfl, hbody⟩ := exists_laidOut_of_negated (by simpa using hatom) h
    rw [String.toList_ofList] at hbody
    have hneg : value.isNegative = true := by
      simp only [Binary64.belowZero, Bool.and_eq_true] at hbelow
      exact hbelow.1.1
    have hvalue : (Binary64.ofMagnitude false value.magnitude).neg = value := by
      rw [Binary64.neg, Binary64.isNegative_ofMagnitude value.magnitude_lt,
        Binary64.magnitude_ofMagnitude value.magnitude_lt]
      exact hnegative hneg
    rw [readReal?_of_laidOut hbody, readReal?_of_isAtom hatom, hunsigned, Option.map_some, hvalue]
  split at h
  · rename_i _ hzero
    obtain ⟨hneg, -⟩ := Bool.and_eq_true_iff.mp hzero
    have htext : ("-" ++ String.ofList value.magnitudeText).toList = '-' :: value.magnitudeText := by simp
    have hsigned : IsAtom ('-' :: value.magnitudeText) :=
      ⟨List.cons_ne_nil _ _, .char isPlainChar_minus hatom.2⟩
    rw [htext] at h
    obtain rfl := h.eq_of_isAtom hsigned
    rw [readReal?_of_isAtom hsigned, hminus, hnegative hneg]
  · rename_i hbelow hzero
    have hneg : value.isNegative = false := by
      simp only [Binary64.belowZero, hvalue] at hbelow
      cases hsign : value.isNegative with
      | false => rfl
      | true => simp_all
    rw [String.toList_ofList] at h
    obtain rfl := h.eq_of_isAtom hatom
    rw [readReal?_of_isAtom hatom, hunsigned, ← hneg, Binary64.ofMagnitude_magnitude]

/-! ### Constants -/

/-- **The text of a constant is read back**, for a variable of its sort. -/
theorem readValue_of_sameTokens {v : Variable} {c : Constant} (hsort : c.sort? = some v.sort)
    (hc : ∀ x, c = .real x → x.isNaN = false) {text : List Char} (h : SameTokens c.text.toList text)
    (name : String) : readValue v name text = .ok c := by
  cases c with
  | bool b => cases hsort
  | int n =>
    rw [readValue, ← Option.some.inj hsort]
    simp only [readInt_of_sameTokens h]
  | real x =>
    rw [readValue, ← Option.some.inj hsort]
    simp only [readReal?_of_sameTokens (hc x rfl) h]

end SmtCount
