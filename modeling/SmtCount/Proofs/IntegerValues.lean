import Mathlib
import SmtCount.Proofs.Atoms
import SmtCount.Proofs.LastValues

/-!
# The value of an integer variable

An integer is written in decimal digits, perhaps behind a sign, or as a form of a minus sign and digits with any
blanks in it.  Such a text stands for one integer.  It is read as this integer if a word of 64 bits can hold it, and
refused if not; so is every other text, however close it comes.

The form is read by putting its sign in front of its digits, so that the least word can be read, whose absolute value
is no word.

## Main definitions

* `SignedNumeral a z` — the digits of the text, with its sign, stand for `z`.
* `IntegerForm value z` — the value is a signed numeral, or a negated one in parentheses.

## Main results

* `Text.readInt64_eq_ok_iff` — a word is read from its signed numerals.
* `IsForm.readInt_eq_ok_iff` — **an integer is read from its forms.**
* `Model.integers_are_exact` — **an integer variable is read exactly**, or its value is refused.
-/

namespace SmtCount

/-! ### Digits -/

namespace Text

theorem digitValue?_eq (c : Char) :
    digitValue? c = if c.isDigit = true then some (c.toNat - '0'.toNat) else none := by
  have hdigit : ('0' ≤ c ∧ c ≤ '9') ↔ c.isDigit = true := by
    rw [Char.isDigit, Bool.and_eq_true, decide_eq_true_eq, decide_eq_true_eq]
    rfl
  rw [digitValue?]
  simp only [hdigit]

/-- A number that is continued by digits does not get smaller. -/
theorem le_ofDigitChars (n : Nat) (cs : List Char) : n ≤ Nat.ofDigitChars 10 cs n := by
  induction cs generalizing n with
  | nil => exact le_rfl
  | cons c cs ih =>
    rw [Nat.ofDigitChars_cons]
    have hrest := ih (10 * n + (c.toNat - '0'.toNat))
    omega

/-- Digits are read as the number they stand for, if that is within the limit. -/
theorem readDigits_eq_ok_iff {limit n m : Nat} (beyond : IntegerError) (hn : n ≤ limit) {cs : List Char} :
    readDigits limit beyond n cs = .ok m ↔
      (∀ c ∈ cs, c.isDigit = true) ∧ Nat.ofDigitChars 10 cs n = m ∧ m ≤ limit := by
  induction cs generalizing n with
  | nil =>
    rw [readDigits, Except.ok.injEq, Nat.ofDigitChars_nil]
    constructor
    · rintro rfl
      exact ⟨fun c hc => absurd hc List.not_mem_nil, rfl, hn⟩
    · rintro ⟨-, rfl, -⟩
      rfl
  | cons c cs ih =>
    rw [readDigits, digitValue?_eq, Nat.ofDigitChars_cons, List.forall_mem_cons]
    by_cases hc : c.isDigit = true
    · rw [if_pos hc]
      dsimp only
      by_cases hle : 10 * n + (c.toNat - '0'.toNat) ≤ limit
      · rw [if_pos hle, ih hle]
        simp [hc]
      · -- the number is beyond the limit already, and only grows
        have hgrows := le_ofDigitChars (10 * n + (c.toNat - '0'.toNat)) cs
        rw [if_neg hle]
        constructor
        · intro h
          cases h
        · rintro ⟨-, rfl, hm⟩
          omega
    · rw [if_neg hc]
      simp [hc]

theorem readNatural_eq_ok_iff {limit m : Nat} (beyond : IntegerError) {cs : List Char} :
    readNatural limit beyond cs = .ok m ↔ IsNumeral cs ∧ Decimal.ofDigits cs = m ∧ m ≤ limit := by
  cases cs with
  | nil => simp [readNatural, IsNumeral]
  | cons c cs =>
    rw [readNatural, readDigits_eq_ok_iff beyond (Nat.zero_le limit), IsNumeral, Decimal.ofDigits]
    simp

end Text

/-! ### Signed numerals -/

/-- Is the text made of digits, perhaps behind a sign, that stand for the integer? -/
inductive SignedNumeral : List Char → Int → Prop
  | unsigned {ds : List Char} : IsNumeral ds → SignedNumeral ds (Decimal.ofDigits ds)
  | plus {ds : List Char} : IsNumeral ds → SignedNumeral ('+' :: ds) (Decimal.ofDigits ds)
  | minus {ds : List Char} : IsNumeral ds → SignedNumeral ('-' :: ds) (-(Decimal.ofDigits ds))

/-- A text that begins with something else than a digit is no numeral. -/
theorem not_isNumeral_cons {c : Char} (hc : c.isDigit = false) (cs : List Char) : ¬IsNumeral (c :: cs) := by
  intro h
  rw [h.2 c List.mem_cons_self] at hc
  cases hc

theorem signedNumeral_plus_iff {ds : List Char} {z : Int} :
    SignedNumeral ('+' :: ds) z ↔ IsNumeral ds ∧ (Decimal.ofDigits ds : Int) = z := by
  constructor
  · intro h
    cases h with
    | unsigned hds => exact absurd hds (not_isNumeral_cons (by decide) ds)
    | plus hds => exact ⟨hds, rfl⟩
  · rintro ⟨hds, rfl⟩
    exact .plus hds

theorem signedNumeral_minus_iff {ds : List Char} {z : Int} :
    SignedNumeral ('-' :: ds) z ↔ IsNumeral ds ∧ -(Decimal.ofDigits ds : Int) = z := by
  constructor
  · intro h
    cases h with
    | unsigned hds => exact absurd hds (not_isNumeral_cons (by decide) ds)
    | minus hds => exact ⟨hds, rfl⟩
  · rintro ⟨hds, rfl⟩
    exact .minus hds

/-- Without a sign in front a signed numeral is a numeral. -/
theorem signedNumeral_iff_of_no_sign {ds : List Char} (hplus : ds.head? ≠ some '+') (hminus : ds.head? ≠ some '-')
    {z : Int} : SignedNumeral ds z ↔ IsNumeral ds ∧ (Decimal.ofDigits ds : Int) = z := by
  constructor
  · intro h
    cases h with
    | unsigned hds => exact ⟨hds, rfl⟩
    | plus _ => exact absurd rfl hplus
    | minus _ => exact absurd rfl hminus
  · rintro ⟨hds, rfl⟩
    exact .unsigned hds

/-- **A signed numeral stands for one integer.** -/
theorem SignedNumeral.unique {a : List Char} {z z' : Int} (h : SignedNumeral a z) (h' : SignedNumeral a z') :
    z = z' := by
  cases h with
  | unsigned hds =>
    cases h' with
    | unsigned _ => rfl
    | plus _ => exact absurd hds (not_isNumeral_cons (by decide) _)
    | minus _ => exact absurd hds (not_isNumeral_cons (by decide) _)
  | plus _ => exact (signedNumeral_plus_iff.mp h').2
  | minus _ => exact (signedNumeral_minus_iff.mp h').2

/-- A signed numeral does not begin with a parenthesis. -/
theorem not_signedNumeral_parens (body : List Char) (z : Int) : ¬SignedNumeral (parens body) z := by
  intro h
  rw [signedNumeral_iff_of_no_sign (by simp [parens]) (by simp [parens])] at h
  exact not_isNumeral_cons (by decide) _ h.1

/-- A word is the integer it was made from, if the integer is one of 64 bits. -/
theorem ofInt_eq_iff {z : Int} (hlow : -2 ^ 63 ≤ z) (hhigh : z < 2 ^ 63) {n : Int64} :
    Int64.ofInt z = n ↔ z = n.toInt := by
  constructor
  · rintro rfl
    rw [Int64.toInt_ofInt_of_le hlow hhigh]
  · rintro rfl
    rw [Int64.ofInt_toInt]

namespace Text

/-- A numeral is read behind its sign if the limit admits the numbers that are words with this sign. -/
theorem map_readNatural_eq_ok_iff {limit : Nat} {signed : Int → Int}
    (hlimit : ∀ m : Nat, m ≤ limit ↔ -2 ^ 63 ≤ signed m ∧ signed m < 2 ^ 63) (beyond : IntegerError) {ds : List Char}
    {n : Int64} :
    (do let m ← readNatural limit beyond ds; pure (m : Int)).map (fun z => Int64.ofInt (signed z)) = .ok n ↔
      IsNumeral ds ∧ signed (Decimal.ofDigits ds) = n.toInt := by
  constructor
  · intro h
    cases hread : readNatural limit beyond ds with
    | error e =>
      rw [hread] at h
      cases h
    | ok m =>
      rw [hread] at h
      obtain ⟨hds, rfl, hle⟩ := (readNatural_eq_ok_iff beyond).mp hread
      obtain ⟨hlow, hhigh⟩ := (hlimit _).mp hle
      exact ⟨hds, (ofInt_eq_iff hlow hhigh).mp (Except.ok.inj h)⟩
  · rintro ⟨hds, hvalue⟩
    have hlow : -2 ^ 63 ≤ signed (Decimal.ofDigits ds) := hvalue ▸ n.le_toInt
    have hhigh : signed (Decimal.ofDigits ds) < 2 ^ 63 := hvalue ▸ n.toInt_lt
    rw [(readNatural_eq_ok_iff beyond).mpr ⟨hds, rfl, (hlimit _).mpr ⟨hlow, hhigh⟩⟩]
    exact congrArg Except.ok ((ofInt_eq_iff hlow hhigh).mpr hvalue)

/-- **A word is read from its signed numerals, and from nothing else.** -/
theorem readInt64_eq_ok_iff {cs : List Char} {n : Int64} : readInt64 cs = .ok n ↔ SignedNumeral cs n.toInt := by
  -- below zero there is one number more
  have hnonneg (m : Nat) : m ≤ 2 ^ 63 - 1 ↔ -2 ^ 63 ≤ (m : Int) ∧ (m : Int) < 2 ^ 63 := by omega
  have hneg (m : Nat) : m ≤ 2 ^ 63 ↔ -2 ^ 63 ≤ -(m : Int) ∧ -(m : Int) < 2 ^ 63 := by omega
  unfold readInt64
  split
  · rw [signedNumeral_iff_of_no_sign (by simp) (by simp)]
    simp [IsNumeral]
  · rw [map_readNatural_eq_ok_iff hnonneg, signedNumeral_plus_iff]
  · rw [map_readNatural_eq_ok_iff hneg, signedNumeral_minus_iff]
  · rename_i _ hplus hminus
    have hhead (s : Char) (h : ∀ ds, cs = s :: ds → False) : cs.head? ≠ some s := by
      intro hs
      obtain ⟨ds, rfl⟩ := List.head?_eq_some_iff.mp hs
      exact h ds rfl
    rw [map_readNatural_eq_ok_iff hnonneg, signedNumeral_iff_of_no_sign (hhead _ hplus) (hhead _ hminus)]

end Text

/-! ### Integer forms -/

/-- Does the value stand for the integer: as a signed numeral, or as a form of a minus sign and a numeral? -/
inductive IntegerForm : List Char → Int → Prop
  | numeral {a : List Char} {z : Int} : SignedNumeral a z → IntegerForm a z
  | negation {ds body : List Char} : IsNumeral ds → LaidOut [['-'], ds] body →
    IntegerForm (parens body) (-(Decimal.ofDigits ds))

/-- **A value stands for one integer.** -/
theorem IntegerForm.unique {value : List Char} {z z' : Int} (h : IntegerForm value z) (h' : IntegerForm value z') :
    z = z' := by
  cases h with
  | numeral hz =>
    cases h' with
    | numeral hz' => exact hz.unique hz'
    | negation _ _ => exact absurd hz (not_signedNumeral_parens _ _)
  | @negation ds body _ hbody =>
    generalize hvalue : parens body = value at h'
    cases h' with
    | numeral hz' => exact absurd (hvalue ▸ hz') (not_signedNumeral_parens _ _)
    | @negation ds' body' _ hbody' =>
      obtain rfl := parens_injective hvalue
      have hparts := hbody.unique hbody'
      simp only [List.cons.injEq, and_true, true_and] at hparts
      rw [hparts]

section Forms

variable {value : List Char} {n : Int64}

theorem integerForm_iff_of_isAtom (h : IsAtom value) {z : Int} : IntegerForm value z ↔ SignedNumeral value z := by
  constructor
  · intro hz
    cases hz with
    | numeral hz => exact hz
    | negation _ _ => exact absurd h (not_isAtom_parens _)
  · exact .numeral

theorem integerForm_parens_iff {body : List Char} {z : Int} : IntegerForm (parens body) z ↔
    ∃ ds, LaidOut [['-'], ds] body ∧ SignedNumeral ('-' :: ds) z := by
  constructor
  · intro hz
    generalize hvalue : parens body = value at hz
    cases hz with
    | numeral hz => exact absurd (hvalue ▸ hz) (not_signedNumeral_parens _ _)
    | negation hds hbody =>
      obtain rfl := parens_injective hvalue
      exact ⟨_, hbody, .minus hds⟩
  · rintro ⟨ds, hbody, hz⟩
    obtain ⟨hds, rfl⟩ := signedNumeral_minus_iff.mp hz
    exact .negation hds hbody

/-- The parts of a form are read as an integer if they are a minus sign and a numeral. -/
theorem integerOfParts_eq_ok_iff {parts : List (List Char)} :
    integerOfParts parts = .ok n ↔ ∃ ds, parts = [['-'], ds] ∧ SignedNumeral ('-' :: ds) n.toInt := by
  unfold integerOfParts
  split
  · rename_i op ds
    by_cases hop : op = ['-']
    · subst hop
      rw [if_pos rfl, Text.readInt64_eq_ok_iff]
      simp
    · rw [if_neg hop]
      simp [hop]
  · rename_i hother
    constructor
    · intro h
      cases h
    · rintro ⟨ds, rfl, -⟩
      exact absurd rfl (hother _ _)

/-- **An integer is read from its forms, and from nothing else.** -/
theorem IsForm.readInt_eq_ok_iff (h : IsForm value) : readInt value = .ok (.ok n) ↔ IntegerForm value n.toInt := by
  rcases h with hatom | ⟨body, hbody, rfl⟩
  · rw [integerForm_iff_of_isAtom hatom, readInt, joinMinus_of_isAtom hatom, ← Text.readInt64_eq_ok_iff]
    change Except.ok (Text.readInt64 value) = _ ↔ _
    rw [Except.ok.injEq]
  · obtain ⟨parts, hparts⟩ := hbody.exists_splitForms
    have hlaid : LaidOut parts body := splitForms_eq_ok_iff.mp hparts
    rw [integerForm_parens_iff, readInt_parens, hparts]
    change Except.ok (integerOfParts parts) = _ ↔ _
    rw [Except.ok.injEq, integerOfParts_eq_ok_iff]
    constructor
    · rintro ⟨ds, rfl, hz⟩
      exact ⟨ds, hlaid, hz⟩
    · rintro ⟨ds, hds, hz⟩
      exact ⟨ds, hlaid.unique hds, hz⟩

end Forms

/-! ### Integer variables -/

section Variables

variable {v : Variable} {value : List Char}

/-- What is read for an integer variable. -/
theorem readValue_eq_ok_iff_of_int (hsort : v.sort = .int) (hvalue : IsForm value) (name : String) {c : Constant} :
    readValue v name value = .ok c ↔ ∃ n : Int64, IntegerForm value n.toInt ∧ c = .int n := by
  obtain ⟨r, hr⟩ := hvalue.exists_readInt
  have hforms (n : Int64) : r = .ok n ↔ IntegerForm value n.toInt := by
    rw [← hvalue.readInt_eq_ok_iff, hr, Except.ok.injEq]
  rw [readValue, hsort]
  dsimp only
  rw [hr]
  cases r with
  | error cause =>
    constructor
    · intro h
      cases h
    · rintro ⟨n, hn, -⟩
      cases (hforms n).mpr hn
  | ok n =>
    dsimp only
    constructor
    · intro h
      exact ⟨n, (hforms n).mp rfl, (Except.ok.inj h).symm⟩
    · rintro ⟨n', hn', rfl⟩
      rw [Except.ok.inj ((hforms n').mpr hn')]

/-- A value that stands for no word is refused. -/
theorem exists_readValue_eq_integer (hsort : v.sort = .int) (hvalue : IsForm value) (name : String)
    (hnone : ∀ n : Int64, ¬IntegerForm value n.toInt) :
    ∃ cause, readValue v name value = .error (.integer name (String.ofList value) cause) := by
  cases hread : readValue v name value with
  | ok c =>
    obtain ⟨n, hn, -⟩ := (readValue_eq_ok_iff_of_int hsort hvalue name).mp hread
    exact absurd hn (hnone n)
  | error e =>
    cases hvalue.isValueError hread with
    | integer cause _ => exact ⟨cause, rfl⟩
    | real hreal =>
      rw [hsort] at hreal
      cases hreal

end Variables

/-- **An integer variable is read exactly.**

Let the last definition of its symbol give it a value, and let the other variables be such that they can be read.  Then
there is a model exactly if the value stands for an integer of 64 bits.  The variable has this integer in it, and the
others have what they have without it.  A value that stands for no integer, or for one out of range, is refused as it
was written. -/
theorem Model.integers_are_exact {output : String} {symbols : Table Variable String} {v : Variable} {name : String}
    (hsort : v.sort = .int) (hname : symbols.get? v = some name) {value : List Char}
    (hvalue : LastValue output.toList name.toList value) {others : Model}
    (hothers : Model.read output (symbols.erase v) = .ok others) :
    ((∃ m, Model.read output symbols = .ok m) ↔ ∃ z, IntegerForm value z ∧ -2 ^ 63 ≤ z ∧ z ≤ 2 ^ 63 - 1) ∧
    (∀ z, IntegerForm value z → -2 ^ 63 ≤ z → z ≤ 2 ^ 63 - 1 → ∃ m n, Model.read output symbols = .ok m ∧
      m.get? v = some (.int n) ∧ n.toInt = z ∧ ∀ w, w ≠ v → m.get? w = others.get? w) ∧
    (∀ z, IntegerForm value z → z < -2 ^ 63 ∨ 2 ^ 63 - 1 < z →
      ∃ cause, Model.read output symbols = .error (.integer name (String.ofList value) cause)) ∧
    ((∀ z, ¬IntegerForm value z) →
      ∃ cause, Model.read output symbols = .error (.integer name (String.ofList value) cause)) := by
  have hread (n : Int64) (hn : IntegerForm value n.toInt) :
      ∃ m, Model.read output symbols = .ok m ∧ m.get? v = some (.int n) :=
    (Model.exists_read_iff hname hvalue hothers).mpr
      ((readValue_eq_ok_iff_of_int hsort hvalue.isForm name).mpr ⟨n, hn, rfl⟩)
  have hrefuse (hnone : ∀ n : Int64, ¬IntegerForm value n.toInt) :
      ∃ cause, Model.read output symbols = .error (.integer name (String.ofList value) cause) := by
    obtain ⟨cause, hcause⟩ := exists_readValue_eq_integer hsort hvalue.isForm name hnone
    exact ⟨cause, (Model.read_eq_error_iff hname hvalue hothers).mpr hcause⟩
  -- an integer in range is the integer of a word
  have hword (z : Int) (hlow : -2 ^ 63 ≤ z) (hhigh : z ≤ 2 ^ 63 - 1) : (Int64.ofInt z).toInt = z :=
    Int64.toInt_ofInt_of_le hlow (by omega)
  refine ⟨⟨?_, ?_⟩, ?_, ?_, ?_⟩
  · rintro ⟨m, hm⟩
    obtain ⟨c, hc, -⟩ := Model.readValue_of_read hname hvalue hm
    obtain ⟨n, hn, -⟩ := (readValue_eq_ok_iff_of_int hsort hvalue.isForm name).mp hc
    have hhigh : n.toInt < 2 ^ 63 := n.toInt_lt
    exact ⟨n.toInt, hn, n.le_toInt, by omega⟩
  · rintro ⟨z, hz, hlow, hhigh⟩
    rw [← hword z hlow hhigh] at hz
    obtain ⟨m, hm, -⟩ := hread _ hz
    exact ⟨m, hm⟩
  · intro z hz hlow hhigh
    rw [← hword z hlow hhigh] at hz
    obtain ⟨m, hm, hget⟩ := hread _ hz
    exact ⟨m, _, hm, hget, hword z hlow hhigh, fun w hw => Model.get?_of_others hothers hm hw⟩
  · intro z hz hout
    refine hrefuse fun n hn => ?_
    have hlow : -2 ^ 63 ≤ n.toInt := n.le_toInt
    have hhigh : n.toInt < 2 ^ 63 := n.toInt_lt
    have hsame : z = n.toInt := hz.unique hn
    omega
  · intro hnone
    exact hrefuse fun n hn => hnone n.toInt hn

/-! ### An instance -/

/-- A variable whose value is the least integer. -/
def lowVariable : Variable := ⟨"low", .int, by decide⟩

/-- A variable whose value has a sign and a zero in front. -/
def paddedVariable : Variable := ⟨"padded", .int, by decide⟩

/-- The symbols of both. -/
def leastSymbols : Table Variable String :=
  ⟨[(lowVariable, "low"), (paddedVariable, "padded")]⟩

/-- A text that defines the first variable twice, and then the other one. -/
def leastModel : String :=
  "((define-fun low () Int zero) (define-fun low () Int (-\n 9223372036854775808)) (define-fun padded () Int +07))"

/-- The least integer is read, although its absolute value is no word. -/
theorem Model.integers_are_exact_least :
    LastValue leastModel.toList "low".toList (parens "-\n 9223372036854775808".toList) ∧
      Model.read leastModel (leastSymbols.erase lowVariable) = .ok ⟨[(paddedVariable, .int 7)]⟩ ∧
      ∃ m n, Model.read leastModel leastSymbols = .ok m ∧ m.get? lowVariable = some (.int n) ∧
        n.toInt = -9223372036854775808 := by
  have hforms : modelForms leastModel.toList = .ok ([parens "define-fun low () Int zero".toList] ++
      parens "define-fun low () Int (-\n 9223372036854775808)".toList ::
        [parens "define-fun padded () Int +07".toList]) := by decide +kernel
  have hlow : GivesValue "low".toList (parens "-\n 9223372036854775808".toList)
      (parens "define-fun low () Int (-\n 9223372036854775808)".toList) :=
    ⟨by decide +kernel, _, "define-fun".toList, "Int".toList, inside?_parens _, by decide +kernel⟩
  have hpadded (value : List Char) :
      ¬GivesValue "low".toList value (parens "define-fun padded () Int +07".toList) := by
    rintro ⟨-, body, word, sort, hinside, hsplit⟩
    obtain rfl := Option.some.inj ((inside?_parens _).symm.trans hinside)
    have hparts : splitForms "define-fun padded () Int +07".toList =
        .ok ["define-fun".toList, "padded".toList, ['(', ')'], "Int".toList, "+07".toList] := by decide +kernel
    rw [hparts] at hsplit
    simp at hsplit
  have hvalue : LastValue leastModel.toList "low".toList (parens "-\n 9223372036854775808".toList) :=
    ⟨_, _, _, hforms, hlow, by simpa using hpadded⟩
  have hothers : Model.read leastModel (leastSymbols.erase lowVariable) = .ok ⟨[(paddedVariable, .int 7)]⟩ := by
    decide +kernel
  have hdigits : "9223372036854775808".toList = Nat.toDigits 10 9223372036854775808 := by decide +kernel
  have hform : IntegerForm (parens "-\n 9223372036854775808".toList) (-9223372036854775808) := by
    have hbody : LaidOut [['-'], "9223372036854775808".toList] "-\n 9223372036854775808".toList := by decide +kernel
    have hnegated := IntegerForm.negation (hdigits ▸ isNumeral_toDigits _) hbody
    rwa [hdigits, Decimal.ofDigits, Nat.ofDigitChars_ten_toDigits] at hnegated
  obtain ⟨m, n, hm, hget, hn, -⟩ :=
    (Model.integers_are_exact rfl rfl hvalue hothers).2.1 _ hform (by decide) (by decide)
  exact ⟨hvalue, hothers, m, n, hm, hget, hn⟩

end SmtCount
