import Mathlib
import SmtCount.Proofs.Layout
import SmtCount.Proofs.Tables
import SmtCount.Query

/-!
# The symbols of a query

No two variables of a query have one symbol, and every symbol is an atom of the texts that are read,
whatever the names of the variables hold.

## Main definitions

* `Naming.Distinct n` — no two variables named by `n` share a symbol.

## Main results

* `isAtom_quoteName` — the symbol of a name is an atom.
* `exists_isLeast_freeSymbol` — **the first free symbol is found** among numbered ones.
* `Naming.distinct_ofVariables` — **different variables get different symbols**.
* `Naming.isSome_get?_ofVariables` — exactly the given variables get one.
-/

namespace SmtCount

/-! ### Names as symbols -/

namespace Variable

/-- What may stand in a symbol without bars are certain printable ASCII characters. -/
theorem bounds_of_continuesPlain {c : Char} (h : continuesPlain c = true) :
    33 ≤ c.toNat ∧ c.toNat ≤ 122 ∧ c ≠ '(' ∧ c ≠ ')' ∧ c ≠ '|' := by
  have hne (d : Char) (hd : continuesPlain d = false) : c ≠ d := by
    rintro rfl
    exact Bool.false_ne_true (hd.symm.trans h)
  have hbounds : 33 ≤ c.toNat ∧ c.toNat ≤ 122 := by
    simp only [continuesPlain, Char.isAlphanum, Char.isAlpha, Char.isUpper, Char.isLower, Char.isDigit,
      Bool.or_eq_true, Bool.and_eq_true, decide_eq_true_eq, beq_iff_eq, ge_iff_le, UInt32.le_iff_toNat_le] at h
    have hval : c.val.toNat = c.toNat := rfl
    rw [hval] at h
    rcases h with ((((((((h | h) | h) | h) | h) | h) | h) | h) | h)
    · exact ⟨Nat.le_trans (by decide) h.1, Nat.le_trans h.2 (by decide)⟩
    · exact ⟨Nat.le_trans (by decide) h.1, Nat.le_trans h.2 (by decide)⟩
    · exact ⟨Nat.le_trans (by decide) h.1, Nat.le_trans h.2 (by decide)⟩
    all_goals rw [h]; decide
  exact ⟨hbounds.1, hbounds.2, hne '(' (by decide), hne ')' (by decide), hne '|' (by decide)⟩

theorem continuesPlain_of_beginsPlain {c : Char} (h : beginsPlain c = true) : continuesPlain c = true := by
  simp only [beginsPlain, continuesPlain, Char.isAlphanum, Bool.or_eq_true] at h ⊢
  grind

theorem isPlainChar_of_continuesPlain {c : Char} (h : continuesPlain c = true) : IsPlainChar c := by
  obtain ⟨hlow, hhigh, hopen, hclose, hbar⟩ := bounds_of_continuesPlain h
  refine ⟨?_, hopen, hclose, hbar⟩
  simp [Text.isBlank, Text.blankRanges]
  omega

/-- A plain name is made of characters that may continue one. -/
theorem continuesPlain_of_isPlain {cs : List Char} (h : isPlain cs = true) :
    ∀ c ∈ cs, continuesPlain c = true := by
  cases cs with
  | nil => exact fun c hc => absurd hc List.not_mem_nil
  | cons c cs =>
    obtain ⟨hfirst, hrest⟩ := Bool.and_eq_true_iff.mp h
    rw [List.forall_mem_cons]
    exact ⟨continuesPlain_of_beginsPlain hfirst, List.all_eq_true.mp hrest⟩

theorem ne_nil_of_isPlain {cs : List Char} (h : isPlain cs = true) : cs ≠ [] := by
  rintro rfl
  cases h

end Variable

/-- Plain characters make an atom. -/
theorem isAtom_of_forall_isPlainChar {a : List Char} (hne : a ≠ []) (h : ∀ c ∈ a, IsPlainChar c) :
    IsAtom a := by
  refine ⟨hne, ?_⟩
  clear hne
  induction a with
  | nil => exact .nil
  | cons c a ih =>
    obtain ⟨hc, ha⟩ := List.forall_mem_cons.mp h
    exact .char hc (ih ha)

/-- Characters that may continue a plain name make an atom. -/
theorem isAtom_of_all_continuesPlain {a : List Char} (hne : a ≠ [])
    (h : a.all Variable.continuesPlain = true) : IsAtom a :=
  isAtom_of_forall_isPlainChar hne fun c hc =>
    Variable.isPlainChar_of_continuesPlain (List.all_eq_true.mp h c hc)

namespace Variable

/-- **The symbol of a name is an atom**, be it plain or between bars. -/
theorem isAtom_quoteName {name : String} (h : '|' ∉ name.toList) : IsAtom (quoteName name).toList := by
  unfold quoteName
  split
  · rename_i hplain
    refine isAtom_of_forall_isPlainChar (ne_nil_of_isPlain hplain) fun c hc => ?_
    exact isPlainChar_of_continuesPlain (continuesPlain_of_isPlain hplain c hc)
  · have htext : ("|" ++ name ++ "|").toList = '|' :: (name.toList ++ '|' :: []) := by simp
    rw [htext]
    exact ⟨List.cons_ne_nil _ _, .bars h .nil⟩

theorem bar_not_mem_of_isPlain {cs : List Char} (h : isPlain cs = true) : '|' ∉ cs :=
  fun hbar => (bounds_of_continuesPlain (continuesPlain_of_isPlain h _ hbar)).2.2.2.2 rfl

/-- Different names have different symbols. -/
theorem quoteName_inj {a b : String} (h : quoteName a = quoteName b) : a = b := by
  unfold quoteName at h
  split at h <;> split at h
  · exact h
  · rename_i ha _
    refine absurd ?_ (bar_not_mem_of_isPlain ha)
    simp [h]
  · rename_i hb
    refine absurd ?_ (bar_not_mem_of_isPlain hb)
    simp [← h]
  · have htext := congrArg String.toList h
    simpa [String.toList_inj] using htext

end Variable

/-! ### Free symbols -/

/-- What is found comes behind symbols that are taken, and is not taken itself unless it is the last one. -/
theorem firstFree_spec (taken : List String) (candidate : Nat → String) (tries k : Nat) :
    ∃ j ≤ tries, firstFree taken candidate tries k = candidate (k + j) ∧
      (∀ i < j, candidate (k + i) ∈ taken) ∧ (j < tries → candidate (k + j) ∉ taken) := by
  induction tries generalizing k with
  | zero => exact ⟨0, Nat.le_refl 0, rfl, fun i hi => (nomatch hi), fun h => (nomatch h)⟩
  | succ tries ih =>
    rw [firstFree]
    split
    · rename_i htaken
      obtain ⟨j, hj, heq, hbefore, hstop⟩ := ih (k + 1)
      have hnext (i : Nat) : k + 1 + i = k + (i + 1) := by omega
      simp only [hnext] at heq hbefore hstop
      refine ⟨j + 1, Nat.succ_le_succ hj, heq, ?_, fun h => hstop (Nat.lt_of_succ_lt_succ h)⟩
      intro i hi
      cases i with
      | zero => exact htaken
      | succ i => exact hbefore i (Nat.lt_of_succ_lt_succ hi)
    · rename_i hfree
      exact ⟨0, Nat.zero_le _, rfl, fun i hi => (nomatch hi), fun _ => hfree⟩

theorem exists_freeSymbol_eq (taken : List String) (candidate : Nat → String) (k : Nat) :
    ∃ j, freeSymbol taken candidate k = candidate j := by
  obtain ⟨j, -, heq, -⟩ := firstFree_spec taken candidate taken.length k
  exact ⟨k + j, heq⟩

/-- **The first free symbol is found.**  Among one more symbols than are taken not all can be taken. -/
theorem exists_isLeast_freeSymbol (taken : List String) {candidate : Nat → String}
    (hinj : Function.Injective candidate) (k : Nat) :
    ∃ j, freeSymbol taken candidate k = candidate j ∧ IsLeast {i | k ≤ i ∧ candidate i ∉ taken} j ∧
      j ≤ k + taken.length := by
  obtain ⟨j, hj, heq, hbefore, hstop⟩ := firstFree_spec taken candidate taken.length k
  have hfree : candidate (k + j) ∉ taken := by
    intro htaken
    have hlast : j = taken.length := Nat.le_antisymm hj (Nat.le_of_not_lt fun h => hstop h htaken)
    have hnodup : ((List.range (j + 1)).map fun i => candidate (k + i)).Nodup :=
      List.nodup_range.map fun i i' h => Nat.add_left_cancel (hinj h)
    have hsub : ((List.range (j + 1)).map fun i => candidate (k + i)) ⊆ taken := by
      intro s hs
      obtain ⟨i, hi, rfl⟩ := List.mem_map.mp hs
      rcases Nat.lt_succ_iff_lt_or_eq.mp (List.mem_range.mp hi) with hi | rfl
      · exact hbefore i hi
      · exact htaken
    have hle := (hnodup.subperm hsub).length_le
    rw [List.length_map, List.length_range] at hle
    omega
  refine ⟨k + j, heq, ⟨⟨Nat.le_add_right k j, hfree⟩, ?_⟩, Nat.add_le_add_left hj k⟩
  rintro i ⟨hki, hi⟩
  obtain ⟨d, rfl⟩ := Nat.exists_eq_add_of_le hki
  exact Nat.add_le_add_left (Nat.le_of_not_lt fun hd => hi (hbefore d hd)) k

theorem freeSymbol_not_mem (taken : List String) {candidate : Nat → String}
    (hinj : Function.Injective candidate) (k : Nat) : freeSymbol taken candidate k ∉ taken := by
  obtain ⟨j, heq, hleast, -⟩ := exists_isLeast_freeSymbol taken hinj k
  rw [heq]
  exact hleast.1.2

/-! ### Symbols of variables -/

namespace Naming

/-- Do different variables have different symbols, each of which is an atom? -/
structure Distinct (n : Naming) : Prop where
  injective : ∀ v w s, n.symbols.get? v = some s → n.symbols.get? w = some s → v = w
  isAtom : ∀ v s, n.symbols.get? v = some s → IsAtom s.toList

/-- A variable may get any atom that is not taken. -/
theorem Distinct.insert {n : Naming} (hn : n.Distinct) (v : Variable) {s : String} (hs : s ∉ n.taken)
    (hatom : IsAtom s.toList) (clashing : List Variable) :
    Distinct { symbols := n.symbols.insert v s, clashing } where
  injective u w t hu hw := by
    simp only [Table.get?_insert] at hu hw
    split at hu <;> split at hw
    · rename_i hvu hvw
      exact hvu.symm.trans hvw
    · obtain rfl := Option.some.inj hu
      exact absurd (Table.mem_values_of_get? hw) hs
    · obtain rfl := Option.some.inj hw
      exact absurd (Table.mem_values_of_get? hu) hs
    · exact hn.injective u w t hu hw
  isAtom u t hu := by
    simp only [Table.get?_insert] at hu
    split at hu
    · exact Option.some.inj hu ▸ hatom
    · exact hn.isAtom u t hu

theorem bar_not_mem_numbered (v : Variable) (k : Nat) : '|' ∉ (v.name ++ "!" ++ k.repr).toList := by
  have hdigits : '|' ∉ Nat.toDigits 10 k := fun h =>
    absurd (Nat.isDigit_of_mem_toDigits (by decide) (by decide) h) (by decide)
  simpa [Nat.toList_repr, hdigits] using v.isName.2.1

theorem numbered_injective (v : Variable) : Function.Injective (numbered v) := by
  intro j k h
  have htext := congrArg String.toList (Variable.quoteName_inj h)
  have hdigits : Nat.toDigits 10 j = Nat.toDigits 10 k := by
    simpa [Nat.toList_repr] using htext
  simpa using congrArg (Nat.ofDigitChars 10 · 0) hdigits

theorem Distinct.keep {n : Naming} (hn : n.Distinct) (v : Variable) : (n.keep v).Distinct := by
  unfold Naming.keep
  split
  · exact ⟨hn.injective, hn.isAtom⟩
  · rename_i hfree
    exact hn.insert v hfree (Variable.isAtom_quoteName v.isName.2.1) n.clashing

theorem Distinct.renumber {n : Naming} (hn : n.Distinct) (v : Variable) : (n.renumber v).Distinct := by
  have hfree := freeSymbol_not_mem n.taken (numbered_injective v) 1
  obtain ⟨j, hj⟩ := exists_freeSymbol_eq n.taken (numbered v) 1
  refine hn.insert v hfree ?_ n.clashing
  rw [hj]
  exact Variable.isAtom_quoteName (bar_not_mem_numbered v j)

/-- **Different variables get different symbols.** -/
theorem distinct_ofVariables (vs : List Variable) : (ofVariables vs).Distinct := by
  have hstart : Distinct ⟨.empty, []⟩ := ⟨fun _ _ _ h => (nomatch h), fun _ _ h => (nomatch h)⟩
  have hkept : (vs.foldl Naming.keep ⟨.empty, []⟩).Distinct :=
    List.foldlRecOn vs Naming.keep hstart fun _ hn v _ => hn.keep v
  exact List.foldlRecOn _ Naming.renumber hkept fun _ hn v _ => hn.renumber v

/-- Keeping its symbol or clashing, every variable is taken note of. -/
theorem known_foldl_keep (vs : List Variable) (n : Naming) (w : Variable) :
    ((vs.foldl keep n).symbols.get? w).isSome ∨ w ∈ (vs.foldl keep n).clashing ↔
      ((n.symbols.get? w).isSome ∨ w ∈ n.clashing) ∨ w ∈ vs := by
  induction vs generalizing n with
  | nil => simp
  | cons v vs ih =>
    have hstep : ((n.keep v).symbols.get? w).isSome ∨ w ∈ (n.keep v).clashing ↔
        ((n.symbols.get? w).isSome ∨ w ∈ n.clashing) ∨ w = v := by
      unfold keep
      split
      · simp [or_assoc]
      · rw [Table.get?_insert]
        grind
    rw [List.foldl_cons, ih, hstep, List.mem_cons, or_assoc]

theorem known_foldl_renumber (vs : List Variable) (n : Naming) (w : Variable) :
    ((vs.foldl renumber n).symbols.get? w).isSome ↔ (n.symbols.get? w).isSome ∨ w ∈ vs := by
  induction vs generalizing n with
  | nil => simp
  | cons v vs ih =>
    have hstep : ((n.renumber v).symbols.get? w).isSome ↔ (n.symbols.get? w).isSome ∨ w = v := by
      unfold renumber
      rw [Table.get?_insert]
      grind
    rw [List.foldl_cons, ih, hstep, List.mem_cons, or_assoc]

/-- Exactly the given variables get a symbol. -/
theorem isSome_get?_ofVariables (vs : List Variable) (w : Variable) :
    ((ofVariables vs).symbols.get? w).isSome ↔ w ∈ vs := by
  rw [ofVariables, known_foldl_renumber, known_foldl_keep]
  simp

end Naming

end SmtCount
