import Mathlib
import SmtCount.Proofs.QueryText

/-!
# Which symbols a query has

No symbol of a query means two things, and each is the simplest that is free: a variable has its own symbol
unless an integer variable of the same name has it, then the one with the least free number; a label is as
short as the symbols of the variables let it be.

Both searches for a free symbol try one symbol after the other.  They end because the symbols that are tried
are all different: among one more than are taken, one is free.

## Main definitions

* `unquoted symbol` — the text that a symbol stands for.
* `Naming.Clashes vs v` — an integer variable among `vs` has the name of the real variable `v`.
* `Naming.avoided vs v` — the symbols that a clashing variable must not get.

## Main results

* `Naming.foldl_keep` — who keeps the own symbol, and who clashes.
* `Naming.symbol_of_clashes` — **a clashing variable gets the first free number**.
* `Query.label_eq_longLabel` — **a label is no longer than it has to be**.
* `Query.symbols_are_distinct` — the symbols of a query.
-/

namespace SmtCount

/-! ### Symbols without their bars -/

/-- The text that a symbol stands for: what is between its bars, if it has any. -/
def unquoted (symbol : String) : String :=
  match symbol.toList with
  | '|' :: cs => if cs.getLast? = some '|' then String.ofList cs.dropLast else symbol
  | _ => symbol

/-- The symbol of a name stands for the name. -/
theorem unquoted_quoteName {name : String} (h : '|' ∉ name.toList) :
    unquoted (Variable.quoteName name) = name := by
  unfold Variable.quoteName
  split
  · unfold unquoted
    split
    · rename_i cs hcs
      exact absurd (hcs ▸ List.mem_cons_self) h
    · rfl
  · have htext : ("|" ++ name ++ "|").toList = '|' :: (name.toList ++ ['|']) := by simp
    simp [unquoted, htext]

/-! ### Symbols that are kept -/

namespace Variable

theorem lt_irrefl (v : Variable) : v.lt v = false := by
  simp only [lt, Bool.or_eq_false_iff, decide_eq_false_iff_not, Bool.and_eq_false_iff]
  refine ⟨String.lt_irrefl v.name, ?_⟩
  cases v.sort <;> simp

/-- Of two variables with one name the integer one comes first. -/
theorem sorts_of_lt {v w : Variable} (h : v.lt w = true) (hname : v.name = w.name) :
    v.sort = .int ∧ w.sort = .real := by
  simp only [lt, Bool.or_eq_true, decide_eq_true_eq, Bool.and_eq_true, beq_iff_eq] at h
  rcases h with h | h
  · exact absurd (hname ▸ h) (String.lt_irrefl _)
  · exact ⟨h.1.2, h.2⟩

end Variable

namespace Naming

/-- Is this a real variable whose name an integer variable has as well? -/
def Clashes (vs : List Variable) (v : Variable) : Prop :=
  v.sort = .real ∧ ∃ w ∈ vs, w.name = v.name ∧ w.sort = .int

instance (vs : List Variable) : DecidablePred (Clashes vs) :=
  fun v => inferInstanceAs (Decidable (v.sort = .real ∧ ∃ w ∈ vs, w.name = v.name ∧ w.sort = .int))

/-- Are the variables listed in order? -/
def Sorted (vs : List Variable) : Prop :=
  vs.Pairwise fun v w => v.lt w = true

variable {vs : List Variable} {v : Variable}

theorem Sorted.nodup (h : Sorted vs) : vs.Nodup := by
  refine h.imp ?_
  rintro v _ hlt rfl
  rw [Variable.lt_irrefl] at hlt
  exact Bool.false_ne_true hlt

theorem Sorted.lt_last {u : Variable} (h : Sorted (vs ++ [v])) (hu : u ∈ vs) : u.lt v = true :=
  (List.pairwise_append.mp h).2.2 u hu v (List.mem_singleton_self v)

/-- A variable makes none of those before it clash, nor itself. -/
theorem clashes_concat (h : Sorted (vs ++ [v])) {u : Variable}
    (hu : u ∈ vs ++ [v]) : Clashes (vs ++ [v]) u ↔ Clashes vs u := by
  refine and_congr_right fun hreal => ?_
  simp only [List.mem_append, List.mem_singleton, or_and_right, exists_or, exists_eq_left, or_iff_left_iff_imp]
  rintro ⟨hname, hint⟩
  rcases List.mem_append.mp hu with hu | hu
  · have hsorts := Variable.sorts_of_lt (h.lt_last hu) hname.symm
    rw [hreal] at hsorts
    cases hsorts.1
  · rw [List.mem_singleton.mp hu, hint] at hreal
    cases hreal

theorem filter_clashes_concat (h : Sorted (vs ++ [v])) (p : Bool → Bool) :
    ((vs ++ [v]).filter fun u => p (Clashes (vs ++ [v]) u)) =
      (vs.filter fun u => p (Clashes vs u)) ++ if p (Clashes vs v) then [v] else [] := by
  have hcongr : ∀ u ∈ vs ++ [v], p (Clashes (vs ++ [v]) u) = p (Clashes vs u) := by
    intro u hu
    simp only [clashes_concat h hu]
  rw [List.filter_congr hcongr, List.filter_append, List.filter_singleton, Bool.cond_eq_ite]

/-- The variables that keep their own symbols. -/
def keepers (vs : List Variable) : List Variable :=
  vs.filter fun v => !decide (Clashes vs v)

/-- The variables that get numbered symbols. -/
def renamed (vs : List Variable) : List Variable :=
  vs.filter fun v => Clashes vs v

theorem mem_keepers : v ∈ keepers vs ↔ v ∈ vs ∧ ¬ Clashes vs v := by
  simp [keepers]

theorem mem_renamed : v ∈ renamed vs ↔ v ∈ vs ∧ Clashes vs v := by
  simp [renamed]

/-- The symbol of a variable is kept by one before it exactly if the variable clashes. -/
theorem symbol_mem_iff (h : Sorted (vs ++ [v])) :
    v.symbol ∈ (keepers vs).map Variable.symbol ↔ Clashes vs v := by
  rw [List.mem_map]
  constructor
  · rintro ⟨w, hw, hsymbol⟩
    have hmem : w ∈ vs := (mem_keepers.mp hw).1
    have hname : w.name = v.name := Variable.quoteName_inj hsymbol
    obtain ⟨hint, hreal⟩ := Variable.sorts_of_lt (h.lt_last hmem) hname
    exact ⟨hreal, w, hmem, hname, hint⟩
  · rintro ⟨-, w, hw, hname, hint⟩
    have hkeeps : ¬ Clashes vs w := by
      intro hclashes
      rw [hclashes.1] at hint
      cases hint
    exact ⟨w, mem_keepers.mpr ⟨hw, hkeeps⟩, congrArg Variable.quoteName hname⟩

/-- The symbols after the first walk over the variables. -/
def kept (vs : List Variable) : Naming :=
  ⟨⟨(keepers vs).map fun v => (v, v.symbol)⟩, renamed vs⟩

theorem keys_kept (vs : List Variable) : (kept vs).symbols.keys = keepers vs := by
  rw [kept, Table.keys, List.map_map]
  exact List.map_id (keepers vs)

theorem taken_kept (vs : List Variable) : (kept vs).taken = (keepers vs).map Variable.symbol := by
  rw [kept, taken, Table.values, List.map_map]
  rfl

/-- **Who keeps the own symbol.**  The first walk over the variables names those that do not clash, and
collects the others. -/
theorem foldl_keep (h : Sorted vs) : vs.foldl keep ⟨.empty, []⟩ = kept vs := by
  induction vs using List.reverseRecOn with
  | nil => rfl
  | append_singleton vs v ih =>
    have htaken : v.symbol ∈ (kept vs).taken ↔ Clashes vs v := by
      rw [taken_kept, symbol_mem_iff h]
    have hkeepers : keepers (vs ++ [v]) = keepers vs ++ if !decide (Clashes vs v) then [v] else [] :=
      filter_clashes_concat h not
    have hrenamed : renamed (vs ++ [v]) = renamed vs ++ if decide (Clashes vs v) then [v] else [] :=
      filter_clashes_concat h id
    rw [List.foldl_append, ih (List.pairwise_append.mp h).1, List.foldl_cons, List.foldl_nil, keep]
    by_cases hv : Clashes vs v
    · rw [if_pos (htaken.mpr hv)]
      simp [kept, hkeepers, hrenamed, hv]
    · have hnew : v ∉ (kept vs).symbols.keys := by
        rw [keys_kept, mem_keepers]
        exact fun hmem => (List.nodup_append.mp h.nodup).2.2 v hmem.1 v (List.mem_singleton_self v) rfl
      rw [if_neg (mt htaken.mp hv), Table.insert_eq (Table.get?_eq_none hnew)]
      simp [kept, hkeepers, hrenamed, hv]

theorem ofVariables_eq (h : Sorted vs) : ofVariables vs = (renamed vs).foldl renumber (kept vs) := by
  rw [ofVariables, foldl_keep h]
  rfl

theorem not_mem_renamed (h : v ∈ keepers vs) : v ∉ renamed vs := by
  intro hrenamed
  exact (mem_keepers.mp h).2 (mem_renamed.mp hrenamed).2

/-- The symbols that are given away are those of the variables with a symbol. -/
theorem taken_eq_map_symbol {n : Naming} (hkeys : n.symbols.keys.Nodup) :
    n.taken = n.symbols.keys.map n.symbol := by
  rw [taken, Table.values, Table.keys, List.map_map]
  refine List.map_congr_left fun r hr => ?_
  rw [Function.comp_apply, symbol, Table.get?_of_mem_rows hkeys hr, Option.getD_some]

/-! ### Symbols that are numbered -/

/-- A variable keeps its symbol while others get theirs. -/
theorem get?_foldl_renumber {cs : List Variable} {w : Variable} (hw : w ∉ cs) (n : Naming) :
    (cs.foldl renumber n).symbols.get? w = n.symbols.get? w := by
  induction cs generalizing n with
  | nil => rfl
  | cons v cs ih =>
    obtain ⟨hne, hrest⟩ := List.ne_and_not_mem_of_not_mem_cons hw
    rw [List.foldl_cons, ih hrest, renumber, Table.get?_insert, if_neg (Ne.symm hne)]

/-- The second walk gives symbols to variables that have none, one after the other. -/
theorem keys_foldl_renumber {cs : List Variable} (hcs : cs.Nodup) {n : Naming}
    (hnew : ∀ v ∈ cs, v ∉ n.symbols.keys) :
    (cs.foldl renumber n).symbols.keys = n.symbols.keys ++ cs := by
  induction cs generalizing n with
  | nil => simp
  | cons v cs ih =>
    obtain ⟨hv, hrest⟩ := List.nodup_cons.mp hcs
    have hstep : (n.renumber v).symbols.keys = n.symbols.keys ++ [v] := by
      rw [renumber, Table.keys, Table.insert_eq (Table.get?_eq_none (hnew v List.mem_cons_self)), List.map_append]
      rfl
    have hlater : ∀ w ∈ cs, w ∉ (n.renumber v).symbols.keys := by
      intro w hw hmem
      rw [hstep] at hmem
      rcases List.mem_append.mp hmem with hmem | hmem
      · exact hnew w (List.mem_cons_of_mem v hw) hmem
      · exact hv (List.mem_singleton.mp hmem ▸ hw)
    rw [List.foldl_cons, ih hrest hlater, hstep, List.append_assoc, List.singleton_append]

/-- The variables before one are those that come before it in the order. -/
theorem mem_before_iff {before behind : List Variable} (h : Sorted (before ++ v :: behind)) {w : Variable} :
    w ∈ before ↔ w ∈ before ++ v :: behind ∧ w.lt v = true := by
  obtain ⟨-, hlater, hbefore⟩ := List.pairwise_append.mp h
  refine ⟨fun hw => ⟨List.mem_append_left _ hw, hbefore w hw v List.mem_cons_self⟩, ?_⟩
  rintro ⟨hw, hlt⟩
  refine (List.mem_append.mp hw).resolve_right fun hw => ?_
  have hirrefl : v.lt v = true := by
    rcases List.mem_cons.mp hw with rfl | hw
    · exact hlt
    · exact Variable.lt_trans ((List.pairwise_cons.mp hlater).1 w hw) hlt
  rw [Variable.lt_irrefl] at hirrefl
  exact Bool.false_ne_true hirrefl

/-- The symbols that a clashing variable must not get: those of the variables that keep their own, and of
those before it. -/
def avoided (vs : List Variable) (v : Variable) : List String :=
  (vs.filter fun w => ¬ Clashes vs w ∨ w.lt v = true).map (ofVariables vs).symbol

/-- A variable that does not clash has its own symbol. -/
theorem symbol_of_not_clashes (h : Sorted vs) (hv : v ∈ vs) (hkeeps : ¬ Clashes vs v) :
    (ofVariables vs).symbols.get? v = some v.symbol := by
  have hkeeper : v ∈ keepers vs := mem_keepers.mpr ⟨hv, hkeeps⟩
  have hkeys : (kept vs).symbols.keys.Nodup := by
    rw [keys_kept]
    exact h.nodup.filter _
  rw [ofVariables_eq h, get?_foldl_renumber (not_mem_renamed hkeeper)]
  exact Table.get?_of_mem_rows hkeys (List.mem_map_of_mem hkeeper)

section Turn

/-! What is known when the turn of a variable comes that gets a number. -/

variable {before behind : List Variable} (h : Sorted vs) (hrenamed : renamed vs = before ++ v :: behind)

include h hrenamed

theorem sorted_renamed : Sorted (before ++ v :: behind) :=
  hrenamed ▸ List.Pairwise.filter _ h

theorem nodup_keepers_append : (keepers vs ++ before).Nodup := by
  have hnodup := (sorted_renamed h hrenamed).nodup
  refine List.nodup_append.mpr ⟨h.nodup.filter _, (List.nodup_append.mp hnodup).1, ?_⟩
  rintro u hkeeper _ hu rfl
  exact not_mem_renamed hkeeper (hrenamed ▸ List.mem_append_left _ hu)

/-- The variables that have a symbol by then are those that keep theirs and those before the variable. -/
theorem keepers_append_perm :
    (keepers vs ++ before).Perm (vs.filter fun w => ¬ Clashes vs w ∨ w.lt v = true) := by
  refine (List.perm_ext_iff_of_nodup (nodup_keepers_append h hrenamed) (h.nodup.filter _)).mpr fun w => ?_
  have hlt : w ∈ before ↔ w ∈ renamed vs ∧ w.lt v = true := by
    rw [hrenamed, mem_before_iff (sorted_renamed h hrenamed)]
  rw [List.mem_append, hlt, mem_keepers, mem_renamed, List.mem_filter, decide_eq_true_eq]
  tauto

theorem keys_foldl_before : (before.foldl renumber (kept vs)).symbols.keys = keepers vs ++ before := by
  obtain ⟨-, hbefore, hdisjoint⟩ := List.nodup_append.mp (nodup_keepers_append h hrenamed)
  rw [keys_foldl_renumber hbefore, keys_kept]
  intro w hw hkeeper
  exact hdisjoint w (keys_kept vs ▸ hkeeper) w hw rfl

/-- A symbol that is given away stays with its variable. -/
theorem symbol_foldl_before {w : Variable} (hw : w ∈ keepers vs ++ before) :
    (before.foldl renumber (kept vs)).symbol w = (ofVariables vs).symbol w := by
  have hlater : w ∉ v :: behind := by
    intro hmem
    rcases List.mem_append.mp hw with hkeeper | hw
    · exact not_mem_renamed hkeeper (hrenamed ▸ List.mem_append_right before hmem)
    · exact (List.nodup_append.mp (sorted_renamed h hrenamed).nodup).2.2 w hw w hmem rfl
  rw [symbol, symbol, ofVariables_eq h, hrenamed, List.foldl_append, get?_foldl_renumber hlater]

/-- The symbols that are given away by then are those that the variable must not get. -/
theorem taken_perm_avoided : (before.foldl renumber (kept vs)).taken.Perm (avoided vs v) := by
  have hkeys := keys_foldl_before h hrenamed
  have hnodup := nodup_keepers_append h hrenamed
  rw [taken_eq_map_symbol (hkeys ▸ hnodup), hkeys,
    List.map_congr_left fun w hw => symbol_foldl_before h hrenamed hw]
  exact (keepers_append_perm h hrenamed).map _

end Turn

/-- **A clashing variable gets the first free number**, which is at most one more than the symbols it must not
get. -/
theorem symbol_of_clashes (h : Sorted vs) (hv : v ∈ vs) (hclashes : Clashes vs v) :
    ∃ k, (ofVariables vs).symbols.get? v = some (numbered v k) ∧
      IsLeast {k | 1 ≤ k ∧ numbered v k ∉ avoided vs v} k ∧ k ≤ (avoided vs v).length + 1 := by
  have hmem : v ∈ renamed vs := mem_renamed.mpr ⟨hv, hclashes⟩
  obtain ⟨before, behind, hrenamed⟩ := List.append_of_mem hmem
  have hnodup := (sorted_renamed h hrenamed).nodup
  have hlater : v ∉ behind := (List.nodup_cons.mp (List.nodup_append.mp hnodup).2.1).1
  have hperm := taken_perm_avoided h hrenamed
  obtain ⟨k, hk, hleast, hle⟩ := exists_isLeast_freeSymbol (before.foldl renumber (kept vs)).taken
    (numbered_injective v) 1
  refine ⟨k, ?_, ?_, ?_⟩
  · rw [ofVariables_eq h, hrenamed, List.foldl_append, List.foldl_cons, get?_foldl_renumber hlater, renumber,
      Table.get?_insert, if_pos rfl, hk]
  · simpa only [hperm.mem_iff] using hleast
  · rw [← hperm.length_eq]
    omega

/-- Where a variable has the first numbered name already, the second one is taken. -/
example : (ofVariables [⟨"x", .int, by decide⟩, ⟨"x", .real, by decide⟩, ⟨"x!1", .int, by decide⟩]).symbols.values =
    ["x", "x!1", "x!2"] := by
  decide +kernel

/-- There are fewer symbols to avoid than variables: a variable is not in its own way. -/
theorem length_avoided_lt (hv : v ∈ vs) (hclashes : Clashes vs v) :
    (avoided vs v).length < vs.length := by
  rw [avoided, List.length_map]
  refine List.length_filter_lt_length_iff_exists.mpr ⟨v, hv, ?_⟩
  simp [hclashes, Variable.lt_irrefl]

/-- Every symbol is that of a name. -/
theorem exists_quoteName_eq (h : Sorted vs) {symbol : String}
    (hsymbol : (ofVariables vs).symbols.get? v = some symbol) :
    ∃ name, '|' ∉ name.toList ∧ symbol = Variable.quoteName name := by
  have hv : v ∈ vs := (isSome_get?_ofVariables vs v).mp (by rw [hsymbol]; rfl)
  by_cases hclashes : Clashes vs v
  · obtain ⟨k, hk, -⟩ := symbol_of_clashes h hv hclashes
    rw [hsymbol] at hk
    exact ⟨v.name ++ "!" ++ k.repr, bar_not_mem_numbered v k, Option.some.inj hk⟩
  · rw [symbol_of_not_clashes h hv hclashes] at hsymbol
    exact ⟨v.name, v.isName.2.1, (Option.some.inj hsymbol).symm⟩

end Naming

/-! ### Labels -/

namespace Query

theorem longLabel_injective (i : Nat) : Function.Injective (longLabel i) := by
  intro k l h
  have hlength := congrArg (fun s : String => s.toList.length) h
  simpa [longLabel] using hlength

/-- **A label is no longer than it has to be.** -/
theorem label_eq_longLabel (n : Naming) (i : Nat) :
    ∃ k, label n i = longLabel i k ∧ IsLeast {k | longLabel i k ∉ n.taken} k ∧
      k ≤ n.taken.toFinset.sup String.length := by
  obtain ⟨k, hk, hleast, -⟩ := exists_isLeast_freeSymbol n.taken (longLabel_injective i) 0
  simp only [Nat.zero_le, true_and] at hleast
  refine ⟨k, hk, hleast, ?_⟩
  cases k with
  | zero => exact Nat.zero_le _
  | succ k =>
    -- the label with one character less is a symbol, and longer than what was put in front of it
    have htaken : longLabel i k ∈ n.taken := by
      by_contra hfree
      exact absurd (hleast.2 hfree) (Nat.not_succ_le_self k)
    have hlength : k + 1 ≤ (longLabel i k).length := by
      rw [longLabel, String.length_ofList, List.length_append, List.length_replicate, List.length_cons]
      omega
    exact hlength.trans (Finset.le_sup (List.mem_toFinset.mpr htaken))

/-- A label needs no bars. -/
theorem isPlain_longLabel (i k : Nat) : Variable.isPlain (longLabel i k).toList = true := by
  have hdigits : (Nat.toDigits 10 i).all Variable.continuesPlain = true := by
    refine List.all_eq_true.mpr fun c hc => ?_
    simp [Variable.continuesPlain, Char.isAlphanum, Decimal.isDigit_of_mem_toDigits hc]
  have hc : Variable.beginsPlain 'c' = true := by decide
  have hunderscore : Variable.beginsPlain '_' = true := by decide
  rw [longLabel, String.toList_ofList]
  cases k with
  | zero => exact Bool.and_eq_true_iff.mpr ⟨hc, hdigits⟩
  | succ k =>
    rw [List.replicate_succ, List.cons_append, Variable.isPlain, hunderscore, Bool.true_and, List.all_append,
      List.all_cons, hdigits, Variable.continuesPlain_of_beginsPlain hc, List.all_replicate,
      Variable.continuesPlain_of_beginsPlain hunderscore]
    simp

/-- No label is the symbol of a variable, nor the text that the symbol stands for. -/
theorem label_ne_symbol {f : Expr} (i : Nat) {v : Variable} {symbol : String}
    (hsymbol : (naming f).symbols.get? v = some symbol) :
    label (naming f) i ≠ symbol ∧ label (naming f) i ≠ unquoted symbol := by
  have hmem : symbol ∈ (naming f).taken := Table.mem_values_of_get? hsymbol
  obtain ⟨k, hk, hleast, -⟩ := label_eq_longLabel (naming f) i
  have hfree : longLabel i k ∉ (naming f).taken := hleast.1
  obtain ⟨name, hbar, rfl⟩ := Naming.exists_quoteName_eq f.pairwise_freeVariables hsymbol
  rw [hk, unquoted_quoteName hbar]
  refine ⟨fun heq => hfree (heq ▸ hmem), ?_⟩
  -- a name that is a label is its own symbol
  rintro rfl
  rw [Variable.quoteName, if_pos (isPlain_longLabel i k)] at hmem
  exact hfree hmem

/-- **No symbol of a query means two things, and each is the first that is free.**  Different variables have
different symbols, with their bars and without; different conjuncts have different labels, and no label is a
symbol of a variable.  A real variable whose name an integer one has, too, gets the least number with which
its name is free, which is at most that of the variables; every other one has its own symbol.  In front of
a label are as few underscores as can be, and no more than the longest symbol has characters. -/
theorem symbols_are_distinct (f : Expr) :
    let q := ofFormula f
    let vs := f.freeVariables
    (∀ v w s t, v ≠ w → q.symbols.get? v = some s → q.symbols.get? w = some t →
      s ≠ t ∧ unquoted s ≠ unquoted t) ∧
    (∀ l c, q.labels.get? l = some c ↔ ∃ i, f.properConjuncts[i]? = some c ∧ label (naming f) i = l) ∧
    (∀ i j, i ≠ j → label (naming f) i ≠ label (naming f) j) ∧
    (∀ l v s, (q.labels.get? l).isSome → q.symbols.get? v = some s → l ≠ s ∧ l ≠ unquoted s) ∧
    (∀ v ∈ vs, ¬ Naming.Clashes vs v → q.symbols.get? v = some v.symbol) ∧
    (∀ v ∈ vs, Naming.Clashes vs v → ∃ k, q.symbols.get? v = some (Naming.numbered v k) ∧
      IsLeast {k | 1 ≤ k ∧ Naming.numbered v k ∉ Naming.avoided vs v} k ∧
      k ≤ (Naming.avoided vs v).length + 1 ∧ k ≤ vs.length) ∧
    ∀ i, ∃ k, label (naming f) i = longLabel i k ∧ IsLeast {k | longLabel i k ∉ q.symbols.values} k ∧
      k ≤ q.symbols.values.toFinset.sup String.length := by
  intro q vs
  have hsorted : Naming.Sorted vs := f.pairwise_freeVariables
  refine ⟨?_, fun l c => get?_labels_eq_some_iff, fun i j => (label_injective (naming f)).ne, ?_,
    fun v => Naming.symbol_of_not_clashes hsorted, ?_, label_eq_longLabel (naming f)⟩
  · intro v w s t hne hs ht
    have hdiffer : s ≠ t := fun h =>
      hne ((Naming.distinct_ofVariables vs).injective v w t (h ▸ hs) ht)
    obtain ⟨name, hbar, rfl⟩ := Naming.exists_quoteName_eq hsorted hs
    obtain ⟨name', hbar', rfl⟩ := Naming.exists_quoteName_eq hsorted ht
    rw [unquoted_quoteName hbar, unquoted_quoteName hbar']
    exact ⟨hdiffer, fun h => hdiffer (congrArg Variable.quoteName h)⟩
  · intro l v s hl hs
    obtain ⟨c, hc⟩ := Option.isSome_iff_exists.mp hl
    obtain ⟨i, -, rfl⟩ := get?_labels_eq_some_iff.mp hc
    exact label_ne_symbol i hs
  · intro v hv hclashes
    obtain ⟨k, hsymbol, hleast, hle⟩ := Naming.symbol_of_clashes hsorted hv hclashes
    exact ⟨k, hsymbol, hleast, hle, hle.trans (Naming.length_avoided_lt hv hclashes)⟩

end Query

end SmtCount
