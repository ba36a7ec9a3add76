import Mathlib
import SmtCount.Proofs.Factors

/-!
# Factors that stay

A factor may be kept with what is known of it, and met again when another formula is factored.  So factors are
stable: a factor is its own only factor, the conjunction of the factors of a formula has these factors again, and
one more conjunct takes the factors that it has a variable in common with and leaves the others as they are.

Behind all three is that conjuncts have only one list of components, so that it is enough to see of some groups
that they are components: linked inside, and closed under sharing a variable.

## Main definitions

* `Expr.Shares a b` — the expressions have a free variable in common.
* `joinedGroup conjuncts groups c` — the conjuncts that `c` is grouped with, and `c`.
* `Expr.joinedConjuncts f c` — the same, with the factors of `f` in place of the groups.

## Main results

* `IsComponents.unique` — **conjuncts have only one list of components.**
* `IsComponents.of_closed` — groups that are linked inside and closed are the components.
* `IsComponents.insert` — the components with one more conjunct.
* `factoring_again` — **the factors are factored into themselves**, one by one and together.
* `factors_with_conjunct` — **one more conjunct takes the factors it touches**, and the others stay.
-/

namespace SmtCount

/-! ### Links -/

/-- Have the expressions a free variable in common? -/
def Expr.Shares (a b : Expr) : Prop :=
  ∃ v ∈ a.freeVariables, v ∈ b.freeVariables

instance : DecidableRel Expr.Shares :=
  fun a b => inferInstanceAs (Decidable (∃ v ∈ a.freeVariables, v ∈ b.freeVariables))

theorem Expr.shares_conjunction {c : Expr} {g : List Expr} :
    c.Shares (conjunction g) ↔ ∃ a ∈ g, c.Shares a := by
  simp only [Shares, mem_freeVariables_conjunction]
  constructor
  · rintro ⟨v, hc, a, ha, hv⟩
    exact ⟨a, ha, v, hc, hv⟩
  · rintro ⟨a, ha, v, hc, hv⟩
    exact ⟨v, hc, a, ha, hv⟩

section Links

variable {conjuncts conjuncts' : List Expr} {a b : Expr}

theorem Neighbours.symm (h : Neighbours conjuncts a b) : Neighbours conjuncts b a :=
  ⟨h.2.1, h.1, h.2.2.imp fun _ => And.symm⟩

theorem Linked.symm (h : Linked conjuncts a b) : Linked conjuncts b a := by
  induction h with
  | refl => exact .refl
  | tail _ hstep ih => exact .head hstep.symm ih

/-- Conjuncts that are linked stay linked among more conjuncts. -/
theorem Linked.mono (hsubset : conjuncts ⊆ conjuncts') (h : Linked conjuncts a b) : Linked conjuncts' a b :=
  Relation.ReflTransGen.mono (fun _ _ ⟨ha, hb, hv⟩ => ⟨hsubset ha, hsubset hb, hv⟩) _ _ h

/-- What is closed under sharing a variable holds all that is linked. -/
theorem Linked.mem_of_closed {g : List Expr} (h : Linked conjuncts a b)
    (hclosed : ∀ c ∈ g, ∀ d, Neighbours conjuncts c d → d ∈ g) (ha : a ∈ g) : b ∈ g := by
  induction h with
  | refl => exact ha
  | tail _ hcd ih => exact hclosed _ ih _ hcd

end Links

/-! ### Only one list of components -/

namespace IsComponents

variable {conjuncts : List Expr} {groups groups' : List (List Expr)}

/-- **Groups that are linked inside and closed are the components**, if they hold all conjuncts in order. -/
theorem of_closed (hnodup : conjuncts.Nodup) (hne : ∀ g ∈ groups, g ≠ [])
    (hsublist : ∀ g ∈ groups, g.Sublist conjuncts) (hperm : groups.flatten.Perm conjuncts)
    (hlinked : ∀ g ∈ groups, ∀ a ∈ g, ∀ b ∈ g, Linked conjuncts a b)
    (hclosed : ∀ g ∈ groups, ∀ a ∈ g, ∀ b, Neighbours conjuncts a b → b ∈ g)
    (hordered : groups.Pairwise fun g h => ∀ a ∈ g.head?, ∀ b ∈ h.head?, conjuncts.idxOf a < conjuncts.idxOf b) :
    IsComponents conjuncts groups where
  nodup := hnodup
  ne_nil := hne
  sublist := hsublist
  perm := hperm
  together_iff a ha b _ := by
    constructor
    · rintro ⟨g, hg, hag, hbg⟩
      exact hlinked g hg a hag b hbg
    · intro hab
      obtain ⟨g, hg, hag⟩ := List.mem_flatten.mp (hperm.mem_iff.mpr ha)
      exact ⟨g, hg, hag, hab.mem_of_closed (hclosed g hg) hag⟩
  ordered := hordered

/-- The first conjunct of a part stands before the others. -/
theorem idxOf_head_le {g : List Expr} (hnodup : conjuncts.Nodup) (hg : g.Sublist conjuncts) {a b : Expr}
    (ha : a ∈ g.head?) (hb : b ∈ g) : conjuncts.idxOf a ≤ conjuncts.idxOf b := by
  obtain ⟨rest, rfl⟩ := List.head?_eq_some_iff.mp ha
  rcases List.mem_cons.mp hb with rfl | hb
  · exact le_rfl
  · exact (List.rel_of_pairwise_cons ((pairwise_idxOf_lt hnodup).sublist hg) hb).le

/-- Two parts with the same members are equal. -/
theorem eq_of_mem_iff {g k : List Expr} (hnodup : conjuncts.Nodup) (hg : g.Sublist conjuncts)
    (hk : k.Sublist conjuncts) (hmem : ∀ a, a ∈ g ↔ a ∈ k) : g = k := by
  have hperm : g.Perm k := (List.perm_ext_iff_of_nodup (hg.nodup hnodup) (hk.nodup hnodup)).mpr hmem
  have hpairwise := pairwise_idxOf_lt hnodup
  exact List.Perm.eq_of_pairwise (fun a b _ _ hab hba => absurd hba hab.not_gt) (hpairwise.sublist hg)
    (hpairwise.sublist hk) hperm

theorem mem_iff_linked (h : IsComponents conjuncts groups) {g : List Expr} (hg : g ∈ groups) {a b : Expr}
    (ha : a ∈ g) : b ∈ g ↔ b ∈ conjuncts ∧ Linked conjuncts a b :=
  ⟨fun hb => ⟨h.mem_of_mem hg hb, h.linked hg ha hb⟩, fun ⟨hb, hab⟩ => h.mem_of_linked hg ha hb hab⟩

theorem subset_of_components (h : IsComponents conjuncts groups) (h' : IsComponents conjuncts groups') :
    groups ⊆ groups' := by
  intro g hg
  obtain ⟨a, ha⟩ := List.exists_mem_of_ne_nil g (h.ne_nil g hg)
  obtain ⟨k, hk, hak⟩ := h'.exists_group (h.mem_of_mem hg ha)
  have heq : g = k := eq_of_mem_iff h.nodup (h.sublist g hg) (h'.sublist k hk) fun b =>
    (h.mem_iff_linked hg ha).trans (h'.mem_iff_linked hk hak).symm
  exact heq ▸ hk

/-- The first conjuncts of two components tell which of them comes first. -/
theorem not_before_each_other (h : IsComponents conjuncts groups) {g k : List Expr} (hg : g ∈ groups)
    (hk : k ∈ groups) (hgk : ∀ a ∈ g.head?, ∀ b ∈ k.head?, conjuncts.idxOf a < conjuncts.idxOf b)
    (hkg : ∀ a ∈ k.head?, ∀ b ∈ g.head?, conjuncts.idxOf a < conjuncts.idxOf b) : False := by
  have hghead := List.head_mem_head? (h.ne_nil g hg)
  have hkhead := List.head_mem_head? (h.ne_nil k hk)
  exact (hgk _ hghead _ hkhead).asymm (hkg _ hkhead _ hghead)

theorem nodup_groups (h : IsComponents conjuncts groups) : groups.Nodup := by
  refine h.ordered.imp_of_mem fun {g k} hg hk hgk heq => ?_
  subst heq
  exact h.not_before_each_other hg hg hgk hgk

/-- **Conjuncts have only one list of components.** -/
theorem unique (h : IsComponents conjuncts groups) (h' : IsComponents conjuncts groups') : groups = groups' := by
  have hperm : groups.Perm groups' := (List.perm_ext_iff_of_nodup h.nodup_groups h'.nodup_groups).mpr fun g =>
    ⟨fun hg => h.subset_of_components h' hg, fun hg => h'.subset_of_components h hg⟩
  refine List.Perm.eq_of_pairwise (fun g k hg hk hgk hkg => ?_) h.ordered h'.ordered hperm
  exact (h.not_before_each_other hg (h'.subset_of_components h hk) hgk hkg).elim

/-- **The factors of a formula are known** once the components of its conjuncts are, with a context or
without. -/
theorem factors_eq {f : Expr} (h : IsComponents f.distinctConjuncts groups) {context : Option FactorContext}
    (hsound : ∀ c ∈ context, c.Sound) : (factorize f context).factors = groups.map Expr.conjunction := by
  obtain ⟨groups', hfactors, h'⟩ := factors_eq_map_conjunction f hsound
  rw [hfactors, h'.unique h]

end IsComponents

/-! ### Conjuncts of factors -/

theorem eraseDups_eq_self {l : List Expr} (h : l.Nodup) : l.eraseDups = l := by
  induction l with
  | nil => rfl
  | cons a l ih =>
    obtain ⟨ha, hl⟩ := List.nodup_cons.mp h
    have hkept : l.filter (fun b => !b == a) = l := by
      refine List.filter_eq_self.mpr fun b hb => ?_
      have hne : b ≠ a := fun h => ha (h ▸ hb)
      simpa using hne
    rw [List.eraseDups_cons, hkept, ih hl]

theorem flatMap_conjuncts_eq_self {parts : List Expr} (h : ∀ a ∈ parts, a.conjuncts = [a]) :
    parts.flatMap Expr.conjuncts = parts := by
  induction parts with
  | nil => rfl
  | cons a parts ih =>
    obtain ⟨ha, hparts⟩ := List.forall_mem_cons.mp h
    rw [List.flatMap_cons, ha, ih hparts, List.singleton_append]

/-- What says something is kept, each once. -/
theorem distinctConjuncts_of_conjuncts {e : Expr} {parts : List Expr} (h : e.conjuncts = parts)
    (htrue : ∀ a ∈ parts, a.isTrue = false) (hnodup : parts.Nodup) : e.distinctConjuncts = parts := by
  have hkept : parts.filter (fun a => !a.isTrue) = parts :=
    List.filter_eq_self.mpr fun a ha => by rw [htrue a ha]; rfl
  rw [Expr.distinctConjuncts, Expr.properConjuncts, h, hkept, eraseDups_eq_self hnodup]

/-- The literal `true` says nothing. -/
theorem distinctConjuncts_tt : Expr.tt.distinctConjuncts = [] := by
  have hconjuncts : Expr.tt.conjuncts = [.tt] := Expr.conjuncts_of_ne_and fun _ h => by cases h
  rw [Expr.distinctConjuncts, Expr.properConjuncts, hconjuncts]
  rfl

section Groups

variable {f : Expr} {groups : List (List Expr)} (h : IsComponents f.distinctConjuncts groups)
include h

/-- The members of a group are conjuncts of the formula that say something. -/
theorem IsComponents.conjuncts_eq {g : List Expr} (hg : g ∈ groups) {a : Expr} (ha : a ∈ g) :
    a.conjuncts = [a] ∧ a.isTrue = false := by
  have hproper := Expr.mem_distinctConjuncts.mp (h.mem_of_mem hg ha)
  obtain ⟨hmem, htrue⟩ := Expr.mem_properConjuncts.mp hproper
  exact ⟨Expr.conjuncts_of_mem_conjuncts hmem, htrue⟩

/-- The conjuncts of a factor are its group. -/
theorem IsComponents.conjuncts_conjunction {g : List Expr} (hg : g ∈ groups) :
    (Expr.conjunction g).conjuncts = g := by
  rw [Expr.conjuncts_conjunction (h.ne_nil g hg), flatMap_conjuncts_eq_self fun a ha => (h.conjuncts_eq hg ha).1]

theorem IsComponents.distinctConjuncts_conjunction {g : List Expr} (hg : g ∈ groups) :
    (Expr.conjunction g).distinctConjuncts = g :=
  distinctConjuncts_of_conjuncts (h.conjuncts_conjunction hg) (fun _ ha => (h.conjuncts_eq hg ha).2)
    ((h.sublist g hg).nodup h.nodup)

/-- The conjuncts of all factors together are the groups, one behind the other. -/
theorem IsComponents.distinctConjuncts_factors :
    (Expr.conjunction (groups.map Expr.conjunction)).distinctConjuncts = groups.flatten := by
  cases hgroups : groups with
  | nil => exact distinctConjuncts_tt
  | cons g rest =>
    rw [← hgroups]
    have hne : groups.map Expr.conjunction ≠ [] := by rw [hgroups]; exact List.cons_ne_nil _ _
    have hconjuncts : (Expr.conjunction (groups.map Expr.conjunction)).conjuncts = groups.flatten := by
      rw [Expr.conjuncts_conjunction hne, List.flatMap_map, ← List.flatMap_id]
      exact List.flatMap_congr fun g hg => h.conjuncts_conjunction hg
    refine distinctConjuncts_of_conjuncts hconjuncts (fun a ha => ?_) (h.perm.nodup_iff.mpr h.nodup)
    obtain ⟨g, hg, hag⟩ := List.mem_flatten.mp ha
    exact (h.conjuncts_eq hg hag).2

end Groups

/-! ### Factoring again -/

section Again

variable {conjuncts : List Expr} {groups : List (List Expr)} (h : IsComponents conjuncts groups)
include h

/-- A chain from a conjunct of a group stays in the group. -/
theorem IsComponents.linked_inside {g : List Expr} (hg : g ∈ groups) {a b : Expr} (ha : a ∈ g)
    (hab : Linked conjuncts a b) : Linked g a b := by
  induction hab with
  | refl => exact .refl
  | @tail c d hac hcd ih =>
    have hc : c ∈ g := h.mem_of_linked hg ha hcd.1 hac
    have hd : d ∈ g := h.mem_of_linked hg ha hcd.2.1 (hac.tail hcd)
    exact ih.tail ⟨hc, hd, hcd.2.2⟩

/-- **A component by itself has one component.** -/
theorem IsComponents.singleton {g : List Expr} (hg : g ∈ groups) : IsComponents g [g] := by
  refine .of_closed ((h.sublist g hg).nodup h.nodup) ?_ ?_ (by simp) ?_ ?_ (List.pairwise_singleton _ _)
  · exact List.forall_mem_singleton.mpr (h.ne_nil g hg)
  · exact List.forall_mem_singleton.mpr (List.Sublist.refl g)
  · exact List.forall_mem_singleton.mpr fun a ha b hb => h.linked_inside hg ha (h.linked hg ha hb)
  · exact List.forall_mem_singleton.mpr fun a _ b hab => hab.2.1

/-- **The components in a row have the same components.** -/
theorem IsComponents.flatten : IsComponents groups.flatten groups := by
  have hnodup : groups.flatten.Nodup := h.perm.nodup_iff.mpr h.nodup
  have hneighbours {a b : Expr} (hab : Neighbours groups.flatten a b) : Neighbours conjuncts a b :=
    ⟨h.perm.mem_iff.mp hab.1, h.perm.mem_iff.mp hab.2.1, hab.2.2⟩
  refine .of_closed hnodup h.ne_nil (fun g hg => List.sublist_flatten_of_mem hg) (.refl _) ?_ ?_ ?_
  · intro g hg a ha b hb
    exact (h.linked hg ha hb).mono h.perm.symm.subset
  · intro g hg a ha b hab
    exact h.mem_of_linked hg ha (hneighbours hab).2.1 (.single (hneighbours hab))
  · refine (List.pairwise_flatten.mp (pairwise_idxOf_lt hnodup)).2.imp fun {g k} hgk a ha b hb => ?_
    exact hgk a (List.mem_of_mem_head? ha) b (List.mem_of_mem_head? hb)

end Again

/-- **The factors are factored into themselves**: each of them is its own only factor, whatever formula a context
was made for, and their conjunction has the same factors in the same order. -/
theorem factoring_again (f : Expr) :
    (∀ g ∈ (factorize f none).factors, ∀ other : Option Expr,
      (factorize g (other.map FactorContext.ofFormula)).factors = [g]) ∧
    (factorize (Expr.conjunction (factorize f none).factors) none).factors = (factorize f none).factors := by
  obtain ⟨groups, hfactors, h⟩ := factors_eq_map_conjunction f fun c (hc : c ∈ none) => nomatch hc
  rw [hfactors]
  constructor
  · intro e he other
    obtain ⟨g, hg, rfl⟩ := List.mem_map.mp he
    have hsound : ∀ c ∈ other.map FactorContext.ofFormula, c.Sound := by
      intro c hc
      obtain ⟨e, -, rfl⟩ := Option.map_eq_some_iff.mp hc
      exact FactorContext.sound_ofFormula e
    have hself := h.singleton hg
    rw [← h.distinctConjuncts_conjunction hg] at hself
    rw [hself.factors_eq hsound, h.distinctConjuncts_conjunction hg]
    rfl
  · have hagain := h.flatten
    rw [← h.distinctConjuncts_factors] at hagain
    exact hagain.factors_eq fun c hc => nomatch hc

/-! ### One more conjunct -/

/-- The conjuncts of the groups that have a variable in common with `c`, and `c` behind them. -/
def joinedGroup (conjuncts : List Expr) (groups : List (List Expr)) (c : Expr) : List Expr :=
  conjuncts.filter (fun a => ∃ g ∈ groups, c.Shares (.conjunction g) ∧ a ∈ g) ++ [c]

/-- Has the conjunction of the group no variable in common with `c`? -/
def isApart (c : Expr) (g : List Expr) : Bool :=
  decide (¬c.Shares (.conjunction g))

theorem isApart_eq_true_iff {c : Expr} {g : List Expr} : isApart c g = true ↔ ∀ a ∈ g, ¬c.Shares a := by
  rw [isApart, decide_eq_true_eq, Expr.shares_conjunction]
  simp

theorem isApart_eq_false_iff {c : Expr} {g : List Expr} : isApart c g = false ↔ ∃ a ∈ g, c.Shares a := by
  rw [isApart, decide_eq_false_iff_not, not_not, Expr.shares_conjunction]

/-- The groups with one more conjunct: the first group that it touches makes way for all of them. -/
def insertGroup (conjuncts : List Expr) (groups : List (List Expr)) (c : Expr) : List (List Expr) :=
  groups.takeWhile (isApart c) ++ joinedGroup conjuncts groups c :: (groups.dropWhile (isApart c)).filter (isApart c)

section Insert

variable {conjuncts : List Expr} {groups : List (List Expr)} {c : Expr}

theorem mem_joinedGroup {a : Expr} : a ∈ joinedGroup conjuncts groups c ↔
    (a ∈ conjuncts ∧ ∃ g ∈ groups, isApart c g = false ∧ a ∈ g) ∨ a = c := by
  simp [joinedGroup, isApart]

/-- The groups are those that stay, and the new one. -/
theorem insertGroup_perm : (insertGroup conjuncts groups c).Perm
    (joinedGroup conjuncts groups c :: groups.filter (isApart c)) := by
  have hfilter : groups.filter (isApart c) =
      groups.takeWhile (isApart c) ++ (groups.dropWhile (isApart c)).filter (isApart c) := by
    conv_lhs => rw [← List.takeWhile_append_dropWhile (p := isApart c) (l := groups), List.filter_append]
    rw [List.filter_eq_self.mpr fun g hg => List.mem_takeWhile_imp hg]
  rw [insertGroup, hfilter]
  exact List.perm_middle

theorem forall_mem_insertGroup {P : List Expr → Prop} : (∀ g ∈ insertGroup conjuncts groups c, P g) ↔
    P (joinedGroup conjuncts groups c) ∧ ∀ g ∈ groups, isApart c g = true → P g := by
  simp only [insertGroup_perm.mem_iff, List.forall_mem_cons, List.mem_filter, and_imp]

variable (h : IsComponents conjuncts groups)
include h

/-- The new group is the conjuncts of the groups that make way, and the new conjunct. -/
theorem IsComponents.joinedGroup_perm :
    (joinedGroup conjuncts groups c).Perm ((groups.filter fun g => !isApart c g).flatten ++ [c]) := by
  refine List.Perm.append_right [c] ?_
  have hnodup : (groups.filter fun g => !isApart c g).flatten.Nodup :=
    (List.Sublist.flatten List.filter_sublist).nodup (h.perm.nodup_iff.mpr h.nodup)
  refine (List.perm_ext_iff_of_nodup (h.nodup.filter _) hnodup).mpr fun a => ?_
  simp only [List.mem_filter, decide_eq_true_eq, List.mem_flatten, isApart, decide_not, Bool.not_not, and_assoc]
  constructor
  · rintro ⟨-, hg⟩
    exact hg
  · rintro ⟨g, hg, hshares, ha⟩
    exact ⟨h.mem_of_mem hg ha, g, hg, hshares, ha⟩

theorem IsComponents.flatten_insertGroup_perm :
    (insertGroup conjuncts groups c).flatten.Perm (conjuncts ++ [c]) := by
  have hparts : ((groups.filter (isApart c)).flatten ++ (groups.filter fun g => !isApart c g).flatten).Perm
      conjuncts := by
    rw [← List.flatten_append]
    exact (List.filter_append_perm (isApart c) groups).flatten.trans h.perm
  calc (insertGroup conjuncts groups c).flatten
    _ |>.Perm (joinedGroup conjuncts groups c ++ (groups.filter (isApart c)).flatten) :=
      insertGroup_perm.flatten
    _ |>.Perm ((groups.filter (isApart c)).flatten ++ joinedGroup conjuncts groups c) := List.perm_append_comm
    _ |>.Perm ((groups.filter (isApart c)).flatten ++ ((groups.filter fun g => !isApart c g).flatten ++ [c])) :=
      h.joinedGroup_perm.append_left _
    _ |>.Perm (conjuncts ++ [c]) := by
      rw [← List.append_assoc]
      exact hparts.append_right [c]

/-- Groups before the first that makes way stand before all that make way. -/
theorem IsComponents.takeWhile_before {g k : List Expr} (hg : g ∈ groups.takeWhile (isApart c)) (hk : k ∈ groups)
    (hapart : isApart c k = false) :
    ∀ a ∈ g.head?, ∀ b ∈ k.head?, conjuncts.idxOf a < conjuncts.idxOf b := by
  have hsplit := List.takeWhile_append_dropWhile (p := isApart c) (l := groups)
  have hordered := h.ordered
  rw [← hsplit] at hordered hk
  refine (List.pairwise_append.mp hordered).2.2 g hg k ((List.mem_append.mp hk).resolve_left fun hk => ?_)
  rw [List.mem_takeWhile_imp hk] at hapart
  cases hapart

/-- Groups that stay behind the first that makes way stand behind that one. -/
theorem IsComponents.exists_before_dropWhile {g : List Expr}
    (hg : g ∈ (groups.dropWhile (isApart c)).filter (isApart c)) : ∃ k ∈ groups, isApart c k = false ∧
      ∀ a ∈ k.head?, ∀ b ∈ g.head?, conjuncts.idxOf a < conjuncts.idxOf b := by
  obtain ⟨hg, hapart⟩ := List.mem_filter.mp hg
  have hhead := List.head?_dropWhile_not (isApart c) groups
  cases hdrop : groups.dropWhile (isApart c) with
  | nil =>
    rw [hdrop] at hg
    cases hg
  | cons k rest =>
    rw [hdrop] at hg hhead
    have hk : isApart c k = false := hhead
    have hsuffix : (k :: rest).Sublist groups := hdrop ▸ List.dropWhile_sublist _
    refine ⟨k, hsuffix.subset List.mem_cons_self, hk, ?_⟩
    rcases List.mem_cons.mp hg with rfl | hg
    · rw [hapart] at hk
      cases hk
    · exact List.rel_of_pairwise_cons (h.ordered.sublist hsuffix) hg

/-- The first conjunct of the new group is that of the first group that makes way, or the new conjunct. -/
theorem IsComponents.head_joinedGroup {a : Expr} (ha : a ∈ (joinedGroup conjuncts groups c).head?) :
    (a = c ∧ ∀ g ∈ groups, isApart c g = true) ∨
      (a ∈ conjuncts ∧ (∃ g ∈ groups, isApart c g = false ∧ a ∈ g) ∧
        ∀ g ∈ groups, isApart c g = false → ∀ b ∈ g, conjuncts.idxOf a ≤ conjuncts.idxOf b) := by
  have hmem {b : Expr} {g : List Expr} (hg : g ∈ groups) (hapart : isApart c g = false) (hb : b ∈ g) :
      b ∈ conjuncts.filter fun a => ∃ g ∈ groups, c.Shares (.conjunction g) ∧ a ∈ g := by
    refine List.mem_filter.mpr ⟨h.mem_of_mem hg hb, decide_eq_true ⟨g, hg, ?_, hb⟩⟩
    exact Expr.shares_conjunction.mpr (isApart_eq_false_iff.mp hapart)
  rw [joinedGroup] at ha
  cases htouched : conjuncts.filter fun a => ∃ g ∈ groups, c.Shares (.conjunction g) ∧ a ∈ g with
  | nil =>
    rw [htouched] at ha hmem
    refine .inl ⟨(Option.some.inj ha).symm, fun g hg => ?_⟩
    obtain ⟨b, hb⟩ := List.exists_mem_of_ne_nil g (h.ne_nil g hg)
    by_contra hapart
    exact absurd (hmem hg (Bool.eq_false_of_not_eq_true hapart) hb) List.not_mem_nil
  | cons b rest =>
    rw [htouched] at ha
    obtain rfl : b = a := Option.some.inj ha
    have hb : b ∈ joinedGroup conjuncts groups c := by
      rw [joinedGroup, htouched]
      exact List.mem_cons_self
    have hsublist : (b :: rest).Sublist conjuncts := htouched ▸ List.filter_sublist
    have hbefore : b ∈ (conjuncts.filter fun a => ∃ g ∈ groups, c.Shares (.conjunction g) ∧ a ∈ g) :=
      htouched ▸ List.mem_cons_self
    obtain ⟨hbmem, g, hg, hshares, hbg⟩ := by simpa using hbefore
    refine .inr ⟨hbmem, ⟨g, hg, isApart_eq_false_iff.mpr (Expr.shares_conjunction.mp hshares), hbg⟩, ?_⟩
    intro k hk hapart d hd
    exact idxOf_head_le h.nodup hsublist rfl (htouched ▸ hmem hk hapart hd)

/-- The first conjuncts of the old groups stand as they stood. -/
theorem IsComponents.idxOf_head {g : List Expr} (hg : g ∈ groups) {a : Expr} (ha : a ∈ g.head?) :
    a ∈ conjuncts ∧ (conjuncts ++ [c]).idxOf a = conjuncts.idxOf a := by
  have hmem : a ∈ conjuncts := h.mem_of_mem hg (List.mem_of_mem_head? ha)
  exact ⟨hmem, List.idxOf_append_of_mem hmem⟩

/-- Groups before the first that makes way stand before the new group. -/
theorem IsComponents.takeWhile_before_joinedGroup (hc : c ∉ conjuncts) {g : List Expr}
    (hg : g ∈ groups.takeWhile (isApart c)) : ∀ a ∈ g.head?, ∀ b ∈ (joinedGroup conjuncts groups c).head?,
      (conjuncts ++ [c]).idxOf a < (conjuncts ++ [c]).idxOf b := by
  intro a ha b hb
  obtain ⟨hmem, hold⟩ := h.idxOf_head (c := c) ((List.takeWhile_subset _) hg) ha
  rcases h.head_joinedGroup hb with ⟨rfl, -⟩ | ⟨hbmem, ⟨k, hk, hapart, hbk⟩, -⟩
  · rw [hold, List.idxOf_append_of_notMem hc, List.idxOf_cons_self, Nat.add_zero]
    exact List.idxOf_lt_length_iff.mpr hmem
  · -- it comes before all that make way, so before the first conjunct of each
    have hkhead := List.head_mem_head? (h.ne_nil k hk)
    rw [hold, List.idxOf_append_of_mem hbmem]
    exact (h.takeWhile_before hg hk hapart a ha _ hkhead).trans_le
      (idxOf_head_le h.nodup (h.sublist k hk) hkhead hbk)

/-- The new group stands before the groups that stay behind the first that makes way. -/
theorem IsComponents.joinedGroup_before_dropWhile {g : List Expr}
    (hg : g ∈ (groups.dropWhile (isApart c)).filter (isApart c)) :
    ∀ a ∈ (joinedGroup conjuncts groups c).head?, ∀ b ∈ g.head?,
      (conjuncts ++ [c]).idxOf a < (conjuncts ++ [c]).idxOf b := by
  intro a ha b hb
  obtain ⟨k, hk, hapart, hbefore⟩ := h.exists_before_dropWhile hg
  have hkhead := List.head_mem_head? (h.ne_nil k hk)
  rcases h.head_joinedGroup ha with ⟨-, hall⟩ | ⟨hmem, -, hleast⟩
  · rw [hall k hk] at hapart
    cases hapart
  · have hgmem : g ∈ groups := (List.dropWhile_sublist _).subset (List.mem_of_mem_filter hg)
    rw [List.idxOf_append_of_mem hmem, (h.idxOf_head hgmem hb).2]
    exact (hleast k hk hapart _ (List.mem_of_mem_head? hkhead)).trans_lt (hbefore _ hkhead b hb)

theorem IsComponents.insertGroup_ordered (hc : c ∉ conjuncts) :
    (insertGroup conjuncts groups c).Pairwise fun g k => ∀ a ∈ g.head?, ∀ b ∈ k.head?,
      (conjuncts ++ [c]).idxOf a < (conjuncts ++ [c]).idxOf b := by
  have hordered : groups.Pairwise fun g k => ∀ a ∈ g.head?, ∀ b ∈ k.head?,
      (conjuncts ++ [c]).idxOf a < (conjuncts ++ [c]).idxOf b := by
    refine h.ordered.imp_of_mem fun {g k} hg hk hgk a ha b hb => ?_
    rw [(h.idxOf_head hg ha).2, (h.idxOf_head hk hb).2]
    exact hgk a ha b hb
  rw [← List.takeWhile_append_dropWhile (p := isApart c) (l := groups), List.pairwise_append] at hordered
  obtain ⟨htake, hdrop, hacross⟩ := hordered
  refine List.pairwise_append.mpr ⟨htake, List.pairwise_cons.mpr ⟨?_, hdrop.sublist List.filter_sublist⟩, ?_⟩
  · exact fun g hg => h.joinedGroup_before_dropWhile hg
  · intro g hg k hk
    rcases List.mem_cons.mp hk with rfl | hk
    · exact h.takeWhile_before_joinedGroup hc hg
    · exact hacross g hg k (List.mem_of_mem_filter hk)

/-- **The components with one more conjunct**: those it has a variable in common with are one, and the others stay
as they are. -/
theorem IsComponents.insert (hc : c ∉ conjuncts) :
    IsComponents (conjuncts ++ [c]) (insertGroup conjuncts groups c) := by
  have hsubset : conjuncts ⊆ conjuncts ++ [c] := List.subset_append_left _ _
  have hnew : c ∈ conjuncts ++ [c] := List.mem_append_right _ (List.mem_singleton_self c)
  have hnodup : (conjuncts ++ [c]).Nodup := by
    simpa [List.nodup_append] using ⟨h.nodup, fun a ha heq => hc (heq ▸ ha)⟩
  have hsplit {a b : Expr} (hab : Neighbours (conjuncts ++ [c]) a b) (ha : a ∈ conjuncts) :
      Neighbours conjuncts a b ∨ b = c := by
    rcases List.mem_append.mp hab.2.1 with hb | hb
    · exact .inl ⟨ha, hb, hab.2.2⟩
    · exact .inr (List.mem_singleton.mp hb)
  -- every conjunct of the new group is linked to the new conjunct
  have hjoined {a : Expr} (ha : a ∈ joinedGroup conjuncts groups c) : Linked (conjuncts ++ [c]) a c := by
    rcases mem_joinedGroup.mp ha with ⟨-, g, hg, hapart, hag⟩ | rfl
    · obtain ⟨d, hd, v, hvc, hvd⟩ := isApart_eq_false_iff.mp hapart
      have hneighbours : Neighbours (conjuncts ++ [c]) d c := ⟨hsubset (h.mem_of_mem hg hd), hnew, v, hvd, hvc⟩
      exact ((h.linked hg hag hd).mono hsubset).tail hneighbours
    · exact .refl
  refine .of_closed hnodup ?_ ?_ h.flatten_insertGroup_perm ?_ ?_ (h.insertGroup_ordered hc)
  · refine forall_mem_insertGroup.mpr ⟨?_, fun g hg _ => h.ne_nil g hg⟩
    exact List.ne_nil_of_mem (mem_joinedGroup.mpr (.inr rfl))
  · refine forall_mem_insertGroup.mpr ⟨?_, fun g hg _ => (h.sublist g hg).trans (List.sublist_append_left _ _)⟩
    exact List.filter_sublist.append (.refl [c])
  · refine forall_mem_insertGroup.mpr ⟨fun a ha b hb => (hjoined ha).trans (hjoined hb).symm, ?_⟩
    exact fun g hg _ a ha b hb => (h.linked hg ha hb).mono hsubset
  · refine forall_mem_insertGroup.mpr ⟨fun a ha b hab => ?_, fun g hg hapart a ha b hab => ?_⟩
    · rw [mem_joinedGroup]
      rcases mem_joinedGroup.mp ha with ⟨hamem, g, hg, hapart, hag⟩ | rfl
      · rcases hsplit hab hamem with hab | rfl
        · exact .inl ⟨hab.2.1, g, hg, hapart, h.mem_of_linked hg hag hab.2.1 (.single hab)⟩
        · exact .inr rfl
      · rcases List.mem_append.mp hab.2.1 with hb | hb
        · obtain ⟨g, hg, hbg⟩ := h.exists_group hb
          exact .inl ⟨hb, g, hg, isApart_eq_false_iff.mpr ⟨b, hbg, hab.2.2⟩, hbg⟩
        · exact .inr (List.mem_singleton.mp hb)
    · rcases hsplit hab (h.mem_of_mem hg ha) with hab | rfl
      · exact h.mem_of_linked hg ha hab.2.1 (.single hab)
      · obtain ⟨v, hva, hvc⟩ := hab.2.2
        exact absurd ⟨v, hvc, hva⟩ (isApart_eq_true_iff.mp hapart a ha)

end Insert

/-! ### One more conjunct of a formula -/

/-- The conjuncts of the factors of `f` that have a variable in common with `c`, in the order they have in `f`, and
`c` behind them. -/
def Expr.joinedConjuncts (f c : Expr) : List Expr :=
  f.distinctConjuncts.filter
    (fun a => ∃ g ∈ (factorize f none).factors, c.Shares g ∧ a ∈ g.conjuncts) ++ [c]

/-- The conjuncts of a formula with one more: a new one is the last, and one that is there already is none. -/
theorem distinctConjuncts_and (f : Expr) {c : Expr} (hand : ∀ parts, c ≠ .and parts) (htrue : c.isTrue = false) :
    (Expr.and [f, c]).distinctConjuncts =
      if c ∈ f.conjuncts then f.distinctConjuncts else f.distinctConjuncts ++ [c] := by
  have hproper : (Expr.and [f, c]).properConjuncts = f.properConjuncts ++ [c] := by
    rw [Expr.properConjuncts, Expr.conjuncts_and, List.flatMap_cons, List.flatMap_singleton,
      Expr.conjuncts_of_ne_and hand, List.filter_append, List.filter_singleton, htrue]
    rfl
  have hmem : c ∈ f.properConjuncts ↔ c ∈ f.conjuncts := by
    rw [Expr.mem_properConjuncts, htrue, and_iff_left rfl]
  rw [Expr.distinctConjuncts, hproper, List.eraseDups_append]
  split
  · rename_i hin
    have hnone : [c].removeAll f.properConjuncts = [] := by simp [List.removeAll, hmem.mpr hin]
    rw [hnone]
    exact List.append_nil _
  · rename_i hnew
    have hone : [c].removeAll f.properConjuncts = [c] := by simp [List.removeAll, mt hmem.mp hnew]
    rw [hone]
    rfl

/-- **One more conjunct takes the factors that it touches.**  If the formula has the conjunct already, the factors
are the same.  Otherwise they are the factors that have no variable in common with the new conjunct, as they were
and in the same order, and one factor for the conjuncts of all others and the new one; it stands where the first of
the others was, or at the end. -/
theorem factors_with_conjunct (f c : Expr) (hand : ∀ parts, c ≠ .and parts) (htrue : c.isTrue = false) :
    (c ∈ f.conjuncts → (factorize (.and [f, c]) none).factors = (factorize f none).factors) ∧
    (c ∉ f.conjuncts →
      (factorize (.and [f, c]) none).factors =
        (factorize f none).factors.takeWhile (fun g => ¬c.Shares g) ++
          Expr.conjunction (f.joinedConjuncts c) ::
          ((factorize f none).factors.dropWhile fun g => ¬c.Shares g).filter (fun g => ¬c.Shares g) ∧
      (Expr.conjunction (f.joinedConjuncts c)).conjuncts = f.joinedConjuncts c) := by
  obtain ⟨groups, hfactors, h⟩ := factors_eq_map_conjunction f fun c (hc : c ∈ none) => nomatch hc
  have hnone : ∀ c ∈ (none : Option FactorContext), c.Sound := fun c hc => nomatch hc
  have hconjuncts := distinctConjuncts_and f hand htrue
  refine ⟨fun hmem => ?_, fun hnew => ?_⟩
  · rw [if_pos hmem] at hconjuncts
    rw [hfactors]
    exact IsComponents.factors_eq (hconjuncts ▸ h) hnone
  · rw [if_neg hnew] at hconjuncts
    have hc : c ∉ f.distinctConjuncts := fun hc =>
      hnew (Expr.mem_properConjuncts.mp (Expr.mem_distinctConjuncts.mp hc)).1
    have hjoined : f.joinedConjuncts c = joinedGroup f.distinctConjuncts groups c := by
      rw [Expr.joinedConjuncts, joinedGroup, hfactors]
      congr 2
      ext a
      rw [decide_eq_decide]
      constructor
      · rintro ⟨e, he, hshares, ha⟩
        obtain ⟨g, hg, rfl⟩ := List.mem_map.mp he
        rw [h.conjuncts_conjunction hg] at ha
        exact ⟨g, hg, hshares, ha⟩
      · rintro ⟨g, hg, hshares, ha⟩
        rw [← h.conjuncts_conjunction hg] at ha
        exact ⟨_, List.mem_map_of_mem hg, hshares, ha⟩
    have hinsert := h.insert hc
    rw [← hconjuncts] at hinsert
    refine ⟨?_, ?_⟩
    · rw [hinsert.factors_eq hnone, hfactors, hjoined, insertGroup, List.map_append, List.map_cons,
        List.takeWhile_map, List.dropWhile_map, List.filter_map]
      rfl
    · rw [hjoined]
      exact hinsert.conjuncts_conjunction (forall_mem_insertGroup.mp fun _ hg => hg).1

theorem isName_node : ∀ i : Fin 4, IsName (String.ofList ['n', Nat.digitChar i]) := by decide

/-- The integer variables of the example. -/
def nodeVariable (i : Fin 4) : Variable :=
  ⟨String.ofList ['n', Nat.digitChar i], .int, isName_node i⟩

/-- An edge between two of them. -/
def edge (i j : Fin 4) : Expr :=
  .rel .lt (.var (nodeVariable i)) (.var (nodeVariable j))

/-- A new edge joins the first factor and the last, and the one between them stays. -/
theorem factors_with_edge : (∀ parts, edge 1 2 ≠ .and parts) ∧ (edge 1 2).isTrue = false ∧
    (factorize (.and [.and [edge 0 1, edge 3 3, edge 2 2], edge 1 2]) none).factors =
      [.and [edge 0 1, edge 2 2, edge 1 2], edge 3 3] := by
  have hand : ∀ parts, edge 1 2 ≠ .and parts := fun _ h => by cases h
  have hnew : edge 1 2 ∉ (Expr.and [edge 0 1, edge 3 3, edge 2 2]).conjuncts := by decide +kernel
  obtain ⟨hfactors, -⟩ := (factors_with_conjunct _ (edge 1 2) hand rfl).2 hnew
  exact ⟨hand, rfl, hfactors.trans (by decide +kernel)⟩

end SmtCount
