import Mathlib
import SmtCount.Proofs.Components
import SmtCount.Proofs.Tables
import SmtCount.Proofs.Traversal

/-!
# The factors are the connected components

The groups of conjuncts that `factorize` makes are the connected components of "shares a free variable
with", listed by their first conjuncts.  The roots that keep them apart are internal: a group is named by
one of its conjuncts, and nothing below depends on which.

## Main definitions

* `Neighbours`, `Linked` — sharing a free variable, and the chains of conjuncts that do.
* `IsComponents conjuncts groups` — the groups are the components of the conjuncts.
* `Independent`, `Indivisible` — groups without a common variable; a group that is no two of these.

## Main results

* `groups_cons` — the first conjunct takes its group, and the others are grouped without it.
* `isComponents_groups` — grouping by roots that tell components apart gives the components.
* `factors_are_components` — **the factors of a formula are the components of its conjuncts**.
* `factors_eq` — a context that gives the free variables changes no factor.
-/

namespace SmtCount

/-! ### Components -/

/-- Are both among the conjuncts, with a common free variable? -/
def Neighbours (conjuncts : List Expr) (a b : Expr) : Prop :=
  a ∈ conjuncts ∧ b ∈ conjuncts ∧ ∃ v, v ∈ a.freeVariables ∧ v ∈ b.freeVariables

/-- Are two conjuncts equal, or the ends of a chain in which neighbours share a free variable? -/
def Linked (conjuncts : List Expr) : Expr → Expr → Prop :=
  Relation.ReflTransGen (Neighbours conjuncts)

/-- Are these groups the connected components of the conjuncts?  Groups keep the order of the conjuncts, and
are listed in the order of their first ones. -/
structure IsComponents (conjuncts : List Expr) (groups : List (List Expr)) : Prop where
  nodup : conjuncts.Nodup
  ne_nil : ∀ g ∈ groups, g ≠ []
  sublist : ∀ g ∈ groups, g.Sublist conjuncts
  perm : groups.flatten.Perm conjuncts
  together_iff : ∀ a ∈ conjuncts, ∀ b ∈ conjuncts,
    (∃ g ∈ groups, a ∈ g ∧ b ∈ g) ↔ Linked conjuncts a b
  ordered : groups.Pairwise fun g h => ∀ a ∈ g.head?, ∀ b ∈ h.head?,
    conjuncts.idxOf a < conjuncts.idxOf b

/-- Have the conjunctions of two groups no free variable in common? -/
def Independent (g h : List Expr) : Prop :=
  ∀ v ∈ (Expr.conjunction g).freeVariables, v ∉ (Expr.conjunction h).freeVariables

/-- Is there no way to split a group into two that are independent? -/
def Indivisible (g : List Expr) : Prop :=
  ∀ left right, left ≠ [] → right ≠ [] → g.Perm (left ++ right) → ¬ Independent left right

theorem independent_iff {g h : List Expr} :
    Independent g h ↔ ∀ a ∈ g, ∀ b ∈ h, ∀ v ∈ a.freeVariables, v ∉ b.freeVariables := by
  simp only [Independent, Expr.mem_freeVariables_conjunction]
  constructor
  · intro hind a ha b hb v hva hvb
    exact hind v ⟨a, ha, hva⟩ ⟨b, hb, hvb⟩
  · rintro hind v ⟨a, ha, hva⟩ ⟨b, hb, hvb⟩
    exact hind a ha b hb v hva hvb

namespace IsComponents

variable {conjuncts : List Expr} {groups : List (List Expr)}

theorem mem_of_mem (h : IsComponents conjuncts groups) {g : List Expr} (hg : g ∈ groups) {a : Expr}
    (ha : a ∈ g) : a ∈ conjuncts :=
  (h.sublist g hg).subset ha

/-- Every conjunct is in a group. -/
theorem exists_group (h : IsComponents conjuncts groups) {a : Expr} (ha : a ∈ conjuncts) :
    ∃ g ∈ groups, a ∈ g :=
  List.mem_flatten.mp (h.perm.mem_iff.mpr ha)

theorem disjoint (h : IsComponents conjuncts groups) : groups.Pairwise List.Disjoint :=
  (List.nodup_flatten.mp (h.perm.nodup_iff.mpr h.nodup)).2

/-- No conjunct is in two groups. -/
theorem group_unique (h : IsComponents conjuncts groups) {g k : List Expr} (hg : g ∈ groups)
    (hk : k ∈ groups) {a : Expr} (hag : a ∈ g) (hak : a ∈ k) : g = k := by
  by_contra hne
  have : Std.Symm (@List.Disjoint Expr) := ⟨fun _ _ => List.Disjoint.symm⟩
  exact h.disjoint.forall hg hk hne hag hak

/-- A conjunct that is linked to one of a group is in the group. -/
theorem mem_of_linked (h : IsComponents conjuncts groups) {g : List Expr} (hg : g ∈ groups) {a b : Expr}
    (ha : a ∈ g) (hb : b ∈ conjuncts) (hab : Linked conjuncts a b) : b ∈ g := by
  obtain ⟨k, hk, hak, hbk⟩ := (h.together_iff a (h.mem_of_mem hg ha) b hb).mpr hab
  exact h.group_unique hk hg hak ha ▸ hbk

theorem linked (h : IsComponents conjuncts groups) {g : List Expr} (hg : g ∈ groups) {a b : Expr}
    (ha : a ∈ g) (hb : b ∈ g) : Linked conjuncts a b :=
  (h.together_iff a (h.mem_of_mem hg ha) b (h.mem_of_mem hg hb)).mp ⟨g, hg, ha, hb⟩

/-- **Different components have no free variable in common.** -/
theorem independent (h : IsComponents conjuncts groups) : groups.Pairwise Independent := by
  refine h.disjoint.imp_of_mem fun {g k} hg hk hdisjoint => independent_iff.mpr ?_
  intro a ha b hb v hva hvb
  have hneighbours : Neighbours conjuncts a b :=
    ⟨h.mem_of_mem hg ha, h.mem_of_mem hk hb, v, hva, hvb⟩
  exact hdisjoint (h.mem_of_linked hg ha hneighbours.2.1 (.single hneighbours)) hb

/-- **A component cannot be split.** -/
theorem indivisible (h : IsComponents conjuncts groups) {g : List Expr} (hg : g ∈ groups) :
    Indivisible g := by
  intro left right hleft hright hperm hind
  obtain ⟨a, ha⟩ := List.exists_mem_of_ne_nil left hleft
  obtain ⟨b, hb⟩ := List.exists_mem_of_ne_nil right hright
  have hag : a ∈ g := hperm.mem_iff.mpr (List.mem_append_left _ ha)
  have hbg : b ∈ g := hperm.mem_iff.mpr (List.mem_append_right _ hb)
  -- a chain that starts on the left never leaves it
  have hstay {c : Expr} (hac : Linked conjuncts a c) : c ∈ left := by
    induction hac with
    | refl => exact ha
    | @tail c d hac hcd ih =>
      have hdg : d ∈ g := h.mem_of_linked hg hag hcd.2.1 (hac.tail hcd)
      rcases List.mem_append.mp (hperm.mem_iff.mp hdg) with hd | hd
      · exact hd
      · obtain ⟨-, -, v, hvc, hvd⟩ := hcd
        exact absurd hvd (independent_iff.mp hind c ih d hd v hvc)
  have hnodup : (left ++ right).Nodup := hperm.nodup_iff.mp ((h.sublist g hg).nodup h.nodup)
  exact List.disjoint_of_nodup_append hnodup (hstay (h.linked hg hag hbg)) hb

/-- **A conjunct without variables is alone.** -/
theorem ground_alone (h : IsComponents conjuncts groups) {c : Expr} (hc : c ∈ conjuncts)
    (hground : c.freeVariables = []) : [c] ∈ groups := by
  obtain ⟨g, hg, hcg⟩ := h.exists_group hc
  have hall {b : Expr} (hb : b ∈ g) : b = c := by
    rcases (h.linked hg hcg hb).cases_head with heq | ⟨d, ⟨-, -, v, hv, -⟩, -⟩
    · exact heq.symm
    · rw [hground] at hv
      cases hv
  have hrepeat : g = List.replicate g.length c := List.eq_replicate_of_mem fun b hb => hall hb
  have hnodup : g.Nodup := (h.sublist g hg).nodup h.nodup
  rw [hrepeat, List.nodup_replicate] at hnodup
  have hpos : 0 < g.length := List.length_pos_iff.mpr (h.ne_nil g hg)
  have hlength : g.length = 1 := by omega
  rwa [hrepeat, hlength] at hg

end IsComponents

/-! ### Grouping by roots -/

section Groups

variable {n : Nat}

theorem mem_membersOf {root : Fin n} {rooted : List (Fin n × Expr)} {a : Expr} :
    a ∈ membersOf root rooted ↔ (root, a) ∈ rooted := by
  simp only [membersOf, List.mem_map, List.mem_filter, decide_eq_true_eq]
  constructor
  · rintro ⟨⟨r, b⟩, ⟨hmem, rfl⟩, rfl⟩
    exact hmem
  · intro hmem
    exact ⟨(root, a), ⟨hmem, rfl⟩, rfl⟩

theorem membersOf_sublist (root : Fin n) (rooted : List (Fin n × Expr)) :
    (membersOf root rooted).Sublist (rooted.map Prod.snd) :=
  List.filter_sublist.map _

/-- Two conjuncts are grouped together exactly if they have the same root. -/
theorem together_iff_root {rooted : List (Fin n × Expr)} {a b : Expr} :
    (∃ g ∈ groups rooted, a ∈ g ∧ b ∈ g) ↔ ∃ r, (r, a) ∈ rooted ∧ (r, b) ∈ rooted := by
  simp only [groups, List.mem_map, List.mem_eraseDups]
  constructor
  · rintro ⟨_, ⟨r, -, rfl⟩, ha, hb⟩
    exact ⟨r, mem_membersOf.mp ha, mem_membersOf.mp hb⟩
  · rintro ⟨r, ha, hb⟩
    exact ⟨_, ⟨r, ⟨(r, a), ha, rfl⟩, rfl⟩, mem_membersOf.mpr ha, mem_membersOf.mpr hb⟩

theorem sublist_of_mem_groups {rooted : List (Fin n × Expr)} {g : List Expr} (hg : g ∈ groups rooted) :
    g.Sublist (rooted.map Prod.snd) := by
  obtain ⟨r, -, rfl⟩ := List.mem_map.mp hg
  exact membersOf_sublist r rooted

theorem ne_nil_of_mem_groups {rooted : List (Fin n × Expr)} {g : List Expr} (hg : g ∈ groups rooted) :
    g ≠ [] := by
  obtain ⟨r, hr, rfl⟩ := List.mem_map.mp hg
  obtain ⟨⟨_, a⟩, ha, rfl⟩ := List.mem_map.mp (List.mem_eraseDups.mp hr)
  exact List.ne_nil_of_mem (mem_membersOf.mpr ha)

/-- **The first conjunct takes its group**, and the conjuncts of other roots are grouped as if it were not
there. -/
theorem groups_cons (r : Fin n) (a : Expr) (rest : List (Fin n × Expr)) :
    groups ((r, a) :: rest) =
      (a :: membersOf r rest) :: groups (rest.filter fun p => !decide (p.1 = r)) := by
  have hroots : (rest.map Prod.fst).filter (fun b => !b == r) =
      (rest.filter fun p => !decide (p.1 = r)).map Prod.fst := by
    rw [List.filter_map]
    rfl
  rw [groups, List.map_cons, List.eraseDups_cons, List.map_cons, hroots, groups]
  congr 1
  · simp [membersOf]
  · refine List.map_congr_left fun s hs => ?_
    obtain ⟨p, hp, rfl⟩ := List.mem_map.mp (List.mem_eraseDups.mp hs)
    have hpr : p.1 ≠ r := by simpa using (List.mem_filter.mp hp).2
    have hkept (q : Fin n × Expr) : (decide (q.1 = p.1) && !decide (q.1 = r)) = decide (q.1 = p.1) := by
      grind
    rw [membersOf, membersOf, List.filter_cons_of_neg (by simpa using hpr.symm), List.filter_filter]
    simp only [hkept]

/-- To show something of all lists of rooted conjuncts, show that the first conjunct may be put before the
conjuncts of other roots. -/
theorem rooted_induction {P : List (Fin n × Expr) → Prop} (nil : P [])
    (cons : ∀ r a rest, P (rest.filter fun p => !decide (p.1 = r)) → P ((r, a) :: rest)) :
    ∀ rooted, P rooted
  | [] => nil
  | (r, a) :: rest => cons r a rest (rooted_induction nil cons _)
termination_by rooted => rooted.length
decreasing_by exact Nat.lt_succ_of_le (List.length_filter_le _ _)

/-- Grouping loses no conjunct and repeats none. -/
theorem flatten_groups_perm (rooted : List (Fin n × Expr)) :
    (groups rooted).flatten.Perm (rooted.map Prod.snd) := by
  induction rooted using rooted_induction with
  | nil => exact .refl _
  | cons r a rest ih =>
    rw [groups_cons, List.flatten_cons, List.cons_append, List.map_cons]
    refine .cons a ((ih.append_left _).trans ?_)
    rw [membersOf, ← List.map_append]
    exact (List.filter_append_perm _ rest).map _

/-- The first conjuncts of the groups stand in the order of the conjuncts. -/
theorem heads_sublist (rooted : List (Fin n × Expr)) :
    ((groups rooted).filterMap List.head?).Sublist (rooted.map Prod.snd) := by
  induction rooted using rooted_induction with
  | nil => exact .slnil
  | cons r a rest ih =>
    rw [groups_cons, List.filterMap_cons_some List.head?_cons, List.map_cons]
    exact (ih.trans (List.filter_sublist.map _)).cons_cons a

/-- Positions grow along a list without repeats. -/
theorem pairwise_idxOf_lt {conjuncts : List Expr} (hnodup : conjuncts.Nodup) :
    conjuncts.Pairwise fun a b => conjuncts.idxOf a < conjuncts.idxOf b := by
  refine List.pairwise_iff_getElem.mpr fun i j hi hj hij => ?_
  rwa [hnodup.idxOf_getElem i hi, hnodup.idxOf_getElem j hj]

/-- **Grouping by roots that tell components apart gives the components.** -/
theorem isComponents_groups {conjuncts : List Expr} (hnodup : conjuncts.Nodup)
    {rooted : List (Fin n × Expr)} (hsnd : rooted.map Prod.snd = conjuncts)
    (hroot : ∀ p ∈ rooted, ∀ q ∈ rooted, p.1 = q.1 ↔ Linked conjuncts p.2 q.2) :
    IsComponents conjuncts (groups rooted) where
  nodup := hnodup
  ne_nil _ := ne_nil_of_mem_groups
  sublist _ hg := hsnd ▸ sublist_of_mem_groups hg
  perm := hsnd ▸ flatten_groups_perm rooted
  together_iff a ha b hb := by
    subst hsnd
    rw [together_iff_root]
    constructor
    · rintro ⟨r, hra, hrb⟩
      exact (hroot _ hra _ hrb).mp rfl
    · intro hab
      obtain ⟨⟨r, _⟩, hra, rfl⟩ := List.mem_map.mp ha
      obtain ⟨⟨s, _⟩, hsb, rfl⟩ := List.mem_map.mp hb
      have hrs : r = s := (hroot _ hra _ hsb).mpr hab
      exact ⟨r, hra, hrs ▸ hsb⟩
  ordered := by
    have hheads := heads_sublist rooted
    rw [hsnd] at hheads
    exact List.pairwise_filterMap.mp ((pairwise_idxOf_lt hnodup).sublist hheads)

end Groups

/-! ### The factors of a formula -/

/-- The conjuncts that are grouped, with the roots of their components. -/
def rootedConjuncts (conjuncts : List Expr) :
    List (Fin (conjuncts.map Expr.freeVariables).length × Expr) :=
  (components (conjuncts.map Expr.freeVariables)).zip conjuncts

theorem map_snd_rootedConjuncts (conjuncts : List Expr) :
    (rootedConjuncts conjuncts).map Prod.snd = conjuncts := by
  obtain ⟨root, hroot, -⟩ := components_eq (conjuncts.map Expr.freeVariables)
  rw [rootedConjuncts, hroot]
  exact List.map_snd_zip (by simp)

/-- Chains of conjuncts are chains of their places in the list. -/
theorem reflTransGen_meets_iff_linked {conjuncts : List Expr} (hnodup : conjuncts.Nodup)
    (i j : Fin (conjuncts.map Expr.freeVariables).length)
    (hi : i.1 < conjuncts.length) (hj : j.1 < conjuncts.length) :
    Relation.ReflTransGen (Meets fun i v => v ∈ (conjuncts.map Expr.freeVariables)[i]) i j ↔
      Linked conjuncts conjuncts[i.1] conjuncts[j.1] := by
  constructor
  · intro h
    induction h with
    | refl => exact .refl
    | @tail k m hik hkm ih =>
      obtain ⟨v, hvk, hvm⟩ := hkm
      have hk : k.1 < conjuncts.length := by simpa using k.2
      refine (ih hk).tail ⟨List.getElem_mem hk, List.getElem_mem hj, v, ?_, ?_⟩
      · simpa using hvk
      · simpa using hvm
  · intro h
    generalize hb : conjuncts[j.1] = b at h
    induction h generalizing j with
    | refl =>
      have hij : i = j := Fin.ext ((hnodup.getElem_inj_iff).mp hb.symm)
      rw [hij]
    | @tail c d hac hcd ih =>
      obtain ⟨hc, -, v, hvc, hvd⟩ := hcd
      obtain ⟨k, hk, rfl⟩ := List.mem_iff_getElem.mp hc
      subst hb
      refine (ih ⟨k, by simpa using hk⟩ hk rfl).tail ⟨v, ?_, ?_⟩
      · simpa using hvc
      · simpa using hvd

/-- The roots of two conjuncts agree exactly if the conjuncts are linked. -/
theorem rootedConjuncts_root_eq_iff {conjuncts : List Expr} (hnodup : conjuncts.Nodup) :
    ∀ p ∈ rootedConjuncts conjuncts, ∀ q ∈ rootedConjuncts conjuncts,
      p.1 = q.1 ↔ Linked conjuncts p.2 q.2 := by
  obtain ⟨root, hroot, hiff⟩ := components_eq (conjuncts.map Expr.freeVariables)
  have hentry {p : Fin (conjuncts.map Expr.freeVariables).length × Expr}
      (hp : p ∈ rootedConjuncts conjuncts) :
      ∃ (i : Fin (conjuncts.map Expr.freeVariables).length) (hi : i.1 < conjuncts.length),
        p = (root i, conjuncts[i.1]) := by
    rw [rootedConjuncts, hroot] at hp
    obtain ⟨i, hi, rfl⟩ := List.mem_iff_getElem.mp hp
    have hlt : i < conjuncts.length := by
      rw [List.length_zip] at hi
      omega
    exact ⟨⟨i, by simpa using hlt⟩, hlt, by simp⟩
  intro p hp q hq
  obtain ⟨i, hi, rfl⟩ := hentry hp
  obtain ⟨j, hj, rfl⟩ := hentry hq
  rw [hiff]
  exact reflTransGen_meets_iff_linked hnodup i j hi hj

theorem nodup_eraseDups (l : List Expr) : l.eraseDups.Nodup := by
  induction hn : l.length using Nat.strongRecOn generalizing l with
  | ind n ih =>
    cases l with
    | nil => exact .nil
    | cons a rest =>
      rw [List.eraseDups_cons, List.nodup_cons, List.mem_eraseDups]
      exact ⟨by simp, ih _ (hn ▸ Nat.lt_succ_of_le (List.length_filter_le _ _)) _ rfl⟩

/-- Does a context give the free variables of every conjunct that it knows? -/
def FactorContext.Sound (context : FactorContext) : Prop :=
  ∀ c vs, context.variables? c = some vs → vs = c.freeVariables

/-- The context of a formula gives the free variables of its conjuncts. -/
theorem FactorContext.sound_ofFormula (f : Expr) : (FactorContext.ofFormula f).Sound := by
  intro c vs h
  obtain ⟨d, -, hd⟩ := List.mem_map.mp (Table.mem_of_get?_ofRows h)
  obtain ⟨rfl, rfl⟩ := Prod.mk.inj hd
  rfl

/-- **The factors are the conjunctions of the groups**, with a context or without. -/
theorem factors_eq (f : Expr) {context : Option FactorContext} (hsound : ∀ c ∈ context, c.Sound) :
    (factorize f context).factors =
      (groups (rootedConjuncts f.distinctConjuncts)).map Expr.conjunction := by
  have hvars : (f.distinctConjuncts.zip (f.distinctConjuncts.map fun c =>
      context.bind (·.variables? c))).map (fun p => p.2.getD p.1.freeVariables) =
      f.distinctConjuncts.map Expr.freeVariables := by
    rw [← List.map_prod_left_eq_zip, List.map_map]
    refine List.map_congr_left fun c _ => ?_
    show (context.bind (·.variables? c)).getD c.freeVariables = c.freeVariables
    cases hfound : context.bind (·.variables? c) with
    | none => rfl
    | some vs =>
      obtain ⟨known, hknown, hvs⟩ := Option.bind_eq_some_iff.mp hfound
      exact hsound known hknown c vs hvs
  exact congrArg (fun vars => (groups ((components vars).zip f.distinctConjuncts)).map Expr.conjunction) hvars

/-- The groups behind the factors are the components of the conjuncts. -/
theorem factors_eq_map_conjunction (f : Expr) {context : Option FactorContext}
    (hsound : ∀ c ∈ context, c.Sound) :
    ∃ groups : List (List Expr), (factorize f context).factors = groups.map Expr.conjunction ∧
      IsComponents f.distinctConjuncts groups := by
  have hnodup : f.distinctConjuncts.Nodup := nodup_eraseDups _
  exact ⟨_, factors_eq f hsound, isComponents_groups hnodup (map_snd_rootedConjuncts _)
    (rootedConjuncts_root_eq_iff hnodup)⟩

/-- **The factors of a formula are the connected components of its conjuncts.**  No two of them have a
variable in common, none of them can be split, and a conjunct without variables is a factor. -/
theorem factors_are_components (f : Expr) :
    ∃ groups : List (List Expr), (factorize f none).factors = groups.map Expr.conjunction ∧
      IsComponents f.distinctConjuncts groups ∧ groups.Pairwise Independent ∧
      (∀ g ∈ groups, Indivisible g) ∧
      ∀ c ∈ f.distinctConjuncts, c.freeVariables = [] → [c] ∈ groups := by
  obtain ⟨groups, hfactors, h⟩ := factors_eq_map_conjunction f fun c (hc : c ∈ none) => nomatch hc
  exact ⟨groups, hfactors, h, h.independent, fun g hg => h.indivisible hg, fun c hc => h.ground_alone hc⟩

end SmtCount
