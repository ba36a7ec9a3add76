import Mathlib
import SmtCount.Proofs.Factors

/-!
# Counting models by factors

What it is for an assignment to satisfy an expression is left open, as far as factorization is concerned:
all that counts is that a conjunction holds when its parts do, and that an expression looks at its own
variables only.  The number of models of a formula is then the product of the numbers of models of its
factors, because the models of the formula are the combinations of theirs.

## Main definitions

* `TruthSemantics Value` — when an expression holds under values for some variables.
* `TruthSemantics.count` — the number of models of an expression, over a finite domain for each variable.

## Main results

* `TruthSemantics.count_and_pair` — expressions without a common variable are counted apart.
* `TruthSemantics.count_eq_prod_factors` — **the count of a formula is the product over its factors**.
-/

namespace SmtCount

/-- When an expression holds, under values for some variables.  Expressions need not have a value otherwise
than by holding or not. -/
structure TruthSemantics (Value : Type) where
  /-- Does the expression hold? -/
  Holds : Expr → (Variable → Option Value) → Prop
  /-- A conjunction holds if all of its parts do. -/
  holds_and : ∀ parts s, Holds (.and parts) s ↔ ∀ p ∈ parts, Holds p s
  /-- The literal `true` holds. -/
  holds_tt : ∀ s, Holds Expr.tt s
  /-- Only the values of the free variables matter. -/
  holds_congr : ∀ e s t, (∀ v ∈ e.freeVariables, s v = t v) → (Holds e s ↔ Holds e t)

/-- Do exactly these variables have values, each in its domain? -/
def Assigns {Value : Type} (domain : Variable → Finset Value) (vars : List Variable)
    (s : Variable → Option Value) : Prop :=
  (∀ v ∈ vars, ∃ x ∈ domain v, s v = some x) ∧ ∀ v ∉ vars, s v = none

/-- The values of some variables only. -/
def restrict {Value : Type} (vars : List Variable) (s : Variable → Option Value) (v : Variable) :
    Option Value :=
  if v ∈ vars then s v else none

/-- The values of two assignments together. -/
def together {Value : Type} (s t : Variable → Option Value) (v : Variable) : Option Value :=
  (s v).or (t v)

namespace Assigns

variable {Value : Type} {domain : Variable → Finset Value} {vars left right : List Variable}
  {s t : Variable → Option Value}

theorem restricted (hs : Assigns domain vars s) (hleft : ∀ v ∈ left, v ∈ vars) :
    Assigns domain left (restrict left s) := by
  refine ⟨fun v hv => ?_, fun v hv => if_neg hv⟩
  rw [restrict, if_pos hv]
  exact hs.1 v (hleft v hv)

section Together

variable (hvars : ∀ v, v ∈ vars ↔ v ∈ left ∨ v ∈ right)

include hvars in
/-- Values for all of the variables are values for the ones and for the others. -/
theorem together_restrict (hs : Assigns domain vars s) :
    together (restrict left s) (restrict right s) = s := by
  funext v
  unfold together restrict
  by_cases hl : v ∈ left
  · obtain ⟨x, -, hx⟩ := hs.1 v ((hvars v).mpr (.inl hl))
    rw [if_pos hl, hx, Option.some_or]
  · rw [if_neg hl, Option.none_or]
    split
    · rfl
    · rename_i hr
      exact (hs.2 v fun hv => ((hvars v).mp hv).elim hl hr).symm

variable (hs : Assigns domain left s) (ht : Assigns domain right t)

include hs in
theorem together_of_mem_left {v : Variable} (hv : v ∈ left) : together s t v = s v := by
  obtain ⟨x, -, hx⟩ := hs.1 v hv
  rw [together, hx, Option.some_or]

include hs in
theorem together_of_not_mem_left {v : Variable} (hv : v ∉ left) : together s t v = t v := by
  rw [together, hs.2 v hv, Option.none_or]

include hs ht hvars in
theorem combined : Assigns domain vars (together s t) := by
  constructor
  · intro v hv
    by_cases hl : v ∈ left
    · rw [hs.together_of_mem_left hl]
      exact hs.1 v hl
    · rw [hs.together_of_not_mem_left hl]
      exact ht.1 v (((hvars v).mp hv).resolve_left hl)
  · intro v hv
    rw [hs.together_of_not_mem_left fun hl => hv ((hvars v).mpr (.inl hl))]
    exact ht.2 v fun hr => hv ((hvars v).mpr (.inr hr))

include hs in
theorem restrict_left_together : restrict left (together s t) = s := by
  funext v
  unfold restrict
  split
  · rename_i hl
    exact hs.together_of_mem_left hl
  · rename_i hl
    exact (hs.2 v hl).symm

include hs ht in
theorem restrict_right_together (hdisjoint : ∀ v ∈ left, v ∉ right) :
    restrict right (together s t) = t := by
  funext v
  unfold restrict
  split
  · rename_i hr
    exact hs.together_of_not_mem_left fun hl => hdisjoint v hl hr
  · rename_i hr
    exact (ht.2 v hr).symm

end Together

/-- There are finitely many ways to give values to some variables. -/
theorem finite (domain : Variable → Finset Value) (vars : List Variable) :
    {s | Assigns domain vars s}.Finite := by
  have hpi : (Set.univ.pi fun v : {v // v ∈ vars} => some '' (domain v : Set Value)).Finite :=
    Set.Finite.pi fun v => (domain v).finite_toSet.image some
  refine hpi.of_injOn (f := fun s v => s v.1) ?_ ?_
  · intro s hs v _
    obtain ⟨x, hx, hsx⟩ := hs.1 v.1 v.2
    exact ⟨x, hx, hsx.symm⟩
  · intro s hs t ht hst
    funext v
    by_cases hv : v ∈ vars
    · exact congrFun hst ⟨v, hv⟩
    · rw [hs.2 v hv, ht.2 v hv]

end Assigns

namespace TruthSemantics

variable {Value : Type} (sem : TruthSemantics Value) (domain : Variable → Finset Value)

theorem holds_conjunction (parts : List Expr) (s : Variable → Option Value) :
    sem.Holds (Expr.conjunction parts) s ↔ ∀ p ∈ parts, sem.Holds p s := by
  match parts with
  | [] => simpa [Expr.conjunction] using sem.holds_tt s
  | [a] => simp [Expr.conjunction]
  | _ :: _ :: _ => exact sem.holds_and _ s

/-- A formula holds if its distinct conjuncts do. -/
theorem holds_iff_distinctConjuncts (f : Expr) (s : Variable → Option Value) :
    sem.Holds f s ↔ ∀ c ∈ f.distinctConjuncts, sem.Holds c s :=
  (Expr.forall_mem_distinctConjuncts (P := fun e => sem.Holds e s) (fun parts => sem.holds_and parts s)
    (sem.holds_tt s) f).symm

/-- The models of an expression: values for exactly its free variables, under which it holds. -/
def models (e : Expr) : Set (Variable → Option Value) :=
  {s | Assigns domain e.freeVariables s ∧ sem.Holds e s}

/-- The number of models of an expression. -/
noncomputable def count (e : Expr) : Nat :=
  (sem.models domain e).ncard

/-- There are finitely many models, so that their number is not the zero that stands for infinity. -/
theorem finite_models (e : Expr) : (sem.models domain e).Finite :=
  (Assigns.finite domain e.freeVariables).subset fun _ hs => hs.1

/-- Expressions that say the same about the same variables have the same count. -/
theorem count_congr {a b : Expr} (hvars : ∀ v, v ∈ a.freeVariables ↔ v ∈ b.freeVariables)
    (hholds : ∀ s, sem.Holds a s ↔ sem.Holds b s) : sem.count domain a = sem.count domain b := by
  have hmodels : sem.models domain a = sem.models domain b := by
    ext s
    simp only [models, Assigns, Set.mem_ofPred_eq, hvars, hholds]
  rw [count, count, hmodels]

@[simp] theorem count_tt : sem.count domain Expr.tt = 1 := by
  have hmodels : sem.models domain Expr.tt = {fun _ => none} := by
    ext s
    simp only [models, Assigns, Expr.freeVariables_tt, Set.mem_ofPred_eq, Set.mem_singleton_iff]
    constructor
    · rintro ⟨⟨-, hnone⟩, -⟩
      exact funext fun v => hnone v List.not_mem_nil
    · rintro rfl
      exact ⟨⟨fun v hv => absurd hv List.not_mem_nil, fun _ _ => rfl⟩, sem.holds_tt _⟩
  rw [count, hmodels, Set.ncard_singleton]

/-- **Expressions without a common variable are counted apart.** -/
theorem count_and_pair {a b : Expr} (hdisjoint : ∀ v ∈ a.freeVariables, v ∉ b.freeVariables) :
    sem.count domain (.and [a, b]) = sem.count domain a * sem.count domain b := by
  have hvars (v : Variable) :
      v ∈ (Expr.and [a, b]).freeVariables ↔ v ∈ a.freeVariables ∨ v ∈ b.freeVariables := by
    simp [Expr.mem_freeVariables_and]
  have hleft (s t : Variable → Option Value) (hs : Assigns domain a.freeVariables s) :
      sem.Holds a (together s t) ↔ sem.Holds a s :=
    sem.holds_congr a _ _ fun v hv => hs.together_of_mem_left hv
  have hright (s t : Variable → Option Value) (hs : Assigns domain a.freeVariables s) :
      sem.Holds b (together s t) ↔ sem.Holds b t :=
    sem.holds_congr b _ _ fun v hv => hs.together_of_not_mem_left fun hva => hdisjoint v hva hv
  have hinv : Set.InvOn (fun s => (restrict a.freeVariables s, restrict b.freeVariables s))
      (fun p => together p.1 p.2) (sem.models domain a ×ˢ sem.models domain b)
      (sem.models domain (.and [a, b])) := by
    constructor
    · rintro ⟨s, t⟩ ⟨⟨hs, -⟩, ht, -⟩
      exact Prod.ext hs.restrict_left_together (hs.restrict_right_together ht hdisjoint)
    · rintro s ⟨hs, -⟩
      exact hs.together_restrict hvars
  have hbij : Set.BijOn (fun p => together p.1 p.2)
      (sem.models domain a ×ˢ sem.models domain b) (sem.models domain (.and [a, b])) := by
    refine hinv.bijOn ?_ ?_
    · rintro ⟨s, t⟩ ⟨⟨hs, hholdsa⟩, ht, hholdsb⟩
      refine ⟨hs.combined hvars ht, (sem.holds_and _ _).mpr ?_⟩
      simp only [List.mem_cons, List.not_mem_nil, or_false, forall_eq_or_imp, forall_eq]
      exact ⟨(hleft s t hs).mpr hholdsa, (hright s t hs).mpr hholdsb⟩
    · rintro s ⟨hs, hholds⟩
      have hparts := (sem.holds_and _ _).mp hholds
      refine ⟨⟨hs.restricted fun v hv => (hvars v).mpr (.inl hv), ?_⟩,
        hs.restricted fun v hv => (hvars v).mpr (.inr hv), ?_⟩
      · exact (sem.holds_congr a _ s fun v hv => if_pos hv).mpr (hparts a (by simp))
      · exact (sem.holds_congr b _ s fun v hv => if_pos hv).mpr (hparts b (by simp))
  rw [count, ← hbij.ncard_eq, Set.ncard_prod, count, count]

/-- Expressions of which no two have a variable in common. -/
theorem count_and {es : List Expr}
    (hdisjoint : es.Pairwise fun a b => ∀ v ∈ a.freeVariables, v ∉ b.freeVariables) :
    sem.count domain (.and es) = (es.map (sem.count domain)).prod := by
  induction es with
  | nil =>
    have hnil : sem.count domain (.and []) = sem.count domain Expr.tt :=
      sem.count_congr domain (by simp [Expr.mem_freeVariables_and])
        fun s => by simp [sem.holds_and, sem.holds_tt]
    rw [hnil, count_tt, List.map_nil, List.prod_nil]
  | cons e es ih =>
    obtain ⟨hhead, htail⟩ := List.pairwise_cons.mp hdisjoint
    have hcons : sem.count domain (.and (e :: es)) = sem.count domain (.and [e, .and es]) :=
      sem.count_congr domain (by simp [Expr.mem_freeVariables_and])
        fun s => by simp [sem.holds_and]
    rw [hcons, sem.count_and_pair domain, ih htail, List.map_cons, List.prod_cons]
    intro v hv hmem
    obtain ⟨p, hp, hvp⟩ := Expr.mem_freeVariables_and.mp hmem
    exact hhead p hp v hv hvp

/-- **The count of a formula is the product of the counts of its factors.** -/
theorem count_eq_prod_factors (f : Expr) {context : Option FactorContext}
    (hsound : ∀ c ∈ context, c.Sound) :
    sem.count domain f = ((factorize f context).factors.map (sem.count domain)).prod := by
  obtain ⟨groups, hfactors, h⟩ := factors_eq_map_conjunction f hsound
  have hmem (c : Expr) : (∃ g ∈ groups, c ∈ g) ↔ c ∈ f.distinctConjuncts := by
    rw [← List.mem_flatten, h.perm.mem_iff]
  rw [hfactors, ← sem.count_and domain]
  · refine sem.count_congr domain (fun v => ?_) fun s => ?_
    · rw [Expr.mem_freeVariables_iff_distinctConjuncts, Expr.mem_freeVariables_and]
      simp only [← hmem, List.mem_map, exists_exists_and_eq_and, Expr.mem_freeVariables_conjunction]
      grind
    · rw [sem.holds_and, List.forall_mem_map, sem.holds_iff_distinctConjuncts f]
      simp only [holds_conjunction, ← hmem]
      grind
  · exact List.pairwise_map.mpr h.independent

end TruthSemantics

end SmtCount
