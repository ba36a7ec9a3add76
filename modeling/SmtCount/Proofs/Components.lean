import Mathlib
import SmtCount.Factorization
import SmtCount.Proofs.DisjointSets

/-!
# The components found by one pass over the variables

Joining every conjunct with the owner of each of its variables links all conjuncts with the variable,
although two conjuncts that are not the owner are never joined directly.  What is joined at any time is
what is linked by the occurrences met so far.

## Main definitions

* `Meets met i j` — the conjuncts `i` and `j` have met a common variable.
* `Linking.Follows l met root` — the classes of `l` are the ones linked by the occurrences met.

## Main results

* `Linking.Follows.meet` — **meeting one more occurrence keeps this so**.
* `components_eq` — **the roots tell apart exactly the components**.
-/

namespace SmtCount

variable {n : Nat}

/-- Have two conjuncts met a common variable?  `met i v` says that the conjunct `i` has met `v`. -/
def Meets (met : Fin n → Variable → Prop) (i j : Fin n) : Prop :=
  ∃ v, met i v ∧ met j v

/-- One more occurrence met. -/
def alsoMet (met : Fin n → Variable → Prop) (i : Fin n) (v : Variable) (k : Fin n) (w : Variable) : Prop :=
  met k w ∨ (k = i ∧ w = v)

/-- Conjuncts that are linked stay linked when more is met. -/
theorem reflTransGen_meets_mono {met met' : Fin n → Variable → Prop} (hmet : ∀ k w, met k w → met' k w)
    {i j : Fin n} (h : Relation.ReflTransGen (Meets met) i j) :
    Relation.ReflTransGen (Meets met') i j := by
  refine Relation.ReflTransGen.mono ?_ _ _ h
  rintro k m ⟨w, hk, hm⟩
  exact ⟨w, hmet k w hk, hmet m w hm⟩

namespace Linking

/-- Do the classes follow from the occurrences met?  An owner has met its variable, who has met a variable
is in the class of its owner, and a class holds only what is linked. -/
structure Follows (l : Linking n) (met : Fin n → Variable → Prop) (root : Fin n → Fin n) : Prop where
  represents : l.sets.Represents root
  owner_met : ∀ v j, l.owners.get? v = some j → met j v
  met_owner : ∀ i v, met i v → ∃ j, l.owners.get? v = some j ∧ root i = root j
  linked : ∀ i j, root i = root j → Relation.ReflTransGen (Meets met) i j

/-- To begin with nothing is met, and every conjunct is in a class of its own. -/
theorem follows_start (n : Nat) : (start n).Follows (fun _ _ => False) id where
  represents := DisjointSets.represents_singletons n
  owner_met v j h := by
    rw [start, Table.get?_empty] at h
    cases h
  met_owner i v h := h.elim
  linked i j h := by
    rw [show i = j from h]

namespace Follows

variable {l : Linking n} {met : Fin n → Variable → Prop} {root : Fin n → Fin n}

/-- Only what is met matters, not how that is said. -/
theorem congr (h : l.Follows met root) {met' : Fin n → Variable → Prop}
    (hmet : ∀ i v, met i v ↔ met' i v) : l.Follows met' root := by
  have heq : met = met' := funext fun i => funext fun v => propext (hmet i v)
  exact heq ▸ h

/-- A variable that has no owner yet gets one. -/
theorem own (h : l.Follows met root) (i : Fin n) {v : Variable} (hv : l.owners.get? v = none) :
    Follows { l with owners := l.owners.insert v i } (alsoMet met i v) root where
  represents := h.represents
  owner_met w j hw := by
    rw [Table.get?_insert] at hw
    split at hw
    · rename_i hvw
      exact .inr ⟨(Option.some.inj hw).symm, hvw.symm⟩
    · exact .inl (h.owner_met w j hw)
  met_owner k w hkw := by
    rw [Table.get?_insert]
    rcases hkw with hkw | ⟨rfl, rfl⟩
    · obtain ⟨j, hj, hroot⟩ := h.met_owner k w hkw
      have hne : v ≠ w := by
        rintro rfl
        rw [hv] at hj
        cases hj
      exact ⟨j, by rw [if_neg hne, hj], hroot⟩
    · exact ⟨k, if_pos rfl, rfl⟩
  linked k m hkm := reflTransGen_meets_mono (fun _ _ => .inl) (h.linked k m hkm)

/-- A conjunct with an owned variable joins the class of the owner. -/
theorem join (h : l.Follows met root) {i j : Fin n} {v : Variable} (hv : l.owners.get? v = some j) :
    ∃ root', Follows { l with sets := l.sets.union i j } (alsoMet met i v) root' := by
  obtain ⟨root', hrep, hroot'⟩ := h.represents.union i j
  have hold {k m : Fin n} (hkm : root k = root m) : root' k = root' m := (hroot' k m).mpr (.inl hkm)
  have hchain {k m : Fin n} (hkm : root k = root m) :
      Relation.ReflTransGen (Meets (alsoMet met i v)) k m :=
    reflTransGen_meets_mono (fun _ _ => .inl) (h.linked k m hkm)
  -- the new link leads over the variable, which its owner has met before
  have hi : alsoMet met i v i v := .inr ⟨rfl, rfl⟩
  have hj : alsoMet met i v j v := .inl (h.owner_met v j hv)
  refine ⟨root', hrep, fun w k hw => .inl (h.owner_met w k hw), ?_, ?_⟩
  · rintro k w (hkw | ⟨rfl, rfl⟩)
    · obtain ⟨o, ho, hroot⟩ := h.met_owner k w hkw
      exact ⟨o, ho, hold hroot⟩
    · exact ⟨j, hv, (hroot' k j).mpr (.inr (.inl ⟨rfl, rfl⟩))⟩
  · intro k m hkm
    rcases (hroot' k m).mp hkm with hsame | ⟨hki, hmj⟩ | ⟨hkj, hmi⟩
    · exact hchain hsame
    · exact ((hchain hki).tail ⟨v, hi, hj⟩).trans (hchain hmj.symm)
    · exact ((hchain hkj).tail ⟨v, hj, hi⟩).trans (hchain hmi.symm)

/-- **Meeting one more occurrence keeps the classes those that follow from the occurrences met.** -/
theorem meet (h : l.Follows met root) (i : Fin n) (v : Variable) :
    ∃ root', (l.meet i v).Follows (alsoMet met i v) root' := by
  rw [Linking.meet]
  split
  · rename_i hv
    exact h.join hv
  · rename_i hv
    exact ⟨root, h.own i hv⟩

/-- Meeting the variables of a conjunct, one after another. -/
theorem meetEach (h : l.Follows met root) (i : Fin n) (vs : List Variable) :
    ∃ root', (vs.foldl (Linking.meet i) l).Follows (fun k w => met k w ∨ (k = i ∧ w ∈ vs)) root' := by
  induction vs generalizing l met root with
  | nil => exact ⟨root, h.congr (by simp)⟩
  | cons v vs ih =>
    obtain ⟨root₁, h₁⟩ := h.meet i v
    obtain ⟨root₂, h₂⟩ := ih h₁
    refine ⟨root₂, h₂.congr fun k w => ?_⟩
    rw [alsoMet, List.mem_cons, or_assoc, ← and_or_left]

/-- Meeting the variables of every conjunct. -/
theorem meetAll (h : l.Follows met root) (occurrences : List (Fin n × List Variable)) :
    ∃ root', (l.meetAll occurrences).Follows
      (fun k w => met k w ∨ ∃ vs, (k, vs) ∈ occurrences ∧ w ∈ vs) root' := by
  induction occurrences generalizing l met root with
  | nil => exact ⟨root, h.congr (by simp)⟩
  | cons o os ih =>
    obtain ⟨i, vs⟩ := o
    obtain ⟨root₁, h₁⟩ := h.meetEach i vs
    obtain ⟨root₂, h₂⟩ := ih h₁
    refine ⟨root₂, h₂.congr fun k w => ?_⟩
    simp only [List.mem_cons, Prod.mk.injEq, or_and_right, exists_or, or_assoc]
    refine or_congr_right (or_congr_left ?_)
    constructor
    · rintro ⟨rfl, hw⟩
      exact ⟨vs, ⟨rfl, rfl⟩, hw⟩
    · rintro ⟨_, ⟨rfl, rfl⟩, hw⟩
      exact ⟨rfl, hw⟩

/-- Two conjuncts are in one class exactly if they are linked. -/
theorem root_eq_iff (h : l.Follows met root) (i j : Fin n) :
    root i = root j ↔ Relation.ReflTransGen (Meets met) i j := by
  refine ⟨h.linked i j, fun hij => ?_⟩
  induction hij with
  | refl => rfl
  | tail _ hstep ih =>
    obtain ⟨v, hk, hm⟩ := hstep
    obtain ⟨o, ho, hko⟩ := h.met_owner _ v hk
    obtain ⟨o', ho', hmo⟩ := h.met_owner _ v hm
    have hoo : o = o' := Option.some.inj (ho.symm.trans ho')
    rw [ih, hko, hoo, hmo]

end Follows

end Linking

/-- The list of variables of a conjunct, among those of all conjuncts. -/
theorem mem_zip_finRange {vars : List (List Variable)} {i : Fin vars.length} {vs : List Variable} :
    (i, vs) ∈ (List.finRange vars.length).zip vars ↔ vars[i] = vs := by
  rw [List.mem_iff_getElem]
  constructor
  · rintro ⟨k, hk, h⟩
    rw [List.getElem_zip, List.getElem_finRange, Prod.mk.injEq] at h
    obtain ⟨rfl, rfl⟩ := h
    rfl
  · rintro rfl
    exact ⟨i, by simp, by simp⟩

/-- **The roots tell apart exactly the components** of "has a variable in common with". -/
theorem components_eq (vars : List (List Variable)) :
    ∃ root, components vars = (List.finRange vars.length).map root ∧
      ∀ i j, root i = root j ↔ Relation.ReflTransGen (Meets fun i v => v ∈ vars[i]) i j := by
  obtain ⟨root, h⟩ := (Linking.follows_start vars.length).meetAll ((List.finRange vars.length).zip vars)
  refine ⟨root, h.represents.findAll _, ?_⟩
  refine (h.congr fun i v => ?_).root_eq_iff
  simp [mem_zip_finRange]

end SmtCount
