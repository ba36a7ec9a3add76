import Mathlib
import SmtCount.DisjointSets
import SmtCount.Power

/-!
# Disjoint sets: the partition behind the forest

A forest stands for a partition, and the partition is given by the root of each index.  The roots are
carried along as a function beside the forest: searching leaves the function as it is, although it
changes the forest, and joining redirects one root to another.

A search ends because ranks grow on the way up, and no rank reaches the number of indices, since a root
of rank `r` stands for `2 ^ r` indices at least.

## Main definitions

* `Represents s root` — the forest `s` has the roots `root`, with ranks that fit the classes.
* `redirect l w root` — the roots after the root `l` went below the root `w`.

## Main results

* `Represents.find` — **a search gives the root and changes no class**.
* `Represents.union` — **joining two indices joins their classes**, and no others.
* `Represents.findAll` — the roots of some indices, searched one after another.
-/

namespace SmtCount

namespace DisjointSets

variable {n : Nat} {s : DisjointSets n} {root : Fin n → Fin n}

/-! ### Parents and ranks -/

/-- The parent of an index. -/
def parentOf (s : DisjointSets n) (i : Fin n) : Fin n := getElem s.parent i i.isLt

/-- The rank of an index. -/
def rankOf (s : DisjointSets n) (i : Fin n) : Nat := getElem s.rank i i.isLt

/-- Gives an index another rank. -/
def setRank (s : DisjointSets n) (i : Fin n) (r : Nat) : DisjointSets n :=
  { s with rank := s.rank.set i r i.isLt }

@[simp] theorem parentOf_singletons (i : Fin n) : (singletons n).parentOf i = i := by
  simp [parentOf, singletons]

@[simp] theorem rankOf_singletons (i : Fin n) : (singletons n).rankOf i = 0 := by
  simp [rankOf, singletons]

theorem parentOf_setParent (s : DisjointSets n) (i p j : Fin n) :
    (s.setParent i p).parentOf j = if i = j then p else s.parentOf j := by
  simp only [parentOf, setParent, Fin.getElem_fin, Vector.getElem_set, Fin.val_inj]

@[simp] theorem rankOf_setParent (s : DisjointSets n) (i p j : Fin n) :
    (s.setParent i p).rankOf j = s.rankOf j := rfl

@[simp] theorem parentOf_setRank (s : DisjointSets n) (i j : Fin n) (r : Nat) :
    (s.setRank i r).parentOf j = s.parentOf j := rfl

theorem rankOf_setRank (s : DisjointSets n) (i j : Fin n) (r : Nat) :
    (s.setRank i r).rankOf j = if i = j then r else s.rankOf j := by
  simp only [rankOf, setRank, Fin.getElem_fin, Vector.getElem_set, Fin.val_inj]

@[simp] theorem setRank_rankOf (s : DisjointSets n) (i : Fin n) : s.setRank i (s.rankOf i) = s := by
  simp [setRank, rankOf]

/-! ### The partition -/

/-- The indices that have a given root. -/
def classOf (root : Fin n → Fin n) (r : Fin n) : Finset (Fin n) :=
  Finset.univ.filter fun j => root j = r

@[simp] theorem mem_classOf {r j : Fin n} : j ∈ classOf root r ↔ root j = r := by
  simp [classOf]

/-- Does the forest have these roots, and ranks that fit?  Ranks grow from an index to its parent, and a
root of rank `r` stands for at least `2 ^ r` indices. -/
structure Represents (s : DisjointSets n) (root : Fin n → Fin n) : Prop where
  root_parent : ∀ i, root (s.parentOf i) = root i
  parent_root : ∀ i, s.parentOf (root i) = root i
  root_eq_self : ∀ i, s.parentOf i = i → root i = i
  rank_lt : ∀ i, s.parentOf i ≠ i → s.rankOf i < s.rankOf (s.parentOf i)
  rank_le_root : ∀ i, s.rankOf i ≤ s.rankOf (root i)
  two_pow_rank_le : ∀ i, 2 ^ s.rankOf (root i) ≤ (classOf root (root i)).card

/-- Every index is a root to begin with. -/
theorem represents_singletons (n : Nat) : (singletons n).Represents id where
  root_parent i := by rw [parentOf_singletons]
  parent_root i := parentOf_singletons i
  root_eq_self i _ := rfl
  rank_lt i h := absurd (parentOf_singletons i) h
  rank_le_root i := Nat.le_refl _
  two_pow_rank_le i := by
    have hpos : 0 < (classOf (id : Fin n → Fin n) i).card :=
      Finset.card_pos.mpr ⟨i, mem_classOf.mpr rfl⟩
    rw [rankOf_singletons]
    exact hpos

namespace Represents

/-- No rank reaches the number of indices. -/
theorem rank_lt_size (hs : s.Represents root) (i : Fin n) : s.rankOf i < n := by
  have hclass : (classOf root (root i)).card ≤ n := by
    simpa using Finset.card_le_univ (classOf root (root i))
  calc s.rankOf i ≤ s.rankOf (root i) := hs.rank_le_root i
    _ < 2 ^ s.rankOf (root i) := Nat.lt_two_pow_self
    _ ≤ (classOf root (root i)).card := hs.two_pow_rank_le i
    _ ≤ n := hclass

/-- The grandparent of an index that is no root lies above it, in the same class. -/
theorem grandparent (hs : s.Represents root) {i : Fin n} (hi : s.parentOf i ≠ i) :
    root (s.parentOf (s.parentOf i)) = root i ∧
      s.rankOf i < s.rankOf (s.parentOf (s.parentOf i)) := by
  refine ⟨by rw [hs.root_parent, hs.root_parent], ?_⟩
  have hparent := hs.rank_lt i hi
  by_cases htop : s.parentOf (s.parentOf i) = s.parentOf i
  · rwa [htop]
  · exact hparent.trans (hs.rank_lt _ htop)

/-- An index that is no root may point to any index of its class that lies above it. -/
theorem setParent (hs : s.Represents root) {i p : Fin n} (hi : s.parentOf i ≠ i)
    (hp : root p = root i) (hrank : s.rankOf i < s.rankOf p) :
    (s.setParent i p).Represents root where
  root_parent j := by
    rw [parentOf_setParent]
    split
    · rename_i hij
      rw [hp, hij]
    · exact hs.root_parent j
  parent_root j := by
    have hne : i ≠ root j := fun h => hi (h ▸ hs.parent_root j)
    rw [parentOf_setParent, if_neg hne]
    exact hs.parent_root j
  root_eq_self j hj := by
    rw [parentOf_setParent] at hj
    split at hj
    · -- the new parent lies above the index, so it is another one
      rename_i hij
      rw [hij, hj] at hrank
      exact absurd hrank (Nat.lt_irrefl _)
    · exact hs.root_eq_self j hj
  rank_lt j hj := by
    rw [parentOf_setParent] at hj ⊢
    split
    · rename_i hij
      rw [← hij]
      exact hrank
    · rename_i hij
      rw [if_neg hij] at hj
      exact hs.rank_lt j hj
  rank_le_root := hs.rank_le_root
  two_pow_rank_le := hs.two_pow_rank_le

/-- **Walking up with halving** ends at the root if there are more steps than ranks above the index. -/
theorem climb (steps : Nat) (hs : s.Represents root) (i : Fin n)
    (hsteps : ∀ j, s.rankOf j < steps + s.rankOf i) :
    (climb steps s i).1 = root i ∧ (climb steps s i).2.Represents root ∧
      (climb steps s i).2.rank = s.rank := by
  induction steps generalizing s i with
  | zero => exact absurd (hsteps i) (by omega)
  | succ steps ih =>
    rw [DisjointSets.climb]
    split
    · rename_i hroot
      exact ⟨(hs.root_eq_self i hroot).symm, hs, rfl⟩
    · rename_i hparent
      have hi : s.parentOf i ≠ i := hparent
      obtain ⟨hsame, habove⟩ := hs.grandparent hi
      obtain ⟨hr, hrep, hrank⟩ := ih (hs.setParent hi hsame habove) (s.parentOf (s.parentOf i))
        fun j => by
          have := hsteps j
          rw [rankOf_setParent, rankOf_setParent]
          omega
      exact ⟨hr.trans hsame, hrep, hrank⟩

/-- **A search gives the root and changes no class**; no rank changes, either. -/
theorem find (hs : s.Represents root) (i : Fin n) :
    (s.find i).1 = root i ∧ (s.find i).2.Represents root ∧ (s.find i).2.rank = s.rank :=
  hs.climb n i fun j => Nat.lt_of_lt_of_le (hs.rank_lt_size j) (Nat.le_add_right _ _)

/-- The roots of some indices, searched one after another. -/
theorem findAll (hs : s.Represents root) (is : List (Fin n)) : s.findAll is = is.map root := by
  induction is generalizing s with
  | nil => rfl
  | cons i is ih =>
    obtain ⟨hr, hrep, -⟩ := hs.find i
    exact congrArg₂ List.cons hr (ih hrep)

end Represents

/-! ### Joining -/

/-- The roots after the root `l` went below the root `w`. -/
def redirect (l w : Fin n) (root : Fin n → Fin n) (k : Fin n) : Fin n :=
  if root k = l then w else root k

section Attach

variable {l w : Fin n}

theorem redirect_eq_winner {k : Fin n} (hlw : l ≠ w) :
    redirect l w root k = w ↔ root k = l ∨ root k = w := by
  unfold redirect
  split <;> simp_all

theorem redirect_eq_other {k r : Fin n} (hl : r ≠ l) (hw : r ≠ w) :
    redirect l w root k = r ↔ root k = r := by
  unfold redirect
  split
  · rename_i h
    exact iff_of_false (fun h' => hw h'.symm) fun h' => hl (h'.symm.trans h)
  · exact Iff.rfl

/-- Two indices have one root now if they had, or if the roots of both are the two that were joined. -/
theorem redirect_eq_redirect {i j : Fin n} (hlw : l ≠ w) :
    redirect l w root i = redirect l w root j ↔ root i = root j ∨
      (root i = l ∧ root j = w) ∨ (root i = w ∧ root j = l) := by
  unfold redirect
  grind

/-- The class of the root that stays a root has grown by the class of the other. -/
theorem card_classOf_redirect (hlw : l ≠ w) :
    (classOf (redirect l w root) w).card = (classOf root l).card + (classOf root w).card := by
  rw [← Finset.card_union_of_disjoint]
  · congr 1
    ext k
    simp [redirect_eq_winner hlw]
  · rw [Finset.disjoint_left]
    intro k hl hw
    exact hlw ((mem_classOf.mp hl).symm.trans (mem_classOf.mp hw))

theorem classOf_redirect_of_ne {r : Fin n} (hl : r ≠ l) (hw : r ≠ w) :
    classOf (redirect l w root) r = classOf root r := by
  ext k
  simp [redirect_eq_other hl hw]

/-- Puts one of two different roots below the other, which gets the rank `r`. -/
theorem Represents.attach (hs : s.Represents root) (hl : s.parentOf l = l) (hw : s.parentOf w = w)
    (hlw : l ≠ w) {r : Nat} (hwr : s.rankOf w ≤ r) (hlr : s.rankOf l < r)
    (hcard : 2 ^ r ≤ 2 ^ s.rankOf l + 2 ^ s.rankOf w) :
    ((s.setParent l w).setRank w r).Represents (redirect l w root) := by
  have hrootl : root l = l := hs.root_eq_self l hl
  have hrootw : root w = w := hs.root_eq_self w hw
  have hle (j : Fin n) : s.rankOf j ≤ ((s.setParent l w).setRank w r).rankOf j := by
    rw [rankOf_setRank]
    split
    · rename_i hwj
      exact hwj ▸ hwr
    · exact Nat.le_refl _
  refine ⟨fun i => ?_, fun i => ?_, fun i hi => ?_, fun i hi => ?_, fun i => ?_, fun i => ?_⟩
  · rw [parentOf_setRank, parentOf_setParent]
    split
    · rename_i hli
      rw [← hli, redirect, redirect, hrootl, hrootw, if_neg hlw.symm, if_pos rfl]
    · rw [redirect, redirect, hs.root_parent]
  · rw [parentOf_setRank, parentOf_setParent, redirect]
    by_cases hli : root i = l
    · rw [if_pos hli, if_neg hlw, hw]
    · rw [if_neg hli, if_neg fun h => hli h.symm, hs.parent_root]
  · rw [parentOf_setRank, parentOf_setParent] at hi
    split at hi
    · rename_i hli
      exact absurd (hli.trans hi.symm) hlw
    · rename_i hli
      rw [redirect, hs.root_eq_self i hi, if_neg fun h => hli h.symm]
  · rw [parentOf_setRank, parentOf_setParent] at hi ⊢
    by_cases hli : l = i
    · rw [if_pos hli, rankOf_setRank, rankOf_setRank, ← hli, if_neg hlw.symm, if_pos rfl]
      exact hlr
    · rw [if_neg hli] at hi ⊢
      have hwi : w ≠ i := fun h => hi (h ▸ hw)
      rw [rankOf_setRank _ _ i, if_neg hwi]
      exact (hs.rank_lt i hi).trans_le (hle _)
  · by_cases hwi : w = i
    · rw [← hwi, redirect, hrootw, if_neg hlw.symm]
    · have hroot := hs.rank_le_root i
      rw [rankOf_setRank _ _ i, if_neg hwi, redirect, rankOf_setParent]
      by_cases hli : root i = l
      · rw [if_pos hli, rankOf_setRank, if_pos rfl]
        rw [hli] at hroot
        exact hroot.trans hlr.le
      · rw [if_neg hli]
        exact hroot.trans (hle _)
  · have hclassl := hs.two_pow_rank_le l
    have hclassw := hs.two_pow_rank_le w
    rw [hrootl] at hclassl
    rw [hrootw] at hclassw
    by_cases hwin : redirect l w root i = w
    · rw [hwin, card_classOf_redirect hlw, rankOf_setRank, if_pos rfl]
      omega
    · -- every other class stays as it is, and so does the rank of its root
      have hli : root i ≠ l := fun h => hwin ((redirect_eq_winner hlw).mpr (.inl h))
      have hwi : root i ≠ w := fun h => hwin ((redirect_eq_winner hlw).mpr (.inr h))
      rw [redirect, if_neg hli, classOf_redirect_of_ne hli hwi, rankOf_setRank, if_neg hwi.symm]
      exact hs.two_pow_rank_le i

end Attach

/-- Two roots are joined by putting one of them below the other. -/
theorem Represents.link (hs : s.Represents root) {a b : Fin n} (ha : s.parentOf a = a)
    (hb : s.parentOf b = b) (hab : a ≠ b) :
    (s.link a b).Represents (redirect a b root) ∨ (s.link a b).Represents (redirect b a root) := by
  unfold DisjointSets.link
  split
  · rename_i hlt
    left
    have hlt : s.rankOf a < s.rankOf b := hlt
    have hattach := hs.attach ha hb hab (Nat.le_refl _) hlt (Nat.le_add_left _ _)
    rwa [← rankOf_setParent s a b b, setRank_rankOf] at hattach
  · rename_i hge
    right
    have hge : ¬s.rankOf a < s.rankOf b := hge
    split
    · -- on a tie the rank of the root grows, and the class has grown to match
      rename_i heq
      have heq : s.rankOf a = s.rankOf b := heq
      have hpow : 2 ^ (s.rankOf a + 1) ≤ 2 ^ s.rankOf b + 2 ^ s.rankOf a := by
        rw [← heq, Nat.pow_succ]
        omega
      exact hs.attach hb ha hab.symm (Nat.le_succ _) (Nat.lt_succ_of_le heq.ge) hpow
    · rename_i hne
      have hne : s.rankOf a ≠ s.rankOf b := hne
      have hattach := hs.attach hb ha hab.symm (Nat.le_refl _) (by omega) (Nat.le_add_left _ _)
      rwa [← rankOf_setParent s b a a, setRank_rankOf] at hattach

/-- **Joining two indices joins their classes**, and no others. -/
theorem Represents.union (hs : s.Represents root) (i j : Fin n) :
    ∃ root', (s.union i j).Represents root' ∧ ∀ k m, root' k = root' m ↔
      root k = root m ∨ (root k = root i ∧ root m = root j) ∨
        (root k = root j ∧ root m = root i) := by
  obtain ⟨ha, hrepa, -⟩ := hs.find i
  obtain ⟨hb, hrepb, -⟩ := hrepa.find j
  rw [DisjointSets.union]
  simp only [ha, hb]
  split
  · rename_i heq
    refine ⟨root, hrepb, fun k m => ?_⟩
    rw [heq]
    grind
  · rename_i hne
    have hjoin := hrepb.link (hrepb.parent_root i) (hrepb.parent_root j) hne
    rcases hjoin with hjoin | hjoin
    · exact ⟨_, hjoin, fun k m => redirect_eq_redirect hne⟩
    · refine ⟨_, hjoin, fun k m => ?_⟩
      rw [redirect_eq_redirect (Ne.symm hne)]
      exact or_congr_right or_comm

end DisjointSets

end SmtCount
