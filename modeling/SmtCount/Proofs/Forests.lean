import Mathlib
import SmtCount.Proofs.DisjointSets

/-!
# Forests in words

A forest after any searches and joins.  Its classes are those of the pairs that were joined, searches change neither
a class nor a rank, and ranks stay below the logarithm of the number of indices.

In the memory of a machine an index is a word of 64 bits, a rank is a word of 8, the loop of a search has no bound, and
an index may lie outside of the forest.  None of this ever matters: a search comes to an end, all indices that are
looked up are there, and no rank grows beyond its word.

## Main definitions

* `Operation`, `DisjointSets.run` — searches and joins, one after another.
* `Joined` — two indices are connected by the pairs that were joined.
* `WordForest` — a forest in words, and `DisjointSets.words`, the words of a forest.
* `Finds`, `Unites`, `Runs` — what the operations do to words, if they come to an end.
* `Behaves` — what holds of a forest after some operations.

## Main results

* `exists_represents_run` — **the classes are those of the pairs that were joined.**
* `Represents.rank_le_log2` — ranks are small.
* `Represents.finds`, `Represents.unites` — **searching and joining words comes to an end**, with the words of the
  forest.
* `disjointSets_behave` — all of this, after any operations.
-/

namespace SmtCount

namespace DisjointSets

variable {n : Nat} {s : DisjointSets n} {root : Fin n → Fin n}

/-! ### Sequences of operations -/

/-- An operation on a forest over the indices below `n`. -/
inductive Operation (n : Nat)
  | find (i : Fin n)
  | union (i j : Fin n)
  deriving DecidableEq

/-- The forest after an operation. -/
def apply (s : DisjointSets n) : Operation n → DisjointSets n
  | .find i => (s.find i).2
  | .union i j => s.union i j

/-- The forest after some operations. -/
def run (s : DisjointSets n) (ops : List (Operation n)) : DisjointSets n :=
  ops.foldl apply s

/-- Are two indices connected by the pairs that were joined? -/
def Joined (ops : List (Operation n)) : Fin n → Fin n → Prop :=
  Relation.EqvGen fun i j => .union i j ∈ ops

section Joined

variable {ops : List (Operation n)}

theorem Joined.append {k m : Fin n} (h : Joined ops k m) (ops' : List (Operation n)) : Joined (ops ++ ops') k m :=
  Relation.EqvGen.mono (fun _ _ hmem => List.mem_append_left ops' hmem) k m h

/-- What is the same for all pairs that were joined is the same for all that are connected. -/
theorem Joined.map_eq {α : Type} {v : Fin n → α} {k m : Fin n} (h : Joined ops k m)
    (hpairs : ∀ i j, .union i j ∈ ops → v i = v j) : v k = v m := by
  induction h with
  | rel a b hmem => exact hpairs a b hmem
  | refl a => rfl
  | symm a b _ ih => exact ih.symm
  | trans a b c _ _ ihab ihbc => exact ihab.trans ihbc

/-- A search connects nothing. -/
theorem joined_append_find (i k m : Fin n) : Joined (ops ++ [.find i]) k m ↔ Joined ops k m := by
  have hmem (a b : Fin n) : Operation.union a b ∈ ops ++ [.find i] ↔ Operation.union a b ∈ ops := by simp
  simp only [Joined, hmem]

/-- If the roots tell what is connected, they do so after a join that brings together the two classes. -/
theorem joined_append_union {root' : Fin n → Fin n} {i j : Fin n} (hroot : ∀ k m, root k = root m ↔ Joined ops k m)
    (hroot' : ∀ k m, root' k = root' m ↔ root k = root m ∨ (root k = root i ∧ root m = root j) ∨
      (root k = root j ∧ root m = root i)) (k m : Fin n) :
    root' k = root' m ↔ Joined (ops ++ [.union i j]) k m := by
  constructor
  · intro h
    have hnew : Joined (ops ++ [.union i j]) i j := .rel i j (by simp)
    have hold {a b : Fin n} (hab : root a = root b) : Joined (ops ++ [.union i j]) a b :=
      ((hroot a b).mp hab).append _
    rcases (hroot' k m).mp h with hkm | ⟨hk, hm⟩ | ⟨hk, hm⟩
    · exact hold hkm
    · exact .trans _ _ _ (hold hk) (.trans _ _ _ hnew (.symm _ _ (hold hm)))
    · exact .trans _ _ _ (hold hk) (.trans _ _ _ (.symm _ _ hnew) (.symm _ _ (hold hm)))
  · intro h
    -- to have one root is an equivalence, so the pairs are enough
    refine h.map_eq fun a b hmem => (hroot' a b).mpr ?_
    rcases List.mem_append.mp hmem with hmem | hmem
    · exact .inl ((hroot a b).mpr (.rel a b hmem))
    · obtain ⟨rfl, rfl⟩ := Operation.union.inj (List.mem_singleton.mp hmem)
      exact .inr (.inl ⟨rfl, rfl⟩)

end Joined

/-- An operation keeps the classes, or joins two of them. -/
theorem Represents.apply (hs : s.Represents root) {ops : List (Operation n)}
    (hroot : ∀ k m, root k = root m ↔ Joined ops k m) (op : Operation n) :
    ∃ root', (s.apply op).Represents root' ∧ ∀ k m, root' k = root' m ↔ Joined (ops ++ [op]) k m := by
  cases op with
  | find i =>
    obtain ⟨-, hrep, -⟩ := hs.find i
    refine ⟨root, hrep, fun k m => ?_⟩
    rw [hroot, joined_append_find]
  | union i j =>
    obtain ⟨root', hrep, hroot'⟩ := hs.union i j
    exact ⟨root', hrep, joined_append_union hroot hroot'⟩

/-- **The classes are those of the pairs that were joined.** -/
theorem exists_represents_run (ops : List (Operation n)) : ∃ root, ((singletons n).run ops).Represents root ∧
    ∀ k m, root k = root m ↔ Joined ops k m := by
  induction ops using List.reverseRecOn with
  | nil =>
    refine ⟨id, represents_singletons n, fun k m => ?_⟩
    constructor
    · rintro rfl
      exact .refl k
    · intro h
      exact h.map_eq fun i j hmem => absurd hmem List.not_mem_nil
  | append_singleton ops op ih =>
    obtain ⟨root, hrep, hroot⟩ := ih
    rw [run, List.foldl_append]
    exact hrep.apply hroot op

/-! ### Ranks -/

/-- **Ranks are small**: a rank is no more than the logarithm of the number of indices. -/
theorem Represents.rank_le_log2 (hs : s.Represents root) (i : Fin n) : s.rankOf i ≤ n.log2 := by
  have hclass : (classOf root (root i)).card ≤ n := by
    simpa using Finset.card_le_univ (classOf root (root i))
  have hpow : 2 ^ s.rankOf (root i) ≤ n := (hs.two_pow_rank_le i).trans hclass
  have hn : n ≠ 0 := Nat.ne_of_gt (Nat.zero_lt_of_lt i.isLt)
  exact (hs.rank_le_root i).trans ((Nat.le_log2 hn).mpr hpow)

theorem log2_lt (hn : n < 2 ^ 64) : n.log2 < 64 := by
  by_cases hzero : n = 0
  · rw [hzero]
    decide
  · exact (Nat.log2_lt hzero).mpr hn

/-- A rank, and one more than it, is a word of 8 bits. -/
theorem Represents.rank_lt_word (hs : s.Represents root) (hn : n < 2 ^ 64) (i : Fin n) : s.rankOf i + 1 < 2 ^ 8 := by
  have hrank := hs.rank_le_log2 i
  have hlog := log2_lt hn
  omega

end DisjointSets

/-! ### Words -/

/-- A forest in words. -/
structure WordForest where
  parent : Array UInt64
  rank : Array UInt8

namespace WordForest

/-- Every index in a class of its own. -/
def singletons (n : Nat) : WordForest where
  parent := Array.ofFn fun i : Fin n => UInt64.ofNat i
  rank := Array.replicate n 0

/-- The word of an index. -/
def wordOf {n : Nat} (i : Fin n) : UInt64 :=
  UInt64.ofNat i

/-- Makes the parent of `i` point elsewhere, if `i` is there. -/
def setParent? (f : WordForest) (i p : UInt64) : Option WordForest :=
  if i.toNat < f.parent.size then some { f with parent := f.parent.setIfInBounds i.toNat p } else none

/-- Adds one to a rank, if its index is there and its word can hold it. -/
def growRank? (f : WordForest) (i : UInt64) : Option WordForest :=
  match f.rank[i.toNat]? with
  | some r =>
    if r.toNat + 1 < 2 ^ 8 then some { f with rank := f.rank.setIfInBounds i.toNat (r + 1) } else none
  | none => none

/-- Puts one of two roots below the other, by their ranks, if all of this can be done. -/
def link? (f : WordForest) (a b : UInt64) : Option WordForest :=
  match f.rank[a.toNat]?, f.rank[b.toNat]? with
  | some ra, some rb =>
    if ra < rb then f.setParent? a b
    else (f.setParent? b a).bind fun f => if ra = rb then f.growRank? a else some f
  | _, _ => none

/-- Does a search come to an end, with this root and this forest?  Whatever it looks up has to be there. -/
inductive Finds : WordForest → UInt64 → UInt64 → WordForest → Prop
  | root {f : WordForest} {i : UInt64} : f.parent[i.toNat]? = some i → Finds f i i f
  | halve {f f' f'' : WordForest} {i p g r : UInt64} : f.parent[i.toNat]? = some p → p ≠ i →
    f.parent[p.toNat]? = some g → f.setParent? i g = some f' → Finds f' g r f'' → Finds f i r f''

/-- Does a join come to an end, with this forest? -/
inductive Unites (f : WordForest) (i j : UInt64) (f' : WordForest) : Prop
  | same {a : UInt64} {f₁ : WordForest} : Finds f i a f₁ → Finds f₁ j a f' → Unites f i j f'
  | linked {a b : UInt64} {f₁ f₂ : WordForest} : Finds f i a f₁ → Finds f₁ j b f₂ → a ≠ b →
    f₂.link? a b = some f' → Unites f i j f'

/-- Do some operations come to an end, with this forest? -/
inductive Runs {n : Nat} : WordForest → List (DisjointSets.Operation n) → WordForest → Prop
  | nil {f : WordForest} : Runs f [] f
  | find {f f' f'' : WordForest} {i : Fin n} {r : UInt64} {ops : List (DisjointSets.Operation n)} :
    Finds f (wordOf i) r f' → Runs f' ops f'' → Runs f (.find i :: ops) f''
  | union {f f' f'' : WordForest} {i j : Fin n} {ops : List (DisjointSets.Operation n)} :
    Unites f (wordOf i) (wordOf j) f' → Runs f' ops f'' → Runs f (.union i j :: ops) f''

/-! ### One end -/

section Unique

variable {f f' f'' : WordForest} {i j r r' : UInt64}

/-- A search has one end. -/
theorem Finds.unique (h : Finds f i r f') (h' : Finds f i r' f'') : r = r' ∧ f' = f'' := by
  induction h with
  | root hroot =>
    cases h' with
    | root _ => exact ⟨rfl, rfl⟩
    | halve hparent hne _ _ _ => exact absurd (Option.some.inj (hparent.symm.trans hroot)) hne
  | halve hparent hne hgrand hset _ ih =>
    cases h' with
    | root hroot => exact absurd (Option.some.inj (hparent.symm.trans hroot)) hne
    | halve hparent' _ hgrand' hset' hrest =>
      obtain rfl := Option.some.inj (hparent.symm.trans hparent')
      obtain rfl := Option.some.inj (hgrand.symm.trans hgrand')
      obtain rfl := Option.some.inj (hset.symm.trans hset')
      exact ih hrest

/-- A join has one end. -/
theorem Unites.unique (h : Unites f i j f') (h' : Unites f i j f'') : f' = f'' := by
  cases h with
  | same hi hj =>
    cases h' with
    | same hi' hj' =>
      obtain ⟨rfl, rfl⟩ := hi.unique hi'
      exact (hj.unique hj').2
    | linked hi' hj' hne _ =>
      obtain ⟨rfl, rfl⟩ := hi.unique hi'
      exact absurd (hj.unique hj').1 hne
  | linked hi hj hne hlink =>
    cases h' with
    | same hi' hj' =>
      obtain ⟨rfl, rfl⟩ := hi.unique hi'
      exact absurd (hj.unique hj').1.symm hne
    | linked hi' hj' _ hlink' =>
      obtain ⟨rfl, rfl⟩ := hi.unique hi'
      obtain ⟨rfl, rfl⟩ := hj.unique hj'
      exact Option.some.inj (hlink.symm.trans hlink')

/-- A sequence of operations has one end. -/
theorem Runs.unique {n : Nat} {ops : List (DisjointSets.Operation n)} (h : Runs f ops f') (h' : Runs f ops f'') :
    f' = f'' := by
  induction h with
  | nil =>
    cases h' with
    | nil => rfl
  | find hfind _ ih =>
    cases h' with
    | find hfind' hrest =>
      obtain ⟨-, rfl⟩ := hfind.unique hfind'
      exact ih hrest
  | union hunion _ ih =>
    cases h' with
    | union hunion' hrest =>
      obtain rfl := hunion.unique hunion'
      exact ih hrest

end Unique

end WordForest

/-! ### The words of a forest -/

namespace DisjointSets

open WordForest (wordOf Finds Unites Runs)

variable {n : Nat} {s : DisjointSets n} {root : Fin n → Fin n}

/-- The words of a forest. -/
def words (s : DisjointSets n) : WordForest where
  parent := Array.ofFn fun i => wordOf (s.parentOf i)
  rank := Array.ofFn fun i => UInt8.ofNat (s.rankOf i)

theorem words_singletons (n : Nat) : (singletons n).words = WordForest.singletons n := by
  simp only [words, parentOf_singletons, rankOf_singletons, WordForest.singletons]
  refine congrArg _ (Array.ext (by simp) fun i hi hi' => ?_)
  simp

/-- Setting one place of a table. -/
theorem setIfInBounds_ofFn {α : Type} (f : Fin n → α) (i : Fin n) (a : α) :
    (Array.ofFn f).setIfInBounds i a = Array.ofFn fun j => if i = j then a else f j := by
  refine Array.ext (by simp) fun k hk hk' => ?_
  rw [Array.getElem_setIfInBounds (by simpa using hk), Array.getElem_ofFn, Array.getElem_ofFn]
  simp only [Fin.ext_iff]

section Words

variable (hn : n < 2 ^ 64)

include hn

theorem toNat_wordOf (i : Fin n) : (wordOf i).toNat = i :=
  UInt64.toNat_ofNat_of_lt' (i.isLt.trans hn)

theorem wordOf_inj {i j : Fin n} : wordOf i = wordOf j ↔ i = j := by
  constructor
  · intro h
    have hnat := congrArg UInt64.toNat h
    rw [toNat_wordOf hn, toNat_wordOf hn] at hnat
    exact Fin.ext hnat
  · rintro rfl
    rfl

theorem parent_words (s : DisjointSets n) (i : Fin n) :
    s.words.parent[(wordOf i).toNat]? = some (wordOf (s.parentOf i)) := by
  simp [words, toNat_wordOf hn]

theorem rank_words (s : DisjointSets n) (i : Fin n) :
    s.words.rank[(wordOf i).toNat]? = some (UInt8.ofNat (s.rankOf i)) := by
  simp [words, toNat_wordOf hn]

theorem setParent?_words (s : DisjointSets n) (i p : Fin n) :
    s.words.setParent? (wordOf i) (wordOf p) = some (s.setParent i p).words := by
  have hsize : (wordOf i).toNat < s.words.parent.size := by simp [words, toNat_wordOf hn]
  have hparent : s.words.parent.setIfInBounds (wordOf i).toNat (wordOf p) = (s.setParent i p).words.parent := by
    simp only [words, toNat_wordOf hn, setIfInBounds_ofFn, parentOf_setParent, apply_ite wordOf]
  rw [WordForest.setParent?, if_pos hsize, hparent]
  rfl

theorem growRank?_words (s : DisjointSets n) (i : Fin n) (hrank : s.rankOf i + 1 < 2 ^ 8) :
    s.words.growRank? (wordOf i) = some (s.setRank i (s.rankOf i + 1)).words := by
  have hword : (UInt8.ofNat (s.rankOf i)).toNat = s.rankOf i :=
    UInt8.toNat_ofNat_of_lt' (by simp only [UInt8.size]; omega)
  have hrank' : s.words.rank.setIfInBounds (wordOf i).toNat (UInt8.ofNat (s.rankOf i) + 1) =
      (s.setRank i (s.rankOf i + 1)).words.rank := by
    simp only [words, toNat_wordOf hn, setIfInBounds_ofFn, rankOf_setRank, apply_ite UInt8.ofNat, UInt8.ofNat_add,
      UInt8.ofNat_one]
  rw [WordForest.growRank?, rank_words hn]
  dsimp only
  rw [hword, if_pos hrank, hrank']
  rfl

/-- **Joining roots can be done in words**, as long as ranks are small. -/
theorem link?_words (s : DisjointSets n) (hranks : ∀ i, s.rankOf i + 1 < 2 ^ 8) (a b : Fin n) :
    s.words.link? (wordOf a) (wordOf b) = some (s.link a b).words := by
  have hword (i : Fin n) : (UInt8.ofNat (s.rankOf i)).toNat = s.rankOf i := by
    have hsmall := hranks i
    exact UInt8.toNat_ofNat_of_lt' (by simp only [UInt8.size]; omega)
  have hlt : UInt8.ofNat (s.rankOf a) < UInt8.ofNat (s.rankOf b) ↔ s.rankOf a < s.rankOf b := by
    rw [UInt8.lt_iff_toNat_lt, hword, hword]
  have heq : UInt8.ofNat (s.rankOf a) = UInt8.ofNat (s.rankOf b) ↔ s.rankOf a = s.rankOf b := by
    rw [← UInt8.toNat_inj, hword, hword]
  have hlink : s.link a b = if s.rankOf a < s.rankOf b then s.setParent a b
      else if s.rankOf a = s.rankOf b then (s.setParent b a).setRank a (s.rankOf a + 1) else s.setParent b a := rfl
  rw [WordForest.link?, rank_words hn, rank_words hn, hlink]
  dsimp only
  simp only [hlt, heq, setParent?_words hn, Option.bind_some]
  split
  · rfl
  · split
    · exact growRank?_words hn (s.setParent b a) a (hranks a)
    · rfl

/-! ### Operations on words -/

/-- Walking up with halving comes to an end in words. -/
theorem Represents.finds_climb (steps : Nat) (hs : s.Represents root) (i : Fin n)
    (hsteps : ∀ j, s.rankOf j < steps + s.rankOf i) :
    Finds s.words (wordOf i) (wordOf (DisjointSets.climb steps s i).1) (DisjointSets.climb steps s i).2.words := by
  -- the steps are those of the search with a bound; the loop over words has none
  induction steps generalizing s i with
  | zero => exact absurd (hsteps i) (by omega)
  | succ steps ih =>
    have hparent := parent_words hn s i
    rw [DisjointSets.climb]
    split
    · rename_i hroot
      have hi : s.parentOf i = i := hroot
      rw [hi] at hparent
      exact .root hparent
    · rename_i hne
      have hi : s.parentOf i ≠ i := hne
      obtain ⟨hsame, habove⟩ := hs.grandparent hi
      refine .halve hparent (fun h => hi ((wordOf_inj hn).mp h)) (parent_words hn s _) (setParent?_words hn s i _) ?_
      refine ih (hs.setParent hi hsame habove) (s.parentOf (s.parentOf i)) fun j => ?_
      have hj := hsteps j
      rw [rankOf_setParent, rankOf_setParent]
      omega

/-- **A search in words comes to an end**, with the root and the words of the forest. -/
theorem Represents.finds (hs : s.Represents root) (i : Fin n) :
    Finds s.words (wordOf i) (wordOf (s.find i).1) (s.find i).2.words :=
  hs.finds_climb hn n i fun j => Nat.lt_of_lt_of_le (hs.rank_lt_size j) (Nat.le_add_right _ _)

/-- **A join in words comes to an end**, with the words of the forest. -/
theorem Represents.unites (hs : s.Represents root) (i j : Fin n) :
    Unites s.words (wordOf i) (wordOf j) (s.union i j).words := by
  obtain ⟨-, hrep, -⟩ := hs.find i
  obtain ⟨-, hrep', -⟩ := hrep.find j
  have hi := hs.finds hn i
  have hj := hrep.finds hn j
  rw [DisjointSets.union]
  dsimp only
  split
  · rename_i heq
    rw [← heq] at hj
    exact .same hi hj
  · rename_i hne
    have hroots : wordOf (s.find i).1 ≠ wordOf ((s.find i).2.find j).1 := fun h => hne ((wordOf_inj hn).mp h)
    exact .linked hi hj hroots (link?_words hn _ (hrep'.rank_lt_word hn) _ _)

/-- **Operations in words come to an end**, one after another. -/
theorem Represents.runs (hs : s.Represents root) (ops : List (Operation n)) : Runs s.words ops (s.run ops).words := by
  induction ops generalizing s root with
  | nil => exact .nil
  | cons op ops ih =>
    cases op with
    | find i => exact .find (hs.finds hn i) (ih (hs.find i).2.1)
    | union i j =>
      obtain ⟨root', hrep, -⟩ := hs.union i j
      exact .union (hs.unites hn i j) (ih hrep)

end Words

/-! ### Behaviour -/

/-- What holds of a forest after some operations. -/
structure Behaves (ops : List (Operation n)) (s : DisjointSets n) : Prop where
  /-- In words the operations come to an end, and to no other one. -/
  runs : Runs (WordForest.singletons n) ops s.words
  runs_unique : ∀ f, Runs (WordForest.singletons n) ops f → f = s.words
  /-- All parents are indices of the forest, and ranks are what their words say. -/
  parent_word : ∀ i : Fin n, ∃ p, s.words.parent[i.val]? = some p ∧ p.toNat = s.parentOf i ∧ p.toNat < n
  rank_word : ∀ i : Fin n, ∃ r, s.words.rank[i.val]? = some r ∧ r.toNat = s.rankOf i
  /-- A search comes to an end in words, and to no other one. -/
  finds : ∀ i, Finds s.words (wordOf i) (wordOf (s.find i).1) (s.find i).2.words
  finds_unique : ∀ i r f, Finds s.words (wordOf i) r f → r = wordOf (s.find i).1 ∧ f = (s.find i).2.words
  /-- It gives a root of the class of the index, and leaves it a root. -/
  find_root : ∀ i, s.parentOf (s.find i).1 = (s.find i).1 ∧ (s.find i).2.parentOf (s.find i).1 = (s.find i).1 ∧
    Joined ops i (s.find i).1
  /-- Two indices have one root if they are connected. -/
  find_eq_iff : ∀ i j, (s.find i).1 = (s.find j).1 ↔ Joined ops i j
  /-- A search changes neither a root nor a rank. -/
  find_keeps : ∀ i j, ((s.find i).2.find j).1 = (s.find j).1 ∧ (s.find i).2.rankOf j = s.rankOf j
  /-- Ranks grow from an index to its parent. -/
  rank_lt : ∀ i, s.parentOf i ≠ i → s.rankOf i < s.rankOf (s.parentOf i)
  /-- A root of rank `r` stands for `2 ^ r` indices at least. -/
  two_pow_rank_le : ∀ r, s.parentOf r = r → 2 ^ s.rankOf r ≤ {i | Joined ops i r}.ncard
  /-- Ranks are small. -/
  rank_le : ∀ i, s.rankOf i ≤ n.log2 ∧ n.log2 ≤ 64

/-- **Forests behave**, after any searches and joins of indices below a size that is a word. -/
theorem disjointSets_behave (hn : n < 2 ^ 64) (ops : List (Operation n)) : Behaves ops ((singletons n).run ops) := by
  obtain ⟨root, hs, hroot⟩ := exists_represents_run ops
  have hruns := (represents_singletons n).runs hn ops
  rw [words_singletons] at hruns
  generalize (singletons n).run ops = s at hs hruns
  have hfind (i : Fin n) : (s.find i).1 = root i := (hs.find i).1
  have hlog : n.log2 ≤ 64 := (log2_lt hn).le
  refine ⟨hruns, fun f hf => hf.unique hruns, fun i => ?_, fun i => ?_, hs.finds hn,
    fun i r f hf => hf.unique (hs.finds hn i), fun i => ?_, fun i j => ?_, fun i j => ?_, hs.rank_lt, fun r hr => ?_,
    fun i => ⟨hs.rank_le_log2 i, hlog⟩⟩
  · have hparent := parent_words hn s i
    rw [toNat_wordOf hn] at hparent
    exact ⟨_, hparent, toNat_wordOf hn _, (toNat_wordOf hn _).symm ▸ (s.parentOf i).isLt⟩
  · have hrank := rank_words hn s i
    rw [toNat_wordOf hn] at hrank
    have hsmall := hs.rank_lt_word hn i
    exact ⟨_, hrank, UInt8.toNat_ofNat_of_lt' (by simp only [UInt8.size]; omega)⟩
  · rw [hfind, ← hroot]
    exact ⟨hs.parent_root i, (hs.find i).2.1.parent_root i, (hs.root_eq_self _ (hs.parent_root i)).symm⟩
  · rw [hfind, hfind, hroot]
  · obtain ⟨-, hrep, hrank⟩ := hs.find i
    refine ⟨by rw [(hrep.find j).1, hfind], ?_⟩
    rw [rankOf, hrank]
    rfl
  · -- the class of a root is what is connected with it
    have hclass : {i | Joined ops i r} = ↑(classOf root r) := by
      ext i
      rw [Set.mem_ofPred_eq, ← hroot, hs.root_eq_self r hr, Finset.mem_coe, mem_classOf]
    have hpow := hs.two_pow_rank_le r
    rw [hs.root_eq_self r hr] at hpow
    rw [hclass, Set.ncard_coe_finset]
    exact hpow

/-- Joins of joins, with a search in between. -/
def pairings : List (Operation 5) :=
  [.union 0 1, .union 2 3, .find 3, .union 1 3]

/-- Four indices are in one class, whose root has the greatest rank that four indices admit; the fifth is alone. -/
theorem disjointSets_behave_pairings :
    5 < 2 ^ 64 ∧ Behaves pairings ((singletons 5).run pairings) ∧ ((singletons 5).run pairings).rankOf 0 = 2 ∧
      Joined pairings 0 3 ∧ ¬Joined pairings 0 4 := by
  have hbehaves := disjointSets_behave (n := 5) (by decide) pairings
  refine ⟨by decide, hbehaves, by decide +kernel, ?_, ?_⟩
  · rw [← hbehaves.find_eq_iff]
    decide +kernel
  · rw [← hbehaves.find_eq_iff]
    decide +kernel

end DisjointSets

end SmtCount
