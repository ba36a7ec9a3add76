import Mathlib
import SmtCount.Proofs.Rendering

/-!
# Places in an expression

An expression that occurs twice in another one has two places there.  A place is the path that leads to it, and
the order of paths, compared number by number, is the order from left to right.

So the conjuncts of an expression can be said without any walk: they are what is no conjunction and has
conjunctions only above it, from left to right, and a variable occurs in an expression if it stands at some place.

## Main definitions

* `Expr.subexpr? e path` — the expression at a place of `e`.
* `Expr.ConjunctAt e path c` — at this place of `e` stands the conjunct `c`.
* `Expr.LeftToRight e places` — the places of the conjuncts of `e` with what stands there, from left to right.

## Main results

* `Expr.mentions_iff_subexpr?` — a variable occurs if it stands at some place.
* `Expr.leftToRight_conjunctPlaces`, `Expr.conjuncts_eq_map_conjunctPlaces` — **the conjuncts are listed from left
  to right**, each as often as it has a place.
-/

namespace SmtCount

namespace Expr

/-- What conjunctions take over from their parts, and everything else has, holds of every expression. -/
theorem induction_and {P : Expr → Prop} (and : ∀ parts, (∀ p ∈ parts, P p) → P (.and parts))
    (other : ∀ e, (∀ parts, e ≠ .and parts) → P e) (e : Expr) : P e := by
  induction e using induction_children with
  | h e ih =>
    cases e with
    | and parts => exact and parts ih
    | _ => exact other _ (by simp)

/-! ### Paths -/

/-- The expression at a place.  Each number of the path says which of the expressions right below is next. -/
def subexpr? : Expr → List Nat → Option Expr
  | e, [] => some e
  | e, i :: path => e.children[i]?.bind fun a => subexpr? a path

theorem subexpr?_cons_eq_some_iff {e c : Expr} {i : Nat} {path : List Nat} :
    e.subexpr? (i :: path) = some c ↔ ∃ a, e.children[i]? = some a ∧ a.subexpr? path = some c := by
  rw [subexpr?, Option.bind_eq_some_iff]

/-- A variable occurs in an expression exactly if it stands at some place. -/
theorem mentions_iff_subexpr? {v : Variable} {e : Expr} :
    Mentions v e ↔ ∃ path, e.subexpr? path = some (.var v) := by
  constructor
  · intro h
    induction h with
    | var => exact ⟨[], rfl⟩
    | inside ha _ ih =>
      obtain ⟨i, hi⟩ := List.mem_iff_getElem?.mp ha
      obtain ⟨path, hpath⟩ := ih
      exact ⟨i :: path, subexpr?_cons_eq_some_iff.mpr ⟨_, hi, hpath⟩⟩
  · rintro ⟨path, hpath⟩
    induction path generalizing e with
    | nil =>
      obtain rfl : e = .var v := Option.some.inj hpath
      exact .var
    | cons i path ih =>
      obtain ⟨a, hi, ha⟩ := subexpr?_cons_eq_some_iff.mp hpath
      exact .inside (List.mem_of_getElem? hi) (ih ha)

/-! ### The places of the conjuncts -/

/-- Does this conjunct stand at the place?  It is no conjunction, and all that is above it is one. -/
structure ConjunctAt (e : Expr) (path : List Nat) (c : Expr) : Prop where
  subexpr : e.subexpr? path = some c
  ne_and : ∀ parts, c ≠ .and parts
  above : ∀ front, front <+: path → front ≠ path → ∃ parts, e.subexpr? front = some (.and parts)

/-- What is no conjunction has itself as a conjunct, and nothing below it. -/
theorem conjunctAt_iff_of_ne_and {e c : Expr} {path : List Nat} (hand : ∀ parts, e ≠ .and parts) :
    ConjunctAt e path c ↔ path = [] ∧ c = e := by
  constructor
  · intro h
    have hpath : path = [] := by
      by_contra hne
      obtain ⟨parts, hparts⟩ := h.above [] List.nil_prefix (Ne.symm hne)
      exact hand parts (Option.some.inj hparts)
    subst hpath
    exact ⟨rfl, (Option.some.inj h.subexpr).symm⟩
  · rintro ⟨rfl, rfl⟩
    exact ⟨rfl, hand, fun front hfront hne => absurd (List.prefix_nil.mp hfront) hne⟩

/-- The conjuncts of a conjunction stand in its parts. -/
theorem conjunctAt_and_iff {parts : List Expr} {path : List Nat} {c : Expr} :
    ConjunctAt (.and parts) path c ↔
      ∃ i a rest, parts[i]? = some a ∧ path = i :: rest ∧ ConjunctAt a rest c := by
  constructor
  · intro h
    cases path with
    | nil => exact absurd (Option.some.inj h.subexpr).symm (h.ne_and parts)
    | cons i rest =>
      obtain ⟨a, hi, ha⟩ := subexpr?_cons_eq_some_iff.mp h.subexpr
      refine ⟨i, a, rest, hi, rfl, ha, h.ne_and, fun front hfront hne => ?_⟩
      obtain ⟨inner, hinner⟩ := h.above (i :: front) ((List.prefix_cons_inj i).mpr hfront)
        fun heq => hne (List.cons.inj heq).2
      obtain ⟨b, hb, hfrontb⟩ := subexpr?_cons_eq_some_iff.mp hinner
      obtain rfl : a = b := Option.some.inj (hi.symm.trans hb)
      exact ⟨inner, hfrontb⟩
  · rintro ⟨i, a, rest, hi, rfl, h⟩
    refine ⟨subexpr?_cons_eq_some_iff.mpr ⟨a, hi, h.subexpr⟩, h.ne_and, fun front hfront hne => ?_⟩
    cases front with
    | nil => exact ⟨parts, rfl⟩
    | cons j front =>
      obtain ⟨rfl, hbelow⟩ := List.cons_prefix_cons.mp hfront
      obtain ⟨inner, hinner⟩ := h.above front hbelow fun heq => hne (congrArg (j :: ·) heq)
      exact ⟨inner, subexpr?_cons_eq_some_iff.mpr ⟨a, hi, hinner⟩⟩

/-- Are these the places of the conjuncts with what stands there, from left to right? -/
structure LeftToRight (e : Expr) (places : List (List Nat × Expr)) : Prop where
  mem_iff : ∀ path c, (path, c) ∈ places ↔ ConjunctAt e path c
  ordered : places.Pairwise fun p q => p.1 < q.1

/-! ### Listing them -/

mutual

/-- The places of the conjuncts of an expression, with what stands there. -/
def conjunctPlaces : Expr → List (List Nat × Expr)
  | .and parts => conjunctPlacesFrom 0 parts
  | e => [([], e)]

/-- The same for the parts of a conjunction, of which the first has the number `i`. -/
def conjunctPlacesFrom (i : Nat) : List Expr → List (List Nat × Expr)
  | [] => []
  | a :: as => (conjunctPlaces a).map (Prod.map (i :: ·) id) ++ conjunctPlacesFrom (i + 1) as

end

theorem conjunctPlaces_of_ne_and {e : Expr} (hand : ∀ parts, e ≠ .and parts) :
    e.conjunctPlaces = [([], e)] := by
  cases e with
  | and parts => exact absurd rfl (hand parts)
  | _ => rfl

theorem mem_conjunctPlacesFrom {i : Nat} {es : List Expr} {path : List Nat} {c : Expr} :
    (path, c) ∈ conjunctPlacesFrom i es ↔
      ∃ k a rest, es[k]? = some a ∧ path = (i + k) :: rest ∧ (rest, c) ∈ a.conjunctPlaces := by
  induction es generalizing i with
  | nil => simp [conjunctPlacesFrom]
  | cons e es ih =>
    rw [conjunctPlacesFrom, List.mem_append, ih]
    constructor
    · rintro (hfirst | ⟨k, a, rest, hk, rfl, hmem⟩)
      · obtain ⟨⟨rest, d⟩, hmem, heq⟩ := List.mem_map.mp hfirst
        obtain ⟨rfl, rfl⟩ := Prod.mk.inj heq
        exact ⟨0, e, rest, rfl, rfl, hmem⟩
      · exact ⟨k + 1, a, rest, hk, by rw [Nat.add_right_comm, Nat.add_assoc], hmem⟩
    · rintro ⟨k, a, rest, hk, rfl, hmem⟩
      cases k with
      | zero =>
        obtain rfl : e = a := Option.some.inj hk
        exact .inl (List.mem_map.mpr ⟨(rest, c), hmem, rfl⟩)
      | succ k => exact .inr ⟨k, a, rest, hk, by rw [Nat.add_right_comm, Nat.add_assoc], hmem⟩

theorem mem_conjunctPlaces {e : Expr} {path : List Nat} {c : Expr} :
    (path, c) ∈ e.conjunctPlaces ↔ ConjunctAt e path c := by
  induction e using induction_and generalizing path c with
  | and parts ih =>
    rw [conjunctPlaces, mem_conjunctPlacesFrom, conjunctAt_and_iff]
    simp only [Nat.zero_add]
    refine exists_congr fun k => exists_congr fun a => exists_congr fun rest => and_congr_right fun hk => ?_
    rw [ih a (List.mem_of_getElem? hk)]
  | other e hand =>
    rw [conjunctPlaces_of_ne_and hand, conjunctAt_iff_of_ne_and hand, List.mem_singleton, Prod.mk.injEq]

/-- The places in one part stand before those in the parts behind it. -/
theorem pairwise_conjunctPlacesFrom {es : List Expr}
    (h : ∀ e ∈ es, e.conjunctPlaces.Pairwise fun p q => p.1 < q.1) (i : Nat) :
    (conjunctPlacesFrom i es).Pairwise fun p q => p.1 < q.1 := by
  induction es generalizing i with
  | nil => exact List.Pairwise.nil
  | cons e es ih =>
    obtain ⟨he, hes⟩ := List.forall_mem_cons.mp h
    rw [conjunctPlacesFrom]
    refine List.pairwise_append.mpr ⟨?_, ih hes (i + 1), ?_⟩
    · refine List.pairwise_map.mpr (he.imp fun hlt => ?_)
      exact List.cons_lt_cons_iff.mpr (.inr ⟨rfl, hlt⟩)
    · -- the first number of the path is smaller, whatever follows
      intro p hp q hq
      obtain ⟨p, -, rfl⟩ := List.mem_map.mp hp
      obtain ⟨k, a, rest, -, hq, -⟩ := mem_conjunctPlacesFrom.mp hq
      rw [hq]
      exact List.cons_lt_cons_iff.mpr (.inl (by omega))

theorem pairwise_conjunctPlaces (e : Expr) : e.conjunctPlaces.Pairwise fun p q => p.1 < q.1 := by
  induction e using induction_and with
  | and parts ih => exact pairwise_conjunctPlacesFrom ih 0
  | other e hand =>
    rw [conjunctPlaces_of_ne_and hand]
    exact List.pairwise_singleton _ _

/-- **The conjuncts have their places from left to right.** -/
theorem leftToRight_conjunctPlaces (e : Expr) : LeftToRight e e.conjunctPlaces :=
  ⟨fun _ _ => mem_conjunctPlaces, pairwise_conjunctPlaces e⟩

theorem map_snd_conjunctPlacesFrom (i : Nat) (es : List Expr) :
    (conjunctPlacesFrom i es).map Prod.snd = es.flatMap fun e => e.conjunctPlaces.map Prod.snd := by
  induction es generalizing i with
  | nil => rfl
  | cons e es ih =>
    rw [conjunctPlacesFrom, List.map_append, List.map_map, ih, List.flatMap_cons]
    rfl

/-- **The conjuncts of an expression are what stands at these places, in this order.** -/
theorem conjuncts_eq_map_conjunctPlaces (e : Expr) : e.conjuncts = e.conjunctPlaces.map Prod.snd := by
  induction e using induction_and with
  | and parts ih =>
    rw [conjuncts_and, conjunctPlaces, map_snd_conjunctPlacesFrom]
    exact List.flatMap_congr ih
  | other e hand =>
    rw [conjuncts_of_ne_and hand, conjunctPlaces_of_ne_and hand]
    rfl

end Expr

end SmtCount
