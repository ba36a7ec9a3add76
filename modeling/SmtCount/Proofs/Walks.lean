import Mathlib
import SmtCount.Proofs.Interpretations
import SmtCount.Proofs.ModelText
import SmtCount.Proofs.Places
import SmtCount.Proofs.Symbols

/-!
# Walks with a stack

Conjuncts and free variables are collected by loops, so that no recursion gets as deep as an expression is nested.
What is still to be visited stands on a stack, and one turn of a loop takes the last expression off, notes what it
has to say and puts what is below it on the stack instead.

A loop ends because the stack gets lighter in every turn, counted in subexpressions.  What it ends with is told by an
invariant over the whole stack: the conjuncts noted so far and those of the expressions on the stack, from the last to
the first, are the conjuncts to be found; and the variables noted so far, which stay sorted, and those that occur on
the stack are the variables to be found.

The conjuncts are put on the stack from the last part to the first, for their order counts.  The variables are put
there as they come, and so are met from right to left, for a set has no order.

## Main definitions

* `Loop`, `Walk` — a loop over a stack of expressions, and where it stands.
* `Loop.EndsWithin l bound w r` — from `w` the loop ends after at most `bound` turns, with the result `r`.
* `conjunctLoop`, `variableLoop` — the two loops.
* `Expr.flattened`, `Expr.occurrences` — conjuncts and variables by recursion over the expression.
* `Expr.Walked e` — what the walks over `e` come to.

## Main results

* `Loop.exists_endsWithin`, `Loop.EndsWithin.unique` — every loop ends, and with one result only.
* `Loop.endsWithin` — the result is what an invariant leaves when the stack is empty.
* `conjunctLoop_endsWithin`, `variableLoop_endsWithin` — **the loops end with the conjuncts and the variables**.
* `Expr.conjuncts_eq_flattened`, `Expr.freeVariables_eq_sorted` — **the walks are the recursion**.
* `Expr.walks_are_recursion` — all that the walks come to.
-/

universe u

namespace SmtCount

/-! ### Loops -/

/-- A loop that visits expressions, one in each turn. -/
structure Loop (α : Type) where
  /-- What a visited expression leaves on the stack, with the one to be visited next at the end. -/
  below : Expr → List Expr
  /-- What is noted after a visit, when some was noted before. -/
  note : α → Expr → α
  /-- A visit leaves less to be visited than the expression itself. -/
  sizeAll_below_lt : ∀ e, Expr.sizeAll (below e) < e.size

/-- Where a loop stands. -/
structure Walk (α : Type) where
  /-- What is still to be visited, with the next one at the end. -/
  stack : List Expr
  /-- What is noted so far. -/
  noted : α

namespace Loop

variable {α : Type} (l : Loop α)

/-- One turn: the last expression is taken off the stack and visited.  When the stack is empty, the loop is over. -/
def turn (w : Walk α) : Option (Walk α) :=
  w.stack.getLast?.map fun e => ⟨w.stack.dropLast ++ l.below e, l.note w.noted e⟩

/-- So many turns, if the loop is not over before. -/
def turns : Nat → Walk α → Option (Walk α)
  | 0, w => some w
  | n + 1, w => (l.turn w).bind (turns n)

/-- Does the loop end after at most so many turns, with this result? -/
def EndsWithin (bound : Nat) (w : Walk α) (r : α) : Prop :=
  ∃ n ≤ bound, l.turns n w = some ⟨[], r⟩

variable {l} {w w' : Walk α}

theorem turn_eq_none_iff : l.turn w = none ↔ w.stack = [] := by
  rw [turn, Option.map_eq_none_iff, List.getLast?_eq_none_iff]

/-- What one turn does. -/
theorem turn_eq_some_iff : l.turn w = some w' ↔
    ∃ stack e, w.stack = stack ++ [e] ∧ w' = ⟨stack ++ l.below e, l.note w.noted e⟩ := by
  rw [turn, Option.map_eq_some_iff]
  constructor
  · rintro ⟨e, he, rfl⟩
    obtain ⟨stack, hstack⟩ := List.getLast?_eq_some_iff.mp he
    exact ⟨stack, e, hstack, by rw [hstack, List.dropLast_concat]⟩
  · rintro ⟨stack, e, hstack, rfl⟩
    refine ⟨e, ?_, ?_⟩
    · rw [hstack, List.getLast?_concat]
    · rw [hstack, List.dropLast_concat]

/-- The stack gets lighter in every turn. -/
theorem sizeAll_stack_lt (h : l.turn w = some w') : Expr.sizeAll w'.stack < Expr.sizeAll w.stack := by
  obtain ⟨stack, e, hstack, rfl⟩ := turn_eq_some_iff.mp h
  have hlt := l.sizeAll_below_lt e
  rw [hstack, Expr.sizeAll_append, Expr.sizeAll_append, Expr.sizeAll, Expr.sizeAll]
  omega

/-- What every turn keeps is kept by any number of turns. -/
theorem turns_keep {P : Walk α → Prop} (hturn : ∀ w w', P w → l.turn w = some w' → P w') {n : Nat} (hw : P w)
    (h : l.turns n w = some w') : P w' := by
  induction n generalizing w with
  | zero => exact Option.some.inj h ▸ hw
  | succ n ih =>
    obtain ⟨v, hv, hturns⟩ := Option.bind_eq_some_iff.mp h
    exact ih (hturn w v hw hv) hturns

/-- Every loop ends, and there are at most as many turns as subexpressions on the stack. -/
theorem exists_endsWithin (w : Walk α) : ∃ r, l.EndsWithin (Expr.sizeAll w.stack) w r := by
  -- on the weight of the stack, for a turn may put more expressions on it than it takes off
  induction hsize : Expr.sizeAll w.stack using Nat.strong_induction_on generalizing w with
  | _ size ih =>
    subst hsize
    cases hturn : l.turn w with
    | none =>
      refine ⟨w.noted, 0, Nat.zero_le _, ?_⟩
      rw [turns, ← turn_eq_none_iff.mp hturn]
    | some v =>
      have hlt := sizeAll_stack_lt hturn
      obtain ⟨r, n, hn, hturns⟩ := ih _ hlt v rfl
      refine ⟨r, n + 1, by omega, ?_⟩
      rw [turns, hturn]
      exact hturns

/-- Turns are determined, so there is only one result. -/
theorem EndsWithin.unique {bound bound' : Nat} {r r' : α} (h : l.EndsWithin bound w r)
    (h' : l.EndsWithin bound' w r') : r = r' := by
  obtain ⟨n, -, hn⟩ := h
  obtain ⟨n', -, hn'⟩ := h'
  induction n generalizing w n' with
  | zero =>
    obtain rfl := Option.some.inj hn
    cases n' with
    | zero => exact (Walk.mk.inj (Option.some.inj hn')).2
    | succ n' =>
      -- the loop is over, so there is no turn left
      obtain ⟨v, hv, -⟩ := Option.bind_eq_some_iff.mp hn'
      rw [turn_eq_none_iff.mpr rfl] at hv
      cases hv
  | succ n ih =>
    obtain ⟨v, hv, hturns⟩ := Option.bind_eq_some_iff.mp hn
    cases n' with
    | zero =>
      obtain rfl := Option.some.inj hn'
      rw [turn_eq_none_iff.mpr rfl] at hv
      cases hv
    | succ n' =>
      obtain ⟨v', hv', hturns'⟩ := Option.bind_eq_some_iff.mp hn'
      obtain rfl := Option.some.inj (hv.symm.trans hv')
      exact ih hturns n' hturns'

/-- **A loop ends with the result that an invariant leaves when the stack is empty.** -/
theorem endsWithin {P : Walk α → Prop} {bound : Nat} {r : α} (hbound : Expr.sizeAll w.stack ≤ bound) (hw : P w)
    (hturn : ∀ w w', P w → l.turn w = some w' → P w') (hend : ∀ noted, P ⟨[], noted⟩ → noted = r) :
    l.EndsWithin bound w r := by
  obtain ⟨r', n, hn, hturns⟩ := exists_endsWithin (l := l) w
  obtain rfl := hend r' (turns_keep hturn hw hturns)
  exact ⟨n, hn.trans hbound, hturns⟩

end Loop

/-! ### Conjuncts -/

namespace Expr

theorem sizeAll_reverse (es : List Expr) : sizeAll es.reverse = sizeAll es := by
  induction es with
  | nil => rfl
  | cons e es ih =>
    rw [List.reverse_cons, sizeAll_append, ih, sizeAll, sizeAll, sizeAll]
    omega

theorem sizeAll_singleton (e : Expr) : sizeAll [e] = e.size := by
  rw [sizeAll, sizeAll, Nat.add_zero]

theorem conjunctsOf_cons_of_ne_and {e : Expr} (h : ∀ parts, e ≠ .and parts) (rest : List Expr) :
    conjunctsOf (e :: rest) = e :: conjunctsOf rest := by
  rw [conjunctsOf]
  exact h

end Expr

/-- The loop that collects conjuncts: the parts of a conjunction are visited next, from left to right, and everything
else is noted. -/
def conjunctLoop : Loop (List Expr) where
  below
    | .and parts => parts.reverse
    | _ => []
  note noted
    | .and _ => noted
    | e => noted ++ [e]
  sizeAll_below_lt e := by
    rw [Expr.size_eq]
    split
    · rw [Expr.sizeAll_reverse]
      exact Nat.lt_succ_self _
    · exact Nat.succ_pos _

/-- A turn keeps what is noted together with the conjuncts on the stack. -/
theorem conjunctLoop_turn {w w' : Walk (List Expr)} (h : conjunctLoop.turn w = some w') :
    w'.noted ++ Expr.conjunctsOf w'.stack.reverse = w.noted ++ Expr.conjunctsOf w.stack.reverse := by
  obtain ⟨stack, e, hstack, rfl⟩ := Loop.turn_eq_some_iff.mp h
  rw [hstack, List.reverse_concat, List.reverse_append]
  cases e with
  | and parts =>
    -- the parts are put on the stack in reverse, so read from its end they are in order again
    rw [Expr.conjunctsOf_and]
    simp only [conjunctLoop, List.reverse_reverse]
  | _ =>
    rw [Expr.conjunctsOf_cons_of_ne_and (by simp)]
    simp only [conjunctLoop, List.reverse_nil, List.nil_append, List.append_assoc, List.singleton_append]

/-- **The loop ends with the conjuncts.** -/
theorem conjunctLoop_endsWithin (e : Expr) : conjunctLoop.EndsWithin e.size ⟨[e], []⟩ e.conjuncts := by
  have hsize := (Expr.sizeAll_singleton e).le
  refine Loop.endsWithin (P := fun w => w.noted ++ Expr.conjunctsOf w.stack.reverse = e.conjuncts) hsize ?_ ?_ ?_
  · rfl
  · intro w w' hw hturn
    exact (conjunctLoop_turn hturn).trans hw
  · intro noted hnoted
    simpa using hnoted

/-! ### Variables -/

namespace Variable

/-- Two sorted lists with the same members are equal. -/
theorem eq_of_pairwise {vs ws : List Variable} (hvs : vs.Pairwise fun v w => lt v w = true)
    (hws : ws.Pairwise fun v w => lt v w = true) (h : ∀ v, v ∈ vs ↔ v ∈ ws) : vs = ws := by
  have hirrefl {v : Variable} : ¬lt v v = true := by simp [lt_irrefl]
  have hnodup {us : List Variable} (hus : us.Pairwise fun v w => lt v w = true) : us.Nodup :=
    hus.imp fun {v w} hlt (heq : v = w) => hirrefl (heq ▸ hlt)
  have hperm : vs.Perm ws := (List.perm_ext_iff_of_nodup (hnodup hvs) (hnodup hws)).mpr h
  exact hperm.eq_of_pairwise (fun v w _ _ hvw hwv => absurd (lt_trans hvw hwv) hirrefl) hvs hws

theorem pairwise_sorted (vs : List Variable) : (sorted vs).Pairwise fun v w => lt v w = true := by
  have hfold (us : List Variable) (hus : us.Pairwise fun v w => lt v w = true) :
      (vs.foldl (fun ws v => insert v ws) us).Pairwise fun v w => lt v w = true := by
    induction vs generalizing us with
    | nil => exact hus
    | cons v vs ih => exact ih _ (pairwise_insert hus v)
  exact hfold [] List.Pairwise.nil

end Variable

/-- The free variables are any list with the same members, sorted and without repeats. -/
theorem Expr.freeVariables_eq_sorted_of_mem_iff {e : Expr} {vs : List Variable}
    (h : ∀ v, v ∈ e.freeVariables ↔ v ∈ vs) : e.freeVariables = Variable.sorted vs :=
  Variable.eq_of_pairwise e.pairwise_freeVariables (Variable.pairwise_sorted vs) fun v => by
    rw [h, Variable.mem_sorted]

/-- The loop that collects variables: all that is below an expression is visited next, from right to left. -/
def variableLoop : Loop (List Variable) where
  below := Expr.children
  note noted
    | .var v => Variable.insert v noted
    | _ => noted
  sizeAll_below_lt e := by
    rw [Expr.size_eq]
    exact Nat.lt_succ_self _

/-- Is what is noted sorted, and does it hold, with what occurs on the stack, the variables of the expression? -/
structure Collects (e : Expr) (w : Walk (List Variable)) : Prop where
  sorted : w.noted.Pairwise fun v w => v.lt w = true
  mem_iff : ∀ v, (v ∈ w.noted ∨ ∃ a ∈ w.stack, Expr.Mentions v a) ↔ Expr.Mentions v e

/-- A turn collects the same variables. -/
theorem Collects.turn {e : Expr} {w w' : Walk (List Variable)} (hw : Collects e w)
    (h : variableLoop.turn w = some w') : Collects e w' := by
  obtain ⟨stack, a, hstack, rfl⟩ := Loop.turn_eq_some_iff.mp h
  by_cases hvar : ∃ v, a = .var v
  · obtain ⟨v, rfl⟩ := hvar
    refine ⟨Variable.pairwise_insert hw.sorted v, fun u => ?_⟩
    rw [← hw.mem_iff u, hstack]
    simp only [variableLoop, Expr.children, Variable.mem_insert, List.append_nil, List.mem_append,
      List.mem_singleton, or_and_right, exists_or, exists_eq_left, Expr.mentions_var_iff]
    rw [or_assoc, or_comm, or_assoc]
  · -- nothing is noted, and what occurs in the expression occurs right below it
    have hvar := not_exists.mp hvar
    have hnote : variableLoop.note w.noted a = w.noted := by
      cases a with
      | var v => exact absurd rfl (hvar v)
      | _ => rfl
    rw [hnote]
    refine ⟨hw.sorted, fun u => ?_⟩
    rw [← hw.mem_iff u, hstack]
    simp only [List.mem_append, List.mem_singleton, or_and_right, exists_or, exists_eq_left,
      Expr.mentions_iff_children hvar]
    rfl

/-- **The loop ends with the free variables.** -/
theorem variableLoop_endsWithin (e : Expr) : variableLoop.EndsWithin e.size ⟨[e], []⟩ e.freeVariables := by
  have hsize := (Expr.sizeAll_singleton e).le
  refine Loop.endsWithin (P := Collects e) hsize ?_ ?_ ?_
  · exact ⟨List.Pairwise.nil, by simp⟩
  · intro w w' hw hturn
    exact hw.turn hturn
  · intro noted hnoted
    refine Variable.eq_of_pairwise hnoted.sorted e.pairwise_freeVariables fun v => ?_
    rw [Expr.mem_freeVariables, ← hnoted.mem_iff v]
    simp

/-! ### Recursion -/

namespace Expr

mutual

/-- The conjuncts of an expression, by recursion. -/
def flattened : Expr → List Expr
  | .and parts => flattenedAll parts
  | e => [e]

/-- The conjuncts of some expressions, one after another. -/
def flattenedAll : List Expr → List Expr
  | [] => []
  | a :: as => flattened a ++ flattenedAll as

end

mutual

/-- The variables of an expression from left to right, each as often as it occurs. -/
def occurrences : Expr → List Variable
  | .const _ => []
  | .var v => [v]
  | .not a | .neg a => occurrences a
  | .and parts | .or parts => occurrencesAll parts
  | .implies a b | .rel _ a b | .arith _ a b => occurrences a ++ occurrences b

/-- The variables of some expressions, one after another. -/
def occurrencesAll : List Expr → List Variable
  | [] => []
  | a :: as => occurrences a ++ occurrencesAll as

end

theorem flattenedAll_eq_flatMap (es : List Expr) : flattenedAll es = es.flatMap flattened := by
  induction es with
  | nil => rfl
  | cons e es ih => rw [flattenedAll, ih, List.flatMap_cons]

theorem occurrencesAll_eq_flatMap (es : List Expr) : occurrencesAll es = es.flatMap occurrences := by
  induction es with
  | nil => rfl
  | cons e es ih => rw [occurrencesAll, ih, List.flatMap_cons]

/-- **The conjuncts are those found by recursion.** -/
theorem conjuncts_eq_flattened (e : Expr) : e.conjuncts = e.flattened := by
  induction e using induction_and with
  | and parts ih =>
    rw [conjuncts_and, flattened, flattenedAll_eq_flatMap]
    exact List.flatMap_congr ih
  | other e hand =>
    rw [conjuncts_of_ne_and hand, flattened]
    exact hand

example : (Expr.and [.and [], .or [.and [tt, ff], .or []], .and [.and [ff], tt]]).conjuncts =
    [.or [.and [tt, ff], .or []], ff, tt] := by
  rw [conjuncts_eq_flattened]
  rfl

/-- What is no variable has the variables of what is right below it. -/
theorem occurrences_eq_flatMap {e : Expr} (hvar : ∀ v, e ≠ .var v) :
    e.occurrences = e.children.flatMap occurrences := by
  cases e with
  | var v => exact absurd rfl (hvar v)
  | const c => rfl
  | and parts | or parts => exact occurrencesAll_eq_flatMap parts
  | not a | neg a => rw [occurrences, children, List.flatMap_singleton]
  | implies a b | rel op a b | arith op a b =>
    rw [occurrences, children, List.flatMap_cons, List.flatMap_singleton]

theorem mem_occurrences {v : Variable} {e : Expr} : v ∈ e.occurrences ↔ Mentions v e := by
  induction e using induction_var with
  | var w => rw [occurrences, List.mem_singleton, mentions_var_iff]
  | other e hvar ih =>
    rw [occurrences_eq_flatMap hvar, List.mem_flatMap, mentions_iff_children hvar]
    exact exists_congr fun a => and_congr_right fun ha => ih a ha

/-- **The free variables are those found by recursion**, sorted and without repeats. -/
theorem freeVariables_eq_sorted (e : Expr) : e.freeVariables = Variable.sorted e.occurrences :=
  freeVariables_eq_sorted_of_mem_iff fun _ => mem_freeVariables.trans mem_occurrences.symm

/-! ### What the walks come to -/

/-- What the walks over an expression come to. -/
structure Walked (e : Expr) : Prop where
  /-- The loop for conjuncts ends with the conjuncts. -/
  conjuncts_loop : conjunctLoop.EndsWithin e.size ⟨[e], []⟩ e.conjuncts
  /-- They are those found by recursion. -/
  conjuncts_recursion : e.conjuncts = e.flattened
  /-- The conjuncts of a conjunction are those of its parts, one after another. -/
  conjuncts_parts : ∀ parts, e = .and parts → e.conjuncts = (parts.map conjuncts).flatten
  /-- The conjuncts are what is no conjunction and has only conjunctions above it, from left to right. -/
  conjuncts_places : ∃ places, e.LeftToRight places ∧ e.conjuncts = places.map Prod.snd
  /-- No conjunct is a conjunction. -/
  conjuncts_ne_and : ∀ c ∈ e.conjuncts, ∀ parts, c ≠ .and parts
  /-- The loop for variables ends with the free variables. -/
  variables_loop : variableLoop.EndsWithin e.size ⟨[e], []⟩ e.freeVariables
  /-- They are those found by recursion, sorted and without repeats. -/
  variables_recursion : e.freeVariables = Variable.sorted e.occurrences
  /-- The free variables are those that stand at some place. -/
  variables_places : ∀ v, v ∈ e.freeVariables ↔ ∃ path, e.subexpr? path = some (.var v)
  /-- They are those of all conjuncts together. -/
  variables_conjuncts : e.freeVariables = Variable.sorted (e.conjuncts.flatMap freeVariables)
  /-- Whatever constants and operators mean, other values for other variables do not change the value. -/
  value_congr : ∀ {D : Type u} (m : Interpretation D) (s t : Variable → D),
    (∀ v ∈ e.freeVariables, s v = t v) → m.value s e = m.value t e

/-- **The walks with a stack are the recursion over the expression**, and find what they are to find. -/
theorem walks_are_recursion (e : Expr) : Walked.{u} e where
  conjuncts_loop := conjunctLoop_endsWithin e
  conjuncts_recursion := conjuncts_eq_flattened e
  conjuncts_parts parts h := by rw [h, conjuncts_and, List.flatMap_def]
  conjuncts_places := ⟨e.conjunctPlaces, leftToRight_conjunctPlaces e, conjuncts_eq_map_conjunctPlaces e⟩
  conjuncts_ne_and _ hc := ne_and_of_mem_conjunctsOf hc
  variables_loop := variableLoop_endsWithin e
  variables_recursion := freeVariables_eq_sorted e
  variables_places _ := mem_freeVariables.trans mentions_iff_subexpr?
  variables_conjuncts := freeVariables_eq_sorted_of_mem_iff fun _ => by
    rw [mem_freeVariables_iff_conjuncts, List.mem_flatMap]
  value_congr _ _ _ h := Interpretation.value_congr fun v hv => h v (mem_freeVariables.mpr hv)

end Expr

end SmtCount
