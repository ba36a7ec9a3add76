import Mathlib
import SmtCount.Aggregator.Aggregation

/-!
# An aggregation under a history of notifications

What one aggregation comes to when notifications arrive one after another, in any order, with any
repetitions, and with counts that need not agree.  The history says it all: which sub-tasks were
named, which count each of them had the first time, and whether a count was zero.

## Main definitions

* `Notice` — a notification, and `receiveAll` — a history of them.
* `Decided issued ns` — a count was zero, or every issued sub-task has been named.
* `firstCount? ns c` — the count that the sub-task `c` had the first time it was named.
* `waiting children ns` — the state while counts are missing.
* `concluded children ns n` — the state once the notice `n` after `ns` has decided the count.

## Main results

* `receive_waiting` — one notice leads from a waiting state to a waiting state, or decides the count.
* `receiveAll_start` — **the state is a function of the history**, up to and including the notice that
  decides the count; from there on it stays.
-/

namespace SmtCount

namespace Aggregation

/-- A notification: a sub-task and a count for it. -/
structure Notice where
  sub : TaskId
  count : Nat
  deriving DecidableEq, Repr

/-- Takes notifications one after another, oldest first. -/
def receiveAll (a : Aggregation) (ns : List Notice) : Aggregation :=
  ns.foldl (fun a n => (a.receive n.sub n.count).2) a

@[simp] theorem receiveAll_nil (a : Aggregation) : a.receiveAll [] = a := rfl

theorem receiveAll_cons (a : Aggregation) (n : Notice) (ns : List Notice) :
    a.receiveAll (n :: ns) = (a.receive n.sub n.count).2.receiveAll ns := rfl

theorem receiveAll_append (a : Aggregation) (ns ms : List Notice) :
    a.receiveAll (ns ++ ms) = (a.receiveAll ns).receiveAll ms :=
  List.foldl_append

/-! ### What a history says -/

/-- Is the count of the task known, once the sub-tasks `issued` have been heard of by `ns`?  A zero
decides it, and otherwise every sub-task has to be named. -/
def Decided (issued : List TaskId) (ns : List Notice) : Prop :=
  (∃ n ∈ ns, n.count = 0) ∨ ∀ c ∈ issued, ∃ n ∈ ns, n.sub = c

instance (issued : List TaskId) (ns : List Notice) : Decidable (Decided issued ns) :=
  inferInstanceAs (Decidable (_ ∨ _))

/-- The count that a sub-task had the first time it was named, if it was. -/
def firstCount? (ns : List Notice) (c : TaskId) : Option Nat :=
  (ns.find? fun n => n.sub = c).map Notice.count

/-- The product of the first counts of the issued sub-tasks that were named. -/
def firstProduct (issued : List TaskId) (ns : List Notice) : Nat :=
  (issued.filterMap (firstCount? ns)).prod

/-- The issued sub-tasks that were not named. -/
def unnamed (issued : List TaskId) (ns : List Notice) : List TaskId :=
  issued.filter fun c => ∀ n ∈ ns, n.sub ≠ c

/-- The state while counts are missing. -/
def waiting (children : List Task) (ns : List Notice) : Aggregation :=
  let issued := children.map Task.id
  { children
    outstanding := unnamed issued ns
    product := firstProduct issued ns
    phase := if ∃ n ∈ ns, n.sub ∈ issued then .partway else .factored }

/-- The state once `n`, coming after `ns`, has decided the count. -/
def concluded (children : List Task) (ns : List Notice) (n : Notice) : Aggregation :=
  if n.count = 0 then settled .earlyZero 0
  else settled .complete (firstProduct (children.map Task.id) (ns ++ [n]))

@[simp] theorem outstanding_waiting (children : List Task) (ns : List Notice) :
    (waiting children ns).outstanding = unnamed (children.map Task.id) ns := rfl

@[simp] theorem product_waiting (children : List Task) (ns : List Notice) :
    (waiting children ns).product = firstProduct (children.map Task.id) ns := rfl

theorem isFinal_concluded (children : List Task) (ns : List Notice) (n : Notice) :
    (concluded children ns n).isFinal = true := by
  unfold concluded
  split <;> rfl

theorem isFinal_waiting (children : List Task) (ns : List Notice) :
    (waiting children ns).isFinal = false := by
  unfold waiting isFinal
  dsimp only
  split <;> rfl

theorem Decided.append {issued : List TaskId} {ns : List Notice} (h : Decided issued ns)
    (ms : List Notice) : Decided issued (ns ++ ms) := by
  rcases h with ⟨n, hn, h0⟩ | h
  · exact .inl ⟨n, List.mem_append_left _ hn, h0⟩
  · refine .inr fun c hc => ?_
    obtain ⟨n, hn, rfl⟩ := h c hc
    exact ⟨n, List.mem_append_left _ hn, rfl⟩

/-- Nothing decides before a notice arrives, when a sub-task was issued. -/
theorem not_decided_nil {issued : List TaskId} (h : issued ≠ []) : ¬Decided issued [] := by
  obtain ⟨c, hc⟩ := List.exists_mem_of_ne_nil issued h
  rintro (⟨n, hn, -⟩ | hall)
  · exact absurd hn List.not_mem_nil
  · obtain ⟨n, hn, -⟩ := hall c hc
    exact absurd hn List.not_mem_nil

/-- As long as the count is not known, a sub-task is waited for. -/
theorem unnamed_ne_nil {issued : List TaskId} {ns : List Notice} (h : ¬Decided issued ns) :
    unnamed issued ns ≠ [] := by
  intro hnil
  refine h (.inr fun c hc => ?_)
  have := List.filter_eq_nil_iff.mp hnil c hc
  simpa using this

/-! ### One more notice -/

theorem mem_unnamed {issued : List TaskId} {ns : List Notice} {c : TaskId} :
    c ∈ unnamed issued ns ↔ c ∈ issued ∧ ∀ n ∈ ns, n.sub ≠ c := by
  simp [unnamed]

/-- One more notice takes the sub-task that it names off those that were not named. -/
theorem unnamed_append {issued : List TaskId} (hids : issued.Nodup) (ns : List Notice) (n : Notice) :
    unnamed issued (ns ++ [n]) = (unnamed issued ns).erase n.sub := by
  have hnodup : (unnamed issued ns).Nodup := hids.filter _
  rw [hnodup.erase_eq_filter, unnamed, unnamed, List.filter_filter]
  refine List.filter_congr fun c _ => ?_
  simp only [List.mem_append, List.mem_singleton, or_imp, forall_and, forall_eq, ne_eq, decide_not,
    Bool.decide_and]
  grind

/-- A sub-task that was named before keeps its first count. -/
theorem firstCount?_append_of_mem {ns : List Notice} {c : TaskId} (h : ∃ n ∈ ns, n.sub = c)
    (ms : List Notice) : firstCount? (ns ++ ms) c = firstCount? ns c := by
  obtain ⟨n, hn, hc⟩ := h
  have hsome : (ns.find? fun n => n.sub = c).isSome := by
    rw [List.find?_isSome]
    exact ⟨n, hn, by simpa using hc⟩
  rw [firstCount?, List.find?_append, Option.or_of_isSome hsome, firstCount?]

/-- A sub-task that is named now for the first time gets its count. -/
theorem firstCount?_append_of_not_mem {ns : List Notice} {n : Notice} {c : TaskId}
    (h : ∀ m ∈ ns, m.sub ≠ c) :
    firstCount? (ns ++ [n]) c = if n.sub = c then some n.count else none := by
  have hnone : (ns.find? fun n => n.sub = c) = none := by
    rw [List.find?_eq_none]
    simpa using h
  rw [firstCount?, List.find?_append, hnone, Option.none_or]
  by_cases hc : n.sub = c
  · simp [hc]
  · simp [hc]

theorem firstCount?_eq_none {ns : List Notice} {c : TaskId} (h : ∀ m ∈ ns, m.sub ≠ c) :
    firstCount? ns c = none := by
  rw [firstCount?, Option.map_eq_none_iff, List.find?_eq_none]
  simpa using h

/-- A notice that names no new sub-task leaves every first count as it is. -/
theorem firstCount?_append_of_ne {ns : List Notice} {n : Notice} {c : TaskId}
    (h : n.sub = c → ∃ m ∈ ns, m.sub = c) : firstCount? (ns ++ [n]) c = firstCount? ns c := by
  by_cases hc : ∃ m ∈ ns, m.sub = c
  · exact firstCount?_append_of_mem hc [n]
  · have hne : ∀ m ∈ ns, m.sub ≠ c := fun m hm hmc => hc ⟨m, hm, hmc⟩
    rw [firstCount?_append_of_not_mem hne, if_neg fun hn => hc (h hn), firstCount?_eq_none hne]

/-- The product changes by the count of the sub-task that is named for the first time. -/
theorem firstProduct_append_of_mem_unnamed {issued : List TaskId} (hids : issued.Nodup)
    {ns : List Notice} {n : Notice} (h : n.sub ∈ unnamed issued ns) :
    firstProduct issued (ns ++ [n]) = firstProduct issued ns * n.count := by
  obtain ⟨hmem, hne⟩ := mem_unnamed.mp h
  clear h
  unfold firstProduct
  induction issued with
  | nil => exact absurd hmem List.not_mem_nil
  | cons c cs ih =>
    obtain ⟨hc, hcs⟩ := List.nodup_cons.mp hids
    by_cases hsub : n.sub = c
    · -- the others keep their first counts, since each sub-task is issued once
      have hrest : cs.filterMap (firstCount? (ns ++ [n])) = cs.filterMap (firstCount? ns) :=
        List.filterMap_congr fun d hd =>
          firstCount?_append_of_ne fun hnd => absurd hd (hnd ▸ hsub ▸ hc)
      rw [List.filterMap_cons_some (by rw [firstCount?_append_of_not_mem (hsub ▸ hne), if_pos hsub]),
        List.filterMap_cons_none (firstCount?_eq_none (hsub ▸ hne)), hrest, List.prod_cons,
        Nat.mul_comm]
    · have hmem' : n.sub ∈ cs := (List.mem_cons.mp hmem).resolve_left hsub
      have hkeep : firstCount? (ns ++ [n]) c = firstCount? ns c :=
        firstCount?_append_of_ne fun hn => absurd hn hsub
      cases hfirst : firstCount? ns c with
      | none =>
        rw [List.filterMap_cons_none (hkeep.trans hfirst), List.filterMap_cons_none hfirst]
        exact ih hcs hmem'
      | some k =>
        rw [List.filterMap_cons_some (hkeep.trans hfirst), List.filterMap_cons_some hfirst,
          List.prod_cons, List.prod_cons, ih hcs hmem', Nat.mul_assoc]

/-- A notice that names no new issued sub-task leaves the product as it is. -/
theorem firstProduct_append_of_not_mem_unnamed {issued : List TaskId} {ns : List Notice} {n : Notice}
    (h : n.sub ∉ unnamed issued ns) : firstProduct issued (ns ++ [n]) = firstProduct issued ns := by
  unfold firstProduct
  rw [List.filterMap_congr fun c hc => firstCount?_append_of_ne fun hn => ?_]
  by_contra hnone
  exact h (mem_unnamed.mpr ⟨hn ▸ hc, fun m hm hmc => hnone ⟨m, hm, hmc.trans hn⟩⟩)

/-! ### The state after a history -/

theorem start_eq_waiting {children : List Task} (h : children ≠ []) :
    start children = waiting children [] := by
  have hempty : children.isEmpty = false := by simpa using h
  have hfirst : (children.map Task.id).filterMap (firstCount? []) = [] :=
    List.filterMap_eq_nil_iff.mpr fun _ _ => rfl
  simp [start, hempty, waiting, unnamed, firstProduct, hfirst]

section OneMore

variable {children : List Task} {ns : List Notice} {n : Notice}

/-- A zero decides the count of a task that waits. -/
theorem receive_waiting_of_zero (h0 : n.count = 0) :
    (waiting children ns).receive n.sub n.count = (.zero, concluded children ns n) := by
  rw [receive, isFinal_waiting, if_neg Bool.false_ne_true, if_pos h0, concluded, if_pos h0]

/-- A notice that names no sub-task that is waited for changes nothing. -/
theorem receive_waiting_of_not_mem (h0 : n.count ≠ 0)
    (h : n.sub ∉ unnamed (children.map Task.id) ns) :
    (waiting children ns).receive n.sub n.count = (.repeated, waiting children ns) := by
  rw [receive, isFinal_waiting, if_neg Bool.false_ne_true, if_neg h0, outstanding_waiting,
    if_pos h]

/-- The history with such a notice says what it said without. -/
theorem waiting_append_of_not_mem (hids : (children.map Task.id).Nodup)
    (h : n.sub ∉ unnamed (children.map Task.id) ns) :
    waiting children (ns ++ [n]) = waiting children ns := by
  have hphase : (∃ m ∈ ns ++ [n], m.sub ∈ children.map Task.id) ↔
      ∃ m ∈ ns, m.sub ∈ children.map Task.id := by
    refine ⟨?_, fun ⟨m, hm, hc⟩ => ⟨m, List.mem_append_left _ hm, hc⟩⟩
    rintro ⟨m, hm, hc⟩
    rcases List.mem_append.mp hm with hm | hm
    · exact ⟨m, hm, hc⟩
    · -- an issued sub-task that is not waited for was named before
      obtain rfl := List.mem_singleton.mp hm
      by_contra hnone
      exact h (mem_unnamed.mpr ⟨hc, fun k hk hkm => hnone ⟨k, hk, hkm ▸ hc⟩⟩)
  simp only [waiting, unnamed_append hids, List.erase_of_not_mem h,
    firstProduct_append_of_not_mem_unnamed h, hphase]

/-- The count of a sub-task that is waited for, when others are waited for as well. -/
theorem receive_waiting_of_mem (hids : (children.map Task.id).Nodup) (h0 : n.count ≠ 0)
    (h : n.sub ∈ unnamed (children.map Task.id) ns)
    (hmore : unnamed (children.map Task.id) (ns ++ [n]) ≠ []) :
    (waiting children ns).receive n.sub n.count = (.counted, waiting children (ns ++ [n])) := by
  have hphase : ∃ m ∈ ns ++ [n], m.sub ∈ children.map Task.id :=
    ⟨n, List.mem_append_right _ (List.mem_singleton_self n), (mem_unnamed.mp h).1⟩
  rw [unnamed_append hids] at hmore
  rw [receive, isFinal_waiting, if_neg Bool.false_ne_true, if_neg h0, outstanding_waiting,
    if_neg (not_not.mpr h)]
  simp only [waiting, unnamed_append hids, firstProduct_append_of_mem_unnamed hids h,
    List.isEmpty_iff, if_neg hmore, if_pos hphase]

/-- The count of the last sub-task that is waited for. -/
theorem receive_waiting_of_last (hids : (children.map Task.id).Nodup) (h0 : n.count ≠ 0)
    (h : n.sub ∈ unnamed (children.map Task.id) ns)
    (hlast : unnamed (children.map Task.id) (ns ++ [n]) = []) :
    (waiting children ns).receive n.sub n.count =
      (.last (firstProduct (children.map Task.id) (ns ++ [n])), concluded children ns n) := by
  rw [unnamed_append hids] at hlast
  rw [receive, isFinal_waiting, if_neg Bool.false_ne_true, if_neg h0, outstanding_waiting,
    if_neg (not_not.mpr h)]
  simp only [product_waiting, firstProduct_append_of_mem_unnamed hids h, List.isEmpty_iff, hlast, concluded,
    if_neg h0, if_true]

/-- **One notice in a waiting state.**  Either the count is still not known, and the state is that of the
longer history; or the notice has decided it. -/
theorem receive_waiting (hids : (children.map Task.id).Nodup)
    (h : ¬Decided (children.map Task.id) ns) :
    (¬Decided (children.map Task.id) (ns ++ [n]) ∧
      ((waiting children ns).receive n.sub n.count).1.completion = .pending ∧
      ((waiting children ns).receive n.sub n.count).2 = waiting children (ns ++ [n])) ∨
    (Decided (children.map Task.id) (ns ++ [n]) ∧
      ((waiting children ns).receive n.sub n.count).1.completion =
        .done (concluded children ns n).product ∧
      ((waiting children ns).receive n.sub n.count).2 = concluded children ns n) := by
  by_cases h0 : n.count = 0
  · have hdec : Decided (children.map Task.id) (ns ++ [n]) :=
      .inl ⟨n, List.mem_append_right _ (List.mem_singleton_self n), h0⟩
    rw [receive_waiting_of_zero h0]
    refine .inr ⟨hdec, ?_, rfl⟩
    rw [concluded, if_pos h0]
    rfl
  · -- without a zero, the count is known exactly if nothing is waited for
    have hdec : Decided (children.map Task.id) (ns ++ [n]) ↔
        unnamed (children.map Task.id) (ns ++ [n]) = [] := by
      refine ⟨?_, fun hnil => by_contra fun hn => unnamed_ne_nil hn hnil⟩
      rintro (⟨m, hm, hm0⟩ | hall)
      · rcases List.mem_append.mp hm with hm | hm
        · exact absurd (.inl ⟨m, hm, hm0⟩) h
        · exact absurd (List.mem_singleton.mp hm ▸ hm0) h0
      · refine List.filter_eq_nil_iff.mpr fun c hc => ?_
        obtain ⟨m, hm, hmc⟩ := hall c hc
        simpa only [decide_eq_true_eq, not_forall, not_not] using ⟨m, hm, hmc⟩
    by_cases hmem : n.sub ∈ unnamed (children.map Task.id) ns
    · by_cases hlast : unnamed (children.map Task.id) (ns ++ [n]) = []
      · rw [receive_waiting_of_last hids h0 hmem hlast]
        refine .inr ⟨hdec.mpr hlast, ?_, rfl⟩
        rw [concluded, if_neg h0]
        rfl
      · rw [receive_waiting_of_mem hids h0 hmem hlast]
        exact .inl ⟨fun hd => hlast (hdec.mp hd), rfl, rfl⟩
    · have hmore : unnamed (children.map Task.id) (ns ++ [n]) ≠ [] := by
        rw [unnamed_append hids, List.erase_of_not_mem hmem]
        exact unnamed_ne_nil h
      rw [receive_waiting_of_not_mem h0 hmem, waiting_append_of_not_mem hids hmem]
      exact .inl ⟨fun hd => hmore (hdec.mp hd), rfl, rfl⟩

end OneMore

/-- **The state is a function of the history.**  While the count is not known it is the waiting state of
the history.  Otherwise one notice of the history, the first after which the count is known, has decided
it. -/
theorem receiveAll_start {children : List Task} (hids : (children.map Task.id).Nodup)
    (hne : children ≠ []) (ns : List Notice) :
    (¬Decided (children.map Task.id) ns ∧
      (start children).receiveAll ns = waiting children ns) ∨
    ∃ before n after, ns = before ++ n :: after ∧ ¬Decided (children.map Task.id) before ∧
      Decided (children.map Task.id) (before ++ [n]) ∧
      (start children).receiveAll ns = concluded children before n := by
  induction ns using List.reverseRecOn with
  | nil =>
    have hissued : children.map Task.id ≠ [] := by simpa using hne
    exact .inl ⟨not_decided_nil hissued, start_eq_waiting hne⟩
  | append_singleton ns n ih =>
    rw [receiveAll_append, receiveAll_cons, receiveAll_nil]
    rcases ih with ⟨hd, heq⟩ | ⟨before, m, after, rfl, hd, hd', heq⟩
    · rw [heq]
      rcases receive_waiting (n := n) hids hd with ⟨hd', -, hstate⟩ | ⟨hd', -, hstate⟩
      · exact .inl ⟨hd', hstate⟩
      · exact .inr ⟨ns, n, [], rfl, hd, hd', hstate⟩
    · refine .inr ⟨before, m, after ++ [n], by simp, hd, hd', ?_⟩
      rw [heq, receive_of_isFinal (isFinal_concluded children before m)]

section Answers

variable {children : List Task} (hids : (children.map Task.id).Nodup) (hne : children ≠ [])

include hids hne

/-- As long as the count is not known, the state is the waiting state of the history. -/
theorem receiveAll_of_not_decided {ns : List Notice} (h : ¬Decided (children.map Task.id) ns) :
    (start children).receiveAll ns = waiting children ns := by
  rcases receiveAll_start hids hne ns with ⟨-, heq⟩ | ⟨before, n, after, rfl, -, hd, -⟩
  · exact heq
  · refine absurd (hd.append after) ?_
    rwa [List.append_assoc, List.singleton_append]

/-- The count is final exactly if it is known. -/
theorem isFinal_receiveAll_iff (ns : List Notice) :
    ((start children).receiveAll ns).isFinal = true ↔ Decided (children.map Task.id) ns := by
  rcases receiveAll_start hids hne ns with ⟨hd, heq⟩ | ⟨before, n, after, rfl, -, hd, heq⟩
  · rw [heq, isFinal_waiting]
    exact iff_of_false Bool.false_ne_true hd
  · have hall := hd.append after
    rw [List.append_assoc, List.singleton_append] at hall
    rw [heq, isFinal_concluded]
    exact iff_of_true rfl hall

/-- A notice after which the count is not known is answered by waiting on. -/
theorem completion_of_not_decided {ns : List Notice} {n : Notice}
    (h : ¬Decided (children.map Task.id) (ns ++ [n])) :
    (((start children).receiveAll ns).receive n.sub n.count).1.completion = .pending := by
  have hns : ¬Decided (children.map Task.id) ns := fun hd => h (hd.append [n])
  rw [receiveAll_of_not_decided hids hne hns]
  rcases receive_waiting (n := n) hids hns with ⟨-, hc, -⟩ | ⟨hd, -⟩
  · exact hc
  · exact absurd hd h

/-- The notice that decides the count is answered with it. -/
theorem completion_of_decides {ns : List Notice} {n : Notice}
    (h : ¬Decided (children.map Task.id) ns) (hd : Decided (children.map Task.id) (ns ++ [n])) :
    (((start children).receiveAll ns).receive n.sub n.count).1.completion =
      .done (concluded children ns n).product := by
  rw [receiveAll_of_not_decided hids hne h]
  rcases receive_waiting (n := n) hids h with ⟨hnot, -⟩ | ⟨-, hc, -⟩
  · exact absurd hd hnot
  · exact hc

/-- A notice that comes after the count is known is answered by nothing new. -/
theorem completion_of_decided {ns : List Notice} (h : Decided (children.map Task.id) ns)
    (n : Notice) :
    (((start children).receiveAll ns).receive n.sub n.count).1.completion = .pending := by
  rw [receive_of_isFinal ((isFinal_receiveAll_iff hids hne ns).mpr h)]
  rfl

end Answers

end Aggregation

end SmtCount
