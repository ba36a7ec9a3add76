import Mathlib
import SmtCount.Proofs.Aggregator.Notices
import SmtCount.Proofs.Aggregator.Runs
import SmtCount.Proofs.Evaluation

/-!
# Counting a task by its factors

A host that asks for the sub-tasks of a task, counts the models of each, and reports the counts in any
order and any number of times, is told the number of models of the task, and never another number.

## Main definitions

* `Aggregation.answers a ns` — what the notices `ns` are answered with.
* `Truthful children count ns` — every notice reports a sub-task with its count.
* `reportAll` — reports one count after another.

## Main results

* `Aggregation.mem_answers` — an answer is what one notice of the history is answered with.
* `concluded_product_of_truthful` — truthful notices decide on the product of the counts.
* `counted_by_factors` — **counting by factors is exact**, from the request to the last report.
-/

namespace SmtCount

open Aggregation (Notice Decided firstCount? firstProduct concluded)

/-! ### Answers -/

namespace Aggregation

/-- What notices are answered with, one after another. -/
def answers (a : Aggregation) : List Notice → List Completion
  | [] => []
  | n :: ns => (a.receive n.sub n.count).1.completion :: answers (a.receive n.sub n.count).2 ns

/-- An answer is what one notice of the history is answered with. -/
theorem mem_answers {a : Aggregation} {ns : List Notice} {c : Completion} :
    c ∈ a.answers ns ↔ ∃ before n after, ns = before ++ n :: after ∧
      c = ((a.receiveAll before).receive n.sub n.count).1.completion := by
  induction ns generalizing a with
  | nil => simp [answers]
  | cons n ns ih =>
    rw [answers, List.mem_cons, ih]
    constructor
    · rintro (rfl | ⟨before, m, after, rfl, rfl⟩)
      · exact ⟨[], n, ns, rfl, rfl⟩
      · exact ⟨n :: before, m, after, rfl, rfl⟩
    · rintro ⟨_ | ⟨k, before⟩, m, after, heq, rfl⟩
      · obtain ⟨rfl, rfl⟩ := List.cons.inj heq
        exact .inl rfl
      · obtain ⟨rfl, rfl⟩ := List.cons.inj heq
        exact .inr ⟨before, m, after, rfl, rfl⟩

end Aggregation

/-! ### Truthful notices -/

/-- Does every notice report one of the sub-tasks, with its count? -/
def Truthful (children : List Task) (count : Task → Nat) (ns : List Notice) : Prop :=
  ∀ n ∈ ns, ∃ c ∈ children, n.sub = c.id ∧ n.count = count c

section Truthful

variable {children : List Task} {count : Task → Nat} {ns : List Notice}

/-- A sub-task is the only one with its identity. -/
theorem eq_of_id_eq (hids : (children.map Task.id).Nodup) {c d : Task} (hc : c ∈ children)
    (hd : d ∈ children) (h : c.id = d.id) : c = d :=
  List.inj_on_of_nodup_map hids hc hd h

theorem firstCount?_of_truthful (hids : (children.map Task.id).Nodup) (h : Truthful children count ns)
    {c : Task} (hc : c ∈ children) (hnamed : ∃ n ∈ ns, n.sub = c.id) :
    firstCount? ns c.id = some (count c) := by
  obtain ⟨n, hn, hnc⟩ := hnamed
  have hsome : (ns.find? fun n => n.sub = c.id).isSome := by
    rw [List.find?_isSome]
    exact ⟨n, hn, by simpa using hnc⟩
  obtain ⟨m, hm⟩ := Option.isSome_iff_exists.mp hsome
  obtain ⟨d, hd, hmd, hcount⟩ := h m (List.mem_of_find?_eq_some hm)
  have hmc : m.sub = c.id := by simpa using List.find?_some hm
  have hdc : d = c := eq_of_id_eq hids hd hc (hmd.symm.trans hmc)
  rw [firstCount?, hm, Option.map_some, hcount, hdc]

/-- When every sub-task has been named, the product is that of all counts. -/
theorem firstProduct_of_truthful (hids : (children.map Task.id).Nodup) (h : Truthful children count ns)
    (hnamed : ∀ c ∈ children.map Task.id, ∃ n ∈ ns, n.sub = c) :
    firstProduct (children.map Task.id) ns = (children.map count).prod := by
  have hfirst : (children.map Task.id).filterMap (firstCount? ns) = children.map count := by
    rw [List.filterMap_map, ← List.filterMap_eq_map]
    refine List.filterMap_congr fun c hc => ?_
    exact firstCount?_of_truthful hids h hc (hnamed c.id (List.mem_map_of_mem hc))
  rw [firstProduct, hfirst]

/-- **Truthful notices decide on the product of the counts**, be it early by a zero or in the end. -/
theorem concluded_product_of_truthful (hids : (children.map Task.id).Nodup) {n : Notice}
    (h : Truthful children count (ns ++ [n])) (hbefore : ¬Decided (children.map Task.id) ns)
    (hdecided : Decided (children.map Task.id) (ns ++ [n])) :
    (concluded children ns n).product = (children.map count).prod := by
  unfold concluded
  split
  · rename_i h0
    obtain ⟨c, hc, -, hcount⟩ := h n (List.mem_append_right _ (List.mem_singleton_self n))
    have hmem : 0 ∈ children.map count := List.mem_map.mpr ⟨c, hc, hcount.symm.trans h0⟩
    exact (List.prod_eq_zero hmem).symm
  · rename_i h0
    refine firstProduct_of_truthful hids h ?_
    rcases hdecided with ⟨m, hm, hm0⟩ | hall
    · -- the zero is neither the last notice nor an earlier one
      rcases List.mem_append.mp hm with hm | hm
      · exact absurd (.inl ⟨m, hm, hm0⟩) hbefore
      · exact absurd (List.mem_singleton.mp hm ▸ hm0) h0
    · exact hall

theorem Truthful.of_append {ms : List Notice} (h : Truthful children count (ns ++ ms)) :
    Truthful children count ns :=
  fun n hn => h n (List.mem_append_left ms hn)

/-- Without sub-tasks there is nothing to report. -/
theorem Truthful.eq_nil (h : Truthful [] count ns) : ns = [] := by
  refine List.eq_nil_iff_forall_not_mem.mpr fun n hn => ?_
  obtain ⟨c, hc, -⟩ := h n hn
  exact absurd hc List.not_mem_nil

/-- Truthful notices are never answered with another count. -/
theorem eq_of_done_mem_answers (hids : (children.map Task.id).Nodup) (h : Truthful children count ns)
    {v : Nat} (hv : .done v ∈ (Aggregation.start children).answers ns) :
    v = (children.map count).prod := by
  obtain ⟨before, n, after, rfl, hc⟩ := Aggregation.mem_answers.mp hv
  have hne : children ≠ [] := by
    rintro rfl
    exact absurd h.eq_nil (by simp)
  by_cases hbefore : Decided (children.map Task.id) before
  · rw [Aggregation.completion_of_decided hids hne hbefore] at hc
    cases hc
  · by_cases hdecided : Decided (children.map Task.id) (before ++ [n])
    · rw [Aggregation.completion_of_decides hids hne hbefore hdecided] at hc
      rw [Completion.done.inj hc]
      have hsplit : Truthful children count (before ++ [n] ++ after) := by simpa using h
      exact concluded_product_of_truthful hids hsplit.of_append hbefore hdecided
    · rw [Aggregation.completion_of_not_decided hids hne hdecided] at hc
      cases hc

/-- Truthful notices that decide the count are answered with it, and it stays. -/
theorem done_of_decided (hids : (children.map Task.id).Nodup) (hne : children ≠ [])
    (h : Truthful children count ns)
    (hdecided : Decided (children.map Task.id) ns) (task : TaskId) :
    .done (children.map count).prod ∈ (Aggregation.start children).answers ns ∧
      ((Aggregation.start children).receiveAll ns).conclude task = .done (children.map count).prod := by
  rcases Aggregation.receiveAll_start hids hne ns with ⟨hnot, -⟩ | ⟨before, n, after, rfl, hb, hd, hstate⟩
  · exact absurd hdecided hnot
  · have hproduct : (concluded children before n).product = (children.map count).prod := by
      have hsplit : Truthful children count (before ++ [n] ++ after) := by simpa using h
      exact concluded_product_of_truthful hids hsplit.of_append hb hd
    constructor
    · refine Aggregation.mem_answers.mpr ⟨before, n, after, rfl, ?_⟩
      rw [Aggregation.completion_of_decides hids hne hb hd, hproduct]
    · rw [hstate, Aggregation.conclude, Aggregation.isFinal_concluded, if_pos rfl, hproduct]

end Truthful

namespace Aggregator

/-! ### From the request to the last report -/

/-- Reports counts for a task, one after another, and collects the answers. -/
def reportAll (task : TaskId) : List Notice → Action (List Completion)
  | [] => pure []
  | n :: ns => do
    let c ← childDone task n.sub n.count
    let cs ← reportAll task ns
    pure (c :: cs)

/-- The reports are answered by the aggregation of the task. -/
theorem reportAll_of_entry {s : Aggregator} {task : TaskId} {e : Entry}
    (h : s.entries.get? task = some e) (ns : List Notice) :
    (reportAll task ns).Ensures s fun cs t => cs = e.aggregation.answers ns ∧
      t.entries.get? task = some { e with aggregation := e.aggregation.receiveAll ns } := by
  induction ns generalizing s e with
  | nil => exact ⟨rfl, h⟩
  | cons n ns ih =>
    refine (childDone_of_entry h n.sub n.count).bind ?_
    rintro _ t ⟨rfl, ht⟩
    refine (ih ht).bind ?_
    rintro _ u ⟨rfl, hu⟩
    exact ⟨rfl, hu⟩

/-- **Counting by factors is exact.**  After the first request for a task, sub-tasks are reported with
their counts, in any order and any number of times.  No report is answered with another count than that
of the task; once every sub-task or one without models has been reported, some report was answered with
the count of the task, and it stays.  When there is no sub-task, the count is one. -/
theorem counted_by_factors {Value : Type} (sem : TruthSemantics Value)
    (domain : Variable → Finset Value) {s : Aggregator} (hs : Reachable s) (task : Task)
    (hfresh : s.entries.get? task.id = none) (ns : List Notice)
    (htrue : Truthful (request task s).1 (fun c => sem.count domain c.expression) ns) :
    let issued := (request task s).1
    let answers := (reportAll task.id ns (request task s).2.1).1
    let after := (reportAll task.id ns (request task s).2.1).2.1
    let count := sem.count domain task.expression
    (∀ v, .done v ∈ answers → v = count) ∧
      (issued ≠ [] → Decided (issued.map Task.id) ns →
        .done count ∈ answers ∧ (allChildrenDone task.id .pending after).1 = .done count) ∧
      (issued = [] → (allChildrenDone task.id .pending after).1 = .done 1 ∧ count = 1) := by
  have hissued := request_of_no_entry hs.soundContexts hfresh
  obtain ⟨hids, ⟨context, hcontext, hfactors⟩, hentry⟩ := hissued
  obtain ⟨hanswers, hafter⟩ := reportAll_of_entry hentry ns
  have hcount : sem.count domain task.expression =
      ((request task s).1.map fun c => sem.count domain c.expression).prod := by
    rw [sem.count_eq_prod_factors domain task.expression hcontext, ← hfactors, List.map_map]
    rfl
  intro issued answers after count
  rw [show count = _ from hcount, show answers = _ from hanswers, allChildrenDone_of_entry hafter]
  refine ⟨fun v hv => eq_of_done_mem_answers hids htrue hv,
    fun hne hdecided => done_of_decided hids hne htrue hdecided task.id, fun hnone => ?_⟩
  have hissued : (request task s).1 = [] := hnone
  rw [hissued] at htrue ⊢
  rw [htrue.eq_nil]
  exact ⟨rfl, rfl⟩

/-- One side of a branch, below a task that says more: `m < 1` with a repeat and a literal `true`, and
`n ≠ 0`. -/
def branchTask : Task :=
  let m : Expr := .var ⟨"m", .int, by decide⟩
  let n : Expr := .var ⟨"n", .int, by decide⟩
  .mk ⟨2⟩ "branch" (some (.mk ⟨1⟩ "branch" none (.rel .lt m n)))
    (.and [.rel .lt m (.const (.int 1)), .and [.tt, .rel .ne n (.const (.int 0))],
      .rel .lt m (.const (.int 1))])

/-- An aggregator whose host has made `branchTask` and the task above it. -/
def branchState : Aggregator := { nextTask := 3 }

/-- The models of the sub-tasks of `branchTask` among the integers from `-2` to `2`, reported in
reverse, and then once more. -/
noncomputable def branchReports : List Notice :=
  let issued := (request branchTask branchState).1
  (issued.reverse ++ issued).map fun c =>
    ⟨c.id, integers.count (fun _ => Finset.Icc (-2) 2) c.expression⟩

theorem branch_counted_by_factors :
    let domain : Variable → Finset Int := fun _ => Finset.Icc (-2) 2
    let told := reportAll ⟨2⟩ branchReports (request branchTask branchState).2.1
    (request branchTask branchState).1.map Task.id = [⟨3⟩, ⟨4⟩] ∧
      .done (integers.count domain branchTask.expression) ∈ told.1 ∧
      (allChildrenDone ⟨2⟩ .pending told.2.1).1 =
        .done (integers.count domain branchTask.expression) := by
  have hstate : Reachable branchState := .newTask "" none .tt (.newTask "" none .tt .new)
  have hids : (request branchTask branchState).1.map Task.id = [⟨3⟩, ⟨4⟩] := by decide +kernel
  have htrue : Truthful (request branchTask branchState).1
      (fun c => integers.count (fun _ => Finset.Icc (-2) 2) c.expression) branchReports := by
    intro n hn
    obtain ⟨c, hc, rfl⟩ := List.mem_map.mp hn
    exact ⟨c, by simpa using hc, rfl, rfl⟩
  have hne : (request branchTask branchState).1 ≠ [] := by
    intro hnil
    rw [hnil] at hids
    cases hids
  have hdecided : Decided ((request branchTask branchState).1.map Task.id) branchReports := by
    refine .inr fun id hid => ?_
    obtain ⟨c, hc, rfl⟩ := List.mem_map.mp hid
    exact ⟨_, List.mem_map_of_mem (List.mem_append_right _ hc), rfl⟩
  exact ⟨hids, (counted_by_factors integers (fun _ => Finset.Icc (-2) 2) hstate branchTask rfl
    branchReports htrue).2.1 hne hdecided⟩

end Aggregator

end SmtCount
