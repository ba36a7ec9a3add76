import Mathlib
import SmtCount.Proofs.Aggregator.Counts
import SmtCount.Proofs.Aggregator.Histories
import SmtCount.Proofs.Aggregator.References

/-!
# The final check

When a host believes every sub-task of a task to have reported, it asks how the task stands.  By then the
sub-tasks of a settled task are dropped, and nothing but its phase and a product is left to answer from.
Still the answer agrees with what the notifications were answered with: a count is given exactly if it was
given before, to one of them, and otherwise the host learns how many sub-tasks were not heard of.

What counts is the time since the task was registered.  A task that is forgotten and requested again starts
anew, with new sub-tasks.

## Main definitions

* `Completion.count?` — the count that the host is told, if it is told one.
* `FinalCheck` — how the final check on a task agrees with the notices since its registration.
* `History.tenure u` — what was said about a task since it was registered.

## Main results

* `finalCheck_conclude` — an aggregation under any notices, checked.
* `Happens.checksOut` — **operations one after another**: every registered task, at any point.
* `Workers.checksOut` — **operations at the same time**: every registered task, at any point.
* `finalCheck_agrees` — the final check **agrees with the notifications**, in both, and changes nothing.
-/

namespace SmtCount

/-- The count that the host is told, if it is told one. -/
def Completion.count? : Completion → Option Nat
  | .done count => some count
  | .pending | .failed _ => none

open Aggregation (Notice Decided unnamed)

/-! ### One aggregation -/

namespace Aggregation

variable {a : Aggregation}

/-- **One notice**: it is answered with a count exactly if it makes the count final, and then with the product
that is kept. -/
theorem count?_receive (h : a.isFinal = false) (sub : TaskId) (count : Nat) :
    (a.receive sub count).1.completion.count? =
      if (a.receive sub count).2.isFinal then some (a.receive sub count).2.product else none := by
  have hsettled {phase : Phase} (hphase : phase.isFinal = true) (product : Nat) :
      some product =
        if (settled phase product).isFinal then some (settled phase product).product else none := by
    rw [if_pos (isFinal_settled hphase product)]
    rfl
  have hwaits {b : Aggregation} (hb : b.isFinal = false) :
      none = if b.isFinal then some b.product else none := by
    rw [hb, if_neg Bool.false_ne_true]
  unfold receive
  rw [h, if_neg Bool.false_ne_true]
  split
  · exact hsettled rfl 0
  split
  · exact hwaits h
  dsimp only
  split
  · exact hsettled rfl _
  · exact hwaits rfl

theorem answers_append (a : Aggregation) (ns ms : List Notice) :
    a.answers (ns ++ ms) = a.answers ns ++ (a.receiveAll ns).answers ms := by
  induction ns generalizing a with
  | nil => rfl
  | cons n ns ih => rw [List.cons_append, answers, ih, answers, receiveAll_cons, List.cons_append]

/-- Once the count is final, no notice is answered with one. -/
theorem counts_answers_of_isFinal (h : a.isFinal = true) (ns : List Notice) :
    (a.answers ns).filterMap Completion.count? = [] := by
  induction ns with
  | nil => rfl
  | cons n ns ih =>
    rw [answers, receive_of_isFinal h]
    exact ih

/-- **All notices**: one of them is answered with the product that is kept, if it is final in the end, and
otherwise none is answered with a count. -/
theorem counts_answers (h : a.isFinal = false) (ns : List Notice) :
    (a.answers ns).filterMap Completion.count? =
      if (a.receiveAll ns).isFinal then [(a.receiveAll ns).product] else [] := by
  induction ns generalizing a with
  | nil =>
    rw [receiveAll_nil, h, if_neg Bool.false_ne_true]
    rfl
  | cons n ns ih =>
    rw [answers, receiveAll_cons]
    cases hnext : (a.receive n.sub n.count).2.isFinal with
    | false =>
      rw [List.filterMap_cons_none (by rw [count?_receive h, hnext, if_neg Bool.false_ne_true])]
      exact ih hnext
    | true =>
      -- this notice decides, and what comes after it changes nothing
      have hstays : (a.receive n.sub n.count).2.receiveAll ns = (a.receive n.sub n.count).2 := by
        clear ih
        induction ns with
        | nil => rfl
        | cons m ns ih => rw [receiveAll_cons, receive_of_isFinal hnext, ih]
      rw [List.filterMap_cons_some (by rw [count?_receive h, hnext, if_pos rfl]),
        counts_answers_of_isFinal hnext, hstays, hnext, if_pos rfl]

end Aggregation

/-- How the final check on a task agrees with the notices `ns` that came since it was registered with the
sub-tasks `issued`, and with the counts `told` that they were answered with. -/
structure FinalCheck (task : TaskId) (issued : List TaskId) (ns : List Notice) (told : List Nat)
    (final : Bool) (check : Completion) : Prop where
  /-- A count is given exactly if it is final. -/
  done_iff : (∃ count, check = .done count) ↔ final = true
  /-- It is the one count that the host was told; a task without sub-tasks has count one from the start. -/
  count_told : ∀ count, check = .done count → if issued = [] then told = [] ∧ count = 1 else told = [count]
  /-- Otherwise no count was told, and the sub-tasks that were not named are said to be lost, of which there is
  one. -/
  lost : final = false → told = [] ∧ 0 < (unnamed issued ns).length ∧
    check = .failed (.lostNotifications task (unnamed issued ns).length)

/-- **One aggregation**, checked after any notices. -/
theorem finalCheck_conclude (task : TaskId) {children : List Task} (hids : (children.map Task.id).Nodup)
    (ns : List Notice) :
    FinalCheck task (children.map Task.id) ns
      (((Aggregation.start children).answers ns).filterMap Completion.count?)
      ((Aggregation.start children).receiveAll ns).isFinal
      (((Aggregation.start children).receiveAll ns).conclude task) := by
  set a := (Aggregation.start children).receiveAll ns with ha
  have hdone (hfinal : a.isFinal = true) : a.conclude task = .done a.product := by
    rw [Aggregation.conclude, hfinal, if_pos rfl]
  have hfailed (hfinal : a.isFinal = false) :
      a.conclude task = .failed (.lostNotifications task a.outstanding.length) := by
    rw [Aggregation.conclude, hfinal, if_neg Bool.false_ne_true]
  by_cases hne : children = []
  · -- without sub-tasks the count is final from the start
    subst hne
    have hstart : a = Aggregation.settled .complete 1 := by
      rw [ha]
      clear hdone hfailed ha
      induction ns with
      | nil => rfl
      | cons n ns ih => exact ih
    have hfinal : a.isFinal = true := hstart ▸ rfl
    refine ⟨⟨fun _ => hfinal, fun _ => ⟨_, hdone hfinal⟩⟩, fun count hcount => ?_, fun h => ?_⟩
    · rw [hdone hfinal, hstart] at hcount
      refine (if_pos rfl).mpr ⟨?_, (Completion.done.inj hcount).symm⟩
      exact Aggregation.counts_answers_of_isFinal (a := Aggregation.start []) rfl ns
    · rw [hfinal] at h
      cases h
  · have hwaits : (Aggregation.start children).isFinal = false := by
      rw [Aggregation.start_eq_waiting hne, Aggregation.isFinal_waiting]
    have htold := Aggregation.counts_answers hwaits ns
    rw [← ha] at htold
    have hissued : children.map Task.id ≠ [] := fun h => hne (List.map_eq_nil_iff.mp h)
    cases hfinal : a.isFinal with
    | true =>
      rw [hfinal, if_pos rfl] at htold
      refine ⟨⟨fun _ => rfl, fun _ => ⟨_, hdone hfinal⟩⟩, fun count hcount => ?_, fun h => Bool.noConfusion h⟩
      rw [hdone hfinal] at hcount
      rw [if_neg hissued, htold, Completion.done.inj hcount]
    | false =>
      rw [hfinal, if_neg Bool.false_ne_true] at htold
      have hopen : ¬Decided (children.map Task.id) ns := by
        rw [← Aggregation.isFinal_receiveAll_iff hids hne, ← ha, hfinal]
        exact Bool.false_ne_true
      have houtstanding : a.outstanding = unnamed (children.map Task.id) ns := by
        rw [ha, Aggregation.receiveAll_of_not_decided hids hne hopen, Aggregation.outstanding_waiting]
      have hcheck := hfailed hfinal
      rw [houtstanding] at hcheck
      refine ⟨⟨fun hexists => ?_, fun h => Bool.noConfusion h⟩, fun count hcount => ?_, fun _ => ?_⟩
      · obtain ⟨count, hcount⟩ := hexists
        rw [hcheck] at hcount
        cases hcount
      · rw [hcheck] at hcount
        cases hcount
      · exact ⟨htold, List.length_pos_iff.mpr (Aggregation.unnamed_ne_nil hopen), hcheck⟩

namespace Aggregator

/-! ### The check itself -/

/-- The check changes nothing. -/
theorem state_allChildrenDone (s : Aggregator) (task : TaskId) (last : Completion) :
    (allChildrenDone task last s).2.1 = s :=
  (allChildrenDone_gives s task last).2.symm

/-- The check on a task that has an entry is never answered as if the task were unknown. -/
theorem conclude_ne_unknownTask (a : Aggregation) (task t : TaskId) :
    a.conclude task ≠ .failed (.unknownTask t) := by
  unfold Aggregation.conclude
  split <;> exact fun h => nomatch h

/-- A task is unknown exactly if it has no entry. -/
theorem allChildrenDone_eq_unknownTask_iff (s : Aggregator) (task : TaskId) :
    (allChildrenDone task .pending s).1 = .failed (.unknownTask task) ↔ s.entries.get? task = none := by
  cases he : s.entries.get? task with
  | none =>
    have hanswer := (allChildrenDone_gives s task .pending).1
    rw [kept, he] at hanswer
    exact iff_of_true (Reply.completion.inj (Prod.mk.inj (Option.some.inj hanswer)).1).symm rfl
  | some e =>
    rw [allChildrenDone_of_entry he]
    exact iff_of_false (conclude_ne_unknownTask _ _ _) (Option.some_ne_none e)

/-! ### Operations one after another -/

/-- What was said about a task since it was registered, when one more exchange follows: forgetting the task
ends the time of its registration, and a request begins it. -/
def Exchange.extend (xs : List Exchange) (x : Exchange) : List Exchange :=
  match x.ask with
  | .forget => []
  | .request => xs ++ [x]
  | _ => if xs.isEmpty then [] else xs ++ [x]

/-- What was said about a task since it was registered, from the request that registered it; nothing, if it is
not registered. -/
def History.tenure (u : Task) (h : History) : List Exchange :=
  (h.about u).foldl Exchange.extend []

/-- The notification in an exchange. -/
def Exchange.notice? (x : Exchange) : Option Notice :=
  match x.ask with
  | .childDone sub count => some ⟨sub, count⟩
  | _ => none

/-- The count that a notification was answered with, if it was answered with one. -/
def Exchange.told? (x : Exchange) : Option Nat :=
  match x.ask, x.reply with
  | .childDone _ _, .completion c => c.count?
  | _, _ => none

/-- What was said about a task since its registration explains what is kept for it. -/
inductive Tenure (u : Task) : List Exchange → Option Aggregation → Prop
  | unregistered : Tenure u [] none
  | registered {children : List Task} {later : List Exchange} (hids : (children.map Task.id).Nodup)
      (htold : later.filterMap Exchange.told? =
        ((Aggregation.start children).answers (later.filterMap Exchange.notice?)).filterMap
          Completion.count?) :
      Tenure u (⟨u, .request, .children children⟩ :: later)
        (some ((Aggregation.start children).receiveAll (later.filterMap Exchange.notice?)))

/-- What is kept for a registered task. -/
theorem Tenure.exists_registered {u : Task} {xs : List Exchange} {a : Aggregation} (h : Tenure u xs (some a)) :
    ∃ children later, xs = ⟨u, .request, .children children⟩ :: later ∧ (children.map Task.id).Nodup ∧
      a = (Aggregation.start children).receiveAll (later.filterMap Exchange.notice?) ∧
      later.filterMap Exchange.told? =
        ((Aggregation.start children).answers (later.filterMap Exchange.notice?)).filterMap
          Completion.count? := by
  generalize hkept : some a = kept at h
  cases h with
  | unregistered => cases hkept
  | @registered children later hids htold =>
    exact ⟨children, later, rfl, hids, Option.some.inj hkept, htold⟩

/-- One more exchange about a registered task, which may be a notification and its answer. -/
theorem Tenure.append {u : Task} {xs : List Exchange} {a : Aggregation} (h : Tenure u xs (some a))
    {x : Exchange}
    (htold : x.told?.toList = (a.answers x.notice?.toList).filterMap Completion.count?) :
    Tenure u (xs ++ [x]) (some (a.receiveAll x.notice?.toList)) := by
  obtain ⟨children, later, rfl, hids, rfl, hlater⟩ := h.exists_registered
  have hnotices : (later ++ [x]).filterMap Exchange.notice? =
      later.filterMap Exchange.notice? ++ x.notice?.toList := by
    rw [List.filterMap_append, List.filterMap_cons]
    cases x.notice? <;> rfl
  have htolds : (later ++ [x]).filterMap Exchange.told? =
      later.filterMap Exchange.told? ++ x.told?.toList := by
    rw [List.filterMap_append, List.filterMap_cons]
    cases x.told? <;> rfl
  rw [← Aggregation.receiveAll_append, ← hnotices]
  refine .registered hids ?_
  show (later ++ [x]).filterMap Exchange.told? = _
  rw [htolds, hlater, htold, ← List.filterMap_append, ← Aggregation.answers_append, ← hnotices]
  rfl

theorem Exchange.extend_of_ne_nil {xs : List Exchange} (hxs : xs ≠ []) {x : Exchange}
    (hx : x.ask ≠ .forget) : Exchange.extend xs x = xs ++ [x] := by
  have hempty : xs.isEmpty = false := by simpa using hxs
  unfold extend
  split
  · exact absurd ‹_› hx
  · rfl
  · rw [hempty, if_neg Bool.false_ne_true]

/-- **One exchange** that is answered from what is kept. -/
theorem Tenure.answer {u : Task} {xs : List Exchange} {kept kept' : Option Aggregation} {ask : Ask}
    {reply : Reply} (h : Tenure u xs kept) (hanswer : ask.answer? u.id kept = some (reply, kept')) :
    Tenure u (Exchange.extend xs ⟨u, ask, reply⟩) kept' := by
  have happend {a : Aggregation} (ha : Tenure u xs (some a)) (hask : ask ≠ .forget)
      (htold : (Exchange.mk u ask reply).told?.toList =
        (a.answers (Exchange.mk u ask reply).notice?.toList).filterMap Completion.count?) :
      Tenure u (Exchange.extend xs ⟨u, ask, reply⟩)
        (some (a.receiveAll (Exchange.mk u ask reply).notice?.toList)) := by
    obtain ⟨_, _, rfl, -⟩ := ha.exists_registered
    rw [Exchange.extend_of_ne_nil (List.cons_ne_nil _ _) hask]
    exact ha.append htold
  cases Ask.answers_of_answer? hanswer with
  | children a => exact happend h Ask.noConfusion rfl
  | concluded a => exact happend h Ask.noConfusion rfl
  | received a sub count =>
    refine happend h Ask.noConfusion ?_
    show (a.receive sub count).1.completion.count?.toList = _
    rw [Exchange.notice?, Option.toList_some, Aggregation.answers, List.filterMap_cons]
    cases (a.receive sub count).1.completion.count? <;> rfl
  | unknown _ _ | missing =>
    cases h
    exact .unregistered
  | forgotten _ => exact .unregistered
  | told _ _ | phase _ =>
    cases kept with
    | none =>
      cases h
      exact .unregistered
    | some a => exact happend h Ask.noConfusion rfl

/-- A first request. -/
theorem Tenure.first {u : Task} {xs : List Exchange} (h : Tenure u xs none) {children : List Task}
    (hids : (children.map Task.id).Nodup) :
    Tenure u (Exchange.extend xs ⟨u, .request, .children children⟩) (some (.start children)) := by
  cases h
  exact .registered hids rfl

/-- What is kept is explained by what was said since the registration. -/
theorem Explained.tenure {u : Task} {xs : List Exchange} {issued : List TaskId} {kept : Option Aggregation}
    (h : Explained u xs issued kept) : Tenure u (xs.foldl Exchange.extend []) kept := by
  induction h with
  | nil => exact .unregistered
  | first _ _ _ hnodup ih =>
    rw [List.foldl_append]
    exact ih.first (List.nodup_append'.mp (List.nodup_cons.mp hnodup).2).2.1
  | answer _ hanswer ih =>
    rw [List.foldl_append]
    exact ih.answer hanswer

/-- Does the final check on a registered task, with the entry `e`, agree with the notifications since the request
that has registered it? -/
def History.ChecksOut (h : History) (u : Task) (e : Entry) : Prop :=
  ∃ children later, h.tenure u = ⟨u, .request, .children children⟩ :: later ∧
    FinalCheck u.id (children.map Task.id) (later.filterMap Exchange.notice?)
      (later.filterMap Exchange.told?) e.aggregation.isFinal (allChildrenDone u.id .pending h.state).1

/-- **Operations one after another.**  Every registered task checks out, at any point of a history. -/
theorem Happens.checksOut {h : History} (hh : Happens h) {u : Task} (hu : u ∈ h.tasks) {e : Entry}
    (he : h.state.entries.get? u.id = some e) : h.ChecksOut u e := by
  have htenure : Tenure u (h.tenure u) (h.state.kept u.id) := (hh.explained hu).tenure
  have hkept : h.state.kept u.id = some e.aggregation := by
    rw [kept, he]
    rfl
  obtain ⟨children, later, hlater, hids, ha, htold⟩ := (hkept ▸ htenure).exists_registered
  refine ⟨children, later, hlater, ?_⟩
  rw [allChildrenDone_of_entry he, ha, htold]
  exact finalCheck_conclude u.id hids _

/-! ### Operations at the same time -/

namespace Workers

theorem run_append (w : Workers) (schedule rest : List Nat) :
    (w.run (schedule ++ rest)).1 = ((w.run schedule).1.run rest).1 := by
  induction schedule generalizing w with
  | nil => rfl
  | cons i schedule ih => rw [List.cons_append, run_cons, ih, run_cons]

/-- **Where entries come from**: every entry that a handle names was registered, as the first one of its
generation. -/
theorem exists_registers {w₀ : Workers} (hnew : ∀ h, w₀.shared.entry? h = none) {schedule : List Nat}
    {h : Handle} {e : Entry} (he : (w₀.run schedule).1.shared.entry? h = some e) :
    ∃ before i after task children, schedule = before ++ i :: after ∧
      (w₀.run before).1.Registers i task children ∧
      h = ⟨task.id, (w₀.run before).1.shared.generation task.id⟩ := by
  induction schedule using List.reverseRecOn generalizing e with
  | nil =>
    rw [run, hnew] at he
    cases he
  | append_singleton schedule i ih =>
    -- either the entry was there before the last section, or that section has registered it
    have hold {e : Entry} (hbefore : (w₀.run schedule).1.shared.entry? h = some e) :
        ∃ before j after task children, schedule ++ [i] = before ++ j :: after ∧
          (w₀.run before).1.Registers j task children ∧
          h = ⟨task.id, (w₀.run before).1.shared.generation task.id⟩ := by
      obtain ⟨before, j, after, task, children, hsplit, hreg, hh⟩ := ih hbefore
      refine ⟨before, j, after ++ [i], task, children, ?_, hreg, hh⟩
      rw [hsplit, List.append_assoc, List.cons_append]
    rw [run_append, run_cons, run] at he
    cases hi : (w₀.run schedule).1.calls[i]? with
    | none =>
      rw [step_of_none hi] at he
      exact hold he
    | some c =>
      rw [step_of_some hi] at he
      rcases Shared.exists_of_entry?_step he with ⟨e', ns, hbefore, -⟩ | ⟨task, children, rfl, hget, -, -⟩
      · exact hold hbefore
      · have hhandle : (w₀.run schedule).1.shared.handle? task.id = none := by
          rw [Shared.handle?, hget]
          rfl
        have hkeep : ((Call.register task children).step (w₀.run schedule).1.shared).2.1 =
            (w₀.run schedule).1.shared.keep task.id ⟨task.parent.map Task.id, .start children⟩ := by
          rw [Call.step, hhandle]
          exact Shared.act_register hhandle _
        rw [hkeep, Shared.entry?_keep] at he
        split at he
        · rename_i hh
          exact ⟨schedule, i, [], task, children, rfl, ⟨hi, hhandle⟩, hh⟩
        · exact hold he

/-- The counts that the host is told by the operations behind some deliveries. -/
def toldBy (w : Workers) (ds : List Delivery) : List Nat :=
  ds.filterMap fun d => (w.completion? d.call).bind Completion.count?

/-- The deliveries to an entry are answered with the counts that the entry gives. -/
theorem toldBy_deliveries {w : Workers} {h : Handle} {e : Entry} (hs : w.shared.Holds h e)
    (schedule : List Nat) :
    (w.run schedule).1.toldBy (w.deliveries h schedule) =
      (e.aggregation.answers (notices (w.deliveries h schedule))).filterMap Completion.count? := by
  suffices hrest : ∀ late early, w.deliveries h schedule = early ++ late →
      (w.run schedule).1.toldBy late =
        ((e.after (notices early)).aggregation.answers (notices late)).filterMap Completion.count? from
    hrest (w.deliveries h schedule) [] rfl
  intro late
  induction late with
  | nil => exact fun _ _ => rfl
  | cons d late ih =>
    intro early hsplit
    have hnext := ih (early ++ [d]) (by rw [hsplit, List.append_assoc, List.singleton_append])
    rw [notices, List.map_append, Entry.after_append] at hnext
    rw [toldBy, List.filterMap_cons, completion?_of_delivery hs hsplit, ← toldBy, hnext]
    rfl

/-- Does the final check on a task, with the entry `e` after a run, agree with the notifications that reached the
entry?  An operation has registered the task, and it was not forgotten since. -/
def ChecksOut (w₀ : Workers) (schedule : List Nat) (task : TaskId) (e : Entry) : Prop :=
  ∃ before i after registered children, schedule = before ++ i :: after ∧
    (w₀.run before).1.Registers i registered children ∧ registered.id = task ∧
    let w := ((w₀.run before).1.step i).1
    let w' := (w₀.run schedule).1
    let ds := w.deliveries ⟨task, w'.shared.generation task⟩ after
    w'.shared.generation task = (w₀.run before).1.shared.generation task ∧
      FinalCheck task (children.map Task.id) (notices ds) (w'.toldBy ds) e.aggregation.isFinal
        (allChildrenDone task .pending w'.shared.state).1

/-- **Operations at the same time.**  Every registered task checks out, at any point of a run. -/
theorem checksOut {n : Nat} {calls : List Call} (hcalls : ∀ c ∈ calls, c.begins = true)
    {schedule : List Nat} {task : TaskId} {e : Entry}
    (he : ((start n calls).run schedule).1.shared.state.entries.get? task = some e) :
    (start n calls).ChecksOut schedule task e := by
  have hnew : ∀ h, (start n calls).shared.entry? h = none := by
    intro h
    rw [start, Shared.entry?]
    split <;> rfl
  have hentry := (Shared.holds_handle he).entry
  obtain ⟨before, i, after, registered, children, rfl, hreg, hh⟩ := exists_registers hnew hentry
  obtain ⟨rfl, hgeneration⟩ := Handle.mk.inj hh
  refine ⟨before, i, after, registered, children, rfl, hreg, rfl, ?_⟩
  have hs := holds_step_of_registers hreg
  rw [← hgeneration] at hs
  intro w w' ds
  have hrun : w' = (w.run after).1 := by
    show ((start n calls).run (before ++ i :: after)).1 = _
    rw [run_append, run_cons]
  -- the entry is the one that was registered, after the deliveries since
  have hafter := (holds_run hs after).entry
  rw [← hrun, hentry] at hafter
  obtain rfl := Option.some.inj hafter
  refine ⟨hgeneration, ?_⟩
  rw [allChildrenDone_of_entry he, hrun, toldBy_deliveries hs]
  exact finalCheck_conclude registered.id (nodup_ids_of_register hcalls before hreg.1) _

end Workers

/-- **The final check agrees with the notifications.**  It changes nothing, and a task is unknown exactly if it
is not registered.  Of a registered task, at any point of any operations, be it that they run one after another
or at the same time, it gives the count exactly if the count is final; then this is the count that one
notification since the registration was answered with, and no other was answered with any.  Otherwise it
says how many sub-tasks no notification has named. -/
theorem finalCheck_agrees :
    (∀ (s : Aggregator) (task : TaskId) (last : Completion),
      (allChildrenDone task last s).2.1 = s ∧
        ((allChildrenDone task .pending s).1 = .failed (.unknownTask task) ↔ s.entries.get? task = none)) ∧
    (∀ h, Happens h → ∀ u ∈ h.tasks, ∀ e, h.state.entries.get? u.id = some e → h.ChecksOut u e) ∧
    ∀ (n : Nat) (calls : List Call) (schedule : List Nat), (∀ c ∈ calls, c.begins = true) →
      ∀ task e, ((Workers.start n calls).run schedule).1.shared.state.entries.get? task = some e →
        (Workers.start n calls).ChecksOut schedule task e :=
  ⟨fun s task last => ⟨state_allChildrenDone s task last, allChildrenDone_eq_unknownTask_iff s task⟩,
    fun _ hh _ hu _ he => hh.checksOut hu he, fun _ _ _ hcalls _ _ he => Workers.checksOut hcalls he⟩

/-! ### An instance -/

/-- The sub-tasks of `pairTask` report: the first one twice, with different counts, and the second one a zero and
then another count. -/
def disputedHistory : History :=
  ((History.start 1).newTask "host" none Workers.pairTask.expression).asks
    [(Workers.pairTask, .request), (Workers.pairTask, .childDone ⟨2⟩ 3), (Workers.pairTask, .childDone ⟨2⟩ 7),
      (Workers.pairTask, .childDone ⟨3⟩ 0), (Workers.pairTask, .childDone ⟨3⟩ 5)]

theorem happens_disputedHistory : Happens disputedHistory := by
  refine Happens.asks (.newTask "host" _ (.start 1) fun p hp => absurd hp (Option.not_mem_none p)) ?_
  intro x hx
  simp only [List.mem_cons, List.not_mem_nil, or_false] at hx
  rcases hx with rfl | rfl | rfl | rfl | rfl
  all_goals exact List.mem_singleton_self _

/-- The first sub-task has reported twice, and the second one has not. -/
def pairSchedule : List Nat :=
  [0, 0, 0, 0, 0, 0, 1, 1, 2, 2]

/-- The state that the operations share then. -/
def pairState : Aggregator :=
  ((Workers.start 2 Workers.pairWorkers.calls).run pairSchedule).1.shared.state

/-- The zero is the count in the end; before the second sub-task reports, it is said to be lost. -/
theorem pair_finalCheck_agrees :
    (Happens disputedHistory ∧ Workers.pairTask ∈ disputedHistory.tasks ∧
      (∃ e, disputedHistory.state.entries.get? ⟨1⟩ = some e ∧
        disputedHistory.ChecksOut Workers.pairTask e) ∧
      (allChildrenDone ⟨1⟩ .pending disputedHistory.state).1 = .done 0) ∧
    (∀ c ∈ Workers.pairWorkers.calls, c.begins = true) ∧
      (∃ e, pairState.entries.get? ⟨1⟩ = some e ∧
        (Workers.start 2 Workers.pairWorkers.calls).ChecksOut pairSchedule ⟨1⟩ e) ∧
      (allChildrenDone ⟨1⟩ .pending pairState).1 = .failed (.lostNotifications ⟨1⟩ 1) := by
  have hu : Workers.pairTask ∈ disputedHistory.tasks := List.mem_of_getElem? (i := 0) (by cbv)
  have hsome : (disputedHistory.state.entries.get? ⟨1⟩).isSome := by cbv
  obtain ⟨e, he⟩ := Option.isSome_iff_exists.mp hsome
  have hcalls : ∀ c ∈ Workers.pairWorkers.calls, c.begins = true := by
    simp [Workers.pairWorkers, Call.begins]
  have hsome' : (pairState.entries.get? ⟨1⟩).isSome := by cbv
  obtain ⟨e', he'⟩ := Option.isSome_iff_exists.mp hsome'
  refine ⟨⟨happens_disputedHistory, hu, ⟨e, he, ?_⟩, by cbv⟩, hcalls, ⟨e', he', ?_⟩, by cbv⟩
  · exact finalCheck_agrees.2.1 disputedHistory happens_disputedHistory Workers.pairTask hu e he
  · exact finalCheck_agrees.2.2 2 Workers.pairWorkers.calls pairSchedule hcalls ⟨1⟩ e' he'

end Aggregator

end SmtCount
