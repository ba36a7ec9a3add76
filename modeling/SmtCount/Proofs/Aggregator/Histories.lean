import Mathlib
import SmtCount.Proofs.Aggregator.Runs

/-!
# Histories

What a host and an aggregator have to do with each other when operations run one after another.  The host
makes tasks, asks about tasks that it knows, and comes to know the sub-tasks that it is given.

The aggregator keeps an aggregation for each task, and all that it says about a task is read off that
aggregation alone, except for the answer to a first request, which is a new sub-task for each factor of
the task's expression.  So whatever else happens, what is said about a task is explained by what was said
and asked about it before.

## Main definitions

* `Ask`, `Reply`, `Exchange` — what a host asks about a task, and what it is told.
* `History`, `Happens h` — what may have happened so far.
* `History.about u`, `History.issued u` — what was said about a task, and the sub-tasks that were issued for it.
* `Ask.answer?` — what is answered from what is kept for the task.
* `Explained u xs issued kept` — some exchanges about a task, explained from themselves.

## Main results

* `Ask.perform_answer`, `Ask.perform_first` — **one operation**: what it answers, and that it leaves what is kept
  for other tasks.
* `Happens.explained` — **every history** is explained, task by task.
-/

namespace SmtCount

namespace Aggregation

/-- Does an aggregation hold nothing but what another one holds? -/
structure Within (a b : Aggregation) : Prop where
  children : a.children ⊆ b.children
  outstanding : a.outstanding ⊆ b.outstanding

theorem receive_within (a : Aggregation) (sub : TaskId) (count : Nat) :
    Within (a.receive sub count).2 a := by
  have hsettled (phase : Phase) (product : Nat) : Within (settled phase product) a :=
    ⟨List.nil_subset _, List.nil_subset _⟩
  unfold receive
  split
  · exact ⟨List.Subset.refl _, List.Subset.refl _⟩
  split
  · exact hsettled _ _
  split
  · exact ⟨List.Subset.refl _, List.Subset.refl _⟩
  dsimp only
  split
  · exact hsettled _ _
  · exact ⟨List.Subset.refl _, List.erase_subset⟩

end Aggregation

namespace Aggregator

/-! ### Asking about a task -/

/-- What a host can ask about a task. -/
inductive Ask
  | request
  | childDone (sub : TaskId) (count : Nat)
  | allChildrenDone (last : Completion)
  | phase
  | forget

/-- What a host is told about a task. -/
inductive Reply
  | children (tasks : List Task)
  | completion (c : Completion)
  | phase (p : Option Phase)
  | forgotten

/-- The tasks in a reply. -/
def Reply.tasks : Reply → List Task
  | .children tasks => tasks
  | _ => []

/-- Does what is asked for about a task. -/
def Ask.perform (task : Task) : Ask → Action Reply
  | .request => do
    let children ← Aggregator.request task
    pure (.children children)
  | .childDone sub count => do
    let c ← Aggregator.childDone task.id sub count
    pure (.completion c)
  | .allChildrenDone last => do
    let c ← Aggregator.allChildrenDone task.id last
    pure (.completion c)
  | .phase => do
    let p ← .read (phase? task.id)
    pure (.phase p)
  | .forget => do
    Aggregator.forget task.id
    pure .forgotten

theorem Ask.keepsSound_perform (task : Task) (ask : Ask) : (ask.perform task).KeepsSound := by
  cases ask with
  | request => exact (keepsSound_request task).bind fun _ => keepsSound_pure _
  | childDone sub count => exact (keepsSound_childDone task.id sub count).bind fun _ => keepsSound_pure _
  | allChildrenDone last => exact (keepsSound_allChildrenDone task.id last).bind fun _ => keepsSound_pure _
  | phase => exact Action.KeepsSound.bind (keepsSound_of_contexts_eq fun _ => rfl) fun _ => keepsSound_pure _
  | forget => exact (keepsSound_forget task.id).bind fun _ => keepsSound_pure _

/-- What is kept for a task. -/
def kept (s : Aggregator) (task : TaskId) : Option Aggregation :=
  (s.entries.get? task).map Entry.aggregation

theorem kept_of_entries_eq {s t : Aggregator} (h : t.entries = s.entries) (task : TaskId) :
    t.kept task = s.kept task := by
  rw [kept, h]
  rfl

theorem kept_insert {s t : Aggregator} {task : TaskId} {e : Entry}
    (h : t.entries = s.entries.insert task e) (id : TaskId) :
    t.kept id = if task = id then some e.aggregation else s.kept id := by
  rw [kept, h, Table.get?_insert]
  split <;> rfl

theorem kept_erase {s t : Aggregator} {task : TaskId} (h : t.entries = s.entries.erase task) (id : TaskId) :
    t.kept id = if task = id then none else s.kept id := by
  rw [kept, h, Table.get?_erase]
  split <;> rfl

/-- What is answered about a task from what is kept for it, and what is kept from then on; nothing, if this is
a first request. -/
def Ask.answer? (task : TaskId) (kept : Option Aggregation) : Ask → Option (Reply × Option Aggregation)
  | .request => kept.map fun a => (.children a.children, some a)
  | .childDone sub count =>
    match kept with
    | none => some (.completion (.failed (.unknownTask task)), none)
    | some a => some (.completion (a.receive sub count).1.completion, some (a.receive sub count).2)
  | .allChildrenDone last =>
    if last ≠ .pending then some (.completion last, kept)
    else
      match kept with
      | none => some (.completion (.failed (.unknownTask task)), none)
      | some a => some (.completion (a.conclude task), some a)
  | .phase => some (.phase (kept.map Aggregation.phase), kept)
  | .forget => some (.forgotten, none)

/-- What can be answered to what, from what is kept. -/
inductive Ask.Answers (task : TaskId) :
    Option Aggregation → Ask → Reply → Option Aggregation → Prop
  | children (a : Aggregation) : Answers task (some a) .request (.children a.children) (some a)
  | received (a : Aggregation) (sub : TaskId) (count : Nat) : Answers task (some a) (.childDone sub count)
      (.completion (a.receive sub count).1.completion) (some (a.receive sub count).2)
  | unknown (sub : TaskId) (count : Nat) :
      Answers task none (.childDone sub count) (.completion (.failed (.unknownTask task))) none
  | told (kept : Option Aggregation) {last : Completion} (hlast : last ≠ .pending) :
      Answers task kept (.allChildrenDone last) (.completion last) kept
  | concluded (a : Aggregation) :
      Answers task (some a) (.allChildrenDone .pending) (.completion (a.conclude task)) (some a)
  | missing :
      Answers task none (.allChildrenDone .pending) (.completion (.failed (.unknownTask task))) none
  | phase (kept : Option Aggregation) :
      Answers task kept .phase (.phase (kept.map Aggregation.phase)) kept
  | forgotten (kept : Option Aggregation) : Answers task kept .forget .forgotten none

theorem Ask.answers_of_answer? {task : TaskId} {kept next : Option Aggregation} {ask : Ask} {reply : Reply}
    (h : ask.answer? task kept = some (reply, next)) : Ask.Answers task kept ask reply next := by
  cases ask with
  | request =>
    obtain ⟨a, rfl, heq⟩ := Option.map_eq_some_iff.mp h
    obtain ⟨rfl, rfl⟩ := Prod.mk.inj heq
    exact .children a
  | childDone sub count =>
    cases kept with
    | none =>
      obtain ⟨rfl, rfl⟩ := Prod.mk.inj (Option.some.inj h)
      exact .unknown sub count
    | some a =>
      obtain ⟨rfl, rfl⟩ := Prod.mk.inj (Option.some.inj h)
      exact .received a sub count
  | allChildrenDone last =>
    by_cases hlast : last = .pending
    · subst hlast
      cases kept with
      | none =>
        obtain ⟨rfl, rfl⟩ := Prod.mk.inj (Option.some.inj h)
        exact .missing
      | some a =>
        obtain ⟨rfl, rfl⟩ := Prod.mk.inj (Option.some.inj h)
        exact .concluded a
    · dsimp only [Ask.answer?] at h
      rw [if_pos hlast] at h
      obtain ⟨rfl, rfl⟩ := Prod.mk.inj (Option.some.inj h)
      exact .told _ hlast
  | phase =>
    obtain ⟨rfl, rfl⟩ := Prod.mk.inj (Option.some.inj h)
    exact .phase _
  | forget =>
    obtain ⟨rfl, rfl⟩ := Prod.mk.inj (Option.some.inj h)
    exact .forgotten _

theorem Ask.eq_request_of_answer? {task : TaskId} {kept : Option Aggregation} {ask : Ask}
    (h : ask.answer? task kept = none) : ask = .request ∧ kept = none := by
  cases ask with
  | request => exact ⟨rfl, Option.map_eq_none_iff.mp h⟩
  | childDone sub count =>
    cases kept <;> cases h
  | allChildrenDone last =>
    dsimp only [Ask.answer?] at h
    split at h
    · cases h
    · cases kept <;> cases h
  | phase => cases h
  | forget => cases h

/-! ### One operation -/

/-- What an operation about a task answers and keeps, and that it touches nothing else. -/
def Ask.Gives (task : TaskId) (s : Aggregator) (reply : Reply) (kept : Option Aggregation) (r : Reply)
    (t : Aggregator) : Prop :=
  r = reply ∧ t.nextTask = s.nextTask ∧ t.kept task = kept ∧ ∀ id, id ≠ task → t.kept id = s.kept id

theorem Ask.gives_of_entries_eq {task : TaskId} {s t : Aggregator} (hnext : t.nextTask = s.nextTask)
    (hentries : t.entries = s.entries) (reply : Reply) :
    Ask.Gives task s reply (s.kept task) reply t :=
  ⟨rfl, hnext, kept_of_entries_eq hentries task, fun id _ => kept_of_entries_eq hentries id⟩

theorem forget_gives {s : Aggregator} (task : TaskId) :
    (forget task).Ensures s fun _ t => t.nextTask = s.nextTask ∧ t.kept task = none ∧
      ∀ id, id ≠ task → t.kept id = s.kept id := by
  refine .bind (P := fun found t => found = s.entries.get? task ∧ s = t) ⟨rfl, rfl⟩ ?_
  rintro found _ ⟨hfound, rfl⟩
  -- dropping the context of the task comes last and touches no entry
  have hdrop {t : Aggregator} (ht : t.nextTask = s.nextTask ∧ t.kept task = none ∧
      ∀ id, id ≠ task → t.kept id = s.kept id) :
      (Action.change fun s => { s with contexts := s.contexts.erase task }).Ensures t fun _ t =>
        t.nextTask = s.nextTask ∧ t.kept task = none ∧ ∀ id, id ≠ task → t.kept id = s.kept id := ht
  cases found with
  | none =>
    refine hdrop ⟨rfl, ?_, fun id _ => rfl⟩
    rw [kept, ← hfound]
    rfl
  | some e =>
    refine .bind (P := fun _ t => t.nextTask = s.nextTask ∧ t.entries = s.entries.erase task)
      ⟨rfl, rfl⟩ ?_
    rintro _ t ⟨hnext, hentries⟩
    have herased {t' : Aggregator} (hnext' : t'.nextTask = t.nextTask) (hentries' : t'.entries = t.entries) :
        t'.nextTask = s.nextTask ∧ t'.kept task = none ∧ ∀ id, id ≠ task → t'.kept id = s.kept id := by
      have hkept := kept_erase (hentries'.trans hentries)
      refine ⟨hnext'.trans hnext, ?_, fun id hid => ?_⟩
      · rw [hkept, if_pos rfl]
      · rw [hkept, if_neg hid.symm]
    refine .ite (fun _ => ?_) fun _ => hdrop (herased rfl rfl)
    refine .bind (P := fun _ t' => t'.nextTask = t.nextTask ∧ t'.entries = t.entries)
      ⟨by rw [releaseParentContext_eq], keepsEntries_releaseParentContext _ t⟩ ?_
    rintro _ t' ⟨hnext', hentries'⟩
    exact hdrop (herased hnext' hentries')

/-- A request for a task that has an entry answers with the sub-tasks in it. -/
theorem request_of_entry {s : Aggregator} {task : Task} {e : Entry} (he : s.entries.get? task.id = some e) :
    (request task).Ensures s fun children t => children = e.aggregation.children ∧
      t.nextTask = s.nextTask ∧ t.entries = s.entries := by
  refine .bind (P := fun _ t => t.nextTask = s.nextTask ∧ t.entries = s.entries) ⟨rfl, rfl⟩ ?_
  rintro _ t ⟨hnext, hentries⟩
  refine .bind (P := fun found t' => found = some e ∧ t = t') ⟨?_, rfl⟩ ?_
  · exact (congrArg (Table.get? · task.id) hentries).trans he
  · rintro _ _ ⟨rfl, rfl⟩
    exact ⟨rfl, hnext, hentries⟩

/-- A notification for a task without an entry is answered with a failure. -/
theorem childDone_unknown {s : Aggregator} {task : TaskId} (he : s.entries.get? task = none) (sub : TaskId)
    (count : Nat) :
    (childDone task sub count).Ensures s fun c t => c = .failed (.unknownTask task) ∧ s = t := by
  refine .bind (P := fun found t => found = none ∧ s = t) ⟨he, rfl⟩ ?_
  rintro _ _ ⟨rfl, rfl⟩
  exact .bind (P := fun _ t => s = t) rfl fun _ t ht => ⟨rfl, ht⟩

/-- How a task stands is read off what is kept for it. -/
theorem allChildrenDone_gives (s : Aggregator) (task : TaskId) (last : Completion) :
    (allChildrenDone task last).Ensures s fun c t =>
      Ask.answer? task (s.kept task) (.allChildrenDone last) = some (.completion c, s.kept task) ∧
        s = t := by
  refine .ite (fun hlast => ⟨if_pos hlast, rfl⟩) fun hlast => ?_
  refine .bind (P := fun found t => found = s.entries.get? task ∧ s = t) ⟨rfl, rfl⟩ ?_
  rintro found _ ⟨hfound, rfl⟩
  rw [kept, ← hfound]
  cases found with
  | none => exact ⟨if_neg hlast, rfl⟩
  | some e =>
    refine .ite (fun _ => ?_) fun _ => ⟨if_neg hlast, rfl⟩
    exact .bind (P := fun _ t => s = t) rfl fun _ t ht => ⟨if_neg hlast, ht⟩

/-- **An operation about a task** answers from what is kept for the task. -/
theorem Ask.perform_answer {s : Aggregator} {task : Task} {ask : Ask} {reply : Reply}
    {kept : Option Aggregation} (h : ask.answer? task.id (s.kept task.id) = some (reply, kept)) :
    (ask.perform task).Ensures s (Ask.Gives task.id s reply kept) := by
  cases ask with
  | request =>
    obtain ⟨a, ha, heq⟩ := Option.map_eq_some_iff.mp h
    obtain ⟨rfl, rfl⟩ := Prod.mk.inj heq
    obtain ⟨e, he, rfl⟩ := Option.map_eq_some_iff.mp ha
    refine .bind (request_of_entry he) ?_
    rintro _ t ⟨rfl, hnext, hentries⟩
    exact ha ▸ Ask.gives_of_entries_eq hnext hentries _
  | childDone sub count =>
    cases he : s.entries.get? task.id with
    | none =>
      have hkept : s.kept task.id = none := by rw [Aggregator.kept, he]; rfl
      rw [hkept] at h
      obtain ⟨rfl, rfl⟩ := Prod.mk.inj (Option.some.inj h)
      refine .bind (childDone_unknown he sub count) ?_
      rintro _ _ ⟨rfl, rfl⟩
      exact hkept ▸ Ask.gives_of_entries_eq rfl rfl _
    | some e =>
      have hkept : s.kept task.id = some e.aggregation := by rw [Aggregator.kept, he]; rfl
      rw [hkept] at h
      obtain ⟨rfl, rfl⟩ := Prod.mk.inj (Option.some.inj h)
      refine .bind (childDone_receives he sub count) ?_
      rintro _ t ⟨rfl, hnext, hentries⟩
      have hkept' := kept_insert hentries
      refine ⟨rfl, hnext, ?_, fun id hid => ?_⟩
      · exact (hkept' task.id).trans (if_pos rfl)
      · exact (hkept' id).trans (if_neg hid.symm)
  | allChildrenDone last =>
    refine .bind (allChildrenDone_gives s task.id last) ?_
    rintro c _ ⟨hanswer, rfl⟩
    obtain ⟨rfl, rfl⟩ := Prod.mk.inj (Option.some.inj (h.symm.trans hanswer))
    exact Ask.gives_of_entries_eq rfl rfl _
  | phase =>
    obtain ⟨rfl, rfl⟩ := Prod.mk.inj (Option.some.inj h)
    refine .bind (P := fun p t => p = (s.kept task.id).map Aggregation.phase ∧ s = t) ⟨?_, rfl⟩ ?_
    · exact (Option.map_map ..).symm
    · rintro _ _ ⟨rfl, rfl⟩
      exact Ask.gives_of_entries_eq rfl rfl _
  | forget =>
    obtain ⟨rfl, rfl⟩ := Prod.mk.inj (Option.some.inj h)
    refine .bind (forget_gives task.id) ?_
    rintro _ t ⟨hnext, hkept, hother⟩
    exact ⟨rfl, hnext, hkept, hother⟩

/-- **A first request** answers with new sub-tasks. -/
theorem Ask.perform_first {s : Aggregator} (hs : SoundContexts s) {task : Task} (h : s.kept task.id = none) :
    (Ask.request.perform task).Ensures s fun r t => ∃ children, r = .children children ∧
      Splits task s children t :=
  .bind (request_splits hs (Option.map_eq_none_iff.mp h)) fun children _ hsplits =>
    ⟨children, rfl, hsplits⟩

/-! ### Histories -/

/-- Something that was asked about a task, and the reply. -/
structure Exchange where
  task : Task
  ask : Ask
  reply : Reply

/-- What has happened so far. -/
structure History where
  state : Aggregator
  /-- The tasks that the host knows. -/
  tasks : List Task
  /-- What was asked, oldest first. -/
  exchanges : List Exchange

namespace History

/-- A new aggregator, which gives its first task a number. -/
def start (nextTask : Nat) : History :=
  ⟨{ nextTask }, [], []⟩

/-- The host makes a task. -/
def newTask (h : History) (source : String) (parent : Option Task) (expression : Expr) : History :=
  let (task, state, _) := Aggregator.newTask source parent expression h.state
  { h with state, tasks := h.tasks ++ [task] }

/-- The host asks something about a task, and comes to know the tasks in the reply. -/
def ask (h : History) (task : Task) (ask : Ask) : History :=
  let (reply, state, _) := ask.perform task h.state
  { state, tasks := h.tasks ++ reply.tasks, exchanges := h.exchanges ++ [⟨task, ask, reply⟩] }

theorem tasks_ask (h : History) (task : Task) (ask : Ask) :
    (h.ask task ask).tasks = h.tasks ++ (ask.perform task h.state).1.tasks := rfl

theorem exchanges_ask (h : History) (task : Task) (ask : Ask) :
    (h.ask task ask).exchanges = h.exchanges ++ [⟨task, ask, (ask.perform task h.state).1⟩] := rfl

/-- What was said about a task. -/
def about (u : Task) (h : History) : List Exchange :=
  h.exchanges.filter fun x => x.task.id = u.id

/-- The sub-tasks in some exchanges, in the order in which they came first. -/
def issuedIn (xs : List Exchange) : List TaskId :=
  (xs.flatMap fun x => x.reply.tasks.map Task.id).eraseDups

/-- The sub-tasks that were issued for a task, in the order in which they were. -/
def issued (u : Task) (h : History) : List TaskId :=
  issuedIn (h.about u)

end History

/-- May a history have happened?  A host makes tasks below tasks that it knows, and asks about tasks that it
knows. -/
inductive Happens : History → Prop
  | start (nextTask : Nat) : Happens (.start nextTask)
  | newTask {h : History} (source : String) {parent : Option Task} (expression : Expr) :
      Happens h → (∀ p ∈ parent, p ∈ h.tasks) → Happens (h.newTask source parent expression)
  | ask {h : History} {task : Task} (ask : Ask) : Happens h → task ∈ h.tasks → Happens (h.ask task ask)

/-- The host asks one thing after another. -/
def History.asks (h : History) (asks : List (Task × Ask)) : History :=
  asks.foldl (fun h x => h.ask x.1 x.2) h

theorem Happens.asks {h : History} (hh : Happens h) {asks : List (Task × Ask)}
    (hasks : ∀ x ∈ asks, x.1 ∈ h.tasks) : Happens (h.asks asks) := by
  induction asks generalizing h with
  | nil => exact hh
  | cons x asks ih =>
    obtain ⟨hx, hasks⟩ := List.forall_mem_cons.mp hasks
    refine ih (hh.ask x.2 hx) fun y hy => ?_
    rw [History.tasks_ask]
    exact List.mem_append_left _ (hasks y hy)

/-! ### Explanations -/

/-- Some exchanges about a task, oldest first, with the sub-tasks that were issued and what is kept in the
end, explained from themselves: a first request issues a sub-task for each factor of the expression, and
everything else is answered from what is kept. -/
inductive Explained (u : Task) : List Exchange → List TaskId → Option Aggregation → Prop
  | nil : Explained u [] [] none
  | first {xs : List Exchange} {issued : List TaskId} {children : List Task} :
      Explained u xs issued none →
      children.map Task.expression = (factorize u.expression none).factors →
      (∀ c ∈ children, c.source = u.source ∧ c.parent = none) →
      (u.id :: (issued ++ children.map Task.id)).Nodup →
      Explained u (xs ++ [⟨u, .request, .children children⟩]) (issued ++ children.map Task.id)
        (some (.start children))
  | answer {xs : List Exchange} {issued : List TaskId} {kept kept' : Option Aggregation} {ask : Ask}
      {reply : Reply} : Explained u xs issued kept → ask.answer? u.id kept = some (reply, kept') →
      Explained u (xs ++ [⟨u, ask, reply⟩]) issued kept'

/-- An answer gives no new tasks, and nothing new is kept. -/
theorem Ask.within_of_answer? {task : TaskId} {kept kept' : Option Aggregation} {ask : Ask} {reply : Reply}
    (h : ask.answer? task kept = some (reply, kept')) :
    (∀ c ∈ reply.tasks, ∃ a ∈ kept, c ∈ a.children) ∧ ∀ b ∈ kept', ∃ a ∈ kept, b.Within a := by
  have hsame : ∀ b ∈ kept, ∃ a ∈ kept, b.Within a :=
    fun b hb => ⟨b, hb, List.Subset.refl _, List.Subset.refl _⟩
  have hnone : ∀ c ∈ ([] : List Task), ∃ a ∈ kept, c ∈ a.children :=
    fun c hc => absurd hc List.not_mem_nil
  cases Ask.answers_of_answer? h with
  | children a => exact ⟨fun c hc => ⟨a, rfl, hc⟩, hsame⟩
  | received a sub count =>
    refine ⟨hnone, fun b hb => ⟨a, rfl, ?_⟩⟩
    obtain rfl := Option.some.inj hb
    exact a.receive_within sub count
  | forgotten _ => exact ⟨hnone, fun b hb => absurd hb (Option.not_mem_none b)⟩
  | _ => exact ⟨hnone, hsame⟩

namespace Explained

variable {u : Task} {xs : List Exchange} {issued : List TaskId} {kept : Option Aggregation}

/-- Everything that is kept for a task was issued for it. -/
theorem mem_issued (h : Explained u xs issued kept) {a : Aggregation} (ha : kept = some a) :
    (∀ c ∈ a.children, c.id ∈ issued ∧ c.source = u.source ∧ c.parent = none) ∧
      ∀ id ∈ a.outstanding, id ∈ issued := by
  induction h generalizing a with
  | nil => cases ha
  | @first xs issued children _ _ horigin _ _ =>
    obtain rfl := Option.some.inj ha
    have hids : ∀ id ∈ (Aggregation.start children).outstanding, id ∈ children.map Task.id := by
      intro id hid
      unfold Aggregation.start at hid
      split at hid
      · exact absurd hid List.not_mem_nil
      · exact hid
    refine ⟨fun c hc => ?_, fun id hid => List.mem_append_right _ (hids id hid)⟩
    rw [children_start] at hc
    exact ⟨List.mem_append_right _ (List.mem_map_of_mem hc), horigin c hc⟩
  | answer _ hanswer ih =>
    obtain ⟨b, hb, hchildren, houtstanding⟩ := (Ask.within_of_answer? hanswer).2 a ha
    obtain ⟨hold, hold'⟩ := ih hb
    exact ⟨fun c hc => hold c (hchildren hc), fun id hid => hold' id (houtstanding hid)⟩

/-- Sub-tasks in a reply belong to the same source as the task, and have no parent. -/
theorem origin (h : Explained u xs issued kept) :
    ∀ x ∈ xs, ∀ c ∈ x.reply.tasks, c.source = u.source ∧ c.parent = none := by
  induction h with
  | nil => exact fun x hx => absurd hx List.not_mem_nil
  | first _ _ horigin _ ih =>
    intro x hx
    rcases List.mem_append.mp hx with hx | hx
    · exact ih x hx
    · obtain rfl := List.mem_singleton.mp hx
      exact horigin
  | answer hbefore hanswer ih =>
    intro x hx c hc
    rcases List.mem_append.mp hx with hx | hx
    · exact ih x hx c hc
    · obtain rfl := List.mem_singleton.mp hx
      obtain ⟨a, ha, hmem⟩ := (Ask.within_of_answer? hanswer).1 c hc
      exact ((hbefore.mem_issued ha).1 c hmem).2

/-- No two sub-tasks of a task are the same, and none of them is the task. -/
theorem nodup (h : Explained u xs issued kept) : (u.id :: issued).Nodup := by
  induction h with
  | nil => exact List.nodup_singleton _
  | first _ _ _ hnodup _ => exact hnodup
  | answer _ _ ih => exact ih

theorem eraseDups_of_nodup {l : List TaskId} (h : l.Nodup) : l.eraseDups = l := by
  induction l with
  | nil => rfl
  | cons a l ih =>
    obtain ⟨ha, hl⟩ := List.nodup_cons.mp h
    have hrest : (l.filter fun b => !b == a) = l := by
      refine List.filter_eq_self.mpr fun b hb => ?_
      have hne : b ≠ a := fun heq => ha (heq ▸ hb)
      simpa using hne
    rw [List.eraseDups_cons, hrest, ih hl]

/-- The sub-tasks that were issued are the ones that stand in replies. -/
theorem issued_eq (h : Explained u xs issued kept) : issued = History.issuedIn xs := by
  have happend (ys : List Exchange) (x : Exchange) : History.issuedIn (ys ++ [x]) =
      History.issuedIn ys ++ ((x.reply.tasks.map Task.id).filter fun id =>
        id ∉ History.issuedIn ys).eraseDups := by
    rw [History.issuedIn, List.flatMap_append, List.flatMap_singleton, List.eraseDups_append,
      History.issuedIn, List.removeAll]
    simp only [List.mem_eraseDups, List.elem_eq_mem, decide_not]
  induction h with
  | nil => rfl
  | @first xs issued children _ _ _ hnodup ih =>
    obtain ⟨-, hnodup⟩ := List.nodup_cons.mp hnodup
    obtain ⟨-, hids, hdisjoint⟩ := List.nodup_append'.mp hnodup
    have hnew : ((children.map Task.id).filter fun id => id ∉ History.issuedIn xs) =
        children.map Task.id := by
      refine List.filter_eq_self.mpr fun id hid => ?_
      rw [← ih]
      simpa using fun hold => hdisjoint hold hid
    rw [happend, Reply.tasks, hnew, eraseDups_of_nodup hids, ← ih]
  | @answer xs issued kept kept' ask reply hbefore hanswer ih =>
    have hold : ((reply.tasks.map Task.id).filter fun id => id ∉ History.issuedIn xs) = [] := by
      refine List.filter_eq_nil_iff.mpr fun id hid => ?_
      obtain ⟨c, hc, rfl⟩ := List.mem_map.mp hid
      obtain ⟨a, ha, hmem⟩ := (Ask.within_of_answer? hanswer).1 c hc
      rw [← ih]
      simpa using ((hbefore.mem_issued ha).1 c hmem).1
    rw [happend, hold, List.eraseDups_nil, List.append_nil, ← ih]

end Explained

/-! ### Every history is explained -/

/-- What holds in every history. -/
structure Sane (h : History) : Prop where
  sound : SoundContexts h.state
  unique : ∀ t ∈ h.tasks, ∀ u ∈ h.tasks, t.id = u.id → t = u
  lt_next : ∀ t ∈ h.tasks, t.id.number < h.state.nextTask
  known : ∀ x ∈ h.exchanges, x.task ∈ h.tasks ∧ ∀ c ∈ x.reply.tasks, c ∈ h.tasks
  kept : ∀ id a, h.state.kept id = some a →
    id.number < h.state.nextTask ∧ ∀ c ∈ a.children, c ∈ h.tasks
  explained : ∀ u ∈ h.tasks, ∃ issued, Explained u (h.about u) issued (h.state.kept u.id)

namespace Sane

variable {h : History}

/-- A task that is known is none that is to come. -/
theorem id_ne (hs : Sane h) {t : Task} (ht : t ∈ h.tasks) {id : TaskId}
    (hid : h.state.nextTask ≤ id.number) : t.id ≠ id := by
  rintro rfl
  exact Nat.not_le_of_lt (hs.lt_next t ht) hid

/-- Tasks with new numbers leave the numbers different. -/
theorem unique_append (hs : Sane h) {new : List Task} (hnodup : (new.map Task.id).Nodup)
    (hnew : ∀ c ∈ new, h.state.nextTask ≤ c.id.number) :
    ∀ t ∈ h.tasks ++ new, ∀ u ∈ h.tasks ++ new, t.id = u.id → t = u := by
  intro t ht u hu heq
  rcases List.mem_append.mp ht with ht | ht
  · rcases List.mem_append.mp hu with hu | hu
    · exact hs.unique t ht u hu heq
    · exact absurd heq (hs.id_ne ht (hnew u hu))
  · rcases List.mem_append.mp hu with hu | hu
    · exact absurd heq.symm (hs.id_ne hu (hnew t ht))
    · exact List.inj_on_of_nodup_map hnodup ht hu heq

/-- Nothing was said about a task that is to come. -/
theorem about_eq_nil (hs : Sane h) {u : Task} (hu : h.state.nextTask ≤ u.id.number) : h.about u = [] := by
  refine List.filter_eq_nil_iff.mpr fun x hx => ?_
  simpa using hs.id_ne (hs.known x hx).1 hu

/-- Nothing is kept for a task that is to come. -/
theorem kept_eq_none (hs : Sane h) {id : TaskId} (hid : h.state.nextTask ≤ id.number) :
    h.state.kept id = none := by
  cases hkept : h.state.kept id with
  | none => rfl
  | some a =>
    have := (hs.kept id a hkept).1
    omega

/-- A task that is to come needs no explanation. -/
theorem explained_of_next_le (hs : Sane h) {u : Task} (hu : h.state.nextTask ≤ u.id.number) :
    Explained u (h.about u) [] (h.state.kept u.id) := by
  rw [hs.about_eq_nil hu, hs.kept_eq_none hu]
  exact .nil

/-- Sub-tasks that were issued have had their numbers. -/
theorem issued_lt (hs : Sane h) {u : Task} {issued : List TaskId} {kept : Option Aggregation}
    (he : Explained u (h.about u) issued kept) : ∀ id ∈ issued, id.number < h.state.nextTask := by
  intro id hid
  rw [he.issued_eq, History.issuedIn, List.mem_eraseDups] at hid
  obtain ⟨x, hx, hmem⟩ := List.mem_flatMap.mp hid
  obtain ⟨c, hc, rfl⟩ := List.mem_map.mp hmem
  exact hs.lt_next c ((hs.known x (List.mem_of_mem_filter hx)).2 c hc)

theorem newTask (hs : Sane h) (source : String) (parent : Option Task) (expression : Expr) :
    Sane (h.newTask source parent expression) := by
  have hnew : (Task.mk ⟨h.state.nextTask⟩ source parent expression).id.number = h.state.nextTask := rfl
  refine ⟨hs.sound, ?_, ?_, ?_, ?_, ?_⟩
  · refine hs.unique_append (List.nodup_singleton _) fun c hc => ?_
    obtain rfl := List.mem_singleton.mp hc
    exact Nat.le_refl _
  · intro t ht
    rcases List.mem_append.mp ht with ht | ht
    · exact Nat.lt_succ_of_lt (hs.lt_next t ht)
    · obtain rfl := List.mem_singleton.mp ht
      exact Nat.lt_succ_self _
  · intro x hx
    obtain ⟨htask, htasks⟩ := hs.known x hx
    exact ⟨List.mem_append_left _ htask, fun c hc => List.mem_append_left _ (htasks c hc)⟩
  · intro id a ha
    obtain ⟨hlt, hchildren⟩ := hs.kept id a ha
    exact ⟨Nat.lt_succ_of_lt hlt, fun c hc => List.mem_append_left _ (hchildren c hc)⟩
  · intro u hu
    rcases List.mem_append.mp hu with hu | hu
    · exact hs.explained u hu
    · obtain rfl := List.mem_singleton.mp hu
      exact ⟨[], hs.explained_of_next_le (Nat.le_refl _)⟩

/-- What was said about a task, after one more exchange. -/
theorem about_ask (h : History) (task u : Task) (ask : Ask) :
    (h.ask task ask).about u = h.about u ++
      if task.id = u.id then [⟨task, ask, (ask.perform task h.state).1⟩] else [] := by
  show (h.exchanges ++ [_]).filter _ = _
  rw [List.filter_append]
  by_cases hid : task.id = u.id
  · rw [if_pos hid, List.filter_cons_of_pos (by simpa using hid), List.filter_nil]
    rfl
  · rw [if_neg hid, List.filter_cons_of_neg (by simpa using hid), List.filter_nil]
    rfl

/-- What was said about a task is explained after the first request, too. -/
theorem explained_first (hs : Sane h) {task : Task} (htask : task ∈ h.tasks)
    (hkept : h.state.kept task.id = none) {children : List Task} {t : Aggregator}
    (hsplits : Splits task h.state children t) :
    ∃ issued, Explained task (h.about task ++ [⟨task, .request, .children children⟩]) issued
      (some (.start children)) := by
  obtain ⟨issued, hexplained⟩ := hs.explained task htask
  rw [hkept] at hexplained
  obtain ⟨hnot, hold⟩ := List.nodup_cons.mp hexplained.nodup
  refine ⟨_, hexplained.first hsplits.factors hsplits.origin (List.nodup_cons.mpr ⟨fun hmem => ?_, ?_⟩)⟩
  · rcases List.mem_append.mp hmem with hmem | hmem
    · exact hnot hmem
    · obtain ⟨c, hc, heq⟩ := List.mem_map.mp hmem
      exact hs.id_ne htask (hsplits.number hc).1 heq.symm
  · refine List.nodup_append'.mpr ⟨hold, hsplits.nodup, fun id hmem hid => ?_⟩
    obtain ⟨c, hc, rfl⟩ := List.mem_map.mp hid
    exact Nat.not_le_of_lt (hs.issued_lt hexplained _ hmem) (hsplits.number hc).1

/-- A first request about a known task issues sub-tasks that are to come. -/
theorem first (hs : Sane h) {task : Task} (htask : task ∈ h.tasks) (hkept : h.state.kept task.id = none) :
    Sane (h.ask task .request) := by
  obtain ⟨children, hreply, hsplits⟩ := Ask.perform_first hs.sound hkept
  have htasks : (h.ask task .request).tasks = h.tasks ++ children := by
    rw [History.tasks_ask, hreply]
    rfl
  have habout (u : Task) := about_ask h task u .request
  rw [hreply] at habout
  have hkept' := kept_insert hsplits.entries
  have hnext : h.state.nextTask ≤ (h.ask task .request).state.nextTask :=
    (Nat.le_add_right _ _).trans_eq hsplits.nextTask.symm
  refine ⟨Ask.keepsSound_perform task .request h.state hs.sound, ?_, ?_, ?_, ?_, ?_⟩
  · rw [htasks]
    exact hs.unique_append hsplits.nodup fun c hc => (hsplits.number hc).1
  · rw [htasks]
    intro t ht
    rcases List.mem_append.mp ht with ht | ht
    · exact Nat.lt_of_lt_of_le (hs.lt_next t ht) hnext
    · exact (hsplits.number ht).2
  · rw [htasks, History.exchanges_ask, hreply]
    intro x hx
    rcases List.mem_append.mp hx with hx | hx
    · obtain ⟨hknown, hreplied⟩ := hs.known x hx
      exact ⟨List.mem_append_left _ hknown, fun c hc => List.mem_append_left _ (hreplied c hc)⟩
    · obtain rfl := List.mem_singleton.mp hx
      exact ⟨List.mem_append_left _ htask, fun c hc => List.mem_append_right _ hc⟩
  · rw [htasks]
    intro id a ha
    have ha : (if task.id = id then some (Aggregation.start children) else h.state.kept id) = some a :=
      (hkept' id).symm.trans ha
    split at ha
    · rename_i hid
      obtain rfl := Option.some.inj ha
      refine ⟨hid ▸ Nat.lt_of_lt_of_le (hs.lt_next task htask) hnext, fun c hc => ?_⟩
      rw [children_start] at hc
      exact List.mem_append_right _ hc
    · obtain ⟨hlt, hchildren⟩ := hs.kept id a ha
      exact ⟨Nat.lt_of_lt_of_le hlt hnext, fun c hc => List.mem_append_left _ (hchildren c hc)⟩
  · rw [htasks]
    intro u hu
    have hstate : (h.ask task .request).state.kept u.id =
        if task.id = u.id then some (.start children) else h.state.kept u.id := hkept' u.id
    rw [habout, hstate]
    by_cases hid : task.id = u.id
    · rw [if_pos hid, if_pos hid]
      obtain rfl := hs.unique_append hsplits.nodup (fun c hc => (hsplits.number hc).1) task
        (List.mem_append_left _ htask) u hu hid
      exact hs.explained_first htask hkept hsplits
    · rw [if_neg hid, if_neg hid, List.append_nil]
      rcases List.mem_append.mp hu with hu | hu
      · exact hs.explained u hu
      · exact ⟨[], hs.explained_of_next_le (hsplits.number hu).1⟩

/-- Everything else is answered from what is kept, and issues nothing. -/
theorem answer (hs : Sane h) {task : Task} (htask : task ∈ h.tasks) {ask : Ask} {reply : Reply}
    {kept : Option Aggregation} (hanswer : ask.answer? task.id (h.state.kept task.id) = some (reply, kept)) :
    Sane (h.ask task ask) := by
  obtain ⟨hreply, hnext, hkept, hothers⟩ := Ask.perform_answer hanswer
  obtain ⟨hwithin, hwithin'⟩ := Ask.within_of_answer? hanswer
  have hreplied : ∀ c ∈ reply.tasks, c ∈ h.tasks := by
    intro c hc
    obtain ⟨a, ha, hmem⟩ := hwithin c hc
    exact (hs.kept task.id a ha).2 c hmem
  have htasks : ∀ t, t ∈ (h.ask task ask).tasks ↔ t ∈ h.tasks := by
    intro t
    rw [History.tasks_ask, hreply, List.mem_append]
    exact ⟨fun ht => ht.elim id (hreplied t), .inl⟩
  have habout (u : Task) := about_ask h task u ask
  rw [hreply] at habout
  refine ⟨Ask.keepsSound_perform task ask h.state hs.sound, ?_, ?_, ?_, ?_, ?_⟩
  · exact fun t ht u hu heq => hs.unique t ((htasks t).mp ht) u ((htasks u).mp hu) heq
  · intro t ht
    show t.id.number < (ask.perform task h.state).2.1.nextTask
    rw [hnext]
    exact hs.lt_next t ((htasks t).mp ht)
  · rw [History.exchanges_ask, hreply]
    intro x hx
    rcases List.mem_append.mp hx with hx | hx
    · obtain ⟨hknown, hcs⟩ := hs.known x hx
      exact ⟨(htasks _).mpr hknown, fun c hc => (htasks c).mpr (hcs c hc)⟩
    · obtain rfl := List.mem_singleton.mp hx
      exact ⟨(htasks _).mpr htask, fun c hc => (htasks c).mpr (hreplied c hc)⟩
  · intro id a ha
    have hlt : ∃ b, h.state.kept id = some b ∧ a.children ⊆ b.children := by
      by_cases hid : id = task.id
      · subst hid
        obtain ⟨b, hb, hab⟩ := hwithin' a (hkept.symm.trans ha)
        exact ⟨b, hb, hab.children⟩
      · exact ⟨a, (hothers id hid).symm.trans ha, List.Subset.refl _⟩
    obtain ⟨b, hb, hab⟩ := hlt
    obtain ⟨hlt, hchildren⟩ := hs.kept id b hb
    refine ⟨?_, fun c hc => (htasks c).mpr (hchildren c (hab hc))⟩
    show id.number < (ask.perform task h.state).2.1.nextTask
    rw [hnext]
    exact hlt
  · intro u hu
    have hu := (htasks u).mp hu
    rw [habout]
    by_cases hid : task.id = u.id
    · obtain rfl := hs.unique task htask u hu hid
      rw [if_pos rfl]
      obtain ⟨issued, hexplained⟩ := hs.explained task hu
      exact ⟨issued, hkept.symm ▸ hexplained.answer hanswer⟩
    · rw [if_neg hid, List.append_nil]
      obtain ⟨issued, hexplained⟩ := hs.explained u hu
      refine ⟨issued, ?_⟩
      show Explained u _ issued ((ask.perform task h.state).2.1.kept u.id)
      rw [hothers u.id fun heq => hid heq.symm]
      exact hexplained

end Sane

/-- **In every history** the numbers of tasks are their own, and contexts are sound. -/
theorem Happens.sane {h : History} (hh : Happens h) : Sane h := by
  induction hh with
  | start n =>
    refine ⟨?_, ?_, ?_, ?_, ?_, ?_⟩
    · intro parent slot hslot
      cases hslot
    · exact fun t ht => absurd ht List.not_mem_nil
    · exact fun t ht => absurd ht List.not_mem_nil
    · exact fun x hx => absurd hx List.not_mem_nil
    · intro id a ha
      cases ha
    · exact fun u hu => absurd hu List.not_mem_nil
  | newTask source expression _ _ ih => exact ih.newTask source _ expression
  | @ask h task ask _ htask ih =>
    cases hanswer : ask.answer? task.id (h.state.kept task.id) with
    | none =>
      obtain ⟨rfl, hkept⟩ := Ask.eq_request_of_answer? hanswer
      exact ih.first htask hkept
    | some answer => exact ih.answer htask hanswer

/-- **What was said about a task** is explained by what was said and asked about it. -/
theorem Happens.explained {h : History} (hh : Happens h) {u : Task} (hu : u ∈ h.tasks) :
    Explained u (h.about u) (h.issued u) (h.state.kept u.id) := by
  obtain ⟨issued, hexplained⟩ := hh.sane.explained u hu
  rw [History.issued, ← hexplained.issued_eq]
  exact hexplained

end Aggregator

end SmtCount
