import Mathlib
import SmtCount.Aggregator.Interleaving
import SmtCount.Proofs.Aggregator.Sections
import SmtCount.Proofs.Factors
import SmtCount.Proofs.Tables

/-!
# Operations that run one after another

The states that an aggregator gets into when its operations run one after another, each to its end.  In
all of them a context that is kept gives the free variables of every conjunct it knows, so a task is
split into the factors of its expression whatever tasks came before it.

## Main definitions

* `Operation` — what a host can ask for, and `Operation.perform` — doing it.
* `Reachable s` — the state `s` comes from a new aggregator by operations.
* `SoundContexts s` — every context of `s` gives the free variables.

## Main results

* `Reachable.soundContexts` — **contexts stay sound**.
* `request_of_no_entry` — **what the first request for a task issues and keeps**.
-/

namespace SmtCount

namespace Aggregator

/-! ### Sound contexts -/

/-- Does every context that is kept give the free variables of the conjuncts it knows? -/
def SoundContexts (s : Aggregator) : Prop :=
  ∀ parent slot, s.contexts.get? parent = some slot → slot.context.Sound

/-- Does an action keep contexts sound? -/
def Action.KeepsSound {α : Type} (x : Action α) : Prop :=
  ∀ s, SoundContexts s → SoundContexts (x s).2.1

section KeepsSound

variable {α β : Type}

theorem Action.KeepsSound.bind {x : Action α} {f : α → Action β} (hx : x.KeepsSound)
    (hf : ∀ a, (f a).KeepsSound) : (x >>= f).KeepsSound :=
  fun s hs => hf (x s).1 (x s).2.1 (hx s hs)

theorem Action.KeepsSound.ite {x y : Action α} (c : Prop) [Decidable c] (hx : x.KeepsSound)
    (hy : y.KeepsSound) : (if c then x else y).KeepsSound := by
  split
  · exact hx
  · exact hy

theorem keepsSound_of_contexts_eq {x : Action α} (h : ∀ s, (x s).2.1.contexts = s.contexts) :
    x.KeepsSound :=
  fun s hs parent slot hslot => hs parent slot (h s ▸ hslot)

theorem keepsSound_pure (a : α) : (pure a : Action α).KeepsSound :=
  keepsSound_of_contexts_eq fun _ => rfl

theorem keepsSound_say (log : Log) : (Action.say log).KeepsSound :=
  keepsSound_of_contexts_eq fun _ => rfl

theorem SoundContexts.insert {s : Aggregator} (hs : SoundContexts s) (parent : TaskId) {slot : ContextSlot}
    (hslot : slot.context.Sound) :
    SoundContexts { s with contexts := s.contexts.insert parent slot } := by
  intro p slot' h
  rw [Table.get?_insert] at h
  split at h
  · exact Option.some.inj h ▸ hslot
  · exact hs p slot' h

theorem SoundContexts.erase {s : Aggregator} (hs : SoundContexts s) (parent : TaskId) :
    SoundContexts { s with contexts := s.contexts.erase parent } := by
  intro p slot h
  rw [Table.get?_erase] at h
  split at h
  · cases h
  · exact hs p slot h

/-- A context that is taken is sound, and so are the ones that are kept. -/
theorem acquireContext_sound {s : Aggregator} (hs : SoundContexts s) (parent : Task) :
    (acquireContext parent s).1.Sound ∧ SoundContexts (acquireContext parent s).2.1 := by
  unfold acquireContext
  split
  · rename_i slot hslot
    exact ⟨hs _ slot hslot, hs.insert _ (hs _ slot hslot)⟩
  · exact ⟨FactorContext.sound_ofFormula _, hs.insert _ (FactorContext.sound_ofFormula _)⟩

theorem acquireParentContext_sound {s : Aggregator} (hs : SoundContexts s) (task : Task) :
    (∀ c ∈ (acquireParentContext task s).1, c.Sound) ∧
      SoundContexts (acquireParentContext task s).2.1 := by
  unfold acquireParentContext
  cases task.parent with
  | some parent =>
    obtain ⟨hcontext, hstate⟩ := acquireContext_sound hs parent
    refine ⟨fun c hc => ?_, hstate⟩
    exact Option.some.inj hc ▸ hcontext
  | none => exact ⟨fun c hc => absurd hc (Option.not_mem_none c), hs⟩

theorem keepsSound_releaseContext (parent : TaskId) : (releaseContext parent).KeepsSound := by
  intro s hs
  unfold releaseContext
  split
  · exact hs
  · rename_i slot hslot
    split
    · exact hs.erase parent
    · exact hs.insert parent (hs _ slot hslot)

theorem keepsSound_releaseParentContext (parent : Option TaskId) :
    (releaseParentContext parent).KeepsSound := by
  cases parent with
  | none => exact keepsSound_pure ()
  | some parent => exact keepsSound_releaseContext parent

theorem keepsSound_findEntry (task : TaskId) : (findEntry task).KeepsSound :=
  keepsSound_of_contexts_eq fun _ => rfl

theorem keepsSound_register (task : TaskId) (entry : Entry) : (register task entry).KeepsSound := by
  refine keepsSound_of_contexts_eq fun s => ?_
  unfold register
  split <;> rfl

theorem keepsSound_issueChildren (task : Task) (factors : List Expr) :
    (issueChildren task factors).KeepsSound := by
  refine keepsSound_of_contexts_eq fun s => ?_
  rw [(issueChildren_eq task factors s).2]

theorem keepsSound_countSplit (task : TaskId) (issued : Nat) : (countSplit task issued).KeepsSound :=
  keepsSound_of_contexts_eq fun _ => rfl

theorem keepsSound_split (task : Task) : (split task).KeepsSound := by
  have hacquire : (acquireParentContext task).KeepsSound :=
    fun s hs => (acquireParentContext_sound hs task).2
  refine hacquire.bind fun context => (keepsSound_say _).bind fun _ =>
    (keepsSound_issueChildren task _).bind fun children => (keepsSound_register _ _).bind fun found => ?_
  cases found with
  | some existing =>
    exact (keepsSound_releaseParentContext _).bind fun _ => keepsSound_pure _
  | none =>
    have hcount {children : List Task} : (countSplit task.id children.length).KeepsSound :=
      keepsSound_countSplit _ _
    exact .ite _ ((keepsSound_releaseParentContext _).bind fun _ => hcount.bind fun _ =>
      keepsSound_pure _) (hcount.bind fun _ => keepsSound_pure _)

theorem keepsSound_request (task : Task) : (request task).KeepsSound := by
  refine Action.KeepsSound.bind (keepsSound_of_contexts_eq fun _ => rfl) fun _ =>
    (keepsSound_findEntry _).bind fun found => ?_
  cases found with
  | some entry => exact keepsSound_pure _
  | none => exact keepsSound_split task

theorem keepsSound_childDone (task sub : TaskId) (count : Nat) : (childDone task sub count).KeepsSound := by
  refine (keepsSound_findEntry task).bind fun found => ?_
  cases found with
  | none => exact (keepsSound_say _).bind fun _ => keepsSound_pure _
  | some entry =>
    refine Action.KeepsSound.bind (keepsSound_of_contexts_eq fun _ => rfl) fun _ =>
      (keepsSound_say _).bind fun _ => ?_
    exact .ite _ ((keepsSound_releaseParentContext _).bind fun _ => keepsSound_pure _)
      (keepsSound_pure _)

theorem keepsSound_forget (task : TaskId) : (forget task).KeepsSound := by
  have hdrop : (Action.change fun s => { s with contexts := s.contexts.erase task }).KeepsSound :=
    fun s hs => hs.erase task
  refine (keepsSound_findEntry task).bind fun found => ?_
  cases found with
  | none => exact hdrop
  | some entry =>
    refine Action.KeepsSound.bind (keepsSound_of_contexts_eq fun _ => rfl) fun _ => ?_
    exact .ite _ ((keepsSound_releaseParentContext _).bind fun _ => hdrop) hdrop

theorem keepsSound_allChildrenDone (task : TaskId) (last : Completion) :
    (allChildrenDone task last).KeepsSound := by
  refine .ite _ (keepsSound_pure _) ((keepsSound_findEntry task).bind fun found => ?_)
  cases found with
  | none => exact keepsSound_pure _
  | some entry => exact .ite _ ((keepsSound_say _).bind fun _ => keepsSound_pure _) (keepsSound_pure _)

end KeepsSound

/-! ### Reachable states -/

/-- What a host can ask for. -/
inductive Operation
  | request (task : Task)
  | childDone (task sub : TaskId) (count : Nat)
  | allChildrenDone (task : TaskId) (last : Completion)
  | forget (task : TaskId)

/-- Does what is asked for, and gives the answer. -/
def Operation.perform : Operation → Action Answer
  | .request task => do
    let children ← Aggregator.request task
    pure (.children children)
  | .childDone task sub count => do
    let c ← Aggregator.childDone task sub count
    pure (.completion c)
  | .allChildrenDone task last => do
    let c ← Aggregator.allChildrenDone task last
    pure (.completion c)
  | .forget task => do
    Aggregator.forget task
    pure .forgotten

/-- Does a state come from a new aggregator by operations, each performed to its end, and by making
tasks? -/
inductive Reachable : Aggregator → Prop
  /-- A new aggregator. -/
  | new : Reachable {}
  /-- The state after the host has made a task. -/
  | newTask {s : Aggregator} (source : String) (parent : Option Task) (expression : Expr) :
    Reachable s → Reachable (newTask source parent expression s).2.1
  /-- The state after one more operation. -/
  | perform {s : Aggregator} (op : Operation) : Reachable s → Reachable (op.perform s).2.1

/-- **Contexts stay sound.** -/
theorem Reachable.soundContexts {s : Aggregator} (h : Reachable s) : SoundContexts s := by
  induction h with
  | new =>
    intro parent slot h
    cases h
  | newTask source parent expression _ ih => exact ih
  | perform op _ ih =>
    have hop : op.perform.KeepsSound := by
      cases op with
      | request task => exact (keepsSound_request task).bind fun _ => keepsSound_pure _
      | childDone task sub count =>
        exact (keepsSound_childDone task sub count).bind fun _ => keepsSound_pure _
      | allChildrenDone task last =>
        exact (keepsSound_allChildrenDone task last).bind fun _ => keepsSound_pure _
      | forget task => exact (keepsSound_forget task).bind fun _ => keepsSound_pure _
    exact hop _ ih

/-! ### The first request for a task -/

@[simp] theorem children_start (children : List Task) :
    (Aggregation.start children).children = children := by
  unfold Aggregation.start
  split
  · rename_i hempty
    exact (List.isEmpty_iff.mp hempty).symm
  · rfl

/-- What is issued and kept for a task that had no entry: a sub-task for each factor, found with a sound
context or without one, and an entry that waits for them. -/
def Issued (task : Task) (children : List Task) (s : Aggregator) : Prop :=
  (children.map Task.id).Nodup ∧
    (∃ context : Option FactorContext, (∀ c ∈ context, c.Sound) ∧
      children.map Task.expression = (factorize task.expression context).factors) ∧
    s.entries.get? task.id = some ⟨task.parent.map Task.id, Aggregation.start children⟩

/-- What the first request for a task makes of a state: a sub-task for each factor of its expression, which
takes the next number and goes back to the same source, and an entry that waits for them. -/
structure Splits (task : Task) (s : Aggregator) (children : List Task) (t : Aggregator) : Prop where
  ids : children.map Task.id = (List.range' s.nextTask children.length).map TaskId.mk
  nextTask : t.nextTask = s.nextTask + children.length
  origin : ∀ c ∈ children, c.source = task.source ∧ c.parent = none
  factors : children.map Task.expression = (factorize task.expression none).factors
  entries : t.entries = s.entries.insert task.id ⟨task.parent.map Task.id, Aggregation.start children⟩

/-- The sub-tasks are different tasks. -/
theorem Splits.nodup {task : Task} {s t : Aggregator} {children : List Task}
    (h : Splits task s children t) : (children.map Task.id).Nodup := by
  rw [h.ids]
  exact (List.nodup_range' 1 Nat.one_pos).map fun _ _ heq => TaskId.mk.inj heq

/-- The numbers of the sub-tasks were not taken before. -/
theorem Splits.number {task : Task} {s t : Aggregator} {children : List Task}
    (h : Splits task s children t) {c : Task} (hc : c ∈ children) :
    s.nextTask ≤ c.id.number ∧ c.id.number < t.nextTask := by
  have hmem : c.id ∈ children.map Task.id := List.mem_map_of_mem hc
  rw [h.ids] at hmem
  obtain ⟨m, hm, heq⟩ := List.mem_map.mp hmem
  obtain ⟨k, hk, rfl⟩ := List.mem_range'.mp hm
  have hnumber : s.nextTask + 1 * k = c.id.number := congrArg TaskId.number heq
  rw [h.nextTask]
  omega

theorem Splits.issued {task : Task} {s t : Aggregator} {children : List Task}
    (h : Splits task s children t) : Issued task children t := by
  refine ⟨h.nodup, ⟨none, fun c hc => absurd hc (Option.not_mem_none c), h.factors⟩, ?_⟩
  rw [h.entries, Table.get?_insert, if_pos rfl]

/-- What is issued when the context is sound. -/
theorem splits_of_issued {s t : Aggregator} {task : Task} {context : Option FactorContext}
    (hsound : ∀ c ∈ context, c.Sound) {children : List Task}
    (hchildren : children = (issueChildren task (factorize task.expression context).factors s).1)
    (hnext : t.nextTask = s.nextTask + children.length)
    (hentries : t.entries =
      s.entries.insert task.id ⟨task.parent.map Task.id, Aggregation.start children⟩) :
    Splits task s children t := by
  have hexpressions : children.map Task.expression = (factorize task.expression context).factors := by
    rw [hchildren, map_expression_issueChildren]
  refine ⟨?_, hnext, fun c hc => ?_, ?_, hentries⟩
  · rw [← List.length_map Task.expression, hexpressions, hchildren, map_id_issueChildren]
  · rw [hchildren, (issueChildren_eq task _ s).1] at hc
    obtain ⟨p, -, rfl⟩ := List.mem_map.mp hc
    exact ⟨rfl, rfl⟩
  · rw [hexpressions, factors_eq _ hsound, factors_eq _ fun c hc => absurd hc (Option.not_mem_none c)]

theorem split_of_no_entry {s : Aggregator} (hs : SoundContexts s) {task : Task}
    (h : s.entries.get? task.id = none) : (split task).Ensures s (Splits task s) := by
  refine .bind (P := fun context t => (∀ c ∈ context, c.Sound) ∧ t.entries = s.entries ∧
      t.nextTask = s.nextTask)
    ⟨(acquireParentContext_sound hs task).1, keepsEntries_acquireParentContext task s,
      by rw [acquireParentContext_eq]⟩ ?_
  rintro context s₁ ⟨hcontext, h₁, hnext₁⟩
  refine .bind (P := fun _ t => s₁ = t) rfl ?_
  rintro _ _ rfl
  refine .bind (P := fun children t =>
      children = (issueChildren task (factorize task.expression context).factors s₁).1 ∧
      t.entries = s₁.entries ∧ t.nextTask = s₁.nextTask + children.length)
    ⟨rfl, keepsEntries_issueChildren task _ s₁, ?_⟩ ?_
  · rw [(issueChildren_eq task _ s₁).2, ← List.length_map Task.expression, map_expression_issueChildren]
  rintro children s₂ ⟨hchildren, h₂, hnext₂⟩
  have hfresh : s₂.entries.get? task.id = none := by rw [h₂, h₁, h]
  -- once the entry is kept, nothing touches entries or numbers
  have hsplits {t : Aggregator} (hnext : t.nextTask = s₂.nextTask) (hentries : t.entries =
      s₂.entries.insert task.id ⟨task.parent.map Task.id, Aggregation.start children⟩) :
      Splits task s children t := by
    obtain ⟨hids, hnext, horigin, hfactors, hentries⟩ :=
      splits_of_issued (t := t) hcontext hchildren (hnext.trans hnext₂) (h₂ ▸ hentries)
    rw [hnext₁] at hids hnext
    rw [h₁] at hentries
    exact ⟨hids, hnext, horigin, hfactors, hentries⟩
  refine .bind (P := fun found t => found = none ∧ t.nextTask = s₂.nextTask ∧ t.entries =
      s₂.entries.insert task.id ⟨task.parent.map Task.id, Aggregation.start children⟩) ?_ ?_
  · unfold Action.Ensures
    rw [register_of_no_entry hfresh]
    exact ⟨rfl, rfl, rfl⟩
  · rintro _ s₃ ⟨rfl, hnext₃, h₃⟩
    have hcount {t : Aggregator} (hnext : t.nextTask = s₃.nextTask) (hentries : t.entries = s₃.entries) :
        (do countSplit task.id children.length; pure (Aggregation.start children).children :
          Action (List Task)).Ensures t (Splits task s) := by
      refine .bind (P := fun _ t => t.nextTask = s₃.nextTask ∧ t.entries = s₃.entries)
        ⟨hnext, hentries⟩ ?_
      rintro _ t ⟨hnext, hentries⟩
      rw [Action.Ensures, children_start]
      exact hsplits (hnext.trans hnext₃) (hentries.trans h₃)
    refine .ite (fun _ => ?_) fun _ => hcount rfl rfl
    refine .bind (P := fun _ t => t.nextTask = s₃.nextTask ∧ t.entries = s₃.entries)
      ⟨by rw [releaseParentContext_eq], keepsEntries_releaseParentContext _ s₃⟩ ?_
    rintro _ t ⟨hnext, hentries⟩
    exact hcount hnext hentries

/-- **The first request for a task** splits it. -/
theorem request_splits {s : Aggregator} (hs : SoundContexts s) {task : Task}
    (h : s.entries.get? task.id = none) : (request task).Ensures s (Splits task s) := by
  refine .bind (P := fun _ t => t = { s with invocations := s.invocations + 1 }) rfl ?_
  rintro _ s₁ rfl
  refine .bind (P := fun found t => found = none ∧ t = { s with invocations := s.invocations + 1 })
    ⟨h, rfl⟩ ?_
  rintro _ _ ⟨rfl, rfl⟩
  refine Action.Ensures.mono (split_of_no_entry (s := { s with invocations := s.invocations + 1 }) hs h) ?_
  rintro children t ⟨hids, hnext, horigin, hfactors, hentries⟩
  exact ⟨hids, hnext, horigin, hfactors, hentries⟩

/-- **The first request for a task** issues a sub-task for each factor of its expression, and keeps an
entry that waits for them. -/
theorem request_of_no_entry {s : Aggregator} (hs : SoundContexts s) {task : Task}
    (h : s.entries.get? task.id = none) : (request task).Ensures s (Issued task) :=
  (request_splits hs h).mono fun _ _ => Splits.issued

/-! ### Notifications for a task that has an entry -/

/-- A notification is answered by the aggregation of the task, and nothing but that changes in the
entries. -/
theorem childDone_receives {s : Aggregator} {task : TaskId} {e : Entry}
    (h : s.entries.get? task = some e) (sub : TaskId) (count : Nat) :
    (childDone task sub count).Ensures s fun c t =>
      c = (e.aggregation.receive sub count).1.completion ∧ t.nextTask = s.nextTask ∧
        t.entries =
          s.entries.insert task { e with aggregation := (e.aggregation.receive sub count).2 } := by
  refine .bind (P := fun found t => found = some e ∧ s = t) ⟨h, rfl⟩ ?_
  rintro _ _ ⟨rfl, rfl⟩
  refine .bind (P := fun _ t => t.nextTask = s.nextTask ∧ t.entries =
    s.entries.insert task { e with aggregation := (e.aggregation.receive sub count).2 }) ⟨rfl, rfl⟩ ?_
  rintro _ s₁ ⟨hnext, hentries⟩
  refine .bind (P := fun _ t => s₁ = t) rfl ?_
  rintro _ _ rfl
  refine .ite (fun _ => ?_) fun _ => ⟨rfl, hnext, hentries⟩
  refine .bind (P := fun _ t => t.nextTask = s₁.nextTask ∧ t.entries = s₁.entries)
    ⟨by rw [releaseParentContext_eq], keepsEntries_releaseParentContext _ s₁⟩ ?_
  rintro _ t ⟨hnext₁, hentries₁⟩
  exact ⟨rfl, hnext₁.trans hnext, hentries₁.trans hentries⟩

theorem childDone_of_entry {s : Aggregator} {task : TaskId} {e : Entry}
    (h : s.entries.get? task = some e) (sub : TaskId) (count : Nat) :
    (childDone task sub count).Ensures s fun c t =>
      c = (e.aggregation.receive sub count).1.completion ∧
        t.entries.get? task = some { e with aggregation := (e.aggregation.receive sub count).2 } := by
  refine (childDone_receives h sub count).mono ?_
  rintro c t ⟨hc, -, hentries⟩
  refine ⟨hc, ?_⟩
  rw [hentries, Table.get?_insert, if_pos rfl]

/-- How a task stands is what its aggregation concludes. -/
theorem allChildrenDone_of_entry {s : Aggregator} {task : TaskId} {e : Entry}
    (h : s.entries.get? task = some e) :
    (allChildrenDone task .pending s).1 = e.aggregation.conclude task := by
  have hensures : (allChildrenDone task .pending).Ensures s fun c _ => c = e.aggregation.conclude task := by
    refine .ite (fun hlast => absurd rfl hlast) fun _ => ?_
    refine .bind (P := fun found _ => found = some e) h ?_
    rintro _ _ rfl
    refine .ite (fun _ => ?_) fun _ => rfl
    exact .bind (P := fun _ _ => True) trivial fun _ _ _ => rfl
  exact hensures

end Aggregator

end SmtCount
