import Mathlib
import SmtCount.Proofs.Aggregator.Events
import SmtCount.Proofs.Aggregator.Runs

/-!
# The stages of a request

Several requests may split one task at the same time, since no lock is held between looking its entry up and
keeping one.  The first to keep an entry wins; the others give up what they have issued and answer with
what the winner has kept.  Meanwhile notifications may make the count final, and then there is nothing
left to answer with.

As long as nothing is forgotten, an entry stays once it is kept, and what an operation has learned in one
section is still so in the next.

## Main definitions

* `Entry.IsFor e task children` — the entry `e` is kept for `task`, which was split into `children`.
* `Stage log s c₀ c` — how far an operation has come, and what it may rely on there.
* `Recorded log s` — what the events so far have made of the state.

## Main results

* `Recorded.step`, `Stage.step` — **one section** keeps the record, and brings its operation to a stage that
  follows.
-/

namespace SmtCount

/-! ### Entries -/

/-- Is the entry kept for a task that was split into `children`?  It gives them away when its count is
final. -/
structure Entry.IsFor (e : Entry) (task : Task) (children : List Task) : Prop where
  parent_eq : e.parent = task.parent.map Task.id
  children_eq : e.aggregation.children = if e.aggregation.isFinal then [] else children
  outstanding_subset : ∀ id ∈ e.aggregation.outstanding, id ∈ children.map Task.id

namespace Entry

theorem isFor_start (task : Task) (children : List Task) :
    IsFor ⟨task.parent.map Task.id, .start children⟩ task children := by
  unfold Aggregation.start
  split
  · exact ⟨rfl, rfl, fun id hid => absurd hid List.not_mem_nil⟩
  · exact ⟨rfl, rfl, fun id hid => hid⟩

theorem IsFor.receive {e : Entry} {task : Task} {children : List Task} (h : e.IsFor task children)
    (sub : TaskId) (n : Nat) :
    IsFor { e with aggregation := (e.aggregation.receive sub n).2 } task children := by
  obtain ⟨hparent, hchildren, houtstanding⟩ := h
  unfold Aggregation.receive
  split
  · exact ⟨hparent, hchildren, houtstanding⟩
  rename_i hwaits
  split
  · exact ⟨hparent, rfl, fun id hid => absurd hid List.not_mem_nil⟩
  split
  · exact ⟨hparent, hchildren, houtstanding⟩
  dsimp only
  split
  · exact ⟨hparent, rfl, fun id hid => absurd hid List.not_mem_nil⟩
  · rw [if_neg hwaits] at hchildren
    exact ⟨hparent, hchildren, fun id hid => houtstanding id (List.mem_of_mem_erase hid)⟩

theorem IsFor.after {e : Entry} {task : Task} {children : List Task} (h : e.IsFor task children)
    (ns : List Aggregation.Notice) : (e.after ns).IsFor task children := by
  induction ns generalizing e with
  | nil => exact h
  | cons n ns ih => exact ih (h.receive n.sub n.count)

/-- A count stays final. -/
theorem isFinal_after {e : Entry} (h : e.aggregation.isFinal = true) (ns : List Aggregation.Notice) :
    (e.after ns).aggregation.isFinal = true := by
  induction ns generalizing e with
  | nil => exact h
  | cons n ns ih =>
    have hn : (e.aggregation.receive n.sub n.count).2.isFinal = true := by
      rw [Aggregation.receive_of_isFinal h]
      exact h
    exact ih (e := { e with aggregation := (e.aggregation.receive n.sub n.count).2 }) hn

end Entry

namespace Aggregator

open Event (requests registrations rejections)

/-! ### One section -/

/-- No section makes a context give wrong variables. -/
theorem SoundContexts.step {s : Shared} (hs : SoundContexts s.state) (c : Call) :
    SoundContexts (c.step s).2.1.state := by
  have hsame {t : Aggregator} (ht : SoundContexts t) (h : (c.step s).2.1.state.contexts = t.contexts) :
      SoundContexts (c.step s).2.1.state := fun p slot hslot => ht p slot (h ▸ hslot)
  rcases Shared.contexts_step s c with h | ⟨task, h⟩ | ⟨parent, h⟩ | ⟨task, h⟩
  · exact hsame hs h
  · exact hsame (acquireParentContext_sound hs task).2 h
  · exact hsame (keepsSound_releaseParentContext parent s.state hs) h
  · exact hsame (hs.erase task) h

namespace Shared

variable {s : Shared}

/-- Only forgetting begins a new generation. -/
theorem generation_step {c : Call} (hc : ∀ task, c ≠ .forget task) (task : TaskId) :
    (c.step s).2.1.generation task = s.generation task := by
  have heffect := c.effect_step s
  generalize (c.step s).2.1 = t at heffect ⊢
  cases heffect with
  | @detach t _ _ => exact absurd rfl (hc t)
  | deliver _ _ _ => exact generation_put s _ _ task
  | _ => rfl

/-- Only registering a task makes an entry for a task that had none. -/
theorem entries_step (s : Shared) (c : Call) {id : TaskId} {e : Entry}
    (h : (c.step s).2.1.state.entries.get? id = some e) :
    (∃ e, s.state.entries.get? id = some e) ∨ ∃ task children, c = .register task children ∧ task.id = id := by
  have hkeep {α : Type} {x : Action α} (hx : x.KeepsEntries)
      (h : (s.act x).2.1.state.entries.get? id = some e) : ∃ e, s.state.entries.get? id = some e :=
    ⟨e, hx s.state ▸ h⟩
  have heffect := c.effect_step s
  generalize (c.step s).2.1 = t at heffect h
  cases heffect with
  | acquire task => exact .inl (hkeep (keepsEntries_acquireParentContext task) h)
  | giveBack parent => exact .inl (hkeep (keepsEntries_releaseParentContext parent) h)
  | @register task children _ =>
    rw [keep, Table.get?_insert] at h
    split at h
    · rename_i hid
      exact .inr ⟨task, children, rfl, hid⟩
    · exact .inl ⟨e, h⟩
  | @deliver k e' _ _ he' =>
    rw [put] at h
    split at h
    · rename_i hgen
      rw [ entry?, if_pos hgen] at he'
      rw [Table.get?_insert] at h
      split at h
      · rename_i hid
        exact .inl ⟨e', hid ▸ he'⟩
      · exact .inl ⟨e, h⟩
    · exact .inl ⟨e, h⟩
  | detach he' =>
    rw [detach, he', Table.get?_erase] at h
    split at h
    · cases h
    · exact .inl ⟨e, h⟩
  | _ => exact .inl ⟨e, h⟩

end Shared

/-! ### Stages -/

/-- How far an operation that began as `c₀` has come, after some events and in some state.  A request relies
on what it has learned: that its task is registered, and with which sub-tasks. -/
inductive Stage (log : List Event) (s : Aggregator) : Call → Call → Prop
  | request (task : Task) : Stage log s (.request task) (.request task)
  | lookUp {task : Task} (hrequested : task ∈ requests log) : Stage log s (.request task) (.lookUp task)
  | acquire {task : Task} (hrequested : task ∈ requests log) : Stage log s (.request task) (.acquire task)
  | split {task : Task} {context : Option FactorContext} (hrequested : task ∈ requests log)
      (hsound : ∀ c ∈ context, c.Sound) : Stage log s (.request task) (.split task context)
  | register {task : Task} {children : List Task} (hrequested : task ∈ requests log)
      (hfactors : children.map Task.expression = (factorize task.expression none).factors) :
      Stage log s (.request task) (.register task children)
  | withdraw {task : Task} {children : List Task} (hregistered : (task, children) ∈ registrations log) :
      Stage log s (.request task) (.withdraw task ⟨task.id, 0⟩)
  | readChildren {task : Task} {children : List Task} (hregistered : (task, children) ∈ registrations log) :
      Stage log s (.request task) (.readChildren ⟨task.id, 0⟩)
  | settle {task : Task} (hregistered : (task, []) ∈ registrations log) :
      Stage log s (.request task) (.settle task)
  | count {task : Task} {children : List Task} (hregistered : (task, children) ∈ registrations log) :
      Stage log s (.request task) (.count task children)
  | children {task : Task} {children : List Task} (hregistered : (task, children) ∈ registrations log) :
      Stage log s (.request task) (.answered (.children children))
  | nothingLeft {task : Task} {children : List Task} {e : Entry}
      (hregistered : (task, children) ∈ registrations log) (hentry : s.entries.get? task.id = some e)
      (hfinal : e.aggregation.isFinal = true) :
      Stage log s (.request task) (.answered (.children []))
  | notify (task sub : TaskId) (n : Nat) : Stage log s (.notify task sub n) (.notify task sub n)
  | deliver {task sub : TaskId} {n : Nat} :
      Stage log s (.notify task sub n) (.deliver ⟨task, 0⟩ sub n)
  | release {task sub : TaskId} {n : Nat} (parent : Option TaskId) (c : Completion) :
      Stage log s (.notify task sub n) (.release parent c)
  | told {task sub : TaskId} {n : Nat} (c : Completion) :
      Stage log s (.notify task sub n) (.answered (.completion c))

/-- What the events so far have made of the state. -/
structure Recorded (log : List Event) (s : Shared) : Prop where
  generation : ∀ task, s.generation task = 0
  sound : SoundContexts s.state
  once : ((registrations log).map fun r => r.1.id).Nodup
  kept : ∀ r ∈ registrations log, ∃ e, s.state.entries.get? r.1.id = some e ∧ e.IsFor r.1 r.2
  only : ∀ id e, s.state.entries.get? id = some e → ∃ r ∈ registrations log, r.1.id = id
  factors : ∀ r ∈ registrations log, r.2.map Task.expression = (factorize r.1.expression none).factors
  requested : ∀ r ∈ registrations log, r.1 ∈ requests log

section Stage

variable {log : List Event} {s : Shared} {c₀ c : Call}

theorem Recorded.handle?_eq (h : Recorded log s) {task : TaskId} {k : Handle} (hk : s.handle? task = some k) :
    k = ⟨task, 0⟩ ∧ ∃ e, s.state.entries.get? task = some e := by
  obtain ⟨e, he, rfl⟩ := Option.map_eq_some_iff.mp hk
  exact ⟨congrArg (Handle.mk task) (h.generation task), e, he⟩

theorem Recorded.entry? (h : Recorded log s) (task : TaskId) :
    s.entry? ⟨task, 0⟩ = s.state.entries.get? task :=
  if_pos (h.generation task).symm

/-- An entry in reach stays there, and takes what is delivered to it. -/
theorem Recorded.get?_step (h : Recorded log s) (hc : ∀ task, c ≠ .forget task) {task : TaskId} {e : Entry}
    (he : s.state.entries.get? task = some e) :
    ∃ ns, (c.step s).2.1.state.entries.get? task = some (e.after ns) := by
  have hs : s.Holds ⟨task, 0⟩ e := ⟨(h.entry? task).trans he, Nat.zero_le _⟩
  refine ⟨_, Eq.trans ?_ (hs.step c).entry⟩
  refine (if_pos ?_).symm
  rw [Shared.generation_step hc, h.generation]

/-- Sub-tasks that are waited for were registered. -/
theorem Recorded.mem_registrations_of_outstanding (h : Recorded log s) {id sub : TaskId} {e : Entry}
    (he : s.state.entries.get? id = some e) (hsub : sub ∈ e.aggregation.outstanding) :
    ∃ r ∈ registrations log, sub ∈ r.2.map Task.id := by
  obtain ⟨r, hr, rfl⟩ := h.only id e he
  obtain ⟨e', he', hfor⟩ := h.kept r hr
  obtain rfl := Option.some.inj (he.symm.trans he')
  exact ⟨r, hr, hfor.outstanding_subset sub hsub⟩

theorem Stage.ne_forget (h : Stage log s.state c₀ c) (task : TaskId) : c ≠ .forget task := by
  rintro rfl
  cases h

/-- What a request has learned stays so. -/
theorem Stage.mono {s t : Aggregator} (h : Stage log s c₀ c) (new : List Event)
    (hfinal : ∀ id e, s.entries.get? id = some e → e.aggregation.isFinal = true →
      ∃ e', t.entries.get? id = some e' ∧ e'.aggregation.isFinal = true) :
    Stage (log ++ new) t c₀ c := by
  cases h with
  | request task => exact .request task
  | lookUp h => exact .lookUp (Event.mem_requests_append h new)
  | acquire h => exact .acquire (Event.mem_requests_append h new)
  | split h hsound => exact .split (Event.mem_requests_append h new) hsound
  | register h hfactors => exact .register (Event.mem_requests_append h new) hfactors
  | withdraw h => exact .withdraw (Event.mem_registrations_append h new)
  | readChildren h => exact .readChildren (Event.mem_registrations_append h new)
  | settle h => exact .settle (Event.mem_registrations_append h new)
  | count h => exact .count (Event.mem_registrations_append h new)
  | children h => exact .children (Event.mem_registrations_append h new)
  | nothingLeft h hentry hisFinal =>
    obtain ⟨e', hentry', hisFinal'⟩ := hfinal _ _ hentry hisFinal
    exact .nothingLeft (Event.mem_registrations_append h new) hentry' hisFinal'
  | notify task sub n => exact .notify task sub n
  | deliver => exact .deliver
  | release parent c => exact .release parent c
  | told c => exact .told c

/-! ### One section, for the state -/

namespace Recorded

/-- What is registered keeps its entry, which takes what is delivered to it. -/
theorem kept_step (h : Recorded log s) (hc : ∀ task, c ≠ .forget task) {r : Task × List Task}
    (hr : r ∈ registrations log) :
    ∃ e, (c.step s).2.1.state.entries.get? r.1.id = some e ∧ e.IsFor r.1 r.2 := by
  obtain ⟨e, he, hfor⟩ := h.kept r hr
  obtain ⟨ns, hns⟩ := h.get?_step hc he
  exact ⟨_, hns, hfor.after ns⟩

theorem generation_step (h : Recorded log s) (hc : ∀ task, c ≠ .forget task) (task : TaskId) :
    (c.step s).2.1.generation task = 0 :=
  (Shared.generation_step hc task).trans (h.generation task)

/-- A section that registers nothing makes no entry. -/
theorem step_of_no_registration (h : Recorded log s) (hc : ∀ task, c ≠ .forget task)
    (hnone : registrations (c.event? s).toList = []) :
    Recorded (log ++ (c.event? s).toList) (c.step s).2.1 := by
  have hlog : registrations (log ++ (c.event? s).toList) = registrations log := by
    rw [Event.registrations_append, hnone, List.append_nil]
  refine ⟨h.generation_step hc, h.sound.step c, ?_, ?_, ?_, ?_, ?_⟩
  all_goals rw [hlog]
  · exact h.once
  · exact fun r hr => h.kept_step hc hr
  · intro id e he
    rcases Shared.entries_step s c he with ⟨e', he'⟩ | ⟨task, children, rfl, rfl⟩
    · exact h.only id e' he'
    · -- the task is not registered here, so it has an entry already
      cases hfound : s.handle? task.id with
      | none =>
        rw [Call.event?, hfound] at hnone
        cases hnone
      | some k =>
        obtain ⟨-, e', he'⟩ := h.handle?_eq hfound
        exact h.only _ e' he'
  · exact h.factors
  · exact fun r hr => Event.mem_requests_append (h.requested r hr) _

/-- A section that registers a task makes an entry for it, the first one. -/
theorem step_register (h : Recorded log s) {task : Task} {children : List Task} (hnew : s.handle? task.id = none)
    (htask : task ∈ requests log)
    (hfactors : children.map Task.expression = (factorize task.expression none).factors) :
    Recorded (log ++ (Call.event? s (.register task children)).toList)
      ((Call.register task children).step s).2.1 := by
  have hc : ∀ id, Call.register task children ≠ .forget id := fun _ heq => Call.noConfusion heq
  have hlog : registrations (log ++ (Call.event? s (.register task children)).toList) =
      registrations log ++ [(task, children)] := by
    rw [Event.registrations_append, Call.event?, hnew]
    rfl
  have hentries : ((Call.register task children).step s).2.1.state.entries =
      s.state.entries.insert task.id ⟨task.parent.map Task.id, .start children⟩ := by
    rw [Call.step, hnew]
    exact congrArg (fun s => s.state.entries) (Shared.act_register hnew _)
  -- what holds of all that was registered before, and of this, holds of all that is registered now
  have hall {P : Task × List Task → Prop} (hold : ∀ r ∈ registrations log, P r) (hlast : P (task, children)) :
      ∀ r ∈ registrations log ++ [(task, children)], P r :=
    List.forall_mem_append.mpr ⟨hold, List.forall_mem_singleton.mpr hlast⟩
  refine ⟨h.generation_step hc, h.sound.step _, ?_, ?_, ?_, ?_, ?_⟩
  all_goals rw [hlog]
  · rw [List.map_append, List.nodup_append']
    refine ⟨h.once, List.nodup_singleton _, fun id hid hlast => ?_⟩
    obtain ⟨r, hr, rfl⟩ := List.mem_map.mp hid
    obtain ⟨e, he, -⟩ := h.kept r hr
    rw [List.mem_singleton.mp hlast, Shared.get?_entries_of_handle? hnew] at he
    cases he
  · refine hall (fun r hr => h.kept_step hc hr) ⟨_, ?_, Entry.isFor_start task children⟩
    rw [hentries, Table.get?_insert, if_pos rfl]
  · intro id e he
    rw [hentries, Table.get?_insert] at he
    split at he
    · rename_i hid
      exact ⟨_, List.mem_append_right _ (List.mem_singleton_self _), hid⟩
    · obtain ⟨r, hr, hid⟩ := h.only id e he
      exact ⟨r, List.mem_append_left _ hr, hid⟩
  · exact hall h.factors hfactors
  · exact hall (fun r hr => Event.mem_requests_append (h.requested r hr) _) (Event.mem_requests_append htask _)

/-- **One section, for the state**: what is recorded is kept, and what is kept is recorded. -/
theorem step (h : Recorded log s) (hstage : Stage log s.state c₀ c) :
    Recorded (log ++ (c.event? s).toList) (c.step s).2.1 := by
  rcases Call.registrations_event s c with hnone | ⟨task, children, rfl, hnew, -⟩
  · exact h.step_of_no_registration hstage.ne_forget hnone
  · cases hstage with
    | register htask hfactors => exact h.step_register hnew htask hfactors

end Recorded

/-! ### One section, for the operation -/

/-- The entry that is found for a requested task was registered for that very task. -/
theorem Recorded.exists_registered (h : Recorded log s)
    (hunique : ∀ t ∈ requests log, ∀ u ∈ requests log, t.id = u.id → t = u) {task : Task} {k : Handle}
    (htask : task ∈ requests log) (hk : s.handle? task.id = some k) :
    k = ⟨task.id, 0⟩ ∧ ∃ children, (task, children) ∈ registrations log := by
  obtain ⟨rfl, e, he⟩ := h.handle?_eq hk
  obtain ⟨⟨u, children⟩, hr, hid⟩ := h.only _ e he
  obtain rfl := hunique u (h.requested _ hr) task htask hid
  exact ⟨rfl, children, hr⟩

namespace Stage

/-- A request that finds an entry will read it, and one that finds none will split its task. -/
theorem step_lookUp (hrecorded : Recorded log s)
    (hunique : ∀ t ∈ requests log, ∀ u ∈ requests log, t.id = u.id → t = u) {task : Task}
    (htask : task ∈ requests log) (t : Aggregator) :
    Stage log t (.request task) ((Call.lookUp task).step s).1 := by
  rw [Call.step]
  split
  · rename_i k hk
    obtain ⟨rfl, children, hr⟩ := hrecorded.exists_registered hunique htask hk
    exact .readChildren hr
  · exact .acquire htask

/-- A request that comes too late withdraws, and one that does not has registered its task. -/
theorem step_register (hrecorded : Recorded log s)
    (hunique : ∀ t ∈ requests log, ∀ u ∈ requests log, t.id = u.id → t = u) {task : Task}
    (htask : task ∈ requests log) (children : List Task) (t : Aggregator) :
    Stage (log ++ (Call.event? s (.register task children)).toList) t (.request task)
      ((Call.register task children).step s).1 := by
  cases hk : s.handle? task.id with
  | some k =>
    obtain ⟨rfl, children', hr⟩ := hrecorded.exists_registered hunique htask hk
    rw [Call.step, hk]
    exact .withdraw (Event.mem_registrations_append hr _)
  | none =>
    have hr : (task, children) ∈ registrations (log ++ (Call.event? s (.register task children)).toList) := by
      rw [Event.registrations_append, Call.event?, hk]
      exact List.mem_append_right _ (List.mem_singleton_self _)
    rw [Call.step, hk]
    cases children with
    | nil => exact .settle hr
    | cons child children => exact .count hr

/-- A request answers with what was registered, or with nothing if the count is final. -/
theorem step_readChildren (hrecorded : Recorded log s) {task : Task} {children : List Task}
    (hr : (task, children) ∈ registrations log) :
    Stage log s.state (.request task) ((Call.readChildren ⟨task.id, 0⟩).step s).1 := by
  obtain ⟨e, he, hfor⟩ := hrecorded.kept _ hr
  rw [Call.step, hrecorded.entry?, he, Option.map_some, Option.getD_some, hfor.children_eq]
  cases hfinal : e.aggregation.isFinal with
  | true => exact .nothingLeft hr he hfinal
  | false => exact .children hr

/-- A notification goes to the entry of its task, if there is one. -/
theorem step_notify (hrecorded : Recorded log s) (task sub : TaskId) (n : Nat) (t : Aggregator) :
    Stage log t (.notify task sub n) ((Call.notify task sub n).step s).1 := by
  rw [Call.step]
  split
  · rename_i k hk
    obtain ⟨rfl, -⟩ := hrecorded.handle?_eq hk
    exact .deliver
  · exact .told _

/-- A notification that makes a count final gives the context back before it is answered. -/
theorem step_deliver (task sub : TaskId) (n : Nat) (t : Aggregator) :
    Stage log t (.notify task sub n) ((Call.deliver ⟨task, 0⟩ sub n).step s).1 := by
  rw [Call.step]
  split
  · exact .told _
  · dsimp only
    split
    · exact .release _ _
    · exact .told _

/-- **One section, for the operation**: it goes on to a stage that follows. -/
theorem step (h : Stage log s.state c₀ c) (hrecorded : Recorded log s)
    (hunique : ∀ t ∈ requests log, ∀ u ∈ requests log, t.id = u.id → t = u) :
    Stage (log ++ (c.event? s).toList) (c.step s).2.1.state c₀ (c.step s).1 := by
  -- most sections are no events
  have hlog (hnone : c.event? s = none) : log ++ (c.event? s).toList = log := by
    rw [hnone, Option.toList_none, List.append_nil]
  cases h with
  | request task =>
    refine .lookUp ?_
    rw [Event.requests_append]
    exact List.mem_append_right _ (List.mem_singleton_self task)
  | lookUp htask =>
    rw [hlog rfl]
    exact step_lookUp hrecorded hunique htask _
  | acquire htask =>
    exact .split (Event.mem_requests_append htask _) (acquireParentContext_sound hrecorded.sound _).1
  | split htask hsound =>
    refine .register (Event.mem_requests_append htask _) ?_
    refine (map_expression_issueChildren _ _ s.state).trans ?_
    rw [factors_eq _ hsound, factors_eq _ fun c hc => absurd hc (Option.not_mem_none c)]
  | register htask _ => exact step_register hrecorded hunique htask _ _
  | withdraw hr => exact .readChildren (Event.mem_registrations_append hr _)
  | readChildren hr =>
    rw [hlog rfl]
    exact step_readChildren hrecorded hr
  | settle hr => exact .count (Event.mem_registrations_append hr _)
  | count hr => exact .children (Event.mem_registrations_append hr _)
  | children hr => exact .children (Event.mem_registrations_append hr _)
  | nothingLeft hr he hfinal => exact .nothingLeft (Event.mem_registrations_append hr _) he hfinal
  | notify task sub n =>
    rw [hlog rfl]
    exact step_notify hrecorded task sub n _
  | deliver => exact step_deliver _ _ _ _
  | release parent c => exact .told c
  | told c => exact .told c

end Stage

end Stage

end Aggregator

end SmtCount
