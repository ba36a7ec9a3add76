import Mathlib
import SmtCount.Aggregator.Operations

/-!
# What the sections of the aggregator change

The sections that operations are made of, and what each of them does to the state.  Most of them have
nothing to do with the entries; the one that issues sub-tasks takes fresh numbers for them.

## Main definitions

* `Action.Ensures x s Q` — from `s`, the action `x` gives a value and a state with the property `Q`.
* `Action.KeepsEntries x` — the action `x` leaves all entries in reach as they are.

## Main results

* `issueChildren_eq` — the sub-tasks that are issued, one for each factor, numbered one after another.
* `nodup_ids_issueChildren` — **no two sub-tasks of a task are the same task**.
-/

namespace SmtCount.Aggregator

namespace Action

variable {α β : Type}

/-! ### What an action leads to -/

/-- Does the action, from this state, give a value and a state with this property? -/
def Ensures (x : Action α) (s : Aggregator) (Q : α → Aggregator → Prop) : Prop :=
  Q (x s).1 (x s).2.1

theorem Ensures.mono {x : Action α} {s : Aggregator} {P Q : α → Aggregator → Prop} (hx : x.Ensures s P)
    (h : ∀ a t, P a t → Q a t) : x.Ensures s Q :=
  h (x s).1 (x s).2.1 hx

theorem Ensures.bind {x : Action α} {f : α → Action β} {s : Aggregator} {P : α → Aggregator → Prop}
    {Q : β → Aggregator → Prop} (hx : x.Ensures s P) (hf : ∀ a t, P a t → (f a).Ensures t Q) :
    (x >>= f).Ensures s Q :=
  hf (x s).1 (x s).2.1 hx

theorem Ensures.ite {x y : Action α} {s : Aggregator} {Q : α → Aggregator → Prop} {c : Prop}
    [Decidable c] (hx : c → x.Ensures s Q) (hy : ¬c → y.Ensures s Q) :
    (if c then x else y).Ensures s Q := by
  split
  · rename_i h
    exact hx h
  · rename_i h
    exact hy h

/-! ### Actions that leave the entries alone -/

/-- Does the action leave all entries in reach as they are? -/
def KeepsEntries (x : Action α) : Prop :=
  ∀ s, (x s).2.1.entries = s.entries

theorem keepsEntries_pure (a : α) : (pure a : Action α).KeepsEntries := fun _ => rfl

theorem keepsEntries_say (log : Log) : (say log).KeepsEntries := fun _ => rfl

theorem KeepsEntries.bind {x : Action α} {f : α → Action β} (hx : x.KeepsEntries)
    (hf : ∀ a, (f a).KeepsEntries) : (x >>= f).KeepsEntries :=
  fun s => (hf (x s).1 (x s).2.1).trans (hx s)

end Action

theorem keepsEntries_newTask (source : String) (parent : Option Task) (expression : Expr) :
    (newTask source parent expression).KeepsEntries := fun _ => rfl

theorem keepsEntries_acquireContext (parent : Task) : (acquireContext parent).KeepsEntries := by
  intro s
  unfold acquireContext
  split <;> rfl

theorem keepsEntries_acquireParentContext (task : Task) :
    (acquireParentContext task).KeepsEntries := by
  unfold acquireParentContext
  split
  · exact (keepsEntries_acquireContext _).bind fun _ => Action.keepsEntries_pure _
  · exact Action.keepsEntries_pure _

theorem keepsEntries_releaseContext (parent : TaskId) : (releaseContext parent).KeepsEntries := by
  intro s
  unfold releaseContext
  split
  · rfl
  · split <;> rfl

theorem keepsEntries_releaseParentContext (parent : Option TaskId) :
    (releaseParentContext parent).KeepsEntries := by
  cases parent with
  | none => exact Action.keepsEntries_pure ()
  | some parent => exact keepsEntries_releaseContext parent

/-- Taking a context leaves the numbers of the aggregator alone. -/
theorem acquireParentContext_eq (task : Task) (s : Aggregator) :
    (acquireParentContext task s).2.1 = { s with
      entries := (acquireParentContext task s).2.1.entries
      contexts := (acquireParentContext task s).2.1.contexts } := by
  unfold acquireParentContext
  cases task.parent with
  | none => rfl
  | some parent =>
    show (acquireContext parent s).2.1 = { s with
      entries := (acquireContext parent s).2.1.entries
      contexts := (acquireContext parent s).2.1.contexts }
    unfold acquireContext
    split <;> rfl

/-- Giving a context back leaves the numbers of the aggregator alone. -/
theorem releaseParentContext_eq (parent : Option TaskId) (s : Aggregator) :
    (releaseParentContext parent s).2.1 = { s with
      entries := (releaseParentContext parent s).2.1.entries
      contexts := (releaseParentContext parent s).2.1.contexts } := by
  cases parent with
  | none => rfl
  | some parent =>
    show (releaseContext parent s).2.1 = { s with
      entries := (releaseContext parent s).2.1.entries
      contexts := (releaseContext parent s).2.1.contexts }
    unfold releaseContext
    split
    · rfl
    · split <;> rfl

theorem keepsEntries_issueChildren (task : Task) (factors : List Expr) :
    (issueChildren task factors).KeepsEntries := by
  induction factors with
  | nil => exact Action.keepsEntries_pure []
  | cons factor factors ih =>
    exact (Action.keepsEntries_say _).bind fun _ =>
      (keepsEntries_newTask _ _ _).bind fun _ => ih.bind fun _ => Action.keepsEntries_pure _

theorem keepsEntries_countSplit (task : TaskId) (issued : Nat) :
    (countSplit task issued).KeepsEntries := fun _ => rfl

/-- A notification for a task without an entry leaves everything as it is. -/
theorem childDone_of_no_entry {s : Aggregator} {task : TaskId} (h : s.entries.get? task = none)
    (sub : TaskId) (count : Nat) : (childDone task sub count s).2.1 = s := by
  simp only [childDone, findEntry, Action.read, bind, Action.andThen, h]
  rfl

/-- Registering keeps the entry, when there was none. -/
theorem register_of_no_entry {s : Aggregator} {task : TaskId} (h : s.entries.get? task = none)
    (entry : Entry) :
    register task entry s = (none, { s with entries := s.entries.insert task entry }, []) := by
  simp only [register, h]

/-! ### Issued sub-tasks -/

/-- A sub-task for each factor, from the next number on. -/
theorem issueChildren_eq (task : Task) (factors : List Expr) (s : Aggregator) :
    (issueChildren task factors s).1 =
        (factors.zipIdx s.nextTask).map (fun p => .mk ⟨p.2⟩ task.source none p.1) ∧
      (issueChildren task factors s).2.1 = { s with nextTask := s.nextTask + factors.length } := by
  induction factors generalizing s with
  | nil => exact ⟨rfl, rfl⟩
  | cons factor factors ih =>
    obtain ⟨hchildren, hstate⟩ := ih { s with nextTask := s.nextTask + 1 }
    refine ⟨congrArg (Task.mk ⟨s.nextTask⟩ task.source none factor :: ·) hchildren, ?_⟩
    refine hstate.trans ?_
    rw [List.length_cons, Nat.add_assoc, Nat.add_comm 1]

/-- The numbers of the sub-tasks follow one another. -/
theorem map_id_issueChildren (task : Task) (factors : List Expr) (s : Aggregator) :
    (issueChildren task factors s).1.map Task.id =
      (List.range' s.nextTask factors.length).map TaskId.mk := by
  rw [(issueChildren_eq task factors s).1, List.map_map, ← List.zipIdx_map_snd, List.map_map]
  rfl

/-- The expressions of the sub-tasks are the factors. -/
theorem map_expression_issueChildren (task : Task) (factors : List Expr) (s : Aggregator) :
    (issueChildren task factors s).1.map Task.expression = factors := by
  rw [(issueChildren_eq task factors s).1, List.map_map]
  exact List.zipIdx_map_fst s.nextTask factors

/-- **No two sub-tasks of a task are the same task.** -/
theorem nodup_ids_issueChildren (task : Task) (factors : List Expr) (s : Aggregator) :
    ((issueChildren task factors s).1.map Task.id).Nodup := by
  rw [map_id_issueChildren]
  exact (List.nodup_range' 1 Nat.one_pos).map fun _ _ h => TaskId.mk.inj h

end SmtCount.Aggregator
