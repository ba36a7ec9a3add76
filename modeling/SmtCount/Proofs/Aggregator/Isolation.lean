import Mathlib
import SmtCount.Proofs.Aggregator.Histories

/-!
# Tasks do not hear of each other

Tasks share the numbers that new tasks are given, the table of entries, and the contexts of their parents,
which are built, used again and dropped as other tasks come and go.  None of this shows in the answers
about a task: in two histories in which the same is asked about a task, the same is answered, up to the
numbers of tasks.  A sub-task in a question is the same one in both histories if it was issued for the task at
the same place, or in neither of them.

## Main definitions

* `Task.renumber`, `Aggregation.renumber`, `Reply.renumber` — other numbers for tasks.
* `Ask.Same issued issued'` — do two questions about a task ask for the same?
* `Exchange.Agrees ρ` — do two exchanges give the same answer, up to the numbers of tasks?

## Main results

* `exists_renumbering` — the sub-tasks of one history can be renumbered to those of another.
* `Explained.agree` — explanations of the same questions agree.
* `answers_are_isolated` — **what is answered about a task** depends on the task and on what is asked about it.
-/

namespace SmtCount

/-! ### Other numbers -/

/-- The task with another number. -/
def Task.renumber (ρ : TaskId → TaskId) (t : Task) : Task :=
  .mk (ρ t.id) t.source t.parent t.expression

/-- The reason with other numbers for tasks. -/
def Failure.renumber (ρ : TaskId → TaskId) : Failure → Failure
  | .unknownTask task => .unknownTask (ρ task)
  | .lostNotifications task outstanding => .lostNotifications (ρ task) outstanding

/-- What the host is told, with other numbers for tasks. -/
def Completion.renumber (ρ : TaskId → TaskId) : Completion → Completion
  | .pending => .pending
  | .done count => .done count
  | .failed failure => .failed (failure.renumber ρ)

/-- The aggregation with other numbers for tasks. -/
def Aggregation.renumber (ρ : TaskId → TaskId) (a : Aggregation) : Aggregation :=
  { a with children := a.children.map (Task.renumber ρ), outstanding := a.outstanding.map ρ }

/-- What a notification amounts to names no task. -/
theorem Receipt.renumber_completion (r : Receipt) (ρ : TaskId → TaskId) :
    r.completion.renumber ρ = r.completion := by
  cases r <;> rfl

namespace Aggregation

variable {ρ : TaskId → TaskId}

@[simp] theorem isFinal_renumber (ρ : TaskId → TaskId) (a : Aggregation) :
    (a.renumber ρ).isFinal = a.isFinal := rfl

theorem outstanding_renumber (ρ : TaskId → TaskId) (a : Aggregation) :
    (a.renumber ρ).outstanding = a.outstanding.map ρ := rfl

theorem start_renumber (ρ : TaskId → TaskId) (children : List Task) :
    start (children.map (Task.renumber ρ)) = (start children).renumber ρ := by
  unfold start
  rw [List.isEmpty_map]
  split
  · rfl
  · have hids : (children.map (Task.renumber ρ)).map Task.id = (children.map Task.id).map ρ := by
      rw [List.map_map, List.map_map]
      rfl
    rw [hids]
    rfl

/-- A notification about a renumbered sub-task amounts to the same. -/
theorem receive_renumber (hρ : Function.Injective ρ) (a : Aggregation) {sub sub' : TaskId} (count : Nat)
    (hsub : sub ∈ a.outstanding ∨ sub' ∈ a.outstanding.map ρ → sub' = ρ sub) :
    (a.renumber ρ).receive sub' count = ((a.receive sub count).1, (a.receive sub count).2.renumber ρ) := by
  have hmem : sub' ∈ a.outstanding.map ρ ↔ sub ∈ a.outstanding := by
    constructor
    · intro h
      rw [hsub (.inr h)] at h
      exact (List.mem_map_of_injective hρ).mp h
    · intro h
      rw [hsub (.inl h)]
      exact List.mem_map_of_mem h
  unfold receive
  rw [isFinal_renumber]
  split
  · rfl
  split
  · rfl
  rw [outstanding_renumber]
  by_cases hout : sub ∈ a.outstanding
  · have herase : (a.outstanding.map ρ).erase sub' = (a.outstanding.erase sub).map ρ := by
      rw [hsub (.inl hout), List.map_erase hρ]
    rw [if_neg (not_not.mpr (hmem.mpr hout)), if_neg (not_not.mpr hout), herase]
    dsimp only
    rw [List.isEmpty_map]
    by_cases hempty : (a.outstanding.erase sub).isEmpty = true
    · rw [if_pos hempty, if_pos hempty]
      rfl
    · rw [if_neg hempty, if_neg hempty]
      rfl
  · rw [if_pos (mt hmem.mp hout), if_pos hout]

theorem conclude_renumber (ρ : TaskId → TaskId) (a : Aggregation) (task : TaskId) :
    (a.renumber ρ).conclude (ρ task) = (a.conclude task).renumber ρ := by
  unfold conclude
  rw [isFinal_renumber]
  split
  · rfl
  · show Completion.failed (.lostNotifications (ρ task) (a.outstanding.map ρ).length) = _
    rw [List.length_map]
    rfl

end Aggregation

/-- Tasks that differ in nothing but their numbers. -/
theorem eq_map_renumber {ρ : TaskId → TaskId} {source : String} {cs cs' : List Task}
    (hids : cs'.map Task.id = (cs.map Task.id).map ρ)
    (hexpressions : cs'.map Task.expression = cs.map Task.expression)
    (hcs : ∀ c ∈ cs, c.source = source ∧ c.parent = none)
    (hcs' : ∀ c ∈ cs', c.source = source ∧ c.parent = none) : cs' = cs.map (Task.renumber ρ) := by
  induction cs generalizing cs' with
  | nil => exact List.map_eq_nil_iff.mp hids
  | cons c cs ih =>
    cases cs' with
    | nil => cases hids
    | cons c' cs' =>
      obtain ⟨hid, hids⟩ := List.cons.inj hids
      obtain ⟨hexpression, hexpressions⟩ := List.cons.inj hexpressions
      obtain ⟨hc, hcs⟩ := List.forall_mem_cons.mp hcs
      obtain ⟨hc', hcs'⟩ := List.forall_mem_cons.mp hcs'
      have hhead : c' = c.renumber ρ := by
        obtain ⟨id, source, parent, expression⟩ := c
        obtain ⟨id', source', parent', expression'⟩ := c'
        obtain ⟨rfl, rfl⟩ := hc
        obtain ⟨rfl, rfl⟩ := hc'
        obtain rfl : expression' = expression := hexpression
        obtain rfl : id' = ρ id := hid
        rfl
      rw [List.map_cons, ← hhead, ih hids hexpressions hcs hcs']

/-- **The tasks of one list can be renumbered** to those of another one. -/
theorem exists_renumbering {l l' : List TaskId} (hl : l.Nodup) (hl' : l'.Nodup)
    (hlength : l.length = l'.length) : ∃ ρ : Equiv.Perm TaskId, l.map ρ = l' := by
  induction l generalizing l' with
  | nil => exact ⟨1, (List.length_eq_zero_iff.mp hlength.symm).symm⟩
  | cons a l ih =>
    cases l' with
    | nil => cases hlength
    | cons a' l' =>
      obtain ⟨ha, hl⟩ := List.nodup_cons.mp hl
      obtain ⟨ha', hl'⟩ := List.nodup_cons.mp hl'
      obtain ⟨ρ, hρ⟩ := ih hl hl' (Nat.succ.inj hlength)
      -- the others are met by `ρ`; it remains to swap what it does to `a`
      refine ⟨Equiv.swap (ρ a) a' * ρ, ?_⟩
      rw [List.map_cons, Equiv.Perm.mul_apply, Equiv.swap_apply_left, ← hρ]
      refine congrArg (a' :: ·) (List.map_congr_left fun b hb => ?_)
      rw [Equiv.Perm.mul_apply]
      refine Equiv.swap_apply_of_ne_of_ne (fun heq => ha (ρ.injective heq ▸ hb)) fun heq => ha' ?_
      rw [← hρ, ← heq]
      exact List.mem_map_of_mem hb

namespace Aggregator

/-- The reply with other numbers for tasks. -/
def Reply.renumber (ρ : TaskId → TaskId) : Reply → Reply
  | .children tasks => .children (tasks.map (Task.renumber ρ))
  | .completion c => .completion (c.renumber ρ)
  | .phase p => .phase p
  | .forgotten => .forgotten

/-! ### The same questions -/

/-- Do two questions about a task ask for the same, when these sub-tasks were issued for it?  A sub-task is the
same if it was issued at the same place, or not at all; what the host was told last counts by whether it is
waiting. -/
def Ask.Same (issued issued' : List TaskId) : Ask → Ask → Prop
  | .request, .request => True
  | .childDone sub count, .childDone sub' count' => issued.idxOf? sub = issued'.idxOf? sub' ∧ count = count'
  | .allChildrenDone last, .allChildrenDone last' => last = .pending ↔ last' = .pending
  | .phase, .phase => True
  | .forget, .forget => True
  | _, _ => False

/-- Do two exchanges give the same answer, up to the numbers of tasks?  A host that is not waiting is told what
it says itself. -/
def Exchange.Agrees (ρ : TaskId → TaskId) (x x' : Exchange) : Prop :=
  x'.reply = x.reply.renumber ρ ∨ ∃ last last', last ≠ .pending ∧ last' ≠ .pending ∧
    x.ask = .allChildrenDone last ∧ x.reply = .completion last ∧
    x'.ask = .allChildrenDone last' ∧ x'.reply = .completion last'

/-- The same sub-tasks, renumbered. -/
theorem eq_of_idxOf?_eq {ρ : Equiv.Perm TaskId} {issued : List TaskId} {sub sub' : TaskId}
    (h : issued.idxOf? sub = (issued.map ρ).idxOf? sub') (hmem : sub ∈ issued ∨ sub' ∈ issued.map ρ) :
    sub' = ρ sub := by
  cases hidx : issued.idxOf? sub with
  | none =>
    have hnot := List.idxOf?_eq_none_iff.mp hidx
    have hnot' := List.idxOf?_eq_none_iff.mp (h ▸ hidx)
    exact (hmem.elim hnot hnot').elim
  | some i =>
    obtain ⟨_, hget, -⟩ := List.idxOf?_eq_some_iff.mp hidx
    obtain ⟨_, hget', -⟩ := List.idxOf?_eq_some_iff.mp (h ▸ hidx)
    rw [← hget', List.getElem_map, hget]

/-- What is answered to the same question, from what is kept under other numbers. -/
theorem Ask.answer?_renumber {ρ : Equiv.Perm TaskId} {issued : List TaskId} {ask ask' : Ask}
    (hsame : ask.Same issued (issued.map ρ) ask') {task : TaskId} {kept : Option Aggregation}
    (hkept : ∀ a, kept = some a → ∀ id ∈ a.outstanding, id ∈ issued) {reply reply' : Reply}
    {next next' : Option Aggregation} (h : ask.answer? task kept = some (reply, next))
    (h' : ask'.answer? (ρ task) (kept.map (Aggregation.renumber ρ)) = some (reply', next')) :
    next' = next.map (Aggregation.renumber ρ) ∧ ∀ u u' : Task,
      Exchange.Agrees ρ ⟨u, ask, reply⟩ ⟨u', ask', reply'⟩ := by
  cases Ask.answers_of_answer? h with
  | children a =>
    cases Ask.answers_of_answer? h' with
    | children _ => exact ⟨rfl, fun _ _ => .inl rfl⟩
    | _ => cases hsame
  | received a sub count =>
    cases Ask.answers_of_answer? h' with
    | received _ sub' count' =>
      obtain ⟨hidx, rfl⟩ := hsame
      have hsub : sub ∈ a.outstanding ∨ sub' ∈ a.outstanding.map ρ → sub' = ρ sub := by
        intro hmem
        refine eq_of_idxOf?_eq hidx (hmem.imp (hkept a rfl sub) fun hmem' => ?_)
        obtain ⟨id, hid, rfl⟩ := List.mem_map.mp hmem'
        exact List.mem_map_of_mem (hkept a rfl id hid)
      rw [a.receive_renumber ρ.injective count hsub]
      exact ⟨rfl, fun _ _ => .inl (congrArg Reply.completion (Receipt.renumber_completion _ ρ).symm)⟩
    | _ => cases hsame
  | unknown sub count =>
    cases Ask.answers_of_answer? h' with
    | unknown sub' count' => exact ⟨rfl, fun _ _ => .inl rfl⟩
    | _ => cases hsame
  | @told _ last hlast =>
    have hanswers := Ask.answers_of_answer? h'
    generalize kept.map (Aggregation.renumber ρ) = kept' at hanswers ⊢
    cases hanswers with
    | @told _ last' hlast' =>
      exact ⟨rfl, fun _ _ => .inr ⟨last, last', hlast, hlast', rfl, rfl, rfl, rfl⟩⟩
    | concluded _ => exact absurd (hsame.mpr rfl) hlast
    | missing => exact absurd (hsame.mpr rfl) hlast
    | _ => cases hsame
  | concluded a =>
    cases Ask.answers_of_answer? h' with
    | told _ hlast' => exact absurd (hsame.mp rfl) hlast'
    | concluded _ => exact ⟨rfl, fun _ _ => .inl (congrArg Reply.completion (a.conclude_renumber ρ task))⟩
    | _ => cases hsame
  | missing =>
    cases Ask.answers_of_answer? h' with
    | told _ hlast' => exact absurd (hsame.mp rfl) hlast'
    | missing => exact ⟨rfl, fun _ _ => .inl rfl⟩
    | _ => cases hsame
  | phase kept =>
    have hanswers := Ask.answers_of_answer? h'
    have hphase : kept.map Aggregation.phase =
        (kept.map (Aggregation.renumber ρ)).map Aggregation.phase := by
      rw [Option.map_map]
      rfl
    rw [hphase]
    generalize kept.map (Aggregation.renumber ρ) = kept' at hanswers ⊢
    cases hanswers with
    | phase _ => exact ⟨rfl, fun _ _ => .inl rfl⟩
    | _ => cases hsame
  | forgotten kept =>
    have hanswers := Ask.answers_of_answer? h'
    generalize kept.map (Aggregation.renumber ρ) = kept' at hanswers
    cases hanswers with
    | forgotten _ => exact ⟨rfl, fun _ _ => .inl rfl⟩
    | _ => cases hsame

/-- Whether something is kept after an answer. -/
theorem Ask.isSome_of_answer? {task : TaskId} {kept next : Option Aggregation} {ask : Ask} {reply : Reply}
    (h : ask.answer? task kept = some (reply, next)) :
    next.isSome = match ask with
      | .forget => false
      | _ => kept.isSome := by
  cases Ask.answers_of_answer? h <;> rfl

/-- The same questions leave something in the same cases. -/
theorem Ask.isSome_eq_of_same {issued issued' : List TaskId} {ask ask' : Ask}
    (hsame : ask.Same issued issued' ask') {task task' : TaskId} {kept kept' next next' : Option Aggregation}
    (hkept : kept.isSome = kept'.isSome) {reply reply' : Reply}
    (h : ask.answer? task kept = some (reply, next)) (h' : ask'.answer? task' kept' = some (reply', next')) :
    next.isSome = next'.isSome := by
  rw [Ask.isSome_of_answer? h, Ask.isSome_of_answer? h', hkept]
  cases ask <;> cases ask' <;> first | rfl | cases hsame

/-! ### Two explanations -/

theorem forall₂_concat {α β : Type} {R : α → β → Prop} {xs : List α} {ys : List β} {x : α} {y : β} :
    List.Forall₂ R (xs ++ [x]) (ys ++ [y]) ↔ List.Forall₂ R xs ys ∧ R x y := by
  rw [← List.forall₂_reverse_iff, List.reverse_append, List.reverse_append, List.reverse_singleton,
    List.reverse_singleton, List.singleton_append, List.singleton_append, List.forall₂_cons,
    List.forall₂_reverse_iff, and_comm]

theorem not_forall₂_concat_nil {α β : Type} {R : α → β → Prop} {xs : List α} {x : α} :
    ¬List.Forall₂ R (xs ++ [x]) [] := by
  intro h
  have hlength := h.length_eq
  rw [List.length_append] at hlength
  cases hlength

theorem not_forall₂_nil_concat {α β : Type} {R : α → β → Prop} {ys : List β} {y : β} :
    ¬List.Forall₂ R [] (ys ++ [y]) := by
  intro h
  have hlength := h.length_eq
  rw [List.length_append] at hlength
  cases hlength

namespace Explained

variable {u u' : Task} {xs : List Exchange} {issued all all' : List TaskId} {kept : Option Aggregation}

/-- A first request about a task that something is kept for is no first request. -/
theorem kept_isSome_of_request {ask : Ask} {reply : Reply} {next : Option Aggregation}
    (hsame : Ask.Same all all' .request ask ∨ Ask.Same all all' ask .request)
    (h : ask.answer? u.id kept = some (reply, next)) : kept.isSome = true := by
  have hask : ask = .request := by
    cases ask with
    | request => rfl
    | _ => exact hsame.elim False.elim False.elim
  subst hask
  obtain ⟨a, rfl, -⟩ := Option.map_eq_some_iff.mp h
  rfl

/-- The same questions about tasks with the same expression make the same sub-tasks, as to their number, and
leave something at the same time. -/
theorem length_eq (hexpression : u.expression = u'.expression) (h : Explained u xs issued kept) :
    ∀ {xs' : List Exchange} {issued' : List TaskId} {kept' : Option Aggregation},
      Explained u' xs' issued' kept' →
      List.Forall₂ (fun x x' : Exchange => Ask.Same all all' x.ask x'.ask) xs xs' →
      issued.length = issued'.length ∧ kept.isSome = kept'.isSome := by
  induction h with
  | nil =>
    intro xs' issued' kept' h' hsame
    cases h' with
    | nil => exact ⟨rfl, rfl⟩
    | first => exact absurd hsame not_forall₂_nil_concat
    | answer => exact absurd hsame not_forall₂_nil_concat
  | first _ hfactors _ _ ih =>
    intro xs' issued' kept' h' hsame
    cases h' with
    | nil => exact absurd hsame not_forall₂_concat_nil
    | first hbefore hfactors' _ _ =>
      obtain ⟨hlength, -⟩ := ih hbefore (forall₂_concat.mp hsame).1
      have hchildren := congrArg List.length (hfactors.trans (hexpression ▸ hfactors'.symm))
      rw [List.length_map, List.length_map] at hchildren
      refine ⟨?_, rfl⟩
      rw [List.length_append, List.length_append, List.length_map, List.length_map, hlength, hchildren]
    | answer hbefore hanswer =>
      obtain ⟨hsame, hlast⟩ := forall₂_concat.mp hsame
      obtain ⟨-, hsome⟩ := ih hbefore hsame
      rw [kept_isSome_of_request (.inl hlast) hanswer] at hsome
      cases hsome
  | answer _ hanswer ih =>
    intro xs' issued' kept' h' hsame
    cases h' with
    | nil => exact absurd hsame not_forall₂_concat_nil
    | first hbefore _ _ _ =>
      obtain ⟨hsame, hlast⟩ := forall₂_concat.mp hsame
      obtain ⟨-, hsome⟩ := ih hbefore hsame
      rw [kept_isSome_of_request (.inr hlast) hanswer] at hsome
      cases hsome
    | answer hbefore hanswer' =>
      obtain ⟨hsame, hlast⟩ := forall₂_concat.mp hsame
      obtain ⟨hlength, hsome⟩ := ih hbefore hsame
      exact ⟨hlength, Ask.isSome_eq_of_same hlast hsome hanswer hanswer'⟩

/-- **The same questions about two tasks** with the same expression and source are explained in the same way, up
to a renumbering of all sub-tasks that are ever issued. -/
theorem agree {ρ : Equiv.Perm TaskId} (hu : ρ u.id = u'.id) (hexpression : u.expression = u'.expression)
    (hsource : u.source = u'.source) (hall : all.map ρ = all') (h : Explained u xs issued kept) :
    ∀ {xs' : List Exchange} {issued' : List TaskId} {kept' : Option Aggregation},
      Explained u' xs' issued' kept' → issued <+: all → issued' <+: all' →
      List.Forall₂ (fun x x' : Exchange => Ask.Same all all' x.ask x'.ask) xs xs' →
      kept' = kept.map (Aggregation.renumber ρ) ∧ List.Forall₂ (Exchange.Agrees ρ) xs xs' := by
  subst hall
  -- what has been issued by some time is the renumbering of what has been issued by the same time
  have hmap {issued issued' : List TaskId} (hbegin : issued <+: all) (hbegin' : issued' <+: all.map ρ)
      (hlength : issued.length = issued'.length) : issued' = issued.map ρ := by
    have hmapped : issued.map ρ <+: all.map ρ := hbegin.map ρ
    refine (List.prefix_of_prefix_length_le hbegin' hmapped ?_).eq_of_length ?_
    · rw [List.length_map, hlength]
    · rw [List.length_map, hlength]
  induction h with
  | nil =>
    intro xs' issued' kept' h' _ _ hsame
    cases h' with
    | nil => exact ⟨rfl, .nil⟩
    | first => exact absurd hsame not_forall₂_nil_concat
    | answer => exact absurd hsame not_forall₂_nil_concat
  | @first xs issued children hold hfactors horigin _ ih =>
    intro xs' issued' kept' h' hbegin hbegin' hsame
    cases h' with
    | nil => exact absurd hsame not_forall₂_concat_nil
    | @first xs' issued' children' hbefore hfactors' horigin' _ =>
      obtain ⟨hsame, -⟩ := forall₂_concat.mp hsame
      have hold_begin := (List.prefix_append issued _).trans hbegin
      have hold_begin' := (List.prefix_append issued' _).trans hbegin'
      obtain ⟨-, hagree⟩ := ih hbefore hold_begin hold_begin' hsame
      have hlength := (hold.length_eq hexpression hbefore hsame).1
      have hexpressions : children'.map Task.expression = children.map Task.expression := by
        rw [hfactors, hfactors', hexpression]
      have hids : children'.map Task.id = (children.map Task.id).map ρ := by
        have hnew := congrArg List.length hexpressions
        rw [List.length_map, List.length_map] at hnew
        have hwhole := hmap hbegin hbegin' (by
          rw [List.length_append, List.length_append, List.length_map, List.length_map, hlength, hnew])
        rw [List.map_append, hmap hold_begin hold_begin' hlength] at hwhole
        exact List.append_cancel_left hwhole
      have hchildren : children' = children.map (Task.renumber ρ) :=
        eq_map_renumber hids hexpressions horigin (hsource ▸ horigin')
      subst hchildren
      refine ⟨congrArg some (Aggregation.start_renumber ρ children), ?_⟩
      exact forall₂_concat.mpr ⟨hagree, .inl rfl⟩
    | answer hbefore hanswer =>
      obtain ⟨hsame, hlast⟩ := forall₂_concat.mp hsame
      obtain ⟨-, hsome⟩ := hold.length_eq hexpression hbefore hsame
      rw [kept_isSome_of_request (.inl hlast) hanswer] at hsome
      cases hsome
  | @answer xs issued kept next ask reply hold hanswer ih =>
    intro xs' issued' kept' h' hbegin hbegin' hsame
    cases h' with
    | nil => exact absurd hsame not_forall₂_concat_nil
    | first hbefore _ _ _ =>
      obtain ⟨hsame, hlast⟩ := forall₂_concat.mp hsame
      obtain ⟨-, hsome⟩ := hold.length_eq hexpression hbefore hsame
      rw [kept_isSome_of_request (.inr hlast) hanswer] at hsome
      cases hsome
    | answer hbefore hanswer' =>
      obtain ⟨hsame, hlast⟩ := forall₂_concat.mp hsame
      obtain ⟨rfl, hagree⟩ := ih hbefore hbegin hbegin' hsame
      rw [← hu] at hanswer'
      obtain ⟨hnext, hlast⟩ := Ask.answer?_renumber hlast
        (fun a ha id hid => hbegin.subset ((hold.mem_issued ha).2 id hid)) hanswer hanswer'
      exact ⟨hnext, forall₂_concat.mpr ⟨hagree, hlast u u'⟩⟩

end Explained

/-! ### Two histories -/

/-- **What is answered about a task depends on the task and on what is asked about it.**  Two histories, in
which anything else may have happened, have each a task with the same expression and the same source, and
the same is asked about the two tasks.  Then the answers are the same, up to a renumbering of tasks that takes the
one task to the other and the sub-tasks that were issued to those that were issued; and all sub-tasks go
back to the source of their task and have no parent. -/
theorem answers_are_isolated {h h' : History} (hh : Happens h) (hh' : Happens h') {u u' : Task}
    (hu : u ∈ h.tasks) (hu' : u' ∈ h'.tasks) (hexpression : u.expression = u'.expression)
    (hsource : u.source = u'.source)
    (hsame : List.Forall₂ (fun x x' : Exchange => x.ask.Same (h.issued u) (h'.issued u') x'.ask)
      (h.about u) (h'.about u')) :
    (∃ ρ : Equiv.Perm TaskId, ρ u.id = u'.id ∧ (h.issued u).map ρ = h'.issued u' ∧
      List.Forall₂ (Exchange.Agrees ρ) (h.about u) (h'.about u')) ∧
    ∀ x ∈ h.about u, ∀ c ∈ x.reply.tasks, c.source = u.source ∧ c.parent = none := by
  have hexplained := hh.explained hu
  have hexplained' := hh'.explained hu'
  obtain ⟨hlength, -⟩ := hexplained.length_eq hexpression hexplained' hsame
  obtain ⟨ρ, hρ⟩ := exists_renumbering hexplained.nodup hexplained'.nodup (congrArg Nat.succ hlength)
  obtain ⟨hid, hissued⟩ := List.cons.inj hρ
  refine ⟨⟨ρ, hid, hissued, ?_⟩, hexplained.origin⟩
  exact (hexplained.agree hid hexpression hsource hissued hexplained' (List.prefix_refl _)
    (List.prefix_refl _) hsame).2

/-! ### An instance -/

/-- Two conjuncts that share no variable. -/
def pair : Expr :=
  .and [.rel .eq (.var ⟨"a", .int, by decide⟩) (.const (.int 0)),
    .rel .eq (.var ⟨"b", .int, by decide⟩) (.const (.int 1))]

/-- The parent of a task. -/
def outerTask : Task :=
  .mk ⟨1⟩ "host" none (.var ⟨"c", .int, by decide⟩)

/-- A task with a parent. -/
def innerTask : Task :=
  .mk ⟨2⟩ "host" (some outerTask) pair

/-- A task with the same expression and no parent. -/
def loneTask : Task :=
  .mk ⟨7⟩ "host" none pair

/-- The parent is forgotten and asked about before all counts for the task have come. -/
def nestedHistory : History :=
  (((History.start 1).newTask "host" none outerTask.expression).newTask "host" (some outerTask) pair).asks
    [(innerTask, .request), (innerTask, .childDone ⟨4⟩ 2), (outerTask, .forget), (outerTask, .request),
      (innerTask, .childDone ⟨3⟩ 3)]

/-- The same is asked about the task without a parent, and nothing else. -/
def loneHistory : History :=
  ((History.start 7).newTask "host" none pair).asks
    [(loneTask, .request), (loneTask, .childDone ⟨9⟩ 2), (loneTask, .childDone ⟨8⟩ 3)]

theorem happens_nestedHistory : Happens nestedHistory := by
  refine Happens.asks (.newTask "host" pair (.newTask "host" _ (.start 1) ?_) ?_) ?_
  · exact fun p hp => absurd hp (Option.not_mem_none p)
  · intro p hp
    obtain rfl := Option.some.inj hp
    exact List.mem_singleton_self _
  · intro x hx
    simp only [List.mem_cons, List.not_mem_nil, or_false] at hx
    rcases hx with rfl | rfl | rfl | rfl | rfl
    all_goals first | exact .head _ | exact .tail _ (.head _)

theorem happens_loneHistory : Happens loneHistory := by
  refine Happens.asks (.newTask "host" pair (.start 7) fun p hp => absurd hp (Option.not_mem_none p)) ?_
  intro x hx
  simp only [List.mem_cons, List.not_mem_nil, or_false] at hx
  rcases hx with rfl | rfl | rfl
  all_goals exact List.mem_singleton_self _

theorem same_nested_lone :
    List.Forall₂ (fun x x' : Exchange =>
      x.ask.Same (nestedHistory.issued innerTask) (loneHistory.issued loneTask) x'.ask)
      (nestedHistory.about innerTask) (loneHistory.about loneTask) := by
  have hissued : nestedHistory.issued innerTask = [⟨3⟩, ⟨4⟩] := by cbv
  have hissued' : loneHistory.issued loneTask = [⟨8⟩, ⟨9⟩] := by cbv
  have hasks : (nestedHistory.about innerTask).map Exchange.ask =
      [.request, .childDone ⟨4⟩ 2, .childDone ⟨3⟩ 3] := by cbv
  have hasks' : (loneHistory.about loneTask).map Exchange.ask =
      [.request, .childDone ⟨9⟩ 2, .childDone ⟨8⟩ 3] := by cbv
  have hsame : List.Forall₂ (Ask.Same (nestedHistory.issued innerTask) (loneHistory.issued loneTask))
      ((nestedHistory.about innerTask).map Exchange.ask) ((loneHistory.about loneTask).map Exchange.ask) := by
    rw [hissued, hissued', hasks, hasks']
    exact .cons trivial (.cons ⟨rfl, rfl⟩ (.cons ⟨rfl, rfl⟩ .nil))
  exact List.forall₂_map_right_iff.mp (List.forall₂_map_left_iff.mp hsame)

/-- The second sub-task has 2 models and the first one 3; both tasks come to 6. -/
theorem pair_answers_are_isolated :
    Happens nestedHistory ∧ Happens loneHistory ∧ innerTask ∈ nestedHistory.tasks ∧
      loneTask ∈ loneHistory.tasks ∧
      (nestedHistory.about innerTask).map Exchange.reply =
        [.children [.mk ⟨3⟩ "host" none (.rel .eq (.var ⟨"a", .int, by decide⟩) (.const (.int 0))),
            .mk ⟨4⟩ "host" none (.rel .eq (.var ⟨"b", .int, by decide⟩) (.const (.int 1)))],
          .completion .pending, .completion (.done 6)] ∧
      ∃ ρ : Equiv.Perm TaskId, ρ ⟨2⟩ = ⟨7⟩ ∧
        (nestedHistory.issued innerTask).map ρ = loneHistory.issued loneTask ∧
        List.Forall₂ (Exchange.Agrees ρ) (nestedHistory.about innerTask) (loneHistory.about loneTask) := by
  have hinner : innerTask ∈ nestedHistory.tasks := List.mem_of_getElem? (i := 1) (by cbv)
  have hlone : loneTask ∈ loneHistory.tasks := List.mem_of_getElem? (i := 0) (by cbv)
  refine ⟨happens_nestedHistory, happens_loneHistory, hinner, hlone, by cbv, ?_⟩
  exact (answers_are_isolated happens_nestedHistory happens_loneHistory hinner hlone rfl rfl
    same_nested_lone).1

end Aggregator

end SmtCount
