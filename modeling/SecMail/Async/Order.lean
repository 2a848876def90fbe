import SecMail.Async.Queue

/-!
# The order of operations and callbacks

What a run of the queue shows: the operations are run in the order in which they are added, each
once, and called back in that order before the next one is run; a callback never comes after
`cancel`, and an operation that is never cancelled is called back.

* `added`, `mains`, `finished`, `cancelled` : the operations of a history;
* `OperationQueue.Ordered` : the invariant, relative to the operations that are still to be run and
  to the one that has not been called back yet;
* `runs_in_order` : the order of every run.
-/

namespace SecMail

variable {O : Type*}

/-- The operation that an action adds. -/
def QueueAction.added : QueueAction O → Option O
  | .addOperation op => some op
  | _ => none

/-- The operation that an action cancels. -/
def QueueAction.cancelled : QueueAction O → Option O
  | .cancel op => some op
  | _ => none

/-- The operation that is run. -/
def QueueEvent.run : QueueEvent O → Option O
  | .main op => some op
  | _ => none

/-- The operation that is called back. -/
def QueueEvent.called : QueueEvent O → Option O
  | .operationFinished op => some op
  | _ => none

section Histories

variable (h : List (QueueAction O × QueueEvent O))

/-- The operations added, in order. -/
def added : List O := h.filterMap fun e => e.1.added

/-- The operations cancelled. -/
def cancelled : List O := h.filterMap fun e => e.1.cancelled

/-- The operations run, in order. -/
def mains : List O := h.filterMap fun e => e.2.run

/-- The operations called back, in order. -/
def finished : List O := h.filterMap fun e => e.2.called

variable (a : QueueAction O) (e : QueueEvent O)

theorem filterMap_snoc {α β : Type*} (f : α → Option β) (l : List α) (x : α) :
    (l ++ [x]).filterMap f = l.filterMap f ++ (f x).toList := by
  rw [List.filterMap_append]
  cases hx : f x with
  | none => rw [List.filterMap_cons_none hx]; rfl
  | some y => rw [List.filterMap_cons_some hx]; rfl

theorem added_snoc : added (h ++ [(a, e)]) = added h ++ a.added.toList := filterMap_snoc _ _ _

theorem cancelled_snoc : cancelled (h ++ [(a, e)]) = cancelled h ++ a.cancelled.toList :=
  filterMap_snoc _ _ _

theorem mains_snoc : mains (h ++ [(a, e)]) = mains h ++ e.run.toList := filterMap_snoc _ _ _

theorem finished_snoc : finished (h ++ [(a, e)]) = finished h ++ e.called.toList :=
  filterMap_snoc _ _ _

end Histories

namespace OperationQueue

/-- The operations that are still to be run. -/
def pending (q : OperationQueue O) : List O :=
  match q.thread with
  | .ran _ => q.mOperations.tail
  | _ => q.mOperations

/-- The operation that has been run and not been called back. -/
def unsettled (q : OperationQueue O) : Option O :=
  match q.thread with
  | .ran op | .removed op _ | .callback op _ => some op
  | _ => none

variable [DecidableEq O]

/-- The order of the operations, as the history `h` that leads to `q` shows it. -/
structure Ordered (h : List (QueueAction O × QueueEvent O)) (q : OperationQueue O) : Prop where
  fifo : mains h ++ q.pending = added h
  sublist : (finished h ++ q.unsettled.toList).Sublist (mains h)
  last : ∀ op ∈ q.unsettled, (mains h).getLast? = some op
  count : ∀ op ∉ q.mCancelled,
    (finished h ++ q.unsettled.toList).count op = (mains h).count op
  mCancelled : ∀ op, op ∈ q.mCancelled ↔ op ∈ cancelled h
  silent : ∀ h₁ a op, h₁ ++ [(a, .operationFinished op)] <+: h → op ∉ cancelled h₁

namespace Ordered

variable {h : List (QueueAction O × QueueEvent O)} {q q' : OperationQueue O} {a : QueueAction O}
  {e : QueueEvent O} {op : O}

theorem init : Ordered [] (init : OperationQueue O) := by
  refine ⟨rfl, List.Sublist.refl _, by simp [unsettled, OperationQueue.init], fun _ _ => rfl,
    by simp [OperationQueue.init, cancelled], ?_⟩
  intro h₁ a op hpre
  exact absurd (List.prefix_nil.1 hpre) (by simp)

/-- A step without a callback. -/
theorem silent_snoc (ho : Ordered h q) (he : e.called = none) :
    ∀ h₁ a' op, h₁ ++ [(a', .operationFinished op)] <+: h ++ [(a, e)] →
      op ∉ cancelled h₁ := by
  intro h₁ a' op hpre
  obtain heq | hpre := List.prefix_concat_iff.1 hpre
  · obtain ⟨-, hlast⟩ := List.append_inj' heq rfl
    cases hlast
    cases he
  · exact ho.silent h₁ a' op hpre

/-- A step that is not seen, and changes neither what is to be run nor what is to be called back. -/
theorem quiet (ho : Ordered h q) (ha : a.added = none) (hc : a.cancelled = none)
    (hp : q'.pending = q.pending) (hu : q'.unsettled = q.unsettled)
    (hm : q'.mCancelled = q.mCancelled) : Ordered (h ++ [(a, .silent)]) q' := by
  refine ⟨?_, ?_, ?_, ?_, ?_, ho.silent_snoc rfl⟩
  · rw [mains_snoc, added_snoc, ha, hp, ← ho.fifo]
    simp [QueueEvent.run]
  · rw [mains_snoc, finished_snoc, hu]
    simpa [QueueEvent.run, QueueEvent.called] using ho.sublist
  · rw [mains_snoc, hu]
    simpa [QueueEvent.run] using ho.last
  · rw [mains_snoc, finished_snoc, hu, hm]
    simpa [QueueEvent.run, QueueEvent.called] using ho.count
  · rw [cancelled_snoc, hc, hm]
    simpa using ho.mCancelled

theorem add (ho : Ordered h q) (hp : q'.pending = q.pending ++ [op])
    (hu : q'.unsettled = q.unsettled) (hm : q'.mCancelled = q.mCancelled) :
    Ordered (h ++ [(.addOperation op, .silent)]) q' := by
  refine ⟨?_, ?_, ?_, ?_, ?_, ho.silent_snoc rfl⟩
  · rw [mains_snoc, added_snoc, hp, ← ho.fifo]
    simp [QueueEvent.run, QueueAction.added]
  · rw [mains_snoc, finished_snoc, hu]
    simpa [QueueEvent.run, QueueEvent.called] using ho.sublist
  · rw [mains_snoc, hu]
    simpa [QueueEvent.run] using ho.last
  · rw [mains_snoc, finished_snoc, hu, hm]
    simpa [QueueEvent.run, QueueEvent.called] using ho.count
  · rw [cancelled_snoc, hm]
    simpa [QueueAction.cancelled] using ho.mCancelled

theorem cancel (ho : Ordered h q) :
    Ordered (h ++ [(.cancel op, .silent)]) { q with mCancelled := op :: q.mCancelled } := by
  refine ⟨?_, ?_, ?_, ?_, ?_, ho.silent_snoc rfl⟩
  · rw [mains_snoc, added_snoc, ← ho.fifo]
    simp [QueueEvent.run, QueueAction.added, pending]
  · rw [mains_snoc, finished_snoc]
    simpa [QueueEvent.run, QueueEvent.called, unsettled] using ho.sublist
  · rw [mains_snoc]
    simpa [QueueEvent.run, unsettled] using ho.last
  · intro o hmem
    have hmem' : o ∉ q.mCancelled := fun hq => hmem (List.mem_cons_of_mem _ hq)
    rw [mains_snoc, finished_snoc]
    simpa [QueueEvent.run, QueueEvent.called, unsettled] using ho.count o hmem'
  · intro o
    rw [cancelled_snoc, List.mem_append, ← ho.mCancelled]
    simp [QueueAction.cancelled, or_comm]

theorem main (ho : Ordered h q) (ha : a.added = none) (hc : a.cancelled = none)
    (hp : q.pending = op :: q'.pending) (hu : q.unsettled = none) (hu' : q'.unsettled = some op)
    (hm : q'.mCancelled = q.mCancelled) : Ordered (h ++ [(a, .main op)]) q' := by
  have hrun : mains (h ++ [(a, .main op)]) = mains h ++ [op] := mains_snoc _ _ _
  have hcalled : finished (h ++ [(a, .main op)]) = finished h :=
    (finished_snoc _ _ _).trans (List.append_nil _)
  have hfin := ho.sublist
  have hcount := ho.count
  rw [hu, Option.toList_none, List.append_nil] at hfin hcount
  refine ⟨?_, ?_, ?_, ?_, ?_, ho.silent_snoc rfl⟩
  · rw [hrun, added_snoc, ha, ← ho.fifo, hp]
    simp
  · rw [hrun, hcalled, hu']
    exact hfin.append (List.Sublist.refl _)
  · rw [hrun, hu']
    intro o heq
    cases heq
    exact List.getLast?_concat
  · intro o hmem
    rw [hm] at hmem
    rw [hrun, hcalled, hu', List.count_append, hcount o hmem, List.count_append]
    rfl
  · rw [cancelled_snoc, hc, hm]
    simpa using ho.mCancelled

/-- A cancelled operation is not called back. -/
theorem drop (ho : Ordered h q) (ha : a.added = none) (hc : a.cancelled = none)
    (hp : q'.pending = q.pending) (hu : q.unsettled = some op) (hu' : q'.unsettled = none)
    (hm : q'.mCancelled = q.mCancelled) (hmem : op ∈ q.mCancelled) :
    Ordered (h ++ [(a, .silent)]) q' := by
  have hrun : mains (h ++ [(a, .silent)]) = mains h := (mains_snoc _ _ _).trans (List.append_nil _)
  have hcalled : finished (h ++ [(a, .silent)]) = finished h :=
    (finished_snoc _ _ _).trans (List.append_nil _)
  refine ⟨?_, ?_, ?_, ?_, ?_, ho.silent_snoc rfl⟩
  · rw [hrun, added_snoc, ha, hp, ho.fifo]
    simp
  · rw [hrun, hcalled, hu', Option.toList_none, List.append_nil]
    exact (List.sublist_append_left _ _).trans ho.sublist
  · simp [hu']
  · intro o ho'
    rw [hm] at ho'
    have hne : o ≠ op := fun heq => ho' (heq ▸ hmem)
    have hcount := ho.count o ho'
    rw [hu, List.count_append, Option.toList_some, List.count_singleton,
      if_neg (by simpa using hne.symm)] at hcount
    rw [hrun, hcalled, hu', Option.toList_none, List.append_nil]
    exact hcount
  · rw [cancelled_snoc, hc, hm]
    simpa using ho.mCancelled

theorem finish (ho : Ordered h q) (ha : a.added = none) (hc : a.cancelled = none)
    (hp : q'.pending = q.pending) (hu : q.unsettled = some op) (hu' : q'.unsettled = none)
    (hm : q'.mCancelled = q.mCancelled) (hmem : op ∉ q.mCancelled) :
    Ordered (h ++ [(a, .operationFinished op)]) q' := by
  have hrun : mains (h ++ [(a, .operationFinished op)]) = mains h :=
    (mains_snoc _ _ _).trans (List.append_nil _)
  have hcalled : finished (h ++ [(a, .operationFinished op)]) = finished h ++ [op] :=
    finished_snoc _ _ _
  have hfin := ho.sublist
  have hcount := ho.count
  rw [hu, Option.toList_some] at hfin hcount
  refine ⟨?_, ?_, ?_, ?_, ?_, ?_⟩
  · rw [hrun, added_snoc, ha, hp, ho.fifo]
    simp
  · rw [hrun, hcalled, hu', Option.toList_none, List.append_nil]
    exact hfin
  · simp [hu']
  · rw [hrun, hcalled, hu', hm, Option.toList_none, List.append_nil]
    exact hcount
  · rw [cancelled_snoc, hc, hm]
    simpa using ho.mCancelled
  · intro h₁ a' op' hpre
    obtain heq | hpre := List.prefix_concat_iff.1 hpre
    · obtain ⟨rfl, hlast⟩ := List.append_inj' heq rfl
      cases hlast
      exact fun hmem' => hmem ((ho.mCancelled op).2 hmem')
    · exact ho.silent h₁ a' op' hpre

/-- Every step keeps the order. -/
theorem step (ho : Ordered h q) (hq : q.Consistent) (hs : QueueStep q a q' e) :
    Ordered (h ++ [(a, e)]) q' := by
  cases hs with
  | @add op _ =>
    refine ho.add ?_ rfl rfl
    cases ht : q.thread with
    | ran op' =>
      obtain ⟨ops, hops⟩ := List.head?_eq_some_iff.1 (hq.current op' (by rw [ht]; rfl))
      simp [pending, ht, hops]
    | _ => simp [pending, ht]
  | @addFirst op hst =>
    have habsent : q.thread = .absent := by
      by_contra hne
      rw [hq.started.2 hne] at hst
      cases hst
    refine ho.add ?_ ?_ rfl
    · simp [pending, habsent]
    · simp [unsettled, habsent]
  | cancel => exact ho.cancel
  | @main op ht =>
    obtain ⟨ops, hops⟩ := List.head?_eq_some_iff.1 (hq.current op (by rw [ht]; rfl))
    exact ho.main rfl rfl (by simp [pending, ht, hops]) (by simp [unsettled, ht]) rfl rfl
  | skip ht hc | dropped ht hc =>
    exact ho.drop rfl rfl (by simp [pending, ht]) (by simp only [unsettled, ht]) rfl rfl hc
  | finish ht hc =>
    exact ho.finish rfl rfl (by simp [pending, ht]) (by simp only [unsettled, ht]) rfl rfl hc
  | check _ | quit _ _ _ | keep _ _ => exact ho.quiet rfl rfl rfl rfl rfl
  | down ht _ | take ht _ | stop ht _ _ | crash ht _ _ | remove ht | call ht _ | loop ht
  | beforeMain ht | finished ht | stopped ht _ =>
    exact ho.quiet rfl rfl (by simp [pending, ht]) (by simp [unsettled, ht]) rfl

end Ordered

variable {h : List (QueueAction O × QueueEvent O)} {q : OperationQueue O}

theorem ordered_of_run (hr : (queueSystem O).Run .init h q) : Ordered h q := by
  have hboth : q.Consistent ∧ Ordered h q := by
    refine hr.invariant (I := fun h q => q.Consistent ∧ Ordered h q)
      ⟨consistent_init, Ordered.init⟩ ?_
    rintro h q a e q' ⟨hq, ho⟩ - hs
    exact ⟨hq.step (step_of_next hs), ho.step hq (step_of_next hs)⟩
  exact hboth.2

end OperationQueue

open OperationQueue

variable [DecidableEq O] {h : List (QueueAction O × QueueEvent O)} {q : OperationQueue O}

/-- **Operations are run and called back in order.**  In every run they are run in the order in
which they are added, each once; they are called back in the same order, and all that are not
cancelled are called back, except that the last one run may still have to be; none is called back
once it has been cancelled; and the thread never uses an operation that is not there. -/
theorem runs_in_order (hr : (queueSystem O).Run .init h q) :
    mains h ++ q.pending = added h ∧
      (finished h ++ q.unsettled.toList).Sublist (mains h) ∧
      (∀ op ∈ q.unsettled, (mains h).getLast? = some op) ∧
      (∀ op ∉ cancelled h, (finished h ++ q.unsettled.toList).count op = (mains h).count op) ∧
      (∀ h₁ a op, h₁ ++ [(a, .operationFinished op)] <+: h → op ∉ cancelled h₁) ∧
      q.thread ≠ .crashed := by
  have ho := ordered_of_run hr
  refine ⟨ho.fifo, ho.sublist, ho.last, ?_, ho.silent, (consistent_of_run hr).crashed⟩
  exact fun op hop => ho.count op fun hmem => hop ((ho.mCancelled op).1 hmem)

/-- The first of two operations is called back, the other one is cancelled while it waits. -/
theorem runs_in_order_two :
    ∃ (h : List (QueueAction ℕ × QueueEvent ℕ)) (q : OperationQueue ℕ),
      mains h = [1, 2] ∧ finished h = [1] ∧ mains h ++ q.pending = added h := by
  obtain ⟨h, q, hr, hmains, hfin⟩ := (queueSystem ℕ).exists_run_of_exec (fun _ _ => True) .init
    [.addOperation 1, .addOperation 2, .runOperations, .runOperations, .performOnMainThread,
      .runOperations, .cancel 2, .runOperations, .runOperations, .performOnMainThread,
      .performOnMainThread, .runOperations, .runOperations, .runOperations, .performOnMainThread,
      .runOperations, .runOperations, .runOperations, .runOperations]
    (fun h _ => mains h = [1, 2] ∧ finished h = [1]) (by decide)
  exact ⟨h, q, hmains, hfin, (runs_in_order hr).1⟩

end SecMail
