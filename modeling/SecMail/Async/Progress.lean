import SecMail.Async.Order
import SecMail.LTS.Rank

/-!
# The queue comes to rest

Left to itself the queue gets through its operations, and a second later its thread is gone.  One
call is lost: an operation that is added while the thread waits for `stoppedOnMainThread` finds
`mStarted` still set.  No thread is started for it, and it stays in the queue.

* `OperationQueue.Stranded` : there are operations, and no thread is going to run them;
* `OperationQueue.rank` : a bound on the steps left to the queue;
* `operations_finish_iff` : what becomes of the operations of a queue left to itself;
* `not_stranded_iff` : the runs in which operations are stranded.
-/

namespace SecMail

variable {O : Type*}

/-- The queue and its thread act by themselves. -/
def QueueAction.Internal : QueueAction O → Prop
  | .addOperation _ | .cancel _ => False
  | _ => True

/-- The steps left to the thread before it waits for the next operation, or is gone. -/
def QueueThread.rank : QueueThread O → ℕ
  | .absent | .crashed => 0
  | .stopping => 1
  | .ran _ => 6
  | .main _ => 7
  | .beforeMain _ => 8
  | .awake => 9
  | .waiting => 10
  | .done _ => 13
  | .finishing _ => 14
  | .callback _ _ => 15
  | .removed _ _ => 16

namespace OperationQueue

/-- The steps left to a queue to which nothing is added. -/
def rank (q : OperationQueue O) : ℕ :=
  11 * q.mOperations.length + q.thread.rank + 2 * q.checks + q.delayed.toNat

/-- There are operations, and no thread is going to run them. -/
def Stranded (q : OperationQueue O) : Prop := q.thread.ending = true ∧ q.mOperations ≠ []

variable [DecidableEq O] {q q' : OperationQueue O} {a : QueueAction O} {e : QueueEvent O}
  {h h' : List (QueueAction O × QueueEvent O)}

instance : Decidable q.Stranded := inferInstanceAs (Decidable (_ ∧ _))

/-- Every step that the queue makes by itself lowers its rank. -/
theorem rank_lt_of_step (hq : q.Consistent) (ha : a.Internal) (hs : QueueStep q a q' e) :
    q'.rank < q.rank := by
  cases hs with
  | add _ | addFirst _ | cancel => exact ha.elim
  | down ht _ | take ht _ | stop ht _ _ | crash ht _ _ | main ht | skip ht _ | call ht _
  | beforeMain ht | dropped ht _ | finish ht _ | finished ht | stopped ht _ =>
    simp only [rank, ht, QueueThread.rank]
    omega
  | @remove op ht =>
    obtain ⟨ops, hops⟩ := List.head?_eq_some_iff.1 (hq.current op (by rw [ht]; rfl))
    simp only [rank, ht, hops, QueueThread.rank, List.tail_cons, List.length_cons]
    omega
  | @loop b ht =>
    simp only [rank, ht, QueueThread.rank]
    split_ifs <;> omega
  | check hc =>
    have hle : q.delayed.toNat ≤ 1 := Bool.toNat_le _
    simp only [rank, Bool.toNat_true]
    omega
  | quit hd _ _ | keep hd _ =>
    simp only [rank, hd, Bool.toNat_true, Bool.toNat_false]
    omega

/-- A consistent queue that has nothing left to do has no thread. -/
theorem absent_of_quiescent (hq : q.Consistent)
    (hquiet : (queueSystem O).Quiescent (fun _ a => a.Internal) q) : q.thread = .absent := by
  have hrun : q.runOperations = none := hquiet .runOperations trivial
  have hmain : q.performOnMainThread = none := hquiet .performOnMainThread trivial
  have hcheck := hquiet .checkRunningOnMainThread trivial
  have hdelay := hquiet .checkRunningAfterDelay trivial
  change q.checkRunningOnMainThread.map _ = none at hcheck
  change q.checkRunningAfterDelay.map _ = none at hdelay
  rw [Option.map_eq_none_iff] at hcheck hdelay
  have hchecks : ¬ 0 < q.checks := by
    intro hpos
    rw [checkRunningOnMainThread, if_pos hpos] at hcheck
    cases hcheck
  have hdelayed : q.delayed = false := by
    cases hd : q.delayed with
    | false => rfl
    | true =>
      rw [checkRunningAfterDelay, if_pos hd] at hdelay
      split_ifs at hdelay
  cases ht : q.thread with
  | absent => rfl
  | waiting =>
    -- the semaphore is down, so there are no operations and `mQuitting` is not set
    have hsem := hq.operationSem
    have hzero : ¬ 0 < q.mOperationSem := by
      intro hpos
      simp [runOperations, ht, hpos] at hrun
    rw [quitPermit_of_running (by rw [ht]; rfl), ht] at hsem
    simp only [QueueThread.permits] at hsem
    have hquit : q.mQuitting = false := by
      cases hb : q.mQuitting with
      | false => rfl
      | true =>
        rw [hb, Bool.toNat_true] at hsem
        omega
    have hnil : q.mOperations = [] := List.length_eq_zero_iff.1 (by omega)
    obtain hc | hd | hn := hq.checked (by rw [ht]; rfl) hquit hnil
    · exact absurd hc hchecks
    · rw [hdelayed] at hd
      cases hd
    · rw [ht] at hn
      cases hn
  | stopping =>
    have hsem := hq.stopSem
    rw [if_pos ht] at hsem
    simp [performOnMainThread, ht, stoppedOnMainThread, hsem] at hmain
  | awake =>
    exfalso
    simp only [runOperations, ht] at hrun
    split at hrun
    · cases hrun
    · split_ifs at hrun
  | removed op b =>
    exfalso
    simp only [runOperations, ht] at hrun
    split_ifs at hrun
  | callback op b =>
    exfalso
    simp only [performOnMainThread, ht] at hmain
    split_ifs at hmain
  | crashed => exact absurd ht hq.crashed
  | main op | ran op | done b => simp [runOperations, ht] at hrun
  | beforeMain op | finishing b => simp [performOnMainThread, ht] at hmain

/-- What the queue does by itself strands no operation, and helps none. -/
theorem stranded_iff_of_internal (hq : q.Consistent) (ha : a.Internal)
    (hs : QueueStep q a q' e) : q'.Stranded ↔ q.Stranded := by
  cases hs with
  | add _ | addFirst _ | cancel => exact ha.elim
  | stop ht ho _ => simp [Stranded, ht, ho]
  | crash ht ho hquit => exact (hq.not_crash ht ho hquit).elim
  | check _ | quit _ _ _ | keep _ _ => exact Iff.rfl
  | stopped ht _ => simp [Stranded, ht, QueueThread.ending]
  | down ht _ | take ht _ | main ht | remove ht | skip ht _ | call ht _ | loop ht | beforeMain ht
  | dropped ht _ | finish ht _ | finished ht => simp [Stranded, ht, QueueThread.ending]

/-- An operation is stranded when it is added while the thread waits to be stopped. -/
theorem not_stranded_step_iff (hq : q.Consistent) (hns : ¬ q.Stranded)
    (hs : QueueStep q a q' e) :
    (q.thread = .stopping → a.added = none) ↔ ¬ q'.Stranded := by
  by_cases ha : a.Internal
  · refine iff_of_true (fun _ => ?_) ((stranded_iff_of_internal hq ha hs).not.2 hns)
    cases a <;> first | rfl | exact ha.elim
  · cases hs with
    | @add op hst =>
      have hne := hq.started.1 hst
      have hending : q.thread.ending = true ↔ q.thread = .stopping := by
        cases ht : q.thread <;> simp [ht, QueueThread.ending] at hne ⊢
      simp [Stranded, QueueAction.added, hending]
    | @addFirst op hst =>
      have habsent : q.thread = .absent := by
        by_contra hne
        rw [hq.started.2 hne] at hst
        cases hst
      refine iff_of_true (fun hstop => ?_) ?_
      · rw [habsent] at hstop
        cases hstop
      · simp [Stranded, QueueThread.ending]
    | cancel => exact iff_of_true (fun _ => rfl) hns
    | _ => exact absurd trivial ha

/-! ### Runs of a queue left to itself -/

/-- Nothing is added and nothing cancelled in such a run. -/
theorem added_of_internal (hr : (queueSystem O).RunWhere (fun _ a => a.Internal) q h q') :
    added h = [] ∧ cancelled h = [] := by
  refine hr.invariant (I := fun h _ => added h = [] ∧ cancelled h = []) ⟨rfl, rfl⟩ ?_
  rintro h s a o s' ⟨hadd, hcancel⟩ ha -
  rw [added_snoc, cancelled_snoc, hadd, hcancel]
  cases a <;> first | exact ⟨rfl, rfl⟩ | exact ha.elim

theorem stranded_iff_of_run (hq : q.Consistent)
    (hr : (queueSystem O).RunWhere (fun _ a => a.Internal) q h q') :
    q'.Stranded ↔ q.Stranded := by
  have hboth : q'.Consistent ∧ (q'.Stranded ↔ q.Stranded) := by
    refine hr.invariant_state (I := fun s => s.Consistent ∧ (s.Stranded ↔ q.Stranded))
      ⟨hq, Iff.rfl⟩ ?_
    rintro s a o s' ⟨hs, hiff⟩ ha hnext
    have hstep := step_of_next hnext
    exact ⟨hs.step hstep, (stranded_iff_of_internal hs ha hstep).trans hiff⟩
  exact hboth.2

end OperationQueue

open OperationQueue

variable [DecidableEq O] {q q' : OperationQueue O} {h h' : List (QueueAction O × QueueEvent O)}

/-- **A queue left to itself comes to rest.**  From every reachable state its runs are bounded, and
one leads to where nothing is left to do.  There the thread is gone; and all operations added
have been run, and those not cancelled called back, exactly if none was stranded. -/
theorem operations_finish_iff (hr : (queueSystem O).Run .init h q) :
    (∀ h' q', (queueSystem O).RunWhere (fun _ a => a.Internal) q h' q' → h'.length ≤ q.rank) ∧
      (∃ h' q', (queueSystem O).RunWhere (fun _ a => a.Internal) q h' q' ∧
        (queueSystem O).Quiescent (fun _ a => a.Internal) q') ∧
      ∀ h' q', (queueSystem O).RunWhere (fun _ a => a.Internal) q h' q' →
        (queueSystem O).Quiescent (fun _ a => a.Internal) q' → q'.thread = .absent ∧
          ((mains (h ++ h') = added h ∧ ∀ op ∉ cancelled h,
            (finished (h ++ h')).count op = (added h).count op) ↔ ¬ q.Stranded) := by
  have hq := consistent_of_run hr
  have hrank : ∀ s a o s', Consistent s → a.Internal →
      (queueSystem O).next s a = some (s', o) → s'.Consistent ∧ s'.rank < s.rank :=
    fun s a o s' hs ha hnext =>
      ⟨hs.step (step_of_next hnext), rank_lt_of_step hs ha (step_of_next hnext)⟩
  refine ⟨?_, System.exists_quiescent hq hrank, ?_⟩
  · intro h' q' hr'
    have hle := hr'.length_add_rank_le hq hrank
    omega
  · intro h' q' hr' hquiet
    have hrun := hr.append hr'.run
    have habsent := absent_of_quiescent (consistent_of_run hrun) hquiet
    obtain ⟨hadd, hcancel⟩ := added_of_internal hr'
    obtain ⟨hfifo, -, -, hcount, -⟩ := runs_in_order hrun
    have hpending : q'.pending = q'.mOperations := by rw [pending, habsent]
    have hunsettled : q'.unsettled = none := by rw [unsettled, habsent]
    have haddh : added (h ++ h') = added h := by
      rw [added, List.filterMap_append, ← added, ← added, hadd, List.append_nil]
    have hcancelh : cancelled (h ++ h') = cancelled h := by
      rw [cancelled, List.filterMap_append, ← cancelled, ← cancelled, hcancel, List.append_nil]
    rw [hunsettled, Option.toList_none, List.append_nil, hcancelh] at hcount
    rw [hpending, haddh] at hfifo
    have hstranded : ¬ q.Stranded ↔ q'.mOperations = [] := by
      rw [← stranded_iff_of_run hq hr', Stranded, habsent]
      simp [QueueThread.ending]
    refine ⟨habsent, ?_⟩
    rw [hstranded]
    constructor
    · rintro ⟨hmains, -⟩
      rw [hmains] at hfifo
      exact List.append_right_eq_self.1 hfifo
    · intro hnil
      rw [hnil, List.append_nil] at hfifo
      exact ⟨hfifo, fun op hop => by rw [hcount op hop, hfifo]⟩

/-- The second operation is added when the thread has run out of operations and been told to
quit. -/
theorem operations_finish_stranded :
    ∃ (h : List (QueueAction ℕ × QueueEvent ℕ)) (q : OperationQueue ℕ),
      added h = [1, 2] ∧ mains h = [1] ∧
        ∀ h' q', (queueSystem ℕ).RunWhere (fun _ a => a.Internal) q h' q' →
          (queueSystem ℕ).Quiescent (fun _ a => a.Internal) q' →
            ¬ (mains (h ++ h') = added h ∧ ∀ op ∉ cancelled h,
              (finished (h ++ h')).count op = (added h).count op) := by
  obtain ⟨h, q, hr, hadded, hmains, hs⟩ := (queueSystem ℕ).exists_run_of_exec (fun _ _ => True)
    .init
    [.addOperation 1, .runOperations, .runOperations, .performOnMainThread, .runOperations,
      .runOperations, .runOperations, .performOnMainThread, .performOnMainThread, .runOperations,
      .checkRunningOnMainThread, .checkRunningAfterDelay, .runOperations, .runOperations,
      .addOperation 2]
    (fun h q => added h = [1, 2] ∧ mains h = [1] ∧ q.Stranded) (by decide)
  refine ⟨h, q, hadded, hmains, fun h' q' hr' hquiet hall => ?_⟩
  exact ((operations_finish_iff hr).2.2 h' q' hr' hquiet).2.1 hall hs

/-- **Which operations are lost.**  In no state of a run is an operation stranded, exactly if none
is added while the thread waits for `stoppedOnMainThread`. -/
theorem not_stranded_iff (hr : (queueSystem O).Run .init h q) :
    (queueSystem O).Along (fun _ q => ¬ q.Stranded) .init h ↔
      (queueSystem O).RunWhere (fun q a => q.thread = .stopping → a.added = none) .init h q := by
  refine hr.along_iff (I := fun _ q => q.Consistent) consistent_init ?_ ?_
  · simp [Stranded, OperationQueue.init]
  · intro h s a o s' hs hns _ hnext
    have hstep := step_of_next hnext
    exact ⟨fun _ => hs.step hstep, not_stranded_step_iff hs hns hstep⟩

/-- The second operation is added a moment later, when the thread is gone. -/
theorem not_stranded_two :
    ∃ h : List (QueueAction ℕ × QueueEvent ℕ), added h = [1, 2] ∧
      (queueSystem ℕ).Along (fun _ q => ¬ q.Stranded) .init h := by
  obtain ⟨h, _, hr, hadded⟩ := (queueSystem ℕ).exists_run_of_exec
    (fun q a => q.thread = .stopping → a.added = none) .init
    [.addOperation 1, .runOperations, .runOperations, .performOnMainThread, .runOperations,
      .runOperations, .runOperations, .performOnMainThread, .performOnMainThread, .runOperations,
      .checkRunningOnMainThread, .checkRunningAfterDelay, .runOperations, .runOperations,
      .performOnMainThread, .addOperation 2]
    (fun h _ => added h = [1, 2]) (by decide)
  exact ⟨h, hadded, (not_stranded_iff hr.run).2 hr⟩

end SecMail
