import SecMail.LTS.Basic

/-!
# The operation queue

Every connection runs its operations on a thread of its own, one after the other.  `OperationQueue`
starts the thread when the first operation is added, and stops it a second after it has run out of
operations.  Operations are added and cancelled on the main thread, and called back there.

The thread and the main thread are interleaved at every access to what they share: the operations
(behind a lock), the semaphores, `mQuitting` and `Operation::mCancelled`.

* `OperationQueue` : the queue with its thread, and the calls that wait on the main thread;
* `queueSystem` : the system, which shows what is run and what is called back;
* `OperationQueue.Consistent` : how the semaphores, the flags and the thread belong together.
-/

namespace SecMail

/-- Where the thread is in `runOperations`. -/
inductive QueueThread (O : Type*)
  /-- There is no thread. -/
  | absent
  /-- At `mailsem_down(mOperationSem)`. -/
  | waiting
  /-- It has taken the semaphore. -/
  | awake
  /-- It waits for `beforeMain` on the main thread. -/
  | beforeMain (op : O)
  /-- At `op->main()`. -/
  | main (op : O)
  /-- `op->main()` has returned. -/
  | ran (op : O)
  /-- The operation has been removed. -/
  | removed (op : O) (needsCheckRunning : Bool)
  /-- It waits for `callbackOnMainThread`. -/
  | callback (op : O) (needsCheckRunning : Bool)
  /-- The callback is running on the main thread. -/
  | finishing (needsCheckRunning : Bool)
  /-- It is done with the operation. -/
  | done (needsCheckRunning : Bool)
  /-- It waits for `stoppedOnMainThread`. -/
  | stopping
  /-- It has used an operation that is `NULL`. -/
  | crashed
  deriving DecidableEq

/-- The queue. -/
structure OperationQueue (O : Type*) where
  mOperations : List O
  mStarted : Bool
  mQuitting : Bool
  mOperationSem : ℕ
  mStopSem : ℕ
  thread : QueueThread O
  /-- The operations of which `mCancelled` is set. -/
  mCancelled : List O
  /-- The number of calls of `checkRunningOnMainThread` that wait on the main thread. -/
  checks : ℕ
  /-- `checkRunningAfterDelay` is going to be called. -/
  delayed : Bool
  deriving DecidableEq

/-- What can happen. -/
inductive QueueAction (O : Type*)
  | addOperation (op : O)
  /-- `Operation::cancel` -/
  | cancel (op : O)
  /-- The thread goes on. -/
  | runOperations
  /-- The main thread performs what the thread waits for. -/
  | performOnMainThread
  | checkRunningOnMainThread
  | checkRunningAfterDelay
  deriving DecidableEq

/-- What is seen of a step. -/
inductive QueueEvent (O : Type*)
  | silent
  /-- `op->main()` -/
  | main (op : O)
  /-- `op->callback()->operationFinished(op)` -/
  | operationFinished (op : O)
  deriving DecidableEq

namespace OperationQueue

variable {O : Type*}

/-- The constructor. -/
def init : OperationQueue O := ⟨[], false, false, 0, 0, .absent, [], 0, false⟩

variable (q : OperationQueue O)

/-- `startThread`; the main thread waits until the thread has come to its loop. -/
def startThread : OperationQueue O :=
  if q.mStarted then q
  else { q with mQuitting := false, mStarted := true, thread := .waiting }

/-- `addOperation` -/
def addOperation (op : O) : OperationQueue O :=
  { q with
    mOperations := q.mOperations ++ [op]
    mOperationSem := q.mOperationSem + 1 }.startThread

/-- `Operation::cancel` -/
def cancel (op : O) : OperationQueue O := { q with mCancelled := op :: q.mCancelled }

/-- `checkRunningOnMainThread`: one delayed call replaces the other. -/
def checkRunningOnMainThread : Option (OperationQueue O) :=
  if 0 < q.checks then some { q with checks := q.checks - 1, delayed := true } else none

/-- `checkRunningAfterDelay` -/
def checkRunningAfterDelay : Option (OperationQueue O) :=
  if q.delayed then
    if q.mQuitting = false ∧ q.mOperations = [] then
      some { q with delayed := false, mOperationSem := q.mOperationSem + 1, mQuitting := true }
    else some { q with delayed := false }
  else none

/-- `stoppedOnMainThread`, once the semaphore is up. -/
def stoppedOnMainThread : Option (OperationQueue O) :=
  if 0 < q.mStopSem then
    some { q with mStopSem := q.mStopSem - 1, mStarted := false, thread := .absent }
  else none

variable [DecidableEq O]

/-- `op->isCancelled()` -/
def isCancelled (op : O) : Bool := decide (op ∈ q.mCancelled)

/-- The thread goes on with `runOperations`, if it does not wait. -/
def runOperations : Option (OperationQueue O × QueueEvent O) :=
  match q.thread with
  | .waiting =>
    if 0 < q.mOperationSem then
      some ({ q with mOperationSem := q.mOperationSem - 1, thread := .awake }, .silent)
    else none
  | .awake =>
    match q.mOperations with
    | op :: _ => some ({ q with thread := .beforeMain op }, .silent)
    | [] =>
      if q.mQuitting then
        some ({ q with mStopSem := q.mStopSem + 1, thread := .stopping }, .silent)
      else some ({ q with thread := .crashed }, .silent)
  | .main op => some ({ q with thread := .ran op }, .main op)
  | .ran op =>
    some ({ q with
      mOperations := q.mOperations.tail
      thread := .removed op q.mOperations.tail.isEmpty }, .silent)
  | .removed op needsCheckRunning =>
    if q.isCancelled op then some ({ q with thread := .done needsCheckRunning }, .silent)
    else some ({ q with thread := .callback op needsCheckRunning }, .silent)
  | .done needsCheckRunning =>
    some ({ q with
      checks := if needsCheckRunning then q.checks + 1 else q.checks
      thread := .waiting }, .silent)
  | _ => none

/-- The main thread performs what the thread waits for: `beforeMain` (which does nothing),
`callbackOnMainThread` up to the end of the callback, or `stoppedOnMainThread`. -/
def performOnMainThread : Option (OperationQueue O × QueueEvent O) :=
  match q.thread with
  | .beforeMain op => some ({ q with thread := .main op }, .silent)
  | .callback op needsCheckRunning =>
    if q.isCancelled op then some ({ q with thread := .done needsCheckRunning }, .silent)
    else some ({ q with thread := .finishing needsCheckRunning }, .operationFinished op)
  | .finishing needsCheckRunning => some ({ q with thread := .done needsCheckRunning }, .silent)
  | .stopping => q.stoppedOnMainThread.map fun q => (q, .silent)
  | _ => none

/-- What an action does. -/
def next : QueueAction O → Option (OperationQueue O × QueueEvent O)
  | .addOperation op => some (q.addOperation op, .silent)
  | .cancel op => some (q.cancel op, .silent)
  | .runOperations => q.runOperations
  | .performOnMainThread => q.performOnMainThread
  | .checkRunningOnMainThread => q.checkRunningOnMainThread.map fun q => (q, .silent)
  | .checkRunningAfterDelay => q.checkRunningAfterDelay.map fun q => (q, .silent)

end OperationQueue

/-- The queue as a transition system. -/
def queueSystem (O : Type*) [DecidableEq O] :
    System (OperationQueue O) (QueueAction O) (QueueEvent O) where
  next q a := q.next a

variable {O : Type*} [DecidableEq O]

/-! ### Steps -/

/-- The cases of a step. -/
inductive QueueStep (q : OperationQueue O) : QueueAction O → OperationQueue O → QueueEvent O → Prop
  | add {op : O} (h : q.mStarted = true) : QueueStep q (.addOperation op)
      { q with
        mOperations := q.mOperations ++ [op]
        mOperationSem := q.mOperationSem + 1 } .silent
  | addFirst {op : O} (h : q.mStarted = false) : QueueStep q (.addOperation op)
      { q with
        mOperations := q.mOperations ++ [op]
        mOperationSem := q.mOperationSem + 1
        mQuitting := false
        mStarted := true
        thread := .waiting } .silent
  | cancel {op : O} :
      QueueStep q (.cancel op) { q with mCancelled := op :: q.mCancelled } .silent
  | down (ht : q.thread = .waiting) (hs : 0 < q.mOperationSem) : QueueStep q .runOperations
      { q with mOperationSem := q.mOperationSem - 1, thread := .awake } .silent
  | take {op : O} {ops : List O} (ht : q.thread = .awake) (ho : q.mOperations = op :: ops) :
      QueueStep q .runOperations { q with thread := .beforeMain op } .silent
  | stop (ht : q.thread = .awake) (ho : q.mOperations = []) (hq : q.mQuitting = true) :
      QueueStep q .runOperations
        { q with mStopSem := q.mStopSem + 1, thread := .stopping } .silent
  | crash (ht : q.thread = .awake) (ho : q.mOperations = []) (hq : q.mQuitting = false) :
      QueueStep q .runOperations { q with thread := .crashed } .silent
  | main {op : O} (ht : q.thread = .main op) :
      QueueStep q .runOperations { q with thread := .ran op } (.main op)
  | remove {op : O} (ht : q.thread = .ran op) : QueueStep q .runOperations
      { q with
        mOperations := q.mOperations.tail
        thread := .removed op q.mOperations.tail.isEmpty } .silent
  | skip {op : O} {b : Bool} (ht : q.thread = .removed op b) (hc : op ∈ q.mCancelled) :
      QueueStep q .runOperations { q with thread := .done b } .silent
  | call {op : O} {b : Bool} (ht : q.thread = .removed op b) (hc : op ∉ q.mCancelled) :
      QueueStep q .runOperations { q with thread := .callback op b } .silent
  | loop {b : Bool} (ht : q.thread = .done b) : QueueStep q .runOperations
      { q with checks := if b then q.checks + 1 else q.checks, thread := .waiting } .silent
  | beforeMain {op : O} (ht : q.thread = .beforeMain op) :
      QueueStep q .performOnMainThread { q with thread := .main op } .silent
  | dropped {op : O} {b : Bool} (ht : q.thread = .callback op b) (hc : op ∈ q.mCancelled) :
      QueueStep q .performOnMainThread { q with thread := .done b } .silent
  | finish {op : O} {b : Bool} (ht : q.thread = .callback op b) (hc : op ∉ q.mCancelled) :
      QueueStep q .performOnMainThread { q with thread := .finishing b } (.operationFinished op)
  | finished {b : Bool} (ht : q.thread = .finishing b) :
      QueueStep q .performOnMainThread { q with thread := .done b } .silent
  | stopped (ht : q.thread = .stopping) (hs : 0 < q.mStopSem) : QueueStep q .performOnMainThread
      { q with mStopSem := q.mStopSem - 1, mStarted := false, thread := .absent } .silent
  | check (hc : 0 < q.checks) : QueueStep q .checkRunningOnMainThread
      { q with checks := q.checks - 1, delayed := true } .silent
  | quit (hd : q.delayed = true) (hq : q.mQuitting = false) (ho : q.mOperations = []) :
      QueueStep q .checkRunningAfterDelay
        { q with
          delayed := false
          mOperationSem := q.mOperationSem + 1
          mQuitting := true } .silent
  | keep (hd : q.delayed = true) (h : ¬ (q.mQuitting = false ∧ q.mOperations = [])) :
      QueueStep q .checkRunningAfterDelay { q with delayed := false } .silent

variable {q q' : OperationQueue O} {a : QueueAction O} {e : QueueEvent O}

theorem OperationQueue.step_of_runOperations (h : q.runOperations = some (q', e)) :
    QueueStep q .runOperations q' e := by
  rw [OperationQueue.runOperations] at h
  split at h
  · rename_i ht
    split_ifs at h with hs
    cases h
    exact .down ht hs
  · rename_i ht
    split at h
    · rename_i ho
      cases h
      exact .take ht ho
    · rename_i ho
      split_ifs at h with hq
      · cases h
        exact .stop ht ho hq
      · cases h
        exact .crash ht ho (Bool.eq_false_iff.2 hq)
  · rename_i ht
    cases h
    exact .main ht
  · rename_i ht
    cases h
    exact .remove ht
  · rename_i ht
    split_ifs at h with hc
    · cases h
      exact .skip ht (of_decide_eq_true hc)
    · cases h
      exact .call ht fun hmem => hc (decide_eq_true hmem)
  · rename_i ht
    cases h
    exact .loop ht
  · cases h

theorem OperationQueue.step_of_performOnMainThread (h : q.performOnMainThread = some (q', e)) :
    QueueStep q .performOnMainThread q' e := by
  rw [OperationQueue.performOnMainThread] at h
  split at h
  · rename_i ht
    cases h
    exact .beforeMain ht
  · rename_i ht
    split_ifs at h with hc
    · cases h
      exact .dropped ht (of_decide_eq_true hc)
    · cases h
      exact .finish ht fun hmem => hc (decide_eq_true hmem)
  · rename_i ht
    cases h
    exact .finished ht
  · rename_i ht
    obtain ⟨q₁, hstop, heq⟩ := Option.map_eq_some_iff.1 h
    rw [OperationQueue.stoppedOnMainThread] at hstop
    split_ifs at hstop with hs
    cases hstop
    cases heq
    exact .stopped ht hs
  · cases h

theorem OperationQueue.step_of_next (h : (queueSystem O).next q a = some (q', e)) :
    QueueStep q a q' e := by
  cases a with
  | addOperation op =>
    cases h
    cases hs : q.mStarted with
    | true =>
      have hstart : q.addOperation op = { q with
          mOperations := q.mOperations ++ [op]
          mOperationSem := q.mOperationSem + 1 } := if_pos hs
      exact hstart ▸ .add hs
    | false =>
      have hstart : q.addOperation op = { q with
          mOperations := q.mOperations ++ [op]
          mOperationSem := q.mOperationSem + 1
          mQuitting := false
          mStarted := true
          thread := .waiting } := if_neg (by rw [hs]; exact Bool.false_ne_true)
      exact hstart ▸ .addFirst hs
  | cancel op =>
    cases h
    exact .cancel
  | runOperations => exact OperationQueue.step_of_runOperations h
  | performOnMainThread => exact OperationQueue.step_of_performOnMainThread h
  | checkRunningOnMainThread =>
    obtain ⟨q₁, hcheck, heq⟩ := Option.map_eq_some_iff.1 h
    rw [OperationQueue.checkRunningOnMainThread] at hcheck
    split_ifs at hcheck with hc
    cases hcheck
    cases heq
    exact .check hc
  | checkRunningAfterDelay =>
    obtain ⟨q₁, hcheck, heq⟩ := Option.map_eq_some_iff.1 h
    rw [OperationQueue.checkRunningAfterDelay] at hcheck
    split_ifs at hcheck with hd hquit
    · cases hcheck
      cases heq
      exact .quit hd hquit.1 hquit.2
    · cases hcheck
      cases heq
      exact .keep hd hquit

/-! ### How the queue and its thread belong together -/

namespace QueueThread

/-- There is no thread, or it has decided to stop. -/
def ending : QueueThread O → Bool
  | .absent | .stopping => true
  | _ => false

/-- The number of permits that the thread has taken from the semaphore and not used. -/
def permits : QueueThread O → ℕ
  | .awake | .beforeMain _ | .main _ | .ran _ => 1
  | _ => 0

/-- The operation that the thread is working on while it is still in the queue. -/
def current : QueueThread O → Option O
  | .beforeMain op | .main op | .ran op => some op
  | _ => none

/-- The thread is going to call `checkRunningOnMainThread`. -/
def needsCheckRunning : QueueThread O → Bool
  | .removed _ b | .callback _ b | .finishing b | .done b => b
  | _ => false

end QueueThread

namespace OperationQueue

/-- The permit that tells the thread to stop. -/
def quitPermit (q : OperationQueue O) : ℕ := if q.thread.ending then 0 else q.mQuitting.toNat

/-- The semaphores count what there is to do, and a queue that runs out of operations is going to
be checked. -/
structure Consistent (q : OperationQueue O) : Prop where
  started : q.mStarted = true ↔ q.thread ≠ .absent
  operationSem : q.mOperationSem + q.thread.permits = q.mOperations.length + q.quitPermit
  current : ∀ op ∈ q.thread.current, q.mOperations.head? = some op
  stopSem : q.mStopSem = if q.thread = .stopping then 1 else 0
  quitting : q.thread = .stopping → q.mQuitting = true
  absent : q.thread = .absent → q.mQuitting = false → q.checks = 0 ∧ q.delayed = false
  checked : q.thread.ending = false → q.mQuitting = false → q.mOperations = [] →
    0 < q.checks ∨ q.delayed = true ∨ q.thread.needsCheckRunning = true
  crashed : q.thread ≠ .crashed

omit [DecidableEq O] in
theorem quitPermit_of_running {q : OperationQueue O} (h : q.thread.ending = false) :
    q.quitPermit = q.mQuitting.toNat := by
  rw [quitPermit, h, if_neg Bool.false_ne_true]

omit [DecidableEq O] in
theorem quitPermit_of_ending {q : OperationQueue O} (h : q.thread.ending = true) :
    q.quitPermit = 0 := if_pos h

theorem consistent_init : (init : OperationQueue O).Consistent := by
  constructor <;> simp [init, QueueThread.permits, QueueThread.current, QueueThread.ending,
    quitPermit]

end OperationQueue

namespace OperationQueue.Consistent

open QueueThread OperationQueue

/-- A step of the thread that leaves the semaphores and the operations as they are. -/
theorem move {t : QueueThread O} (h : q.Consistent) (hend : q.thread.ending = false)
    (hend' : t.ending = false) (hcrashed : t ≠ .crashed) (hpermits : t.permits = q.thread.permits)
    (hcurrent : ∀ op ∈ t.current, q.mOperations.head? = some op)
    (hcheck : q.thread.needsCheckRunning = true → q.mOperations = [] →
      t.needsCheckRunning = true) : Consistent { q with thread := t } := by
  have hne : q.thread ≠ .absent := by
    intro habsent
    rw [habsent] at hend
    cases hend
  have hne' : t ≠ .absent := by
    intro habsent
    rw [habsent] at hend'
    cases hend'
  have hstopping : q.thread ≠ .stopping := by
    intro hstop
    rw [hstop] at hend
    cases hend
  have hstopping' : t ≠ .stopping := by
    intro hstop
    rw [hstop] at hend'
    cases hend'
  refine ⟨?_, ?_, hcurrent, ?_, fun hstop => absurd hstop hstopping',
    fun habsent => absurd habsent hne', ?_, hcrashed⟩
  · exact iff_of_true (h.started.2 hne) hne'
  · have hsem := h.operationSem
    rw [quitPermit_of_running hend] at hsem
    rw [quitPermit_of_running hend']
    change q.mOperationSem + t.permits = _
    rw [hpermits]
    exact hsem
  · rw [if_neg hstopping']
    exact h.stopSem.trans (if_neg hstopping)
  · intro _ hq ho
    obtain hc | hd | hn := h.checked hend hq ho
    · exact .inl hc
    · exact .inr (.inl hd)
    · exact .inr (.inr (hcheck hn ho))

theorem add (h : q.Consistent) (op : O) :
    Consistent { q with
      mOperations := q.mOperations ++ [op]
      mOperationSem := q.mOperationSem + 1 } := by
  refine ⟨h.started, ?_, ?_, h.stopSem, h.quitting, h.absent, ?_, h.crashed⟩
  · have hsem := h.operationSem
    change q.mOperationSem + 1 + q.thread.permits = (q.mOperations ++ [op]).length + q.quitPermit
    rw [List.length_append, List.length_singleton]
    omega
  · intro o ho
    rw [List.head?_append, h.current o ho]
    rfl
  · intro _ _ hnil
    exact absurd hnil (List.append_ne_nil_of_right_ne_nil _ (List.cons_ne_nil _ _))

theorem addFirst (h : q.Consistent) (hs : q.mStarted = false) (op : O) :
    Consistent { q with
      mOperations := q.mOperations ++ [op]
      mOperationSem := q.mOperationSem + 1
      mQuitting := false
      mStarted := true
      thread := .waiting } := by
  have habsent : q.thread = .absent := by
    by_contra hne
    rw [h.started.2 hne] at hs
    cases hs
  have hsem := h.operationSem
  rw [quitPermit_of_ending (by rw [habsent]; rfl), habsent] at hsem
  refine ⟨by simp, ?_, by simp [QueueThread.current], ?_, by simp, by simp, by simp, by simp⟩
  · rw [quitPermit_of_running rfl]
    simpa [permits] using hsem
  · simpa [habsent] using h.stopSem

/-- The thread takes the semaphore. -/
theorem down (h : q.Consistent) (ht : q.thread = .waiting) (hs : 0 < q.mOperationSem) :
    Consistent { q with mOperationSem := q.mOperationSem - 1, thread := .awake } := by
  have hsem := h.operationSem
  rw [quitPermit_of_running (by rw [ht]; rfl), ht] at hsem
  refine ⟨by simp [h.started, ht], ?_, by simp [QueueThread.current],
    by simpa [ht] using h.stopSem, by simp, by simp, ?_, by simp⟩
  · rw [quitPermit_of_running rfl]
    simp only [permits] at hsem ⊢
    omega
  · intro _ hq ho
    simpa [ht, needsCheckRunning] using h.checked (by rw [ht]; rfl) hq ho

theorem stop (h : q.Consistent) (ht : q.thread = .awake) (ho : q.mOperations = [])
    (hq : q.mQuitting = true) :
    Consistent { q with mStopSem := q.mStopSem + 1, thread := .stopping } := by
  have hsem := h.operationSem
  rw [quitPermit_of_running (by rw [ht]; rfl), ht, ho, hq] at hsem
  refine ⟨by simp [h.started, ht], ?_, by simp [QueueThread.current],
    by simp [h.stopSem, ht], fun _ => hq, by simp, by simp [ending], by simp⟩
  rw [quitPermit_of_ending rfl]
  simp only [permits, ho, Bool.toNat_true, List.length_nil] at hsem ⊢
  omega

/-- A thread that is awake finds an operation, or has been told to quit. -/
theorem not_crash (h : q.Consistent) (ht : q.thread = .awake) (ho : q.mOperations = [])
    (hq : q.mQuitting = false) : False := by
  have hsem := h.operationSem
  rw [quitPermit_of_running (by rw [ht]; rfl), ht, ho, hq] at hsem
  simp [permits] at hsem

theorem remove {op : O} (h : q.Consistent) (ht : q.thread = .ran op) :
    Consistent { q with
      mOperations := q.mOperations.tail
      thread := .removed op q.mOperations.tail.isEmpty } := by
  have hsem := h.operationSem
  obtain ⟨ops, hops⟩ := List.head?_eq_some_iff.1 (h.current op (by rw [ht]; rfl))
  rw [quitPermit_of_running (by rw [ht]; rfl), ht, hops] at hsem
  refine ⟨by simp [h.started, ht], ?_, by simp [QueueThread.current],
    by simpa [ht] using h.stopSem, by simp, by simp, ?_, by simp⟩
  · rw [quitPermit_of_running rfl]
    simp only [permits, List.length_cons, hops, List.tail_cons] at hsem ⊢
    omega
  · intro _ _ hnil
    exact .inr (.inr (List.isEmpty_iff.2 hnil))

/-- The thread comes back to the start of its loop. -/
theorem loop {b : Bool} (h : q.Consistent) (ht : q.thread = .done b) :
    Consistent { q with
      checks := if b then q.checks + 1 else q.checks
      thread := .waiting } := by
  have hsem := h.operationSem
  rw [quitPermit_of_running (by rw [ht]; rfl), ht] at hsem
  refine ⟨by simp [h.started, ht], ?_, by simp [QueueThread.current],
    by simpa [ht] using h.stopSem, by simp, by simp, ?_, by simp⟩
  · rw [quitPermit_of_running rfl]
    exact hsem
  · intro _ hq ho
    obtain hc | hd | hn := h.checked (by rw [ht]; rfl) hq ho
    · left
      cases b with
      | false => exact hc
      | true => exact Nat.succ_pos _
    · exact .inr (.inl hd)
    · rw [ht] at hn
      exact .inl (by rw [show b = true from hn]; exact Nat.succ_pos _)

theorem stopped (h : q.Consistent) (ht : q.thread = .stopping) :
    Consistent { q with mStopSem := q.mStopSem - 1, mStarted := false, thread := .absent } := by
  have hsem := h.operationSem
  rw [quitPermit_of_ending (by rw [ht]; rfl), ht] at hsem
  refine ⟨by simp, ?_, by simp [QueueThread.current], by simp [h.stopSem, ht], by simp, ?_,
    by simp [ending], by simp⟩
  · rw [quitPermit_of_ending rfl]
    exact hsem
  · intro _ hq
    exact absurd (hq.symm.trans (h.quitting ht)) Bool.false_ne_true

/-- The queue tells its thread to stop. -/
theorem quit (h : q.Consistent) (hd : q.delayed = true) (hq : q.mQuitting = false) :
    Consistent { q with
      delayed := false
      mOperationSem := q.mOperationSem + 1
      mQuitting := true } := by
  have hend : q.thread.ending = false := by
    rw [Bool.eq_false_iff]
    intro hend
    cases ht : q.thread with
    | absent => exact Bool.false_ne_true ((h.absent ht hq).2.symm.trans hd)
    | stopping => exact Bool.false_ne_true (hq.symm.trans (h.quitting ht))
    | _ => simp [ht, ending] at hend
  refine ⟨h.started, ?_, h.current, h.stopSem, fun _ => rfl, by simp, by simp, h.crashed⟩
  have hsem := h.operationSem
  rw [quitPermit_of_running hend, hq] at hsem
  have hquit : quitPermit { q with
      delayed := false
      mOperationSem := q.mOperationSem + 1
      mQuitting := true } = 1 := quitPermit_of_running hend
  rw [hquit]
  simp only [Bool.toNat_false] at hsem ⊢
  omega

/-- Steps of the thread and of the main thread keep the queue consistent. -/
theorem step (h : q.Consistent) (hs : QueueStep q a q' e) : q'.Consistent := by
  cases hs with
  | add _ => exact h.add _
  | addFirst hst => exact h.addFirst hst _
  | cancel => exact ⟨h.started, h.operationSem, h.current, h.stopSem, h.quitting, h.absent,
      h.checked, h.crashed⟩
  | down ht hpos => exact h.down ht hpos
  | take ht ho =>
    refine h.move (by rw [ht]; rfl) rfl (by simp) (by rw [ht]; rfl) ?_ (by simp [ho])
    simp [QueueThread.current, ho]
  | stop ht ho hq => exact h.stop ht ho hq
  | crash ht ho hq => exact (h.not_crash ht ho hq).elim
  | main ht | beforeMain ht =>
    refine h.move (by rw [ht]; rfl) rfl (by simp) (by rw [ht]; rfl) ?_
      (by simp [ht, needsCheckRunning])
    simpa [ht, QueueThread.current] using h.current
  | remove ht => exact h.remove ht
  | skip ht _ | call ht _ | dropped ht _ | finish ht _ | finished ht =>
    refine h.move (by rw [ht]; rfl) rfl (by simp) (by rw [ht]; rfl) (by simp [QueueThread.current])
      ?_
    rw [ht]
    exact fun hb _ => hb
  | loop ht => exact h.loop ht
  | stopped ht _ => exact h.stopped ht
  | check hc =>
    refine ⟨h.started, h.operationSem, h.current, h.stopSem, h.quitting, ?_,
      fun _ _ _ => .inr (.inl rfl), h.crashed⟩
    intro habsent hq
    exact absurd (h.absent habsent hq).1 (Nat.pos_iff_ne_zero.1 hc)
  | quit hd hq _ => exact h.quit hd hq
  | keep hd hkeep =>
    exact ⟨h.started, h.operationSem, h.current, h.stopSem, h.quitting,
      fun habsent hq => ⟨(h.absent habsent hq).1, rfl⟩,
      fun _ hq ho => absurd ⟨hq, ho⟩ hkeep, h.crashed⟩

end OperationQueue.Consistent

theorem OperationQueue.consistent_of_run {h : List (QueueAction O × QueueEvent O)}
    (hr : (queueSystem O).Run .init h q) : q.Consistent :=
  hr.invariant_state consistent_init fun _ _ _ _ hq _ hs => hq.step (step_of_next hs)

end SecMail
