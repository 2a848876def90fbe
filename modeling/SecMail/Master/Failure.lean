import SecMail.Master.Loading
import SecMail.Master.Range

/-!
# Loads that fail

A load fails when `folderInfoOperation` reports an error, or when its fetch reports an error or
brings nothing.  By then the completion block of `folderInfoOperation` has already replaced the
message count, by 0 if it is that operation that fails, and dropped the list if the count is a new
one.

* `Ledger` records for each load what was shown when `loadMsg:` was called, and whether a
  completion has touched the list or the count since;
* `failed_load_intact` : a load that fails untouched leaves everything as it was;
* `not_failed_load_intact` : an error of `folderInfoOperation` forgets the message count, and
  there is nothing more to load.
-/

namespace SecMail

variable {τ : Type*} {w : ℕ}

/-- What the controller shows: the list and the message count. -/
structure Shown (τ : Type*) (w : ℕ) where
  aryMsgs : List (Msg τ)
  countOfMsgInServer : BitVec w
  deriving DecidableEq

/-- What was shown when `loadMsg:` was called, and whether a completion has touched it since. -/
structure LoadRecord (τ : Type*) (w : ℕ) where
  shown : Shown τ w
  touched : Bool

/-- How a load failed: what was shown when it was called, what is shown now, and the flag. -/
structure Outcome (τ : Type*) (w : ℕ) where
  called : Shown τ w
  shown : Shown τ w
  isLoading : Bool
  deriving DecidableEq

/-- The failure has changed nothing, and the load has ended. -/
def Outcome.Intact (o : Outcome τ w) : Prop := o.shown = o.called ∧ o.isLoading = false

/-- The response ends a load without messages. -/
def Response.failed : Response → Bool
  | .checkAccount .. => false
  | .folderInfo info => info.isNone
  | .fetchMessages messages => (messages.getD []).isEmpty

/-- The operation whose completion fails. -/
def MasterAction.failedLoad : MasterAction τ → Option ℕ
  | .complete id response => if response.failed then some id else none
  | _ => none

namespace Master

variable (m : Master τ w)

/-- What is shown. -/
def shown : Shown τ w := ⟨m.controller.aryMsgs, m.controller.countOfMsgInServer⟩

/-- The completion replaces the list or the count: a check fails, a count is not the one
remembered (that of an error is 0), or a fetch brings messages. -/
def touchesOn : Request w → Response → Bool
  | .checkAccount, .checkAccount _ valid => !valid
  | .folderInfo _, .folderInfo info =>
    decide (messageCount info ≠ m.controller.countOfMsgInServer)
  | .fetchMessages _, .fetchMessages messages => !(messages.getD []).isEmpty
  | _, _ => false

/-- The action is a completion that replaces the list or the count. -/
def touches : MasterAction τ → Bool
  | .complete id response => (m.operation id).any fun op => m.touchesOn op.request response
  | _ => false

end Master

/-- The controller and the records of its loads, by the numbers of their operations. -/
structure Ledger (τ : Type*) (w : ℕ) where
  master : Master τ w
  record : ℕ → LoadRecord τ w

namespace Ledger

/-- The records when the view is loaded. -/
def init (c : NSManagedObjectContext τ) : Ledger τ w := ⟨.init c, fun _ => ⟨⟨[], 0⟩, false⟩⟩

variable (l : Ledger τ w)

/-- The record of an operation that is started: a fetch goes on with the load whose messages were
counted, other loads are called now. -/
def called : MasterAction τ → LoadRecord τ w
  | .complete id (.folderInfo _) => l.record id
  | _ => ⟨l.master.shown, false⟩

/-- The records after an action. -/
def recordAfter (a : MasterAction τ) (id : ℕ) : LoadRecord τ w :=
  let record := if id = l.master.nextId then l.called a else l.record id
  { record with touched := record.touched || l.master.touches a }

/-- The condition on a step: a load fails only if nothing has been touched since it was called,
its failure included. -/
def KeepsShown (a : MasterAction τ) : Prop :=
  ∀ id ∈ a.failedLoad, (l.record id).touched = false ∧ l.master.touches a = false

instance (a : MasterAction τ) : Decidable (l.KeepsShown a) :=
  inferInstanceAs (Decidable (∀ id ∈ a.failedLoad, _ ∧ _))

end Ledger

/-- The controller as a transition system, which shows how loads fail. -/
def ledgerSystem (τ : Type*) (w : ℕ) :
    System (Ledger τ w) (MasterAction τ) (Option (Outcome τ w)) where
  next l a := (l.master.perform a).map fun m => (⟨m, l.recordAfter a⟩,
    a.failedLoad.map fun id => ⟨(l.record id).shown, m.shown, m.controller.isLoading⟩)

namespace Master

variable {m m' : Master τ w} {a : MasterAction τ}

/-! ### One step -/

/-- Only completions that touch it change what is shown. -/
theorem shown_of_step (hs : MasterStep m a m') (ha : m.touches a = false) : m'.shown = m.shown := by
  cases hs with
  | connectToServer => rfl
  | setAccount => rfl
  | sameAccount => rfl
  | otherAccount => rfl
  | noMore => rfl
  | store => rfl
  | loadMore =>
    unfold shown
    rw [loadMsg_controller]
  | valid =>
    unfold shown
    rw [loadMsg_controller]
    rfl
  | notValid hop hr =>
    rw [touches, hop, Option.any_some, hr] at ha
    cases ha
  | @folderInfo id op number hop hr info =>
    rw [touches, hop, Option.any_some, hr] at ha
    have hcount : messageCount info = m.controller.countOfMsgInServer :=
      not_not.1 (of_decide_eq_false ha)
    -- the list is kept, or there is none
    have hrows : (if (m.remove id).keepsMsgs (messageCount info) then m.controller.aryMsgs
        else []) = m.controller.aryMsgs := by
      split_ifs with hk
      · rfl
      · by_contra hne
        exact hk (by simp [keepsMsgs, hcount, remove, Ne.symm hne])
    unfold shown
    by_cases hn : MIN (messageCount info) number = 0
    · rw [folderInfoCompleted_of_zero hn, hcount]
      rfl
    · cases hσ : (m.remove id).controller.imapSession with
      | none =>
        rw [folderInfoCompleted_of_none hn hσ]
        exact congrArg₂ Shown.mk hrows hcount
      | some σ =>
        rw [folderInfoCompleted_of_some hn hσ]
        exact congrArg₂ Shown.mk hrows hcount
  | @fetchMessages id op range hop hr messages =>
    rw [touches, hop, Option.any_some, hr] at ha
    have hnil : messages.getD [] = [] := by simpa [touchesOn] using ha
    rw [fetchCompleted_of_nil hnil]
    rfl

/-- A failure ends a load. -/
theorem failed_load (hs : MasterStep m a m') {id : ℕ} (hid : a.failedLoad = some id) :
    (∃ op, m.operation id = some op ∧ op.isLoad = true) ∧ m'.controller.isLoading = false := by
  cases hs with
  | connectToServer => cases hid
  | setAccount => cases hid
  | sameAccount => cases hid
  | otherAccount => cases hid
  | loadMore => cases hid
  | noMore => cases hid
  | valid => cases hid
  | notValid => cases hid
  | store => cases hid
  | @folderInfo id' op number hop hr info =>
    cases info with
    | some n => cases hid
    | none =>
      cases hid
      have hn : MIN (messageCount none) number = 0 := by
        have hzero : (0 : BitVec w).toNat = 0 := BitVec.toNat_zero
        apply BitVec.eq_of_toNat_eq
        rw [toNat_MIN, messageCount_none, hzero, Nat.zero_min]
      rw [folderInfoCompleted_of_zero hn]
      exact ⟨⟨op, hop, by simp [Operation.isLoad, hr]⟩, rfl⟩
  | @fetchMessages id' op range hop hr messages =>
    by_cases hnil : messages.getD [] = []
    · have hid' : id' = id := by simpa [MasterAction.failedLoad, Response.failed, hnil] using hid
      subst hid'
      rw [fetchCompleted_of_nil hnil]
      exact ⟨⟨op, hop, by simp [Operation.isLoad, hr]⟩, rfl⟩
    · simp [MasterAction.failedLoad, Response.failed, hnil] at hid

/-! ### Operations that are started -/

section Start

variable {op : Operation w}

theorem mem_operations_start {σ : MCOIMAPSession} {request : Request w}
    (hop : op ∈ (m.start σ request).operations) : op ∈ m.operations ∨ op.id = m.nextId := by
  rcases List.mem_append.1 hop with hop | hop
  · exact .inl hop
  · obtain rfl := List.mem_singleton.1 hop
    exact .inr rfl

theorem mem_operations_connectToServer {σ : MCOIMAPSession}
    (hop : op ∈ (m.connectToServer σ).operations) : op ∈ m.operations ∨ op.id = m.nextId :=
  mem_operations_start (m := { m with
    controller.imapSession := some σ
    storeMsg.store.imapSession := some σ
    connection := m.connection + 1 }) hop

theorem mem_operations_loadMsg {number : BitVec w} (hop : op ∈ (m.loadMsg number).operations) :
    op ∈ m.operations ∨ op.id = m.nextId := by
  cases hσ : m.controller.imapSession with
  | none => rw [loadMsg_of_none hσ] at hop; exact .inl hop
  | some σ => rw [loadMsg_of_some hσ] at hop; exact mem_operations_start hop

theorem mem_operations_folderInfoCompleted {number : BitVec w} {info : Option (BitVec 32)}
    (hop : op ∈ (m.folderInfoCompleted number info).operations) :
    op ∈ m.operations ∨ op.id = m.nextId := by
  by_cases hn : MIN (messageCount info) number = 0
  · rw [folderInfoCompleted_of_zero hn] at hop
    exact .inl hop
  · cases hσ : m.controller.imapSession with
    | none => rw [folderInfoCompleted_of_none hn hσ] at hop; exact .inl hop
    | some σ => rw [folderInfoCompleted_of_some hn hσ] at hop; exact mem_operations_start hop

theorem mem_operations_fetchCompleted {messages : Option (List MCOIMAPMessage)}
    (hop : op ∈ (m.fetchCompleted messages).operations) : op ∈ m.operations := by
  rcases messages with _ | _ | ⟨msg, messages⟩ <;> exact hop

/-- An operation in progress was so before, or has just been given its number. -/
theorem mem_operations_of_step (hs : MasterStep m a m') (hop : op ∈ m'.operations) :
    op ∈ m.operations ∨ op.id = m.nextId := by
  have hremove : ∀ {id}, op ∈ (m.remove id).operations → op ∈ m.operations :=
    fun hop => (List.mem_filter.1 hop).1
  cases hs with
  | connectToServer => exact mem_operations_connectToServer hop
  | setAccount => exact .inl (List.mem_filter.1 hop).1
  | sameAccount => exact .inl hop
  | otherAccount => exact mem_operations_connectToServer hop
  | loadMore => exact mem_operations_loadMsg hop
  | noMore => exact .inl hop
  | valid => exact (mem_operations_loadMsg hop).imp_left hremove
  | notValid => exact .inl (hremove hop)
  | folderInfo => exact (mem_operations_folderInfoCompleted hop).imp_left hremove
  | fetchMessages => exact .inl (hremove (mem_operations_fetchCompleted hop))
  | store => exact .inl hop

end Start

end Master

namespace Ledger

variable {l : Ledger τ w} {m : Master τ w} {a : MasterAction τ}

/-- The record of a load that is untouched is what is shown now. -/
structure Sound (l : Ledger τ w) : Prop where
  numbered : l.master.Numbered
  untouched : ∀ op ∈ l.master.operations, op.isLoad = true →
    (l.record op.id).touched = false → (l.record op.id).shown = l.master.shown

theorem sound_init (c : NSManagedObjectContext τ) : (init c : Ledger τ w).Sound := by
  constructor <;> simp [init, Master.init, Master.Numbered]

/-- The operation that is started goes on with a load that was recorded, or is called now. -/
theorem Sound.called (h : l.Sound) (hs : MasterStep l.master a m)
    (ht : (l.called a).touched = false) : (l.called a).shown = l.master.shown := by
  cases hs with
  | @folderInfo id op number hop hr info =>
    obtain ⟨hmem, rfl⟩ := Master.mem_of_operation hop
    exact h.untouched op hmem (by simp [Operation.isLoad, hr]) ht
  | connectToServer => rfl
  | setAccount => rfl
  | sameAccount => rfl
  | otherAccount => rfl
  | loadMore => rfl
  | noMore => rfl
  | valid => rfl
  | notValid => rfl
  | fetchMessages => rfl
  | store => rfl

theorem Sound.step (h : l.Sound) (hs : MasterStep l.master a m) :
    (⟨m, l.recordAfter a⟩ : Ledger τ w).Sound := by
  refine ⟨h.numbered.step hs, fun op hop hload ht => ?_⟩
  obtain ⟨ht, hquiet⟩ := Bool.or_eq_false_iff.1 ht
  have hshown : m.shown = l.master.shown := Master.shown_of_step hs hquiet
  show (if op.id = l.master.nextId then l.called a else l.record op.id).shown = m.shown
  rw [hshown]
  split_ifs at ht ⊢ with hid
  · exact h.called hs ht
  · exact h.untouched op ((Master.mem_operations_of_step hs hop).resolve_right hid) hload ht

/-- A load that fails untouched leaves everything as it was. -/
theorem Sound.intact (h : l.Sound) (hs : MasterStep l.master a m) (hC : l.KeepsShown a) {id : ℕ}
    (hid : a.failedLoad = some id) :
    (⟨(l.record id).shown, m.shown, m.controller.isLoading⟩ : Outcome τ w).Intact := by
  obtain ⟨⟨op, hop, hload⟩, hflag⟩ := Master.failed_load hs hid
  obtain ⟨hmem, rfl⟩ := Master.mem_of_operation hop
  obtain ⟨ht, hquiet⟩ := hC op.id hid
  refine ⟨?_, hflag⟩
  show m.shown = (l.record op.id).shown
  rw [h.untouched op hmem hload ht, Master.shown_of_step hs hquiet]

end Ledger

/-! ### Runs -/

theorem Ledger.sound_of_run {C : Ledger τ w → MasterAction τ → Prop}
    {c : NSManagedObjectContext τ} {l : Ledger τ w}
    {h : List (MasterAction τ × Option (Outcome τ w))}
    (hr : (ledgerSystem τ w).RunWhere C (.init c) h l) : l.Sound := by
  induction hr with
  | nil => exact Ledger.sound_init c
  | snoc _ _ hs hl =>
    obtain ⟨m, hm, heq⟩ := Option.map_eq_some_iff.1 hs
    cases heq
    exact hl.step (Master.step_of_perform hm)

/-- **A failed load changes nothing**, in every run in which loads only fail untouched. -/
theorem failed_load_intact {c : NSManagedObjectContext τ} {l : Ledger τ w}
    {h : List (MasterAction τ × Option (Outcome τ w))}
    (hr : (ledgerSystem τ w).RunWhere Ledger.KeepsShown (.init c) h l) :
    ∀ e ∈ h, ∀ o ∈ e.2, o.Intact := by
  induction hr with
  | nil => simp
  | snoc hr hC hs ih =>
    rw [List.forall_mem_append, List.forall_mem_singleton]
    refine ⟨ih, fun o ho => ?_⟩
    obtain ⟨m, hm, heq⟩ := Option.map_eq_some_iff.1 hs
    cases heq
    obtain ⟨id, hid, rfl⟩ := Option.map_eq_some_iff.1 ho
    exact (Ledger.sound_of_run hr).intact (Master.step_of_perform hm) hC hid

/-- A fetch that brings nothing, from a mailbox whose count is the one remembered. -/
theorem failed_load_intact_twelve :
    ∃ h l, (ledgerSystem String 64).Run (.init .empty) h l ∧
      h.map Prod.fst = [.connectToServer (account "first"),
        .complete 0 (.checkAccount .insertion true), .complete 1 (.folderInfo (some 12)),
        .complete 2 (.fetchMessages (some [mail 12])), .loadMore,
        .complete 3 (.folderInfo (some 12)), .complete 4 (.fetchMessages none)] ∧
      (h.filterMap Prod.snd).map Outcome.called = [⟨[.imap (mail 12)], 12⟩] ∧
      ∀ e ∈ h, ∀ o ∈ e.2, o.Intact :=
  (ledgerSystem String 64).exists_run_of_actions Ledger.KeepsShown _ _ (by decide +kernel)
    fun _ _ hr => failed_load_intact hr

/-- An error of `folderInfoOperation` puts 0 for the count. -/
theorem not_failed_load_intact :
    ¬ ∀ (h : List (MasterAction String × Option (Outcome String 64))) (l : Ledger String 64),
      (ledgerSystem String 64).Run (.init .empty) h l → ∀ e ∈ h, ∀ o ∈ e.2, o.Intact := by
  intro hall
  obtain ⟨h, l, hr, ho⟩ := (ledgerSystem String 64).exists_run_of_exec (fun _ _ => True)
    (.init .empty) [.connectToServer (account "first"),
      .complete 0 (.checkAccount .insertion true), .complete 1 (.folderInfo (some 12)),
      .complete 2 (.fetchMessages (some [mail 12])), .loadMore,
      .complete 3 (.folderInfo none)]
    (fun h _ => ⟨⟨[.imap (mail 12)], 12⟩, ⟨[.imap (mail 12)], 0⟩, false⟩ ∈
      h.filterMap Prod.snd) (by decide +kernel)
  obtain ⟨e, he, ho⟩ := List.mem_filterMap.1 ho
  obtain ⟨hsame, -⟩ := hall h l hr e he _ ho
  exact absurd (congrArg Shown.countOfMsgInServer hsame) (by decide)

end SecMail
