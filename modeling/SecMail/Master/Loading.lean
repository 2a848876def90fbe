import SecMail.Master.Step

/-!
# The loading flag

`isLoading` is set by `loadMsg:` and cleared by the completion blocks that end a load.  But a load
also ends when the login screen cancels its fetch, or when a message to a missing session starts
nothing; and a successful account check starts a load without a look at the flag.

* `Master.loads` counts the loads outstanding, and `Master.LoadingExact` says that the flag tells
  their number;
* `isLoading_exact_iff` : the runs in which the flag is always exact are those in which no fetch is
  cancelled, no load is started or continued without a session, and no load is started while
  another is outstanding;
* `not_isLoading_exact` : opening the login screen during a fetch leaves the flag set for ever.
-/

namespace SecMail

variable {τ : Type*} {w : ℕ}

/-- The operation was started on behalf of `loadMsg:`. -/
def Operation.isLoad (op : Operation w) : Bool :=
  match op.request with
  | .checkAccount => false
  | .folderInfo _ => true
  | .fetchMessages _ => true

namespace Master

/-- The number of loads outstanding: neither completed nor cancelled. -/
def loads (m : Master τ w) : ℕ := m.operations.countP Operation.isLoad

/-- `isLoading` is `YES` if exactly one load is outstanding, and `NO` if none is. -/
def LoadingExact (m : Master τ w) : Prop := m.loads = if m.controller.isLoading then 1 else 0

instance (m : Master τ w) : Decidable m.LoadingExact := inferInstanceAs (Decidable (_ = _))

/-- The condition on a completion. -/
def KeepsFlagOn (m : Master τ w) : Request w → Response → Prop
  | .checkAccount, .checkAccount _ true =>
    m.controller.imapSession.isSome = !m.controller.isLoading
  | .folderInfo number, .folderInfo info =>
    MIN (messageCount info) number ≠ 0 → m.controller.imapSession.isSome = true
  | _, _ => True

/-- The condition on a step: the login screen finds no fetch to cancel; a load that a tap starts
finds a session, and so does one that has messages to fetch; a check succeeds with a session when
no load is outstanding, or without one when a load is. -/
def KeepsFlag (m : Master τ w) : MasterAction τ → Prop
  | .setAccount => ∀ op ∈ m.operations, some op.id ≠ m.controller.imapMsgFetchOp
  | .loadMore => m.controller.isLoading = false →
    BitVec.ofNat w m.controller.aryMsgs.length < m.controller.countOfMsgInServer →
      m.controller.imapSession.isSome = true
  | .complete id response => ∀ op ∈ m.operation id, m.KeepsFlagOn op.request response
  | _ => True

instance (m : Master τ w) :
    (request : Request w) → (response : Response) → Decidable (m.KeepsFlagOn request response)
  | .checkAccount, .checkAccount _ true => inferInstanceAs (Decidable (_ = _))
  | .checkAccount, .checkAccount _ false => isTrue trivial
  | .folderInfo _, .folderInfo _ => inferInstanceAs (Decidable (_ → _))
  | .checkAccount, .folderInfo _ => isTrue trivial
  | .checkAccount, .fetchMessages _ => isTrue trivial
  | .folderInfo _, .checkAccount .. => isTrue trivial
  | .folderInfo _, .fetchMessages _ => isTrue trivial
  | .fetchMessages _, _ => isTrue trivial

instance (m : Master τ w) : (a : MasterAction τ) → Decidable (m.KeepsFlag a)
  | .setAccount => inferInstanceAs (Decidable (∀ op ∈ m.operations, _ ≠ _))
  | .loadMore => inferInstanceAs (Decidable (_ → _ → _))
  | .complete id response =>
    inferInstanceAs (Decidable (∀ op ∈ m.operation id, m.KeepsFlagOn op.request response))
  | .connectToServer _ => isTrue trivial
  | .accountHasFinishSetting _ => isTrue trivial
  | .store _ => isTrue trivial

variable {m m' : Master τ w} {a : MasterAction τ} {σ : MCOIMAPSession}

/-! ### Operations are told apart by their numbers -/

/-- The operations in progress have different numbers, which have been given out; the fetch to
cancel is a load. -/
structure Tracked (m : Master τ w) : Prop where
  numbered : m.Numbered
  nodup : (m.operations.map Operation.id).Nodup
  fetch : ∀ id, m.controller.imapMsgFetchOp = some id → id < m.nextId
  isLoad : ∀ op ∈ m.operations, some op.id = m.controller.imapMsgFetchOp → op.isLoad = true

theorem tracked_init (c : NSManagedObjectContext τ) : (init c : Master τ w).Tracked := by
  constructor <;> simp [init, Numbered]

/-- An operation that is started has a new number. -/
theorem nodup_start (h : m.Numbered) (hn : (m.operations.map Operation.id).Nodup)
    (σ : MCOIMAPSession) (request : Request w) :
    ((m.start σ request).operations.map Operation.id).Nodup := by
  rw [start, List.map_append, List.nodup_append]
  refine ⟨hn, by simp, ?_⟩
  rintro i hi j hj rfl
  obtain ⟨op, hop, rfl⟩ := List.mem_map.1 hi
  have hlt := h op hop
  rw [List.map_singleton, List.mem_singleton] at hj
  change op.id = m.nextId at hj
  omega

theorem nodup_filter (h : (m.operations.map Operation.id).Nodup) (q : Operation w → Bool) :
    ((m.operations.filter q).map Operation.id).Nodup :=
  h.sublist (List.filter_sublist.map _)

/-- An operation that is started is not the fetch to cancel. -/
theorem Tracked.start (h : m.Tracked) (σ : MCOIMAPSession) (request : Request w) :
    (m.start σ request).Tracked := by
  refine ⟨h.numbered.start σ request, nodup_start h.numbered h.nodup σ request,
    fun id hid => Nat.lt_succ_of_lt (h.fetch id hid), fun op hop hid => ?_⟩
  rcases List.mem_append.1 hop with hop | hop
  · exact h.isLoad op hop hid
  · rw [List.mem_singleton] at hop
    subst hop
    have hlt := h.fetch m.nextId hid.symm
    omega

theorem Tracked.remove (h : m.Tracked) (id : ℕ) : (m.remove id).Tracked :=
  ⟨h.numbered.remove id, nodup_filter h.nodup _, h.fetch,
    fun op hop => h.isLoad op (List.mem_filter.1 hop).1⟩

theorem Tracked.loadMsg (h : m.Tracked) (number : BitVec w) : (m.loadMsg number).Tracked := by
  have hset : ({ m with controller.isLoading := true } : Master τ w).Tracked :=
    ⟨h.numbered, h.nodup, h.fetch, h.isLoad⟩
  cases hσ : m.controller.imapSession with
  | none =>
    rw [loadMsg_of_none hσ]
    exact hset
  | some σ =>
    rw [loadMsg_of_some hσ]
    exact hset.start σ _

theorem Tracked.connectToServer (h : m.Tracked) (σ : MCOIMAPSession) :
    (m.connectToServer σ).Tracked :=
  Tracked.start (m := { m with
    controller.imapSession := some σ
    storeMsg.store.imapSession := some σ
    connection := m.connection + 1 }) ⟨h.numbered, h.nodup, h.fetch, h.isLoad⟩ σ _

theorem Tracked.folderInfoCompleted (h : m.Tracked) (number : BitVec w)
    (info : Option (BitVec 32)) : (m.folderInfoCompleted number info).Tracked := by
  by_cases hn : MIN (messageCount info) number = 0
  · rw [folderInfoCompleted_of_zero hn]
    exact ⟨h.numbered, h.nodup, h.fetch, h.isLoad⟩
  · cases hσ : m.controller.imapSession with
    | none =>
      rw [folderInfoCompleted_of_none hn hσ]
      refine ⟨h.numbered, h.nodup, fun id hid => ?_, fun op hop hid => ?_⟩
      · cases hid
      · cases hid
    | some σ =>
      rw [folderInfoCompleted_of_some hn hσ]
      refine ⟨h.numbered.start σ _, nodup_start h.numbered h.nodup σ _, fun id hid => ?_,
        fun op hop hid => ?_⟩
      · cases hid
        exact Nat.lt_succ_self _
      · -- the fetch just started is the only operation with this number
        rcases List.mem_append.1 hop with hop | hop
        · have hlt := h.numbered op hop
          have heq := Option.some.inj hid
          omega
        · rw [List.mem_singleton] at hop
          subst hop
          rfl

theorem Tracked.fetchCompleted (h : m.Tracked) (messages : Option (List MCOIMAPMessage)) :
    (m.fetchCompleted messages).Tracked := by
  have hid : (m.fetchCompleted messages).controller.imapMsgFetchOp = none := by
    rcases messages with _ | _ | ⟨msg, messages⟩ <;> rfl
  have hops : (m.fetchCompleted messages).operations = m.operations := by
    rcases messages with _ | _ | ⟨msg, messages⟩ <;> rfl
  refine ⟨h.numbered.fetchCompleted messages, hops ▸ h.nodup, fun id h => ?_, fun op _ h => ?_⟩
  · rw [hid] at h
    cases h
  · rw [hid] at h
    cases h

theorem Tracked.step (h : m.Tracked) (hs : MasterStep m a m') : m'.Tracked := by
  cases hs with
  | connectToServer σ => exact h.connectToServer σ
  | setAccount =>
    refine ⟨h.numbered.step .setAccount, nodup_filter h.nodup _, fun id hid => ?_,
      fun op _ hid => ?_⟩
    · cases hid
    · cases hid
  | sameAccount => exact h
  | otherAccount => exact h.connectToServer _
  | loadMore => exact h.loadMsg _
  | noMore => exact h
  | @valid id =>
    have hr := h.remove id
    exact Tracked.loadMsg (m := { m.remove id with controller.accoutIsValid := true })
      ⟨hr.numbered, hr.nodup, hr.fetch, hr.isLoad⟩ _
  | @notValid id =>
    have hr := h.remove id
    exact ⟨hr.numbered, hr.nodup, hr.fetch, hr.isLoad⟩
  | folderInfo => exact (h.remove _).folderInfoCompleted _ _
  | fetchMessages => exact (h.remove _).fetchCompleted _
  | store => exact ⟨h.numbered, h.nodup, h.fetch, h.isLoad⟩

/-! ### Counting the loads -/

theorem loads_start (σ : MCOIMAPSession) (request : Request w) :
    (m.start σ request).loads =
      m.loads + if Operation.isLoad ⟨m.nextId, m.connection, σ, request⟩ then 1 else 0 := by
  simp [loads, start, List.countP_append, List.countP_singleton]

/-- Taking the operation `op` off takes one load off, if it is one. -/
theorem countP_remove {ops : List (Operation w)} (hn : (ops.map Operation.id).Nodup)
    {op : Operation w} (hop : op ∈ ops) (q : Operation w → Bool) :
    (ops.filter fun op' => op'.id ≠ op.id).countP q + (if q op then 1 else 0) = ops.countP q := by
  induction ops with
  | nil => cases hop
  | cons op' ops ih =>
    rw [List.map_cons, List.nodup_cons] at hn
    obtain ⟨hnew, hn⟩ := hn
    rcases List.mem_cons.1 hop with rfl | hop
    · -- the others have other numbers
      have hall : ops.filter (fun op' => op'.id ≠ op.id) = ops := by
        refine List.filter_eq_self.2 fun op' hop' => ?_
        rw [decide_eq_true_eq]
        exact fun heq => hnew (heq ▸ List.mem_map_of_mem hop')
      rw [List.filter_cons_of_neg (by simp), hall, List.countP_cons]
    · have hne : op'.id ≠ op.id := fun heq => hnew (heq ▸ List.mem_map_of_mem hop)
      rw [List.filter_cons_of_pos (by simpa using hne), List.countP_cons, List.countP_cons,
        ← ih hn hop]
      omega

theorem Tracked.loads_remove (h : m.Tracked) {id : ℕ} {op : Operation w}
    (hop : m.operation id = some op) :
    (m.remove id).loads + (if op.isLoad then 1 else 0) = m.loads := by
  obtain ⟨hmem, rfl⟩ := mem_of_operation hop
  exact countP_remove h.nodup hmem _

/-- Cancelling takes a load off, if there is a fetch to cancel. -/
theorem Tracked.loads_setAccount_lt (h : m.Tracked) {op : Operation w} (hop : op ∈ m.operations)
    (hid : some op.id = m.controller.imapMsgFetchOp) : m.setAccount.loads < m.loads := by
  have hops : m.setAccount.operations = m.operations.filter fun op' => op'.id ≠ op.id := by
    simp [setAccount, ← hid]
  have hcount := countP_remove h.nodup hop Operation.isLoad
  rw [h.isLoad op hop hid, if_pos rfl, ← hops] at hcount
  rw [loads, loads]
  omega

theorem loads_setAccount (h : ∀ op ∈ m.operations, some op.id ≠ m.controller.imapMsgFetchOp) :
    m.setAccount.loads = m.loads := by
  rw [loads, loads, setAccount, List.filter_eq_self.2 fun op hop => by simpa using h op hop]

/-! ### One step -/

/-- A load that is started keeps the flag exact if it was clear and there is a session, or if it
was set and there is none. -/
theorem loadingExact_loadMsg_iff (h : m.LoadingExact) (number : BitVec w) :
    (m.loadMsg number).LoadingExact ↔
      m.controller.imapSession.isSome = !m.controller.isLoading := by
  unfold LoadingExact at *
  have hflag : (m.loadMsg number).controller.isLoading = true := by rw [loadMsg_controller]
  cases hσ : m.controller.imapSession with
  | none =>
    have hloads : (m.loadMsg number).loads = m.loads := by rw [loadMsg_of_none hσ]; rfl
    rw [hloads, hflag, h]
    cases m.controller.isLoading <;> simp
  | some σ =>
    have hloads : (m.loadMsg number).loads = m.loads + 1 := by
      rw [loadMsg_of_some hσ, loads_start]
      rfl
    rw [hloads, hflag, h]
    cases m.controller.isLoading <;> simp

/-- The completion of `folderInfoOperation`, the only load outstanding, keeps the flag exact if the
fetch it starts has a session. -/
theorem loadingExact_folderInfoCompleted_iff {number : BitVec w} {info : Option (BitVec 32)}
    (hloads : m.loads = 0) (hflag : m.controller.isLoading = true) :
    (m.folderInfoCompleted number info).LoadingExact ↔
      (MIN (messageCount info) number ≠ 0 → m.controller.imapSession.isSome = true) := by
  unfold LoadingExact
  by_cases hn : MIN (messageCount info) number = 0
  · rw [folderInfoCompleted_of_zero hn]
    exact ⟨fun _ hne => absurd hn hne, fun _ => hloads⟩
  · cases hσ : m.controller.imapSession with
    | none =>
      rw [folderInfoCompleted_of_none hn hσ]
      change m.loads = (if m.controller.isLoading then 1 else 0) ↔ _
      rw [hloads, hflag]
      exact ⟨fun hzero => absurd hzero (by decide), fun hC => absurd (hC hn) (by decide)⟩
    | some σ =>
      rw [folderInfoCompleted_of_some hn hσ]
      change (m.start σ _).loads = (if m.controller.isLoading then 1 else 0) ↔ _
      rw [loads_start, hloads, hflag]
      simp [Operation.isLoad]

theorem loadingExact_fetchCompleted (hloads : m.loads = 0)
    (messages : Option (List MCOIMAPMessage)) : (m.fetchCompleted messages).LoadingExact := by
  rcases messages with _ | _ | ⟨msg, messages⟩ <;> exact hloads

/-- When a load completes in an exact state, it was the only one. -/
theorem LoadingExact.only (h : m.LoadingExact) (ht : m.Tracked) {id : ℕ} {op : Operation w}
    (hop : m.operation id = some op) (hload : op.isLoad = true) :
    (m.remove id).loads = 0 ∧ m.controller.isLoading = true := by
  have hcount := ht.loads_remove hop
  rw [hload, if_pos rfl, h] at hcount
  cases hflag : m.controller.isLoading with
  | false => simp [hflag] at hcount
  | true =>
    rw [hflag, if_pos rfl] at hcount
    exact ⟨by omega, rfl⟩

/-- When a check completes, the loads are still there. -/
theorem LoadingExact.remove_check (h : m.LoadingExact) (ht : m.Tracked) {id : ℕ}
    {op : Operation w} (hop : m.operation id = some op) (hr : op.request = .checkAccount) :
    (m.remove id).LoadingExact := by
  have hcount := ht.loads_remove hop
  have hload : op.isLoad = false := by simp [Operation.isLoad, hr]
  rw [hload] at hcount
  rw [LoadingExact, show (m.remove id).loads = m.loads by simpa using hcount]
  exact h

/-- A step keeps the flag exact exactly if it meets the condition. -/
theorem loadingExact_step_iff (h : m.LoadingExact) (ht : m.Tracked) (hs : MasterStep m a m') :
    m.KeepsFlag a ↔ m'.LoadingExact := by
  have hconnect : ∀ σ, (m.connectToServer σ).LoadingExact := by
    intro σ
    have hloads : (m.connectToServer σ).loads = m.loads := by
      simp [connectToServer, loads, start, List.countP_append, Operation.isLoad]
    rw [LoadingExact, hloads]
    exact h
  cases hs with
  | connectToServer σ => exact ⟨fun _ => hconnect σ, fun _ => trivial⟩
  | otherAccount => exact ⟨fun _ => hconnect _, fun _ => trivial⟩
  | sameAccount => exact ⟨fun _ => h, fun _ => trivial⟩
  | store => exact ⟨fun _ => h, fun _ => trivial⟩
  | setAccount =>
    constructor
    · intro hC
      rw [LoadingExact, loads_setAccount hC]
      exact h
    · intro hexact op hop hid
      -- a fetch was cancelled, and the flag is as before
      have hlt := ht.loads_setAccount_lt hop hid
      have hsame : m.setAccount.loads = m.loads := hexact.trans h.symm
      omega
  | loadMore hl hc =>
    rw [loadingExact_loadMsg_iff h, hl]
    exact ⟨fun hC => hC hl hc, fun hσ _ _ => hσ⟩
  | noMore hno =>
    refine ⟨fun _ => h, fun _ hl hc => absurd ⟨hl, hc⟩ hno⟩
  | @valid id op order hop hr =>
    have hrest := h.remove_check ht hop hr
    have hiff := loadingExact_loadMsg_iff
      (m := { m.remove id with controller.accoutIsValid := true }) hrest 10
    rw [hiff]
    constructor
    · intro hC
      have hC := hC op hop
      rwa [hr] at hC
    · intro hσ op' hop'
      cases hop.symm.trans hop'
      rw [hr]
      exact hσ
  | @notValid id op order aryMsgs hop hr =>
    refine ⟨fun _ => h.remove_check ht hop hr, fun _ op' hop' => ?_⟩
    cases hop.symm.trans hop'
    rw [hr]
    trivial
  | @folderInfo id op number hop hr info =>
    obtain ⟨hloads, hflag⟩ := h.only ht hop (by simp [Operation.isLoad, hr])
    rw [loadingExact_folderInfoCompleted_iff hloads hflag]
    constructor
    · intro hC
      have hC := hC op hop
      rwa [hr] at hC
    · intro hσ op' hop'
      cases hop.symm.trans hop'
      rw [hr]
      exact hσ
  | @fetchMessages id op range hop hr messages =>
    obtain ⟨hloads, -⟩ := h.only ht hop (by simp [Operation.isLoad, hr])
    refine ⟨fun _ => loadingExact_fetchCompleted hloads messages, fun _ op' hop' => ?_⟩
    cases hop.symm.trans hop'
    rw [hr]
    trivial

end Master

/-! ### Runs -/

/-- **`isLoading` is exact.**  In a run of the controller the flag tells in every state whether a
load is outstanding, and at most one is, exactly if every step meets the condition. -/
theorem isLoading_exact_iff {c : NSManagedObjectContext τ} {m : Master τ w}
    {h : List (MasterAction τ × Bool)} (hr : (masterSystem τ w).Run (.init c) h m) :
    (masterSystem τ w).Along (fun _ m => m.LoadingExact) (.init c) h ↔
      (masterSystem τ w).RunWhere Master.KeepsFlag (.init c) h m := by
  refine hr.along_iff (I := fun _ m => m.Tracked) (Master.tracked_init c) rfl ?_
  intro h m a o m' ht hexact _ hs
  have hstep := Master.step_of_perform (Master.step_of_next hs).1
  exact ⟨fun _ => ht.step hstep, Master.loadingExact_step_iff hexact ht hstep⟩

theorem isLoading_exact_switch :
    ∃ h m, (masterSystem String 64).Run (.init .empty) h m ∧
      h.map Prod.fst = [.connectToServer (account "first"),
        .complete 0 (.checkAccount .insertion true), .complete 1 (.folderInfo (some 12)),
        .complete 2 (.fetchMessages (some [mail 12])), .loadMore,
        .complete 3 (.folderInfo (some 12)), .complete 4 (.fetchMessages none), .setAccount,
        .accountHasFinishSetting (account "second"), .complete 5 (.checkAccount .insertion false)] ∧
      (m.controller.isLoading = false ∧ m.operations = []) ∧
      (masterSystem String 64).Along (fun _ m => m.LoadingExact) (.init .empty) h :=
  (masterSystem String 64).exists_run_of_actions Master.KeepsFlag _ _ (by decide +kernel)
    fun _ _ hr => (isLoading_exact_iff hr.run).2 hr

/-- The login screen cancels the fetch, and the flag stays set. -/
theorem not_isLoading_exact :
    ¬ ∀ (h : List (MasterAction String × Bool)) (m : Master String 64),
      (masterSystem String 64).Run (.init .empty) h m → m.LoadingExact := by
  intro hall
  obtain ⟨h, m, hr, hnot⟩ := (masterSystem String 64).exists_run_of_exec (fun _ _ => True)
    (.init .empty) [.connectToServer (account "first"),
      .complete 0 (.checkAccount .insertion true), .complete 1 (.folderInfo (some 12)),
      .setAccount, .accountHasFinishSetting (account "first")]
    (fun _ m => ¬ m.LoadingExact) (by decide +kernel)
  exact hnot (hall h m hr)

end SecMail
