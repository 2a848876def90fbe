import SecMail.Master.Model

/-!
# Steps of the inbox controller

What each action does to the controller, as a list of cases.  Every result about runs of
`masterSystem` is proved by these cases, and the cases of the two completion blocks that start or
end a load are equations.

* `MasterStep` : the cases of a step;
* `loadMsg_of_some`, `folderInfoCompleted_of_some`, `fetchCompleted_of_ne_nil` and their siblings:
  the branches of the blocks;
* `Master.Numbered` : the numbers of operations in progress have been given out.
-/

namespace SecMail

variable {τ : Type*} {w : ℕ}

namespace Master

variable {m : Master τ w} {σ : MCOIMAPSession} {number : BitVec w}

/-! ### Branches -/

theorem loadMsg_of_some (h : m.controller.imapSession = some σ) :
    m.loadMsg number = { m with controller.isLoading := true }.start σ (.folderInfo number) := by
  unfold loadMsg
  simp only [h]

theorem loadMsg_of_none (h : m.controller.imapSession = none) :
    m.loadMsg number = { m with controller.isLoading := true } := by
  unfold loadMsg
  simp only [h]

theorem loadMsg_controller :
    (m.loadMsg number).controller = { m.controller with isLoading := true } := by
  cases hσ : m.controller.imapSession with
  | none => rw [loadMsg_of_none hσ]
  | some σ => rw [loadMsg_of_some hσ]; rfl

section FolderInfo

variable {info : Option (BitVec 32)}

theorem folderInfoCompleted_of_zero (h : MIN (messageCount info) number = 0) :
    m.folderInfoCompleted number info = { m with
      controller.countOfMsgInServer := messageCount info
      controller.isLoading := false } := by
  unfold folderInfoCompleted
  simp only [h, if_true]

theorem folderInfoCompleted_of_none (h : MIN (messageCount info) number ≠ 0)
    (hσ : m.controller.imapSession = none) :
    m.folderInfoCompleted number info = { m with
      controller.countOfMsgInServer := messageCount info
      controller.aryMsgs := if m.keepsMsgs (messageCount info) then m.controller.aryMsgs else []
      controller.imapMsgFetchOp := none } := by
  unfold folderInfoCompleted
  simp only [h, if_false, hσ]

theorem folderInfoCompleted_of_some (h : MIN (messageCount info) number ≠ 0)
    (hσ : m.controller.imapSession = some σ) :
    m.folderInfoCompleted number info = { m with
      controller.countOfMsgInServer := messageCount info
      controller.aryMsgs := if m.keepsMsgs (messageCount info) then m.controller.aryMsgs else []
      controller.imapMsgFetchOp := some m.nextId
      operations := m.operations ++ [⟨m.nextId, m.connection, σ,
        .fetchMessages (m.fetchRange (messageCount info) (MIN (messageCount info) number))⟩]
      nextId := m.nextId + 1 } := by
  unfold folderInfoCompleted
  simp only [h, if_false, hσ, start]

end FolderInfo

theorem fetchCompleted_of_nil {messages : Option (List MCOIMAPMessage)}
    (h : messages.getD [] = []) :
    m.fetchCompleted messages =
      { m with controller.isLoading := false, controller.imapMsgFetchOp := none } := by
  rcases messages with _ | _ | ⟨msg, messages⟩
  · rfl
  · rfl
  · cases h

theorem fetchCompleted_of_ne_nil {messages : List MCOIMAPMessage} (h : messages ≠ []) :
    m.fetchCompleted (some messages) = { m with
      controller.isLoading := false
      controller.imapMsgFetchOp := none
      controller.aryMsgs := (messages.map Msg.imap ++ m.controller.aryMsgs).insertionSort
        Msg.NotEarlier } := by
  cases messages with
  | nil => exact absurd rfl h
  | cons msg messages => rfl

/-! ### Cases -/

end Master

/-- The cases of a step. -/
inductive MasterStep (m : Master τ w) : MasterAction τ → Master τ w → Prop
  | connectToServer (σ : MCOIMAPSession) : MasterStep m (.connectToServer σ) (m.connectToServer σ)
  | setAccount : MasterStep m .setAccount m.setAccount
  | sameAccount {σ : MCOIMAPSession}
      (h : m.controller.imapSession.any (fun σ' => decide (σ.SameAccount σ')) = true) :
      MasterStep m (.accountHasFinishSetting σ) m
  | otherAccount {σ : MCOIMAPSession}
      (h : ¬ m.controller.imapSession.any (fun σ' => decide (σ.SameAccount σ')) = true) :
      MasterStep m (.accountHasFinishSetting σ) (m.connectToServer σ)
  | loadMore (hl : m.controller.isLoading = false)
      (hc : BitVec.ofNat w m.controller.aryMsgs.length < m.controller.countOfMsgInServer) :
      MasterStep m .loadMore (m.loadMsg (BitVec.ofNat w m.controller.aryMsgs.length + 10))
  | noMore (h : ¬ (m.controller.isLoading = false ∧
      BitVec.ofNat w m.controller.aryMsgs.length < m.controller.countOfMsgInServer)) :
      MasterStep m .loadMore m
  | valid {id : ℕ} {op : Operation w} {order : FetchOrder} (hop : m.operation id = some op)
      (hr : op.request = .checkAccount) :
      MasterStep m (.complete id (.checkAccount order true))
        ({ m.remove id with controller.accoutIsValid := true }.loadMsg 10)
  | notValid {id : ℕ} {op : Operation w} {order : FetchOrder}
      {aryMsgs : List (SummaryDictionary τ)} (hop : m.operation id = some op)
      (hr : op.request = .checkAccount)
      (hs : m.storeMsg.store.searchAllSummaryOfMsg order = some aryMsgs) :
      MasterStep m (.complete id (.checkAccount order false)) { m.remove id with
        controller.accoutIsValid := false
        controller.imapSession := none
        controller.aryMsgs := aryMsgs.map Msg.summary }
  | folderInfo {id : ℕ} {op : Operation w} {number : BitVec w} (hop : m.operation id = some op)
      (hr : op.request = .folderInfo number) (info : Option (BitVec 32)) :
      MasterStep m (.complete id (.folderInfo info))
        ((m.remove id).folderInfoCompleted number info)
  | fetchMessages {id : ℕ} {op : Operation w} {range : MCORange} (hop : m.operation id = some op)
      (hr : op.request = .fetchMessages range) (messages : Option (List MCOIMAPMessage)) :
      MasterStep m (.complete id (.fetchMessages messages)) ((m.remove id).fetchCompleted messages)
  | store {a : Action τ} {p : Process τ} {o : Observation τ}
      (h : (storeSystem τ).next m.storeMsg a = some (p, o)) :
      MasterStep m (.store a) { m with storeMsg := p }

namespace Master

variable {m m' : Master τ w} {a : MasterAction τ}

theorem respond_cases {id : ℕ} {op : Operation w} {response : Response}
    (hop : m.operation id = some op) (h : (m.remove id).respond op.request response = some m') :
    MasterStep m (.complete id response) m' := by
  rcases hr : op.request with _ | number | range <;> rw [hr] at h
  · rcases response with ⟨order, valid⟩ | info | messages
    · cases valid with
      | true => cases h; exact .valid hop hr
      | false =>
        obtain ⟨aryMsgs, hs, rfl⟩ := Option.map_eq_some_iff.1 h
        exact .notValid hop hr hs
    · cases h
    · cases h
  · rcases response with ⟨order, valid⟩ | info | messages
    · cases h
    · cases h; exact .folderInfo hop hr info
    · cases h
  · rcases response with ⟨order, valid⟩ | info | messages
    · cases h
    · cases h
    · cases h; exact .fetchMessages hop hr messages

/-- A step is one of the cases. -/
theorem step_of_perform (h : m.perform a = some m') : MasterStep m a m' := by
  have hstore : ∀ {a}, ((storeSystem τ).next m.storeMsg a).map
      (fun r => { m with storeMsg := r.1 }) = some m' → MasterStep m (.store a) m' := by
    intro a h
    obtain ⟨⟨p, o⟩, hs, rfl⟩ := Option.map_eq_some_iff.1 h
    exact .store hs
  cases a with
  | connectToServer σ => cases h; exact .connectToServer σ
  | setAccount => cases h; exact .setAccount
  | accountHasFinishSetting σ =>
    by_cases hσ : m.controller.imapSession.any (fun σ' => decide (σ.SameAccount σ')) = true
    · have hm : m.accountHasFinishSetting σ = m := if_pos hσ
      cases h
      rw [hm]
      exact .sameAccount hσ
    · have hm : m.accountHasFinishSetting σ = m.connectToServer σ := if_neg hσ
      cases h
      rw [hm]
      exact .otherAccount hσ
  | loadMore =>
    by_cases hc : m.controller.isLoading = false ∧
        BitVec.ofNat w m.controller.aryMsgs.length < m.controller.countOfMsgInServer
    · have hm : m.loadMore = m.loadMsg (BitVec.ofNat w m.controller.aryMsgs.length + 10) :=
        if_pos hc
      cases h
      rw [hm]
      exact .loadMore hc.1 hc.2
    · have hm : m.loadMore = m := if_neg hc
      cases h
      rw [hm]
      exact .noMore hc
  | complete id response =>
    obtain ⟨op, hop, h⟩ := Option.bind_eq_some_iff.1 h
    exact respond_cases hop h
  | store a =>
    cases a with
    | setImapSession σ => cases h
    | restart => cases h
    | searchPlaintextOfMsg order msg => exact hstore h
    | searchHtmlOfMsg order msg => exact hstore h
    | complete k t => exact hstore h
    | dicCached => exact hstore h
    | setDelegate d => exact hstore h

theorem step_of_next {o : Bool} (h : (masterSystem τ w).next m a = some (m', o)) :
    m.perform a = some m' ∧ m.stale a = o := by
  obtain ⟨m₁, hm, heq⟩ := Option.map_eq_some_iff.1 h
  cases heq
  exact ⟨hm, rfl⟩

/-! ### Operations -/

theorem mem_of_operation {id : ℕ} {op : Operation w} (h : m.operation id = some op) :
    op ∈ m.operations ∧ op.id = id :=
  ⟨List.mem_of_find?_eq_some h, by simpa using List.find?_some h⟩

/-- The numbers of operations in progress have been given out. -/
def Numbered (m : Master τ w) : Prop := ∀ op ∈ m.operations, op.id < m.nextId

theorem Numbered.start (h : m.Numbered) (σ : MCOIMAPSession) (request : Request w) :
    (m.start σ request).Numbered := by
  intro op hop
  rcases List.mem_append.1 hop with hop | hop
  · exact Nat.lt_succ_of_lt (h op hop)
  · rw [List.mem_singleton] at hop
    subst hop
    exact Nat.lt_succ_self _

theorem Numbered.remove (h : m.Numbered) (id : ℕ) : (m.remove id).Numbered :=
  fun op hop => h op (List.mem_filter.1 hop).1

theorem Numbered.loadMsg (h : m.Numbered) (number : BitVec w) : (m.loadMsg number).Numbered := by
  cases hσ : m.controller.imapSession with
  | none => rw [loadMsg_of_none hσ]; exact h
  | some σ =>
    rw [loadMsg_of_some hσ]
    exact Numbered.start (m := { m with controller.isLoading := true }) h σ _

theorem Numbered.connectToServer (h : m.Numbered) (σ : MCOIMAPSession) :
    (m.connectToServer σ).Numbered :=
  Numbered.start (m := { m with
    controller.imapSession := some σ
    storeMsg.store.imapSession := some σ
    connection := m.connection + 1 }) h σ _

theorem Numbered.folderInfoCompleted (h : m.Numbered) (number : BitVec w)
    (info : Option (BitVec 32)) : (m.folderInfoCompleted number info).Numbered := by
  by_cases hn : MIN (messageCount info) number = 0
  · rw [folderInfoCompleted_of_zero hn]; exact h
  · cases hσ : m.controller.imapSession with
    | none => rw [folderInfoCompleted_of_none hn hσ]; exact h
    | some σ => rw [folderInfoCompleted_of_some hn hσ]; exact h.start σ _

theorem Numbered.fetchCompleted (h : m.Numbered) (messages : Option (List MCOIMAPMessage)) :
    (m.fetchCompleted messages).Numbered := by
  rcases messages with _ | _ | ⟨msg, messages⟩ <;> exact h

theorem Numbered.step (h : m.Numbered) (hs : MasterStep m a m') : m'.Numbered := by
  cases hs with
  | connectToServer σ => exact h.connectToServer σ
  | setAccount => exact fun op hop => h op (List.mem_filter.1 hop).1
  | sameAccount => exact h
  | otherAccount => exact h.connectToServer _
  | loadMore => exact h.loadMsg _
  | noMore => exact h
  | @valid id =>
    exact Numbered.loadMsg (m := { m.remove id with controller.accoutIsValid := true })
      (h.remove id) _
  | @notValid id => exact h.remove id
  | folderInfo => exact (h.remove _).folderInfoCompleted _ _
  | fetchMessages => exact (h.remove _).fetchCompleted _
  | store => exact h

end Master

end SecMail
