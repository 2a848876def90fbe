import SecMail.Master.Paging

/-!
# Another account

When the credentials change, the controller connects to the new account and loads its ten newest
messages.  Whether the list of the old account is dropped is decided by a comparison of message
counts: the list is kept if the new mailbox has as many messages as the old one had.

* `Master.At` : where the controller stands between the steps of a switch;
* `switched_iff` : after the switch the ten newest messages of the new account are listed exactly
  if the counts differ, or nothing was listed, or what was listed are the newest of them already;
* `not_switched` : two mailboxes of one message each.
-/

namespace SecMail

variable {τ : Type*} {w : ℕ}

/-- The action is not one of the store's. -/
def MasterAction.isCall : MasterAction τ → Bool
  | .store _ => false
  | _ => true

namespace Master

/-- Counts and fetches are answered for the mailbox: the counts are right, and a fetch brings some
messages, which for a real range are those of the range. -/
def AnswersFor (mailbox : List MCOIMAPMessage) (m : Master τ w) : MasterAction τ → Prop
  | .complete _ (.folderInfo info) => ∀ n ∈ info, n.toInt = mailbox.length
  | .complete id (.fetchMessages messages) => messages.getD [] ≠ [] ∧
      ∀ op ∈ m.operation id, ∀ range ∈ op.request.range, range.Real mailbox.length →
        (messages.getD []).Perm (range.messages mailbox)
  | _ => True

instance (mailbox : List MCOIMAPMessage) (m : Master τ w) :
    (a : MasterAction τ) → Decidable (m.AnswersFor mailbox a)
  | .complete _ (.checkAccount _ _) => isTrue trivial
  -- the instance that is found by default tries every `n`
  | .complete _ (.folderInfo info) => Option.decidableForallMem info
  | .complete id (.fetchMessages messages) =>
    inferInstanceAs (Decidable (messages.getD [] ≠ [] ∧
      ∀ op ∈ m.operation id, ∀ range ∈ op.request.range, range.Real mailbox.length →
        (messages.getD []).Perm (range.messages mailbox)))
  | .connectToServer _ => isTrue trivial
  | .setAccount => isTrue trivial
  | .accountHasFinishSetting _ => isTrue trivial
  | .loadMore => isTrue trivial
  | .store _ => isTrue trivial

/-- The controller has a session, lists `rows`, remembers `count`, and has one operation in
progress, which makes `request`. -/
structure At (m : Master τ w) (request : Request w) (rows : List (Msg τ)) (count : BitVec w) :
    Prop where
  session : m.controller.imapSession.isSome = true
  operations : m.operations.map Operation.request = [request]
  rows : m.controller.aryMsgs = rows
  count : m.controller.countOfMsgInServer = count

variable {m m' : Master τ w} {a : MasterAction τ} {request : Request w} {rows : List (Msg τ)}
  {count : BitVec w} {id : ℕ}

/-! ### Steps of a switch -/

/-- The operation that completes is the one in progress. -/
theorem At.completed (h : m.At request rows count) {op : Operation w}
    (hop : m.operation id = some op) :
    op.request = request ∧ (m.remove id).operations = [] := by
  obtain ⟨op', hops, rfl⟩ := List.map_eq_singleton_iff.1 h.operations
  obtain ⟨hmem, rfl⟩ := mem_of_operation hop
  rw [hops, List.mem_singleton] at hmem
  subst hmem
  refine ⟨rfl, ?_⟩
  show m.operations.filter _ = []
  rw [hops]
  simp

/-- Steps of the store leave everything else alone. -/
theorem exists_store_of_step (hs : MasterStep m a m') (ha : ¬ a.isCall = true) :
    ∃ p, m' = { m with storeMsg := p } := by
  cases hs with
  | @store _ p => exact ⟨p, rfl⟩
  | connectToServer => exact absurd rfl ha
  | setAccount => exact absurd rfl ha
  | sameAccount => exact absurd rfl ha
  | otherAccount => exact absurd rfl ha
  | loadMore => exact absurd rfl ha
  | noMore => exact absurd rfl ha
  | valid => exact absurd rfl ha
  | notValid => exact absurd rfl ha
  | folderInfo => exact absurd rfl ha
  | fetchMessages => exact absurd rfl ha

theorem exists_store_of_run {C : Master τ w → MasterAction τ → Prop}
    {h : List (MasterAction τ × Bool)} (hr : (masterSystem τ w).RunWhere C m h m')
    (hh : ∀ e ∈ h, ¬ e.1.isCall = true) : ∃ p, m' = { m with storeMsg := p } := by
  induction hr with
  | nil => exact ⟨m.storeMsg, rfl⟩
  | snoc _ _ hs ih =>
    rw [List.forall_mem_append, List.forall_mem_singleton] at hh
    obtain ⟨p, rfl⟩ := ih hh.1
    obtain ⟨p', rfl⟩ := exists_store_of_step (step_of_perform (step_of_next hs).1) hh.2
    exact ⟨p', rfl⟩

/-- The next call of the controller comes after some steps of the store. -/
theorem exists_call {C : Master τ w → MasterAction τ → Prop} {h : List (MasterAction τ × Bool)}
    {as : List (MasterAction τ)} (hr : (masterSystem τ w).RunWhere C m h m')
    (hf : (h.map Prod.fst).filter MasterAction.isCall = a :: as) :
    ∃ p m₁ h₁, C { m with storeMsg := p } a ∧ MasterStep { m with storeMsg := p } a m₁ ∧
      (masterSystem τ w).RunWhere C m₁ h₁ m' ∧
      (h₁.map Prod.fst).filter MasterAction.isCall = as := by
  obtain ⟨h₀, m₀, o, m₁, h₁, hr₀, hh, hC, hs, hr₁, hf₁⟩ := hr.of_filter_cons hf
  obtain ⟨p, rfl⟩ := exists_store_of_run hr₀ hh
  exact ⟨p, m₁, h₁, hC, step_of_perform (step_of_next hs).1, hr₁, hf₁⟩

theorem At.store (h : m.At request rows count) (p : Process τ) :
    { m with storeMsg := p }.At request rows count :=
  ⟨h.session, h.operations, h.rows, h.count⟩

/-- Credentials that have changed start a check. -/
theorem at_reconnect {σ : MCOIMAPSession} (hops : m.operations = [])
    (hσ : ¬ m.controller.imapSession.any (fun σ' => decide (σ.SameAccount σ')) = true)
    (hs : MasterStep m (.accountHasFinishSetting σ) m') :
    m'.At .checkAccount m.controller.aryMsgs m.controller.countOfMsgInServer := by
  cases hs with
  | sameAccount h => exact absurd h hσ
  | otherAccount =>
    refine ⟨rfl, ?_, rfl, rfl⟩
    show (m.operations ++ _).map _ = _
    rw [hops]
    rfl

/-- The check that succeeds starts a load. -/
theorem At.valid (h : m.At .checkAccount rows count) {order : FetchOrder}
    (hs : MasterStep m (.complete id (.checkAccount order true)) m') :
    m'.At (.folderInfo 10) rows count := by
  cases hs with
  | valid hop hr =>
    obtain ⟨-, hops⟩ := h.completed hop
    obtain ⟨σ, hσ⟩ := Option.isSome_iff_exists.1 h.session
    rw [loadMsg_of_some (m := { m.remove id with controller.accoutIsValid := true }) hσ]
    refine ⟨h.session, ?_, h.rows, h.count⟩
    show ((m.remove id).operations ++ _).map _ = _
    rw [hops]
    rfl

/-- A count that is not zero starts a fetch. -/
theorem At.folderInfo {number : BitVec w} (h : m.At (.folderInfo number) rows count)
    {info : Option (BitVec 32)} (hn : MIN (messageCount info) number ≠ 0)
    (hs : MasterStep m (.complete id (.folderInfo info)) m') :
    m'.At (.fetchMessages (m.fetchRange (messageCount info) (MIN (messageCount info) number)))
      (if m.keepsMsgs (messageCount info) then rows else []) (messageCount info) := by
  cases hs with
  | folderInfo hop hr =>
    obtain ⟨hreq, hops⟩ := h.completed hop
    cases hreq.symm.trans hr
    obtain ⟨σ, hσ⟩ := Option.isSome_iff_exists.1 h.session
    rw [folderInfoCompleted_of_some (m := m.remove id) hn hσ]
    refine ⟨h.session, ?_, ?_, rfl⟩
    · show ((m.remove id).operations ++ _).map _ = _
      rw [hops]
      rfl
    · show (if (m.remove id).keepsMsgs (messageCount info) then m.controller.aryMsgs else []) = _
      rw [h.rows]
      rfl

/-- Without messages nothing is left in progress. -/
theorem At.noMessages {number : BitVec w} (h : m.At (.folderInfo number) rows count)
    {info : Option (BitVec 32)} (hn : MIN (messageCount info) number = 0)
    (hs : MasterStep m (.complete id (.folderInfo info)) m') : m'.operations = [] := by
  cases hs with
  | folderInfo hop hr =>
    obtain ⟨hreq, hops⟩ := h.completed hop
    cases hreq.symm.trans hr
    rw [folderInfoCompleted_of_zero (m := m.remove id) hn]
    exact hops

/-- A fetch adds its messages to the list. -/
theorem At.fetchMessages {range : MCORange} (h : m.At (.fetchMessages range) rows count)
    {messages : List MCOIMAPMessage} (hne : messages ≠ [])
    (hs : MasterStep m (.complete id (.fetchMessages (some messages))) m') :
    (∃ op, m.operation id = some op ∧ op.request = .fetchMessages range) ∧
      m'.controller.aryMsgs.Perm (messages.map Msg.imap ++ rows) := by
  cases hs with
  | @fetchMessages _ op _ hop hr =>
    refine ⟨⟨op, hop, (h.completed hop).1⟩, ?_⟩
    rw [fetchCompleted_of_ne_nil hne]
    show ((messages.map Msg.imap ++ m.controller.aryMsgs).insertionSort _).Perm _
    rw [h.rows]
    exact List.perm_insertionSort _ _

/-- Nothing that is not in progress completes. -/
theorem operations_ne_nil {response : Response} (hs : MasterStep m (.complete id response) m') :
    m.operations ≠ [] := by
  have hmem : ∃ op, m.operation id = some op := by
    cases hs with
    | @valid _ op _ hop => exact ⟨op, hop⟩
    | @notValid _ op _ _ hop => exact ⟨op, hop⟩
    | @folderInfo _ op _ hop => exact ⟨op, hop⟩
    | @fetchMessages _ op _ hop => exact ⟨op, hop⟩
  obtain ⟨op, hop⟩ := hmem
  exact List.ne_nil_of_mem (mem_of_operation hop).1

/-! ### The list after a switch -/

/-- The condition on the list and the count of the old account. -/
def SwitchesTo (m : Master τ w) (mailbox : List MCOIMAPMessage) : Prop :=
  m.controller.countOfMsgInServer.toNat = mailbox.length → m.controller.aryMsgs ≠ [] →
    m.controller.aryMsgs.length < min mailbox.length 10 ∧
      m.controller.aryMsgs.Perm ((mailbox.rtake m.controller.aryMsgs.length).map Msg.imap)

/-- The list after a load of ten messages that keeps the old rows: a page of the new mailbox and
those rows. -/
theorem perm_newest_iff {mailbox messages : List MCOIMAPMessage} (hne : messages ≠ [])
    (hpage : rows.length < min mailbox.length 10 → messages.Perm (page mailbox 10 rows.length)) :
    (messages.map Msg.imap ++ rows).Perm
        ((mailbox.rtake (min mailbox.length 10)).map Msg.imap) ↔
      rows.length < min mailbox.length 10 ∧
        rows.Perm ((mailbox.rtake rows.length).map Msg.imap) := by
  rw [rtake_min_length]
  rcases Nat.lt_or_ge rows.length (min mailbox.length 10) with hlt | hge
  · have hnewest : ((mailbox.rtake 10).map Msg.imap : List (Msg τ)) =
        (page mailbox 10 rows.length).map Msg.imap ++ (mailbox.rtake rows.length).map Msg.imap := by
      rw [rtake_eq_page_append mailbox (show rows.length ≤ 10 by omega), List.map_append]
    have hmessages := ((hpage hlt).map (Msg.imap (τ := τ))).append_right rows
    rw [hnewest, hmessages.congr_left, List.perm_append_left_iff]
    exact ⟨fun hrows => ⟨hlt, hrows⟩, And.right⟩
  · -- too many rows
    refine ⟨fun hperm => ?_, fun h => absurd h.1 (Nat.not_lt.2 hge)⟩
    have hlength := hperm.length_eq
    have hpos := List.length_pos_of_ne_nil hne
    rw [List.length_append, List.length_map, List.length_map, length_rtake] at hlength
    omega

theorem switchesTo_congr {mailbox : List MCOIMAPMessage}
    (hrows : m.controller.aryMsgs = m'.controller.aryMsgs)
    (hcount : m.controller.countOfMsgInServer = m'.controller.countOfMsgInServer) :
    m.SwitchesTo mailbox ↔ m'.SwitchesTo mailbox := by
  rw [SwitchesTo, SwitchesTo, hrows, hcount]

/-- The list after a load of ten messages whose range is answered if it is a real one. -/
theorem perm_loaded_iff (hw : 32 ≤ w) {n : BitVec 32} {mailbox messages : List MCOIMAPMessage}
    (hcount : n.toInt = mailbox.length)
    (hlength : (BitVec.ofNat w m.controller.aryMsgs.length).toNat = m.controller.aryMsgs.length)
    (hn : MIN (messageCount (some n)) 10 ≠ (0 : BitVec w)) (hne : messages ≠ [])
    (hfetch : (m.fetchRange (messageCount (some n)) (MIN (messageCount (some n)) 10)).Real
        mailbox.length → messages.Perm
      ((m.fetchRange (messageCount (some n)) (MIN (messageCount (some n)) 10)).messages mailbox)) :
    (messages.map Msg.imap ++
        if m.keepsMsgs (messageCount (some n)) then m.controller.aryMsgs else []).Perm
        ((mailbox.rtake (min mailbox.length 10)).map Msg.imap) ↔ m.SwitchesTo mailbox := by
  have h10 : (10 : BitVec w).toNat = 10 := toNat_ofNat_of_lt hw (by decide)
  obtain ⟨hT, hlt⟩ := toNat_messageCount (w := w) hw hcount
  have hmin : (MIN (messageCount (some n)) 10 : BitVec w).toNat = min mailbox.length 10 := by
    rw [toNat_MIN, hT, h10]
  have hpos : 0 < (MIN (messageCount (some n)) 10 : BitVec w).toNat := by
    rw [Nat.pos_iff_ne_zero]
    exact fun hzero => hn (BitVec.eq_of_toNat_eq (hzero.trans BitVec.toNat_zero.symm))
  have hreal := real_fetchRange_iff (m := m) hw (hT.trans_lt hlt) (by omega) hpos
  rw [hT, hmin, hlength] at hreal
  by_cases hk : m.keepsMsgs (messageCount (some n))
  · obtain ⟨hsame, hlisted⟩ := keepsMsgs_iff.1 hk
    have hsame : m.controller.countOfMsgInServer.toNat = mailbox.length :=
      (congrArg BitVec.toNat hsame).trans hT
    have hpage : m.controller.aryMsgs.length < min mailbox.length 10 →
        messages.Perm (page mailbox 10 m.controller.aryMsgs.length) := by
      intro hshort
      rw [← h10, ← messages_fetchRange_of_keeps hw hT hlt hk (by rwa [h10])]
      exact hfetch (hreal.2 fun _ => hshort)
    rw [if_pos hk, perm_newest_iff hne hpage]
    exact ⟨fun hC _ _ => hC, fun hC => hC hsame hlisted⟩
  · have hpage : ([] : List (Msg τ)).length < min mailbox.length 10 →
        messages.Perm (page mailbox 10 ([] : List (Msg τ)).length) := by
      intro _
      rw [List.length_nil, ← h10,
        ← messages_fetchRange_of_not_keeps hw hT hlt hk (by rw [h10, ← hmin]; exact hpos)]
      exact hfetch (hreal.2 fun hk' => absurd hk' hk)
    rw [if_neg hk, perm_newest_iff hne hpage]
    refine ⟨fun _ hsame hlisted => absurd ?_ hk, fun _ => ⟨hmin ▸ hpos, by simp⟩⟩
    exact keepsMsgs_iff.2 ⟨BitVec.eq_of_toNat_eq (hsame.trans hT.symm), hlisted⟩

end Master

/-- **After a switch the list is that of the new account**, its newest messages, ten at most,
exactly if the list of the old account does not get in the way. -/
theorem switched_iff (hw : 32 ≤ w) {c : NSManagedObjectContext τ}
    {mailbox newMailbox : List MCOIMAPMessage} {i : Inbox τ w}
    {h : List (InboxAction τ × List (MasterAction τ × Bool))}
    (hr : (inboxSystem τ w).RunWhere Inbox.OneConnection (.init c mailbox) h i)
    (hidle : i.master.operations = []) {σ : MCOIMAPSession}
    (hσ : ¬ i.master.controller.imapSession.any (fun σ' => decide (σ.SameAccount σ')) = true)
    {m : Master τ w} {h' : List (MasterAction τ × Bool)}
    (hr' : (masterSystem τ w).RunWhere (Master.AnswersFor newMailbox) i.master h' m)
    {id₁ id₂ id₃ : ℕ} {order : FetchOrder} {n : BitVec 32} {messages : List MCOIMAPMessage}
    (hcalls : (h'.map Prod.fst).filter MasterAction.isCall =
      [.accountHasFinishSetting σ, .complete id₁ (.checkAccount order true),
        .complete id₂ (.folderInfo (some n)), .complete id₃ (.fetchMessages (some messages))]) :
    m.controller.aryMsgs.Perm
        ((newMailbox.rtake (min newMailbox.length 10)).map Msg.imap) ↔
      i.master.SwitchesTo newMailbox := by
  obtain ⟨p, hR⟩ := Inbox.exists_refines hw hr
  have hlength := hR.toNat_length_aryMsgs hw
  -- the four calls
  obtain ⟨p₁, m₁, h₁, -, hs₁, hr₁, hf₁⟩ := Master.exists_call hr' hcalls
  have hat₁ := Master.at_reconnect (m := { i.master with storeMsg := p₁ }) hidle hσ hs₁
  obtain ⟨p₂, m₂, h₂, -, hs₂, hr₂, hf₂⟩ := Master.exists_call hr₁ hf₁
  have hat₂ := (hat₁.store p₂).valid hs₂
  obtain ⟨p₃, m₃, h₃, hC₃, hs₃, hr₃, hf₃⟩ := Master.exists_call hr₂ hf₂
  obtain ⟨p₄, m₄, h₄, ⟨hne, hfetch⟩, hs₄, hr₄, hf₄⟩ := Master.exists_call hr₃ hf₃
  have hn : MIN (Master.messageCount (some n)) 10 ≠ (0 : BitVec w) := by
    intro hzero
    have hops := (hat₂.store p₃).noMessages hzero hs₃
    exact Master.operations_ne_nil hs₄ hops
  have hat₃ := (hat₂.store p₃).folderInfo hn hs₃
  obtain ⟨⟨op, hop, hreq⟩, hperm⟩ := (hat₃.store p₄).fetchMessages hne hs₄
  have hfetch := hfetch op hop _ (by rw [hreq]; rfl)
  have hsilent : ∀ e ∈ h₄, ¬ e.1.isCall = true := fun e he =>
    List.filter_eq_nil_iff.1 hf₄ e.1 (List.mem_map_of_mem he)
  obtain ⟨p₅, rfl⟩ := Master.exists_store_of_run hr₄ hsilent
  show m₄.controller.aryMsgs.Perm _ ↔ _
  -- the check has left the list and the count alone
  have hrows : m₂.controller.aryMsgs = i.master.controller.aryMsgs := hat₂.rows
  rw [← hrows] at hperm hlength
  rw [hperm.congr_left, ← Master.switchesTo_congr hrows hat₂.count]
  exact Master.perm_loaded_iff (m := { m₂ with storeMsg := p₃ }) hw (hC₃ n rfl) hlength hn hne hfetch

/-- The first account is connected, and its mailbox is loaded. -/
def firstLoad (mailbox : List MCOIMAPMessage) : List (InboxAction String) :=
  [.master (.connectToServer (account "first")),
    .master (.complete 0 (.checkAccount .insertion true)),
    .master (.complete 1 (.folderInfo (some (.ofNat 32 mailbox.length)))),
    .master (.complete 2 (.fetchMessages (some mailbox)))]

/-- The second account is connected, and the messages of its mailbox are loaded. -/
def secondLoad (n : BitVec 32) (messages : List MCOIMAPMessage) : List (MasterAction String) :=
  [.accountHasFinishSetting (account "second"), .complete 3 (.checkAccount .insertion true),
    .complete 4 (.folderInfo (some n)), .complete 5 (.fetchMessages (some messages))]

theorem switched_seven :
    ∃ h i h' m, (inboxSystem String 32).RunWhere Inbox.OneConnection
        (.init .empty [mail 1, mail 2]) h i ∧ h.map Prod.fst = firstLoad [mail 1, mail 2] ∧
      (masterSystem String 32).RunWhere (Master.AnswersFor [mail 7]) i.master h' m ∧
      h'.map Prod.fst = secondLoad 1 [mail 7] ∧
      m.controller.aryMsgs.Perm (([mail 7].rtake (min [mail 7].length 10)).map Msg.imap) := by
  obtain ⟨h, i, -, hactions, ⟨hidle, hC, hσ, he⟩, hr⟩ :=
    (inboxSystem String 32).exists_run_of_actions Inbox.OneConnection
      (.init .empty [mail 1, mail 2]) (firstLoad [mail 1, mail 2])
      (P := fun _ i => i.master.operations = [] ∧
        i.master.controller.countOfMsgInServer.toNat ≠ 1 ∧
        ¬ i.master.controller.imapSession.any
          (fun σ' => decide ((account "second").SameAccount σ')) = true ∧
        ((masterSystem String 32).exec (Master.AnswersFor [mail 7]) i.master
          (secondLoad 1 [mail 7])).isSome = true) (by decide +kernel) fun _ _ hr => hr
  obtain ⟨⟨m, h'⟩, he⟩ := Option.isSome_iff_exists.1 he
  have hcalls := congrArg (List.filter MasterAction.isCall) (System.actions_of_exec he)
  exact ⟨h, i, h', m, hr, hactions, System.runWhere_of_exec he, System.actions_of_exec he,
    (switched_iff (by decide) hr hidle hσ (System.runWhere_of_exec he) hcalls).2
      fun hcount => absurd hcount hC⟩

/-- Two mailboxes of one message: both messages are listed. -/
theorem not_switched :
    ¬ ∀ (mailbox newMailbox : List MCOIMAPMessage) (i : Inbox String 32)
      (h : List (InboxAction String × List (MasterAction String × Bool))) (m : Master String 32)
      (h' : List (MasterAction String × Bool)) (n : BitVec 32) (messages : List MCOIMAPMessage),
      (inboxSystem String 32).RunWhere Inbox.Exact (.init .empty mailbox) h i →
      i.master.operations = [] →
      (masterSystem String 32).RunWhere (Master.AnswersFor newMailbox) i.master h' m →
      h'.map Prod.fst = secondLoad n messages →
      m.controller.aryMsgs.Perm
        ((newMailbox.rtake (min newMailbox.length 10)).map Msg.imap) := by
  intro hall
  obtain ⟨h, i, hr, hidle, he⟩ := (inboxSystem String 32).exists_run_of_exec
    Inbox.Exact (.init .empty [mail 1]) (firstLoad [mail 1])
    (fun _ i => i.master.operations = [] ∧
      ((masterSystem String 32).exec (Master.AnswersFor [mail 7]) i.master
        (secondLoad 1 [mail 7])).any (fun r =>
          decide (r.1.controller.aryMsgs.length = 2)) = true) (by decide +kernel)
  obtain ⟨⟨m, h'⟩, he, hlength⟩ := (Option.any_eq_true _ _).1 he
  have hperm := hall _ _ i h m h' _ _ hr hidle (System.runWhere_of_exec he)
    (System.actions_of_exec he)
  have htwo := hperm.length_eq
  rw [of_decide_eq_true hlength] at htwo
  exact absurd htwo (by decide)

end SecMail
