import SecMail.Master.Inbox

/-!
# Paging through the inbox

The list is built page by page, from message counts and sequence numbers alone.

* `paging_exact` : if counts and fetches are exact and the mailbox never changes without changing
  its message count, the completion of every fetch leaves exactly the newest messages listed, by
  descending date;
* `uids_nodup` : whatever arrives, is deleted or is not delivered, no message is listed twice as
  long as no load continues a list that has a message of the next page;
* `not_uids_nodup` : a fetch that loses a message makes the next page repeat another one.
-/

namespace SecMail

variable {τ : Type*} {w : ℕ}

/-! ### The order of the list -/

instance : Std.Total (Msg.NotEarlier (τ := τ)) := ⟨fun m m' => notEarlier_total m.date m'.date⟩

instance : IsTrans (Msg τ) Msg.NotEarlier := ⟨fun _ _ _ h h' => notEarlier_trans h h'⟩

namespace Master

/-- The list is in descending order of dates. -/
def Sorted (m : Master τ w) : Prop := m.controller.aryMsgs.Pairwise Msg.NotEarlier

variable {m m' : Master τ w}

theorem Sorted.loadMsg (hm : m.Sorted) (number : BitVec w) : (m.loadMsg number).Sorted := by
  rw [Sorted, loadMsg_controller]
  exact hm

theorem Sorted.folderInfoCompleted (hm : m.Sorted) (number : BitVec w)
    (info : Option (BitVec 32)) : (m.folderInfoCompleted number info).Sorted := by
  have hkept : (if m.keepsMsgs (messageCount info) then m.controller.aryMsgs else []).Pairwise
      Msg.NotEarlier := by
    split_ifs
    · exact hm
    · exact List.Pairwise.nil
  by_cases hn : MIN (messageCount info) number = 0
  · rw [folderInfoCompleted_of_zero hn]; exact hm
  · cases hσ : m.controller.imapSession with
    | none => rw [folderInfoCompleted_of_none hn hσ]; exact hkept
    | some σ => rw [folderInfoCompleted_of_some hn hσ]; exact hkept

theorem Sorted.fetchCompleted (hm : m.Sorted) (messages : Option (List MCOIMAPMessage)) :
    (m.fetchCompleted messages).Sorted := by
  rcases messages with _ | _ | ⟨msg, messages⟩
  · exact hm
  · exact hm
  · exact List.pairwise_insertionSort _ _

theorem Sorted.step {a : MasterAction τ} (hm : m.Sorted) (hs : MasterStep m a m') :
    m'.Sorted := by
  cases hs with
  | connectToServer => exact hm
  | setAccount => exact hm
  | sameAccount => exact hm
  | otherAccount => exact hm
  | loadMore => exact hm.loadMsg _
  | noMore => exact hm
  | @valid id =>
    exact Sorted.loadMsg (m := { m.remove id with controller.accoutIsValid := true }) hm _
  | @notValid id op order aryMsgs =>
    -- dictionaries have no header to sort by
    exact List.pairwise_map.2 (List.pairwise_of_forall fun _ _ => rfl)
  | folderInfo => exact Sorted.folderInfoCompleted (m := m.remove _) hm _ _
  | fetchMessages => exact Sorted.fetchCompleted (m := m.remove _) hm _
  | store => exact hm

theorem sorted_of_run {C : Master τ w → MasterAction τ → Prop} {m₀ : Master τ w}
    {h : List (MasterAction τ × Bool)} (hr : (masterSystem τ w).RunWhere C m₀ h m)
    (h₀ : m₀.Sorted) : m.Sorted :=
  hr.invariant_state h₀ fun _ _ _ _ hm _ hs => hm.step (step_of_perform (step_of_next hs).1)

end Master

namespace Inbox

variable {i i' : Inbox τ w} {a : InboxAction τ} {o : List (MasterAction τ × Bool)}
  {h : List (InboxAction τ × List (MasterAction τ × Bool))} {p : Pager MCOIMAPMessage}

/-! ### Exact paging -/

/-- No count fails, and between two counts the mailbox is unchanged or has a different message
count; fetches bring exactly the messages of their range. -/
def ExactReplies (i : Inbox τ w) : InboxAction τ → Prop
  | .master (.complete _ (.folderInfo info)) => info.isSome = true ∧
      (i.lastMailbox = i.mailbox ∨ i.lastMailbox.length ≠ i.mailbox.length)
  | .master (.complete id (.fetchMessages messages)) =>
    ∀ op ∈ i.master.operation id, ∀ range ∈ op.request.range,
      (messages.getD []).Perm (range.messages i.mailbox)
  | _ => True

instance (i : Inbox τ w) : (a : InboxAction τ) → Decidable (i.ExactReplies a)
  | .master (.complete _ (.folderInfo info)) =>
    inferInstanceAs (Decidable (info.isSome = true ∧
      (i.lastMailbox = i.mailbox ∨ i.lastMailbox.length ≠ i.mailbox.length)))
  | .master (.complete id (.fetchMessages messages)) =>
    inferInstanceAs (Decidable (∀ op ∈ i.master.operation id, ∀ range ∈ op.request.range,
      (messages.getD []).Perm (range.messages i.mailbox)))
  | .evolve _ => isTrue trivial
  | .master (.connectToServer _) => isTrue trivial
  | .master .setAccount => isTrue trivial
  | .master (.accountHasFinishSetting _) => isTrue trivial
  | .master .loadMore => isTrue trivial
  | .master (.complete _ (.checkAccount _ _)) => isTrue trivial
  | .master (.store _) => isTrue trivial

/-- One connection with exact replies. -/
def Exact (i : Inbox τ w) (a : InboxAction τ) : Prop := i.OneConnection a ∧ i.ExactReplies a

instance (i : Inbox τ w) (a : InboxAction τ) : Decidable (i.Exact a) :=
  inferInstanceAs (Decidable (_ ∧ _))

theorem Refines.exactStep {a' : PagerAction MCOIMAPMessage} (hR : i.Refines p) (hC : i.Exact a)
    (hs : (inboxSystem τ w).next i a = some (i', o)) (ha : i.pagerAction a = some a') :
    p.ExactStep a' := by
  rcases pagerAction_cases ha with rfl | rfl | ⟨mailbox, rfl, rfl⟩ | ⟨id, info, rfl, rfl⟩ |
    ⟨id, messages, rfl, rfl⟩
  · exact trivial
  · exact trivial
  · exact trivial
  · obtain ⟨hone, hsome, hlast⟩ := hC
    obtain ⟨n, rfl⟩ := Option.isSome_iff_exists.1 hsome
    have hn : n.toInt = i.mailbox.length := hone n rfl
    refine ⟨?_, by rwa [hR.last, hR.source]⟩
    show n.toInt.toNat = p.source.length
    rw [hR.source]
    omega
  · obtain ⟨op, hop, range, hr, hrange, -, -⟩ := hR.fetching hs
    have hperm := Multiset.coe_eq_coe.2 (hC.2 op hop range hr)
    rwa [hrange] at hperm

end Inbox

/-- **Exact paging.**  In every run on one connection with exact replies, the completion of a
fetch leaves the newest messages of the mailbox listed, as many as the load asked for, each once,
by descending date. -/
theorem paging_exact (hw : 32 ≤ w) {c : NSManagedObjectContext τ} {mailbox : List MCOIMAPMessage}
    {i : Inbox τ w} {h : List (InboxAction τ × List (MasterAction τ × Bool))} {id : ℕ}
    {messages : Option (List MCOIMAPMessage)} {o : List (MasterAction τ × Bool)}
    (hr : (inboxSystem τ w).RunWhere Inbox.Exact (.init c mailbox)
      (h ++ [(.master (.complete id (.fetchMessages messages)), o)]) i) :
    i.master.controller.aryMsgs.Perm
        ((i.mailbox.rtake (min i.mailbox.length i.requested)).map Msg.imap) ∧
      i.master.controller.aryMsgs.Pairwise Msg.NotEarlier := by
  obtain ⟨i₀, hr₀, hC, hs⟩ := hr.of_snoc
  obtain ⟨h', p, hp, hR⟩ := Inbox.exists_pager_run hw (fun i a hC => hC.1)
    (fun i p a i' o a' hR hC hs ha => hR.exactStep hC hs ha) hr₀
  obtain ⟨-, -, -, -, -, hload, hrequested⟩ := hR.fetching hs
  have hpage := Pager.shown_of_fetched hp hload
  have hmessages : (messages.getD [] : Multiset MCOIMAPMessage) = (p.page : Multiset _) :=
    hR.exactStep hC hs rfl
  obtain ⟨m, -, rfl⟩ := Inbox.perform_of_next hs
  rcases hR.step hw hC.1 hs with ⟨hnone, -⟩ | ⟨a', p', ha', hp', hR'⟩
  · cases hnone
  · cases ha'
    rw [Pager.perform, if_pos hload] at hp'
    cases hp'
    have hshown := hR'.shown
    constructor
    · apply Multiset.coe_eq_coe.1
      rw [hshown, rtake_min_length, ← Multiset.map_coe]
      show ((messages.getD [] : Multiset MCOIMAPMessage) + p.shown).map _ = _
      rw [hmessages, hpage, hrequested, hR.source]
      rfl
    · exact Master.sorted_of_run (Inbox.master_run hr) List.Pairwise.nil

theorem paging_exact_eleven :
    let mailbox : List MCOIMAPMessage := (List.range 11).map fun n => mail (.ofNat n)
    let last : InboxAction String := .master (.complete 4 (.fetchMessages (some (mailbox.take 1))))
    ∃ h i i' o, (inboxSystem String 32).RunWhere Inbox.Exact (.init .empty mailbox) h i ∧
      h.map Prod.fst = [.master (.connectToServer (account "first")),
        .master (.complete 0 (.checkAccount .insertion true)),
        .master (.complete 1 (.folderInfo (some 11))),
        .master (.complete 2 (.fetchMessages (some (mailbox.drop 1)))), .master .loadMore,
        .master (.complete 3 (.folderInfo (some 11)))] ∧
      (inboxSystem String 32).next i last = some (i', o) ∧ i'.mailbox = mailbox ∧
      i'.requested = 20 ∧ i'.master.controller.aryMsgs.Perm (mailbox.map Msg.imap) := by
  intro mailbox last
  obtain ⟨h, i, -, hactions, ⟨hC, hs⟩, hr⟩ := (inboxSystem String 32).exists_run_of_actions
    Inbox.Exact (.init .empty mailbox) [.master (.connectToServer (account "first")),
      .master (.complete 0 (.checkAccount .insertion true)),
      .master (.complete 1 (.folderInfo (some 11))),
      .master (.complete 2 (.fetchMessages (some (mailbox.drop 1)))), .master .loadMore,
      .master (.complete 3 (.folderInfo (some 11)))]
    (P := fun _ i => i.Exact last ∧ ((inboxSystem String 32).next i last).any (fun r =>
      decide (r.1.mailbox = mailbox ∧ r.1.requested = 20)) = true) (by decide +kernel)
    fun _ _ hr => hr
  obtain ⟨⟨i', o⟩, hs, hi'⟩ := (Option.any_eq_true _ _).1 hs
  obtain ⟨hmailbox, hrequested⟩ := of_decide_eq_true hi'
  obtain ⟨hperm, -⟩ := paging_exact (by decide) (hr.snoc hC hs)
  rw [hrequested, hmailbox] at hperm
  exact ⟨h, i, i', o, hr, hactions, hs, hmailbox, hrequested, hperm⟩

/-! ### No message twice -/

/-- The uid of a message; an offline entry has none. -/
def Msg.uid : Msg τ → Option UInt32
  | .imap imapMsg => some imapMsg.uid
  | .summary _ => none

namespace Inbox

/-- The uids of the messages listed. -/
def uids (i : Inbox τ w) : List UInt32 := i.master.controller.aryMsgs.filterMap Msg.uid

/-- A mailbox gives different messages different uids. -/
def UniqueUids : InboxAction τ → Prop
  | .evolve mailbox => (mailbox.map MCOIMAPMessage.uid).Nodup
  | _ => True

instance : (a : InboxAction τ) → Decidable (UniqueUids a)
  | .evolve mailbox => inferInstanceAs (Decidable (mailbox.map MCOIMAPMessage.uid).Nodup)
  | .master _ => isTrue trivial

/-- If the count is the one remembered, no message listed is among the ten messages before the
newest ones of the mailbox, as many as are listed. -/
def FreshPage (i : Inbox τ w) : InboxAction τ → Prop
  | .master (.complete _ (.folderInfo (some _))) =>
    i.master.controller.countOfMsgInServer.toNat = i.mailbox.length →
      ∀ msg ∈ page i.mailbox (i.master.controller.aryMsgs.length + 10)
        i.master.controller.aryMsgs.length, msg.uid ∉ i.uids
  | _ => True

instance (i : Inbox τ w) : (a : InboxAction τ) → Decidable (i.FreshPage a)
  | .master (.complete _ (.folderInfo (some _))) =>
    inferInstanceAs (Decidable (_ = i.mailbox.length →
      ∀ msg ∈ page i.mailbox (i.master.controller.aryMsgs.length + 10)
        i.master.controller.aryMsgs.length, msg.uid ∉ i.uids))
  | .evolve _ => isTrue trivial
  | .master (.connectToServer _) => isTrue trivial
  | .master .setAccount => isTrue trivial
  | .master (.accountHasFinishSetting _) => isTrue trivial
  | .master .loadMore => isTrue trivial
  | .master (.complete _ (.checkAccount _ _)) => isTrue trivial
  | .master (.complete _ (.folderInfo none)) => isTrue trivial
  | .master (.complete _ (.fetchMessages _)) => isTrue trivial
  | .master (.store _) => isTrue trivial

variable {i i' : Inbox τ w} {a : InboxAction τ} {o : List (MasterAction τ × Bool)}
  {p : Pager MCOIMAPMessage}

theorem Refines.uids (hR : i.Refines p) :
    (i.uids : Multiset UInt32) = p.shown.map MCOIMAPMessage.uid := by
  have h := congrArg (Multiset.filterMap Msg.uid) hR.shown
  rw [Multiset.filterMap_coe, Multiset.filterMap_map] at h
  exact h.trans (congrFun (Multiset.filterMap_eq_map MCOIMAPMessage.uid) p.shown)

theorem Refines.subStep {a' : PagerAction MCOIMAPMessage} (hR : i.Refines p)
    (hC : i.OneConnection a) (hU : UniqueUids a)
    (hs : (inboxSystem τ w).next i a = some (i', o)) (ha : i.pagerAction a = some a') :
    p.SubStep MCOIMAPMessage.uid a' := by
  rcases pagerAction_cases ha with rfl | rfl | ⟨mailbox, rfl, rfl⟩ | ⟨id, info, rfl, rfl⟩ |
    ⟨id, messages, rfl, rfl⟩
  · exact trivial
  · exact trivial
  · exact hU
  · exact trivial
  · obtain ⟨op, hop, range, hr, hrange, -, -⟩ := hR.fetching hs
    have hsub := hC op hop range hr
    rw [hrange] at hsub
    exact Multiset.coe_le.2 hsub

theorem Refines.freshStep {a' : PagerAction MCOIMAPMessage} (hR : i.Refines p)
    (hC : i.OneConnection a) (hF : i.FreshPage a) (ha : i.pagerAction a = some a') :
    p.FreshStep MCOIMAPMessage.uid 10 a' := by
  rcases pagerAction_cases ha with rfl | rfl | ⟨mailbox, rfl, rfl⟩ | ⟨id, info, rfl, rfl⟩ |
    ⟨id, messages, rfl, rfl⟩
  · exact trivial
  · exact trivial
  · exact trivial
  · intro hn hcount msg hmsg
    -- a count of zero, or none, is no count of messages
    obtain ⟨n, rfl⟩ : ∃ n, info = some n := by
      cases info with
      | none => exact absurd rfl hn
      | some n => exact ⟨n, rfl⟩
    have hlength : n.toInt = i.mailbox.length := hC n rfl
    have hcount : n.toInt.toNat = p.count := hcount
    have hremembered : i.master.controller.countOfMsgInServer.toNat = i.mailbox.length := by
      rw [hR.count]
      omega
    rw [← hR.uids, Multiset.mem_coe]
    rw [hR.source, ← hR.length_aryMsgs] at hmsg
    exact hF hremembered msg hmsg
  · exact trivial

/-- One connection, to a mailbox whose uids are unique, and fresh pages. -/
def Fresh (i : Inbox τ w) (a : InboxAction τ) : Prop :=
  (i.OneConnection a ∧ UniqueUids a) ∧ i.FreshPage a

instance (i : Inbox τ w) (a : InboxAction τ) : Decidable (i.Fresh a) :=
  inferInstanceAs (Decidable ((_ ∧ _) ∧ _))

end Inbox

/-- **No message is listed twice** in a run on one connection, whatever happens to the mailbox
and whatever the fetches lose, as long as every page is fresh. -/
theorem uids_nodup (hw : 32 ≤ w) {c : NSManagedObjectContext τ} {mailbox : List MCOIMAPMessage}
    {i : Inbox τ w} {h : List (InboxAction τ × List (MasterAction τ × Bool))}
    (h₀ : (mailbox.map MCOIMAPMessage.uid).Nodup)
    (hr : (inboxSystem τ w).RunWhere Inbox.Fresh (.init c mailbox) h i) : i.uids.Nodup := by
  have hstep : ∀ i p a i' o a', Inbox.Refines i p → Inbox.Fresh i a →
      (inboxSystem τ w).next i a = some (i', o) → i.pagerAction a = some a' →
      p.SubStep MCOIMAPMessage.uid a' ∧ p.FreshStep MCOIMAPMessage.uid 10 a' :=
    fun i p a i' o a' hR hC hs ha =>
      ⟨hR.subStep hC.1.1 hC.1.2 hs ha, hR.freshStep hC.1.1 hC.2 ha⟩
  obtain ⟨h', p, hp, hR⟩ := Inbox.exists_pager_run hw (fun i a hC => hC.1.1) hstep hr
  rw [← Multiset.coe_nodup, hR.uids]
  exact Pager.nodup_of_run h₀ hp

/-- Two loads from a mailbox of two messages, each of which brings one message. -/
def twoLoads (first second : MCOIMAPMessage) : List (InboxAction String) :=
  [.master (.connectToServer (account "first")),
    .master (.complete 0 (.checkAccount .insertion true)),
    .master (.complete 1 (.folderInfo (some 2))),
    .master (.complete 2 (.fetchMessages (some [first]))), .master .loadMore,
    .master (.complete 3 (.folderInfo (some 2))),
    .master (.complete 4 (.fetchMessages (some [second])))]

theorem uids_nodup_six_five :
    ∃ h i, (inboxSystem String 32).Run (.init .empty [mail 5, mail 6]) h i ∧
      h.map Prod.fst = twoLoads (mail 6) (mail 5) ∧
      i.master.controller.aryMsgs.length = 2 ∧ i.uids.Nodup :=
  (inboxSystem String 32).exists_run_of_actions Inbox.Fresh _ _ (by decide +kernel)
    fun _ _ hr => uids_nodup (by decide) (by decide) hr

/-- If the first fetch loses the newer message, the next page repeats the older one. -/
theorem not_uids_nodup :
    ¬ ∀ (c : NSManagedObjectContext String) (mailbox : List MCOIMAPMessage)
      (h : List (InboxAction String × List (MasterAction String × Bool))) (i : Inbox String 32),
      (mailbox.map MCOIMAPMessage.uid).Nodup →
      (inboxSystem String 32).RunWhere (fun i a => i.OneConnection a ∧ Inbox.UniqueUids a)
        (.init c mailbox) h i → i.uids.Nodup := by
  intro hall
  obtain ⟨h, i, hr, huids⟩ := (inboxSystem String 32).exists_run_of_exec
    (fun i a => i.OneConnection a ∧ Inbox.UniqueUids a)
    (.init .empty [mail 5, mail 6]) (twoLoads (mail 5) (mail 5))
    (fun _ i => i.uids = [5, 5]) (by decide +kernel)
  have hnodup := hall _ _ h i (by decide) hr
  rw [huids] at hnodup
  exact absurd hnodup (by decide)

end SecMail
