import SecMail.Master.Range

/-!
# The inbox controller in front of a mailbox

An `Inbox` is the controller together with the mailbox it lists.  On one connection, whose counts
are right and whose mailbox keeps still during a fetch, the controller is a pager: it asks for ten
messages more than it lists, and all the arithmetic of `loadMsg:` amounts to "the page before what
is listed, or everything".

* `inboxSystem` : the closed system; its runs are runs of the controller (`Inbox.master_run`);
* `Inbox.exists_pager_run` : on one connection, every run of it is a run of `pagerSystem`.
-/

namespace SecMail

variable {τ : Type*} {w : ℕ}

/-- The controller and the mailbox of its account. -/
structure Inbox (τ : Type*) (w : ℕ) where
  master : Master τ w
  /-- The messages of INBOX, in the order of their sequence numbers. -/
  mailbox : List MCOIMAPMessage
  /-- The mailbox at the last completion of `folderInfoOperation`, empty before the first. -/
  lastMailbox : List MCOIMAPMessage
  /-- How many messages the last load asked for. -/
  requested : ℕ

/-- What can happen: the mailbox changes, or the controller does something. -/
inductive InboxAction (τ : Type*)
  | evolve (mailbox : List MCOIMAPMessage)
  | master (a : MasterAction τ)

namespace Inbox

/-- The controller when its view is loaded, in front of a context and a mailbox. -/
def init (c : NSManagedObjectContext τ) (mailbox : List MCOIMAPMessage) : Inbox τ w :=
  ⟨.init c, mailbox, [], 0⟩

variable (i : Inbox τ w)

/-- The record of the mailbox at the last count. -/
def lastMailboxAfter : MasterAction τ → List MCOIMAPMessage
  | .complete _ (.folderInfo _) => i.mailbox
  | _ => i.lastMailbox

/-- The record of the messages asked for: ten for the first load, and ten more than are listed
for the others. -/
def requestedAfter : MasterAction τ → ℕ
  | .complete _ (.checkAccount ..) => 10
  | .loadMore =>
    if i.master.controller.isLoading then i.requested
    else i.master.controller.aryMsgs.length + 10
  | _ => i.requested

end Inbox

/-- The controller in front of its mailbox; the events of the controller are seen. -/
def inboxSystem (τ : Type*) (w : ℕ) :
    System (Inbox τ w) (InboxAction τ) (List (MasterAction τ × Bool)) where
  next i
    | .evolve mailbox => some ({ i with mailbox }, [])
    | .master a => ((masterSystem τ w).next i.master a).map fun r =>
      (⟨r.1, i.mailbox, i.lastMailboxAfter a, i.requestedAfter a⟩, [(a, r.2)])

namespace Inbox

variable {i i' i₀ : Inbox τ w} {a : InboxAction τ} {o : List (MasterAction τ × Bool)}
  {C : Inbox τ w → InboxAction τ → Prop} {h : List (InboxAction τ × List (MasterAction τ × Bool))}

/-- **The runs of the inbox are runs of the controller.** -/
theorem master_run (hr : (inboxSystem τ w).RunWhere C i₀ h i) :
    (masterSystem τ w).Run i₀.master (h.flatMap fun e => e.2) i.master := by
  refine hr.project Inbox.master (fun e => e.2) fun i a o i' hs => ?_
  cases a with
  | evolve mailbox => cases hs; exact .nil
  | master a =>
    obtain ⟨⟨m, late⟩, hm, heq⟩ := Option.map_eq_some_iff.1 hs
    cases heq
    exact .single trivial hm

theorem perform_of_next {a : MasterAction τ}
    (hs : (inboxSystem τ w).next i (.master a) = some (i', o)) :
    ∃ m, i.master.perform a = some m ∧
      i' = ⟨m, i.mailbox, i.lastMailboxAfter a, i.requestedAfter a⟩ := by
  obtain ⟨⟨m, late⟩, hm, heq⟩ := Option.map_eq_some_iff.1 hs
  cases heq
  exact ⟨m, (Master.step_of_next hm).1, rfl⟩

/-! ### One connection -/

/-- There is one connection and its account is accepted.  Its counts are right unless they fail,
its fetches bring messages of the range only, and the mailbox keeps still meanwhile. -/
def OneConnection (i : Inbox τ w) : InboxAction τ → Prop
  | .evolve _ => ∀ op ∈ i.master.operations, op.request.range = none
  | .master (.connectToServer _) => i.master.connection = 0
  | .master (.accountHasFinishSetting σ) =>
    i.master.controller.imapSession.any (fun σ' => decide (σ.SameAccount σ')) = true
  | .master (.complete _ (.checkAccount _ valid)) => valid = true
  | .master (.complete _ (.folderInfo info)) => ∀ n ∈ info, n.toInt = i.mailbox.length
  | .master (.complete id (.fetchMessages messages)) =>
    ∀ op ∈ i.master.operation id, ∀ range ∈ op.request.range,
      (messages.getD []).Subperm (range.messages i.mailbox)
  | _ => True

instance (i : Inbox τ w) : (a : InboxAction τ) → Decidable (i.OneConnection a)
  | .evolve _ =>
    inferInstanceAs (Decidable (∀ op ∈ i.master.operations, op.request.range = none))
  | .master (.connectToServer _) => inferInstanceAs (Decidable (_ = 0))
  | .master .setAccount => isTrue trivial
  | .master (.accountHasFinishSetting _) => inferInstanceAs (Decidable (_ = true))
  | .master .loadMore => isTrue trivial
  | .master (.complete _ (.checkAccount _ _)) => inferInstanceAs (Decidable (_ = true))
  -- the instance that is found by default tries every `n`
  | .master (.complete _ (.folderInfo info)) => Option.decidableForallMem info
  | .master (.complete id (.fetchMessages messages)) =>
    inferInstanceAs (Decidable (∀ op ∈ i.master.operation id, ∀ range ∈ op.request.range,
      (messages.getD []).Subperm (range.messages i.mailbox)))
  | .master (.store _) => isTrue trivial

/-- What an action means for the pager. -/
def pagerAction (i : Inbox τ w) : InboxAction τ → Option (PagerAction MCOIMAPMessage)
  | .evolve mailbox => some (.evolve mailbox)
  | .master .setAccount => i.master.controller.imapMsgFetchOp.map fun _ => .cancel
  | .master .loadMore =>
    if i.master.controller.isLoading = false ∧
      i.master.controller.aryMsgs.length < i.master.controller.countOfMsgInServer.toNat then
      some .ask
    else none
  | .master (.complete _ (.checkAccount ..)) => some .ask
  | .master (.complete _ (.folderInfo info)) => some (.count ((info.getD 0).toInt.toNat))
  | .master (.complete _ (.fetchMessages messages)) => some (.fetched ↑(messages.getD []))
  | _ => none

/-- The controller has connected. -/
def Connected (i : Inbox τ w) : Prop :=
  i.master.connection ≠ 0 ∧ ∃ σ, i.master.controller.imapSession = some σ

/-- What the pager is doing while the operation with number `id` is in progress. -/
inductive Busy (i : Inbox τ w) (p : Pager MCOIMAPMessage) (id : ℕ) : Request w → Prop
  | checking (hf : i.master.controller.imapMsgFetchOp = none)
      (hp : p.load = .idle ∧ p.shown = 0 ∧ p.count = 0) : Busy i p id .checkAccount
  | asking {number : BitVec w} (hf : i.master.controller.imapMsgFetchOp = none)
      (hl : i.master.controller.isLoading = true) (hp : p.load = .asking)
      (hn : number.toNat = p.requested) (hreq : p.requested = i.requested)
      (hask : p.requested = p.shown.card + 10 ∧ (p.shown.card = 0 ∨ p.shown.card < p.count)) :
      Busy i p id (.folderInfo number)
  | fetching {range : MCORange} (hf : i.master.controller.imapMsgFetchOp = some id)
      (hl : i.master.controller.isLoading = true) (hp : p.load = .fetching)
      (hrange : range.messages i.mailbox = p.page) (hreq : p.requested = i.requested)
      (hlt : i.mailbox.length < 2 ^ 31) : Busy i p id (.fetchMessages range)

/-- What the controller has in progress. -/
inductive Phase (i : Inbox τ w) (p : Pager MCOIMAPMessage) : Prop
  | fresh (hc : i.master.connection = 0) (hops : i.master.operations = [])
      (hf : i.master.controller.imapMsgFetchOp = none)
      (hp : p.load = .idle ∧ p.shown = 0 ∧ p.count = 0)
  | idle (hc : i.Connected) (hops : i.master.operations = [])
      (hf : i.master.controller.imapMsgFetchOp = none) (hp : p.load = .idle)
  | busy (hc : i.Connected) (op : Operation w) (hops : i.master.operations = [op])
      (hb : i.Busy p op.id op.request)

/-- The pager `p` abstracts the inbox `i`. -/
structure Refines (i : Inbox τ w) (p : Pager MCOIMAPMessage) : Prop where
  source : p.source = i.mailbox
  last : p.last = i.lastMailbox
  shown : (i.master.controller.aryMsgs : Multiset (Msg τ)) = p.shown.map Msg.imap
  count : i.master.controller.countOfMsgInServer.toNat = p.count
  count_lt : p.count < 2 ^ 31
  card_lt : p.shown.card < 2 ^ 31
  phase : i.Phase p

variable {p : Pager MCOIMAPMessage}

theorem Refines.length_aryMsgs (hR : i.Refines p) :
    i.master.controller.aryMsgs.length = p.shown.card := by
  have h := congrArg Multiset.card hR.shown
  rwa [Multiset.coe_card, Multiset.card_map] at h

/-- The length of the list is a number of `w` bits. -/
theorem Refines.toNat_length_aryMsgs (hw : 32 ≤ w) (hR : i.Refines p) :
    (BitVec.ofNat w i.master.controller.aryMsgs.length).toNat =
      i.master.controller.aryMsgs.length := by
  have hcard_lt := hR.card_lt
  have hlength := hR.length_aryMsgs
  exact toNat_ofNat_of_lt hw (by omega)

theorem refines_init (c : NSManagedObjectContext τ) (mailbox : List MCOIMAPMessage) :
    (init c mailbox : Inbox τ w).Refines (.init mailbox) where
  source := rfl
  last := rfl
  shown := rfl
  count := BitVec.toNat_zero
  count_lt := Nat.two_pow_pos 31
  card_lt := Nat.two_pow_pos 31
  phase := .fresh rfl rfl rfl ⟨rfl, rfl, rfl⟩

/-- Steps that leave the controller and the mailbox alone; the messages asked for are only
recorded when no load is in progress. -/
theorem Refines.frame (hR : i.Refines p) (hcontroller : i'.master.controller = i.master.controller)
    (hops : i'.master.operations = i.master.operations)
    (hconnection : i'.master.connection = i.master.connection) (hmailbox : i'.mailbox = i.mailbox)
    (hlast : i'.lastMailbox = i.lastMailbox)
    (hreq : i.master.controller.isLoading = true → i'.requested = i.requested) :
    i'.Refines p := by
  have hconnected : i.Connected → i'.Connected := by
    rintro ⟨hc, σ, hσ⟩
    exact ⟨by rwa [hconnection], σ, by rwa [hcontroller]⟩
  refine ⟨by rw [hmailbox, hR.source], by rw [hlast, hR.last], by rw [hcontroller, hR.shown],
    by rw [hcontroller, hR.count], hR.count_lt, hR.card_lt, ?_⟩
  rw [← hcontroller] at hreq
  cases hR.phase with
  | fresh hc ho hf hp =>
    exact .fresh (by rwa [hconnection]) (by rwa [hops]) (by rwa [hcontroller]) hp
  | idle hc ho hf hp => exact .idle (hconnected hc) (by rwa [hops]) (by rwa [hcontroller]) hp
  | busy hc op ho hb =>
    refine .busy (hconnected hc) op (by rwa [hops]) ?_
    generalize op.request = request at hb ⊢
    cases hb with
    | checking hf hp => exact .checking (by rwa [hcontroller]) hp
    | asking hf hl hp hn hreq' hask =>
      rw [← hcontroller] at hl
      exact .asking (by rwa [hcontroller]) hl hp hn (by rw [hreq hl, hreq']) hask
    | fetching hf hl hp hrange hreq' hlt =>
      rw [← hcontroller] at hl
      exact .fetching (by rwa [hcontroller]) hl hp (by rwa [hmailbox]) (by rw [hreq hl, hreq'])
        (by rwa [hmailbox])

/-! ### Steps -/

section Step

/-- An operation found is the only one. -/
theorem Refines.busy (hR : i.Refines p) {id : ℕ} {op : Operation w}
    (hop : i.master.operation id = some op) :
    i.Connected ∧ (i.master.remove id).operations = [] ∧ i.Busy p id op.request := by
  obtain ⟨hmem, rfl⟩ := Master.mem_of_operation hop
  cases hR.phase with
  | fresh _ hops => rw [hops] at hmem; cases hmem
  | idle _ hops => rw [hops] at hmem; cases hmem
  | busy hc op' hops hb =>
    rw [hops, List.mem_singleton] at hmem
    subst hmem
    refine ⟨hc, ?_, hb⟩
    show i.master.operations.filter _ = []
    rw [hops]
    simp

theorem Refines.evolve (hR : i.Refines p) (mailbox : List MCOIMAPMessage)
    (hC : i.OneConnection (.evolve mailbox)) :
    ∃ p', p.perform 10 (.evolve mailbox) = some p' ∧ { i with mailbox }.Refines p' := by
  have hload : p.load ≠ .fetching := by
    intro hl
    cases hR.phase with
    | fresh _ _ _ hp => rw [hp.1] at hl; cases hl
    | idle _ _ _ hp => rw [hp] at hl; cases hl
    | busy _ op hops hb =>
      have hnone : op.request.range = none := hC op (by rw [hops]; exact List.mem_singleton_self _)
      generalize op.request = request at hb hnone
      cases hb with
      | checking _ hp => rw [hp.1] at hl; cases hl
      | asking _ _ hp => rw [hp] at hl; cases hl
      | fetching => cases hnone
  refine ⟨{ p with source := mailbox }, if_neg hload,
    rfl, hR.last, hR.shown, hR.count, hR.count_lt, hR.card_lt, ?_⟩
  cases hR.phase with
  | fresh hc hops hf hp => exact .fresh hc hops hf hp
  | idle hc hops hf hp => exact .idle hc hops hf hp
  | busy hc op hops hb =>
    refine .busy hc op hops ?_
    generalize op.request = request at hb ⊢
    cases hb with
    | checking hf hp => exact .checking hf hp
    | asking hf hl hp hn hreq hask => exact .asking hf hl hp hn hreq hask
    | fetching _ _ hp => exact absurd hp hload

/-- The tap on "load more" starts a load when the list is short. -/
theorem Refines.loadMore (hw : 32 ≤ w) (hR : i.Refines p)
    (hl : i.master.controller.isLoading = false)
    (hc : i.master.controller.aryMsgs.length < i.master.controller.countOfMsgInServer.toNat) :
    ∃ p', p.perform 10 .ask = some p' ∧
      (⟨i.master.loadMsg (BitVec.ofNat w i.master.controller.aryMsgs.length + 10), i.mailbox,
        i.lastMailbox, i.master.controller.aryMsgs.length + 10⟩ : Inbox τ w).Refines p' := by
  have hlength := hR.length_aryMsgs
  have hlt : p.shown.card < p.count := by rw [← hlength, ← hR.count]; exact hc
  have hcount_lt := hR.count_lt
  cases hR.phase with
  | fresh _ _ _ hp => rw [hp.2.2] at hlt; cases hlt
  | busy _ op _ hb =>
    -- a load in progress is marked, and during the check there is nothing to load
    generalize op.request = request at hb
    cases hb with
    | checking _ hp => rw [hp.2.2] at hlt; cases hlt
    | asking _ hl' => rw [hl] at hl'; cases hl'
    | fetching _ hl' => rw [hl] at hl'; cases hl'
  | idle hconnected hops hf hp =>
    obtain ⟨hconnection, σ, hσ⟩ := hconnected
    have hpow : 2 ^ 32 ≤ 2 ^ w := Nat.pow_le_pow_right (by decide) hw
    have hnumber : (BitVec.ofNat w i.master.controller.aryMsgs.length + 10).toNat =
        p.shown.card + 10 := by
      have h10 : (10 : BitVec w).toNat = 10 := toNat_ofNat_of_lt hw (by decide)
      have hofNat := hR.toNat_length_aryMsgs hw
      rw [hlength] at hofNat ⊢
      rw [BitVec.toNat_add_of_lt (by rw [hofNat, h10]; omega), hofNat, h10]
    refine ⟨{ p with load := .asking, requested := p.shown.card + 10 }, if_pos ⟨hp, .inr hlt⟩, ?_⟩
    rw [Master.loadMsg_of_some hσ]
    refine ⟨hR.source, hR.last, hR.shown, hR.count, hR.count_lt, hR.card_lt, ?_⟩
    refine .busy ⟨hconnection, σ, hσ⟩ ⟨i.master.nextId, i.master.connection, σ, _⟩ ?_
      (.asking hf rfl rfl hnumber ?_ ⟨rfl, .inr hlt⟩)
    · show i.master.operations ++ _ = _
      rw [hops]
      rfl
    · show p.shown.card + 10 = i.master.controller.aryMsgs.length + 10
      rw [hlength]

theorem Refines.connectToServer (hR : i.Refines p) (hc : i.master.connection = 0)
    (σ : MCOIMAPSession) :
    (⟨i.master.connectToServer σ, i.mailbox, i.lastMailbox, i.requested⟩ : Inbox τ w).Refines p := by
  refine ⟨hR.source, hR.last, hR.shown, hR.count, hR.count_lt, hR.card_lt, ?_⟩
  cases hR.phase with
  | fresh _ hops hf hp =>
    refine .busy ⟨Nat.succ_ne_zero _, σ, rfl⟩
      ⟨i.master.nextId, i.master.connection + 1, σ, .checkAccount⟩ ?_ (.checking hf hp)
    show i.master.operations ++ _ = _
    rw [hops]
    rfl
  | idle hconnected => exact absurd hc hconnected.1
  | busy hconnected => exact absurd hc hconnected.1

theorem Refines.setAccount_of_none (hR : i.Refines p)
    (hf : i.master.controller.imapMsgFetchOp = none) :
    (⟨i.master.setAccount, i.mailbox, i.lastMailbox, i.requested⟩ : Inbox τ w).Refines p := by
  refine hR.frame ?_ ?_ rfl rfl rfl fun _ => rfl
  · show { i.master.controller with imapMsgFetchOp := none } = i.master.controller
    rw [← hf]
  · show i.master.operations.filter _ = i.master.operations
    rw [hf]
    simp

/-- Opening the login screen cancels the fetch. -/
theorem Refines.setAccount_of_some (hR : i.Refines p) {id : ℕ}
    (hf : i.master.controller.imapMsgFetchOp = some id) :
    ∃ p', p.perform 10 .cancel = some p' ∧
      (⟨i.master.setAccount, i.mailbox, i.lastMailbox, i.requested⟩ : Inbox τ w).Refines p' := by
  cases hR.phase with
  | fresh _ _ hf' => rw [hf] at hf'; cases hf'
  | idle _ _ hf' => rw [hf] at hf'; cases hf'
  | busy hconnected op hops hb =>
    generalize op.request = request at hb
    cases hb with
    | checking hf' => rw [hf] at hf'; cases hf'
    | asking hf' => rw [hf] at hf'; cases hf'
    | fetching hf' hl hp =>
      refine ⟨{ p with load := .idle }, if_pos hp, hR.source, hR.last, hR.shown, hR.count,
        hR.count_lt, hR.card_lt, .idle hconnected ?_ rfl rfl⟩
      show i.master.operations.filter _ = []
      rw [hf', hops]
      simp

/-- The first load. -/
theorem Refines.valid (hw : 32 ≤ w) (hR : i.Refines p) {id : ℕ} {op : Operation w}
    (hop : i.master.operation id = some op) (hr : op.request = .checkAccount) :
    ∃ p', p.perform 10 .ask = some p' ∧
      (⟨{ i.master.remove id with controller.accoutIsValid := true }.loadMsg 10, i.mailbox,
        i.lastMailbox, 10⟩ : Inbox τ w).Refines p' := by
  obtain ⟨⟨hconnection, σ, hσ⟩, hremove, hb⟩ := hR.busy hop
  rw [hr] at hb
  cases hb with
  | checking hf hp =>
    obtain ⟨hload, hshown, hcount⟩ := hp
    have hcard : p.shown.card = 0 := by rw [hshown]; rfl
    have h10 : (10 : BitVec w).toNat = p.shown.card + 10 := by
      rw [hcard]
      exact toNat_ofNat_of_lt hw (by decide)
    refine ⟨{ p with load := .asking, requested := p.shown.card + 10 },
      if_pos ⟨hload, .inl hcard⟩, ?_⟩
    rw [Master.loadMsg_of_some
      (m := { i.master.remove id with controller.accoutIsValid := true }) hσ]
    refine ⟨hR.source, hR.last, hR.shown, hR.count, hR.count_lt, hR.card_lt, ?_⟩
    refine .busy ⟨hconnection, σ, hσ⟩ ⟨i.master.nextId, i.master.connection, σ, _⟩ ?_
      (.asking hf rfl rfl h10 ?_ ⟨rfl, .inl hcard⟩)
    · show (i.master.remove id).operations ++ _ = _
      rw [hremove]
      rfl
    · show p.shown.card + 10 = 10
      rw [hcard]

/-- What the controller reads off the answer to the count. -/
theorem toNat_messageCount_info (hw : 32 ≤ w) {info : Option (BitVec 32)}
    (hinfo : ∀ n ∈ info, n.toInt = i.mailbox.length) :
    (Master.messageCount info : BitVec w).toNat = (info.getD 0).toInt.toNat ∧
      ((info.getD 0).toInt.toNat ≠ 0 → (info.getD 0).toInt.toNat = i.mailbox.length ∧
        i.mailbox.length < 2 ^ 31) := by
  cases info with
  | none =>
    rw [Master.messageCount_none]
    exact ⟨BitVec.toNat_zero, fun h => absurd rfl h⟩
  | some n =>
    have hn := hinfo n rfl
    obtain ⟨hcount, hlt⟩ := Master.toNat_messageCount hw hn
    have hT : n.toInt.toNat = i.mailbox.length := by omega
    exact ⟨hcount.trans hT.symm, fun _ => ⟨hT, hlt⟩⟩

/-- The list that is left when the mailbox has been counted, and the range that is then asked
for. -/
theorem Refines.counted (hw : 32 ≤ w) (hR : i.Refines p) {messageCount number : BitVec w} {T : ℕ}
    (hcount : messageCount.toNat = T) (hT : T = i.mailbox.length) (hzero : T ≠ 0)
    (hlt : i.mailbox.length < 2 ^ 31) (hn : number.toNat = p.requested)
    (hask : p.requested = p.shown.card + 10 ∧ (p.shown.card = 0 ∨ p.shown.card < p.count)) :
    ((if i.master.keepsMsgs messageCount then i.master.controller.aryMsgs else [] :
        List (Msg τ)) : Multiset (Msg τ)) = (if T = p.count then p.shown else 0).map Msg.imap ∧
      (i.master.fetchRange messageCount (MIN messageCount number)).messages i.mailbox =
        page i.mailbox p.requested (if T = p.count then p.shown else 0).card := by
  have hkeeps : i.master.keepsMsgs messageCount = true ↔
      T = p.count ∧ i.master.controller.aryMsgs ≠ [] := by
    rw [Master.keepsMsgs_iff, ← hR.count, ← hcount, eq_comm, BitVec.toNat_inj]
  have hlength := hR.length_aryMsgs
  by_cases hk : i.master.keepsMsgs messageCount = true
  · obtain ⟨hc, hne⟩ := hkeeps.1 hk
    have hpos := List.length_pos_of_ne_nil hne
    have hcard : p.shown.card < p.count := hask.2.resolve_left (by omega)
    rw [if_pos hk, if_pos hc, ← hn, ← hlength]
    exact ⟨hR.shown, Master.messages_fetchRange_of_keeps hw (hcount.trans hT) hlt hk (by omega)⟩
  · have hempty : (if T = p.count then p.shown else 0) = 0 := by
      by_cases hc : T = p.count
      · have he : i.master.controller.aryMsgs = [] := by
          by_contra hne
          exact hk (hkeeps.2 ⟨hc, hne⟩)
        rw [he] at hlength
        rw [if_pos hc]
        exact Multiset.card_eq_zero.1 hlength.symm
      · rw [if_neg hc]
    rw [if_neg hk, hempty, ← hn]
    exact ⟨rfl, Master.messages_fetchRange_of_not_keeps hw (hcount.trans hT) hlt hk (by omega)⟩

/-- The completion of the count. -/
theorem Refines.folderInfo (hw : 32 ≤ w) (hR : i.Refines p) {id : ℕ} {op : Operation w}
    {number : BitVec w} (hop : i.master.operation id = some op)
    (hr : op.request = .folderInfo number) {info : Option (BitVec 32)}
    (hinfo : ∀ n ∈ info, n.toInt = i.mailbox.length) :
    ∃ p', p.perform 10 (.count (info.getD 0).toInt.toNat) = some p' ∧
      (⟨(i.master.remove id).folderInfoCompleted number info, i.mailbox, i.mailbox,
        i.requested⟩ : Inbox τ w).Refines p' := by
  obtain ⟨hconnected, hremove, hb⟩ := hR.busy hop
  rw [hr] at hb
  cases hb with
  | asking hf hl hp hn hreq hask =>
    refine ⟨p.counted (info.getD 0).toInt.toNat, if_pos hp, ?_⟩
    obtain ⟨hcount, hT⟩ := toNat_messageCount_info hw hinfo
    have hmin := toNat_MIN (Master.messageCount info) number
    rw [hcount, hn] at hmin
    by_cases hzero : (info.getD 0).toInt.toNat = 0
    · -- nothing to load
      have hMIN : MIN (Master.messageCount info) number = 0 := by
        apply BitVec.eq_of_toNat_eq
        rw [hmin, hzero, Nat.zero_min]
        exact BitVec.toNat_zero.symm
      rw [Master.folderInfoCompleted_of_zero hMIN, hzero, Pager.counted_of_zero]
      exact ⟨hR.source, hR.source, hR.shown, hcount.trans hzero, Nat.two_pow_pos 31, hR.card_lt,
        .idle hconnected hremove hf rfl⟩
    · obtain ⟨hT, hlt⟩ := hT hzero
      obtain ⟨hconnection, σ, hσ⟩ := hconnected
      have hMIN : MIN (Master.messageCount info) number ≠ 0 := by
        intro h
        rw [h] at hmin
        have h0 : (0 : BitVec w).toNat = 0 := BitVec.toNat_zero
        omega
      rw [Master.folderInfoCompleted_of_some hMIN (m := i.master.remove id) hσ,
        Pager.counted_of_ne_zero hzero]
      obtain ⟨hshown, hrange⟩ := hR.counted hw hcount hT hzero hlt hn hask
      refine ⟨hR.source, hR.source, hshown, hcount, (hT.trans_lt hlt), ?_, ?_⟩
      · show (if _ then _ else _ : Multiset _).card < _
        split_ifs
        · exact hR.card_lt
        · exact Nat.two_pow_pos 31
      · refine .busy ⟨hconnection, σ, hσ⟩ ⟨i.master.nextId, i.master.connection, σ,
          .fetchMessages ((i.master.remove id).fetchRange (Master.messageCount info)
            (MIN (Master.messageCount info) number))⟩ ?_ (.fetching rfl hl rfl ?_ hreq hlt)
        · show (i.master.remove id).operations ++ _ = _
          rw [hremove]
          rfl
        · rw [Pager.page, hR.source]
          exact hrange

/-- The completion of the fetch. -/
theorem Refines.fetchMessages (hR : i.Refines p) {id : ℕ} {op : Operation w} {range : MCORange}
    (hop : i.master.operation id = some op) (hr : op.request = .fetchMessages range)
    {messages : Option (List MCOIMAPMessage)}
    (hsub : (messages.getD []).Subperm (range.messages i.mailbox)) :
    ∃ p', p.perform 10 (.fetched ↑(messages.getD [])) = some p' ∧
      (⟨(i.master.remove id).fetchCompleted messages, i.mailbox, i.lastMailbox,
        i.requested⟩ : Inbox τ w).Refines p' := by
  obtain ⟨hconnected, hremove, hb⟩ := hR.busy hop
  rw [hr] at hb
  cases hb with
  | fetching hf hl hp hrange hreq hlt =>
    refine ⟨{ p with shown := ↑(messages.getD []) + p.shown, load := .idle }, if_pos hp, ?_⟩
    have hcard : ((messages.getD [] : Multiset MCOIMAPMessage) + p.shown).card < 2 ^ 31 := by
      -- a page and what is shown are not more than the mailbox or what was shown
      have hle := hsub.length_le
      have hpage : p.page.length ≤ i.mailbox.length - p.shown.card := by
        rw [Pager.page, hR.source, page, List.rtake, List.length_drop, List.rdrop,
          List.length_take]
        omega
      have hcard_lt := hR.card_lt
      rw [hrange] at hle
      rw [Multiset.card_add, Multiset.coe_card]
      omega
    by_cases hnil : messages.getD [] = []
    · rw [Master.fetchCompleted_of_nil hnil]
      refine ⟨hR.source, hR.last, ?_, hR.count, hR.count_lt, hcard,
        .idle hconnected hremove rfl rfl⟩
      show (i.master.controller.aryMsgs : Multiset (Msg τ)) = _
      rw [hR.shown, hnil]
      simp
    · obtain ⟨msgs, rfl⟩ : ∃ msgs, messages = some msgs := by
        cases messages with
        | none => exact absurd rfl hnil
        | some msgs => exact ⟨msgs, rfl⟩
      have hnil : msgs ≠ [] := hnil
      rw [Master.fetchCompleted_of_ne_nil hnil]
      refine ⟨hR.source, hR.last, ?_, hR.count, hR.count_lt, hcard,
        .idle hconnected hremove rfl rfl⟩
      show (((msgs.map Msg.imap ++ i.master.controller.aryMsgs).insertionSort
        Msg.NotEarlier : List (Msg τ)) : Multiset (Msg τ)) = ((msgs : Multiset _) + p.shown).map _
      rw [Multiset.coe_eq_coe.2 (List.perm_insertionSort _ _), ← Multiset.coe_add, hR.shown,
        Multiset.map_add, Multiset.map_coe]

end Step

/-- **A step of the inbox is a step of the pager**, or changes nothing that the pager sees. -/
theorem Refines.step (hw : 32 ≤ w) (hR : i.Refines p) (hC : i.OneConnection a)
    (hs : (inboxSystem τ w).next i a = some (i', o)) :
    (i.pagerAction a = none ∧ i'.Refines p) ∨
      ∃ a' p', i.pagerAction a = some a' ∧ p.perform 10 a' = some p' ∧ i'.Refines p' := by
  cases a with
  | evolve mailbox =>
    cases hs
    obtain ⟨p', hp', hR'⟩ := hR.evolve mailbox hC
    exact .inr ⟨.evolve mailbox, p', rfl, hp', hR'⟩
  | master a =>
    obtain ⟨m, hm, rfl⟩ := perform_of_next hs
    cases Master.step_of_perform hm with
    | connectToServer σ => exact .inl ⟨rfl, hR.connectToServer hC σ⟩
    | setAccount =>
      cases hf : i.master.controller.imapMsgFetchOp with
      | none => exact .inl ⟨by simp [pagerAction, hf], hR.setAccount_of_none hf⟩
      | some id =>
        obtain ⟨p', hp', hR'⟩ := hR.setAccount_of_some hf
        exact .inr ⟨.cancel, p', by simp [pagerAction, hf], hp', hR'⟩
    | sameAccount => exact .inl ⟨rfl, hR⟩
    | otherAccount hne => exact absurd hC hne
    | loadMore hl hc =>
      rw [BitVec.lt_def, hR.toNat_length_aryMsgs hw] at hc
      obtain ⟨p', hp', hR'⟩ := hR.loadMore hw hl hc
      refine .inr ⟨.ask, p', if_pos ⟨hl, hc⟩, hp', ?_⟩
      rw [show i.requestedAfter .loadMore = i.master.controller.aryMsgs.length + 10 from
        if_neg (by rw [hl]; decide)]
      exact hR'
    | noMore hne =>
      rw [BitVec.lt_def, hR.toNat_length_aryMsgs hw] at hne
      exact .inl ⟨if_neg hne, hR.frame rfl rfl rfl rfl rfl fun hl => if_pos hl⟩
    | valid hop hr =>
      obtain ⟨p', hp', hR'⟩ := hR.valid hw hop hr
      exact .inr ⟨.ask, p', rfl, hp', hR'⟩
    | notValid => cases hC
    | folderInfo hop hr info =>
      obtain ⟨p', hp', hR'⟩ := hR.folderInfo hw hop hr hC
      exact .inr ⟨_, p', rfl, hp', hR'⟩
    | fetchMessages hop hr messages =>
      obtain ⟨p', hp', hR'⟩ := hR.fetchMessages hop hr (hC _ hop _ (by rw [hr]; rfl))
      exact .inr ⟨_, p', rfl, hp', hR'⟩
    | store => exact .inl ⟨rfl, hR.frame rfl rfl rfl rfl rfl fun _ => rfl⟩

/-- What the pager does comes from these actions. -/
theorem pagerAction_cases {a' : PagerAction MCOIMAPMessage} (h : i.pagerAction a = some a') :
    a' = .ask ∨ a' = .cancel ∨ (∃ mailbox, a = .evolve mailbox ∧ a' = .evolve mailbox) ∨
    (∃ id info, a = .master (.complete id (.folderInfo info)) ∧
      a' = .count (info.getD 0).toInt.toNat) ∨
    ∃ id messages, a = .master (.complete id (.fetchMessages messages)) ∧
      a' = .fetched ↑(messages.getD []) := by
  rcases a with mailbox | _ | _ | _ | _ | ⟨id, _ | info | messages⟩ | _
  · exact .inr (.inr (.inl ⟨mailbox, rfl, (Option.some.inj h).symm⟩))
  · cases h
  · obtain ⟨_, -, rfl⟩ := Option.map_eq_some_iff.1 h
    exact .inr (.inl rfl)
  · cases h
  · by_cases hl : i.master.controller.isLoading = false ∧
        i.master.controller.aryMsgs.length < i.master.controller.countOfMsgInServer.toNat
    · rw [pagerAction, if_pos hl] at h
      exact .inl (Option.some.inj h).symm
    · rw [pagerAction, if_neg hl] at h
      cases h
  · exact .inl (Option.some.inj h).symm
  · exact .inr (.inr (.inr (.inl ⟨id, info, rfl, (Option.some.inj h).symm⟩)))
  · exact .inr (.inr (.inr (.inr ⟨id, messages, rfl, (Option.some.inj h).symm⟩)))
  · cases h

/-- A fetch in progress is for the page of the pager. -/
theorem Refines.fetching (hR : i.Refines p) {id : ℕ} {messages : Option (List MCOIMAPMessage)}
    (hs : (inboxSystem τ w).next i (.master (.complete id (.fetchMessages messages))) =
      some (i', o)) :
    ∃ op ∈ i.master.operation id, ∃ range ∈ op.request.range,
      range.messages i.mailbox = p.page ∧ p.load = .fetching ∧ p.requested = i.requested := by
  obtain ⟨m, hm, -⟩ := perform_of_next hs
  cases Master.step_of_perform hm with
  | @fetchMessages _ op range hop hr _ =>
    obtain ⟨-, -, hb⟩ := hR.busy hop
    rw [hr] at hb
    cases hb with
    | fetching _ _ hp hrange hreq => exact ⟨op, hop, range, by rw [hr]; rfl, hrange, hp, hreq⟩

/-- **On one connection the inbox is a pager.** -/
theorem exists_pager_run (hw : 32 ≤ w) {c : NSManagedObjectContext τ}
    {mailbox : List MCOIMAPMessage} {C' : Pager MCOIMAPMessage → PagerAction MCOIMAPMessage → Prop}
    (hC : ∀ i a, C i a → i.OneConnection a)
    (hC' : ∀ i p a i' o a', i.Refines p → C i a → (inboxSystem τ w).next i a = some (i', o) →
      i.pagerAction a = some a' → C' p a')
    (hr : (inboxSystem τ w).RunWhere C (.init c mailbox) h i) :
    ∃ h' p, (pagerSystem _ 10).RunWhere C' (.init mailbox) h' p ∧ i.Refines p := by
  refine hr.invariant_state
    (I := fun i => ∃ h' p, (pagerSystem _ 10).RunWhere C' (.init mailbox) h' p ∧ i.Refines p)
    ⟨[], _, .nil, refines_init c mailbox⟩ ?_
  rintro i a o i' ⟨h', p, hr', hR⟩ hCi hs
  rcases hR.step hw (hC i a hCi) hs with ⟨-, hR'⟩ | ⟨a', p', ha', hp', hR'⟩
  · exact ⟨h', p, hr', hR'⟩
  · have hs' : (pagerSystem _ 10).next p a' = some (p', ()) := by
      show (p.perform 10 a').map _ = _
      rw [hp']
      rfl
    exact ⟨_, p', hr'.snoc (hC' i p a i' o a' hR hCi hs ha') hs', hR'⟩

/-- On one connection every state reached is that of a pager. -/
theorem exists_refines (hw : 32 ≤ w) {c : NSManagedObjectContext τ}
    {mailbox : List MCOIMAPMessage}
    (hr : (inboxSystem τ w).RunWhere OneConnection (.init c mailbox) h i) :
    ∃ p : Pager MCOIMAPMessage, i.Refines p := by
  have hany : ∀ (_ : Pager MCOIMAPMessage) (_ : PagerAction MCOIMAPMessage), True :=
    fun _ _ => trivial
  obtain ⟨-, p, -, hR⟩ := exists_pager_run hw (fun _ _ hC => hC)
    (fun _ p _ _ _ a' _ _ _ _ => hany p a') hr
  exact ⟨p, hR⟩

end Inbox

end SecMail
