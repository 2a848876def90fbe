import SecMail.Master.Step

/-!
# Completions of earlier connections

The completion blocks of the controller read its instance variables when they run.  Connecting
again replaces the session but cancels nothing, and the login screen cancels the fetch at most, so
the check, the count and the fetch of an earlier connection still complete, under the new one.

* `Master.Quiet` : what the controller has to look like, and what has to be delivered, for such a
  completion to change nothing;
* `stale_inert_iff` : in a run whose late completions are all quiet, and only there, they leave
  the session, the validity, the count and the list alone and start no load; if they also find no
  load to end, the late completions of a run can be left out;
* `not_stale_inert` : a late "account is not valid" ends the session of the account logged in
  after it.
-/

namespace SecMail

variable {τ : Type*} {w : ℕ}

namespace Master

/-- Nothing the user sees has changed, and no load was started: nothing was requested, and no
flag was set. -/
structure Inert (m m' : Master τ w) : Prop where
  imapSession : m'.controller.imapSession = m.controller.imapSession
  accoutIsValid : m'.controller.accoutIsValid = m.controller.accoutIsValid
  countOfMsgInServer : m'.controller.countOfMsgInServer = m.controller.countOfMsgInServer
  aryMsgs : m'.controller.aryMsgs = m.controller.aryMsgs
  nextId : m'.nextId = m.nextId
  isLoading : m'.controller.isLoading = true → m.controller.isLoading = true

/-- A completion of an earlier connection leaves the new one alone. -/
def InertStep (m : Master τ w) (a : MasterAction τ) : Prop :=
  ∀ m', m.perform a = some m' → m.stale a = true → m.Inert m'

/-- What is delivered to the block changes nothing the user sees. -/
def Quiet (m : Master τ w) : Request w → Response → Prop
  | .checkAccount, .checkAccount _ true =>
    m.controller.accoutIsValid = true ∧ m.controller.imapSession = none ∧
      m.controller.isLoading = true
  | .checkAccount, .checkAccount order false =>
    m.controller.accoutIsValid = false ∧ m.controller.imapSession = none ∧
      ∀ aryMsgs ∈ m.storeMsg.store.searchAllSummaryOfMsg order,
        aryMsgs.map Msg.summary = m.controller.aryMsgs
  | .folderInfo number, .folderInfo info =>
    messageCount info = m.controller.countOfMsgInServer ∧
      (MIN (messageCount info) number = 0 ∨ m.controller.imapSession = none)
  | .fetchMessages _, .fetchMessages messages => messages.getD [] = []
  | _, _ => True

/-- There is no load that the block would mark as ended or whose fetch it would forget. -/
def Settled (m : Master τ w) : Request w → Response → Prop
  | .folderInfo number, .folderInfo info =>
    if MIN (messageCount info) number = 0 then m.controller.isLoading = false
    else m.controller.imapMsgFetchOp = none
  | .fetchMessages _, .fetchMessages _ =>
    m.controller.isLoading = false ∧ m.controller.imapMsgFetchOp = none
  | _, _ => True

/-- A completion of an earlier connection is quiet. -/
def QuietStep (m : Master τ w) : MasterAction τ → Prop
  | .complete id response => ∀ op ∈ m.operation id, op.connection < m.connection →
      m.Quiet op.request response
  | _ => True

/-- A completion of an earlier connection is quiet and ends no load. -/
def SilentStep (m : Master τ w) : MasterAction τ → Prop
  | .complete id response => ∀ op ∈ m.operation id, op.connection < m.connection →
      m.Quiet op.request response ∧ m.Settled op.request response
  | _ => True

instance [DecidableEq τ] (m : Master τ w) :
    (request : Request w) → (response : Response) → Decidable (m.Quiet request response)
  | .checkAccount, .checkAccount _ true => inferInstanceAs (Decidable (_ ∧ _ ∧ _))
  | .checkAccount, .checkAccount order false => inferInstanceAs (Decidable (_ ∧ _ ∧
      ∀ aryMsgs ∈ m.storeMsg.store.searchAllSummaryOfMsg order,
        aryMsgs.map Msg.summary = m.controller.aryMsgs))
  | .folderInfo _, .folderInfo _ => inferInstanceAs (Decidable (_ ∧ (_ ∨ _)))
  | .fetchMessages _, .fetchMessages messages => inferInstanceAs (Decidable (messages.getD [] = []))
  | .checkAccount, .folderInfo _ => isTrue trivial
  | .checkAccount, .fetchMessages _ => isTrue trivial
  | .folderInfo _, .checkAccount .. => isTrue trivial
  | .folderInfo _, .fetchMessages _ => isTrue trivial
  | .fetchMessages _, .checkAccount .. => isTrue trivial
  | .fetchMessages _, .folderInfo _ => isTrue trivial

instance (m : Master τ w) :
    (request : Request w) → (response : Response) → Decidable (m.Settled request response)
  | .folderInfo number, .folderInfo info => inferInstanceAs (Decidable
      (if MIN (messageCount info) number = 0 then m.controller.isLoading = false
        else m.controller.imapMsgFetchOp = none))
  | .fetchMessages _, .fetchMessages _ => inferInstanceAs (Decidable (_ ∧ _))
  | .checkAccount, _ => isTrue trivial
  | .folderInfo _, .checkAccount .. => isTrue trivial
  | .folderInfo _, .fetchMessages _ => isTrue trivial
  | .fetchMessages _, .checkAccount .. => isTrue trivial
  | .fetchMessages _, .folderInfo _ => isTrue trivial

instance [DecidableEq τ] (m : Master τ w) : (a : MasterAction τ) → Decidable (m.SilentStep a)
  | .complete id response => inferInstanceAs (Decidable (∀ op ∈ m.operation id,
      op.connection < m.connection →
        m.Quiet op.request response ∧ m.Settled op.request response))
  | .connectToServer _ => isTrue trivial
  | .setAccount => isTrue trivial
  | .accountHasFinishSetting _ => isTrue trivial
  | .loadMore => isTrue trivial
  | .store _ => isTrue trivial

variable {m m' : Master τ w} {a : MasterAction τ}

/-! ### One completion -/

section Blocks

variable {id : ℕ}

theorem inert_valid_iff {order : FetchOrder} :
    m.Inert ({ m.remove id with controller.accoutIsValid := true }.loadMsg 10) ↔
      m.Quiet .checkAccount (.checkAccount order true) := by
  have hsession : ({ m.remove id with controller.accoutIsValid := true } :
      Master τ w).controller.imapSession = m.controller.imapSession := rfl
  cases hσ : m.controller.imapSession with
  | none =>
    rw [loadMsg_of_none (hsession.trans hσ)]
    constructor
    · intro h
      exact ⟨h.accoutIsValid.symm, hσ, h.isLoading rfl⟩
    · rintro ⟨hv, -, hl⟩
      exact ⟨rfl, hv.symm, rfl, rfl, rfl, fun _ => hl⟩
  | some σ =>
    rw [loadMsg_of_some (hsession.trans hσ)]
    constructor
    · -- a request was made
      intro h
      exact absurd h.nextId (Nat.succ_ne_self _)
    · rintro ⟨-, hn, -⟩
      rw [hσ] at hn
      cases hn

theorem inert_notValid_iff {order : FetchOrder} {aryMsgs : List (SummaryDictionary τ)}
    (hs : m.storeMsg.store.searchAllSummaryOfMsg order = some aryMsgs) :
    m.Inert { m.remove id with
      controller.accoutIsValid := false
      controller.imapSession := none
      controller.aryMsgs := aryMsgs.map Msg.summary } ↔
      m.Quiet .checkAccount (.checkAccount order false) := by
  constructor
  · intro h
    refine ⟨h.accoutIsValid.symm, h.imapSession.symm, fun l hl => ?_⟩
    rw [hs] at hl
    cases hl
    exact h.aryMsgs
  · rintro ⟨hv, hσ, hl⟩
    exact ⟨hσ.symm, hv.symm, rfl, hl aryMsgs hs, rfl, fun h => h⟩

/-- With the count unchanged, the list is kept or there is nothing to drop. -/
theorem keepsMsgs_self : (if m.keepsMsgs m.controller.countOfMsgInServer then
    m.controller.aryMsgs else []) = m.controller.aryMsgs := by
  by_cases h : m.controller.aryMsgs = []
  · simp [h]
  · simp [keepsMsgs, h]

theorem inert_folderInfoCompleted_iff {number : BitVec w} {info : Option (BitVec 32)} :
    m.Inert ((m.remove id).folderInfoCompleted number info) ↔
      m.Quiet (.folderInfo number) (.folderInfo info) := by
  by_cases hn : MIN (messageCount info) number = 0
  · rw [folderInfoCompleted_of_zero hn]
    constructor
    · intro h
      exact ⟨h.countOfMsgInServer, .inl hn⟩
    · rintro ⟨hc, -⟩
      exact ⟨rfl, rfl, hc, rfl, rfl, fun h => nomatch h⟩
  · cases hσ : m.controller.imapSession with
    | none =>
      rw [folderInfoCompleted_of_none hn (m := m.remove id) hσ]
      constructor
      · intro h
        exact ⟨h.countOfMsgInServer, .inr hσ⟩
      · rintro ⟨hc, -⟩
        refine ⟨rfl, rfl, hc, ?_, rfl, fun h => h⟩
        show (if m.keepsMsgs (messageCount info) then m.controller.aryMsgs else []) = _
        rw [hc, keepsMsgs_self]
    | some σ =>
      rw [folderInfoCompleted_of_some hn (m := m.remove id) hσ]
      constructor
      · intro h
        exact absurd h.nextId (Nat.succ_ne_self _)
      · rintro ⟨-, h | h⟩
        · exact absurd h hn
        · rw [hσ] at h
          cases h

theorem inert_fetchCompleted_iff {range : MCORange} {messages : Option (List MCOIMAPMessage)} :
    m.Inert ((m.remove id).fetchCompleted messages) ↔
      m.Quiet (.fetchMessages range) (.fetchMessages messages) := by
  constructor
  · intro h
    by_contra hne
    obtain ⟨msgs, rfl⟩ : ∃ msgs, messages = some msgs := by
      cases messages with
      | none => exact absurd rfl hne
      | some msgs => exact ⟨msgs, rfl⟩
    have hne : msgs ≠ [] := hne
    have hl := congrArg List.length h.aryMsgs
    rw [fetchCompleted_of_ne_nil hne, List.length_insertionSort, List.length_append,
      List.length_map] at hl
    -- the list has grown
    have hpos := List.length_pos_of_ne_nil hne
    change msgs.length + m.controller.aryMsgs.length = m.controller.aryMsgs.length at hl
    omega
  · intro h
    rw [fetchCompleted_of_nil h]
    exact ⟨rfl, rfl, rfl, rfl, rfl, fun h => nomatch h⟩

end Blocks

/-- A completion is inert exactly if it is quiet. -/
theorem inert_iff_quiet {id : ℕ} {op : Operation w} {response : Response}
    (hop : m.operation id = some op) (hs : MasterStep m (.complete id response) m') :
    m.Inert m' ↔ m.Quiet op.request response := by
  cases hs with
  | valid hop' hr =>
    cases hop.symm.trans hop'
    rw [hr]
    exact inert_valid_iff
  | notValid hop' hr hs =>
    cases hop.symm.trans hop'
    rw [hr]
    exact inert_notValid_iff hs
  | folderInfo hop' hr info =>
    cases hop.symm.trans hop'
    rw [hr]
    exact inert_folderInfoCompleted_iff
  | fetchMessages hop' hr messages =>
    cases hop.symm.trans hop'
    rw [hr]
    exact inert_fetchCompleted_iff

/-- A quiet completion that ends no load only takes its operation off the list. -/
theorem eq_remove_of_silent {id : ℕ} {op : Operation w} {response : Response}
    (hop : m.operation id = some op) (hs : MasterStep m (.complete id response) m')
    (hq : m.Quiet op.request response) (hd : m.Settled op.request response) :
    m' = m.remove id := by
  cases hs with
  | valid hop' hr =>
    cases hop.symm.trans hop'
    rw [hr] at hq
    obtain ⟨hv, hσ, hl⟩ := hq
    rw [loadMsg_of_none (m := { m.remove id with controller.accoutIsValid := true }) hσ]
    rcases m with ⟨⟨_, _, _, _, _, _⟩, _, _, _, _⟩
    cases hv
    cases hl
    rfl
  | notValid hop' hr hs =>
    cases hop.symm.trans hop'
    rw [hr] at hq
    obtain ⟨hv, hσ, hl⟩ := hq
    rw [hl _ hs]
    rcases m with ⟨⟨_, _, _, _, _, _⟩, _, _, _, _⟩
    cases hv
    cases hσ
    rfl
  | @folderInfo _ _ number hop' hr info =>
    cases hop.symm.trans hop'
    rw [hr] at hq hd
    obtain ⟨hc, hq⟩ := hq
    by_cases hn : MIN (messageCount info) number = 0
    · have hd : m.controller.isLoading = false := by simpa only [Settled, if_pos hn] using hd
      rw [folderInfoCompleted_of_zero hn, hc]
      rcases m with ⟨⟨_, _, _, _, _, _⟩, _, _, _, _⟩
      cases hd
      rfl
    · have hd : m.controller.imapMsgFetchOp = none := by simpa only [Settled, if_neg hn] using hd
      have hσ := hq.resolve_left hn
      rw [folderInfoCompleted_of_none hn (m := m.remove id) hσ, hc]
      have hk := keepsMsgs_self (m := m.remove id)
      rw [show (m.remove id).controller = m.controller from rfl] at hk
      rw [show (m.remove id).controller = m.controller from rfl, hk]
      rcases m with ⟨⟨_, _, _, _, _, _⟩, _, _, _, _⟩
      cases hd
      rfl
  | fetchMessages hop' hr messages =>
    cases hop.symm.trans hop'
    rw [hr] at hq hd
    obtain ⟨hl, hf⟩ := hd
    rw [fetchCompleted_of_nil hq]
    rcases m with ⟨⟨_, _, _, _, _, _⟩, _, _, _, _⟩
    cases hl
    cases hf
    rfl

theorem inertStep_iff_quietStep (h : m.perform a = some m') : m.InertStep a ↔ m.QuietStep a := by
  cases a with
  | complete id response =>
    obtain ⟨op, hop, hm⟩ := Option.bind_eq_some_iff.1 h
    have hiff := inert_iff_quiet hop (step_of_perform h)
    have hstale : m.stale (.complete id response) = decide (op.connection < m.connection) := by
      simp [stale, hop]
    constructor
    · intro hi op' hop' hc
      rw [Option.mem_def, hop] at hop'
      cases hop'
      exact hiff.1 (hi m' h (by rw [hstale]; exact decide_eq_true hc))
    · intro hq m₁ h₁ hs
      rw [h] at h₁
      cases h₁
      rw [hstale] at hs
      exact hiff.2 (hq op hop (of_decide_eq_true hs))
  | _ => exact ⟨fun _ => trivial, fun _ _ _ hs => nomatch hs⟩

/-! ### Leaving late completions out -/

/-- The controller without the operations numbered in `ids`. -/
def forget (ids : List ℕ) (m : Master τ w) : Master τ w :=
  { m with operations := m.operations.filter fun op => op.id ∉ ids }

section Forget

variable {ids : List ℕ}

theorem forget_start (h : m.nextId ∉ ids) (σ : MCOIMAPSession) (request : Request w) :
    (m.forget ids).start σ request = (m.start σ request).forget ids := by
  simp [forget, start, List.filter_append, h]

theorem forget_remove (id : ℕ) : (m.forget ids).remove id = (m.remove id).forget ids := by
  simp [forget, remove, List.filter_filter, Bool.and_comm]

theorem remove_eq_forget (id : ℕ) : (m.forget ids).remove id = m.forget (id :: ids) := by
  simp [forget, remove, List.filter_filter]

theorem forget_setAccount : (m.forget ids).setAccount = m.setAccount.forget ids := by
  simp [forget, setAccount, List.filter_filter, Bool.and_comm]

theorem forget_loadMsg (h : m.nextId ∉ ids) (number : BitVec w) :
    (m.forget ids).loadMsg number = (m.loadMsg number).forget ids := by
  cases hσ : m.controller.imapSession with
  | none => rw [loadMsg_of_none hσ, loadMsg_of_none (m := m.forget ids) hσ]; rfl
  | some σ =>
    rw [loadMsg_of_some hσ, loadMsg_of_some (m := m.forget ids) hσ]
    exact forget_start (m := { m with controller.isLoading := true }) h σ _

theorem forget_connectToServer (h : m.nextId ∉ ids) (σ : MCOIMAPSession) :
    (m.forget ids).connectToServer σ = (m.connectToServer σ).forget ids :=
  forget_start (m := { m with
    controller.imapSession := some σ
    storeMsg.store.imapSession := some σ
    connection := m.connection + 1 }) h σ _

theorem forget_accountHasFinishSetting (h : m.nextId ∉ ids) (σ : MCOIMAPSession) :
    (m.forget ids).accountHasFinishSetting σ = (m.accountHasFinishSetting σ).forget ids := by
  show (if _ then _ else _) = (if _ then _ else _ : Master τ w).forget ids
  rw [forget_connectToServer h, apply_ite (forget ids)]
  rfl

theorem forget_loadMore (h : m.nextId ∉ ids) :
    (m.forget ids).loadMore = m.loadMore.forget ids := by
  show (if _ then _ else _) = (if _ then _ else _ : Master τ w).forget ids
  rw [forget_loadMsg h, apply_ite (forget ids)]
  rfl

theorem forget_folderInfoCompleted (h : m.nextId ∉ ids) (number : BitVec w)
    (info : Option (BitVec 32)) :
    (m.forget ids).folderInfoCompleted number info =
      (m.folderInfoCompleted number info).forget ids := by
  by_cases hn : MIN (messageCount info) number = 0
  · rw [folderInfoCompleted_of_zero hn, folderInfoCompleted_of_zero hn]
    rfl
  · cases hσ : m.controller.imapSession with
    | none =>
      rw [folderInfoCompleted_of_none hn hσ, folderInfoCompleted_of_none hn (m := m.forget ids) hσ]
      rfl
    | some σ =>
      rw [folderInfoCompleted_of_some hn hσ, folderInfoCompleted_of_some hn (m := m.forget ids) hσ]
      simp [forget, List.filter_append, h, keepsMsgs, fetchRange]

theorem forget_fetchCompleted (messages : Option (List MCOIMAPMessage)) :
    (m.forget ids).fetchCompleted messages = (m.fetchCompleted messages).forget ids := by
  rcases messages with _ | _ | ⟨msg, messages⟩ <;> rfl

theorem forget_respond (h : m.nextId ∉ ids) (request : Request w) (response : Response) :
    (m.forget ids).respond request response = (m.respond request response).map (forget ids) := by
  rcases request with _ | number | range <;> rcases response with ⟨order, valid⟩ | info | messages
  · cases valid with
    | true =>
      exact congrArg some
        (forget_loadMsg (m := { m with controller.accoutIsValid := true }) h 10)
    | false =>
      show (m.storeMsg.store.searchAllSummaryOfMsg order).map _ =
        ((m.storeMsg.store.searchAllSummaryOfMsg order).map _).map _
      rw [Option.map_map]
      rfl
  · rfl
  · rfl
  · rfl
  · exact congrArg some (forget_folderInfoCompleted h number info)
  · rfl
  · rfl
  · rfl
  · exact congrArg some (forget_fetchCompleted messages)

/-- The operations left out are not found. -/
theorem not_mem_of_operation_forget {id : ℕ} {op : Operation w}
    (h : (m.forget ids).operation id = some op) : id ∉ ids := by
  obtain ⟨hop, rfl⟩ := mem_of_operation h
  simpa using (List.mem_filter.1 hop).2

theorem operation_forget {id : ℕ} (h : id ∉ ids) :
    (m.forget ids).operation id = m.operation id := by
  unfold operation forget
  rw [List.find?_filter]
  congr 1
  funext op
  by_cases hid : op.id = id
  · simp [hid, h]
  · simp [hid]

/-- The operations left out make no difference to the actions of the others. -/
theorem forget_perform (h : m.nextId ∉ ids)
    (ha : ∀ id response, a = .complete id response → id ∉ ids) :
    (m.forget ids).perform a = (m.perform a).map (forget ids) := by
  have hstore : ∀ a, ((storeSystem τ).next m.storeMsg a).map
      (fun r => { m.forget ids with storeMsg := r.1 }) =
      (((storeSystem τ).next m.storeMsg a).map fun r => { m with storeMsg := r.1 }).map
        (forget ids) := by
    intro a
    rw [Option.map_map]
    rfl
  cases a with
  | connectToServer σ => exact congrArg some (forget_connectToServer h σ)
  | setAccount => exact congrArg some forget_setAccount
  | accountHasFinishSetting σ => exact congrArg some (forget_accountHasFinishSetting h σ)
  | loadMore => exact congrArg some (forget_loadMore h)
  | complete id response =>
    show ((m.forget ids).operation id).bind _ = ((m.operation id).bind _).map _
    rw [operation_forget (ha id response rfl), Option.map_bind]
    congr 1
    funext op
    rw [forget_remove]
    exact forget_respond (m := m.remove id) h op.request response
  | store a =>
    cases a with
    | setImapSession σ => rfl
    | restart => rfl
    | searchPlaintextOfMsg order msg => exact hstore (.searchPlaintextOfMsg order msg)
    | searchHtmlOfMsg order msg => exact hstore (.searchHtmlOfMsg order msg)
    | complete k t => exact hstore (.complete k t)
    | dicCached => exact hstore .dicCached
    | setDelegate d => exact hstore (.setDelegate d)

theorem forget_stale (ha : ∀ id response, a = .complete id response → id ∉ ids) :
    (m.forget ids).stale a = m.stale a := by
  cases a with
  | complete id response =>
    show ((m.forget ids).operation id).any _ = (m.operation id).any _
    rw [operation_forget (ha id response rfl)]
    rfl
  | _ => rfl

end Forget

theorem nextId_le (hs : MasterStep m a m') : m.nextId ≤ m'.nextId := by
  have hload : ∀ (m : Master τ w) number, m.nextId ≤ (m.loadMsg number).nextId := by
    intro m number
    cases hσ : m.controller.imapSession with
    | none => rw [loadMsg_of_none hσ]
    | some σ => rw [loadMsg_of_some hσ]; exact Nat.le_succ _
  cases hs with
  | connectToServer => exact Nat.le_succ _
  | setAccount => exact le_rfl
  | sameAccount => exact le_rfl
  | otherAccount => exact Nat.le_succ _
  | loadMore => exact hload m _
  | noMore => exact le_rfl
  | @valid id => exact hload { m.remove id with controller.accoutIsValid := true } 10
  | notValid => exact le_rfl
  | @folderInfo id _ number _ _ info =>
    by_cases hn : MIN (messageCount info) number = 0
    · rw [folderInfoCompleted_of_zero hn]; exact le_rfl
    · cases hσ : m.controller.imapSession with
      | none => rw [folderInfoCompleted_of_none hn (m := m.remove id) hσ]; exact le_rfl
      | some σ => rw [folderInfoCompleted_of_some hn (m := m.remove id) hσ]; exact Nat.le_succ _
  | @fetchMessages id _ _ _ _ messages =>
    rcases messages with _ | _ | ⟨msg, messages⟩ <;> exact le_rfl
  | store => exact le_rfl

end Master

/-- The events of a history, late completions left out. -/
def live (h : List (MasterAction τ × Bool)) : List (MasterAction τ × Bool) :=
  h.filter fun e => !e.2

section Live

open Master

variable {c : NSManagedObjectContext τ} {h : List (MasterAction τ × Bool)}
  {m m' m₁ : Master τ w} {a : MasterAction τ}

/-- `m` is `m₁` without some of the operations that `m₁` has in progress. -/
def Lags (m m₁ : Master τ w) : Prop := ∃ ids, m = m₁.forget ids ∧ ∀ id ∈ ids, id < m₁.nextId

/-- A silent late completion takes its operation off the list and does no more. -/
theorem Lags.late (hl : Lags m m₁) (hn : m.Numbered) (hC : SilentStep m a)
    (hs : (masterSystem τ w).next m a = some (m', true)) : Lags m' m₁ := by
  obtain ⟨ids, rfl, hids⟩ := hl
  obtain ⟨hm, ho⟩ := step_of_next hs
  cases a with
  | complete id response =>
    obtain ⟨op, hop, hresp⟩ := Option.bind_eq_some_iff.1 hm
    have hlate : op.connection < (m₁.forget ids).connection := by
      simpa [stale, hop] using ho
    obtain ⟨hq, hd⟩ := hC op hop hlate
    have hm' := eq_remove_of_silent hop (respond_cases hop hresp) hq hd
    rw [remove_eq_forget] at hm'
    obtain ⟨hmem, rfl⟩ := mem_of_operation hop
    refine ⟨op.id :: ids, hm', List.forall_mem_cons.2 ⟨hn op hmem, hids⟩⟩
  | _ => cases ho

/-- Every other step can be made without the operations left out. -/
theorem Lags.live (hl : Lags m m₁) (hs : (masterSystem τ w).next m a = some (m', false)) :
    ∃ m₁', (masterSystem τ w).next m₁ a = some (m₁', false) ∧ Lags m' m₁' := by
  obtain ⟨ids, rfl, hids⟩ := hl
  obtain ⟨hm, ho⟩ := step_of_next hs
  have ha : ∀ id response, a = .complete id response → id ∉ ids := by
    rintro id response rfl
    obtain ⟨op, hop, -⟩ := Option.bind_eq_some_iff.1 hm
    exact not_mem_of_operation_forget hop
  have hnext : m₁.nextId ∉ ids := fun hmem => lt_irrefl _ (hids _ hmem)
  rw [forget_perform hnext ha] at hm
  rw [forget_stale ha] at ho
  obtain ⟨m₁', hm₁, rfl⟩ := Option.map_eq_some_iff.1 hm
  refine ⟨m₁', ?_, ids, rfl, fun id hid => ?_⟩
  · show (m₁.perform a).map _ = _
    rw [hm₁, ← ho]
    rfl
  · exact lt_of_lt_of_le (hids id hid) (nextId_le (step_of_perform hm₁))

theorem numbered_of_run {C : Master τ w → MasterAction τ → Prop}
    (hr : (masterSystem τ w).RunWhere C (.init c) h m) : m.Numbered := by
  induction hr with
  | nil => simp [Numbered, Master.init]
  | snoc _ _ hs hn => exact hn.step (step_of_perform (step_of_next hs).1)

/-- **Silent late completions can be left out**: without them the run ends in the same state, up
to operations in progress. -/
theorem run_live (hr : (masterSystem τ w).RunWhere SilentStep (.init c) h m) :
    ∃ m₁ ids, (masterSystem τ w).Run (.init c) (live h) m₁ ∧ m = m₁.forget ids := by
  have hlag : ∃ m₁, (masterSystem τ w).Run (.init c) (live h) m₁ ∧ Lags m m₁ := by
    induction hr with
    | nil => exact ⟨.init c, .nil, [], by simp [forget, Master.init], by simp⟩
    | @snoc h m m' a o hr hC hs ih =>
      obtain ⟨m₁, hr₁, hl⟩ := ih
      rw [live, List.filter_append]
      cases o with
      | true => exact ⟨m₁, by simpa [live] using hr₁, hl.late (numbered_of_run hr) hC hs⟩
      | false =>
        obtain ⟨m₁', hs₁, hl'⟩ := hl.live hs
        exact ⟨m₁', hr₁.snoc trivial hs₁, hl'⟩
  obtain ⟨m₁, hr₁, ids, hm, -⟩ := hlag
  exact ⟨m₁, ids, hr₁, hm⟩

end Live

/-- **Late completions are inert exactly if they are quiet**, in every run; and where they are
silent, two runs that differ in them only leave the controller and the store the same. -/
theorem stale_inert_iff (c : NSManagedObjectContext τ) :
    (∀ h (m : Master τ w), (masterSystem τ w).RunWhere Master.InertStep (.init c) h m ↔
      (masterSystem τ w).RunWhere Master.QuietStep (.init c) h m) ∧
    ∀ h h' (m m' : Master τ w), (masterSystem τ w).RunWhere Master.SilentStep (.init c) h m →
      (masterSystem τ w).RunWhere Master.SilentStep (.init c) h' m' → live h = live h' →
      m.controller = m'.controller ∧ m.storeMsg = m'.storeMsg := by
  refine ⟨fun h m => ⟨fun hr => ?_, fun hr => ?_⟩, ?_⟩
  · exact hr.mono_of_next fun s a o s' hs =>
      (Master.inertStep_iff_quietStep (Master.step_of_next hs).1).1
  · exact hr.mono_of_next fun s a o s' hs =>
      (Master.inertStep_iff_quietStep (Master.step_of_next hs).1).2
  · intro h h' m m' hr hr' hlive
    obtain ⟨m₁, ids, hr₁, rfl⟩ := run_live hr
    obtain ⟨m₂, ids', hr₂, rfl⟩ := run_live hr'
    rw [hlive] at hr₁
    cases hr₁.unique hr₂
    exact ⟨rfl, rfl⟩

/-- Logging in again while the count of an empty mailbox is on its way. -/
theorem stale_inert_emptyMailbox :
    ∃ h h' : List (MasterAction String × Bool), ∃ m m' : Master String 32,
      (masterSystem String 32).RunWhere Master.InertStep (.init .empty) h' m' ∧
        h.map Prod.fst = [.connectToServer (account "first"),
          .complete 0 (.checkAccount .insertion true),
          .accountHasFinishSetting (account "second"),
          .complete 2 (.checkAccount .insertion true), .complete 3 (.folderInfo (some 0))] ∧
        h' = h ++ [(.complete 1 (.folderInfo (some 0)), true)] ∧
        m.controller = m'.controller ∧ m.storeMsg = m'.storeMsg := by
  have hiff := stale_inert_iff (w := 32) (NSManagedObjectContext.empty (τ := String))
  let late : MasterAction String := .complete 1 (.folderInfo (some 0))
  obtain ⟨h, m, -, hactions, ⟨hstale, hsilent, hm⟩, hr⟩ :=
    (masterSystem String 32).exists_run_of_actions Master.SilentStep (.init .empty)
      [.connectToServer (account "first"), .complete 0 (.checkAccount .insertion true),
        .accountHasFinishSetting (account "second"), .complete 2 (.checkAccount .insertion true),
        .complete 3 (.folderInfo (some 0))]
      (P := fun _ m => m.stale late = true ∧ m.SilentStep late ∧ (m.perform late).isSome = true)
      (by decide) fun _ _ hr => hr
  obtain ⟨m', hp⟩ := Option.isSome_iff_exists.1 hm
  have hs : (masterSystem String 32).next m late = some (m', true) := by
    show (m.perform late).map _ = _
    rw [hp, ← hstale]
    rfl
  have hr' := hr.snoc hsilent hs
  have hquiet : (masterSystem String 32).RunWhere Master.QuietStep (.init .empty) _ m' :=
    hr'.mono fun m a hC => by
      cases a with
      | complete id response => exact fun op hop hlate => (hC op hop hlate).1
      | _ => exact trivial
  refine ⟨h, _, m, m', (hiff.1 _ m').2 hquiet, hactions, rfl, hiff.2 h _ m m' hr hr' ?_⟩
  simp [live]

/-- An account check that fails late ends the session of the account logged in after it. -/
theorem not_stale_inert :
    ¬ ∀ (c : NSManagedObjectContext String) (h : List (MasterAction String × Bool))
      (m : Master String 32), (masterSystem String 32).Run (.init c) h m →
        (masterSystem String 32).RunWhere Master.InertStep (.init c) h m := by
  intro hall
  let late : MasterAction String := .complete 0 (.checkAccount .insertion false)
  obtain ⟨h, m, hr, hstale, hm⟩ := (masterSystem String 32).exists_run_of_exec
    (fun _ _ => True) (.init .empty)
    [.connectToServer (account "first"), .setAccount,
      .accountHasFinishSetting (account "second"), .complete 1 (.checkAccount .insertion true)]
    (fun _ m => m.stale late = true ∧ (m.perform late).any (fun m' =>
      decide (m'.controller.imapSession ≠ m.controller.imapSession)) = true)
    (by decide)
  obtain ⟨m', hp, hne⟩ := (Option.any_eq_true _ _).1 hm
  have hs : (masterSystem String 32).next m late = some (m', true) := by
    show (m.perform late).map _ = _
    rw [hp, ← hstale]
    rfl
  obtain ⟨m₀, hr₀, hinert, hs₀⟩ := (hall _ _ _ (hr.snoc trivial hs)).of_snoc
  cases hr.unique hr₀
  exact of_decide_eq_true hne (hinert m' hp hstale).imapSession

end SecMail
