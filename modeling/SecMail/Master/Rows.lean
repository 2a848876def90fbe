import SecMail.Master.Step

/-!
# Rows of the table

`aryMsgs` is an untyped list.  A load puts messages into it, a failed account check the
dictionaries of the offline list, and `accoutIsValid` tells the table which of the two to expect.
A cell or a message screen that takes one for the other raises an exception.

* `Navigation` adds to the controller the message screens whose views are not loaded yet;
  `tableSystem` shows how each drawing, selection and loading of a view uses the row, as a list of
  `RowUse`;
* `rows_fit_iff` : the runs in which all rows are what `accoutIsValid` says and no row is used as
  what it is not, by a condition on their steps;
* `not_rows_fit` : a login after a failed account check leaves the offline list under a flag that
  says that it holds messages.

`chooseAttachment:` is empty, so no row reaches `searchAttachmentOfMsg:fileName:`.
-/

namespace SecMail

variable {τ : Type*} {w : ℕ}

/-- `[msg isKindOfClass:[MCOIMAPMessage class]]` -/
def Msg.isImap : Msg τ → Bool
  | .imap _ => true
  | .summary _ => false

/-- A use of a row: a message that an `MCOIMAPMessage` understands, or `objectForKey:`. -/
inductive RowUse (τ : Type*)
  | message (msg : Msg τ)
  | dictionary (msg : Msg τ)

namespace RowUse

/-- The row understands how it is used. -/
def Fits : RowUse τ → Prop
  | message msg => msg.isImap = true
  | dictionary msg => msg.isImap = false

instance : (u : RowUse τ) → Decidable u.Fits
  | message msg => inferInstanceAs (Decidable (msg.isImap = true))
  | dictionary msg => inferInstanceAs (Decidable (msg.isImap = false))

end RowUse

/-- `searchHtmlOfMsg:` reads the uid of a message, and the value of `szUid` of a dictionary. -/
def Msg.keyUse (msg : Msg τ) : RowUse τ := if msg.isImap then .message msg else .dictionary msg

theorem Msg.keyUse_fits (msg : Msg τ) : msg.keyUse.Fits := by
  cases msg <;> rfl

/-- The controller and the message screens that are pushed but not loaded. -/
structure Navigation (τ : Type*) (w : ℕ) where
  master : Master τ w
  /-- The messages of the screens whose views are not loaded yet. -/
  pushed : List (Msg τ)

/-- What can happen to the table and the screens. -/
inductive TableAction (τ : Type*)
  /-- `-tableView:cellForRowAtIndexPath:` in section 0. -/
  | cellForRow (order : FetchOrders) (row : ℕ)
  /-- `-tableView:didSelectRowAtIndexPath:` in section 0. -/
  | didSelectRow (row : ℕ)
  /-- `-viewDidLoad` of the `k`-th pushed screen, with number `screen`. -/
  | viewDidLoad (order : FetchOrders) (screen k : ℕ)
  /-- The controller does something else. -/
  | master (action : MasterAction τ)

namespace Navigation

/-- The table when its view is loaded, in front of a context. -/
def init (c : NSManagedObjectContext τ) : Navigation τ w := ⟨.init c, []⟩

variable (n : Navigation τ w)

/-- The store after a search. -/
def searched (p : Process τ) (r : Reply τ) : Navigation τ w :=
  { n with master.storeMsg := (p.reply r).1 }

/-- The cell of a row; a dictionary that is taken for a message raises an exception. -/
def cellForRow (order : FetchOrders) (row : ℕ) : Option (Navigation τ w × List (RowUse τ)) :=
  n.master.controller.aryMsgs[row]?.map fun msg =>
    if n.master.controller.accoutIsValid then
      match msg with
      | .imap imapMsg =>
        let p := n.master.storeMsg
        (n.searched p (p.store.searchPlaintextOfMsg order (some imapMsg)), [.message msg])
      | .summary _ => (n, [.message msg])
    else (n, [.dictionary msg])

/-- The selection of a row pushes a screen with it. -/
def didSelectRow (row : ℕ) : Option (Navigation τ w × List (RowUse τ)) :=
  n.master.controller.aryMsgs[row]?.map fun msg => ({ n with pushed := n.pushed ++ [msg] }, [])

/-- The loading of a screen's view.  Only the server branch of `searchHtmlOfMsg:` returns `nil`
for a row, and it takes the row for a message. -/
def viewDidLoad (order : FetchOrders) (screen k : ℕ) :
    Option (Navigation τ w × List (RowUse τ)) :=
  n.pushed[k]?.map fun msg =>
    let p := { n.master.storeMsg with store.delegate := some screen }
    let r := p.store.searchHtmlOfMsg order (some msg)
    ({ n.searched p r with pushed := n.pushed.eraseIdx k },
      msg.keyUse :: if r.returned.isSome then [] else [.message msg])

end Navigation

/-- The table as a transition system, which shows the uses of rows.  Only cells and screens search
the store. -/
def tableSystem (τ : Type*) (w : ℕ) :
    System (Navigation τ w) (TableAction τ) (List (RowUse τ)) where
  next n
    | .cellForRow order row => n.cellForRow order row
    | .didSelectRow row => n.didSelectRow row
    | .viewDidLoad order screen k => n.viewDidLoad order screen k
    | .master (.store (.searchPlaintextOfMsg _ _)) => none
    | .master (.store (.searchHtmlOfMsg _ _)) => none
    | .master a => (n.master.perform a).map fun m => ({ n with master := m }, [])

/-- A history of the table. -/
abbrev TableHistory (τ : Type*) := List (TableAction τ × List (RowUse τ))

/-- Every row that was used fitted its use. -/
def TableHistory.Fits (h : TableHistory τ) : Prop := ∀ e ∈ h, ∀ u ∈ e.2, u.Fits

instance (h : TableHistory τ) : Decidable h.Fits :=
  inferInstanceAs (Decidable (∀ e ∈ h, ∀ u ∈ e.2, u.Fits))

theorem TableHistory.fits_concat {h : TableHistory τ} {a : TableAction τ} {us : List (RowUse τ)} :
    TableHistory.Fits (h ++ [(a, us)]) ↔ h.Fits ∧ ∀ u ∈ us, u.Fits := by
  rw [Fits, List.forall_mem_append, List.forall_mem_singleton]
  rfl

/-! ### Conditions -/

namespace Master

/-- Every row is a message if the account is valid, and a dictionary if it is not. -/
def RowsFit (m : Master τ w) : Prop :=
  ∀ msg ∈ m.controller.aryMsgs, msg.isImap = m.controller.accoutIsValid

/-- The condition on a completion. -/
def KeepsRowsOn (m : Master τ w) : Request w → Response → Prop
  | .checkAccount, .checkAccount _ true => ∀ msg ∈ m.controller.aryMsgs, msg.isImap = true
  | .fetchMessages _, .fetchMessages messages =>
    messages.getD [] ≠ [] → m.controller.accoutIsValid = true
  | _, _ => True

/-- The condition on a step of the controller: an account check succeeds while no dictionary is
listed, and a fetch brings messages while the account is valid. -/
def KeepsRows (m : Master τ w) : MasterAction τ → Prop
  | .complete id response => ∀ op ∈ m.operation id, m.KeepsRowsOn op.request response
  | _ => True

instance (m : Master τ w) : Decidable m.RowsFit :=
  inferInstanceAs (Decidable (∀ msg ∈ m.controller.aryMsgs, _ = _))

instance (m : Master τ w) :
    (request : Request w) → (response : Response) → Decidable (m.KeepsRowsOn request response)
  | .checkAccount, .checkAccount _ true =>
    inferInstanceAs (Decidable (∀ msg ∈ m.controller.aryMsgs, _ = _))
  | .checkAccount, .checkAccount _ false => isTrue trivial
  | .checkAccount, .folderInfo _ => isTrue trivial
  | .checkAccount, .fetchMessages _ => isTrue trivial
  | .folderInfo _, _ => isTrue trivial
  | .fetchMessages _, .checkAccount .. => isTrue trivial
  | .fetchMessages _, .folderInfo _ => isTrue trivial
  | .fetchMessages _, .fetchMessages messages =>
    inferInstanceAs (Decidable (messages.getD [] ≠ [] → _ = _))

instance (m : Master τ w) : (a : MasterAction τ) → Decidable (m.KeepsRows a)
  | .complete id response =>
    inferInstanceAs (Decidable (∀ op ∈ m.operation id, m.KeepsRowsOn op.request response))
  | .connectToServer _ => isTrue trivial
  | .setAccount => isTrue trivial
  | .accountHasFinishSetting _ => isTrue trivial
  | .loadMore => isTrue trivial
  | .store _ => isTrue trivial

end Master

namespace Navigation

/-- The view of the dictionary `msg` finds its HTML in the cache or in the database. -/
def HasHtml (n : Navigation τ w) (order : FetchOrders) (msg : Msg τ) : Prop :=
  ¬ ((n.master.storeMsg.store.cached msg.szUid).bind ADZCached.szHtml = none ∧
    n.master.storeMsg.store.storedHtml order msg.szUid = none)

/-- The condition on a step: that on a step of the controller, and the screen of a dictionary is
loaded while its HTML is there. -/
def KeepsRows (n : Navigation τ w) : TableAction τ → Prop
  | .master a => n.master.KeepsRows a
  | .viewDidLoad order _ k => ∀ msg ∈ n.pushed[k]?, msg.isImap = false → n.HasHtml order msg
  | _ => True

instance (n : Navigation τ w) (order : FetchOrders) (msg : Msg τ) :
    Decidable (n.HasHtml order msg) :=
  inferInstanceAs (Decidable (¬ (_ ∧ _)))

instance (n : Navigation τ w) : (a : TableAction τ) → Decidable (n.KeepsRows a)
  | .master a => inferInstanceAs (Decidable (n.master.KeepsRows a))
  | .viewDidLoad order _ k =>
    inferInstanceAs (Decidable (∀ msg ∈ n.pushed[k]?, _ = _ → n.HasHtml order msg))
  | .cellForRow _ _ => isTrue trivial
  | .didSelectRow _ => isTrue trivial

end Navigation

/-! ### One step -/

/-- The steps of the table, by action. -/
inductive TableStep (n : Navigation τ w) :
    TableAction τ → Navigation τ w → List (RowUse τ) → Prop
  | cellForRow {order : FetchOrders} {row : ℕ} {msg : Msg τ} {p : Process τ}
      (hmem : msg ∈ n.master.controller.aryMsgs) :
      TableStep n (.cellForRow order row) { n with master.storeMsg := p }
        [if n.master.controller.accoutIsValid then .message msg else .dictionary msg]
  | didSelectRow {row : ℕ} {pushed : List (Msg τ)} :
      TableStep n (.didSelectRow row) { n with pushed } []
  | viewDidLoad {order : FetchOrders} {screen k : ℕ} {msg : Msg τ} {p : Process τ}
      {pushed : List (Msg τ)} {us : List (RowUse τ)} (hk : n.pushed[k]? = some msg)
      (hus : (∀ u ∈ us, u.Fits) ↔ (msg.isImap = false → n.HasHtml order msg)) :
      TableStep n (.viewDidLoad order screen k) { n with master.storeMsg := p, pushed } us
  | master {a : MasterAction τ} {m : Master τ w} (hs : MasterStep n.master a m) :
      TableStep n (.master a) { n with master := m } []

namespace Navigation

variable {n n' : Navigation τ w} {a : TableAction τ} {us : List (RowUse τ)}

/-- A view uses its row as what it is, up to the server branch. -/
theorem fits_viewDidLoad_iff {order : FetchOrders} {screen : ℕ} {msg : Msg τ} {r : Reply τ}
    (hr : r = ({ n.master.storeMsg.store with delegate := some screen } :
      ADZStoreMsgToCoreData τ).searchHtmlOfMsg order (some msg)) :
    (∀ u ∈ msg.keyUse :: (if r.returned.isSome then [] else [RowUse.message msg]), u.Fits) ↔
      (msg.isImap = false → n.HasHtml order msg) := by
  subst hr
  rw [List.forall_mem_cons]
  by_cases hhtml : n.HasHtml order msg
  · obtain ⟨t, store, heq, -⟩ := ADZStoreMsgToCoreData.searchHtmlOfMsg_of_some
      (s := { n.master.storeMsg.store with delegate := some screen }) hhtml
    rw [heq]
    exact ⟨fun _ _ => hhtml, fun _ => ⟨msg.keyUse_fits, by simp⟩⟩
  · obtain ⟨hc, hf⟩ := not_not.1 hhtml
    rw [ADZStoreMsgToCoreData.searchHtmlOfMsg_of_none
      (s := { n.master.storeMsg.store with delegate := some screen }) hc hf]
    constructor
    · rintro ⟨-, huse⟩ hsummary
      have himap : msg.isImap = true := huse (.message msg) (List.mem_singleton_self _)
      rw [hsummary] at himap
      cases himap
    · intro hno
      refine ⟨msg.keyUse_fits, fun u hu => ?_⟩
      obtain rfl := List.mem_singleton.1 hu
      cases himap : msg.isImap with
      | true => exact himap
      | false => exact absurd (hno himap) hhtml

theorem tableStep_of_next (h : (tableSystem τ w).next n a = some (n', us)) :
    TableStep n a n' us := by
  have hmaster : ∀ {a}, (n.master.perform a).map (fun m =>
      (({ n with master := m } : Navigation τ w), ([] : List (RowUse τ)))) = some (n', us) →
      TableStep n (.master a) n' us := by
    intro a h
    obtain ⟨m, hm, h⟩ := Option.map_eq_some_iff.1 h
    cases h
    exact .master (Master.step_of_perform hm)
  cases a with
  | cellForRow order row =>
    obtain ⟨msg, hrow, h⟩ := Option.map_eq_some_iff.1 h
    have hmem := List.mem_of_getElem? hrow
    have hstep := @TableStep.cellForRow _ _ n order row msg
    cases hvalid : n.master.controller.accoutIsValid with
    | true =>
      rw [hvalid] at h hstep
      cases msg with
      | imap imapMsg => cases h; exact hstep hmem
      | summary dictionary => cases h; exact hstep hmem
    | false =>
      rw [hvalid] at h hstep
      cases h
      exact hstep hmem
  | didSelectRow row =>
    obtain ⟨msg, -, h⟩ := Option.map_eq_some_iff.1 h
    cases h
    exact .didSelectRow
  | viewDidLoad order screen k =>
    obtain ⟨msg, hk, h⟩ := Option.map_eq_some_iff.1 h
    cases h
    exact .viewDidLoad hk (fits_viewDidLoad_iff rfl)
  | master a =>
    cases a with
    | store a =>
      cases a with
      | searchPlaintextOfMsg order m => cases h
      | searchHtmlOfMsg order msg => cases h
      | complete k t => exact hmaster h
      | dicCached => exact hmaster h
      | setImapSession σ => exact hmaster h
      | setDelegate d => exact hmaster h
      | restart => exact hmaster h
    | connectToServer σ => exact hmaster h
    | setAccount => exact hmaster h
    | accountHasFinishSetting σ => exact hmaster h
    | loadMore => exact hmaster h
    | complete id response => exact hmaster h

end Navigation

namespace Master

variable {m m' : Master τ w} {a : MasterAction τ}

theorem RowsFit.folderInfoCompleted (h : m.RowsFit) (number : BitVec w)
    (info : Option (BitVec 32)) : (m.folderInfoCompleted number info).RowsFit := by
  by_cases hn : MIN (messageCount info) number = 0
  · rw [folderInfoCompleted_of_zero hn]
    exact h
  · have hkept : ∀ msg ∈ (if m.keepsMsgs (messageCount info) then m.controller.aryMsgs else []),
        msg.isImap = m.controller.accoutIsValid := by
      intro msg hmsg
      split_ifs at hmsg
      · exact h msg hmsg
      · cases hmsg
    cases hσ : m.controller.imapSession with
    | none => rw [folderInfoCompleted_of_none hn hσ]; exact hkept
    | some σ => rw [folderInfoCompleted_of_some hn hσ]; exact hkept

/-- Fetched messages fit exactly if the account is valid. -/
theorem rowsFit_fetchCompleted_iff (h : m.RowsFit) (messages : Option (List MCOIMAPMessage)) :
    (m.fetchCompleted messages).RowsFit ↔
      (messages.getD [] ≠ [] → m.controller.accoutIsValid = true) := by
  by_cases hnil : messages.getD [] = []
  · rw [fetchCompleted_of_nil hnil]
    exact ⟨fun _ hne => absurd hnil hne, fun _ => h⟩
  · obtain ⟨messages, rfl⟩ : ∃ l, messages = some l := by
      cases messages with
      | none => exact absurd rfl hnil
      | some l => exact ⟨l, rfl⟩
    rw [Option.getD_some] at hnil ⊢
    rw [fetchCompleted_of_ne_nil hnil]
    have hmem : ∀ msg, msg ∈ (messages.map Msg.imap ++ m.controller.aryMsgs).insertionSort
        Msg.NotEarlier ↔ msg ∈ messages.map Msg.imap ∨ msg ∈ m.controller.aryMsgs := by
      intro msg
      rw [(List.perm_insertionSort _ _).mem_iff, List.mem_append]
    constructor
    · intro hfit _
      obtain ⟨imapMsg, hin⟩ := List.exists_mem_of_ne_nil messages hnil
      exact (hfit (.imap imapMsg) ((hmem _).2 (.inl (List.mem_map_of_mem hin)))).symm
    · intro hvalid msg hmsg
      rcases (hmem msg).1 hmsg with hnew | hold
      · obtain ⟨imapMsg, -, rfl⟩ := List.mem_map.1 hnew
        exact (hvalid hnil).symm
      · exact h msg hold

/-- A step of the controller keeps the rows fitting exactly if it meets the condition. -/
theorem rowsFit_step_iff (h : m.RowsFit) (hs : MasterStep m a m') :
    m.KeepsRows a ↔ m'.RowsFit := by
  cases hs with
  | connectToServer => exact ⟨fun _ => h, fun _ => trivial⟩
  | setAccount => exact ⟨fun _ => h, fun _ => trivial⟩
  | sameAccount => exact ⟨fun _ => h, fun _ => trivial⟩
  | otherAccount => exact ⟨fun _ => h, fun _ => trivial⟩
  | noMore => exact ⟨fun _ => h, fun _ => trivial⟩
  | store => exact ⟨fun _ => h, fun _ => trivial⟩
  | loadMore hl hc =>
    refine ⟨fun _ => ?_, fun _ => trivial⟩
    rw [RowsFit, loadMsg_controller]
    exact h
  | @valid id op order hop hr =>
    rw [RowsFit, loadMsg_controller]
    constructor
    · intro hC
      have hC := hC op hop
      rwa [hr] at hC
    · intro hfit op' hop'
      cases hop.symm.trans hop'
      rw [hr]
      exact hfit
  | @notValid id op order aryMsgs hop hr hs =>
    constructor
    · intro _ msg hmsg
      obtain ⟨dictionary, -, rfl⟩ := List.mem_map.1 hmsg
      rfl
    · intro _ op' hop'
      cases hop.symm.trans hop'
      rw [hr]
      trivial
  | @folderInfo id op number hop hr info =>
    refine ⟨fun _ => RowsFit.folderInfoCompleted (m := m.remove id) h number info,
      fun _ op' hop' => ?_⟩
    cases hop.symm.trans hop'
    rw [hr]
    trivial
  | @fetchMessages id op range hop hr messages =>
    rw [rowsFit_fetchCompleted_iff (m := m.remove id) h messages]
    constructor
    · intro hC
      have hC := hC op hop
      rwa [hr] at hC
    · intro hvalid op' hop'
      cases hop.symm.trans hop'
      rw [hr]
      exact hvalid

end Master

/-- A step of the table keeps the rows fitting, and uses fitting rows, exactly if it meets the
condition. -/
theorem Navigation.fits_step_iff {n n' : Navigation τ w} {a : TableAction τ}
    {us : List (RowUse τ)} (h : n.master.RowsFit) (hs : TableStep n a n' us) :
    n.KeepsRows a ↔ n'.master.RowsFit ∧ ∀ u ∈ us, u.Fits := by
  cases hs with
  | didSelectRow => exact ⟨fun _ => ⟨h, by simp⟩, fun _ => trivial⟩
  | master hs =>
    change n.master.KeepsRows _ ↔ _
    rw [Master.rowsFit_step_iff h hs]
    exact ⟨fun hfit => ⟨hfit, by simp⟩, And.left⟩
  | @cellForRow order row msg p hmem =>
    refine ⟨fun _ => ⟨h, fun u hu => ?_⟩, fun _ => trivial⟩
    obtain rfl := List.mem_singleton.1 hu
    have hmsg := h msg hmem
    cases hvalid : n.master.controller.accoutIsValid <;> rw [hvalid] at hmsg <;> exact hmsg
  | @viewDidLoad order screen k msg p pushed us hk hus =>
    rw [hus]
    constructor
    · exact fun hC => ⟨h, hC msg hk⟩
    · rintro ⟨-, hC⟩ msg' hk'
      cases hk.symm.trans hk'
      exact hC

/-! ### Runs -/

/-- **Rows are never confused.**  In a run of the table every state has the rows that
`accoutIsValid` says, and every row is used as what it is, exactly if every step meets the
condition. -/
theorem rows_fit_iff {c : NSManagedObjectContext τ} {n : Navigation τ w} {h : TableHistory τ}
    (hr : (tableSystem τ w).Run (.init c) h n) :
    (tableSystem τ w).Along (fun h n => n.master.RowsFit ∧ TableHistory.Fits h) (.init c) h ↔
      (tableSystem τ w).RunWhere Navigation.KeepsRows (.init c) h n := by
  have hinit : (Navigation.init c : Navigation τ w).master.RowsFit ∧
      TableHistory.Fits ([] : TableHistory τ) :=
    ⟨by simp [Master.RowsFit, Navigation.init, Master.init], by simp [TableHistory.Fits]⟩
  refine hr.along_iff (I := fun _ _ => True) trivial hinit ?_
  rintro h n a us n' - ⟨hfit, hhistory⟩ - hs
  refine ⟨fun _ => trivial, ?_⟩
  rw [Navigation.fits_step_iff hfit (Navigation.tableStep_of_next hs), TableHistory.fits_concat]
  exact ⟨fun hstep => ⟨hstep.1, hhistory, hstep.2⟩, fun hstep => ⟨hstep.1, hstep.2.2⟩⟩

theorem rows_fit_switch :
    ∃ h n, (tableSystem String 64).Run (.init .empty) h n ∧
      h.map Prod.fst = [.master (.connectToServer (account "first")),
        .master (.complete 0 (.checkAccount .insertion true)),
        .master (.complete 1 (.folderInfo (some 1))),
        .master (.complete 2 (.fetchMessages (some [mail 1]))),
        .cellForRow .insertion 0, .master (.store (.complete 0 (some "text"))),
        .didSelectRow 0, .viewDidLoad .insertion 0 0,
        .master (.store (.complete 0 (some "html"))),
        .master (.accountHasFinishSetting (account "second")),
        .master (.complete 3 (.checkAccount .insertion false)),
        .cellForRow .insertion 0, .didSelectRow 0, .viewDidLoad .insertion 1 0] ∧
      n.master.controller.aryMsgs.length = 1 ∧ (tableSystem String 64).Along
        (fun h n => n.master.RowsFit ∧ TableHistory.Fits h) (.init .empty) h :=
  (tableSystem String 64).exists_run_of_actions Navigation.KeepsRows _ _ (by decide +kernel)
    fun _ _ hr => (rows_fit_iff hr.run).2 hr

/-- A first check fails, the user logs in again, and the offline list is taken for messages. -/
theorem not_rows_fit :
    ¬ ∀ (h : TableHistory String) (n : Navigation String 64),
      (tableSystem String 64).Run (.init .empty) h n →
        n.master.RowsFit ∧ TableHistory.Fits h := by
  intro hall
  obtain ⟨h, n, hr, hnot⟩ := (tableSystem String 64).exists_run_of_exec (fun _ _ => True)
    (.init .empty) [.master (.connectToServer (account "first")),
      .master (.complete 0 (.checkAccount .insertion true)),
      .master (.complete 1 (.folderInfo (some 1))),
      .master (.complete 2 (.fetchMessages (some [mail 1]))),
      .cellForRow .insertion 0, .master (.store (.complete 0 (some "text"))),
      .master (.accountHasFinishSetting (account "second")),
      .master (.complete 3 (.checkAccount .insertion false)),
      .master (.accountHasFinishSetting (account "third")),
      .master (.complete 4 (.checkAccount .insertion true)), .cellForRow .insertion 0]
    (fun h n => ¬ (n.master.RowsFit ∧ TableHistory.Fits h)) (by decide +kernel)
  exact hnot (hall h n hr)

end SecMail
