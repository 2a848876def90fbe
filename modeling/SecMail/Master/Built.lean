import SecMail.Master.Inbox

/-!
# The ranges that are built

Whenever `folderInfoOperation` reports messages, `loadMsg:` builds a range.  The list that is kept
is taken off the messages to load, in unsigned arithmetic, and nothing makes sure that it is
shorter: the ten messages of a reconnect, or a mailbox that is fully listed, make the length wrap
around.

* `rangeSystem` is the controller with the ranges it builds in view;
* `ranges_real_iff` : the runs in which all ranges are real, by a condition on their steps;
* `Inbox.keepsReal_of_run` : on one connection every step meets the condition;
* `not_ranges_real` : a reconnect to a mailbox of as many messages.
-/

namespace SecMail

variable {τ : Type*} {w : ℕ}

/-- A range that was built, with what it was built from. -/
structure Built where
  /-- The reported message count. -/
  messageCount : ℕ
  numberOfMsgToLoad : ℕ
  /-- The length of the list, if it is kept. -/
  kept : Option ℕ
  range : MCORange
  deriving DecidableEq

/-- The range is a page of the mailbox, computed without wrapping around, and a list that is kept
is shorter than what is to be loaded. -/
structure Built.Sound (b : Built) : Prop where
  real : b.range.Real b.messageCount
  location : (b.range.location : ℤ) = b.messageCount - b.numberOfMsgToLoad + 1
  length : (b.range.length : ℤ) = b.numberOfMsgToLoad - b.kept.getD 0 - 1
  kept : ∀ count ∈ b.kept, count < b.numberOfMsgToLoad

namespace Master

variable (m : Master τ w)

/-- What the completion of `folderInfoOperation` builds its range from, and the range; a message
count that is not positive is none. -/
def builtOn (number : BitVec w) (info : Option (BitVec 32)) : Option Built :=
  let numberOfMsgToLoad := MIN (messageCount info) number
  if numberOfMsgToLoad = 0 ∨ (info.getD 0).toInt ≤ 0 then none
  else some {
    messageCount := (info.getD 0).toInt.toNat
    numberOfMsgToLoad := numberOfMsgToLoad.toNat
    kept := if m.keepsMsgs (messageCount info) then
      some (BitVec.ofNat w m.controller.aryMsgs.length).toNat else none
    range := m.fetchRange (messageCount info) numberOfMsgToLoad }

/-- The range that an action builds. -/
def built : MasterAction τ → Option Built
  | .complete id (.folderInfo info) => (m.operation id).bind fun op =>
    match op.request with
    | .folderInfo number => m.builtOn number info
    | _ => none
  | _ => none

/-- If the count is the one remembered, and there is a list, the list is shorter than the mailbox
and than what the load asked for. -/
def ListIsShort (number : BitVec w) (info : Option (BitVec 32)) : Prop :=
  0 < (info.getD 0).toInt → number ≠ 0 → m.keepsMsgs (messageCount info) = true →
    (BitVec.ofNat w m.controller.aryMsgs.length).toNat <
      min (info.getD 0).toInt.toNat number.toNat

/-- The condition on a completion. -/
def KeepsRealOn : Request w → Response → Prop
  | .folderInfo number, .folderInfo info => m.ListIsShort number info
  | _, _ => True

/-- The condition on a step: the answer to a count finds a short list. -/
def KeepsReal : MasterAction τ → Prop
  | .complete id response => ∀ op ∈ m.operation id, m.KeepsRealOn op.request response
  | _ => True

instance (number : BitVec w) (info : Option (BitVec 32)) : Decidable (m.ListIsShort number info) :=
  inferInstanceAs (Decidable (_ → _ → _ → _))

instance : (request : Request w) → (response : Response) →
    Decidable (m.KeepsRealOn request response)
  | .folderInfo number, .folderInfo info => inferInstanceAs (Decidable (m.ListIsShort number info))
  | .folderInfo _, .checkAccount .. => isTrue trivial
  | .folderInfo _, .fetchMessages _ => isTrue trivial
  | .checkAccount, _ => isTrue trivial
  | .fetchMessages _, _ => isTrue trivial

instance : (a : MasterAction τ) → Decidable (m.KeepsReal a)
  | .complete id response =>
    inferInstanceAs (Decidable (∀ op ∈ m.operation id, m.KeepsRealOn op.request response))
  | .connectToServer _ => isTrue trivial
  | .setAccount => isTrue trivial
  | .accountHasFinishSetting _ => isTrue trivial
  | .loadMore => isTrue trivial
  | .store _ => isTrue trivial

variable {m}

/-! ### One range -/

/-- A message count that is positive is kept by `NSUInteger`. -/
theorem toNat_messageCount_of_pos (hw : 32 ≤ w) {info : Option (BitVec 32)}
    (h : 0 < (info.getD 0).toInt) :
    (messageCount info : BitVec w).toNat = (info.getD 0).toInt.toNat ∧
      (info.getD 0).toInt.toNat < 2 ^ 31 := by
  cases info with
  | none => exact absurd h (by decide)
  | some n =>
    have hpos : 0 < n.toInt := h
    exact toNat_messageCount hw (by rw [Option.getD_some]; omega)

/-- A page that reaches beyond the list that is kept is computed without wrapping around. -/
theorem sound_fetchRange (hw : 32 ≤ w) {messageCount numberOfMsgToLoad : BitVec w} {T : ℕ}
    (hT : messageCount.toNat = T) (hlt : T < 2 ^ 31)
    (hn : numberOfMsgToLoad.toNat ≤ T) (hpos : 0 < numberOfMsgToLoad.toNat)
    (hc : m.keepsMsgs messageCount = true →
      (BitVec.ofNat w m.controller.aryMsgs.length).toNat < numberOfMsgToLoad.toNat) :
    Built.Sound ⟨T, numberOfMsgToLoad.toNat,
      if m.keepsMsgs messageCount then
        some (BitVec.ofNat w m.controller.aryMsgs.length).toNat else none,
      m.fetchRange messageCount numberOfMsgToLoad⟩ := by
  subst hT
  have hreal := (real_fetchRange_iff (m := m) hw hlt hn hpos).2 hc
  have hlocation : ((messageCount - numberOfMsgToLoad + 1).toNat : ℤ) =
      messageCount.toNat - numberOfMsgToLoad.toNat + 1 := by
    rw [toNat_location hw hlt hn]
    omega
  by_cases hk : m.keepsMsgs messageCount = true
  · have hc := hc hk
    have hlength : ((numberOfMsgToLoad - BitVec.ofNat w m.controller.aryMsgs.length - 1).toNat : ℤ)
        = numberOfMsgToLoad.toNat - (BitVec.ofNat w m.controller.aryMsgs.length).toNat - 1 := by
      rw [toNat_length hw hc]
      omega
    rw [fetchRange_of_keeps hk] at hreal ⊢
    rw [if_pos hk]
    refine ⟨hreal, hlocation, hlength, fun count hcount => ?_⟩
    cases hcount
    exact hc
  · have hone : (1 : BitVec w).toNat = 1 := toNat_ofNat_of_lt hw (by decide)
    have hlength : ((numberOfMsgToLoad - 1).toNat : ℤ) = numberOfMsgToLoad.toNat - 0 - 1 := by
      rw [BitVec.toNat_sub_of_le (BitVec.le_def.2 (by rw [hone]; omega)), hone]
      omega
    rw [fetchRange_of_not_keeps hk] at hreal ⊢
    rw [if_neg hk]
    refine ⟨hreal, hlocation, hlength, fun count hcount => ?_⟩
    cases hcount

/-- A range is sound exactly if the list that is kept is short. -/
theorem sound_iff (hw : 32 ≤ w) {number : BitVec w} {info : Option (BitVec 32)} :
    (∀ b ∈ m.builtOn number info, b.Sound) ↔ m.ListIsShort number info := by
  unfold builtOn ListIsShort
  have hzero : (0 : BitVec w).toNat = 0 := BitVec.toNat_zero
  by_cases hpos : 0 < (info.getD 0).toInt
  · obtain ⟨hT, hlt⟩ := toNat_messageCount_of_pos (w := w) hw hpos
    have hmin : (MIN (messageCount info) number).toNat =
        min (info.getD 0).toInt.toNat number.toNat := by rw [toNat_MIN, hT]
    by_cases hn : MIN (messageCount info) number = 0
    · have hnumber : number = 0 := by
        have hmin0 := congrArg BitVec.toNat hn
        rw [hmin, hzero] at hmin0
        exact BitVec.eq_of_toNat_eq (by omega)
      rw [if_pos (.inl hn)]
      exact ⟨fun _ _ hne => absurd hnumber hne, fun _ b hb => by cases hb⟩
    · have hmin_pos : 0 < (MIN (messageCount info) number).toNat := by
        rw [Nat.pos_iff_ne_zero]
        exact fun h0 => hn (BitVec.eq_of_toNat_eq (h0.trans hzero.symm))
      have hnumber : number ≠ 0 := by
        rintro rfl
        omega
      rw [if_neg (not_or.2 ⟨hn, Int.not_le.2 hpos⟩)]
      constructor
      · intro hsound _ _ hk
        rw [← hmin]
        exact (hsound _ rfl).kept _ (by rw [if_pos hk]; rfl)
      · intro hC b hb
        cases hb
        exact sound_fetchRange hw hT hlt (by omega) hmin_pos fun hk =>
          hmin ▸ hC hpos hnumber hk
  · rw [if_pos (.inr (Int.not_lt.1 hpos))]
    exact ⟨fun _ hpos' => absurd hpos' hpos, fun _ b hb => by cases hb⟩

end Master

/-- The controller as a transition system, which shows the ranges it builds. -/
def rangeSystem (τ : Type*) (w : ℕ) : System (Master τ w) (MasterAction τ) (Option Built) where
  next m a := (m.perform a).map fun m' => (m', m.built a)

/-- All ranges of a history are sound. -/
def RangesReal (h : List (MasterAction τ × Option Built)) : Prop := ∀ e ∈ h, ∀ b ∈ e.2, b.Sound

namespace Master

variable {m m' : Master τ w} {a : MasterAction τ}

/-- A step builds sound ranges exactly if it meets the condition. -/
theorem sound_step_iff (hw : 32 ≤ w) : (∀ b ∈ m.built a, b.Sound) ↔ m.KeepsReal a := by
  have hnone : m.built a = none → m.KeepsReal a →
      ((∀ b ∈ m.built a, b.Sound) ↔ m.KeepsReal a) := by
    intro hbuilt hC
    rw [hbuilt]
    exact ⟨fun _ => hC, fun _ b hb => by cases hb⟩
  cases a with
  | connectToServer => exact hnone rfl trivial
  | setAccount => exact hnone rfl trivial
  | accountHasFinishSetting => exact hnone rfl trivial
  | loadMore => exact hnone rfl trivial
  | store => exact hnone rfl trivial
  | complete id response =>
    cases response with
    | checkAccount => exact hnone rfl fun op _ => by cases op.request <;> trivial
    | fetchMessages => exact hnone rfl fun op _ => by cases op.request <;> trivial
    | folderInfo info =>
      constructor
      · intro hsound op hop
        rcases hr : op.request with _ | number | range
        · trivial
        · refine (sound_iff hw).1 fun b hb => ?_
          refine hsound b (Option.bind_eq_some_iff.2 ⟨op, hop, ?_⟩)
          rw [hr]
          exact hb
        · trivial
      · intro hC b hb
        obtain ⟨op, hop, hb⟩ := Option.bind_eq_some_iff.1 hb
        have hC := hC op hop
        rcases hr : op.request with _ | number | range <;> rw [hr] at hb hC
        · cases hb
        · exact (sound_iff hw).2 hC b hb
        · cases hb

end Master

/-! ### Runs -/

namespace Inbox

/-- **On one connection every range is a page**: every step meets the condition. -/
theorem keepsReal_of_run (hw : 32 ≤ w) {c : NSManagedObjectContext τ}
    {mailbox : List MCOIMAPMessage} {i : Inbox τ w}
    {h : List (InboxAction τ × List (MasterAction τ × Bool))}
    (hr : (inboxSystem τ w).RunWhere OneConnection (.init c mailbox) h i) {a : MasterAction τ}
    (hC : i.OneConnection (.master a)) : i.master.KeepsReal a := by
  obtain ⟨p, hR⟩ := exists_refines hw hr
  cases a with
  | connectToServer => trivial
  | setAccount => trivial
  | accountHasFinishSetting => trivial
  | loadMore => trivial
  | store => trivial
  | complete id response =>
    intro op hop
    obtain ⟨-, -, hb⟩ := hR.busy hop
    generalize op.request = request at hb ⊢
    cases hb with
    | checking => cases response <;> trivial
    | fetching => cases response <;> trivial
    | asking hf hl hp hn _ hask =>
      cases response with
      | checkAccount => trivial
      | fetchMessages => trivial
      | folderInfo info =>
        -- the rows are fewer than the count remembered and than the messages asked for
        intro hpos _ hk
        obtain ⟨hcount, hrows⟩ := Master.keepsMsgs_iff.1 hk
        obtain ⟨hT, -⟩ := Master.toNat_messageCount_of_pos (w := w) hw hpos
        have hlength := hR.length_aryMsgs
        have hlisted := List.length_pos_of_ne_nil hrows
        have hlt : p.shown.card < p.count := hask.2.resolve_left (by omega)
        have hcount : p.count = (info.getD 0).toInt.toNat := by rw [← hR.count, hcount, hT]
        rw [hR.toNat_length_aryMsgs hw, hlength, hn]
        omega

end Inbox

/-- **The requested range is a page of the mailbox**, for every range that is built in a run,
exactly if every step of the run meets the condition; and on one connection every step does. -/
theorem ranges_real_iff (hw : 32 ≤ w) {c : NSManagedObjectContext τ} {m : Master τ w}
    {h : List (MasterAction τ × Option Built)} (hr : (rangeSystem τ w).Run (.init c) h m) :
    ((rangeSystem τ w).Along (fun h _ => RangesReal h) (.init c) h ↔
      (rangeSystem τ w).RunWhere Master.KeepsReal (.init c) h m) ∧
    ∀ (mailbox : List MCOIMAPMessage) (i : Inbox τ w)
      (h' : List (InboxAction τ × List (MasterAction τ × Bool))),
      (inboxSystem τ w).RunWhere Inbox.OneConnection (.init c mailbox) h' i →
      ∀ a, i.OneConnection (.master a) → i.master.KeepsReal a := by
  refine ⟨hr.along_forall_iff fun m a o m' _ hs => ?_, fun _ _ _ hr' _ hC =>
    Inbox.keepsReal_of_run hw hr' hC⟩
  obtain ⟨m₁, -, heq⟩ := Option.map_eq_some_iff.1 hs
  cases heq
  exact (Master.sound_step_iff hw).symm

theorem ranges_real_reconnect :
    ∃ h m, (rangeSystem String 32).Run (.init .empty) h m ∧
      h.map Prod.fst = [.connectToServer (account "first"),
        .complete 0 (.checkAccount .insertion true), .complete 1 (.folderInfo (some 2)),
        .complete 2 (.fetchMessages (some [mail 2])), .loadMore,
        .complete 3 (.folderInfo (some 2)), .complete 4 (.fetchMessages (some [mail 1])),
        .accountHasFinishSetting (account "second"), .complete 5 (.checkAccount .insertion true),
        .complete 6 (.folderInfo (some 7))] ∧
      (h.filterMap Prod.snd).map Built.range = [⟨1, 1⟩, ⟨1, 0⟩, ⟨1, 6⟩] ∧
      (rangeSystem String 32).Along (fun h _ => RangesReal h) (.init .empty) h :=
  (rangeSystem String 32).exists_run_of_actions Master.KeepsReal _ _ (by decide +kernel)
    fun _ _ hr => (ranges_real_iff (by decide) hr.run).1.2 hr

/-- A reconnect to a mailbox of as many messages as before, which are all listed: the range goes
far beyond the mailbox. -/
theorem not_ranges_real :
    ¬ ∀ (h : List (MasterAction String × Option Built)) (m : Master String 32),
      (rangeSystem String 32).Run (.init .empty) h m → RangesReal h := by
  intro hall
  obtain ⟨h, m, hr, hlast⟩ := (rangeSystem String 32).exists_run_of_exec (fun _ _ => True)
    (.init .empty) [.connectToServer (account "first"),
      .complete 0 (.checkAccount .insertion true), .complete 1 (.folderInfo (some 1)),
      .complete 2 (.fetchMessages (some [mail 1])),
      .accountHasFinishSetting (account "second"), .complete 3 (.checkAccount .insertion true),
      .complete 4 (.folderInfo (some 1))]
    (fun h _ => ⟨1, 1, some 1, ⟨1, 2 ^ 32 - 1⟩⟩ ∈ h.filterMap Prod.snd) (by decide +kernel)
  obtain ⟨e, he, hb⟩ := List.mem_filterMap.1 hlast
  have hsound := hall h m hr e he _ hb
  exact absurd hsound.real (by decide)

end SecMail
