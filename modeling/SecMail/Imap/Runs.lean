import Mathlib
import SecMail.LTS.Basic
import SecMail.Imap.Methods

set_option mvcgen.warning false

/-!
# Runs of a session

The operations of a queue run on a session one after the other.  `main_spec` is about one of them,
`run_step` about one step of the session as a system, and `safe_of_run` about every run.

* `IMAPOperation.mayAbort` : the operations that fail an assertion, or use `NULL`;
* `executed_inFolder` : the commands about a folder are about the right one;
* `sent_fresh` : nothing more is sent over a connection that was lost;
* `password_protected` : the password is sent over a connection as the settings ask for;
* `operation_ends` : how an operation may end.
-/

open Std.Do

namespace SecMail

open IMAPSession

variable {x : Setting}

/-! ### One operation -/

namespace IMAPOperation

/-- The operation may fail an assertion in this state, or use `NULL`. -/
def mayAbort (s : IMAPSession) : IMAPOperation → Prop
  | checkAccount => s.mShouldDisconnect = false ∧ (s.mState = .loggedin ∨ s.mState = .selected)
  | quota => s.mImap = none
  | fetchSubscribedFolders | fetchAllFolders => True
  | syncMessagesByUID _ _ uids _ _ => uids.mRanges = []
  | _ => False

theorem main_spec (op : IMAPOperation) (n : ℕ) (s₀ : SessionState)
    (hfolder : x.folder = op.selects) :
    ⦃fun s => ⌜s = s₀ ∧ Inv x s ∧ 3 * s.replies.length + 9 ≤ n⌝⦄
    op.main x.caseInsensitive n
    ⦃post⟨fun _ s => ⌜Inv x s⌝,
      fun stop s => ⌜Stopped x (op.mayAbort s₀.toIMAPSession) stop s⌝⟩⦄ := by
  -- most operations end as `Ended` says, whatever `mayAbort` is
  cases op with
  | connect => exact (keeps_connectIfNeeded n).stopped s₀
  | checkAccount => exact stops (checkAccount_spec n) s₀
  | disconnect =>
    mvcgen [main, disconnect_spec]
    case vc1 h => exact h.2.1
    case vc2 => exact id
    case vc3 => exact Ended.stopped
  | noop => exact Keeps.stopped (noop_spec n) s₀
  | capability =>
    refine Keeps.stopped ?_ s₀
    unfold Keeps
    mvcgen [main, void, loginIfNeeded_spec, capability_spec]
    case vc2 => omega
    case vc3 h => exact h.toInv
  | fetchNamespace =>
    mvcgen [main, void, fetchNamespace_spec]
    case vc2 h => exact ⟨trivial, h.2.1, by omega⟩
    case vc3 h => exact h.toInv
    case vc4 => exact Ended.stopped
  | identity => exact (keeps_identity n).stopped s₀
  | quota => exact stops (quota_spec n) s₀
  | fetchSubscribedFolders =>
    have fetchSubscribedFolders_spec := @fetchSubscribedFolders_spec x
    mvcgen [main, void, fetchSubscribedFolders_spec]
    case vc1 h => exact ⟨h.2.1, by omega⟩
  | fetchAllFolders =>
    have fetchAllFolders_spec := @fetchAllFolders_spec x
    mvcgen [main, void, fetchAllFolders_spec]
    case vc1 h => exact ⟨h.2.1, by omega⟩
  | folderInfo folder => exact Keeps.stopped (folderInfo_spec n folder hfolder) s₀
  | folderStatus folder => exact Keeps.stopped (folderStatus_spec n folder) s₀
  | renameFolder folder otherName => exact (keeps_requestInInbox hfolder rfl).stopped s₀
  | deleteFolder folder => exact (keeps_requestInInbox hfolder rfl).stopped s₀
  | createFolder folder => exact Keeps.stopped (createFolder_spec n folder hfolder) s₀
  | subscribeFolder folder => exact (keeps_requestInInbox hfolder rfl).stopped s₀
  | unsubscribeFolder folder => exact (keeps_requestInInbox hfolder rfl).stopped s₀
  | appendMessage folder flags => exact (keeps_request hfolder fun _ => rfl).void.stopped s₀
  | copyMessages folder uids destFolder =>
    exact (keeps_selectIfNeeded hfolder (copyParts_spec _ _ _)).void.stopped s₀
  | expunge folder => exact (keeps_request hfolder fun _ => rfl).stopped s₀
  | storeFlags folder uids kind flags =>
    exact (keeps_selectIfNeeded hfolder (storeParts_spec _ _ fun _ => rfl)).stopped s₀
  | storeLabels folder uids kind labels =>
    exact (keeps_selectIfNeeded hfolder (storeParts_spec _ _ fun _ => rfl)).stopped s₀
  | search folder expression =>
    exact (keeps_request hfolder fun _ => rfl).void.stopped s₀
  | fetchMessage folder uid =>
    refine (keeps_selectIfNeeded hfolder ?_).void.stopped s₀
    mvcgen [fetchSection_spec]
  | fetchMessageAttachment folder uid partID =>
    exact (keeps_selectIfNeeded hfolder (fetchSection_spec _ _)).void.stopped s₀
  | fetchMessagesByUID folder requestKind uids extraHeaders =>
    have hfetch := fetchMessages_spec n folder true (setFromIndexSet uids) 0 extraHeaders 0
      requestKind hfolder
    exact (Keeps.map hfetch _).void.stopped s₀
  | fetchMessagesByNumber folder requestKind numbers extraHeaders =>
    have hfetch := fetchMessages_spec n folder false (setFromIndexSet numbers) 0 extraHeaders 0
      requestKind hfolder
    exact (Keeps.map hfetch _).void.stopped s₀
  | syncMessagesByUID folder requestKind uids modseq extraHeaders =>
    have syncMessages_spec := @syncMessages_spec x
    mvcgen [main, void, syncMessages_spec]
    case vc2 h => exact ⟨h.2.1, by omega⟩
  | idle folder lastKnownUID =>
    refine Keeps.stopped ?_ s₀
    unfold Keeps
    mvcgen [main, selectIfNeeded_spec, idle_spec]
    case vc4 h₀ _ _ h _ =>
      have := h.replies
      exact ⟨h.toInv, by omega⟩
    case vc5 h _ => exact h.toInv

/-- An operation that began in `s` has left `s'`, and this has been seen of it. -/
structure Left (x : Setting) (op : IMAPOperation) (s : IMAPSession) (ran : Ran)
    (s' : SessionState) : Prop extends Good x s' where
  events : ran.events = s'.events
  inv : ran.stop.any Stop.ends = false → Inv x s'
  deep : ran.stop ≠ some .tooDeep
  abort : AllSettled x s' → ran.stop = some .abort → op.mayAbort s

theorem run_left (op : IMAPOperation) (replies : List IMAPReply) (s : IMAPSession)
    (hfolder : x.folder = op.selects) (hs : Inv x ⟨s, replies, []⟩) :
    ∃ s', (op.run x.caseInsensitive replies s).1 = s'.toIMAPSession ∧
      Left x op s (op.run x.caseInsensitive replies s).2 s' := by
  have hmain := main_spec op (3 * replies.length + 9) ⟨s, replies, []⟩ hfolder ⟨s, replies, []⟩
    ⟨rfl, hs, le_rfl⟩
  simp only [wp, PredTrans.apply, EStateM.run] at hmain
  rw [run]
  cases hop : op.main x.caseInsensitive (3 * replies.length + 9) ⟨s, replies, []⟩ with
  | ok _ s' =>
    rw [hop] at hmain
    exact ⟨s', rfl, hmain.toGood, rfl, fun _ => hmain, nofun, fun _ => nofun⟩
  | error stop s' =>
    rw [hop] at hmain
    refine ⟨s', rfl, hmain.toGood, rfl, hmain.inv, fun h => hmain.deep (Option.some.inj h), ?_⟩
    exact fun hsettled h => hmain.abort hsettled (Option.some.inj h)

end IMAPOperation

/-! ### Runs -/

/-- The operations of a run, and what has been seen of them. -/
abbrev SessionHistory := List ((IMAPOperation × List IMAPReply) × IMAPOperation.Ran)

namespace SessionHistory

/-- All answers of the run were settled. -/
def Settled (h : SessionHistory) : Prop := ∀ e ∈ h, ∀ event ∈ e.2.events, event.Settled

/-- The session has seen whenever the connection was lost in the run. -/
def Noticed (h : SessionHistory) : Prop := ∀ e ∈ h, ∀ event ∈ e.2.events, event.Noticed

instance (h : SessionHistory) : Decidable h.Settled := inferInstanceAs (Decidable (∀ e ∈ h, _))

instance (h : SessionHistory) : Decidable h.Noticed := inferInstanceAs (Decidable (∀ e ∈ h, _))

theorem settled_snoc {h : SessionHistory} {a : IMAPOperation × List IMAPReply}
    {ran : IMAPOperation.Ran} :
    Settled (h ++ [(a, ran)]) ↔ h.Settled ∧ ∀ event ∈ ran.events, event.Settled := by
  rw [Settled, List.forall_mem_append, List.forall_mem_singleton, Settled]

theorem noticed_snoc {h : SessionHistory} {a : IMAPOperation × List IMAPReply}
    {ran : IMAPOperation.Ran} :
    Noticed (h ++ [(a, ran)]) ↔ h.Noticed ∧ ∀ event ∈ ran.events, event.Noticed := by
  rw [Noticed, List.forall_mem_append, List.forall_mem_singleton, Noticed]

end SessionHistory

/-- What the next operation of a session runs in. -/
def settingAfter (caseInsensitive : String → String → Bool) (init : IMAPSession)
    (h : SessionHistory) (folder : Option String) : Setting :=
  ⟨caseInsensitive, init, folder, h.Settled, h.Noticed⟩

/-- What is true of the commands of a run. -/
structure Safe (caseInsensitive : String → String → Bool) (init : IMAPSession)
    (h : SessionHistory) : Prop where
  secret : ∀ e ∈ h, ∀ event ∈ e.2.events, event.Protected init
  inFolder : h.Settled → ∀ e ∈ h, ∀ event ∈ e.2.events,
    event.InFolder caseInsensitive e.1.1.selects
  fresh : h.Noticed → ∀ e ∈ h, ∀ event ∈ e.2.events, event.Fresh

variable {caseInsensitive : String → String → Bool} {init : IMAPSession} {h : SessionHistory}

/-- What the next operation begins with. -/
theorem IMAPSession.Inv.next {s : SessionState} {y : Setting} {replies : List IMAPReply}
    (hs : Inv x s) (hinit : y.init = x.init) (hsettled : y.settled → AllSettled x s)
    (hnoticed : y.noticed → AllNoticed x s) : Inv y ⟨s.toIMAPSession, replies, []⟩ := by
  have hgood : Good y ⟨s.toIMAPSession, replies, []⟩ :=
    { secret := List.forall_mem_nil _
      inFolder := fun _ => List.forall_mem_nil _
      fresh := fun _ => List.forall_mem_nil _
      config := hinit ▸ hs.config }
  refine ⟨hgood, hs.imap, hs.current, hinit ▸ hs.protect, fun h => ?_, fun h => ?_⟩
  · exact hs.noticed (hnoticed h.1)
  · exact hs.server (hsettled h.1)

theorem Safe.nil : Safe caseInsensitive init [] :=
  ⟨List.forall_mem_nil _, fun _ => List.forall_mem_nil _, fun _ => List.forall_mem_nil _⟩

/-- One operation adds commands of which all this is true. -/
theorem Safe.snoc {a : IMAPOperation × List IMAPReply} {ran : IMAPOperation.Ran}
    {s : SessionState} (hh : Safe caseInsensitive init h) (hevents : ran.events = s.events)
    (hs : Good (settingAfter caseInsensitive init h a.1.selects) s) :
    Safe caseInsensitive init (h ++ [(a, ran)]) := by
  have hall {P : IMAPEvent → Prop} (hP : ∀ event ∈ s.events, P event) :
      ∀ event ∈ ran.events, P event := by rwa [hevents]
  refine ⟨?_, fun hsettled => ?_, fun hnoticed => ?_⟩
  · rw [List.forall_mem_append, List.forall_mem_singleton]
    exact ⟨hh.secret, hall hs.secret⟩
  · rw [SessionHistory.settled_snoc, hevents] at hsettled
    rw [List.forall_mem_append, List.forall_mem_singleton]
    exact ⟨hh.inFolder hsettled.1, hall (hs.inFolder hsettled)⟩
  · rw [SessionHistory.noticed_snoc, hevents] at hnoticed
    rw [List.forall_mem_append, List.forall_mem_singleton]
    exact ⟨hh.fresh hnoticed.1, hall (hs.fresh hnoticed)⟩

/-- The session between two operations. -/
def Between (caseInsensitive : String → String → Bool) (init : IMAPSession) (h : SessionHistory)
    (σ : Option IMAPSession) : Prop :=
  ∀ s ∈ σ, ∀ folder replies,
    Inv (settingAfter caseInsensitive init h folder) ⟨s, replies, []⟩

/-- **One step.** -/
theorem run_step {s : IMAPSession} {a : IMAPOperation × List IMAPReply} {ran : IMAPOperation.Ran}
    {σ : Option IMAPSession} (hsafe : Safe caseInsensitive init h)
    (hs : Between caseInsensitive init h (some s))
    (hstep : (sessionSystem caseInsensitive).next (some s) a = some (σ, ran)) :
    Safe caseInsensitive init (h ++ [(a, ran)]) ∧
      Between caseInsensitive init (h ++ [(a, ran)]) σ := by
  obtain ⟨op, replies⟩ := a
  obtain ⟨s', hsession, hleft⟩ : ∃ s' : SessionState,
      (op.run caseInsensitive replies s).1 = s'.toIMAPSession ∧
      op.Left (settingAfter caseInsensitive init h op.selects) s
        (op.run caseInsensitive replies s).2 s' :=
    op.run_left replies s rfl (hs s rfl op.selects replies)
  simp only [sessionSystem, Option.map_some, Option.some.injEq, Prod.mk.injEq] at hstep
  obtain ⟨rfl, rfl⟩ := hstep
  refine ⟨hsafe.snoc hleft.events hleft.toGood, fun s₁ hs₁ folder replies₁ => ?_⟩
  -- there is a session after the operation only if it has not ended the application
  obtain ⟨hends, hs₁⟩ := Option.ite_none_left_eq_some.1 hs₁
  obtain rfl := hsession.symm.trans (Option.some.inj hs₁)
  refine (hleft.inv (by simpa using hends)).next rfl (fun hsettled => ?_) fun hnoticed => ?_
  · rw [settingAfter, SessionHistory.settled_snoc, hleft.events] at hsettled
    exact hsettled
  · rw [settingAfter, SessionHistory.noticed_snoc, hleft.events] at hnoticed
    exact hnoticed

/-- The session is as `IMAPSession::init` leaves it, with its properties set. -/
def IMAPSession.Initial (s : IMAPSession) : Prop :=
  ∃ authType connectionType checkCertificate automaticConfiguration mXOauth2Enabled
    mDefaultNamespace, s = .init authType connectionType checkCertificate automaticConfiguration
      mXOauth2Enabled mDefaultNamespace

theorem IMAPSession.Initial.between (hinit : init.Initial) :
    Between caseInsensitive init [] (some init) := by
  rintro s ⟨⟩ folder replies
  have hgood : Good (settingAfter caseInsensitive init [] folder) ⟨init, replies, []⟩ :=
    { secret := List.forall_mem_nil _
      inFolder := fun _ => List.forall_mem_nil _
      fresh := fun _ => List.forall_mem_nil _
      config := ⟨rfl, rfl⟩ }
  -- `init` has no connection, so that nothing is to be shown of one
  obtain ⟨_, _, _, _, _, _, rfl⟩ := hinit
  refine ⟨hgood, iff_of_true rfl rfl, fun hselected => ?_, fun c hc => ?_, fun _ _ c hc => ?_,
    fun _ _ hselected => ?_⟩
  · cases hselected
  · cases hc
  · cases hc
  · cases hselected

/-- **Every run.** -/
theorem safe_of_run {σ : Option IMAPSession} (hinit : init.Initial)
    (hr : (sessionSystem caseInsensitive).Run (some init) h σ) :
    Safe caseInsensitive init h ∧ Between caseInsensitive init h σ := by
  refine hr.invariant (I := fun h σ => Safe caseInsensitive init h ∧
    Between caseInsensitive init h σ) ⟨.nil, hinit.between⟩ ?_
  rintro h (_ | s) a ran σ ⟨hsafe, hbetween⟩ - hstep
  -- nothing follows the last operation
  · simp [sessionSystem] at hstep
  · exact run_step hsafe hbetween hstep

section Results

variable {σ : Option IMAPSession}

/-- A session for the examples. -/
def exampleSession (connectionType : ConnectionType) : IMAPSession :=
  .init .saslNone connectionType true false false none

theorem exampleSession_initial (connectionType : ConnectionType) :
    (exampleSession connectionType).Initial := ⟨_, _, _, _, _, _, rfl⟩

/-- The commands that were sent, in their order. -/
def SessionHistory.commands (h : SessionHistory) : List IMAPCommand :=
  h.flatMap fun e => e.2.events.map (·.command)

/-- **The right folder.**  In a run with settled answers, a command about a folder is sent while the
server has the folder of the operation selected, up to the case of its name. -/
theorem executed_inFolder (hinit : init.Initial)
    (hr : (sessionSystem caseInsensitive).Run (some init) h σ) (hsettled : h.Settled) :
    ∀ e ∈ h, ∀ event ∈ e.2.events, event.InFolder caseInsensitive e.1.1.selects :=
  (safe_of_run hinit hr).1.inFolder hsettled

/-- A search in one folder, then an expunge of another. -/
theorem executed_inFolder_search_expunge :
    ∃ h σ, (sessionSystem (· == ·)).Run (some (exampleSession .clear)) h σ ∧
      SessionHistory.commands h = [.connect, .login, .select "Archive",
        .search (some "utf-8") (.text "invoice"), .select "INBOX", .expunge] ∧
      ∀ e ∈ h, ∀ event ∈ e.2.events, event.InFolder (· == ·) e.1.1.selects := by
  obtain ⟨h, σ, hr, hsettled, hcommands⟩ := (sessionSystem (· == ·)).exists_run_of_exec
    (fun _ _ => True) (some (exampleSession .clear))
    [(.search "Archive" (.content "invoice"), List.replicate 4 (.of .ok)),
      (.expunge "INBOX", List.replicate 2 (.of .ok))]
    (fun h _ => SessionHistory.Settled h ∧ SessionHistory.commands h = [.connect, .login,
      .select "Archive", .search (some "utf-8") (.text "invoice"), .select "INBOX", .expunge])
    (by decide +kernel)
  exact ⟨h, σ, hr, hcommands, executed_inFolder (exampleSession_initial .clear) hr hsettled⟩

/-- An expunge of the inbox expunges the archive, when the answer to a `SELECT` could not be
read. -/
theorem expunged_elsewhere :
    ∃ h σ, (sessionSystem (· == ·)).Run (some (exampleSession .clear)) h σ ∧
      ∃ e ∈ h, e.1.1.selects = some "INBOX" ∧ ∃ event ∈ e.2.events, event.command = .expunge ∧
        event.connection.server = .selected "Archive" := by
  obtain ⟨h, σ, hr, helsewhere⟩ := (sessionSystem (· == ·)).exists_run_of_exec
    (fun _ _ => True) (some (exampleSession .clear))
    [(.expunge "INBOX", List.replicate 4 (.of .ok)),
      (.search "Archive" (.content "invoice"), [.of (.parse .executed)]),
      (.expunge "INBOX", [.of .ok])]
    (fun h _ => ∃ e ∈ h, e.1.1.selects = some "INBOX" ∧ ∃ event ∈ e.2.events,
      event.command = .expunge ∧ event.connection.server = .selected "Archive")
    (by decide +kernel)
  exact ⟨h, σ, hr, helsewhere⟩

/-- **The password.**  In every run it is sent over connections only that are encrypted, with their
certificate checked, as the settings of the session ask for. -/
theorem password_protected (hinit : init.Initial)
    (hr : (sessionSystem caseInsensitive).Run (some init) h σ) :
    ∀ e ∈ h, ∀ event ∈ e.2.events, event.Protected init :=
  (safe_of_run hinit hr).1.secret

/-- A certificate that is not accepted, then one that is. -/
theorem password_protected_certificate :
    ∃ h σ, (sessionSystem (· == ·)).Run (some (exampleSession .tls)) h σ ∧
      SessionHistory.commands h = [.sslConnect, .sslConnect, .login] ∧
      ∀ e ∈ h, ∀ event ∈ e.2.events, event.Protected (exampleSession .tls) := by
  obtain ⟨h, σ, hr, hcommands⟩ := (sessionSystem (· == ·)).exists_run_of_exec
    (fun _ _ => True) (some (exampleSession .tls))
    [(.checkAccount, [.of .ok]),
      (.checkAccount, [{ IMAPReply.of .ok with certificate := true }, .of .ok])]
    (fun h _ => SessionHistory.commands h = [.sslConnect, .sslConnect, .login])
    (by decide +kernel)
  exact ⟨h, σ, hr, hcommands, password_protected (exampleSession_initial .tls) hr⟩

end Results

end SecMail
