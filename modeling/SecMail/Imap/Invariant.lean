import SecMail.Imap.Operations

/-!
# What holds of an IMAP session

The session keeps a state of its own beside the state of the server, and changes it with the answers
it gets.  `Inv` says how the two belong together whenever no method is running, and what is true of
the commands that were sent; `Ready` is what methods need of a session that is connected.

* `IMAPEvent.Settled`, `IMAPEvent.Noticed` : what is assumed of the answers to commands;
* `IMAPEvent.InFolder`, `IMAPEvent.Fresh`, `IMAPEvent.Protected` : what is proved of commands;
* `Ready.answered`, `Ready.answered_lost` : what a command with its answer preserves.
-/

namespace SecMail

namespace IMAPCommand

/-- The command carries the password, or what stands for it. -/
def authenticates : IMAPCommand → Bool
  | login | authenticate _ | oauth2Authenticate => true
  | _ => false

/-- The command is sent without a look at whether the connection was lost: `getQuota` sends it, or
`fetchAllFolders` after a list. -/
def blind : IMAPCommand → Bool
  | list "" "INBOX" | quota _ => true
  | _ => false

/-- The session does not look at whether the connection is lost with the command. -/
def unwatched : IMAPCommand → Bool
  | noop | compress | enable _ | list "" "" => true
  | _ => false

/-- `SELECT` -/
def isSelect : IMAPCommand → Bool
  | select _ => true
  | _ => false

/-- The command changes who is logged in, or which folder is selected. -/
def changes (c : IMAPCommand) : Bool := c.isSelect || c.authenticates

end IMAPCommand

/-- The answer could not be read, and the command has had an effect. -/
def MailimapResult.unread : MailimapResult → Bool
  | parse effect => effect != .none
  | _ => false

/-- The connection is as the settings of the session ask for. -/
def Mailimap.Protected (init : IMAPSession) (c : Mailimap) : Prop :=
  c.encrypted = (init.mConnectionType != .clear) ∧
    c.checked = (init.mConnectionType == .tls && init.mCheckCertificateEnabled)

namespace IMAPEvent

/-- A connection that has failed goes on failing, and a `SELECT` whose answer cannot be read has had
no effect. -/
def Settled (e : IMAPEvent) : Prop :=
  (e.connection.failed = true → ∀ r ∈ e.outcome, r.isStream = true) ∧
    (e.command.isSelect = true → ∀ r ∈ e.outcome, r.unread = false)

instance (e : IMAPEvent) : Decidable e.Settled := inferInstanceAs (Decidable (_ ∧ _))

/-- The session sees when the connection is lost: it is not with a command after which it does not
look. -/
def Noticed (e : IMAPEvent) : Prop :=
  e.command.unwatched = true → ∀ r ∈ e.outcome, r.isStream = false

instance (e : IMAPEvent) : Decidable e.Noticed := inferInstanceAs (Decidable (_ → _))

/-- What is about the selected folder is about this one, up to the case of its name. -/
def InFolder (caseInsensitive : String → String → Bool) (folder : Option String) (e : IMAPEvent) :
    Prop :=
  e.command.ofMailbox = true → ∃ current, e.connection.server = .selected current ∧
    ∃ f ∈ folder, current = f ∨ caseInsensitive current f = true

/-- The command is not sent over a connection that was lost. -/
def Fresh (e : IMAPEvent) : Prop := e.connection.failed = true → e.command.blind = true

/-- A password is sent over a connection as the settings ask for. -/
def Protected (init : IMAPSession) (e : IMAPEvent) : Prop :=
  e.command.authenticates = true → e.connection.Protected init

end IMAPEvent

namespace IMAPSession

/-- What an operation runs in. -/
structure Setting where
  /-- `caseInsensitiveCompare` -/
  caseInsensitive : String → String → Bool
  /-- The session as it was when its properties were set. -/
  init : IMAPSession
  /-- The folder that the operation selects. -/
  folder : Option String
  /-- The answers to the operations before were settled. -/
  settled : Prop
  /-- When the connection was lost with an operation before, the session saw it. -/
  noticed : Prop

variable (x : Setting)

/-- The answers were settled so far, in the operations before and in this one. -/
def AllSettled (s : SessionState) : Prop := x.settled ∧ ∀ e ∈ s.events, e.Settled

/-- The session has seen whenever the connection was lost, so far. -/
def AllNoticed (s : SessionState) : Prop := x.noticed ∧ ∀ e ∈ s.events, e.Noticed

/-- What is true of the commands that were sent. -/
structure Good (s : SessionState) : Prop where
  secret : ∀ e ∈ s.events, e.Protected x.init
  inFolder : AllSettled x s → ∀ e ∈ s.events, e.InFolder x.caseInsensitive x.folder
  fresh : AllNoticed x s → ∀ e ∈ s.events, e.Fresh
  config : s.mConnectionType = x.init.mConnectionType ∧
    s.mCheckCertificateEnabled = x.init.mCheckCertificateEnabled

/-- What is true of the session when no method is running. -/
structure Inv (s : SessionState) : Prop extends Good x s where
  imap : s.mImap = none ↔ s.mState = .disconnected
  current : s.mState = .selected → s.mCurrentFolder ≠ none
  protect : ∀ c ∈ s.mImap, c.Protected x.init
  noticed : AllNoticed x s → s.mShouldDisconnect = false → ∀ c ∈ s.mImap, c.failed = false
  server : AllSettled x s → s.mShouldDisconnect = false → s.mState = .selected →
    ∀ c ∈ s.mImap, ∀ current ∈ s.mCurrentFolder, c.server = .selected current

/-- What is true of a session that is connected, while a method is running. -/
structure Ready (s : SessionState) : Prop extends Inv x s where
  connected : s.mState ≠ .disconnected
  failed : s.mShouldDisconnect = true → ∀ c ∈ s.mImap, c.failed = true
  calm : AllNoticed x s → s.mShouldDisconnect = false

/-- How a method may end otherwise than with `ErrorNone`. -/
structure Ended (stop : Stop) (s : SessionState) : Prop extends
    Good x s where
  inv : stop.ends = false → Inv x s
  deep : stop ≠ .tooDeep
  abort : AllSettled x s → stop ≠ .abort

/-- The right folder is selected. -/
def Selected (s : SessionState) : Prop :=
  ∃ f ∈ x.folder, ∃ c ∈ s.mImap, ∃ current, c.server = .selected current ∧
    (current = f ∨ x.caseInsensitive current f = true)

/-- The command may be sent. -/
structure Sendable (s : SessionState) (c : IMAPCommand) : Prop where
  folder : AllSettled x s → c.ofMailbox = true → Selected x s
  protect : c.authenticates = true → ∀ connection ∈ s.mImap, connection.Protected x.init
  fresh : AllNoticed x s → c.blind = false → ∀ connection ∈ s.mImap, connection.failed = false

/-- Answers have been taken, and commands sent. -/
structure Onward (s₀ s : SessionState) : Prop where
  replies : s.replies.length ≤ s₀.replies.length
  settled : AllSettled x s → AllSettled x s₀

/-- What the methods leave as it is that do not log in. -/
structure Kept (s₀ s : SessionState) : Prop extends Onward x s₀ s where
  mState : s.mState = s₀.mState
  mCurrentFolder : s.mCurrentFolder = s₀.mCurrentFolder
  mShouldDisconnect : s.mShouldDisconnect = s₀.mShouldDisconnect
  server : s.mImap.map Mailimap.server = s₀.mImap.map Mailimap.server

/-- What the invariants are about. -/
def core (s : SessionState) : ConnectionType × Bool × Option Mailimap × MState × Option String ×
    Bool × List IMAPReply × List IMAPEvent :=
  (s.mConnectionType, s.mCheckCertificateEnabled, s.mImap, s.mState, s.mCurrentFolder,
    s.mShouldDisconnect, s.replies, s.events)

variable {x} {s s₀ s' : SessionState} {c : IMAPCommand}
  {connection : Mailimap} {reply : IMAPReply} {replies : List IMAPReply}

/-! ### What other changes leave as it is -/

theorem Good.congr (hs : Good x s) (hevents : s'.events = s.events)
    (hconfig : s'.mConnectionType = s.mConnectionType ∧
      s'.mCheckCertificateEnabled = s.mCheckCertificateEnabled) : Good x s' := by
  have hsettled : AllSettled x s' ↔ AllSettled x s := by rw [AllSettled, hevents, AllSettled]
  have hnoticed : AllNoticed x s' ↔ AllNoticed x s := by rw [AllNoticed, hevents, AllNoticed]
  refine ⟨?_, ?_, ?_, ?_⟩
  all_goals simp only [hevents, hsettled, hnoticed, hconfig]
  · exact hs.secret
  · exact hs.inFolder
  · exact hs.fresh
  · exact hs.config

theorem Inv.congr (hs : Inv x s) (hcore : core s' = core s) : Inv x s' := by
  simp only [core, Prod.mk.injEq] at hcore
  obtain ⟨htype, hcheck, himap, hstate, hcurrent, hshould, -, hevents⟩ := hcore
  have hsettled : AllSettled x s' ↔ AllSettled x s := by rw [AllSettled, hevents, AllSettled]
  have hnoticed : AllNoticed x s' ↔ AllNoticed x s := by rw [AllNoticed, hevents, AllNoticed]
  refine ⟨hs.toGood.congr hevents ⟨htype, hcheck⟩, ?_, ?_, ?_, ?_, ?_⟩
  all_goals simp only [himap, hstate, hcurrent, hshould, hsettled, hnoticed]
  · exact hs.imap
  · exact hs.current
  · exact hs.protect
  · exact hs.noticed
  · exact hs.server

theorem Ready.congr (hs : Ready x s) (hcore : core s' = core s) : Ready x s' := by
  refine ⟨hs.toInv.congr hcore, ?_, ?_, ?_⟩
  all_goals
    simp only [core, Prod.mk.injEq] at hcore
    obtain ⟨-, -, himap, hstate, -, hshould, -, hevents⟩ := hcore
  · exact hstate.trans_ne hs.connected
  · rw [hshould, himap]
    exact hs.failed
  · rw [hshould, AllNoticed, hevents]
    exact hs.calm

theorem Onward.refl (s : SessionState) : Onward x s s := ⟨le_rfl, id⟩

theorem Onward.trans {s₁ s₂ s₃ : SessionState} (h : Onward x s₁ s₂) (h' : Onward x s₂ s₃) :
    Onward x s₁ s₃ := ⟨h'.replies.trans h.replies, h.settled ∘ h'.settled⟩

theorem Kept.of_core (hcore : core s' = core s) : Kept x s s' := by
  simp only [core, Prod.mk.injEq] at hcore
  obtain ⟨-, -, himap, hstate, hcurrent, hshould, hreplies, hevents⟩ := hcore
  refine ⟨⟨by rw [hreplies], fun h => ?_⟩, hstate, hcurrent, hshould, by rw [himap]⟩
  rwa [AllSettled, ← hevents]

theorem Kept.trans {s₁ s₂ s₃ : SessionState} (h : Kept x s₁ s₂) (h' : Kept x s₂ s₃) :
    Kept x s₁ s₃ :=
  ⟨h.toOnward.trans h'.toOnward, h'.mState.trans h.mState,
    h'.mCurrentFolder.trans h.mCurrentFolder, h'.mShouldDisconnect.trans h.mShouldDisconnect,
    h'.server.trans h.server⟩

theorem Ready.mImap_ne (hs : Ready x s) : s.mImap ≠ none :=
  fun h => hs.connected (hs.imap.1 h)

theorem Inv.ended_error (hs : Inv x s) (error : ErrorCode) :
    Ended x (.error error) s := ⟨hs.toGood, fun _ => hs, nofun, nofun⟩

theorem Good.dropped (hs : Good x s) :
    Inv x s.dropped :=
  ⟨hs.congr rfl ⟨rfl, rfl⟩, iff_of_true rfl rfl, nofun, nofun,
    fun _ _ => nofun, fun _ _ => nofun⟩

theorem Inv.lost (hs : Inv x s) :
    Inv x s.lost :=
  ⟨hs.toGood.congr rfl ⟨rfl, rfl⟩, hs.imap, hs.current, hs.protect, fun _ => nofun,
    fun _ => nofun⟩

/-! ### A command with its answer -/

theorem AllSettled.of_snoc {e : IMAPEvent} (h : AllSettled x s')
    (hevents : s'.events = s.events ++ [e]) : AllSettled x s ∧ e.Settled := by
  rw [AllSettled, hevents, List.forall_mem_append, List.forall_mem_singleton] at h
  exact ⟨⟨h.1, h.2.1⟩, h.2.2⟩

theorem AllNoticed.of_snoc {e : IMAPEvent} (h : AllNoticed x s')
    (hevents : s'.events = s.events ++ [e]) : AllNoticed x s ∧ e.Noticed := by
  rw [AllNoticed, hevents, List.forall_mem_append, List.forall_mem_singleton] at h
  exact ⟨⟨h.1, h.2.1⟩, h.2.2⟩

theorem Good.snoc {e : IMAPEvent} (hs : Good x s)
    (hevents : s'.events = s.events ++ [e])
    (hconfig : s'.mConnectionType = s.mConnectionType ∧
      s'.mCheckCertificateEnabled = s.mCheckCertificateEnabled) (hsecret : e.Protected x.init)
    (hfolder : AllSettled x s → e.InFolder x.caseInsensitive x.folder)
    (hfresh : AllNoticed x s → e.Fresh) : Good x s' := by
  refine ⟨?_, fun h => ?_, fun h => ?_, ?_⟩
  · rw [hevents, List.forall_mem_append]
    exact ⟨hs.secret, by simpa using hsecret⟩
  · rw [hevents, List.forall_mem_append]
    exact ⟨hs.inFolder (h.of_snoc hevents).1, by simpa using hfolder (h.of_snoc hevents).1⟩
  · rw [hevents, List.forall_mem_append]
    exact ⟨hs.fresh (h.of_snoc hevents).1, by simpa using hfresh (h.of_snoc hevents).1⟩
  · exact ⟨hconfig.1.trans hs.config.1, hconfig.2.trans hs.config.2⟩

theorem Good.sent {outcome : Option MailimapResult} (hs : Good x s)
    (himap : s.mImap = some connection) (hc : Sendable x s c)
    (hevents : s'.events = s.events ++ [⟨c, connection, outcome⟩])
    (hconfig : s'.mConnectionType = s.mConnectionType ∧
      s'.mCheckCertificateEnabled = s.mCheckCertificateEnabled) :
    Good x s' := by
  refine hs.snoc hevents hconfig (fun h => hc.protect h _ himap) (fun h hmailbox => ?_)
    fun h hfailed => ?_
  · obtain ⟨f, hf, c', hc', current, hserver, hname⟩ := hc.folder h hmailbox
    cases hc'.symm.trans himap
    exact ⟨current, hserver, f, hf, hname⟩
  · by_contra hblind
    simp [hc.fresh h (eq_false_of_ne_true hblind) _ himap] at hfailed

theorem Good.answered (hs : Good x s)
    (himap : s.mImap = some connection) (hc : Sendable x s c) :
    Good x (s.answered c connection reply replies) :=
  hs.sent himap hc rfl ⟨rfl, rfl⟩

theorem Good.hung (hs : Good x s)
    (himap : s.mImap = some connection) (hc : Sendable x s c) :
    Ended x .waiting (s.hung c connection) := by
  have hgood : Good x (s.hung c connection) :=
    hs.sent himap hc rfl ⟨rfl, rfl⟩
  exact ⟨hgood, nofun, nofun, nofun⟩

section Answered

variable (himap : s.mImap = some connection)

include himap

/-- When a command has been answered that no one sees to have failed. -/
theorem Inv.answered (hs : Inv x s) (hc : Sendable x s c)
    (hserver : AllSettled x (s.answered c connection reply replies) → s.mState = .selected →
      connection.server.after c reply.r.effect = connection.server)
    (hstream : reply.r.isStream = true → ¬ IMAPEvent.Noticed ⟨c, connection, some reply.r⟩) :
    Inv x (s.answered c connection reply replies) := by
  have hstate : s.mState ≠ .disconnected := fun h => by simp [hs.imap.2 h] at himap
  refine ⟨hs.toGood.answered himap hc, ?_, hs.current, ?_, ?_, ?_⟩
  · simpa [SessionState.answered] using hstate
  · rintro _ ⟨⟩
    exact hs.protect connection himap
  · intro h hshould
    obtain ⟨hnoticed, he⟩ := h.of_snoc rfl
    have hr : reply.r.isStream = false := eq_false_of_ne_true fun hr => hstream hr he
    simp [SessionState.answered, Mailimap.after, hs.noticed hnoticed hshould _ himap, hr]
  · intro h hshould hstate
    have := hs.server (h.of_snoc rfl).1 hshould hstate _ himap
    simpa [SessionState.answered, Mailimap.after, hserver h hstate] using this

theorem Ready.answered (hs : Ready x s) (hc : Sendable x s c)
    (hserver : AllSettled x (s.answered c connection reply replies) → s.mState = .selected →
      connection.server.after c reply.r.effect = connection.server)
    (hstream : reply.r.isStream = true → ¬ IMAPEvent.Noticed ⟨c, connection, some reply.r⟩) :
    Ready x (s.answered c connection reply replies) := by
  refine ⟨hs.toInv.answered himap hc hserver hstream, hs.connected, fun hshould => ?_,
    fun h => hs.calm (h.of_snoc rfl).1⟩
  simp [SessionState.answered, Mailimap.after, hs.failed hshould _ himap]

/-- When the session has seen that the connection is lost. -/
theorem Inv.answered_lost (hs : Inv x s) (hc : Sendable x s c) :
    Inv x (s.answered c connection reply replies).lost := by
  have hstate : s.mState ≠ .disconnected := fun h => by simp [hs.imap.2 h] at himap
  refine ⟨hs.toGood.sent himap hc rfl ⟨rfl, rfl⟩, ?_, hs.current, ?_, fun _ => nofun,
    fun _ => nofun⟩
  · simpa [SessionState.answered, SessionState.lost] using hstate
  · rintro _ ⟨⟩
    exact hs.protect connection himap

/-- What has been answered well was not sent over a connection that was lost. -/
theorem Ready.mShouldDisconnect_of_ok (hs : Ready x s) (hok : reply.r = .ok)
    (h : AllSettled x (s.answered c connection reply replies)) : s.mShouldDisconnect = false := by
  by_contra hshould
  have := (h.of_snoc rfl).2.1 (hs.failed (by simpa using hshould) _ himap)
  simp [hok, MailimapResult.isStream] at this

end Answered

theorem after_eq {server : ServerState} {effect : Effect} (hc : c.changes = false) :
    server.after c effect = server := by
  cases c <;> cases effect <;> cases server <;>
    first | rfl | simp [IMAPCommand.changes, IMAPCommand.isSelect, IMAPCommand.authenticates] at hc

theorem onward_answered (hreplies : s.replies = reply :: replies) :
    Onward x s (s.answered c connection reply replies) := by
  refine ⟨?_, fun h => (h.of_snoc rfl).1⟩
  simp [SessionState.answered, hreplies]

theorem kept_answered (himap : s.mImap = some connection) (hreplies : s.replies = reply :: replies)
    (hc : c.changes = false) : Kept x s (s.answered c connection reply replies) := by
  refine ⟨onward_answered hreplies, rfl, rfl, rfl, ?_⟩
  simp [SessionState.answered, Mailimap.after, himap, after_eq hc]

end IMAPSession

end SecMail
