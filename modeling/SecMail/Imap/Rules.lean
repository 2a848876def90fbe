import Mathlib
import SecMail.Imap.Invariant

set_option mvcgen.warning false

/-!
# The methods that connect, log in and select a folder

What each method does to a session is stated as a Hoare triple, of the state before and of how it
ends: with `ErrorNone`, or otherwise, as `Ended` says.  A method is proved from the triples of those
that it calls.

* `request_spec` : one command;
* `connectIfNeeded_spec` : the connection, which is opened again when it was lost;
* `loggingIn` : the methods that call each other, by induction on how deep they are nested;
* `selectIfNeeded_spec` : the folder is selected.
-/

open Std.Do

namespace SecMail

namespace IMAPSession

variable {x : Setting} {s s' : SessionState}

theorem request_spec (c : IMAPCommand) (error : ErrorCode) (s₀ : SessionState)
    (hchanges : c.changes = false) :
    ⦃fun s => ⌜s = s₀ ∧ Ready x s ∧
      Sendable x s c⌝⦄
    request c error
    ⦃post⟨fun reply s => ⌜Ready x s ∧ Kept x s₀ s ∧
        s.replies.length < s₀.replies.length ∧
        (AllSettled x s → s₀.mShouldDisconnect = false) ∧ reply.r = .ok⌝,
      fun stop s => ⌜Ended x stop s⌝⟩⦄ := by
  mvcgen [request, command, checkResult]
  case vc1 h himap => exact absurd himap h.2.1.mImap_ne
  case vc2 h _ himap _ => exact h.2.1.toGood.hung himap h.2.2
  -- the command has succeeded
  case vc3 h _ himap _ _ hreplies hok =>
    obtain ⟨rfl, hs, hc⟩ := h
    refine ⟨hs.answered himap hc (fun _ _ => after_eq hchanges) fun h => ?_,
      kept_answered himap hreplies hchanges, ?_, hs.mShouldDisconnect_of_ok himap hok, hok⟩
    · simp [hok, MailimapResult.isStream] at h
    · simp [SessionState.answered, hreplies]
  -- the connection was lost, the answer cannot be read, or the server has refused
  case vc4 h _ himap _ _ _ _ _ _ => exact (h.2.1.toInv.answered_lost himap h.2.2).ended_error _
  case vc5 h _ himap _ _ _ _ hparse =>
    exact (h.2.1.answered himap h.2.2 (fun _ _ => after_eq hchanges)
      (by simp [hparse, MailimapResult.isStream])).toInv.ended_error _
  case vc6 h _ himap _ _ _ herror =>
    exact (h.2.1.answered himap h.2.2 (fun _ _ => after_eq hchanges)
      (by simp [herror, MailimapResult.isStream])).toInv.ended_error _

theorem capabilitySet_spec (set : IndexSet) (s₀ : SessionState) :
    ⦃fun s => ⌜s = s₀⌝⦄ capabilitySetWithSessionState set
    ⦃post⟨fun _ s => ⌜core s = core s₀⌝, fun _ _ => ⌜False⌝⟩⦄ := by
  mvcgen [capabilitySetWithSessionState]
  subst_vars
  rfl

/-! ### Connecting -/

variable (x) in
/-- The connection is being opened. -/
structure Opening (s : SessionState) : Prop extends Good x s where
  mState : s.mState = .disconnected
  mShouldDisconnect : s.mShouldDisconnect = false
  fresh' : ∀ c ∈ s.mImap, c.failed = false

theorem close_spec (error : ErrorCode) :
    ⦃fun s => ⌜Good x s⌝⦄
    close error
    ⦃post⟨fun _ _ => ⌜False⌝, fun stop s => ⌜Ended x stop s⌝⟩⦄ := by
  mvcgen [close, unsetup]
  case vc1 hs _ => exact hs.dropped.ended_error error

theorem openingCommand_spec (c : IMAPCommand) (error : ErrorCode) (s₀ : SessionState)
    (hchanges : c.changes = false) (hmailbox : c.ofMailbox = false) :
    ⦃fun s => ⌜s = s₀ ∧ Opening x s ∧ s.mImap ≠ none⌝⦄
    openingCommand c error
    ⦃post⟨fun reply s => ⌜Opening x s ∧
        s.mImap = s₀.mImap.map (·.after c reply) ∧ Onward x s₀ s⌝,
      fun stop s => ⌜Ended x stop s⌝⟩⦄ := by
  have hauth : c.authenticates = false := by
    cases c <;> first | rfl | simp [IMAPCommand.changes, IMAPCommand.authenticates] at hchanges
  have hc (s : SessionState) (hs : Opening x s) :
      Sendable x s c := by
    refine ⟨fun _ h => ?_, fun h => ?_, fun _ _ => hs.fresh'⟩
    · simp [hmailbox] at h
    · simp [hauth] at h
  mvcgen [openingCommand, command, close_spec]
  case vc1 h himap => exact absurd himap h.2.2
  case vc2 h _ himap _ => exact h.2.1.toGood.hung himap (hc _ h.2.1)
  -- a command that fails closes the connection
  case vc3 h _ himap _ _ _ _ _ => exact h.2.1.toGood.answered himap (hc _ h.2.1)
  case vc5 h _ himap reply _ hreplies _ hok =>
    obtain ⟨rfl, hs, -⟩ := h
    refine ⟨⟨hs.toGood.answered himap (hc _ hs), hs.mState, hs.mShouldDisconnect, ?_⟩, ?_, ?_⟩
    · rintro _ ⟨⟩
      have hstream : reply.r.isStream = false := by
        have hr : reply.r = .ok := by simpa [MailimapResult.hasError] using hok
        rw [hr]
        rfl
      simp [Mailimap.after, hs.fresh' _ himap, hstream]
    · simp [SessionState.answered, himap]
    · exact onward_answered hreplies

theorem Opening.mapConnection {f : Mailimap → Mailimap} (hs : Opening x s)
    (hf : ∀ c, (f c).failed = c.failed) :
    Opening x (s.mapConnection f) := by
  refine ⟨hs.toGood.congr rfl ⟨rfl, rfl⟩, hs.mState, hs.mShouldDisconnect, ?_⟩
  intro c hc
  obtain ⟨c', hc', rfl⟩ := Option.mem_map.1 hc
  exact (hf c').trans (hs.fresh' c' hc')

theorem Onward.mapConnection {s₀ : SessionState} {f : Mailimap → Mailimap} (h : Onward x s₀ s) :
    Onward x s₀ (s.mapConnection f) := ⟨h.replies, h.settled⟩

theorem Onward.of_mapConnection {s₀ : SessionState} {f : Mailimap → Mailimap}
    (h : Onward x (s₀.mapConnection f) s) : Onward x s₀ s := ⟨h.replies, h.settled⟩

theorem Onward.setState {s₀ : SessionState} {mState : MState} (h : Onward x s₀ s) :
    Onward x s₀ (s.setState mState) := ⟨h.replies, h.settled⟩

theorem setEncrypted_spec (s₀ : SessionState) :
    ⦃fun s => ⌜s = s₀⌝⦄ setEncrypted
    ⦃post⟨fun _ s => ⌜s = s₀.mapConnection fun c => { c with encrypted := true }⌝,
      fun _ _ => ⌜False⌝⟩⦄ := by
  mvcgen [setEncrypted]
  case vc1 h _ =>
    subst h
    rfl

theorem checkCertificate_spec (certificate : Bool) (s₀ : SessionState) :
    ⦃fun s => ⌜s = s₀⌝⦄ checkCertificate certificate
    ⦃post⟨fun checked s => ⌜if s₀.mCheckCertificateEnabled then checked = certificate ∧
        s = s₀.mapConnection fun c => { c with checked := certificate } else s = s₀⌝,
      fun _ _ => ⌜False⌝⟩⦄ := by
  mvcgen [checkCertificate]
  case vc1 h hcheck =>
    subst h
    rw [if_neg (by simpa using hcheck)]
  case vc2 h hcheck _ =>
    subst h
    rw [if_pos (by simpa using hcheck)]
    exact ⟨trivial, rfl⟩

theorem openConnection_spec (s₀ : SessionState) :
    ⦃fun s => ⌜s = s₀ ∧ Opening x s ∧ s.mImap = some .new⌝⦄
    openConnection
    ⦃post⟨fun _ s => ⌜Opening x s ∧ s.mImap ≠ none ∧
        (∀ c ∈ s.mImap, c.Protected x.init) ∧ Onward x s₀ s⌝,
      fun stop s => ⌜Ended x stop s⌝⟩⦄ := by
  mvcgen [openConnection, void, openingCommand_spec, close_spec, setEncrypted_spec,
    checkCertificate_spec]
  case vc3 h _ => exact ⟨trivial, h.2.1, by simp [h.2.2]⟩
  case vc6 h _ _ _ h₁ => exact ⟨trivial, h₁.1, by simp [h₁.2.1, h.2.2]⟩
  -- `STARTTLS`: the connection is encrypted, and no certificate is checked
  case vc7 h htype _ _ h₁ _ _ h₂ _ _ heq =>
    obtain ⟨rfl, hs, hnew⟩ := h
    subst heq
    have hinit : x.init.mConnectionType = .startTLS := hs.config.1.symm.trans htype
    refine ⟨h₂.1.mapConnection fun _ => rfl, ?_, ?_, (h₁.2.2.trans h₂.2.2).mapConnection⟩
    · simp [SessionState.mapConnection, h₂.2.1, h₁.2.1, hnew]
    · simp [SessionState.mapConnection, h₂.2.1, h₁.2.1, hnew, Mailimap.Protected, Mailimap.after,
        Mailimap.new, hinit]
  case vc10 h _ => exact ⟨trivial, h.2.1, by simp [h.2.2]⟩
  -- TLS with a certificate that is not accepted: the connection is closed
  case vc11 h htype _ _ h₁ _ _ heq _ _ _ _ hcheck =>
    subst heq
    have hs₁ := h₁.1.mapConnection (f := fun c => { c with encrypted := true }) fun _ => rfl
    split at hcheck
    · obtain ⟨-, rfl⟩ := hcheck
      exact hs₁.toGood.congr rfl ⟨rfl, rfl⟩
    · subst hcheck
      exact hs₁.toGood
  -- TLS with a certificate that is accepted, or is not looked at
  case vc13 h htype _ _ h₁ _ _ heq _ _ hok _ hcheck =>
    obtain ⟨rfl, hs, hnew⟩ := h
    subst heq
    have hinit : x.init.mConnectionType = .tls := hs.config.1.symm.trans htype
    have hs₁ := h₁.1.mapConnection (f := fun c => { c with encrypted := true }) fun _ => rfl
    split at hcheck
    next hif =>
      obtain ⟨hcertificate, rfl⟩ := hcheck
      have hcheck' : x.init.mCheckCertificateEnabled = true := hs₁.config.2.symm.trans hif
      rw [← hcertificate, Bool.not_eq_true', Bool.not_eq_false] at *
      refine ⟨hs₁.mapConnection fun _ => rfl, ?_, ?_, h₁.2.2.mapConnection.mapConnection⟩
      · simp [SessionState.mapConnection, h₁.2.1, hnew]
      · simp [SessionState.mapConnection, h₁.2.1, hnew, Mailimap.Protected, Mailimap.after,
          Mailimap.new, hinit, hcheck', hok]
    next hif =>
      subst hcheck
      have hcheck' : x.init.mCheckCertificateEnabled = false :=
        hs₁.config.2.symm.trans (by simpa using hif)
      refine ⟨hs₁, ?_, ?_, h₁.2.2.mapConnection⟩
      · simp [SessionState.mapConnection, h₁.2.1, hnew]
      · simp [SessionState.mapConnection, h₁.2.1, hnew, Mailimap.Protected, Mailimap.after,
          Mailimap.new, hinit, hcheck']
  case vc16 h _ => exact ⟨trivial, h.2.1, by simp [h.2.2]⟩
  -- a connection in the clear
  case vc17 h htype _ _ =>
    intro hs' himap hreplies
    obtain ⟨rfl, hs, hnew⟩ := h
    have hinit : x.init.mConnectionType = .clear := hs.config.1.symm.trans htype
    refine ⟨hs', ?_, ?_, hreplies⟩
    · simp [himap, hnew]
    · simp [himap, hnew, Mailimap.Protected, Mailimap.after, Mailimap.new, hinit]

theorem Opening.connected (hs : Opening x s) (himap : s.mImap ≠ none)
    (hprotect : ∀ c ∈ s.mImap, c.Protected x.init) :
    Ready x (s.setState .connected) :=
  ⟨⟨hs.toGood.congr rfl ⟨rfl, rfl⟩, iff_of_false himap nofun, nofun, hprotect,
    fun _ _ => hs.fresh', fun _ _ => nofun⟩, nofun,
    fun h => absurd (hs.mShouldDisconnect.symm.trans h) nofun, fun _ => hs.mShouldDisconnect⟩

theorem connectIfNeeded_ready_spec (n : ℕ) (hn : 1 ≤ n) (s₀ : SessionState) :
    ⦃fun s => ⌜s = s₀ ∧ s.mShouldDisconnect = false ∧ s.mState ≠ .disconnected⌝⦄
    connectIfNeeded n
    ⦃post⟨fun _ s => ⌜s = s₀⌝, fun _ _ => ⌜False⌝⟩⦄ := by
  obtain ⟨n, rfl⟩ := Nat.exists_eq_add_of_le' hn
  mvcgen [connectIfNeeded, disconnect, unsetup]
  case vc1 h _ hshould _ _ _ => simp [h.2.1] at hshould
  case vc3 h _ _ hstate => exact absurd hstate h.2.2
  case vc4 h _ _ _ => exact h.1

theorem sendable_plain (hs : Ready x s) {c : IMAPCommand}
    (hauth : c.authenticates = false) (hmailbox : c.ofMailbox = false) :
    Sendable x s c := by
  refine ⟨fun _ h => ?_, fun h => ?_, fun h _ => hs.noticed h (hs.calm h)⟩
  · simp [hmailbox] at h
  · simp [hauth] at h

theorem capability_ready_spec (n : ℕ) (hn : 2 ≤ n) (s₀ : SessionState) :
    ⦃fun s => ⌜s = s₀ ∧ Ready x s ∧ s.mShouldDisconnect = false⌝⦄
    capability n
    ⦃post⟨fun _ s => ⌜Ready x s ∧ Kept x s₀ s⌝,
      fun stop s => ⌜Ended x stop s⌝⟩⦄ := by
  obtain ⟨n, rfl⟩ := Nat.exists_eq_add_of_le' hn
  mvcgen [capability, connectIfNeeded_ready_spec, void, request_spec, capabilitySet_spec]
  case vc1 => omega
  case vc2 h => exact ⟨trivial, h.2.2, h.2.1.connected⟩
  case vc4 h _ _ heq =>
    subst heq
    exact ⟨trivial, h.2.1, sendable_plain h.2.1 rfl rfl⟩
  case vc5 h _ _ heq _ _ hr _ _ =>
    intro hcore
    obtain rfl := h.1
    subst heq
    exact ⟨hr.1.congr hcore, hr.2.1.trans (.of_core hcore)⟩

theorem setup_spec (s₀ : SessionState) :
    ⦃fun s => ⌜s = s₀ ∧ Inv x s ∧ s.mState = .disconnected ∧
      s.mShouldDisconnect = false⌝⦄
    setup
    ⦃post⟨fun _ s => ⌜Opening x s ∧ s.mImap = some .new ∧
        Onward x s₀ s⌝,
      fun _ _ => ⌜False⌝⟩⦄ := by
  mvcgen [setup, assert]
  case vc1 h _ =>
    obtain ⟨rfl, hs, hstate, hshould⟩ := h
    refine ⟨⟨hs.toGood.congr rfl ⟨rfl, rfl⟩, hstate, hshould, ?_⟩, trivial, ⟨le_rfl, id⟩⟩
    rintro _ ⟨⟩
    rfl
  case vc2 h himap =>
    exact himap (by simp [h.2.1.imap.2 h.2.2.1])

theorem setWelcomeString_spec (imap_response : Option String) (s₀ : SessionState) :
    ⦃fun s => ⌜s = s₀⌝⦄ setWelcomeString imap_response
    ⦃post⟨fun _ s => ⌜core s = core s₀⌝, fun _ _ => ⌜False⌝⟩⦄ := by
  mvcgen [setWelcomeString]
  subst_vars
  rfl

theorem automaticCapability_spec (n : ℕ) (hn : 2 ≤ n) (s₀ : SessionState) :
    ⦃fun s => ⌜s = s₀ ∧ Ready x s ∧ s.mShouldDisconnect = false⌝⦄
    automaticCapability (capability n)
    ⦃post⟨fun _ s => ⌜Ready x s ∧ Kept x s₀ s⌝,
      fun stop s => ⌜Ended x stop s⌝⟩⦄ := by
  mvcgen [automaticCapability, void, capability_ready_spec, capabilitySet_spec]
  case vc1 h _ _ _ _ hcore =>
    obtain ⟨rfl, hs, -⟩ := h
    exact ⟨hs.congr hcore, .of_core hcore⟩
  case vc3 h _ _ => exact ⟨trivial, h.2⟩
  case vc4 h _ _ _ _ hs =>
    obtain rfl := h.1
    exact hs
  case vc5 h _ =>
    obtain ⟨rfl, hs, -⟩ := h
    exact ⟨hs, .of_core rfl⟩

theorem core_setState {mState : MState} (hcore : core s = core s') :
    core (s.setState mState) = core (s'.setState mState) := by
  simp only [core, Prod.mk.injEq, SessionState.setState] at hcore ⊢
  exact ⟨hcore.1, hcore.2.1, hcore.2.2.1, trivial, hcore.2.2.2.2⟩

theorem Opening.connected_of_core (hs : Opening x s)
    (himap : s.mImap ≠ none) (hprotect : ∀ c ∈ s.mImap, c.Protected x.init)
    (hcore : core s' = core s) : Ready x (s'.setState .connected) ∧
      s'.mShouldDisconnect = false ∧ Onward x s s' :=
  ⟨(hs.connected himap hprotect).congr (core_setState hcore),
    (Kept.of_core (x := x) hcore).mShouldDisconnect.trans hs.mShouldDisconnect,
    (Kept.of_core hcore).toOnward⟩

theorem connect_spec (n : ℕ) (hn : 3 ≤ n) (s₀ : SessionState) :
    ⦃fun s => ⌜s = s₀ ∧ Inv x s ∧ s.mState = .disconnected ∧
      s.mShouldDisconnect = false⌝⦄
    connect n
    ⦃post⟨fun _ s => ⌜Ready x s ∧ s.mState = .connected ∧
        s.mShouldDisconnect = false ∧ Onward x s₀ s⌝,
      fun stop s => ⌜Ended x stop s⌝⟩⦄ := by
  obtain ⟨n, rfl⟩ := Nat.exists_eq_add_of_le' hn
  mvcgen [connect, setup_spec, assert, openConnection_spec, setWelcomeString_spec, close_spec,
    automaticCapability_spec]
  case vc2 h => exact ⟨trivial, h.2⟩
  case vc3 h _ => exact ⟨trivial, h.1, h.2.1⟩
  case vc5 => omega
  case vc6 h _ _ hcore _ =>
    obtain ⟨hs, hshould, -⟩ := h.1.connected_of_core h.2.1 h.2.2.1 hcore
    exact ⟨trivial, hs, hshould⟩
  case vc7 hs₀ _ _ hnew _ _ _ h _ _ hcore _ _ _ =>
    intro hs hkept
    obtain ⟨-, hshould, honward⟩ := h.1.connected_of_core h.2.1 h.2.2.1 hcore
    obtain rfl := hs₀.1
    exact ⟨hs, hkept.mState, hkept.mShouldDisconnect.trans hshould,
      ((hnew.2.2.trans h.2.2.2).trans honward).trans ⟨hkept.replies, hkept.settled⟩⟩
  case vc8 h => exact h.toGood
  case vc9 => exact False.elim
  case vc11 h hstate => simp [h.1.mState] at hstate

theorem Inv.ready (hs : Inv x s) (hstate : s.mState ≠ .disconnected)
    (hshould : s.mShouldDisconnect = false) : Ready x s :=
  ⟨hs, hstate, fun h => absurd hshould (by simp [h]), fun _ => hshould⟩

theorem connectIfNeeded_spec (n : ℕ) (hn : 4 ≤ n) (s₀ : SessionState) :
    ⦃fun s => ⌜s = s₀ ∧ Inv x s⌝⦄
    connectIfNeeded n
    ⦃post⟨fun _ s => ⌜Ready x s ∧ s.mShouldDisconnect = false ∧
        Onward x s₀ s ∧ (s = s₀ ∨ s.mState = .connected) ∧
        (s₀.mShouldDisconnect = false → s₀.mState ≠ .disconnected → s = s₀)⌝,
      fun stop s => ⌜Ended x stop s⌝⟩⦄ := by
  obtain ⟨n, rfl⟩ := Nat.exists_eq_add_of_le' hn
  mvcgen [connectIfNeeded, connect_spec, disconnect, unsetup]
  case vc1 => omega
  -- a connection that was lost is dropped, and opened again
  case vc2 h _ _ _ _ _ =>
    have hs := h.2.toGood.dropped
    exact ⟨trivial, ⟨hs.toGood.congr rfl ⟨rfl, rfl⟩, hs.imap, hs.current, hs.protect,
      fun _ _ => nofun, fun _ _ => nofun⟩, rfl, rfl⟩
  case vc3 h _ hshould _ _ _ _ _ =>
    intro hs hstate hclear honward
    obtain rfl := h.1
    exact ⟨hs, hclear, ⟨honward.replies, honward.settled⟩, .inr hstate,
      fun h => by simp [h] at hshould⟩
  case vc5 => omega
  -- there is no connection
  case vc6 h _ hshould hstate =>
    exact ⟨trivial, h.2, hstate, by simpa using hshould⟩
  case vc7 h _ hshould hstate _ _ =>
    intro hs hstate' hclear honward
    obtain rfl := h.1
    exact ⟨hs, hclear, honward, .inr hstate', fun _ hne => absurd hstate hne⟩
  -- the session is connected
  case vc8 h _ hshould hstate =>
    obtain ⟨rfl, hs⟩ := h
    have hshould' := eq_false_of_ne_true hshould
    exact ⟨hs.ready hstate hshould', hshould', .refl _, .inl rfl, fun _ _ => rfl⟩

/-! ### Logging in -/

theorem Ready.mapConnection {f : Mailimap → Mailimap} (hs : Ready x s)
    (hf : ∀ c, (f c).server = c.server ∧ (f c).failed = c.failed ∧ (f c).encrypted = c.encrypted ∧
      (f c).checked = c.checked) : Ready x (s.mapConnection f) := by
  have hmap (P : Mailimap → Prop) (hP : ∀ c ∈ s.mImap, P (f c)) :
      ∀ c ∈ (s.mapConnection f).mImap, P c := by
    intro c hc
    obtain ⟨c', hc', rfl⟩ := Option.mem_map.1 hc
    exact hP c' hc'
  refine ⟨⟨hs.toGood.congr rfl ⟨rfl, rfl⟩, ?_, hs.current, hmap _ fun c hc => ?_,
    fun h hshould => hmap _ fun c hc => ?_, fun h hshould hstate => hmap _ fun c hc => ?_⟩,
    hs.connected, fun hshould => hmap _ fun c hc => ?_, hs.calm⟩
  · simpa [SessionState.mapConnection] using hs.imap
  · rw [Mailimap.Protected, (hf c).2.2.1, (hf c).2.2.2]
    exact hs.protect c hc
  · exact (hf c).2.1.trans (hs.noticed h hshould c hc)
  · rw [(hf c).1]
    exact hs.server h hshould hstate c hc
  · exact (hf c).2.1.trans (hs.failed hshould c hc)

theorem Ready.setState {mState : MState} (hs : Ready x s)
    (hstate : mState ≠ .disconnected) (hselected : mState ≠ .selected) :
    Ready x (s.setState mState) :=
  ⟨⟨hs.toGood.congr rfl ⟨rfl, rfl⟩, iff_of_false hs.mImap_ne hstate,
    fun h => absurd h hselected, hs.protect, hs.noticed, fun _ _ h => absurd h hselected⟩, hstate,
    hs.failed, hs.calm⟩

/-- What stands for the password is sent over a connection as the settings ask for. -/
theorem sendable_authentication (hs : Ready x s) (authType : AuthType) :
    Sendable x s (authenticationCommand authType) := by
  have hmailbox : (authenticationCommand authType).ofMailbox = false := by cases authType <;> rfl
  refine ⟨fun _ h => ?_, fun _ => hs.protect, fun h _ => hs.noticed h (hs.calm h)⟩
  simp [hmailbox] at h

theorem authenticate_spec (s₀ : SessionState) :
    ⦃fun s => ⌜s = s₀ ∧ Ready x s ∧ s.mState = .connected ∧
      s.mShouldDisconnect = false⌝⦄
    authenticate
    ⦃post⟨fun _ s => ⌜Ready x s ∧ s.mState = .loggedin ∧
        s.mShouldDisconnect = false ∧ s.replies.length < s₀.replies.length ∧ Onward x s₀ s⌝,
      fun stop s => ⌜Ended x stop s⌝⟩⦄ := by
  have hforget {s : SessionState} (hs : Ready x s) :
      Ready x
        (s.mapConnection fun c => { c with imap_capability := none }) :=
    hs.mapConnection fun _ => ⟨rfl, rfl, rfl, rfl⟩
  mvcgen [authenticate, command, checkResult]
  case vc1 h _ himap => exact absurd himap (hforget h.2.1).mImap_ne
  case vc2 h _ _ himap _ =>
    have hs := hforget h.2.1
    exact hs.toGood.hung himap (sendable_authentication hs _)
  case vc3 h _ _ himap reply _ hreplies hok _ =>
    obtain ⟨rfl, hs₀, hstate, hshould⟩ := h
    have hs := hforget hs₀
    refine ⟨(hs.answered himap (sendable_authentication hs _)
      (fun _ hselected => absurd (hstate.symm.trans hselected) nofun)
      (by simp [hok, MailimapResult.isStream])).setState nofun nofun, rfl, hshould, ?_, ?_⟩
    · exact Nat.lt_of_lt_of_eq (Nat.lt_succ_self _) (congrArg List.length hreplies).symm
    · exact (onward_answered hreplies).setState.of_mapConnection
  -- the login has failed
  case vc4 h _ _ himap _ _ _ _ _ _ =>
    have hs := hforget h.2.1
    exact (hs.toInv.answered_lost himap (sendable_authentication hs _)).ended_error _
  case vc5 h _ _ himap _ _ _ _ hparse =>
    have hs := hforget h.2.1
    exact (hs.answered himap (sendable_authentication hs _)
      (fun _ hselected => absurd (h.2.2.1.symm.trans hselected) nofun)
      (by simp [hparse, MailimapResult.isStream])).toInv.ended_error _
  case vc6 h _ _ himap _ _ _ herror =>
    have hs := hforget h.2.1
    exact (hs.answered himap (sendable_authentication hs _)
      (fun _ hselected => absurd (h.2.2.1.symm.trans hselected) nofun)
      (by simp [herror, MailimapResult.isStream])).toInv.ended_error _

theorem Ready.answered_unnoticed {c : IMAPCommand} {connection : Mailimap} {reply : IMAPReply}
    {replies : List IMAPReply} (hs : Ready x s)
    (himap : s.mImap = some connection) (hc : Sendable x s c)
    (hstream : reply.r.isStream = true)
    (hnoticed : ¬ IMAPEvent.Noticed ⟨c, connection, some reply.r⟩) :
    Ready x (s.answered c connection reply replies).lost := by
  refine ⟨hs.toInv.answered_lost himap hc, hs.connected, fun _ => ?_, fun h => ?_⟩
  · rintro _ ⟨⟩
    simp [Mailimap.after, hstream]
  · exact absurd (h.of_snoc rfl).2 hnoticed

theorem not_noticed {c : IMAPCommand} {connection : Mailimap} {r : MailimapResult}
    (hr : r.isStream = true) (hc : c.unwatched = true) :
    ¬ IMAPEvent.Noticed ⟨c, connection, some r⟩ :=
  fun h => absurd (h hc r rfl) (by simp [hr])

variable (x) in
/-- What the commands that follow a login leave as it is. -/
structure Going (s₀ s : SessionState) : Prop extends Ready x s,
    Onward x s₀ s where
  mState : s.mState = s₀.mState

theorem Ready.going {c : IMAPCommand} {connection : Mailimap} {reply : IMAPReply}
    {replies : List IMAPReply}
    (hs : Ready x (s.answered c connection reply replies))
    (hreplies : s.replies = reply :: replies) :
    Going x s (s.answered c connection reply replies) := by
  exact ⟨hs, onward_answered hreplies, rfl⟩

theorem Ready.going_lost {c : IMAPCommand} {connection : Mailimap} {reply : IMAPReply}
    {replies : List IMAPReply}
    (hs : Ready x (s.answered c connection reply replies).lost)
    (hreplies : s.replies = reply :: replies) :
    Going x s (s.answered c connection reply replies).lost := by
  have honward : Onward x s (s.answered c connection reply replies) := onward_answered hreplies
  exact ⟨hs, ⟨honward.replies, honward.settled⟩, rfl⟩

theorem enableCompression_spec (s₀ : SessionState) :
    ⦃fun s => ⌜s = s₀ ∧ Ready x s⌝⦄
    enableCompression
    ⦃post⟨fun _ s => ⌜Going x s₀ s⌝,
      fun stop s => ⌜Ended x stop s ∧
        (stop.ends = false → Going x s₀ s)⌝⟩⦄ := by
  have hc {s : SessionState} (hs : Ready x s) :
      Sendable x s .compress := sendable_plain hs rfl rfl
  mvcgen [enableCompression, void, request, command, checkResult]
  case vc1 h himap => exact absurd himap h.2.mImap_ne
  case vc2 h _ himap _ => exact ⟨h.2.toGood.hung himap (hc h.2), nofun⟩
  case vc3 h _ himap _ _ hreplies hok =>
    obtain ⟨rfl, hs⟩ := h
    exact (hs.answered himap (hc hs) (fun _ _ => after_eq rfl)
      (by simp [hok, MailimapResult.isStream])).going hreplies
  -- the connection was lost, and the login goes on: such a run is not noticed
  case vc4 h _ himap _ _ hreplies _ hstream _ =>
    obtain ⟨rfl, hs⟩ := h
    have hlost : Going x _ _ :=
      (hs.answered_unnoticed himap (hc hs) (by rw [hstream]; rfl)
        (not_noticed (by rw [hstream]; rfl) rfl)).going_lost hreplies
    exact ⟨hlost.toInv.ended_error _, fun _ => hlost⟩
  case vc5 h _ himap _ _ hreplies _ hparse =>
    obtain ⟨rfl, hs⟩ := h
    have hanswered := (hs.answered himap (hc hs) (fun _ _ => after_eq rfl)
      (by simp [hparse, MailimapResult.isStream])).going hreplies
    exact ⟨hanswered.toInv.ended_error _, fun _ => hanswered⟩
  case vc6 h _ himap _ _ hreplies herror =>
    obtain ⟨rfl, hs⟩ := h
    have hanswered := (hs.answered himap (hc hs) (fun _ _ => after_eq rfl)
      (by simp [herror, MailimapResult.isStream])).going hreplies
    exact ⟨hanswered.toInv.ended_error _, fun _ => hanswered⟩

theorem enableFeature_spec (feature : String) (s₀ : SessionState) :
    ⦃fun s => ⌜s = s₀ ∧ Ready x s⌝⦄
    enableFeature feature
    ⦃post⟨fun _ s => ⌜Going x s₀ s⌝,
      fun stop s => ⌜Ended x stop s⌝⟩⦄ := by
  have hc {s : SessionState} (hs : Ready x s) :
      Sendable x s (.enable feature) := sendable_plain hs rfl rfl
  mvcgen [enableFeature, command]
  case vc1 h himap => exact absurd himap h.2.mImap_ne
  case vc2 h _ himap _ => exact h.2.toGood.hung himap (hc h.2)
  case vc3 h _ himap _ _ hreplies =>
    obtain ⟨rfl, hs⟩ := h
    exact (hs.answered himap (hc hs) (fun _ _ => after_eq rfl)
      fun hr => not_noticed hr rfl).going hreplies

theorem Going.trans {s₁ s₂ s₃ : SessionState} (h : Going x s₁ s₂)
    (h' : Going x s₂ s₃) : Going x s₁ s₃ :=
  ⟨h'.toReady, h.toOnward.trans h'.toOnward, h'.mState.trans h.mState⟩

theorem enableCompressionIfNeeded_spec (s₀ : SessionState) :
    ⦃fun s => ⌜s = s₀ ∧ Ready x s⌝⦄
    enableCompressionIfNeeded
    ⦃post⟨fun _ s => ⌜Going x s₀ s⌝,
      fun stop s => ⌜Ended x stop s⌝⟩⦄ := by
  mvcgen [enableCompressionIfNeeded, enableCompression_spec]
  case vc2 h _ => exact ⟨trivial, h.2⟩
  case vc3 h _ _ _ =>
    obtain rfl := h.1
    exact id
  -- the error is not looked at
  case vc4 h _ _ _ _ _ hgoing =>
    obtain rfl := h.1
    exact hgoing.2 rfl
  case vc5 _ _ _ _ _ _ h => exact h.1
  case vc6 h _ =>
    obtain ⟨rfl, hs⟩ := h
    exact ⟨hs, .refl _, rfl⟩

theorem enableFeatures_spec (s₀ : SessionState) :
    ⦃fun s => ⌜s = s₀ ∧ Ready x s⌝⦄
    enableFeatures
    ⦃post⟨fun _ s => ⌜Going x s₀ s⌝,
      fun stop s => ⌜Ended x stop s⌝⟩⦄ := by
  mvcgen [enableFeatures, void, enableCompressionIfNeeded_spec, enableFeature_spec]
  case vc1 h => exact ⟨trivial, h.2⟩
  case vc2 h _ => exact ⟨trivial, h.toReady⟩
  case vc3 h₀ _ _ h _ _ _ h' =>
    obtain rfl := h₀.1
    exact h.trans h'
  case vc4 h _ _ => exact ⟨trivial, h.toReady⟩
  case vc5 h₀ _ _ h _ _ _ _ h' =>
    obtain rfl := h₀.1
    exact h.trans h'
  case vc6 h₀ _ _ h _ _ =>
    obtain rfl := h₀.1
    exact h

theorem resultsWithError_spec (reply : IMAPReply) (s₀ : SessionState) :
    ⦃fun s => ⌜s = s₀⌝⦄
    resultsWithError reply
    ⦃post⟨fun _ s => ⌜s = s₀ ∧ reply.r = .ok⌝,
      fun stop s => ⌜s = s₀ ∧ ∃ error, stop = .error error⌝⟩⦄ := by
  mvcgen [resultsWithError]
  case vc1 h => exact ⟨h, _, rfl⟩
  case vc2 h => exact ⟨h, _, rfl⟩
  case vc3 h => exact ⟨h, _, rfl⟩

theorem setDefaultNamespace_spec (ns : List (String × Option Char)) (s₀ : SessionState) :
    ⦃fun s => ⌜s = s₀⌝⦄ setDefaultNamespace ns
    ⦃post⟨fun _ s => ⌜core s = core s₀⌝, fun _ _ => ⌜False⌝⟩⦄ := by
  mvcgen [setDefaultNamespace]
  subst_vars
  rfl

theorem allSettled_of_core (hcore : core s' = core s) : AllSettled x s' ↔ AllSettled x s := by
  simp only [core, Prod.mk.injEq] at hcore
  rw [AllSettled, hcore.2.2.2.2.2.2.2, AllSettled]

theorem listDefaultNamespace_spec (s₀ : SessionState) :
    ⦃fun s => ⌜s = s₀ ∧ Ready x s⌝⦄
    listDefaultNamespace
    ⦃post⟨fun _ s => ⌜Ready x s ∧ Kept x s₀ s ∧
        (AllSettled x s → s₀.mShouldDisconnect = false)⌝,
      fun stop s => ⌜Ended x stop s⌝⟩⦄ := by
  have hc {s : SessionState} (hs : Ready x s) :
      Sendable x s (.list "" "") := sendable_plain hs rfl rfl
  have hanswered {s : SessionState} {connection : Mailimap} {reply : IMAPReply}
      {replies : List IMAPReply} (hs : Ready x s)
      (himap : s.mImap = some connection) :
      Ready x (s.answered (.list "" "") connection reply replies) :=
    hs.answered himap (hc hs) (fun _ _ => after_eq rfl)
      fun hr => not_noticed hr rfl
  mvcgen [listDefaultNamespace, command, resultsWithError_spec, setDefaultNamespace_spec]
  case vc1 h himap => exact absurd himap h.2.mImap_ne
  case vc2 h _ himap _ => exact h.2.toGood.hung himap (hc h.2)
  -- an empty list
  case vc3 h _ himap _ _ _ _ _ _ heq =>
    obtain ⟨rfl, -⟩ := heq
    exact (hanswered h.2 himap).toInv.ended_error _
  case vc4 h _ himap _ _ hreplies _ _ _ _ _ _ heq _ _ =>
    obtain ⟨rfl, hs⟩ := h
    obtain ⟨rfl, hok⟩ := heq
    intro hcore
    exact ⟨(hanswered hs himap).congr hcore,
      (kept_answered himap hreplies rfl).trans (.of_core hcore),
      fun h => hs.mShouldDisconnect_of_ok himap hok ((allSettled_of_core hcore).1 h)⟩
  case vc5 h _ himap _ _ _ _ _ =>
    rintro rfl ⟨error, rfl⟩
    exact (hanswered h.2 himap).toInv.ended_error error

theorem identity_spec (n : ℕ) (hn : 4 ≤ n) (s₀ : SessionState) :
    ⦃fun s => ⌜s = s₀ ∧ Inv x s⌝⦄
    identity n
    ⦃post⟨fun _ s => ⌜Ready x s ∧ s.mShouldDisconnect = false ∧
        (s.mState = s₀.mState ∨ s.mState = .connected) ∧
        Onward x s₀ s ∧
        (s₀.mShouldDisconnect = false → s₀.mState ≠ .disconnected → s.mState = s₀.mState)⌝,
      fun stop s => ⌜Ended x stop s⌝⟩⦄ := by
  mvcgen [identity, void, connectIfNeeded_spec, request_spec]
  case vc2 h => exact ⟨trivial, h.2⟩
  case vc4 h => exact ⟨trivial, h.1, sendable_plain h.1 rfl rfl⟩
  case vc5 h₀ _ _ h _ _ h' =>
    obtain rfl := h₀.1
    obtain ⟨-, hclear, honward, hstate, hsame⟩ := h
    refine ⟨h'.1, h'.2.1.mShouldDisconnect.trans hclear, ?_, honward.trans h'.2.1.toOnward,
      fun hshould hne => ?_⟩
    · obtain rfl | hconnected := hstate
      · exact .inl h'.2.1.mState
      · exact .inr (h'.2.1.mState.trans hconnected)
    · rw [h'.2.1.mState, hsame hshould hne]

/-! ### The calls that are nested -/

variable (x) in
/-- `login` has succeeded. -/
structure LoggedIn (s₀ s : SessionState) : Prop extends Ready x s,
    Onward x s₀ s where
  mState : s.mState = .connected ∨ s.mState = .loggedin
  loggedin : AllSettled x s → s.mState = .loggedin

variable (x) in
/-- `loginIfNeeded` has succeeded. -/
structure Usable (s₀ s : SessionState) : Prop extends Ready x s,
    Onward x s₀ s where
  loggedin : AllSettled x s → s.mState ≠ .connected
  selected : s.mState = .selected → s = s₀ ∧ s.mShouldDisconnect = false

variable (x) in
/-- `fetchNamespace` has succeeded. -/
structure Named (s₀ s : SessionState) : Prop extends Ready x s,
    Onward x s₀ s where
  loggedin : AllSettled x s → s.mState ≠ .connected ∧ s.mShouldDisconnect = false
  selected : s.mState = .selected → s₀.mState = .selected

variable (x) in
/-- What the methods do that log in, when their calls are nested no deeper than `n`. -/
structure LoggingIn (n : ℕ) : Prop where
  login (s₀ : SessionState) :
    ⦃fun s => ⌜s = s₀ ∧ Ready x s ∧ s.mState = .connected ∧
      s.mShouldDisconnect = false ∧ 3 * s.replies.length + 5 ≤ n⌝⦄
    login n
    ⦃post⟨fun _ s => ⌜LoggedIn x s₀ s⌝,
      fun stop s => ⌜Ended x stop s⌝⟩⦄
  loginIfNeeded (s₀ : SessionState) :
    ⦃fun s => ⌜s = s₀ ∧ Inv x s ∧ 3 * s.replies.length + 6 ≤ n⌝⦄
    loginIfNeeded n
    ⦃post⟨fun _ s => ⌜Usable x s₀ s⌝,
      fun stop s => ⌜Ended x stop s⌝⟩⦄
  fetchNamespace (s₀ : SessionState) :
    ⦃fun s => ⌜s = s₀ ∧ Inv x s ∧ 3 * s.replies.length + 7 ≤ n⌝⦄
    fetchNamespace n
    ⦃post⟨fun _ s => ⌜Named x s₀ s⌝,
      fun stop s => ⌜Ended x stop s⌝⟩⦄

theorem loginIfNeeded_step {n : ℕ} (h : LoggingIn x n)
    (s₀ : SessionState) :
    ⦃fun s => ⌜s = s₀ ∧ Inv x s ∧ 3 * s.replies.length + 6 ≤ n + 1⌝⦄
    loginIfNeeded (n + 1)
    ⦃post⟨fun _ s => ⌜Usable x s₀ s⌝,
      fun stop s => ⌜Ended x stop s⌝⟩⦄ := by
  have login_spec := h.login
  mvcgen [loginIfNeeded, connectIfNeeded_spec, login_spec]
  case vc1 => omega
  case vc2 h₀ => exact ⟨trivial, h₀.2.1⟩
  case vc3 h₀ _ _ h₁ hstate =>
    have := h₁.2.2.1.replies
    exact ⟨trivial, h₁.1, hstate, h₁.2.1, by omega⟩
  -- a login may connect again, but it selects no folder
  case vc4 h₀ _ _ h₁ _ _ _ =>
    intro h₂
    obtain rfl := h₀.1
    refine ⟨h₂.toReady, h₁.2.2.1.trans h₂.toOnward, fun hsettled => ?_, fun hselected => ?_⟩
    · rw [h₂.loggedin hsettled]
      nofun
    · obtain hstate | hstate := h₂.mState <;> cases hstate.symm.trans hselected
  -- the session is logged in, and as it was if a folder is selected
  case vc5 h₀ _ _ h₁ hstate =>
    obtain rfl := h₀.1
    exact ⟨h₁.1, h₁.2.2.1, fun _ => hstate, fun _ => ⟨h₁.2.2.2.1.resolve_right hstate, h₁.2.1⟩⟩

theorem fetchNamespace_step {n : ℕ} (h : LoggingIn x n)
    (s₀ : SessionState) :
    ⦃fun s => ⌜s = s₀ ∧ Inv x s ∧ 3 * s.replies.length + 7 ≤ n + 1⌝⦄
    fetchNamespace (n + 1)
    ⦃post⟨fun _ s => ⌜Named x s₀ s⌝,
      fun stop s => ⌜Ended x stop s⌝⟩⦄ := by
  have loginIfNeeded_spec := h.loginIfNeeded
  mvcgen [fetchNamespace, loginIfNeeded_spec, request_spec]
  case vc1 h₀ => exact ⟨trivial, h₀.2.1, by omega⟩
  case vc3 h₁ => exact ⟨trivial, h₁.toReady, sendable_plain h₁.toReady rfl rfl⟩
  case vc4 h₀ _ _ h₁ _ _ h₂ =>
    obtain rfl := h₀.1
    refine ⟨h₂.1, h₁.toOnward.trans h₂.2.1.toOnward, fun hsettled => ⟨?_, ?_⟩, fun hselected => ?_⟩
    · rw [h₂.2.1.mState]
      exact h₁.loggedin (h₂.2.1.settled hsettled)
    · exact h₂.2.1.mShouldDisconnect.trans (h₂.2.2.2.1 hsettled)
    · have hstate := h₂.2.1.mState.symm.trans hselected
      rw [← (h₁.selected hstate).1]
      exact hstate

theorem Named.mState {s₀ s : SessionState} (h : Named x s₀ s)
    (hstate : s₀.mState = .loggedin) : s.mState = .connected ∨ s.mState = .loggedin := by
  cases hs : s.mState with
  | disconnected => exact absurd hs h.connected
  | connected => exact .inl rfl
  | loggedin => exact .inr rfl
  | selected => cases hstate.symm.trans (h.selected hs)

theorem automaticNamespace_spec {n : ℕ} (h : LoggingIn x n)
    (s₀ : SessionState) :
    ⦃fun s => ⌜s = s₀ ∧ Ready x s ∧ s.mState = .loggedin ∧
      3 * s.replies.length + 7 ≤ n⌝⦄
    automaticNamespace (fetchNamespace n)
    ⦃post⟨fun _ s => ⌜Named x s₀ s⌝,
      fun stop s => ⌜Ended x stop s⌝⟩⦄ := by
  have fetchNamespace_spec := h.fetchNamespace
  mvcgen [automaticNamespace, fetchNamespace_spec, setDefaultNamespace_spec,
    listDefaultNamespace_spec]
  case vc1 h₀ _ _ => exact ⟨trivial, h₀.2.1.toInv, h₀.2.2.2⟩
  -- the server has named one
  case vc2 h₀ _ _ _ _ _ _ h₁ _ _ =>
    intro hcore
    obtain rfl := h₀.1
    have hkept := Kept.of_core (x := x) hcore
    refine ⟨h₁.congr hcore, h₁.toOnward.trans hkept.toOnward, ?_, ?_⟩
    · rw [hkept.mState, hkept.mShouldDisconnect]
      exact fun hsettled => h₁.loggedin (hkept.settled hsettled)
    · rw [hkept.mState]
      exact h₁.selected
  case vc3 h₁ => exact ⟨trivial, h₁.toReady⟩
  -- it has named none
  case vc4 h₀ _ _ _ _ _ h₁ _ _ =>
    intro h₂ hkept hclear
    obtain rfl := h₀.1
    refine ⟨h₂, h₁.toOnward.trans hkept.toOnward, ?_, ?_⟩
    · rw [hkept.mState, hkept.mShouldDisconnect]
      exact fun hsettled => h₁.loggedin (hkept.settled hsettled)
    · rw [hkept.mState]
      exact h₁.selected
  case vc5 h₀ _ _ => exact ⟨trivial, h₀.2.1⟩
  -- it is not asked
  case vc6 h₀ _ _ _ _ =>
    intro h₂ hkept hclear
    obtain ⟨rfl, -, hstate, -⟩ := h₀
    refine ⟨h₂, hkept.toOnward, ?_, ?_⟩
    · rw [hkept.mState, hkept.mShouldDisconnect, hstate]
      exact fun hsettled => ⟨nofun, hclear hsettled⟩
    · rw [hkept.mState]
      exact id

theorem automaticConfiguration_spec {n : ℕ} (h : LoggingIn x n)
    (s₀ : SessionState) :
    ⦃fun s => ⌜s = s₀ ∧ Ready x s ∧ s.mState = .loggedin ∧
      3 * s.replies.length + 7 ≤ n⌝⦄
    automaticConfiguration (fetchNamespace n) (identity n)
    ⦃post⟨fun _ s => ⌜LoggedIn x s₀ s⌝,
      fun stop s => ⌜Ended x stop s⌝⟩⦄ := by
  mvcgen [automaticConfiguration, automaticNamespace_spec, identity_spec]
  case vc2 h₀ _ => exact ⟨trivial, h₀.2⟩
  case vc3 => omega
  case vc4 h₁ _ => exact ⟨trivial, h₁.toInv⟩
  -- `identity` connects again only if the connection was lost, and then the answers are not settled
  case vc5 h₀ _ _ _ h₁ _ _ _ =>
    intro hs hclear hstate honward hsame
    obtain rfl := h₀.1
    refine ⟨hs, h₁.toOnward.trans honward, ?_, fun hsettled => ?_⟩
    · obtain hstate | hconnected := hstate
      · rw [hstate]
        exact h₁.mState h₀.2.2.1
      · exact .inl hconnected
    · obtain ⟨hconnected, hclear₁⟩ := h₁.loggedin (honward.settled hsettled)
      rw [hsame hclear₁ h₁.connected]
      exact (h₁.mState h₀.2.2.1).resolve_left hconnected
  case vc6 h₀ _ _ _ h₁ _ =>
    obtain rfl := h₀.1
    have hstate := h₁.mState h₀.2.2.1
    exact ⟨h₁.toReady, h₁.toOnward, hstate,
      fun hsettled => hstate.resolve_left (h₁.loggedin hsettled).1⟩
  case vc7 h₀ _ =>
    obtain ⟨rfl, hs, hstate, -⟩ := h₀
    exact ⟨hs, .refl _, .inr hstate, fun _ => hstate⟩

theorem login_step {n : ℕ} (h : LoggingIn x n) (s₀ : SessionState) :
    ⦃fun s => ⌜s = s₀ ∧ Ready x s ∧ s.mState = .connected ∧
      s.mShouldDisconnect = false ∧ 3 * s.replies.length + 5 ≤ n + 1⌝⦄
    login (n + 1)
    ⦃post⟨fun _ s => ⌜LoggedIn x s₀ s⌝,
      fun stop s => ⌜Ended x stop s⌝⟩⦄ := by
  mvcgen [login, assert, authenticate_spec, automaticCapability_spec, enableFeatures_spec,
    automaticConfiguration_spec]
  case vc1 h₀ _ => exact ⟨trivial, h₀.2.1, h₀.2.2.1, h₀.2.2.2.1⟩
  case vc2 => omega
  case vc3 h₁ => exact ⟨trivial, h₁.1, h₁.2.2.1⟩
  case vc4 h₂ => exact ⟨trivial, h₂.1⟩
  case vc6 h₀ _ _ _ h₁ _ _ h₂ _ _ h₃ =>
    have := h₂.2.replies
    have := h₃.replies
    exact ⟨trivial, h₃.toReady, h₃.mState.trans (h₂.2.mState.trans h₁.2.1), by omega⟩
  case vc7 h₀ _ _ _ h₁ _ _ h₂ _ _ h₃ _ _ h₄ _ =>
    obtain rfl := h₀.1
    have honward := (h₁.2.2.2.2.trans h₂.2.toOnward).trans (h₃.toOnward.trans h₄.toOnward)
    exact ⟨h₄.congr rfl, ⟨honward.replies, honward.settled⟩, h₄.mState, h₄.loggedin⟩
  case vc8 h₀ hstate => exact absurd (by simpa using h₀.2.2.1) hstate

theorem loggingIn (n : ℕ) : LoggingIn x n := by
  induction n with
  | zero =>
    refine ⟨fun s₀ => ?_, fun s₀ => ?_, fun s₀ => ?_⟩
    · mvcgen [login]
      omega
    · mvcgen [loginIfNeeded]
      omega
    · mvcgen [fetchNamespace]
      omega
  | succ n h => exact ⟨login_step h, loginIfNeeded_step h, fetchNamespace_step h⟩

theorem login_spec (n : ℕ) (s₀ : SessionState) :
    ⦃fun s => ⌜s = s₀ ∧ Ready x s ∧ s.mState = .connected ∧
      s.mShouldDisconnect = false ∧ 3 * s.replies.length + 5 ≤ n⌝⦄
    login n
    ⦃post⟨fun _ s => ⌜LoggedIn x s₀ s⌝,
      fun stop s => ⌜Ended x stop s⌝⟩⦄ := (loggingIn n).login s₀

theorem loginIfNeeded_spec (n : ℕ) (s₀ : SessionState) :
    ⦃fun s => ⌜s = s₀ ∧ Inv x s ∧ 3 * s.replies.length + 6 ≤ n⌝⦄
    loginIfNeeded n
    ⦃post⟨fun _ s => ⌜Usable x s₀ s⌝,
      fun stop s => ⌜Ended x stop s⌝⟩⦄ := (loggingIn n).loginIfNeeded s₀

theorem fetchNamespace_spec (n : ℕ) (s₀ : SessionState) :
    ⦃fun s => ⌜s = s₀ ∧ Inv x s ∧ 3 * s.replies.length + 7 ≤ n⌝⦄
    fetchNamespace n
    ⦃post⟨fun _ s => ⌜Named x s₀ s⌝,
      fun stop s => ⌜Ended x stop s⌝⟩⦄ := (loggingIn n).fetchNamespace s₀

/-! ### Selecting a folder -/

variable (x) in
/-- `selectIfNeeded` has succeeded. -/
structure Open (s₀ s : SessionState) : Prop extends Ready x s,
    Onward x s₀ s where
  selected : AllSettled x s → Selected x s

theorem Usable.mState {s₀ : SessionState} (h : Usable x s₀ s) (hsettled : AllSettled x s) :
    s.mState = .loggedin ∨ s.mState = .selected := by
  cases hs : s.mState with
  | disconnected => exact absurd hs h.connected
  | connected => exact absurd hs (h.loggedin hsettled)
  | loggedin => exact .inl rfl
  | selected => exact .inr rfl

/-- When a `SELECT` has been answered, and the session knows what has become of it. -/
theorem Ready.answered_select {f : String} {connection : Mailimap} {reply : IMAPReply}
    (replies : List IMAPReply) (mState : MState) (mCurrentFolder : Option String)
    (hs : Ready x s) (himap : s.mImap = some connection)
    (hr : reply.r.isStream = false) (hstate : mState ≠ .disconnected)
    (hcurrent : mState = .selected → mCurrentFolder ≠ none)
    (hserver : mState = .selected → ∀ current ∈ mCurrentFolder,
      connection.server.after (.select f) reply.r.effect = .selected current) :
    Ready x
      ((s.answered (.select f) connection reply replies).setFolder mState mCurrentFolder) := by
  have hgood : Good x (s.answered (.select f) connection reply replies) :=
    hs.toGood.answered himap (sendable_plain hs rfl rfl)
  refine ⟨⟨hgood.congr rfl ⟨rfl, rfl⟩, iff_of_false nofun hstate,
    hcurrent, ?_, fun h hshould => ?_, fun _ _ hselected => ?_⟩, hstate, fun hshould => ?_,
    fun h => hs.calm (h.of_snoc rfl).1⟩
  · rintro _ ⟨⟩
    exact hs.protect connection himap
  · rintro _ ⟨⟩
    simp [Mailimap.after, hr, hs.noticed (h.of_snoc rfl).1 hshould _ himap]
  · rintro _ ⟨⟩
    exact hserver hselected
  · rintro _ ⟨⟩
    simp [Mailimap.after, hs.failed hshould _ himap]

theorem Ready.selected {f : String} {connection : Mailimap} {reply : IMAPReply}
    {replies : List IMAPReply} (hs : Ready x s) (himap : s.mImap = some connection)
    (hr : reply.r = .ok) :
    Ready x ((s.answered (.select f) connection reply replies).setFolder .selected f) := by
  refine hs.answered_select replies .selected (some f) himap (by rw [hr]; rfl) nofun
    (fun _ => nofun) fun _ current hcurrent => ?_
  rw [hr]
  exact congrArg _ (Option.some.inj hcurrent)

theorem Ready.deselected {f : String} {connection : Mailimap} {reply : IMAPReply}
    {replies : List IMAPReply} (hs : Ready x s) (himap : s.mImap = some connection)
    (hr : reply.r = .error) :
    Ready x ((s.answered (.select f) connection reply replies).setFolder .loggedin none) :=
  hs.answered_select replies .loggedin none himap (by rw [hr]; rfl) nofun nofun nofun

theorem Good.ended_abort (hs : Good x s) (h : ¬ AllSettled x s) : Ended x .abort s :=
  ⟨hs, nofun, nofun, fun hsettled => absurd hsettled h⟩

theorem Onward.setFolder {s₀ : SessionState} {mState : MState} {mCurrentFolder : Option String}
    (h : Onward x s₀ s) : Onward x s₀ (s.setFolder mState mCurrentFolder) := ⟨h.replies, h.settled⟩

theorem Kept.selected {s₀ : SessionState} (h : Kept x s₀ s)
    (hs : Selected x s₀) : Selected x s := by
  obtain ⟨f, hf, c, hc, current, hserver, hname⟩ := hs
  have himap : s.mImap.map Mailimap.server = some c.server := by
    rw [h.server, Option.mem_def.1 hc, Option.map_some]
  obtain ⟨c', hc', heq⟩ := Option.map_eq_some_iff.1 himap
  exact ⟨f, hf, c', hc', current, heq.trans hserver, hname⟩

theorem deselect_spec (s₀ : SessionState) :
    ⦃fun s => ⌜s = s₀⌝⦄ deselect
    ⦃post⟨fun _ s => ⌜s = s₀.setFolder .loggedin none⌝, fun _ _ => ⌜False⌝⟩⦄ := by
  mvcgen [deselect]
  subst_vars
  rfl

theorem setCurrentFolder_spec (f : String) (imap_selection_info : Option SelectionInfo)
    (s₀ : SessionState) :
    ⦃fun s => ⌜s = s₀⌝⦄ setCurrentFolder f imap_selection_info
    ⦃post⟨fun _ s => ⌜core s = core (s₀.setFolder .selected f)⌝, fun _ _ => ⌜False⌝⟩⦄ := by
  mvcgen [setCurrentFolder]
  subst_vars
  cases imap_selection_info <;> rfl

theorem select_spec (f : String) (hfolder : f ∈ x.folder) (s₀ : SessionState) :
    ⦃fun s => ⌜Onward x s₀ s ∧ Ready x s ∧
      (AllSettled x s → s.mState = .loggedin ∨ s.mState = .selected)⌝⦄
    select f
    ⦃post⟨fun _ s => ⌜Open x s₀ s⌝,
      fun stop s => ⌜Ended x stop s⌝⟩⦄ := by
  have hc {s : SessionState} (hs : Ready x s) :
      Sendable x s (.select f) := sendable_plain hs rfl rfl
  mvcgen [select, assert, command, deselect_spec, setCurrentFolder_spec]
  case vc1 h _ himap => exact absurd himap h.2.1.mImap_ne
  case vc2 h _ _ himap _ => exact h.2.1.toGood.hung himap (hc h.2.1)
  case vc3 h _ _ himap _ _ hreplies hr _ _ =>
    intro hcore
    have hkept := Kept.of_core (x := x) hcore
    refine ⟨(h.2.1.selected himap hr).congr hcore,
      h.1.trans ((onward_answered hreplies).setFolder.trans hkept.toOnward),
      fun _ => hkept.selected ⟨f, hfolder, _, rfl, f, ?_, .inl rfl⟩⟩
    simp [Mailimap.after, hr, MailimapResult.effect, ServerState.after]
  case vc4 h _ _ himap _ _ _ _ _ _ =>
    exact (h.2.1.toInv.answered_lost himap (hc h.2.1)).ended_error _
  -- the answer cannot be read: the session goes on with the folder that it had
  case vc5 h _ _ himap _ _ _ _ hr =>
    refine (h.2.1.answered himap (hc h.2.1) (fun hsettled _ => ?_)
      (by simp [hr, MailimapResult.isStream])).toInv.ended_error _
    have hunread := (hsettled.of_snoc rfl).2.2 rfl _ rfl
    simp_all [MailimapResult.unread, MailimapResult.effect, ServerState.after]
  -- the server has refused, and no folder is selected
  case vc6 h _ _ himap _ _ _ hr _ _ heq =>
    subst heq
    exact (h.2.1.deselected himap hr).toInv.ended_error _
  case vc7 h hstate =>
    exact h.2.1.toGood.ended_abort fun hsettled => hstate (by simpa using h.2.2 hsettled)

theorem selectIfNeeded_spec (n : ℕ) (f : String) (hfolder : f ∈ x.folder) (s₀ : SessionState) :
    ⦃fun s => ⌜s = s₀ ∧ Inv x s ∧ 3 * s.replies.length + 6 ≤ n⌝⦄
    selectIfNeeded x.caseInsensitive n f
    ⦃post⟨fun _ s => ⌜Open x s₀ s⌝,
      fun stop s => ⌜Ended x stop s⌝⟩⦄ := by
  mvcgen [selectIfNeeded, loginIfNeeded_spec, select_spec]
  case vc1 h => exact ⟨trivial, h.2⟩
  case vc2 _ _ h hstate hcurrent => exact absurd hcurrent (h.current hstate)
  -- another folder is selected
  case vc4 h₀ _ _ h hstate _ _ _ =>
    obtain rfl := h₀.1
    exact ⟨h.toOnward, h.toReady, fun _ => .inr hstate⟩
  -- the folder is selected, up to the case of its name
  case vc5 h₀ _ _ h hstate _ hcurrent hname =>
    obtain rfl := h₀.1
    refine ⟨h.toReady, h.toOnward, fun hsettled => ?_⟩
    obtain ⟨connection, himap⟩ := Option.ne_none_iff_exists'.1 h.mImap_ne
    have hserver := h.server hsettled (h.selected hstate).2 hstate _ himap _ hcurrent
    exact ⟨f, hfolder, connection, himap, _, hserver, .inr (by simpa using hname)⟩
  case vc7 h₀ _ _ h hstate =>
    obtain rfl := h₀.1
    exact ⟨h.toOnward, h.toReady, fun _ => .inl hstate⟩
  -- the session is not logged in, so that the answers are not settled
  case vc8 h₀ _ s h _ hselected hloggedin hstate =>
    obtain rfl := h₀.1
    refine ⟨h.toReady, h.toOnward, fun hsettled => ?_⟩
    obtain hs | hs := h.mState hsettled
    · exact absurd (hstate.symm.trans hs) hloggedin
    · exact absurd (hstate.symm.trans hs) hselected

end IMAPSession

end SecMail
