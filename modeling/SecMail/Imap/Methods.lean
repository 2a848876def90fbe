import Mathlib
import SecMail.Imap.Rules

set_option mvcgen.warning false

/-!
# The methods that operations call

Most methods select their folder and send their commands then: `Open` holds while they do, and the
invariant when they have returned.  A few may fail an assertion or use `NULL`; `Stopped` says when.

* `keeps_selectIfNeeded` : a method that keeps the invariant once the folder is selected keeps it;
* `copyParts_spec`, `storeParts_spec` : the loops, by induction on the parts;
* `fetchMessages_spec` : the fetch that calls itself, once at most;
* `checkAccount_spec` : `login` of a session that may be logged in already.
-/

open Std.Do

namespace SecMail

namespace IMAPSession

variable {x : Setting} {s s' : SessionState}

/-! ### What is sent with the folder selected -/

section Open

variable {s₀ s₁ : SessionState} {c : IMAPCommand} {connection : Mailimap} {reply : IMAPReply}
  {replies : List IMAPReply}

theorem Open.here (h : Open x s₀ s) : Open x s s := ⟨h.toReady, .refl s, h.selected⟩

theorem Open.after (h : Open x s₀ s₁) (h' : Open x s₁ s) : Open x s₀ s :=
  ⟨h'.toReady, h.toOnward.trans h'.toOnward, h'.selected⟩

theorem Open.sendable (h : Open x s₀ s) (hchanges : c.changes = false) : Sendable x s c := by
  refine ⟨fun hsettled _ => h.selected hsettled, fun hauth => ?_,
    fun hnoticed _ => h.noticed hnoticed (h.calm hnoticed)⟩
  cases c <;> simp_all [IMAPCommand.changes, IMAPCommand.authenticates]

theorem Open.answered (h : Open x s₀ s) (himap : s.mImap = some connection)
    (hreplies : s.replies = reply :: replies) (hchanges : c.changes = false)
    (hr : reply.r.isStream = false) : Open x s₀ (s.answered c connection reply replies) := by
  have hkept : Kept x s (s.answered c connection reply replies) :=
    kept_answered himap hreplies hchanges
  refine ⟨h.toReady.answered himap (h.sendable hchanges) (fun _ _ => after_eq hchanges)
      (by simp [hr]), h.toOnward.trans hkept.toOnward, fun hsettled => ?_⟩
  exact hkept.selected (h.selected (hkept.settled hsettled))

end Open

theorem request_open_spec (c : IMAPCommand) (error : ErrorCode) (s₀ : SessionState)
    (hchanges : c.changes = false) :
    ⦃fun s => ⌜s = s₀ ∧ Open x s s⌝⦄
    request c error
    ⦃post⟨fun _ s => ⌜Open x s₀ s⌝, fun stop s => ⌜Ended x stop s⌝⟩⦄ := by
  mvcgen [request_spec]
  case vc1 h => exact ⟨trivial, h.2.toReady, h.2.sendable hchanges⟩
  case vc2 h _ _ =>
    intro hs hkept _ _ _
    obtain rfl := h.1
    exact ⟨hs, hkept.toOnward,
      fun hsettled => hkept.selected (h.2.selected (hkept.settled hsettled))⟩
  case vc3 => exact fun _ _ _ => hchanges

variable (x) in
/-- The method keeps the invariant. -/
def Keeps {α : Type} (n : ℕ) (f : SessionM α) : Prop :=
  ⦃fun s => ⌜Inv x s ∧ 3 * s.replies.length + 6 ≤ n⌝⦄ f
  ⦃post⟨fun _ s => ⌜Inv x s⌝, fun stop s => ⌜Ended x stop s⌝⟩⦄

theorem Keeps.void {α : Type} {n : ℕ} {f : SessionM α} (hf : Keeps x n f) :
    Keeps x n (void f) := by
  unfold Keeps at hf ⊢
  mvcgen [IMAPSession.void, hf]

/-- What follows `selectIfNeeded` finds the folder selected. -/
theorem keeps_selectIfNeeded {α : Type} {n : ℕ} {f : String} {g : SessionM α}
    (hfolder : f ∈ x.folder) (hg : ⦃fun s => ⌜Open x s s⌝⦄ g
      ⦃post⟨fun _ s => ⌜Inv x s⌝, fun stop s => ⌜Ended x stop s⌝⟩⦄) :
    Keeps x n (do selectIfNeeded x.caseInsensitive n f; g) := by
  unfold Keeps
  mvcgen [selectIfNeeded_spec, hg]
  case vc3 h => exact h.here

theorem requestInInbox_spec (n : ℕ) (c : IMAPCommand) (error : ErrorCode) (s₀ : SessionState)
    (hfolder : "INBOX" ∈ x.folder) (hchanges : c.changes = false) :
    ⦃fun s => ⌜s = s₀ ∧ Inv x s ∧ 3 * s.replies.length + 6 ≤ n⌝⦄
    requestInInbox x.caseInsensitive n c error
    ⦃post⟨fun _ s => ⌜Open x s₀ s⌝, fun stop s => ⌜Ended x stop s⌝⟩⦄ := by
  mvcgen [requestInInbox, void, selectIfNeeded_spec, request_open_spec]
  case vc2 h => exact ⟨trivial, h.2⟩
  case vc4 h => exact ⟨trivial, h.here⟩
  case vc5 h₀ _ _ h _ _ h' =>
    obtain rfl := h₀.1
    exact h.after h'

theorem createFolder_spec (n : ℕ) (f : String) (hfolder : "INBOX" ∈ x.folder) :
    ⦃fun s => ⌜Inv x s ∧ 3 * s.replies.length + 6 ≤ n⌝⦄
    createFolder x.caseInsensitive n f
    ⦃post⟨fun _ s => ⌜Inv x s⌝, fun stop s => ⌜Ended x stop s⌝⟩⦄ := by
  mvcgen [createFolder, subscribeFolder, requestInInbox_spec]
  case vc4 h₀ _ _ h =>
    have := h.replies
    exact ⟨trivial, h.toInv, by omega⟩
  case vc5 => exact fun h => h.toInv
  case vc6 => exact fun _ _ => hfolder
  case vc7 => exact fun _ _ => rfl

/-! ### The loops -/

theorem copyParts_spec (destFolder : String) (setList : List (List SetItem))
    (uidSetResult : Option IndexSet) :
    ⦃fun s => ⌜Open x s s⌝⦄
    copyParts destFolder uidSetResult setList
    ⦃post⟨fun _ s => ⌜Inv x s⌝, fun stop s => ⌜Ended x stop s⌝⟩⦄ := by
  induction setList generalizing uidSetResult with
  | nil =>
    mvcgen [copyParts]
    case vc1 h => exact h.toInv
  | cons current_set setList ih =>
    mvcgen [copyParts, request_open_spec, ih]
    case vc3 h => exact h.here

theorem storeParts_spec (store : List SetItem → IMAPCommand) (setList : List (List SetItem))
    (hchanges : ∀ set, (store set).changes = false) :
    ⦃fun s => ⌜Open x s s⌝⦄
    storeParts store setList
    ⦃post⟨fun _ s => ⌜Inv x s⌝, fun stop s => ⌜Ended x stop s⌝⟩⦄ := by
  induction setList with
  | nil =>
    mvcgen [storeParts]
    case vc1 h => exact h.toInv
  | cons current_set setList ih =>
    have hc := hchanges current_set
    mvcgen [storeParts, command, checkResult, ih]
    case vc1 h himap => exact absurd himap h.mImap_ne
    case vc2 h _ himap _ => exact h.toGood.hung himap (h.sendable hc)
    -- the connection was lost: the other parts are not sent, and no error is set
    case vc3 h _ himap _ _ _ _ _ => exact h.toInv.answered_lost himap (h.sendable hc)
    case vc4 h _ himap _ _ hreplies hr _ =>
      exact (h.answered himap hreplies hc (by simpa using hr)).here
    -- the messages are not stored
    case vc5 h _ himap _ _ _ _ _ _ _ =>
      exact (h.toInv.answered_lost himap (h.sendable hc)).ended_error _
    case vc6 h _ himap _ _ hreplies hr _ _ =>
      exact (h.answered himap hreplies hc (by simpa using hr)).toInv.ended_error _
    case vc7 h _ himap _ _ hreplies hr _ =>
      exact (h.answered himap hreplies hc (by simpa using hr)).toInv.ended_error _

/-! ### Fetching -/

theorem adjustedRequestKind_headers (mNeedsMboxMailWorkaround : Bool)
    (extraHeaders : Option (List String)) (requestKind : IMAPMessagesRequestKind) :
    (adjustedRequestKind mNeedsMboxMailWorkaround extraHeaders requestKind).headers =
      (requestKind.headers && !mNeedsMboxMailWorkaround) := by
  cases mNeedsMboxMailWorkaround <;> cases h : requestKind.headers <;> cases extraHeaders <;>
    simp [adjustedRequestKind, withFullHeaders, h]

theorem fetchSection_spec (uid : UInt32) (sec_list : List UInt32) :
    ⦃fun s => ⌜Open x s s⌝⦄
    fetchSection uid sec_list
    ⦃post⟨fun _ s => ⌜Inv x s⌝, fun stop s => ⌜Ended x stop s⌝⟩⦄ := by
  mvcgen [fetchSection, request_open_spec]
  case vc3 h => exact h.toInv.ended_error _
  case vc4 h => exact h.toInv

/-- Without the envelope, the messages are fetched with one command. -/
theorem fetchMessages_plain_spec (n : ℕ) (f : String) (fetchByUID : Bool) (imapset : List SetItem)
    (modseq : UInt64) (extraHeaders : Option (List String)) (calls : ℕ)
    (requestKind : IMAPMessagesRequestKind) (s₀ : SessionState) (hfolder : f ∈ x.folder)
    (hheaders : requestKind.headers = false) :
    ⦃fun s => ⌜s = s₀ ∧ Inv x s ∧ 3 * s.replies.length + 6 ≤ n⌝⦄
    fetchMessages x.caseInsensitive n f fetchByUID imapset modseq extraHeaders (calls + 1)
      requestKind
    ⦃post⟨fun result s => ⌜Open x s₀ s ∧ result ≠ none⌝, fun stop s => ⌜Ended x stop s⌝⟩⦄ := by
  mvcgen [fetchMessages, selectIfNeeded_spec, request_open_spec]
  case vc2 h => exact ⟨trivial, h.2⟩
  case vc4 h _ => exact ⟨trivial, h.here⟩
  case vc5 h =>
    exact absurd ((adjustedRequestKind_headers _ _ _).symm.trans h.1) (by simp [hheaders])
  case vc6 h₀ _ _ h _ _ _ _ h' =>
    obtain rfl := h₀.1
    exact ⟨h.after h', nofun⟩

theorem fetchWithFullHeaders_spec {fetch : SessionM (Option IMAPSyncResult)}
    {P : SessionState → Prop}
    (hfetch : ⦃fun s => ⌜P s⌝⦄ fetch
      ⦃post⟨fun _ s => ⌜Inv x s⌝, fun stop s => ⌜Ended x stop s⌝⟩⦄) :
    ⦃fun s => ⌜P s⌝⦄ fetchWithFullHeaders fetch
    ⦃post⟨fun _ s => ⌜Inv x s⌝, fun stop s => ⌜Ended x stop s⌝⟩⦄ := by
  mvcgen [fetchWithFullHeaders, hfetch]
  case vc2 hs _ => exact hs.congr rfl
  case vc5 h _ _ => exact h.inv rfl

/-- The second fetch does not ask for the envelope. -/
theorem refetch_spec (n : ℕ) (f : String) (fetchByUID : Bool) (imapset : List SetItem)
    (modseq : UInt64) (extraHeaders : Option (List String)) (calls : ℕ)
    (requestKind : IMAPMessagesRequestKind) (hfolder : f ∈ x.folder) :
    ⦃fun s => ⌜Inv x s ∧ 3 * s.replies.length + 6 ≤ n⌝⦄
    fetchWithFullHeaders (fetchMessages x.caseInsensitive n f fetchByUID imapset modseq extraHeaders
      (calls + 1) (withFullHeaders requestKind))
    ⦃post⟨fun _ s => ⌜Inv x s⌝, fun stop s => ⌜Ended x stop s⌝⟩⦄ := by
  refine fetchWithFullHeaders_spec ?_
  mvcgen [fetchMessages_plain_spec]
  case vc2 => exact fun h _ => h.toInv
  case vc3 => exact fun _ _ _ => hfolder
  case vc4 => exact fun _ _ _ => rfl

theorem fetchMessages_spec (n : ℕ) (f : String) (fetchByUID : Bool) (imapset : List SetItem)
    (modseq : UInt64) (extraHeaders : Option (List String)) (calls : ℕ)
    (requestKind : IMAPMessagesRequestKind) (hfolder : f ∈ x.folder) :
    ⦃fun s => ⌜Inv x s ∧ 3 * s.replies.length + 6 ≤ n⌝⦄
    fetchMessages x.caseInsensitive n f fetchByUID imapset modseq extraHeaders (calls + 2)
      requestKind
    ⦃post⟨fun _ s => ⌜Inv x s⌝, fun stop s => ⌜Ended x stop s⌝⟩⦄ := by
  rw [fetchMessages]
  mvcgen [selectIfNeeded_spec, request_open_spec, refetch_spec]
  case vc4 h _ => exact ⟨trivial, h.here⟩
  -- the server has answered, and no header could be read
  case vc5 h₀ _ _ h _ _ _ _ h' =>
    have := (h.after h').replies
    exact ⟨h'.toInv, by omega⟩
  case vc6 => exact fun _ _ => hfolder
  case vc7 h => exact h.toInv

theorem waitIdle_spec :
    ⦃fun s => ⌜Open x s s⌝⦄ waitIdle
    ⦃post⟨fun _ s => ⌜Inv x s⌝, fun stop s => ⌜Ended x stop s⌝⟩⦄ := by
  mvcgen [waitIdle, void, request_open_spec]
  -- the wait was cancelled
  case vc3 h _ => exact h.toInv.lost.ended_error _
  case vc5 h => exact ⟨trivial, h.here⟩
  case vc6 h => exact h.toInv

theorem idle_spec (n : ℕ) (f : String) (lastKnownUID : UInt32) (hfolder : f ∈ x.folder) :
    ⦃fun s => ⌜Inv x s ∧ 3 * s.replies.length + 6 ≤ n⌝⦄
    idle x.caseInsensitive n f lastKnownUID
    ⦃post⟨fun _ s => ⌜Inv x s⌝, fun stop s => ⌜Ended x stop s⌝⟩⦄ := by
  mvcgen [idle, fetchMessagesByUIDWithExtraHeaders, selectIfNeeded_spec, waitIdle_spec,
    fetchMessages_plain_spec]
  case vc3 h => exact h.here
  case vc6 h₀ _ _ _ h =>
    have := h.replies
    exact ⟨trivial, h.toInv, by omega⟩
  -- a fetch without the envelope has a result
  case vc7 h hnone =>
    simp only [Option.map_eq_none_iff] at hnone
    exact absurd hnone h.2
  case vc8 h _ _ _ => exact h.1.here
  case vc9 h _ _ _ => exact h.1.toInv

/-! ### Folders -/

variable (x) in
/-- How an operation may end otherwise than with `ErrorNone`, if it fails an assertion at most when
`mayAbort` says so. -/
structure Stopped (mayAbort : Prop) (stop : Stop) (s : SessionState) : Prop extends Good x s where
  inv : stop.ends = false → Inv x s
  deep : stop ≠ .tooDeep
  abort : AllSettled x s → stop = .abort → mayAbort

theorem Ended.stopped {mayAbort : Prop} {stop : Stop} (h : Ended x stop s) :
    Stopped x mayAbort stop s :=
  ⟨h.toGood, h.inv, h.deep, fun hsettled habort => absurd habort (h.abort hsettled)⟩

theorem Good.stopped_abort {mayAbort : Prop} (hs : Good x s) (h : mayAbort) :
    Stopped x mayAbort .abort s := ⟨hs, nofun, nofun, fun _ _ => h⟩

theorem Inv.ended_unset (hs : Inv x s) : Ended x .unset s :=
  ⟨hs.toGood, fun _ => hs, nofun, nofun⟩

theorem sendable_blind {c : IMAPCommand} (hauth : c.authenticates = false)
    (hmailbox : c.ofMailbox = false) (hblind : c.blind = true) : Sendable x s c := by
  refine ⟨fun _ h => ?_, fun h => ?_, fun _ h => ?_⟩
  · simp [hmailbox] at h
  · simp [hauth] at h
  · simp [hblind] at h

theorem listRequest_spec (c : IMAPCommand) (s₀ : SessionState) (hchanges : c.changes = false)
    (hauth : c.authenticates = false) (hmailbox : c.ofMailbox = false) :
    ⦃fun s => ⌜s = s₀ ∧ Ready x s⌝⦄
    listRequest c
    ⦃post⟨fun _ s => ⌜Ready x s⌝, fun stop s => ⌜Ended x stop s⌝⟩⦄ := by
  have hc {s : SessionState} (hs : Ready x s) : Sendable x s c := sendable_plain hs hauth hmailbox
  mvcgen [listRequest, command, resultsWithError_spec]
  case vc1 h himap => exact absurd himap h.2.mImap_ne
  case vc2 h _ himap _ => exact h.2.toGood.hung himap (hc h.2)
  case vc3 hr _ _ _ =>
    intro _ hok
    simp [hok, MailimapResult.isStream] at hr
  -- the connection was lost
  case vc4 h _ himap _ _ _ _ _ _ _ _ =>
    rintro rfl ⟨error, rfl⟩
    exact (h.2.toInv.answered_lost himap (hc h.2)).ended_error error
  case vc5 h _ himap _ _ _ _ hr _ _ =>
    rintro rfl -
    exact h.2.answered himap (hc h.2) (fun _ _ => after_eq hchanges) fun h => absurd h hr
  case vc6 h _ himap _ _ _ _ hr _ _ =>
    rintro rfl ⟨error, rfl⟩
    exact (h.2.answered himap (hc h.2) (fun _ _ => after_eq hchanges)
      fun h => absurd h hr).toInv.ended_error error

theorem fetchDelimiter_spec (n : ℕ) :
    ⦃fun s => ⌜Inv x s ∧ 3 * s.replies.length + 6 ≤ n⌝⦄
    fetchDelimiter n
    ⦃post⟨fun _ s => ⌜Ready x s⌝, fun stop s => ⌜Ended x stop s⌝⟩⦄ := by
  mvcgen [fetchDelimiter, fetchDelimiterIfNeeded, loginIfNeeded_spec, listRequest_spec]
  case vc2 h _ _ _ => exact h.congr rfl
  case vc6 h _ _ => exact ⟨trivial, h.toReady⟩
  case vc7 h _ => exact h.congr rfl
  case vc8 h _ => exact h.congr rfl
  case vc9 h _ => exact h.toReady

theorem fetchSubscribedFolders_spec (n : ℕ) :
    ⦃fun s => ⌜Inv x s ∧ 3 * s.replies.length + 6 ≤ n⌝⦄
    fetchSubscribedFolders n
    ⦃post⟨fun _ s => ⌜Inv x s⌝, fun stop s => ⌜Stopped x True stop s⌝⟩⦄ := by
  mvcgen [fetchSubscribedFolders, fetchDelimiter_spec, listRequest_spec]
  -- there is no namespace
  case vc3 h _ => exact h.toGood.stopped_abort trivial
  case vc9 => exact fun h => h.toInv
  case vc10 => exact Ended.stopped
  case vc11 => exact Ended.stopped

theorem listFolders_spec (mainPrefix : String) (s₀ : SessionState) :
    ⦃fun s => ⌜s = s₀ ∧ Ready x s⌝⦄
    listFolders mainPrefix
    ⦃post⟨fun result s => ⌜Inv x s ∧ (result ≠ none → Ready x s)⌝,
      fun stop s => ⌜Ended x stop s⌝⟩⦄ := by
  have hlist (b : Bool) : (listCommand b mainPrefix).changes = false ∧
      (listCommand b mainPrefix).authenticates = false ∧
      (listCommand b mainPrefix).ofMailbox = false := by
    cases b <;> exact ⟨rfl, rfl, rfl⟩
  mvcgen [listFolders, listRequest_spec]
  case vc2 => exact (hlist _).1
  case vc3 => exact (hlist _).2.1
  case vc4 => exact (hlist _).2.2
  case vc5 h => exact ⟨trivial, h.2⟩
  case vc6 => exact fun h => ⟨h.toInv, fun _ => h⟩
  case vc7 h => exact ⟨h.inv rfl, fun h => absurd rfl h⟩

theorem fetchAllFolders_spec (n : ℕ) :
    ⦃fun s => ⌜Inv x s ∧ 3 * s.replies.length + 6 ≤ n⌝⦄
    fetchAllFolders n
    ⦃post⟨fun _ s => ⌜Inv x s⌝, fun stop s => ⌜Stopped x True stop s⌝⟩⦄ := by
  have hc {s : SessionState} : Sendable x s (.list "" "INBOX") := sendable_blind rfl rfl rfl
  mvcgen [fetchAllFolders, void, command, fetchDelimiter_spec, listFolders_spec, listRequest_spec]
  -- the first list has failed: the inbox is asked for, and `NULL` is used after that
  case vc5 h _ => exact h.1.toGood.stopped_abort trivial
  case vc6 h _ himap _ => exact (h.1.toGood.hung himap hc).stopped
  case vc7 h _ himap _ _ _ =>
    exact (h.1.toGood.answered himap hc).stopped_abort trivial
  -- the list has the inbox in it
  case vc8 h => exact h.1
  case vc13 h => exact ⟨trivial, h.2 (Option.some_ne_none _)⟩
  case vc14 h => exact h.toInv
  case vc15 => exact Ended.stopped
  case vc16 => exact Ended.stopped
  case vc17 => exact Ended.stopped

theorem folderInfo_spec (n : ℕ) (f : String) (hfolder : f ∈ x.folder) :
    ⦃fun s => ⌜Inv x s ∧ 3 * s.replies.length + 6 ≤ n⌝⦄
    (do loginIfNeeded n; select f)
    ⦃post⟨fun _ s => ⌜Inv x s⌝, fun stop s => ⌜Ended x stop s⌝⟩⦄ := by
  mvcgen [loginIfNeeded_spec, select_spec]
  case vc2 h => exact ⟨.refl _, h.toReady, h.mState⟩
  case vc3 => exact fun h => h.toInv
  case vc4 => exact fun _ _ => hfolder

theorem folderStatus_spec (n : ℕ) (f : String) :
    ⦃fun s => ⌜Inv x s ∧ 3 * s.replies.length + 6 ≤ n⌝⦄
    (do loginIfNeeded n; void (folderStatus f))
    ⦃post⟨fun _ s => ⌜Inv x s⌝, fun stop s => ⌜Ended x stop s⌝⟩⦄ := by
  mvcgen [void, folderStatus, assert, loginIfNeeded_spec, request_spec]
  case vc3 h _ => exact ⟨trivial, h.toReady, sendable_plain h.toReady rfl rfl⟩
  case vc4 h => exact h.1.toInv
  case vc5 h hstate =>
    exact h.toGood.ended_abort fun hsettled => hstate (by simpa using h.mState hsettled)

/-! ### The rest -/

theorem noop_spec (n : ℕ) :
    ⦃fun s => ⌜Inv x s ∧ 3 * s.replies.length + 6 ≤ n⌝⦄
    noop n
    ⦃post⟨fun _ s => ⌜Inv x s⌝, fun stop s => ⌜Ended x stop s⌝⟩⦄ := by
  have hc {s : SessionState} (hs : Ready x s) : Sendable x s .noop := sendable_plain hs rfl rfl
  -- `noop` does not look whether the connection was lost: such a run is not noticed
  have hanswered {s : SessionState} {connection : Mailimap} {reply : IMAPReply}
      {replies : List IMAPReply} (hs : Ready x s) (himap : s.mImap = some connection) :
      Inv x (s.answered .noop connection reply replies) :=
    hs.toInv.answered himap (hc hs) (fun _ _ => after_eq rfl) fun hr => not_noticed hr rfl
  mvcgen [noop, command, loginIfNeeded_spec]
  case vc1 h _ _ => exact h.1.ended_unset
  case vc3 h himap => exact absurd himap h.mImap_ne
  case vc4 h _ himap _ => exact h.toGood.hung himap (hc h.toReady)
  case vc5 h _ himap _ _ _ _ => exact hanswered h.toReady himap
  case vc6 h _ himap _ _ _ _ _ => exact (hanswered h.toReady himap).ended_error _
  case vc7 h _ himap _ _ _ _ _ => exact hanswered h.toReady himap
  case vc8 h _ himap _ _ _ _ => exact (hanswered h.toReady himap).ended_error _

theorem getQuota_spec (s₀ : SessionState) :
    ⦃fun s => ⌜s = s₀ ∧ Inv x s⌝⦄
    getQuota
    ⦃post⟨fun _ s => ⌜Inv x s⌝, fun stop s => ⌜Stopped x (s₀.mImap = none) stop s⌝⟩⦄ := by
  have hc {s : SessionState} : Sendable x s (.quota "INBOX") := sendable_blind rfl rfl rfl
  mvcgen [getQuota, request, command, checkResult]
  -- there is no connection
  case vc1 h himap =>
    obtain ⟨rfl, hs⟩ := h
    exact hs.toGood.stopped_abort himap
  case vc2 h _ himap _ => exact (h.2.toGood.hung himap hc).stopped
  case vc3 h _ himap _ _ _ hr =>
    exact h.2.answered himap hc (fun _ _ => after_eq rfl) (by simp [hr, MailimapResult.isStream])
  case vc4 h _ himap _ _ _ _ _ _ =>
    exact ((h.2.answered_lost himap hc).ended_error _).stopped
  case vc5 h _ himap _ _ _ _ hr =>
    exact ((h.2.answered himap hc (fun _ _ => after_eq rfl)
      (by simp [hr, MailimapResult.isStream])).ended_error _).stopped
  case vc6 h _ himap _ _ _ hr =>
    exact ((h.2.answered himap hc (fun _ _ => after_eq rfl)
      (by simp [hr, MailimapResult.isStream])).ended_error _).stopped

theorem capability_spec (n : ℕ) (hn : 5 ≤ n) :
    ⦃fun s => ⌜Inv x s⌝⦄
    capability n
    ⦃post⟨fun _ s => ⌜Inv x s⌝, fun stop s => ⌜Ended x stop s⌝⟩⦄ := by
  obtain ⟨n, rfl⟩ := Nat.exists_eq_add_of_le' hn
  mvcgen [capability, void, connectIfNeeded_spec, request_spec, capabilitySet_spec]
  case vc1 => omega
  case vc4 h => exact ⟨trivial, h.1, sendable_plain h.1 rfl rfl⟩
  case vc5 h _ _ => exact fun hcore => h.1.toInv.congr hcore

theorem disconnect_spec :
    ⦃fun s => ⌜Inv x s⌝⦄ disconnect
    ⦃post⟨fun _ s => ⌜Inv x s⌝, fun stop s => ⌜Ended x stop s⌝⟩⦄ := by
  mvcgen [disconnect, unsetup]
  case vc1 h _ => exact h.toGood.dropped

/-- `login` asserts that nobody is logged in. -/
theorem login_abort {n : ℕ} (hstate : s.mState ≠ .connected) :
    login (n + 1) s = .error .abort s := by
  simp [login, assert, hstate, bind, EStateM.bind, get, getThe, MonadStateOf.get, EStateM.get,
    throw, throwThe, MonadExceptOf.throw, EStateM.throw]

/-- `login` when it may be logged in already. -/
theorem login_any_spec (n : ℕ) (hn : 1 ≤ n) (s₀ : SessionState) :
    ⦃fun s => ⌜s = s₀ ∧ Ready x s ∧ s.mShouldDisconnect = false ∧ 3 * s.replies.length + 5 ≤ n⌝⦄
    login n
    ⦃post⟨fun _ s => ⌜Inv x s⌝, fun stop s => ⌜Stopped x (s₀.mState ≠ .connected) stop s⌝⟩⦄ := by
  by_cases hstate : s₀.mState = .connected
  · have login_spec := @login_spec x
    mvcgen [login_spec]
    case vc1 h =>
      obtain ⟨rfl, hs, hshould, hn⟩ := h
      exact ⟨trivial, hs, hstate, hshould, hn⟩
    case vc2 => exact fun h => h.toInv
    case vc3 => exact Ended.stopped
  · obtain ⟨n, rfl⟩ := Nat.exists_eq_add_of_le' hn
    rintro s ⟨rfl, hs, -⟩
    simp only [wp, PredTrans.apply, EStateM.run, login_abort hstate]
    exact hs.toGood.stopped_abort hstate

/-- `checkAccount` logs in, whether it is logged in or not. -/
theorem checkAccount_spec (n : ℕ) (s₀ : SessionState) :
    ⦃fun s => ⌜s = s₀ ∧ Inv x s ∧ 3 * s.replies.length + 6 ≤ n⌝⦄
    (do connectIfNeeded n; login n)
    ⦃post⟨fun _ s => ⌜Inv x s⌝, fun stop s => ⌜Stopped x (s₀.mShouldDisconnect = false ∧
      (s₀.mState = .loggedin ∨ s₀.mState = .selected)) stop s⌝⟩⦄ := by
  have connectIfNeeded_spec := @connectIfNeeded_spec x
  have login_any_spec := @login_any_spec x
  mvcgen [connectIfNeeded_spec, login_any_spec]
  case vc1 => omega
  case vc2 h => exact ⟨trivial, h.2.1⟩
  case vc3 h₀ _ _ h =>
    have := h.2.2.1.replies
    exact ⟨trivial, h.1, h.2.1, by omega⟩
  case vc4 => exact id
  -- the assertion fails if the session was logged in, and has not connected again
  case vc5 h₀ _ s₁ h _ _ =>
    intro hstop
    obtain ⟨rfl, -⟩ := h₀
    refine ⟨hstop.toGood, hstop.inv, hstop.deep, fun hsettled habort => ?_⟩
    have hstate := hstop.abort hsettled habort
    obtain rfl := h.2.2.2.1.resolve_right hstate
    refine ⟨h.2.1, ?_⟩
    cases hs : s₁.mState with
    | disconnected => exact absurd hs h.1.connected
    | connected => exact absurd hs hstate
    | loggedin => exact .inl rfl
    | selected => exact .inr rfl
  case vc6 => omega
  case vc7 => exact Ended.stopped

theorem syncMessages_spec (n : ℕ) (f : String) (requestKind : IMAPMessagesRequestKind)
    (uids : IndexSet) (modseq : UInt64) (extraHeaders : Option (List String))
    (hfolder : f ∈ x.folder) :
    ⦃fun s => ⌜Inv x s ∧ 3 * s.replies.length + 6 ≤ n⌝⦄
    syncMessagesByUIDWithExtraHeaders x.caseInsensitive n f requestKind uids modseq extraHeaders
    ⦃post⟨fun _ s => ⌜Inv x s⌝, fun stop s => ⌜Stopped x (uids.mRanges = []) stop s⌝⟩⦄ := by
  have fetchMessages_spec := @fetchMessages_spec x
  mvcgen [syncMessagesByUIDWithExtraHeaders, assert, fetchMessages_spec]
  case vc3 => exact id
  case vc4 => exact Ended.stopped
  case vc5 h hranges => exact h.1.toGood.stopped_abort (by simpa using hranges)

theorem Keeps.stopped {α : Type} {n : ℕ} {f : SessionM α} {mayAbort : Prop} (hf : Keeps x n f)
    (s₀ : SessionState) :
    ⦃fun s => ⌜s = s₀ ∧ Inv x s ∧ 3 * s.replies.length + 9 ≤ n⌝⦄ f
    ⦃post⟨fun _ s => ⌜Inv x s⌝, fun stop s => ⌜Stopped x mayAbort stop s⌝⟩⦄ := by
  unfold Keeps at hf
  mvcgen [hf]
  case vc1 h => exact ⟨h.2.1, by omega⟩
  case vc2 => exact id
  case vc3 => exact Ended.stopped

/-- What is made of the result of a method changes nothing. -/
theorem Keeps.map {α β : Type} {n : ℕ} {f : SessionM α} (hf : Keeps x n f) (g : α → β) :
    Keeps x n (do let a ← f; return g a) := by
  unfold Keeps at hf ⊢
  mvcgen [hf]

theorem stops {α : Type} {n : ℕ} {f : SessionM α} {mayAbort : SessionState → Prop}
    (hf : ∀ s₀, ⦃fun s => ⌜s = s₀ ∧ Inv x s ∧ 3 * s.replies.length + 6 ≤ n⌝⦄ f
      ⦃post⟨fun _ s => ⌜Inv x s⌝, fun stop s => ⌜Stopped x (mayAbort s₀) stop s⌝⟩⦄)
    (s₀ : SessionState) :
    ⦃fun s => ⌜s = s₀ ∧ Inv x s ∧ 3 * s.replies.length + 9 ≤ n⌝⦄ f
    ⦃post⟨fun _ s => ⌜Inv x s⌝, fun stop s => ⌜Stopped x (mayAbort s₀) stop s⌝⟩⦄ := by
  mvcgen [hf]
  case vc1 h => exact ⟨h.1, h.2.1, by omega⟩

theorem keeps_requestInInbox {n : ℕ} {c : IMAPCommand} {error : ErrorCode}
    (hfolder : "INBOX" ∈ x.folder) (hchanges : c.changes = false) :
    Keeps x n (requestInInbox x.caseInsensitive n c error) := by
  unfold Keeps
  mvcgen [requestInInbox_spec]
  case vc2 => exact fun h => h.toInv
  case vc3 => exact fun _ _ _ => hfolder
  case vc4 => exact fun _ _ _ => hchanges

/-- Most of the methods select their folder and send one command. -/
theorem keeps_request {α : Type} {n : ℕ} {f : String} {c : SessionState → IMAPCommand}
    {error : ErrorCode} {g : IMAPReply → α} (hfolder : f ∈ x.folder)
    (hchanges : ∀ s, (c s).changes = false) :
    Keeps x n (do
      selectIfNeeded x.caseInsensitive n f
      let s ← get
      let reply ← request (c s) error
      return g reply) := by
  refine keeps_selectIfNeeded hfolder ?_
  mvcgen [request_open_spec]
  case vc1 => exact hchanges _
  case vc3 h => exact h.toInv

theorem keeps_connectIfNeeded (n : ℕ) : Keeps x n (connectIfNeeded n) := by
  unfold Keeps
  mvcgen [connectIfNeeded_spec]
  case vc1 h => exact ⟨trivial, h.1⟩
  case vc2 => exact fun h _ _ _ _ => h.toInv
  case vc3 => omega

theorem keeps_identity (n : ℕ) : Keeps x n (identity n) := by
  unfold Keeps
  mvcgen [identity_spec]
  case vc1 h => exact ⟨trivial, h.1⟩
  case vc2 => exact fun h _ _ _ _ => h.toInv
  case vc3 => omega

/-- The quota is asked for without a connection too. -/
theorem quota_spec (n : ℕ) (s₀ : SessionState) :
    ⦃fun s => ⌜s = s₀ ∧ Inv x s ∧ 3 * s.replies.length + 6 ≤ n⌝⦄
    (do void getQuota; throw .unset : SessionM Unit)
    ⦃post⟨fun _ s => ⌜Inv x s⌝, fun stop s => ⌜Stopped x (s₀.mImap = none) stop s⌝⟩⦄ := by
  mvcgen [void, getQuota_spec]
  case vc2 h => exact ⟨trivial, h.2.1⟩
  case vc3 h => exact h.ended_unset.stopped
  case vc4 h _ _ =>
    obtain ⟨rfl, -⟩ := h
    exact id

end IMAPSession

end SecMail
