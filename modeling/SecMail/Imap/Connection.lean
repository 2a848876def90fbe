import SecMail.IndexSet.Convert
import SecMail.IndexSet.Runs

/-!
# The connection of an IMAP session

A session sends commands over its connection with libetpan, one at a time, and waits for the
answer of each.  The answers are taken from a list; what the server has made of the commands is kept
beside what the session knows of it.

* `MailimapResult` : how a command ends, for the session and at the server;
* `Mailimap`, `IMAPSession` : the connection and the session;
* `SessionM` : what the methods of the session are written in;
* `command`, `request` : a command with its answer, and with the checks that follow it.
-/

namespace SecMail

/-! ### Commands and answers -/

/-- `enum ConnectionType` -/
inductive ConnectionType
  | clear | startTLS | tls
  deriving DecidableEq

/-- `enum AuthType` -/
inductive AuthType
  | saslNone | saslCRAMMD5 | saslPlain | saslGSSAPI | saslDIGESTMD5 | saslLogin | saslSRP | saslNTLM
  | saslKerberosV4 | xOAuth2
  deriving DecidableEq

/-- The capabilities that the session asks for. -/
inductive Capability
  | startTLS | authPlain | authLogin | idle | id | xlist | gmail | condstore | qresync | xoauth2
  | namespace | compressDeflate
  deriving DecidableEq

/-- `enum IMAPStoreFlagsRequestKind` -/
inductive IMAPStoreFlagsRequestKind
  | add | remove | set
  deriving DecidableEq

/-- `enum IMAPMessagesRequestKind`, with its bits. -/
structure IMAPMessagesRequestKind where
  flags : Bool
  headers : Bool
  structure' : Bool
  internalDate : Bool
  fullHeaders : Bool
  headerSubject : Bool
  gmailLabels : Bool
  gmailMessageID : Bool
  gmailThreadID : Bool
  extraHeaders : Bool
  deriving DecidableEq

/-- `struct mailimap_fetch_att` -/
inductive FetchAtt
  | uid | flags | xgmlabels | xgmthrid | xgmmsgid | envelope | bodystructure | internaldate
  | headerFields (fields : List String)
  /-- The section of a part, or the whole message. -/
  | body (sec_list : List UInt32)
  deriving DecidableEq

/-- `struct mailimap_search_key` -/
inductive SearchKey
  | from (value : String)
  | to (value : String)
  | cc (value : String)
  | bcc (value : String)
  | subject (value : String)
  | text (value : String)
  | header (name value : String)
  | or (key₁ key₂ : SearchKey)
  /-- `mailimap_search_key_new_multiple` of two keys -/
  | multiple (key₁ key₂ : SearchKey)
  deriving DecidableEq

/-- The commands that the session sends, under the names of the functions of libetpan. -/
inductive IMAPCommand
  | connect
  | sslConnect
  | starttls
  | capability
  | login
  | authenticate (mechanism : String)
  | oauth2Authenticate
  | compress
  | enable (feature : String)
  | namespace
  | id
  | list (prefix' pattern : String)
  | xlist (prefix' pattern : String)
  | lsub (prefix' pattern : String)
  | select (folder : String)
  | status (folder : String)
  | noop
  | rename (folder otherName : String)
  | delete (folder : String)
  | create (folder : String)
  | subscribe (folder : String)
  | unsubscribe (folder : String)
  | quota (folder : String)
  | append (folder : String) (flag_list : List String)
  | copy (set : List SetItem) (destFolder : String)
  | expunge
  | search (charset : Option String) (key : SearchKey)
  | store (set : List SetItem) (kind : IMAPStoreFlagsRequestKind) (flag_list : List String)
  | storeLabels (set : List SetItem) (fl_sign : ℤ) (labels : List String)
  /-- `FETCH` or `UID FETCH`, of what has changed since `modseq` if there is one, with `VANISHED` if
  `qresync`. -/
  | fetch (byUID : Bool) (set : List SetItem) (fetch_type : List FetchAtt) (modseq : Option UInt64)
    (qresync : Bool)
  | idle
  | idleDone
  deriving DecidableEq

/-- The command is about the folder that is selected at the server. -/
def IMAPCommand.ofMailbox : IMAPCommand → Bool
  | copy _ _ | expunge | search _ _ | store _ _ _ | storeLabels _ _ _ | fetch _ _ _ _ _
  | idle => true
  | _ => false

/-- What the server has made of a command. -/
inductive Effect
  | none | executed | refused
  deriving DecidableEq

/-- The result of a function of libetpan.  Of a command whose answer cannot be read, or has not
come, the session does not know the effect. -/
inductive MailimapResult
  /-- `MAILIMAP_NO_ERROR` -/
  | ok
  /-- `MAILIMAP_ERROR_STREAM` -/
  | stream (effect : Effect)
  /-- `MAILIMAP_ERROR_PARSE` -/
  | parse (effect : Effect)
  /-- Another error. -/
  | error
  deriving DecidableEq

namespace MailimapResult

/-- What the server has made of the command. -/
def effect : MailimapResult → Effect
  | ok => .executed
  | stream effect => effect
  | parse effect => effect
  | error => .refused

/-- The connection is lost. -/
def isStream : MailimapResult → Bool
  | stream _ => true
  | _ => false

/-- `hasError` : the two other values that are no errors count as `ok`. -/
def hasError (r : MailimapResult) : Bool := r != ok

end MailimapResult

/-- The state of a connection at the server. -/
inductive ServerState
  | notAuthenticated
  | authenticated
  | selected (folder : String)
  deriving DecidableEq

/-- A `SELECT` that is refused leaves no folder selected. -/
def ServerState.after : ServerState → IMAPCommand → Effect → ServerState
  | _, .login, .executed => authenticated
  | _, .authenticate _, .executed => authenticated
  | _, .oauth2Authenticate, .executed => authenticated
  | _, .select folder, .executed => selected folder
  | selected _, .select _, .refused => authenticated
  | server, _, _ => server

/-- `resp-text-code` of CONDSTORE -/
inductive CondstoreCode
  | highestModSeq (value : UInt64)
  | noModSeq
  deriving DecidableEq

/-- `imap_selection_info` -/
structure SelectionInfo where
  sel_uidvalidity : UInt32
  sel_uidnext : UInt32
  sel_exists : Option UInt32
  sel_first_unseen : UInt32
  rsp_extension_list : List CondstoreCode
  deriving DecidableEq

/-- `struct mailimap_status_info` -/
inductive StatusInfo
  | unseen (st_value : UInt32)
  | messages (st_value : UInt32)
  | recent (st_value : UInt32)
  | uidNext (st_value : UInt32)
  | uidValidity (st_value : UInt32)
  | highestModSeq (cs_highestmodseq_value : UInt64)
  deriving DecidableEq

/-- What ends `mailstream_wait_idle`. -/
inductive IdleEnd
  | error | cancelled | interrupted | hasData | timeout
  deriving DecidableEq

/-- The answer to a command, with what it carries. -/
structure IMAPReply where
  r : MailimapResult
  imap_response : Option String
  /-- The capabilities, when the server has named them. -/
  imap_capability : Option (List Capability)
  /-- The certificate is one that `mailcore::checkCertificate` accepts. -/
  certificate : Bool
  /-- The folders of a list, with their delimiters. -/
  mailboxes : List (String × Option Char)
  /-- `ns_personal`, with the prefix and the delimiter of each item. -/
  ns_personal : Option (List (String × Option Char))
  imap_selection_info : Option SelectionInfo
  st_info_list : List StatusInfo
  /-- The resources of a quota, with `usage` and `limit`. -/
  quota_list : List (String × UInt32 × UInt32)
  dest_uid : Option (List SetItem)
  /-- The numbers of a search, or the UID of a message that was appended. -/
  uids : List UInt32
  /-- The number of messages that a fetch names. -/
  fetch_result : ℕ
  /-- The UIDs of the messages that `msg_att_handler` has made of them. -/
  messages : List UInt32
  qr_known_uids : Option (List SetItem)
  sec_body_part : Option (List UInt8)
  /-- Nothing of the folder has changed before `mailstream_wait_idle`, which ends so. -/
  idle : Option IdleEnd
  deriving DecidableEq

/-- An answer that carries nothing. -/
def IMAPReply.of (r : MailimapResult) : IMAPReply :=
  ⟨r, none, none, false, [], none, none, [], [], none, [], 0, [], none, none, none⟩

/-! ### The session -/

/-- `mImap`, with what has become of it. -/
structure Mailimap where
  /-- The connection is encrypted. -/
  encrypted : Bool
  /-- The certificate was checked. -/
  checked : Bool
  /-- A command has ended with `MAILIMAP_ERROR_STREAM`. -/
  failed : Bool
  server : ServerState
  imap_capability : Option (List Capability)
  deriving DecidableEq

/-- `mailimap_new` -/
def Mailimap.new : Mailimap := ⟨false, false, false, .notAuthenticated, none⟩

/-- What becomes of the connection with a command and its answer. -/
def Mailimap.after (c : Mailimap) (command : IMAPCommand) (reply : IMAPReply) : Mailimap :=
  { c with
    failed := c.failed || reply.r.isStream
    server := c.server.after command reply.r.effect
    imap_capability := reply.imap_capability.or c.imap_capability }

/-- A command as it was sent. -/
structure IMAPEvent where
  command : IMAPCommand
  connection : Mailimap
  /-- There is none when the answer has not come. -/
  outcome : Option MailimapResult
  deriving DecidableEq

/-- The states of a session. -/
inductive MState
  | disconnected | connected | loggedin | selected
  deriving DecidableEq

/-- The fields of a session that the methods read or change. -/
structure IMAPSession where
  mAuthType : AuthType
  mConnectionType : ConnectionType
  mCheckCertificateEnabled : Bool
  mAutomaticConfigurationEnabled : Bool
  /-- There is none when it is 0. -/
  mDelimiter : Option Char
  /-- The items of the namespace. -/
  mDefaultNamespace : Option (List (String × Option Char))
  mIdleEnabled : Bool
  mXListEnabled : Bool
  mCondstoreEnabled : Bool
  mQResyncEnabled : Bool
  mIdentityEnabled : Bool
  mXOauth2Enabled : Bool
  mNamespaceEnabled : Bool
  mCompressionEnabled : Bool
  mUIDValidity : UInt32
  mUIDNext : UInt32
  mModSequenceValue : UInt64
  mFolderMsgCount : UInt32
  mFirstUnseenUid : UInt32
  mYahooServer : Bool
  mNeedsMboxMailWorkaround : Bool
  mCurrentFolder : Option String
  mCanIdle : Bool
  mState : MState
  mImap : Option Mailimap
  mAutomaticConfigurationDone : Bool
  mShouldDisconnect : Bool
  deriving DecidableEq

/-- `IMAPSession::init`, with the values that are set afterwards.  `mXOauth2Enabled` is not set
there. -/
def IMAPSession.init (authType : AuthType) (connectionType : ConnectionType)
    (checkCertificate automaticConfiguration mXOauth2Enabled : Bool)
    (mDefaultNamespace : Option (List (String × Option Char))) : IMAPSession where
  mAuthType := authType
  mConnectionType := connectionType
  mCheckCertificateEnabled := checkCertificate
  mAutomaticConfigurationEnabled := automaticConfiguration
  mDelimiter := none
  mDefaultNamespace := mDefaultNamespace
  mIdleEnabled := false
  mXListEnabled := false
  mCondstoreEnabled := false
  mQResyncEnabled := false
  mIdentityEnabled := false
  mXOauth2Enabled := mXOauth2Enabled
  mNamespaceEnabled := false
  mCompressionEnabled := false
  mUIDValidity := 0
  mUIDNext := 0
  mModSequenceValue := 0
  mFolderMsgCount := 0
  mFirstUnseenUid := 0
  mYahooServer := false
  mNeedsMboxMailWorkaround := false
  mCurrentFolder := none
  mCanIdle := true
  mState := .disconnected
  mImap := none
  mAutomaticConfigurationDone := false
  mShouldDisconnect := false

/-- The session while a method runs: the answers to come, and the commands that were sent. -/
structure SessionState extends IMAPSession where
  replies : List IMAPReply
  events : List IMAPEvent

namespace SessionState

/-- A command has been answered. -/
def answered (s : SessionState) (c : IMAPCommand) (connection : Mailimap) (reply : IMAPReply)
    (replies : List IMAPReply) : SessionState :=
  { s with
    mImap := some (connection.after c reply)
    replies := replies
    events := s.events ++ [⟨c, connection, some reply.r⟩] }

/-- A command will not be answered. -/
def hung (s : SessionState) (c : IMAPCommand) (connection : Mailimap) : SessionState :=
  { s with events := s.events ++ [⟨c, connection, none⟩] }

/-- The connection is going to be dropped. -/
def lost (s : SessionState) : SessionState := { s with mShouldDisconnect := true }

/-- The connection has been dropped. -/
def cleared (s : SessionState) : SessionState := { s with mShouldDisconnect := false }

/-- The session is in another state. -/
def setState (s : SessionState) (mState : MState) : SessionState := { s with mState := mState }

/-- The session is in another state, with another folder. -/
def setFolder (s : SessionState) (mState : MState) (mCurrentFolder : Option String) :
    SessionState := { s with mState := mState, mCurrentFolder := mCurrentFolder }

/-- What `unsetup` leaves. -/
def dropped (s : SessionState) : SessionState :=
  { s with mImap := none, mCanIdle := false, mState := .disconnected }

/-- Something becomes of the connection. -/
def mapConnection (s : SessionState) (f : Mailimap → Mailimap) : SessionState :=
  { s with mImap := s.mImap.map f }

end SessionState

/-- `enum ErrorCode`, without `ErrorNone`. -/
inductive ErrorCode
  | connection | tlsNotAvailable | parse | certificate | authentication | gmailIMAPNotEnabled
  | gmailExceededBandwidthLimit | gmailTooManySimultaneousConnections | mobileMeMoved
  | yahooUnavailable | nonExistantFolder | rename | delete | create | subscribe | append | copy
  | expunge | fetch | idle | identity | namespace | store | capability | compression | noop
  deriving DecidableEq

/-- How a method ends other than with `ErrorNone`. -/
inductive Stop
  | error (code : ErrorCode)
  /-- `* pError` has not been set. -/
  | unset
  /-- It waits for an answer. -/
  | waiting
  /-- An assertion has failed, or `NULL` was used. -/
  | abort
  /-- The calls are nested deeper than the model follows them. -/
  | tooDeep
  deriving DecidableEq

/-- The methods of the session. -/
abbrev SessionM := EStateM Stop SessionState

namespace IMAPSession

/-- A call of which the result is not used. -/
def void {α : Type} (x : SessionM α) : SessionM Unit := do
  let _ ← x
  return ()

/-- `MCAssert` -/
def assert (cond : Bool) : SessionM Unit := if cond then pure () else throw .abort

/-- A command, with its answer. -/
def command (c : IMAPCommand) : SessionM IMAPReply := do
  let s ← get
  match s.mImap with
  | none => throw .abort
  | some connection =>
    match s.replies with
    | [] =>
      set (s.hung c connection)
      throw .waiting
    | reply :: replies =>
      set (s.answered c connection reply replies)
      return reply

/-- What most methods do when a command has failed. -/
def checkResult (r : MailimapResult) (error : ErrorCode) : SessionM Unit :=
  match r with
  | .ok => pure ()
  | .stream _ => do
    modify SessionState.lost
    throw (.error .connection)
  | .parse _ => throw (.error .parse)
  | .error => throw (.error error)

/-- A command, with the checks of its result that most methods make. -/
def request (c : IMAPCommand) (error : ErrorCode) : SessionM IMAPReply := do
  let reply ← command c
  checkResult reply.r error
  return reply

end IMAPSession

end SecMail
