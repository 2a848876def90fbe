import SecMail.Imap.Connection

/-!
# Connecting, logging in and selecting a folder

Every method of an IMAP session brings the session first into the state that it needs: connected,
logged in, or with a folder selected.  While it logs in, a session asks for capabilities, for its
namespace and for the identity of the server, with methods that may log in themselves: the argument
`n` of these methods bounds how deep their calls are nested.

* `connectIfNeeded`, `connect`, `capability` : the first state;
* `loginIfNeeded`, `login`, `fetchNamespace`, `identity` : the second;
* `selectIfNeeded`, `select` : the third.
-/

namespace SecMail

namespace IMAPSession

/-- `locationOfString` finds the text. -/
def hasString (response text : String) : Bool := decide (text.toList <:+: response.toList)

/-! ### Capabilities -/

/-- `enum IMAPCapability` -/
def capabilityIndex : Capability → UInt64
  | .compressDeflate => 4
  | .condstore => 5
  | .idle => 7
  | .id => 8
  | .namespace => 11
  | .qresync => 12
  | .startTLS => 15
  | .xlist => 20
  | .authLogin => 27
  | .authPlain => 30
  | .xoauth2 => 33
  | .gmail => 34

/-- The capabilities in the order in which they are added. -/
def capabilities : List Capability :=
  [.startTLS, .authPlain, .authLogin, .id, .xlist, .gmail, .idle, .condstore, .qresync, .xoauth2,
    .namespace, .compressDeflate]

/-- `mailimap_has_extension`, `mailimap_has_authentication` -/
def has (s : IMAPSession) (c : Capability) : Bool :=
  s.mImap.any fun connection => connection.imap_capability.any fun cs => decide (c ∈ cs)

/-- What the session remembers of the capabilities; GMail is never asked with `XLIST`. -/
def applyCapabilities (s : IMAPSession) (capabilities : IndexSet) : IMAPSession :=
  let contains (c : Capability) : Bool := capabilities.containsIndex (capabilityIndex c)
  { s with
    mIdentityEnabled := s.mIdentityEnabled || contains .id
    mXListEnabled := (s.mXListEnabled || contains .xlist) && !contains .gmail
    mIdleEnabled := s.mIdleEnabled || contains .idle
    mCondstoreEnabled := s.mCondstoreEnabled || contains .condstore
    mQResyncEnabled := s.mQResyncEnabled || contains .qresync
    mXOauth2Enabled := s.mXOauth2Enabled || contains .xoauth2
    mNamespaceEnabled := s.mNamespaceEnabled || contains .namespace
    mCompressionEnabled := s.mCompressionEnabled || contains .compressDeflate }

/-- The set that `capabilitySetWithSessionState` fills. -/
def capabilitySet (s : IMAPSession) (set : IndexSet) : IndexSet :=
  capabilities.foldl (fun set c => if s.has c then set.addIndex (capabilityIndex c) else set) set

/-- Add the capabilities of the connection to `set`, and remember them. -/
def capabilitySetWithSessionState (set : IndexSet) : SessionM IndexSet := do
  let s ← get
  let set := s.capabilitySet set
  modify fun s => { s with mCanIdle := s.mCanIdle || s.has .idle }
  modify fun s => { s with toIMAPSession := s.toIMAPSession.applyCapabilities set }
  return set

/-! ### Connecting -/

/-- A new connection. -/
def setup : SessionM Unit := do
  let s ← get
  assert s.mImap.isNone
  set { s with mImap := some .new }

/-- The connection is closed. -/
def unsetup : SessionM Unit := modify SessionState.dropped

/-- The connection is dropped. -/
def disconnect : SessionM Unit := unsetup

/-- The label `close` of `connect`. -/
def close (error : ErrorCode) : SessionM Unit := do
  unsetup
  throw (.error error)

/-- `checkCertificate`, with what `mailcore::checkCertificate` says of the certificate. -/
def checkCertificate (certificate : Bool) : SessionM Bool := do
  let s ← get
  if !s.mCheckCertificateEnabled then return true
  modify (·.mapConnection fun c => { c with checked := certificate })
  return certificate

/-- The connection is encrypted from now on. -/
def setEncrypted : SessionM Unit :=
  modify (·.mapConnection fun c => { c with encrypted := true })

/-- A command of `connect`, which goes to `close` when it fails. -/
def openingCommand (c : IMAPCommand) (error : ErrorCode) : SessionM IMAPReply := do
  let reply ← command c
  if reply.r.hasError then close error
  return reply

/-- The switch over the connection type. -/
def openConnection : SessionM IMAPReply := do
  let s ← get
  match s.mConnectionType with
  | .startTLS =>
    void <| openingCommand .connect .connection
    let reply ← openingCommand .starttls .tlsNotAvailable
    setEncrypted
    return reply
  | .tls =>
    let reply ← openingCommand .sslConnect .connection
    setEncrypted
    let checked ← checkCertificate reply.certificate
    if !checked then close .certificate
    return reply
  | .clear => openingCommand .connect .connection

/-- The welcome string tells the servers of Yahoo. -/
def setWelcomeString (imap_response : Option String) : SessionM Unit :=
  modify fun s => { s with
    mYahooServer := imap_response.elim s.mYahooServer (hasString · "yahoo.com") }

/-- What `connect` and `login` do to know the capabilities, if the server has not named them. -/
def automaticCapability (capability : SessionM IndexSet) : SessionM Unit := do
  let s ← get
  if s.mAutomaticConfigurationEnabled then
    if s.mImap.any fun c => c.imap_capability.isSome then
      void <| capabilitySetWithSessionState .indexSet
    else void capability

mutual

/-- Connect, and ask for the capabilities if the server has not named them. -/
def connect : ℕ → SessionM Unit
  | 0 => throw .tooDeep
  | n + 1 => do
    setup
    assert (decide ((← get).mState = .disconnected))
    let reply ← openConnection
    setWelcomeString reply.imap_response
    modify (·.setState .connected)
    tryCatch (automaticCapability (capability n)) fun
      | .error error => close error
      | stop => throw stop

/-- Drop a connection that was lost, and connect if there is none. -/
def connectIfNeeded : ℕ → SessionM Unit
  | 0 => throw .tooDeep
  | n + 1 => do
    let s ← get
    if s.mShouldDisconnect then
      disconnect
      modify SessionState.cleared
    let s ← get
    if s.mState = .disconnected then connect n

/-- Ask for the capabilities. -/
def capability : ℕ → SessionM IndexSet
  | 0 => throw .tooDeep
  | n + 1 => do
    connectIfNeeded n
    void <| request .capability .capability
    capabilitySetWithSessionState .indexSet

end

/-! ### Logging in -/

/-- The command by which the session logs in. -/
def authenticationCommand : AuthType → IMAPCommand
  | .saslNone => .login
  | .saslCRAMMD5 => .authenticate "CRAM-MD5"
  | .saslPlain => .authenticate "PLAIN"
  | .saslGSSAPI => .authenticate "GSSAPI"
  | .saslDIGESTMD5 => .authenticate "DIGEST-MD5"
  | .saslLogin => .authenticate "LOGIN"
  | .saslSRP => .authenticate "SRP"
  | .saslNTLM => .authenticate "NTLM"
  | .saslKerberosV4 => .authenticate "KERBEROS_V4"
  | .xOAuth2 => .oauth2Authenticate

/-- What a refused authentication is reported as. -/
def authenticationError (imap_response : Option String) : ErrorCode :=
  let response := imap_response.getD ""
  if hasString response "not enabled for IMAP use" then .gmailIMAPNotEnabled
  else if hasString response "bandwidth limits" then .gmailExceededBandwidthLimit
  else if hasString response "Too many simultaneous connections" then
    .gmailTooManySimultaneousConnections
  else if hasString response "Maximum number of connections" then
    .gmailTooManySimultaneousConnections
  else if hasString response "http://me.com/move" then .mobileMeMoved
  else if hasString response "OCF12" then .yahooUnavailable
  else .authentication

/-- Enable a feature; whether that fails does not matter. -/
def enableFeature (feature : String) : SessionM Bool := do
  let reply ← command (.enable feature)
  return reply.r == .ok

/-- Compress the connection. -/
def enableCompression : SessionM Unit := void <| request .compress .compression

/-- The error of the compression is not looked at. -/
def enableCompressionIfNeeded : SessionM Unit := do
  let s ← get
  if s.mCompressionEnabled then
    tryCatch enableCompression fun
      | .error _ => pure ()
      | stop => throw stop

/-- Compression, and one of the two features. -/
def enableFeatures : SessionM Unit := do
  enableCompressionIfNeeded
  let s ← get
  if s.mQResyncEnabled then void <| enableFeature "QRESYNC"
  else if s.mCondstoreEnabled then void <| enableFeature "CONDSTORE"

/-- The folders of a list, with the spelling of the inbox that the library uses. -/
def resultsWithError (reply : IMAPReply) : SessionM (List (String × Option Char)) :=
  match reply.r with
  | .stream _ => throw (.error .connection)
  | .parse _ => throw (.error .parse)
  | .error => throw (.error .nonExistantFolder)
  | .ok => pure <| reply.mailboxes.map fun (path, delimiter) =>
    (if path.toUpper = "INBOX" then "INBOX" else path, delimiter)

/-- The prefix of the first item of a namespace. -/
def mainPrefix (ns : List (String × Option Char)) : Option String := ns.head?.map Prod.fst

/-- The delimiter of the first item of a namespace. -/
def mainDelimiter (ns : List (String × Option Char)) : Option Char := ns.head?.bind Prod.snd

/-- Remember a namespace, with its delimiter. -/
def setDefaultNamespace (ns : List (String × Option Char)) : SessionM Unit :=
  modify fun s => { s with mDefaultNamespace := some ns, mDelimiter := mainDelimiter ns }

/-- Tell the server who the client is. -/
def identity (n : ℕ) : SessionM Unit := do
  connectIfNeeded n
  void <| request .id .identity

/-- What `login` begins with. -/
def authenticate : SessionM Unit := do
  modify (·.mapConnection fun c => { c with imap_capability := none })
  let s ← get
  let reply ← command (authenticationCommand s.mAuthType)
  checkResult reply.r (authenticationError reply.imap_response)
  modify (·.setState .loggedin)

/-- What `login` does without a namespace of the user. -/
def listDefaultNamespace : SessionM Unit := do
  let reply ← command (.list "" "")
  match ← resultsWithError reply with
  | [] => throw (.error .nonExistantFolder)
  | (_, delimiter) :: _ => setDefaultNamespace [("", delimiter)]

/-- What `login` does to know the namespace, of the user if there is one. -/
def automaticNamespace
    (fetchNamespace : SessionM (Option (List (String × Option Char)))) : SessionM Unit := do
  let s ← get
  let personalNamespace ← if s.mNamespaceEnabled then fetchNamespace else pure none
  match personalNamespace with
  | some ns => setDefaultNamespace ns
  | none => listDefaultNamespace

/-- What `login` does after the features have been enabled. -/
def automaticConfiguration (fetchNamespace : SessionM (Option (List (String × Option Char))))
    (identity : SessionM Unit) : SessionM Unit := do
  let s ← get
  if s.mAutomaticConfigurationEnabled then
    automaticNamespace fetchNamespace
    let s ← get
    if s.mIdentityEnabled then identity

mutual

/-- Log in, and ask for what is not known of the server. -/
def login : ℕ → SessionM Unit
  | 0 => throw .tooDeep
  | n + 1 => do
    assert (decide ((← get).mState = .connected))
    authenticate
    automaticCapability (capability n)
    enableFeatures
    automaticConfiguration (fetchNamespace n) (identity n)
    modify fun s => { s with mAutomaticConfigurationDone := true }

/-- Connect and log in, where that has not been done. -/
def loginIfNeeded : ℕ → SessionM Unit
  | 0 => throw .tooDeep
  | n + 1 => do
    connectIfNeeded n
    let s ← get
    if s.mState = .connected then login n

/-- The namespace of the user, of those that are fetched. -/
def fetchNamespace : ℕ → SessionM (Option (List (String × Option Char)))
  | 0 => throw .tooDeep
  | n + 1 => do
    loginIfNeeded n
    let reply ← request .namespace .namespace
    return reply.ns_personal

end

/-! ### Selecting a folder -/

/-- The last modification sequence that is named. -/
def get_mod_sequence_value (codes : List CondstoreCode) : UInt64 :=
  codes.foldl (fun _ code => match code with
    | .highestModSeq value => value
    | .noModSeq => 0) 0

/-- What `select` keeps of `imap_selection_info`. -/
def setSelectionInfo (s : IMAPSession) (info : SelectionInfo) : IMAPSession :=
  { s with
    mUIDValidity := info.sel_uidvalidity
    mUIDNext := info.sel_uidnext
    mFolderMsgCount := info.sel_exists.getD (-1)
    mFirstUnseenUid := info.sel_first_unseen
    mModSequenceValue := get_mod_sequence_value info.rsp_extension_list }

/-- No folder is selected, after one could not be. -/
def deselect : SessionM Unit := modify (·.setFolder .loggedin none)

/-- The folder is selected. -/
def setCurrentFolder (folder : String) (imap_selection_info : Option SelectionInfo) :
    SessionM Unit := do
  modify fun s => { s with
    toIMAPSession := imap_selection_info.elim s.toIMAPSession s.setSelectionInfo }
  modify (·.setFolder .selected folder)

/-- Select a folder; a `SELECT` that is refused leaves none selected. -/
def select (folder : String) : SessionM Unit := do
  let s ← get
  assert (decide (s.mState = .loggedin ∨ s.mState = .selected))
  let reply ← command (.select folder)
  match reply.r with
  | .ok => setCurrentFolder folder reply.imap_selection_info
  | .stream _ =>
    modify SessionState.lost
    throw (.error .connection)
  | .parse _ => throw (.error .parse)
  | .error =>
    deselect
    throw (.error .nonExistantFolder)

/-- `caseInsensitiveCompare` is given: whether two names are the same apart from their case. -/
def selectIfNeeded (caseInsensitive : String → String → Bool) (n : ℕ) (folder : String) :
    SessionM Unit := do
  loginIfNeeded n
  let s ← get
  match s.mState with
  | .selected =>
    match s.mCurrentFolder with
    | none => throw .abort
    | some current => if !caseInsensitive current folder then select folder
  | .loggedin => select folder
  | _ => pure ()

end IMAPSession

end SecMail
