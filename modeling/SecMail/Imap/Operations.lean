import SecMail.Imap.Session

/-!
# The operations of an IMAP session

The methods that the application calls, through operations on a queue: each brings the session into
the state that it needs, and sends its commands.

* `selectIfNeeded`, then one command : most of the methods;
* `storeFlags`, `storeLabels`, `copyMessages` : a command for every ten ranges;
* `fetchMessages` : a command, and a second one if no header could be read;
* `IMAPOperation.main`, `sessionSystem` : the operations, and the session as a system.
-/

namespace SecMail

/-- `IMAPSearchExpression` -/
inductive IMAPSearchExpression
  | from (value : String)
  | recipient (value : String)
  | subject (value : String)
  | content (value : String)
  | header (header value : String)
  | or (left right : IMAPSearchExpression)
  | and (left right : IMAPSearchExpression)
  deriving DecidableEq

/-- The key of an expression; a recipient is one of three headers. -/
def searchKeyFromSearchExpression : IMAPSearchExpression → SearchKey
  | .from value => .from value
  | .recipient value => .or (.or (.to value) (.cc value)) (.bcc value)
  | .subject value => .subject value
  | .content value => .text value
  | .header header value => .header header value
  | .or left right =>
    .or (searchKeyFromSearchExpression left) (searchKeyFromSearchExpression right)
  | .and left right =>
    .multiple (searchKeyFromSearchExpression left) (searchKeyFromSearchExpression right)

/-- `IMAPFolderStatus` -/
structure IMAPFolderStatus where
  unseenCount : UInt32
  messageCount : UInt32
  recentCount : UInt32
  uidNext : UInt32
  uidValidity : UInt32
  highestModSeqValue : UInt64
  deriving DecidableEq

/-- The names of the flags that are set in `flags`, in the order of the table. -/
def flagNames (table : List (UInt32 × String)) (flags : UInt32) : List String :=
  (table.filter fun (flag, _) => flags &&& flag != 0).map Prod.snd

namespace IMAPSession

variable (caseInsensitive : String → String → Bool) (n : ℕ)

/-! ### Folders -/

/-- The methods that select the inbox first, so that no folder they are about is selected. -/
def requestInInbox (c : IMAPCommand) (error : ErrorCode) : SessionM Unit := do
  selectIfNeeded caseInsensitive n "INBOX"
  void <| request c error

/-- Rename a folder. -/
def renameFolder (folder otherName : String) : SessionM Unit :=
  requestInInbox caseInsensitive n (.rename folder otherName) .rename

/-- Delete a folder. -/
def deleteFolder (folder : String) : SessionM Unit :=
  requestInInbox caseInsensitive n (.delete folder) .delete

/-- Subscribe to a folder. -/
def subscribeFolder (folder : String) : SessionM Unit :=
  requestInInbox caseInsensitive n (.subscribe folder) .subscribe

/-- Unsubscribe from a folder. -/
def unsubscribeFolder (folder : String) : SessionM Unit :=
  requestInInbox caseInsensitive n (.unsubscribe folder) .subscribe

/-- Create a folder, and subscribe to it. -/
def createFolder (folder : String) : SessionM Unit := do
  requestInInbox caseInsensitive n (.create folder) .create
  subscribeFolder caseInsensitive n folder

/-- A list that is asked for, with the connection to be dropped when it is lost. -/
def listRequest (c : IMAPCommand) : SessionM (List (String × Option Char)) := do
  let reply ← command c
  if reply.r.isStream then modify SessionState.lost
  resultsWithError reply

/-- The delimiter of the hierarchy, which is asked for if it is not known. -/
def fetchDelimiterIfNeeded (defaultDelimiter : Option Char) : SessionM (Option Char) := do
  if defaultDelimiter.isSome then return defaultDelimiter
  match ← listRequest (.list "" "") with
  | [] => return none
  | (_, delimiter) :: _ => return delimiter

/-- The prefix of the namespace, with the delimiter at its end. -/
def prefixWithDelimiter (mainPrefix : String) (delimiter : Option Char) : String :=
  let suffix := delimiter.elim "" String.singleton
  if mainPrefix = "" ∨ suffix.toList <:+ mainPrefix.toList then mainPrefix
  else mainPrefix ++ suffix

/-- What `fetchSubscribedFolders` and `fetchAllFolders` begin with. -/
def fetchDelimiter : SessionM Unit := do
  loginIfNeeded n
  let s ← get
  if s.mDelimiter.isNone then
    let delimiter ← fetchDelimiterIfNeeded s.mDelimiter
    modify fun s => { s with mDelimiter := delimiter }

/-- The folders below the prefix of the namespace; `NULL` is used when there is no namespace. -/
def fetchSubscribedFolders : SessionM (List (String × Option Char)) := do
  fetchDelimiter n
  let s ← get
  match s.mDefaultNamespace with
  | none => throw .abort
  | some ns => listRequest (.lsub (prefixWithDelimiter ((mainPrefix ns).getD "") s.mDelimiter) "*")

/-- `XLIST` where the server has it. -/
def listCommand (mXListEnabled : Bool) (mainPrefix : String) : IMAPCommand :=
  if mXListEnabled then .xlist mainPrefix "*" else .list mainPrefix "*"

/-- The list of `fetchAllFolders`, if it can be had. -/
def listFolders (mainPrefix : String) : SessionM (Option (List (String × Option Char))) := do
  let s ← get
  tryCatch (some <$> listRequest (listCommand s.mXListEnabled mainPrefix)) fun
    | .error _ => pure none
    | stop => throw stop

/-- When the list fails, `NULL` is used for its result after the inbox has been asked for. -/
def fetchAllFolders : SessionM (List (String × Option Char)) := do
  fetchDelimiter n
  let s ← get
  match ← listFolders
    (prefixWithDelimiter ((s.mDefaultNamespace.bind mainPrefix).getD "") s.mDelimiter) with
  | none =>
    void <| command (.list "" "INBOX")
    throw .abort
  | some result =>
    if result.any fun folder => folder.1 == "INBOX" then return result
    let inboxResult ← listRequest (.list "" "INBOX")
    return result ++ inboxResult

/-- The counts of a folder, asked for in a session that is logged in. -/
def folderStatus (folder : String) : SessionM IMAPFolderStatus := do
  let s ← get
  assert (decide (s.mState = .loggedin ∨ s.mState = .selected))
  let reply ← request (.status folder) .nonExistantFolder
  return reply.st_info_list.foldl (fun fs info => match info with
    | .unseen st_value => { fs with unseenCount := st_value }
    | .messages st_value => { fs with messageCount := st_value }
    | .recent st_value => { fs with recentCount := st_value }
    | .uidNext st_value => { fs with uidNext := st_value }
    | .uidValidity st_value => { fs with uidValidity := st_value }
    | .highestModSeq value => { fs with highestModSeqValue := value }) ⟨0, 0, 0, 0, 0, 0⟩

/-! ### Messages -/

/-- The order of the flags in `flags_to_lep`. -/
def lepFlags : List (UInt32 × String) :=
  [(1, "\\Seen"), (4, "\\Flagged"), (8, "\\Deleted"), (2, "\\Answered"), (16, "\\Draft"),
    (64, "$Forwarded"), (32, "$MDNSent"), (128, "$SubmitPending"), (256, "$Submitted")]

/-- The order of the flags in `storeFlags`. -/
def storedFlags : List (UInt32 × String) :=
  [(1, "\\Seen"), (2, "\\Answered"), (4, "\\Flagged"), (8, "\\Deleted"), (16, "\\Draft"),
    (32, "$MDNSent"), (64, "$Forwarded"), (128, "$SubmitPending"), (256, "$Submitted")]

/-- Append a message, whose text is left out, to a folder. -/
def appendMessage (folder : String) (flags : UInt32) : SessionM UInt32 := do
  selectIfNeeded caseInsensitive n folder
  let reply ← request (.append folder (flagNames lepFlags flags)) .append
  return reply.uids.headD 0

/-- The loop of `copyMessages`, with `uidSetResult`. -/
def copyParts (destFolder : String) :
    Option IndexSet → List (List SetItem) → SessionM (Option IndexSet)
  | uidSetResult, [] => pure uidSetResult
  | uidSetResult, current_set :: setList => do
    let reply ← request (.copy current_set destFolder) .copy
    copyParts destFolder ((reply.dest_uid.map indexSetFromSet).or uidSetResult) setList

/-- Copy messages, ten ranges at a time. -/
def copyMessages (folder : String) (uidSet : IndexSet) (destFolder : String) :
    SessionM (Option IndexSet) := do
  selectIfNeeded caseInsensitive n folder
  copyParts destFolder none (splitSet (setFromIndexSet uidSet) 10)

/-- Expunge a folder. -/
def expunge (folder : String) : SessionM Unit := do
  selectIfNeeded caseInsensitive n folder
  void <| request .expunge .expunge

/-- The loop of `storeFlags` and `storeLabels`.  When the connection is lost they go to their label
`release`, behind which `* pError` is set to `ErrorNone`. -/
def storeParts (store : List SetItem → IMAPCommand) : List (List SetItem) → SessionM Unit
  | [] => pure ()
  | current_set :: setList => do
    let reply ← command (store current_set)
    if reply.r.isStream then modify SessionState.lost
    else
      checkResult reply.r .store
      storeParts store setList

/-- Change the flags of messages. -/
def storeFlags (folder : String) (uids : IndexSet) (kind : IMAPStoreFlagsRequestKind)
    (flags : UInt32) : SessionM Unit := do
  selectIfNeeded caseInsensitive n folder
  storeParts (.store · kind (flagNames storedFlags flags)) (splitSet (setFromIndexSet uids) 10)

/-- The sign of a request for labels. -/
def labelSign : IMAPStoreFlagsRequestKind → ℤ
  | .remove => -1
  | .add => 1
  | .set => 0

/-- Change the labels of messages. -/
def storeLabels (folder : String) (uids : IndexSet) (kind : IMAPStoreFlagsRequestKind)
    (labels : List String) : SessionM Unit := do
  selectIfNeeded caseInsensitive n folder
  storeParts (.storeLabels · (labelSign kind) labels) (splitSet (setFromIndexSet uids) 10)

/-- The UIDs of the messages that match; the servers of Yahoo are not told the charset. -/
def search (folder : String) (expression : IMAPSearchExpression) : SessionM IndexSet := do
  let key := searchKeyFromSearchExpression expression
  selectIfNeeded caseInsensitive n folder
  let s ← get
  let reply ← request (.search (if s.mYahooServer then none else some "utf-8") key) .fetch
  return searchResult reply.uids

/-- `fetch_rfc822`, `fetch_imap` : the fetch of one section. -/
def fetchSection (uid : UInt32) (sec_list : List UInt32) : SessionM (List UInt8) := do
  let reply ← request (.fetch true [⟨uid, uid⟩] [.body sec_list] none false) .fetch
  match reply.sec_body_part with
  | none => throw (.error .fetch)
  | some data => return data

/-- The data ends with its first 0, as `strlen` is used for its length. -/
def fetchMessageByUID (folder : String) (uid : UInt32) : SessionM (List UInt8) := do
  selectIfNeeded caseInsensitive n folder
  let data ← fetchSection uid []
  return data.takeWhile (· ≠ 0)

/-- `strtol` in base 10, cut to 32 bits. -/
def intValue (s : List Char) : UInt32 :=
  let value (digits : List Char) : ℕ := Nat.ofDigitChars 10 (digits.takeWhile Char.isDigit) 0
  match s.dropWhile isspace with
  | '-' :: digits => .ofInt (-min (value digits) (2 ^ 63))
  | '+' :: digits => .ofNat (min (value digits) (2 ^ 63 - 1))
  | digits => .ofNat (min (value digits) (2 ^ 63 - 1))

/-- One part of a message, whose content is not decoded here. -/
def fetchMessageAttachmentByUID (folder : String) (uid : UInt32) (partID : List Char) :
    SessionM (List UInt8) := do
  selectIfNeeded caseInsensitive n folder
  fetchSection uid ((partID.splitOn '.').map intValue)

/-- The attributes that `fetchMessages` asks for. -/
def fetchType (requestKind : IMAPMessagesRequestKind) (extraHeaders : List String) :
    List FetchAtt :=
  [.uid] ++ (if requestKind.flags then [.flags] else []) ++
    (if requestKind.gmailLabels then [.xgmlabels] else []) ++
    (if requestKind.gmailThreadID then [.xgmthrid] else []) ++
    (if requestKind.gmailMessageID then [.xgmmsgid] else []) ++
    (if requestKind.fullHeaders then
      [.headerFields ["Date", "Subject", "From", "Sender", "Reply-To", "To", "Cc", "Message-ID",
        "References", "In-Reply-To"]] else []) ++
    (if requestKind.headers then
      [.envelope, .headerFields
        (["References"] ++ if requestKind.headerSubject then ["Subject"] else [])] else []) ++
    (if requestKind.structure' then [.bodystructure] else []) ++
    (if requestKind.internalDate then [.internaldate] else []) ++
    (if requestKind.extraHeaders ∧ extraHeaders ≠ [] then [.headerFields extraHeaders] else [])

/-- The request for the UIDs alone. -/
def messagesRequestKindUid : IMAPMessagesRequestKind :=
  ⟨false, false, false, false, false, false, false, false, false, false⟩

/-- The request without the envelope, and with the headers instead. -/
def withFullHeaders (requestKind : IMAPMessagesRequestKind) :
    IMAPMessagesRequestKind :=
  { requestKind with headers := false, fullHeaders := true }

/-- What `fetchMessages` makes of the request before it sends it. -/
def adjustedRequestKind (mNeedsMboxMailWorkaround : Bool) (extraHeaders : Option (List String))
    (requestKind : IMAPMessagesRequestKind) : IMAPMessagesRequestKind :=
  let requestKind := if mNeedsMboxMailWorkaround ∧ requestKind.headers then
    withFullHeaders requestKind else requestKind
  if extraHeaders.isSome then { requestKind with extraHeaders := true } else requestKind

/-- The messages of `IMAPSyncResult`, and those that have vanished. -/
structure IMAPSyncResult where
  modifiedOrAddedMessages : List UInt32
  vanishedMessages : Option IndexSet

/-- The second fetch of `fetchMessages`, whose error is not looked at. -/
def fetchWithFullHeaders (fetch : SessionM (Option IMAPSyncResult)) :
    SessionM (Option IMAPSyncResult) := do
  let result ← tryCatch fetch fun
    | .error _ => pure none
    | stop => throw stop
  if result.any fun r => r.modifiedOrAddedMessages ≠ [] then
    modify fun s => { s with mNeedsMboxMailWorkaround := true }
  return result

/-- `calls` bounds how often `fetchMessages` calls itself. -/
def fetchMessages (folder : String) (fetchByUID : Bool) (imapset : List SetItem) (modseq : UInt64)
    (extraHeaders : Option (List String)) :
    ℕ → IMAPMessagesRequestKind → SessionM (Option IMAPSyncResult)
  | 0, _ => throw .tooDeep
  | calls + 1, requestKind => do
    selectIfNeeded caseInsensitive n folder
    let s ← get
    let requestKind := adjustedRequestKind s.mNeedsMboxMailWorkaround extraHeaders requestKind
    let reply ← request (.fetch fetchByUID imapset (fetchType requestKind (extraHeaders.getD []))
      (if modseq ≠ 0 ∧ (s.mCondstoreEnabled ∨ s.mQResyncEnabled) then some modseq else none)
      (decide (modseq ≠ 0) && s.mQResyncEnabled)) .fetch
    if requestKind.headers ∧ reply.messages = [] ∧ 0 < reply.fetch_result then
      fetchWithFullHeaders
        (fetchMessages folder fetchByUID imapset modseq extraHeaders calls
          (withFullHeaders requestKind))
    else return some ⟨reply.messages, reply.qr_known_uids.map indexSetFromSet⟩

/-- The messages with these UIDs. -/
def fetchMessagesByUIDWithExtraHeaders (folder : String) (requestKind : IMAPMessagesRequestKind)
    (uids : IndexSet) (extraHeaders : Option (List String)) : SessionM (Option (List UInt32)) := do
  let syncResult ← fetchMessages caseInsensitive n folder true (setFromIndexSet uids) 0
    extraHeaders 2 requestKind
  return syncResult.map (·.modifiedOrAddedMessages)

/-- The messages with these numbers. -/
def fetchMessagesByNumberWithExtraHeaders (folder : String) (requestKind : IMAPMessagesRequestKind)
    (numbers : IndexSet) (extraHeaders : Option (List String)) :
    SessionM (Option (List UInt32)) := do
  let syncResult ← fetchMessages caseInsensitive n folder false (setFromIndexSet numbers) 0
    extraHeaders 2 requestKind
  return syncResult.map (·.modifiedOrAddedMessages)

/-- What has changed since `modseq`; there must be a range of UIDs. -/
def syncMessagesByUIDWithExtraHeaders (folder : String) (requestKind : IMAPMessagesRequestKind)
    (uids : IndexSet) (modseq : UInt64) (extraHeaders : Option (List String)) :
    SessionM (Option IMAPSyncResult) := do
  assert (decide (uids.mRanges ≠ []))
  fetchMessages caseInsensitive n folder true (setFromIndexSet uids) modseq extraHeaders 2
    requestKind

/-- What `idle` does when nothing new has come. -/
def waitIdle : SessionM Unit := do
  let reply ← request .idle .idle
  if reply.idle = some .error ∨ reply.idle = some .cancelled then
    modify SessionState.lost
    throw (.error .connection)
  void <| request .idleDone .idle

/-- Wait for something new in a folder, unless it has come already. -/
def idle (folder : String) (lastKnownUID : UInt32) : SessionM Unit := do
  selectIfNeeded caseInsensitive n folder
  if lastKnownUID = 0 then waitIdle
  else
    match ← fetchMessagesByUIDWithExtraHeaders caseInsensitive n folder messagesRequestKindUid
      (.indexSetWithRange ⟨lastKnownUID.toUInt64, UINT64_MAX⟩) none with
    | none => throw .abort
    | some msgs => if !msgs.head?.any (lastKnownUID < ·) then waitIdle

/-! ### The rest -/

/-- Without a connection nothing is done, and `* pError` is left as it is. -/
def noop : SessionM Unit := do
  let s ← get
  if s.mImap.isNone then throw .unset
  loginIfNeeded n
  let reply ← command .noop
  match reply.r with
  | .ok => pure ()
  | .stream _ => throw (.error .connection)
  | .parse _ => pure ()
  | .error => throw (.error .noop)

/-- The quota of the storage.  `* pError` is set when an error has occurred only. -/
def getQuota : SessionM (Option (UInt32 × UInt32)) := do
  let reply ← request (.quota "INBOX") .fetch
  return (reply.quota_list.filter fun (resource_name, _) =>
    resource_name.toUpper == "STORAGE").getLast?.map Prod.snd

end IMAPSession

/-! ### Operations -/

/-- The operations that a session is asked for, with their arguments. -/
inductive IMAPOperation
  | connect
  | checkAccount
  | disconnect
  | noop
  | capability
  | fetchNamespace
  | identity
  | quota
  | fetchSubscribedFolders
  | fetchAllFolders
  | folderInfo (folder : String)
  | folderStatus (folder : String)
  | renameFolder (folder otherName : String)
  | deleteFolder (folder : String)
  | createFolder (folder : String)
  | subscribeFolder (folder : String)
  | unsubscribeFolder (folder : String)
  | appendMessage (folder : String) (flags : UInt32)
  | copyMessages (folder : String) (uids : IndexSet) (destFolder : String)
  | expunge (folder : String)
  | storeFlags (folder : String) (uids : IndexSet) (kind : IMAPStoreFlagsRequestKind)
    (flags : UInt32)
  | storeLabels (folder : String) (uids : IndexSet) (kind : IMAPStoreFlagsRequestKind)
    (labels : List String)
  | search (folder : String) (expression : IMAPSearchExpression)
  | fetchMessage (folder : String) (uid : UInt32)
  | fetchMessageAttachment (folder : String) (uid : UInt32) (partID : List Char)
  | fetchMessagesByUID (folder : String) (requestKind : IMAPMessagesRequestKind) (uids : IndexSet)
    (extraHeaders : Option (List String))
  | fetchMessagesByNumber (folder : String) (requestKind : IMAPMessagesRequestKind)
    (numbers : IndexSet) (extraHeaders : Option (List String))
  | syncMessagesByUID (folder : String) (requestKind : IMAPMessagesRequestKind) (uids : IndexSet)
    (modseq : UInt64) (extraHeaders : Option (List String))
  | idle (folder : String) (lastKnownUID : UInt32)

namespace IMAPOperation

open IMAPSession

/-- The folder that an operation selects. -/
def selects : IMAPOperation → Option String
  | folderInfo folder | appendMessage folder _ | copyMessages folder _ _ | expunge folder
  | storeFlags folder _ _ _ | storeLabels folder _ _ _ | search folder _ | fetchMessage folder _
  | fetchMessageAttachment folder _ _ | fetchMessagesByUID folder _ _ _
  | fetchMessagesByNumber folder _ _ _ | syncMessagesByUID folder _ _ _ _ | idle folder _ =>
    some folder
  | renameFolder _ _ | deleteFolder _ | createFolder _ | subscribeFolder _
  | unsubscribeFolder _ => some "INBOX"
  | _ => none

/-- What an operation does on the thread of the queue. -/
def main (caseInsensitive : String → String → Bool) (n : ℕ) : IMAPOperation → SessionM Unit
  | connect => connectIfNeeded n
  | checkAccount => do
    connectIfNeeded n
    login n
  | disconnect => IMAPSession.disconnect
  | noop => IMAPSession.noop n
  | capability => do
    loginIfNeeded n
    void <| IMAPSession.capability n
  | fetchNamespace => void <| IMAPSession.fetchNamespace n
  | identity => IMAPSession.identity n
  | quota => do
    void <| getQuota
    throw .unset
  | fetchSubscribedFolders => void <| IMAPSession.fetchSubscribedFolders n
  | fetchAllFolders => void <| IMAPSession.fetchAllFolders n
  | folderInfo folder => do
    loginIfNeeded n
    select folder
  | folderStatus folder => do
    loginIfNeeded n
    void <| IMAPSession.folderStatus folder
  | renameFolder folder otherName => IMAPSession.renameFolder caseInsensitive n folder otherName
  | deleteFolder folder => IMAPSession.deleteFolder caseInsensitive n folder
  | createFolder folder => IMAPSession.createFolder caseInsensitive n folder
  | subscribeFolder folder => IMAPSession.subscribeFolder caseInsensitive n folder
  | unsubscribeFolder folder => IMAPSession.unsubscribeFolder caseInsensitive n folder
  | appendMessage folder flags =>
    void <| IMAPSession.appendMessage caseInsensitive n folder flags
  | copyMessages folder uids destFolder =>
    void <| IMAPSession.copyMessages caseInsensitive n folder uids destFolder
  | expunge folder => IMAPSession.expunge caseInsensitive n folder
  | storeFlags folder uids kind flags =>
    IMAPSession.storeFlags caseInsensitive n folder uids kind flags
  | storeLabels folder uids kind labels =>
    IMAPSession.storeLabels caseInsensitive n folder uids kind labels
  | search folder expression =>
    void <| IMAPSession.search caseInsensitive n folder expression
  | fetchMessage folder uid => void <| fetchMessageByUID caseInsensitive n folder uid
  | fetchMessageAttachment folder uid partID =>
    void <| fetchMessageAttachmentByUID caseInsensitive n folder uid partID
  | fetchMessagesByUID folder requestKind uids extraHeaders =>
    void <| fetchMessagesByUIDWithExtraHeaders caseInsensitive n folder requestKind uids
      extraHeaders
  | fetchMessagesByNumber folder requestKind numbers extraHeaders =>
    void <| fetchMessagesByNumberWithExtraHeaders caseInsensitive n folder requestKind numbers
      extraHeaders
  | syncMessagesByUID folder requestKind uids modseq extraHeaders =>
    void <| syncMessagesByUIDWithExtraHeaders caseInsensitive n folder requestKind uids modseq
      extraHeaders
  | idle folder lastKnownUID => do
    selectIfNeeded caseInsensitive n folder
    let s ← get
    if s.mCanIdle then IMAPSession.idle caseInsensitive n folder lastKnownUID

/-- What has been seen of an operation. -/
structure Ran where
  /-- The commands that it has sent. -/
  events : List IMAPEvent
  /-- There is none when it has ended with `ErrorNone`. -/
  stop : Option Stop

/-- An operation on a session, with the answers that come.  Each of the calls that are nested in
one another takes an answer, or is one of few. -/
def run (caseInsensitive : String → String → Bool) (op : IMAPOperation) (replies : List IMAPReply)
    (s : IMAPSession) : IMAPSession × Ran :=
  match main caseInsensitive (3 * replies.length + 9) op ⟨s, replies, []⟩ with
  | .ok _ s' => (s'.toIMAPSession, ⟨s'.events, none⟩)
  | .error stop s' => (s'.toIMAPSession, ⟨s'.events, some stop⟩)

end IMAPOperation

/-- Nothing follows an operation that ends so. -/
def Stop.ends : Stop → Bool
  | .error _ | .unset => false
  | .waiting | .abort | .tooDeep => true

/-- A session whose queue runs operations, until one waits forever or the application ends. -/
def sessionSystem (caseInsensitive : String → String → Bool) :
    System (Option IMAPSession) (IMAPOperation × List IMAPReply) IMAPOperation.Ran where
  next s a :=
    s.map fun s =>
      let (s', ran) := a.1.run caseInsensitive a.2 s
      (if ran.stop.any Stop.ends then none else some s', ran)

end SecMail
