import SecMail.Store.Step

/-!
# The inbox controller

`ADZMasterViewController` lists the messages of an account.  Connecting starts an account check;
its success starts a load, and so does a tap on "load more".  A load asks for the message count
(`folderInfoOperation`), computes from it and from the length of the list the range of sequence
numbers to fetch, and puts what the fetch brings in front of the list.

* `NSUInteger` and `NSInteger` have `w` bits; the arithmetic of the ranges is that of `BitVec w`.
* Each operation in progress is kept with its completion block's data, and with the number of the
  connection under which it was started.  Only a cancelled operation never completes.
* Messages to `nil` do nothing: without a session no operation is started.
-/

namespace SecMail

variable {τ : Type*} {w : ℕ}

/-- Foundation's `MIN` on a signed and an unsigned operand, which are compared unsigned. -/
def MIN (a b : BitVec w) : BitVec w := if a < b then a else b

/-- A range of sequence numbers; it includes both `location` and `location + length`. -/
structure MCORange where
  location : ℕ
  length : ℕ
  deriving DecidableEq

/-- `MCORangeMake`, whose `uint64_t` arguments are widened. -/
def MCORangeMake (location length : BitVec w) : MCORange := ⟨location.toNat, length.toNat⟩

/-- The key path `header.date`; a dictionary has no header. -/
def Msg.date : Msg τ → Option ℤ
  | .imap imapMsg => some imapMsg.header.date
  | .summary _ => none

/-- The order of the sort descriptor `header.date`, descending. -/
def Msg.NotEarlier (m m' : Msg τ) : Prop := notEarlier m.date m'.date = true

instance : DecidableRel (Msg.NotEarlier (τ := τ)) := fun m m' =>
  inferInstanceAs (Decidable (notEarlier m.date m'.date = true))

/-- The account a session is set up for. -/
def MCOIMAPSession.SameAccount (σ σ' : MCOIMAPSession) : Prop :=
  σ.username = σ'.username ∧ σ.password = σ'.password ∧ σ.hostname = σ'.hostname

instance (σ σ' : MCOIMAPSession) : Decidable (σ.SameAccount σ') :=
  inferInstanceAs (Decidable (_ ∧ _ ∧ _))

/-- The instance variables of the controller. -/
structure ADZMasterViewController (τ : Type*) (w : ℕ) where
  imapSession : Option MCOIMAPSession
  accoutIsValid : Bool
  isLoading : Bool
  countOfMsgInServer : BitVec w
  aryMsgs : List (Msg τ)
  /-- The fetch operation to cancel, by number. -/
  imapMsgFetchOp : Option ℕ

/-- What an operation asks for, and the data its completion block captured. -/
inductive Request (w : ℕ)
  | checkAccount
  | folderInfo (number : BitVec w)
  | fetchMessages (range : MCORange)
  deriving DecidableEq

/-- An operation in progress. -/
structure Operation (w : ℕ) where
  id : ℕ
  /-- The connection under which it was started. -/
  connection : ℕ
  session : MCOIMAPSession
  request : Request w
  deriving DecidableEq

/-- The controller, its store, and its operations in progress. -/
structure Master (τ : Type*) (w : ℕ) where
  controller : ADZMasterViewController τ w
  storeMsg : Process τ
  operations : List (Operation w)
  /-- The number of calls of `connectToServerWithUsername:password:hostname:` so far. -/
  connection : ℕ
  /-- The number of the next operation. -/
  nextId : ℕ

namespace Master

/-- The controller when its view is loaded, in front of a context. -/
def init (c : NSManagedObjectContext τ) : Master τ w where
  controller := ⟨none, false, false, 0, [], none⟩
  storeMsg := .init c none
  operations := []
  connection := 0
  nextId := 0

variable (m : Master τ w)

/-- `[op start:]` -/
def start (session : MCOIMAPSession) (request : Request w) : Master τ w :=
  { m with
    operations := m.operations ++ [⟨m.nextId, m.connection, session, request⟩]
    nextId := m.nextId + 1 }

/-- `-loadMsg:`, up to the completion of `folderInfoOperation`. -/
def loadMsg (number : BitVec w) : Master τ w :=
  let m := { m with controller.isLoading := true }
  match m.controller.imapSession with
  | some session => m.start session (.folderInfo number)
  | none => m

/-- `-connectToServerWithUsername:password:hostname:`, up to the completion of the check. -/
def connectToServer (session : MCOIMAPSession) : Master τ w :=
  let m := { m with
    controller.imapSession := some session
    storeMsg.store.imapSession := some session
    connection := m.connection + 1 }
  m.start session .checkAccount

/-- `-setAccount:`: cancel the fetch and show the login screen. -/
def setAccount : Master τ w :=
  { m with
    operations := m.operations.filter fun op => some op.id ≠ m.controller.imapMsgFetchOp
    controller.imapMsgFetchOp := none }

/-- `-accountHasFinishSetting:`: reconnect if the credentials have changed. -/
def accountHasFinishSetting (session : MCOIMAPSession) : Master τ w :=
  if m.controller.imapSession.any fun σ => decide (session.SameAccount σ) then m
  else m.connectToServer session

/-- `-tableView:didSelectRowAtIndexPath:` in section 1, "load more". -/
def loadMore : Master τ w :=
  let count := BitVec.ofNat w m.controller.aryMsgs.length
  if m.controller.isLoading = false ∧ count < m.controller.countOfMsgInServer then
    m.loadMsg (count + 10)
  else m

/-- The completion block of `checkAccountOperation`; an exception ends the app (`none`). -/
def checkCompleted (order : FetchOrder) (valid : Bool) : Option (Master τ w) :=
  if valid then some ({ m with controller.accoutIsValid := true }.loadMsg 10)
  else
    (m.storeMsg.store.searchAllSummaryOfMsg order).map fun aryMsgs =>
      { m with
        controller.accoutIsValid := false
        controller.imapSession := none
        controller.aryMsgs := aryMsgs.map Msg.summary }

/-- `[info messageCount]`, an `int`; a message to `nil` returns 0. -/
def messageCount (info : Option (BitVec 32)) : BitVec w := (info.getD 0).signExtend w

/-- `!totalNumberOfMsgDidChange && _aryMsgs.count` -/
def keepsMsgs (messageCount : BitVec w) : Bool :=
  decide (m.controller.countOfMsgInServer = messageCount) && !m.controller.aryMsgs.isEmpty

/-- `fetchRange`: one range for the older page, one for the whole list. -/
def fetchRange (messageCount numberOfMsgToLoad : BitVec w) : MCORange :=
  let count := BitVec.ofNat w m.controller.aryMsgs.length
  if m.keepsMsgs messageCount then
    MCORangeMake (messageCount - numberOfMsgToLoad + 1) (numberOfMsgToLoad - count - 1)
  else MCORangeMake (messageCount - numberOfMsgToLoad + 1) (numberOfMsgToLoad - 1)

/-- The completion block of `folderInfoOperation`. -/
def folderInfoCompleted (number : BitVec w) (info : Option (BitVec 32)) : Master τ w :=
  let messageCount := messageCount info
  let numberOfMsgToLoad := MIN messageCount number
  if numberOfMsgToLoad = 0 then
    { m with controller.countOfMsgInServer := messageCount, controller.isLoading := false }
  else
    let fetchRange := m.fetchRange messageCount numberOfMsgToLoad
    let m := { m with
      controller.countOfMsgInServer := messageCount
      controller.aryMsgs := if m.keepsMsgs messageCount then m.controller.aryMsgs else [] }
    match m.controller.imapSession with
    | some session =>
      { m.start session (.fetchMessages fetchRange) with controller.imapMsgFetchOp := some m.nextId }
    | none => { m with controller.imapMsgFetchOp := none }

/-- The completion block of `fetchMessagesByNumberOperation`; `none` is an error. -/
def fetchCompleted (messages : Option (List MCOIMAPMessage)) : Master τ w :=
  let m := { m with controller.isLoading := false, controller.imapMsgFetchOp := none }
  match messages with
  | none | some [] => m
  | some messages =>
    { m with
      controller.aryMsgs := (messages.map Msg.imap ++ m.controller.aryMsgs).insertionSort
        Msg.NotEarlier }

end Master

/-- What an operation delivers to its completion block. -/
inductive Response
  | checkAccount (order : FetchOrder) (valid : Bool)
  | folderInfo (info : Option (BitVec 32))
  | fetchMessages (messages : Option (List MCOIMAPMessage))

/-- What can happen to the controller. -/
inductive MasterAction (τ : Type*)
  /-- `viewDidLoad` finds credentials. -/
  | connectToServer (session : MCOIMAPSession)
  | setAccount
  | accountHasFinishSetting (session : MCOIMAPSession)
  | loadMore
  /-- The operation with number `id` completes. -/
  | complete (id : ℕ) (response : Response)
  /-- The store does something else. -/
  | store (action : Action τ)

namespace Master

/-- Run the completion block of `request`. -/
def respond (m : Master τ w) : Request w → Response → Option (Master τ w)
  | .checkAccount, .checkAccount order valid => m.checkCompleted order valid
  | .folderInfo number, .folderInfo info => some (m.folderInfoCompleted number info)
  | .fetchMessages _, .fetchMessages messages => some (m.fetchCompleted messages)
  | _, _ => none

/-- Take the operation with number `id` off the operations in progress. -/
def remove (m : Master τ w) (id : ℕ) : Master τ w :=
  { m with operations := m.operations.filter fun op => op.id ≠ id }

/-- The operation with number `id`. -/
def operation (m : Master τ w) (id : ℕ) : Option (Operation w) :=
  m.operations.find? fun op => op.id = id

/-- What an action does; the session of the store is only changed by connecting. -/
def perform (m : Master τ w) : MasterAction τ → Option (Master τ w)
  | .connectToServer session => some (m.connectToServer session)
  | .setAccount => some m.setAccount
  | .accountHasFinishSetting session => some (m.accountHasFinishSetting session)
  | .loadMore => some m.loadMore
  | .complete id response =>
    (m.operation id).bind fun op => (m.remove id).respond op.request response
  | .store (.setImapSession _) => none
  | .store .restart => none
  | .store a => ((storeSystem τ).next m.storeMsg a).map fun r => { m with storeMsg := r.1 }

/-- The action is the completion of an operation of an earlier connection. -/
def stale (m : Master τ w) : MasterAction τ → Bool
  | .complete id _ => (m.operation id).any fun op => decide (op.connection < m.connection)
  | _ => false

end Master

/-- The controller as a transition system, which shows the completions of earlier connections. -/
def masterSystem (τ : Type*) (w : ℕ) : System (Master τ w) (MasterAction τ) Bool where
  next m a := (m.perform a).map fun m' => (m', m.stale a)

end SecMail
