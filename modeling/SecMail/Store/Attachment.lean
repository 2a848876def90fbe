import SecMail.Store.Step

/-!
# The store of attachments

`searchAttachmentOfMsg:fileName:` looks for the bytes of an attachment in entity `ATTACHMENT`,
under the key of its message and its file name, and fetches the part of the message that it does
not find.  This file adds the entity, the method and the fetches to the runs of the store.

* The class of `msg` is tested by `!msg && [msg isKindOfClass:[MCOIMAPMessage class]]`, and `msg` is
  not `nil` there: every message is sent `objectForKey:`, which only a dictionary understands.
* The accessors of a managed object are those of its attributes in the data model.  The class
  `ADZMessageAttachment` declares `szMimeType`, the data model has `szMiniType`: the setter raises
  an exception.
* `szUid`, the first half of the key, is not among the assignments.

An exception that nothing catches terminates the app, which starts again with the committed rows.

* `not_roundTrip` : no attachment of a message can be stored, or fetched, or found;
* `attachments_of_run` : in every run the attachments stay those of the database.
-/

namespace SecMail

variable {τ β : Type*}

/-! ### Messages with attachments -/

/-- The encoding of a part. -/
inductive MCOEncoding
  | sevenBit
  | eightBit
  | binary
  | base64
  | quotedPrintable
  | other
  | uuEncode
  deriving DecidableEq

/-- A part of a message. -/
structure MCOIMAPPart where
  /-- The identifier of the part, such as 1.2.1. -/
  partID : Option NSString
  filename : Option NSString
  mimeType : Option NSString
  encoding : MCOEncoding
  deriving DecidableEq

/-- A message with its attachments. -/
structure AttachedMessage extends MCOIMAPMessage where
  attachments : List MCOIMAPPart
  deriving DecidableEq

/-- The untyped `id msg` of a search for an attachment. -/
inductive AttachedMsg (τ : Type*)
  | imap (imapMsg : AttachedMessage)
  | summary (dictionary : SummaryDictionary τ)

namespace AttachedMsg

/-- `[msg isKindOfClass:[MCOIMAPMessage class]]` -/
def isMCOIMAPMessage : AttachedMsg τ → Bool
  | imap _ => true
  | summary _ => false

/-- `(MCOIMAPMessage *)msg`; what is then sent to a dictionary raises an exception (`none`). -/
def asMessage : AttachedMsg τ → Option AttachedMessage
  | imap imapMsg => some imapMsg
  | summary _ => none

/-- `[msg objectForKey:@"szUid"]`, an exception (`none`) if `msg` is a message. -/
def objectForKey : AttachedMsg τ → Option NSString
  | imap _ => none
  | summary dictionary => some dictionary.szUid

/-- The key of a row: printed from the uid, or read from the dictionary. -/
def szUid : AttachedMsg τ → NSString
  | imap imapMsg => imapMsg.szUid
  | summary dictionary => dictionary.szUid

end AttachedMsg

/-- The key that the method looks for, with its test of the class; `none` is an exception. -/
def searchedKey (msg : Option (AttachedMsg τ)) : Option NSString :=
  if !msg.isSome && msg.any AttachedMsg.isMCOIMAPMessage then
    (msg.bind AttachedMsg.asMessage).map fun imapMsg => imapMsg.szUid
  else msg.bind AttachedMsg.objectForKey

theorem searchedKey_imap (imapMsg : AttachedMessage) :
    searchedKey (some (AttachedMsg.imap (τ := τ) imapMsg)) = none := rfl

theorem searchedKey_summary (dictionary : SummaryDictionary τ) :
    searchedKey (some (.summary dictionary)) = some dictionary.szUid := rfl

/-! ### Managed objects -/

/-- An `ATTACHMENT` object: the attributes of the data model, and whether its relationship is
set. -/
structure ADZMessageAttachment (β : Type*) where
  dataContent : Option β
  szFileName : Option NSString
  szMiniType : Option NSString
  szPartUid : Option NSString
  szUid : Option NSString
  /-- The object is related to a `SUMMARY` object. -/
  summary : Bool

/-- A row of entity `ATTACHMENT`. -/
structure AttachmentRow (β : Type*) where
  dataContent : β
  szFileName : NSString
  szMiniType : NSString
  szPartUid : Option NSString
  szUid : NSString

/-- Entity `ATTACHMENT`: only `szPartUid` is optional. -/
def ATTACHMENT : Entity (ADZMessageAttachment β) (AttachmentRow β) where
  validate o :=
    match o.dataContent, o.szFileName, o.szMiniType, o.szUid, o.summary with
    | some dataContent, some szFileName, some szMiniType, some szUid, true =>
      some ⟨dataContent, szFileName, szMiniType, o.szPartUid, szUid⟩
    | _, _, _, _, _ => none
  load r := ⟨some r.dataContent, some r.szFileName, some r.szMiniType, r.szPartUid, some r.szUid,
    true⟩
  validate_eq_some {o r} := by
    rcases o with ⟨_ | d, _ | f, _ | m, q, _ | u, _ | _⟩ <;> cases r <;> simp [eq_comm]

/-- The string properties that the class `ADZMessageAttachment` declares. -/
inductive AttachmentProperty
  | szUid
  | szFileName
  | szPartUid
  | szMimeType
  deriving DecidableEq

namespace ADZMessageAttachment

/-- `insertNewObjectForEntityForName:@"ATTACHMENT"` -/
def new : ADZMessageAttachment β := ⟨none, none, none, none, none, false⟩

/-- The setters.  They are `@dynamic`: a property that is no attribute of the data model has none,
and the assignment raises an exception (`none`). -/
def set (o : ADZMessageAttachment β) (value : Option NSString) :
    AttachmentProperty → Option (ADZMessageAttachment β)
  | .szUid => some { o with szUid := value }
  | .szFileName => some { o with szFileName := value }
  | .szPartUid => some { o with szPartUid := value }
  | .szMimeType => none

/-- Assignments in sequence, up to an exception. -/
def setAll (o : ADZMessageAttachment β) :
    List (AttachmentProperty × Option NSString) → Option (ADZMessageAttachment β)
  | [] => some o
  | (property, value) :: l => (o.set value property).bind fun o => o.setAll l

variable {o o' : ADZMessageAttachment β} {l : List (AttachmentProperty × Option NSString)}

/-- A sequence of assignments raises an exception exactly if it assigns `szMimeType`. -/
theorem setAll_eq_none : o.setAll l = none ↔ AttachmentProperty.szMimeType ∈ l.map Prod.fst := by
  induction l generalizing o with
  | nil => simp [setAll]
  | cons a l ih =>
    rcases a with ⟨property, value⟩
    cases property <;> simp [setAll, set, ih]

/-- What is not assigned stays as it is. -/
theorem szUid_of_setAll (h : AttachmentProperty.szUid ∉ l.map Prod.fst)
    (ho : o.setAll l = some o') : o'.szUid = o.szUid := by
  induction l generalizing o with
  | nil => cases ho; rfl
  | cons a l ih =>
    rcases a with ⟨property, value⟩
    obtain ⟨o₁, ho₁, ho⟩ := Option.bind_eq_some_iff.1 ho
    rw [List.map_cons, List.mem_cons, not_or] at h
    rw [ih h.2 ho]
    cases property with
    | szUid => exact absurd rfl h.1
    | szFileName => cases ho₁; rfl
    | szPartUid => cases ho₁; rfl
    | szMimeType => cases ho₁

end ADZMessageAttachment

namespace MCOIMAPPart

/-- The assignments to the object inserted for a part. -/
def assignments (part : MCOIMAPPart) : List (AttachmentProperty × Option NSString) :=
  [(.szFileName, part.filename), (.szMimeType, part.mimeType), (.szPartUid, part.partID),
    (.szFileName, part.filename)]

/-- No part gets an object. -/
theorem setAll_assignments (part : MCOIMAPPart) (o : ADZMessageAttachment β) :
    o.setAll part.assignments = none := by
  simp [ADZMessageAttachment.setAll_eq_none, assignments]

/-- Even as far as they are accepted, the assignments leave the object without a key. -/
theorem szUid_of_assignments {part : MCOIMAPPart} {o : ADZMessageAttachment β}
    {l : List (AttachmentProperty × Option NSString)} (hl : l.Sublist part.assignments)
    (ho : ADZMessageAttachment.new.setAll l = some o) : o.szUid = none := by
  refine ADZMessageAttachment.szUid_of_setAll (fun hmem => ?_) ho
  have hmem := (hl.map Prod.fst).subset hmem
  simp [assignments] at hmem

end MCOIMAPPart

/-! ### The method -/

/-- A fetch in progress: what is asked for, the session, and the object that its completion block
fills. -/
structure MCOIMAPFetchContentOperation where
  uid : UInt32
  partID : Option NSString
  encoding : MCOEncoding
  session : MCOIMAPSession
  attachment : ℕ
  deriving DecidableEq

/-- The fetch is for exactly that part of `m`. -/
structure MCOIMAPFetchContentOperation.Fetches (op : MCOIMAPFetchContentOperation)
    (m : AttachedMessage) (part : MCOIMAPPart) : Prop where
  uid : op.uid = m.uid
  partID : op.partID = part.partID
  encoding : op.encoding = part.encoding

/-- The `ATTACHMENT` objects of the context. -/
abbrev Attachments (β : Type*) := Table (ADZMessageAttachment β) (AttachmentRow β)

/-- The result of a search for an attachment: the returned bytes, the objects after the call, the
fetch it started, and the delegate that it told of the bytes. -/
structure AttachmentReply (β : Type*) where
  returned : Option β
  attachments : Attachments β
  started : Option MCOIMAPFetchContentOperation
  told : Option ℕ

namespace Attachments

/-- The objects under the key, in the order of the fetch, filtered by the file name. -/
def found (t : Attachments β) (order : FetchOrder) (szUid name : NSString) : List ℕ :=
  (order.list (t.fetch fun o => o.szUid == some szUid)).filter fun i =>
    (t.object i).any fun o => o.szFileName == some name

/-- The bytes of the first object found. -/
def stored (t : Attachments β) (order : FetchOrder) (szUid name : NSString) : Option β :=
  (t.found order szUid name).head?.bind fun i =>
    (t.object i).bind ADZMessageAttachment.dataContent

/-- Stored bytes are those of an object under the key and the name. -/
theorem exists_object_of_stored {t : Attachments β} {order : FetchOrder} {szUid name : NSString}
    {d : β} (h : t.stored order szUid name = some d) :
    ∃ i o, t.object i = some o ∧ o.szUid = some szUid ∧ o.szFileName = some name ∧
      o.dataContent = some d := by
  obtain ⟨i, hi, hd⟩ := Option.bind_eq_some_iff.1 h
  obtain ⟨o, ho, hd⟩ := Option.bind_eq_some_iff.1 hd
  obtain ⟨hfetch, hname⟩ := List.mem_filter.1 (List.mem_of_head? hi)
  obtain ⟨o', ho', hkey⟩ := Table.mem_fetch.1 ((order.perm _).mem_iff.1 hfetch)
  cases ho.symm.trans ho'
  rw [ho, Option.any_some, beq_iff_eq] at hname
  exact ⟨i, o, ho, beq_iff_eq.1 hkey, hname, hd⟩

end Attachments

namespace ADZStoreMsgToCoreData

variable (s : ADZStoreMsgToCoreData τ)

/-- `-setAttachment:part:attachment:` starts the fetch, on the current session. -/
def setAttachment (imapMsg : AttachedMessage) (part : MCOIMAPPart) (attachment : ℕ) :
    Option MCOIMAPFetchContentOperation :=
  s.imapSession.map fun session =>
    ⟨imapMsg.uid, part.partID, part.encoding, session, attachment⟩

/-- `-searchAttachmentOfMsg:fileName:`; `none` is an exception. -/
def searchAttachmentOfMsg (t : Attachments β) (order : FetchOrder)
    (msg : Option (AttachedMsg τ)) (name : Option NSString) : Option (AttachmentReply β) :=
  match msg, name with
  | some m, some name =>
    (searchedKey msg).bind fun szUid =>
      match t.stored order szUid name with
      | some dataContent => some ⟨some dataContent, t, none, s.delegate⟩
      | none =>
        m.asMessage.bind fun imapMsg =>
          match imapMsg.attachments.find? fun part => part.filename == some name with
          | none => some ⟨none, t, none, none⟩
          | some part =>
            (ADZMessageAttachment.new.setAll part.assignments).map fun attachment =>
              ⟨none, t.insert attachment, s.setAttachment imapMsg part t.length, none⟩
  | _, _ => some ⟨none, t, none, none⟩

variable {s} {t : Attachments β} {order : FetchOrder} {name : NSString}

/-- A search for an attachment of a message raises an exception. -/
theorem searchAttachmentOfMsg_imap (m : AttachedMessage) :
    s.searchAttachmentOfMsg t order (some (.imap m)) (some name) = none := by
  simp only [searchAttachmentOfMsg, searchedKey_imap, Option.bind_none]

/-- A search by an entry of the offline list returns what is stored, or raises an exception. -/
theorem searchAttachmentOfMsg_summary (d : SummaryDictionary τ) :
    s.searchAttachmentOfMsg t order (some (.summary d)) (some name) =
      (t.stored order d.szUid name).map fun dataContent =>
        ⟨some dataContent, t, none, s.delegate⟩ := by
  simp only [searchAttachmentOfMsg, searchedKey_summary, Option.bind_some]
  cases t.stored order d.szUid name <;> rfl

/-- A search that does not raise an exception leaves the objects alone, starts no fetch, and what it
returns is stored under its key and its name. -/
theorem searchAttachmentOfMsg_eq_some {msg : Option (AttachedMsg τ)} {name : Option NSString}
    {r : AttachmentReply β} (h : s.searchAttachmentOfMsg t order msg name = some r) :
    r.attachments = t ∧ r.started = none ∧ ∀ d ∈ r.returned, ∃ m ∈ msg, ∃ f ∈ name, ∃ i o,
      t.object i = some o ∧ o.szUid = some m.szUid ∧ o.szFileName = some f ∧
        o.dataContent = some d := by
  rcases msg with _ | m
  · cases h
    exact ⟨rfl, rfl, by simp⟩
  rcases name with _ | name
  · cases h
    exact ⟨rfl, rfl, by simp⟩
  cases m with
  | imap m =>
    rw [searchAttachmentOfMsg_imap] at h
    cases h
  | summary dictionary =>
    rw [searchAttachmentOfMsg_summary] at h
    obtain ⟨d, hd, rfl⟩ := Option.map_eq_some_iff.1 h
    refine ⟨rfl, rfl, fun d' hd' => ?_⟩
    cases hd'
    exact ⟨_, rfl, name, rfl, Attachments.exists_object_of_stored hd⟩

end ADZStoreMsgToCoreData

/-! ### Runs -/

/-- The store with the attachments and the fetches in progress. -/
structure AttachmentProcess (τ β : Type*) where
  process : Process τ
  attachments : Attachments β
  fetching : List MCOIMAPFetchContentOperation

/-- What can happen to the store and its attachments. -/
inductive AttachmentAction (τ β : Type*)
  | searchAttachmentOfMsg (order : FetchOrder) (msg : Option (AttachedMsg τ))
      (name : Option NSString)
  /-- The `k`-th fetch in progress completes; `none` is an error. -/
  | completeFetch (k : ℕ) (data : Option β)
  /-- The rest of the store does something. -/
  | store (action : Action τ)

/-- What is seen of an action: the answer of a search, or its exception; the fetch that completed;
or what the rest of the store shows.  `told` is the delegate that is sent bytes. -/
inductive AttachmentObservation (τ β : Type*)
  | answered (returned : Option β) (started : Option MCOIMAPFetchContentOperation)
      (told : Option ℕ)
  | raised
  | fetched (op : MCOIMAPFetchContentOperation) (told : Option ℕ)
  | store (observation : Observation τ)

/-- Events of a run of the store with its attachments. -/
abbrev AttachmentEvent (τ β : Type*) := AttachmentAction τ β × AttachmentObservation τ β

namespace AttachmentProcess

/-- A process with nothing in progress, in front of a database with the attachments `rows`. -/
def init (c : NSManagedObjectContext τ) (rows : Attachments β)
    (imapSession : Option MCOIMAPSession) : AttachmentProcess τ β :=
  ⟨.init c imapSession, ATTACHMENT.reload rows, []⟩

variable (p : AttachmentProcess τ β)

/-- The next start of the app. -/
def restart : AttachmentProcess τ β :=
  init p.process.store.managedObjectContext.restart p.attachments none

/-- `-searchAttachmentOfMsg:fileName:` -/
def searchAttachmentOfMsg (order : FetchOrder) (msg : Option (AttachedMsg τ))
    (name : Option NSString) : Option (AttachmentReply β) :=
  p.process.store.searchAttachmentOfMsg p.attachments order msg name

/-- `[_managedObjectContext save:NULL]`, with all its objects. -/
def save : AttachmentProcess τ β :=
  if p.process.store.managedObjectContext.Valid ∧ ATTACHMENT.Valid p.attachments then
    { p with
      process := { p.process with store := { p.process.store with
        managedObjectContext := p.process.store.managedObjectContext.save } }
      attachments := ATTACHMENT.commit p.attachments }
  else p

/-- The completion block of `-setAttachment:part:attachment:`, up to the message to the
delegate. -/
def attachmentCompleted (attachment : ℕ) (data : Option β) : AttachmentProcess τ β :=
  { p with attachments := p.attachments.update attachment fun o => { o with dataContent := data } }
    |>.save

/-- The process after a search. -/
def reply (r : AttachmentReply β) : AttachmentProcess τ β :=
  { p with attachments := r.attachments, fetching := p.fetching ++ r.started.toList }

/-- The process after the rest of the store did `a`: a completion saves the attachments with all
other objects. -/
def after (process : Process τ) : Action τ → AttachmentProcess τ β
  | .complete .. =>
    if process.store.managedObjectContext.Valid then
      { p with process, attachments := ATTACHMENT.commit p.attachments }
    else { p with process }
  | .restart => ⟨process, ATTACHMENT.reload p.attachments, []⟩
  | _ => { p with process }

end AttachmentProcess

/-- The store with its attachments, as a transition system.  A save of the rest of the store would
fail if an attachment were not complete; such a step is left out, and `valid_of_run` says that it
never comes. -/
def attachmentSystem (τ β : Type*) :
    System (AttachmentProcess τ β) (AttachmentAction τ β) (AttachmentObservation τ β) where
  next p
    | .searchAttachmentOfMsg order msg name =>
      match p.searchAttachmentOfMsg order msg name with
      | none => some (p.restart, .raised)
      | some r => some (p.reply r, .answered r.returned r.started r.told)
    | .completeFetch k data =>
      p.fetching[k]?.map fun op =>
        ({ p.attachmentCompleted op.attachment data with fetching := p.fetching.eraseIdx k },
          .fetched op p.process.store.delegate)
    | .store a =>
      if ATTACHMENT.Valid p.attachments then
        ((storeSystem τ).next p.process a).map fun r => (p.after r.1 a, .store r.2)
      else none

namespace AttachmentProcess

variable {p p' : AttachmentProcess τ β} {a : AttachmentAction τ β}
  {o : AttachmentObservation τ β} {rows : Attachments β}

/-- The attachments are those of the database, and none is being fetched. -/
structure AsCommitted (rows : Attachments β) (p : AttachmentProcess τ β) : Prop where
  attachments : p.attachments = ATTACHMENT.reload rows
  fetching : p.fetching = []

theorem asCommitted_init (c : NSManagedObjectContext τ) (σ : Option MCOIMAPSession) :
    (init c rows σ).AsCommitted rows := ⟨rfl, rfl⟩

theorem AsCommitted.restart (h : p.AsCommitted rows) : p.restart.AsCommitted rows :=
  ⟨by rw [AttachmentProcess.restart, init, h.attachments, Entity.reload_reload], rfl⟩

theorem AsCommitted.after (h : p.AsCommitted rows) (process : Process τ) (a : Action τ) :
    (p.after process a).AsCommitted rows := by
  cases a with
  | complete k result =>
    unfold AttachmentProcess.after
    split_ifs
    · exact ⟨by rw [h.attachments, Entity.commit_reload], h.fetching⟩
    · exact ⟨h.attachments, h.fetching⟩
  | restart => exact ⟨by rw [AttachmentProcess.after, h.attachments, Entity.reload_reload], rfl⟩
  | searchPlaintextOfMsg order m => exact ⟨h.attachments, h.fetching⟩
  | searchHtmlOfMsg order msg => exact ⟨h.attachments, h.fetching⟩
  | dicCached => exact ⟨h.attachments, h.fetching⟩
  | setImapSession σ => exact ⟨h.attachments, h.fetching⟩
  | setDelegate d => exact ⟨h.attachments, h.fetching⟩

/-- The steps of a process whose attachments are those of the database. -/
inductive Step (p : AttachmentProcess τ β) :
    AttachmentAction τ β → AttachmentProcess τ β → AttachmentObservation τ β → Prop
  | answered {order : FetchOrder} {msg : Option (AttachedMsg τ)} {name : Option NSString}
      {d : Option β} {told : Option ℕ} :
      Step p (.searchAttachmentOfMsg order msg name) p (.answered d none told)
  | raised {order : FetchOrder} {msg : Option (AttachedMsg τ)} {name : Option NSString} :
      Step p (.searchAttachmentOfMsg order msg name) p.restart .raised
  | store {a : Action τ} {process : Process τ} {o : Observation τ}
      (h : (storeSystem τ).next p.process a = some (process, o)) :
      Step p (.store a) (p.after process a) (.store o)

theorem AsCommitted.step_of_next (h : p.AsCommitted rows)
    (hs : (attachmentSystem τ β).next p a = some (p', o)) : Step p a p' o := by
  cases a with
  | searchAttachmentOfMsg order msg name =>
    simp only [attachmentSystem] at hs
    split at hs
    · cases hs
      exact .raised
    · rename_i r hr
      cases hs
      obtain ⟨hsame, hstarted, -⟩ := ADZStoreMsgToCoreData.searchAttachmentOfMsg_eq_some hr
      have hreply : p.reply r = p := by
        rw [reply, hsame, hstarted, Option.toList_none, List.append_nil]
      rw [hreply, hstarted]
      exact .answered
  | completeFetch k data =>
    obtain ⟨op, hop, -⟩ := Option.map_eq_some_iff.1 hs
    rw [h.fetching] at hop
    cases hop
  | store a =>
    simp only [attachmentSystem] at hs
    split_ifs at hs
    obtain ⟨r, hr, heq⟩ := Option.map_eq_some_iff.1 hs
    cases heq
    exact .store hr

theorem AsCommitted.step (h : p.AsCommitted rows) (hs : Step p a p' o) : p'.AsCommitted rows := by
  cases hs with
  | answered => exact h
  | raised => exact h.restart
  | store => exact h.after _ _

/-- In every run the attachments are those of the database, and none is being fetched. -/
theorem attachments_of_run {C : AttachmentProcess τ β → AttachmentAction τ β → Prop}
    {c : NSManagedObjectContext τ} {σ : Option MCOIMAPSession} {h : List (AttachmentEvent τ β)}
    (hr : (attachmentSystem τ β).RunWhere C (.init c rows σ) h p) : p.AsCommitted rows :=
  hr.invariant_state (asCommitted_init c σ) fun _ _ _ _ h _ hs => h.step (h.step_of_next hs)

/-- No attachment ever stands in the way of a save. -/
theorem valid_of_run {c : NSManagedObjectContext τ} {σ : Option MCOIMAPSession}
    {h : List (AttachmentEvent τ β)} (hr : (attachmentSystem τ β).Run (.init c rows σ) h p) :
    ATTACHMENT.Valid p.attachments := by
  rw [(attachments_of_run hr).attachments]
  exact Entity.valid_reload

/-- Without an attachment in the database, every search raises an exception, forever. -/
theorem raises_of_run {c : NSManagedObjectContext τ} {σ : Option MCOIMAPSession}
    {h : List (AttachmentEvent τ β)} (hr : (attachmentSystem τ β).Run (.init c [] σ) h p)
    (order : FetchOrder) (msg : AttachedMsg τ) (name : NSString) :
    p.searchAttachmentOfMsg order (some msg) (some name) = none := by
  by_contra hsome
  obtain ⟨r, hr'⟩ := Option.ne_none_iff_exists'.1 hsome
  cases msg with
  | imap m =>
    rw [searchAttachmentOfMsg, ADZStoreMsgToCoreData.searchAttachmentOfMsg_imap] at hr'
    cases hr'
  | summary dictionary =>
    rw [searchAttachmentOfMsg, ADZStoreMsgToCoreData.searchAttachmentOfMsg_summary] at hr'
    obtain ⟨d, hd, -⟩ := Option.map_eq_some_iff.1 hr'
    obtain ⟨i, o, ho, -⟩ := Attachments.exists_object_of_stored hd
    rw [(attachments_of_run hr).attachments] at ho
    cases ho

end AttachmentProcess

/-! ### The round trip -/

/-- The reply returns stored bytes, or starts a fetch for exactly the part of that name. -/
def AttachmentReply.Serves (r : AttachmentReply β) (t : Attachments β) (m : AttachedMessage)
    (name : NSString) : Prop :=
  (∃ i o d, t.object i = some o ∧ o.szUid = some m.szUid ∧ o.szFileName = some name ∧
    o.dataContent = some d ∧ r.returned = some d ∧ r.started = none) ∨
  ∃ part ∈ m.attachments, part.filename = some name ∧ ∃ op ∈ r.started, op.Fetches m part

/-- A fetch that a search for the attachment had started has completed with the bytes `d`. -/
def FetchedFor (h : List (AttachmentEvent τ β)) (m : AttachedMessage) (name : NSString) (d : β) :
    Prop :=
  ∃ h₁ h₂ h₃ order r op t told k,
    h = h₁ ++ (.searchAttachmentOfMsg order (some (.imap m)) (some name),
        .answered r (some op) t) ::
      h₂ ++ (.completeFetch k (some d), .fetched op told) :: h₃

/-- What the store of attachments is for, from the state `p` on. -/
structure RoundTrip (p : AttachmentProcess τ β) (m : AttachedMessage) (name : NSString) : Prop where
  /-- Every search is served. -/
  served : ∀ order, ∃ r, p.searchAttachmentOfMsg order (some (.imap m)) (some name) = some r ∧
    r.Serves p.attachments m name
  /-- What has been fetched is returned. -/
  kept : ∀ h p' d, (attachmentSystem τ β).Run p h p' → FetchedFor h m name d → ∀ order, ∃ r,
    p'.searchAttachmentOfMsg order (some (.imap m)) (some name) = some r ∧
      r.returned = some d ∧ r.started = none
  /-- Other messages and other names only return what was stored for them. -/
  apart : ∀ h p' d, (attachmentSystem τ β).Run p h p' → FetchedFor h m name d →
    ∀ order msg' name' r, (msg'.szUid, name') ≠ (m.szUid, name) →
      p'.searchAttachmentOfMsg order (some msg') (some name') = some r → r.returned = some d →
        ∃ i o, p'.attachments.object i = some o ∧ o.szUid = some msg'.szUid ∧
          o.szFileName = some name' ∧ o.dataContent = some d

/-- **No attachment goes through the store**, of any message, from any state. -/
theorem not_roundTrip (p : AttachmentProcess τ β) (m : AttachedMessage) (name : NSString) :
    ¬ RoundTrip p m name := by
  intro htrip
  obtain ⟨r, hr, -⟩ := htrip.served .insertion
  rw [AttachmentProcess.searchAttachmentOfMsg,
    ADZStoreMsgToCoreData.searchAttachmentOfMsg_imap] at hr
  cases hr

/-- One message with one attachment, and nothing stored yet. -/
theorem not_roundTrip_report :
    ¬ ∀ m : AttachedMessage, ∀ part ∈ m.attachments, ∀ name ∈ part.filename,
      RoundTrip (.init (τ := String) (β := ℕ) .empty [] (some (account "first"))) m name := by
  intro hall
  obtain ⟨r, hr, -⟩ := (hall ⟨mail 1, [⟨some "2".toList, some "report".toList, none, .base64⟩]⟩ _
    (List.mem_singleton_self _) _ rfl).served .insertion
  have hraised : AttachmentProcess.searchAttachmentOfMsg
      (.init (τ := String) (β := ℕ) .empty [] (some (account "first"))) .insertion
      (some (.imap ⟨mail 1, [⟨some "2".toList, some "report".toList, none, .base64⟩]⟩))
      (some "report".toList) = none := rfl
  rw [hraised] at hr
  cases hr

end SecMail
