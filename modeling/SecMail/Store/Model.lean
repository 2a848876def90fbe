import SecMail.Context.Table
import SecMail.Text.Components
import Mathlib.Data.List.AList
import Mathlib.Data.List.Sort

/-!
# The message store

`ADZStoreMsgToCoreData` keeps the plain text and the HTML rendered for each message in a Core
Data context (entities `SUMMARY`, `HTML` and `UIDS`) behind a small in-memory cache, and asks
the IMAP session to render what it does not have.  This file translates its data model and its
methods; each method is a function of the store, and a call that starts a rendering operation
returns it in its `Reply`.

* The texts are opaque to the store, which copies them and tests them for `nil`: they are an
  arbitrary type `τ`.
* `nil` is `none`.  Messages to `nil` do nothing, so operations on a missing cache, on a missing
  `UIDS` object and on a missing session are skipped.
* The required attributes of the data model are the fields of the row types; an object with one
  of them missing fails validation, and then `save:` commits nothing.
-/

namespace SecMail

/-- Strings, as lists of characters. -/
abbrev NSString := List Char

/-! ### Messages and sessions -/

/-- The parsed header of a message; it may have no subject. -/
structure MCOMessageHeader where
  /-- The subject line. -/
  subject : Option NSString
  /-- The date, in seconds since 1970. -/
  date : ℤ
  deriving DecidableEq

/-- A message as listed by the server. -/
structure MCOIMAPMessage where
  /-- The uid, unique in one mailbox under one UIDVALIDITY. -/
  uid : UInt32
  /-- The parsed header. -/
  header : MCOMessageHeader
  deriving DecidableEq

/-- A session: the account it is set up for and the UIDVALIDITY of the INBOX it selects. -/
structure MCOIMAPSession where
  /-- The server. -/
  hostname : NSString
  /-- The account name. -/
  username : NSString
  /-- The password. -/
  password : NSString
  /-- The UIDVALIDITY the server reports for INBOX. -/
  uidValidity : UInt32
  deriving DecidableEq

/-- An entry of the offline list: the dictionary built by `searchAllSummaryOfMsg`. -/
structure SummaryDictionary (τ : Type*) where
  /-- Value of `szUid`. -/
  szUid : NSString
  /-- Value of `szSubject`. -/
  szSubject : NSString
  /-- Value of `szPlaintext`. -/
  szPlaintext : τ
  deriving DecidableEq

/-- The untyped `id msg` of a row: a message, or an entry of the offline list. -/
inductive Msg (τ : Type*)
  | imap (imapMsg : MCOIMAPMessage)
  | summary (dictionary : SummaryDictionary τ)
  deriving DecidableEq

/-- `[NSString stringWithFormat:@"%d", imapMsg.uid]`: the unsigned uid is printed as a signed
32-bit integer. -/
def MCOIMAPMessage.szUid (imapMsg : MCOIMAPMessage) : NSString :=
  Text.decimal imapMsg.uid.toBitVec.toInt

/-- The key of a row: printed from the uid, or read from the dictionary. -/
def Msg.szUid {τ : Type*} : Msg τ → NSString
  | .imap imapMsg => imapMsg.szUid
  | .summary dictionary => dictionary.szUid

theorem MCOIMAPMessage.szUid_eq_iff {m m' : MCOIMAPMessage} :
    m.szUid = m'.szUid ↔ m.uid = m'.uid := by
  constructor
  · intro h
    exact UInt32.toBitVec_inj.1 (BitVec.toInt_inj.1 (Text.decimal_injective h))
  · intro h
    simp only [szUid, h]

/-! ### Managed objects -/

variable {τ : Type*}

/-- A `SUMMARY` object. -/
structure ADZMessageSummary (τ : Type*) where
  szUid : NSString
  szSubject : Option NSString
  date : Option ℤ
  szPlaintext : Option τ

/-- A row of entity `SUMMARY`. -/
structure SummaryRow (τ : Type*) where
  szUid : NSString
  szSubject : NSString
  date : ℤ
  szPlaintext : τ

/-- An `HTML` object. -/
structure ADZHtml (τ : Type*) where
  szUid : NSString
  szHtml : Option τ

/-- A row of entity `HTML`. -/
structure HtmlRow (τ : Type*) where
  szUid : NSString
  szHtml : τ

/-- A `UIDS` object. -/
structure ADZAllUids where
  szUids : Option NSString

/-- A row of entity `UIDS`. -/
structure UidsRow where
  szUids : NSString

/-- Entity `SUMMARY`: all four attributes are required. -/
def SUMMARY : Entity (ADZMessageSummary τ) (SummaryRow τ) where
  validate o :=
    match o.szSubject, o.date, o.szPlaintext with
    | some szSubject, some date, some szPlaintext => some ⟨o.szUid, szSubject, date, szPlaintext⟩
    | _, _, _ => none
  load r := ⟨r.szUid, some r.szSubject, some r.date, some r.szPlaintext⟩
  validate_eq_some {o r} := by
    rcases o with ⟨u, _ | s, _ | d, _ | t⟩ <;> cases r <;> simp [eq_comm]

/-- Entity `HTML`. -/
def HTML : Entity (ADZHtml τ) (HtmlRow τ) where
  validate o := o.szHtml.map fun szHtml => ⟨o.szUid, szHtml⟩
  load r := ⟨r.szUid, some r.szHtml⟩
  validate_eq_some {o r} := by rcases o with ⟨u, _ | t⟩ <;> cases r <;> simp [eq_comm]

/-- Entity `UIDS`. -/
def UIDS : Entity ADZAllUids UidsRow where
  validate o := o.szUids.map fun szUids => ⟨szUids⟩
  load r := ⟨some r.szUids⟩
  validate_eq_some {o r} := by rcases o with ⟨_ | s⟩ <;> cases r <;> simp [eq_comm]

theorem SUMMARY_validate_isSome {o : ADZMessageSummary τ} :
    (∃ r, SUMMARY.validate o = some r) ↔
      o.szSubject.isSome = true ∧ o.date.isSome = true ∧ o.szPlaintext.isSome = true := by
  rcases o with ⟨u, _ | s, _ | d, _ | t⟩ <;> simp [SUMMARY]

theorem HTML_validate_isSome {o : ADZHtml τ} :
    (∃ r, HTML.validate o = some r) ↔ o.szHtml.isSome = true := by
  rcases o with ⟨u, _ | t⟩ <;> simp [HTML]

theorem UIDS_validate_isSome {o : ADZAllUids} :
    (∃ r, UIDS.validate o = some r) ↔ o.szUids.isSome = true := by
  rcases o with ⟨_ | s⟩ <;> simp [UIDS]

/-- The managed object context shared by all screens. -/
structure NSManagedObjectContext (τ : Type*) where
  /-- The `SUMMARY` objects. -/
  summaries : Table (ADZMessageSummary τ) (SummaryRow τ)
  /-- The `HTML` objects. -/
  htmls : Table (ADZHtml τ) (HtmlRow τ)
  /-- The `UIDS` objects. -/
  uids : Table ADZAllUids UidsRow

namespace NSManagedObjectContext

/-- The context in front of an empty database. -/
def empty : NSManagedObjectContext τ := ⟨[], [], []⟩

/-- Every object of the context passes validation. -/
def Valid (c : NSManagedObjectContext τ) : Prop :=
  SUMMARY.Valid c.summaries ∧ HTML.Valid c.htmls ∧ UIDS.Valid c.uids

instance (c : NSManagedObjectContext τ) : Decidable c.Valid :=
  inferInstanceAs (Decidable (_ ∧ _ ∧ _))

/-- `[_managedObjectContext save:NULL]`: all or nothing, and the result is not looked at. -/
def save (c : NSManagedObjectContext τ) : NSManagedObjectContext τ :=
  if c.Valid then ⟨SUMMARY.commit c.summaries, HTML.commit c.htmls, UIDS.commit c.uids⟩ else c

/-- The context of the next start of the app: only committed rows are left. -/
def restart (c : NSManagedObjectContext τ) : NSManagedObjectContext τ :=
  ⟨SUMMARY.reload c.summaries, HTML.reload c.htmls, UIDS.reload c.uids⟩

end NSManagedObjectContext

/-- The order in which the fetches of one call list their results. -/
structure FetchOrders where
  summary : FetchOrder
  html : FetchOrder
  uids : FetchOrder

/-- All results in the order of insertion. -/
def FetchOrders.insertion : FetchOrders := ⟨.insertion, .insertion, .insertion⟩

/-! ### The store object -/

/-- An item of the in-memory cache. -/
structure ADZCached (τ : Type*) where
  szPlaintext : Option τ
  szHtml : Option τ

/-- The instance variables of the store. -/
structure ADZStoreMsgToCoreData (τ : Type*) where
  managedObjectContext : NSManagedObjectContext τ
  /-- The cache, `nil` until its getter is called. -/
  _dicCached : Option (AList fun _ : NSString => ADZCached τ)
  /-- The `UIDS` object, `nil` until its getter is called. -/
  _uids : Option ℕ
  imapSession : Option MCOIMAPSession
  /-- The screen that is told about finished HTML, by number. -/
  delegate : Option ℕ

/-- A rendering operation in progress: the message, the session it runs on, and the object its
completion block fills. -/
inductive RenderingOp (τ : Type*)
  | plainTextBody (imapMsg : MCOIMAPMessage) (session : MCOIMAPSession) (summary : ℕ)
  | html (msg : Msg τ) (session : MCOIMAPSession) (html_ : ℕ)
  deriving DecidableEq

/-- The result of a search: the returned text, the store after the call, and the rendering
operation it started. -/
structure Reply (τ : Type*) where
  returned : Option τ
  store : ADZStoreMsgToCoreData τ
  started : Option (RenderingOp τ)

/-- `[szUids rangeOfString:szUid].length > 0` -/
def containsString (szUids : Option NSString) (szUid : NSString) : Bool :=
  szUids.any fun s => decide (szUid ≠ [] ∧ szUid <:+: s)

/-- `[NSString stringWithFormat:@"%@, %@", szUids, szUid]` -/
def appendUid (szUids : Option NSString) (szUid : NSString) : NSString :=
  szUids.getD "(null)".toList ++ ", ".toList ++ szUid

/-- In descending order the date `d` may stand before `d'`; `nil` stands last. -/
def notEarlier : Option ℤ → Option ℤ → Bool
  | _, none => true
  | none, some _ => false
  | some d, some d' => d' ≤ d

theorem notEarlier_total (d d' : Option ℤ) : notEarlier d d' = true ∨ notEarlier d' d = true := by
  rcases d with _ | d <;> rcases d' with _ | d'
  · exact .inl rfl
  · exact .inr rfl
  · exact .inl rfl
  · rcases le_total d d' with h | h
    · exact .inr (decide_eq_true h)
    · exact .inl (decide_eq_true h)

theorem notEarlier_trans {d₁ d₂ d₃ : Option ℤ} (h : notEarlier d₁ d₂ = true)
    (h' : notEarlier d₂ d₃ = true) : notEarlier d₁ d₃ = true := by
  rcases d₃ with _ | d₃
  · rcases d₁ with _ | d₁ <;> rfl
  · rcases d₂ with _ | d₂
    · cases h'
    · rcases d₁ with _ | d₁
      · cases h
      · exact decide_eq_true ((of_decide_eq_true h').trans (of_decide_eq_true h))

namespace ADZStoreMsgToCoreData

/-- A new store on a context. -/
def init (c : NSManagedObjectContext τ) (imapSession : Option MCOIMAPSession) :
    ADZStoreMsgToCoreData τ :=
  ⟨c, none, none, imapSession, none⟩

variable (s : ADZStoreMsgToCoreData τ)

/-- `-uids`: the `UIDS` object, looked up or inserted at the first call. -/
def uids (order : FetchOrders) : ADZStoreMsgToCoreData τ :=
  match s._uids with
  | some _ => s
  | none =>
    match s.managedObjectContext.uids.fetchFirst order.uids fun _ => true with
    | none => { s with
        managedObjectContext := { s.managedObjectContext with
          uids := s.managedObjectContext.uids.insert ⟨none⟩ }
        _uids := some s.managedObjectContext.uids.length }
    | some i => { s with _uids := some i }

/-- `_uids.szUids` -/
def szUids : Option NSString :=
  s._uids.bind fun i => (s.managedObjectContext.uids.object i).bind ADZAllUids.szUids

/-- `-dicCached`: the getter drops all items when there are more than ten. -/
def dicCached : ADZStoreMsgToCoreData τ :=
  match s._dicCached with
  | some d => if d.keys.length > 10 then { s with _dicCached := some ∅ } else s
  | none => { s with _dicCached := some ∅ }

/-- `_dicCached[szUid]` -/
def cached (szUid : NSString) : Option (ADZCached τ) :=
  s._dicCached.bind fun d => d.lookup szUid

/-- `_dicCached[szUid] = item` -/
def setCached (szUid : NSString) (item : ADZCached τ) : ADZStoreMsgToCoreData τ :=
  { s with _dicCached := s._dicCached.map fun d => d.insert szUid item }

/-- `[_dicCached removeObjectForKey:szUid]` -/
def removeCached (szUid : NSString) : ADZStoreMsgToCoreData τ :=
  { s with _dicCached := s._dicCached.map fun d => d.erase szUid }

/-- `[_dicCached[szUid] setValue:szHtml forKey:@"szHtml"]` -/
def setCachedHtml (szUid : NSString) (szHtml : Option τ) : ADZStoreMsgToCoreData τ :=
  match s.cached szUid with
  | some item => s.setCached szUid { item with szHtml }
  | none => s

/-- `insertNewObjectForEntityForName:@"SUMMARY"` and the assignments that follow it. -/
def insertSummary (imapMsg : MCOIMAPMessage) : ADZStoreMsgToCoreData τ :=
  { s with managedObjectContext := { s.managedObjectContext with
      summaries := s.managedObjectContext.summaries.insert
        ⟨imapMsg.szUid, imapMsg.header.subject, some imapMsg.header.date, none⟩ } }

/-- `insertNewObjectForEntityForName:@"HTML"` and the assignment that follows it. -/
def insertHtml (szUid : NSString) : ADZStoreMsgToCoreData τ :=
  { s with managedObjectContext := { s.managedObjectContext with
      htmls := s.managedObjectContext.htmls.insert ⟨szUid, none⟩ } }

/-- `-setPlaintext:summary:` starts the rendering, on the current session. -/
def setPlaintext (imapMsg : MCOIMAPMessage) (summary : ℕ) : Option (RenderingOp τ) :=
  s.imapSession.map fun session => .plainTextBody imapMsg session summary

/-- The assignments of the completion block of `-setPlaintext:summary:`; they are made for a
failed rendering (`nil`) too. -/
def fillPlaintext (summary : ℕ) (szUid : NSString) (plaintextBodyString : Option τ) :
    NSManagedObjectContext τ :=
  { s.managedObjectContext with
    summaries := s.managedObjectContext.summaries.update summary fun o =>
      { o with szPlaintext := plaintextBodyString }
    uids := match s._uids with
      | some i => s.managedObjectContext.uids.update i fun u => ⟨some (appendUid u.szUids szUid)⟩
      | none => s.managedObjectContext.uids }

/-- The completion block of `-setPlaintext:summary:`. -/
def plaintextCompleted (summary : ℕ) (plaintextBodyString : Option τ) : ADZStoreMsgToCoreData τ :=
  match s.managedObjectContext.summaries.object summary with
  | none => s
  | some o =>
    let s := { s with
      managedObjectContext := (s.fillPlaintext summary o.szUid plaintextBodyString).save }
    s.setCached o.szUid ⟨plaintextBodyString, none⟩

/-- `-setHtmlFromServer:html:` starts the rendering, on the current session. -/
def setHtmlFromServer (msg : Msg τ) (html_ : ℕ) : Option (RenderingOp τ) :=
  s.imapSession.map fun session => .html msg session html_

/-- The assignment of the completion block of `-setHtmlFromServer:html:`. -/
def fillHtml (html_ : ℕ) (htmlString : Option τ) : NSManagedObjectContext τ :=
  { s.managedObjectContext with
    htmls := s.managedObjectContext.htmls.update html_ fun o => { o with szHtml := htmlString } }

/-- The completion block of `-setHtmlFromServer:html:`, up to the message to the delegate. -/
def htmlCompleted (html_ : ℕ) (htmlString : Option τ) : ADZStoreMsgToCoreData τ :=
  match s.managedObjectContext.htmls.object html_ with
  | none => s
  | some o =>
    let s := { s with managedObjectContext := (s.fillHtml html_ htmlString).save }
    s.setCachedHtml o.szUid htmlString

/-- `-searchPlaintextOfMsg:` -/
def searchPlaintextOfMsg (order : FetchOrders) : Option MCOIMAPMessage → Reply τ
  | none => ⟨none, s, none⟩
  | some imapMsg =>
    let szUid := imapMsg.szUid
    let s := s.dicCached
    match s.cached szUid with
    | some item =>
      match item.szPlaintext with
      | none => ⟨none, s.removeCached szUid, none⟩
      | some szPlaintext => ⟨some szPlaintext, s, none⟩
    | none =>
      let s := s.uids order
      let c := s.managedObjectContext
      if containsString s.szUids szUid then
        match c.summaries.fetchFirst order.summary fun o => o.szUid == szUid with
        -- the shortened string of `stringByReplacingOccurrencesOfString:withString:` is dropped
        | none => ⟨none, s, none⟩
        | some summary =>
          match (c.summaries.object summary).bind ADZMessageSummary.szPlaintext with
          | none => ⟨none, s, s.setPlaintext imapMsg summary⟩
          | some szPlaintext => ⟨some szPlaintext, s.setCached szUid ⟨some szPlaintext, none⟩, none⟩
      else ⟨none, s.insertSummary imapMsg, s.setPlaintext imapMsg c.summaries.length⟩

/-- `-searchHtmlOfMsg:` -/
def searchHtmlOfMsg (order : FetchOrders) : Option (Msg τ) → Reply τ
  | none => ⟨none, s, none⟩
  | some msg =>
    let szUid := msg.szUid
    let c := s.managedObjectContext
    match (s.cached szUid).bind ADZCached.szHtml with
    | some szHtml => ⟨some szHtml, s, none⟩
    | none =>
      match (c.htmls.fetchFirst order.html fun o => o.szUid == szUid).bind
          fun html => (c.htmls.object html).bind ADZHtml.szHtml with
      | some szHtml => ⟨some szHtml, s.setCachedHtml szUid (some szHtml), none⟩
      | none => ⟨none, s.insertHtml szUid, s.setHtmlFromServer msg c.htmls.length⟩

/-- `-searchAllSummaryOfMsg`: the rows by descending date.  A dictionary literal raises an
exception (`none`) when one of its values is `nil`. -/
def searchAllSummaryOfMsg (order : FetchOrder) : Option (List (SummaryDictionary τ)) :=
  let c := s.managedObjectContext
  let aryFinds := ((order.list (c.summaries.fetch fun _ => true)).filterMap
    c.summaries.object).insertionSort fun o o' => notEarlier o.date o'.date = true
  aryFinds.mapM fun summary =>
    match summary.szSubject, summary.szPlaintext with
    | some szSubject, some szPlaintext => some ⟨summary.szUid, szSubject, szPlaintext⟩
    | _, _ => none

end ADZStoreMsgToCoreData

end SecMail
