import SecMail.Sql.Connection
import SecMail.Sql.UpdateMail

/-!
# The SQL helper

`SQLHelper` keeps mails in table `mails` of an encrypted SQLite file.  Every operation opens a
connection of its own, works on it and closes it again.  This file translates the helper; its
methods are functions of the handle, of the connections of the process and of the file.

* SQLite is a parameter: an `Engine` gives the result of every call from the text it is given and a
  state `δ`, which stands for the file and for whatever else the result depends on.
* What a process holds of SQLite, and which calls a handle allows, is not left to the engine:
  `SecMail.Sql.Connection` says it.
* A method that raises an exception or crashes is `none`.  Logging is left out.
-/

namespace SecMail

open Sqlite

/-! ### What SQLite answers -/

/-- A column of a result. -/
structure Column where
  name : NSString
  /-- The type of the column in the declaration of its table; other expressions have none. -/
  decltype : Option NSString
  deriving DecidableEq

/-- What comes of stepping a statement until it ends. -/
structure Execution (δ : Type*) where
  /-- The rows that the first steps return. -/
  rows : List (List Value)
  /-- What the step after them returns. -/
  code : ResultCode
  code_ne_row : code ≠ .row
  file : δ
  /-- `sqlite3_last_insert_rowid` -/
  lastInsertRowid : ℤ

/-- A prepared statement. -/
structure Statement (δ : Type*) where
  columns : List Column
  run : δ → Execution δ

/-- What `sqlite3_prepare_v2` makes of a text. -/
inductive PrepareAnswer (δ : Type*)
  | error (rc : ResultCode) (rc_ne_ok : rc ≠ .ok)
  /-- There is no statement in the text. -/
  | empty
  | statement (statement : Statement δ)

/-- SQLite. -/
structure Engine (δ : Type*) where
  opens : δ → OpenAnswer × δ
  keys : NSString → δ → δ
  prepares : List Char → δ → PrepareAnswer δ
  executes : List Char → δ → δ
  /-- A text, a real number or bytes as an `int`. -/
  castInt : Value → BitVec 32
  /-- A real number or bytes as a text, `some none` if it is no UTF-8. -/
  castText : Value → Option (Option NSString)
  /-- A value that is not a real number as a `double`. -/
  castDouble : Value → UInt64

namespace Engine

variable {δ : Type*} (engine : Engine δ)

/-- `sqlite3_column_int` -/
def sqlite3_column_int : Value → BitVec 32
  | .null => 0
  | .integer n => BitVec.ofInt 32 n
  | value => engine.castInt value

/-- `sqlite3_column_text`: `NULL`, or the text up to its first NUL if it is UTF-8. -/
def sqlite3_column_text : Value → Option (Option NSString)
  | .null => none
  | .integer n => some (some (Text.decimal n))
  | .text s => some (some (UTF8String s))
  | value => engine.castText value

/-- `sqlite3_column_double` -/
def sqlite3_column_double : Value → UInt64
  | .real bits => bits
  | value => engine.castDouble value

end Engine

/-! ### Dictionaries -/

/-- The objects in the dictionaries of `querySQL:`. -/
inductive NSObject
  /-- `numberWithInt:` -/
  | number (n : BitVec 32)
  /-- `numberWithDouble:` -/
  | double (bits : UInt64)
  | string (s : NSString)
  deriving DecidableEq

/-- A dictionary. -/
abbrev NSDictionary := AList fun _ : NSString => NSObject

/-- One turn of the inner loop of `querySQL:`.  `strcmp` crashes on a column without a type, and
`setObject:forKey:` raises an exception for `nil`. -/
def Engine.setColumn {δ : Type*} (engine : Engine δ) (column : Column) (value : Value)
    (dict : NSDictionary) : Option NSDictionary :=
  match column.decltype with
  | none => none
  | some type =>
    if type = "integer".toList ∨ type = "boolean".toList then
      some (dict.insert column.name (.number (engine.sqlite3_column_int value)))
    else if type = "text".toList ∨ type = "date".toList then
      match engine.sqlite3_column_text value with
      | none => some dict
      | some none => none
      | some (some s) => some (dict.insert column.name (.string s))
    else if type = "float".toList ∨ type = "double".toList then
      some (dict.insert column.name (.double (engine.sqlite3_column_double value)))
    else some dict

/-- The inner loop of `querySQL:`; a value out of range is `NULL`. -/
def Engine.dictionary {δ : Type*} (engine : Engine δ) (columns : List Column) (row : List Value) :
    Option NSDictionary :=
  columns.zipIdx.foldlM (fun dict c => engine.setColumn c.1 (row.getD c.2 .null) dict) ∅

/-! ### Messages -/

/-- An address. -/
structure MCOAddress where
  displayName : Option NSString
  mailbox : Option NSString
  deriving DecidableEq

/-- The header of a message that is built from the table. -/
structure StoredHeader extends MCOMessageHeader where
  messageID : Option NSString
  sender : MCOAddress
  sentFrom : MCOAddress
  deriving DecidableEq

/-- A message that is built from the table. -/
structure StoredMessage where
  uid : UInt32
  header : StoredHeader
  deriving DecidableEq

/-- A text of a dictionary, `nil` if there is none; `none` if the object is no text. -/
def stringForKey (dict : NSDictionary) (key : NSString) : Option (Option NSString) :=
  match dict.lookup key with
  | none => some none
  | some (.string s) => some (some s)
  | some _ => none

/-- A number of a dictionary, 0 for `nil`; the columns `uid` and `mail_date` never give an object
that is not made by `numberWithInt:`, so what becomes of others is left out (`none`). -/
def intForKey (dict : NSDictionary) (key : NSString) : Option (BitVec 32) :=
  match dict.lookup key with
  | none => some 0
  | some (.number n) => some n
  | some _ => none

/-- `+imapMessageFromDictionary:`.  An `int` is not changed by `longLongValue`, by the conversion to
`NSTimeInterval` or by the one to `time_t`; `integerValue` is cut to 32 bits by the uid. -/
def imapMessageFromDictionary (dict : NSDictionary) : Option StoredMessage := do
  let mail_sender ← stringForKey dict "mail_sender".toList
  let sendermailbox ← stringForKey dict "sendermailbox".toList
  let mail_from ← stringForKey dict "mail_from".toList
  let frommailbox ← stringForKey dict "frommailbox".toList
  let messageid ← stringForKey dict "messageid".toList
  let mail_date ← intForKey dict "mail_date".toList
  let subject ← stringForKey dict "subject".toList
  let uid ← intForKey dict "uid".toList
  return {
    uid := .ofBitVec uid
    header := {
      subject := subject
      date := mail_date.toInt
      messageID := messageid
      sender := ⟨mail_sender, sendermailbox⟩
      sentFrom := ⟨mail_from, frommailbox⟩ } }

/-! ### The helper -/

/-- The helper, with what the process holds of SQLite. -/
structure SQLHelper (δ : Type*) where
  /-- `_sharedSQLHelper` has been created. -/
  shared : Bool
  /-- The handle. -/
  db : Option ℕ
  connections : Connections
  file : δ

/-- The arguments of `-insertMailWithUid:...`, none of them `nil`. -/
structure Mail (w : ℕ) where
  uid : BitVec w
  subject : NSString
  messageid : NSString
  date : BitVec w
  sender : NSString
  senderMailBox : NSString
  sentFrom : NSString
  fromMailBox : NSString
  plaintextbody : NSString
  deriving DecidableEq

/-- The text of `-createTable`. -/
def createTableSql : NSString :=
  ("create table if not exists mails(id integer primary key autoincrement,uid integer," ++
    "subject text,messageid text,mail_date integer,mail_sender text,sendermailbox text, " ++
    "mail_from text,frommailbox text,plaintextbody text);").toList

/-- The text of `-countOfTable:`. -/
def countSql (table : NSString) : NSString := "select count(*) from ".toList ++ table

/-- The text of `-insertMailWithUid:...` up to the values. -/
def insertPrefix : NSString :=
  "insert into 'mails' ('uid',".toList ++ "'subject','messageid',".toList ++
    "'mail_date','mail_sender',".toList ++ "'sendermailbox',".toList ++
    "'mail_from','frommailbox',".toList ++ "'plaintextbody') values (".toList

/-- The text of `-insertMailWithUid:...`. -/
def insertSql {w : ℕ} (mail : Mail w) : NSString :=
  insertPrefix ++ Text.decimal (intArgument mail.uid) ++ ",'".toList ++ mail.subject ++
    "','".toList ++ mail.messageid ++ "',".toList ++ Text.decimal (intArgument mail.date) ++
    ",'".toList ++ mail.sender ++ "','".toList ++ mail.senderMailBox ++ "','".toList ++
    mail.sentFrom ++ "','".toList ++ mail.fromMailBox ++ "','".toList ++ mail.plaintextbody ++
    "')".toList

namespace SQLHelper

variable {δ : Type*} {w : ℕ} (engine : Engine δ) (s : SQLHelper δ)

/-- The process is launched. -/
def launch (file : δ) : SQLHelper δ := ⟨false, none, ⟨[]⟩, file⟩

/-- `-openDatabase` -/
def openDatabase : SQLHelper δ :=
  let opened := engine.opens s.file
  let handle := sqlite3_open opened.1 s.connections
  { s with
    db := handle.1
    connections := handle.2
    file := if opened.1 = .ok then engine.keys "BIGSecret".toList opened.2 else opened.2 }

/-- `-closeDatabase` -/
def closeDatabase : SQLHelper δ :=
  { s with connections := (sqlite3_close s.db s.connections).2 }

/-- `sqlite3_exec` on the handle. -/
def exec (sql : NSString) : SQLHelper δ :=
  if sqlite3SafetyCheckOk s.db s.connections then
    { s with file := engine.executes (UTF8String sql) s.file }
  else s

/-- `-createTable` -/
def createTable : SQLHelper δ := s.exec engine createTableSql

/-- `+sharedSQLHelper`, with `-init` -/
def sharedSQLHelper : SQLHelper δ :=
  if s.shared then s
  else { ((s.openDatabase engine).createTable engine).closeDatabase with shared := true }

/-- A statement prepared by the helper. -/
structure Prepared (δ : Type*) where
  handle : StatementHandle
  statement : Statement δ

/-- `sqlite3_prepare_v2` on the handle: the result, the statement unless it is `NULL`, and the state
after the call. -/
def prepare (sql : NSString) : ResultCode × Option (Prepared δ) × SQLHelper δ :=
  match s.db with
  | none => (.misuse, none, s)
  | some i =>
    if sqlite3SafetyCheckOk (some i) s.connections then
      match engine.prepares (UTF8String sql) s.file with
      | .error rc _ => (rc, none, s)
      | .empty => (.ok, none, s)
      | .statement stmt =>
        let statment := newStatement i s.connections
        (.ok, some ⟨statment.1, stmt⟩, { s with connections := statment.2 })
    else (.misuse, none, s)

/-- What `sqlite3_step` gives, until it returns something else than `SQLITE_ROW`; on `NULL` it is
misuse. -/
def stepped : Option (Prepared δ) → Execution δ
  | none => ⟨[], .misuse, ResultCode.misuse_ne_row, s.file, 0⟩
  | some statment => statment.statement.run s.file

/-- `-countOfTable:` -/
def countOfTable (table : NSString) : SQLHelper δ × BitVec 32 :=
  let s := s.openDatabase engine
  let (rc, statment, s) := s.prepare engine (countSql table)
  let (s, count) :=
    if rc = .ok then
      let outcome := s.stepped statment
      ({ s with file := outcome.file },
        outcome.rows.foldl (fun _ row => engine.sqlite3_column_int (row.getD 0 .null)) 0)
    else (s, 0)
  let s := { s with connections := sqlite3_finalize (statment.map Prepared.handle) s.connections }
  (s.closeDatabase, count)

/-- `-querySQL:` -/
def querySQL (sql : NSString) : Option (SQLHelper δ × List NSDictionary) :=
  let s := s.openDatabase engine
  let (rc, statment, s) := s.prepare engine sql
  if rc = .ok then
    let columns := (statment.map fun p => p.statement.columns).getD []
    let outcome := s.stepped statment
    let s := { s with file := outcome.file }
    (outcome.rows.mapM (engine.dictionary columns)).map fun arr => (s.closeDatabase, arr)
  else some (s.closeDatabase, [])

/-- `-insertSQL:`; one step. -/
def insertSQL (sql : NSString) : SQLHelper δ × BitVec 32 :=
  let s := s.openDatabase engine
  let (rc, statment, s) := s.prepare engine sql
  if rc = .ok then
    let outcome := s.stepped statment
    let s := { s with file := outcome.file }
    let i := if outcome.rows = [] ∧ outcome.code = .done then
      BitVec.ofInt 32 outcome.lastInsertRowid else 0
    (s.closeDatabase, i)
  else (s.closeDatabase, 0)

/-- `-insertMailWithUid:...` -/
def insertMailWithUid (mail : Mail w) : SQLHelper δ × BitVec 32 :=
  s.insertSQL engine (insertSql mail)

/-- `-executeSQL:` -/
def executeSQL (sql : NSString) : SQLHelper δ :=
  ((s.openDatabase engine).exec engine sql).closeDatabase

/-- `-updateMailWithUid:body:` -/
def updateMailWithUid (uid : BitVec w) (plaintextbody : NSString) : SQLHelper δ :=
  s.executeSQL engine (updateSql uid plaintextbody)

/-! ### Opening and preparing -/

/-- The statement that an operation gets for a text, if the connection opens and the text is
prepared. -/
def statementFor (sql : NSString) : Option (Statement δ) :=
  if (engine.opens s.file).1 = .ok then
    match engine.prepares (UTF8String sql) (s.openDatabase engine).file with
    | .statement stmt => some stmt
    | _ => none
  else none

variable {engine : Engine δ} {s : SQLHelper δ}

theorem openDatabase_ok (h : (engine.opens s.file).1 = .ok) :
    (s.openDatabase engine).db = some s.connections.table.length ∧
      (s.openDatabase engine).connections = s.connections.append (some ⟨false, []⟩) := by
  simp [openDatabase, h, sqlite3_open]

/-- A connection that could not be opened is fit for nothing. -/
theorem openDatabase_of_ne (h : (engine.opens s.file).1 ≠ .ok) :
    sqlite3SafetyCheckOk (s.openDatabase engine).db (s.openDatabase engine).connections =
      false := by
  cases hanswer : (engine.opens s.file).1 with
  | ok => exact absurd hanswer h
  | sick => simp [openDatabase, hanswer, sqlite3_open]
  | null => simp [openDatabase, hanswer, sqlite3_open]

theorem prepare_of_none {sql : NSString} (h : s.statementFor engine sql = none) :
    ∃ rc, (s.openDatabase engine).prepare engine sql = (rc, none, s.openDatabase engine) := by
  rw [statementFor] at h
  by_cases hanswer : (engine.opens s.file).1 = .ok
  · obtain ⟨hdb, hconn⟩ := openDatabase_ok hanswer
    rw [if_pos hanswer] at h
    simp only [prepare, hdb, hconn, sqlite3SafetyCheckOk_append, Bool.not_false, if_true]
    split at h
    · cases h
    · split
      · exact ⟨_, rfl⟩
      · exact ⟨_, rfl⟩
      · rename_i hne _ stmt heq
        exact absurd heq (hne stmt)
  · have hunfit := openDatabase_of_ne hanswer
    rw [prepare]
    split
    · exact ⟨_, rfl⟩
    · rename_i i hdb
      rw [if_neg (by rw [← hdb, hunfit]; exact Bool.false_ne_true)]
      exact ⟨_, rfl⟩

theorem opens_of_statementFor {sql : NSString} {stmt : Statement δ}
    (h : s.statementFor engine sql = some stmt) : (engine.opens s.file).1 = .ok := by
  rw [statementFor] at h
  split_ifs at h with hanswer
  exact hanswer

theorem prepare_of_some {sql : NSString} {stmt : Statement δ}
    (h : s.statementFor engine sql = some stmt) :
    (s.openDatabase engine).prepare engine sql =
      let statment := newStatement s.connections.table.length (s.openDatabase engine).connections
      (.ok, some ⟨statment.1, stmt⟩, { s.openDatabase engine with connections := statment.2 }) := by
  have hanswer := opens_of_statementFor h
  obtain ⟨hdb, hconn⟩ := openDatabase_ok hanswer
  rw [statementFor, if_pos hanswer] at h
  split at h
  · rename_i stmt' heq
    cases h
    simp only [prepare, hdb, hconn, sqlite3SafetyCheckOk_append, Bool.not_false, if_true, heq]
  · cases h

/-! ### What comes of an operation -/

@[simp] theorem file_closeDatabase : s.closeDatabase.file = s.file := rfl

/-- A query gives the dictionaries of its rows. -/
theorem querySQL_of_statementFor {sql : NSString} {stmt : Statement δ}
    (h : s.statementFor engine sql = some stmt) :
    (s.querySQL engine sql).map Prod.snd =
      (stmt.run (s.openDatabase engine).file).rows.mapM (engine.dictionary stmt.columns) := by
  simp only [querySQL, prepare_of_some h, if_true, Option.map_map]
  exact Option.map_id'

theorem file_insertSQL {sql : NSString} {stmt : Statement δ}
    (h : s.statementFor engine sql = some stmt) :
    (s.insertSQL engine sql).1.file = (stmt.run (s.openDatabase engine).file).file := by
  simp only [insertSQL, prepare_of_some h, if_true]
  rfl

theorem file_executeSQL (h : (engine.opens s.file).1 = .ok) (sql : NSString) :
    (s.executeSQL engine sql).file =
      engine.executes (UTF8String sql) (s.openDatabase engine).file := by
  obtain ⟨hdb, hconn⟩ := openDatabase_ok h
  simp only [executeSQL, file_closeDatabase, exec, hdb, hconn, sqlite3SafetyCheckOk_append,
    Bool.not_false, if_true]

/-- On a connection that opens, the helper updates the file as `SecMail.updateMailWithUid` does. -/
theorem file_updateMailWithUid {ρ : Type*} {engine : Engine (Database ρ)}
    {s : SQLHelper (Database ρ)} {run : List Token → Database ρ → Database ρ}
    (hrun : engine.executes = sqlite3_exec run) (h : (engine.opens s.file).1 = .ok)
    (uid : BitVec w) (plaintextbody : NSString) :
    (s.updateMailWithUid engine uid plaintextbody).file =
      SecMail.updateMailWithUid run uid plaintextbody (s.openDatabase engine).file := by
  rw [updateMailWithUid, file_executeSQL h, hrun]
  rfl

end SQLHelper

end SecMail
