import SecMail.Sql.Helper

/-!
# Mails that are read back

A mail is written into table `mails` by an `insert` whose text is put together with `%d` and `%@`,
and read back by `select * from mails`, each column by its declared type, into a dictionary from
which a message is built.  What SQLite does with these two statements is assumed (`Documented`).

* `parseInsert_insertSql` : the text reads back as the `insert` it was meant to be;
* `message_of_dictionary` : the message that is built from a row, whatever the row holds;
* `mail_readsBack_iff` : a mail comes back exactly if its date fits an `int`, which is what `%d`
  writes and what the column is read as;
* `not_mail_readsBack` : the first second after.
-/

namespace SecMail

open Sqlite

variable {ρ : Type*} {w : ℕ}

/-! ### Table `mails` -/

/-- The columns, as `createTable` declares them. -/
def mailColumns : List Column :=
  [⟨"id".toList, some "integer".toList⟩, ⟨"uid".toList, some "integer".toList⟩,
    ⟨"subject".toList, some "text".toList⟩, ⟨"messageid".toList, some "text".toList⟩,
    ⟨"mail_date".toList, some "integer".toList⟩, ⟨"mail_sender".toList, some "text".toList⟩,
    ⟨"sendermailbox".toList, some "text".toList⟩, ⟨"mail_from".toList, some "text".toList⟩,
    ⟨"frommailbox".toList, some "text".toList⟩, ⟨"plaintextbody".toList, some "text".toList⟩]

theorem nodup_mailColumns : (mailColumns.map Column.name).Nodup := by decide

/-- The values of a row, in the order of the columns. -/
def MailRow.values (r : MailRow) : List Value :=
  [.integer r.id, r.uid, r.subject, r.messageid, r.mail_date, r.mail_sender, r.sendermailbox,
    r.mail_from, r.frommailbox, r.plaintextbody]

/-! ### The message of a row -/

/-- A fold whose steps fail whatever the state is succeeds exactly if no step fails. -/
theorem exists_foldlM_iff {α β : Type*} {f : β → α → Option β} {P : α → Prop}
    (hf : ∀ b a, (∃ b', f b a = some b') ↔ P a) {l : List α} {b : β} :
    (∃ b', l.foldlM f b = some b') ↔ ∀ a ∈ l, P a := by
  induction l generalizing b with
  | nil => exact ⟨fun _ => List.forall_mem_nil P, fun _ => ⟨b, rfl⟩⟩
  | cons a l ih =>
    rw [List.forall_mem_cons, ← hf b a, List.foldlM_cons]
    constructor
    · rintro ⟨b', h⟩
      obtain ⟨b₁, hb₁, h⟩ := Option.bind_eq_some_iff.1 h
      exact ⟨⟨b₁, hb₁⟩, ih.1 ⟨b', h⟩⟩
    · rintro ⟨⟨b₁, hb₁⟩, hall⟩
      rw [hb₁]
      exact ih.2 hall

namespace Engine

variable {δ : Type*} (engine : Engine δ)

/-- A value as a text, `nil` if it is `NULL`. -/
def text (value : Value) : Option NSString := (engine.sqlite3_column_text value).join

/-- What is entered under the name of a column. -/
def entry (column : Column) (value : Value) : Option NSObject :=
  column.decltype.bind fun type =>
    if type = "integer".toList ∨ type = "boolean".toList then
      some (.number (engine.sqlite3_column_int value))
    else if type = "text".toList ∨ type = "date".toList then
      (engine.text value).map .string
    else if type = "float".toList ∨ type = "double".toList then
      some (.double (engine.sqlite3_column_double value))
    else none

variable {engine} {column : Column} {value : Value} {dict dict' : NSDictionary}

theorem lookup_setColumn (h : engine.setColumn column value dict = some dict')
    (hnone : dict.lookup column.name = none) :
    dict'.lookup column.name = engine.entry column value := by
  obtain ⟨name, _ | type⟩ := column
  · cases h
  simp only [setColumn, entry, Option.bind_some] at h ⊢
  split_ifs at h ⊢
  · cases h
    exact AList.lookup_insert _
  · simp only [text]
    split at h
    · rename_i heq
      cases h
      simpa [heq] using hnone
    · cases h
    · rename_i s heq
      cases h
      simp [heq]
  · cases h
    exact AList.lookup_insert _
  · cases h
    exact hnone

theorem lookup_setColumn_of_ne (h : engine.setColumn column value dict = some dict')
    {key : NSString} (hkey : key ≠ column.name) : dict'.lookup key = dict.lookup key := by
  obtain ⟨name, _ | type⟩ := column
  · cases h
  simp only [setColumn] at h
  split_ifs at h
  · cases h
    exact AList.lookup_insert_ne hkey
  · split at h
    · cases h
      rfl
    · cases h
    · cases h
      exact AList.lookup_insert_ne hkey
  · cases h
    exact AList.lookup_insert_ne hkey
  · cases h
    rfl

/-- A column is set whatever the dictionary has, unless its text is no UTF-8. -/
theorem exists_setColumn_iff : (∃ dict', engine.setColumn column value dict = some dict') ↔
    column.decltype ≠ none ∧
      (column.decltype = some "text".toList ∨ column.decltype = some "date".toList →
        engine.sqlite3_column_text value ≠ some none) := by
  obtain ⟨name, _ | type⟩ := column
  · simp [setColumn]
  simp only [setColumn]
  split_ifs with hinteger htext hfloat
  · obtain rfl | rfl := hinteger <;> simp
  · rcases h : engine.sqlite3_column_text value with _ | _ | s <;> simp_all
  · obtain rfl | rfl := hfloat <;> simp
  · obtain ⟨hne, hne'⟩ := not_or.1 htext
    simp_all

section Fold

variable {row : List Value} {l : List (Column × ℕ)}

/-- The inner loop of `querySQL:`, from a dictionary. -/
private abbrev setColumns (engine : Engine δ) (row : List Value) (l : List (Column × ℕ))
    (dict : NSDictionary) : Option NSDictionary :=
  l.foldlM (fun dict c => engine.setColumn c.1 (row.getD c.2 .null) dict) dict

theorem lookup_setColumns_of_not_mem (h : setColumns engine row l dict = some dict')
    {key : NSString} (hkey : ∀ c ∈ l, key ≠ c.1.name) : dict'.lookup key = dict.lookup key := by
  induction l generalizing dict with
  | nil =>
    cases h
    rfl
  | cons c l ih =>
    obtain ⟨hc, hl⟩ := List.forall_mem_cons.1 hkey
    rw [setColumns, List.foldlM_cons] at h
    obtain ⟨dict₁, hset, hfold⟩ := Option.bind_eq_some_iff.1 h
    rw [ih hfold hl, lookup_setColumn_of_ne hset hc]

/-- Columns of different names do not disturb each other. -/
theorem lookup_setColumns (h : setColumns engine row l dict = some dict')
    (hnodup : (l.map fun c => c.1.name).Nodup) (hnone : ∀ c ∈ l, dict.lookup c.1.name = none)
    {c : Column × ℕ} (hc : c ∈ l) :
    dict'.lookup c.1.name = engine.entry c.1 (row.getD c.2 .null) := by
  induction l generalizing dict with
  | nil => cases hc
  | cons d l ih =>
    rw [setColumns, List.foldlM_cons] at h
    obtain ⟨dict₁, hset, hfold⟩ := Option.bind_eq_some_iff.1 h
    rw [List.map_cons, List.nodup_cons] at hnodup
    have hdiff : ∀ e ∈ l, d.1.name ≠ e.1.name := fun e he heq =>
      hnodup.1 (heq ▸ List.mem_map_of_mem he)
    rcases List.mem_cons.1 hc with heq | hc
    · rw [heq, lookup_setColumns_of_not_mem hfold hdiff]
      exact lookup_setColumn hset (hnone d List.mem_cons_self)
    · refine ih hfold hnodup.2 (fun e he => ?_) hc
      rw [lookup_setColumn_of_ne hset (hdiff e he).symm]
      exact hnone e (List.mem_cons_of_mem _ he)

end Fold

/-- A dictionary has what the columns enter. -/
theorem lookup_dictionary {columns : List Column} {row : List Value}
    (h : engine.dictionary columns row = some dict) (hnodup : (columns.map Column.name).Nodup)
    {i : ℕ} (hi : columns[i]? = some column) :
    dict.lookup column.name = engine.entry column (row.getD i .null) := by
  have hmem : (column, i) ∈ columns.zipIdx := List.mem_zipIdx_iff_getElem?.2 hi
  have hnames := congrArg (List.map Column.name) (List.zipIdx_map_fst 0 columns)
  rw [List.map_map] at hnames
  exact lookup_setColumns h (hnames ▸ hnodup) (fun _ _ => AList.lookup_empty _) hmem

/-! ### Messages -/

variable (engine) in
/-- The message of a row. -/
def message (r : MailRow) : StoredMessage where
  uid := .ofBitVec (engine.sqlite3_column_int r.uid)
  header := {
    subject := engine.text r.subject
    date := (engine.sqlite3_column_int r.mail_date).toInt
    messageID := engine.text r.messageid
    sender := ⟨engine.text r.mail_sender, engine.text r.sendermailbox⟩
    sentFrom := ⟨engine.text r.mail_from, engine.text r.frommailbox⟩ }

section Row

variable {r : MailRow} (h : engine.dictionary mailColumns r.values = some dict)

include h

theorem stringForKey_of_dictionary (i : ℕ) {name : NSString}
    (hi : mailColumns[i]? = some ⟨name, some "text".toList⟩) :
    stringForKey dict name = some (engine.text (r.values.getD i .null)) := by
  have hlookup := lookup_dictionary h nodup_mailColumns hi
  have hentry : engine.entry ⟨name, some "text".toList⟩ (r.values.getD i .null) =
      (engine.text (r.values.getD i .null)).map .string := rfl
  rw [stringForKey, hlookup, hentry]
  cases engine.text (r.values.getD i .null) <;> rfl

theorem intForKey_of_dictionary (i : ℕ) {name : NSString}
    (hi : mailColumns[i]? = some ⟨name, some "integer".toList⟩) :
    intForKey dict name = some (engine.sqlite3_column_int (r.values.getD i .null)) := by
  rw [intForKey, lookup_dictionary h nodup_mailColumns hi]
  rfl

/-- **Every row that can be read gives a message**, whatever its values are. -/
theorem message_of_dictionary : imapMessageFromDictionary dict = some (engine.message r) := by
  rw [imapMessageFromDictionary, stringForKey_of_dictionary h 5 rfl,
    stringForKey_of_dictionary h 6 rfl, stringForKey_of_dictionary h 7 rfl,
    stringForKey_of_dictionary h 8 rfl, stringForKey_of_dictionary h 3 rfl,
    intForKey_of_dictionary h 4 rfl, stringForKey_of_dictionary h 2 rfl,
    intForKey_of_dictionary h 1 rfl]
  rfl

theorem body_of_dictionary :
    dict.lookup "plaintextbody".toList = (engine.text r.plaintextbody).map .string := by
  have hi : mailColumns[9]? = some ⟨"plaintextbody".toList, some "text".toList⟩ := rfl
  exact lookup_dictionary h nodup_mailColumns hi

end Row

end Engine

/-! ### The statements -/

/-- `[helper querySQL:@"select * from mails"]` -/
def selectSql : NSString := "select * from mails".toList

/-- The tokens of `select * from mails`. -/
def selectTokens : List Token :=
  [⟨.word, "select".toList⟩, ⟨.star, "*".toList⟩, ⟨.word, "from".toList⟩, ⟨.word, "mails".toList⟩]

/-- The columns that `-insertMailWithUid:...` names. -/
def insertColumns : List Literal :=
  [.text "uid".toList, .text "subject".toList, .text "messageid".toList, .text "mail_date".toList,
    .text "mail_sender".toList, .text "sendermailbox".toList, .text "mail_from".toList,
    .text "frommailbox".toList, .text "plaintextbody".toList]

namespace Mail

/-- The texts of a mail. -/
def texts (mail : Mail w) : List NSString :=
  [mail.subject, mail.messageid, mail.sender, mail.senderMailBox, mail.sentFrom, mail.fromMailBox,
    mail.plaintextbody]

/-- No text has an apostrophe or a NUL. -/
def Plain (mail : Mail w) : Prop := ∀ t ∈ mail.texts, '\'' ∉ t ∧ '\x00' ∉ t

instance (mail : Mail w) : Decidable mail.Plain :=
  inferInstanceAs (Decidable (∀ t ∈ mail.texts, '\'' ∉ t ∧ '\x00' ∉ t))

/-- The values that `-insertMailWithUid:...` writes. -/
def values (mail : Mail w) : List Literal :=
  [.integer (intArgument mail.uid), .text mail.subject, .text mail.messageid,
    .integer (intArgument mail.date), .text mail.sender, .text mail.senderMailBox,
    .text mail.sentFrom, .text mail.fromMailBox, .text mail.plaintextbody]

/-- The statement that `-insertMailWithUid:...` writes. -/
def insert (mail : Mail w) : Insert := ⟨"mails".toList, insertColumns, mail.values⟩

variable {mail : Mail w}

theorem plain_values (h : mail.Plain) : ∀ l ∈ mail.values, l.Plain := by
  simp only [Plain, texts, List.forall_mem_cons] at h
  simp [values, Literal.Plain, h]

theorem plain_insert (h : mail.Plain) : mail.insert.Plain where
  table := by
    change (Literal.text "mails".toList).Plain
    decide
  columns_ne_nil := List.cons_ne_nil _ _
  columns := by
    change ∀ l ∈ insertColumns, l.Plain
    decide
  values_ne_nil := List.cons_ne_nil _ _
  values := plain_values h

theorem insertPrefix_eq : insertPrefix =
    "insert into ".toList ++ ('\'' :: ("mails".toList ++ ['\''])) ++ " (".toList ++
      listSql insertColumns ++ ") values (".toList := by
  decide +kernel

theorem insertSql_eq_append (mail : Mail w) :
    insertSql mail = insertPrefix ++ listSql mail.values ++ [')'] := by
  -- the separators, character by character
  have hchars : insertSql mail = insertPrefix ++ Text.decimal (intArgument mail.uid) ++
      [',', '\''] ++ mail.subject ++ ['\'', ',', '\''] ++ mail.messageid ++ ['\'', ','] ++
      Text.decimal (intArgument mail.date) ++ [',', '\''] ++ mail.sender ++ ['\'', ',', '\''] ++
      mail.senderMailBox ++ ['\'', ',', '\''] ++ mail.sentFrom ++ ['\'', ',', '\''] ++
      mail.fromMailBox ++ ['\'', ',', '\''] ++ mail.plaintextbody ++ ['\'', ')'] := rfl
  rw [hchars]
  simp only [values, listSql, Literal.sql, List.append_assoc, List.cons_append, List.nil_append]

theorem insertSql_eq (mail : Mail w) : insertSql mail = mail.insert.sql := by
  have hinsert : mail.insert = ⟨"mails".toList, insertColumns, mail.values⟩ := rfl
  rw [insertSql_eq_append, insertPrefix_eq, hinsert, Insert.sql_mk]

/-- A text without NUL reaches SQLite as it is. -/
theorem UTF8String_insertSql (h : mail.Plain) : UTF8String (insertSql mail) = insertSql mail := by
  have hvalues : ∀ l ∈ mail.values, '\x00' ∉ l.sql := by
    have hdecimal (n : ℤ) : '\x00' ∉ (Literal.integer n).sql :=
      Text.not_mem_decimal (by decide) (by decide)
    have htext {s : NSString} (hs : '\x00' ∉ s) : '\x00' ∉ (Literal.text s).sql := by
      simp [Literal.sql, hs]
    simp only [Plain, texts, List.forall_mem_cons] at h
    simp [values, hdecimal, htext, h]
  refine UTF8String_of_not_mem ?_
  rw [insertSql_eq_append, List.mem_append, List.mem_append, not_or, not_or]
  exact ⟨⟨by decide, not_mem_listSql (by decide) hvalues⟩, by decide⟩

/-- **The text is the statement it was meant to be.** -/
theorem parseInsert_insertSql (h : mail.Plain) :
    parseInsert (parserTokens (UTF8String (insertSql mail))) = some mail.insert := by
  rw [UTF8String_insertSql h, insertSql_eq]
  exact parseInsert_sql (plain_insert h)

end Mail

theorem parserTokens_selectSql : parserTokens (UTF8String selectSql) = selectTokens := by
  decide +kernel

/-! ### What SQLite does with them -/

/-- What there is beside table `mails`: its entry in table `sqlite_sequence`, the largest id that
has been given, and the rest. -/
structure Others (ρ : Type*) where
  sqlite_sequence : ℤ
  others : ρ

/-- The largest id. -/
def maxRowid : ℤ := 2 ^ 63 - 1

/-- `OP_NewRowid`: the id of the next row of a table with an `autoincrement` key, `none` if the
largest id has been given. -/
def newRowid (db : Database (Others ρ)) : Option ℤ :=
  let last := (db.mails.map MailRow.id).max?
  if last = some maxRowid ∨ db.others.sqlite_sequence = maxRowid then none
  else some (max ((last.map (· + 1)).getD 1) (db.others.sqlite_sequence + 1))

/-- Add a row under the next id. -/
def Database.insertRow (db : Database (Others ρ)) (row : ℤ → MailRow) : Database (Others ρ) :=
  match newRowid db with
  | none => db
  | some id =>
    { mails := db.mails ++ [row id]
      others := { db.others with sqlite_sequence := id } }

/-- The row of an `insert` into the columns of `insertColumns`, for an id.  Literals of the type of
their column are stored as they are. -/
def rowOfInsert (i : Insert) : Option (ℤ → MailRow) :=
  if i.table = "mails".toList ∧ i.columns = insertColumns then
    match i.values with
    | [.integer uid, .text subject, .text messageid, .integer mail_date, .text mail_sender,
        .text sendermailbox, .text mail_from, .text frommailbox, .text plaintextbody] =>
      if FitsColumn uid ∧ FitsColumn mail_date then
        some fun id => ⟨id, .integer uid, .text subject, .text messageid, .integer mail_date,
          .text mail_sender, .text sendermailbox, .text mail_from, .text frommailbox,
          .text plaintextbody⟩
      else none
    | _ => none
  else none

/-- SQLite works, and runs the two statements as documented; a query without `order by` gives its
rows in any order. -/
structure Documented (engine : Engine (Database (Others ρ))) : Prop where
  opens : ∀ db, engine.opens db = (.ok, db)
  keys : ∀ db, engine.keys "BIGSecret".toList db = db
  select : ∀ sql db, parserTokens sql = selectTokens →
    ∃ stmt, engine.prepares sql db = .statement stmt ∧ stmt.columns = mailColumns ∧
      (stmt.run db).rows.Perm (db.mails.map MailRow.values)
  insert : ∀ sql db i row, parseInsert (parserTokens sql) = some i → rowOfInsert i = some row →
    ∃ stmt, engine.prepares sql db = .statement stmt ∧ (stmt.run db).file = db.insertRow row

/-- The row of a mail. -/
def Mail.row (mail : Mail w) (id : ℤ) : MailRow :=
  ⟨id, .integer (intArgument mail.uid), .text mail.subject, .text mail.messageid,
    .integer (intArgument mail.date), .text mail.sender, .text mail.senderMailBox,
    .text mail.sentFrom, .text mail.fromMailBox, .text mail.plaintextbody⟩

theorem rowOfInsert_insert (mail : Mail w) : rowOfInsert mail.insert = some mail.row := by
  have hfits := And.intro (fitsColumn_intArgument mail.uid) (fitsColumn_intArgument mail.date)
  have htable : mail.insert.table = "mails".toList ∧ mail.insert.columns = insertColumns :=
    ⟨rfl, rfl⟩
  have hvalues : mail.insert.values = mail.values := rfl
  rw [rowOfInsert, if_pos htable, hvalues, Mail.values]
  simp only [if_pos hfits]
  rfl

namespace Documented

variable {engine : Engine (Database (Others ρ))} (hengine : Documented engine)
  (s : SQLHelper (Database (Others ρ)))

include hengine

theorem file_openDatabase : (s.openDatabase engine).file = s.file := by
  simp only [SQLHelper.openDatabase, hengine.opens, if_true, hengine.keys]

theorem statementFor_eq {sql : NSString} {stmt : Statement (Database (Others ρ))}
    (h : engine.prepares (UTF8String sql) s.file = .statement stmt) :
    s.statementFor engine sql = some stmt := by
  rw [SQLHelper.statementFor, if_pos (congrArg Prod.fst (hengine.opens s.file)),
    hengine.file_openDatabase s, h]

/-- The query reads the table. -/
theorem querySQL_selectSql :
    ∃ rows : List (List Value), rows.Perm (s.file.mails.map MailRow.values) ∧
      (s.querySQL engine selectSql).map Prod.snd =
        rows.mapM (engine.dictionary mailColumns) := by
  obtain ⟨stmt, hprep, hcolumns, hrows⟩ := hengine.select _ s.file parserTokens_selectSql
  have hstmt := hengine.statementFor_eq s hprep
  refine ⟨(stmt.run s.file).rows, hrows, ?_⟩
  rw [SQLHelper.querySQL_of_statementFor hstmt, hengine.file_openDatabase s, hcolumns]

/-- The insertion adds the row of the mail. -/
theorem file_insertMailWithUid {mail : Mail w} (hmail : mail.Plain) :
    (s.insertMailWithUid engine mail).1.file = s.file.insertRow mail.row := by
  obtain ⟨stmt, hprep, hfile⟩ := hengine.insert _ s.file mail.insert mail.row
    (Mail.parseInsert_insertSql hmail) (rowOfInsert_insert mail)
  have hstmt := hengine.statementFor_eq s hprep
  rw [SQLHelper.insertMailWithUid, SQLHelper.file_insertSQL hstmt, hengine.file_openDatabase s,
    hfile]

end Documented

/-! ### Reading back -/

/-- The dictionary gives the mail back. -/
structure Mail.ReadsBackAs (mail : Mail 64) (dict : NSDictionary) (message : StoredMessage) :
    Prop where
  built : imapMessageFromDictionary dict = some message
  uid : message.uid.toNat = mail.uid.toNat
  date : message.header.date = mail.date.toInt
  subject : message.header.subject = some mail.subject
  messageID : message.header.messageID = some mail.messageid
  sender : message.header.sender = ⟨some mail.sender, some mail.senderMailBox⟩
  sentFrom : message.header.sentFrom = ⟨some mail.sentFrom, some mail.fromMailBox⟩
  plaintextbody : dict.lookup "plaintextbody".toList = some (.string mail.plaintextbody)

/-- After the insertion the query returns what it returned before, and one more dictionary, which
gives the mail back. -/
def ReadsBack (engine : Engine (Database (Others ρ))) (s : SQLHelper (Database (Others ρ)))
    (mail : Mail 64) : Prop :=
  ∃ arr arr' dict message,
    (s.querySQL engine selectSql).map Prod.snd = some arr ∧
      ((s.insertMailWithUid engine mail).1.querySQL engine selectSql).map Prod.snd = some arr' ∧
      arr'.Perm (arr ++ [dict]) ∧ mail.ReadsBackAs dict message

/-- The query can read a row: no text column holds bytes that are no UTF-8. -/
def Readable (engine : Engine (Database (Others ρ))) (r : MailRow) : Prop :=
  ∀ value ∈ [r.subject, r.messageid, r.mail_sender, r.sendermailbox, r.mail_from, r.frommailbox,
    r.plaintextbody], engine.sqlite3_column_text value ≠ some none

/-- These are the rows that the inner loop of `querySQL:` gets through. -/
theorem readable_iff_dictionary {engine : Engine (Database (Others ρ))} {r : MailRow} :
    Readable engine r ↔ ∃ dict, engine.dictionary mailColumns r.values = some dict := by
  have hstep (dict : NSDictionary) (c : Column × ℕ) :
      (∃ dict', engine.setColumn c.1 (r.values.getD c.2 .null) dict = some dict') ↔ _ :=
    Engine.exists_setColumn_iff
  rw [Engine.dictionary, exists_foldlM_iff hstep]
  simp [Readable, mailColumns, MailRow.values]

/-- The dates that fit an `int`. -/
def Mail.DateFits (mail : Mail 64) : Prop := -2 ^ 31 ≤ mail.date.toInt ∧ mail.date.toInt < 2 ^ 31

instance (mail : Mail 64) : Decidable mail.DateFits := inferInstanceAs (Decidable (_ ∧ _))

/-- What `%d` prints is the number exactly if it fits an `int`. -/
theorem intArgument_eq_toInt_iff {n : BitVec 64} :
    intArgument n = n.toInt ↔ -2 ^ 31 ≤ n.toInt ∧ n.toInt < 2 ^ 31 := by
  have hlt := n.isLt
  rw [intArgument, BitVec.toInt_eq_toNat_bmod (n.setWidth 32), BitVec.toNat_setWidth,
    BitVec.toInt_eq_toNat_bmod]
  simp only [Int.bmod_def]
  omega

/-- What `%d` prints is read back. -/
theorem ofInt_intArgument (n : BitVec 64) : BitVec.ofInt 32 (intArgument n) = n.setWidth 32 :=
  BitVec.ofInt_toInt

section

variable {engine : Engine (Database (Others ρ))} {mail : Mail 64} {id : ℤ}

theorem text_of_plain (engine : Engine (Database (Others ρ))) {t : NSString} (h : '\x00' ∉ t) :
    engine.text (.text t) = some t := by
  change some (UTF8String t) = some t
  rw [UTF8String_of_not_mem h]

/-- The message of the row of a mail is the mail, up to the date. -/
theorem message_row (hmail : mail.Plain) : engine.message (mail.row id) =
    { uid := .ofBitVec (mail.uid.setWidth 32)
      header := {
        subject := some mail.subject
        date := intArgument mail.date
        messageID := some mail.messageid
        sender := ⟨some mail.sender, some mail.senderMailBox⟩
        sentFrom := ⟨some mail.sentFrom, some mail.fromMailBox⟩ } } := by
  simp only [Mail.Plain, Mail.texts, List.forall_mem_cons] at hmail
  simp only [Engine.message, Mail.row, text_of_plain engine, hmail, not_false_eq_true,
    Engine.sqlite3_column_int, ofInt_intArgument]
  rfl

/-- The row of a mail can be read. -/
theorem readable_row (engine : Engine (Database (Others ρ))) (mail : Mail 64) (id : ℤ) :
    ∃ dict, engine.dictionary mailColumns (mail.row id).values = some dict := ⟨_, rfl⟩

theorem readsBackAs_row (hmail : mail.Plain) (huid : mail.uid.toNat < 2 ^ 32)
    (hdate : mail.DateFits) {dict : NSDictionary}
    (hdict : engine.dictionary mailColumns (mail.row id).values = some dict) :
    mail.ReadsBackAs dict (engine.message (mail.row id)) := by
  have hbody : '\x00' ∉ mail.plaintextbody := (hmail mail.plaintextbody (by simp [Mail.texts])).2
  have huid' : (mail.uid.setWidth 32).toNat = mail.uid.toNat := by
    rw [BitVec.toNat_setWidth, Nat.mod_eq_of_lt huid]
  rw [message_row hmail]
  refine ⟨?_, huid', intArgument_eq_toInt_iff.2 hdate, rfl, rfl, rfl, rfl, ?_⟩
  · rw [Engine.message_of_dictionary hdict, message_row hmail]
  · rw [Engine.body_of_dictionary hdict]
    exact congrArg (Option.map NSObject.string) (text_of_plain engine hbody)

theorem dateFits_of_readsBackAs (hmail : mail.Plain) {dict : NSDictionary} {message : StoredMessage}
    (hdict : engine.dictionary mailColumns (mail.row id).values = some dict)
    (h : mail.ReadsBackAs dict message) : mail.DateFits := by
  have hbuilt := h.built
  rw [Engine.message_of_dictionary hdict, message_row hmail] at hbuilt
  cases hbuilt
  exact intArgument_eq_toInt_iff.1 h.date

end

namespace Documented

variable {engine : Engine (Database (Others ρ))} (hengine : Documented engine)
  (s : SQLHelper (Database (Others ρ)))

include hengine

/-- What the query returns, up to the order. -/
theorem querySQL_perm_iff {l : List NSDictionary} :
    (∃ arr, (s.querySQL engine selectSql).map Prod.snd = some arr ∧ arr.Perm l) ↔
      ∃ arr, (s.file.mails.map MailRow.values).mapM (engine.dictionary mailColumns) = some arr ∧
        arr.Perm l := by
  obtain ⟨rows, hperm, hquery⟩ := hengine.querySQL_selectSql s
  rw [hquery]
  constructor
  · rintro ⟨arr, hmap, harr⟩
    obtain ⟨arr', hmap', harr'⟩ := exists_mapM_of_perm hperm.symm hmap
    exact ⟨arr', hmap', harr'.trans harr⟩
  · rintro ⟨arr, hmap, harr⟩
    obtain ⟨arr', hmap', harr'⟩ := exists_mapM_of_perm hperm hmap
    exact ⟨arr', hmap', harr'.trans harr⟩

end Documented

/-- The table can be read exactly if every row of it can. -/
theorem readable_iff {engine : Engine (Database (Others ρ))} {mails : List MailRow} :
    (∀ r ∈ mails, Readable engine r) ↔ ∃ arr,
      (mails.map MailRow.values).mapM (engine.dictionary mailColumns) = some arr := by
  rw [exists_mapM_iff, List.forall_mem_map]
  exact forall₂_congr fun _ _ => readable_iff_dictionary

section

variable {engine : Engine (Database (Others ρ))} (hengine : Documented engine)
  {s : SQLHelper (Database (Others ρ))} {mail : Mail 64} (hmail : mail.Plain)

include hengine hmail

theorem conditions_of_readsBack (h : ReadsBack engine s mail) :
    mail.DateFits ∧ (∀ r ∈ s.file.mails, Readable engine r) ∧ (newRowid s.file).isSome = true := by
  obtain ⟨arr, arr', dict, message, hbefore, hafter, hperm, hread⟩ := h
  obtain ⟨l, hl, hperm₁⟩ := (hengine.querySQL_perm_iff s).1 ⟨arr, hbefore, .refl _⟩
  obtain ⟨l', hl', hperm₂⟩ := (hengine.querySQL_perm_iff _).1 ⟨arr', hafter, .refl _⟩
  have hall : l'.Perm (l ++ [dict]) := hperm₂.trans (hperm.trans (hperm₁.symm.append_right _))
  rw [hengine.file_insertMailWithUid s hmail, Database.insertRow] at hl'
  cases hid : newRowid s.file with
  | none =>
    -- nothing has been inserted, and there is no dictionary more
    rw [hid] at hl'
    rw [Option.some.inj (hl'.symm.trans hl)] at hall
    have hlength := hall.length_eq
    simp at hlength
  | some id =>
    -- the dictionary that is more is the one of the row that has been inserted
    rw [hid] at hl'
    simp only [List.map_append, List.map_singleton] at hl'
    obtain ⟨l₀, d, hl₀, hd, rfl⟩ := mapM_append_singleton_iff.1 hl'
    obtain rfl := Option.some.inj (hl₀.symm.trans hl)
    obtain rfl := List.singleton_perm_singleton.1 ((List.perm_append_left_iff l₀).1 hall)
    exact ⟨dateFits_of_readsBackAs hmail hd hread, readable_iff.2 ⟨l₀, hl⟩, rfl⟩

theorem readsBack_of_conditions (huid : mail.uid.toNat < 2 ^ 32) (hdate : mail.DateFits)
    (htable : ∀ r ∈ s.file.mails, Readable engine r) (hid : (newRowid s.file).isSome = true) :
    ReadsBack engine s mail := by
  obtain ⟨id, hid⟩ := Option.isSome_iff_exists.1 hid
  obtain ⟨l, hl⟩ := readable_iff.1 htable
  obtain ⟨dict, hdict⟩ := readable_row engine mail id
  have hl' : ((s.insertMailWithUid engine mail).1.file.mails.map MailRow.values).mapM
      (engine.dictionary mailColumns) = some (l ++ [dict]) := by
    rw [hengine.file_insertMailWithUid s hmail, Database.insertRow, hid]
    simp only [List.map_append, List.map_singleton]
    exact mapM_append_singleton_iff.2 ⟨l, dict, hl, hdict, rfl⟩
  obtain ⟨arr, harr, hperm⟩ := (hengine.querySQL_perm_iff s).2 ⟨l, hl, .refl _⟩
  obtain ⟨arr', harr', hperm'⟩ := (hengine.querySQL_perm_iff _).2 ⟨l ++ [dict], hl', .refl _⟩
  exact ⟨arr, arr', dict, engine.message (mail.row id), harr, harr',
    hperm'.trans (hperm.symm.append_right _), readsBackAs_row hmail huid hdate hdict⟩

end

/-- **Mails come back as they were written** exactly if their date fits an `int`, as long as the
table can be read and has an id to give. -/
theorem mail_readsBack_iff {engine : Engine (Database (Others ρ))} (hengine : Documented engine)
    (s : SQLHelper (Database (Others ρ))) {mail : Mail 64} (huid : mail.uid.toNat < 2 ^ 32)
    (hmail : mail.Plain) :
    ReadsBack engine s mail ↔
      mail.DateFits ∧ (∀ r ∈ s.file.mails, Readable engine r) ∧
        (newRowid s.file).isSome = true := by
  constructor
  · exact conditions_of_readsBack hengine hmail
  · rintro ⟨hdate, htable, hid⟩
    exact readsBack_of_conditions hengine hmail huid hdate htable hid

/-- The insertion of a row, or its failure for want of an id. -/
def insertStatement (row : ℤ → MailRow) : Statement (Database (Others ρ)) where
  columns := []
  run db :=
    match newRowid db with
    | none => ⟨[], .full, ResultCode.full_ne_row, db, 0⟩
    | some id => ⟨[], .done, ResultCode.done_ne_row, db.insertRow row, id⟩

theorem file_insertStatement (row : ℤ → MailRow) (db : Database (Others ρ)) :
    ((insertStatement row).run db).file = db.insertRow row := by
  cases hid : newRowid db with
  | none => simp [insertStatement, Database.insertRow, hid]
  | some id => simp [insertStatement, hid]

/-- An SQLite that knows the two statements, and updates of bodies. -/
def mailsEngine : Engine (Database (Others Unit)) where
  opens db := (.ok, db)
  keys _ db := db
  prepares sql _ :=
    if parserTokens sql = selectTokens then
      .statement ⟨mailColumns, fun db =>
        ⟨db.mails.map MailRow.values, .done, ResultCode.done_ne_row, db, 0⟩⟩
    else
      match (parseInsert (parserTokens sql)).bind rowOfInsert with
      | none => .error (.error 1) (ResultCode.error_ne_ok 1)
      | some row => .statement (insertStatement row)
  executes := sqlite3_exec runUpdates
  castInt _ := 0
  castText _ := none
  castDouble _ := 0

theorem documented_mailsEngine : Documented mailsEngine where
  opens _ := rfl
  keys _ := rfl
  select sql db h := ⟨_, if_pos h, rfl, .refl _⟩
  insert sql db i row hparse hrow := by
    have hne : parserTokens sql ≠ selectTokens := by
      intro heq
      rw [heq] at hparse
      cases hparse
    refine ⟨insertStatement row, ?_, file_insertStatement row db⟩
    simp only [mailsEngine, if_neg hne, hparse, Option.bind_some, hrow]

/-- A mail with texts that look like SQL. -/
def mailOf (uid date : BitVec 64) : Mail 64 where
  uid := uid
  subject := "hello".toList
  messageid := "1@first".toList
  date := date
  sender := "First".toList
  senderMailBox := "first@imap.example".toList
  sentFrom := "First".toList
  fromMailBox := "first@imap.example".toList
  plaintextbody := "(hello; --".toList

/-- The helper on an empty table. -/
def emptyHelper : SQLHelper (Database (Others Unit)) := ⟨true, none, ⟨[]⟩, ⟨[], ⟨0, ()⟩⟩⟩

/-- The helper on a table with one mail. -/
def oneMailHelper : SQLHelper (Database (Others Unit)) :=
  ⟨true, none, ⟨[]⟩, ⟨[(mailOf 5 0).row 1], ⟨1, ()⟩⟩⟩

/-- A second mail, with the largest uid and the latest date. -/
theorem mail_readsBack_second :
    ReadsBack mailsEngine oneMailHelper (mailOf 0xffffffff 0x7fffffff) := by
  have hreadable : ∀ r ∈ oneMailHelper.file.mails, Readable mailsEngine r :=
    List.forall_mem_singleton.2
      (readable_iff_dictionary.2 (readable_row mailsEngine (mailOf 5 0) 1))
  exact (mail_readsBack_iff documented_mailsEngine oneMailHelper (by decide) (by decide)).2
    ⟨by decide, hreadable, by decide⟩

/-- One second later the date does not fit. -/
theorem not_mail_readsBack :
    ¬ ∀ engine : Engine (Database (Others Unit)), Documented engine →
      ∀ (s : SQLHelper (Database (Others Unit))) (mail : Mail 64), mail.uid.toNat < 2 ^ 32 →
        mail.Plain → ReadsBack engine s mail := by
  intro hall
  have hplain : (mailOf 1 0x80000000).Plain := by decide
  have h := hall mailsEngine documented_mailsEngine emptyHelper (mailOf 1 0x80000000) (by decide)
    hplain
  have hdate := (conditions_of_readsBack documented_mailsEngine hplain h).1
  exact absurd hdate.2 (by decide)

end SecMail
