import SecMail.Sql.Literals
import SecMail.Store.Model
import Mathlib.Algebra.Group.Int.Defs
import Mathlib.Algebra.Group.Nat.Defs

/-!
# Updating a stored mail body

`SQLHelper` writes the rendered text of a mail into table `mails` by splicing it between two
apostrophes of an SQL text.  The text is tokenized as SQLite does; what SQLite makes of the tokens
is a parameter `run`, of which `UpdateSemantics` assumes what an `update` of one column by a
literal is documented to do.

* `parserTokens_updateSql` : without an apostrophe in it, a body comes back as one literal, and the
  text as the one statement it was meant to be;
* `updateMailWithUid_exact_iff` : exactly these bodies are sure to be stored, for uids that fit an
  `int`, and nothing else to be changed;
* `not_updateMailWithUid_exact` : a body with one comments out the `where` clause.
-/

namespace SecMail

open Sqlite

/-! ### The database -/

/-- Values of columns. -/
inductive Value
  | null
  | integer (n : ℤ)
  | real (bits : UInt64)
  | text (s : NSString)
  | blob (bytes : List UInt8)
  deriving DecidableEq

/-- A row of table `mails`. -/
structure MailRow where
  id : ℤ
  uid : Value
  subject : Value
  messageid : Value
  mail_date : Value
  mail_sender : Value
  sendermailbox : Value
  mail_from : Value
  frommailbox : Value
  plaintextbody : Value
  deriving DecidableEq

/-- A database: table `mails` and whatever else there is. -/
structure Database (ρ : Type*) where
  mails : List MailRow
  others : ρ

variable {ρ : Type*} {w : ℕ}

/-- Set `plaintextbody` in the rows satisfying `p`. -/
def Database.setBody (db : Database ρ) (p : MailRow → Prop) [DecidablePred p] (body : NSString) :
    Database ρ :=
  { db with
    mails := db.mails.map fun r => if p r then { r with plaintextbody := .text body } else r }

/-! ### `update` statements -/

/-- The integers that a column can hold; SQLite reads an integer literal beyond them as a real. -/
def FitsColumn (n : ℤ) : Prop := -2 ^ 63 ≤ n ∧ n < 2 ^ 63

instance (n : ℤ) : Decidable (FitsColumn n) := inferInstanceAs (Decidable (_ ∧ _))

/-- An `update` of the column `plaintextbody` of table `mails` by a literal, for all rows or for
the rows of one uid. -/
structure Update where
  value : NSString
  uid : Option ℤ
  deriving DecidableEq

/-- What an `update` does. -/
def Update.apply (u : Update) (db : Database ρ) : Database ρ :=
  match u.uid with
  | none => db.setBody (fun _ => True) u.value
  | some n => db.setBody (fun r => r.uid = .integer n) u.value

/-- The tokens of `update mails set plaintextbody =`. -/
def updateTokens : List Token :=
  [⟨.word, "update".toList⟩, ⟨.word, "mails".toList⟩, ⟨.word, "set".toList⟩,
    ⟨.word, "plaintextbody".toList⟩, ⟨.eq, "=".toList⟩]

/-- The tokens of `where uid =`. -/
def whereTokens : List Token :=
  [⟨.word, "where".toList⟩, ⟨.word, "uid".toList⟩, ⟨.eq, "=".toList⟩]

/-- Read the tokens of such an `update`. -/
def parseUpdate (ts : List Token) : Option Update :=
  if ts.take 5 = updateTokens then
    match ts.drop 5 with
    | [⟨.string, literal⟩] => some ⟨sqlite3Dequote literal, none⟩
    | ⟨.string, literal⟩ :: ts =>
      if ts.take 3 = whereTokens then
        ((parseInteger (ts.drop 3)).filter fun n => FitsColumn n).map fun n =>
          ⟨sqlite3Dequote literal, some n⟩
      else none
    | _ => none
  else none

/-- SQLite runs such an `update` as documented. -/
def UpdateSemantics (run : List Token → Database ρ → Database ρ) : Prop :=
  ∀ ts u db, parseUpdate ts = some u → run ts db = u.apply db

/-! ### SQLHelper -/

/-- The C string of a text ends at its first NUL. -/
def UTF8String (s : NSString) : List Char := s.takeWhile (· != '\x00')

theorem UTF8String_of_not_mem {s : NSString} (h : '\x00' ∉ s) : UTF8String s = s := by
  refine List.takeWhile_eq_self_iff.2 fun c hc => ?_
  rw [bne_iff_ne]
  rintro rfl
  exact h hc

/-- `sqlite3_exec`: spaces and comments do not reach the parser. -/
def sqlite3_exec (run : List Token → Database ρ → Database ρ) (sql : List Char)
    (db : Database ρ) : Database ρ :=
  run ((tokenize sql).filter fun t => t.type != .space) db

theorem sqlite3_exec_eq (run : List Token → Database ρ → Database ρ) (sql : List Char)
    (db : Database ρ) : sqlite3_exec run sql db = run (parserTokens sql) db := rfl

/-- `-executeSQL:` -/
def executeSQL (run : List Token → Database ρ → Database ρ) (sql : NSString) (db : Database ρ) :
    Database ρ :=
  sqlite3_exec run (UTF8String sql) db

/-- The `int` that `%d` takes an `NSInteger` of `w` bits for. -/
def intArgument (n : BitVec w) : ℤ := (n.setWidth 32).toInt

theorem fitsColumn_intArgument (n : BitVec w) : FitsColumn (intArgument n) := by
  have hle := BitVec.le_toInt (n.setWidth 32)
  have hlt := BitVec.toInt_lt (x := n.setWidth 32)
  rw [FitsColumn, intArgument]
  omega

/-- The text of `-updateMailWithUid:body:`. -/
def updateSql (uid : BitVec w) (plaintextbody : NSString) : NSString :=
  "update mails set plaintextbody = '".toList ++ plaintextbody ++
    "' where uid = ".toList ++ Text.decimal (intArgument uid)

/-- `-updateMailWithUid:body:` -/
def updateMailWithUid (run : List Token → Database ρ → Database ρ) (uid : BitVec w)
    (plaintextbody : NSString) (db : Database ρ) : Database ρ :=
  executeSQL run (updateSql uid plaintextbody) db

/-- The body is stored in the rows of the uid, and nothing else is changed. -/
def ExactUpdate (run : List Token → Database ρ → Database ρ) (uid : BitVec w)
    (plaintextbody : NSString) : Prop :=
  ∀ db, updateMailWithUid run uid plaintextbody db =
    db.setBody (fun r => r.uid = .integer uid.toInt) plaintextbody

/-! ### The tokens of the text -/

/-- The first five tokens, and the literal next. -/
theorem parserTokens_update (z : List Char) :
    parserTokens ("update mails set plaintextbody = '".toList ++ z) =
      updateTokens ++ parserTokens ('\'' :: z) := by
  have hsplit : "update mails set plaintextbody = '".toList ++ z =
      "update".toList ++ ([' '] ++ ("mails".toList ++ ([' '] ++ ("set".toList ++ ([' '] ++
        ("plaintextbody".toList ++ ([' '] ++ (['='] ++ ([' '] ++ '\'' :: z))))))))) := rfl
  rw [hsplit, parserTokens_append .word (by decide) rfl, parserTokens_append .space (by decide) rfl,
    parserTokens_append .word (by decide) rfl, parserTokens_append .space (by decide) rfl,
    parserTokens_append .word (by decide) rfl, parserTokens_append .space (by decide) rfl,
    parserTokens_append .word (by decide) rfl, parserTokens_append .space (by decide) rfl,
    parserTokens_append .eq (by decide) rfl, parserTokens_append .space (by decide) rfl]
  rfl

/-- The last tokens, before the number. -/
theorem parserTokens_where {c : Char} (z : List Char) (hc : sqlite3Isspace c = false) :
    parserTokens (" where uid = ".toList ++ c :: z) = whereTokens ++ parserTokens (c :: z) := by
  have hsplit : " where uid = ".toList ++ c :: z =
      [' '] ++ ("where".toList ++ ([' '] ++ ("uid".toList ++ ([' '] ++ (['='] ++ ([' '] ++
        c :: z)))))) := rfl
  have hspace : sqlite3GetToken ([' '] ++ c :: z) = (.space, 1) := by
    simp [sqlite3GetToken, spanLength, hc]
  rw [hsplit, parserTokens_append .space (by decide) rfl, parserTokens_append .word (by decide) rfl,
    parserTokens_append .space (by decide) rfl, parserTokens_append .word (by decide) rfl,
    parserTokens_append .space (by decide) rfl, parserTokens_append .eq (by decide) rfl,
    parserTokens_append .space (by decide) hspace]
  rfl

/-- What follows the body in the text. -/
def whereText (uid : BitVec w) : List Char :=
  " where uid = ".toList ++ Text.decimal (intArgument uid)

theorem updateSql_eq (uid : BitVec w) (body : NSString) :
    updateSql uid body =
      "update mails set plaintextbody = '".toList ++ (body ++ '\'' :: whereText uid) := by
  have hquote : "' where uid = ".toList = '\'' :: " where uid = ".toList := rfl
  change "update mails set plaintextbody = '".toList ++ body ++ "' where uid = ".toList ++
    Text.decimal (intArgument uid) =
      _ ++ (_ ++ _ :: (" where uid = ".toList ++ Text.decimal (intArgument uid)))
  rw [hquote]
  simp only [List.append_assoc, List.cons_append]

theorem not_mem_whereText {c : Char} (hc : c = '\'' ∨ c = '\x00') (uid : BitVec w) :
    c ∉ whereText uid := by
  change c ∉ " where uid = ".toList ++ Text.decimal (intArgument uid)
  rw [List.mem_append, not_or]
  rcases hc with rfl | rfl
  · exact ⟨by decide, Text.not_mem_decimal (by decide) (by decide)⟩
  · exact ⟨by decide, Text.not_mem_decimal (by decide) (by decide)⟩

/-- A text without NUL reaches SQLite as it is. -/
theorem UTF8String_updateSql {uid : BitVec w} {body : NSString} (hnul : '\x00' ∉ body) :
    UTF8String (updateSql uid body) = updateSql uid body := by
  refine UTF8String_of_not_mem fun hc => ?_
  rw [updateSql_eq, List.mem_append, List.mem_append, List.mem_cons] at hc
  rcases hc with hc | hc | hc | hc
  · exact absurd hc (by decide)
  · exact hnul hc
  · exact absurd hc (by decide)
  · exact not_mem_whereText (.inr rfl) uid hc

theorem parserTokens_whereText (uid : BitVec w) :
    parserTokens (whereText uid) =
      whereTokens ++ parserTokens (Text.decimal (intArgument uid)) := by
  obtain ⟨c, z, hz⟩ := List.exists_cons_of_ne_nil (Text.decimal_ne_nil (intArgument uid))
  have hc : sqlite3Isspace c = false := by
    rcases Text.mem_decimal (n := intArgument uid) (c := c) (hz ▸ List.mem_cons_self) with rfl | hd
    · rfl
    · exact sqlite3Isspace_of_isDigit hd
  change parserTokens (" where uid = ".toList ++ Text.decimal (intArgument uid)) = _
  rw [hz, parserTokens_where z hc]

/-- **A body without apostrophes comes back as one literal.** -/
theorem parserTokens_updateSql (uid : BitVec w) {body : NSString} (hbody : '\'' ∉ body) :
    parserTokens (updateSql uid body) =
      updateTokens ++ ⟨.string, '\'' :: (body ++ ['\''])⟩ ::
        (whereTokens ++ parserTokens (Text.decimal (intArgument uid))) := by
  have hhead : (whereText uid).head? ≠ some '\'' :=
    head?_ne_of_not_mem (not_mem_whereText (.inl rfl) uid)
  rw [updateSql_eq, parserTokens_update, parserTokens_literal hbody hhead, parserTokens_whereText]

theorem parseUpdate_updateSql (uid : BitVec w) {body : NSString} (hbody : '\'' ∉ body) :
    parseUpdate (parserTokens (updateSql uid body)) = some ⟨body, some (intArgument uid)⟩ := by
  obtain ⟨t, ts, ht⟩ : ∃ t ts,
      whereTokens ++ parserTokens (Text.decimal (intArgument uid)) = t :: ts := ⟨_, _, rfl⟩
  have htake : (t :: ts).take 3 = whereTokens := by rw [← ht]; rfl
  have hdrop : (t :: ts).drop 3 = parserTokens (Text.decimal (intArgument uid)) := by rw [← ht]; rfl
  rw [parserTokens_updateSql uid hbody, ht, parseUpdate]
  have htake5 : (updateTokens ++ ⟨.string, '\'' :: (body ++ ['\''])⟩ :: t :: ts).take 5 =
      updateTokens := rfl
  have hdrop5 : (updateTokens ++ ⟨.string, '\'' :: (body ++ ['\''])⟩ :: t :: ts).drop 5 =
      ⟨.string, '\'' :: (body ++ ['\''])⟩ :: t :: ts := rfl
  rw [if_pos htake5, hdrop5]
  have hfits : (some (intArgument uid)).filter (fun n => FitsColumn n) =
      some (intArgument uid) := by
    rw [Option.filter_some, if_pos (by simpa using fitsColumn_intArgument uid)]
  simp only [htake, if_true, hdrop, parseInteger_decimal, hfits, Option.map_some,
    sqlite3Dequote_literal hbody]

/-- An `update` is read from its tokens with the value of its literal. -/
theorem value_of_parseUpdate {t : Token} {ts : List Token} {u : Update}
    (h : parseUpdate (updateTokens ++ t :: ts) = some u) :
    t.type = .string ∧ u.value = sqlite3Dequote t.text := by
  have htake : (updateTokens ++ t :: ts).take 5 = updateTokens := rfl
  have hdrop : (updateTokens ++ t :: ts).drop 5 = t :: ts := rfl
  rw [parseUpdate, if_pos htake, hdrop] at h
  split at h
  · rename_i literal heq
    cases heq
    cases h
    exact ⟨rfl, rfl⟩
  · rename_i literal ts' _ heq
    cases heq
    split_ifs at h
    obtain ⟨n, -, rfl⟩ := Option.map_eq_some_iff.1 h
    exact ⟨rfl, rfl⟩
  · cases h

/-- A body with an apostrophe is never the value of the literal that it is spliced into. -/
theorem value_ne_of_parseUpdate {uid : BitVec w} {body : NSString} {u : Update}
    (hbody : '\'' ∈ body) (h : parseUpdate (parserTokens (updateSql uid body)) = some u) :
    u.value ≠ body := by
  intro hvalue
  rw [updateSql_eq, parserTokens_update] at h
  have hquote := not_mem_whereText (.inl rfl) uid
  cases hlength : literalLength '\'' (body ++ '\'' :: whereText uid) with
  | none =>
    -- the literal is not closed
    have hget : sqlite3GetToken ('\'' :: (body ++ '\'' :: whereText uid)) =
        (.illegal, (body ++ '\'' :: whereText uid).length + 1) := by
      simp [sqlite3GetToken, hlength]
    obtain ⟨htype, -⟩ := value_of_parseUpdate (by
      rwa [parserTokens, tokenize_cons, hget, List.filter_cons_of_pos (by rfl)] at h)
    cases htype
  | some n =>
    have hget : sqlite3GetToken ('\'' :: (body ++ '\'' :: whereText uid)) = (.string, n + 1) := by
      simp [sqlite3GetToken, hlength]
    obtain ⟨-, hu⟩ := value_of_parseUpdate (by
      rwa [parserTokens, tokenize_cons, hget, List.filter_cons_of_pos (by rfl)] at h)
    rw [hvalue] at hu
    exact not_mem_of_dequote hquote hlength hu.symm hbody

/-! ### What the update does -/

/-- Run these `update` statements, and nothing else. -/
def runUpdates (ts : List Token) (db : Database ρ) : Database ρ :=
  match parseUpdate ts with
  | some u => u.apply db
  | none => db

theorem updateSemantics_runUpdates : UpdateSemantics (runUpdates (ρ := ρ)) := by
  intro ts u db h
  rw [runUpdates, h]

/-- A mail of which only the uid is known. -/
def mailRow (id : ℤ) (uid : BitVec w) : MailRow :=
  ⟨id, .integer uid.toInt, .null, .null, .null, .null, .null, .null, .null, .null⟩

/-- An `update` of one row stores its own value, or nothing. -/
theorem bodies_apply (u : Update) (uid : BitVec w) (others : ρ) :
    (u.apply ⟨[mailRow 1 uid], others⟩).mails.map MailRow.plaintextbody = [.text u.value] ∨
      (u.apply ⟨[mailRow 1 uid], others⟩).mails.map MailRow.plaintextbody = [.null] := by
  obtain ⟨value, _ | n⟩ := u
  · exact .inl rfl
  · by_cases hn : (mailRow 1 uid).uid = .integer n
    · left
      simp [Update.apply, Database.setBody, hn]
    · right
      simp only [Update.apply, Database.setBody, List.map_cons, List.map_nil, hn, if_false]
      rfl

section Exact

variable {uid : BitVec w} {plaintextbody : NSString} (hnul : '\x00' ∉ plaintextbody)
  (h : ExactUpdate (runUpdates (ρ := ρ)) uid plaintextbody) (others : ρ)

include hnul h others

/-- An exact update of a row without a body. -/
theorem bodies_of_exact :
    (runUpdates (parserTokens (updateSql uid plaintextbody))
      ⟨[mailRow 1 uid], others⟩).mails.map MailRow.plaintextbody = [.text plaintextbody] := by
  have hrun : updateMailWithUid runUpdates uid plaintextbody ⟨[mailRow 1 uid], others⟩ =
      runUpdates (parserTokens (updateSql uid plaintextbody)) ⟨[mailRow 1 uid], others⟩ := by
    rw [updateMailWithUid, executeSQL, UTF8String_updateSql hnul, sqlite3_exec_eq]
  rw [← hrun, h]
  simp [Database.setBody, mailRow]

theorem not_mem_of_exact : '\'' ∉ plaintextbody := by
  intro hquote
  have hbodies := bodies_of_exact hnul h others
  rw [runUpdates] at hbodies
  split at hbodies
  · rename_i u hu
    have hne := value_ne_of_parseUpdate hquote hu
    rcases bodies_apply u uid others with hb | hb
    · rw [hb] at hbodies
      simp [hne] at hbodies
    · rw [hb] at hbodies
      simp at hbodies
  · simp [mailRow] at hbodies

theorem intArgument_of_exact : intArgument uid = uid.toInt := by
  by_contra hne
  have hbodies := bodies_of_exact hnul h others
  rw [runUpdates, parseUpdate_updateSql uid (not_mem_of_exact hnul h others)] at hbodies
  -- the row has another uid than the one that is printed, and keeps its body
  have hother : Value.integer uid.toInt ≠ .integer (intArgument uid) :=
    fun heq => hne (Value.integer.inj heq).symm
  simp [Update.apply, Database.setBody, mailRow, hother] at hbodies

end Exact

/-- **Exactly the bodies without apostrophes are safe**, for uids that fit an `int`.  Whatever
SQLite makes of other statements, the body is stored in the rows of the uid and nothing else is
changed if and only if the body has no apostrophe and `%d` prints the uid. -/
theorem updateMailWithUid_exact_iff [Inhabited ρ] (uid : BitVec w) {plaintextbody : NSString}
    (hnul : '\x00' ∉ plaintextbody) :
    (∀ run : List Token → Database ρ → Database ρ, UpdateSemantics run →
      ExactUpdate run uid plaintextbody) ↔
      '\'' ∉ plaintextbody ∧ intArgument uid = uid.toInt := by
  constructor
  · intro hexact
    have h := hexact runUpdates updateSemantics_runUpdates
    exact ⟨not_mem_of_exact hnul h default, intArgument_of_exact hnul h default⟩
  · rintro ⟨hquote, huid⟩ run hrun db
    rw [updateMailWithUid, executeSQL, UTF8String_updateSql hnul, sqlite3_exec_eq, ← huid]
    exact hrun _ _ db (parseUpdate_updateSql uid hquote)

theorem updateMailWithUid_exact_hello :
    ExactUpdate (runUpdates (ρ := Unit)) 5#32 "hello; --".toList :=
  (updateMailWithUid_exact_iff 5#32 (by decide)).2 (by decide) _ updateSemantics_runUpdates

/-- A body can close its literal and comment out the `where` clause: every row is updated. -/
theorem not_updateMailWithUid_exact :
    ¬ ∀ run : List Token → Database Unit → Database Unit, UpdateSemantics run →
      ∀ (uid : BitVec 32) plaintextbody, '\x00' ∉ plaintextbody →
        ExactUpdate run uid plaintextbody := by
  intro hall
  have h := hall runUpdates updateSemantics_runUpdates 5 "gone' --".toList (by decide)
    ⟨[mailRow 1 5#32, mailRow 2 6#32], ()⟩
  have hbodies := congrArg (fun db => db.mails.map MailRow.plaintextbody) h
  revert hbodies
  decide

end SecMail
