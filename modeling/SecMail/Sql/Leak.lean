import SecMail.Sql.Helper
import SecMail.LTS.Basic

/-!
# What the SQL helper leaves open

`querySQL:` and `insertSQL:` close their connection without finalizing their statement, and SQLite
then refuses to close it.  The next operation overwrites the handle, so that the connection stays
open for ever.

* `helperSystem` is the helper under any sequence of operations;
* `SQLHelper.leaves_next` : exactly what one operation leaves open;
* `connections_closed_iff` : nothing is open between operations exactly if no query and no insertion
  gets a statement;
* `SQLHelper.openCount_le_of_run` : what is left open stays open;
* `not_connections_closed` : one query.
-/

namespace SecMail

open Sqlite

variable {δ : Type*} {w : ℕ}

/-! ### The operations -/

/-- Operations of the helper. -/
inductive HelperAction (w : ℕ)
  | sharedSQLHelper
  | countOfTable (table : NSString)
  | querySQL (sql : NSString)
  | insertMailWithUid (mail : Mail w)
  | updateMailWithUid (uid : BitVec w) (plaintextbody : NSString)

/-- What they return. -/
inductive HelperReply
  | nothing
  | int (n : BitVec 32)
  | array (arr : List NSDictionary)

/-- The helper as a transition system; only the shared helper is sent messages. -/
def helperSystem (engine : Engine δ) (w : ℕ) :
    System (SQLHelper δ) (HelperAction w) HelperReply where
  next s
    | .sharedSQLHelper => some (s.sharedSQLHelper engine, .nothing)
    | .countOfTable table =>
      if s.shared then some ((s.countOfTable engine table).map id .int) else none
    | .querySQL sql =>
      if s.shared then (s.querySQL engine sql).map (Prod.map id .array) else none
    | .insertMailWithUid mail =>
      if s.shared then some ((s.insertMailWithUid engine mail).map id .int) else none
    | .updateMailWithUid uid plaintextbody =>
      if s.shared then some (s.updateMailWithUid engine uid plaintextbody, .nothing) else none

namespace SQLHelper

section

variable (engine : Engine δ) (s : SQLHelper δ)

/-- The operation leaves its connection open. -/
def Leaks : HelperAction w → Prop
  | .querySQL sql => (s.statementFor engine sql).isSome = true
  | .insertMailWithUid mail => (s.statementFor engine (insertSql mail)).isSome = true
  | _ => False

instance : (a : HelperAction w) → Decidable (s.Leaks engine a)
  | .sharedSQLHelper | .countOfTable _ | .updateMailWithUid _ _ => isFalse id
  | .querySQL _ | .insertMailWithUid _ => inferInstanceAs (Decidable (_ = true))

end

variable {engine : Engine δ} {s : SQLHelper δ}

/-! ### One operation -/

/-- The connection is closed if nothing has been prepared on it. -/
theorem leaves_closeDatabase :
    Connections.Leaves 0 s.connections (s.openDatabase engine).closeDatabase.connections := by
  cases hanswer : (engine.opens s.file).1 with
  | ok | sick =>
    simp only [closeDatabase, openDatabase, hanswer, sqlite3_open, sqlite3_close_append]
    exact Connections.leaves_append_none _
  | null =>
    simp only [closeDatabase, openDatabase, hanswer, sqlite3_open, sqlite3_close_none]
    exact Connections.leaves_refl _

/-- The state after a statement has been prepared. -/
theorem connections_newStatement {sql : NSString} {stmt : Statement δ}
    (h : s.statementFor engine sql = some stmt) :
    (s.openDatabase engine).db = some s.connections.table.length ∧
      (newStatement s.connections.table.length (s.openDatabase engine).connections).2 =
        s.connections.append (some ⟨false, [true]⟩) := by
  obtain ⟨hdb, hconn⟩ := openDatabase_ok (opens_of_statementFor h)
  refine ⟨hdb, ?_⟩
  rw [hconn, newStatement, Connections.update_append]
  rfl

/-- A connection on which a statement has been prepared is not closed. -/
theorem leaves_of_statementFor {sql : NSString} {stmt : Statement δ} (file : δ)
    (h : s.statementFor engine sql = some stmt) :
    Connections.Leaves 1 s.connections ({ s.openDatabase engine with
      connections := (newStatement s.connections.table.length (s.openDatabase engine).connections).2
      file := file } : SQLHelper δ).closeDatabase.connections := by
  obtain ⟨hdb, hconn⟩ := connections_newStatement h
  rw [closeDatabase, hdb, hconn, sqlite3_close_append]
  exact Connections.leaves_append_prepared _

theorem leaves_querySQL {sql : NSString} {s' : SQLHelper δ} {arr : List NSDictionary}
    (h : s.querySQL engine sql = some (s', arr)) :
    Connections.Leaves (if (s.statementFor engine sql).isSome then 1 else 0) s.connections
      s'.connections := by
  cases hstmt : s.statementFor engine sql with
  | none =>
    obtain ⟨rc, hprep⟩ := prepare_of_none hstmt
    simp only [querySQL, hprep] at h
    split_ifs at h
    · obtain ⟨arr', -, heq⟩ := Option.map_eq_some_iff.1 h
      cases heq
      exact leaves_closeDatabase
    · cases h
      exact leaves_closeDatabase
  | some stmt =>
    simp only [querySQL, prepare_of_some hstmt, if_true] at h
    obtain ⟨arr', -, heq⟩ := Option.map_eq_some_iff.1 h
    cases heq
    exact leaves_of_statementFor _ hstmt

theorem leaves_insertSQL (sql : NSString) :
    Connections.Leaves (if (s.statementFor engine sql).isSome then 1 else 0) s.connections
      (s.insertSQL engine sql).1.connections := by
  cases hstmt : s.statementFor engine sql with
  | none =>
    obtain ⟨rc, hprep⟩ := prepare_of_none hstmt
    by_cases hrc : rc = .ok
    · simp only [insertSQL, hprep, hrc, if_true]
      exact leaves_closeDatabase
    · simp only [insertSQL, hprep, hrc, if_false]
      exact leaves_closeDatabase
  | some stmt =>
    simp only [insertSQL, prepare_of_some hstmt, if_true]
    exact leaves_of_statementFor _ hstmt

/-- The count finalizes its statement. -/
theorem leaves_countOfTable (table : NSString) :
    Connections.Leaves 0 s.connections (s.countOfTable engine table).1.connections := by
  cases hstmt : s.statementFor engine (countSql table) with
  | none =>
    obtain ⟨rc, hprep⟩ := prepare_of_none hstmt
    by_cases hrc : rc = .ok
    · simp only [countOfTable, hprep, hrc, if_true]
      exact leaves_closeDatabase
    · simp only [countOfTable, hprep, hrc, if_false]
      exact leaves_closeDatabase
  | some stmt =>
    obtain ⟨hdb, hconn⟩ := openDatabase_ok (opens_of_statementFor hstmt)
    obtain ⟨c, hfinal, hidle⟩ := sqlite3_finalize_newStatement s.connections ⟨false, []⟩ rfl
    simp only [countOfTable, prepare_of_some hstmt, if_true, closeDatabase, Option.map_some, hdb,
      hconn, hfinal, sqlite3_close_append, hidle]
    exact Connections.leaves_append_none _

/-- `sqlite3_exec` leaves no statement behind. -/
theorem closeDatabase_exec (sql : NSString) :
    (s.exec engine sql).closeDatabase.connections = s.closeDatabase.connections := by
  rw [exec]
  split_ifs
  · rfl
  · rfl

theorem leaves_executeSQL (sql : NSString) :
    Connections.Leaves 0 s.connections (s.executeSQL engine sql).connections := by
  rw [executeSQL, closeDatabase_exec]
  exact leaves_closeDatabase

theorem leaves_sharedSQLHelper :
    Connections.Leaves 0 s.connections (s.sharedSQLHelper engine).connections := by
  rw [sharedSQLHelper]
  split_ifs
  · exact Connections.leaves_refl _
  · exact (closeDatabase_exec createTableSql).symm ▸ leaves_closeDatabase

/-- **What one operation leaves open.** -/
theorem leaves_next {a : HelperAction w} {o : HelperReply} {s' : SQLHelper δ}
    (hs : (helperSystem engine w).next s a = some (s', o)) :
    Connections.Leaves (if s.Leaks engine a then 1 else 0) s.connections s'.connections := by
  cases a with
  | sharedSQLHelper =>
    cases hs
    exact leaves_sharedSQLHelper
  | countOfTable table =>
    simp only [helperSystem] at hs
    split_ifs at hs
    cases hs
    exact leaves_countOfTable table
  | querySQL sql =>
    simp only [helperSystem] at hs
    split_ifs at hs
    obtain ⟨⟨t, arr⟩, hquery, heq⟩ := Option.map_eq_some_iff.1 hs
    cases heq
    exact leaves_querySQL hquery
  | insertMailWithUid mail =>
    simp only [helperSystem] at hs
    split_ifs at hs
    cases hs
    exact leaves_insertSQL (insertSql mail)
  | updateMailWithUid uid plaintextbody =>
    simp only [helperSystem] at hs
    split_ifs at hs
    cases hs
    exact leaves_executeSQL _

end SQLHelper

/-! ### Runs -/

/-- No connection is open, and no statement is to be finalized. -/
def SQLHelper.Closed (s : SQLHelper δ) : Prop :=
  s.connections.openCount = 0 ∧ s.connections.unfinalizedCount = 0

theorem SQLHelper.closed_iff {s : SQLHelper δ} : s.Closed ↔ s.connections.openCount = 0 :=
  ⟨And.left, fun h => ⟨h, Connections.unfinalizedCount_eq_zero h⟩⟩

/-- What has been left open is never closed. -/
theorem SQLHelper.openCount_le_of_run {engine : Engine δ} {s s' : SQLHelper δ}
    {h : List (HelperAction w × HelperReply)} (hr : (helperSystem engine w).Run s h s') :
    s.connections.openCount ≤ s'.connections.openCount := by
  induction hr with
  | nil => exact le_refl _
  | snoc _ _ hs ih =>
    have hcount := (leaves_next hs).openCount
    omega

/-- **Connections are closed by the operation that opened them**, all along a run, exactly if no
query and no insertion of the run gets a statement. -/
theorem connections_closed_iff {engine : Engine δ} {file : δ} {s : SQLHelper δ}
    {h : List (HelperAction w × HelperReply)}
    (hr : (helperSystem engine w).Run (.launch file) h s) :
    (helperSystem engine w).Along (fun _ s => s.Closed) (.launch file) h ↔
      (helperSystem engine w).RunWhere (fun s a => ¬ s.Leaks engine a) (.launch file) h s := by
  refine hr.along_iff (I := fun _ _ => True) trivial ⟨rfl, rfl⟩ fun _ s a o s' _ hclosed _ hs => ?_
  refine ⟨fun _ => trivial, ?_⟩
  have hopen := (SQLHelper.leaves_next hs).openCount
  rw [SQLHelper.closed_iff] at hclosed ⊢
  by_cases hleak : s.Leaks engine a
  · simp [hleak, hopen, hclosed]
  · simp [hleak, hopen, hclosed]

/-- An SQLite that prepares every text, and has no rows. -/
def emptyEngine : Engine Unit where
  opens file := (.ok, file)
  keys _ file := file
  prepares _ _ := .statement ⟨[], fun file => ⟨[], .done, ResultCode.done_ne_row, file, 0⟩⟩
  executes _ file := file
  castInt _ := 0
  castText _ := none
  castDouble _ := 0

theorem connections_closed_count_update :
    ∃ h s, (helperSystem emptyEngine 64).Run (.launch ()) h s ∧
      h.map Prod.fst = [.sharedSQLHelper, .countOfTable "mails".toList,
        .updateMailWithUid 5 "hello".toList] ∧
      2 ≤ s.connections.table.length ∧
      (helperSystem emptyEngine 64).Along (fun _ s => s.Closed) (.launch ()) h :=
  (helperSystem emptyEngine 64).exists_run_of_actions (fun s a => ¬ s.Leaks emptyEngine a) _ _
    (by decide +kernel) fun _ _ hr => (connections_closed_iff hr.run).2 hr

/-- The mails are queried once. -/
theorem not_connections_closed :
    ¬ ∀ (h : List (HelperAction 64 × HelperReply)) (s : SQLHelper Unit),
      (helperSystem emptyEngine 64).Run (.launch ()) h s → s.Closed := by
  intro hall
  obtain ⟨h, s, hr, hleft⟩ := (helperSystem emptyEngine 64).exists_run_of_exec (fun _ _ => True)
    (.launch ()) [.sharedSQLHelper, .querySQL "select * from mails".toList]
    (fun _ s => s.connections.openCount = 1 ∧ s.connections.unfinalizedCount = 1)
    (by decide +kernel)
  have hclosed := SQLHelper.closed_iff.1 (hall h s hr)
  rw [hleft.1] at hclosed
  exact absurd hclosed (by decide)

end SecMail
