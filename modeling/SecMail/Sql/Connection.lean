import Mathlib.Data.List.Basic
import Mathlib.Data.List.Count

/-!
# Connections and prepared statements

What a process holds of SQLite between two calls: the connections it has opened and not closed, and
on each of them the statements it has prepared and not finalized.  A handle is the position of what
it stands for in the order of creation, so that a new handle is never one that is in use.

* `sqlite3_close` refuses a connection on which a statement is not finalized;
* `Connections.openCount` and `Connections.unfinalizedCount` count what is left;
* `unfinalizedCount_eq_zero` : without open connections there are no unfinalized statements;
* `Connections.Leaves` : how many connections are left open, each with such a statement;
* `sqlite3_close_append` : the latest connection, with or without such a statement.
-/

namespace SecMail

namespace Sqlite

/-- Result codes. -/
inductive ResultCode
  | ok | busy | full | misuse | row | done | error (rc : ℕ)
  deriving DecidableEq

namespace ResultCode

theorem full_ne_row : full ≠ row := by decide

theorem misuse_ne_row : misuse ≠ row := by decide

theorem done_ne_row : done ≠ row := by decide

theorem error_ne_ok (rc : ℕ) : error rc ≠ ok := by simp

end ResultCode

/-- A connection that has not been closed. -/
structure Connection where
  /-- Opening has failed, and the connection can only be closed. -/
  sick : Bool
  /-- The statements prepared on it; `true` until the statement is finalized. -/
  statements : List Bool
  deriving DecidableEq

/-- `connectionIsBusy` -/
def Connection.isBusy (c : Connection) : Bool := c.statements.contains true

/-- The connections in the order in which they were opened, `none` once they are closed. -/
structure Connections where
  table : List (Option Connection)
  deriving DecidableEq

/-- What `sqlite3_open` comes to. -/
inductive OpenAnswer
  | ok
  /-- It fails, and there is a connection to be closed. -/
  | sick
  /-- It fails for want of memory, without a connection. -/
  | null
  deriving DecidableEq

/-- A statement: its connection, and its position among the statements prepared there. -/
structure StatementHandle where
  db : ℕ
  index : ℕ
  deriving DecidableEq

/-! ### Calls -/

namespace Connections

/-- The connection of a handle; `NULL` has none. -/
def connection (cs : Connections) (db : Option ℕ) : Option Connection :=
  db.bind fun i => (cs.table[i]?).join

/-- Open connections, one more. -/
def append (cs : Connections) (c : Option Connection) : Connections := ⟨cs.table ++ [c]⟩

/-- Change the connection of a handle. -/
def update (cs : Connections) (i : ℕ) (f : Option Connection → Option Connection) : Connections :=
  ⟨cs.table.modify i f⟩

end Connections

open Connections

/-- `sqlite3_open`: the handle and the connections after the call. -/
def sqlite3_open (answer : OpenAnswer) (cs : Connections) : Option ℕ × Connections :=
  match answer with
  | .ok => (some cs.table.length, cs.append (some ⟨false, []⟩))
  | .sick => (some cs.table.length, cs.append (some ⟨true, []⟩))
  | .null => (none, cs)

/-- `sqlite3SafetyCheckOk`: the handle is fit for use. -/
def sqlite3SafetyCheckOk (db : Option ℕ) (cs : Connections) : Bool :=
  (cs.connection db).any fun c => !c.sick

/-- `sqlite3_close` -/
def sqlite3_close (db : Option ℕ) (cs : Connections) : ResultCode × Connections :=
  match db with
  | none => (.ok, cs)
  | some i =>
    match cs.connection (some i) with
    | none => (.misuse, cs)
    | some c => if c.isBusy then (.busy, cs) else (.ok, cs.update i fun _ => none)

/-- A statement is prepared on a connection. -/
def newStatement (i : ℕ) (cs : Connections) : StatementHandle × Connections :=
  (⟨i, ((cs.connection (some i)).map fun c => c.statements.length).getD 0⟩,
    cs.update i (Option.map fun c => { c with statements := c.statements ++ [true] }))

/-- `sqlite3_finalize` -/
def sqlite3_finalize (statment : Option StatementHandle) (cs : Connections) : Connections :=
  match statment with
  | none => cs
  | some st =>
    cs.update st.db (Option.map fun c => { c with statements := c.statements.set st.index false })

/-! ### What is left -/

namespace Connections

/-- The number of open connections. -/
def openCount (cs : Connections) : ℕ := cs.table.countP Option.isSome

/-- The statements of a connection; a closed one has none. -/
def statementsOf (c : Option Connection) : List Bool := c.elim [] Connection.statements

/-- The number of unfinalized statements. -/
def unfinalizedCount (cs : Connections) : ℕ := (cs.table.flatMap statementsOf).count true

variable (cs : Connections) (c : Option Connection)

@[simp] theorem openCount_append :
    (cs.append c).openCount = cs.openCount + if c.isSome then 1 else 0 := by
  simp [openCount, append, List.countP_append, List.countP_singleton]

@[simp] theorem unfinalizedCount_append :
    (cs.append c).unfinalizedCount = cs.unfinalizedCount + (statementsOf c).count true := by
  simp [unfinalizedCount, append]

/-- Every unfinalized statement keeps its connection open. -/
theorem unfinalizedCount_eq_zero {cs : Connections} (h : cs.openCount = 0) :
    cs.unfinalizedCount = 0 := by
  rw [openCount, List.countP_eq_zero] at h
  rw [unfinalizedCount, List.count_eq_zero]
  intro hmem
  obtain ⟨c, hc, hstatement⟩ := List.mem_flatMap.1 hmem
  rw [Option.not_isSome_iff_eq_none.1 (h c hc)] at hstatement
  cases hstatement

/-- Between two states, `n` connections have been left open, each with an unfinalized statement. -/
structure Leaves (n : ℕ) (cs cs' : Connections) : Prop where
  openCount : cs'.openCount = cs.openCount + n
  unfinalizedCount : cs'.unfinalizedCount = cs.unfinalizedCount + n

theorem leaves_refl : Leaves 0 cs cs := ⟨rfl, rfl⟩

theorem leaves_append_none : Leaves 0 cs (cs.append none) := ⟨by simp, by simp [statementsOf]⟩

theorem leaves_append_prepared : Leaves 1 cs (cs.append (some ⟨false, [true]⟩)) :=
  ⟨by simp, by simp [statementsOf]⟩

/-! ### The latest connection -/

@[simp] theorem connection_none : cs.connection none = none := rfl

@[simp] theorem connection_append : (cs.append c).connection (some cs.table.length) = c := by
  simp [connection, append]

@[simp] theorem update_append (f : Option Connection → Option Connection) :
    (cs.append c).update cs.table.length f = cs.append (f c) := by
  simp [update, append, List.modify_eq_set_getElem?]

end Connections

variable (cs : Connections) (c : Connection)

@[simp] theorem sqlite3_close_none : (sqlite3_close none cs).2 = cs := rfl

/-- The latest connection is closed, unless a statement on it is not finalized. -/
theorem sqlite3_close_append :
    (sqlite3_close (some cs.table.length) (cs.append (some c))).2 =
      cs.append (if c.isBusy then some c else none) := by
  cases h : c.isBusy <;> simp [sqlite3_close, h]

@[simp] theorem sqlite3SafetyCheckOk_none : sqlite3SafetyCheckOk none cs = false := rfl

@[simp] theorem sqlite3SafetyCheckOk_append :
    sqlite3SafetyCheckOk (some cs.table.length) (cs.append (some c)) = !c.sick := by
  simp [sqlite3SafetyCheckOk]

/-- A statement that is finalized at once leaves its connection idle. -/
theorem sqlite3_finalize_newStatement (hc : c.isBusy = false) :
    ∃ c', sqlite3_finalize (some (newStatement cs.table.length (cs.append (some c))).1)
      (newStatement cs.table.length (cs.append (some c))).2 = cs.append (some c') ∧
        c'.isBusy = false := by
  refine ⟨{ c with statements := c.statements ++ [false] }, ?_, ?_⟩
  · simp [sqlite3_finalize, newStatement]
  · simpa [Connection.isBusy] using hc

end Sqlite

end SecMail
