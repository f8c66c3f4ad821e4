/-
  `Storage.Database`: the class `Database` of `storage/database.cpp`.

  The object is shared by all connections.  Its state is the database file and
  the handle `db_ptr`; a NULL handle makes every call fail.
-/
import AppChat.Storage.Sqlite

set_option autoImplicit false

namespace AppChat.Storage

open Foundation Foundation.SqlText

/-- A `Database` object over the engine `E`: the handle is open or NULL. -/
structure Database (E : Sqlite) where
  isOpen : Bool
  store : E.Store

namespace Database

variable {E : Sqlite}

/-- `sqlite3_exec(db_ptr, query.c_str(), ..)`, with `true` for `SQLITE_OK`. -/
def exec (db : Database E) (query : Bytes) : Database E × Bool :=
  if db.isOpen then
    let result := E.exec db.store (cString query)
    ({ db with store := result.1 }, result.2)
  else (db, false)

/-- `sqlite3_prepare_v2(db_ptr, sql.c_str(), ..)` and the loop of `sqlite3_step`;
`none` when the statement does not compile. -/
def select (db : Database E) (sql : Bytes) : Option (List ResultRow) :=
  if db.isOpen then E.select db.store (cString sql) else none

/-- `Database::save_text_msg`.  Its error branch closes the handle and sets it to
NULL. -/
def saveTextMsg (db : Database E) (msg : TextSendData) : Database E :=
  let result := db.exec (insertHistoryQuery msg.login msg.roomId msg.text)
  if result.2 then result.1 else { result.1 with isOpen := false }

/-- One turn of the row loop of `get_history`.  Each column becomes a
`std::string` through a `const char*`; constructing one from NULL throws. -/
def historyEntry (row : ResultRow) : Option TextSendData := do
  let author ← row.columnBlob 0
  let _dt ← row.columnBlob 2
  let message ← row.columnBlob 3
  return ⟨row.columnInt 1, cString author, cString message⟩

/-- `Database::get_history`: the new state of the object, and the history, or
`none` when an exception leaves the function.  When the statement does not
compile the handle is closed and no row is read. -/
def getHistory (db : Database E) (roomId : Identifier) :
    Database E × Option (List TextSendData) :=
  match db.select (selectHistoryQuery roomId) with
  | none => ({ db with isOpen := false }, some [])
  | some rows => (db, rows.mapM historyEntry)

/-- `Database::add_logins`.  A failed insert is only logged.  On an open handle
the message of a failed insert is freed twice, after which nothing is known:
`none`. -/
def addLogins (db : Database E) (login : Bytes) (loginId : Identifier)
    (password : Bytes) : Option (Database E) :=
  let result := db.exec (insertLoginsQuery login loginId password)
  if !result.2 && db.isOpen then none else some result.1

/-- `Database::get_loginid`: the id in the last row found, or -1. -/
def getLoginid (db : Database E) (login : Bytes) : Identifier :=
  match db.select (selectLoginsQuery login) with
  | none => -1
  | some rows => rows.foldl (fun _ row => row.columnInt 1) (-1)

/-- One turn of the row loop of `check_client`.  Comparing the password with a
NULL pointer is undefined: `none`. -/
def checkRow (password : Bytes) (result : Identifier) (row : ResultRow) :
    Option Identifier :=
  match row.columnBlob 2 with
  | none => none
  | some blob => some (if password = cString blob then row.columnInt 1 else result)

/-- `Database::check_client`: the id in the last row found that has the password,
or -1. -/
def checkClient (db : Database E) (login password : Bytes) : Option Identifier :=
  match db.select (selectLoginsQuery login) with
  | none => some (-1)
  | some rows => rows.foldlM (checkRow password) (-1)

/-! ## Loading a history -/

/-- A stored row is read back unless one of its texts is empty: the accessor then
returns NULL. -/
theorem historyEntry_toResult (row : HistoryRow) :
    historyEntry row.toResult =
      if row.author = [] ∨ row.message = [] then none
      else some ⟨row.roomId, cString row.author, cString row.message⟩ := by
  by_cases hauthor : row.author = []
  · simp [historyEntry, HistoryRow.toResult, columnBlobOfText, hauthor]
  · by_cases hmessage : row.message = []
    · simp [historyEntry, HistoryRow.toResult, columnBlobOfText, hauthor, hmessage]
    · simp [historyEntry, HistoryRow.toResult, columnBlobOfText, hauthor, hmessage]

/-- A history loads when every one of its rows does. -/
theorem mapM_historyEntry_ne_none {rows : List HistoryRow} :
    (rows.map HistoryRow.toResult).mapM historyEntry ≠ none ↔
      ∀ row ∈ rows, row.author ≠ [] ∧ row.message ≠ [] := by
  induction rows with
  | nil => simp
  | cons row rows ih =>
      rw [List.map_cons, List.mapM_cons, historyEntry_toResult]
      by_cases hempty : row.author = [] ∨ row.message = []
      · rw [if_pos hempty]
        refine iff_of_false (fun h => h rfl) ?_
        intro h
        have hrow := h row (List.mem_cons_self ..)
        exact hempty.elim hrow.1 hrow.2
      · rw [if_neg hempty, List.forall_mem_cons, ← ih]
        have hrow : row.author ≠ [] ∧ row.message ≠ [] := not_or.mp hempty
        cases (rows.map HistoryRow.toResult).mapM historyEntry <;> simp [hrow]

/-! ## A closed handle -/

@[simp] theorem exec_of_closed {db : Database E} (h : db.isOpen = false) (q : Bytes) :
    db.exec q = (db, false) := by
  simp [exec, h]

@[simp] theorem select_of_closed {db : Database E} (h : db.isOpen = false) (q : Bytes) :
    db.select q = none := by
  simp [select, h]

theorem checkClient_of_closed {db : Database E} (h : db.isOpen = false) (l p : Bytes) :
    db.checkClient l p = some (-1) := by
  simp [checkClient, h]

theorem saveTextMsg_of_closed {db : Database E} (h : db.isOpen = false)
    (msg : TextSendData) : db.saveTextMsg msg = db := by
  cases db
  simp_all [saveTextMsg]

theorem addLogins_of_closed {db : Database E} (h : db.isOpen = false) (l p : Bytes)
    (loginId : Identifier) : db.addLogins l loginId p = some db := by
  simp [addLogins, h]

/-! ## An open handle

The two look-ups read only the table `logins`. -/

section Lawful

variable (hE : E.Lawful)
include hE

theorem select_loginsQuery {db : Database E} (hopen : db.isOpen = true) {l a : Bytes}
    (hl : double a = l) (ha : 0 ∉ a) :
    db.select (selectLoginsQuery l) =
      some (((E.logins db.store).filter (·.login = a)).map LoginsRow.toResult) := by
  subst hl
  have hzero : 0 ∉ selectLoginsQuery (double a) := by
    rw [zero_mem_selectLoginsQuery, zero_mem_double]
    exact ha
  rw [select, if_pos hopen, cString_of_not_mem hzero, hE.select_logins _ _ ha]

theorem select_historyQuery {db : Database E} (hopen : db.isOpen = true)
    (roomId : Identifier) :
    db.select (selectHistoryQuery roomId) =
      some (((E.history db.store).filter (·.roomId = roomId)).map HistoryRow.toResult) := by
  rw [select, if_pos hopen, cString_of_not_mem (zero_not_mem_selectHistoryQuery roomId),
    hE.select_history]

/-- `get_history` returns unless a stored row of the room has an empty text. -/
theorem getHistory_ne_none_iff (db : Database E) (roomId : Identifier) :
    (db.getHistory roomId).2 ≠ none ↔
      (db.isOpen = true → ∀ row ∈ E.history db.store, row.roomId = roomId →
        row.author ≠ [] ∧ row.message ≠ []) := by
  unfold getHistory
  cases hopen : db.isOpen with
  | false => simp [select_of_closed hopen]
  | true =>
      simp only [select_historyQuery hE hopen]
      rw [mapM_historyEntry_ne_none]
      simp [List.mem_filter]

/-- Loading a history changes nothing. -/
theorem getHistory_fst (db : Database E) (roomId : Identifier) :
    (db.getHistory roomId).1 = db := by
  unfold getHistory
  cases hopen : db.isOpen with
  | false =>
      simp only [select_of_closed hopen]
      rw [← hopen]
  | true => simp only [select_historyQuery hE hopen]

/-- A message whose strings are bodies of literals is stored as one row; nothing
else changes. -/
theorem saveTextMsg_of_bodies {db : Database E} (hopen : db.isOpen = true)
    {msg : TextSendData} {a t : Bytes} (hlogin : double a = msg.login)
    (htext : double t = msg.text) (ha : 0 ∉ a) (ht : 0 ∉ t) :
    ∃ st', db.saveTextMsg msg = { db with store := st' } ∧
      E.logins st' = E.logins db.store ∧
      E.history st' = E.history db.store ++ [⟨a, msg.roomId, t⟩] := by
  have hzero : 0 ∉ insertHistoryQuery (double a) msg.roomId (double t) := by
    rw [zero_mem_insertHistoryQuery, zero_mem_double, zero_mem_double]
    exact fun h => h.elim ha ht
  obtain ⟨st', hexec, hlogins, hhistory⟩ :=
    hE.exec_insertHistory db.store a t msg.roomId ha ht
  refine ⟨st', ?_, hlogins, hhistory⟩
  rw [saveTextMsg, exec, if_pos hopen, ← hlogin, ← htext, cString_of_not_mem hzero, hexec]
  rfl

/-- An account whose strings are bodies of literals is stored as one row. -/
theorem addLogins_of_bodies {db : Database E} (hopen : db.isOpen = true)
    {login password a p : Bytes} (loginId : Identifier) (hlogin : double a = login)
    (hpassword : double p = password) (ha : 0 ∉ a) (hp : 0 ∉ p) :
    ∃ st', db.addLogins login loginId password = some { db with store := st' } ∧
      E.logins st' = E.logins db.store ++ [⟨a, loginId, p⟩] ∧
      E.history st' = E.history db.store := by
  have hzero : 0 ∉ insertLoginsQuery (double a) loginId (double p) := by
    rw [zero_mem_insertLoginsQuery, zero_mem_double, zero_mem_double]
    exact fun h => h.elim ha hp
  obtain ⟨st', hexec, hlogins, hhistory⟩ :=
    hE.exec_insertLogins db.store a p loginId ha hp
  refine ⟨st', ?_, hlogins, hhistory⟩
  rw [addLogins, exec, if_pos hopen, ← hlogin, ← hpassword, cString_of_not_mem hzero, hexec]
  rfl

end Lawful

end Database

end AppChat.Storage
