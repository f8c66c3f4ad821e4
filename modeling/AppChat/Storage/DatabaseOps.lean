/-
  `Storage.DatabaseOps`: the database as the handlers see it.

  The handlers reach the class `Database` through a pointer.  Here is the
  interface they use, the class itself behind it, and the tables as one would
  like to think of them: two lists of rows.  On texts that need no quoting the
  class is the tables.
-/
import AppChat.Storage.Database

set_option autoImplicit false

namespace AppChat.Storage

open Foundation Foundation.SqlText

/-- The calls the handlers make on a `Database` object.

`getHistory` returns `none` when an exception leaves it, `addLogins` and
`checkClient` when their behaviour is undefined.  A null `database_ptr` is one
more state, whose history is empty. -/
structure DatabaseOps where
  State : Type
  saveTextMsg : State → TextSendData → State
  getHistory : State → Identifier → State × Option (List TextSendData)
  addLogins : State → Bytes → Identifier → Bytes → Option State
  getLoginid : State → Bytes → Identifier
  checkClient : State → Bytes → Bytes → Option Identifier

/-- The class `Database` over the engine `E`. -/
def sqlDatabase (E : Sqlite) : DatabaseOps where
  State := Database E
  saveTextMsg := Database.saveTextMsg
  getHistory := Database.getHistory
  addLogins := Database.addLogins
  getLoginid := Database.getLoginid
  checkClient := Database.checkClient

/-! ## The tables -/

/-- The two tables, with the stored messages as the channels hold them. -/
structure Tables where
  logins : List LoginsRow
  history : List TextSendData
  deriving DecidableEq, Repr

/-- The last id among rows, or -1. -/
def lastId (rows : List LoginsRow) : Identifier := (rows.getLast?.map (·.loginId)).getD (-1)

/-- The abstract database: a text is appended, a room's history is the rows of
the room. -/
def tableDatabase : DatabaseOps where
  State := Tables
  saveTextMsg t msg := { t with history := t.history ++ [msg] }
  getHistory t roomId := (t, some (t.history.filter (·.roomId = roomId)))
  addLogins t login loginId password :=
    some { t with logins := t.logins ++ [⟨login, loginId, password⟩] }
  getLoginid t login := lastId (t.logins.filter (·.login = login))
  checkClient t login password :=
    some (lastId (t.logins.filter fun row => row.login = login ∧ row.password = password))

/-! ## The look-ups on an open handle -/

@[simp] theorem lastId_nil : lastId [] = -1 := rfl

@[simp] theorem lastId_append_singleton (rows : List LoginsRow) (row : LoginsRow) :
    lastId (rows ++ [row]) = row.loginId := by
  simp [lastId]

/-- The row loop of `get_loginid` ends with the last id. -/
theorem foldl_columnInt (rows : List LoginsRow) :
    (rows.map LoginsRow.toResult).foldl (fun _ row => row.columnInt 1) (-1) = lastId rows := by
  induction rows using List.reverseRecOn with
  | nil => rfl
  | append_singleton rows row _ => simp [LoginsRow.toResult]

theorem checkRow_toResult {row : LoginsRow} (h : row.password ≠ []) (p : Bytes)
    (result : Identifier) :
    Database.checkRow p result row.toResult =
      some (if p = cString row.password then row.loginId else result) := by
  simp [Database.checkRow, LoginsRow.toResult, columnBlobOfText, h]

/-- The row loop of `check_client` ends with the last id whose password matches. -/
theorem foldlM_checkRow {rows : List LoginsRow} (h : ∀ row ∈ rows, row.password ≠ []) (p : Bytes) :
    (rows.map LoginsRow.toResult).foldlM (Database.checkRow p) (-1) =
      some (lastId (rows.filter fun row => p = cString row.password)) := by
  induction rows using List.reverseRecOn with
  | nil => rfl
  | append_singleton rows row ih =>
      have hrow : row.password ≠ [] := h row (by simp)
      have hrows : ∀ row ∈ rows, row.password ≠ [] := fun row hmem => h row (by simp [hmem])
      rw [List.map_append, List.foldlM_append, ih hrows, List.filter_append]
      simp only [Option.bind_eq_bind, Option.bind_some, List.map_cons, List.map_nil,
        List.foldlM_cons, List.foldlM_nil, checkRow_toResult hrow]
      by_cases hp : p = cString row.password
      · simp [hp]
      · simp [hp]

section LookUps

variable {E : Sqlite} (hE : E.Lawful) {db : Database E} {l a : Bytes}
include hE

theorem getLoginid_of_bodies (hopen : db.isOpen = true) (hl : double a = l) (ha : 0 ∉ a) :
    db.getLoginid l = lastId ((E.logins db.store).filter (·.login = a)) := by
  rw [Database.getLoginid, Database.select_loginsQuery hE hopen hl ha]
  exact foldl_columnInt _

theorem checkClient_of_bodies (hopen : db.isOpen = true) (hl : double a = l) (ha : 0 ∉ a)
    (hrows : ∀ row ∈ E.logins db.store, row.login = a → row.password ≠ []) (p : Bytes) :
    db.checkClient l p =
      some (lastId (((E.logins db.store).filter (·.login = a)).filter
        fun row => p = cString row.password)) := by
  rw [Database.checkClient, Database.select_loginsQuery hE hopen hl ha]
  refine foldlM_checkRow ?_ p
  intro row hrow
  obtain ⟨hmem, hlogin⟩ := List.mem_filter.mp hrow
  exact hrows row hmem (of_decide_eq_true hlogin)

end LookUps

/-! ## The class is the tables -/

/-- A text that SQL and C leave as it is: not empty, no quote, no NUL. -/
structure Plain (s : Bytes) : Prop where
  ne_nil : s ≠ []
  quote_not_mem : quote ∉ s
  zero_not_mem : 0 ∉ s

/-- The row of a message. -/
def rowOf (msg : TextSendData) : HistoryRow := ⟨msg.login, msg.roomId, msg.text⟩

/-- An open database that holds the tables `t`, all of whose texts are plain. -/
structure Holds {E : Sqlite} (db : Database E) (t : Tables) : Prop where
  isOpen : db.isOpen = true
  logins : E.logins db.store = t.logins
  history : E.history db.store = t.history.map rowOf
  plain_logins : ∀ row ∈ t.logins, Plain row.password
  plain_history : ∀ msg ∈ t.history, Plain msg.login ∧ Plain msg.text

theorem historyEntry_rowOf {msg : TextSendData} (hlogin : Plain msg.login)
    (htext : Plain msg.text) : Database.historyEntry (rowOf msg).toResult = some msg := by
  rw [Database.historyEntry_toResult, if_neg, rowOf,
    cString_of_not_mem hlogin.zero_not_mem, cString_of_not_mem htext.zero_not_mem]
  exact fun h => h.elim hlogin.ne_nil htext.ne_nil

/-- The row loop of `get_history` gives plain messages back. -/
theorem mapM_historyEntry_rowOf {msgs : List TextSendData}
    (h : ∀ msg ∈ msgs, Plain msg.login ∧ Plain msg.text) :
    ((msgs.map rowOf).map HistoryRow.toResult).mapM Database.historyEntry = some msgs := by
  induction msgs with
  | nil => rfl
  | cons msg msgs ih =>
      obtain ⟨⟨hlogin, htext⟩, hrest⟩ := List.forall_mem_cons.mp h
      rw [List.map_cons, List.map_cons, List.mapM_cons, historyEntry_rowOf hlogin htext,
        ih hrest]
      rfl

section Refines

variable {E : Sqlite} (hE : E.Lawful) {db : Database E} {t : Tables}
include hE

theorem getHistory_of_holds (h : Holds db t) (roomId : Identifier) :
    (sqlDatabase E).getHistory db roomId =
      (db, (tableDatabase.getHistory t roomId).2) := by
  have hrows : (E.history db.store).filter (·.roomId = roomId) =
      (t.history.filter (·.roomId = roomId)).map rowOf := by
    rw [h.history, List.filter_map]
    rfl
  have hplain : ∀ msg ∈ t.history.filter (·.roomId = roomId), Plain msg.login ∧ Plain msg.text :=
    fun msg hmsg => h.plain_history msg (List.mem_of_mem_filter hmsg)
  show db.getHistory roomId = _
  rw [Database.getHistory, Database.select_historyQuery hE h.isOpen, hrows]
  simp only [mapM_historyEntry_rowOf hplain]
  rfl

/-- Saving a plain message appends its row to both. -/
theorem saveTextMsg_of_holds (h : Holds db t) {msg : TextSendData}
    (hlogin : Plain msg.login) (htext : Plain msg.text) :
    Holds ((sqlDatabase E).saveTextMsg db msg : Database E) (tableDatabase.saveTextMsg t msg) := by
  obtain ⟨st', hdb, hlogins, hhistory⟩ := Database.saveTextMsg_of_bodies hE h.isOpen
    (double_eq_self hlogin.quote_not_mem) (double_eq_self htext.quote_not_mem)
    hlogin.zero_not_mem htext.zero_not_mem
  have hsaved : (sqlDatabase E).saveTextMsg db msg = { db with store := st' } := hdb
  rw [hsaved]
  refine ⟨h.isOpen, hlogins.trans h.logins, ?_, h.plain_logins, ?_⟩
  · show E.history st' = (t.history ++ [msg]).map rowOf
    rw [hhistory, h.history, List.map_append]
    rfl
  · intro other hother
    rcases List.mem_append.mp hother with hold | hnew
    · exact h.plain_history other hold
    · rw [List.mem_singleton] at hnew
      subst hnew
      exact ⟨hlogin, htext⟩

theorem getLoginid_of_holds (h : Holds db t) {login : Bytes} (hlogin : Plain login) :
    (sqlDatabase E).getLoginid db login = tableDatabase.getLoginid t login := by
  have hself := double_eq_self hlogin.quote_not_mem
  show db.getLoginid login = lastId (t.logins.filter (·.login = login))
  rw [getLoginid_of_bodies hE h.isOpen hself hlogin.zero_not_mem, h.logins]

theorem checkClient_of_holds (h : Holds db t) {login : Bytes} (hlogin : Plain login)
    (password : Bytes) :
    (sqlDatabase E).checkClient db login password = tableDatabase.checkClient t login password := by
  have hself := double_eq_self hlogin.quote_not_mem
  have hplain : ∀ row ∈ E.logins db.store, Plain row.password := by
    rw [h.logins]
    exact h.plain_logins
  show db.checkClient login password = some (lastId (t.logins.filter _))
  rw [checkClient_of_bodies hE h.isOpen hself hlogin.zero_not_mem
    fun row hrow _ => (hplain row hrow).ne_nil]
  rw [List.filter_filter, h.logins]
  congr 2
  refine List.filter_congr ?_
  intro row hrow
  rw [cString_of_not_mem (h.plain_logins row hrow).zero_not_mem]
  simp [Bool.and_comm, eq_comm]

/-- Adding a plain account appends its row to both. -/
theorem addLogins_of_holds (h : Holds db t) {login password : Bytes} (loginId : Identifier)
    (hlogin : Plain login) (hpassword : Plain password) :
    ∃ (db' : Database E) (t' : Tables),
      (sqlDatabase E).addLogins db login loginId password = some db' ∧
      tableDatabase.addLogins t login loginId password = some t' ∧ Holds db' t' := by
  obtain ⟨st', hdb, hlogins, hhistory⟩ := Database.addLogins_of_bodies hE h.isOpen loginId
    (double_eq_self hlogin.quote_not_mem) (double_eq_self hpassword.quote_not_mem)
    hlogin.zero_not_mem hpassword.zero_not_mem
  refine ⟨_, _, hdb, rfl, h.isOpen, ?_, hhistory.trans h.history, ?_, h.plain_history⟩
  · show E.logins st' = t.logins ++ [⟨login, loginId, password⟩]
    rw [hlogins, h.logins]
  · intro row hrow
    rcases List.mem_append.mp hrow with hold | hnew
    · exact h.plain_logins row hold
    · rw [List.mem_singleton] at hnew
      subst hnew
      exact hpassword

end Refines

end AppChat.Storage
