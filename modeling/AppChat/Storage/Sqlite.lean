/-
  `Storage.Sqlite`: the statements `storage/database.cpp` sends to SQLite, and
  what it relies on there.

  SQLite itself is not part of the repository.  An engine is a parameter: a type
  of database contents with `sqlite3_exec` and the prepare/step loop as
  functions of the statement text.  `Sqlite.Lawful` lists the documented
  behaviour the server counts on.  It is stated over the statement texts the
  server builds, with the two strings between the quotes written as the bodies
  of proper literals; nothing is assumed about any other text, save that a text
  that ends inside a literal does not parse.
-/
import AppChat.Protocol.CommandTable
import AppChat.Foundation.SqlText

set_option autoImplicit false

namespace AppChat.Storage

open Foundation Foundation.SqlText

/-! ## Rows -/

/-- A row of the table `logins`. -/
structure LoginsRow where
  login : Bytes
  loginId : Identifier
  password : Bytes
  deriving DecidableEq, Repr

/-- A row of the table `history`.  The `datetime` column always holds the
same constant and is left out. -/
structure HistoryRow where
  author : Bytes
  roomId : Identifier
  message : Bytes
  deriving DecidableEq, Repr

/-- A row of a result, through the two accessors the program uses.
`columnBlob` is `none` where `sqlite3_column_blob` returns a NULL pointer. -/
structure ResultRow where
  columnInt : Nat → Identifier
  columnBlob : Nat → Option Bytes

/-- `sqlite3_column_blob` of a text value: NULL when the text is empty. -/
def columnBlobOfText (s : Bytes) : Option Bytes :=
  if s = [] then none else some s

/-- The constant `str_datetime` of `save_text_msg`. -/
def strDatetime : Bytes := ascii "2000-01-01 09:15:12"

/-- A row of `select * from logins`. -/
def LoginsRow.toResult (row : LoginsRow) : ResultRow where
  columnInt
    | 1 => row.loginId
    | _ => 0
  columnBlob
    | 0 => columnBlobOfText row.login
    | 2 => columnBlobOfText row.password
    | _ => none

/-- A row of `select author, room_id, datetime(..), message from history`. -/
def HistoryRow.toResult (row : HistoryRow) : ResultRow where
  columnInt
    | 1 => row.roomId
    | _ => 0
  columnBlob
    | 0 => columnBlobOfText row.author
    | 2 => some strDatetime
    | 3 => columnBlobOfText row.message
    | _ => none

/-! ## The statements of `database.cpp`

Each is the text the source concatenates, with the strings put in as they are. -/

/-- The insert of `save_text_msg`. -/
def insertHistoryQuery (login : Bytes) (roomId : Identifier) (text : Bytes) : Bytes :=
  ascii "insert into history values('" ++ login ++ ascii "', " ++
    decimal roomId.toInt ++ ascii ", strftime('%s','" ++ strDatetime ++
    ascii "'), '" ++ text ++ ascii "');"

/-- The select of `get_history`. -/
def selectHistoryQuery (roomId : Identifier) : Bytes :=
  ascii "select author, room_id, datetime(datetime, 'unixepoch'), message from history where room_id==" ++
    decimal roomId.toInt ++ ascii ";"

/-- The insert of `add_logins`. -/
def insertLoginsQuery (login : Bytes) (loginId : Identifier) (password : Bytes) : Bytes :=
  ascii "insert into logins values('" ++ login ++ ascii "', " ++
    decimal loginId.toInt ++ ascii ", '" ++ password ++ ascii "');"

/-- The select of `get_loginid` and `check_client`. -/
def selectLoginsQuery (login : Bytes) : Bytes :=
  ascii "select * from logins where login=='" ++ login ++ ascii "';"

theorem zero_not_mem_decimal (n : Int) : 0 ∉ decimal n :=
  not_mem_decimal (by decide) (by decide)

theorem zero_mem_insertHistoryQuery {login text : Bytes} {roomId : Identifier} :
    0 ∈ insertHistoryQuery login roomId text ↔ 0 ∈ login ∨ 0 ∈ text := by
  have hdec := zero_not_mem_decimal roomId.toInt
  have h₁ : 0 ∉ ascii "insert into history values('" := by decide
  have h₂ : 0 ∉ ascii "', " := by decide
  have h₃ : 0 ∉ ascii ", strftime('%s','" := by decide
  have h₄ : 0 ∉ strDatetime := by decide
  have h₅ : 0 ∉ ascii "'), '" := by decide
  have h₆ : 0 ∉ ascii "');" := by decide
  simp [insertHistoryQuery, hdec, h₁, h₂, h₃, h₄, h₅, h₆]

theorem zero_mem_insertLoginsQuery {login password : Bytes} {loginId : Identifier} :
    0 ∈ insertLoginsQuery login loginId password ↔ 0 ∈ login ∨ 0 ∈ password := by
  have hdec := zero_not_mem_decimal loginId.toInt
  have h₁ : 0 ∉ ascii "insert into logins values('" := by decide
  have h₂ : 0 ∉ ascii "', " := by decide
  have h₃ : 0 ∉ ascii ", '" := by decide
  have h₄ : 0 ∉ ascii "');" := by decide
  simp [insertLoginsQuery, hdec, h₁, h₂, h₃, h₄]

theorem zero_mem_selectLoginsQuery {login : Bytes} :
    0 ∈ selectLoginsQuery login ↔ 0 ∈ login := by
  have h₁ : 0 ∉ ascii "select * from logins where login=='" := by decide
  have h₂ : 0 ∉ ascii "';" := by decide
  simp [selectLoginsQuery, h₁, h₂]

theorem zero_not_mem_selectHistoryQuery (roomId : Identifier) :
    0 ∉ selectHistoryQuery roomId := by
  have hdec := zero_not_mem_decimal roomId.toInt
  have h₁ : 0 ∉ ascii "select author, room_id, datetime(datetime, 'unixepoch'), message from history where room_id==" := by
    decide
  have h₂ : 0 ∉ ascii ";" := by decide
  simp [selectHistoryQuery, hdec, h₁, h₂]

/-! ## The engine -/

/-- An SQL engine: the contents of a database file, the two tables in it, and
the two ways the server runs statements.

`exec` is `sqlite3_exec` on an open handle, with `true` for `SQLITE_OK`.
`select` is `sqlite3_prepare_v2` followed by `sqlite3_step` up to the last row,
with `none` when the statement does not compile. -/
structure Sqlite where
  Store : Type
  empty : Store
  logins : Store → List LoginsRow
  history : Store → List HistoryRow
  exec : Store → Bytes → Store × Bool
  select : Store → Bytes → Option (List ResultRow)

/-- The documented behaviour of SQLite the server relies on. -/
structure Sqlite.Lawful (E : Sqlite) : Prop where
  /-- `create table if not exists` makes an empty table in a new file. -/
  logins_empty : E.logins E.empty = []
  history_empty : E.history E.empty = []
  /-- An insert of literals appends one row and touches no other table. -/
  exec_insertHistory : ∀ (st : E.Store) (a t : Bytes) (roomId : Identifier),
    0 ∉ a → 0 ∉ t →
      ∃ st', E.exec st (insertHistoryQuery (double a) roomId (double t)) = (st', true) ∧
        E.logins st' = E.logins st ∧ E.history st' = E.history st ++ [⟨a, roomId, t⟩]
  exec_insertLogins : ∀ (st : E.Store) (a p : Bytes) (loginId : Identifier),
    0 ∉ a → 0 ∉ p →
      ∃ st', E.exec st (insertLoginsQuery (double a) loginId (double p)) = (st', true) ∧
        E.logins st' = E.logins st ++ [⟨a, loginId, p⟩] ∧ E.history st' = E.history st
  /-- A select returns the rows of its table that match, in insertion order. -/
  select_logins : ∀ (st : E.Store) (a : Bytes), 0 ∉ a →
    E.select st (selectLoginsQuery (double a)) =
      some (((E.logins st).filter (·.login = a)).map LoginsRow.toResult)
  select_history : ∀ (st : E.Store) (roomId : Identifier),
    E.select st (selectHistoryQuery roomId) =
      some (((E.history st).filter (·.roomId = roomId)).map HistoryRow.toResult)
  /-- A literal that is never closed is no token: the statement does not parse,
  and nothing is run. -/
  exec_unterminated : ∀ (st : E.Store) (q : Bytes), endsInLiteral q = true →
    E.exec st q = (st, false)
  select_unterminated : ∀ (st : E.Store) (q : Bytes), endsInLiteral q = true →
    E.select st q = none

end AppChat.Storage
