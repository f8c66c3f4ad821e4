/-
  `Storage.MemorySqlite`: an engine that runs the four statements of
  `database.cpp` and rejects everything else.

  It shows that the assumptions of `Sqlite.Lawful` hold together, and it is the
  engine on which concrete runs of the server are evaluated.
-/
import AppChat.Storage.Database

set_option autoImplicit false

namespace AppChat.Storage

open Foundation Foundation.SqlText

/-- The two tables. -/
structure MemoryStore where
  logins : List LoginsRow
  history : List HistoryRow
  deriving DecidableEq, Repr

namespace MemorySqlite

/-- Read the fixed text `expected`. -/
def expect (expected s : Bytes) : Option Bytes :=
  if expected.isPrefixOf s then some (s.drop expected.length) else none

/-- The bytes of a numeral. -/
def isNumeral (b : UInt8) : Bool := b = 45 || (48 ≤ b && b ≤ 57)

/-- Read a decimal numeral. -/
def readNumeral (s : Bytes) : Identifier × Bytes :=
  (Int32.ofInt (readDecimal (s.takeWhile isNumeral)), s.dropWhile isNumeral)

/-- The row of an insert of `save_text_msg`. -/
def parseInsertHistory (q : Bytes) : Option HistoryRow := do
  let s ← expect (ascii "insert into history values('") q
  let (author, s) ← readLiteral s
  let s ← expect (ascii ", ") s
  let (roomId, s) := readNumeral s
  let s ← expect (ascii ", strftime('%s','" ++ strDatetime ++ ascii "'), '") s
  let (message, s) ← readLiteral s
  let s ← expect (ascii ");") s
  if s = [] then some ⟨author, roomId, message⟩ else none

/-- The row of an insert of `add_logins`. -/
def parseInsertLogins (q : Bytes) : Option LoginsRow := do
  let s ← expect (ascii "insert into logins values('") q
  let (login, s) ← readLiteral s
  let s ← expect (ascii ", ") s
  let (loginId, s) := readNumeral s
  let s ← expect (ascii ", '") s
  let (password, s) ← readLiteral s
  let s ← expect (ascii ");") s
  if s = [] then some ⟨login, loginId, password⟩ else none

/-- The login of a select of `get_loginid` and `check_client`. -/
def parseSelectLogins (q : Bytes) : Option Bytes := do
  let s ← expect (ascii "select * from logins where login=='") q
  let (login, s) ← readLiteral s
  let s ← expect (ascii ";") s
  if s = [] then some login else none

/-- The room of a select of `get_history`. -/
def parseSelectHistory (q : Bytes) : Option Identifier := do
  let s ← expect (ascii "select author, room_id, datetime(datetime, 'unixepoch'), message from history where room_id==") q
  let (roomId, s) := readNumeral s
  let s ← expect (ascii ";") s
  if s = [] then some roomId else none

/-- Run one statement. -/
def exec (st : MemoryStore) (q : Bytes) : MemoryStore × Bool :=
  if endsInLiteral q then (st, false)
  else
    match parseInsertHistory q, parseInsertLogins q with
    | some row, _ => ({ st with history := st.history ++ [row] }, true)
    | none, some row => ({ st with logins := st.logins ++ [row] }, true)
    | none, none => (st, false)

/-- Compile and step one query. -/
def select (st : MemoryStore) (q : Bytes) : Option (List ResultRow) :=
  if endsInLiteral q then none
  else
    match parseSelectLogins q, parseSelectHistory q with
    | some login, _ => some ((st.logins.filter (·.login = login)).map LoginsRow.toResult)
    | none, some roomId =>
        some ((st.history.filter (·.roomId = roomId)).map HistoryRow.toResult)
    | none, none => none

end MemorySqlite

/-- The engine. -/
def memorySqlite : Sqlite where
  Store := MemoryStore
  empty := ⟨[], []⟩
  logins := MemoryStore.logins
  history := MemoryStore.history
  exec := MemorySqlite.exec
  select := MemorySqlite.select

namespace MemorySqlite

/-! ## The statements are read back -/

theorem expect_append (expected s : Bytes) : expect expected (expected ++ s) = some s := by
  simp [expect]

theorem readNumeral_append (n : Identifier) {s : Bytes}
    (hs : ∀ b ∈ s.head?, isNumeral b = false) :
    readNumeral (decimal n.toInt ++ s) = (n, s) := by
  have hdigits : ∀ b ∈ decimal n.toInt, isNumeral b = true := by
    intro b hb
    rcases decimal_byte hb with rfl | ⟨h₁, h₂⟩
    · decide
    · have h₃ : (48 : UInt8) ≤ b := UInt8.le_iff_toNat_le.mpr h₁
      have h₄ : b ≤ (57 : UInt8) := UInt8.le_iff_toNat_le.mpr h₂
      simp [isNumeral, h₃, h₄]
  have hrest : s.takeWhile isNumeral = [] ∧ s.dropWhile isNumeral = s := by
    cases s with
    | nil => exact ⟨rfl, rfl⟩
    | cons b bs =>
        have hb : isNumeral b = false := hs b (by simp)
        simp [hb]
  rw [readNumeral, List.takeWhile_append_of_pos hdigits, List.dropWhile_append_of_pos hdigits,
    hrest.1, hrest.2, List.append_nil, readDecimal_decimal, Int32.ofInt_toInt]

theorem parseInsertHistory_query (a t : Bytes) (roomId : Identifier) :
    parseInsertHistory (insertHistoryQuery (double a) roomId (double t)) =
      some ⟨a, roomId, t⟩ := by
  have hsplit : insertHistoryQuery (double a) roomId (double t) =
      ascii "insert into history values('" ++ (double a ++ quote :: (ascii ", " ++
        (decimal roomId.toInt ++ ((ascii ", strftime('%s','" ++ strDatetime ++ ascii "'), '") ++
          (double t ++ quote :: (ascii ");" ++ [])))))) := by
    have h₁ : ascii "', " = quote :: ascii ", " := by decide
    have h₂ : ascii "');" = quote :: ascii ");" := by decide
    simp [insertHistoryQuery, h₁, h₂]
  have hnumeral : ∀ s : Bytes, readNumeral (decimal roomId.toInt ++
      ((ascii ", strftime('%s','" ++ strDatetime ++ ascii "'), '") ++ s)) =
      (roomId, (ascii ", strftime('%s','" ++ strDatetime ++ ascii "'), '") ++ s) :=
    fun s => readNumeral_append roomId (by intro b hb; cases hb; decide)
  rw [parseInsertHistory, hsplit, expect_append]
  simp only [Option.bind_eq_bind, Option.bind_some]
  rw [readLiteral_double a (by intro b hb; cases hb; decide)]
  simp only [Option.bind_some, expect_append, hnumeral]
  rw [readLiteral_double t (by intro b hb; cases hb; decide)]
  simp only [Option.bind_some, expect_append, if_true]

theorem parseInsertLogins_query (a p : Bytes) (loginId : Identifier) :
    parseInsertLogins (insertLoginsQuery (double a) loginId (double p)) =
      some ⟨a, loginId, p⟩ := by
  have hsplit : insertLoginsQuery (double a) loginId (double p) =
      ascii "insert into logins values('" ++ (double a ++ quote :: (ascii ", " ++
        (decimal loginId.toInt ++ (ascii ", '" ++
          (double p ++ quote :: (ascii ");" ++ [])))))) := by
    have h₁ : ascii "', " = quote :: ascii ", " := by decide
    have h₂ : ascii "');" = quote :: ascii ");" := by decide
    simp [insertLoginsQuery, h₁, h₂]
  have hnumeral : ∀ s : Bytes, readNumeral (decimal loginId.toInt ++ (ascii ", '" ++ s)) =
      (loginId, ascii ", '" ++ s) :=
    fun s => readNumeral_append loginId (by intro b hb; cases hb; decide)
  rw [parseInsertLogins, hsplit, expect_append]
  simp only [Option.bind_eq_bind, Option.bind_some]
  rw [readLiteral_double a (by intro b hb; cases hb; decide)]
  simp only [Option.bind_some, expect_append, hnumeral]
  rw [readLiteral_double p (by intro b hb; cases hb; decide)]
  simp only [Option.bind_some, expect_append, if_true]

theorem parseSelectLogins_query (a : Bytes) :
    parseSelectLogins (selectLoginsQuery (double a)) = some a := by
  have hsplit : selectLoginsQuery (double a) =
      ascii "select * from logins where login=='" ++
        (double a ++ quote :: (ascii ";" ++ [])) := by
    have h₁ : ascii "';" = quote :: ascii ";" := by decide
    simp [selectLoginsQuery, h₁]
  rw [parseSelectLogins, hsplit, expect_append]
  simp only [Option.bind_eq_bind, Option.bind_some]
  rw [readLiteral_double a (by intro b hb; cases hb; decide)]
  simp only [Option.bind_some, expect_append, if_true]

theorem parseSelectHistory_query (roomId : Identifier) :
    parseSelectHistory (selectHistoryQuery roomId) = some roomId := by
  have hsplit : selectHistoryQuery roomId =
      ascii "select author, room_id, datetime(datetime, 'unixepoch'), message from history where room_id==" ++
        (decimal roomId.toInt ++ (ascii ";" ++ [])) := by
    simp [selectHistoryQuery]
  have hnumeral : ∀ s : Bytes, readNumeral (decimal roomId.toInt ++ (ascii ";" ++ s)) =
      (roomId, ascii ";" ++ s) :=
    fun s => readNumeral_append roomId (by intro b hb; cases hb; decide)
  rw [parseSelectHistory, hsplit, expect_append]
  simp only [Option.bind_eq_bind, Option.bind_some, hnumeral]
  rw [expect_append]
  simp only [Option.bind_some, if_true]

/-! ## No other statement is taken for them -/

theorem parseInsertHistory_insertLogins (a p : Bytes) (loginId : Identifier) :
    parseInsertHistory (insertLoginsQuery a loginId p) = none := by
  rfl

theorem parseSelectLogins_selectHistory (roomId : Identifier) :
    parseSelectLogins (selectHistoryQuery roomId) = none := by
  rfl

/-! ## The statements close their literals -/

theorem scan_append_of_false {s t : Bytes} (h : scan false s = some false) :
    scan false (s ++ t) = scan false t := by
  rw [scan_append, h, Option.bind_some]

/-- A literal with a proper body is closed where its closing quote stands. -/
theorem scan_literal {pre : Bytes} (hpre : scan false pre = some true) (s post : Bytes) :
    scan false (pre ++ (double s ++ quote :: post)) = scan false post := by
  rw [scan_append, hpre, Option.bind_some, scan_append, scan_double, Option.bind_some]
  simp [scan]

/-- After a numeral the scan is outside literals, or has given up at a minus
sign. -/
theorem scan_decimal_append_ne {n : Int} {s : Bytes} (hs : scan false s ≠ some true) :
    scan false (decimal n ++ s) ≠ some true := by
  have hquote : quote ∉ decimal n := not_mem_decimal (by decide) (by decide)
  rw [scan_append]
  rcases scan_false_of_quote_not_mem hquote with h | h <;> simp [h, hs]

theorem endsInLiteral_insertHistory (a t : Bytes) (roomId : Identifier) :
    endsInLiteral (insertHistoryQuery (double a) roomId (double t)) = false := by
  have hsplit : insertHistoryQuery (double a) roomId (double t) =
      ascii "insert into history values('" ++ (double a ++ quote :: (ascii ", " ++
        (decimal roomId.toInt ++ ((ascii ", strftime('%s','" ++ strDatetime ++ ascii "'), '") ++
          (double t ++ quote :: ascii ");"))))) := by
    have h₁ : ascii "', " = quote :: ascii ", " := by decide
    have h₂ : ascii "');" = quote :: ascii ");" := by decide
    simp [insertHistoryQuery, h₁, h₂]
  have htail : scan false ((ascii ", strftime('%s','" ++ strDatetime ++ ascii "'), '") ++
      (double t ++ quote :: ascii ");")) ≠ some true := by
    rw [scan_literal (by decide)]
    decide
  rw [endsInLiteral, decide_eq_false_iff_not, hsplit, scan_literal (by decide),
    scan_append_of_false (by decide)]
  exact scan_decimal_append_ne htail

theorem endsInLiteral_insertLogins (a p : Bytes) (loginId : Identifier) :
    endsInLiteral (insertLoginsQuery (double a) loginId (double p)) = false := by
  have hsplit : insertLoginsQuery (double a) loginId (double p) =
      ascii "insert into logins values('" ++ (double a ++ quote :: (ascii ", " ++
        (decimal loginId.toInt ++ (ascii ", '" ++ (double p ++ quote :: ascii ");"))))) := by
    have h₁ : ascii "', " = quote :: ascii ", " := by decide
    have h₂ : ascii "');" = quote :: ascii ");" := by decide
    simp [insertLoginsQuery, h₁, h₂]
  have htail : scan false (ascii ", '" ++ (double p ++ quote :: ascii ");")) ≠ some true := by
    rw [scan_literal (by decide)]
    decide
  rw [endsInLiteral, decide_eq_false_iff_not, hsplit, scan_literal (by decide),
    scan_append_of_false (by decide)]
  exact scan_decimal_append_ne htail

theorem endsInLiteral_selectLogins (a : Bytes) :
    endsInLiteral (selectLoginsQuery (double a)) = false := by
  have hsplit : selectLoginsQuery (double a) =
      ascii "select * from logins where login=='" ++ (double a ++ quote :: ascii ";") := by
    have h₁ : ascii "';" = quote :: ascii ";" := by decide
    simp [selectLoginsQuery, h₁]
  rw [endsInLiteral, decide_eq_false_iff_not, hsplit, scan_literal (by decide)]
  decide

theorem endsInLiteral_selectHistory (roomId : Identifier) :
    endsInLiteral (selectHistoryQuery roomId) = false := by
  rw [endsInLiteral, decide_eq_false_iff_not, selectHistoryQuery, List.append_assoc,
    scan_append_of_false (by decide)]
  exact scan_decimal_append_ne (by decide)

/-! ## What the engine does with each statement -/

theorem exec_insertHistory (st : MemoryStore) (a t : Bytes) (roomId : Identifier) :
    exec st (insertHistoryQuery (double a) roomId (double t)) =
      ({ st with history := st.history ++ [⟨a, roomId, t⟩] }, true) := by
  simp only [exec, endsInLiteral_insertHistory, parseInsertHistory_query]
  rfl

theorem exec_insertLogins (st : MemoryStore) (a p : Bytes) (loginId : Identifier) :
    exec st (insertLoginsQuery (double a) loginId (double p)) =
      ({ st with logins := st.logins ++ [⟨a, loginId, p⟩] }, true) := by
  simp only [exec, endsInLiteral_insertLogins, parseInsertHistory_insertLogins,
    parseInsertLogins_query]
  rfl

theorem select_selectLogins (st : MemoryStore) (a : Bytes) :
    select st (selectLoginsQuery (double a)) =
      some ((st.logins.filter (·.login = a)).map LoginsRow.toResult) := by
  simp only [select, endsInLiteral_selectLogins, parseSelectLogins_query]
  rfl

theorem select_selectHistory (st : MemoryStore) (roomId : Identifier) :
    select st (selectHistoryQuery roomId) =
      some ((st.history.filter (·.roomId = roomId)).map HistoryRow.toResult) := by
  simp only [select, endsInLiteral_selectHistory, parseSelectLogins_selectHistory,
    parseSelectHistory_query]
  rfl

end MemorySqlite

/-- The assumptions on SQLite are met by a concrete engine. -/
theorem memorySqlite_lawful : memorySqlite.Lawful where
  logins_empty := rfl
  history_empty := rfl
  exec_insertHistory st a t roomId _ _ :=
    ⟨_, MemorySqlite.exec_insertHistory st a t roomId, rfl, rfl⟩
  exec_insertLogins st a p loginId _ _ :=
    ⟨_, MemorySqlite.exec_insertLogins st a p loginId, rfl, rfl⟩
  select_logins st a _ := MemorySqlite.select_selectLogins st a
  select_history st roomId := MemorySqlite.select_selectHistory st roomId
  exec_unterminated _ _ h := if_pos h
  select_unterminated _ _ h := if_pos h

instance : DecidableEq (Database memorySqlite) := fun a b =>
  haveI : DecidableEq memorySqlite.Store := inferInstanceAs (DecidableEq MemoryStore)
  decidable_of_iff (a.isOpen = b.isOpen ∧ a.store = b.store) (by
    cases a
    cases b
    simp)

end AppChat.Storage
