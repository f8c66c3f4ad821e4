/-
  `Storage.HistoryFaithful`: what comes back from the history.

  A message goes into the table as SQL text and comes out through column
  pointers.  It survives both exactly when its two strings are plain: a quote
  changes the literal, a NUL byte ends the text, and the pointer to an empty text
  is NULL.
-/
import AppChat.Storage.MemorySqlite
import AppChat.Storage.DatabaseOps

set_option autoImplicit false

namespace AppChat.Storage

open Foundation Foundation.SqlText

/-- What happens to the storage: a message is saved, or the server is restarted. -/
inductive StorageCall where
  | saveTextMsg (msg : TextSendData)
  | restart
  deriving DecidableEq, Repr

/-- The messages of the calls, in order. -/
def savedMessages : List StorageCall → List TextSendData
  | [] => []
  | .saveTextMsg msg :: calls => msg :: savedMessages calls
  | .restart :: calls => savedMessages calls

namespace Database

variable {E : Sqlite}

/-- `Database::Database` on a file with the contents `st`, in the branch in which the file
opens and both tables are there; in the others `db_ptr` is NULL from the start. -/
def ofFile (st : E.Store) : Database E := ⟨true, st⟩

/-- What a call does to the object. -/
def call (db : Database E) : StorageCall → Database E
  | .saveTextMsg msg => db.saveTextMsg msg
  | .restart => ofFile db.store

/-- The calls, from an empty file on. -/
def afterCalls (E : Sqlite) (calls : List StorageCall) : Database E :=
  calls.foldl call (ofFile E.empty)

/-- After the calls, the history of every room is the messages saved for it. -/
def Faithful (E : Sqlite) (calls : List StorageCall) : Prop :=
  ∀ roomId, ((afterCalls E calls).getHistory roomId).2 =
    some ((savedMessages calls).filter (·.roomId = roomId))

/-! ## Plain messages come back -/

theorem holds_foldl_call (hE : E.Lawful) {calls : List StorageCall}
    (hplain : ∀ msg ∈ savedMessages calls, Plain msg.login ∧ Plain msg.text)
    {db : Database E} {t : Tables} (h : Holds db t) :
    Holds (calls.foldl call db) { t with history := t.history ++ savedMessages calls } := by
  induction calls generalizing db t with
  | nil =>
      rw [savedMessages, List.append_nil]
      exact h
  | cons c calls ih =>
      cases c with
      | saveTextMsg msg =>
          obtain ⟨⟨hlogin, htext⟩, hrest⟩ := List.forall_mem_cons.mp hplain
          have hsaved := ih hrest (saveTextMsg_of_holds hE h hlogin htext)
          rw [savedMessages, List.append_cons]
          exact hsaved
      | restart =>
          have hopen : Holds (ofFile db.store) t := ⟨rfl, h.logins, h.history,
            h.plain_logins, h.plain_history⟩
          exact ih hplain hopen

theorem faithful_of_plain (hE : E.Lawful) {calls : List StorageCall}
    (hplain : ∀ msg ∈ savedMessages calls, Plain msg.login ∧ Plain msg.text) :
    Faithful E calls := by
  have hempty : Holds (ofFile E.empty) ⟨[], []⟩ := by
    refine ⟨rfl, hE.logins_empty, hE.history_empty, ?_, ?_⟩
    · intro row hrow
      cases hrow
    · intro msg hmsg
      cases hmsg
  intro roomId
  have hload := getHistory_of_holds hE (holds_foldl_call hE hplain hempty) roomId
  exact congrArg Prod.snd hload

end Database

/-! ## Nothing else does

An engine is free to reject a statement that is no insert of proper literals.  One that
does stores at most one row for a message, and only a row that makes the same text. -/

/-- The statement is the insert of the row. -/
def IsInsertOf (q : Bytes) (row : HistoryRow) : Prop :=
  q = insertHistoryQuery (double row.author) row.roomId (double row.message)

instance (q : Bytes) (row : HistoryRow) : Decidable (IsInsertOf q row) :=
  inferInstanceAs (Decidable (_ = _))

namespace StrictSqlite

/-- Run one statement; an insert must be written the way the server writes it. -/
def exec (st : MemoryStore) (q : Bytes) : MemoryStore × Bool :=
  match MemorySqlite.parseInsertHistory q with
  | some row => if IsInsertOf q row then MemorySqlite.exec st q else (st, false)
  | none => MemorySqlite.exec st q

theorem exec_insertHistory (st : MemoryStore) (a t : Bytes) (roomId : Identifier) :
    exec st (insertHistoryQuery (double a) roomId (double t)) =
      ({ st with history := st.history ++ [⟨a, roomId, t⟩] }, true) := by
  have hinsert : IsInsertOf (insertHistoryQuery (double a) roomId (double t)) ⟨a, roomId, t⟩ := rfl
  rw [exec, MemorySqlite.parseInsertHistory_query]
  simp only [if_pos hinsert]
  exact MemorySqlite.exec_insertHistory st a t roomId

theorem exec_of_none {q : Bytes} (h : MemorySqlite.parseInsertHistory q = none)
    (st : MemoryStore) : exec st q = MemorySqlite.exec st q := by
  simp only [exec, h]

theorem exec_of_some {q : Bytes} {row : HistoryRow}
    (h : MemorySqlite.parseInsertHistory q = some row) (st : MemoryStore) :
    exec st q = if IsInsertOf q row then MemorySqlite.exec st q else (st, false) := by
  simp only [exec, h]

theorem exec_of_endsInLiteral {q : Bytes} (h : endsInLiteral q = true) (st : MemoryStore) :
    exec st q = (st, false) := by
  have hmemory : MemorySqlite.exec st q = (st, false) := if_pos h
  rcases hparse : MemorySqlite.parseInsertHistory q with _ | row
  · rw [exec_of_none hparse, hmemory]
  · rw [exec_of_some hparse, hmemory, ite_self]

end StrictSqlite

/-- The engine. -/
def strictSqlite : Sqlite := { memorySqlite with exec := StrictSqlite.exec }

theorem strictSqlite_exec (st : MemoryStore) (q : Bytes) :
    strictSqlite.exec st q = StrictSqlite.exec st q := rfl

theorem strictSqlite_lawful : strictSqlite.Lawful where
  logins_empty := rfl
  history_empty := rfl
  exec_insertHistory st a t roomId _ _ :=
    ⟨_, (strictSqlite_exec st _).trans (StrictSqlite.exec_insertHistory st a t roomId), rfl, rfl⟩
  exec_insertLogins st a p loginId _ _ := by
    have hexec := (strictSqlite_exec st _).trans (StrictSqlite.exec_of_none
      (MemorySqlite.parseInsertHistory_insertLogins (double a) (double p) loginId) st)
    exact ⟨_, hexec.trans (MemorySqlite.exec_insertLogins st a p loginId), rfl, rfl⟩
  select_logins st a _ := MemorySqlite.select_selectLogins st a
  select_history st roomId := MemorySqlite.select_selectHistory st roomId
  exec_unterminated st q h :=
    (strictSqlite_exec st q).trans (StrictSqlite.exec_of_endsInLiteral h st)
  select_unterminated _ _ h := if_pos h

/-- The row of the table `history` a statement adds. -/
theorem StrictSqlite.exec_history (st : MemoryStore) (q : Bytes) :
    (exec st q).1.history = st.history ∨
      ∃ row, IsInsertOf q row ∧ (exec st q).1.history = st.history ++ [row] := by
  rcases hparse : MemorySqlite.parseInsertHistory q with _ | row
  · refine Or.inl ?_
    simp only [exec_of_none hparse, MemorySqlite.exec, hparse]
    split
    · rfl
    · cases MemorySqlite.parseInsertLogins q with
      | none => rfl
      | some row => rfl
  · rw [exec_of_some hparse]
    split
    · rename_i hinsert
      simp only [MemorySqlite.exec, hparse]
      split
      · exact Or.inl rfl
      · exact Or.inr ⟨row, hinsert, rfl⟩
    · exact Or.inl rfl

namespace Database

variable {E : Sqlite}

/-- The text that is run for a message is the insert of the row. -/
def Stores (msg : TextSendData) (row : HistoryRow) : Prop :=
  IsInsertOf (cString (insertHistoryQuery msg.login msg.roomId msg.text)) row

/-- What an open handle has in its file after a message. -/
theorem saveTextMsg_store {db : Database E} (hopen : db.isOpen = true) (msg : TextSendData) :
    (db.saveTextMsg msg).store =
      (E.exec db.store (cString (insertHistoryQuery msg.login msg.roomId msg.text))).1 := by
  rw [saveTextMsg, exec, if_pos hopen]
  dsimp only
  split
  · rfl
  · rfl

theorem saveTextMsg_history (db : Database strictSqlite) (msg : TextSendData) :
    (db.saveTextMsg msg).store.history = db.store.history ∨
      ∃ row, Stores msg row ∧ (db.saveTextMsg msg).store.history = db.store.history ++ [row] := by
  rcases hopen : db.isOpen with _ | _
  · rw [saveTextMsg_of_closed hopen]
    exact Or.inl rfl
  · rw [saveTextMsg_store hopen]
    exact StrictSqlite.exec_history db.store _

/-- The rows of the table come from some of the messages, in order. -/
theorem exists_stored (calls : List StorageCall) (db : Database strictSqlite) :
    ∃ (msgs : List TextSendData) (rows : List HistoryRow),
      msgs.Sublist (savedMessages calls) ∧ List.Forall₂ Stores msgs rows ∧
      (calls.foldl call db).store.history = db.store.history ++ rows := by
  induction calls generalizing db with
  | nil => exact ⟨[], [], List.Sublist.refl _, List.Forall₂.nil, (List.append_nil _).symm⟩
  | cons c calls ih =>
      obtain ⟨msgs, rows, hsub, hstores, hhistory⟩ := ih (db.call c)
      cases c with
      | restart => exact ⟨msgs, rows, hsub, hstores, hhistory⟩
      | saveTextMsg msg =>
          rcases saveTextMsg_history db msg with hsame | ⟨row, hrow, hadded⟩
          · refine ⟨msgs, rows, hsub.cons msg, hstores, ?_⟩
            rw [← hsame]
            exact hhistory
          · refine ⟨msg :: msgs, row :: rows, hsub.cons_cons msg, hstores.cons hrow, ?_⟩
            rw [List.append_cons, ← hadded]
            exact hhistory

/-! ### The messages are the rows -/

/-- The message a row is read back as. -/
def messageOf (row : HistoryRow) : TextSendData :=
  ⟨row.roomId, cString row.author, cString row.message⟩

/-- A history that loads is that of its rows, and no text of them is empty. -/
theorem mapM_historyEntry_eq {rows : List HistoryRow} {msgs : List TextSendData}
    (h : (rows.map HistoryRow.toResult).mapM historyEntry = some msgs) :
    msgs = rows.map messageOf ∧ ∀ row ∈ rows, row.author ≠ [] ∧ row.message ≠ [] := by
  have hne : ∀ row ∈ rows, row.author ≠ [] ∧ row.message ≠ [] := by
    rw [← mapM_historyEntry_ne_none, h]
    exact Option.some_ne_none msgs
  refine ⟨?_, hne⟩
  have hloads : (rows.map HistoryRow.toResult).mapM historyEntry = some (rows.map messageOf) := by
    clear h
    induction rows with
    | nil => rfl
    | cons row rows ih =>
        obtain ⟨hrow, hrows⟩ := List.forall_mem_cons.mp hne
        rw [List.map_cons, List.mapM_cons, historyEntry_toResult,
          if_neg (not_or.mpr hrow), ih hrows]
        rfl
  exact Option.some.inj (h.symm.trans hloads)

/-- Two lists with the same messages of every room are the same up to order. -/
theorem perm_of_filter_roomId {xs ys : List TextSendData}
    (h : ∀ roomId, xs.filter (·.roomId = roomId) = ys.filter (·.roomId = roomId)) :
    xs.Perm ys := by
  refine List.perm_iff_count.mpr ?_
  intro msg
  have hcount := congrArg (List.count msg) (h msg.roomId)
  rwa [List.count_filter (by simp), List.count_filter (by simp)] at hcount

/-- A faithful history is that of an open handle, or nothing was saved. -/
theorem perm_of_faithful {calls : List StorageCall} (h : Faithful strictSqlite calls) :
    savedMessages calls = [] ∨
      ((afterCalls strictSqlite calls).store.history.map messageOf).Perm (savedMessages calls) ∧
        ∀ row ∈ (afterCalls strictSqlite calls).store.history,
          row.author ≠ [] ∧ row.message ≠ [] := by
  let db := afterCalls strictSqlite calls
  rcases hopen : db.isOpen with _ | _
  · refine Or.inl (List.eq_nil_iff_forall_not_mem.mpr ?_)
    intro msg hmsg
    have hload := h msg.roomId
    rw [getHistory, select_of_closed hopen, Option.some.injEq] at hload
    have hmem : msg ∈ (savedMessages calls).filter (·.roomId = msg.roomId) :=
      List.mem_filter.mpr ⟨hmsg, decide_eq_true rfl⟩
    rw [← hload] at hmem
    cases hmem
  · have hrows : ∀ roomId, (savedMessages calls).filter (·.roomId = roomId) =
        (db.store.history.filter (·.roomId = roomId)).map messageOf ∧
        ∀ row ∈ db.store.history.filter (·.roomId = roomId),
          row.author ≠ [] ∧ row.message ≠ [] := by
      intro roomId
      have hload := h roomId
      rw [getHistory, select_historyQuery strictSqlite_lawful hopen] at hload
      exact mapM_historyEntry_eq hload
    refine Or.inr ⟨perm_of_filter_roomId ?_, ?_⟩
    · intro roomId
      rw [(hrows roomId).1, List.filter_map]
      rfl
    · intro row hrow
      exact (hrows row.roomId).2 row (List.mem_filter.mpr ⟨hrow, decide_eq_true rfl⟩)

/-! ### No text has a quote

The rows are the messages up to order, so their inserts are together as long as those of
the messages.  But each message's insert is longer than that of the row it stores, by the
quotes that had to be doubled. -/

/-- The length of the insert of a message. -/
def insertLength (msg : TextSendData) : Nat :=
  (insertHistoryQuery msg.login msg.roomId msg.text).length

/-- The quotes in a message. -/
def quotes (msg : TextSendData) : Nat := msg.login.count quote + msg.text.count quote

theorem insertLength_eq (msg : TextSendData) :
    insertLength msg = (insertHistoryQuery [] msg.roomId []).length +
      msg.login.length + msg.text.length := by
  simp only [insertLength, insertHistoryQuery, List.length_append, List.length_nil]
  omega

theorem Stores.zero_not_mem {msg : TextSendData} {row : HistoryRow} (h : Stores msg row) :
    0 ∉ row.author ∧ 0 ∉ row.message := by
  have hzero := zero_not_mem_cString (insertHistoryQuery msg.login msg.roomId msg.text)
  rw [h, zero_mem_insertHistoryQuery, zero_mem_double, zero_mem_double] at hzero
  exact not_or.mp hzero

theorem zero_not_mem_rows {msgs : List TextSendData} {rows : List HistoryRow}
    (h : List.Forall₂ Stores msgs rows) : ∀ row ∈ rows, 0 ∉ row.author ∧ 0 ∉ row.message := by
  induction h with
  | nil =>
      intro row hrow
      cases hrow
  | cons hstores _ ih => exact List.forall_mem_cons.mpr ⟨hstores.zero_not_mem, ih⟩

theorem Stores.insertLength_eq {msg : TextSendData} {row : HistoryRow} (h : Stores msg row)
    (hzero : 0 ∉ msg.login ∧ 0 ∉ msg.text) :
    insertLength msg = insertLength (messageOf row) + quotes (messageOf row) := by
  obtain ⟨hauthor, hmessage⟩ := h.zero_not_mem
  have hquery : 0 ∉ insertHistoryQuery msg.login msg.roomId msg.text := by
    rw [zero_mem_insertHistoryQuery]
    exact not_or.mpr hzero
  have hlength := congrArg List.length h
  rw [cString_of_not_mem hquery] at hlength
  have hrow := Database.insertLength_eq ⟨row.roomId, double row.author, double row.message⟩
  have hmsg := Database.insertLength_eq (messageOf row)
  simp only [insertLength, quotes, messageOf, cString_of_not_mem hauthor,
    cString_of_not_mem hmessage, length_double] at *
  omega

theorem sum_insertLength {msgs : List TextSendData} {rows : List HistoryRow}
    (h : List.Forall₂ Stores msgs rows) (hzero : ∀ msg ∈ msgs, 0 ∉ msg.login ∧ 0 ∉ msg.text) :
    (msgs.map insertLength).sum = ((rows.map messageOf).map insertLength).sum +
      ((rows.map messageOf).map quotes).sum := by
  induction h with
  | nil => rfl
  | cons hstores _ ih =>
      obtain ⟨hmsg, hmsgs⟩ := List.forall_mem_cons.mp hzero
      have hfirst := hstores.insertLength_eq hmsg
      have hrest := ih hmsgs
      simp only [List.map_cons, List.sum_cons]
      omega

/-- Faithful histories are those of plain messages. -/
theorem plain_of_faithful {calls : List StorageCall} (h : Faithful strictSqlite calls) :
    ∀ msg ∈ savedMessages calls, Plain msg.login ∧ Plain msg.text := by
  rcases perm_of_faithful h with hnil | ⟨hperm, hne⟩
  · rw [hnil]
    intro msg hmsg
    cases hmsg
  obtain ⟨msgs, rows, hsub, hstores, hhistory⟩ :=
    exists_stored calls (ofFile strictSqlite.empty)
  have hrows : (afterCalls strictSqlite calls).store.history = rows := hhistory
  rw [hrows] at hperm hne
  -- as many rows as messages: every message is stored
  have hall : msgs = savedMessages calls := by
    refine hsub.eq_of_length ?_
    rw [hstores.length_eq, ← hperm.length_eq, List.length_map]
  subst hall
  have hzero : ∀ msg ∈ savedMessages calls, 0 ∉ msg.login ∧ 0 ∉ msg.text := by
    intro msg hmsg
    obtain ⟨row, -, rfl⟩ := List.mem_map.mp (hperm.mem_iff.mpr hmsg)
    exact ⟨zero_not_mem_cString _, zero_not_mem_cString _⟩
  have hquotes : ((rows.map messageOf).map quotes).sum = 0 := by
    have hsum := sum_insertLength hstores hzero
    have hsame := (hperm.map insertLength).sum_eq
    omega
  intro msg hmsg
  have hmem := hperm.mem_iff.mpr hmsg
  have hquote : quotes msg = 0 :=
    List.sum_eq_zero_iff.mp hquotes _ (List.mem_map_of_mem hmem)
  obtain ⟨row, hrow, rfl⟩ := List.mem_map.mp hmem
  obtain ⟨hauthor, hmessage⟩ := zero_not_mem_rows hstores row hrow
  obtain ⟨hlogin, htext⟩ := Nat.add_eq_zero_iff.mp hquote
  refine ⟨⟨?_, List.count_eq_zero.mp hlogin, (hzero _ hmsg).1⟩,
    ⟨?_, List.count_eq_zero.mp htext, (hzero _ hmsg).2⟩⟩
  · show cString row.author ≠ []
    rw [cString_of_not_mem hauthor]
    exact (hne row hrow).1
  · show cString row.message ≠ []
    rw [cString_of_not_mem hmessage]
    exact (hne row hrow).2

/-- **What comes back from the history.**  Over every SQLite that behaves as documented,
the messages saved come back in every room, after any number of restarts, exactly when no
login and no text of them is empty, has a quote or has a NUL byte. -/
theorem faithful_iff (calls : List StorageCall) :
    (∀ E : Sqlite, E.Lawful → Faithful E calls) ↔
      ∀ msg ∈ savedMessages calls, Plain msg.login ∧ Plain msg.text := by
  constructor
  · intro h
    exact plain_of_faithful (h strictSqlite strictSqlite_lawful)
  · intro hplain E hE
    exact faithful_of_plain hE hplain

/-- An empty text in room 5: opening the room throws. -/
theorem not_faithful_empty :
    ¬ ∀ E : Sqlite, E.Lawful → ∀ calls : List StorageCall, Faithful E calls := by
  intro h
  let msg : TextSendData := ⟨5, ascii "u", []⟩
  have hfaithful := h memorySqlite memorySqlite_lawful [.saveTextMsg msg] 5
  have hload : ((afterCalls memorySqlite [.saveTextMsg msg]).getHistory 5).2 ≠ none := by
    rw [hfaithful]
    exact Option.some_ne_none _
  obtain ⟨st, hsaved, -, hhistory⟩ := @saveTextMsg_of_bodies _ memorySqlite_lawful
    (ofFile memorySqlite.empty) rfl msg (ascii "u") [] rfl rfl (by decide) (by decide)
  simp only [afterCalls, List.foldl_cons, List.foldl_nil, call, hsaved] at hload
  rw [getHistory_ne_none_iff memorySqlite_lawful, hhistory] at hload
  have hrow := hload rfl ⟨ascii "u", 5, []⟩ (List.mem_append_right _ (List.mem_singleton.mpr rfl))
  exact (hrow rfl).2 rfl

end Database

end AppChat.Storage
