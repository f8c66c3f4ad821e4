/-
  `Storage.ChatSafety`: what a chat message can do to the accounts.

  `save_text_msg` puts two strings of the client into SQL text and closes the
  shared handle when the text does not run; and `get_history` throws on a row with
  an empty string.  A message leaves the accounts, the handle and the rooms alone
  exactly when the text is the one insert it was meant to be, of a row that can be
  read back.
-/
import AppChat.Storage.MemorySqlite

set_option autoImplicit false

namespace AppChat.Storage

open Foundation Foundation.SqlText

namespace Database

variable {E : Sqlite}

/-- The handle works: an insert of proper literals adds its row, and the select of any room
returns the rows of the room. -/
structure Works (db : Database E) : Prop where
  saves : ∀ (a t : Bytes) (roomId : Identifier), 0 ∉ a → 0 ∉ t →
    E.history (db.saveTextMsg ⟨roomId, double a, double t⟩).store =
      E.history db.store ++ [⟨a, roomId, t⟩]
  selects : ∀ roomId : Identifier, db.select (selectHistoryQuery roomId) =
    some (((E.history db.store).filter (·.roomId = roomId)).map HistoryRow.toResult)

/-- Saving `msg` changes neither the table `logins` nor what the look-ups of the
login `l` return, and leaves an open handle in working order; and every room that
could be loaded can be loaded still, with all that it had. -/
structure KeepsAccount (db : Database E) (msg : TextSendData) (l : Bytes) : Prop where
  logins : E.logins (db.saveTextMsg msg).store = E.logins db.store
  checkClient : ∀ p, (db.saveTextMsg msg).checkClient l p = db.checkClient l p
  getLoginid : (db.saveTextMsg msg).getLoginid l = db.getLoginid l
  works : db.isOpen = true → (db.saveTextMsg msg).Works
  loads : ∀ roomId history, (db.getHistory roomId).2 = some history →
    ∃ more, ((db.saveTextMsg msg).getHistory roomId).2 = some (history ++ more)

theorem works_of_open (hE : E.Lawful) {db : Database E} (hopen : db.isOpen = true) :
    db.Works where
  saves a t roomId ha ht := by
    let msg : TextSendData := ⟨roomId, double a, double t⟩
    have hlogin : double a = msg.login := rfl
    have htext : double t = msg.text := rfl
    obtain ⟨st', hdb, _, hhistory⟩ := saveTextMsg_of_bodies hE hopen hlogin htext ha ht
    rw [hdb]
    exact hhistory
  selects := select_historyQuery hE hopen

/-- A NULL handle stores nothing. -/
theorem not_works_of_closed {db : Database E} (hclosed : db.isOpen = false) :
    ¬ db.Works := by
  intro h
  have hselects := h.selects 0
  rw [select_of_closed hclosed] at hselects
  cases hselects

end Database

/-! ## The condition -/

/-- What SQLite is handed for `msg` is one insert of two proper literals.  In
particular neither string ends its literal early or leaves it open. -/
def OneInsert (msg : TextSendData) : Prop :=
  ∃ (a t : Bytes) (roomId : Identifier), 0 ∉ a ∧ 0 ∉ t ∧
    cString (insertHistoryQuery msg.login msg.roomId msg.text) =
      insertHistoryQuery (double a) roomId (double t)

/-- It is the insert of a row that `get_history` can read back: neither of its strings
is empty. -/
def OneReadableInsert (msg : TextSendData) : Prop :=
  ∃ (a t : Bytes) (roomId : Identifier), (a ≠ [] ∧ t ≠ []) ∧ 0 ∉ a ∧ 0 ∉ t ∧
    cString (insertHistoryQuery msg.login msg.roomId msg.text) =
      insertHistoryQuery (double a) roomId (double t)

/-- What SQLite is handed for a look-up of `l` is one select with a proper
literal, or does not lex at all. -/
def OneSelect (l : Bytes) : Prop :=
  endsInLiteral (cString (selectLoginsQuery l)) = true ∨
    ∃ a : Bytes, 0 ∉ a ∧ cString (selectLoginsQuery l) = selectLoginsQuery (double a)

/-- Strings that are not empty, without NUL bytes and with all quotes doubled meet the
condition. -/
theorem oneReadableInsert_of_wellQuoted {msg : TextSendData} (hlogin : WellQuoted msg.login)
    (htext : WellQuoted msg.text) (hne : msg.login ≠ [] ∧ msg.text ≠ []) :
    OneReadableInsert msg := by
  obtain ⟨a, _, hlogin', ha⟩ := hlogin.exists_double
  obtain ⟨t, _, htext', ht⟩ := htext.exists_double
  refine ⟨a, t, msg.roomId, ⟨?_, ?_⟩, ha, ht, ?_⟩
  · rintro rfl
    exact hne.1 hlogin'.symm
  · rintro rfl
    exact hne.2 htext'.symm
  · rw [← hlogin', ← htext']
    refine cString_of_not_mem ?_
    rw [zero_mem_insertHistoryQuery, zero_mem_double, zero_mem_double]
    exact fun h => h.elim ha ht

/-- A quote in a text does no harm when it is doubled. -/
example : OneReadableInsert ⟨1, ascii "u", ascii "it''s"⟩ :=
  oneReadableInsert_of_wellQuoted (by decide) (by decide) (by decide)

theorem oneSelect_of_wellQuoted {l : Bytes} (hl : WellQuoted l) : OneSelect l := by
  obtain ⟨a, _, hl', ha⟩ := hl.exists_double
  refine Or.inr ⟨a, ha, ?_⟩
  rw [← hl']
  refine cString_of_not_mem ?_
  rw [zero_mem_selectLoginsQuery, zero_mem_double]
  exact ha

/-! ## The condition is enough -/

section Enough

variable {E : Sqlite} (hE : E.Lawful)
include hE

theorem saveTextMsg_of_query {db : Database E} (hopen : db.isOpen = true) {msg : TextSendData}
    {a t : Bytes} {roomId : Identifier} (ha : 0 ∉ a) (ht : 0 ∉ t)
    (hquery : cString (insertHistoryQuery msg.login msg.roomId msg.text) =
      insertHistoryQuery (double a) roomId (double t)) :
    ∃ st', db.saveTextMsg msg = { db with store := st' } ∧
      E.logins st' = E.logins db.store ∧
      E.history st' = E.history db.store ++ [⟨a, roomId, t⟩] := by
  obtain ⟨st', hexec, hlogins, hhistory⟩ := hE.exec_insertHistory db.store a t roomId ha ht
  refine ⟨st', ?_, hlogins, hhistory⟩
  rw [Database.saveTextMsg, Database.exec, if_pos hopen, hquery, hexec]
  rfl

theorem saveTextMsg_of_oneInsert {db : Database E} (hopen : db.isOpen = true)
    {msg : TextSendData} (hmsg : OneInsert msg) :
    ∃ st', db.saveTextMsg msg = { db with store := st' } ∧
      E.logins st' = E.logins db.store := by
  obtain ⟨a, t, roomId, ha, ht, hquery⟩ := hmsg
  obtain ⟨st', hdb, hlogins, -⟩ := saveTextMsg_of_query hE hopen ha ht hquery
  exact ⟨st', hdb, hlogins⟩

/-- One more row that can be read back: every room loads what it did, and the row. -/
theorem getHistory_of_append {db db' : Database E} (hopen : db.isOpen = true)
    (hopen' : db'.isOpen = true) {row : HistoryRow} (hrow : row.author ≠ [] ∧ row.message ≠ [])
    (hhistory : E.history db'.store = E.history db.store ++ [row]) {roomId : Identifier}
    {history : List TextSendData} (h : (db.getHistory roomId).2 = some history) :
    ∃ more, (db'.getHistory roomId).2 = some (history ++ more) := by
  simp only [Database.getHistory, Database.select_historyQuery hE hopen] at h
  simp only [Database.getHistory, Database.select_historyQuery hE hopen', hhistory,
    List.filter_append, List.map_append, List.mapM_append, h]
  have hentry : ∃ more, (([row].filter (·.roomId = roomId)).map HistoryRow.toResult).mapM
      Database.historyEntry = some more := by
    refine Option.ne_none_iff_exists'.mp (Database.mapM_historyEntry_ne_none.mpr ?_)
    intro row' hrow'
    rw [List.mem_singleton.mp (List.mem_filter.mp hrow').1]
    exact hrow
  obtain ⟨more, hmore⟩ := hentry
  refine ⟨more, ?_⟩
  rw [hmore]
  rfl

/-- The look-ups read nothing but the table `logins`. -/
theorem select_eq_of_oneSelect {l : Bytes} (hl : OneSelect l) {st st' : E.Store}
    (hlogins : E.logins st' = E.logins st) :
    E.select st' (cString (selectLoginsQuery l)) =
      E.select st (cString (selectLoginsQuery l)) := by
  rcases hl with hl | ⟨a, ha, hquery⟩
  · rw [hE.select_unterminated _ _ hl, hE.select_unterminated _ _ hl]
  · rw [hquery, hE.select_logins _ _ ha, hE.select_logins _ _ ha, hlogins]

theorem keepsAccount_of_oneReadableInsert (db : Database E) {msg : TextSendData} {l : Bytes}
    (hmsg : OneReadableInsert msg) (hl : OneSelect l) : db.KeepsAccount msg l := by
  cases hopen : db.isOpen with
  | false =>
      have hsame := Database.saveTextMsg_of_closed hopen msg
      refine ⟨by rw [hsame], fun p => by rw [hsame], by rw [hsame],
        fun h => absurd (hopen.symm.trans h) (by decide), ?_⟩
      intro roomId history hloads
      rw [hsame]
      exact ⟨[], hloads.trans (congrArg some (List.append_nil history).symm)⟩
  | true =>
      obtain ⟨a, t, roomId, hrow, ha, ht, hquery⟩ := hmsg
      obtain ⟨st', hdb, hlogins, hhistory⟩ := saveTextMsg_of_query hE hopen ha ht hquery
      have hopen' : (db.saveTextMsg msg).isOpen = true := by
        rw [hdb]
        exact hopen
      have hselect : (db.saveTextMsg msg).select (selectLoginsQuery l) =
          db.select (selectLoginsQuery l) := by
        rw [hdb, Database.select, Database.select, if_pos hopen, if_pos hopen]
        exact select_eq_of_oneSelect hE hl hlogins
      refine ⟨by rw [hdb]; exact hlogins, ?_, ?_, ?_, ?_⟩
      · intro p
        rw [Database.checkClient, hselect, Database.checkClient]
      · rw [Database.getLoginid, hselect, Database.getLoginid]
      · intro _
        exact Database.works_of_open hE hopen'
      · intro room history hloads
        have hstored : E.history (db.saveTextMsg msg).store =
            E.history db.store ++ [⟨a, roomId, t⟩] := by
          rw [hdb]
          exact hhistory
        exact getHistory_of_append hE hopen hopen' hrow hstored hloads

end Enough

/-! ## The condition is needed

The assumptions on SQLite say nothing about a script that is not one of the
server's own statements, and there is nothing they could say: the script is the
client's.  Two engines show what follows.  One rejects a given script, and the
error branch of `save_text_msg` then closes the handle.  The other answers a
given select from the table `history`, as a `union` would. -/

/-- The engine that rejects the script `q₀`. -/
def rejecting (q₀ : Bytes) : Sqlite :=
  { memorySqlite with
    exec := fun st q => if q = q₀ then (st, false) else MemorySqlite.exec st q }

/-- The engine that answers the select `q₀` with one row for each stored
message. -/
def leaking (q₀ : Bytes) : Sqlite :=
  { memorySqlite with
    select := fun st q =>
      if q = q₀ then some (st.history.map fun _ => ⟨fun _ => 1, fun _ => none⟩)
      else MemorySqlite.select st q }

theorem rejecting_exec_self (q₀ : Bytes) (st : MemoryStore) :
    (rejecting q₀).exec st q₀ = (st, false) := if_pos rfl

theorem rejecting_exec_of_ne {q₀ q : Bytes} (h : q ≠ q₀) (st : MemoryStore) :
    (rejecting q₀).exec st q = MemorySqlite.exec st q := if_neg h

theorem leaking_select_self (q₀ : Bytes) (st : MemoryStore) :
    (leaking q₀).select st q₀ =
      some (st.history.map fun _ => ⟨fun _ => 1, fun _ => none⟩) := if_pos rfl

theorem leaking_select_of_ne {q₀ q : Bytes} (h : q ≠ q₀) (st : MemoryStore) :
    (leaking q₀).select st q = MemorySqlite.select st q := if_neg h

theorem cString_insertHistory_ne_insertLogins (l t a p : Bytes) (r n : Identifier) :
    insertLoginsQuery a n p ≠ cString (insertHistoryQuery l r t) := by
  intro h
  simp only [insertHistoryQuery, List.append_assoc] at h
  rw [cString_append (by decide)] at h
  have h₁₂ : some (108 : UInt8) = some 104 := congrArg (·[12]?) h
  exact absurd h₁₂ (by decide)

theorem cString_selectLogins_ne_selectHistory (l : Bytes) (r : Identifier) :
    selectHistoryQuery r ≠ cString (selectLoginsQuery l) := by
  intro h
  simp only [selectLoginsQuery, List.append_assoc] at h
  rw [cString_append (by decide)] at h
  have h₇ : some (97 : UInt8) = some 42 := congrArg (·[7]?) h
  exact absurd h₇ (by decide)

theorem rejecting_lawful {msg : TextSendData} (hmsg : ¬ OneInsert msg) :
    (rejecting (cString (insertHistoryQuery msg.login msg.roomId msg.text))).Lawful where
  logins_empty := rfl
  history_empty := rfl
  exec_insertHistory st a t roomId ha ht := by
    have hne : insertHistoryQuery (double a) roomId (double t) ≠
        cString (insertHistoryQuery msg.login msg.roomId msg.text) :=
      fun h => hmsg ⟨a, t, roomId, ha, ht, h.symm⟩
    exact ⟨_, (rejecting_exec_of_ne hne st).trans
      (MemorySqlite.exec_insertHistory st a t roomId), rfl, rfl⟩
  exec_insertLogins st a p loginId _ _ :=
    ⟨_, (rejecting_exec_of_ne (cString_insertHistory_ne_insertLogins _ _ _ _ _ _) st).trans
      (MemorySqlite.exec_insertLogins st a p loginId), rfl, rfl⟩
  select_logins st a _ := MemorySqlite.select_selectLogins st a
  select_history st roomId := MemorySqlite.select_selectHistory st roomId
  exec_unterminated st q h := by
    by_cases hq : q = cString (insertHistoryQuery msg.login msg.roomId msg.text)
    · subst hq
      exact rejecting_exec_self _ st
    · exact (rejecting_exec_of_ne hq st).trans (if_pos h)
  select_unterminated _ _ h := if_pos h

theorem leaking_lawful {l : Bytes} (hl : ¬ OneSelect l) :
    (leaking (cString (selectLoginsQuery l))).Lawful where
  logins_empty := rfl
  history_empty := rfl
  exec_insertHistory st a t roomId _ _ :=
    ⟨_, MemorySqlite.exec_insertHistory st a t roomId, rfl, rfl⟩
  exec_insertLogins st a p loginId _ _ :=
    ⟨_, MemorySqlite.exec_insertLogins st a p loginId, rfl, rfl⟩
  select_logins st a ha := by
    have hne : selectLoginsQuery (double a) ≠ cString (selectLoginsQuery l) :=
      fun h => hl (Or.inr ⟨a, ha, h.symm⟩)
    exact (leaking_select_of_ne hne st).trans (MemorySqlite.select_selectLogins st a)
  select_history st roomId :=
    (leaking_select_of_ne (cString_selectLogins_ne_selectHistory l roomId) st).trans
      (MemorySqlite.select_selectHistory st roomId)
  exec_unterminated _ _ h := if_pos h
  select_unterminated st q h := by
    have hne : q ≠ cString (selectLoginsQuery l) := by
      rintro rfl
      exact hl (Or.inl h)
    exact (leaking_select_of_ne hne st).trans (if_pos h)

/-- A script that is not the one insert may be rejected, and then the handle is
gone. -/
theorem oneInsert_of_keepsAccount {msg : TextSendData} {l : Bytes}
    (h : ∀ E : Sqlite, E.Lawful → ∀ db : Database E, db.KeepsAccount msg l) :
    OneInsert msg := by
  by_contra hmsg
  let q₀ := cString (insertHistoryQuery msg.login msg.roomId msg.text)
  let db : Database (rejecting q₀) := ⟨true, ⟨[], []⟩⟩
  have hclosed : (db.saveTextMsg msg).isOpen = false := by
    simp only [Database.saveTextMsg, Database.exec, db, if_true]
    rw [rejecting_exec_self]
    rfl
  have hworks := (h _ (rejecting_lawful hmsg) db).works rfl
  exact Database.not_works_of_closed hclosed hworks

/-- A row with an empty string is stored, and its room can no longer be loaded. -/
theorem oneReadableInsert_of_keepsAccount {msg : TextSendData} {l : Bytes}
    (h : ∀ E : Sqlite, E.Lawful → ∀ db : Database E, db.KeepsAccount msg l) :
    OneReadableInsert msg := by
  obtain ⟨a, t, roomId, ha, ht, hquery⟩ := oneInsert_of_keepsAccount h
  refine ⟨a, t, roomId, ?_, ha, ht, hquery⟩
  let db : Database memorySqlite := ⟨true, ⟨[], []⟩⟩
  have hE := memorySqlite_lawful
  obtain ⟨st', hdb, -, hhistory⟩ := @saveTextMsg_of_query _ hE db rfl _ _ _ _ ha ht hquery
  have hbefore : (db.getHistory roomId).2 = some [] := by
    simp only [Database.getHistory, @Database.select_historyQuery _ hE db rfl]
    rfl
  obtain ⟨more, hafter⟩ := (h memorySqlite hE db).loads roomId [] hbefore
  have hloads : ((db.saveTextMsg msg).getHistory roomId).2 ≠ none := by
    rw [hafter]
    exact Option.some_ne_none _
  rw [hdb] at hloads
  refine (Database.getHistory_ne_none_iff hE _ roomId).mp hloads rfl ⟨a, roomId, t⟩ ?_ rfl
  rw [hhistory]
  exact List.mem_append_right _ (List.mem_singleton_self _)

/-- A look-up that is not the one select may read the table `history`, which the
message has changed. -/
theorem oneSelect_of_keepsAccount {msg : TextSendData} {l : Bytes}
    (hmsg : OneInsert msg)
    (h : ∀ E : Sqlite, E.Lawful → ∀ db : Database E, db.KeepsAccount msg l) :
    OneSelect l := by
  by_contra hl
  let q₀ := cString (selectLoginsQuery l)
  obtain ⟨a, t, roomId, ha, ht, hquery⟩ := hmsg
  let db : Database (leaking q₀) := ⟨true, ⟨[], []⟩⟩
  have hsaved : db.saveTextMsg msg = ⟨true, ⟨[], [⟨a, roomId, t⟩]⟩⟩ := by
    have hexec : (leaking q₀).exec ⟨[], []⟩ (insertHistoryQuery (double a) roomId (double t)) =
        (⟨[], [⟨a, roomId, t⟩]⟩, true) := MemorySqlite.exec_insertHistory ⟨[], []⟩ a t roomId
    simp only [Database.saveTextMsg, Database.exec, db, if_true]
    rw [hquery, hexec]
    rfl
  have hid := (h _ (leaking_lawful hl) db).getLoginid
  simp only [hsaved, Database.getLoginid, Database.select, db, if_true] at hid
  rw [leaking_select_self, leaking_select_self] at hid
  have hids : (1 : Identifier) = -1 := hid
  exact absurd hids (by decide)

end AppChat.Storage
