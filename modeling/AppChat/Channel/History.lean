/-
  `Channel.History`: the history a channel holds and the history that is stored.

  A channel is made with the stored rows of its room and from then on extended
  by every notification, of a text or of a notice.  The log below says of every
  entry of every channel where it came from.  Without the notices, a channel's
  history is what the table has for the room.
-/
import AppChat.Channel.ChatState
import AppChat.Foundation.Transition

set_option autoImplicit false

namespace AppChat

open Foundation Storage

/-- An entry of a channel's history, with its origin. -/
inductive LogEntry where
  | stored (data : TextSendData)
  | text (data : TextSendData)
  | notice (data : TextSendData)
  deriving DecidableEq, Repr

namespace LogEntry

/-- The message of an entry. -/
def data : LogEntry → TextSendData
  | stored data | text data | notice data => data

/-- The entry is a notice that somebody has joined or left. -/
def isNotice : LogEntry → Bool
  | notice _ => true
  | _ => false

end LogEntry

/-- The entries of every channel. -/
abbrev HistoryLog := Identifier → List LogEntry

/-- The log without the notices. -/
def withoutNotices (entries : List LogEntry) : List TextSendData :=
  (entries.filter fun e => !e.isNotice).map LogEntry.data

@[simp] theorem withoutNotices_append (a b : List LogEntry) :
    withoutNotices (a ++ b) = withoutNotices a ++ withoutNotices b := by
  simp [withoutNotices]

@[simp] theorem withoutNotices_notice (data : TextSendData) :
    withoutNotices [.notice data] = [] := rfl

@[simp] theorem withoutNotices_text (data : TextSendData) :
    withoutNotices [.text data] = [data] := rfl

@[simp] theorem withoutNotices_stored (rows : List TextSendData) :
    withoutNotices (rows.map .stored) = rows := by
  induction rows with
  | nil => rfl
  | cons row rows ih =>
      rw [List.map_cons, ← List.singleton_append, withoutNotices_append, ih]
      rfl

namespace HistoryLog

/-- What `Channel::leave(identifier_t)` appends. -/
def leaveEntries (view : View) (clientId : Identifier) (ch : Channel) : List LogEntry :=
  match ch.subscribers.lookup clientId with
  | none => []
  | some sub => [.notice (Channel.leaveNotice (view sub).login ch.channelId)]

/-- What an event in the state `st` adds to the log. -/
def record (st : ChatState tableDatabase) (log : HistoryLog) : ChatEvent → HistoryLog
  | .join view sub roomId => fun r =>
      if r = roomId then
        match st.manager.channels.lookup roomId with
        | some ch => log r ++ [.notice (Channel.joinNotice (view sub).login ch.channelId)]
        | none =>
            (st.db.history.filter (·.roomId = roomId)).map .stored ++
              [.notice (Channel.joinNotice (view sub).login roomId)]
      else log r
  | .text msg => fun r =>
      if r = msg.roomId ∧ r ∈ st.manager.channels then log r ++ [.text msg] else log r
  | .leaveAll view clientId => fun r =>
      if r ∈ (st.manager.clientInRooms.lookup clientId).getD [] then
        log r ++ (st.manager.channels.lookup r).elim [] (leaveEntries view clientId)
      else log r

/-- One event, with the log kept along. -/
def Step (s : ChatState tableDatabase × HistoryLog) (e : ChatEvent)
    (s' : ChatState tableDatabase × HistoryLog) : Prop :=
  ChatState.Step tableDatabase s.1 e s'.1 ∧ s'.2 = record s.1 s.2 e

/-- The log restrains nothing: every run can be logged. -/
theorem exists_run {st st' : ChatState tableDatabase} {es : List ChatEvent}
    (h : Run (ChatState.Step tableDatabase) st es st') (log : HistoryLog) :
    ∃ log', Run Step (st, log) es (st', log') := by
  induction h generalizing log with
  | nil st => exact ⟨log, .nil _⟩
  | @cons st _ _ e _ hstep _ ih =>
      obtain ⟨log', hrun⟩ := ih (record st log e)
      exact ⟨log', .cons ⟨hstep, rfl⟩ hrun⟩

/-- The log is right about the channel `ch` of the room `r`: it has the entries
of the channel, and those that are no notices are the stored rows. -/
structure Describes (entries : List LogEntry) (r : Identifier) (ch : Channel)
    (db : Tables) : Prop where
  history : entries.map LogEntry.data = ch.historyRoom
  table : withoutNotices entries = db.history.filter (·.roomId = r)

/-- The log is right about every channel. -/
def Right (s : ChatState tableDatabase × HistoryLog) : Prop :=
  ∀ r ch, s.1.manager.channels.lookup r = some ch → Describes (s.2 r) r ch s.1.db

namespace Describes

variable {entries : List LogEntry} {r : Identifier} {ch : Channel} {db : Tables}

/-- A new channel. -/
theorem create (r : Identifier) (db : Tables) :
    Describes ((db.history.filter (·.roomId = r)).map .stored) r
      ⟨r, ∅, db.history.filter (·.roomId = r)⟩ db where
  history := by
    rw [List.map_map]
    exact List.map_id _
  table := withoutNotices_stored _

/-- A notice extends the channel alone. -/
theorem notice (h : Describes entries r ch db) {ch' : Channel} {data : TextSendData}
    (hch : ch'.historyRoom = ch.historyRoom ++ [data]) :
    Describes (entries ++ [.notice data]) r ch' db where
  history := by
    rw [List.map_append, h.history, hch]
    rfl
  table := by
    rw [withoutNotices_append, withoutNotices_notice, List.append_nil, h.table]

/-- A text to the room extends the channel and the table. -/
theorem text (h : Describes entries r ch db) {msg : TextSendData} (hr : msg.roomId = r) :
    Describes (entries ++ [.text msg]) r (ch.notification msg).1
      (tableDatabase.saveTextMsg db msg) where
  history := by
    rw [List.map_append, h.history]
    rfl
  table := by
    have hnew : [msg].filter (·.roomId = r) = [msg] := by simp [hr]
    rw [withoutNotices_append, withoutNotices_text, h.table, ← hnew]
    exact (List.filter_append ..).symm

/-- A text to another room leaves the rows of this one. -/
theorem otherText (h : Describes entries r ch db) {msg : TextSendData} (hr : msg.roomId ≠ r) :
    Describes entries r ch (tableDatabase.saveTextMsg db msg) where
  history := h.history
  table := by
    have hnew : [msg].filter (·.roomId = r) = [] := by simp [hr]
    have hrows : (db.history ++ [msg]).filter (·.roomId = r) =
        db.history.filter (·.roomId = r) := by
      rw [List.filter_append, hnew, List.append_nil]
    exact h.table.trans hrows.symm

theorem leave (h : Describes entries r ch db) (view : View) (clientId : Identifier) :
    Describes (entries ++ leaveEntries view clientId ch) r (ch.leave view clientId).1 db := by
  unfold leaveEntries
  split
  · rename_i hnone
    rw [Channel.leave_of_notMem view (AList.lookup_eq_none.mp hnone), List.append_nil]
    exact h
  · rename_i sub hsub
    rw [Channel.leave_of_lookup view hsub]
    exact h.notice rfl

end Describes

/-! ## Each event keeps the log right -/

theorem right_join {st st' : ChatState tableDatabase} {log : HistoryLog} {view : View}
    {sub : ConnectionId} {roomId : Identifier}
    (h : ChatState.Step tableDatabase st (.join view sub roomId) st') (hlog : Right (st, log)) :
    Right (st', record st log (.join view sub roomId)) := by
  obtain ⟨deliveries, hstep⟩ := h
  obtain ⟨⟨_, flag, _⟩, hjoin, heq⟩ := Option.map_eq_some_iff.mp hstep
  obtain ⟨result, hresult, hpair⟩ := Option.map_eq_some_iff.mp hjoin
  cases hpair
  cases heq
  obtain ⟨ch, hch, hlookup, -⟩ := ChannelsManager.join_cases hresult
  intro r ch' hr
  have hr' := (hlookup r).symm.trans hr
  rcases hch with ⟨hsome, hdb⟩ | ⟨hnone, history, hload, rfl⟩
  · simp only [record, hsome, hdb]
    split at hr'
    · rename_i heq
      subst heq
      cases hr'
      rw [if_pos rfl]
      exact (hlog r ch hsome).notice rfl
    · rename_i hne
      rw [if_neg hne]
      exact hlog r ch' hr'
  · have hdb : st.db = result.db := congrArg Prod.fst hload
    have hhistory : st.db.history.filter (·.roomId = roomId) = history :=
      Option.some.inj (congrArg Prod.snd hload)
    simp only [record, hnone, ← hdb]
    rw [← hhistory] at hr'
    split at hr'
    · rename_i heq
      subst heq
      cases hr'
      rw [if_pos rfl]
      exact (Describes.create r st.db).notice rfl
    · rename_i hne
      rw [if_neg hne]
      exact hlog r ch' hr'

theorem right_text {st : ChatState tableDatabase} {log : HistoryLog} (msg : TextSendData)
    (hlog : Right (st, log)) : Right ((st.text msg).1, record st log (.text msg)) := by
  intro r ch' hr
  have hr' := (ChannelsManager.lookup_sendToChannel st.manager msg r).symm.trans hr
  split at hr'
  · rename_i heq
    obtain ⟨ch, hch, rfl⟩ := Option.map_eq_some_iff.mp hr'
    have hmem : r ∈ st.manager.channels := UnorderedMap.mem_iff_lookup.mpr ⟨ch, hch⟩
    simp only [record]
    rw [if_pos ⟨heq, hmem⟩]
    exact (hlog r ch hch).text heq.symm
  · rename_i hne
    simp only [record]
    rw [if_neg fun h => hne h.1]
    exact (hlog r ch' hr').otherText (Ne.symm hne)

theorem right_leaveAll {st : ChatState tableDatabase} {log : HistoryLog} (view : View)
    (clientId : Identifier) (hlog : Right (st, log)) :
    Right ((st.leaveAll view clientId).1, record st log (.leaveAll view clientId)) := by
  intro r ch' hr
  have hr' := (ChannelsManager.lookup_leaveFromAllChannels view st.manager clientId r).symm.trans hr
  simp only [record]
  split at hr'
  · rename_i hlisted
    obtain ⟨ch, hch, rfl⟩ := Option.map_eq_some_iff.mp hr'
    rw [if_pos hlisted, hch]
    exact (hlog r ch hch).leave view clientId
  · rename_i hlisted
    rw [if_neg hlisted]
    exact hlog r ch' hr'

theorem right_step {s s' : ChatState tableDatabase × HistoryLog} {e : ChatEvent}
    (h : Step s e s') (hs : Right s) : Right s' := by
  obtain ⟨st, log⟩ := s
  obtain ⟨st', log'⟩ := s'
  obtain ⟨hstep, rfl⟩ := h
  cases e with
  | join view sub roomId => exact right_join hstep hs
  | text msg =>
      obtain ⟨deliveries, hstep⟩ := hstep
      cases hstep
      exact right_text msg hs
  | leaveAll view clientId =>
      obtain ⟨deliveries, hstep⟩ := hstep
      cases hstep
      exact right_leaveAll view clientId hs

/-! ## Every run -/

/-- **Live history and stored history.**  Every run of a process that starts on
any stored table can be logged, and then the history of a channel is its log, and
without the notices it is what `get_history` returns for the room. -/
theorem history_eq_table {db : Tables} {es : List ChatEvent} {st : ChatState tableDatabase}
    (h : Run (ChatState.Step tableDatabase) (ChatState.init db) es st) :
    ∃ log, Run Step (ChatState.init db, fun _ => []) es (st, log) ∧
      ∀ r ch, st.manager.channels.lookup r = some ch →
        (log r).map LogEntry.data = ch.historyRoom ∧
          some (withoutNotices (log r)) = (tableDatabase.getHistory st.db r).2 := by
  obtain ⟨log, hlogged⟩ := exists_run h fun _ => []
  have hinit : Right (ChatState.init db, fun _ => []) := by
    intro r ch hr
    cases hr
  have hright : Right (st, log) := hlogged.invariant (fun _ _ _ => right_step) hinit
  refine ⟨log, hlogged, ?_⟩
  intro r ch hr
  obtain ⟨hhistory, htable⟩ := hright r ch hr
  exact ⟨hhistory, congrArg some htable⟩

/-- A text to room 2 before anybody is there, then a join, a text and a free. -/
theorem history_eq_table_session :
    let view : View := fun s => ⟨Int32.ofNat s, ascii "u"⟩
    let first : TextSendData := ⟨2, ascii "u", ascii "first"⟩
    let second : TextSendData := ⟨2, ascii "u", ascii "second"⟩
    ∃ (st : ChatState tableDatabase) (log : HistoryLog),
      Run Step (ChatState.init (⟨[], []⟩ : Tables), fun _ => [])
        [.text first, .join view 7 2, .text second, .leaveAll view 7] (st, log) ∧
      withoutNotices (log 2) = [first, second] := by
  intro view first second
  obtain ⟨st, hrun, hmem, hhistory⟩ : ∃ st : ChatState tableDatabase,
      Run (ChatState.Step tableDatabase) (ChatState.init (⟨[], []⟩ : Tables))
        [.text first, .join view 7 2, .text second, .leaveAll view 7] st ∧
      2 ∈ st.manager.channels ∧ st.db.history = [first, second] := by
    refine ⟨_, .cons ⟨_, rfl⟩ (.cons ⟨_, rfl⟩ (.cons ⟨_, rfl⟩ (.cons ⟨_, rfl⟩ (.nil _)))), ?_, rfl⟩
    decide
  obtain ⟨log, hlogged, hlog⟩ := history_eq_table hrun
  obtain ⟨ch, hch⟩ := UnorderedMap.mem_iff_lookup.mp hmem
  refine ⟨st, log, hlogged, Option.some.inj ((hlog 2 ch hch).2.trans ?_)⟩
  show some (st.db.history.filter (·.roomId = 2)) = _
  rw [hhistory]
  rfl

end HistoryLog

end AppChat
