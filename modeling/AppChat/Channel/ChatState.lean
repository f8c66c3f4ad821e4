/-
  `Channel.ChatState`: the rooms together with the database, and the three
  things the handlers do with them.
-/
import AppChat.Channel.ChannelsManager

set_option autoImplicit false

namespace AppChat

open Foundation Storage

/-- The singleton manager and the shared `Database` object. -/
structure ChatState (D : DatabaseOps) where
  manager : ChannelsManager
  db : D.State

/-- What a handler does with the rooms.  A join and a free look at the
subscribers as they are at that moment. -/
inductive ChatEvent where
  | join (view : View) (sub : ConnectionId) (roomId : Identifier)
  | text (msg : TextSendData)
  | leaveAll (view : View) (clientId : Identifier)

namespace ChatState

variable {D : DatabaseOps}

/-- The rooms of a new process on the database `db`. -/
def init (db : D.State) : ChatState D := ⟨ChannelsManager.init, db⟩

/-- The body of `do_join_room`; `none` when loading the history throws. -/
def join (st : ChatState D) (view : View) (sub : ConnectionId) (roomId : Identifier) :
    Option (ChatState D × Bool × List Delivery) :=
  (st.manager.join view sub roomId st.db).map fun result =>
    (⟨result.manager, result.db⟩, result.flag, result.deliveries)

/-- The body of `do_text_msg`: hand the message to the room, then store it. -/
def text (st : ChatState D) (msg : TextSendData) : ChatState D × List Delivery :=
  let sent := st.manager.sendToChannel msg
  (⟨sent.1, D.saveTextMsg st.db msg⟩, sent.2)

/-- The first line of `free_connection`. -/
def leaveAll (st : ChatState D) (view : View) (clientId : Identifier) :
    ChatState D × List Delivery :=
  let left := st.manager.leaveFromAllChannels view clientId
  (⟨left.1, st.db⟩, left.2)

/-- The state after an event, and the messages handed out. -/
def apply (st : ChatState D) : ChatEvent → Option (ChatState D × List Delivery)
  | .join view sub roomId => (st.join view sub roomId).map fun r => (r.1, r.2.2)
  | .text msg => some (st.text msg)
  | .leaveAll view clientId => some (st.leaveAll view clientId)

/-- One event. -/
def Step (D : DatabaseOps) (st : ChatState D) (e : ChatEvent) (st' : ChatState D) : Prop :=
  ∃ deliveries, st.apply e = some (st', deliveries)

end ChatState

end AppChat
