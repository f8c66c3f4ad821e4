/-
  `Channel.Channel`: one chat room, from `channel/channel.h` and
  `channel/channel.cpp`.

  A subscriber is an object: the maps hold its identity, and its client id and
  login are read from the object each time they are needed.  `View` is what the
  objects say at the moment of a call.  A call of `send_msg_to_client` is
  recorded as a `Delivery`; every function returns the deliveries it makes, in
  order.
-/
import AppChat.Storage.DatabaseOps
import AppChat.Foundation.UnorderedMap

set_option autoImplicit false

namespace AppChat

open Foundation Storage

/-! ## Subscribers -/

/-- The identity of a `Connection` object. -/
abbrev ConnectionId := Nat

/-- What an `ISubscriber` answers to `get_client_id` and `get_login`. -/
structure Subscriber where
  clientId : Identifier
  login : Bytes
  deriving DecidableEq, Repr

/-- The subscriber objects at the moment of a call. -/
abbrev View := ConnectionId → Subscriber

/-- One call of `send_msg_to_client` on the object `recipient`. -/
structure Delivery where
  recipient : ConnectionId
  data : TextSendData
  deriving DecidableEq, Repr

/-! ## The class `Channel` -/

/-- A channel. -/
structure Channel where
  channelId : Identifier
  subscribers : UnorderedMap Identifier ConnectionId
  historyRoom : List TextSendData

namespace Channel

variable {D : DatabaseOps}

/-- The constructor loads the stored history of the room. -/
def create (roomId : Identifier) (db : D.State) : D.State × Option Channel :=
  let loaded := D.getHistory db roomId
  (loaded.1, loaded.2.map fun history => ⟨roomId, ∅, history⟩)

/-- `Channel::notification`: every entry of `subscribers` is handed the message,
then the message is appended to the history. -/
def notification (ch : Channel) (data : TextSendData) : Channel × List Delivery :=
  ({ ch with historyRoom := ch.historyRoom ++ [data] },
    ch.subscribers.values.map fun sub => ⟨sub, data⟩)

/-- The notice `" joined to room_id="`. -/
def joinNotice (login : Bytes) (roomId : Identifier) : TextSendData :=
  ⟨roomId, login, login ++ ascii " joined to room_id=" ++ decimal roomId.toInt⟩

/-- The notice `" leave from room_id="`. -/
def leaveNotice (login : Bytes) (roomId : Identifier) : TextSendData :=
  ⟨roomId, login, login ++ ascii " leave from room_id=" ++ decimal roomId.toInt⟩

/-- `Channel::join`: replay the history to the joiner, subscribe it unless its id
is taken, and notify everybody. -/
def join (view : View) (ch : Channel) (sub : ConnectionId) : Channel × List Delivery :=
  let replay := ch.historyRoom.map fun data => (⟨sub, data⟩ : Delivery)
  let subscribed :=
    { ch with subscribers := ch.subscribers.tryEmplace (view sub).clientId sub }
  let notified := subscribed.notification (joinNotice (view sub).login ch.channelId)
  (notified.1, replay ++ notified.2)

/-- `Channel::leave(subscriber_ptr)`: unsubscribe, then notify. -/
def leaveSubscriber (view : View) (ch : Channel) (sub : ConnectionId) :
    Channel × List Delivery :=
  let left := { ch with subscribers := ch.subscribers.erase (view sub).clientId }
  left.notification (leaveNotice (view sub).login ch.channelId)

/-- `Channel::leave(identifier_t)`: when the id is subscribed, notify, the leaver
included, then unsubscribe. -/
def leave (view : View) (ch : Channel) (clientId : Identifier) :
    Channel × List Delivery :=
  match ch.subscribers.lookup clientId with
  | none => (ch, [])
  | some sub =>
      let notified := ch.notification (leaveNotice (view sub).login ch.channelId)
      ({ notified.1 with subscribers := notified.1.subscribers.erase clientId },
        notified.2)

/-! ## What each call does to the parts of a channel -/

@[simp] theorem notification_channelId (ch : Channel) (data : TextSendData) :
    (ch.notification data).1.channelId = ch.channelId := rfl

@[simp] theorem notification_subscribers (ch : Channel) (data : TextSendData) :
    (ch.notification data).1.subscribers = ch.subscribers := rfl

@[simp] theorem notification_historyRoom (ch : Channel) (data : TextSendData) :
    (ch.notification data).1.historyRoom = ch.historyRoom ++ [data] := rfl

@[simp] theorem join_channelId (view : View) (ch : Channel) (sub : ConnectionId) :
    (ch.join view sub).1.channelId = ch.channelId := rfl

@[simp] theorem join_subscribers (view : View) (ch : Channel) (sub : ConnectionId) :
    (ch.join view sub).1.subscribers =
      ch.subscribers.tryEmplace (view sub).clientId sub := rfl

@[simp] theorem join_historyRoom (view : View) (ch : Channel) (sub : ConnectionId) :
    (ch.join view sub).1.historyRoom =
      ch.historyRoom ++ [joinNotice (view sub).login ch.channelId] := rfl

theorem leave_of_notMem (view : View) {ch : Channel} {clientId : Identifier}
    (h : clientId ∉ ch.subscribers) : ch.leave view clientId = (ch, []) := by
  rw [leave, AList.lookup_eq_none.mpr h]

theorem leave_of_lookup (view : View) {ch : Channel} {clientId : Identifier}
    {sub : ConnectionId} (h : ch.subscribers.lookup clientId = some sub) :
    ch.leave view clientId =
      (⟨ch.channelId, ch.subscribers.erase clientId,
          ch.historyRoom ++ [leaveNotice (view sub).login ch.channelId]⟩,
        ch.subscribers.values.map
          fun other => ⟨other, leaveNotice (view sub).login ch.channelId⟩) := by
  rw [leave, h]
  rfl

@[simp] theorem leave_channelId (view : View) (ch : Channel) (clientId : Identifier) :
    (ch.leave view clientId).1.channelId = ch.channelId := by
  unfold leave
  split <;> rfl

@[simp] theorem leave_subscribers (view : View) (ch : Channel) (clientId : Identifier) :
    (ch.leave view clientId).1.subscribers = ch.subscribers.erase clientId := by
  unfold leave
  split
  · rename_i h
    exact (UnorderedMap.erase_of_notMem (AList.lookup_eq_none.mp h)).symm
  · rfl

/-- Leaving a second time does nothing. -/
theorem leave_leave (view : View) (ch : Channel) (clientId : Identifier) :
    (ch.leave view clientId).1.leave view clientId = ((ch.leave view clientId).1, []) :=
  leave_of_notMem view (by simp)

end Channel

end AppChat
