/-
  `Channel.ChannelsManager`: the singleton that serves the channels, from
  `channel/channels_manager.cpp`.
-/
import AppChat.Channel.Channel

set_option autoImplicit false

namespace AppChat

open Foundation Storage

/-- The three maps of the manager. -/
structure ChannelsManager where
  channels : UnorderedMap Identifier Channel
  clientInRooms : UnorderedMap Identifier (List Identifier)
  clientidToLogin : UnorderedMap Identifier Bytes

/-- What a call of `ChannelsManager::join` leaves behind. -/
structure JoinResult (D : DatabaseOps) where
  manager : ChannelsManager
  db : D.State
  flag : Bool
  deliveries : List Delivery

namespace ChannelsManager

variable {D : DatabaseOps}

/-- The manager of a new process. -/
def init : ChannelsManager := ⟨∅, ∅, ∅⟩

/-- The first part of `ChannelsManager::join`: the room is appended to the rooms
of the client. -/
def addRoom (rooms : UnorderedMap Identifier (List Identifier)) (clientId newRoomId : Identifier) :
    UnorderedMap Identifier (List Identifier) :=
  match rooms.lookup clientId with
  | none => rooms.insert clientId [newRoomId]
  | some old => rooms.insert clientId (old ++ [newRoomId])

/-- The last part of `ChannelsManager::join`: the channel lets the subscriber in,
and the login is recorded. -/
def enter (view : View) (m : ChannelsManager) (db : D.State) (newRoomId : Identifier)
    (ch : Channel) (newSub : ConnectionId) : JoinResult D :=
  let joined := ch.join view newSub
  { manager :=
      { m with
        channels := m.channels.insert newRoomId joined.1
        clientidToLogin :=
          m.clientidToLogin.tryEmplace (view newSub).clientId (view newSub).login }
    db := db
    flag := true
    deliveries := joined.2 }

/-- `ChannelsManager::join`; `none` when loading the history throws. -/
def join (view : View) (m : ChannelsManager) (newSub : ConnectionId)
    (newRoomId : Identifier) (db : D.State) : Option (JoinResult D) :=
  let m' := { m with
    clientInRooms := addRoom m.clientInRooms (view newSub).clientId newRoomId }
  match m.channels.lookup newRoomId with
  | some ch => some (enter view m' db newRoomId ch newSub)
  | none =>
      match Channel.create newRoomId db with
      | (_, none) => none
      | (db', some ch) =>
          let emplaced := m.channels.emplace newRoomId ch
          if emplaced.2 then
            some (enter view { m' with channels := emplaced.1 } db' newRoomId ch newSub)
          else some ⟨m', db', false, []⟩

/-- `ChannelsManager::send_to_channel`: a message to a room without a channel is
dropped. -/
def sendToChannel (m : ChannelsManager) (data : TextSendData) :
    ChannelsManager × List Delivery :=
  match m.channels.lookup data.roomId with
  | none => (m, [])
  | some ch =>
      let notified := ch.notification data
      ({ m with channels := m.channels.insert data.roomId notified.1 }, notified.2)

/-- The loop of `leave_from_all_channels` over the rooms of the client. -/
def leaveRooms (view : View) (clientId : Identifier) :
    List Identifier → UnorderedMap Identifier Channel →
      UnorderedMap Identifier Channel × List Delivery
  | [], channels => (channels, [])
  | room :: rooms, channels =>
      match channels.lookup room with
      | none => leaveRooms view clientId rooms channels
      | some ch =>
          let left := ch.leave view clientId
          let rest := leaveRooms view clientId rooms (channels.insert room left.1)
          (rest.1, left.2 ++ rest.2)

/-- `ChannelsManager::leave_from_all_channels`. -/
def leaveFromAllChannels (view : View) (m : ChannelsManager) (clientId : Identifier) :
    ChannelsManager × List Delivery :=
  match m.clientInRooms.lookup clientId with
  | none => ({ m with clientidToLogin := m.clientidToLogin.erase clientId }, [])
  | some rooms =>
      let left := leaveRooms view clientId rooms m.channels
      (⟨left.1, m.clientInRooms.erase clientId, m.clientidToLogin.erase clientId⟩, left.2)

/-- `ChannelsManager::leave`. -/
def leave (view : View) (m : ChannelsManager) (clientId roomId : Identifier) :
    ChannelsManager × List Delivery :=
  match m.clientInRooms.lookup clientId with
  | none => (m, [])
  | some _ =>
      match m.channels.lookup roomId with
      | none => (m, [])
      | some ch =>
          let left := ch.leave view clientId
          (⟨m.channels.insert roomId left.1, m.clientInRooms.erase clientId,
              m.clientidToLogin.erase clientId⟩, left.2)

/-! ## What a join does -/

/-- A join that returns has let the subscriber into a channel: the one the room
had, or a new one with the stored history.  It returns `true`. -/
theorem join_cases {view : View} {m : ChannelsManager} {s : ConnectionId} {r : Identifier}
    {db : D.State} {result : JoinResult D} (h : join view m s r db = some result) :
    ∃ ch : Channel,
      (m.channels.lookup r = some ch ∧ result.db = db ∨
        m.channels.lookup r = none ∧ ∃ history,
          D.getHistory db r = (result.db, some history) ∧ ch = ⟨r, ∅, history⟩) ∧
      (∀ r', result.manager.channels.lookup r' =
        if r' = r then some (ch.join view s).1 else m.channels.lookup r') ∧
      result.manager.clientInRooms = addRoom m.clientInRooms (view s).clientId r ∧
      result.manager.clientidToLogin =
        m.clientidToLogin.tryEmplace (view s).clientId (view s).login ∧
      result.flag = true ∧ result.deliveries = (ch.join view s).2 := by
  unfold join at h
  cases hroom : m.channels.lookup r with
  | some ch =>
      rw [hroom] at h
      simp only [Option.some.injEq] at h
      subst h
      exact ⟨ch, Or.inl ⟨rfl, rfl⟩, fun r' => UnorderedMap.lookup_insert_eq _ _ _ _,
        rfl, rfl, rfl, rfl⟩
  | none =>
      rw [hroom] at h
      cases hload : D.getHistory db r with
      | mk db' loaded =>
          cases loaded with
          | none => simp [Channel.create, hload] at h
          | some history =>
              simp only [Channel.create, hload, Option.map_some,
                UnorderedMap.emplace_of_lookup_none hroom, if_true, Option.some.injEq] at h
              subst h
              refine ⟨⟨r, ∅, history⟩, Or.inr ⟨rfl, history, rfl, rfl⟩, ?_, rfl, rfl, rfl, rfl⟩
              intro r'
              simp only [enter, UnorderedMap.lookup_insert_eq]
              split <;> rfl

/-- A join fails to return only when the room has no channel and its history
cannot be loaded. -/
theorem join_eq_none_iff {view : View} {m : ChannelsManager} {s : ConnectionId}
    {r : Identifier} {db : D.State} :
    join view m s r db = none ↔
      m.channels.lookup r = none ∧ (D.getHistory db r).2 = none := by
  unfold join
  cases hroom : m.channels.lookup r with
  | some ch => simp
  | none =>
      cases hload : D.getHistory db r with
      | mk db' loaded =>
          cases loaded with
          | none => simp [Channel.create, hload]
          | some history =>
              simp [Channel.create, hload, UnorderedMap.emplace_of_lookup_none hroom]

/-! ## What the other calls do -/

theorem lookup_addRoom (rooms : UnorderedMap Identifier (List Identifier))
    (c r c' : Identifier) :
    (addRoom rooms c r).lookup c' =
      if c' = c then some ((rooms.lookup c).getD [] ++ [r]) else rooms.lookup c' := by
  unfold addRoom
  split
  · rename_i h
    rw [UnorderedMap.lookup_insert_eq, h]
    rfl
  · rename_i h
    rw [UnorderedMap.lookup_insert_eq, h]
    rfl

/-- A text extends the history of its room and leaves everything else alone. -/
theorem lookup_sendToChannel (m : ChannelsManager) (data : TextSendData) (r : Identifier) :
    (m.sendToChannel data).1.channels.lookup r =
      if r = data.roomId then
        (m.channels.lookup r).map fun ch => (ch.notification data).1
      else m.channels.lookup r := by
  unfold sendToChannel
  cases h : m.channels.lookup data.roomId with
  | none =>
      by_cases hr : r = data.roomId
      · subst hr
        simp [h]
      · simp [hr]
  | some ch =>
      simp only [UnorderedMap.lookup_insert_eq]
      by_cases hr : r = data.roomId
      · subst hr
        simp [h]
      · simp [hr]

@[simp] theorem sendToChannel_clientInRooms (m : ChannelsManager) (data : TextSendData) :
    (m.sendToChannel data).1.clientInRooms = m.clientInRooms := by
  unfold sendToChannel
  split <;> rfl

@[simp] theorem sendToChannel_clientidToLogin (m : ChannelsManager) (data : TextSendData) :
    (m.sendToChannel data).1.clientidToLogin = m.clientidToLogin := by
  unfold sendToChannel
  split <;> rfl

/-- The deliveries of a text are of that text. -/
theorem data_of_mem_sendToChannel {m : ChannelsManager} {data : TextSendData} {d : Delivery}
    (h : d ∈ (m.sendToChannel data).2) : d.data = data := by
  unfold sendToChannel at h
  split at h
  · cases h
  · obtain ⟨sub, -, rfl⟩ := List.mem_map.mp h
    rfl

/-- The loop takes the client out of each listed room once, however often the
room is listed. -/
theorem lookup_leaveRooms (view : View) (c : Identifier) (rooms : List Identifier)
    (channels : UnorderedMap Identifier Channel) (r : Identifier) :
    (leaveRooms view c rooms channels).1.lookup r =
      if r ∈ rooms then (channels.lookup r).map fun ch => (ch.leave view c).1
      else channels.lookup r := by
  induction rooms generalizing channels with
  | nil => rfl
  | cons room rooms ih =>
      unfold leaveRooms
      cases hroom : channels.lookup room with
      | none =>
          rw [ih]
          by_cases hr : r = room
          · subst hr
            simp [hroom]
          · simp [hr]
      | some ch =>
          simp only [ih, UnorderedMap.lookup_insert_eq, List.mem_cons]
          by_cases hr : r = room
          · subst hr
            simp [hroom, Channel.leave_leave]
          · simp [hr]

/-- After `leave_from_all_channels` the client has left every room the reverse
index lists for it. -/
theorem lookup_leaveFromAllChannels (view : View) (m : ChannelsManager)
    (c r : Identifier) :
    (m.leaveFromAllChannels view c).1.channels.lookup r =
      if r ∈ (m.clientInRooms.lookup c).getD [] then
        (m.channels.lookup r).map fun ch => (ch.leave view c).1
      else m.channels.lookup r := by
  unfold leaveFromAllChannels
  split
  · rename_i h
    simp [h]
  · rename_i rooms h
    rw [h]
    exact lookup_leaveRooms view c rooms m.channels r

@[simp] theorem leaveFromAllChannels_clientInRooms (view : View) (m : ChannelsManager)
    (c : Identifier) :
    (m.leaveFromAllChannels view c).1.clientInRooms = m.clientInRooms.erase c := by
  unfold leaveFromAllChannels
  split
  · rename_i h
    exact (UnorderedMap.erase_of_notMem (AList.lookup_eq_none.mp h)).symm
  · rfl

@[simp] theorem leaveFromAllChannels_clientidToLogin (view : View) (m : ChannelsManager)
    (c : Identifier) :
    (m.leaveFromAllChannels view c).1.clientidToLogin = m.clientidToLogin.erase c := by
  unfold leaveFromAllChannels
  split <;> rfl

end ChannelsManager

end AppChat
