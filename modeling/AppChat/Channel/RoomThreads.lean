/-
  `Channel.RoomThreads`: joining a room and writing to it, as the threads of the
  pool run them.

  `ChannelsManager::join`, `Channel::join`, `send_to_channel` and `notification`
  are chains of steps on shared maps: the look-up of the channel, the load of the
  history, the insertion of the channel, the replay, the subscription, the loop over
  the subscribers, the append, and `save_text_msg`.  Each of them is one action.

  Beside the deliveries themselves the state says which of them are texts, as
  opposed to notices, and which texts a handler has delivered and not yet appended.
-/
import AppChat.Channel.ChatState
import AppChat.Channel.Replay
import AppChat.Foundation.Threads

set_option autoImplicit false

namespace AppChat

open Foundation Storage

/-! ## The actions -/

/-- One access to the shared members, in the order the source makes them. -/
inductive RoomAct where
  | recordRoom (s : ConnectionId)
  | find
  | load
  | insert (history : List TextSendData)
  | replay (s : ConnectionId)
  | subscribe (s : ConnectionId)
  | deliver (data : TextSendData) (isText : Bool)
  | append (data : TextSendData) (isText : Bool)
  | recordLogin (s : ConnectionId)
  | save (data : TextSendData)
  | answer (s : ConnectionId) (flag : Bool)
  deriving DecidableEq, Repr

/-- What an action returns. -/
abbrev RoomAct.Res : RoomAct → Type
  | .find => Bool
  | .load => List TextSendData
  | .insert _ => Bool
  | _ => Unit

/-- The code of a handler, as a program of these accesses. -/
abbrev RoomProgram := Program RoomAct RoomAct.Res

/-- The rooms, what has been handed to the subscribers, what the joins have
returned; the texts in the history of the room, the texts delivered and not yet
appended, and the deliveries of texts. -/
structure RoomShared (D : DatabaseOps) where
  chat : ChatState D
  deliveries : List Delivery := []
  answers : List (ConnectionId × Bool) := []
  texts : List TextSendData := []
  underway : List TextSendData := []
  handedTexts : List Delivery := []

namespace RoomShared

variable {D : DatabaseOps}

/-- The channel of the room. -/
def channel (σ : RoomShared D) (r : Identifier) : Option Channel :=
  σ.chat.manager.channels.lookup r

/-- The stored history of the room; `none` when loading it throws. -/
def stored (σ : RoomShared D) (r : Identifier) : Option (List TextSendData) :=
  (D.getHistory σ.chat.db r).2

/-- New rooms. -/
def setManager (σ : RoomShared D) (m : ChannelsManager) : RoomShared D :=
  { σ with chat := { σ.chat with manager := m } }

/-- A new state of the database. -/
def setDb (σ : RoomShared D) (db : D.State) : RoomShared D :=
  { σ with chat := { σ.chat with db := db } }

/-- A new channel under the room `r`. -/
def setChannel (σ : RoomShared D) (r : Identifier) (ch : Channel) : RoomShared D :=
  σ.setManager
    { σ.chat.manager with channels := σ.chat.manager.channels.insert r ch }

/-- What an action does in the room `r`, and what it returns; `none` when an
exception ends the process. -/
def exec (view : View) (r : Identifier) (σ : RoomShared D) :
    (a : RoomAct) → Option (RoomShared D × a.Res)
  | .recordRoom s =>
      let m := σ.chat.manager
      some (σ.setManager
        { m with clientInRooms := ChannelsManager.addRoom m.clientInRooms (view s).clientId r }, ())
  | .find => some (σ, (σ.channel r).isSome)
  | .load => (σ.stored r).map fun history => (σ.setDb (D.getHistory σ.chat.db r).1, history)
  | .insert history =>
      let emplaced := σ.chat.manager.channels.emplace r ⟨r, ∅, history⟩
      let inserted := σ.setManager { σ.chat.manager with channels := emplaced.1 }
      some (if emplaced.2 then { inserted with texts := history } else inserted, emplaced.2)
  | .replay s =>
      (σ.channel r).map fun ch =>
        ({ σ with
            deliveries := σ.deliveries ++ ch.historyRoom.map fun data => ⟨s, data⟩
            handedTexts := σ.handedTexts ++ σ.texts.map fun data => ⟨s, data⟩ }, ())
  | .subscribe s =>
      (σ.channel r).map fun ch =>
        (σ.setChannel r
          { ch with subscribers := ch.subscribers.tryEmplace (view s).clientId s }, ())
  | .deliver data isText =>
      (σ.channel r).map fun ch =>
        let handed := ch.subscribers.values.map fun sub => (⟨sub, data⟩ : Delivery)
        let delivered := { σ with deliveries := σ.deliveries ++ handed }
        (if isText then
          { delivered with
            underway := σ.underway ++ [data], handedTexts := σ.handedTexts ++ handed }
        else delivered, ())
  | .append data isText =>
      (σ.channel r).map fun ch =>
        let appended := σ.setChannel r { ch with historyRoom := ch.historyRoom ++ [data] }
        (if isText then
          { appended with texts := σ.texts ++ [data], underway := σ.underway.erase data }
        else appended, ())
  | .recordLogin s =>
      let m := σ.chat.manager
      some (σ.setManager
        { m with
          clientidToLogin := m.clientidToLogin.tryEmplace (view s).clientId (view s).login }, ())
  | .save data => some (σ.setDb (D.saveTextMsg σ.chat.db data), ())
  | .answer s flag => some ({ σ with answers := σ.answers ++ [(s, flag)] }, ())

end RoomShared

/-! ## The programs -/

namespace RoomProgram

/-- One access. -/
abbrev perform (a : RoomAct) : RoomProgram a.Res := Program.perform a

/-- `Channel::notification`. -/
def notification (data : TextSendData) (isText : Bool) : RoomProgram Unit := do
  perform (.deliver data isText)
  perform (.append data isText)

/-- `Channel::join` and the end of `ChannelsManager::join`. -/
def enter (view : View) (r : Identifier) (s : ConnectionId) : RoomProgram Unit := do
  perform (.replay s)
  perform (.subscribe s)
  notification (Channel.joinNotice (view s).login r) false
  perform (.recordLogin s)
  perform (.answer s true)

/-- `ChannelsManager::join`. -/
def join (view : View) (r : Identifier) (s : ConnectionId) : RoomProgram Unit := do
  perform (.recordRoom s)
  let found ← perform .find
  if found then enter view r s
  else
    let history ← perform .load
    let inserted ← perform (.insert history)
    if inserted then enter view r s else perform (.answer s false)

/-- `do_text_msg`: `send_to_channel` and `save_text_msg`. -/
def text (data : TextSendData) : RoomProgram Unit := do
  let found ← perform .find
  if found then
    notification data true
    perform (.save data)
  else perform (.save data)

end RoomProgram

/-- A handler: a join of a connection, or a text with a login and a body. -/
inductive RoomJob where
  | join (s : ConnectionId)
  | text (login body : Bytes)
  deriving DecidableEq, Repr

namespace RoomJob

/-- The code of a job. -/
def program (view : View) (r : Identifier) : RoomJob → RoomProgram Unit
  | join s => RoomProgram.join view r s
  | text login body => RoomProgram.text ⟨r, login, body⟩

/-- Who joins. -/
def joiner : RoomJob → Option ConnectionId
  | join s => some s
  | text _ _ => none

/-- The text of a handler. -/
def data (r : Identifier) : RoomJob → List TextSendData
  | join _ => []
  | text login body => [⟨r, login, body⟩]

end RoomJob

/-! ## A handler alone

Without anything in between, the actions of a handler add up to the operation of
`Channel.ChatState`. -/

section Alone

variable {D : DatabaseOps} {view : View} {r : Identifier} {σ : RoomShared D}

/-- The state `σ'` has the rooms `chat` and the deliveries `out` more than `σ`. -/
def RoomShared.Leads (σ σ' : RoomShared D) (chat : ChatState D) (out : List Delivery) : Prop :=
  σ'.chat = chat ∧ σ'.deliveries = σ.deliveries ++ out

theorem alone_text (login body : Bytes) :
    ∃ σ', (RoomJob.program view r (.text login body)).alone (RoomShared.exec view r) σ =
        some (σ', ()) ∧
      σ.Leads σ' (σ.chat.text ⟨r, login, body⟩).1 (σ.chat.text ⟨r, login, body⟩).2 := by
  simp only [RoomJob.program, RoomProgram.text, RoomProgram.notification, Program.perform,
    Program.act_bind, Program.ret_bind, Program.alone_act, RoomShared.exec, RoomShared.channel,
    Option.bind_some, ChatState.text, ChannelsManager.sendToChannel]
  cases hroom : σ.chat.manager.channels.lookup r with
  | none =>
      simp only [Option.isSome_none, Bool.false_eq_true, if_false, Program.alone_act,
        Program.alone_ret, RoomShared.exec, Option.bind_some]
      exact ⟨_, rfl, rfl, (List.append_nil _).symm⟩
  | some ch =>
      simp only [Option.isSome_some, if_true, Program.alone_act, Program.alone_ret,
        RoomShared.exec, RoomShared.channel, Option.bind_some, Option.map_some, hroom]
      exact ⟨_, rfl, rfl, rfl⟩

/-- The part of a join after the channel has been found or inserted. -/
theorem alone_enter {ch : Channel} (hroom : σ.chat.manager.channels.lookup r = some ch)
    (hid : ch.channelId = r) (s : ConnectionId) :
    ∃ σ', (RoomProgram.enter view r s).alone (RoomShared.exec view r) σ = some (σ', ()) ∧
      σ.Leads σ'
        ⟨{ σ.chat.manager with
            channels := σ.chat.manager.channels.insert r (ch.join view s).1
            clientidToLogin := σ.chat.manager.clientidToLogin.tryEmplace (view s).clientId
              (view s).login }, σ.chat.db⟩ (ch.join view s).2 ∧
      σ'.answers = σ.answers ++ [(s, true)] := by
  subst hid
  simp only [RoomProgram.enter, RoomProgram.notification, Program.perform, Program.act_bind,
    Program.ret_bind, Program.alone_act, Program.alone_ret, RoomShared.exec, RoomShared.channel,
    RoomShared.setChannel, RoomShared.setManager, hroom, Option.map_some, Option.bind_some,
    AList.lookup_insert, AList.insert_insert, Bool.false_eq_true, if_false]
  exact ⟨_, rfl, ⟨rfl, List.append_assoc ..⟩, rfl⟩

theorem alone_join (s : ConnectionId)
    (hroom : ∀ ch, σ.channel r = some ch → ch.channelId = r) :
    match σ.chat.join view s r with
    | none => (RoomJob.program view r (.join s)).alone (RoomShared.exec view r) σ = none
    | some (chat, flag, out) =>
        ∃ σ', (RoomJob.program view r (.join s)).alone (RoomShared.exec view r) σ =
            some (σ', ()) ∧
          σ.Leads σ' chat out ∧ σ'.answers = σ.answers ++ [(s, flag)] := by
  cases hlookup : σ.chat.manager.channels.lookup r with
  | some ch =>
      simp only [ChatState.join, ChannelsManager.join, ChannelsManager.enter, hlookup,
        Option.map_some, RoomJob.program, RoomProgram.join, Program.perform, Program.act_bind,
        Program.ret_bind, Program.alone_act, RoomShared.exec, RoomShared.channel,
        RoomShared.setManager, Option.bind_some, Option.isSome_some, if_true]
      let σ₁ : RoomShared D := σ.setManager { σ.chat.manager with
        clientInRooms :=
          ChannelsManager.addRoom σ.chat.manager.clientInRooms (view s).clientId r }
      exact @alone_enter D view r σ₁ ch hlookup (hroom ch hlookup) s
  | none =>
      cases hload : D.getHistory σ.chat.db r with
      | mk db loaded =>
          cases loaded with
          | none =>
              simp only [ChatState.join, ChannelsManager.join, hlookup, Channel.create, hload,
                Option.map_none, RoomJob.program, RoomProgram.join, Program.perform,
                Program.act_bind, Program.ret_bind, Program.alone_act, RoomShared.exec,
                RoomShared.channel, RoomShared.setManager, RoomShared.stored, Option.bind_some,
                Option.isSome_none, Bool.false_eq_true, if_false, Option.bind_none]
          | some history =>
              simp only [ChatState.join, ChannelsManager.join, ChannelsManager.enter, hlookup,
                Channel.create, hload, Option.map_some, RoomJob.program, RoomProgram.join,
                Program.perform, Program.act_bind, Program.ret_bind, Program.alone_act,
                RoomShared.exec, RoomShared.channel, RoomShared.setManager, RoomShared.setDb,
                RoomShared.stored, Option.bind_some, Option.isSome_none, Bool.false_eq_true,
                if_false, if_true, UnorderedMap.emplace_of_lookup_none hlookup]
              let ch : Channel := ⟨r, ∅, history⟩
              let σ₁ : RoomShared D :=
                { σ with
                  chat :=
                    ⟨{ σ.chat.manager with
                        channels := σ.chat.manager.channels.insert r ch
                        clientInRooms := ChannelsManager.addRoom σ.chat.manager.clientInRooms
                          (view s).clientId r }, db⟩
                  texts := history }
              have henter := @alone_enter D view r σ₁ ch (AList.lookup_insert _) rfl s
              simpa [σ₁, RoomShared.Leads] using henter

end Alone

end AppChat
