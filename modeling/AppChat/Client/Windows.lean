/-
  `Client.Windows`: the windows of the client, from `client/control/` and `client/gui/`.

  The read handlers of a `Client` run in a thread of their own.  What they emit waits
  until the thread of the windows comes to it; the history of a room does not wait.  A chat
  window that is opened shows the history, and then prints every text of the room whose
  signal it comes to.

  This is the session of one `Client`, from the moment its log in request has been sent.
-/
import AppChat.Client.ReadHandlers
import AppChat.Client.RoomHistory
import AppChat.Protocol.Sending

set_option autoImplicit false

namespace AppChat

open Foundation Serialize Protocol

/-! ## The signals of the read handlers -/

/-- `InputCode` of `protocol/command_table.h`. -/
inductive InputCode where
  | registrOK
  | autorOK
  | busyRegistr
  | incorrectAutor
  deriving DecidableEq, Repr

/-- `send_text`, `send_input_code` and `sig_update_channels`. -/
inductive ClientSignal where
  | sendText (msg : ClientTextMsg)
  | sendInputCode (code : InputCode)
  | sigUpdateChannels
  deriving DecidableEq, Repr

namespace ReadState

/-- The signals of three of the handlers: one for a success, one for a failure. -/
def responseSignals (status : Response → Option Status) (success failure : List ClientSignal)
    (readBuffer : Bytes) : List ClientSignal :=
  let parsed := Client.parseBuffer readBuffer
  if parsed.2 then
    match status parsed.1 with
    | none => []
    | some status => if status = .OK then success else failure
  else []

/-- What a handler emits when its read has succeeded. -/
def bodySignals : BodyHandler → Bytes → List ClientSignal
  | .doReadInputResponse =>
      responseSignals (fun r => (inputMember r).map Prod.fst) [.sendInputCode .autorOK]
        [.sendInputCode .incorrectAutor]
  | .doReadRegResponse =>
      responseSignals (fun r => (regMember r).map Prod.fst) [.sendInputCode .registrOK]
        [.sendInputCode .busyRegistr]
  | .doReadJoinRoomResponse =>
      responseSignals (fun r => (joinRoomMember r).map Prod.fst) [.sigUpdateChannels] []
  | .doReadEchoResponse => fun readBuffer =>
      let m := Client.textResponse (Client.parseBuffer readBuffer).1
      [.sendText ⟨m.login, m.text, m.roomId⟩]

/-- What the completion of a read emits. -/
def signals (st : ReadState) : ReadEvent → List ClientSignal
  | .failed => []
  | .bytes data =>
      match st.pending with
      | .body handler :: _ => bodySignals handler data
      | _ => []

/-- The room of a join whose answer OK has been read. -/
def joinedRoom (st : ReadState) : ReadEvent → Option Identifier
  | .failed => none
  | .bytes data =>
      match st.pending, Client.parseBuffer data with
      | .body .doReadJoinRoomResponse :: _, (.joinRoomResponse m, true) =>
          if m.status = .OK then some m.roomId else none
      | _, _ => none

end ReadState

/-! ## The windows -/

/-- A `Client` with its `current_room` and `msg_to_server`, the signals the windows have
not come to, and what the windows show. -/
structure Windows where
  reader : ReadState
  currentRoom : Identifier := 0
  msgToServer : WriteQueue Bytes := {}
  posted : List ClientSignal := []
  startShown : Bool := true
  channelsShown : Bool := false
  chatShown : Bool := false
  listChannels : List Identifier := []
  textOutput : List Bytes := []

/-- A read completes; the windows come to the next signal; the user clicks a row of the
list, the button to go back, the button to add a channel or the one to send; a write of
`msg_to_server` completes. -/
inductive WindowEvent where
  | read (e : ReadEvent)
  | handle
  | doubleClick (row : Nat)
  | back
  | addChannel (roomId : Identifier)
  | send (message : Bytes)
  | written (ec : Bool)
  deriving DecidableEq, Repr

namespace Windows

/-- The line of a message, as it is handed to `QString`. -/
def line (msg : ClientTextMsg) : Bytes := cString (msg.author ++ ascii ": " ++ msg.text)

/-- `ChatWindow::print_text`. -/
def printText (w : Windows) (msg : ClientTextMsg) : Windows :=
  if msg.channelId = w.currentRoom then { w with textOutput := w.textOutput ++ [line msg] } else w

/-- `Client::get_history`: a room that is not in the map is put there. -/
def getHistory (w : Windows) (channelId : Identifier) : Windows × List ClientTextMsg :=
  let client := w.reader.client
  let looked :=
    { client with channelsHistory := client.channelsHistory.tryEmplace channelId [] }
  ({ w with reader := { w.reader with client := looked } }, client.lines channelId)

/-- `ChatWindow::upload_history`. -/
def uploadHistory (w : Windows) : Windows :=
  let (w, history) := { w with textOutput := [] }.getHistory w.currentRoom
  history.foldl printText w

/-- `Control::go_channel`. -/
def goChannel (w : Windows) (roomId : Identifier) : Windows :=
  { { w with currentRoom := roomId }.uploadHistory with channelsShown := false, chatShown := true }

/-- `Control::change_room_from_chat`. -/
def changeRoomFromChat (w : Windows) : Windows := { w with chatShown := false, channelsShown := true }

/-- `Control::change_window`. -/
def changeWindow (w : Windows) (code : InputCode) : Windows :=
  if code = .busyRegistr ∨ code = .incorrectAutor then w
  else { w with startShown := false, channelsShown := true }

/-- `Client::get_channels`: the keys are inserted into a `std::set`. -/
def getChannels (c : Client) : List Identifier :=
  c.channelsHistory.keys.insertionSort (· ≤ ·)

/-- `ChannelsWindow::update_list_channels`. -/
def updateListChannels (w : Windows) : Windows :=
  { w with listChannels := getChannels w.reader.client }

/-- The slot of a signal. -/
def slot (w : Windows) : ClientSignal → Windows
  | .sendText msg => w.printText msg
  | .sendInputCode code => w.changeWindow code
  | .sigUpdateChannels => w.updateListChannels

/-- `Client::change_room` and `Client::send_msg_to_server`. -/
def addMsgToSend (w : Windows) (request : FactoryMessage) : Option Windows :=
  (Client.addMsgToSend w.msgToServer request.frame).map fun q => { w with msgToServer := q }

/-- One event; `none` when it cannot happen or ends the process.  A button can be clicked
only when its window is shown. -/
def apply (w : Windows) : WindowEvent → Option Windows
  | .read e =>
      (w.reader.complete e).map fun reader =>
        { w with reader := reader, posted := w.posted ++ w.reader.signals e }
  | .handle =>
      match w.posted with
      | [] => none
      | signal :: rest => some ({ w with posted := rest }.slot signal)
  | .doubleClick row =>
      if w.channelsShown then (w.listChannels[row]?).map w.goChannel else none
  | .back => if w.chatShown then some w.changeRoomFromChat else none
  | .addChannel roomId => if w.channelsShown then w.addMsgToSend (.joinRoomRequest roomId) else none
  | .send message =>
      if w.chatShown then
        w.addMsgToSend (.textRequest w.reader.client.login w.currentRoom message)
      else none
  | .written ec =>
      (Client.sendDone w.msgToServer ec).map fun q =>
        { w with msgToServer := q, reader := if ec then w.reader.closeConnection else w.reader }

/-- One event and what it leaves. -/
def Step (w : Windows) (e : WindowEvent) (w' : Windows) : Prop := w.apply e = some w'

/-- The windows when the log in request of a new `Client` has been sent. -/
def start (clientId : Identifier) (login : Bytes) : Windows where
  reader := ReadState.start clientId login

end Windows

/-! ## What is emitted is what the history gets -/

/-- The texts among the signals. -/
def sentTexts (signals : List ClientSignal) : List ClientTextMsg :=
  signals.filterMap fun
    | .sendText msg => some msg
    | _ => none

/-- The texts of a room. -/
def ofRoom (room : Identifier) (msgs : List ClientTextMsg) : List ClientTextMsg :=
  msgs.filter (·.channelId = room)

@[simp] theorem sentTexts_append (a b : List ClientSignal) :
    sentTexts (a ++ b) = sentTexts a ++ sentTexts b :=
  List.filterMap_append ..

@[simp] theorem ofRoom_append (room : Identifier) (a b : List ClientTextMsg) :
    ofRoom room (a ++ b) = ofRoom room a ++ ofRoom room b :=
  List.filter_append ..

theorem ofRoom_singleton (room : Identifier) (msg : ClientTextMsg) :
    ofRoom room [msg] = if room = msg.channelId then [msg] else [] := by
  by_cases hroom : room = msg.channelId
  · simp [ofRoom, hroom]
  · simp [ofRoom, hroom, Ne.symm hroom]

theorem channelId_of_mem_ofRoom {room : Identifier} {msgs : List ClientTextMsg} {msg : ClientTextMsg}
    (h : msg ∈ ofRoom room msgs) : msg.channelId = room :=
  of_decide_eq_true (List.mem_filter.mp h).2

namespace ReadState

variable {st st' : ReadState} {e : ReadEvent} {room : Identifier}

theorem sentTexts_responseSignals {status : Response → Option Status}
    {success failure : List ClientSignal} (hsuccess : sentTexts success = [])
    (hfailure : sentTexts failure = []) (readBuffer : Bytes) :
    sentTexts (responseSignals status success failure readBuffer) = [] := by
  simp only [responseSignals]
  split
  · split
    · rfl
    · split
      · exact hsuccess
      · exact hfailure
  · rfl

/-- Three of the handlers emit no text. -/
theorem sentTexts_signals {client : Client} {readBuffer data : Bytes} {handler : BodyHandler}
    {rest : List PendingRead} (h : handler ≠ .doReadEchoResponse) :
    sentTexts (signals ⟨client, readBuffer, .body handler :: rest⟩ (.bytes data)) = [] := by
  show sentTexts (bodySignals handler data) = []
  cases handler with
  | doReadEchoResponse => exact absurd rfl h
  | _ =>
      rw [bodySignals]
      exact sentTexts_responseSignals rfl rfl data

/-- What the completion of a read does to the rooms: nothing, or a room is entered whose
join has been answered OK, or a text is appended, and then it is emitted. -/
inductive RoomEffect (st : ReadState) (e : ReadEvent) (st' : ReadState) : Prop where
  | keep :
      st'.client.channelsHistory = st.client.channelsHistory → sentTexts (st.signals e) = [] →
      st.joinedRoom e = none → RoomEffect st e st'
  | join {roomId : Identifier} :
      st'.client.channelsHistory = st.client.channelsHistory.tryEmplace roomId [] →
      st.signals e = [.sigUpdateChannels] → st.joinedRoom e = some roomId → RoomEffect st e st'
  | text {msg : ClientTextMsg} :
      st'.client.channelsHistory = (st.client.pushBack msg).channelsHistory →
      st.signals e = [.sendText msg] → st.joinedRoom e = none → RoomEffect st e st'

/-- Three of the handlers can leave the rooms alone. -/
theorem channelsHistory_readResponse {member : Response → Option (Status × (Client → Client))}
    (hmember : ∀ r p, member r = some p →
      ∀ c : Client, (p.2 c).channelsHistory = c.channelsHistory)
    (st : ReadState) (error : Bool) :
    (readResponse member st error).client.channelsHistory = st.client.channelsHistory := by
  simp only [readResponse]
  split
  · rfl
  · split
    · split
      · rfl
      · rename_i status update hfound
        split
        · exact hmember _ _ hfound st.client
        · rfl
    · rfl

theorem roomEffect_body {client : Client} {readBuffer data : Bytes} {handler : BodyHandler}
    {rest : List PendingRead} :
    RoomEffect ⟨client, readBuffer, .body handler :: rest⟩ (.bytes data)
      (runBody handler ⟨client, data, rest⟩ false) := by
  cases handler with
  | doReadInputResponse =>
      refine .keep (channelsHistory_readResponse (fun r p hp c => ?_) _ _)
        (sentTexts_signals (by decide)) rfl
      cases r <;> cases hp
      rfl
  | doReadRegResponse =>
      refine .keep (channelsHistory_readResponse (fun r p hp c => ?_) _ _)
        (sentTexts_signals (by decide)) rfl
      cases r <;> cases hp
      rfl
  | doReadJoinRoomResponse =>
      rcases hparse : Client.parseBuffer data with ⟨r, flagParse⟩
      have hkeep : ∀ {st' : ReadState}, st'.client.channelsHistory = client.channelsHistory →
          joinedRoom ⟨client, readBuffer, .body .doReadJoinRoomResponse :: rest⟩ (.bytes data) = none →
          RoomEffect ⟨client, readBuffer, .body .doReadJoinRoomResponse :: rest⟩ (.bytes data) st' :=
        fun hsame hnone => .keep hsame (sentTexts_signals (by decide)) hnone
      cases flagParse with
      | false =>
          refine hkeep ?_ ?_
          · simp [runBody, doReadJoinRoomResponse, readResponse, hparse, closeConnection,
              Client.closeConnection]
          · simp [joinedRoom, hparse]
      | true =>
          cases r with
          | joinRoomResponse m =>
              by_cases hstatus : m.status = .OK
              · refine @RoomEffect.join _ _ _ m.roomId ?_ ?_ ?_
                · simp [runBody, doReadJoinRoomResponse, readResponse, hparse, joinRoomMember,
                    hstatus, asyncReadPbHeader]
                · simp [signals, bodySignals, responseSignals, hparse, joinRoomMember, hstatus]
                · simp [joinedRoom, hparse, hstatus]
              · refine hkeep ?_ ?_
                · simp [runBody, doReadJoinRoomResponse, readResponse, hparse, joinRoomMember,
                    hstatus, closeConnection, Client.closeConnection]
                · simp [joinedRoom, hparse, hstatus]
          | _ =>
              refine hkeep ?_ ?_
              · simp [runBody, doReadJoinRoomResponse, readResponse, hparse, joinRoomMember]
              · simp [joinedRoom, hparse]
  | doReadEchoResponse => exact .text rfl rfl rfl

theorem roomEffect_of_complete (h : st.complete e = some st') : RoomEffect st e st' := by
  obtain ⟨client, readBuffer, pending⟩ := st
  cases pending with
  | nil => cases h
  | cons read rest =>
      cases read with
      | header =>
          cases e with
          | failed =>
              cases h
              exact .keep rfl rfl rfl
          | bytes data =>
              refine .keep ?_ rfl rfl
              simp only [complete, doReadPbHeader, asyncReadPbMsg, Bool.false_eq_true,
                if_false] at h
              split at h
              · split at h
                · obtain ⟨resized, -, rfl⟩ := Option.map_eq_some_iff.mp h
                  split
                  · rfl
                  · rfl
                · cases h
                  rfl
              · cases h
      | body handler =>
          cases e with
          | failed =>
              cases h
              cases handler <;> exact .keep rfl rfl rfl
          | bytes data =>
              simp only [complete] at h
              split at h
              · cases h
                exact roomEffect_body
              · cases h

/-- A room gets the texts of the room that are emitted. -/
theorem lines_complete (h : st.complete e = some st') :
    st'.client.lines room = st.client.lines room ++ ofRoom room (sentTexts (st.signals e)) := by
  have hlines : ∀ {c c' : Client}, c'.channelsHistory = c.channelsHistory →
      c'.lines room = c.lines room := by
    intro c c' hsame
    rw [Client.lines, Client.lines, hsame]
  cases roomEffect_of_complete h with
  | keep hsame hnone _ =>
      rw [hlines hsame, hnone]
      exact (List.append_nil _).symm
  | @join roomId hjoined hsignals _ =>
      rw [hsignals, @hlines { st.client with
        channelsHistory := st.client.channelsHistory.tryEmplace roomId [] } _ hjoined,
        Client.lines_tryEmplace]
      exact (List.append_nil _).symm
  | @text msg hpushed hsignals _ =>
      rw [hsignals, hlines hpushed, Client.lines_pushBack]
      show _ = _ ++ ofRoom room [msg]
      rw [ofRoom_singleton]

/-- A room that is in the map stays there. -/
theorem mem_complete (h : st.complete e = some st') (hroom : room ∈ st.client.channelsHistory) :
    room ∈ st'.client.channelsHistory := by
  cases roomEffect_of_complete h with
  | keep hsame _ _ => rwa [hsame]
  | join hjoined _ _ =>
      rw [hjoined]
      exact UnorderedMap.mem_tryEmplace.mpr (Or.inr hroom)
  | text hpushed _ _ =>
      rw [hpushed]
      exact AList.mem_insert _ |>.mpr (Or.inr hroom)

/-- A room whose join is answered OK is put there, and the list is to be updated. -/
theorem joined_complete (h : st.complete e = some st') (hroom : st.joinedRoom e = some room) :
    room ∈ st'.client.channelsHistory ∧ .sigUpdateChannels ∈ st.signals e := by
  cases roomEffect_of_complete h with
  | keep _ _ hnone => cases hnone.symm.trans hroom
  | join hjoined hsignals hid =>
      cases hid.symm.trans hroom
      rw [hjoined, hsignals]
      exact ⟨UnorderedMap.mem_tryEmplace.mpr (Or.inl rfl), List.mem_singleton_self _⟩
  | text _ _ hnone => cases hnone.symm.trans hroom

end ReadState

/-! ## The chat window -/

namespace Windows

variable {w w' w₁ w₂ : Windows} {e : WindowEvent} {room : Identifier}

/-- The lines the open window will have when it has come to all signals, from the history
and the signals it started with and what has been received since. -/
def Prints (room : Identifier) (history queued received : List ClientTextMsg) (w : Windows) : Prop :=
  w.currentRoom = room ∧ w.reader.client.lines room = history ++ received ∧
    w.textOutput ++ (ofRoom room (sentTexts w.posted)).map line =
      (history ++ queued ++ received).map line

theorem foldl_printText {msgs : List ClientTextMsg} (hmsgs : ∀ msg ∈ msgs, msg.channelId = room)
    (hroom : w.currentRoom = room) :
    msgs.foldl printText w = { w with textOutput := w.textOutput ++ msgs.map line } := by
  induction msgs generalizing w with
  | nil => simp
  | cons msg msgs ih =>
      obtain ⟨hmsg, hrest⟩ := List.forall_mem_cons.mp hmsgs
      have hprint : w.printText msg = { w with textOutput := w.textOutput ++ [line msg] } :=
        if_pos (hmsg.trans hroom.symm)
      rw [List.foldl_cons, hprint, @ih { w with textOutput := w.textOutput ++ [line msg] } hrest hroom]
      simp

/-- The lines of a room are of the room. -/
def OwnLines (w : Windows) : Prop :=
  ∀ room, ∀ msg ∈ w.reader.client.lines room, msg.channelId = room

/-- What opening a room does. -/
theorem goChannel_eq (h : w.OwnLines) (room : Identifier) :
    w.goChannel room =
      { w with
        reader := { w.reader with client := { w.reader.client with
          channelsHistory := w.reader.client.channelsHistory.tryEmplace room [] } }
        currentRoom := room
        textOutput := (w.reader.client.lines room).map line
        channelsShown := false
        chatShown := true } := by
  simp only [goChannel, uploadHistory, getHistory]
  rw [@foldl_printText _ room (w.reader.client.lines room) (h room) rfl]
  rfl

/-- What an event does to the client, its signals and the chat window. -/
inductive Effect (w : Windows) : WindowEvent → Windows → Prop where
  | read {e : ReadEvent} {reader : ReadState} :
      w.reader.complete e = some reader →
        Effect w (.read e) { w with reader := reader, posted := w.posted ++ w.reader.signals e }
  | handle {signal : ClientSignal} {rest : List ClientSignal} :
      w.posted = signal :: rest → Effect w .handle ({ w with posted := rest }.slot signal)
  | opened {row : Nat} {room : Identifier} :
      w.channelsShown = true → w.listChannels[row]? = some room →
        Effect w (.doubleClick row) (w.goChannel room)
  | back : w.chatShown = true → Effect w .back w.changeRoomFromChat
  | request {e : WindowEvent} {q : WriteQueue Bytes} :
      (∀ row, e ≠ .doubleClick row) → (∀ e', e ≠ .read e') → e ≠ .handle → e ≠ .back →
        Effect w e { w with msgToServer := q }
  | failed {q : WriteQueue Bytes} :
      Effect w (.written true) { w with msgToServer := q, reader := w.reader.closeConnection }

theorem effect_of_step (h : Step w e w') : Effect w e w' := by
  have hadd : ∀ {request : FactoryMessage}, w.addMsgToSend request = some w' →
      ∃ q, w' = { w with msgToServer := q } := by
    intro request hrequest
    obtain ⟨q, -, rfl⟩ := Option.map_eq_some_iff.mp hrequest
    exact ⟨q, rfl⟩
  cases e with
  | read e =>
      obtain ⟨reader, hreader, rfl⟩ := Option.map_eq_some_iff.mp h
      exact .read hreader
  | handle =>
      simp only [Step, apply] at h
      split at h
      · cases h
      · rename_i signal rest hposted
        cases h
        exact .handle hposted
  | doubleClick row =>
      simp only [Step, apply] at h
      split at h
      · rename_i hshown
        obtain ⟨room, hroom, rfl⟩ := Option.map_eq_some_iff.mp h
        exact .opened hshown hroom
      · cases h
  | back =>
      simp only [Step, apply] at h
      split at h
      · rename_i hshown
        cases h
        exact .back hshown
      · cases h
  | addChannel roomId =>
      simp only [Step, apply] at h
      split at h
      · obtain ⟨q, rfl⟩ := hadd h
        exact .request nofun nofun nofun nofun
      · cases h
  | send message =>
      simp only [Step, apply] at h
      split at h
      · obtain ⟨q, rfl⟩ := hadd h
        exact .request nofun nofun nofun nofun
      · cases h
  | written ec =>
      obtain ⟨q, -, rfl⟩ := Option.map_eq_some_iff.mp h
      cases ec with
      | true => exact .failed
      | false => exact .request nofun nofun nofun nofun

/-- The slots that print nothing leave the chat window and the client alone. -/
theorem slot_eq_of_ne {signal : ClientSignal} (h : ∀ msg, signal ≠ .sendText msg) (w : Windows) :
    (w.slot signal).reader = w.reader ∧ (w.slot signal).currentRoom = w.currentRoom ∧
      (w.slot signal).textOutput = w.textOutput ∧ (w.slot signal).posted = w.posted := by
  cases signal with
  | sendText msg => exact absurd rfl (h msg)
  | sendInputCode code =>
      simp only [slot, changeWindow]
      split <;> exact ⟨rfl, rfl, rfl, rfl⟩
  | sigUpdateChannels => exact ⟨rfl, rfl, rfl, rfl⟩

/-- No slot changes the client or what waits behind its signal. -/
theorem slot_keeps (signal : ClientSignal) (w : Windows) :
    (w.slot signal).reader = w.reader ∧ (w.slot signal).posted = w.posted := by
  cases signal with
  | sendText msg =>
      simp only [slot, printText]
      split
      · exact ⟨rfl, rfl⟩
      · exact ⟨rfl, rfl⟩
  | sendInputCode code =>
      obtain ⟨hreader, -, -, hposted⟩ := @slot_eq_of_ne (.sendInputCode code) nofun w
      exact ⟨hreader, hposted⟩
  | sigUpdateChannels => exact ⟨rfl, rfl⟩

theorem ownLines_step (hstep : Step w e w') (h : w.OwnLines) : w'.OwnLines := by
  cases effect_of_step hstep with
  | @read e reader hreader =>
      intro room msg hmsg
      rw [show reader.client.lines room = _ from ReadState.lines_complete hreader] at hmsg
      rcases List.mem_append.mp hmsg with hold | hnew
      · exact h room msg hold
      · exact channelId_of_mem_ofRoom hnew
  | @handle signal rest hposted =>
      intro room msg hmsg
      rw [(slot_keeps signal { w with posted := rest }).1] at hmsg
      exact h room msg hmsg
  | @opened row room hshown hroom =>
      intro room' msg hmsg
      rw [goChannel_eq h] at hmsg
      exact h room' msg ((Client.lines_tryEmplace ..) ▸ hmsg)
  | back hshown => exact h
  | request _ _ _ _ => exact h
  | failed => exact h

/-- The texts whose signals wait are the last ones of their rooms. -/
def LastWait (w : Windows) : Prop :=
  ∀ room, ofRoom room (sentTexts w.posted) <:+ w.reader.client.lines room

theorem lastWait_step (hstep : Step w e w') (hown : w.OwnLines) (h : w.LastWait) :
    w'.LastWait := by
  cases effect_of_step hstep with
  | @read e reader hreader =>
      intro room
      obtain ⟨old, hold⟩ := h room
      refine ⟨old, ?_⟩
      show old ++ ofRoom room (sentTexts (w.posted ++ _)) = reader.client.lines room
      rw [ReadState.lines_complete hreader, sentTexts_append, ofRoom_append, ← List.append_assoc,
        hold]
  | @handle signal rest hposted =>
      intro room
      obtain ⟨hreader, hrest⟩ := slot_keeps signal { w with posted := rest }
      rw [hreader, hrest]
      have hsuffix : ofRoom room (sentTexts rest) <:+ ofRoom room (sentTexts w.posted) := by
        rw [hposted]
        exact ((List.suffix_cons signal rest).filterMap _).filter _
      exact hsuffix.trans (h room)
  | @opened row room hshown hroom =>
      intro room'
      rw [goChannel_eq hown]
      exact (Client.lines_tryEmplace ..).symm ▸ h room'
  | back hshown => exact h
  | request _ _ _ _ => exact h
  | failed => exact h

/-- Signals and reads keep the account of the chat window; so does everything else but
opening a room. -/
theorem prints_step {history queued received : List ClientTextMsg} (hstep : Step w e w')
    (hopen : ∀ row, e ≠ .doubleClick row) (h : Prints room history queued received w) :
    ∃ more, Prints room history queued (received ++ more) w' := by
  obtain ⟨hroom, hlines, htext⟩ := h
  have hkeep : ∀ {w' : Windows}, w'.currentRoom = w.currentRoom →
      w'.reader.client.lines room = w.reader.client.lines room →
      w'.textOutput ++ (ofRoom room (sentTexts w'.posted)).map line =
        w.textOutput ++ (ofRoom room (sentTexts w.posted)).map line →
      ∃ more, Prints room history queued (received ++ more) w' := by
    intro w' hroom' hlines' htext'
    refine ⟨[], hroom'.trans hroom, ?_, ?_⟩
    · rw [hlines', hlines, List.append_nil]
    · rw [htext', htext, List.append_nil]
  cases effect_of_step hstep with
  | @read e reader hreader =>
      refine ⟨ofRoom room (sentTexts (w.reader.signals e)), hroom, ?_, ?_⟩
      · show reader.client.lines room = _
        rw [ReadState.lines_complete hreader, hlines, List.append_assoc]
      · show w.textOutput ++ (ofRoom room (sentTexts (w.posted ++ _))).map line = _
        rw [sentTexts_append, ofRoom_append, List.map_append, ← List.append_assoc, htext,
          ← List.map_append, List.append_assoc (history ++ queued)]
  | @handle signal rest hposted =>
      rw [hposted] at hkeep
      cases signal with
      | sendText msg =>
          have htexts : ofRoom room (sentTexts (.sendText msg :: rest)) =
              ofRoom room [msg] ++ ofRoom room (sentTexts rest) :=
            ofRoom_append room [msg] (sentTexts rest)
          rw [htexts, ofRoom_singleton] at hkeep
          simp only [slot, printText]
          by_cases hmsg : msg.channelId = w.currentRoom
          · rw [if_pos hmsg]
            rw [if_pos (hmsg.trans hroom).symm] at hkeep
            refine hkeep rfl rfl ?_
            rw [List.map_append, ← List.append_assoc]
            rfl
          · rw [if_neg hmsg]
            rw [if_neg fun heq => hmsg (heq.symm.trans hroom.symm)] at hkeep
            exact hkeep rfl rfl rfl
      | sendInputCode code =>
          obtain ⟨hreader', hroom', htext', hposted'⟩ :=
            @slot_eq_of_ne (.sendInputCode code) nofun { w with posted := rest }
          refine hkeep hroom' (by rw [hreader']) ?_
          rw [htext', hposted']
          rfl
      | sigUpdateChannels =>
          exact hkeep rfl rfl rfl
  | @opened row room hshown hroom => exact absurd rfl (hopen row)
  | back hshown => exact hkeep rfl rfl rfl
  | request _ _ _ _ => exact hkeep rfl rfl rfl
  | failed => exact hkeep rfl rfl rfl

theorem prints_of_run {history queued received : List ClientTextMsg} {es : List WindowEvent}
    (hrun : Run Step w es w') (hopen : ∀ e ∈ es, ∀ row, e ≠ .doubleClick row)
    (h : Prints room history queued received w) :
    ∃ more, Prints room history queued (received ++ more) w' := by
  induction hrun generalizing received with
  | nil w => exact ⟨[], (List.append_nil received).symm ▸ h⟩
  | cons hstep _ ih =>
      obtain ⟨he, hrest⟩ := List.forall_mem_cons.mp hopen
      obtain ⟨more, hmore⟩ := prints_step hstep he h
      obtain ⟨rest, hend⟩ := ih hrest hmore
      exact ⟨more ++ rest, (List.append_assoc ..) ▸ hend⟩

theorem ownLines_start (clientId : Identifier) (login : Bytes) : (start clientId login).OwnLines := by
  intro room msg hmsg
  cases hmsg

/-- **What the chat window shows.**  After a room has been opened, and until another one is,
the window will have printed the history as it was then, the texts of the room whose signals
were waiting then, which are the last ones of that history, and the texts received since.  So
when no signal waits it shows the history exactly when none of the room was waiting when it
was opened; otherwise it shows those twice. -/
theorem textOutput_eq_history_iff {clientId : Identifier} {login : Bytes}
    {before after : List WindowEvent} {row : Nat}
    (hbefore : Run Step (start clientId login) before w) (hclick : Step w (.doubleClick row) w₁)
    (hafter : Run Step w₁ after w₂) (hopen : ∀ e ∈ after, ∀ row, e ≠ .doubleClick row) :
    let room := w₁.currentRoom
    ofRoom room (sentTexts w.posted) <:+ w.reader.client.lines room ∧
    (∃ received : List ClientTextMsg,
        w₂.reader.client.lines room = w.reader.client.lines room ++ received ∧
        w₂.textOutput ++ (ofRoom room (sentTexts w₂.posted)).map line =
          (w.reader.client.lines room ++ ofRoom room (sentTexts w.posted) ++ received).map line) ∧
      (w₂.posted = [] →
        (w₂.textOutput = (w₂.reader.client.lines room).map line ↔
          ∀ msg, .sendText msg ∈ w.posted → msg.channelId ≠ room)) := by
  obtain ⟨hown, hlast⟩ : w.OwnLines ∧ w.LastWait := by
    refine @Run.invariant _ _ Step _ _ _ (fun w => w.OwnLines ∧ w.LastWait) ?_ hbefore
      ⟨ownLines_start clientId login, fun room => List.suffix_refl _⟩
    rintro _ _ _ hstep ⟨hown, hlast⟩
    exact ⟨ownLines_step hstep hown, lastWait_step hstep hown hlast⟩
  cases effect_of_step hclick with
  | request hclick' _ _ _ => exact absurd rfl (hclick' row)
  | @opened _ room hshown hroom =>
      rw [goChannel_eq hown] at hafter ⊢
      have hstart : Prints room (w.reader.client.lines room) (ofRoom room (sentTexts w.posted)) []
          { w with
            reader := { w.reader with client := { w.reader.client with
              channelsHistory := w.reader.client.channelsHistory.tryEmplace room [] } }
            currentRoom := room
            textOutput := (w.reader.client.lines room).map line
            channelsShown := false
            chatShown := true } := by
        refine ⟨rfl, ?_, ?_⟩
        · rw [List.append_nil]
          exact Client.lines_tryEmplace ..
        · rw [List.append_nil, List.map_append]
      obtain ⟨received, -, hlines, htext⟩ := prints_of_run hafter hopen hstart
      rw [List.nil_append] at hlines htext
      refine ⟨hlast room, ⟨received, hlines, htext⟩, ?_⟩
      intro hposted
      rw [hposted] at htext
      have htext' : w₂.textOutput = (w.reader.client.lines room ++ ofRoom room (sentTexts w.posted) ++
          received).map line := (List.append_nil _).symm.trans htext
      have hwaiting : ofRoom room (sentTexts w.posted) = [] ↔
          ∀ msg, .sendText msg ∈ w.posted → msg.channelId ≠ room := by
        rw [ofRoom, List.filter_eq_nil_iff]
        constructor
        · intro h msg hmsg heq
          exact h msg (List.mem_filterMap.mpr ⟨_, hmsg, rfl⟩) (decide_eq_true heq)
        · intro h msg hmsg
          obtain ⟨signal, hsignal, heq⟩ := List.mem_filterMap.mp hmsg
          cases signal with
          | sendText sent =>
              cases heq
              exact fun hchannel => h msg hsignal (of_decide_eq_true hchannel)
          | _ => cases heq
      rw [htext', hlines, ← hwaiting]
      constructor
      · intro heq
        have hlength := congrArg List.length heq
        simp only [List.length_map, List.length_append] at hlength
        exact List.eq_nil_of_length_eq_zero (by omega)
      · intro hnone
        rw [hnone, List.append_nil]

/-- A room is opened while the signal of a text of it waits: the text is shown twice. -/
theorem textOutput_eq_history_iff_twice :
    let answers : List FactoryMessage :=
      [.inputResponse 7, .joinRoomResponse 5 true, .textResponse (ascii "v") 5 (ascii "hi")]
    let before : List WindowEvent :=
      answers.flatMap (fun m => [.read (.bytes m.header.serialize), .read (.bytes m.body)]) ++
        [.handle, .handle]
    let after : List WindowEvent := [.handle]
    ∃ w w₁ w₂ : Windows,
      Run Step (start 0 (ascii "u")) before w ∧ Step w (.doubleClick 0) w₁ ∧ Run Step w₁ after w₂ ∧
      w₂.posted = [] ∧ w₂.textOutput ≠ (w₂.reader.client.lines 5).map line := by
  intro answers before after
  have hend : ((before.foldlM apply (start 0 (ascii "u"))).bind fun w =>
      (w.apply (.doubleClick 0)).bind fun w₁ => (after.foldlM apply w₁).map fun w₂ =>
        (w.posted, w₁.currentRoom, w₂.posted)) =
      some ([.sendText ⟨ascii "v", ascii "hi", 5⟩], 5, []) := by
    decide +kernel
  obtain ⟨w, hw, hend⟩ := Option.bind_eq_some_iff.mp hend
  obtain ⟨w₁, hw₁, hend⟩ := Option.bind_eq_some_iff.mp hend
  obtain ⟨w₂, hw₂, hend⟩ := Option.map_eq_some_iff.mp hend
  simp only [Prod.mk.injEq] at hend
  obtain ⟨hwaiting, hroom, hposted⟩ := hend
  have hbefore : Run Step (start 0 (ascii "u")) before w := Run.iff_foldlM.mpr hw
  have hafter : Run Step w₁ after w₂ := Run.iff_foldlM.mpr hw₂
  have hopen : ∀ e ∈ after, ∀ row, e ≠ .doubleClick row := by
    intro e he row
    cases List.mem_singleton.mp he
    exact nofun
  have hshown := (textOutput_eq_history_iff hbefore hw₁ hafter hopen).2.2 hposted
  refine ⟨w, w₁, w₂, hbefore, hw₁, hafter, hposted, ?_⟩
  rw [hroom] at hshown
  intro htwice
  refine hshown.mp htwice ⟨ascii "v", ascii "hi", 5⟩ ?_ rfl
  rw [hwaiting]
  exact List.mem_singleton_self _

/-! ## The list of channels -/

theorem mem_getChannels {c : Client} : room ∈ getChannels c ↔ room ∈ c.channelsHistory := by
  rw [getChannels, List.mem_insertionSort]
  exact AList.mem_keys.symm

theorem pairwise_getChannels (c : Client) : (getChannels c).Pairwise (· < ·) := by
  have htotal : Std.Total (α := Identifier) (· ≤ ·) := ⟨Int32.le_total⟩
  have htrans : IsTrans Identifier (· ≤ ·) := ⟨fun _ _ _ => Int32.le_trans⟩
  have hsorted : (getChannels c).Pairwise (· ≤ ·) := List.pairwise_insertionSort _ _
  have hnodup : (getChannels c).Nodup :=
    (List.perm_insertionSort _ _).nodup_iff.mpr c.channelsHistory.nodupKeys
  exact (hsorted.and hnodup).imp fun h => Int32.lt_of_le_of_ne h.1 h.2

/-- Opening a room without looking at what is printed. -/
theorem exists_goChannel (w : Windows) (room : Identifier) : ∃ text, w.goChannel room =
    { w with
      reader := { w.reader with client := { w.reader.client with
        channelsHistory := w.reader.client.channelsHistory.tryEmplace room [] } }
      currentRoom := room
      textOutput := text
      channelsShown := false
      chatShown := true } := by
  have hfold : ∀ (msgs : List ClientTextMsg) (w : Windows), ∃ text,
      msgs.foldl printText w = { w with textOutput := text } := by
    intro msgs
    induction msgs with
    | nil => exact fun w => ⟨w.textOutput, rfl⟩
    | cons msg msgs ih =>
        intro w
        obtain ⟨text, htext⟩ := ih (w.printText msg)
        refine ⟨text, ?_⟩
        rw [List.foldl_cons, htext, printText]
        split
        · rfl
        · rfl
  simp only [goChannel, uploadHistory, getHistory]
  obtain ⟨text, htext⟩ := hfold (w.reader.client.lines room) { w with
    reader := { w.reader with client := { w.reader.client with
      channelsHistory := w.reader.client.channelsHistory.tryEmplace room [] } }
    currentRoom := room
    textOutput := [] }
  exact ⟨text, by rw [htext]⟩

/-- The list is sorted, and its rooms are in the map. -/
structure SoundList (w : Windows) : Prop where
  sorted : w.listChannels.Pairwise (· < ·)
  known : ∀ r ∈ w.listChannels, r ∈ w.reader.client.channelsHistory

/-- The room is in the map, and in the list when no update of the list is waiting. -/
def Listed (room : Identifier) (w : Windows) : Prop :=
  room ∈ w.reader.client.channelsHistory ∧
    (.sigUpdateChannels ∈ w.posted ∨ room ∈ w.listChannels)

theorem soundList_step (hstep : Step w e w') (h : w.SoundList) : w'.SoundList := by
  cases effect_of_step hstep with
  | read hreader => exact ⟨h.sorted, fun r hr => ReadState.mem_complete hreader (h.known r hr)⟩
  | @handle signal rest hposted =>
      cases signal with
      | sendText msg =>
          simp only [slot, printText]
          split
          · exact ⟨h.sorted, h.known⟩
          · exact ⟨h.sorted, h.known⟩
      | sendInputCode code =>
          simp only [slot, changeWindow]
          split
          · exact ⟨h.sorted, h.known⟩
          · exact ⟨h.sorted, h.known⟩
      | sigUpdateChannels =>
          exact ⟨pairwise_getChannels _, fun r hr => mem_getChannels.mp hr⟩
  | @opened row room hshown hroom =>
      obtain ⟨text, heq⟩ := w.exists_goChannel room
      rw [heq]
      exact ⟨h.sorted, fun r hr => UnorderedMap.mem_tryEmplace.mpr (Or.inr (h.known r hr))⟩
  | back hshown => exact ⟨h.sorted, h.known⟩
  | request _ _ _ _ => exact ⟨h.sorted, h.known⟩
  | failed => exact ⟨h.sorted, h.known⟩

theorem listed_step (hstep : Step w e w') (h : Listed room w) : Listed room w' := by
  obtain ⟨hmem, hlisted⟩ := h
  cases effect_of_step hstep with
  | read hreader =>
      exact ⟨ReadState.mem_complete hreader hmem, hlisted.imp (List.mem_append_left _) id⟩
  | @handle signal rest hposted =>
      rw [hposted, List.mem_cons] at hlisted
      cases signal with
      | sendText msg =>
          have hrest := hlisted.imp (fun hwaiting => hwaiting.resolve_left nofun) id
          simp only [slot, printText]
          split
          · exact ⟨hmem, hrest⟩
          · exact ⟨hmem, hrest⟩
      | sendInputCode code =>
          have hrest := hlisted.imp (fun hwaiting => hwaiting.resolve_left nofun) id
          simp only [slot, changeWindow]
          split
          · exact ⟨hmem, hrest⟩
          · exact ⟨hmem, hrest⟩
      | sigUpdateChannels => exact ⟨hmem, Or.inr (mem_getChannels.mpr hmem)⟩
  | @opened row room' hshown hroom =>
      obtain ⟨text, heq⟩ := w.exists_goChannel room'
      rw [heq]
      exact ⟨UnorderedMap.mem_tryEmplace.mpr (Or.inr hmem), hlisted⟩
  | back hshown => exact ⟨hmem, hlisted⟩
  | request _ _ _ _ => exact ⟨hmem, hlisted⟩
  | failed => exact ⟨hmem, hlisted⟩

theorem soundList_start (clientId : Identifier) (login : Bytes) :
    (start clientId login).SoundList where
  sorted := .nil
  known _ hr := nomatch hr

/-- **The list of channels.**  In every state the list is in strict order and has only rooms
of the client, so that no click asks for a room the client does not have.  A room whose join
has been answered OK is in it from then on, as soon as no update is waiting. -/
theorem joined_listed {clientId : Identifier} {login : Bytes} {es : List WindowEvent}
    (hrun : Run Step (start clientId login) es w) :
    w.listChannels.Pairwise (· < ·) ∧
      (∀ r ∈ w.listChannels, r ∈ w.reader.client.channelsHistory) ∧
      ∀ (before after : List WindowEvent) (e : ReadEvent) (w₀ w₁ : Windows) (room : Identifier),
        Run Step (start clientId login) before w₀ → Step w₀ (.read e) w₁ →
        w₀.reader.joinedRoom e = some room → Run Step w₁ after w →
        .sigUpdateChannels ∉ w.posted → ∃ row : Nat, w.listChannels[row]? = some room := by
  have hsound : w.SoundList :=
    hrun.invariant (fun _ _ _ hstep h => soundList_step hstep h) (soundList_start clientId login)
  refine ⟨hsound.sorted, hsound.known, ?_⟩
  intro before after e w₀ w₁ room _ hread hjoined hafter hnone
  have hlisted₁ : Listed room w₁ := by
    obtain ⟨reader, hreader, rfl⟩ := Option.map_eq_some_iff.mp hread
    obtain ⟨hmem, hwaiting⟩ := ReadState.joined_complete hreader hjoined
    exact ⟨hmem, Or.inl (List.mem_append_right _ hwaiting)⟩
  have hlisted : Listed room w :=
    @Run.invariant _ _ Step _ _ _ (Listed room) (fun _ _ _ hstep h => listed_step hstep h) hafter
      hlisted₁
  exact List.mem_iff_getElem?.mp (hlisted.2.resolve_left hnone)

/-- A client logs in, joins the room 5 and then the room 3. -/
theorem joined_listed_twoRooms :
    let answers (room : Identifier) : List WindowEvent :=
      let m := FactoryMessage.joinRoomResponse room true
      [.read (.bytes m.header.serialize), .read (.bytes m.body)]
    let logIn : FactoryMessage := .inputResponse 7
    let before : List WindowEvent :=
      [.read (.bytes logIn.header.serialize), .read (.bytes logIn.body), .handle,
        .read (.bytes (FactoryMessage.joinRoomResponse 5 true).header.serialize)]
    let e : ReadEvent := .bytes (FactoryMessage.joinRoomResponse 5 true).body
    let after : List WindowEvent := .handle :: answers 3 ++ [.handle]
    ∃ w w₁ w₂ : Windows,
      Run Step (start 0 (ascii "u")) before w ∧ Step w (.read e) w₁ ∧ Run Step w₁ after w₂ ∧
      ∃ row : Nat, w₂.listChannels[row]? = some 5 := by
  intro answers logIn before e after
  have hend : ((before.foldlM apply (start 0 (ascii "u"))).bind fun w =>
      (w.apply (.read e)).bind fun w₁ => (after.foldlM apply w₁).map fun w₂ =>
        (w.reader.joinedRoom e, w₂.posted)) = some (some 5, []) := by
    decide +kernel
  obtain ⟨w, hw, hend⟩ := Option.bind_eq_some_iff.mp hend
  obtain ⟨w₁, hw₁, hend⟩ := Option.bind_eq_some_iff.mp hend
  obtain ⟨w₂, hw₂, hend⟩ := Option.map_eq_some_iff.mp hend
  simp only [Prod.mk.injEq] at hend
  obtain ⟨hjoined, hposted⟩ := hend
  have hbefore : Run Step (start 0 (ascii "u")) before w := Run.iff_foldlM.mpr hw
  have hafter : Run Step w₁ after w₂ := Run.iff_foldlM.mpr hw₂
  obtain ⟨-, -, hrow⟩ := joined_listed ((hbefore.snoc hw₁).append hafter)
  refine ⟨w, w₁, w₂, hbefore, hw₁, hafter, hrow _ _ _ _ _ _ hbefore hw₁ hjoined hafter ?_⟩
  rw [hposted]
  exact nofun

end Windows

end AppChat
