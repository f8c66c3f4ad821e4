/-
  `Connection.Recycling`: one `Connection` object, and what is left of its old client
  when it is given a new socket.

  The object is seen from outside: requests, posted responses, calls of
  `send_msg_to_client` and completions go in, operations on its socket and calls of the
  database and of the channels come out.
-/
import AppChat.Client.BodySize
import AppChat.Connection.Server
import AppChat.Foundation.Mealy
import AppChat.Protocol.Framing

set_option autoImplicit false

namespace AppChat.Connection

open Foundation Foundation.Mealy Storage Serialize Protocol

/-! ## The object -/

/-- An asynchronous operation on the socket that has been started. -/
inductive Operation where
  | readHeader
  | readBody (header : Header)
  | writeQueued
  | writeResponse
  deriving DecidableEq, Repr

namespace Operation

/-- The operation reads from the socket. -/
def isRead : Operation → Bool
  | readHeader | readBody _ => true
  | writeQueued | writeResponse => false

end Operation

/-- An operation that has completed: with an error or not, and the bytes it has read. -/
structure Completion where
  operation : Operation
  error : Bool
  data : Bytes
  deriving DecidableEq, Repr

/-- The members of a `Connection` with its two buffers, and the operations on its present
socket that have not completed. -/
structure PooledConnection where
  members : Members
  bufferMsg : Bytes
  sendMsgsQueue : List Bytes
  pending : List Operation
  deriving DecidableEq, Repr

/-- What comes out of it.  An operation on a socket that is closed is not one on a socket
that is open. -/
inductive Act where
  | asyncRead (socketOpen : Bool) (size : Nat)
  | asyncWrite (socketOpen : Bool) (buffer : Bytes)
  | close
  | post (task : Task)
  | postResponse (response : FactoryMessage)
  | leaveFromAllChannels (clientId : Identifier)
  | checkClient (login password : Bytes)
  | getLoginid (login : Bytes)
  | addLogins (login : Bytes) (clientId : Identifier) (password : Bytes)
  | join (clientId : Identifier) (login : Bytes) (roomId : Identifier)
  | sendAndSave (msg : TextSendData)
  deriving DecidableEq, Repr

/-- What the database, the id counter and `ChannelsManager::join` answer to a handler. -/
structure Reply where
  clientId : Identifier
  generated : Identifier
  joined : Bool
  deriving DecidableEq, Repr

/-- What goes into it.  The messages a channel hands to its new subscriber are calls of
`send_msg_to_client` as any others. -/
inductive ConnectionEvent where
  | complete (completion : Completion)
  | handle (task : Task) (reply : Reply)
  | sendResponse (response : FactoryMessage)
  | sendMsgToClient (data : TextSendData)
  deriving DecidableEq, Repr

/-- What `free_connection` leaves in the members. -/
def freedMembers : Members where
  clientId := -1
  roomId := 0
  login := ascii "unused"
  password := ascii "unused"
  busy := false
  socketOpen := false

namespace PooledConnection

/-- `free_connection`. -/
def freeConnection (c : PooledConnection) : PooledConnection × List Act :=
  ({ c with members := freedMembers },
    .leaveFromAllChannels c.members.clientId ::
      (if c.members.socketOpen then [.close] else []))

/-- `async_read_pb_header`. -/
def asyncReadPbHeader (c : PooledConnection) : PooledConnection × List Act :=
  ({ c with pending := .readHeader :: c.pending },
    [.asyncRead c.members.socketOpen sizeHeader])

/-- `reuse` with a new socket. -/
def reuse (c : PooledConnection) : PooledConnection :=
  let freed := if c.members.busy then c.freeConnection.1 else c
  { freed with
    members := { freed.members with busy := true, socketOpen := true }
    pending := [] }

/-- `start`. -/
def start (c : PooledConnection) : PooledConnection × List Act := c.asyncReadPbHeader

/-- The object the constructor makes, with -1 for its `client_id`. -/
def constructed : PooledConnection where
  members := { clientId := -1 }
  bufferMsg := []
  sendMsgsQueue := []
  pending := []

/-- A new connection that has been started. -/
def fresh : PooledConnection := constructed.start.1

/-- A connection that has been freed, reused and started. -/
def recycled (c : PooledConnection) : PooledConnection := c.freeConnection.1.reuse.start.1

/-- `sending_msgs_to_client`.  The front of an empty queue is undefined. -/
def sendingMsgsToClient (c : PooledConnection) : Option (PooledConnection × List Act) :=
  match c.sendMsgsQueue with
  | [] => none
  | buffer :: _ =>
      some ({ c with pending := .writeQueued :: c.pending },
        [.asyncWrite c.members.socketOpen buffer])

/-- `add_msg_send_queue`. -/
def addMsgSendQueue (c : PooledConnection) (binBuffer : Bytes) :
    Option (PooledConnection × List Act) :=
  let processWrite := !c.sendMsgsQueue.isEmpty
  let pushed := { c with sendMsgsQueue := c.sendMsgsQueue ++ [binBuffer] }
  if !processWrite then pushed.sendingMsgsToClient else some (pushed, [])

/-- The completion handlers.  Resizing the buffer above its maximal size throws, and
popping an empty queue is undefined. -/
def complete (c : PooledConnection) (completion : Completion) :
    Option (PooledConnection × List Act) :=
  match completion.operation with
  | .readHeader =>
      if completion.error then some c.freeConnection
      else
        let newHeader := Header.parseFromArray completion.data
        if newHeader.2 then
          match resize c.bufferMsg newHeader.1.length.toNat with
          | none => none
          | some resized =>
              some
                ({ c with bufferMsg := resized, pending := .readBody newHeader.1 :: c.pending },
                [.asyncRead c.members.socketOpen newHeader.1.length.toNat])
        else some c.asyncReadPbHeader
  | .readBody header =>
      -- the error code is ignored
      let bufferMsg := completion.data ++ c.bufferMsg.drop completion.data.length
      let next := { c with bufferMsg := bufferMsg }.asyncReadPbHeader
      some (next.1, (processMsg header bufferMsg).map .post ++ next.2)
  | .writeQueued =>
      if completion.error then some c.freeConnection
      else
        match c.sendMsgsQueue with
        | [] => none
        | [_] => some ({ c with sendMsgsQueue := [] }, [])
        | _ :: rest => { c with sendMsgsQueue := rest }.sendingMsgsToClient
  | .writeResponse => if completion.error then some c.freeConnection else some (c, [])

/-- `do_autorisation`, `do_registration`, `do_join_room` and `do_text_msg`. -/
def handle (c : PooledConnection) (task : Task) (reply : Reply) :
    PooledConnection × List Act :=
  match task.handler, task.request with
  | .doAutorisation, .inputRequest m =>
      ({ c with members :=
          { c.members with login := m.login, password := m.password, clientId := reply.clientId } },
        [.checkClient m.login m.password, .postResponse (.inputResponse reply.clientId)])
  | .doRegistration, .registerRequest m =>
      let named := { c.members with login := m.login, password := m.password }
      if reply.clientId = -1 then
        ({ c with members := { named with clientId := reply.generated } },
          [.getLoginid m.login, .addLogins m.login reply.generated m.password,
            .postResponse (.regResponse reply.generated)])
      else
        ({ c with members := { named with clientId := -1 } },
          [.getLoginid m.login, .postResponse (.regResponse (-1))])
  | .doAutorisation, _ | .doRegistration, _ => c.freeConnection
  | .doJoinRoom, .joinRoomRequest m =>
      let members := if reply.joined then { c.members with busy := true, roomId := m.roomId }
        else c.members
      ({ c with members := members },
        [.join c.members.clientId c.members.login m.roomId,
          .postResponse (.joinRoomResponse members.roomId reply.joined)])
  | .doTextMsg, .textRequest m => (c, [.sendAndSave ⟨m.roomId, m.login, m.text⟩])
  | .doJoinRoom, _ | .doTextMsg, _ => (c, [])

/-- One event; `none` when the operation is not pending, or an exception or undefined
behaviour ends the process. -/
def apply (c : PooledConnection) : ConnectionEvent → Option (PooledConnection × List Act)
  | .complete completion =>
      if completion.operation ∈ c.pending then
        { c with pending := c.pending.erase completion.operation }.complete completion
      else none
  | .handle task reply => some (c.handle task reply)
  | .sendResponse response =>
      some ({ c with pending := .writeResponse :: c.pending },
        [.asyncWrite c.members.socketOpen response.frame])
  | .sendMsgToClient data =>
      c.addMsgSendQueue (FactoryMessage.textResponse data.login data.roomId data.text).frame

/-- The operations on the old socket complete, after the object has its new one. -/
def drained : PooledConnection → List Completion → Option (PooledConnection × List Act)
  | c, [] => some (c, [])
  | c, completion :: rest =>
      (c.complete completion).bind fun next =>
        (next.1.drained rest).map fun last => (last.1, next.2 ++ last.2)

/-! ## The completions are the read loop -/

theorem processMsg_frame (f : RequestFrame) : processMsg f.header f.body = [f.task] := by
  rw [processMsg, f.handlerOf_command, parseBuffer_body]
  rfl

/-- A frame that is read in two completions is posted, and the next header is awaited. -/
theorem run_frame (f : RequestFrame) {c : PooledConnection} (hpending : .readHeader ∈ c.pending) :
    Mealy.run apply c
      [.complete ⟨.readHeader, false, f.headerBytes⟩, .complete ⟨.readBody f.header, false, f.body⟩] =
        some ({ c with bufferMsg := f.body, pending := .readHeader :: c.pending.erase .readHeader },
          [[.asyncRead c.members.socketOpen f.body.length],
            [.post f.task, .asyncRead c.members.socketOpen sizeHeader]]) := by
  have hmax : f.header.length.toNat ≤ maxSize := by
    have hlt := f.length_body_lt
    rw [f.length_body] at hlt
    have hmaxSize : maxSize = 2 ^ 63 - 1 := rfl
    omega
  obtain ⟨resized, hresized⟩ := (@exists_resize_iff c.bufferMsg _).mpr hmax
  have hheader : c.apply (.complete ⟨.readHeader, false, f.headerBytes⟩) =
      some ({ c with
          bufferMsg := resized
          pending := .readBody f.header :: c.pending.erase .readHeader },
        [.asyncRead c.members.socketOpen f.body.length]) := by
    simp only [apply, if_pos hpending, complete, f.parse_headerBytes, hresized, f.length_body]
    rfl
  have hlength : resized.length ≤ f.body.length := by
    rw [(length_resize hresized).1, f.length_body]
  rw [Mealy.run, hheader, Option.bind_some, Mealy.run]
  simp only [apply, List.mem_cons_self, if_true, complete, List.erase_cons_head,
    List.drop_eq_nil_of_le hlength, List.append_nil, processMsg_frame]
  rfl

end PooledConnection

/-! ## The handlers are those of the server -/

section Server

variable {D : DatabaseOps}

/-- What the server's database, counter and channels answer to a handler. -/
def Server.reply (sv : Server D) (task : Task) : Reply where
  clientId :=
    match task.handler, task.request with
    | .doAutorisation, .inputRequest m => (D.checkClient sv.chat.db m.login m.password).getD (-1)
    | .doRegistration, .registerRequest m => D.getLoginid sv.chat.db m.login
    | _, _ => -1
  generated := sv.lastId + 1
  joined := true

/-- A response that is posted. -/
def Output.posted : Output → Option FactoryMessage
  | .message _ => none
  | output => some output.response

/-- The response the action has posted. -/
def Act.posted : Act → Option FactoryMessage
  | .postResponse response => some response
  | _ => none

theorem filterMap_posted_message (deliveries : List Delivery) :
    (deliveries.map Output.message).filterMap Output.posted = [] := by
  rw [List.filterMap_map, List.filterMap_eq_nil_iff]
  exact fun _ _ => rfl

namespace PooledConnection

theorem filterMap_posted_freeConnection (c : PooledConnection) :
    c.freeConnection.2.filterMap Act.posted = [] := by
  unfold freeConnection
  split
  · rfl
  · rfl

theorem handle_of_frees {s s' : ConnectionId} {task : Task}
    (h : (Event.handle s task).frees = some s') (c : PooledConnection) (reply : Reply) :
    s' = s ∧ c.handle task reply = c.freeConnection := by
  obtain ⟨handler, r⟩ := task
  cases handler <;> cases r <;> cases h <;> exact ⟨rfl, rfl⟩

theorem handle_of_ignored {s : ConnectionId} {task : Task}
    (h : (Event.handle s task).ignored = true) (c : PooledConnection) (reply : Reply) :
    c.handle task reply = (c, []) := by
  obtain ⟨handler, r⟩ := task
  cases handler <;> cases r <;> first | rfl | cases h

/-- A handler of the server does to the members of its connection, and posts for it, what
the handler of the object does. -/
theorem handle_of_server {sv sv' : Server D} {s : ConnectionId} {task : Task}
    {out : List Output} (h : sv.handle s task = some (sv', out)) {c : PooledConnection}
    (hc : c.members = sv.connections s) :
    (c.handle task (sv.reply task)).1.members = sv'.connections s ∧
      (c.handle task (sv.reply task)).2.filterMap Act.posted = out.filterMap Output.posted := by
  obtain ⟨handler, r⟩ := task
  have heffect := Server.effect_of_step (show Server.Step D sv (.handle s ⟨handler, r⟩, out) sv' from h)
  cases heffect with
  | login hcheck =>
      rw [Server.setMembers_connections_self]
      simp only [handle, Server.reply, hcheck, hc]
      exact ⟨rfl, rfl⟩
  | register hid hadd =>
      rw [Server.setMembers_connections_self]
      simp only [handle, Server.reply, hid, hc, if_true]
      exact ⟨trivial, rfl⟩
  | refuse hid =>
      rw [Server.setMembers_connections_self]
      simp only [handle, Server.reply, hid, hc, if_false]
      exact ⟨trivial, rfl⟩
  | join hjoin =>
      rw [Server.setMembers_connections_self, List.filterMap_append, filterMap_posted_message]
      simp only [handle, Server.reply, hc, if_true]
      exact ⟨trivial, rfl⟩
  | text => exact ⟨hc, (filterMap_posted_message _).symm⟩
  | free hfrees =>
      obtain ⟨rfl, hhandle⟩ := handle_of_frees hfrees c (sv.reply ⟨handler, r⟩)
      rw [hhandle, filterMap_posted_freeConnection]
      exact ⟨(Server.setMembers_connections_self ..).symm, (filterMap_posted_message _).symm⟩
  | ignore hignored =>
      rw [handle_of_ignored hignored]
      exact ⟨hc, rfl⟩

end PooledConnection

end Server

end AppChat.Connection
