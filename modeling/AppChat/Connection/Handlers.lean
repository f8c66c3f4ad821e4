/-
  `Connection.Handlers`: the handlers of log ins, registrations and joins as the
  threads of the pool run them.

  The handlers keep the login, the password, the id and the room of their request
  in the members of the connection, which they share.  Every read and write of a
  member, every call of the `Database` and the call of `ChannelsManager::join` is
  one action; between two actions of a handler any other handler may act.
-/
import AppChat.Connection.Accounts
import AppChat.Foundation.Threads

set_option autoImplicit false

namespace AppChat.Connection

open Foundation Storage Serialize

/-! ## The actions -/

/-- One access to a member of a connection, or one call. -/
inductive HandlerAct where
  | setLogin (s : ConnectionId) (login : Bytes)
  | setPassword (s : ConnectionId) (password : Bytes)
  | setClientId (s : ConnectionId) (clientId : Identifier)
  | getLogin (s : ConnectionId)
  | getPassword (s : ConnectionId)
  | getClientId (s : ConnectionId)
  | getRoomId (s : ConnectionId)
  | checkClient (login password : Bytes)
  | getLoginid (login : Bytes)
  | generateClientId
  | addLogins (login : Bytes) (clientId : Identifier) (password : Bytes)
  | joinRoom (s : ConnectionId) (roomId : Identifier)
  | post (response : Output)
  | freeConnection (s : ConnectionId)
  deriving DecidableEq, Repr

/-- What an action returns. -/
abbrev HandlerAct.Res : HandlerAct → Type
  | .getLogin _ => Bytes
  | .getPassword _ => Bytes
  | .getClientId _ => Identifier
  | .getRoomId _ => Identifier
  | .checkClient _ _ => Identifier
  | .getLoginid _ => Identifier
  | .generateClientId => Identifier
  | .joinRoom _ _ => Bool
  | _ => Unit

/-- The code of a handler, as a program of these accesses. -/
abbrev HandlerProgram := Program HandlerAct HandlerAct.Res

/-- The server, and the responses and messages handed out so far. -/
structure Shared (D : DatabaseOps) where
  server : Server D
  outputs : List Output

namespace Shared

variable {D : DatabaseOps}

/-- Write the members of a connection. -/
def modify (σ : Shared D) (s : ConnectionId) (f : Members → Members) : Shared D :=
  { σ with server := σ.server.setMembers s (f (σ.server.connections s)) }

/-- What an action does, and what it returns; `none` when an exception or undefined
behaviour ends the process. -/
def exec (σ : Shared D) : (a : HandlerAct) → Option (Shared D × a.Res)
  | .setLogin s login => some (σ.modify s fun c => { c with login := login }, ())
  | .setPassword s password => some (σ.modify s fun c => { c with password := password }, ())
  | .setClientId s clientId => some (σ.modify s fun c => { c with clientId := clientId }, ())
  | .getLogin s => some (σ, (σ.server.connections s).login)
  | .getPassword s => some (σ, (σ.server.connections s).password)
  | .getClientId s => some (σ, (σ.server.connections s).clientId)
  | .getRoomId s => some (σ, (σ.server.connections s).roomId)
  | .checkClient login password =>
      (D.checkClient σ.server.chat.db login password).map fun clientId => (σ, clientId)
  | .getLoginid login => some (σ, D.getLoginid σ.server.chat.db login)
  | .generateClientId =>
      some ({ σ with server := { σ.server with lastId := σ.server.lastId + 1 } },
        σ.server.lastId + 1)
  | .addLogins login clientId password =>
      (D.addLogins σ.server.chat.db login clientId password).map fun db =>
        ({ σ with server := { σ.server with chat := { σ.server.chat with db := db } } }, ())
  | .joinRoom s roomId =>
      (σ.server.chat.join σ.server.view s roomId).map fun (chat, flag, deliveries) =>
        let joined : Shared D :=
          { server := { σ.server with chat := chat }
            outputs := σ.outputs ++ deliveries.map .message }
        -- the channel marks its subscriber busy, the manager sets its room
        (if flag then joined.modify s fun c => { c with busy := true, roomId := roomId }
          else joined, flag)
  | .post response => some ({ σ with outputs := σ.outputs ++ [response] }, ())
  | .freeConnection s =>
      let freed := σ.server.freeConnection s
      some (⟨freed.1, σ.outputs ++ freed.2⟩, ())

end Shared

/-! ## The handlers -/

namespace HandlerProgram

/-- One access. -/
abbrev perform (a : HandlerAct) : HandlerProgram a.Res := Program.perform a

/-- `do_autorisation`. -/
def doAutorisation (s : ConnectionId) (newRequest : Request) : HandlerProgram Unit :=
  match newRequest with
  | .inputRequest m => do
      perform (.setLogin s m.login)
      perform (.setPassword s m.password)
      let login ← perform (.getLogin s)
      let password ← perform (.getPassword s)
      let found ← perform (.checkClient login password)
      perform (.setClientId s found)
      let clientId ← perform (.getClientId s)
      perform (.post (.autoResponse s clientId))
  | _ => perform (.freeConnection s)

/-- The end of `do_registration`: the response is posted. -/
def postRegResponse (s : ConnectionId) : HandlerProgram Unit := do
  let clientId ← perform (.getClientId s)
  perform (.post (.regResponse s clientId))

/-- The branch of `do_registration` for a login that was not found. -/
def addAccount (s : ConnectionId) : HandlerProgram Unit := do
  let generated ← perform .generateClientId
  perform (.setClientId s generated)
  let login ← perform (.getLogin s)
  let clientId ← perform (.getClientId s)
  let password ← perform (.getPassword s)
  perform (.addLogins login clientId password)
  postRegResponse s

/-- `do_registration`. -/
def doRegistration (s : ConnectionId) (newRequest : Request) : HandlerProgram Unit :=
  match newRequest with
  | .registerRequest m => do
      perform (.setLogin s m.login)
      perform (.setPassword s m.password)
      let login ← perform (.getLogin s)
      let found ← perform (.getLoginid login)
      perform (.setClientId s found)
      let clientId ← perform (.getClientId s)
      if clientId = -1 then addAccount s
      else do
        perform (.setClientId s (-1))
        postRegResponse s
  | _ => perform (.freeConnection s)

/-- `do_join_room`. -/
def doJoinRoom (s : ConnectionId) (newRequest : Request) : HandlerProgram Unit :=
  match newRequest with
  | .joinRoomRequest m => do
      let flag ← perform (.joinRoom s m.roomId)
      let roomId ← perform (.getRoomId s)
      perform (.post (.joinRoomResponse s roomId flag))
  | _ => pure ()

end HandlerProgram

/-- What a thread runs: a handler for a request of a connection, or the
`free_connection` after a read or a write failed. -/
inductive Job where
  | autorisation (s : ConnectionId) (newRequest : Request)
  | registration (s : ConnectionId) (newRequest : Request)
  | joinRoom (s : ConnectionId) (newRequest : Request)
  | free (s : ConnectionId)
  deriving DecidableEq, Repr

namespace Job

/-- The code of a job. -/
def program : Job → HandlerProgram Unit
  | autorisation s newRequest => HandlerProgram.doAutorisation s newRequest
  | registration s newRequest => HandlerProgram.doRegistration s newRequest
  | joinRoom s newRequest => HandlerProgram.doJoinRoom s newRequest
  | free s => HandlerProgram.perform (.freeConnection s)

/-- The job as an event of the server that runs its handlers one at a time. -/
def event : Job → Event
  | autorisation s newRequest => .handle s ⟨.doAutorisation, newRequest⟩
  | registration s newRequest => .handle s ⟨.doRegistration, newRequest⟩
  | joinRoom s newRequest => .handle s ⟨.doJoinRoom, newRequest⟩
  | free s => .free s

end Job

/-! ## A handler alone

Without anything in between, the actions of a handler add up to the handler of
`Connection.Server`. -/

section Alone

variable {D : DatabaseOps}

/-- The outputs of a handler that ran alone are added to those before. -/
def Shared.add (σ : Shared D) (done : Server D × List Output) : Shared D × Unit :=
  (⟨done.1, σ.outputs ++ done.2⟩, ())

@[simp] theorem Shared.modify_modify (σ : Shared D) (s : ConnectionId) (f g : Members → Members) :
    (σ.modify s f).modify s g = σ.modify s fun c => g (f c) := by
  simp [Shared.modify, Server.setMembers]

@[simp] theorem Shared.modify_connections (σ : Shared D) (s : ConnectionId)
    (f : Members → Members) :
    (σ.modify s f).server.connections s = f (σ.server.connections s) := by
  simp [Shared.modify]

@[simp] theorem Shared.modify_db (σ : Shared D) (s : ConnectionId) (f : Members → Members) :
    (σ.modify s f).server.chat.db = σ.server.chat.db := rfl

theorem alone_doAutorisation (σ : Shared D) (s : ConnectionId) (r : Request) :
    (HandlerProgram.doAutorisation s r).alone Shared.exec σ =
      (σ.server.doAutorisation s r).map σ.add := by
  cases r with
  | inputRequest m =>
      simp only [HandlerProgram.doAutorisation, Program.perform, Program.act_bind,
        Program.ret_bind, Program.alone_act, Program.alone_ret, Shared.exec, Option.bind_some, Server.doAutorisation,
        Shared.modify_modify, Shared.modify_connections, Shared.modify_db]
      cases D.checkClient σ.server.chat.db m.login m.password with
      | none => rfl
      | some clientId =>
          simp only [Option.map_some, Option.bind_some, Shared.modify_modify]
          rfl
  | _ => rfl

theorem alone_doRegistration (σ : Shared D) (s : ConnectionId) (r : Request) :
    (HandlerProgram.doRegistration s r).alone Shared.exec σ =
      (σ.server.doRegistration s r).map σ.add := by
  cases r with
  | registerRequest m =>
      simp only [HandlerProgram.doRegistration, Program.perform, Program.act_bind,
        Program.ret_bind, Program.alone_act, Shared.exec, Option.bind_some, Server.doRegistration, Shared.modify_modify,
        Shared.modify_connections, Shared.modify_db]
      rcases eq_or_ne (D.getLoginid σ.server.chat.db m.login) (-1) with hid | hid
      · simp only [hid, if_true, HandlerProgram.addAccount, HandlerProgram.postRegResponse,
          Program.perform, Program.act_bind, Program.ret_bind, Program.alone_act,
          Program.alone_ret, Shared.exec, Option.bind_some, Shared.modify, Server.setMembers,
          Function.update_self, Function.update_idem]
        cases D.addLogins σ.server.chat.db m.login (σ.server.lastId + 1) m.password with
        | none => rfl
        | some db => simp only [Option.map_some, Option.bind_some, Function.update_self, Shared.add]
      · simp only [if_neg hid, HandlerProgram.postRegResponse, Program.perform, Program.act_bind,
          Program.ret_bind, Program.alone_act, Program.alone_ret, Shared.exec, Option.bind_some,
          Option.map_some, Shared.modify_modify, Shared.modify_connections]
        rfl
  | _ => rfl

theorem alone_doJoinRoom (σ : Shared D) (s : ConnectionId) (r : Request) :
    (HandlerProgram.doJoinRoom s r).alone Shared.exec σ =
      (σ.server.doJoinRoom s r).map σ.add := by
  cases r with
  | joinRoomRequest m =>
      simp only [HandlerProgram.doJoinRoom, Program.perform, Program.act_bind,
        Program.ret_bind, Program.alone_act, Program.alone_ret, Shared.exec, Server.doJoinRoom]
      cases σ.server.chat.join σ.server.view s m.roomId with
      | none => rfl
      | some result =>
          obtain ⟨chat, flag, deliveries⟩ := result
          cases flag with
          | true =>
              simp only [Option.map_some, Option.bind_some, if_true, Shared.modify,
                Server.setMembers, Function.update_self, Shared.add, List.append_assoc]
          | false =>
              simp only [Option.map_some, Option.bind_some, Bool.false_eq_true, if_false,
                Shared.add, List.append_assoc, Server.setMembers, Function.update_eq_self]
  | _ => simp [HandlerProgram.doJoinRoom, Server.doJoinRoom, Shared.add]

/-- A job that runs alone is the step of `Connection.Server` for its event. -/
theorem alone_program (σ : Shared D) (job : Job) :
    job.program.alone Shared.exec σ = (σ.server.apply job.event).map σ.add := by
  cases job with
  | autorisation s r => exact alone_doAutorisation σ s r
  | registration s r => exact alone_doRegistration σ s r
  | joinRoom s r => exact alone_doJoinRoom σ s r
  | free s => rfl

end Alone

/-! ## What a handler has done and seen -/

/-- The values a handler has written into the members itself, the last call it made
of `check_client` with the database it found, the id it generated, the row it
added, and the responses it posted. -/
structure Record (D : DatabaseOps) where
  login : Bytes := []
  password : Bytes := []
  clientId : Identifier := 0
  roomId : Identifier := 0
  checked : Option (D.State × Bytes × Bytes × Identifier) := none
  generated : Option Identifier := none
  added : Option LoginsRow := none
  posted : List Output := []

namespace Record

variable {D : DatabaseOps}

/-- A thread notes what it has written and what the calls have returned. -/
def note (σ : Shared D) (record : Record D) : (a : HandlerAct) → a.Res → Record D
  | .setLogin _ login, _ => { record with login := login }
  | .setPassword _ password, _ => { record with password := password }
  | .setClientId _ clientId, _ => { record with clientId := clientId }
  | .checkClient login password, clientId =>
      { record with checked := some (σ.server.chat.db, login, password, clientId) }
  | .generateClientId, clientId => { record with generated := some clientId }
  | .addLogins login clientId password, _ =>
      { record with added := some ⟨login, clientId, password⟩ }
  | .joinRoom _ roomId, flag => if flag then { record with roomId := roomId } else record
  | .post response, _ => { record with posted := record.posted ++ [response] }
  | _, _ => record

end Record

/-- The pool of the server. -/
def handlers (D : DatabaseOps) : Machine (Shared D) Job (Record D) HandlerAct HandlerAct.Res where
  program := Job.program
  exec := Shared.exec
  start _ := {}
  note := Record.note

/-- A handler that has been started. -/
abbrev HandlerThread (D : DatabaseOps) := Thread Job (Record D) HandlerAct HandlerAct.Res

/-- A state of the pool. -/
abbrev Handlers (D : DatabaseOps) := Pool (Shared D) Job (Record D) HandlerAct HandlerAct.Res

end AppChat.Connection
