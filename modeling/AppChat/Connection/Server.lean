/-
  `Connection.Server`: the handlers of `connection/connection.cpp` over the state
  of the whole process.

  A `Connection` object is its identity and its members; one that has not been
  accepted yet is an object nobody has touched.  Its `client_id` has no
  initialiser and may hold anything.  A handler returns the new state and what it
  hands to others: messages for subscribers and the responses it posts.  It
  returns `none` when an exception or undefined behaviour ends the process.
-/
import AppChat.Channel.ChatState
import AppChat.Connection.ReadLoop

set_option autoImplicit false

namespace AppChat.Connection

open Foundation Storage Serialize

/-! ## The state -/

/-- The members of a `Connection`. -/
structure Members where
  clientId : Identifier
  roomId : Identifier := 0
  login : Bytes := []
  password : Bytes := []
  busy : Bool := true
  socketOpen : Bool := true
  deriving DecidableEq, Repr

/-- The state of the server process.  `lastId` is the static variable of
`generate_client_id`. -/
structure Server (D : DatabaseOps) where
  chat : ChatState D
  lastId : Identifier
  connections : ConnectionId → Members

/-- What a handler hands to others: a call of `send_msg_to_client`, or a response
posted for the connection. -/
inductive Output where
  | message (delivery : Delivery)
  | autoResponse (connection : ConnectionId) (clientId : Identifier)
  | regResponse (connection : ConnectionId) (clientId : Identifier)
  | joinRoomResponse (connection : ConnectionId) (roomId : Identifier) (flag : Bool)
  deriving DecidableEq, Repr

namespace Output

/-- The connection whose socket it is for. -/
def recipient : Output → ConnectionId
  | message d => d.recipient
  | autoResponse s _ => s
  | regResponse s _ => s
  | joinRoomResponse s _ _ => s

/-- What `send_msg_to_client`, `send_auto_response`, `send_reg_response` and
`send_join_room_response` make of it. -/
def response : Output → Protocol.FactoryMessage
  | message d => .textResponse d.data.login d.data.roomId d.data.text
  | autoResponse _ clientId => .inputResponse clientId
  | regResponse _ clientId => .regResponse clientId
  | joinRoomResponse _ roomId flag => .joinRoomResponse roomId flag

end Output

namespace Server

variable {D : DatabaseOps}

/-- A new process on the database `db`.  `clientIds` is what the uninitialised
`client_id` of each connection holds. -/
def init (db : D.State) (clientIds : ConnectionId → Identifier) : Server D where
  chat := ChatState.init db
  lastId := 0
  connections s := { clientId := clientIds s }

/-- The connections as subscribers. -/
def view (sv : Server D) : View :=
  fun s => ⟨(sv.connections s).clientId, (sv.connections s).login⟩

/-- New members of a connection. -/
def setMembers (sv : Server D) (s : ConnectionId) (c : Members) : Server D :=
  { sv with connections := Function.update sv.connections s c }

/-! ## The handlers -/

/-- `free_connection`. -/
def freeConnection (sv : Server D) (s : ConnectionId) : Server D × List Output :=
  let left := sv.chat.leaveAll sv.view (sv.connections s).clientId
  let freed : Members :=
    { clientId := -1
      roomId := 0
      login := ascii "unused"
      password := ascii "unused"
      busy := false
      socketOpen := false }
  ({ sv with chat := left.1 }.setMembers s freed, left.2.map .message)

/-- `do_autorisation`. -/
def doAutorisation (sv : Server D) (s : ConnectionId) (newRequest : Request) :
    Option (Server D × List Output) :=
  match newRequest with
  | .inputRequest m =>
      match D.checkClient sv.chat.db m.login m.password with
      | none => none
      | some clientId =>
          some
            (sv.setMembers s
              { sv.connections s with
                login := m.login, password := m.password, clientId := clientId },
            [.autoResponse s clientId])
  | _ => some (sv.freeConnection s)

/-- `do_registration`. -/
def doRegistration (sv : Server D) (s : ConnectionId) (newRequest : Request) :
    Option (Server D × List Output) :=
  match newRequest with
  | .registerRequest m =>
      let named := { sv.connections s with login := m.login, password := m.password }
      if D.getLoginid sv.chat.db m.login = -1 then
        -- `generate_client_id`
        let clientId := sv.lastId + 1
        match D.addLogins sv.chat.db m.login clientId m.password with
        | none => none
        | some db =>
            some
              ({ sv with chat := { sv.chat with db := db }, lastId := clientId }.setMembers s
                { named with clientId := clientId },
              [.regResponse s clientId])
      else some (sv.setMembers s { named with clientId := -1 }, [.regResponse s (-1)])
  | _ => some (sv.freeConnection s)

/-- `do_join_room`. -/
def doJoinRoom (sv : Server D) (s : ConnectionId) (newRequest : Request) :
    Option (Server D × List Output) :=
  match newRequest with
  | .joinRoomRequest m =>
      match sv.chat.join sv.view s m.roomId with
      | none => none
      | some (chat, flag, deliveries) =>
          -- the channel marks its subscriber busy, the manager sets its room
          let c := sv.connections s
          let c := if flag then { c with busy := true, roomId := m.roomId } else c
          some
            ({ sv with chat := chat }.setMembers s c,
            deliveries.map .message ++ [.joinRoomResponse s c.roomId flag])
  | _ => some (sv, [])

/-- `do_text_msg`. -/
def doTextMsg (sv : Server D) (newRequest : Request) : Option (Server D × List Output) :=
  match newRequest with
  | .textRequest m =>
      let sent := sv.chat.text ⟨m.roomId, m.login, m.text⟩
      some ({ sv with chat := sent.1 }, sent.2.map .message)
  | _ => some (sv, [])

/-- Run a task of the pool. -/
def handle (sv : Server D) (s : ConnectionId) (task : Task) :
    Option (Server D × List Output) :=
  match task.handler with
  | .doAutorisation => sv.doAutorisation s task.request
  | .doRegistration => sv.doRegistration s task.request
  | .doJoinRoom => sv.doJoinRoom s task.request
  | .doTextMsg => sv.doTextMsg task.request

end Server

/-! ## Runs -/

/-- What happens in the process: a handler runs, or a connection is freed after a
read or a write failed. -/
inductive Event where
  | handle (connection : ConnectionId) (task : Task)
  | free (connection : ConnectionId)
  deriving DecidableEq, Repr

namespace Server

variable {D : DatabaseOps}

/-- Run a handler, or free a connection whose read has failed. -/
def apply (sv : Server D) : Event → Option (Server D × List Output)
  | .handle s task => sv.handle s task
  | .free s => some (sv.freeConnection s)

/-- A step of the process, labelled with the event and with what it hands out. -/
def Step (D : DatabaseOps) (sv : Server D) (label : Event × List Output) (sv' : Server D) : Prop :=
  sv.apply label.1 = some (sv', label.2)

end Server

/-- The connection an event frees: the two log in handlers free theirs when the
request lacks their member. -/
def Event.frees : Event → Option ConnectionId
  | .free s => some s
  | .handle _ ⟨.doAutorisation, .inputRequest _⟩ => none
  | .handle s ⟨.doAutorisation, _⟩ => some s
  | .handle _ ⟨.doRegistration, .registerRequest _⟩ => none
  | .handle s ⟨.doRegistration, _⟩ => some s
  | _ => none

/-- The other two handlers do nothing with a request that lacks their member. -/
def Event.ignored : Event → Bool
  | .handle _ ⟨.doJoinRoom, .joinRoomRequest _⟩ => false
  | .handle _ ⟨.doJoinRoom, _⟩ => true
  | .handle _ ⟨.doTextMsg, .textRequest _⟩ => false
  | .handle _ ⟨.doTextMsg, _⟩ => true
  | _ => false

theorem Event.frees_of_ignored {e : Event} (h : e.ignored = true) : e.frees = none := by
  cases e with
  | handle s task =>
      obtain ⟨handler, r⟩ := task
      cases handler <;> first | rfl | cases h
  | free s => cases h

namespace Server

variable {D : DatabaseOps}

/-! ## What a step can do -/

/-- The kinds of steps. -/
inductive Effect (sv : Server D) : Event → List Output → Server D → Prop where
  | login {s : ConnectionId} {m : InRequest} {clientId : Identifier} :
      D.checkClient sv.chat.db m.login m.password = some clientId →
        Effect sv (.handle s ⟨.doAutorisation, .inputRequest m⟩) [.autoResponse s clientId]
          (sv.setMembers s
            { sv.connections s with
              login := m.login, password := m.password, clientId := clientId })
  | register {s : ConnectionId} {m : RegRequest} {db : D.State} :
      D.getLoginid sv.chat.db m.login = -1 →
      D.addLogins sv.chat.db m.login (sv.lastId + 1) m.password = some db →
        Effect sv (.handle s ⟨.doRegistration, .registerRequest m⟩)
          [.regResponse s (sv.lastId + 1)]
          ({ sv with chat := { sv.chat with db := db }, lastId := sv.lastId + 1 }.setMembers s
            { sv.connections s with
              login := m.login, password := m.password, clientId := sv.lastId + 1 })
  | refuse {s : ConnectionId} {m : RegRequest} :
      D.getLoginid sv.chat.db m.login ≠ -1 →
        Effect sv (.handle s ⟨.doRegistration, .registerRequest m⟩) [.regResponse s (-1)]
          (sv.setMembers s
            { sv.connections s with
              login := m.login, password := m.password, clientId := -1 })
  | join {s : ConnectionId} {m : JoinRoomRequest} {result : JoinResult D} :
      sv.chat.manager.join sv.view s m.roomId sv.chat.db = some result →
        Effect sv (.handle s ⟨.doJoinRoom, .joinRoomRequest m⟩)
          (result.deliveries.map .message ++ [.joinRoomResponse s m.roomId true])
          ({ sv with chat := ⟨result.manager, result.db⟩ }.setMembers s
            { sv.connections s with busy := true, roomId := m.roomId })
  | text {s : ConnectionId} {m : TextRequest} :
      Effect sv (.handle s ⟨.doTextMsg, .textRequest m⟩)
        ((sv.chat.text ⟨m.roomId, m.login, m.text⟩).2.map .message)
        { sv with chat := (sv.chat.text ⟨m.roomId, m.login, m.text⟩).1 }
  | free {s : ConnectionId} {e : Event} :
      e.frees = some s → Effect sv e (sv.freeConnection s).2 (sv.freeConnection s).1
  | ignore {e : Event} : e.ignored = true → Effect sv e [] sv

theorem effect_of_doAutorisation {sv sv' : Server D} {s : ConnectionId} {r : Request}
    {out : List Output} (h : sv.doAutorisation s r = some (sv', out)) :
    Effect sv (.handle s ⟨.doAutorisation, r⟩) out sv' := by
  cases r with
  | inputRequest m =>
      simp only [doAutorisation] at h
      split at h
      · cases h
      · rename_i clientId hcheck
        cases h
        exact .login hcheck
  | _ =>
      cases h
      exact .free rfl

theorem effect_of_doRegistration {sv sv' : Server D} {s : ConnectionId} {r : Request}
    {out : List Output} (h : sv.doRegistration s r = some (sv', out)) :
    Effect sv (.handle s ⟨.doRegistration, r⟩) out sv' := by
  cases r with
  | registerRequest m =>
      simp only [doRegistration] at h
      split at h
      · rename_i hid
        split at h
        · cases h
        · rename_i db hadd
          cases h
          exact .register hid hadd
      · rename_i hid
        cases h
        exact .refuse hid
  | _ =>
      cases h
      exact .free rfl

theorem effect_of_doJoinRoom {sv sv' : Server D} {s : ConnectionId} {r : Request}
    {out : List Output} (h : sv.doJoinRoom s r = some (sv', out)) :
    Effect sv (.handle s ⟨.doJoinRoom, r⟩) out sv' := by
  cases r with
  | joinRoomRequest m =>
      simp only [doJoinRoom, ChatState.join] at h
      cases hjoin : sv.chat.manager.join sv.view s m.roomId sv.chat.db with
      | none =>
          rw [hjoin] at h
          cases h
      | some result =>
          obtain ⟨-, -, -, -, -, hflag, -⟩ := ChannelsManager.join_cases hjoin
          rw [hjoin] at h
          simp only [Option.map_some, hflag, if_true] at h
          cases h
          exact .join hjoin
  | _ =>
      cases h
      exact .ignore rfl

theorem effect_of_doTextMsg {sv sv' : Server D} {s : ConnectionId} {r : Request}
    {out : List Output} (h : sv.doTextMsg r = some (sv', out)) :
    Effect sv (.handle s ⟨.doTextMsg, r⟩) out sv' := by
  cases r with
  | textRequest m =>
      cases h
      exact .text
  | _ =>
      cases h
      exact .ignore rfl

/-- Every step is of one of the kinds. -/
theorem effect_of_step {sv sv' : Server D} {e : Event} {out : List Output}
    (h : Step D sv (e, out) sv') : Effect sv e out sv' := by
  cases e with
  | handle s task =>
      obtain ⟨handler, r⟩ := task
      cases handler with
      | doAutorisation => exact effect_of_doAutorisation h
      | doRegistration => exact effect_of_doRegistration h
      | doJoinRoom => exact effect_of_doJoinRoom h
      | doTextMsg => exact effect_of_doTextMsg h
  | free s =>
      cases h
      exact .free rfl

theorem step_of_free {sv : Server D} {s : ConnectionId} {e : Event} (h : e.frees = some s) :
    Step D sv (e, (sv.freeConnection s).2) (sv.freeConnection s).1 := by
  cases e with
  | handle t task =>
      obtain ⟨handler, r⟩ := task
      cases handler <;> cases r <;> cases h <;> rfl
  | free t =>
      cases h
      rfl

theorem step_of_ignored {sv : Server D} {e : Event} (h : e.ignored = true) :
    Step D sv (e, []) sv := by
  cases e with
  | handle t task =>
      obtain ⟨handler, r⟩ := task
      cases handler <;> cases r <;> first | rfl | cases h
  | free t => cases h

/-- The kinds say everything about a step. -/
theorem step_of_effect {sv sv' : Server D} {e : Event} {out : List Output}
    (h : Effect sv e out sv') : Step D sv (e, out) sv' := by
  cases h with
  | login hcheck => simp [Step, apply, handle, doAutorisation, hcheck]
  | register hid hadd => simp [Step, apply, handle, doRegistration, hid, hadd]
  | refuse hid => simp [Step, apply, handle, doRegistration, hid]
  | join hjoin =>
      obtain ⟨-, -, -, -, -, hflag, -⟩ := ChannelsManager.join_cases hjoin
      simp [Step, apply, handle, doJoinRoom, ChatState.join, hjoin, hflag]
  | text => rfl
  | free h => exact step_of_free h
  | ignore h => exact step_of_ignored h

theorem step_iff_effect {sv sv' : Server D} {e : Event} {out : List Output} :
    Step D sv (e, out) sv' ↔ Effect sv e out sv' :=
  ⟨effect_of_step, step_of_effect⟩

theorem step_deterministic {sv sv₁ sv₂ : Server D} {label : Event × List Output}
    (h₁ : Step D sv label sv₁) (h₂ : Step D sv label sv₂) : sv₁ = sv₂ :=
  congrArg Prod.fst (Option.some.inj (h₁.symm.trans h₂))

/-! ## The parts of a state after a step -/

@[simp] theorem setMembers_chat (sv : Server D) (s : ConnectionId) (c : Members) :
    (sv.setMembers s c).chat = sv.chat := rfl

@[simp] theorem setMembers_lastId (sv : Server D) (s : ConnectionId) (c : Members) :
    (sv.setMembers s c).lastId = sv.lastId := rfl

@[simp] theorem setMembers_connections_self (sv : Server D) (s : ConnectionId) (c : Members) :
    (sv.setMembers s c).connections s = c :=
  Function.update_self ..

theorem setMembers_connections_of_ne (sv : Server D) {s t : ConnectionId} (h : t ≠ s)
    (c : Members) : (sv.setMembers s c).connections t = sv.connections t :=
  Function.update_of_ne h ..

@[simp] theorem freeConnection_manager (sv : Server D) (s : ConnectionId) :
    (sv.freeConnection s).1.chat.manager =
      (sv.chat.manager.leaveFromAllChannels sv.view (sv.connections s).clientId).1 := rfl

@[simp] theorem freeConnection_db (sv : Server D) (s : ConnectionId) :
    (sv.freeConnection s).1.chat.db = sv.chat.db := rfl

end Server

end AppChat.Connection
