/-
  `Connection.Frames`: which frames have an effect on the server.

  `process_msg` looks at the command to choose a handler and leaves it to the handler
  to look for its member of the request.  The two log in handlers free the connection
  when it is missing, the two others do nothing.
-/
import AppChat.Connection.Server

set_option autoImplicit false

namespace AppChat.Connection

open Foundation Storage Serialize

variable {D : DatabaseOps}

/-- The command of the requests a handler is for. -/
def Handler.command : Handler → TypeCommand
  | .doAutorisation => .authorisationRequest
  | .doRegistration => .registrationRequest
  | .doJoinRoom => .joinRoomRequest
  | .doTextMsg => .echoRequest

/-- Missing its member, the handler frees the connection. -/
def Handler.FreesWithoutMember : Handler → Prop
  | .doAutorisation | .doRegistration => True
  | .doJoinRoom | .doTextMsg => False

/-- A frame of the requests a handler is for: the command is its code, the body parses,
and the request has its member. -/
def WellFormed (handler : Handler) (header : Header) (body : Bytes) : Prop :=
  header.command = handler.command.code.toUInt32 ∧ (parseBuffer body).2 = true ∧
    handler.Serves (parseBuffer body).1

namespace Server

/-- A fully received frame: run what `process_msg` posts for it. -/
def receive (sv : Server D) (s : ConnectionId) (header : Header) (body : Bytes) :
    Option (Server D × List Output) :=
  match processMsg header body with
  | [] => some (sv, [])
  | task :: _ => sv.handle s task

/-- The database, the channels, and the identity of the connection are as before. -/
structure Kept (s : ConnectionId) (sv sv' : Server D) : Prop where
  chat : sv'.chat = sv.chat
  clientId : (sv'.connections s).clientId = (sv.connections s).clientId
  login : (sv'.connections s).login = (sv.connections s).login

/-- Where the command has no handler nothing happens. -/
theorem receive_of_handlerOf_none {header : Header} (h : handlerOf header.command = none)
    (sv : Server D) (s : ConnectionId) (body : Bytes) :
    sv.receive s header body = some (sv, []) := by
  rw [receive, processMsg, h]
  rfl

theorem receive_of_handlerOf_some {header : Header} {handler : Handler}
    (h : handlerOf header.command = some handler) (sv : Server D) (s : ConnectionId)
    (body : Bytes) :
    sv.receive s header body = sv.handle s ⟨handler, (parseBuffer body).1⟩ := by
  rw [receive, processMsg, h]
  rfl

/-- Without its member a handler frees the connection or does nothing. -/
theorem handle_of_not_serves {handler : Handler} {r : Request} (h : ¬ handler.Serves r)
    (sv : Server D) (s : ConnectionId) :
    (handler.FreesWithoutMember ∧ sv.handle s ⟨handler, r⟩ = some (sv.freeConnection s)) ∨
      (¬ handler.FreesWithoutMember ∧ sv.handle s ⟨handler, r⟩ = some (sv, [])) := by
  cases handler with
  | doAutorisation =>
      refine Or.inl ⟨trivial, ?_⟩
      cases r with
      | inputRequest m => exact absurd trivial h
      | _ => rfl
  | doRegistration =>
      refine Or.inl ⟨trivial, ?_⟩
      cases r with
      | registerRequest m => exact absurd trivial h
      | _ => rfl
  | doJoinRoom =>
      refine Or.inr ⟨id, ?_⟩
      cases r with
      | joinRoomRequest m => exact absurd trivial h
      | _ => rfl
  | doTextMsg =>
      refine Or.inr ⟨id, ?_⟩
      cases r with
      | textRequest m => exact absurd trivial h
      | _ => rfl

/-- The handler of a command below 2^16 is the one whose code it is. -/
theorem command_eq_of_handlerOf {command : UInt32} {handler : Handler}
    (hsmall : command.toNat < 2 ^ 16) (h : handlerOf command = some handler) :
    command = handler.command.code.toUInt32 := by
  have hcode : ∀ {c : TypeCommand}, TypeCommand.cast command = some c →
      command = c.code.toUInt32 := by
    intro c hcast
    have hfound := List.find?_some hcast
    have heq : c.code = command.toUInt16 := of_decide_eq_true hfound
    rw [heq]
    refine UInt32.toNat_inj.mp ?_
    rw [UInt16.toNat_toUInt32, UInt32.toNat_toUInt16, Nat.mod_eq_of_lt hsmall]
  unfold handlerOf at h
  split at h
  · rename_i hcast
    cases h
    exact hcode hcast
  · rename_i hcast
    cases h
    exact hcode hcast
  · rename_i hcast
    cases h
    exact hcode hcast
  · rename_i hcast
    cases h
    exact hcode hcast
  · cases h

/-- Where a frame gets further than it should, it does so in one of two ways: the upper
half of its command is not zero and its lower half is the code of a handler that then does
something, or its body does not parse but had the member of the handler. -/
def Checked (header : Header) (body : Bytes) : Prop :=
  ∀ handler, handlerOf header.command = some handler →
    (handler.FreesWithoutMember ∨ handler.Serves (parseBuffer body).1 →
      header.command.toNat < 2 ^ 16) ∧
    (handler.Serves (parseBuffer body).1 → (parseBuffer body).2 = true)

/-- **Which frames have an effect.**  Of the checked frames only those that are well
formed for their handler have one, and those with the command of a log in or a
registration and without its member: they free the connection.  Every other frame leaves
the state as it is. -/
theorem receive_effect {sv sv' : Server D} {s : ConnectionId} {header : Header} {body : Bytes}
    {out : List Output} (hchecked : Checked header body)
    (h : sv.receive s header body = some (sv', out)) :
    (∃ handler : Handler, WellFormed handler header body ∧
        sv.handle s ⟨handler, (parseBuffer body).1⟩ = some (sv', out)) ∨
      (∃ handler : Handler, header.command = handler.command.code.toUInt32 ∧
        handler.FreesWithoutMember ∧ ¬ handler.Serves (parseBuffer body).1 ∧
        (sv', out) = sv.freeConnection s ∧ sv'.chat.db = sv.chat.db) ∨
      (sv' = sv ∧ out = []) := by
  rcases hhandler : handlerOf header.command with _ | handler
  · rw [receive_of_handlerOf_none hhandler, Option.some.injEq, Prod.mk.injEq] at h
    exact Or.inr (Or.inr ⟨h.1.symm, h.2.symm⟩)
  · obtain ⟨hsmall, hparse⟩ := hchecked handler hhandler
    rw [receive_of_handlerOf_some hhandler] at h
    by_cases hserves : handler.Serves (parseBuffer body).1
    · have hcommand := command_eq_of_handlerOf (hsmall (Or.inr hserves)) hhandler
      exact Or.inl ⟨handler, ⟨hcommand, hparse hserves, hserves⟩, h⟩
    · rcases handle_of_not_serves hserves sv s with ⟨hfrees, hfree⟩ | ⟨-, hnothing⟩
      · have hcommand := command_eq_of_handlerOf (hsmall (Or.inl hfrees)) hhandler
        rw [hfree, Option.some.injEq] at h
        have hdb : sv'.chat.db = sv.chat.db := by
          have hfst : sv' = (sv.freeConnection s).1 := congrArg Prod.fst h.symm
          rw [hfst, freeConnection_db]
        exact Or.inr (Or.inl ⟨handler, hcommand, hfrees, hserves, h.symm, hdb⟩)
      · rw [hnothing, Option.some.injEq, Prod.mk.injEq] at h
        exact Or.inr (Or.inr ⟨h.1.symm, h.2.symm⟩)

/-- The message `hi` of `u` is stored. -/
theorem receive_effect_text :
    let r := Protocol.MsgFactory.createTextRequest (ascii "u") 5 (ascii "hi")
    let header : Header := ⟨1, 5, r.serialize.length.toUInt64⟩
    let sv : Server tableDatabase := Server.init ⟨[], []⟩ fun _ => 0
    let sv' : Server tableDatabase :=
      { sv with chat := (sv.chat.text ⟨5, ascii "u", ascii "hi"⟩).1 }
    ∃ handler : Handler, WellFormed handler header r.serialize ∧
      sv.handle 1 ⟨handler, (parseBuffer r.serialize).1⟩ = some (sv', []) := by
  intro r header sv sv'
  have hparse : parseBuffer r.serialize = (r, true) := by decide
  have hchecked : Checked header r.serialize := by
    intro handler _
    exact ⟨fun _ => by decide, fun _ => by rw [hparse]⟩
  have hreceive : sv.receive 1 header r.serialize = some (sv', []) := by
    have hhandler : handlerOf header.command = some .doTextMsg := rfl
    rw [receive_of_handlerOf_some hhandler, hparse]
    rfl
  rcases receive_effect hchecked hreceive with heffect | ⟨handler, hcommand, hfrees, -⟩ | ⟨hsame, -⟩
  · exact heffect
  · cases handler with
    | doAutorisation => exact absurd hcommand (by decide)
    | doRegistration => exact absurd hcommand (by decide)
    | doJoinRoom => exact absurd hfrees id
    | doTextMsg => exact absurd hfrees id
  · have hhistory := congrArg (fun x : Server tableDatabase => x.chat.db.history.length) hsame
    exact absurd hhistory (by decide)

/-- A log in without its member: connection 1 loses the id 5. -/
theorem not_receive_kept_login :
    ¬ ∀ (D : DatabaseOps) (sv sv' : Server D) (s : ConnectionId) (header : Header)
      (body : Bytes) (out : List Output), sv.receive s header body = some (sv', out) →
        Kept s sv sv' ∨ ∃ handler : Handler, WellFormed handler header body := by
  intro h
  let sv : Server tableDatabase := Server.init ⟨[], []⟩ fun _ => 5
  let header : Header := ⟨1, 3, 0⟩
  have hreceive : sv.receive 1 header [] = some (sv.freeConnection 1) := rfl
  rcases h tableDatabase sv _ 1 header [] _ hreceive with hkept | ⟨handler, -, -, hserves⟩
  · have hid : (-1 : Identifier) = 5 := hkept.clientId
    exact absurd hid (by decide)
  · cases handler with
    | doAutorisation => exact hserves
    | doRegistration => exact hserves
    | doJoinRoom => exact hserves
    | doTextMsg => exact hserves

end Server

end AppChat.Connection
