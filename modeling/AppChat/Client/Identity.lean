/-
  `Client.Identity`: does the client know its id?

  The two handlers of the client that read an id are near copies, and both take it
  from the member `input_response`.  The answer to a registration has no such
  member.
-/
import AppChat.Client.Client
import AppChat.Connection.Accounts

set_option autoImplicit false

namespace AppChat

open Foundation Foundation.SqlText Storage Serialize Protocol Connection

namespace Client

theorem body_lt_of_id (clientId : Identifier) :
    (FactoryMessage.inputResponse clientId).body.length < 2 ^ 31 ∧
      (FactoryMessage.regResponse clientId).body.length < 2 ^ 31 := by
  have hinput : (FactoryMessage.inputResponse clientId).body.length ≤ 0 + 50 :=
    FactoryMessage.length_body_response_le (MsgFactory.createInputResponse clientId)
  have hreg : (FactoryMessage.regResponse clientId).body.length ≤ 0 + 50 :=
    FactoryMessage.length_body_response_le (MsgFactory.createRegResponse clientId)
  omega

theorem statusOf_eq_ok {clientId : Identifier} (h : clientId ≠ -1) :
    MsgFactory.statusOf clientId = .OK :=
  if_pos h

/-- After the answer OK to a log in the client has the id that was sent. -/
theorem read_inputResponse {c : Client} (hreading : c.reading = true) {clientId : Identifier}
    (hok : clientId ≠ -1) :
    c.read (FactoryMessage.inputResponse clientId).frame = (c.setLoginId clientId, []) := by
  have hsize := (body_lt_of_id clientId).1
  have hhandler : readHandler (FactoryMessage.inputResponse clientId).header.command =
      some doReadInputResponse := by
    rw [readHandler, FactoryMessage.cast_header]
    rfl
  have hparse : parseBuffer (FactoryMessage.inputResponse clientId).body =
      (MsgFactory.createInputResponse clientId, true) :=
    @parseBuffer_serialize (MsgFactory.createInputResponse clientId) trivial hsize
  rw [read_frame hreading hhandler hsize, doReadInputResponse, hparse]
  simp only [if_true, MsgFactory.createInputResponse, statusOf_eq_ok hok, inputResponse]

/-- After the answer OK to a registration it has the default id. -/
theorem read_regResponse {c : Client} (hreading : c.reading = true) {clientId : Identifier}
    (hok : clientId ≠ -1) :
    c.read (FactoryMessage.regResponse clientId).frame = (c.setLoginId 0, []) := by
  have hsize := (body_lt_of_id clientId).2
  have hhandler : readHandler (FactoryMessage.regResponse clientId).header.command =
      some doReadRegResponse := by
    rw [readHandler, FactoryMessage.cast_header]
    rfl
  have hparse : parseBuffer (FactoryMessage.regResponse clientId).body =
      (MsgFactory.createRegResponse clientId, true) :=
    @parseBuffer_serialize (MsgFactory.createRegResponse clientId) trivial hsize
  rw [read_frame hreading hhandler hsize, doReadRegResponse, hparse]
  simp only [if_true, MsgFactory.createRegResponse, statusOf_eq_ok hok, inputResponse]

end Client

namespace Connection.Server

variable {D : DatabaseOps}

/-- The output answers a log in or a registration of `s` with `clientId`. -/
def Answers (o : Output) (s : ConnectionId) (clientId : Identifier) : Prop :=
  o = .autoResponse s clientId ∨ o = .regResponse s clientId

/-- The id in an answer is the one the connection has after the handler. -/
theorem clientId_of_answers {sv sv' : Server D} {e : Event} {out : List Output}
    (h : Step D sv (e, out) sv') {o : Output} (ho : o ∈ out) {s : ConnectionId}
    {clientId : Identifier} (hanswers : Answers o s clientId) :
    (sv'.connections s).clientId = clientId := by
  cases effect_of_step h with
  | login _ =>
      rw [List.mem_singleton] at ho
      subst ho
      rcases hanswers with heq | heq
      · cases heq
        exact congrArg Members.clientId (setMembers_connections_self ..)
      · cases heq
  | register _ _ | refuse _ =>
      rw [List.mem_singleton] at ho
      subst ho
      rcases hanswers with heq | heq
      · cases heq
      · cases heq
        exact congrArg Members.clientId (setMembers_connections_self ..)
  | join _ =>
      rcases hanswers with rfl | rfl <;> simp at ho
  | text =>
      rcases hanswers with rfl | rfl <;> simp at ho
  | free _ =>
      rcases hanswers with rfl | rfl <;> simp [freeConnection] at ho
  | ignore _ => cases ho

/-- **The client's id.**  When the server has answered a log in or a registration
OK and the client has read the answer, the client has the id the server gave the
connection if and only if a log in was answered, or the id is 0. -/
theorem read_clientId_eq_iff {sv sv' : Server D} {e : Event} {out : List Output}
    (h : Step D sv (e, out) sv') {o : Output} (ho : o ∈ out) {s : ConnectionId}
    {clientId : Identifier} (hanswers : Answers o s clientId) (hok : clientId ≠ -1) {c : Client}
    (hreading : c.reading = true) :
    (c.read o.response.frame).1.clientId = (sv'.connections s).clientId ↔
      o = .autoResponse s clientId ∨ clientId = 0 := by
  rw [clientId_of_answers h ho hanswers]
  rcases hanswers with rfl | rfl
  · have hread := Client.read_inputResponse hreading hok
    simp only [Output.response, hread, Client.setLoginId, true_or]
  · have hread := Client.read_regResponse hreading hok
    simp only [Output.response, hread, Client.setLoginId, reduceCtorEq, false_or, eq_comm]

/-- An account of the table logs in. -/
theorem read_clientId_eq_iff_login :
    let db : Tables := ⟨[⟨ascii "u", 7, ascii "pw"⟩], []⟩
    let sv : Server tableDatabase := init db fun _ => 0
    ∃ sv', Step tableDatabase sv
        (.handle 1 ⟨.doAutorisation, .inputRequest ⟨ascii "u", ascii "pw"⟩⟩,
          [.autoResponse 1 7]) sv' ∧
      ((⟨0, ascii "u", ∅, true, true⟩ : Client).read
        (Output.autoResponse 1 7).response.frame).1.clientId = (sv'.connections 1).clientId := by
  intro db sv
  have hcheck : tableDatabase.checkClient sv.chat.db (ascii "u") (ascii "pw") = some 7 := by decide
  have hstep := step_of_effect (@Effect.login tableDatabase sv 1 ⟨ascii "u", ascii "pw"⟩ 7 hcheck)
  exact ⟨_, hstep, (read_clientId_eq_iff hstep (List.mem_singleton_self _) (Or.inl rfl) (by decide)
    rfl).mpr (Or.inl rfl)⟩

/-- The first account is registered with the id 1; its client has the id 0. -/
theorem not_read_clientId_eq_register :
    ¬ ∀ (sv sv' : Server tableDatabase) (e : Event) (out : List Output) (o : Output)
        (s : ConnectionId) (clientId : Identifier) (c : Client),
      Step tableDatabase sv (e, out) sv' → o ∈ out → Answers o s clientId → clientId ≠ -1 →
      c.reading = true →
        (c.read o.response.frame).1.clientId = (sv'.connections s).clientId := by
  intro h
  let sv : Server tableDatabase := init (⟨[], []⟩ : Tables) fun _ => 0
  let m : RegRequest := ⟨ascii "u", ascii "pw"⟩
  let db' : Tables := ⟨[⟨ascii "u", 1, ascii "pw"⟩], []⟩
  have hid : tableDatabase.getLoginid sv.chat.db m.login = -1 := rfl
  have hadd : tableDatabase.addLogins sv.chat.db m.login (sv.lastId + 1) m.password = some db' := rfl
  have hstep := step_of_effect (@Effect.register tableDatabase sv 1 m db' hid hadd)
  have hanswers : Answers (.regResponse 1 (sv.lastId + 1)) 1 (sv.lastId + 1) := Or.inr rfl
  have hok : sv.lastId + 1 ≠ -1 := by decide
  let c : Client := ⟨5, ascii "u", ∅, true, true⟩
  have hsame := h _ _ _ _ _ _ _ c hstep (List.mem_singleton_self _) hanswers hok rfl
  have hread := Client.read_regResponse (rfl : c.reading = true) hok
  rw [clientId_of_answers hstep (List.mem_singleton_self _) hanswers, Output.response, hread] at hsame
  have hzero : (0 : Identifier) = sv.lastId + 1 := hsame
  exact absurd hzero (by decide)

end Connection.Server

end AppChat
