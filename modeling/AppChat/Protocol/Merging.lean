/-
  `Protocol.Merging`: the generated `MergeFrom` functions, and the parsers beside them.

  To parse one message after another is to parse the first and merge the second into it.
  What a parser accepts is well formed, and a member nobody knows yet is passed over.
-/
import AppChat.Foundation.ProtoMerge
import AppChat.Protocol.Framing

set_option autoImplicit false

namespace AppChat.Serialize

open Foundation Foundation.ProtoWire

/-! ## `MergeFrom` of the members -/

/-- `RegRequest::MergeFrom` and `InRequest::MergeFrom`. -/
def Credentials.mergeFrom (m other : Credentials) : Credentials where
  login := if 0 < other.login.length then other.login else m.login
  password := if 0 < other.password.length then other.password else m.password

/-- `JoinRoomRequest::MergeFrom`. -/
def JoinRoomRequest.mergeFrom (m other : JoinRoomRequest) : JoinRoomRequest where
  roomId := if other.roomId ≠ 0 then other.roomId else m.roomId

/-- `TextRequest::MergeFrom` and `TextResponse::MergeFrom`. -/
def RoomText.mergeFrom (m other : RoomText) : RoomText where
  login := if 0 < other.login.length then other.login else m.login
  roomId := if other.roomId ≠ 0 then other.roomId else m.roomId
  text := if 0 < other.text.length then other.text else m.text

/-- `InputResponse::MergeFrom` and `RegResponse::MergeFrom`. -/
def IdResponse.mergeFrom (m other : IdResponse) : IdResponse where
  status := if other.status.number ≠ 0 then other.status else m.status
  msgId := if other.msgId ≠ 0 then other.msgId else m.msgId
  clientId := if other.clientId ≠ 0 then other.clientId else m.clientId
  chatId := if other.chatId ≠ 0 then other.chatId else m.chatId

/-- `JoinRoomResponse::MergeFrom`. -/
def JoinRoomResponse.mergeFrom (m other : JoinRoomResponse) : JoinRoomResponse where
  status := if other.status.number ≠ 0 then other.status else m.status
  roomId := if other.roomId ≠ 0 then other.roomId else m.roomId

theorem Credentials.parses_mergeFrom (m : Credentials) {other : Credentials} (hutf : other.Utf8)
    (hsize : other.serialize.length < 2 ^ 31) (depth : Nat) :
    Parses Credentials.fields depth m other.serialize (m.mergeFrom other) := by
  have hsplit : other.serialize = writeString 10 other.login ++ (writeString 18 other.password ++ []) := by
    simp [serialize]
  obtain ⟨hlogin, hpassword⟩ := length_lt_of_serialize hsize
  rw [hsplit]
  apply Parses.mergeString (by decide) rfl hlogin hutf.1
  apply Parses.mergeString (by decide) rfl hpassword hutf.2
  apply Parses.nil_of_eq
  unfold mergeFrom
  split <;> split <;> rfl

theorem JoinRoomRequest.parses_mergeFrom (m other : JoinRoomRequest) (depth : Nat) :
    Parses JoinRoomRequest.fields depth m other.serialize (m.mergeFrom other) := by
  rw [← List.append_nil other.serialize]
  apply Parses.mergeInt32 (by decide) rfl
  apply Parses.nil_of_eq
  unfold mergeFrom
  split <;> rfl

theorem RoomText.parses_mergeFrom (m : RoomText) {other : RoomText} (hutf : other.Utf8)
    (hsize : other.serialize.length < 2 ^ 31) (depth : Nat) :
    Parses RoomText.fields depth m other.serialize (m.mergeFrom other) := by
  have hsplit : other.serialize = writeString 10 other.login ++ (writeInt32 16 other.roomId ++
      (writeString 26 other.text ++ [])) := by
    simp [serialize]
  obtain ⟨hlogin, htext⟩ := length_lt_of_serialize hsize
  rw [hsplit]
  apply Parses.mergeString (by decide) rfl hlogin hutf.1
  apply Parses.mergeInt32 (by decide) rfl
  apply Parses.mergeString (by decide) rfl htext hutf.2
  apply Parses.nil_of_eq
  unfold mergeFrom
  split <;> split <;> split <;> rfl

theorem IdResponse.parses_mergeFrom (m other : IdResponse) (depth : Nat) :
    Parses IdResponse.fields depth m other.serialize (m.mergeFrom other) := by
  have hsplit : other.serialize = writeInt32 8 other.status.number ++ (writeInt32 16 other.msgId ++
      (writeInt32 24 other.clientId ++ (writeInt32 32 other.chatId ++ []))) := by
    simp [serialize]
  rw [hsplit]
  apply Parses.mergeInt32 (by decide) rfl
  apply Parses.mergeInt32 (by decide) rfl
  apply Parses.mergeInt32 (by decide) rfl
  apply Parses.mergeInt32 (by decide) rfl
  apply Parses.nil_of_eq
  unfold mergeFrom
  split <;> split <;> split <;> split <;> rfl

theorem JoinRoomResponse.parses_mergeFrom (m other : JoinRoomResponse) (depth : Nat) :
    Parses JoinRoomResponse.fields depth m other.serialize (m.mergeFrom other) := by
  have hsplit : other.serialize =
      writeInt32 8 other.status.number ++ (writeInt32 16 other.roomId ++ []) := by
    simp [serialize]
  rw [hsplit]
  apply Parses.mergeInt32 (by decide) rfl
  apply Parses.mergeInt32 (by decide) rfl
  apply Parses.nil_of_eq
  unfold mergeFrom
  split <;> split <;> rfl

/-! ## `MergeFrom` of the requests and the responses -/

/-- A member that is there already is merged, another one is replaced. -/
def Request.mergeFrom (r : Request) : Request → Request
  | .registerRequest m => .registerRequest (r.mutableRegisterRequest.mergeFrom m)
  | .inputRequest m => .inputRequest (r.mutableInputRequest.mergeFrom m)
  | .joinRoomRequest m => .joinRoomRequest (r.mutableJoinRoomRequest.mergeFrom m)
  | .textRequest m => .textRequest (r.mutableTextRequest.mergeFrom m)
  | .msgNotSet => r

/-- `Response::MergeFrom`. -/
def Response.mergeFrom (r : Response) : Response → Response
  | .inputResponse m => .inputResponse (r.mutableInputResponse.mergeFrom m)
  | .regResponse m => .regResponse (r.mutableRegResponse.mergeFrom m)
  | .joinRoomResponse m => .joinRoomResponse (r.mutableJoinRoomResponse.mergeFrom m)
  | .textResponse m => .textResponse (r.mutableTextResponse.mergeFrom m)
  | .msgNotSet => r

theorem Request.parses_mergeFrom (r : Request) {other : Request} (hutf : other.Utf8)
    (hsize : other.serialize.length < 2 ^ 31) (depth depth' : Nat) :
    Parses (Request.fields depth) depth' r other.serialize (r.mergeFrom other) := by
  rw [← List.append_nil other.serialize]
  cases other with
  | msgNotSet => exact Parses.nil _
  | registerRequest m =>
      have hbody := length_lt_of_writeMessage hsize
      exact Parses.message (by decide) rfl hbody
        (r.mutableRegisterRequest.parses_mergeFrom hutf hbody _).mergeFrom_eq (Parses.nil _)
  | inputRequest m =>
      have hbody := length_lt_of_writeMessage hsize
      exact Parses.message (by decide) rfl hbody
        (r.mutableInputRequest.parses_mergeFrom hutf hbody _).mergeFrom_eq (Parses.nil _)
  | joinRoomRequest m =>
      have hbody := length_lt_of_writeMessage hsize
      exact Parses.message (by decide) rfl hbody
        (r.mutableJoinRoomRequest.parses_mergeFrom m _).mergeFrom_eq (Parses.nil _)
  | textRequest m =>
      have hbody := length_lt_of_writeMessage hsize
      exact Parses.message (by decide) rfl hbody
        (r.mutableTextRequest.parses_mergeFrom hutf hbody _).mergeFrom_eq (Parses.nil _)

theorem Response.parses_mergeFrom (r : Response) {other : Response} (hutf : other.Utf8)
    (hsize : other.serialize.length < 2 ^ 31) (depth depth' : Nat) :
    Parses (Response.fields depth) depth' r other.serialize (r.mergeFrom other) := by
  rw [← List.append_nil other.serialize]
  cases other with
  | msgNotSet => exact Parses.nil _
  | inputResponse m =>
      have hbody := length_lt_of_writeMessage hsize
      exact Parses.message (by decide) rfl hbody
        (r.mutableInputResponse.parses_mergeFrom m _).mergeFrom_eq (Parses.nil _)
  | regResponse m =>
      have hbody := length_lt_of_writeMessage hsize
      exact Parses.message (by decide) rfl hbody
        (r.mutableRegResponse.parses_mergeFrom m _).mergeFrom_eq (Parses.nil _)
  | joinRoomResponse m =>
      have hbody := length_lt_of_writeMessage hsize
      exact Parses.message (by decide) rfl hbody
        (r.mutableJoinRoomResponse.parses_mergeFrom m _).mergeFrom_eq (Parses.nil _)
  | textResponse m =>
      have hbody := length_lt_of_writeMessage hsize
      exact Parses.message (by decide) rfl hbody
        (r.mutableTextResponse.parses_mergeFrom hutf hbody _).mergeFrom_eq (Parses.nil _)

/-! ## No field is read ahead -/

theorem Credentials.local_fields : ∀ f ∈ Credentials.fields, f.Local := by
  simp only [fields, List.forall_mem_cons, List.not_mem_nil, false_implies, implies_true, and_true]
  exact ⟨local_stringField _ _, local_stringField _ _⟩

theorem JoinRoomRequest.local_fields : ∀ f ∈ JoinRoomRequest.fields, f.Local := by
  simp only [fields, List.forall_mem_cons, List.not_mem_nil, false_implies, implies_true, and_true]
  exact local_int32Field _ _

theorem RoomText.local_fields : ∀ f ∈ RoomText.fields, f.Local := by
  simp only [fields, List.forall_mem_cons, List.not_mem_nil, false_implies, implies_true, and_true]
  exact ⟨local_stringField _ _, local_int32Field _ _, local_stringField _ _⟩

theorem Request.local_fields (depth : Nat) : ∀ f ∈ Request.fields depth, f.Local := by
  simp only [fields, List.forall_mem_cons, List.not_mem_nil, false_implies, implies_true, and_true]
  exact ⟨local_messageField _ _ _ _, local_messageField _ _ _ _, local_messageField _ _ _ _,
    local_messageField _ _ _ _⟩

theorem Response.local_fields (depth : Nat) : ∀ f ∈ Response.fields depth, f.Local := by
  simp only [fields, List.forall_mem_cons, List.not_mem_nil, false_implies, implies_true, and_true]
  exact ⟨local_messageField _ _ _ _, local_messageField _ _ _ _, local_messageField _ _ _ _,
    local_messageField _ _ _ _⟩

/-! ## What the parsers accept -/

/-- The bytes in the strings. -/
def Credentials.textLength (m : Credentials) : Nat := m.login.length + m.password.length

/-- The bytes of the strings. -/
def RoomText.textLength (m : RoomText) : Nat := m.login.length + m.text.length

/-- The bytes of the strings of a request. -/
def Request.textLength : Request → Nat
  | .registerRequest m | .inputRequest m => m.textLength
  | .textRequest m => m.textLength
  | _ => 0

/-- The bytes of the strings of a response. -/
def Response.textLength : Response → Nat
  | .textResponse m => m.textLength
  | _ => 0

/-- The members are read into good values. -/
theorem Credentials.utf8_of_mergeFrom {depth : Nat} {m m' : Credentials} {body : Bytes}
    (hm : m.Utf8) (h : ProtoWire.mergeFrom fields depth m body = (m', true)) : m'.Utf8 := by
  refine ((mergeFrom_iff_reads local_fields).mp h).keeps ?_ hm
  simp only [fields, List.forall_mem_cons, List.not_mem_nil, false_implies, implies_true, and_true]
  exact ⟨keeps_stringField fun m s hm hs => ⟨hs, hm.2⟩, keeps_stringField fun m s hm hs => ⟨hm.1, hs⟩⟩

theorem RoomText.utf8_of_mergeFrom {depth : Nat} {m m' : RoomText} {body : Bytes}
    (hm : m.Utf8) (h : ProtoWire.mergeFrom fields depth m body = (m', true)) : m'.Utf8 := by
  refine ((mergeFrom_iff_reads local_fields).mp h).keeps ?_ hm
  simp only [fields, List.forall_mem_cons, List.not_mem_nil, false_implies, implies_true, and_true]
  exact ⟨keeps_stringField fun m s hm hs => ⟨hs, hm.2⟩, keeps_int32Field fun m v hm => hm,
    keeps_stringField fun m s hm hs => ⟨hm.1, hs⟩⟩

/-- The strings of a member come from its body. -/
theorem Credentials.textLength_mergeFrom {depth : Nat} {m m' : Credentials} {body : Bytes}
    (h : ProtoWire.mergeFrom fields depth m body = (m', true)) :
    m'.textLength ≤ m.textLength + body.length := by
  refine ((mergeFrom_iff_reads local_fields).mp h).bounded ?_
  simp only [fields, List.forall_mem_cons, List.not_mem_nil, false_implies, implies_true, and_true]
  constructor
  · refine bounded_stringField fun m s => ?_
    show s.length + m.password.length ≤ m.login.length + m.password.length + s.length
    omega
  · refine bounded_stringField fun m s => ?_
    show m.login.length + s.length ≤ m.login.length + m.password.length + s.length
    omega

theorem RoomText.textLength_mergeFrom {depth : Nat} {m m' : RoomText} {body : Bytes}
    (h : ProtoWire.mergeFrom fields depth m body = (m', true)) :
    m'.textLength ≤ m.textLength + body.length := by
  refine ((mergeFrom_iff_reads local_fields).mp h).bounded ?_
  simp only [fields, List.forall_mem_cons, List.not_mem_nil, false_implies, implies_true, and_true]
  refine ⟨?_, bounded_int32Field fun m v => le_rfl, ?_⟩
  · refine bounded_stringField fun m s => ?_
    show s.length + m.text.length ≤ m.login.length + m.text.length + s.length
    omega
  · refine bounded_stringField fun m s => ?_
    show m.login.length + s.length ≤ m.login.length + m.text.length + s.length
    omega

namespace Request

theorem utf8_mutable {r : Request} (h : r.Utf8) :
    r.mutableRegisterRequest.Utf8 ∧ r.mutableInputRequest.Utf8 ∧ r.mutableTextRequest.Utf8 := by
  have hcredentials : ({} : Credentials).Utf8 := ⟨rfl, rfl⟩
  have htext : ({} : RoomText).Utf8 := ⟨rfl, rfl⟩
  cases r with
  | msgNotSet => exact ⟨hcredentials, hcredentials, htext⟩
  | registerRequest m => exact ⟨h, hcredentials, htext⟩
  | inputRequest m => exact ⟨hcredentials, h, htext⟩
  | joinRoomRequest m => exact ⟨hcredentials, hcredentials, htext⟩
  | textRequest m => exact ⟨hcredentials, hcredentials, h⟩

theorem textLength_mutable (r : Request) :
    r.mutableRegisterRequest.textLength ≤ r.textLength ∧
      r.mutableInputRequest.textLength ≤ r.textLength ∧
      r.mutableTextRequest.textLength ≤ r.textLength := by
  cases r with
  | msgNotSet => exact ⟨le_rfl, le_rfl, le_rfl⟩
  | registerRequest m => exact ⟨le_rfl, Nat.zero_le _, Nat.zero_le _⟩
  | inputRequest m => exact ⟨Nat.zero_le _, le_rfl, Nat.zero_le _⟩
  | joinRoomRequest m => exact ⟨le_rfl, le_rfl, le_rfl⟩
  | textRequest m => exact ⟨Nat.zero_le _, Nat.zero_le _, le_rfl⟩

theorem keeps_utf8 (depth : Nat) : ∀ f ∈ fields depth, f.Keeps Utf8 := by
  simp only [fields, List.forall_mem_cons, List.not_mem_nil, false_implies, implies_true, and_true]
  refine ⟨?_, ?_, ?_, ?_⟩
  · exact keeps_messageField (fun r hr => (utf8_mutable hr).1) (fun _ _ hm => hm)
      fun _ _ _ => Credentials.utf8_of_mergeFrom
  · exact keeps_messageField (fun r hr => (utf8_mutable hr).2.1) (fun _ _ hm => hm)
      fun _ _ _ => Credentials.utf8_of_mergeFrom
  · exact keeps_messageField_of_good fun _ _ => trivial
  · exact keeps_messageField (fun r hr => (utf8_mutable hr).2.2) (fun _ _ hm => hm)
      fun _ _ _ => RoomText.utf8_of_mergeFrom

theorem bounded_textLength (depth : Nat) : ∀ f ∈ fields depth, f.Bounded textLength := by
  simp only [fields, List.forall_mem_cons, List.not_mem_nil, false_implies, implies_true, and_true]
  refine ⟨?_, ?_, ?_, ?_⟩
  · exact bounded_messageField (fun r => r.textLength_mutable.1) (fun _ _ => le_rfl)
      fun _ _ _ => Credentials.textLength_mergeFrom
  · exact bounded_messageField (fun r => r.textLength_mutable.2.1) (fun _ _ => le_rfl)
      fun _ _ _ => Credentials.textLength_mergeFrom
  · exact bounded_messageField_of_zero fun _ _ => rfl
  · exact bounded_messageField (fun r => r.textLength_mutable.2.2) (fun _ _ => le_rfl)
      fun _ _ _ => RoomText.textLength_mergeFrom

/-- A request takes little more than its strings. -/
theorem length_serialize_le (r : Request) : r.serialize.length ≤ r.textLength + 32 := by
  rw [r.length_serialize]
  cases r with
  | msgNotSet => exact Nat.zero_le _
  | registerRequest m | inputRequest m =>
      have hbody : m.byteSizeLong ≤ m.textLength + 12 := by
        have h₁ := stringSize_le m.login
        have h₂ := stringSize_le m.password
        unfold Credentials.byteSizeLong Credentials.textLength
        omega
      exact (messageSize_le _).trans (by simp only [textLength]; omega)
  | joinRoomRequest m =>
      have hbody : m.byteSizeLong ≤ 11 := int32Size_le m.roomId
      exact (messageSize_le _).trans (by simp only [textLength]; omega)
  | textRequest m =>
      have hbody : m.byteSizeLong ≤ m.textLength + 23 := by
        have h₁ := stringSize_le m.login
        have h₂ := stringSize_le m.text
        have h₃ := int32Size_le m.roomId
        unfold RoomText.byteSizeLong RoomText.textLength
        omega
      exact (messageSize_le _).trans (by simp only [textLength]; omega)

/-- An accepted input leaves strings in UTF-8, no longer than the input. -/
theorem of_parseFromArray {input : Bytes} {r : Request} (h : parseFromArray input = (r, true)) :
    r.Utf8 ∧ r.textLength ≤ input.length := by
  have hreads := (mergeFrom_iff_reads (local_fields _)).mp h
  refine ⟨hreads.keeps (keeps_utf8 _) trivial, ?_⟩
  have hle := hreads.bounded (bounded_textLength _)
  exact hle.trans (by simp [textLength])

end Request

namespace Response

theorem keeps_utf8 (depth : Nat) : ∀ f ∈ fields depth, f.Keeps Utf8 := by
  have hmutable : ∀ r : Response, r.Utf8 → r.mutableTextResponse.Utf8 := by
    intro r hr
    cases r with
    | textResponse m => exact hr
    | _ => exact ⟨rfl, rfl⟩
  simp only [fields, List.forall_mem_cons, List.not_mem_nil, false_implies, implies_true, and_true]
  refine ⟨?_, ?_, ?_, ?_⟩
  · exact keeps_messageField_of_good fun _ _ => trivial
  · exact keeps_messageField_of_good fun _ _ => trivial
  · exact keeps_messageField_of_good fun _ _ => trivial
  · exact keeps_messageField hmutable (fun _ _ hm => hm) fun _ _ _ => RoomText.utf8_of_mergeFrom

theorem bounded_textLength (depth : Nat) : ∀ f ∈ fields depth, f.Bounded textLength := by
  have hmutable : ∀ r : Response, r.mutableTextResponse.textLength ≤ r.textLength := by
    intro r
    cases r <;> exact le_rfl
  simp only [fields, List.forall_mem_cons, List.not_mem_nil, false_implies, implies_true, and_true]
  refine ⟨?_, ?_, ?_, ?_⟩
  · exact bounded_messageField_of_zero fun _ _ => rfl
  · exact bounded_messageField_of_zero fun _ _ => rfl
  · exact bounded_messageField_of_zero fun _ _ => rfl
  · exact bounded_messageField hmutable (fun _ _ => le_rfl)
      fun _ _ _ => RoomText.textLength_mergeFrom

theorem length_serialize_le (r : Response) : r.serialize.length ≤ r.textLength + 50 := by
  have hle := Protocol.FactoryMessage.length_body_response_le r
  cases r <;> exact hle

theorem of_parseFromArray {input : Bytes} {r : Response} (h : parseFromArray input = (r, true)) :
    r.Utf8 ∧ r.textLength ≤ input.length := by
  have hreads := (mergeFrom_iff_reads (local_fields _)).mp h
  refine ⟨hreads.keeps (keeps_utf8 _) trivial, ?_⟩
  have hle := hreads.bounded (bounded_textLength _)
  exact hle.trans (by simp [textLength])

end Response

/-! ## The parsers -/

/-- **Merging.**  A message parsed after another is merged into it, whatever the bytes of
the first: requests and responses alike. -/
theorem parseFromArray_append_serialize :
    (∀ (input : Bytes) (r other : Request), Request.parseFromArray input = (r, true) →
      other.Utf8 → other.serialize.length < 2 ^ 31 →
        Request.parseFromArray (input ++ other.serialize) = (r.mergeFrom other, true)) ∧
    ∀ (input : Bytes) (r other : Response), Response.parseFromArray input = (r, true) →
      other.Utf8 → other.serialize.length < 2 ^ 31 →
        Response.parseFromArray (input ++ other.serialize) = (r.mergeFrom other, true) := by
  constructor
  · intro input r other h hutf hsize
    rw [Request.parseFromArray, mergeFrom_append (Request.local_fields _) h]
    exact (r.parses_mergeFrom hutf hsize _ _).mergeFrom_eq
  · intro input r other h hutf hsize
    rw [Response.parseFromArray, mergeFrom_append (Response.local_fields _) h]
    exact (r.parses_mergeFrom hutf hsize _ _).mergeFrom_eq

/-- A registration in two parts, the login and then the password. -/
theorem parseFromArray_append_serialize_parts :
    let first : Request := .registerRequest { login := ascii "u" }
    let second : Request := .registerRequest { password := ascii "pw" }
    Request.parseFromArray (first.serialize ++ second.serialize) =
      (.registerRequest ⟨ascii "u", ascii "pw"⟩, true) := by
  intro first second
  have hfirst : Request.parseFromArray first.serialize = (first, true) :=
    Request.parseFromArray_serialize ⟨rfl, rfl⟩ (by decide)
  have hmerged : first.mergeFrom second = .registerRequest ⟨ascii "u", ascii "pw"⟩ := rfl
  rw [← hmerged]
  exact parseFromArray_append_serialize.1 _ _ _ hfirst ⟨rfl, rfl⟩ (by decide)

/-- **What is accepted is well formed.**  The strings of an accepted request or response
are UTF-8, and written again it is parsed as the same: the 50 bytes are for the numbers,
which may take more room than they came in. -/
theorem parseFromArray_serialize_of_accepted :
    (∀ (input : Bytes) (r : Request), input.length + 50 < 2 ^ 31 →
      Request.parseFromArray input = (r, true) →
        r.Utf8 ∧ Request.parseFromArray r.serialize = (r, true)) ∧
    ∀ (input : Bytes) (r : Response), input.length + 50 < 2 ^ 31 →
      Response.parseFromArray input = (r, true) →
        r.Utf8 ∧ Response.parseFromArray r.serialize = (r, true) := by
  constructor
  · intro input r hlong h
    obtain ⟨hutf, htext⟩ := Request.of_parseFromArray h
    have hsize := r.length_serialize_le
    exact ⟨hutf, Request.parseFromArray_serialize hutf (by omega)⟩
  · intro input r hlong h
    obtain ⟨hutf, htext⟩ := Response.of_parseFromArray h
    have hsize := r.length_serialize_le
    exact ⟨hutf, Response.parseFromArray_serialize hutf (by omega)⟩

/-- A join of room 7, whose id comes in two bytes where one would do. -/
theorem parseFromArray_serialize_of_accepted_join :
    let input : Bytes := [26, 3, 8, 0x87, 0]
    let r : Request := .joinRoomRequest ⟨7⟩
    Request.parseFromArray input = (r, true) ∧ Request.parseFromArray r.serialize = (r, true) ∧
      r.serialize ≠ input := by
  intro input r
  have hread : Request.parseFromArray input = (r, true) := by decide
  have haccepted := (parseFromArray_serialize_of_accepted.1 _ _ (by decide) hread).2
  exact ⟨hread, haccepted, by decide⟩

/-- **Newer peers.**  A field that is not known, put between two parts of a message of
which the first is accepted, changes nothing: neither what is read nor whether all of it
is. -/
theorem parseFromArray_unknownField :
    (∀ (before unknown after : Bytes) (r : Request), Request.parseFromArray before = (r, true) →
      UnknownField (Request.fields (recursionLimit - 1)) recursionLimit unknown →
        Request.parseFromArray (before ++ (unknown ++ after)) =
          Request.parseFromArray (before ++ after)) ∧
    ∀ (before unknown after : Bytes) (r : Response), Response.parseFromArray before = (r, true) →
      UnknownField (Response.fields (recursionLimit - 1)) recursionLimit unknown →
        Response.parseFromArray (before ++ (unknown ++ after)) =
          Response.parseFromArray (before ++ after) := by
  constructor
  · intro before unknown after r h hunknown
    have hlocal := Request.local_fields (recursionLimit - 1)
    rw [Request.parseFromArray, Request.parseFromArray, mergeFrom_append hlocal h,
      mergeFrom_append hlocal h, mergeFrom_unknown hlocal hunknown]
  · intro before unknown after r h hunknown
    have hlocal := Response.local_fields (recursionLimit - 1)
    rw [Response.parseFromArray, Response.parseFromArray, mergeFrom_append hlocal h,
      mergeFrom_append hlocal h, mergeFrom_unknown hlocal hunknown]

/-- The login of a text, a field of a kind to come, and the room and the text. -/
theorem parseFromArray_unknownField_text :
    Request.parseFromArray ([34, 3, 10, 1, 117] ++ ([42, 2, 8, 7] ++ [34, 6, 16, 5, 26, 2, 104, 105])) =
      (.textRequest ⟨ascii "u", 5, ascii "hi"⟩, true) := by
  rw [parseFromArray_unknownField.1 [34, 3, 10, 1, 117] [42, 2, 8, 7] [34, 6, 16, 5, 26, 2, 104, 105]
    (.textRequest ⟨ascii "u", 0, []⟩) (by decide +kernel)
    ⟨42, [2, 8, 7], by decide, by decide, by decide, by decide⟩]
  decide +kernel

end AppChat.Serialize
