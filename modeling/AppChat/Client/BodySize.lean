/-
  `Client.BodySize`: how many bytes of a body are allocated, read and parsed.

  The length of a body is a 64-bit number of the header.  Both programs size a vector
  with it, read into the vector, and give the size of the vector to `ParseFromArray`
  as an `int`.
-/
import AppChat.Client.Client
import AppChat.Connection.ReadLoop

set_option autoImplicit false

namespace AppChat

open Foundation Serialize Protocol Connection

/-- The bytes allocated for a body, those that a read has brought, and the size given
to `ParseFromArray`; nothing where there is no read or no parse. -/
structure BodySize where
  allocated : Nat
  read : Option Nat
  parsed : Option Int
  deriving DecidableEq, Repr

namespace BodySize

/-- The three are one number. -/
def Agree (size : BodySize) : Prop :=
  (∀ n ∈ size.read, n = size.allocated) ∧ ∀ n ∈ size.parsed, n = (size.allocated : Int)

/-- `static_cast<int>` of a size. -/
def castInt (size : Nat) : Int := (Int32.ofNat size).toInt

theorem castInt_eq_iff {size : Nat} : castInt size = size ↔ size < 2 ^ 31 := by
  unfold castInt
  constructor
  · intro heq
    have hlt := (Int32.ofNat size).toInt_lt
    rw [heq] at hlt
    omega
  · exact Int32.toInt_ofNat_of_lt

end BodySize

theorem length_resize {buffer resized : Bytes} {size : Nat} (h : resize buffer size = some resized) :
    resized.length = size ∧ size ≤ maxSize := by
  unfold resize at h
  split at h
  · rename_i hle
    cases h
    rw [List.length_append, List.length_take, List.length_replicate]
    exact ⟨by omega, hle⟩
  · cases h

theorem exists_resize_iff {buffer : Bytes} {size : Nat} :
    (∃ resized, resize buffer size = some resized) ↔ size ≤ maxSize := by
  unfold resize
  split <;> simp_all

/-! ## The server -/

/-- What `do_parse_pb_header` and `process_msg` do with a header of this length;
`none` when `resize` throws. -/
def Connection.bodySize (bufferMsg : Bytes) (header : Header) (rest : Bytes) : Option BodySize :=
  (resize bufferMsg header.length.toNat).map fun resized =>
    { allocated := resized.length
      read := some (asyncRead header.length.toNat rest).data.length
      parsed := some (BodySize.castInt resized.length) }

/-! ## The client -/

/-- What `do_read_pb_header`, `async_read_pb_msg` and the read handlers do with a
header; `none` when `resize` throws.  A body of a command the client does not read
stays in the stream, and one that is cut short is not parsed. -/
def Client.bodySize (readBuffer : Bytes) (header : Header) (rest : Bytes) : Option BodySize :=
  (resize readBuffer header.length.toNat).map fun resized =>
    match Client.readHandler header.command with
    | none => { allocated := resized.length, read := none, parsed := none }
    | some _ =>
        let completion := asyncRead resized.length rest
        { allocated := resized.length
          read := some completion.data.length
          parsed := if completion.error then none else some (BodySize.castInt resized.length) }

/-! ## Where the sizes agree -/

section Agree

variable {buffer rest : Bytes} {header : Header}

/-- The body has less than 2^31 bytes, and they come. -/
def BodyComes (header : Header) (rest : Bytes) : Prop :=
  header.length.toNat < 2 ^ 31 ∧ header.length.toNat ≤ rest.length

theorem length_asyncRead {size : Nat} :
    (asyncRead size rest).data.length = size ↔ size ≤ rest.length := by
  simp [asyncRead]

/-- The server neither throws nor mixes sizes up if and only if the body has less than
2^31 bytes and they come. -/
theorem server_agree_iff :
    (∃ size, Connection.bodySize buffer header rest = some size ∧ size.Agree) ↔
      BodyComes header rest := by
  unfold Connection.bodySize BodyComes
  constructor
  · rintro ⟨size, hsize, hread, hparsed⟩
    obtain ⟨resized, hresized, rfl⟩ := Option.map_eq_some_iff.mp hsize
    obtain ⟨hlength, -⟩ := length_resize hresized
    have hread := hread _ rfl
    have hparsed := hparsed _ rfl
    simp only [hlength] at hread hparsed
    exact ⟨BodySize.castInt_eq_iff.mp hparsed, length_asyncRead.mp hread⟩
  · rintro ⟨hlt, hcomes⟩
    have hmax : header.length.toNat ≤ maxSize := hlt.le.trans (by decide)
    obtain ⟨resized, hresized⟩ := exists_resize_iff.mpr hmax
    obtain ⟨hlength, -⟩ := length_resize hresized
    refine ⟨_, Option.map_eq_some_iff.mpr ⟨resized, hresized, rfl⟩, ?_, ?_⟩
    · rintro _ ⟨⟩
      rw [hlength]
      exact length_asyncRead.mpr hcomes
    · rintro _ ⟨⟩
      rw [hlength]
      exact BodySize.castInt_eq_iff.mpr hlt

/-- The client as well, for a command that it reads; for another, as long as the
buffer can be made. -/
theorem client_agree_iff :
    (∃ size, Client.bodySize buffer header rest = some size ∧ size.Agree) ↔
      if (Client.readHandler header.command).isSome then BodyComes header rest
      else header.length.toNat ≤ maxSize := by
  unfold Client.bodySize
  cases hhandler : Client.readHandler header.command with
  | none =>
      simp only [Option.isSome_none, Bool.false_eq_true, if_false]
      rw [← @exists_resize_iff buffer]
      constructor
      · rintro ⟨size, hsize, -⟩
        obtain ⟨resized, hresized, -⟩ := Option.map_eq_some_iff.mp hsize
        exact ⟨resized, hresized⟩
      · rintro ⟨resized, hresized⟩
        exact ⟨_, Option.map_eq_some_iff.mpr ⟨resized, hresized, rfl⟩, nofun, nofun⟩
  | some handler =>
      simp only [Option.isSome_some, if_true]
      unfold BodyComes
      constructor
      · rintro ⟨size, hsize, hread, hparsed⟩
        obtain ⟨resized, hresized, rfl⟩ := Option.map_eq_some_iff.mp hsize
        obtain ⟨hlength, -⟩ := length_resize hresized
        have hcomes := length_asyncRead.mp (hread _ rfl)
        simp only [hlength] at hcomes
        have herror : (asyncRead resized.length rest).error = false := by
          rw [hlength]
          exact decide_eq_false (not_lt.mpr hcomes)
        have hparsed := hparsed (BodySize.castInt resized.length) (by simp [herror])
        simp only [hlength] at hparsed
        exact ⟨BodySize.castInt_eq_iff.mp hparsed, hcomes⟩
      · rintro ⟨hlt, hcomes⟩
        have hmax : header.length.toNat ≤ maxSize := hlt.le.trans (by decide)
        obtain ⟨resized, hresized⟩ := exists_resize_iff.mpr hmax
        obtain ⟨hlength, -⟩ := length_resize hresized
        refine ⟨_, Option.map_eq_some_iff.mpr ⟨resized, hresized, rfl⟩, ?_, ?_⟩
        · rintro _ ⟨⟩
          exact length_asyncRead.mpr (hlength.le.trans hcomes)
        · intro n hn
          simp only at hn
          split at hn
          · cases hn
          · cases hn
            rw [hlength]
            exact BodySize.castInt_eq_iff.mpr hlt

/-- **Sizes of a body.**  With any header and any continuation of the stream, the
server and the client do not throw and use one size, if and only if the body has less
than 2^31 bytes and they come; for a body the client does not read it is enough that
the buffer can be made. -/
theorem bodySize_agree_iff (header : Header) (bufferMsg readBuffer rest : Bytes) :
    ((∃ size, Connection.bodySize bufferMsg header rest = some size ∧ size.Agree) ↔
        BodyComes header rest) ∧
      ((∃ size, Client.bodySize readBuffer header rest = some size ∧ size.Agree) ↔
        if (Client.readHandler header.command).isSome then BodyComes header rest
        else header.length.toNat ≤ maxSize) :=
  ⟨server_agree_iff, client_agree_iff⟩

/-- A body of 2^31 bytes is parsed with a negative size, and one of 2^63 bytes ends the
process. -/
theorem not_bodySize_agree_large :
    (¬ ∃ size, Connection.bodySize [] ⟨1, 5, 2 ^ 31⟩ (List.replicate (2 ^ 31) 0) = some size ∧
      size.Agree) ∧
    Connection.bodySize [] ⟨1, 5, 2 ^ 63⟩ [] = none := by
  refine ⟨?_, ?_⟩
  · rw [server_agree_iff]
    rintro ⟨hlt, -⟩
    exact absurd hlt (by decide)
  · exact Option.map_eq_none_iff.mpr (if_neg (by decide))

/-! ## A turn of the server's loop -/

/-- A body that comes is processed as it is: all of it is parsed, and nothing else. -/
theorem asyncReadPbHeader_of_bodyComes {headerBytes : Bytes}
    (hheader : headerBytes.length = sizeHeader)
    (hparse : Header.parseFromArray headerBytes = (header, true)) (hcomes : BodyComes header rest)
    (fuel : Nat) :
    let body := rest.take header.length.toNat
    asyncReadPbHeader (fuel + 1) buffer (headerBytes ++ rest) =
        processMsg header body ++ asyncReadPbHeader fuel body (rest.drop header.length.toNat) ∧
      parseBuffer body = Request.parseFromArray body := by
  intro body
  obtain ⟨hlt, hlong⟩ := hcomes
  have hbody : body.length = header.length.toNat := List.length_take_of_le hlong
  have hmax : header.length.toNat ≤ maxSize := hlt.le.trans (by decide)
  obtain ⟨resized, hresized⟩ := (@exists_resize_iff buffer _).mpr hmax
  obtain ⟨hlength, -⟩ := length_resize hresized
  have hfilled : body ++ resized.drop body.length = body := by
    rw [List.drop_eq_nil_of_le (by omega), List.append_nil]
  refine ⟨?_, ?_⟩
  · have hread : asyncRead sizeHeader (headerBytes ++ rest) = ⟨headerBytes, false, rest⟩ := by
      have hnot : ¬ (headerBytes ++ rest).length < sizeHeader := by
        rw [List.length_append]
        omega
      rw [asyncRead, List.take_left' hheader, List.drop_left' hheader, decide_eq_false hnot]
    rw [asyncReadPbHeader, hread]
    simp only [hparse, Bool.false_eq_true, if_false, if_true, hresized]
    show processMsg header (body ++ resized.drop body.length) ++ _ = _
    rw [hfilled]
    show _ ++ asyncReadPbHeader fuel (body ++ resized.drop body.length) _ = _
    rw [hfilled]
    rfl
  · have hsize : (Int32.ofNat body.length).toInt = body.length :=
      Int32.toInt_ofNat_of_lt (by omega)
    have hnat : ¬ ((body.length : Int) < 0) := by omega
    unfold parseBuffer
    simp only [hsize, hnat, if_false, Int.toNat_natCast, List.take_length]

end Agree

end AppChat
